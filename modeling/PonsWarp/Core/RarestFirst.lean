import PonsWarp.Core.GridOrder

set_option autoImplicit false

/-!
Rarest first by peer ids: the order of pieces and providers as it is specified,
and what becomes of it when the recorded role of a provider is not that of its id.
-/

namespace PonsWarp.Core

open PonsWarp.Data

namespace RankedPiece

/-- The order of `before` with another test for a provider that is not the owner. -/
def beforeBy (receiver : RankedPiece → Bool) (a b : RankedPiece) : Prop :=
  (receiver a = true ∧ receiver b = false) ∨
  (receiver a = receiver b ∧
    (a.rarityCount < b.rarityCount ∨ (a.rarityCount = b.rarityCount ∧
      (a.retryCount < b.retryCount ∨ (a.retryCount = b.retryCount ∧ a.index ≤ b.index)))))

/-- Someone else than the owner can be asked. -/
def hasOther (ownerPeerId : PeerId) (x : RankedPiece) : Bool :=
  x.providers.any fun p => p.peerId ≠ ownerPeerId

/-- The recorded roles give the wrong answer to whether someone else can be asked. -/
def Misread (ownerPeerId : PeerId) (x : RankedPiece) : Prop :=
  x.hasReceiver ≠ x.hasOther ownerPeerId

theorem beforeBy_of_before {owner : PeerId} {x y : RankedPiece} (hx : ¬ x.Misread owner)
    (hy : ¬ y.Misread owner) (h : x.before y) : x.beforeBy (hasOther owner) y := by
  have hx : x.hasReceiver = x.hasOther owner := not_not.1 hx
  have hy : y.hasReceiver = y.hasOther owner := not_not.1 hy
  unfold before at h
  rw [hx, hy] at h
  exact h

end RankedPiece

/-- The recorded role says owner and the id does not, or the other way round. -/
def ProviderState.Misrecorded (ownerPeerId : PeerId) (p : ProviderState) : Prop :=
  ¬ (p.role = .owner ↔ p.peerId = ownerPeerId)

/-- With the higher score, and with fewer requests among equals. -/
def Preferred {α : Type} (score : α → Number) (active : α → Nat) (a b : α) : Prop :=
  score b < score a ∨ (score a = score b ∧ active a ≤ active b)

instance {α : Type} (score : α → Number) (active : α → Nat) :
    DecidableRel (Preferred score active) := fun a b =>
  inferInstanceAs (Decidable (score b < score a ∨ (score a = score b ∧ active a ≤ active b)))

theorem preferred_total {α : Type} (score : α → Number) (active : α → Nat) (a b : α) :
    Preferred score active a b ∨ Preferred score active b a := by
  obtain h | h | h := lt_trichotomy (score a) (score b)
  · exact .inr (.inl h)
  · obtain hle | hle := Nat.le_total (active a) (active b)
    · exact .inl (.inr ⟨h, hle⟩)
    · exact .inr (.inr ⟨h.symm, hle⟩)
  · exact .inl (.inl h)

theorem preferred_trans {α : Type} {score : α → Number} {active : α → Nat} {a b c : α}
    (hab : Preferred score active a b) (hbc : Preferred score active b c) :
    Preferred score active a c := by
  obtain hab | ⟨hab, hle⟩ := hab
  · obtain hbc | ⟨hbc, -⟩ := hbc
    · exact .inl (hbc.trans hab)
    · exact .inl (hbc ▸ hab)
  · obtain hbc | ⟨hbc, hle'⟩ := hbc
    · exact .inl (hab ▸ hbc)
    · exact .inr ⟨hab.trans hbc, hle.trans hle'⟩

namespace Engine

variable {σ : Type}

section

variable (e : Engine σ) (cfg : Config) (t : Turn) (f : FileId) (options : GridScheduleOptions)

/-- The health score of a peer, with the penalty of the owner. -/
def scoreOf (peer : PeerId) : Number :=
  (e.peerHealth.get peer).score + (if peer = options.ownerPeerId then -5 else 0)

/-- The score that `rankProviders` computes from the recorded role. -/
def recordedScore (p : ProviderState) : Number :=
  (e.peerHealth.get p.peerId).score + (if p.role = .owner then -5 else 0)

/-- Peer `a` is as good a choice as `b`. -/
def Prefers (a b : PeerId) : Prop :=
  Preferred (e.scoreOf options) (activePerPeer e.outstandingRequests.values) a b

/-- What a grid request schedules is the least free piece that can be asked for, in the order
by peer ids, and its provider the best of those that may be asked for it. -/
def RarestFirst [StorageAdapter σ] : Prop :=
  ∀ i p, (e.requestNextGridPiece cfg t f options).2.Schedules i p →
    (e.gridView cfg t f options).1.Eligible t f options i p ∧
    (∃ x, e.Free cfg t f options x ∧ x.index = i ∧
      ∀ y, e.Free cfg t f options y →
        (∃ peer, (e.gridView cfg t f options).1.Eligible t f options y.index peer) →
        x.beforeBy (RankedPiece.hasOther options.ownerPeerId) y) ∧
    ∀ q, (e.gridView cfg t f options).1.Eligible t f options i q →
      (e.gridView cfg t f options).1.Prefers options p q

/-- Where a recorded role is wrong, it does not change which piece and which provider come
first. -/
def RolesHarmless : Prop :=
  (e.gridView cfg t f options).2 = .ok () → e.Known cfg t f options →
    ∀ x p others, e.First cfg t f options x → x.providers = p :: others →
      (∀ y, e.Free cfg t f options y → y.providers ≠ [] →
        x.Misread options.ownerPeerId ∨ y.Misread options.ownerPeerId →
        x.beforeBy (RankedPiece.hasOther options.ownerPeerId) y) ∧
      ∀ q ∈ x.providers, p.Misrecorded options.ownerPeerId ∨ q.Misrecorded options.ownerPeerId →
        (e.gridView cfg t f options).1.Prefers options p.peerId q.peerId

end

variable {e : Engine σ} {cfg : Config} {t : Turn} {f : FileId} {options : GridScheduleOptions}

theorem recordedScore_eq {p : ProviderState} (h : ¬ p.Misrecorded options.ownerPeerId) :
    e.recordedScore p = e.scoreOf options p.peerId := by
  have hrole : p.role = .owner ↔ p.peerId = options.ownerPeerId := not_not.1 h
  simp [recordedScore, scoreOf, hrole]

/-- The first provider of a ranked piece is the best one by the recorded roles. -/
theorem head_preferred {piece : PieceState} {p : ProviderState} {others : List ProviderState}
    (h : (e.rankFor t f options piece).providers = p :: others) :
    ∀ q ∈ (e.rankFor t f options piece).providers, Preferred e.recordedScore
      (fun q => activePerPeer e.outstandingRequests.values q.peerId) p q := by
  have hsorted : (p :: others).Pairwise (Preferred e.recordedScore
      fun q => activePerPeer e.outstandingRequests.values q.peerId) := by
    have : Std.Total (Preferred e.recordedScore
        fun q => activePerPeer e.outstandingRequests.values q.peerId) := ⟨preferred_total _ _⟩
    have : IsTrans ProviderState (Preferred e.recordedScore
        fun q => activePerPeer e.outstandingRequests.values q.peerId) :=
      ⟨fun _ _ _ => preferred_trans⟩
    rw [← h]
    exact List.pairwise_insertionSort (Preferred e.recordedScore
      fun q => activePerPeer e.outstandingRequests.values q.peerId) _
  intro q hq
  rw [h] at hq
  cases List.mem_cons.1 hq with
  | inl hq =>
    subst hq
    exact (preferred_total _ _ q q).elim id id
  | inr hq => exact (List.pairwise_cons.1 hsorted).1 q hq

/-- No role is wrong when each advertised provider is recorded as the owner exactly under the
owner's id. -/
theorem rolesHarmless_of_agree (hagree : ∀ i, ∀ p ∈
    (e.gridView cfg t f options).1.advertised t f options i,
      ¬ p.Misrecorded options.ownerPeerId) : e.RolesHarmless cfg t f options := by
  have hright : ∀ x, e.Free cfg t f options x → ∀ p ∈ x.providers,
      ¬ p.Misrecorded options.ownerPeerId := by
    rintro x ⟨piece, -, -, -, rfl⟩ p hp
    obtain h | ⟨-, -, rfl⟩ := mem_providers.1 hp
    · exact hagree piece.index p h
    · simp [ProviderState.Misrecorded]
  have hread : ∀ x, e.Free cfg t f options x → ¬ x.Misread options.ownerPeerId := by
    intro x hx hmisread
    refine hmisread ?_
    unfold RankedPiece.hasReceiver RankedPiece.hasOther
    rw [Bool.eq_iff_iff]
    simp only [List.any_eq_true, decide_eq_true_eq]
    have hrole : ∀ p ∈ x.providers, p.role = .owner ↔ p.peerId = options.ownerPeerId :=
      fun p hp => not_not.1 (hright x hx p hp)
    constructor
    · rintro ⟨p, hp, hne⟩
      exact ⟨p, hp, fun he => hne ((hrole p hp).2 he)⟩
    · rintro ⟨p, hp, hne⟩
      exact ⟨p, hp, fun he => hne ((hrole p hp).1 he)⟩
  intro _ _ x p others hx hp
  constructor
  · intro y hy _ hwrong
    exact absurd hwrong (not_or.2 ⟨hread x hx.free, hread y hy⟩)
  · intro q hq hwrong
    have hmem : p ∈ x.providers := by simp [hp]
    exact absurd hwrong (not_or.2 ⟨hright x hx.free p hmem, hright x hx.free q hq⟩)

end Engine

/-- Exactly then a grid request is rarest first. -/
theorem grid_requests_are_rarest_first {σ : Type} [StorageAdapter σ] (e : Engine σ) (cfg : Config)
    (t : Turn) (f : FileId) (options : GridScheduleOptions) :
    e.RarestFirst cfg t f options ↔ e.RolesHarmless cfg t f options := by
  constructor
  · intro h hview hknown x p others hx hp
    have hschedules : (e.requestNextGridPiece cfg t f options).2.Schedules x.index p.peerId :=
      (Engine.requestNextGridPiece_schedules _ _).2 ⟨hview, hknown, x, hx, rfl, by simp [hp]⟩
    obtain ⟨-, ⟨x', hx', hindex, hbefore⟩, hbest⟩ := h _ _ hschedules
    obtain rfl := hx'.unique hx.free hindex
    constructor
    · intro y hy hne _
      exact hbefore y hy ((Engine.providers_ne_nil hy).1 hne)
    · intro q hq _
      obtain ⟨piece, -, -, -, rfl⟩ := hx'
      exact hbest q.peerId (Engine.mem_providers_rankFor.1 ⟨q, hq, rfl⟩)
  · intro h i peer hschedules
    obtain ⟨hview, hknown, x, hx, rfl, hp⟩ :=
      (Engine.requestNextGridPiece_schedules i peer).1 hschedules
    cases hproviders : x.providers with
    | nil => simp [hproviders] at hp
    | cons p others =>
      obtain rfl : p.peerId = peer := by simpa [hproviders] using hp
      obtain ⟨hpieces, hbest⟩ := h hview hknown x p others hx hproviders
      have hmem : p ∈ x.providers := by simp [hproviders]
      obtain ⟨piece, hpiece⟩ := hx.free
      have hranked := hpiece.2.2.2
      subst hranked
      refine ⟨Engine.mem_providers_rankFor.1 ⟨p, hmem, rfl⟩, ⟨_, hx.free, rfl, ?_⟩, ?_⟩
      · intro y hy heligible
        have hne := (Engine.providers_ne_nil hy).2 heligible
        by_cases hmisread : RankedPiece.Misread options.ownerPeerId
            ((e.gridView cfg t f options).1.rankFor t f options piece) ∨
              y.Misread options.ownerPeerId
        · exact hpieces y hy hne hmisread
        · rw [not_or] at hmisread
          exact RankedPiece.beforeBy_of_before hmisread.1 hmisread.2 (hx.before y hy (.inr hne))
      · intro q hq
        obtain ⟨q, hmemq, rfl⟩ := Engine.mem_providers_rankFor.2 hq
        by_cases hwrong : p.Misrecorded options.ownerPeerId ∨ q.Misrecorded options.ownerPeerId
        · exact hbest q hmemq hwrong
        · rw [not_or] at hwrong
          have hpreferred := Engine.head_preferred hproviders q hmemq
          unfold Preferred at hpreferred
          rw [Engine.recordedScore_eq hwrong.1, Engine.recordedScore_eq hwrong.2] at hpreferred
          exact hpreferred

namespace Sample

def fullMap (peer : PeerId) : Turn × Action :=
  (turn, .message peer (some { WireMessage.blank "PIECE_MAP" with
    fileId := some "f", totalPieces := some 1, generation := some 1, updatedAt := some 0,
    verifiedPieces := some [some 0] }))

/-- The owner and a receiver have announced the piece of the file. -/
def announced : World MemoryStorageAdapter :=
  steps (World.step config) start (joined ++ [fullMap "o", fullMap "r"])

end Sample

/-- The map of the owner `o` has been recorded as a receiver's, so the owner is asked before
the receiver of the same health. -/
theorem owner_is_asked_before_receiver :
    ∃ w, Run (World.step Sample.config) (fun _ _ => True) Sample.start w ∧
      ¬ w.engine.RarestFirst Sample.config Sample.turn "f" Sample.gridOptions := by
  refine ⟨Sample.announced, run_steps _ _, fun h => ?_⟩
  have hr : (Sample.announced.engine.gridView Sample.config Sample.turn "f"
      Sample.gridOptions).1.Eligible Sample.turn "f" Sample.gridOptions 0 "r" :=
    ⟨by decide +kernel, by decide +kernel, .inr ⟨by decide +kernel, by decide +kernel⟩⟩
  have hprefers := (h 0 "o" (by unfold Next.Schedules; decide +kernel)).2.2 "r" hr
  revert hprefers
  unfold Engine.Prefers Preferred
  decide +kernel

end PonsWarp.Core
