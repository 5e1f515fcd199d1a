import PonsWarp.Core.RarestFirst
import PonsWarp.Core.SendFailures

set_option autoImplicit false

/-!
Whom the grid asks. Advertised providers are asked while they are connected; the owner, when it
stands in for them, whatever its connection is.
-/

namespace PonsWarp.Core

open PonsWarp.Data

namespace Engine

variable {σ : Type} {e e' e'' : Engine σ} {cfg : Config} {t : Turn} {f : FileId} {G : Grant}
variable {options : GridScheduleOptions} {i : Nat} {p : PeerId}

/-- Apart from events, nothing has been sent, and the transport is as before. -/
def Silent (e e' : Engine σ) : Prop := e.Quiet e' ∧ e'.transport = e.transport

theorem Silent.trans (h : e.Silent e') (h' : e'.Silent e'') : e.Silent e'' :=
  ⟨h.1.trans h'.1, h'.2.trans h.2⟩

theorem silent_of_changes [StorageAdapter σ] (hG : ∀ x, ¬ G (.effect x)) (hg : ¬ G .configure)
    (h : Changes t G e e') : e.Silent e' := by
  refine ⟨quiet_of_changes hG h, ?_⟩
  refine h.keeps (P := fun x => x.transport = e.transport) ?_ rfl
  intro x x' hc hx
  cases hc with
  | configure bytes transport subscribed ht hconfigure => exact absurd hconfigure hg
  | register manifest =>
    unfold registerManifest
    simp only
    split <;> exact hx
  | _ => exact hx

/-- How a stretch that asks for a piece by the grid ends: it schedules none and has sent none,
or it sends the request for the one it schedules. -/
inductive Scheduling (t : Turn) (f : FileId) (e : Engine σ) : Engine σ × Next → Prop
  | idle (result : Engine σ × Next) (h : e.Silent result.1)
      (hs : ∀ i p, ¬ result.2.Schedules i p) : Scheduling t f e result
  | sends (mid : Engine σ) (p : PeerId) (i : Nat) (requestId : RequestId) (reason : GridReason)
      (h : e.Silent mid) :
      Scheduling t f e ((mid.sendPieceRequest t p f i requestId).1,
        (mid.sendPieceRequest t p f i requestId).2.andThen
          (.gridSent (.scheduled i p requestId reason)))

theorem Scheduling.stop (h : e.Silent e') (outcome : Except Failure Value) :
    e.Scheduling t f (e', .done outcome) :=
  .idle _ h fun _ _ => Next.not_schedules_done

theorem Scheduling.after {result : Engine σ × Next} (h : e'.Scheduling t f result)
    (hs : e.Silent e') : e.Scheduling t f result := by
  cases h with
  | idle _ h hn => exact .idle _ (hs.trans h) hn
  | sends mid p i requestId reason h => exact .sends mid p i requestId reason (hs.trans h)

theorem scheduling_scheduleRanked (ref : Nat) (now : Number) (pieces : List RankedPiece) :
    e.Scheduling t f (e.scheduleRanked cfg t f ref options now pieces) := by
  have hrefl : ∀ mid : Engine σ, mid.log = e.log → mid.transport = e.transport → e.Silent mid :=
    fun mid hl ht => ⟨⟨[], by simp [hl], by simp⟩, ht⟩
  induction pieces with
  | nil => exact .stop (hrefl e rfl rfl) _
  | cons item rest ih =>
    unfold scheduleRanked
    split
    · exact .stop (hrefl e rfl rfl) _
    · split
      · exact ih
      · rename_i provider others _
        simp only
        split
        · exact .stop (hrefl _ rfl rfl) _
        · split
          · refine .stop (hrefl _ ?_ ?_) _ <;> rfl
          · rename_i e₁ he₁
            unfold onManager at he₁
            split at he₁
            · cases he₁
              exact .sends _ provider.peerId item.index _ _ (hrefl _ rfl rfl)
            · cases he₁

theorem scheduling_requestNextGridPiece [StorageAdapter σ] :
    e.Scheduling t f (e.requestNextGridPiece cfg t f options) := by
  have hrefl : e.Silent e := ⟨.refl e, rfl⟩
  unfold requestNextGridPiece
  split
  · exact .stop hrefl _
  · rename_i ref _
    simp only
    split
    · exact .stop hrefl _
    · have hexpire : e.Silent
          (e.expireRequestLeases cfg (options.now.getD (t.now : Number))).1 := by
        have hc : Changes t (Grant.leases
            (e.availability.expireLeases (options.now.getD (t.now : Number))).1) e
              (e.expireRequestLeases cfg (options.now.getD (t.now : Number))).1 :=
          changes_expireRequestLeases _ le_rfl
        exact silent_of_changes (fun _ => id) id hc
      split
      · rename_i e₁ err he₁
        rw [he₁] at hexpire
        exact .stop hexpire _
      · rename_i e₁ he₁
        rw [he₁] at hexpire
        split
        · exact .stop hexpire _
        · rename_i e₂ he₂
          have hensure : e₁.Silent e₂ := by
            obtain ⟨table, rfl⟩ := ensureAvailability_fields he₂
            exact ⟨⟨[], by simp, by simp⟩, rfl⟩
          split
          · rename_i e₃ err he₃
            have hrank := changes_rankPieces (t := t) (G := ⊥) (e := e₂) f (e₂.managerAt ref)
              (candidateSet options) options.ownerPeerId (options.maxRequestsPerPeer.getD 1)
              (activePerPeer e₂.outstandingRequests.values) (options.now.getD (t.now : Number))
              (e.managerAt ref).getMissingPieces
            rw [he₃] at hrank
            exact .stop ((hexpire.trans hensure).trans (silent_of_changes (fun _ => id) id hrank)) _
          · rename_i e₃ ranked he₃
            obtain ⟨⟨known, rfl⟩, -⟩ := rankPieces_spec he₃
            have hknown : e₂.Silent { e₂ with knownPeers := known } :=
              ⟨⟨[], by simp, by simp⟩, rfl⟩
            exact (scheduling_scheduleRanked ref _ _).after
              ((hexpire.trans hensure).trans hknown)

/-- A request for the piece is sent to the peer. -/
def SendsTo (result : Engine σ × Next) (e : Engine σ) (f : FileId) (i : Nat) (p : PeerId) : Prop :=
  ∃ requestId failure l, result.1.log = e.log ++ l ∧
    .send p (.PIECE_REQUEST ⟨f, i, requestId, 0⟩) failure ∈ l

theorem Silent.not_sendsTo {result : Engine σ × Next} (h : e.Silent result.1) :
    ¬ SendsTo result e f i p := by
  rintro ⟨requestId, failure, l, hlog, hmem⟩
  obtain ⟨l', hl', hevents⟩ := h.1
  rw [hl', List.append_cancel_left_eq] at hlog
  obtain ⟨event, hevent⟩ := hevents _ (hlog ▸ hmem)
  cases hevent

/-- What is sent is the request for the piece that is scheduled, if there is a transport. -/
theorem Scheduling.sendsTo_iff {result : Engine σ × Next} (h : e.Scheduling t f result) :
    SendsTo result e f i p ↔ e.transport = true ∧ result.2.Schedules i p := by
  cases h with
  | idle _ h hs =>
    simp only [hs, and_false, iff_false]
    exact h.not_sendsTo
  | sends mid q j requestId reason h =>
    rw [sendPieceRequest_schedules]
    obtain ⟨⟨l, hl, hevents⟩, ht⟩ := h
    by_cases htransport : mid.transport = true
    · have hsent : (mid.sendPieceRequest t q f j requestId).1.log =
          e.log ++ (l ++ [.send q (.PIECE_REQUEST ⟨f, j, requestId, 0⟩) (t.sendFailure q)]) := by
        simp [sendPieceRequest, send, htransport, hl]
      simp only [SendsTo, hsent, List.append_cancel_left_eq, ← ht, htransport, true_and]
      constructor
      · rintro ⟨x, failure, l', rfl, hmem⟩
        rcases List.mem_append.1 hmem with hmem | hmem
        · obtain ⟨event, hevent⟩ := hevents _ hmem
          cases hevent
        · simp only [List.mem_singleton, Effect.send.injEq, TransferMessage.PIECE_REQUEST.injEq,
            PieceRequestMessage.mk.injEq, Nat.cast_inj] at hmem
          exact ⟨hmem.2.1.2.1.symm, hmem.1.symm⟩
      · rintro ⟨rfl, rfl⟩
        exact ⟨requestId, t.sendFailure q, _, rfl, by simp⟩
    · have hsent : (mid.sendPieceRequest t q f j requestId).1 = mid := by
        simp [sendPieceRequest, send, htransport]
      rw [← ht]
      simp only [htransport, Bool.false_eq_true, false_and, iff_false]
      refine Silent.not_sendsTo ⟨⟨l, ?_, hevents⟩, ?_⟩
      · simp [hsent, hl]
      · simp [hsent, ht]

section

variable (e : Engine σ) (cfg : Config) (t : Turn) (f : FileId) (options : GridScheduleOptions)

/-- Whom a grid request may ask for a piece. -/
structure MayAsk (i : Nat) (p : PeerId) : Prop where
  candidate : p ∈ options.candidatePeers ∨ p = options.ownerPeerId
  connected : (e.peerHealth.get p).connectionState = .connected
  room : (activePerPeer e.outstandingRequests.values p : Number) <
    options.maxRequestsPerPeer.getD 1
  advert : p = options.ownerPeerId ∨
    ∃ provider ∈ e.availability.getProviders f i (options.time t), provider.peerId = p

/-- The owner is not connected, and it is the first choice for the piece that comes first: the
branch in which it stands in for the advertised providers is taken. -/
structure FallsBack : Prop where
  transport : e.transport = true
  view : (e.gridView cfg t f options).2 = .ok ()
  known : e.Known cfg t f options
  unconnected : ((e.gridView cfg t f options).1.peerHealth.get
    options.ownerPeerId).connectionState ≠ .connected
  first : ∃ x, e.First cfg t f options x ∧
    x.providers.head?.map (·.peerId) = some options.ownerPeerId

end

theorem mem_candidateSet : p ∈ candidateSet options ↔
    p ∈ options.candidatePeers ∨ p = options.ownerPeerId := by
  have hfold : ∀ (l seen : List PeerId), p ∈ l.foldl insertNew seen ↔ p ∈ seen ∨ p ∈ l := by
    intro l
    induction l with
    | nil => simp
    | cons a rest ih =>
      intro seen
      simp only [List.foldl_cons, ih, mem_insertNew, List.mem_cons]
      tauto
  simp [candidateSet, hfold]

end Engine

/-- Whenever `requestNextGridPiece` asks a peer it may ask it, unless the owner that is not
connected stands in. -/
theorem grid_asks_whom_it_may {σ : Type} [StorageAdapter σ] (e : Engine σ) (cfg : Config)
    (t : Turn) (f : FileId) (options : GridScheduleOptions) :
    (∀ i p, Engine.SendsTo (e.requestNextGridPiece cfg t f options) e f i p →
      (e.gridView cfg t f options).1.MayAsk t f options i p) ↔ ¬ e.FallsBack cfg t f options := by
  have hsends : ∀ i p, Engine.SendsTo (e.requestNextGridPiece cfg t f options) e f i p ↔
      e.transport = true ∧ (e.requestNextGridPiece cfg t f options).2.Schedules i p :=
    fun i p => Engine.scheduling_requestNextGridPiece.sendsTo_iff
  constructor
  · rintro h ⟨htransport, hview, hknown, hunconnected, x, hx, howner⟩
    have hsent := (hsends x.index options.ownerPeerId).2 ⟨htransport,
      (Engine.requestNextGridPiece_schedules _ _).2 ⟨hview, hknown, x, hx, rfl, howner⟩⟩
    exact hunconnected (h _ _ hsent).connected
  · intro h i p hsent
    obtain ⟨htransport, hschedules⟩ := (hsends i p).1 hsent
    obtain ⟨hview, hknown, x, hx, rfl, hhead⟩ :=
      (Engine.requestNextGridPiece_schedules i p).1 hschedules
    obtain ⟨provider, hprovider, rfl⟩ := Option.map_eq_some_iff.1 hhead
    have heligible : (e.gridView cfg t f options).1.Eligible t f options x.index
        provider.peerId := by
      obtain ⟨piece, -, -, -, rfl⟩ := hx.free
      exact Engine.mem_providers_rankFor.1 ⟨provider, List.mem_of_mem_head? hprovider, rfl⟩
    obtain ⟨hcandidate, hroom, hadvert⟩ := heligible
    refine ⟨Engine.mem_candidateSet.1 hcandidate, ?_, hroom, hadvert.imp_right And.right⟩
    by_contra hunconnected
    rcases hadvert with howner | ⟨hconnected, -⟩
    · rw [howner] at hunconnected hhead
      exact h ⟨htransport, hview, hknown, hunconnected, x, hx, hhead⟩
    · exact hunconnected hconnected

namespace Sample

/-- The owner is not connected any more, and nobody has announced anything. -/
def ownerGone : World MemoryStorageAdapter :=
  steps (World.step config) start (joined ++
    [(turn, .call (.setPeerHealth "o" fun h => { h with connectionState := .disconnected }))])

end Sample

/-- The owner is asked though it is not connected. -/
theorem disconnected_owner_is_asked : ¬ ∀ (w : World MemoryStorageAdapter),
    Run (World.step Sample.config) (fun _ _ => True) Sample.start w →
    ∀ (t : Turn) (f : FileId) (options : GridScheduleOptions) (i : Nat) (p : PeerId),
      Engine.SendsTo (w.engine.requestNextGridPiece Sample.config t f options) w.engine f i p →
      (w.engine.gridView Sample.config t f options).1.MayAsk t f options i p := by
  intro h
  have hsent : Engine.SendsTo (Sample.ownerGone.engine.requestNextGridPiece Sample.config
      Sample.turn "f" Sample.gridOptions) Sample.ownerGone.engine "f" 0 "o" :=
    Engine.scheduling_requestNextGridPiece.sendsTo_iff.2
      ⟨by decide +kernel, by unfold Next.Schedules; decide +kernel⟩
  have hconnected := (h Sample.ownerGone (run_steps _ _) Sample.turn "f" Sample.gridOptions 0 "o"
    hsent).connected
  revert hconnected
  decide +kernel

end PonsWarp.Core
