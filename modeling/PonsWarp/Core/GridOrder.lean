import PonsWarp.Core.Pacing

set_option autoImplicit false

/-!
Which piece a grid request schedules: the pieces that are missing and not leased
are tried in the order of `RankedPiece.before`, and the first that has used up its
retries or has a provider decides.
-/

namespace PonsWarp.Core

open PonsWarp.Data

namespace RankedPiece

theorem before_total (a b : RankedPiece) : a.before b ∨ b.before a := by
  unfold before
  cases a.hasReceiver <;> cases b.hasReceiver <;> simp <;> omega

theorem before_trans {a b c : RankedPiece} (hab : a.before b) (hbc : b.before c) :
    a.before c := by
  unfold before at hab hbc ⊢
  revert hab hbc
  cases a.hasReceiver <;> cases b.hasReceiver <;> cases c.hasReceiver <;> simp <;> omega

instance : Std.Total before := ⟨before_total⟩

instance : IsTrans RankedPiece before := ⟨fun _ _ _ => before_trans⟩

theorem before_refl (a : RankedPiece) : a.before a := (before_total a a).elim id id

/-- Two pieces of which each comes before the other agree in every key. -/
theorem before_antisymm {a b : RankedPiece} (hab : a.before b) (hba : b.before a) :
    a.index = b.index ∧ a.retryCount = b.retryCount := by
  unfold before at hab hba
  revert hab hba
  cases a.hasReceiver <;> cases b.hasReceiver <;> simp <;> omega

/-- The piece ends the search: its retries are used up, or it can be asked for. -/
def Decides (cfg : Config) (x : RankedPiece) : Prop :=
  cfg.maxRetries < x.retryCount ∨ x.providers ≠ []

end RankedPiece

/-- The piece and the provider of a method that has sent its request and will answer
`scheduled`. -/
def Next.scheduled? : Next → Option (Nat × PeerId)
  | .await _ [.gridSent (.scheduled index peerId _ _)] => some (index, peerId)
  | _ => none

/-- The answer of a grid request that ends at once. -/
def Next.answer? : Next → Option GridScheduleResult
  | .done (.ok (.grid result)) => result
  | _ => none

def Next.Schedules (next : Next) (index : Nat) (peerId : PeerId) : Prop :=
  next.scheduled? = some (index, peerId)

theorem Next.not_schedules_done {outcome : Except Failure Value} {i : Nat} {p : PeerId} :
    ¬ (Next.done outcome).Schedules i p := by
  simp [Schedules, scheduled?]

namespace Engine

variable {σ : Type}

theorem sendPieceRequest_schedules (e : Engine σ) (t : Turn) (p q : PeerId) (f : FileId)
    (i j : Nat) (requestId : RequestId) (reason : GridReason) :
    ((e.sendPieceRequest t p f i requestId).2.andThen
      (.gridSent (.scheduled i p requestId reason))).Schedules j q ↔ i = j ∧ p = q := by
  have hsent : ∃ pending, (e.sendPieceRequest t p f i requestId).2.andThen
      (.gridSent (.scheduled i p requestId reason)) =
        .await pending [.gridSent (.scheduled i p requestId reason)] := by
    unfold sendPieceRequest send
    split
    · exact ⟨_, rfl⟩
    · exact ⟨_, rfl⟩
  obtain ⟨pending, hsent⟩ := hsent
  rw [hsent]
  simp [Next.Schedules, Next.scheduled?]

theorem lease_isOk {table : PieceAvailabilityTable} {f : FileId} {i : Nat} {l : RequestLease} :
    (∃ table', table.lease f i l = .ok table') ↔ (table.piece? f i).isSome := by
  unfold PieceAvailabilityTable.lease
  cases table.piece? f i <;> simp

/-- The search of `requestNextGridPiece` over pieces in order: it schedules the first that
decides, when its retries are not used up and the table has an entry for it. -/
theorem scheduleRanked_schedules {e : Engine σ} {cfg : Config} {t : Turn} {f : FileId} {ref : Nat}
    {options : GridScheduleOptions} {now : Number} {ranked : List RankedPiece}
    (hsorted : ranked.Pairwise RankedPiece.before)
    (hsame : ∀ x ∈ ranked, ∀ y ∈ ranked, x.index = y.index → x = y)
    (hknown : ∀ x ∈ ranked, ∃ s, (e.managerAt ref).requirePiece x.index = .ok s)
    (i : Nat) (p : PeerId) :
    (e.scheduleRanked cfg t f ref options now ranked).2.Schedules i p ↔
      ∃ x ∈ ranked, x.retryCount ≤ cfg.maxRetries ∧
        (∀ y ∈ ranked, y.Decides cfg → x.before y) ∧
        (e.availability.piece? f x.index).isSome ∧ x.index = i ∧
        x.providers.head?.map (·.peerId) = some p := by
  induction ranked with
  | nil => simp [scheduleRanked, Next.ok, Next.not_schedules_done]
  | cons item rest ih =>
    have hfirst : ∀ y ∈ rest, item.before y := (List.pairwise_cons.1 hsorted).1
    have hrest := ih (List.pairwise_cons.1 hsorted).2
      (fun x hx y hy => hsame x (List.mem_cons_of_mem _ hx) y (List.mem_cons_of_mem _ hy))
      (fun x hx => hknown x (List.mem_cons_of_mem _ hx))
    unfold scheduleRanked
    by_cases hspent : cfg.maxRetries < item.retryCount
    · -- a piece before a spent one has as many retries behind it
      simp only [if_pos hspent, Next.ok, Next.not_schedules_done, false_iff]
      rintro ⟨x, hx, hle, hbefore, -⟩
      have hxi := hbefore item List.mem_cons_self (.inl hspent)
      obtain rfl | hx := List.mem_cons.1 hx
      · omega
      · have := (RankedPiece.before_antisymm hxi (hfirst x hx)).2
        omega
    · rw [if_neg hspent]
      cases hproviders : item.providers with
      | nil =>
        simp only [hrest]
        constructor
        · rintro ⟨x, hx, hle, hbefore, hrow⟩
          refine ⟨x, List.mem_cons_of_mem _ hx, hle, fun y hy hdec => ?_, hrow⟩
          obtain rfl | hy := List.mem_cons.1 hy
          · obtain h | h := hdec
            · exact absurd h hspent
            · exact absurd hproviders h
          · exact hbefore y hy hdec
        · rintro ⟨x, hx, hle, hbefore, hrow, hi, hp⟩
          obtain rfl | hx := List.mem_cons.1 hx
          · simp [hproviders] at hp
          · exact ⟨x, hx, hle, fun y hy => hbefore y (List.mem_cons_of_mem _ hy), hrow, hi, hp⟩
      | cons provider others =>
        have hdecides : item.Decides cfg := .inr (by simp [hproviders])
        -- whoever comes before all that decide is the first piece itself
        have honly : ∀ x ∈ item :: rest,
            (∀ y ∈ item :: rest, y.Decides cfg → x.before y) → x = item := by
          intro x hx hbefore
          have hxi := hbefore item List.mem_cons_self hdecides
          obtain rfl | hx' := List.mem_cons.1 hx
          · rfl
          · have hindex := (RankedPiece.before_antisymm hxi (hfirst x hx')).1
            exact hsame x hx item List.mem_cons_self hindex
        have hright : (∃ x ∈ item :: rest, x.retryCount ≤ cfg.maxRetries ∧
            (∀ y ∈ item :: rest, y.Decides cfg → x.before y) ∧
            (e.availability.piece? f x.index).isSome ∧ x.index = i ∧
            x.providers.head?.map (·.peerId) = some p) ↔
            (e.availability.piece? f item.index).isSome ∧ item.index = i ∧
              provider.peerId = p := by
          constructor
          · rintro ⟨x, hx, -, hbefore, hrow, hi, hp⟩
            obtain rfl := honly x hx hbefore
            exact ⟨hrow, hi, by simpa [hproviders] using hp⟩
          · rintro ⟨hrow, hi, hp⟩
            refine ⟨item, List.mem_cons_self, Nat.le_of_not_lt hspent, fun y hy _ => ?_, hrow, hi,
              by simpa [hproviders] using hp⟩
            obtain rfl | hy := List.mem_cons.1 hy
            · exact RankedPiece.before_refl y
            · exact hfirst y hy
        rw [hright]
        obtain ⟨s, hs⟩ := hknown item List.mem_cons_self
        cases hlease : e.availability.lease f item.index ⟨provider.peerId,
            t.createRequestId f item.index, now, now + options.requestLeaseMs.getD 15000⟩ with
        | error err =>
          have hnone : ¬ (e.availability.piece? f item.index).isSome := by
            rw [← lease_isOk]
            rintro ⟨table, htable⟩
            rw [hlease] at htable
            cases htable
          simp [hnone, hlease, Next.throw, Next.not_schedules_done]
        | ok table =>
          have hsome : (e.availability.piece? f item.index).isSome := lease_isOk.1 ⟨table, hlease⟩
          obtain ⟨m, hm⟩ : ∃ m, (e.managerAt ref).markRequested item.index provider.peerId = .ok m := by
            simp [PieceManager.markRequested, PieceManager.update, hs]
          have hmarked : ({ e with availability := table } : Engine σ).onManager ref
              (fun m => m.markRequested item.index provider.peerId) =
                .ok ({ e with availability := table }.putManager ref m) := by
            simp only [onManager, managerAt] at hm ⊢
            simp only [hm]
          simp only [hlease, hmarked, sendPieceRequest_schedules]
          simp [hsome]

section

variable (e : Engine σ) (cfg : Config) (t : Turn) (f : FileId)
variable (options : GridScheduleOptions)

/-- What `requestNextGridPiece` does before it looks at the pieces: the leases that are due
expire, and the owner's map stands in when the table has none. -/
def gridView : Engine σ × Except Failure Unit :=
  match e.expireRequestLeases cfg (options.time t) with
  | (e, .error err) => (e, .error err)
  | (e, .ok ()) =>
    match e.ensureAvailability f options (options.time t) with
    | .error err => (e, .error err)
    | .ok e => (e, .ok ())

/-- A piece as it is ranked. -/
def rankFor (piece : PieceState) : RankedPiece :=
  e.rankPiece f (candidateSet options) options.ownerPeerId (options.maxRequestsPerPeer.getD 1)
    (activePerPeer e.outstandingRequests.values) (options.time t) piece

/-- The indices that are missing when the request is made. -/
def missing : List Nat :=
  match e.managers.get? f with
  | some ref => (e.managerAt ref).getMissingPieces
  | none => []

/-- The state of a piece in the manager of its file. -/
def piece? (index : Nat) : Option PieceState :=
  match e.managers.get? f with
  | some ref => ((e.managerAt ref).requirePiece index).toOption
  | none => none

/-- A missing piece without a lease, as it is ranked. -/
def Free (x : RankedPiece) : Prop :=
  ∃ piece, piece.index ∈ e.missing f ∧
    (e.gridView cfg t f options).1.piece? f piece.index = some piece ∧
    (e.gridView cfg t f options).1.availability.getLease f piece.index = none ∧
    x = (e.gridView cfg t f options).1.rankFor t f options piece

/-- Every missing piece is known to its manager under its index. -/
def Known : Prop :=
  ∀ i ∈ e.missing f, ((e.gridView cfg t f options).1.piece? f i).isSome

/-- The free piece that is asked for: it comes before all that decide. -/
structure First (x : RankedPiece) : Prop where
  free : e.Free cfg t f options x
  retries : x.retryCount ≤ cfg.maxRetries
  before : ∀ y, e.Free cfg t f options y → y.Decides cfg → x.before y
  entry : ((e.gridView cfg t f options).1.availability.piece? f x.index).isSome

variable {e cfg t f options}

theorem managers_gridView [StorageAdapter σ] :
    (e.gridView cfg t f options).1.managers = e.managers := by
  have hexpired : (e.expireRequestLeases cfg (options.time t)).1.managers = e.managers :=
    managers_leases (t := t) (changes_expireRequestLeases _ le_rfl)
  unfold gridView
  split
  · rename_i e1 err he1
    rw [he1] at hexpired
    exact hexpired
  · rename_i e1 he1
    rw [he1] at hexpired
    split
    · exact hexpired
    · rename_i e2 he2
      obtain ⟨table, rfl⟩ := ensureAvailability_fields he2
      exact hexpired

theorem requestNextGridPiece_eq {ref : Nat} (href : e.managers.get? f = some ref)
    (hmissing : e.missing f ≠ []) :
    (e.requestNextGridPiece cfg t f options).2 =
      match e.gridView cfg t f options with
      | (_, .error err) => .throw err
      | (v, .ok ()) =>
        match rankPieces f (v.managerAt ref) (candidateSet options) options.ownerPeerId
            (options.maxRequestsPerPeer.getD 1) (activePerPeer v.outstandingRequests.values)
            (options.time t) (e.missing f) v with
        | (_, .error err) => .throw err
        | (v, .ok ranked) =>
          (v.scheduleRanked cfg t f ref options (options.time t)
            ((ranked.filter fun item => (v.availability.getLease f item.index).isNone).insertionSort
              RankedPiece.before)).2 := by
  have hm : e.missing f = (e.managerAt ref).getMissingPieces := by simp [missing, href]
  rw [hm] at hmissing ⊢
  simp only [requestNextGridPiece, requireManager, href, if_neg hmissing, gridView,
    GridScheduleOptions.time]
  obtain ⟨e1, expired⟩ := e.expireRequestLeases cfg (options.now.getD (t.now : Number))
  cases expired with
  | error err => rfl
  | ok u =>
    simp only
    cases e1.ensureAvailability f options (options.now.getD (t.now : Number)) with
    | error err => rfl
    | ok v =>
      simp only
      obtain ⟨v', ranked⟩ := rankPieces f (v.managerAt ref) (candidateSet options)
        options.ownerPeerId (options.maxRequestsPerPeer.getD 1)
        (activePerPeer v.outstandingRequests.values) (options.now.getD (t.now : Number))
        (e.managerAt ref).getMissingPieces v
      cases ranked with
      | error err => rfl
      | ok ranked => rfl

theorem piece?_eq_some {ref i : Nat} {piece : PieceState} (href : e.managers.get? f = some ref) :
    e.piece? f i = some piece ↔ (e.managerAt ref).requirePiece i = .ok piece := by
  simp only [piece?, href]
  cases (e.managerAt ref).requirePiece i <;> simp [Except.toOption]

/-- The ranking of the missing pieces: it succeeds exactly when they are all known, and the
free ones among them are then the free pieces. -/
theorem rankPieces_free [StorageAdapter σ] {ref : Nat} {v v' : Engine σ}
    {outcome : Except Failure (List RankedPiece)} (href : e.managers.get? f = some ref)
    (hview : (e.gridView cfg t f options).1 = v)
    (h : rankPieces f (v.managerAt ref) (candidateSet options) options.ownerPeerId
      (options.maxRequestsPerPeer.getD 1) (activePerPeer v.outstandingRequests.values)
      (options.time t) (e.missing f) v = (v', outcome)) :
    match outcome with
    | .error _ => ¬ e.Known cfg t f options
    | .ok ranked => (∃ known, v' = { v with knownPeers := known }) ∧ e.Known cfg t f options ∧
        ∀ x, x ∈ ranked.filter (fun item => (v.availability.getLease f item.index).isNone) ↔
          e.Free cfg t f options x := by
  subst hview
  have hv : (e.gridView cfg t f options).1.managers.get? f = some ref := by
    rw [managers_gridView, href]
  cases outcome with
  | error err =>
    intro hknown
    obtain ⟨i, hi, herr⟩ := rankPieces_error h
    obtain ⟨piece, hpiece⟩ := Option.isSome_iff_exists.1 (hknown i hi)
    rw [piece?_eq_some hv, herr] at hpiece
    cases hpiece
  | ok ranked =>
    obtain ⟨hsame, pieces, hpieces, -⟩ := rankPieces_spec h
    refine ⟨hsame, fun i hi => ?_, fun x => ?_⟩
    · obtain ⟨k, hk, hget⟩ := List.getElem_of_mem hi
      have hlt : k < pieces.length := hpieces.length_eq ▸ hk
      have hpiece := hpieces.get hk hlt
      simp only [List.get_eq_getElem, hget] at hpiece
      rw [(piece?_eq_some hv).2 hpiece]
      rfl
    · simp only [List.mem_filter, Option.isNone_iff_eq_none, mem_rankPieces_spec h]
      constructor
      · rintro ⟨⟨i, hi, piece, hpiece, rfl⟩, hlease⟩
        have hindex := (PieceManager.requirePiece_eq_ok.1 hpiece).2
        subst hindex
        exact ⟨piece, hi, (piece?_eq_some hv).2 hpiece, hlease, rfl⟩
      · rintro ⟨piece, hi, hpiece, hlease, rfl⟩
        exact ⟨⟨piece.index, hi, piece, (piece?_eq_some hv).1 hpiece, rfl⟩, hlease⟩

/-- A free piece is determined by its index, and its manager knows it. -/
theorem Free.unique {x y : RankedPiece} (hx : e.Free cfg t f options x)
    (hy : e.Free cfg t f options y) (h : x.index = y.index) : x = y := by
  obtain ⟨a, -, ha, -, rfl⟩ := hx
  obtain ⟨b, -, hb, -, rfl⟩ := hy
  have hindex : a.index = b.index := h
  rw [hindex, hb] at ha
  cases ha
  rfl

/-- `requestNextGridPiece` schedules the first free piece that decides, at its best
provider. -/
theorem requestNextGridPiece_schedules [StorageAdapter σ] (i : Nat) (p : PeerId) :
    (e.requestNextGridPiece cfg t f options).2.Schedules i p ↔
      (e.gridView cfg t f options).2 = .ok () ∧ e.Known cfg t f options ∧
        ∃ x, e.First cfg t f options x ∧ x.index = i ∧
          x.providers.head?.map (·.peerId) = some p := by
  by_cases hmissing : e.missing f = []
  · have hleft : ¬ (e.requestNextGridPiece cfg t f options).2.Schedules i p := by
      unfold requestNextGridPiece
      split
      · exact Next.not_schedules_done
      · rename_i ref href
        have hempty : (e.managerAt ref).getMissingPieces = [] := by
          simpa [missing, requireManager_eq_ok.1 href] using hmissing
        simp only [if_pos hempty]
        exact Next.not_schedules_done
    have hright : ∀ x, ¬ e.Free cfg t f options x := by
      rintro x ⟨piece, hmem, -⟩
      rw [hmissing] at hmem
      cases hmem
    constructor
    · exact fun h => absurd h hleft
    · rintro ⟨-, -, x, hx, -⟩
      exact absurd hx.free (hright x)
  · obtain ⟨ref, href⟩ : ∃ ref, e.managers.get? f = some ref := by
      unfold missing at hmissing
      split at hmissing
      · exact ⟨_, by assumption⟩
      · exact absurd rfl hmissing
    rw [requestNextGridPiece_eq href hmissing]
    cases hview : e.gridView cfg t f options with
    | mk v outcome =>
      cases outcome with
      | error err => simp [Next.throw, Next.not_schedules_done]
      | ok u =>
        simp only [true_and]
        have hv : (e.gridView cfg t f options).1 = v := by rw [hview]
        cases hrank : rankPieces f (v.managerAt ref) (candidateSet options) options.ownerPeerId
            (options.maxRequestsPerPeer.getD 1) (activePerPeer v.outstandingRequests.values)
            (options.time t) (e.missing f) v with
        | mk v' outcome =>
          have hfree := rankPieces_free href hv hrank
          cases outcome with
          | error err =>
            simp only [hfree, false_and, iff_false]
            exact Next.not_schedules_done
          | ok ranked =>
            obtain ⟨⟨known, rfl⟩, hknown, hfree⟩ := hfree
            have hmem : ∀ x, x ∈ (ranked.filter fun item =>
                (v.availability.getLease f item.index).isNone).insertionSort RankedPiece.before ↔
                  e.Free cfg t f options x := fun x => (List.mem_insertionSort _).trans (hfree x)
            have hv' : v.managers.get? f = some ref := by rw [← hv, managers_gridView, href]
            simp only [hknown, true_and]
            rw [scheduleRanked_schedules (List.pairwise_insertionSort _ _)]
            · constructor
              · rintro ⟨x, hx, hle, hbefore, hrow, hrest⟩
                refine ⟨x, ⟨(hmem x).1 hx, hle, fun y hy => hbefore y ((hmem y).2 hy), ?_⟩, hrest⟩
                rw [hv]
                exact hrow
              · rintro ⟨x, hx, hrest⟩
                refine ⟨x, (hmem x).2 hx.free, hx.retries,
                  fun y hy => hx.before y ((hmem y).1 hy), ?_, hrest⟩
                have hrow := hx.entry
                rw [hv] at hrow
                exact hrow
            · intro x hx y hy
              exact ((hmem x).1 hx).unique ((hmem y).1 hy)
            · intro x hx
              obtain ⟨piece, -, hpiece, -, rfl⟩ := (hmem x).1 hx
              rw [hv] at hpiece
              exact ⟨piece, (piece?_eq_some hv').1 hpiece⟩

section

variable (e : Engine σ) (cfg : Config) (t : Turn) (f : FileId) (options : GridScheduleOptions)

/-- A peer that may be asked for a piece: a candidate below its cap that is the owner, or is
connected and advertises the piece. -/
def Eligible (i : Nat) (peer : PeerId) : Prop :=
  peer ∈ candidateSet options ∧
  (activePerPeer e.outstandingRequests.values peer : Number) < options.maxRequestsPerPeer.getD 1 ∧
  (peer = options.ownerPeerId ∨
    ((e.peerHealth.get peer).connectionState = .connected ∧
      ∃ p ∈ e.availability.getProviders f i (options.time t), p.peerId = peer))

/-- A missing piece that could be scheduled now. -/
structure Schedulable (x : RankedPiece) : Prop where
  free : e.Free cfg t f options x
  retries : x.retryCount ≤ cfg.maxRetries
  eligible : ∃ peer, (e.gridView cfg t f options).1.Eligible t f options x.index peer

/-- A grid request schedules a piece whenever one can be scheduled. -/
structure Conserves [StorageAdapter σ] : Prop where
  schedules : (∃ x, e.Schedulable cfg t f options x) →
    ∃ i p, (e.requestNextGridPiece cfg t f options).2.Schedules i p
  exhausted : ∀ i, (e.requestNextGridPiece cfg t f options).2.answer? =
    some (.exhausted i "retry_limit") → ¬ ∃ x, e.Schedulable cfg t f options x
  idle : (e.requestNextGridPiece cfg t f options).2.answer? = some (.idle "no_available_peer") →
    ¬ ∃ x, e.Schedulable cfg t f options x

/-- When a piece can be scheduled, one that can comes before all that have used up their
retries, and nothing on the way to it throws. -/
def Unblocked : Prop :=
  (∃ x, e.Schedulable cfg t f options x) →
    (e.gridView cfg t f options).2 = .ok () ∧ e.Known cfg t f options ∧
      ∃ x, e.Schedulable cfg t f options x ∧ e.First cfg t f options x

end

/-- The advertised providers that `rankProviders` keeps. -/
def advertised (e : Engine σ) (t : Turn) (f : FileId) (options : GridScheduleOptions) (i : Nat) :
    List ProviderState :=
  (e.availability.getProviders f i (options.time t)).filter fun p =>
    p.peerId ∈ candidateSet options && (e.peerHealth.get p.peerId).connectionState = .connected &&
    (activePerPeer e.outstandingRequests.values p.peerId : Number) <
      options.maxRequestsPerPeer.getD 1

theorem mem_advertised {i : Nat} {p : ProviderState} : p ∈ e.advertised t f options i ↔
    p ∈ e.availability.getProviders f i (options.time t) ∧ p.peerId ∈ candidateSet options ∧
      (e.peerHealth.get p.peerId).connectionState = .connected ∧
      (activePerPeer e.outstandingRequests.values p.peerId : Number) <
        options.maxRequestsPerPeer.getD 1 := by
  simp [advertised, and_assoc]

/-- The providers of a ranked piece: the advertised ones, and the owner when it is not
among them and has room. -/
theorem mem_providers {piece : PieceState} {p : ProviderState} :
    p ∈ (e.rankFor t f options piece).providers ↔ p ∈ e.advertised t f options piece.index ∨
      ((∀ q ∈ e.advertised t f options piece.index, q.peerId ≠ options.ownerPeerId) ∧
        (activePerPeer e.outstandingRequests.values options.ownerPeerId : Number) <
          options.maxRequestsPerPeer.getD 1 ∧
        p = ⟨options.ownerPeerId, .owner, options.time t, options.time t + 30000,
          (e.peerHealth.get options.ownerPeerId).score⟩) := by
  have howner : options.ownerPeerId ∈ candidateSet options := by simp [candidateSet]
  simp only [rankFor, rankPiece, rankProviders, List.mem_insertionSort]
  rw [← advertised]
  split
  · rename_i hadd
    simp only [Bool.and_eq_true, Bool.not_eq_true', List.any_eq_false, decide_eq_true_eq] at hadd
    simp only [List.mem_append, List.mem_singleton]
    constructor
    · rintro (h | h)
      · exact .inl h
      · exact .inr ⟨hadd.1.1, hadd.2, h⟩
    · rintro (h | ⟨-, -, h⟩)
      · exact .inl h
      · exact .inr h
  · rename_i hadd
    constructor
    · exact .inl
    · rintro (h | ⟨hnone, hroom, -⟩)
      · exact h
      · refine absurd ?_ hadd
        simp only [Bool.and_eq_true, Bool.not_eq_true', List.any_eq_false, decide_eq_true_eq]
        exact ⟨⟨hnone, howner⟩, hroom⟩

theorem mem_providers_rankFor {piece : PieceState} {peer : PeerId} :
    (∃ p ∈ (e.rankFor t f options piece).providers, p.peerId = peer) ↔
      e.Eligible t f options piece.index peer := by
  constructor
  · rintro ⟨p, hp, rfl⟩
    obtain h | ⟨-, hroom, rfl⟩ := mem_providers.1 hp
    · obtain ⟨hmem, hcandidate, hconnected, hroom⟩ := mem_advertised.1 h
      exact ⟨hcandidate, hroom, .inr ⟨hconnected, p, hmem, rfl⟩⟩
    · exact ⟨by simp [candidateSet], hroom, .inl rfl⟩
  · rintro ⟨hcandidate, hroom, h⟩
    have hadvertised : ∀ q ∈ e.advertised t f options piece.index, q.peerId = peer →
        ∃ p ∈ (e.rankFor t f options piece).providers, p.peerId = peer :=
      fun q hq hpeer => ⟨q, mem_providers.2 (.inl hq), hpeer⟩
    obtain rfl | ⟨hconnected, q, hq, rfl⟩ := h
    · by_cases hnone : ∀ q ∈ e.advertised t f options piece.index, q.peerId ≠ options.ownerPeerId
      · exact ⟨_, mem_providers.2 (.inr ⟨hnone, hroom, rfl⟩), rfl⟩
      · obtain ⟨q, hq, hpeer⟩ : ∃ q ∈ e.advertised t f options piece.index,
            q.peerId = options.ownerPeerId := by simpa using hnone
        exact hadvertised q hq hpeer
    · exact hadvertised q (mem_advertised.2 ⟨hq, hcandidate, hconnected, hroom⟩) rfl

theorem providers_ne_nil {x : RankedPiece} (hx : e.Free cfg t f options x) :
    x.providers ≠ [] ↔
      ∃ peer, (e.gridView cfg t f options).1.Eligible t f options x.index peer := by
  obtain ⟨piece, -, -, -, rfl⟩ := hx
  constructor
  · intro h
    obtain ⟨p, hp⟩ := List.exists_mem_of_ne_nil _ h
    exact ⟨p.peerId, mem_providers_rankFor.1 ⟨p, hp, rfl⟩⟩
  · rintro ⟨peer, h⟩
    obtain ⟨p, hp, -⟩ := mem_providers_rankFor.2 h
    exact List.ne_nil_of_mem hp

end

end Engine

/-- Exactly then a grid request conserves work. -/
theorem grid_requests_conserve_work {σ : Type} [StorageAdapter σ] (e : Engine σ) (cfg : Config)
    (t : Turn) (f : FileId) (options : GridScheduleOptions) :
    e.Conserves cfg t f options ↔ e.Unblocked cfg t f options := by
  constructor
  · intro h hsome
    obtain ⟨i, p, hschedules⟩ := h.schedules hsome
    obtain ⟨hview, hknown, x, hx, -, hp⟩ :=
      (Engine.requestNextGridPiece_schedules i p).1 hschedules
    have hne : x.providers ≠ [] := by
      intro hnil
      simp [hnil] at hp
    exact ⟨hview, hknown, x, ⟨hx.free, hx.retries, (Engine.providers_ne_nil hx.free).1 hne⟩, hx⟩
  · intro h
    have hschedules : (∃ x, e.Schedulable cfg t f options x) →
        ∃ i p, (e.requestNextGridPiece cfg t f options).2.Schedules i p := by
      intro hsome
      obtain ⟨hview, hknown, x, hx, hfirst⟩ := h hsome
      have hne := (Engine.providers_ne_nil hx.free).2 hx.eligible
      obtain ⟨p, others, hp⟩ := List.exists_cons_of_ne_nil hne
      exact ⟨x.index, p.peerId, (Engine.requestNextGridPiece_schedules _ _).2
        ⟨hview, hknown, x, hfirst, rfl, by simp [hp]⟩⟩
    have hanswer : ∀ result, (e.requestNextGridPiece cfg t f options).2.answer? = some result →
        ¬ ∃ x, e.Schedulable cfg t f options x := by
      intro result hresult hsome
      obtain ⟨i, p, hs⟩ := hschedules hsome
      cases hnext : (e.requestNextGridPiece cfg t f options).2 with
      | await pending frames => simp [hnext, Next.answer?] at hresult
      | done outcome =>
        rw [hnext] at hs
        exact Next.not_schedules_done hs
    exact ⟨hschedules, fun i => hanswer _, hanswer _⟩

namespace Sample

/-- No piece is asked for a second time. -/
def strict : Config := { config with maxRetries := 0 }

def gridOptions : GridScheduleOptions := ⟨"o", ["r"], none, none, none, none, none, none⟩

/-- Peer `r` has the first piece, is asked for it and refuses. -/
def refused : World MemoryStorageAdapter :=
  steps (World.step strict) start
    [(turn, .call (.joinSession "s" [pair])), (turn, .resume 0), (turn, .resume 0),
     (turn, .message "r" (some { WireMessage.blank "PIECE_MAP" with
       fileId := some "f", totalPieces := some 2, generation := some 1, updatedAt := some 0,
       verifiedPieces := some [some 0] })),
     (turn, .call (.requestNextGridPiece "f" gridOptions)),
     (turn, .message "r" (some { WireMessage.blank "PIECE_REJECT" with
       requestId := some "req_f_0_0_a", reason := some "missing_piece" }))]

end Sample

/-- The first piece has used up its retries and comes first, so the second is not
scheduled, though the owner is free. -/
theorem spent_piece_blocks_the_others :
    ∃ w, Run (World.step Sample.strict) (fun _ _ => True) Sample.start w ∧
      ¬ w.engine.Conserves Sample.strict Sample.turn "f" Sample.gridOptions := by
  refine ⟨Sample.refused, run_steps _ _, fun h => ?_⟩
  refine h.exhausted 0 (by decide +kernel) ⟨_, ⟨⟨1, .missing, 1, 0, 0, none, none⟩,
    by decide +kernel, by decide +kernel, by decide +kernel, rfl⟩, by decide +kernel, "o", ?_⟩
  exact ⟨by decide +kernel, by decide +kernel, .inl rfl⟩

end PonsWarp.Core
