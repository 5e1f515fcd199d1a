import Mathlib.Data.Finset.Card
import PonsWarp.Core.Disposal
import PonsWarp.Core.Ingress

set_option autoImplicit false

/-!
How much the engine remembers of direct requests that have ended. The windows are cut down
where one is made or a cancellation is through, the tombstones where a cancellation sets
them; whatever else ends requests or sets tombstones has to find room.
-/

namespace PonsWarp.Core

open PonsWarp.Data

section

variable {σ : Type} [StorageAdapter σ] {t : Turn} {G : Grant} {e e' : Engine σ}

/-- A request stays outstanding, unless it may be dropped or another be given its id. -/
theorem Changes.stays (h : Changes t G e e') {x : RequestId} {r : OutstandingRequest}
    (hr : e.outstandingRequests.get? x = some r) :
    e'.outstandingRequests.get? x = some r ∨ G (.drop x) ∨
      (∃ ref q, G (.ask ref x q) ∧ x = t.createRequestId q.fileId q.pieceIndex) ∨ G .dispose := by
  induction h with
  | refl => exact .inl hr
  | tail _ hc ih =>
    obtain hold | hgrant := ih
    · cases hc with
      | ask ref m p asked q hm hmissing hcurrent hid hg =>
        by_cases hx : x = asked
        · subst hx
          exact .inr (.inr (.inl ⟨ref, q, hg, hid⟩))
        · exact .inl ((OrderedMap.get?_set_of_ne _ _ hx).trans hold)
      | drop dropped hg hrestored =>
        by_cases hx : x = dropped
        · subst hx
          exact .inr (.inl hg)
        · exact .inl ((OrderedMap.get?_delete_of_ne _ hx).trans hold)
      | register m hg =>
        left
        simp only [Engine.registerManifest]
        split <;> exact hold
      | dispose hg => exact .inr (.inr (.inr hg))
      | _ => exact .inl hold
    · exact .inr hgrant

/-- A tombstone was there before, or was granted. -/
theorem Changes.buried (h : Changes t G e e') {x : RequestId} (hx : x ∈ e'.directTombstones) :
    x ∈ e.directTombstones ∨ G (.tombstone x) := by
  induction h with
  | refl => exact .inl hx
  | tail _ hc ih =>
    cases hc with
    | tombstones ids hids => exact (hids x hx).elim ih .inr
    | register m hg =>
      refine ih ?_
      simp only [Engine.registerManifest] at hx
      split at hx <;> exact hx
    | _ => exact ih hx

theorem Changes.card_tombstones (h : Changes t G e e') (hG : ∀ x, ¬ G (.tombstone x)) :
    e'.directTombstones.toFinset.card ≤ e.directTombstones.toFinset.card := by
  refine Finset.card_le_card fun x hx => ?_
  rw [List.mem_toFinset] at hx ⊢
  exact (h.buried hx).resolve_right (hG x)

end

namespace Engine

variable {σ : Type} {e e' : Engine σ} {cfg : Config} {t : Turn}

/-- The keys of the table with an outstanding request, and those without. -/
def busyWindows (e : Engine σ) : Finset String :=
  e.directWindows.keys.toFinset.filter fun key => 0 < e.countOutstandingRequestsForWindow key

def idleWindows (e : Engine σ) : Finset String :=
  e.directWindows.keys.toFinset.filter fun key => ¬ 0 < e.countOutstandingRequestsForWindow key

/-- The tombstones are at most as many as the engine keeps, and so are, but for one, the
windows without an outstanding request. -/
structure Bounded (cfg : Config) (e : Engine σ) : Prop where
  tombstones : e.directTombstones.toFinset.card ≤ cfg.maxDirectMetadataEntries
  windows : e.directWindows.size ≤ cfg.maxDirectMetadataEntries + e.busyWindows.card + 1

theorem size_directWindows (e : Engine σ) :
    e.directWindows.size = e.busyWindows.card + e.idleWindows.card := by
  have hsplit := Finset.card_filter_add_card_filter_not (s := e.directWindows.keys.toFinset)
    fun key => 0 < e.countOutstandingRequestsForWindow key
  have hkeys : e.directWindows.keys.toFinset.card = e.directWindows.size :=
    (List.toFinset_card_of_nodup e.directWindows.nodup).trans (List.length_map _)
  rw [← hkeys]
  exact hsplit.symm

theorem count_pos_iff {key : String} :
    0 < e.countOutstandingRequestsForWindow key ↔
      ∃ x d, e.ledger.direct? x = some d ∧ d.windowKey = key := by
  constructor
  · intro h
    obtain ⟨r, hr⟩ := List.exists_mem_of_length_pos h
    obtain ⟨hmem, hkey⟩ := List.mem_filter.1 hr
    obtain ⟨x, hx⟩ := OrderedMap.mem_values_iff.1 hmem
    obtain ⟨d, hd, hdkey⟩ := Option.map_eq_some_iff.1 (of_decide_eq_true hkey)
    exact ⟨x, d, Option.bind_eq_some_iff.2 ⟨r, hx, hd⟩, hdkey⟩
  · rintro ⟨x, d, hd, rfl⟩
    exact count_pos_of_direct hd

theorem mem_idleWindows {key : String} :
    key ∈ e.idleWindows ↔ e.directWindows.has key = true ∧
      ∀ x d, e.ledger.direct? x = some d → d.windowKey ≠ key := by
  simp only [idleWindows, Finset.mem_filter, List.mem_toFinset, OrderedMap.mem_keys_iff,
    ← OrderedMap.has_iff, count_pos_iff, not_exists, not_and, ne_eq]

/-! ### Windows that are made -/

/-- A window that is new to the table has an outstanding request. -/
def Opens (e e' : Engine σ) : Prop := ∀ key, e'.directWindows.has key = true →
  e.directWindows.has key = true ∨ ∃ x d, e'.ledger.direct? x = some d ∧ d.windowKey = key

theorem Opens.of_eq (h : e'.directWindows = e.directWindows) : e.Opens e' := by
  intro key hkey
  rw [h] at hkey
  exact .inl hkey

theorem Opens.to_eq {e1 : Engine σ} (h : e.Opens e1) (heq : e'.ledger = e1.ledger) :
    e.Opens e' := by
  have hwindows : e'.directWindows = e1.directWindows := congrArg Ledger.windows heq
  intro key hkey
  rw [hwindows] at hkey
  rw [heq]
  exact h key hkey

theorem Opens.from_eq {e1 : Engine σ} (h : e1.Opens e') (heq : e1.ledger = e.ledger) :
    e.Opens e' := by
  have hwindows : e1.directWindows = e.directWindows := congrArg Ledger.windows heq
  intro key hkey
  rw [← hwindows]
  exact h key hkey

theorem opens_recordRequest (e : Engine σ) (cfg : Config) (t : Turn) (p : PeerId) (f : FileId)
    (i : Nat) (x : RequestId) (options : Option DirectRequestOptions) :
    e.Opens (e.recordRequest cfg t p f i x options) := by
  cases options with
  | none => exact .of_eq rfl
  | some o =>
    intro key hkey
    by_cases hnew : key = o.windowKey.getD (defaultWindowKey f p o.controllerId)
    · subst hnew
      exact .inr ⟨x, _, Option.bind_eq_some_iff.2 ⟨_, OrderedMap.get?_set_self _ _ _, rfl⟩, rfl⟩
    · left
      unfold recordRequest at hkey
      simp only at hkey
      split at hkey
      · simpa [newWindow, OrderedMap.has, OrderedMap.get?_set, hnew] using hkey
      · exact hkey

theorem opens_requestNextPiece (e : Engine σ) (cfg : Config) (t : Turn) (p : PeerId) (f : FileId)
    (options : Option DirectRequestOptions) :
    e.Opens (e.requestNextPiece cfg t p f options).1 := by
  unfold requestNextPiece
  split
  · exact .of_eq rfl
  · split
    · exact .of_eq rfl
    · exact .of_eq rfl
    · simp only
      split
      · exact .of_eq rfl
      · split
        · exact .of_eq rfl
        · rename_i e1 he1
          refine Opens.to_eq (Opens.from_eq ?_ (ledger_onManager he1)) (ledger_sendPieceRequest ..)
          exact opens_recordRequest e1 cfg t p f _ _ options

theorem opens_fillWindow (e : Engine σ) (cfg : Config) (t : Turn) (window : Nat) (key : String)
    (p : PeerId) (f : FileId) (options : DirectRequestOptions) (scheduled : List ScheduledPiece) :
    e.Opens (e.fillWindow cfg t window key p f options scheduled).1 := by
  unfold fillWindow
  simp only
  split
  · exact opens_requestNextPiece e cfg t p f _
  · exact .of_eq rfl

theorem opens_windowFilled (e : Engine σ) (cfg : Config) (t : Turn) (window : Nat) (key : String)
    (p : PeerId) (f : FileId) (options : DirectRequestOptions) (scheduled : List ScheduledPiece)
    (outcome : Except Failure Value) :
    e.Opens (e.windowFilled cfg t window key p f options scheduled outcome).1 := by
  unfold windowFilled
  split
  · exact .of_eq rfl
  · exact opens_fillWindow e cfg t window key p f options _
  · exact .of_eq rfl
  · exact .of_eq rfl

theorem opens_retryDirectRequest (e : Engine σ) (cfg : Config) (t : Turn) (x : RequestId)
    (r : OutstandingRequest) (d : DirectRequest) :
    e.Opens (e.retryDirectRequest cfg t x r d).1 := by
  unfold retryDirectRequest
  split
  · exact .of_eq rfl
  · split
    · exact .of_eq rfl
    · split
      · exact .of_eq rfl
      · split
        · exact .of_eq rfl
        · split
          · exact .of_eq rfl
          · rename_i e1 he1
            have hreset : e1.ledger = e.ledger := by
              split at he1
              · exact ledger_onManager he1
              · cases he1
                rfl
            exact (opens_requestNextPiece e1 cfg t _ _ _).from_eq hreset

/-- A stretch without a permit to open windows adds none to the table. -/
theorem Books.opens {P : Entry → Prop} (h : Books cfg P e e') (hP : ∀ key, ¬ P (.opens key)) :
    e.Opens e' := by
  intro key hkey
  left
  refine Ledger.Postings.keeps (Q := fun L => L.windows.has key = true →
    e.ledger.windows.has key = true) (fun L L' hpost hL hhas => ?_) h id hkey
  cases hpost with
  | ask x r hask => exact hL ((Ledger.ask_frame L x r).1 ▸ hhas)
  | retire x r d event => exact hL (by rwa [Ledger.retire_eq] at hhas)
  | enqueue key' job => exact hL (by rwa [Ledger.enqueue_windows] at hhas)
  | newWindow key' cap hopen => exact absurd hopen (hP key')
  | prune windows hsub =>
    obtain ⟨ref, href⟩ := OrderedMap.has_iff.1 hhas
    exact hL (OrderedMap.has_iff.2 ⟨ref, hsub key ref href⟩)
  | dispose => cases hhas
  | _ => exact hL hhas

theorem opens_runWindowJob (e : Engine σ) (cfg : Config) (t : Turn) (window : Nat)
    (job : WindowJob) : e.Opens (e.runWindowJob cfg t window job).1 := by
  cases job with
  | fill p f key options => exact opens_fillWindow e cfg t window key p f options []
  | retry x r d => exact opens_retryDirectRequest e cfg t x r d
  | expire x =>
    have hbooks : Books cfg (fun _ => False) e (e.runWindowJob cfg t window (.expire x)).1 :=
      books_runWindowJob e window (.expire x) fun _ => False.elim
    exact hbooks.opens fun _ => id

theorem opens_startWindowJob {ref : Nat} {result : Engine σ × Next}
    (h : e.startWindowJob cfg t ref = some result) : e.Opens result.1 := by
  unfold startWindowJob at h
  split at h
  · cases h
  · rename_i w hw
    split at h
    · cases h
    · rename_i job rest hq
      split at h
      · cases h
      · have hrun := opens_runWindowJob (e.putWindow ref { w with queue := rest, running := true })
          cfg t ref job
        simp only at h
        split at h
        · cases h
          exact .of_eq rfl
        · cases h
          exact hrun

/-! ### Windows that are cut -/

theorem idleWindows_congr (hw : e'.directWindows = e.directWindows)
    (ho : e'.outstandingRequests = e.outstandingRequests) : e'.idleWindows = e.idleWindows := by
  ext key
  simp only [mem_idleWindows, Ledger.direct?, ledger, hw, ho]

/-- Pruning stops when the table is small enough, or else no window is left that may go. -/
theorem pruneWindows_spec (e : Engine σ) (cfg : Config) (preserve : Option String)
    (keys : List String) (windows : OrderedMap String Nat)
    (h : ∀ key, windows.has key = true →
      key ∈ keys ∨ preserve = some key ∨ 0 < e.countOutstandingRequestsForWindow key) :
    (e.pruneWindows cfg preserve keys windows).size ≤ cfg.maxDirectMetadataEntries ∨
      ∀ key, (e.pruneWindows cfg preserve keys windows).has key = true →
        preserve = some key ∨ 0 < e.countOutstandingRequestsForWindow key := by
  induction keys generalizing windows with
  | nil => exact .inr fun key hkey => (h key hkey).resolve_left List.not_mem_nil
  | cons k rest ih =>
    unfold pruneWindows
    split
    · rename_i hsize
      exact .inl hsize
    · split
      · rename_i hkept
        refine ih windows fun key hkey => ?_
        obtain hmem | hstays := h key hkey
        · obtain rfl | hrest := List.mem_cons.1 hmem
          · exact .inr hkept
          · exact .inl hrest
        · exact .inr hstays
      · refine ih (windows.delete k) fun key hkey => ?_
        obtain ⟨ref, href⟩ := OrderedMap.has_iff.1 hkey
        obtain ⟨hne, hold⟩ := OrderedMap.get?_delete_eq_some.1 href
        obtain hmem | hstays := h key (OrderedMap.has_iff.2 ⟨ref, hold⟩)
        · exact .inl ((List.mem_cons.1 hmem).resolve_left hne)
        · exact .inr hstays

/-- After pruning, the idle windows are no more than the engine keeps, or only the one that
was to be preserved. -/
theorem idle_prune (e : Engine σ) (cfg : Config) (preserve : Option String) :
    (e.pruneDirectLifecycleMetadata cfg preserve).idleWindows.card ≤
      cfg.maxDirectMetadataEntries + 1 := by
  have hspec := pruneWindows_spec e cfg preserve e.directWindows.keys e.directWindows
    fun key hkey => .inl (OrderedMap.mem_keys_iff.2 (OrderedMap.has_iff.1 hkey))
  obtain hsize | hkept := hspec
  · have hsplit := size_directWindows (e.pruneDirectLifecycleMetadata cfg preserve)
    have hwindows : (e.pruneDirectLifecycleMetadata cfg preserve).directWindows.size ≤
        cfg.maxDirectMetadataEntries := hsize
    omega
  · have hsub : (e.pruneDirectLifecycleMetadata cfg preserve).idleWindows ⊆ {preserve.getD ""} := by
      intro key hkey
      obtain ⟨hhas, hidle⟩ := mem_idleWindows.1 hkey
      obtain rfl | hbusy := hkept key hhas
      · exact Finset.mem_singleton_self key
      · obtain ⟨x, d, hd, hdkey⟩ := count_pos_iff.1 hbusy
        exact absurd hdkey (hidle x d hd)
    have hcard := Finset.card_le_card hsub
    rw [Finset.card_singleton] at hcard
    omega

/-- `requestPieceWindow` prunes where it makes a window. -/
theorem idle_requestPieceWindow (e : Engine σ) (cfg : Config) (p : PeerId) (f : FileId)
    (options : DirectRequestOptions) (maxInFlight : Option Number) :
    (e.requestPieceWindow cfg p f options maxInFlight).1.idleWindows = e.idleWindows ∨
    (e.requestPieceWindow cfg p f options maxInFlight).1.idleWindows.card ≤
      cfg.maxDirectMetadataEntries + 1 := by
  have henqueue : ∀ (e1 : Engine σ) (key : String) (job : WindowJob),
      (e1.enqueueWindow key job).idleWindows = e1.idleWindows := by
    intro e1 key job
    unfold enqueueWindow
    split
    · split <;> rfl
    · rfl
  unfold requestPieceWindow
  simp only
  split
  · exact .inl rfl
  · split
    · split
      · exact .inl rfl
      · right
        rw [henqueue]
        exact idle_prune _ cfg _
    · split
      · exact .inl rfl
      · split
        · exact .inl rfl
        · split
          · exact .inl rfl
          · exact .inl (henqueue e _ _)

/-- `cancelDirectRequests` prunes at its end, or stops before it has ended anything. -/
theorem idle_cancelDirectRequests (e : Engine σ) (cfg : Config) (t : Turn)
    (selector : DirectCancelSelector) :
    (e.cancelDirectRequests cfg t selector).1.idleWindows = e.idleWindows ∨
    (e.cancelDirectRequests cfg t selector).1.idleWindows.card ≤
      cfg.maxDirectMetadataEntries + 1 := by
  have hwindows := (disableWindows_sameQueues selector e.directWindows.entries e).keys
  have hrequests := disableWindows_outstanding (e := e) selector e.directWindows.entries
  unfold cancelDirectRequests
  split
  · rename_i e1 err he
    rw [he] at hwindows hrequests
    exact .inl (idleWindows_congr hwindows hrequests)
  · exact .inr (idle_prune _ cfg none)

/-- Before the engine is disposed, `dispose` leaves no direct request to expire. -/
theorem dispose_live (e : Engine σ) (cfg : Config) (t : Turn) (h : e.disposed = false) :
    (e.dispose cfg t).1 = (e.cancelDirectRequests cfg t everything).1 := by
  unfold dispose
  simp only [h, Bool.false_eq_true, if_false]
  show _ = (e.cancelDirectRequests cfg t ⟨none, none, none, none, none⟩).1
  cases hcancel : e.cancelDirectRequests cfg t ⟨none, none, none, none, none⟩ with
  | mk e1 outcome =>
    cases outcome with
    | error err => rfl
    | ok count =>
      simp only
      have hnone : ∀ p ∈ e1.outstandingRequests.entries, p.2.direct = none := by
        intro p hp
        unfold cancelDirectRequests at hcancel
        split at hcancel
        · cases hcancel
        · rename_i e2 he2
          cases hcancel
          exact cancelRequests_everything cfg t e2.outstandingRequests.entries 0
            (fun x r hr _ => OrderedMap.mem_entries_iff.2 hr) p.1 p.2
            (OrderedMap.mem_entries_iff.1 hp)
      unfold flushDirectLifecycle
      rw [expireDirectRequests_none hnone]

/-! ### Requests that end, tombstones that are set -/

/-- The request is a direct one whose time is over. -/
def Overtaken (e : Engine σ) (now : Number) (x : RequestId) : Prop :=
  ∃ r d, e.outstandingRequests.get? x = some r ∧ r.direct = some d ∧ d.expiresAt ≤ now

/-- The message names the request `x` of its sender, with its file and piece. -/
def Acknowledges (e : Engine σ) (p : PeerId) (m : WireMessage) (x : RequestId) : Prop :=
  m.requestId = some x ∧ ∃ r, e.outstandingRequests.get? x = some r ∧ r.peerId = p ∧
    m.fileId = some r.fileId ∧ m.pieceIndex = some (r.pieceIndex : Number)

theorem expireDirectRequests_stays [StorageAdapter σ] (now : Number)
    (requests : List (RequestId × OutstandingRequest)) {x : RequestId} {r : OutstandingRequest}
    (h : ∀ q d, (x, q) ∈ requests → q.direct = some d → ¬ d.expiresAt ≤ now)
    (hr : e.outstandingRequests.get? x = some r) :
    (expireDirectRequests cfg t now requests e).1.outstandingRequests.get? x = some r := by
  induction requests generalizing e with
  | nil => exact hr
  | cons p rest ih =>
    obtain ⟨y, request⟩ := p
    have hrest := fun e1 : Engine σ =>
      ih (e := e1) fun q d hq => h q d (List.mem_cons_of_mem _ hq)
    unfold expireDirectRequests
    split
    · rename_i direct hdirect
      split
      · rename_i hdue
        split
        · exact hr
        · rename_i e1 he1
          have hchanges : Changes t (Grant.retire y) e e1 := changes_expireDirectRequest le_rfl he1
          obtain hstays | rfl | ⟨_, _, hask, -⟩ | hdispose := hchanges.stays hr
          · exact hrest e1 hstays
          · exact absurd hdue (h request direct List.mem_cons_self hdirect)
          · cases hask
          · cases hdispose
      · exact hrest e hr
    · exact hrest e hr

theorem flushDirectLifecycle_engine (e : Engine σ) (cfg : Config) (t : Turn) :
    (e.flushDirectLifecycle cfg t).1 =
      (expireDirectRequests cfg t t.clock e.outstandingRequests.entries e).1 := by
  unfold flushDirectLifecycle
  split <;> rename_i he <;> rw [he]

/-- What is outstanding after all that has expired is taken out. -/
theorem overtaken_or_stays [StorageAdapter σ] (e : Engine σ) (cfg : Config) (t : Turn)
    (now : Number) {x : RequestId} {r : OutstandingRequest} (hr : e.outstandingRequests.get? x = some r) :
    (expireDirectRequests cfg t now e.outstandingRequests.entries e).1.outstandingRequests.get? x =
      some r ∨ e.Overtaken now x := by
  by_cases hover : e.Overtaken now x
  · exact .inr hover
  · left
    refine expireDirectRequests_stays now _ (fun q d hq hd hdue => ?_) hr
    exact hover ⟨q, d, OrderedMap.mem_entries_iff.1 hq, hd, hdue⟩

theorem handleAck_stays (p : PeerId) (m : WireMessage) {x y : RequestId} {r : OutstandingRequest}
    {f : FileId} {i : Number} (hm : m.requestId = some y) (hf : m.fileId = some f)
    (hi : m.pieceIndex = some i) (hr : e.outstandingRequests.get? x = some r)
    (hack : ¬ e.Acknowledges p m x) :
    (e.handleAck cfg t p y f i).1.outstandingRequests.get? x = some r := by
  unfold handleAck
  by_cases hxy : x = y
  · subst hxy
    simp only [hr]
    split
    · exact hr
    · rename_i hmatch
      simp only [not_or, not_not] at hmatch
      obtain ⟨rfl, rfl, rfl⟩ := hmatch
      exact absurd ⟨hm, r, hr, rfl, hf, hi⟩ hack
  · have hfinal : ∀ e1 : Engine σ, e1.outstandingRequests = e.outstandingRequests →
        (e1.finalizeOrDelete cfg t y .acknowledged).outstandingRequests.get? x = some r := by
      intro e1 he1
      have htouch : Touches (fun _ _ => True) (· = y) e1 (e1.finalizeOrDelete cfg t y .acknowledged) :=
        touches_finalizeOrDelete y .acknowledged rfl
      rw [htouch.outstanding x hxy, he1, hr]
    split
    · exact hfinal e rfl
    · split
      · exact hr
      · exact hfinal _ rfl

/-- The loop of a cancellation sets no tombstone without making room for it. -/
theorem card_cancelRequests [StorageAdapter σ] (cfg : Config) (t : Turn)
    (selector : DirectCancelSelector) (requests : List (RequestId × OutstandingRequest))
    (count : Nat) (e : Engine σ)
    (h : e.directTombstones.toFinset.card ≤ cfg.maxDirectMetadataEntries) :
    (cancelRequests cfg t selector requests count e).1.directTombstones.toFinset.card ≤
      cfg.maxDirectMetadataEntries := by
  induction requests generalizing e count with
  | nil => exact h
  | cons p rest ih =>
    obtain ⟨x, request⟩ := p
    unfold cancelRequests
    split
    · exact ih count e h
    · split
      · refine ih _ _ ?_
        have hburied : (e.addDirectTombstone cfg x).directTombstones.length ≤
            cfg.maxDirectMetadataEntries := by
          simp only [addDirectTombstone, List.length_drop]
          omega
        have hfinal : Changes t (Grant.retire x ⊔ Grant.lose x) (e.addDirectTombstone cfg x)
            ((e.addDirectTombstone cfg x).finalizeDirectRequest cfg t x .cancelled).1 :=
          changes_finalizeDirectRequest x .cancelled le_sup_left (.inr (.inr rfl))
        have hsub := hfinal.card_tombstones fun y hy => hy.elim id id
        exact hsub.trans ((List.toFinset_card_le _).trans hburied)
      · exact ih count e h

theorem card_cancelDirectRequests [StorageAdapter σ] (e : Engine σ) (cfg : Config) (t : Turn)
    (selector : DirectCancelSelector)
    (h : e.directTombstones.toFinset.card ≤ cfg.maxDirectMetadataEntries) :
    (e.cancelDirectRequests cfg t selector).1.directTombstones.toFinset.card ≤
      cfg.maxDirectMetadataEntries := by
  have hdisable : Changes t (fun _ => False) e
      (disableWindows selector e.directWindows.entries e).1 := changes_disableWindows _ _
  have hsub := hdisable.card_tombstones fun _ => id
  unfold cancelDirectRequests
  split
  · rename_i e1 err he
    rw [he] at hsub
    exact hsub.trans h
  · rename_i e1 he
    rw [he] at hsub
    exact card_cancelRequests cfg t selector _ 0 e1 (hsub.trans h)

theorem handleTransportMessage_stays [StorageAdapter σ] (p : PeerId) {m : WireMessage}
    (htype : m.type = "PIECE_ACK") {x : RequestId} {r : OutstandingRequest}
    (hr : e.outstandingRequests.get? x = some r) (hack : ¬ e.Acknowledges p m x) :
    (e.handleTransportMessage cfg t p (some m)).1.outstandingRequests.get? x = some r := by
  unfold handleTransportMessage
  simp only [htype, String.reduceEq, if_true, if_false]
  split
  · rename_i y f i hy hf hi
    exact handleAck_stays p m (requireStringField_eq_ok.1 hy).1 (requireStringField_eq_ok.1 hf).1
      (requireNumberField_eq_ok.1 hi) hr hack
  · exact hr
  · exact hr
  · exact hr

theorem handleTransportMessage_nameless [StorageAdapter σ] (e : Engine σ) (cfg : Config) (t : Turn)
    (p : PeerId) {m : WireMessage} (htype : m.type = "PIECE_CANCEL")
    (hm : m.requestId = some "") :
    (e.handleTransportMessage cfg t p (some m)).1.directTombstones = e.directTombstones := by
  unfold handleTransportMessage
  simp only [htype, String.reduceEq, if_true, if_false, hm, requireStringField]

end Engine

/-- Only a `PIECE_CANCEL` sets a tombstone when it arrives. -/
theorem Grant.message_tombstone {σ : Type} {e : Engine σ} {t : Turn} {p : PeerId} {m : WireMessage}
    {x : RequestId} (h : Grant.message e t p m (.tombstone x)) :
    m.type = "PIECE_CANCEL" ∧ m.requestId = some x := by
  obtain ⟨-, h⟩ | ⟨-, map, -, h⟩ | ⟨-, head, -, -, -, h⟩ | ⟨-, y, f, i, -, -, -, h⟩ |
    ⟨htype, y, hy, h⟩ | ⟨-, y, -, q, -, -, h⟩ := h
  · cases h
  · cases h
  · obtain ⟨-, h⟩ | ⟨previous, -, -, h⟩ := h
    · cases h
    · cases h
  · cases h
  · cases h
    exact ⟨htype, hy⟩
  · obtain h | h := h
    · cases h
    · cases hoptions : q.gridOptions with
      | none =>
        rw [hoptions] at h
        cases h
      | some options =>
        rw [hoptions] at h
        cases h

namespace World

variable {σ : Type}

/-- The step may take the request out, or give its id to another. -/
def ends (w : World σ) (x : Turn × Action) (id : RequestId) : Prop :=
  w.grant x (.drop id) ∨
    ∃ ref q, w.grant x (.ask ref id q) ∧ id = x.1.createRequestId q.fileId q.pieceIndex

/-- The requests that a step ends, when it is not one that prunes behind them. -/
def settles (w : World σ) : Turn × Action → RequestId → Prop
  | (t, .call (.expireDirectRequests now)), id => w.engine.Overtaken (now.getD t.clock) id
  | (t, .call .flushDirectLifecycle), id => w.engine.Overtaken t.clock id
  | (t, .call .dispose), id => w.engine.disposed = true ∧ w.engine.Overtaken t.clock id
  | (_, .call (.cancelDirectRequests _)), _ => False
  | (t, .message p m), id => w.engine.subscribed = true ∧ w.ends (t, .message p m) id ∧
      ∀ ack, m = some ack → ack.type = "PIECE_ACK" → w.engine.Acknowledges p ack id
  | (t, .binary p frame), id => w.engine.subscribed = true ∧ w.ends (t, .binary p frame) id
  | (_, .timer k), id => w.engine.armed[k]? = some (id, "")
  | x, id => w.ends x id

/-- The tombstones that a step sets without making room for them. -/
def marks (w : World σ) : Turn × Action → RequestId → Prop
  | (_, .call (.cancelDirectRequests _)), _ => False
  | (_, .call .dispose), _ => False
  | (t, .message p m), id =>
    w.engine.subscribed = true ∧ id ≠ "" ∧ w.grant (t, .message p m) (.tombstone id)
  | x, id => w.grant x (.tombstone id)

/-- The window is in the table, and the step ends every request it has outstanding. -/
def LeavesIdle (w : World σ) (x : Turn × Action) (key : String) : Prop :=
  w.engine.directWindows.has key = true ∧
    ∀ id d, w.engine.ledger.direct? id = some d → d.windowKey = key → w.settles x id

/-- There is room for what the step leaves to be remembered: the tombstones that it sets,
where one of them is new, and the windows it leaves idle, where it ends a direct request. -/
structure FindsRoom (cfg : Config) (w : World σ) (x : Turn × Action) : Prop where
  tombstones : ∀ id, w.marks x id → id ∉ w.engine.directTombstones → ∀ ids : Finset RequestId,
    (∀ y ∈ ids, y ∈ w.engine.directTombstones ∨ w.marks x y) →
      ids.card ≤ cfg.maxDirectMetadataEntries
  windows : ∀ id d, w.engine.ledger.direct? id = some d → w.settles x id → ∀ keys : Finset String,
    (∀ key ∈ keys, w.LeavesIdle x key) → keys.card ≤ cfg.maxDirectMetadataEntries + 1

variable [StorageAdapter σ] {w : World σ} {cfg : Config} {t : Turn} {a : Action}

/-- A request stays through a step that does not end it. -/
theorem stays_step (hcancel : ∀ selector, a ≠ .call (.cancelDirectRequests selector))
    (hdispose : a = .call .dispose → w.engine.disposed = true) {id : RequestId}
    {r : OutstandingRequest} (hr : w.engine.outstandingRequests.get? id = some r) :
    (w.step cfg (t, a)).engine.outstandingRequests.get? id = some r ∨ w.settles (t, a) id ∨
      w.grant (t, a) .dispose := by
  have hgranted : (w.step cfg (t, a)).engine.outstandingRequests.get? id = some r ∨
      w.ends (t, a) id ∨ w.grant (t, a) .dispose := by
    obtain hstays | hdrop | hask | hgone := (step_spec cfg w t a).changes.stays hr
    · exact .inl hstays
    · exact .inr (.inl (.inl hdrop))
    · exact .inr (.inl (.inr hask))
    · exact .inr (.inr hgone)
  cases a with
  | call c =>
    cases c with
    | expireDirectRequests now =>
      refine (Engine.overtaken_or_stays w.engine cfg t (now.getD t.clock) hr).imp ?_ .inl
      intro hstays
      show (Engine.settled _ _).1.outstandingRequests.get? id = some r
      unfold Engine.settled
      split <;> rename_i he <;> rw [he] at hstays <;> exact hstays
    | flushDirectLifecycle =>
      refine (Engine.overtaken_or_stays w.engine cfg t t.clock hr).imp ?_ .inl
      intro hstays
      show (w.engine.flushDirectLifecycle cfg t).1.outstandingRequests.get? id = some r
      rwa [Engine.flushDirectLifecycle_engine]
    | dispose =>
      have hdisposed := hdispose rfl
      refine (Engine.overtaken_or_stays w.engine cfg t t.clock hr).imp ?_
        fun hover => .inl ⟨hdisposed, hover⟩
      intro hstays
      show (w.engine.dispose cfg t).1.outstandingRequests.get? id = some r
      rwa [Engine.dispose, if_pos hdisposed, Engine.flushDirectLifecycle_engine]
    | cancelDirectRequests selector => exact absurd rfl (hcancel selector)
    | _ => exact hgranted
  | message p m =>
    by_cases hsub : w.engine.subscribed = true
    · by_cases hack : ∀ ack, m = some ack → ack.type = "PIECE_ACK" → w.engine.Acknowledges p ack id
      · exact hgranted.imp_right (Or.imp_left fun hends => ⟨hsub, hends, hack⟩)
      · simp only [not_forall] at hack
        obtain ⟨ack, rfl, htype, hnot⟩ := hack
        left
        simp only [step, handleMessage, if_pos hsub]
        exact Engine.handleTransportMessage_stays p htype hr hnot
    · left
      simp only [step, handleMessage, if_neg hsub]
      exact hr
  | binary p frame =>
    by_cases hsub : w.engine.subscribed = true
    · exact hgranted.imp_right (Or.imp_left fun hends => ⟨hsub, hends⟩)
    · left
      simp only [step, handleBinary, if_neg hsub]
      exact hr
  | timer k =>
    unfold step
    simp only [fireTimer]
    split
    · rename_i x key hk
      split
      · by_cases hkey : key = ""
        · subst hkey
          by_cases hid : id = x
          · subst hid
            exact .inr (.inl hk)
          · have hchanges : Changes t (Grant.retire x) w.engine (w.engine.timerFired cfg t x "") :=
              Engine.changes_timerFired x "" le_rfl
            obtain hstays | hx | ⟨_, _, hask, -⟩ | hgone := hchanges.stays hr
            · exact .inl hstays
            · exact absurd hx hid
            · cases hask
            · cases hgone
        · left
          simp only [Engine.timerFired, if_neg hkey]
          rw [(Engine.enqueueWindow_fields _ _ _).2.2]
          exact hr
      · exact .inl hr
    · exact .inl hr
  | _ => exact hgranted

/-- A tombstone was there before the step, or the step sets it. -/
theorem buried_step (hcancel : ∀ selector, a ≠ .call (.cancelDirectRequests selector))
    (hdispose : a ≠ .call .dispose) {id : RequestId}
    (hid : id ∈ (w.step cfg (t, a)).engine.directTombstones) :
    id ∈ w.engine.directTombstones ∨ w.marks (t, a) id := by
  have hgranted := (step_spec cfg w t a).changes.buried hid
  cases a with
  | call c =>
    cases c with
    | cancelDirectRequests selector => exact absurd rfl (hcancel selector)
    | dispose => exact absurd rfl hdispose
    | _ => exact hgranted
  | message p m =>
    by_cases hsub : w.engine.subscribed = true
    · obtain hold | hg := hgranted
      · exact .inl hold
      · by_cases hname : id = ""
        · subst hname
          obtain hframe | ⟨named, rfl, hnamed⟩ := hg
          · cases hframe
          · obtain ⟨htype, hm⟩ := Grant.message_tombstone hnamed
            left
            rw [← Engine.handleTransportMessage_nameless w.engine cfg t p htype hm]
            simp only [step, handleMessage, if_pos hsub] at hid
            exact hid
        · exact .inr ⟨hsub, hname, hg⟩
    · left
      simpa only [step, handleMessage, if_neg hsub] using hid
  | _ => exact hgranted

/-- A window that is new to the table after a step is in use. -/
theorem opens_step (hcall : ∀ p f options n, a ≠ .call (.requestPieceWindow p f options n)) :
    w.engine.Opens (w.step cfg (t, a)).engine := by
  have hbooks : (∀ key, ¬ w.books a (.opens key)) → w.engine.Opens (w.step cfg (t, a)).engine :=
    fun h => (books_step cfg w t a).opens fun key hkey => hkey.elim (h key) id
  cases a with
  | call c =>
    cases c with
    | requestNextPiece p f options => exact Engine.opens_requestNextPiece w.engine cfg t p f options
    | requestPieceWindow p f options n => exact absurd rfl (hcall p f options n)
    | _ => exact hbooks fun _ => id
  | resume i =>
    unfold step
    simp only [resumeTask]
    split
    · rename_i pending frame below hi
      split
      · rename_i outcome ho
        cases frame with
        | fillWindow window key p f options scheduled =>
          exact Engine.opens_windowFilled w.engine cfg t window key p f options scheduled outcome
        | _ =>
          have hnone : ∀ key, ¬ w.books (.resume i) (.opens key) := by
            rintro key ⟨pending', frame', below', hi', h⟩
            rw [hi] at hi'
            cases hi'
            simp [Frame.books, Engine.competing] at h
          have hopens := hbooks hnone
          simp only [step, resumeTask, hi, ho] at hopens
          exact hopens
      · exact .of_eq rfl
    · exact .of_eq rfl
  | window ref =>
    unfold step
    cases h : w.engine.startWindowJob cfg t ref with
    | none =>
      simp only [h, Option.map_none, Option.getD_none]
      exact .of_eq rfl
    | some result =>
      simp only [h, Option.map_some, Option.getD_some]
      exact Engine.opens_startWindowJob h
  | _ => exact hbooks fun _ => id

/-- A step that prunes leaves the idle windows as they are, or no more than there may be. -/
theorem idle_pruning (hidle : w.engine.idleWindows.card ≤ cfg.maxDirectMetadataEntries + 1)
    (hprunes : (∃ selector, a = .call (.cancelDirectRequests selector)) ∨
      (a = .call .dispose ∧ w.engine.disposed = false) ∨
      ∃ p f options n, a = .call (.requestPieceWindow p f options n)) :
    (w.step cfg (t, a)).engine.idleWindows.card ≤ cfg.maxDirectMetadataEntries + 1 := by
  have hsettled : ∀ {α : Type} (value : α → Value) (result : Engine σ × Except Failure α),
      (result.1.idleWindows = w.engine.idleWindows ∨
        result.1.idleWindows.card ≤ cfg.maxDirectMetadataEntries + 1) →
      (Engine.settled value result).1.idleWindows.card ≤ cfg.maxDirectMetadataEntries + 1 := by
    intro α value result hresult
    obtain ⟨e1, err | v⟩ := result
    all_goals
      obtain hsame | hle := hresult
      · exact (congrArg Finset.card hsame).trans_le hidle
      · exact hle
  obtain ⟨selector, rfl⟩ | ⟨rfl, hlive⟩ | ⟨p, f, options, n, rfl⟩ := hprunes
  · exact hsettled _ _ (Engine.idle_cancelDirectRequests w.engine cfg t selector)
  · show (w.engine.dispose cfg t).1.idleWindows.card ≤ _
    rw [Engine.dispose_live w.engine cfg t hlive]
    obtain hsame | hle := Engine.idle_cancelDirectRequests w.engine cfg t Engine.everything
    · rw [hsame]
      exact hidle
    · exact hle
  · exact hsettled _ _ (Engine.idle_requestPieceWindow w.engine cfg p f options n)

/-- Every other step leaves idle what was so, or what it ends the requests of. -/
theorem leavesIdle_step (hcancel : ∀ selector, a ≠ .call (.cancelDirectRequests selector))
    (hdispose : a = .call .dispose → w.engine.disposed = true)
    (hcall : ∀ p f options n, a ≠ .call (.requestPieceWindow p f options n)) {key : String}
    (hkey : key ∈ (w.step cfg (t, a)).engine.idleWindows) : w.LeavesIdle (t, a) key := by
  obtain ⟨hhas, hidle⟩ := Engine.mem_idleWindows.1 hkey
  have hgone : ¬ w.grant (t, a) .dispose := by
    intro hg
    obtain ⟨i, pending, below, v, rfl, hi, ho⟩ := grant_dispose hg
    have hempty : (w.step cfg (t, .resume i)).engine.directWindows = .empty := by
      simp [step, resumeTask, hi, ho, Engine.resume, Engine.disposeFlushed]
    rw [hempty] at hhas
    cases hhas
  have hopens : w.engine.Opens (w.step cfg (t, a)).engine := opens_step hcall
  obtain hold | ⟨x, d, hd, hdkey⟩ := hopens key hhas
  · refine ⟨hold, fun id d hd hdkey => ?_⟩
    obtain ⟨r, hr, hrd⟩ := Option.bind_eq_some_iff.1 hd
    have hended : (w.step cfg (t, a)).engine.outstandingRequests.get? id = some r ∨
        w.settles (t, a) id ∨ w.grant (t, a) .dispose := stays_step hcancel hdispose hr
    obtain hstays | hsettles | hg := hended
    · exact absurd hdkey (hidle id d (Option.bind_eq_some_iff.2 ⟨r, hstays, hrd⟩))
    · exact hsettles
    · exact absurd hg hgone
  · exact absurd hdkey (hidle x d hd)

theorem idle_step (h : w.engine.idleWindows.card ≤ cfg.maxDirectMetadataEntries + 1)
    (hroom : w.FindsRoom cfg (t, a)) :
    (w.step cfg (t, a)).engine.idleWindows.card ≤ cfg.maxDirectMetadataEntries + 1 := by
  by_cases hprunes : (∃ selector, a = .call (.cancelDirectRequests selector)) ∨
      (a = .call .dispose ∧ w.engine.disposed = false) ∨
      ∃ p f options n, a = .call (.requestPieceWindow p f options n)
  · exact idle_pruning h hprunes
  · simp only [not_or, not_exists, not_and, Bool.not_eq_false] at hprunes
    obtain ⟨hcancel, hdispose, hcall⟩ := hprunes
    have hleft := fun key (hkey : key ∈ (w.step cfg (t, a)).engine.idleWindows) =>
      leavesIdle_step hcancel hdispose hcall hkey
    by_cases hends : ∃ id d, w.engine.ledger.direct? id = some d ∧ w.settles (t, a) id
    · obtain ⟨id, d, hd, hsettles⟩ := hends
      exact hroom.windows id d hd hsettles _ hleft
    · -- nothing ends: what is idle was so before
      refine (Finset.card_le_card fun key hkey => ?_).trans h
      obtain ⟨hhas, hall⟩ := hleft key hkey
      refine Engine.mem_idleWindows.2 ⟨hhas, fun id d hd hdkey => ?_⟩
      exact hends ⟨id, d, hd, hall id d hd hdkey⟩

theorem card_tombstones_step
    (h : w.engine.directTombstones.toFinset.card ≤ cfg.maxDirectMetadataEntries)
    (hroom : w.FindsRoom cfg (t, a)) :
    (w.step cfg (t, a)).engine.directTombstones.toFinset.card ≤ cfg.maxDirectMetadataEntries := by
  by_cases hcancel : ∃ selector, a = .call (.cancelDirectRequests selector)
  · obtain ⟨selector, rfl⟩ := hcancel
    have hcard := Engine.card_cancelDirectRequests w.engine cfg t selector h
    show (Engine.settled _ _).1.directTombstones.toFinset.card ≤ _
    unfold Engine.settled
    split <;> rename_i he <;> rw [he] at hcard <;> exact hcard
  · by_cases hdispose : a = .call .dispose
    · subst hdispose
      show (w.engine.dispose cfg t).1.directTombstones.toFinset.card ≤ _
      cases hlive : w.engine.disposed with
      | false =>
        rw [Engine.dispose_live w.engine cfg t hlive]
        exact Engine.card_cancelDirectRequests w.engine cfg t Engine.everything h
      | true =>
        rw [Engine.dispose, if_pos hlive, Engine.flushDirectLifecycle_engine]
        have hchanges : Changes t (Grant.expiring w.engine) w.engine (Engine.expireDirectRequests cfg t
            t.clock w.engine.outstandingRequests.entries w.engine).1 :=
          Engine.changes_expireDirectRequests _ _ (Engine.expiring_le le_rfl)
        refine (hchanges.card_tombstones ?_).trans h
        rintro x ⟨p, -, hp⟩
        cases hp
    · rw [not_exists] at hcancel
      have hburied := fun id (hid : id ∈ (w.step cfg (t, a)).engine.directTombstones) =>
        buried_step hcancel hdispose hid
      by_cases hnew : ∃ id, w.marks (t, a) id ∧ id ∉ w.engine.directTombstones
      · obtain ⟨id, hmarks, hid⟩ := hnew
        exact hroom.tombstones id hmarks hid _ fun y hy => hburied y (List.mem_toFinset.1 hy)
      · refine (Finset.card_le_card fun id hid => ?_).trans h
        rw [List.mem_toFinset] at hid ⊢
        obtain hold | hmarks := hburied id hid
        · exact hold
        · by_contra hnot
          exact hnew ⟨id, hmarks, hnot⟩

/-- A step that finds room keeps what is remembered bounded. -/
theorem bounded_step (h : w.engine.Bounded cfg) (hroom : w.FindsRoom cfg (t, a)) :
    (w.step cfg (t, a)).engine.Bounded cfg := by
  refine ⟨card_tombstones_step h.tombstones hroom, ?_⟩
  have hbefore := w.engine.size_directWindows
  have hafter := (w.step cfg (t, a)).engine.size_directWindows
  have hwindows := h.windows
  have hidle := idle_step (by omega) hroom
  omega

omit [StorageAdapter σ] in
theorem bounded_new (cfg : Config) (storage : σ) (transport : Bool) :
    (World.new storage transport).engine.Bounded cfg :=
  ⟨Nat.zero_le _, Nat.zero_le _⟩

end World

/-- In every run whose steps find room for the tombstones that they set outside of a
cancellation, and for the windows that they leave idle without pruning, the engine keeps no
more of either than it is meant to. -/
theorem lifecycle_metadata_is_bounded {σ : Type} [StorageAdapter σ] (cfg : Config) (storage : σ)
    (transport : Bool) (w : World σ)
    (h : Run (World.step cfg) (fun v x => v.FindsRoom cfg x) (.new storage transport) w) :
    w.engine.Bounded cfg :=
  h.invariant (P := fun v => v.engine.Bounded cfg)
    (fun _ _ hv hroom => World.bounded_step hv hroom) (World.bounded_new cfg storage transport)

namespace Sample

/-- The `i`th id that a peer makes up. -/
def madeUp (i : Nat) : RequestId := String.ofList (List.replicate (i + 1) 'x')

/-- A peer cancels requests that never were. -/
def cancels (n : Nat) : List (Turn × Action) :=
  (List.range n).map fun i => (turn, .message "p"
    (some { WireMessage.blank "PIECE_CANCEL" with requestId := some (madeUp i) }))

/-- The two pieces of a file, each requested in a window of its own and acknowledged. -/
def twoAcknowledged : List (Turn × Action) :=
  [(turn, .call (.joinSession "s" [pair])), (turn, .resume 0), (turn, .resume 0),
   (turn, .call (.requestNextPiece "o" "f" (some ⟨none, some "a", none, 0⟩))),
   (turn, .call (.requestNextPiece "o" "f" (some ⟨none, some "b", none, 0⟩))),
   (turn, .message "o" (some { WireMessage.blank "PIECE_ACK" with
      requestId := some (turn.createRequestId "f" 0), fileId := some "f", pieceIndex := some 0 })),
   (turn, .message "o" (some { WireMessage.blank "PIECE_ACK" with
      requestId := some (turn.createRequestId "f" 1), fileId := some "f", pieceIndex := some 1 }))]

theorem madeUp_injective : Function.Injective madeUp := by
  intro i j h
  have hlength := congrArg List.length (String.ofList_injective h)
  simpa using hlength

/-- Each of them is remembered. -/
theorem tombstones_cancels (n : Nat) :
    (steps (World.step config) start (cancels n)).engine.subscribed = true ∧
    (steps (World.step config) start (cancels n)).engine.directTombstones =
      (List.range n).map madeUp := by
  induction n with
  | zero => exact ⟨rfl, rfl⟩
  | succ n ih =>
    obtain ⟨hsub, htombs⟩ := ih
    have hnew : madeUp n ∉ (List.range n).map madeUp := by
      intro hmem
      obtain ⟨i, hi, heq⟩ := List.mem_map.1 hmem
      have hlt := List.mem_range.1 hi
      have hne := madeUp_injective heq
      omega
    have hname : madeUp n ≠ "" := fun h => by
      have hlist := congrArg String.toList h
      simp [madeUp] at hlist
    have hlast : cancels (n + 1) = cancels n ++ [(turn, .message "p"
        (some { WireMessage.blank "PIECE_CANCEL" with requestId := some (madeUp n) }))] := by
      simp [cancels, List.range_succ]
    rw [hlast, steps, List.foldl_append, List.range_succ, List.map_append]
    rw [steps] at hsub htombs
    simp [World.step, World.handleMessage, hsub, htombs, World.spawn, Engine.handleTransportMessage,
      requireStringField, WireMessage.blank, hname, insertNew, hnew]

end Sample

/-- One tombstone of a peer's finds room. -/
theorem lifecycle_metadata_is_bounded_sample :
    (steps (World.step Sample.config) Sample.start (Sample.cancels 1)).engine.directTombstones =
      ["x"] ∧
    (steps (World.step Sample.config) Sample.start (Sample.cancels 1)).engine.Bounded
      Sample.config := by
  refine ⟨by decide +kernel, lifecycle_metadata_is_bounded Sample.config MemoryStorageAdapter.empty
    true _ (run_of_allowed ⟨⟨fun id hid _ ids hids => ?_, fun id d hd => ?_⟩, trivial⟩)⟩
  · -- the one id that the message names is the one that may be set
    have hsub : ids ⊆ {"x"} := by
      intro y hy
      obtain hold | ⟨-, -, hg⟩ := hids y hy
      · cases hold
      · obtain hframe | ⟨m, hm, hnamed⟩ := hg
        · cases hframe
        · cases hm
          have hname := (Grant.message_tombstone hnamed).2
          exact Finset.mem_singleton.2 (Option.some.inj hname).symm
    have hcard := Finset.card_le_card hsub
    rw [Finset.card_singleton] at hcard
    exact hcard.trans (by decide)
  · cases hd

/-- More such messages than tombstones that the engine keeps, and it keeps them all the same. -/
theorem tombstones_outgrow_their_limit :
    ¬ (steps (World.step Sample.config) Sample.start (Sample.cancels 4097)).engine.Bounded
      Sample.config := by
  intro h
  have htombs := h.tombstones
  rw [(Sample.tombstones_cancels 4097).2, List.toFinset_card_of_nodup
    (List.nodup_range.map Sample.madeUp_injective), List.length_map, List.length_range] at htombs
  exact absurd htombs (by decide)

/-- Nothing prunes behind acknowledgements: where one idle window may stay, two do. -/
example : (steps (World.step { Sample.config with maxDirectMetadataEntries := 0 })
    (World.new MemoryStorageAdapter.empty true) Sample.twoAcknowledged).engine.idleWindows.card =
      2 := by decide +kernel

end PonsWarp.Core
