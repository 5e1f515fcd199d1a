import PonsWarp.Core.Disposal

set_option autoImplicit false

/-!
Which requests `cancelDirectRequests` ends, and what becomes of all others.
-/

namespace PonsWarp.Core

open PonsWarp.Data

/-- An outstanding direct request with its id. -/
structure OpenRequest where
  requestId : RequestId
  request : OutstandingRequest
  direct : DirectRequest

/-- The terminal event of a request that is cancelled. -/
def OpenRequest.cancelled (q : OpenRequest) (t : Turn) : EngineEvent :=
  .requestTerminal ⟨q.request.fileId, q.request.pieceIndex, q.request.peerId, q.requestId,
    .cancelled, q.direct.retryCount, false, t.clock, q.direct.generation, q.direct.controllerId,
    q.direct.windowKey⟩

namespace DirectCancelSelector

def open? (s : DirectCancelSelector) (p : RequestId × OutstandingRequest) : Option OpenRequest :=
  p.2.direct.bind fun d => if s.matchesRequest p.2 d then some ⟨p.1, p.2, d⟩ else none

/-- The direct requests of a list that match, in order. -/
def among (s : DirectCancelSelector) (requests : List (RequestId × OutstandingRequest)) :
    List OpenRequest :=
  requests.filterMap s.open?

variable {s : DirectCancelSelector} {requests : List (RequestId × OutstandingRequest)}

theorem open?_eq_some {p : RequestId × OutstandingRequest} {q : OpenRequest} :
    s.open? p = some q ↔ p = (q.requestId, q.request) ∧ q.request.direct = some q.direct ∧
      s.matchesRequest q.request q.direct = true := by
  obtain ⟨x, r⟩ := p
  obtain ⟨y, r', d⟩ := q
  cases hd : r.direct with
  | none =>
    simp only [open?, hd, Option.bind_none, Prod.mk.injEq, reduceCtorEq, false_iff]
    rintro ⟨⟨rfl, rfl⟩, h, -⟩
    simp [hd] at h
  | some d' =>
    by_cases hm : s.matchesRequest r d' = true
    · simp only [open?, hd, Option.bind_some, hm, if_true, Option.some.injEq, Prod.mk.injEq,
        OpenRequest.mk.injEq]
      constructor
      · rintro ⟨rfl, rfl, rfl⟩
        exact ⟨⟨rfl, rfl⟩, hd, hm⟩
      · rintro ⟨⟨rfl, rfl⟩, h, -⟩
        simpa [hd] using h
    · simp only [open?, hd, Option.bind_some, hm, Bool.false_eq_true, if_false, reduceCtorEq,
        Prod.mk.injEq, false_iff]
      rintro ⟨⟨rfl, rfl⟩, h, hm'⟩
      rw [hd] at h
      cases h
      exact hm hm'

theorem mem_among {q : OpenRequest} :
    q ∈ s.among requests ↔ (q.requestId, q.request) ∈ requests ∧
      q.request.direct = some q.direct ∧ s.matchesRequest q.request q.direct = true := by
  simp only [among, List.mem_filterMap, open?_eq_some]
  constructor
  · rintro ⟨p, hp, rfl, h⟩
    exact ⟨hp, h⟩
  · rintro ⟨hp, h⟩
    exact ⟨_, hp, rfl, h⟩

theorem ids_among_sublist :
    ((s.among requests).map (·.requestId)).Sublist (requests.map Prod.fst) := by
  induction requests with
  | nil => exact .slnil
  | cons p rest ih =>
    cases hq : s.open? p with
    | none =>
      rw [among, List.filterMap_cons_none hq]
      exact ih.cons _
    | some q =>
      obtain ⟨rfl, -⟩ := open?_eq_some.1 hq
      rw [among, List.filterMap_cons_some hq]
      exact ih.cons_cons _

end DirectCancelSelector

namespace Engine

variable {σ : Type} {e e' e'' : Engine σ} {cfg : Config} {t : Turn} {x : RequestId}
variable {gone more : List OpenRequest}

/-- The direct requests of an engine that match. -/
def matching (e : Engine σ) (s : DirectCancelSelector) : List OpenRequest :=
  s.among e.outstandingRequests.entries

/-- No table of the engine has anything of the request. -/
structure Lacks (e : Engine σ) (x : RequestId) : Prop where
  request : e.outstandingRequests.get? x = none
  timer : e.directTimers.get? x = none
  assembly : e.incomingChunks.get? x = none
  headers : ∀ p h, e.pendingChunks.get? p = some h → h.requestId ≠ x

/-- Two engines have the same of a request. -/
structure Agree (e e' : Engine σ) (x : RequestId) : Prop where
  request : e'.outstandingRequests.get? x = e.outstandingRequests.get? x
  timer : e'.directTimers.get? x = e.directTimers.get? x
  assembly : e'.incomingChunks.get? x = e.incomingChunks.get? x
  headers : ∀ p h, h.requestId = x →
    (e'.pendingChunks.get? p = some h ↔ e.pendingChunks.get? p = some h)

/-- Between the two engines the given requests were taken out, with an event for each, and
nothing else changed in the tables of the requests. -/
structure TakenOut (t : Turn) (gone : List OpenRequest) (e e' : Engine σ) : Prop where
  lacks : ∀ q ∈ gone, e'.Lacks q.requestId
  agree : ∀ x, (∀ q ∈ gone, q.requestId ≠ x) → e.Agree e' x
  log : e'.log = e.log ++ gone.map fun q => .emit (q.cancelled t)

theorem Agree.trans (h : e.Agree e' x) (h' : e'.Agree e'' x) : e.Agree e'' x :=
  ⟨h'.request.trans h.request, h'.timer.trans h.timer, h'.assembly.trans h.assembly,
    fun p hd hx => (h'.headers p hd hx).trans (h.headers p hd hx)⟩

theorem Lacks.of_agree (h : e.Lacks x) (ha : e.Agree e' x) : e'.Lacks x where
  request := ha.request.trans h.request
  timer := ha.timer.trans h.timer
  assembly := ha.assembly.trans h.assembly
  headers := fun p hd hp hx => h.headers p hd ((ha.headers p hd hx).1 hp) hx

theorem TakenOut.trans (h : TakenOut t gone e e') (h' : TakenOut t more e' e'') :
    TakenOut t (gone ++ more) e e'' where
  lacks := by
    intro q hq
    by_cases hmore : ∃ r ∈ more, r.requestId = q.requestId
    · obtain ⟨r, hr, hx⟩ := hmore
      exact hx ▸ h'.lacks r hr
    · have hagree := h'.agree q.requestId fun r hr hx => hmore ⟨r, hr, hx⟩
      rcases List.mem_append.1 hq with hq | hq
      · exact (h.lacks q hq).of_agree hagree
      · exact absurd ⟨q, hq, rfl⟩ hmore
  agree := by
    intro x hx
    have hfirst := h.agree x fun q hq => hx q (List.mem_append_left _ hq)
    exact hfirst.trans (h'.agree x fun q hq => hx q (List.mem_append_right _ hq))
  log := by simp [h'.log, h.log]

/-- Changes outside of the tables of the requests. -/
theorem takenOut_none (hr : e'.outstandingRequests = e.outstandingRequests)
    (ht : e'.directTimers = e.directTimers) (ha : e'.incomingChunks = e.incomingChunks)
    (hh : e'.pendingChunks = e.pendingChunks) (hl : e'.log = e.log) : TakenOut t [] e e' where
  lacks := by simp
  agree := fun x _ => ⟨by rw [hr], by rw [ht], by rw [ha], fun p hd _ => by rw [hh]⟩
  log := by simp [hl]

theorem TakenOut.after (h : TakenOut t more e' e'')
    (hr : e'.outstandingRequests = e.outstandingRequests) (ht : e'.directTimers = e.directTimers)
    (ha : e'.incomingChunks = e.incomingChunks) (hh : e'.pendingChunks = e.pendingChunks)
    (hl : e'.log = e.log) : TakenOut t more e e'' :=
  (takenOut_none hr ht ha hh hl).trans h

theorem get?_dropPendingHeaders (e : Engine σ) (x : RequestId) (p : PeerId)
    (header : PieceChunkHeaderMessage) :
    (e.dropPendingHeaders x).pendingChunks.get? p = some header ↔
      e.pendingChunks.get? p = some header ∧ header.requestId ≠ x := by
  simp only [dropPendingHeaders, OrderedMap.get?_deleteAll]
  have hstale : p ∈ (e.pendingChunks.entries.filter fun q => q.2.requestId = x).map Prod.fst ↔
      ∃ h, e.pendingChunks.get? p = some h ∧ h.requestId = x := by
    simp [← OrderedMap.mem_entries_iff]
  split
  · rename_i hmem
    obtain ⟨h, hget, hx⟩ := hstale.1 hmem
    simp only [reduceCtorEq, hget, Option.some.injEq, false_iff]
    rintro ⟨rfl, hne⟩
    exact hne hx
  · rename_i hmem
    have hnone : ∀ h, e.pendingChunks.get? p = some h → h.requestId ≠ x :=
      fun h hget hx => hmem (hstale.2 ⟨h, hget, hx⟩)
    exact ⟨fun h => ⟨h, hnone _ h⟩, fun h => h.1⟩

theorem takenOut_retire (e : Engine σ) (t : Turn) (q : OpenRequest) :
    TakenOut t [q] e ((e.retireDirectRequest q.requestId).emit (q.cancelled t)) where
  lacks := by
    simp only [List.mem_singleton, forall_eq]
    constructor
    · exact OrderedMap.get?_delete_self _ _
    · exact OrderedMap.get?_delete_self _ _
    · exact OrderedMap.get?_delete_self _ _
    · intro p h hh
      exact ((get?_dropPendingHeaders _ _ p h).1 hh).2
  agree := by
    intro x hx
    have hne : x ≠ q.requestId := fun heq => hx q (List.mem_singleton_self q) heq.symm
    constructor
    · exact OrderedMap.get?_delete_of_ne _ hne
    · exact OrderedMap.get?_delete_of_ne _ hne
    · exact OrderedMap.get?_delete_of_ne _ hne
    · intro p h hh
      have hdrop := get?_dropPendingHeaders { e with
        outstandingRequests := e.outstandingRequests.delete q.requestId
        directTimers := e.directTimers.delete q.requestId
        incomingChunks := e.incomingChunks.delete q.requestId } q.requestId p h
      exact hdrop.trans (and_iff_left (hh ▸ hne))
  log := rfl

/-- A cancelled request is not retried and exhausts no window. -/
theorem finalizeDirectRequest_cancelled (cfg : Config) (t : Turn) {q : OpenRequest}
    (hr : e.outstandingRequests.get? q.requestId = some q.request)
    (hd : q.request.direct = some q.direct) :
    e.finalizeDirectRequest cfg t q.requestId .cancelled =
      ((e.retireDirectRequest q.requestId).emit (q.cancelled t), true) := by
  simp [finalizeDirectRequest, hr, hd, retryable, OpenRequest.cancelled]

theorem takenOut_addDirectTombstone (e : Engine σ) (cfg : Config) (t : Turn) (x : RequestId) :
    TakenOut t [] e (e.addDirectTombstone cfg x) := takenOut_none rfl rfl rfl rfl rfl

theorem takenOut_disableWindows (selector : DirectCancelSelector)
    (windows : List (String × Nat)) : TakenOut t [] e (disableWindows selector windows e).1 := by
  induction windows generalizing e with
  | nil => exact takenOut_none rfl rfl rfl rfl rfl
  | cons p rest ih =>
    unfold disableWindows
    split
    · exact ih
    · split
      · unfold allocateDirectGeneration
        simp only
        split
        · exact takenOut_none rfl rfl rfl rfl rfl
        · rename_i generation e1 he
          split at he
          · cases he
            exact ih.after rfl rfl rfl rfl rfl
          · cases he
      · exact ih

/-- The loop ends the matching requests of its list and counts them. -/
theorem cancelRequests_spec (cfg : Config) (t : Turn) (selector : DirectCancelSelector)
    (requests : List (RequestId × OutstandingRequest)) (count : Nat)
    (hnodup : (requests.map Prod.fst).Nodup)
    (hthere : ∀ p ∈ requests, e.outstandingRequests.get? p.1 = some p.2) :
    (cancelRequests cfg t selector requests count e).2 =
        count + (selector.among requests).length ∧
      TakenOut t (selector.among requests) e
        (cancelRequests cfg t selector requests count e).1 := by
  induction requests generalizing e count with
  | nil => exact ⟨rfl, takenOut_none rfl rfl rfl rfl rfl⟩
  | cons p rest ih =>
    obtain ⟨x, r⟩ := p
    simp only [List.map_cons, List.nodup_cons] at hnodup
    have hrest : ∀ p ∈ rest, e.outstandingRequests.get? p.1 = some p.2 :=
      fun p hp => hthere p (List.mem_cons_of_mem _ hp)
    unfold cancelRequests
    split
    · rename_i hd
      have hskip : selector.among ((x, r) :: rest) = selector.among rest :=
        List.filterMap_cons_none (by simp [DirectCancelSelector.open?, show r.direct = none from hd])
      rw [hskip]
      exact ih count hnodup.2 hrest
    · rename_i d hd
      have hdirect : r.direct = some d := hd
      split
      · rename_i hm
        have hr : (e.addDirectTombstone cfg x).outstandingRequests.get? x = some r :=
          hthere (x, r) List.mem_cons_self
        have htake : selector.among ((x, r) :: rest) = ⟨x, r, d⟩ :: selector.among rest :=
          List.filterMap_cons_some
            (DirectCancelSelector.open?_eq_some.2 ⟨rfl, hdirect, hm⟩)
        have hfinal := finalizeDirectRequest_cancelled cfg t (q := ⟨x, r, d⟩) hr hdirect
        have hfirst := (takenOut_addDirectTombstone e cfg t x).trans
          (takenOut_retire _ t ⟨x, r, d⟩)
        rw [htake]
        simp only [hfinal, if_true]
        obtain ⟨hcount, hmore⟩ := ih (e := ((e.addDirectTombstone cfg x).retireDirectRequest
          x).emit _) (count + 1) hnodup.2 fun p hp => by
            have hne : ∀ q ∈ [OpenRequest.mk x r d], q.requestId ≠ p.1 := by
              simp only [List.mem_singleton, forall_eq]
              intro heq
              exact hnodup.1 (List.mem_map.2 ⟨p, hp, heq.symm⟩)
            exact (hfirst.agree p.1 hne).request.trans (hrest p hp)
        refine ⟨?_, hfirst.trans hmore⟩
        rw [hcount, List.length_cons]
        omega
      · rename_i hm
        have hskip : selector.among ((x, r) :: rest) = selector.among rest :=
          List.filterMap_cons_none (by simp [DirectCancelSelector.open?, hdirect, hm])
        rw [hskip]
        exact ih count hnodup.2 hrest

theorem matching_nodup (e : Engine σ) (s : DirectCancelSelector) :
    ((e.matching s).map (·.requestId)).Nodup :=
  e.outstandingRequests.nodup.sublist DirectCancelSelector.ids_among_sublist

/-- `cancelDirectRequests` ends the matching direct requests and no other. -/
theorem takenOut_cancelDirectRequests {selector : DirectCancelSelector} {n : Nat}
    (h : e.cancelDirectRequests cfg t selector = (e', .ok n)) :
    n = (e.matching selector).length ∧ TakenOut t (e.matching selector) e e' := by
  have hdisabled : TakenOut t [] e (disableWindows selector e.directWindows.entries e).1 :=
    takenOut_disableWindows selector _
  have hsame := disableWindows_outstanding (e := e) selector e.directWindows.entries
  unfold cancelDirectRequests at h
  split at h
  · simp at h
  · rename_i e1 he
    rw [he] at hdisabled hsame
    obtain ⟨hcount, hgone⟩ := cancelRequests_spec (e := e1) cfg t selector
      e1.outstandingRequests.entries 0 e1.outstandingRequests.nodup
      fun p hp => OrderedMap.mem_entries_iff.1 hp
    simp only [Prod.mk.injEq, Except.ok.injEq] at h
    obtain ⟨rfl, rfl⟩ := h
    have hmatching : selector.among e1.outstandingRequests.entries = e.matching selector := by
      rw [matching, ← hsame]
    rw [hmatching] at hcount hgone
    have hprune : TakenOut t [] (cancelRequests cfg t selector _ 0 e1).1
        ((cancelRequests cfg t selector e1.outstandingRequests.entries 0 e1).1
          |>.pruneDirectLifecycleMetadata cfg none) := takenOut_none rfl rfl rfl rfl rfl
    have hpruned := (hdisabled.trans hgone).trans hprune
    rw [List.nil_append, List.append_nil] at hpruned
    exact ⟨by omega, hpruned⟩

/-- When `cancelDirectRequests` returns `n`, exactly the `n` direct requests that matched have
ended, each with one terminal event and nothing of it left, and the engine has the same of every
other request as before. -/
theorem cancelDirectRequests_exact {σ : Type} (cfg : Config) (t : Turn) (e e' : Engine σ)
    (selector : DirectCancelSelector) (n : Nat)
    (h : e.cancelDirectRequests cfg t selector = (e', .ok n)) :
    (e.matching selector).length = n ∧ ((e.matching selector).map (·.requestId)).Nodup ∧
    (∀ q ∈ e.matching selector,
      e.outstandingRequests.get? q.requestId = some q.request ∧ e'.Lacks q.requestId) ∧
    e'.log = e.log ++ (e.matching selector).map (fun q => .emit (q.cancelled t)) ∧
    e'.matching selector = [] ∧
    ∀ x r, e.outstandingRequests.get? x = some r →
      (∀ q ∈ e.matching selector, q.requestId ≠ x) → e.Agree e' x := by
  obtain ⟨hcount, hgone⟩ := takenOut_cancelDirectRequests h
  refine ⟨hcount.symm, matching_nodup e selector, ?_, hgone.log, ?_, ?_⟩
  · intro q hq
    have hentry := (DirectCancelSelector.mem_among.1 hq).1
    exact ⟨OrderedMap.mem_entries_iff.1 hentry, hgone.lacks q hq⟩
  · refine List.eq_nil_iff_forall_not_mem.2 fun q hq => ?_
    obtain ⟨hentry, hd, hm⟩ := DirectCancelSelector.mem_among.1 hq
    have hleft := OrderedMap.mem_entries_iff.1 hentry
    by_cases hx : ∀ r ∈ e.matching selector, r.requestId ≠ q.requestId
    · rw [(hgone.agree q.requestId hx).request] at hleft
      have hbefore : q ∈ e.matching selector :=
        DirectCancelSelector.mem_among.2 ⟨OrderedMap.mem_entries_iff.2 hleft, hd, hm⟩
      exact hx q hbefore rfl
    · simp only [not_forall, not_not] at hx
      obtain ⟨r, hr, heq⟩ := hx
      simp [← heq, (hgone.lacks r hr).request] at hleft
  · exact fun x r _ hx => hgone.agree x hx

end Engine

namespace Sample

/-- Two requests of different controllers are open, and one is cancelled. -/
def twoOpen : World MemoryStorageAdapter :=
  steps (World.step config) start
    [(turn, .call (.joinSession "s" [pair])), (turn, .resume 0), (turn, .resume 0),
      (turn, .call (.requestNextPiece "o" "f" (some ⟨none, some "first", none, 0⟩))),
      ({ turn with random := "b" },
        .call (.requestNextPiece "o" "f" (some ⟨none, some "second", none, 0⟩)))]

def ofFirst : DirectCancelSelector := ⟨none, none, some "first", none, none⟩

end Sample

theorem Engine.cancelDirectRequests_exact_sample :
    (Sample.twoOpen.engine.matching Sample.ofFirst).length = 1 ∧
    Sample.twoOpen.engine.outstandingRequests.size = 2 := by
  have h : Sample.twoOpen.engine.cancelDirectRequests Sample.config Sample.turn Sample.ofFirst =
      ((Sample.twoOpen.engine.cancelDirectRequests Sample.config Sample.turn Sample.ofFirst).1,
        .ok 1) := by
    refine Prod.ext rfl ?_
    decide +kernel
  exact ⟨(Engine.cancelDirectRequests_exact _ _ _ _ _ 1 h).1, by decide +kernel⟩

end PonsWarp.Core
