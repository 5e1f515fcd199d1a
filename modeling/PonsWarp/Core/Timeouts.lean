import PonsWarp.Core.BookedSteps
import PonsWarp.Core.InFlight

set_option autoImplicit false

/-!
The timers of the direct requests over whole runs. The expiry of a request that is still
open waits in the chain of its window from the moment its timer has fired.
-/

namespace PonsWarp.Core

open PonsWarp.Data

namespace Ledger

/-- The expiry of the request waits in the chain of the window of the key. -/
def Expires (L : Ledger) (x : RequestId) (key : String) : Prop :=
  ∃ ref line, L.line? key = some (ref, line) ∧ .expire x ∈ line.queue

/-- If the request is open, its expiry waits. -/
def Overdue (L : Ledger) (x : RequestId) : Prop :=
  ∀ d, L.direct? x = some d → L.Expires x d.windowKey

variable {max : Nat} {P : Entry → Prop} {L L' : Ledger} {x : RequestId} {key : String}

theorem Expires.same (hw : L'.windows = L.windows) (hl : L'.lines = L.lines)
    (h : L.Expires x key) : L'.Expires x key := by
  simpa [Expires, line?, hw, hl] using h

/-- A line that is changed keeps what waits in it. -/
theorem Expires.put {ref : Nat} {line line' : Line} (hline : L.lines[ref]? = some line)
    (hq : .expire x ∈ line.queue → .expire x ∈ line'.queue) (h : L.Expires x key) :
    Expires { L with lines := L.lines.set ref line' } x key := by
  obtain ⟨r, line1, hline1, hmem⟩ := h
  obtain ⟨hget, hline1⟩ := line?_eq_some.1 hline1
  by_cases hr : ref = r
  · subst hr
    rw [hline] at hline1
    cases hline1
    have hlt := (List.getElem?_eq_some_iff.1 hline).1
    exact ⟨ref, line', line?_eq_some.2 ⟨hget, List.getElem?_set_self hlt⟩, hq hmem⟩
  · refine ⟨r, line1, line?_eq_some.2 ⟨hget, ?_⟩, hmem⟩
    simpa [List.getElem?_set, hr] using hline1

theorem Expires.enqueue {key' : String} {job : WindowJob} (h : L.Expires x key) :
    (L.enqueue key' job).Expires x key := by
  unfold Ledger.enqueue
  split
  · rename_i ref line hline
    split
    · exact h
    · exact h.put (line?_eq_some.1 hline).2 fun hmem => List.mem_append_left _ hmem
  · exact h

/-- In a live window the expiry is queued. -/
theorem expires_enqueue {ref : Nat} {line : Line} (hline : L.line? key = some (ref, line))
    (hd : line.disabled = false) (hlive : L.disposed = false) :
    (L.enqueue key (.expire x)).Expires x key := by
  obtain ⟨hget, hat⟩ := line?_eq_some.1 hline
  have hlt := (List.getElem?_eq_some_iff.1 hat).1
  refine ⟨ref, { line with queue := line.queue ++ [.expire x] }, ?_, by simp⟩
  simp [Ledger.enqueue, hline, hd, hlive, line?_eq_some, hget, hlt]

theorem Posting.armed_prefix (h : Posting max P L L') : L.armed <+: L'.armed := by
  cases h with
  | ask x r h =>
    unfold Ledger.ask
    split
    · exact List.prefix_refl _
    · exact List.prefix_append _ _
  | retire x r d event hr hd hid hkey hcount =>
    have harmed : (L.retire x r d event).armed = L.armed := by rw [retire_eq]
    exact harmed ▸ List.prefix_refl _
  | enqueue key job h hkey =>
    have harmed : (L.enqueue key job).armed = L.armed := enqueue_armed L key job
    exact harmed ▸ List.prefix_refl _
  | _ => exact List.prefix_refl _

theorem Postings.armed_prefix (h : Postings max P L L') : L.armed <+: L'.armed := by
  induction h with
  | refl => exact List.prefix_refl _
  | tail _ hlast ih => exact ih.trans hlast.armed_prefix

/-- An id that has been handed out is not entered again. -/
theorem Posting.direct?_of_issued (h : Posting max P L L') (hn : L'.issued.Nodup)
    (hx : x ∈ L.issued) {d : DirectRequest} (hd : L'.direct? x = some d) : L.direct? x = some d := by
  cases h with
  | ask y r h =>
    rw [issued_ask] at hn
    rw [direct?_ask, if_neg fun hxy => (List.nodup_append.1 hn).2.2 x hx y (by simp) hxy] at hd
    exact hd
  | close y h =>
    simp only [direct?, OrderedMap.get?_delete] at hd ⊢
    split at hd
    · cases hd
    · exact hd
  | retire y r d' event hr hd' hid hkey hcount =>
    rw [direct?_retire] at hd
    split at hd
    · cases hd
    · exact hd
  | enqueue key job h hkey => simpa using hd
  | dispose h => cases hd
  | _ => exact hd

theorem Postings.direct?_of_issued (h : Postings max P L L') (hn : L'.issued.Nodup)
    (hx : x ∈ L.issued) {d : DirectRequest} (hd : L'.direct? x = some d) : L.direct? x = some d := by
  induction h with
  | refl => exact hd
  | tail h hlast ih =>
    exact ih (hn.sublist hlast.issued_prefix.sublist)
      (hlast.direct?_of_issued hn ((Postings.issued_prefix h).subset hx) hd)

/-- The expiry of an open request waits until its task is taken. -/
theorem Posting.overdue (h : Posting max P L L') (htake : ∀ ref, ¬ P (.take ref (.expire x)))
    (hn : L'.issued.Nodup) (hx : x ∈ L.issued) (ho : L.Overdue x) : L'.Overdue x := by
  intro d hd
  have hold := h.direct?_of_issued hn hx hd
  have hexpires := ho d hold
  cases h with
  | ask y r h =>
    obtain ⟨hwindows, hlines, -⟩ := ask_frame L y r
    exact hexpires.same hwindows hlines
  | retire y r d' event hr hd' hid hkey hcount =>
    unfold Ledger.retire
    simp only
    split
    · refine Expires.enqueue ?_
      exact hexpires.same rfl rfl
    · exact hexpires.same rfl rfl
  | enqueue key job h hkey => exact hexpires.enqueue
  | newWindow key cap h hnew hcap =>
    obtain ⟨ref, line, hline, hmem⟩ := hexpires
    obtain ⟨hget, hat⟩ := line?_eq_some.1 hline
    have hne : d.windowKey ≠ key := by
      rintro rfl
      rw [hline] at hnew
      cases hnew
    have hlt := (List.getElem?_eq_some_iff.1 hat).1
    refine ⟨ref, line, line?_eq_some.2 ⟨?_, ?_⟩, hmem⟩
    · rw [OrderedMap.get?_set_of_ne _ _ hne]
      exact hget
    · rw [List.getElem?_append_left hlt]
      exact hat
  | disable ref line hline => exact hexpires.put hline id
  | prune windows hsub hkeep hsize =>
    obtain ⟨ref, line, hline, hmem⟩ := hexpires
    obtain ⟨hget, hat⟩ := line?_eq_some.1 hline
    exact ⟨ref, line, line?_eq_some.2 ⟨(hkeep x d hold).trans hget, hat⟩, hmem⟩
  | take ref line job rest hline hq h =>
    refine hexpires.put hline fun hmem => ?_
    rw [hq] at hmem
    obtain rfl | hrest := List.mem_cons.1 hmem
    · exact absurd h (htake ref)
    · exact hrest
  | dispose h => cases hd
  | close y h => exact hexpires.same rfl rfl

theorem Postings.overdue (h : Postings max P L L') (htake : ∀ ref, ¬ P (.take ref (.expire x)))
    (hn : L'.issued.Nodup) (hx : x ∈ L.issued) (ho : L.Overdue x) : L'.Overdue x := by
  induction h with
  | refl => exact ho
  | tail h hlast ih =>
    have hbefore := ih (hn.sublist hlast.issued_prefix.sublist)
    exact hlast.overdue htake hn ((Postings.issued_prefix h).subset hx) hbefore

end Ledger

namespace Engine

variable {σ : Type} {e e' : Engine σ} {cfg : Config} {t : Turn} {x : RequestId}

theorem markFailedIfKnown_putWindow {ref : Nat} {window : DirectWindow} {f : FileId} {i : Nat}
    {reason : String} {err : Failure}
    (h : (e.putWindow ref window).markFailedIfKnown f i reason = .error err) :
    e.markFailedIfKnown f i reason = .error err := by
  unfold markFailedIfKnown markFailed onManager at h ⊢
  simp only [putWindow] at h
  split at h
  · rename_i r _
    split at h
    · cases h
    · rename_i hm
      cases h
      have hsame : (e.managerAt r).markFailed i reason = .error err := hm
      simp only [hsame]
  · cases h

/-- Whether a request can be expired is no matter of the windows. -/
theorem expireDirectRequest_putWindow {ref : Nat} {window : DirectWindow} {err : Failure}
    (h : (e.putWindow ref window).expireDirectRequest cfg t x = .error err) :
    e.expireDirectRequest cfg t x = .error err := by
  unfold expireDirectRequest at h ⊢
  have hsame : (e.putWindow ref window).outstandingRequests = e.outstandingRequests := rfl
  rw [hsame] at h
  split at h
  · cases h
  · rename_i request hrequest
    split at h
    · cases h
    · rename_i d hd
      split at h
      · rename_i err' hfail
        cases h
        rw [markFailedIfKnown_putWindow hfail]
      · cases h

/-- A request that has been expired is not open. -/
theorem expireDirectRequest_closes (h : e.expireDirectRequest cfg t x = .ok e') :
    e'.ledger.direct? x = none := by
  unfold expireDirectRequest at h
  split at h
  · rename_i hnone
    cases h
    simp [Ledger.direct?, ledger, hnone]
  · rename_i request hrequest
    split at h
    · rename_i hd
      cases h
      simp [Ledger.direct?, ledger, hrequest, hd]
    · rename_i d hd
      split at h
      · cases h
      · rename_i e1 he1
        cases h
        have htable : e1.outstandingRequests.get? x = some request := by
          have hledger := congrArg Ledger.requests (ledger_markFailedIfKnown he1)
          exact (congrArg (fun m => m.get? x) hledger).trans hrequest
        obtain ⟨event, -, -, -, -, hfinal⟩ := ledger_finalizeDirectRequest
          (e := ({ e1 with peerHealth := e1.peerHealth.markTimeout cfg.log2 request.peerId } :
            Engine σ).emit (.requestTimedOut request.fileId request.pieceIndex request.peerId x))
          cfg t .request_timeout htable hd
        rw [hfinal, Ledger.direct?_retire, if_pos rfl]

end Engine

namespace World

variable {σ : Type} [StorageAdapter σ]

/-- A step that keeps the direct requests in order. Its request id is new; nothing that takes
requests out of the table without `finalizeDirectRequest` (`cancelCompetingGridRequests`, a
due lease, the end of `dispose`) finds a direct one there; and an expiry is neither refused
by its window, nor dropped by it later, nor does it fail. -/
structure Careful (cfg : Config) (w : World σ) (x : Turn × Action) : Prop where
  fresh : (w.step cfg x).engine.issued.Nodup
  loses : ∀ y, ¬ (w.books x.2 (.lose y) ∨ w.engine.leased (.lose y))
  disposes : ¬ w.books x.2 .dispose
  fires : ∀ k y key, x.2 = .timer k → w.engine.armed[k]? = some (y, key) → k ∉ w.fired →
    w.engine.directTimers.get? y = some k →
    if key = "" then ∃ e, w.engine.expireDirectRequest cfg x.1 y = .ok e
    else w.engine.disposed = false ∧
      ∃ ref window, w.engine.window? key = some (ref, window) ∧ window.disabled = false
  expires : ∀ ref window y rest, x.2 = .window ref → w.engine.windowHeap[ref]? = some window →
    window.queue = .expire y :: rest → window.running = false →
    w.engine.ledger.direct? y ≠ none →
    window.disabled = false ∧ w.engine.disposed = false ∧
      ∃ e, w.engine.expireDirectRequest cfg x.1 y = .ok e

/-- The direct requests of a world are in order: exactly the open ones have a timer, each has
ended once if it is not open and not yet if it is, and one whose timer has fired is not open
when nothing waits in the chain of its window. -/
structure Booked (w : World σ) : Prop where
  timers : ∀ x, w.engine.directTimers.has x = true ↔
    ∃ r, w.engine.outstandingRequests.get? x = some r ∧ r.direct.isSome = true
  terminals : ∀ x key, (x, key) ∈ w.engine.armed →
    w.engine.ledger.ended x = if w.engine.directTimers.has x = true then 0 else 1
  drained : ∀ k ∈ w.fired, ∀ x key, w.engine.armed[k]? = some (x, key) →
    (∀ ref window, w.engine.window? key = some (ref, window) → window.queue = []) →
    w.engine.ledger.direct? x = none

/-- What runs keep: the books, and the expiries of the timers that have fired. -/
structure InOrder (w : World σ) : Prop where
  kept : w.engine.ledger.Kept
  issued : w.engine.issued.Nodup
  fired : ∀ k ∈ w.fired, ∃ x key, w.engine.armed[k]? = some (x, key) ∧ w.engine.ledger.Overdue x

variable {cfg : Config} {w : World σ} {t : Turn} {a : Action} {k ref : Nat}

omit [StorageAdapter σ] in
theorem InOrder.mem_issued (h : w.InOrder) {x : RequestId} {key : String}
    (hk : w.engine.armed[k]? = some (x, key)) : x ∈ w.engine.issued :=
  h.kept.armed.subset (List.mem_map.2 ⟨_, List.mem_of_getElem? hk, rfl⟩)

omit [StorageAdapter σ] in
theorem InOrder.booked (h : w.InOrder) : w.Booked := by
  have htimers : ∀ x, w.engine.directTimers.has x = (w.engine.ledger.direct? x).isSome :=
    h.kept.timers
  refine ⟨fun x => ?_, fun x key hx => ?_, fun k hk x key hat hdrained => ?_⟩
  · rw [htimers]
    simp only [Ledger.direct?, Engine.ledger]
    cases w.engine.outstandingRequests.get? x <;> simp
  · have hone : w.engine.ledger.entered x = 1 := by
      refine le_antisymm ?_ ?_
      · have hcount : w.engine.ledger.entered x =
            (w.engine.ledger.armed.map Prod.fst).count x := by
          rw [List.count, List.countP_map]
          rfl
        rw [hcount]
        exact List.nodup_iff_count_le_one.1 (h.issued.sublist h.kept.armed) x
      · exact List.countP_pos_iff.2 ⟨(x, key), hx, by simp⟩
    have hended := h.kept.ended x
    rw [hone] at hended
    rw [htimers]
    cases hd : w.engine.ledger.direct? x <;> simp [hd] at hended ⊢ <;> omega
  · obtain ⟨x', key', hat', hoverdue⟩ := h.fired k hk
    rw [hat] at hat'
    cases hat'
    cases hd : w.engine.ledger.direct? x with
    | none => rfl
    | some d =>
      obtain ⟨ref, line, hline, hmem⟩ := hoverdue d hd
      rw [h.kept.keys x key (List.mem_of_getElem? hat) d hd, Engine.ledger_line?] at hline
      obtain ⟨⟨ref', window⟩, hwindow, heq⟩ := Option.map_eq_some_iff.1 hline
      cases heq
      rw [DirectWindow.line, hdrained _ window hwindow] at hmem
      cases hmem

/-- Only a timer that has not fired before is added to those that have. -/
theorem fired_step (cfg : Config) (w : World σ) (t : Turn) (a : Action)
    (hk : k ∈ (w.step cfg (t, a)).fired) :
    k ∈ w.fired ∨ (a = .timer k ∧ k ∉ w.fired ∧ ∃ x key, w.engine.armed[k]? = some (x, key) ∧
      w.engine.directTimers.get? x = some k ∧
      (w.step cfg (t, a)).engine = w.engine.timerFired cfg t x key) := by
  cases a with
  | call c => exact .inl hk
  | message p message =>
    unfold step at hk
    simp only [handleMessage] at hk
    split at hk <;> exact .inl hk
  | binary p data =>
    unfold step at hk
    simp only [handleBinary] at hk
    split at hk <;> exact .inl hk
  | resume i =>
    unfold step at hk
    simp only [resumeTask] at hk
    split at hk
    · split at hk <;> exact .inl hk
    · exact .inl hk
  | window ref =>
    unfold step at hk
    cases h : w.engine.startWindowJob cfg t ref <;> simp only [h] at hk <;> exact .inl hk
  | upload p =>
    unfold step at hk
    cases h : w.engine.startUploadJob t p <;> simp only [h] at hk <;> exact .inl hk
  | timer k' =>
    unfold step at hk ⊢
    simp only [fireTimer] at hk ⊢
    split at hk
    · rename_i x key hat
      split at hk
      · rename_i hfires
        obtain hold | hlast := List.mem_append.1 hk
        · exact .inl hold
        · obtain rfl := List.mem_singleton.1 hlast
          refine .inr ⟨rfl, hfires.1, x, key, hat, hfires.2, ?_⟩
          rw [if_pos hfires]
      · exact .inl hk
    · exact .inl hk

/-- The task that a window takes expires its request, or finds it closed. -/
theorem Careful.taken (hc : w.Careful cfg (t, .window ref)) {x : RequestId}
    {window : DirectWindow} {rest : List WindowJob} (hx : x ∈ w.engine.issued)
    (hw : w.engine.windowHeap[ref]? = some window) (hq : window.queue = .expire x :: rest)
    (ho : w.engine.ledger.Overdue x) :
    (w.step cfg (t, .window ref)).engine.ledger.Overdue x := by
  have hbooks : Ledger.Postings cfg.maxDirectMetadataEntries
      (fun entry => w.books (.window ref) entry ∨ w.engine.leased entry) w.engine.ledger
      (w.step cfg (t, .window ref)).engine.ledger := books_step cfg w t (.window ref)
  intro d hd
  have hold : w.engine.ledger.direct? x = some d := hbooks.direct?_of_issued hc.fresh hx hd
  have hstep : w.step cfg (t, .window ref) =
      ((w.engine.startWindowJob cfg t ref).map w.spawn).getD w := rfl
  rw [hstep] at hd ⊢
  unfold Engine.startWindowJob at hd ⊢
  simp only [hw, hq] at hd ⊢
  by_cases hrunning : window.running = true
  · simp only [if_pos hrunning, Option.map_none, Option.getD_none] at hd ⊢
    exact ho d hd
  · obtain ⟨henabled, hlive, e1, he1⟩ := hc.expires ref window x rest rfl hw hq
      (by simpa using hrunning) (by simp [hold])
    have hrun : ¬ (window.disabled = true ∨ (w.engine.putWindow ref
        { window with queue := rest, running := true }).disposed = true) := by
      simp [henabled, Engine.putWindow, hlive]
    simp only [if_neg hrunning, if_neg hrun, Engine.runWindowJob, Option.map_some,
      Option.getD_some, spawn] at hd
    split at hd
    · rename_i err herr
      rw [Engine.expireDirectRequest_putWindow herr] at he1
      cases he1
    · rename_i e2 he2
      have hnone := Engine.expireDirectRequest_closes he2
      rw [hnone] at hd
      cases hd

/-- A timer that fires puts its expiry in the chain of its window, or expires its request. -/
theorem Careful.fired (hc : w.Careful cfg (t, .timer k)) (h : w.InOrder) {x : RequestId}
    {key : String} (hnew : k ∉ w.fired) (hat : w.engine.armed[k]? = some (x, key))
    (hget : w.engine.directTimers.get? x = some k) :
    (w.engine.timerFired cfg t x key).ledger.Overdue x := by
  have hfires := hc.fires k x key rfl hat hnew hget
  unfold Engine.timerFired
  split
  · rename_i hkey
    rw [if_pos hkey] at hfires
    obtain ⟨e1, he1⟩ := hfires
    simp only [he1]
    intro d hd
    rw [Engine.expireDirectRequest_closes he1] at hd
    cases hd
  · rename_i hkey
    rw [if_neg hkey] at hfires
    obtain ⟨hlive, ref, window, hwindow, henabled⟩ := hfires
    rw [Engine.ledger_enqueueWindow]
    intro d hd
    rw [Ledger.enqueue_direct?] at hd
    rw [h.kept.keys x key (List.mem_of_getElem? hat) d hd]
    have hline : w.engine.ledger.line? key = some (ref, window.line) := by
      rw [Engine.ledger_line?, hwindow]
      rfl
    exact Ledger.expires_enqueue hline henabled hlive

omit [StorageAdapter σ] in
/-- An expiry is only taken where it is at the head of its chain. -/
theorem books_take {x : RequestId}
    (h : w.books a (.take ref (.expire x)) ∨ w.engine.leased (.take ref (.expire x))) :
    ∃ ref window rest, a = .window ref ∧ w.engine.windowHeap[ref]? = some window ∧
      window.queue = .expire x :: rest := by
  obtain h | h := h
  · cases a with
    | call c => cases c <;> first | exact h.elim | cases h
    | resume i =>
      obtain ⟨pending, frame, below, -, h⟩ := h
      cases frame <;> first | exact h.elim | cases h.1
    | window ref =>
      obtain ⟨window, job, rest, hw, hq, h | ⟨-, -, h⟩⟩ := h
      · cases h
        exact ⟨_, window, rest, rfl, hw, hq⟩
      · cases job <;> exact h.elim
    | _ => exact h.elim
  · exact h.elim

theorem InOrder.step (h : w.InOrder) (hc : w.Careful cfg (t, a)) :
    (w.step cfg (t, a)).InOrder := by
  have hbooks : Ledger.Postings cfg.maxDirectMetadataEntries
      (fun entry => w.books a entry ∨ w.engine.leased entry) w.engine.ledger
      (w.step cfg (t, a)).engine.ledger := books_step cfg w t a
  refine ⟨hbooks.kept hc.loses ?_ hc.fresh h.kept, hc.fresh, fun k hk => ?_⟩
  · rintro (hd | hd)
    · exact hc.disposes hd
    · exact hd
  · obtain hold | ⟨rfl, hnew, x, key, hat, hget, hstep⟩ := fired_step cfg w t a hk
    · obtain ⟨x, key, hat, hoverdue⟩ := h.fired k hold
      have hx := h.mem_issued hat
      obtain ⟨more, hmore⟩ := hbooks.armed_prefix
      refine ⟨x, key, ?_, ?_⟩
      · have hlt := (List.getElem?_eq_some_iff.1 hat).1
        have harmed : (w.step cfg (t, a)).engine.armed = w.engine.armed ++ more := hmore.symm
        rw [harmed, List.getElem?_append_left hlt, hat]
      · by_cases htake : ∃ ref window rest, a = .window ref ∧
          w.engine.windowHeap[ref]? = some window ∧ window.queue = .expire x :: rest
        · obtain ⟨ref, window, rest, ha, hw, hq⟩ := htake
          subst ha
          exact hc.taken hx hw hq hoverdue
        · refine hbooks.overdue (fun ref hP => htake ?_) hc.fresh hx hoverdue
          exact books_take hP
    · have hlt := (List.getElem?_eq_some_iff.1 hat).1
      obtain ⟨more, hmore⟩ := hbooks.armed_prefix
      have harmed : (w.step cfg (t, .timer k)).engine.armed = w.engine.armed ++ more := hmore.symm
      refine ⟨x, key, by rw [harmed, List.getElem?_append_left hlt, hat], ?_⟩
      rw [hstep]
      exact hc.fired h hnew hat hget

end World

/-- In a run of careful steps the direct requests are in order in every state. -/
theorem direct_requests_stay_booked {σ : Type} [StorageAdapter σ] (cfg : Config) (storage : σ)
    (transport : Bool) (w : World σ)
    (h : Run (World.step cfg) (fun v x => v.Careful cfg x) (.new storage transport) w) :
    w.Booked := by
  have horder : w.InOrder := by
    refine h.invariant (P := fun v => v.InOrder) (fun v x hv hx => ?_) ?_
    · exact hv.step hx
    · refine ⟨⟨?_, ?_, ?_, ?_, ?_, ?_⟩, List.nodup_nil, ?_⟩
      · intro x r hx
        cases hx
      · exact List.nil_sublist _
      · exact fun x => rfl
      · intro x k hx
        cases hx
      · intro x key hx
        cases hx
      · exact fun x => rfl
      · intro k hk
        cases hk
  exact horder.booked

theorem World.careful_of_no_direct {σ : Type} [StorageAdapter σ] {cfg : Config} {w : World σ}
    {x : Turn × Action} (hfresh : (w.step cfg x).engine.issued.Nodup)
    (hnone : ∀ y, w.engine.ledger.direct? y = none) (hx : ∀ k, x.2 ≠ .timer k) :
    w.Careful cfg x := by
  have hdispose : ¬ w.books x.2 .dispose := by
    intro h
    obtain ⟨t, a⟩ := x
    cases a with
    | call c => cases c <;> first | exact h.elim | cases h
    | resume i =>
      obtain ⟨pending, frame, below, -, h⟩ := h
      cases frame with
      | disposeFlushed =>
        obtain ⟨-, y, hy⟩ := h
        exact hy (hnone y)
      | _ => exact h.elim
    | window ref =>
      obtain ⟨window, job, rest, hw, hq, h | ⟨-, -, h⟩⟩ := h
      · cases h
      · cases job <;> exact h.elim
    | _ => exact h.elim
  have hlose : ∀ y, ¬ w.books x.2 (.lose y) := by
    intro y h
    obtain ⟨t, a⟩ := x
    cases a with
    | call c =>
      cases c with
      | cancelCompetingGridRequests f i keep => exact h.1 (hnone y)
      | requestPieceWindow p f options maxInFlight => cases h
      | _ => exact h.elim
    | resume i =>
      obtain ⟨pending, frame, below, -, h⟩ := h
      cases frame with
      | piecePersisted r o => exact h.1 (hnone y)
      | disposeFlushed => cases h.1
      | _ => exact h.elim
    | window ref =>
      obtain ⟨window, job, rest, hw, hq, h | ⟨-, -, h⟩⟩ := h
      · cases h
      · cases job <;> exact h.elim
    | _ => exact h.elim
  refine ⟨hfresh, ?_, hdispose, fun k y key hk => absurd hk (hx k), ?_⟩
  · rintro y (h | h)
    · exact hlose y h
    · exact h.1 (hnone y)
  · exact fun ref window y rest _ _ _ _ hy => absurd (hnone y) hy

namespace Sample

/-- A direct request whose timer fires, and whose expiry is then taken. -/
def timedOut : List (Turn × Action) :=
  pairJoined ++ [(turn, .call (.requestNextPiece "o" "f" (some windowOptions))),
    (turn, .timer 0), (turn, .window 0)]

/-- A window of two requests at a time, of which the second cannot be persisted; then the
timer of the first fires. -/
def secondUnsaved : List (Turn × Action) :=
  pairJoined ++ [(turn, .call (.requestPieceWindow "o" "f" windowOptions (some 2))),
    (turn, .window 0), (turn, .resume 2), (turn, .resume 2), (turn, .resume 2),
    ({ turn with storageFailure := some (⟨none, "disk full"⟩, false) }, .resume 2),
    (turn, .resume 2), (turn, .timer 0)]

/-- A direct request that a grid request of the same piece makes redundant. -/
def outrun : List (Turn × Action) :=
  pairJoined ++ [(turn, .call (.requestNextPiece "o" "f" (some windowOptions))),
    (turn, .call (.cancelCompetingGridRequests "f" 0 "other"))]

theorem not_leased {w : World MemoryStorageAdapter} (hw : w.engine.availability.files = .empty)
    (y : RequestId) : ¬ w.engine.leased (.lose y) := by
  rintro ⟨-, now, f, i, l, hl, -⟩
  simp [PieceAvailabilityTable.getLease, PieceAvailabilityTable.piece?, hw] at hl

/-- Before its timer fires, the request is open in a live window. -/
theorem careful_timer : World.Careful config
    (steps (World.step config) start (timedOut.take 4)) (turn, .timer 0) := by
  refine ⟨by decide +kernel, fun y h => ?_, id, fun k y key hk hat hnew hget => ?_, ?_⟩
  · exact h.elim id (not_leased rfl y)
  · cases hk
    have harmed : (steps (World.step config) start (timedOut.take 4)).engine.armed[0]? =
        some ("req_f_0_0_a", "k") := by decide +kernel
    rw [harmed] at hat
    cases hat
    exact ⟨rfl, 0, _, rfl, rfl⟩
  · intro ref window y rest ha
    cases ha

theorem careful_expiry : World.Careful config
    (steps (World.step config) start (timedOut.take 5)) (turn, .window 0) := by
  refine ⟨by decide +kernel, fun y h => ?_, ?_, nofun, ?_⟩
  · obtain ⟨window, job, rest, hw, hq, h | ⟨-, -, h⟩⟩ | h := h
    · cases h
    · cases job <;> exact h.elim
    · exact not_leased rfl y h
  · rintro ⟨window, job, rest, hw, hq, h | ⟨-, -, h⟩⟩
    · cases h
    · cases job <;> exact h.elim
  · intro ref window y rest ha hw hq hrunning hy
    cases ha
    obtain rfl : _ = window := Option.some.inj hw
    cases hq
    exact ⟨rfl, rfl, _, rfl⟩

theorem careful_timedOut :
    Allowed (World.step config) (fun w x => w.Careful config x) start timedOut := by
  have hnone : ∀ w : World MemoryStorageAdapter, w.engine.outstandingRequests = .empty →
      ∀ y, w.engine.ledger.direct? y = none := by
    intro w hw y
    simp [Ledger.direct?, Engine.ledger, hw]
  refine ⟨World.careful_of_no_direct (by decide +kernel) (hnone _ rfl) ?_,
    World.careful_of_no_direct (by decide +kernel) (hnone _ rfl) ?_,
    World.careful_of_no_direct (by decide +kernel) (hnone _ rfl) ?_,
    World.careful_of_no_direct (by decide +kernel) (hnone _ rfl) ?_,
    careful_timer, careful_expiry, trivial⟩
  all_goals
    intro k hk
    cases hk

end Sample

/-- The timer of a direct request fires, and its expiry ends it. -/
theorem direct_requests_stay_booked_sample :
    (steps (World.step Sample.config) Sample.start Sample.timedOut).fired = [0] ∧
    (steps (World.step Sample.config) Sample.start Sample.timedOut).engine.ledger.ended
      "req_f_0_0_a" = 1 ∧
    (steps (World.step Sample.config) Sample.start Sample.timedOut).Booked :=
  ⟨by decide +kernel, by decide +kernel,
    direct_requests_stay_booked Sample.config MemoryStorageAdapter.empty true _
      (run_of_allowed Sample.careful_timedOut)⟩

/-- A direct request that `cancelCompetingGridRequests` takes out of the table keeps its timer
and never ends; and after a lifecycle error in its window, one whose timer has fired stays
open with nothing left in the chain. -/
theorem direct_request_is_lost :
    (∃ w, Run (World.step Sample.config) (fun v x => (v.step Sample.config x).engine.issued.Nodup)
        Sample.start w ∧
      w.engine.outstandingRequests.get? "req_f_0_0_a" = none ∧
      w.engine.directTimers.has "req_f_0_0_a" = true ∧
      w.engine.ledger.ended "req_f_0_0_a" = 0 ∧ ¬ w.Booked) ∧
    ∃ w, Run (World.step Sample.config) (fun v x => (v.step Sample.config x).engine.issued.Nodup)
        Sample.start w ∧
      w.fired = [0] ∧ w.engine.armed[0]? = some ("req_f_0_0_a", "k") ∧
      (∃ window, w.engine.window? "k" = some (0, window) ∧ window.queue = []) ∧
      w.engine.ledger.direct? "req_f_0_0_a" ≠ none ∧ ¬ w.Booked := by
  have hlost : (steps (World.step Sample.config) Sample.start
      Sample.outrun).engine.directTimers.has "req_f_0_0_a" = true := by decide +kernel
  have hopen : (steps (World.step Sample.config) Sample.start
      Sample.secondUnsaved).engine.ledger.direct? "req_f_0_0_a" ≠ none := by decide +kernel
  have houtrun : Allowed (World.step Sample.config)
      (fun v x => (v.step Sample.config x).engine.issued.Nodup) Sample.start Sample.outrun := by
    decide +kernel
  have hunsaved : Allowed (World.step Sample.config)
      (fun v x => (v.step Sample.config x).engine.issued.Nodup) Sample.start
      Sample.secondUnsaved := by
    decide +kernel
  refine ⟨⟨_, run_of_allowed houtrun, by decide +kernel, hlost, by decide +kernel, fun h => ?_⟩,
    _, run_of_allowed hunsaved, by decide +kernel, by decide +kernel, ⟨_, rfl, rfl⟩, hopen,
    fun h => ?_⟩
  · obtain ⟨r, hr, -⟩ := (h.timers _).1 hlost
    cases hr
  · refine hopen (h.drained 0 ?_ "req_f_0_0_a" "k" (by decide +kernel) fun ref window hw => ?_)
    · decide +kernel
    · cases hw
      rfl

end PonsWarp.Core
