import PonsWarp.Demo.DirectTransferController

set_option autoImplicit false

/-!
How the windows of a controller end. As long as a key is used again only when it is free, each
failure takes out the entry it was raised for, and each window is fulfilled by its own events.
-/

namespace PonsWarp.Demo

open PonsWarp.Core PonsWarp.Data

/-- The event that an error is about. -/
def WindowError.event? : WindowError → Option DeferredLifecycleEvent
  | .windowExhausted event => some (.exhausted event)
  | .lifecycle event => some (.error event)
  | _ => none

namespace Active

/-- An error that is about an event is about one of this window. -/
def Fits (c : Active) (error : WindowError) : Prop :=
  ∀ event, error.event? = some event → c.matchesActive event = true

/-- What is kept of the events, and what is still to be handled, was received since the call. -/
def Heard (received : List DirectTerminalEvent) (rest : List DeferredLifecycleEvent)
    (c : Active) : Prop :=
  (c.terminals ++ (c.deferred ++ rest).filterMap DeferredLifecycleEvent.terminal?).Sublist
    (received.drop c.since)

/-- The terminal events that a window may be fulfilled with. -/
def Fulfilling (received : List DirectTerminalEvent) (c : Active)
    (terminals : List DirectTerminalEvent) : Prop :=
  ∃ n, c.returned = some n ∧ max 1 n ≤ (finals terminals).length ∧
    (∀ event ∈ terminals, c.matchesActive (.terminal event) = true) ∧
    terminals.Sublist (received.drop c.since)

/-- The events of a call are its own. -/
structure Fair (received : List DirectTerminalEvent) (c : Active) : Prop where
  unread : c.generation = none → c.terminals = []
  known : c.generation ≠ none → c.deferred = []
  mine : ∀ event ∈ c.deferred, event.windowKey = c.windowKey
  own : ∀ event ∈ c.terminals, c.matchesActive (.terminal event) = true
  heard : c.Heard received []
  since : c.since ≤ received.length
  early : c.position = .requesting → c.generation = none ∧ c.returned = none
  flushed : c.position = .flushing → c.returned = some 0
  fulfilled : ∀ terminals, c.result = .fulfilled terminals → c.Fulfilling received terminals
  settled : ∀ terminals, c.position = .settled (.ok terminals) → c.result = .fulfilled terminals

/-- The window is open: what a call in `pending` is like. -/
structure Open (c : Active) : Prop where
  result : c.result = .pending
  timer : c.timer ≠ .cleared
  unsettled : ∀ outcome, c.position ≠ .settled outcome
  counted : c.scheduled = 0 ∨ ∃ n, c.returned = some n ∧ (c.scheduled = n ∨ n = 0)

/-- A call beside the table, the queue and the events received. -/
structure InOrder (pending : OrderedMap String Nat) (queue : List Cleanup)
    (received : List DirectTerminalEvent) (id : Nat) (c : Active) : Prop where
  opened : pending.get? c.windowKey = some id → c.Open
  alone : c.past = false → ∀ b, pending.get? c.windowKey = some b → b = id
  timer : c.timer ≠ .cleared → pending.get? c.windowKey = some id
  cleaning : ∀ job error, c.position = .cleaning job error → ∃ state stage,
    queue[job]? = some ⟨.failWindow c.windowKey error state id, stage⟩
  rejected : ∀ error, c.result = .rejected error → c.Fits error ∧ (error = .disposed ∨
    ∃ (job : Nat) (key : String) (raised : WindowError) (state : ControllerState)
      (cleanupError : Option WindowError),
      queue[job]? = some ⟨.failWindow key raised state id, .done (some id) cleanupError⟩)
  fair : c.Fair received

end Active

/-- A job beside the table and the calls. -/
structure Cleanup.InOrder (pending : OrderedMap String Nat) (calls : List Active)
    (windowKey : String) (error : WindowError) (raisedFor : Nat) (stage : JobStage) : Prop where
  call : ∃ c, calls[raisedFor]? = some c ∧ c.windowKey = windowKey ∧ c.Fits error
  alone : stage = .queued → ∀ b, pending.get? windowKey = some b → b = raisedFor
  gone : stage ≠ .queued → pending.get? windowKey ≠ some raisedFor
  victim : ∀ id, stage.victim? = some id → id = raisedFor
  engine : ∀ victim error, stage = .flushing victim (some error) → error.event? = none

namespace DirectTransferController

variable {s : DirectTransferController} {id : Nat} {c c' : Active}

structure InOrder (s : DirectTransferController) : Prop where
  table : ∀ (key : String) (id : Nat), s.pending.get? key = some id →
    ∃ c, s.calls[id]? = some c ∧ c.windowKey = key
  calls : ∀ (id : Nat) (c : Active), s.calls[id]? = some c →
    c.InOrder s.pending s.cleanupQueue s.received id
  jobs : ∀ (job : Nat) (key : String) (error : WindowError) (state : ControllerState)
    (raisedFor : Nat) (stage : JobStage),
    s.cleanupQueue[job]? = some ⟨.failWindow key error state raisedFor, stage⟩ →
      Cleanup.InOrder s.pending s.calls key error raisedFor stage

theorem get_set (h : s.calls[id]? = some c) (j : Nat) :
    (s.calls.set id c')[j]? = if j = id then some c' else s.calls[j]? := by
  obtain ⟨hlt, -⟩ := List.getElem?_eq_some_iff.1 h
  rw [List.getElem?_set]
  by_cases hj : id = j
  · rw [if_pos hj, if_pos hlt, if_pos hj.symm]
  · rw [if_neg hj, if_neg (Ne.symm hj)]

theorem active?_eq_some {key : String} :
    s.active? key = some (id, c) ↔ s.pending.get? key = some id ∧ s.calls[id]? = some c := by
  unfold active?
  constructor
  · intro h
    obtain ⟨id', hid, hcall⟩ := Option.bind_eq_some_iff.1 h
    obtain ⟨c', hc, heq⟩ := Option.map_eq_some_iff.1 hcall
    cases heq
    exact ⟨hid, hc⟩
  · rintro ⟨hid, hc⟩
    simp [hid, hc]

namespace InOrder

theorem setState (h : s.InOrder) (state : ControllerState) : (s.setState state).InOrder := by
  unfold DirectTransferController.setState
  split
  · exact h
  · exact ⟨h.table, h.calls, h.jobs⟩

/-- A call is changed, and what it has matched it still matches. -/
theorem setCall (h : s.InOrder) (hid : s.calls[id]? = some c)
    (hkey : c'.windowKey = c.windowKey)
    (hmatch : ∀ event, c.matchesActive event = true → c'.matchesActive event = true)
    (hc' : c'.InOrder s.pending s.cleanupQueue s.received id) : (s.setCall id c').InOrder := by
  refine ⟨fun key j hj => ?_, fun j cj hj => ?_, fun job key error state a stage hjob => ?_⟩
  · obtain ⟨cj, hcj, hcjkey⟩ := h.table key j hj
    by_cases hjid : j = id
    · rw [hjid, hid] at hcj
      cases hcj
      exact ⟨c', (get_set hid j).trans (if_pos hjid), hkey.trans hcjkey⟩
    · exact ⟨cj, ((get_set hid j).trans (if_neg hjid)).trans hcj, hcjkey⟩
  · have hget := (get_set hid j).symm.trans hj
    split at hget
    · rename_i hjid
      cases hget
      exact hjid ▸ hc'
    · exact h.calls j cj hget
  · obtain ⟨⟨ca, hca, hcakey, hfits⟩, halone, hgone, hvictim, hengine⟩ :=
      h.jobs job key error state a stage hjob
    refine ⟨?_, halone, hgone, hvictim, hengine⟩
    by_cases haid : a = id
    · rw [haid, hid] at hca
      cases hca
      exact ⟨c', (get_set hid a).trans (if_pos haid), hkey.trans hcakey,
        fun event hevent => hmatch event (hfits event hevent)⟩
    · exact ⟨ca, ((get_set hid a).trans (if_neg haid)).trans hca, hcakey, hfits⟩

theorem getElem?_concat_of_some {α : Type} {l : List α} {j : Nat} {a : α} (h : l[j]? = some a)
    (b : α) : (l ++ [b])[j]? = some a := by
  obtain ⟨hlt, -⟩ := List.getElem?_eq_some_iff.1 h
  rw [List.getElem?_append_left hlt, h]

theorem getElem?_concat_cases {α : Type} {l : List α} {j : Nat} {a b : α}
    (h : (l ++ [b])[j]? = some a) : l[j]? = some a ∨ (j = l.length ∧ a = b) := by
  rw [List.getElem?_append] at h
  split at h
  · exact .inl h
  · rw [List.getElem?_singleton] at h
    split at h
    · cases h
      exact .inr ⟨by omega, rfl⟩
    · cases h

theorem append_queue {pending : OrderedMap String Nat} {queue : List Cleanup}
    {received : List DirectTerminalEvent} (h : c.InOrder pending queue received id)
    (cleanup : Cleanup) : c.InOrder pending (queue ++ [cleanup]) received id := by
  refine ⟨h.opened, h.alone, h.timer, fun job error hposition => ?_, fun error hresult => ?_, h.fair⟩
  · obtain ⟨state, stage, hjob⟩ := h.cleaning job error hposition
    exact ⟨state, stage, getElem?_concat_of_some hjob cleanup⟩
  · obtain ⟨hfits, hdisposed | ⟨job, key, raised, state, cleanupError, hjob⟩⟩ :=
      h.rejected error hresult
    · exact ⟨hfits, .inl hdisposed⟩
    · exact ⟨hfits, .inr ⟨job, key, raised, state, cleanupError,
        getElem?_concat_of_some hjob cleanup⟩⟩

/-- A failure is raised for the window that has the key, or none. -/
theorem failWindow (h : s.InOrder) (hid : s.calls[id]? = some c) {error : WindowError}
    (hfits : c.Fits error) (halone : ∀ b, s.pending.get? c.windowKey = some b → b = id)
    (state : ControllerState) : (s.failWindow c.windowKey error state id).InOrder := by
  refine ⟨h.table, fun j cj hj => append_queue (h.calls j cj hj) _,
    fun job key error' state' a stage hjob => ?_⟩
  rcases getElem?_concat_cases hjob with hold | ⟨-, hnew⟩
  · exact h.jobs job key error' state' a stage hold
  · cases hnew
    exact ⟨⟨c, hid, rfl, hfits⟩, fun _ => halone, fun hstage => absurd rfl hstage,
      fun v hv => (by cases hv), fun v e hv => by cases hv⟩

theorem delete_other {pending : OrderedMap String Nat} {queue : List Cleanup}
    {received : List DirectTerminalEvent} (h : c.InOrder pending queue received id)
    {key : String} (hother : pending.get? key ≠ some id) :
    c.InOrder (pending.delete key) queue received id := by
  have hshrink : ∀ b, (pending.delete key).get? c.windowKey = some b →
      pending.get? c.windowKey = some b := by
    intro b hb
    rw [OrderedMap.get?_delete_eq_some] at hb
    exact hb.2
  refine ⟨fun hget => h.opened (hshrink id hget), fun hpast b hb => h.alone hpast b (hshrink b hb),
    fun htimer => ?_, h.cleaning, h.rejected, h.fair⟩
  have hget := h.timer htimer
  rw [OrderedMap.get?_delete_of_ne]
  · exact hget
  · intro heq
    exact hother (heq ▸ hget)

/-- The entry of a window is taken out. -/
theorem remove (h : s.InOrder) {key : String} (hactive : s.active? key = some (id, c))
    (hkey : c'.windowKey = c.windowKey)
    (hmatch : ∀ event, c.matchesActive event = true → c'.matchesActive event = true)
    (hc' : c'.InOrder (s.pending.delete key) s.cleanupQueue s.received id) :
    (({ s with pending := s.pending.delete key } : DirectTransferController).setCall id c').InOrder := by
  obtain ⟨hget, hid⟩ := active?_eq_some.1 hactive
  refine ⟨fun k j hj => ?_, fun j cj hj => ?_, fun job k error state a stage hjob => ?_⟩
  · have hold := (OrderedMap.get?_delete_eq_some.1 hj).2
    obtain ⟨cj, hcj, hcjkey⟩ := h.table k j hold
    by_cases hjid : j = id
    · rw [hjid, hid] at hcj
      cases hcj
      exact ⟨c', (get_set hid j).trans (if_pos hjid), hkey.trans hcjkey⟩
    · exact ⟨cj, ((get_set hid j).trans (if_neg hjid)).trans hcj, hcjkey⟩
  · have hcalls := (get_set hid j).symm.trans hj
    split at hcalls
    · rename_i hjid
      cases hcalls
      exact hjid ▸ hc'
    · rename_i hjid
      refine delete_other (h.calls j cj hcalls) ?_
      rw [hget]
      exact fun heq => hjid (Option.some.inj heq).symm
  · obtain ⟨⟨ca, hca, hcakey, hfits⟩, halone, hgone, hvictim, hengine⟩ :=
      h.jobs job k error state a stage hjob
    refine ⟨?_, fun hstage b hb => halone hstage b (OrderedMap.get?_delete_eq_some.1 hb).2,
      fun hstage hget => hgone hstage (OrderedMap.get?_delete_eq_some.1 hget).2, hvictim, hengine⟩
    by_cases haid : a = id
    · rw [haid, hid] at hca
      cases hca
      exact ⟨c', (get_set hid a).trans (if_pos haid), hkey.trans hcakey,
        fun event hevent => hmatch event (hfits event hevent)⟩
    · exact ⟨ca, ((get_set hid a).trans (if_neg haid)).trans hca, hcakey, hfits⟩

/-- The entry of a call is taken out, and its timer cleared. -/
theorem takenOut {pending : OrderedMap String Nat} {queue : List Cleanup}
    {received : List DirectTerminalEvent} (hc : c.InOrder pending queue received id)
    {result : WindowResult}
    (hrejected : ∀ error, result = .rejected error → c.Fits error ∧ (error = .disposed ∨
      ∃ (job : Nat) (key : String) (raised : WindowError) (state : ControllerState)
        (cleanupError : Option WindowError),
        queue[job]? = some ⟨.failWindow key raised state id, .done (some id) cleanupError⟩))
    (hfulfilled : ∀ terminals, result = .fulfilled terminals → c.Fulfilling received terminals)
    (hsettled : ∀ terminals, c.position = .settled (.ok terminals) →
      result = .fulfilled terminals) :
    ({ c with timer := .cleared, result := result } : Active).InOrder
      (pending.delete c.windowKey) queue received id := by
  have hgone : (pending.delete c.windowKey).get? c.windowKey = none :=
    OrderedMap.get?_delete_self _ _
  refine ⟨fun hget => ?_, fun _ b hb => ?_, fun htimer => absurd rfl htimer,
    hc.cleaning, hrejected, hc.fair.unread, hc.fair.known, hc.fair.mine, hc.fair.own, hc.fair.heard,
    hc.fair.since, hc.fair.early, hc.fair.flushed, hfulfilled, hsettled⟩
  · rw [hgone] at hget
    cases hget
  · rw [hgone] at hb
    cases hb

/-- A window with as many final events as it has requests is fulfilled. -/
theorem complete (h : s.InOrder) {key : String} (hactive : s.active? key = some (id, c)) :
    (s.completeWindowIfSettled key id).InOrder := by
  obtain ⟨hget, hid⟩ := active?_eq_some.1 hactive
  have hc := h.calls id c hid
  have hkey : c.windowKey = key := by
    obtain ⟨ck, hck, hkey⟩ := h.table key id hget
    rw [hid] at hck
    cases hck
    exact hkey
  subst hkey
  have hopen := hc.opened hget
  unfold completeWindowIfSettled
  rw [hid]
  simp only
  split
  · exact h
  · rename_i hcount
    simp only [Bool.or_eq_true, decide_eq_true_eq, not_or, not_lt] at hcount
    refine (h.remove hactive ?key ?same (takenOut hc ?_ ?_ ?_)).setState .running
    case key => rfl
    case same => exact fun _ hmatch => hmatch
    · intro error hresult
      rw [hopen.result] at hresult
      cases hresult
    · intro terminals hresult
      rw [hopen.result] at hresult
      cases hresult
      have hheard : c.terminals.Sublist (s.received.drop c.since) :=
        (List.sublist_append_left _ _).trans hc.fair.heard
      rcases hopen.counted with hzero | ⟨n, hn, hscheduled⟩
      · exact absurd hzero hcount.1
      · exact ⟨n, hn, by omega, hc.fair.own, hheard⟩
    · exact fun terminals hposition => absurd hposition (hopen.unsettled _)

/-- A window whose events are being handled: its entry is there, or it has been fulfilled. -/
structure Replaying (s : DirectTransferController) (id : Nat)
    (rest : List DeferredLifecycleEvent) (c : Active) : Prop where
  order : s.InOrder
  call : s.calls[id]? = some c
  heard : c.Heard s.received rest
  standing : s.pending.get? c.windowKey = some id ∨
    (s.pending.get? c.windowKey = none ∧ c.result ≠ .pending)

theorem key_of_active (h : s.InOrder) {key : String} (hactive : s.active? key = some (id, c)) :
    c.windowKey = key := by
  obtain ⟨hget, hid⟩ := active?_eq_some.1 hactive
  obtain ⟨ck, hck, hkey⟩ := h.table key id hget
  rw [hid] at hck
  cases hck
  exact hkey

theorem calls_setState (state : ControllerState) :
    (s.setState state).calls = s.calls ∧ (s.setState state).pending = s.pending ∧
      (s.setState state).received = s.received := by
  unfold DirectTransferController.setState
  split <;> exact ⟨rfl, rfl, rfl⟩

theorem complete_cases (hid : s.calls[id]? = some c) (key : String) :
    s.completeWindowIfSettled key id = s ∨
      ((s.completeWindowIfSettled key id).pending = s.pending.delete key ∧
        (s.completeWindowIfSettled key id).received = s.received ∧
        (s.completeWindowIfSettled key id).calls = s.calls.set id { c with
          timer := .cleared, result := c.result.settle (.fulfilled c.terminals) }) := by
  unfold completeWindowIfSettled
  rw [hid]
  simp only
  split
  · exact .inl rfl
  · right
    obtain ⟨hcalls, hpending, hreceived⟩ := calls_setState (s := ({ s with
      pending := s.pending.delete key } : DirectTransferController).setCall id { c with
        timer := .cleared, result := c.result.settle (.fulfilled c.terminals) }) .running
    exact ⟨hpending, hreceived, hcalls⟩

theorem settle_ne_pending (result : WindowResult) (terminals : List DirectTerminalEvent) :
    result.settle (.fulfilled terminals) ≠ .pending := by
  cases result <;> exact fun h => by cases h

/-- What has been fulfilled and taken out stays as it is. -/
theorem complete_again (h : s.InOrder) (hid : s.calls[id]? = some c)
    (hnone : s.pending.get? c.windowKey = none) (hresult : c.result ≠ .pending) :
    (s.completeWindowIfSettled c.windowKey id).InOrder := by
  have hcleared : c.timer = .cleared := by
    by_contra htimer
    have hget := (h.calls id c hid).timer htimer
    rw [hnone] at hget
    cases hget
  have hsettled : c.result.settle (.fulfilled c.terminals) = c.result := by
    cases hc : c.result with
    | pending => exact absurd hc hresult
    | fulfilled terminals => rfl
    | rejected error => rfl
  have hsame : ({ c with
      timer := .cleared, result := c.result.settle (.fulfilled c.terminals) } : Active) = c := by
    rw [hsettled, ← hcleared]
  obtain ⟨hlt, hget⟩ := List.getElem?_eq_some_iff.1 hid
  unfold completeWindowIfSettled
  rw [hid]
  simp only
  split
  · exact h
  · refine setState ?_ .running
    rw [hsame, OrderedMap.delete_of_get? hnone]
    have hcalls : s.calls.set id c = s.calls := by
      rw [← hget, List.set_getElem_self]
    unfold DirectTransferController.setCall
    rw [hcalls]
    exact ⟨h.table, h.calls, h.jobs⟩

theorem Replaying.complete {rest : List DeferredLifecycleEvent} (h : Replaying s id rest c) :
    ∃ c', Replaying (s.completeWindowIfSettled c.windowKey id) id rest c' ∧
      c'.windowKey = c.windowKey := by
  have hcases := complete_cases h.call c.windowKey
  have horder : (s.completeWindowIfSettled c.windowKey id).InOrder := by
    rcases h.standing with hget | ⟨hnone, hresult⟩
    · exact h.order.complete (active?_eq_some.2 ⟨hget, h.call⟩)
    · exact h.order.complete_again h.call hnone hresult
  rcases hcases with hsame | ⟨hpending, hreceived, hcalls⟩
  · refine ⟨c, ?_, rfl⟩
    rw [hsame]
    exact h
  · refine ⟨{ c with timer := .cleared, result := c.result.settle (.fulfilled c.terminals) },
      ⟨horder, ?_, ?_, .inr ⟨?_, settle_ne_pending _ _⟩⟩, rfl⟩
    · rw [hcalls, get_set h.call, if_pos rfl]
    · rw [hreceived]
      exact h.heard
    · rw [hpending]
      exact OrderedMap.get?_delete_self _ _

theorem heard_drop {received : List DirectTerminalEvent} {event : DeferredLifecycleEvent}
    {rest : List DeferredLifecycleEvent} (h : c.Heard received (event :: rest)) :
    c.Heard received rest := by
  refine List.Sublist.trans ?_ h
  refine List.Sublist.append_left ?_ _
  exact (List.Sublist.append_left (List.sublist_cons_self event rest) _).filterMap _

theorem heard_nil {received : List DirectTerminalEvent} {rest : List DeferredLifecycleEvent}
    (h : c.Heard received rest) : c.Heard received [] := by
  refine List.Sublist.trans ?_ h
  refine List.Sublist.append_left ?_ _
  exact (List.Sublist.append_left (List.nil_sublist rest) _).filterMap _

/-- An event with the key of an open window is put off, or passed over, or acted on. -/
theorem Replaying.handleWith {event : DeferredLifecycleEvent}
    {rest : List DeferredLifecycleEvent} (accepts : DeferredLifecycleEvent → Bool)
    (h : Replaying s id (event :: rest) c) (hkey : event.windowKey = c.windowKey)
    (react : Nat → Active → DirectTransferController → DirectTransferController)
    (hreact : c.matchesActive event = true → s.pending.get? c.windowKey = some id →
      ∃ c', Replaying (react id c s) id rest c' ∧ c'.windowKey = c.windowKey) :
    ∃ c', Replaying (handleWith accepts event react s).1 id rest c' ∧
      c'.windowKey = c.windowKey := by
  have hpassed : Replaying s id rest c := ⟨h.order, h.call, heard_drop h.heard, h.standing⟩
  rcases h.standing with hget | ⟨hnone, hresult⟩
  · have hactive : s.active? event.windowKey = some (id, c) :=
      active?_eq_some.2 ⟨hkey ▸ hget, h.call⟩
    have hc := h.order.calls id c h.call
    unfold DirectTransferController.handleWith
    rw [hactive]
    simp only
    split
    · rename_i hearly
      simp only [Bool.and_eq_true, decide_eq_true_eq] at hearly
      have hheard : ({ c with deferred := c.deferred ++ [event] } : Active).Heard s.received rest := by
        unfold Active.Heard
        rw [List.append_assoc]
        exact h.heard
      refine ⟨_, ⟨h.order.setCall h.call ?key ?same ?call, ?get, hheard, .inl hget⟩, rfl⟩
      case key => rfl
      case same => exact fun _ hmatch => hmatch
      case get => rw [DirectTransferController.setCall, get_set h.call, if_pos rfl]
      case call =>
        have hopen := hc.opened hget
        refine ⟨fun _ => ⟨hopen.result, hopen.timer, hopen.unsettled, hopen.counted⟩, hc.alone,
          hc.timer, hc.cleaning, hc.rejected, hc.fair.unread, fun hknown => ?_,
          fun e he => ?_, hc.fair.own, heard_nil hheard, hc.fair.since, hc.fair.early, hc.fair.flushed,
          hc.fair.fulfilled, hc.fair.settled⟩
        · exact absurd hearly.2 hknown
        · rcases List.mem_append.1 he with he | he
          · exact hc.fair.mine e he
          · rw [List.mem_singleton.1 he]
            exact hkey
    · split
      · exact ⟨c, hpassed, rfl⟩
      · rename_i hmatch
        simp only [Bool.not_eq_true, Bool.not_eq_false'] at hmatch
        exact hreact hmatch hget
  · have hactive : s.active? event.windowKey = none := by
      rw [hkey]
      simp [active?, hnone]
    unfold DirectTransferController.handleWith
    rw [hactive]
    exact ⟨c, hpassed, rfl⟩

theorem generation_of_matches {event : DeferredLifecycleEvent}
    (h : c.matchesActive event = true) : c.generation = some event.generation := by
  simp only [Active.matchesActive, Bool.and_eq_true, decide_eq_true_eq] at h
  exact h.2

theorem Replaying.terminal {event : DirectTerminalEvent} {rest : List DeferredLifecycleEvent}
    (accepts : DeferredLifecycleEvent → Bool) (h : Replaying s id (.terminal event :: rest) c)
    (hkey : event.windowKey = c.windowKey) :
    ∃ c', Replaying (s.handleTerminal accepts event).1 id rest c' ∧
      c'.windowKey = c.windowKey := by
  refine h.handleWith accepts hkey _ fun hmatch hget => ?_
  have hc := h.order.calls id c h.call
  have hopen := hc.opened hget
  have hgeneration := generation_of_matches hmatch
  have hknown : c.deferred = [] := hc.fair.known (by simp [hgeneration])
  have hheard : ({ c with terminals := c.terminals ++ [event] } : Active).Heard s.received rest := by
    have hold := h.heard
    unfold Active.Heard at hold ⊢
    simp only [hknown, List.nil_append] at hold ⊢
    rw [List.append_assoc]
    exact hold
  have hpushed : Replaying (s.setCall id { c with terminals := c.terminals ++ [event] }) id rest
      { c with terminals := c.terminals ++ [event] } := by
    refine ⟨h.order.setCall h.call ?key ?same ?call, ?get, hheard, .inl hget⟩
    case key => rfl
    case same => exact fun _ hmatch => hmatch
    case get => rw [DirectTransferController.setCall, get_set h.call, if_pos rfl]
    case call =>
      refine ⟨fun _ => ⟨hopen.result, hopen.timer, hopen.unsettled, hopen.counted⟩, hc.alone,
        hc.timer, hc.cleaning, hc.rejected, fun hnone => ?_, hc.fair.known, hc.fair.mine,
        fun e he => ?_, heard_nil hheard, hc.fair.since, hc.fair.early, hc.fair.flushed,
        hc.fair.fulfilled, hc.fair.settled⟩
      · rw [hgeneration] at hnone
        cases hnone
      · rcases List.mem_append.1 he with he | he
        · exact hc.fair.own e he
        · rw [List.mem_singleton.1 he]
          exact hmatch
  simp only
  split
  · exact ⟨_, hpushed, rfl⟩
  · rw [hkey]
    exact hpushed.complete

theorem Replaying.failure {event : DeferredLifecycleEvent} {rest : List DeferredLifecycleEvent}
    (accepts : DeferredLifecycleEvent → Bool) (h : Replaying s id (event :: rest) c)
    (hkey : event.windowKey = c.windowKey) {error : WindowError}
    (herror : error.event? = some event) :
    ∃ c', Replaying (handleFailure accepts event error s).1 id rest c' ∧
      c'.windowKey = c.windowKey := by
  refine h.handleWith accepts hkey _ fun hmatch hget => ⟨c, ?_, rfl⟩
  have hheard := heard_drop h.heard
  split
  · exact ⟨h.order, h.call, hheard, h.standing⟩
  · rw [hkey]
    refine ⟨h.order.failWindow h.call (fun e he => ?_) (fun b hb => ?_) _, h.call, hheard,
      h.standing⟩
    · rw [herror] at he
      exact Option.some.inj he ▸ hmatch
    · rw [hget] at hb
      exact (Option.some.inj hb).symm

theorem Replaying.handle {event : DeferredLifecycleEvent} {rest : List DeferredLifecycleEvent}
    (accepts : DeferredLifecycleEvent → Bool) (h : Replaying s id (event :: rest) c)
    (hkey : event.windowKey = c.windowKey) :
    ∃ c', Replaying (s.handle accepts event).1 id rest c' ∧ c'.windowKey = c.windowKey := by
  cases event with
  | terminal event => exact h.terminal accepts hkey
  | exhausted event => exact h.failure accepts hkey rfl
  | error event => exact h.failure accepts hkey rfl

/-- The deferred events are handled one after the other. -/
theorem Replaying.replay {rest : List DeferredLifecycleEvent}
    (accepts : DeferredLifecycleEvent → Bool) (h : Replaying s id rest c)
    (hkeys : ∀ event ∈ rest, event.windowKey = c.windowKey) :
    ∃ rest' c', Replaying (DirectTransferController.replay accepts rest s).1 id rest' c' ∧
      c'.windowKey = c.windowKey := by
  induction rest generalizing s c with
  | nil => exact ⟨[], c, h, rfl⟩
  | cons event rest ih =>
    obtain ⟨c₁, h₁, hkey₁⟩ := h.handle accepts (hkeys event List.mem_cons_self)
    rw [DirectTransferController.replay]
    split
    · rename_i s₁ heq
      rw [heq] at h₁
      exact ⟨rest, c₁, h₁, hkey₁⟩
    · rename_i s₁ heq
      rw [heq] at h₁
      obtain ⟨rest', c', h', hkey'⟩ := ih h₁ fun e he =>
        (hkeys e (List.mem_cons_of_mem _ he)).trans hkey₁.symm
      exact ⟨rest', c', h', hkey'.trans hkey₁⟩

theorem receive (h : s.InOrder) (events : List DirectTerminalEvent) :
    ({ s with received := s.received ++ events } : DirectTransferController).InOrder := by
  refine ⟨h.table, fun j c hj => ?_, h.jobs⟩
  have hc := h.calls j c hj
  have hgrow : (s.received.drop c.since).Sublist ((s.received ++ events).drop c.since) := by
    rw [List.drop_append_of_le_length hc.fair.since]
    exact List.sublist_append_left _ _
  refine ⟨hc.opened, hc.alone, hc.timer, hc.cleaning, hc.rejected, hc.fair.unread, hc.fair.known,
    hc.fair.mine, hc.fair.own, hc.fair.heard.trans hgrow, ?_, hc.fair.early, hc.fair.flushed,
    fun terminals hresult => ?_, hc.fair.settled⟩
  · have hsince := hc.fair.since
    simp only [List.length_append]
    omega
  · obtain ⟨n, hn, hcount, hown, hheard⟩ := hc.fair.fulfilled terminals hresult
    exact ⟨n, hn, hcount, hown, hheard.trans hgrow⟩

theorem event (accepts : DeferredLifecycleEvent → Bool) (h : s.InOrder)
    (event : DeferredLifecycleEvent) : (s.step accepts (.event event)).InOrder := by
  have hreceived := h.receive event.terminal?.toList
  cases hactive : ({ s with received := s.received ++ event.terminal?.toList } :
      DirectTransferController).active? event.windowKey with
  | none =>
    have hsame : (handle accepts { s with received := s.received ++ event.terminal?.toList }
        event).1 = { s with received := s.received ++ event.terminal?.toList } := by
      cases event with
      | terminal event =>
        simp only [handle, handleTerminal, DirectTransferController.handleWith]
        rw [hactive]
      | exhausted event =>
        simp only [handle, handleExhausted, handleFailure, DirectTransferController.handleWith]
        rw [hactive]
      | error event =>
        simp only [handle, handleError, handleFailure, DirectTransferController.handleWith]
        rw [hactive]
    simp only [step, hsame]
    exact hreceived
  | some active =>
    obtain ⟨id, c⟩ := active
    obtain ⟨hget, hid⟩ := active?_eq_some.1 hactive
    have hkey := hreceived.key_of_active hactive
    have hc := h.calls id c hid
    have hreplaying : Replaying { s with received := s.received ++ event.terminal?.toList } id
        [event] c := by
      refine ⟨hreceived, hid, ?_, .inl (hkey ▸ hget)⟩
      have hheard := hc.fair.heard
      unfold Active.Heard at hheard ⊢
      rw [List.append_nil] at hheard
      rw [List.drop_append_of_le_length hc.fair.since, List.filterMap_append, ← List.append_assoc]
      refine hheard.append ?_
      cases event with
      | terminal event => exact List.Sublist.refl _
      | exhausted event => exact List.nil_sublist _
      | error event => exact List.nil_sublist _
    obtain ⟨c', h', -⟩ := hreplaying.handle accepts hkey.symm
    exact h'.order

/-- A call comes to another of its awaits. -/
theorem reposition {pending : OrderedMap String Nat} {queue : List Cleanup}
    {received : List DirectTerminalEvent} (hc : c.InOrder pending queue received id)
    {position : Position} (hopen : pending.get? c.windowKey = some id →
      ∀ outcome, position ≠ .settled outcome)
    (hpast : ({ c with position := position } : Active).past = false → c.past = false)
    (hcleaning : ∀ job error, position = .cleaning job error → ∃ state stage,
      queue[job]? = some ⟨.failWindow c.windowKey error state id, stage⟩)
    (hearly : position ≠ .requesting) (hflushed : position = .flushing → c.returned = some 0)
    (hsettled : ∀ terminals, position = .settled (.ok terminals) →
      c.result = .fulfilled terminals) :
    ({ c with position := position } : Active).InOrder pending queue received id := by
  refine ⟨fun hget => ?_, fun hnow => hc.alone (hpast hnow), hc.timer, hcleaning, hc.rejected,
    hc.fair.unread, hc.fair.known, hc.fair.mine, hc.fair.own, hc.fair.heard, hc.fair.since,
    fun hposition => absurd hposition hearly, hflushed, hc.fair.fulfilled, hsettled⟩
  have hopened := hc.opened hget
  exact ⟨hopened.result, hopened.timer, hopen hget, hopened.counted⟩

/-- A call comes to await a job of its `try`, or its result. -/
theorem goesOn {pending : OrderedMap String Nat} {queue : List Cleanup}
    {received : List DirectTerminalEvent} (hc : c.InOrder pending queue received id)
    {position : Position} (hposition : position = .waiting ∨ ∃ job, position = .emptying job)
    (hpast : ({ c with position := position } : Active).past = false → c.past = false) :
    ({ c with position := position } : Active).InOrder pending queue received id := by
  rcases hposition with rfl | ⟨job, rfl⟩
  · refine reposition hc ?_ hpast ?_ ?_ ?_ ?_ <;> simp
  · refine reposition hc ?_ hpast ?_ ?_ ?_ ?_ <;> simp

/-- A call comes to another await with all else as it is. -/
theorem moved (h : s.InOrder) (hid : s.calls[id]? = some c) {position : Position}
    (hc' : ({ c with position := position } : Active).InOrder s.pending s.cleanupQueue
      s.received id) : (s.setCall id { c with position := position }).InOrder := by
  refine h.setCall hid ?key ?same hc'
  case key => rfl
  case same => exact fun _ hmatch => hmatch

/-- The `catch` of a call whose key has no other window. -/
theorem caught (h : s.InOrder) (hid : s.calls[id]? = some c) {error : WindowError}
    (hfits : c.Fits error) (halone : ∀ b, s.pending.get? c.windowKey = some b → b = id) :
    (s.caught id error).InOrder := by
  have hfailed := h.failWindow hid hfits halone (.ended .failed)
  unfold DirectTransferController.caught
  rw [hid]
  refine hfailed.moved hid (reposition (hfailed.calls id c hid) ?_ ?_ ?_ ?_ ?_ ?_)
  · exact fun _ outcome hposition => by cases hposition
  · exact fun hpast => by cases hpast
  · intro job e hposition
    cases hposition
    exact ⟨.ended .failed, .queued, List.getElem?_concat_length⟩
  · exact fun hposition => by cases hposition
  · exact fun hposition => by cases hposition
  · exact fun terminals hposition => by cases hposition

theorem fits_of_event?_eq_none (error : WindowError) (h : error.event? = none) :
    c.Fits error := by
  intro event hevent
  rw [h] at hevent
  cases hevent

theorem past_requesting (h : c.position = .requesting) : c.past = false := by
  simp [Active.past, h]

theorem past_flushing (h : c.position = .flushing) : c.past = false := by
  simp [Active.past, h]

theorem Replaying.alone {rest : List DeferredLifecycleEvent} (h : Replaying s id rest c) (b : Nat)
    (hb : s.pending.get? c.windowKey = some b) : b = id := by
  rcases h.standing with hget | ⟨hnone, -⟩
  · rw [hget] at hb
    exact (Option.some.inj hb).symm
  · rw [hnone] at hb
    cases hb

/-- A window learns its generation, and how many pieces it has to wait for. -/
theorem filled (h : s.InOrder) (hid : s.calls[id]? = some c) (hget : s.pending.get? c.windowKey = some id)
    (hnone : c.generation = none) (hposition : c.position ≠ .requesting) {scheduled : Nat}
    (hreturned : c.returned = some scheduled) (generation : Option Nat) :
    Replaying (s.setCall id { c with
        scheduled := scheduled, generation := generation, deferred := [] }) id c.deferred
      { c with scheduled := scheduled, generation := generation, deferred := [] } := by
  have hc := h.calls id c hid
  have hopen := hc.opened hget
  have hterminals := hc.fair.unread hnone
  have hheard : ({ c with scheduled := scheduled, generation := generation, deferred := [] } :
      Active).Heard s.received c.deferred := by
    have hold := hc.fair.heard
    unfold Active.Heard at hold ⊢
    simpa using hold
  refine ⟨h.setCall hid ?key ?same ?call, ?get, hheard, .inl hget⟩
  case key => rfl
  case same =>
    intro event hmatch
    have hgeneration := generation_of_matches hmatch
    rw [hnone] at hgeneration
    cases hgeneration
  case get => rw [DirectTransferController.setCall, get_set hid, if_pos rfl]
  case call =>
    refine ⟨fun _ => ⟨hopen.result, hopen.timer, hopen.unsettled,
        .inr ⟨scheduled, hreturned, .inl rfl⟩⟩, hc.alone, hc.timer, hc.cleaning, fun error hresult => ?_,
      fun _ => hterminals, fun _ => rfl, fun e he => absurd he List.not_mem_nil, fun e he => ?_,
      heard_nil hheard, hc.fair.since, fun hearly => absurd hearly hposition, hc.fair.flushed,
      fun terminals hresult => ?_, hc.fair.settled⟩
    · rw [hopen.result] at hresult
      cases hresult
    · rw [hterminals] at he
      exact absurd he List.not_mem_nil
    · rw [hopen.result] at hresult
      cases hresult

/-- What `requestPieceWindow` has returned is noted. -/
theorem returned (h : s.InOrder) (hid : s.calls[id]? = some c)
    (hposition : c.position = .requesting) {scheduled : Nat} {position : Position}
    (hreached : position = .waiting ∨ (position = .flushing ∧ scheduled = 0)) :
    (s.setCall id { c with returned := some scheduled, position := position }).InOrder := by
  have hc := h.calls id c hid
  obtain ⟨hnone, hreturned⟩ := hc.fair.early hposition
  have hpast := past_requesting hposition
  refine h.setCall hid ?key ?same ?call
  case key => rfl
  case same => exact fun _ hmatch => hmatch
  case call =>
    refine ⟨fun hget => ?_, fun _ => hc.alone hpast, hc.timer, fun job error hcleaning => ?_,
      hc.rejected, hc.fair.unread, hc.fair.known, hc.fair.mine, hc.fair.own, hc.fair.heard,
      hc.fair.since, fun hearly => ?_, fun hflushed => ?_, fun terminals hresult => ?_,
      fun terminals hsettled => ?_⟩
    · have hopen := hc.opened hget
      refine ⟨hopen.result, hopen.timer, fun outcome hsettled => ?_, ?_⟩
      · rcases hreached with rfl | ⟨rfl, -⟩ <;> cases hsettled
      · rcases hopen.counted with hzero | ⟨n, hn, -⟩
        · exact .inl hzero
        · rw [hreturned] at hn
          cases hn
    · rcases hreached with rfl | ⟨rfl, -⟩ <;> cases hcleaning
    · rcases hreached with rfl | ⟨rfl, -⟩ <;> cases hearly
    · rcases hreached with rfl | ⟨rfl, rfl⟩
      · cases hflushed
      · rfl
    · obtain ⟨n, hn, -⟩ := hc.fair.fulfilled terminals hresult
      rw [hreturned] at hn
      cases hn
    · rcases hreached with rfl | ⟨rfl, -⟩ <;> cases hsettled

/-- The block of `requested` for the open window, where that is the window of the call. -/
theorem fill (accepts : DeferredLifecycleEvent → Bool) (h : s.InOrder)
    (hid : s.calls[id]? = some c) (halone : ∀ b, s.pending.get? c.windowKey = some b → b = id)
    (hnone : c.generation = none) (hposition : c.position ≠ .requesting) {scheduled : Nat}
    (hreturned : c.returned = some scheduled) (generation : Option Nat) :
    (s.fill accepts c.windowKey scheduled generation).1.InOrder ∧
      ∃ c', (s.fill accepts c.windowKey scheduled generation).1.calls[id]? = some c' ∧
        ∀ b, (s.fill accepts c.windowKey scheduled generation).1.pending.get? c'.windowKey =
          some b → b = id := by
  unfold DirectTransferController.fill
  cases hactive : s.active? c.windowKey with
  | none => exact ⟨h, c, hid, halone⟩
  | some pair =>
    obtain ⟨current, active⟩ := pair
    obtain ⟨hget, hcurrent⟩ := active?_eq_some.1 hactive
    obtain rfl : current = id := halone current hget
    rw [hid] at hcurrent
    cases hcurrent
    have hfilled := h.filled hid hget hnone hposition hreturned generation
    obtain ⟨rest', c', hreplayed, hkey⟩ := hfilled.replay accepts (h.calls _ c hid).fair.mine
    simp only
    split
    · rename_i t heq
      rw [heq] at hreplayed
      exact ⟨hreplayed.order, c', hreplayed.call, hreplayed.alone⟩
    · rename_i t heq
      rw [heq] at hreplayed
      obtain ⟨c'', hcompleted, -⟩ := hreplayed.complete
      have hkey' : c'.windowKey = c.windowKey := hkey
      rw [hkey'] at hcompleted
      exact ⟨hcompleted.order, c'', hcompleted.call, hcompleted.alone⟩

theorem requested (accepts : DeferredLifecycleEvent → Bool) (h : s.InOrder) (id scheduled : Nat)
    (generation : Option Nat) (outstanding : Nat) :
    (s.requested accepts id scheduled generation outstanding).InOrder := by
  unfold DirectTransferController.requested
  split
  · exact h
  · rename_i c hid
    split
    · exact h
    · rename_i hposition
      simp only [ne_eq, Decidable.not_not] at hposition
      have hc := h.calls id c hid
      generalize hnext : (if scheduled = 0 ∧ outstanding = 0 then Position.flushing
        else Position.waiting) = position
      have hreached : position = .waiting ∨ (position = .flushing ∧ scheduled = 0) := by
        rw [← hnext]
        split
        · rename_i hzero
          exact .inr ⟨rfl, hzero.1⟩
        · exact .inl rfl
      have hwaits : position ≠ .requesting := by
        rcases hreached with rfl | ⟨rfl, -⟩ <;> exact fun heq => by cases heq
      have hcall : (s.setCall id { c with returned := some scheduled, position := position }).calls[
          id]? = some { c with returned := some scheduled, position := position } := by
        rw [DirectTransferController.setCall, get_set hid, if_pos rfl]
      obtain ⟨hfilled, c', hid', halone⟩ := (h.returned hid hposition hreached).fill accepts hcall
        (hc.alone (past_requesting hposition)) (hc.fair.early hposition).1 hwaits rfl generation
      simp only at hfilled hid' halone ⊢
      split
      · rename_i t heq
        rw [heq] at hfilled hid' halone
        exact hfilled.caught hid' (fits_of_event?_eq_none _ rfl) halone
      · rename_i t heq
        rw [heq] at hfilled hid' halone
        split
        · exact hfilled.caught hid' (fits_of_event?_eq_none _ rfl) halone
        · exact hfilled

theorem flushed (h : s.InOrder) (id outstanding : Nat) :
    (s.flushed id outstanding).InOrder := by
  unfold DirectTransferController.flushed
  split
  · exact h
  · rename_i c hid
    split
    · exact h
    · rename_i hposition
      simp only [ne_eq, Decidable.not_not] at hposition
      have hc := h.calls id c hid
      have hpast := past_flushing hposition
      have hreturned := hc.fair.flushed hposition
      split
      · have hfailed := h.failWindow hid (fits_of_event?_eq_none .exhausted rfl)
          (hc.alone hpast) (.ended .failed)
        exact hfailed.moved hid (goesOn (hfailed.calls id c hid) (.inr ⟨_, rfl⟩) fun _ => hpast)
      · have hmoved : (s.setCall id { c with position := .waiting }).InOrder :=
          h.moved hid (goesOn hc (.inl rfl) fun _ => hpast)
        have hcall : (s.setCall id { c with position := .waiting }).calls[id]? =
            some { c with position := .waiting } := by
          rw [DirectTransferController.setCall, get_set hid, if_pos rfl]
        simp only
        split
        · exact hmoved
        · rename_i current active hactive
          obtain ⟨hget, hcurrent⟩ := active?_eq_some.1 hactive
          obtain rfl : current = id := hc.alone hpast current hget
          rw [hcall] at hcurrent
          cases hcurrent
          have hc' := hmoved.calls _ _ hcall
          refine hmoved.setCall hcall ?key ?same ?call
          case key => rfl
          case same => exact fun _ hmatch => hmatch
          case call =>
            refine ⟨fun hget' => ?_, hc'.alone, hc'.timer, hc'.cleaning, hc'.rejected,
              hc'.fair.unread, hc'.fair.known, hc'.fair.mine, hc'.fair.own, hc'.fair.heard,
              hc'.fair.since, hc'.fair.early, hc'.fair.flushed, hc'.fair.fulfilled,
              hc'.fair.settled⟩
            have hopen := hc'.opened hget'
            exact ⟨hopen.result, hopen.timer, hopen.unsettled, .inr ⟨0, hreturned, .inr rfl⟩⟩

theorem engineFailed (h : s.InOrder) (id : Nat) (message : String) :
    (s.engineFailed id message).InOrder := by
  unfold DirectTransferController.engineFailed
  split
  · exact h
  · rename_i c hid
    split
    · rename_i hposition
      refine h.caught hid (fits_of_event?_eq_none _ rfl) ((h.calls id c hid).alone ?_)
      rcases hposition with hposition | hposition
      · exact past_requesting hposition
      · exact past_flushing hposition
    · exact h

theorem cleanupDone_spec {job : Nat} {cleanupError : Option WindowError}
    (h : s.cleanupDone job = some cleanupError) :
    ∃ task victim, s.cleanupQueue[job]? = some ⟨task, .done victim cleanupError⟩ := by
  unfold cleanupDone at h
  split at h
  · rename_i task victim error hjob
    cases h
    exact ⟨task, victim, hjob⟩
  · cases h

/-- The end of a call whose `catch` is done. -/
theorem ended (h : s.InOrder) (hid : s.calls[id]? = some c) {job : Nat} {error error' : WindowError}
    (hposition : c.position = .cleaning job error) {cleanupError : Option WindowError}
    (hdone : s.cleanupDone job = some cleanupError) :
    (s.setCall id { c with position := .settled (.error error') }).InOrder := by
  have hc := h.calls id c hid
  refine h.moved hid (reposition hc ?_ ?_ ?_ ?_ ?_ ?_)
  · intro hget
    obtain ⟨state, stage, hjob⟩ := hc.cleaning job error hposition
    obtain ⟨task, victim, hjob'⟩ := cleanupDone_spec hdone
    rw [hjob] at hjob'
    cases hjob'
    exact absurd hget ((h.jobs job _ _ _ _ _ hjob).gone fun heq => by cases heq)
  · exact fun hpast => by cases hpast
  · exact fun job error heq => by cases heq
  · exact fun heq => by cases heq
  · exact fun heq => by cases heq
  · exact fun terminals heq => by cases heq

theorem resume (h : s.InOrder) (id : Nat) : (s.resume id).InOrder := by
  unfold DirectTransferController.resume
  split
  · exact h
  · rename_i c hid
    have hc := h.calls id c hid
    cases hposition : c.position with
    | requesting => exact h
    | flushing => exact h
    | settled outcome => exact h
    | emptying job =>
      simp only
      split
      · refine h.moved hid (goesOn hc (.inl rfl) fun hpast => ?_)
        rw [← hpast]
        simp only [Active.past, hposition]
        cases c.result <;> rfl
      · exact h
    | waiting =>
      simp only
      split
      · exact h
      · rename_i terminals hresult
        refine h.moved hid (reposition hc ?_ ?_ ?_ ?_ ?_ ?_)
        · intro hget
          have hpending := (hc.opened hget).result
          rw [hresult] at hpending
          cases hpending
        · exact fun hpast => by cases hpast
        · exact fun job error heq => by cases heq
        · exact fun heq => by cases heq
        · exact fun heq => by cases heq
        · intro terminals' heq
          cases heq
          exact hresult
      · rename_i error hresult
        refine h.caught hid (hc.rejected error hresult).1 (hc.alone ?_)
        simp [Active.past, hposition, hresult]
    | cleaning job error =>
      simp only
      split
      · rename_i hdone
        exact h.ended hid hposition hdone
      · rename_i cleanup hdone
        exact h.ended hid hposition hdone
      · exact h

theorem timeout (h : s.InOrder) (id : Nat) : (s.timeout id).InOrder := by
  unfold DirectTransferController.timeout
  split
  · exact h
  · rename_i c hid
    split
    · rename_i hrunning
      have hc := h.calls id c hid
      have hget := hc.timer (by rw [hrunning]; exact fun heq => by cases heq)
      have hfailed := h.failWindow hid (fits_of_event?_eq_none .timeout rfl)
        (fun b hb => by rw [hget] at hb; exact (Option.some.inj hb).symm) (.ended .failed)
      have hc' := hfailed.calls id c hid
      refine hfailed.setCall hid ?key ?same ?call
      case key => rfl
      case same => exact fun _ hmatch => hmatch
      case call =>
        refine ⟨fun hget' => ?_, hc'.alone, fun _ => hget, hc'.cleaning, hc'.rejected,
          hc'.fair.unread, hc'.fair.known, hc'.fair.mine, hc'.fair.own, hc'.fair.heard,
          hc'.fair.since, hc'.fair.early, hc'.fair.flushed, hc'.fair.fulfilled, hc'.fair.settled⟩
        have hopen := hc'.opened hget'
        exact ⟨hopen.result, fun heq => (by cases heq), hopen.unsettled, hopen.counted⟩
    · exact h

theorem failEntry (h : s.InOrder) (select : Active → Bool) {error : WindowError}
    (herror : error.event? = none) (state : ControllerState) {entry : String × Nat}
    (hentry : s.pending.get? entry.1 = some entry.2) :
    (s.failEntry select error state entry).InOrder ∧
      (s.failEntry select error state entry).pending = s.pending := by
  obtain ⟨c, hid, hkey⟩ := h.table entry.1 entry.2 hentry
  unfold DirectTransferController.failEntry
  rw [hid]
  simp only
  split
  · refine ⟨?_, rfl⟩
    rw [← hkey] at hentry ⊢
    exact h.failWindow hid (fits_of_event?_eq_none _ herror)
      (fun b hb => by rw [hentry] at hb; exact (Option.some.inj hb).symm) state
  · exact ⟨h, rfl⟩

/-- Failures are raised for windows that `pending` has. -/
theorem failEntries (h : s.InOrder) (select : Active → Bool) {error : WindowError}
    (herror : error.event? = none) (state : ControllerState) (entries : List (String × Nat))
    (hentries : ∀ entry ∈ entries, s.pending.get? entry.1 = some entry.2) :
    (entries.foldl (DirectTransferController.failEntry select error state) s).InOrder := by
  induction entries generalizing s with
  | nil => exact h
  | cons entry rest ih =>
    obtain ⟨hfailed, hpending⟩ :=
      h.failEntry select herror state (hentries entry List.mem_cons_self)
    refine ih hfailed fun e he => ?_
    rw [hpending]
    exact hentries e (List.mem_cons_of_mem _ he)

theorem failWindows (h : s.InOrder) (select : Active → Bool) {error : WindowError}
    (herror : error.event? = none) (state : ControllerState) :
    (s.failWindows select error state).InOrder :=
  h.failEntries select herror state _ fun _ hentry => OrderedMap.mem_entries_iff.1 hentry

theorem discard_cases (id : Nat) (c : Active) (s : DirectTransferController) :
    (s.pending.get? c.windowKey = some id ∧ s.discard id c =
        { c with timer := .cleared, result := c.result.settle (.rejected .disposed) }) ∨
      (s.pending.get? c.windowKey ≠ some id ∧ s.discard id c = c) := by
  unfold DirectTransferController.discard
  split
  · rename_i hget
    exact .inl ⟨hget, rfl⟩
  · rename_i hget
    exact .inr ⟨hget, rfl⟩

/-- Nothing is in the table any more. -/
theorem discard (hc : c.InOrder s.pending s.cleanupQueue s.received id) (cleanup : Cleanup) :
    (s.discard id c).InOrder .empty (s.cleanupQueue ++ [cleanup]) s.received id := by
  have happended := append_queue hc cleanup
  rcases discard_cases id c s with ⟨hget, hdiscard⟩ | ⟨hget, hdiscard⟩
  · have hopen := hc.opened hget
    rw [hdiscard, hopen.result]
    refine ⟨fun heq => (by cases heq), fun _ b heq => (by cases heq), fun htimer => absurd rfl htimer,
      happended.cleaning, fun error hresult => ?_, hc.fair.unread, hc.fair.known, hc.fair.mine, hc.fair.own,
      hc.fair.heard, hc.fair.since, hc.fair.early, hc.fair.flushed, fun terminals hresult => ?_,
      fun terminals hposition => absurd hposition (hopen.unsettled _)⟩
    · cases hresult
      exact ⟨fits_of_event?_eq_none _ rfl, .inl rfl⟩
    · cases hresult
  · rw [hdiscard]
    exact ⟨fun heq => (by cases heq), fun _ b heq => (by cases heq),
      fun htimer => absurd (hc.timer htimer) hget, happended.cleaning,
      happended.rejected, hc.fair⟩

theorem dispose (h : s.InOrder) (outcome : DirectRunOutcome) : (s.dispose outcome).InOrder := by
  unfold DirectTransferController.dispose
  split
  · exact h
  · have hstate : ({ s with disposed := true } : DirectTransferController).InOrder :=
      ⟨h.table, h.calls, h.jobs⟩
    have hended := hstate.setState (.ended outcome)
    generalize DirectTransferController.setState (.ended outcome) { s with disposed := true } = t
      at hended
    refine ⟨fun key id hget => ?_, fun id c' hid' => ?_, fun job key error state a stage hjob => ?_⟩
    · rw [OrderedMap.get?_empty] at hget
      cases hget
    · simp only [List.getElem?_mapIdx] at hid'
      obtain ⟨c, hid, rfl⟩ := Option.map_eq_some_iff.1 hid'
      exact discard (hended.calls id c hid) _
    · rcases getElem?_concat_cases hjob with hold | ⟨-, hnew⟩
      · obtain ⟨⟨c, hid, hkey, hfits⟩, -, -, hvictim, hengine⟩ :=
          hended.jobs job key error state a stage hold
        refine ⟨⟨t.discard a c, ?_, ?_, ?_⟩, fun _ b heq => (by cases heq),
          fun _ heq => (by cases heq), hvictim, hengine⟩
        · simp [List.getElem?_mapIdx, hid]
        · rcases discard_cases a c t with ⟨-, hdiscard⟩ | ⟨-, hdiscard⟩ <;> rw [hdiscard] <;>
            exact hkey
        · rcases discard_cases a c t with ⟨-, hdiscard⟩ | ⟨-, hdiscard⟩ <;> rw [hdiscard] <;>
            exact hfits
      · cases hnew

/-- A job goes on whose window has been taken out, or that has none. -/
theorem setStage (h : s.InOrder) {job : Nat} {task : CleanupJob} {stage stage' : JobStage}
    (hjob : s.cleanupQueue[job]? = some ⟨task, stage⟩) (hstage : stage.isDone = false)
    (hqueued : stage' ≠ .queued)
    (hengine : ∀ victim error, stage' = .flushing victim (some error) → error.event? = none)
    (htask : ∀ key error state a, task = .failWindow key error state a →
      s.pending.get? key ≠ some a ∧ ∀ v, stage'.victim? = some v → v = a) :
    (s.setStage job task stage').InOrder := by
  have hget : ∀ j, (s.cleanupQueue.set job ⟨task, stage'⟩)[j]? =
      if j = job then some ⟨task, stage'⟩ else s.cleanupQueue[j]? := by
    intro j
    obtain ⟨hlt, -⟩ := List.getElem?_eq_some_iff.1 hjob
    rw [List.getElem?_set]
    by_cases hj : job = j
    · rw [if_pos hj, if_pos hlt, if_pos hj.symm]
    · rw [if_neg hj, if_neg (Ne.symm hj)]
  refine ⟨h.table, fun id c hid => ?_, fun j key error state a stage'' hj => ?_⟩
  · have hc := h.calls id c hid
    refine ⟨hc.opened, hc.alone, hc.timer, fun j error hposition => ?_, fun error hresult => ?_,
      hc.fair⟩
    · obtain ⟨state, stage'', hj⟩ := hc.cleaning j error hposition
      by_cases heq : j = job
      · rw [heq, hjob] at hj
        cases hj
        exact ⟨state, stage', (hget j).trans (if_pos heq)⟩
      · exact ⟨state, stage'', ((hget j).trans (if_neg heq)).trans hj⟩
    · obtain ⟨hfits, hdisposed | ⟨j, key, raised, state, cleanupError, hj⟩⟩ :=
        hc.rejected error hresult
      · exact ⟨hfits, .inl hdisposed⟩
      · refine ⟨hfits, .inr ⟨j, key, raised, state, cleanupError, ?_⟩⟩
        have hne : j ≠ job := by
          rintro rfl
          rw [hjob] at hj
          cases hj
          cases hstage
        exact ((hget j).trans (if_neg hne)).trans hj
  · have hset := (hget j).symm.trans hj
    split at hset
    · cases hset
      obtain ⟨hgone, hvictim⟩ := htask key error state a rfl
      exact ⟨(h.jobs job key error state a stage hjob).call, fun heq => absurd heq hqueued,
        fun _ => hgone, hvictim, hengine⟩
    · exact h.jobs j key error state a stage'' hset

theorem event?_map_engine (message : Option String) {victim : Option Nat} (v : Option Nat)
    (error : WindowError)
    (h : JobStage.flushing victim (message.map .engine) = .flushing v (some error)) :
    error.event? = none := by
  cases message with
  | none => cases h
  | some message =>
    cases h
    rfl

theorem beginCleanup (h : s.InOrder) (job : Nat) (cancelError : Option String) :
    (s.beginCleanup job cancelError).InOrder := by
  unfold DirectTransferController.beginCleanup
  split
  · rename_i key error state a hjob
    have hj := h.jobs job key error state a .queued hjob
    split
    · exact h
    · simp only
      split
      · rename_i hactive
        refine h.setStage hjob rfl (fun heq => by cases heq) (fun v e heq => by cases heq)
          fun key' error' state' a' heq => ?_
        cases heq
        refine ⟨fun hget => ?_, fun v hv => by cases hv⟩
        obtain ⟨c, hid, -⟩ := h.table key a hget
        rw [active?_eq_some.2 ⟨hget, hid⟩] at hactive
        cases hactive
      · rename_i id c hactive
        obtain ⟨hget, hid⟩ := active?_eq_some.1 hactive
        obtain rfl : id = a := hj.alone rfl id hget
        have hkey := h.key_of_active hactive
        subst hkey
        have hc := h.calls id c hid
        refine InOrder.setStage (h.remove hactive ?key ?same (takenOut hc hc.rejected
          hc.fair.fulfilled hc.fair.settled)) hjob rfl (fun heq => by cases heq)
          (event?_map_engine cancelError) ?_
        case key => rfl
        case same => exact fun _ hmatch => hmatch
        intro key' error' state' a' heq
        cases heq
        refine ⟨fun hget' => ?_, fun v hv => (Option.some.inj hv).symm⟩
        have hgone : (s.pending.delete c.windowKey).get? c.windowKey = some id := hget'
        rw [OrderedMap.get?_delete_self] at hgone
        cases hgone
  · rename_i hjob
    split
    · exact h
    · exact h.setStage hjob rfl (fun heq => by cases heq) (event?_map_engine cancelError)
        fun key error state a heq => by cases heq
  · exact h

theorem settle_rejected (result : WindowResult) (error : WindowError) :
    (result = .pending ∧ result.settle (.rejected error) = .rejected error) ∨
      (result ≠ .pending ∧ result.settle (.rejected error) = result) := by
  cases result with
  | pending => exact .inl ⟨rfl, rfl⟩
  | fulfilled terminals => exact .inr ⟨fun heq => (by cases heq), rfl⟩
  | rejected error => exact .inr ⟨fun heq => (by cases heq), rfl⟩

/-- The victim of a job is rejected. -/
theorem rejectVictim (h : s.InOrder) {job id : Nat} {key : String} {error : WindowError}
    {state : ControllerState} {cleanupError cancelError : Option WindowError}
    (hjob : s.cleanupQueue[job]? =
      some ⟨.failWindow key error state id, .flushing (some id) cancelError⟩)
    (hid : s.calls[id]? = some c) (hfits : c.Fits (cleanupError.getD error)) :
    ((s.setCall id { c with
      result := c.result.settle (.rejected (cleanupError.getD error)) }).setStage job
        (.failWindow key error state id) (.done (some id) cleanupError)).InOrder := by
  obtain ⟨⟨c₁, hid₁, hkey, -⟩, -, hgone, -, -⟩ := h.jobs job key error state id _ hjob
  rw [hid] at hid₁
  cases hid₁
  have hout := hgone fun heq => by cases heq
  have hdone : (s.setStage job (.failWindow key error state id)
      (.done (some id) cleanupError)).InOrder := by
    refine h.setStage hjob rfl (fun heq => by cases heq) (fun v e heq => by cases heq)
      fun key' error' state' a heq => ?_
    cases heq
    exact ⟨hout, fun v hv => (Option.some.inj hv).symm⟩
  have hc := hdone.calls id c hid
  obtain ⟨hlt, -⟩ := List.getElem?_eq_some_iff.1 hjob
  suffices hset : ((s.setStage job (.failWindow key error state id)
      (.done (some id) cleanupError)).setCall id { c with
        result := c.result.settle (.rejected (cleanupError.getD error)) }).InOrder from hset
  refine hdone.setCall hid ?key ?same ?call
  case key => rfl
  case same => exact fun _ hmatch => hmatch
  case call =>
    rcases settle_rejected c.result (cleanupError.getD error) with ⟨hresult, hsettle⟩ | ⟨-, hsettle⟩
    · rw [hsettle]
      refine ⟨fun hget => absurd hget (hkey ▸ hout), fun hpast => hc.alone ?_, hc.timer,
        hc.cleaning, fun error' heq => ?_, hc.fair.unread, hc.fair.known, hc.fair.mine, hc.fair.own,
        hc.fair.heard, hc.fair.since, hc.fair.early, hc.fair.flushed, fun terminals heq => ?_,
        fun terminals hposition => ?_⟩
      · rw [← hpast]
        simp only [Active.past, hresult]
        cases c.position <;> rfl
      · cases heq
        exact ⟨hfits, .inr ⟨job, key, error, state, cleanupError, List.getElem?_set_self hlt⟩⟩
      · cases heq
      · have hfulfilled := hc.fair.settled terminals hposition
        rw [hresult] at hfulfilled
        cases hfulfilled
    · rw [hsettle]
      exact hc

theorem endCleanup (h : s.InOrder) (job : Nat) (flushError : Option String) :
    (s.endCleanup job flushError).InOrder := by
  unfold DirectTransferController.endCleanup
  split
  · rename_i key error state a id cancelError hjob
    have hj := h.jobs job key error state a _ hjob
    obtain rfl : id = a := hj.victim id rfl
    obtain ⟨c, hid, -, hfits⟩ := hj.call
    obtain ⟨hcalls, -, -⟩ := calls_setState (s := s) state
    have hqueue : (s.setState state).cleanupQueue = s.cleanupQueue := by
      unfold DirectTransferController.setState
      split <;> rfl
    simp only [hcalls, hid]
    refine (h.setState state).rejectVictim (hqueue ▸ hjob) (hcalls ▸ hid) ?_
    cases flushError with
    | some message => exact fits_of_event?_eq_none _ rfl
    | none =>
      cases cancelError with
      | some e => exact fits_of_event?_eq_none _ (hj.engine (some id) e rfl)
      | none => exact hfits
  · rename_i victim cancelError hjob
    have hdone : (s.setStage job .dispose (.done victim
        (cancelError.or (flushError.map .engine)))).InOrder :=
      h.setStage hjob rfl (fun heq => by cases heq) (fun v e heq => by cases heq)
        fun key error state a heq => by cases heq
    exact ⟨hdone.table, hdone.calls, hdone.jobs⟩
  · exact h

theorem free_spec {key : String} (h : s.free key = true) :
    (∀ (job : Nat) (error : WindowError) (state : ControllerState) (a : Nat),
        s.cleanupQueue[job]? ≠ some ⟨.failWindow key error state a, .queued⟩) ∧
      ∀ (id : Nat) (c : Active), s.calls[id]? = some c → c.windowKey = key → c.past = true := by
  simp only [free, Bool.and_eq_true, List.all_eq_true, Bool.or_eq_true, decide_eq_true_eq] at h
  constructor
  · intro job error state a hjob
    have hawaits := h.1 _ (List.mem_of_getElem? hjob)
    simp [Cleanup.awaits] at hawaits
  · intro id c hid hkey
    rcases h.2 c (List.mem_of_getElem? hid) with hne | hpast
    · exact absurd hkey hne
    · exact hpast

/-- A window is opened under a key that is free. -/
theorem opens (h : s.InOrder) {key : String} (hnone : s.pending.get? key = none)
    (hfree : s.free key = true) (hkey : c.windowKey = key) (hgeneration : c.generation = none)
    (hscheduled : c.scheduled = 0) (hterminals : c.terminals = []) (hdeferred : c.deferred = [])
    (htimer : c.timer = .running) (hresult : c.result = .pending)
    (hposition : c.position = .requesting) (hreturned : c.returned = none)
    (hsince : c.since = s.received.length) :
    ({ s with
      pending := s.pending.set key s.calls.length
      calls := s.calls ++ [c] } : DirectTransferController).InOrder := by
  obtain ⟨hjobs, hpast⟩ := free_spec hfree
  have hlt : ∀ {id : Nat} {a : Active}, s.calls[id]? = some a → s.calls.length ≠ id := by
    intro id a hid
    obtain ⟨hlt, -⟩ := List.getElem?_eq_some_iff.1 hid
    omega
  subst hkey
  refine ⟨fun k id hget => ?_, fun id a hid => ?_, fun job k error state a stage hjob => ?_⟩
  · rw [OrderedMap.get?_set] at hget
    split at hget
    · rename_i hk
      cases hget
      exact ⟨c, List.getElem?_concat_length, hk.symm⟩
    · obtain ⟨a, ha, hak⟩ := h.table k id hget
      exact ⟨a, getElem?_concat_of_some ha c, hak⟩
  · rcases getElem?_concat_cases hid with hid | ⟨rfl, rfl⟩
    · have ha := h.calls id a hid
      by_cases hk : a.windowKey = c.windowKey
      · refine ⟨fun hget => ?_, fun hnow => ?_, fun hrunning => ?_, ha.cleaning, ha.rejected,
          ha.fair⟩
        · rw [hk, OrderedMap.get?_set_self] at hget
          exact absurd (Option.some.inj hget) (hlt hid)
        · rw [hpast id a hid hk] at hnow
          cases hnow
        · have hget := ha.timer hrunning
          rw [hk, hnone] at hget
          cases hget
      · have hget : (s.pending.set c.windowKey s.calls.length).get? a.windowKey =
            s.pending.get? a.windowKey := OrderedMap.get?_set_of_ne _ _ hk
        refine ⟨fun hopen => ha.opened (hget ▸ hopen), fun hnow b hb => ha.alone hnow b (hget ▸ hb),
          fun hrunning => hget.trans (ha.timer hrunning), ha.cleaning, ha.rejected, ha.fair⟩
    · have hself : (s.pending.set a.windowKey s.calls.length).get? a.windowKey =
          some s.calls.length := OrderedMap.get?_set_self _ _ _
      refine ⟨fun _ => ⟨hresult, ?_, ?_, .inl hscheduled⟩, fun _ b hb => ?_, fun _ => hself,
        fun job error heq => ?_, fun error heq => ?_, ?_⟩
      · rw [htimer]
        exact fun heq => by cases heq
      · intro outcome heq
        rw [hposition] at heq
        cases heq
      · exact (Option.some.inj (hself.symm.trans hb)).symm
      · rw [hposition] at heq
        cases heq
      · rw [hresult] at heq
        cases heq
      · refine ⟨fun _ => hterminals, fun hknown => absurd hgeneration hknown, fun e he => ?_,
          fun e he => ?_, ?_, hsince.le, fun _ => ⟨hgeneration, hreturned⟩, fun heq => ?_,
          fun terminals heq => ?_, fun terminals heq => ?_⟩
        · rw [hdeferred] at he
          exact absurd he List.not_mem_nil
        · rw [hterminals] at he
          exact absurd he List.not_mem_nil
        · unfold Active.Heard
          rw [hterminals, hdeferred]
          exact List.nil_sublist _
        · rw [hposition] at heq
          cases heq
        · rw [hresult] at heq
          cases heq
        · rw [hposition] at heq
          cases heq
  · obtain ⟨⟨b, hb, hbk, hfits⟩, halone, hgone, hvictim, hengine⟩ :=
      h.jobs job k error state a stage hjob
    refine ⟨⟨b, getElem?_concat_of_some hb c, hbk, hfits⟩, fun hstage b' hb' => ?_,
      fun hstage hget => ?_, hvictim, hengine⟩
    · subst hstage
      by_cases hk : k = c.windowKey
      · exact absurd (hk ▸ hjob) (hjobs job error state a)
      · exact halone rfl b' ((OrderedMap.get?_set_of_ne _ _ hk).symm.trans hb')
    · by_cases hk : k = c.windowKey
      · rw [hk, OrderedMap.get?_set_self] at hget
        exact absurd (Option.some.inj hget) (hlt hb)
      · exact hgone hstage ((OrderedMap.get?_set_of_ne _ _ hk).symm.trans hget)

theorem requestWindow (h : s.InOrder) (peerId : PeerId) (fileId : FileId)
    (controllerId windowKey : Option String)
    (hfree : s.reusesFree (.requestWindow peerId fileId controllerId windowKey) = true) :
    (s.requestWindow peerId fileId controllerId windowKey).InOrder := by
  unfold DirectTransferController.requestWindow
  split
  · exact h
  · have hstarting := h.setState .starting
    simp only [reusesFree, Bool.or_eq_true] at hfree
    have hsame : (s.setState .starting).pending = s.pending ∧
        (s.setState .starting).calls = s.calls ∧
        (s.setState .starting).cleanupQueue = s.cleanupQueue := by
      unfold DirectTransferController.setState
      split <;> exact ⟨rfl, rfl, rfl⟩
    obtain ⟨hpending, hcalls, hqueue⟩ := hsame
    simp only
    split
    · exact hstarting
    · rename_i hhas
      have hnone := OrderedMap.has_eq_false_iff.1 (Bool.not_eq_true _ ▸ hhas)
      refine hstarting.opens hnone ?_ rfl rfl rfl rfl rfl rfl rfl rfl rfl rfl
      rcases hfree with hfree | hfree
      · rw [← hpending] at hfree
        exact absurd hfree hhas
      · unfold free at hfree ⊢
        rw [hqueue, hcalls]
        exact hfree

theorem step (accepts : DeferredLifecycleEvent → Bool) (h : s.InOrder) (l : ControllerMove)
    (hfree : s.reusesFree l = true) : (s.step accepts l).InOrder := by
  cases l with
  | requestWindow peerId fileId controllerId windowKey =>
    exact h.requestWindow peerId fileId controllerId windowKey hfree
  | requested id scheduled generation outstanding =>
    exact h.requested accepts id scheduled generation outstanding
  | flushed id outstanding => exact h.flushed id outstanding
  | engineFailed id message => exact h.engineFailed id message
  | resume id => exact h.resume id
  | event e => exact h.event accepts e
  | timeout id => exact h.timeout id
  | abort => exact (h.setState _).failWindows _ rfl _
  | failPeer peerId message => exact h.failWindows _ rfl _
  | dispose outcome => exact h.dispose outcome
  | beginCleanup job cancelError => exact h.beginCleanup job cancelError
  | endCleanup job flushError => exact h.endCleanup job flushError

theorem idle : DirectTransferController.idle.InOrder := by
  refine ⟨fun key id hget => ?_, fun id c hid => ?_, fun job key error state a stage hjob => ?_⟩
  · cases hget
  · exact absurd hid (by simp [DirectTransferController.idle])
  · exact absurd hjob (by simp [DirectTransferController.idle])

end InOrder

/-- An ended state stays. -/
theorem ended_setState {outcome : DirectRunOutcome} (h : s.state = .ended outcome)
    (state : ControllerState) : (s.setState state).state = .ended outcome := by
  simp [setState, h, ControllerState.isEnded]

theorem ended_complete {outcome : DirectRunOutcome} (h : s.state = .ended outcome) (key : String)
    (id : Nat) : (s.completeWindowIfSettled key id).state = .ended outcome := by
  unfold completeWindowIfSettled
  split
  · exact h
  · split
    · exact h
    · refine ended_setState ?_ .running
      exact h

theorem ended_handleWith {outcome : DirectRunOutcome} (accepts : DeferredLifecycleEvent → Bool)
    (event : DeferredLifecycleEvent)
    (react : Nat → Active → DirectTransferController → DirectTransferController)
    (hreact : ∀ id active, (react id active s).state = .ended outcome)
    (h : s.state = .ended outcome) :
    (handleWith accepts event react s).1.state = .ended outcome := by
  unfold handleWith
  split
  · exact h
  · split
    · exact h
    · split
      · exact h
      · exact hreact _ _

theorem ended_handle {outcome : DirectRunOutcome} (accepts : DeferredLifecycleEvent → Bool)
    (event : DeferredLifecycleEvent) (h : s.state = .ended outcome) :
    (s.handle accepts event).1.state = .ended outcome := by
  cases event with
  | terminal event =>
    refine ended_handleWith accepts _ _ (fun id active => ?_) h
    simp only
    split
    · exact h
    · refine ended_complete ?_ _ _
      exact h
  | exhausted event =>
    refine ended_handleWith accepts _ _ (fun id active => ?_) h
    split <;> exact h
  | error event =>
    refine ended_handleWith accepts _ _ (fun id active => ?_) h
    split <;> exact h

theorem ended_replay {outcome : DirectRunOutcome} (accepts : DeferredLifecycleEvent → Bool)
    (events : List DeferredLifecycleEvent) (h : s.state = .ended outcome) :
    (replay accepts events s).1.state = .ended outcome := by
  induction events generalizing s with
  | nil => exact h
  | cons event rest ih =>
    have hhandled := ended_handle accepts event h
    rw [replay]
    split
    · rename_i t heq
      rw [heq] at hhandled
      exact hhandled
    · rename_i t heq
      rw [heq] at hhandled
      exact ih hhandled

theorem ended_caught {outcome : DirectRunOutcome} (h : s.state = .ended outcome) (id : Nat)
    (error : WindowError) : (s.caught id error).state = .ended outcome := by
  unfold caught
  split <;> exact h

theorem ended_fill {outcome : DirectRunOutcome} (accepts : DeferredLifecycleEvent → Bool)
    (key : String) (scheduled : Nat) (generation : Option Nat) (h : s.state = .ended outcome) :
    (s.fill accepts key scheduled generation).1.state = .ended outcome := by
  unfold fill
  split
  · exact h
  · rename_i id active hactive
    have hreplayed := ended_replay accepts active.deferred (s := s.setCall id { active with
      scheduled := scheduled, generation := generation, deferred := [] }) h
    split
    · rename_i t heq
      rw [heq] at hreplayed
      exact hreplayed
    · rename_i t heq
      rw [heq] at hreplayed
      exact ended_complete hreplayed _ _

theorem ended_failEntries {outcome : DirectRunOutcome} (select : Active → Bool)
    (error : WindowError) (state : ControllerState) (entries : List (String × Nat))
    (h : s.state = .ended outcome) :
    (entries.foldl (failEntry select error state) s).state = .ended outcome := by
  induction entries generalizing s with
  | nil => exact h
  | cons entry rest ih =>
    refine ih ?_
    unfold failEntry
    split
    · exact h
    · split <;> exact h

theorem ended_step {outcome : DirectRunOutcome} (accepts : DeferredLifecycleEvent → Bool)
    (l : ControllerMove) (h : s.state = .ended outcome) :
    (s.step accepts l).state = .ended outcome := by
  cases l with
  | requestWindow peerId fileId controllerId windowKey =>
    have hended : s.state.isEnded = true := by simp [h, ControllerState.isEnded]
    simp only [step, requestWindow, hended, Bool.or_true, if_true]
    exact h
  | requested id scheduled generation outstanding =>
    simp only [step, requested]
    split
    · exact h
    · rename_i c hid
      split
      · exact h
      · have hfilled := ended_fill accepts c.windowKey scheduled generation (s := s.setCall id { c with
          returned := some scheduled
          position := if scheduled = 0 ∧ outstanding = 0 then .flushing else .waiting }) h
        split
        · rename_i t heq
          rw [heq] at hfilled
          exact ended_caught hfilled _ _
        · rename_i t heq
          rw [heq] at hfilled
          split
          · exact ended_caught hfilled _ _
          · exact hfilled
  | flushed id outstanding =>
    simp only [step, flushed]
    split
    · exact h
    · split
      · exact h
      · split
        · exact h
        · split <;> exact h
  | engineFailed id message =>
    simp only [step, engineFailed]
    split
    · exact h
    · split
      · exact ended_caught h _ _
      · exact h
  | resume id =>
    simp only [step, resume]
    split
    · exact h
    · split
      · split <;> exact h
      · split
        · exact h
        · exact h
        · exact ended_caught h _ _
      · split <;> exact h
      · exact h
  | event e => exact ended_handle accepts e h
  | timeout id =>
    simp only [step, timeout]
    split
    · exact h
    · split <;> exact h
  | abort => exact ended_failEntries _ _ _ _ (ended_setState h _)
  | failPeer peerId message => exact ended_failEntries _ _ _ _ h
  | dispose outcome' =>
    simp only [step, dispose]
    split
    · exact h
    · exact ended_setState (s := { s with disposed := true }) h _
  | beginCleanup job cancelError =>
    simp only [step, beginCleanup]
    split
    · split
      · exact h
      · split <;> exact h
    · split <;> exact h
    · exact h
  | endCleanup job flushError =>
    simp only [step, endCleanup]
    split
    · split <;> exact ended_setState h _
    · exact h
    · exact h

/-- An event that no open window matches is passed over, or put off. -/
theorem foreign_handleWith (accepts : DeferredLifecycleEvent → Bool)
    (event : DeferredLifecycleEvent)
    (react : Nat → Active → DirectTransferController → DirectTransferController)
    (hforeign : ∀ id c, s.active? event.windowKey = some (id, c) → c.matchesActive event = false) :
    (handleWith accepts event react s).1.cleanupQueue = s.cleanupQueue ∧
      ∀ id : Nat, ((handleWith accepts event react s).1.calls[id]?).map (·.result) =
        (s.calls[id]?).map (·.result) := by
  unfold handleWith
  split
  · exact ⟨rfl, fun _ => rfl⟩
  · rename_i id active hactive
    split
    · refine ⟨rfl, fun j => ?_⟩
      obtain ⟨-, hid⟩ := active?_eq_some.1 hactive
      rw [setCall, get_set hid]
      split
      · rename_i hj
        rw [hj, hid]
        rfl
      · rfl
    · rw [hforeign id active hactive]
      exact ⟨rfl, fun _ => rfl⟩

theorem foreign_event (accepts : DeferredLifecycleEvent → Bool) (event : DeferredLifecycleEvent)
    (hforeign : ∀ id c, s.active? event.windowKey = some (id, c) → c.matchesActive event = false) :
    (s.step accepts (.event event)).cleanupQueue = s.cleanupQueue ∧
      ∀ id : Nat, ((s.step accepts (.event event)).calls[id]?).map (·.result) =
        (s.calls[id]?).map (·.result) := by
  cases event with
  | terminal event => exact foreign_handleWith accepts (.terminal event) _ hforeign
  | exhausted event => exact foreign_handleWith accepts (.exhausted event) _ hforeign
  | error event => exact foreign_handleWith accepts (.error event) _ hforeign

/-- How windows end in a state, and what no further move changes. -/
structure Settling (accepts : DeferredLifecycleEvent → Bool) (s : DirectTransferController) :
    Prop where
  entries : ∀ (key : String) (id : Nat), s.pending.get? key = some id →
    ∃ c, s.calls[id]? = some c ∧ c.windowKey = key ∧ c.result = .pending ∧
      (∀ outcome, c.position ≠ .settled outcome) ∧ c.timer ≠ .cleared
  resolved : ∀ (id : Nat) (c : Active) (terminals : List DirectTerminalEvent),
    s.calls[id]? = some c → c.position = .settled (.ok terminals) →
    ∃ n, c.returned = some n ∧ max 1 n ≤ (finals terminals).length ∧
      (∀ event ∈ terminals, c.matchesActive (.terminal event) = true) ∧
      terminals.Sublist (s.received.drop c.since)
  rejected : ∀ (id : Nat) (c : Active) (error : WindowError), s.calls[id]? = some c →
    c.result = .rejected error → error = .disposed ∨
    ∃ (job : Nat) (key : String) (raised : WindowError) (state : ControllerState)
      (cleanupError : Option WindowError),
      s.cleanupQueue[job]? = some ⟨.failWindow key raised state id, .done (some id) cleanupError⟩
  failures : ∀ (job : Nat) (key : String) (error : WindowError) (state : ControllerState)
    (raisedFor : Nat) (stage : JobStage),
    s.cleanupQueue[job]? = some ⟨.failWindow key error state raisedFor, stage⟩ →
    (∀ victim, stage.victim? = some victim → victim = raisedFor) ∧
      ∀ event, error.event? = some event →
        ∃ c, s.calls[raisedFor]? = some c ∧ c.matchesActive event = true
  foreign : ∀ event : DeferredLifecycleEvent,
    (∀ id c, s.active? event.windowKey = some (id, c) → c.matchesActive event = false) →
    (s.step accepts (.event event)).cleanupQueue = s.cleanupQueue ∧
      ∀ id : Nat, ((s.step accepts (.event event)).calls[id]?).map (·.result) =
        (s.calls[id]?).map (·.result)
  ended : ∀ outcome, s.state = .ended outcome →
    ∀ u, Run (step accepts) (fun _ _ => True) s u → u.state = .ended outcome

end DirectTransferController

open DirectTransferController

/-- In any run in which keys are used again only when they are free: a window is pending only
while its call is unsettled and its timer runs, it is fulfilled by final events of its own, it is
rejected only by failures raised for it, and the end of the controller is final. -/
theorem windows_settle_for_themselves (accepts : DeferredLifecycleEvent → Bool)
    (t : DirectTransferController)
    (hrun : Run (step accepts) (fun s l => s.reusesFree l = true) idle t) :
    t.Settling accepts := by
  have hinorder := hrun.invariant (fun s l hs hl => InOrder.step accepts hs l hl) InOrder.idle
  refine ⟨fun key id hget => ?_, fun id c terminals hid hposition => ?_,
    fun id c error hid hresult => ?_, fun job key error state a stage hjob => ?_,
    fun event => foreign_event accepts event, fun outcome hended u hu => ?_⟩
  · obtain ⟨c, hid, hkey⟩ := hinorder.table key id hget
    have hopen := (hinorder.calls id c hid).opened (hkey ▸ hget)
    exact ⟨c, hid, hkey, hopen.result, hopen.unsettled, hopen.timer⟩
  · have hfair := (hinorder.calls id c hid).fair
    exact hfair.fulfilled terminals (hfair.settled terminals hposition)
  · exact ((hinorder.calls id c hid).rejected error hresult).2
  · have hj := hinorder.jobs job key error state a stage hjob
    obtain ⟨c, hid, -, hfits⟩ := hj.call
    exact ⟨hj.victim, fun event hevent => ⟨c, hid, hfits event hevent⟩⟩
  · exact hu.invariant (P := fun s => s.state = .ended outcome)
      (fun s l hs _ => ended_step accepts l hs) hended

namespace Sample

def verified : DirectTerminalEvent :=
  ⟨"f", 0, "p", "r", .verified, 0, false, 0, 0, some "browser-direct", "k"⟩

/-- The first window of a key is fulfilled by an event that comes early; the second, under the
same key, times out. -/
def twice : List ControllerMove :=
  [.requestWindow "p" "f" none (some "k"), .event (.terminal verified), .requested 0 1 (some 0) 1,
    .resume 0, .requestWindow "p" "f" none (some "k"), .requested 1 1 (some 1) 1, .timeout 1,
    .beginCleanup 0 none, .endCleanup 0 none, .resume 1, .beginCleanup 1 none, .resume 1]

/-- The key is used again while the first window that timed out is being cleaned up. -/
def hasty : List ControllerMove :=
  [.requestWindow "p" "f" none (some "k"), .requested 0 1 (some 0) 1, .timeout 0,
    .beginCleanup 0 none, .requestWindow "p" "f" none (some "k"), .endCleanup 0 none, .resume 0,
    .beginCleanup 1 none, .endCleanup 1 none]

end Sample

theorem windows_settle_for_themselves_sample :
    (steps (step fun _ => true) idle Sample.twice).Settling fun _ => true :=
  windows_settle_for_themselves (fun _ => true) (steps (step fun _ => true) idle Sample.twice)
    (run_of_allowed (by decide +kernel))

/-- A call that has timed out fails the window that another call has opened under its key. -/
theorem timeout_rejects_a_later_call :
    ¬ ∀ t, Run (step fun _ => true) (fun _ _ => True) idle t → t.Settling fun _ => true := by
  intro h
  have hsettling := h _ (run_steps idle Sample.hasty)
  have hjob : (steps (step fun _ => true) idle Sample.hasty).cleanupQueue[1]? =
      some ⟨.failWindow "k" .timeout (.ended .failed) 0, .done (some 1) none⟩ := by decide +kernel
  have hvictim := (hsettling.failures 1 "k" .timeout (.ended .failed) 0 _ hjob).1 1 rfl
  cases hvictim

end PonsWarp.Demo
