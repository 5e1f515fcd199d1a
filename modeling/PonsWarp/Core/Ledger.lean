import Mathlib.Data.List.Count
import Mathlib.Logic.Relation
import PonsWarp.Core.Change

set_option autoImplicit false

/-!
The books of the direct requests: which are open, whose timers run, what was said of those
that have ended, and what waits in the chains of the windows. A request is entered with its
timer and struck out with its terminal event; the rest of the engine does not matter here.
-/

namespace PonsWarp.Core

open PonsWarp.Data

/-- What waits in the chain of a window. -/
structure Line where
  queue : List WindowJob
  disabled : Bool
  cap : Number

structure Ledger where
  requests : OrderedMap RequestId OutstandingRequest
  timers : OrderedMap RequestId Nat
  armed : List (RequestId × String)
  terminals : List DirectTerminalEvent
  windows : OrderedMap String Nat
  lines : List Line
  disposed : Bool
  issued : List RequestId

def WindowJob.isRetry : WindowJob → Bool
  | .retry .. => true
  | _ => false

namespace Ledger

/-- The direct part of an open request. -/
def direct? (L : Ledger) (x : RequestId) : Option DirectRequest :=
  (L.requests.get? x).bind (·.direct)

def line? (L : Ledger) (key : String) : Option (Nat × Line) :=
  match L.windows.get? key with
  | some ref => (L.lines[ref]?).map fun line => (ref, line)
  | none => none

def enqueue (L : Ledger) (key : String) (job : WindowJob) : Ledger :=
  match L.line? key with
  | some (ref, line) =>
    if line.disabled ∨ L.disposed then L
    else { L with lines := L.lines.set ref { line with queue := line.queue ++ [job] } }
  | none => L

/-- A request is entered; the timer of a direct one is armed. -/
def ask (L : Ledger) (x : RequestId) (r : OutstandingRequest) : Ledger :=
  match r.direct with
  | none => { L with requests := L.requests.set x r, issued := L.issued ++ [x] }
  | some d =>
    { L with
      requests := L.requests.set x r
      timers := L.timers.set x L.armed.length
      armed := L.armed ++ [(x, d.windowKey)]
      issued := L.issued ++ [x] }

/-- A direct request is struck out with its event, and queued again if it will be retried. -/
def retire (L : Ledger) (x : RequestId) (r : OutstandingRequest) (d : DirectRequest)
    (event : DirectTerminalEvent) : Ledger :=
  let L := { L with
    requests := L.requests.delete x
    timers := L.timers.delete x
    terminals := L.terminals ++ [event] }
  if event.willRetry ∧ d.windowKey ≠ "" then L.enqueue d.windowKey (.retry x r d) else L

end Ledger

/-- What a stretch of code has to be permitted. -/
inductive Entry where
  | ask (requestId : RequestId) (direct : DirectRequest)
  | lose (requestId : RequestId)
  | opens (key : String)
  | take (window : Nat) (job : WindowJob)
  | dispose

namespace Ledger

section

variable (max : Nat) (P : Entry → Prop)

/-- One change of the books. The table of windows is cut down only when it has more than
`max` of them, and a window with open requests stays. -/
inductive Posting : Ledger → Ledger → Prop
  | ask (L : Ledger) (x : RequestId) (r : OutstandingRequest)
      (h : ∀ d, r.direct = some d → P (.ask x d) ∧
        (d.windowKey ≠ "" → ∃ ref, L.windows.get? d.windowKey = some ref)) : Posting L (L.ask x r)
  | close (L : Ledger) (x : RequestId) (h : L.direct? x = none ∨ P (.lose x)) :
      Posting L { L with requests := L.requests.delete x }
  | retire (L : Ledger) (x : RequestId) (r : OutstandingRequest) (d : DirectRequest)
      (event : DirectTerminalEvent) (hr : L.requests.get? x = some r) (hd : r.direct = some d)
      (hid : event.requestId = x) (hkey : event.windowKey = d.windowKey)
      (hcount : event.retryCount = d.retryCount) : Posting L (L.retire x r d event)
  | enqueue (L : Ledger) (key : String) (job : WindowJob) (h : job.isRetry = false)
      (hkey : ∀ k, job.key? = some k → k = key) : Posting L (L.enqueue key job)
  | newWindow (L : Ledger) (key : String) (cap : Number) (h : P (.opens key))
      (hnew : L.line? key = none) (hcap : ∃ n : Nat, cap = n) :
      Posting L { L with
        windows := L.windows.set key L.lines.length, lines := L.lines ++ [⟨[], false, cap⟩] }
  | disable (L : Ledger) (ref : Nat) (line : Line) (hline : L.lines[ref]? = some line) :
      Posting L { L with lines := L.lines.set ref { line with disabled := true } }
  | prune (L : Ledger) (windows : OrderedMap String Nat)
      (hsub : ∀ key ref, windows.get? key = some ref → L.windows.get? key = some ref)
      (hkeep : ∀ x d, L.direct? x = some d → windows.get? d.windowKey = L.windows.get? d.windowKey)
      (hsize : L.windows.size ≤ max → windows = L.windows) :
      Posting L { L with windows := windows }
  | take (L : Ledger) (ref : Nat) (line : Line) (job : WindowJob) (rest : List WindowJob)
      (hline : L.lines[ref]? = some line) (hq : line.queue = job :: rest)
      (h : P (.take ref job)) :
      Posting L { L with lines := L.lines.set ref { line with queue := rest } }
  | dispose (L : Ledger) (h : (∀ x, L.direct? x = none) ∨ P .dispose) :
      Posting L { L with
        requests := .empty, timers := .empty, windows := .empty, disposed := true }

abbrev Postings : Ledger → Ledger → Prop := Relation.ReflTransGen (Posting max P)

end

variable {max : Nat} {P P' : Entry → Prop} {L L' : Ledger}

theorem Postings.keeps {Q : Ledger → Prop} (hstep : ∀ L L', Posting max P L L' → Q L → Q L')
    (h : Postings max P L L') (hQ : Q L) : Q L' := by
  induction h with
  | refl => exact hQ
  | tail _ hlast ih => exact hstep _ _ hlast ih

theorem line?_eq_some {key : String} {ref : Nat} {line : Line} :
    L.line? key = some (ref, line) ↔
      L.windows.get? key = some ref ∧ L.lines[ref]? = some line := by
  unfold line?
  cases L.windows.get? key with
  | none => simp
  | some r =>
    constructor
    · intro h
      obtain ⟨line', hline, heq⟩ := Option.map_eq_some_iff.1 h
      cases heq
      exact ⟨rfl, hline⟩
    · rintro ⟨hr, hline⟩
      cases hr
      simp [hline]

/-- What a task that waits changes: one line. -/
theorem enqueue_eq (L : Ledger) (key : String) (job : WindowJob) :
    L.enqueue key job = { L with lines := (L.enqueue key job).lines } := by
  unfold enqueue
  split
  · split <;> rfl
  · rfl

@[simp] theorem enqueue_requests (L : Ledger) (key : String) (job : WindowJob) :
    (L.enqueue key job).requests = L.requests := by rw [enqueue_eq]

@[simp] theorem enqueue_timers (L : Ledger) (key : String) (job : WindowJob) :
    (L.enqueue key job).timers = L.timers := by rw [enqueue_eq]

@[simp] theorem enqueue_armed (L : Ledger) (key : String) (job : WindowJob) :
    (L.enqueue key job).armed = L.armed := by rw [enqueue_eq]

@[simp] theorem enqueue_terminals (L : Ledger) (key : String) (job : WindowJob) :
    (L.enqueue key job).terminals = L.terminals := by rw [enqueue_eq]

@[simp] theorem enqueue_windows (L : Ledger) (key : String) (job : WindowJob) :
    (L.enqueue key job).windows = L.windows := by rw [enqueue_eq]

@[simp] theorem enqueue_issued (L : Ledger) (key : String) (job : WindowJob) :
    (L.enqueue key job).issued = L.issued := by rw [enqueue_eq]

@[simp] theorem enqueue_disposed (L : Ledger) (key : String) (job : WindowJob) :
    (L.enqueue key job).disposed = L.disposed := by rw [enqueue_eq]

@[simp] theorem enqueue_direct? (L : Ledger) (key : String) (job : WindowJob) (x : RequestId) :
    (L.enqueue key job).direct? x = L.direct? x := by rw [enqueue_eq]; rfl

/-- Apart from the line of the window, a direct request is struck out. -/
theorem retire_eq (L : Ledger) (x : RequestId) (r : OutstandingRequest) (d : DirectRequest)
    (event : DirectTerminalEvent) :
    L.retire x r d event = { L with
      requests := L.requests.delete x
      timers := L.timers.delete x
      terminals := L.terminals ++ [event]
      lines := (L.retire x r d event).lines } := by
  unfold retire
  simp only
  split
  · rw [enqueue_eq]
  · rfl

theorem direct?_retire (L : Ledger) (x y : RequestId) (r : OutstandingRequest) (d : DirectRequest)
    (event : DirectTerminalEvent) :
    (L.retire x r d event).direct? y = if y = x then none else L.direct? y := by
  rw [retire_eq]
  simp only [direct?, OrderedMap.get?_delete]
  split <;> rfl

theorem requests_ask (L : Ledger) (x : RequestId) (r : OutstandingRequest) :
    (L.ask x r).requests = L.requests.set x r := by
  unfold Ledger.ask
  split <;> rfl

theorem ask_frame (L : Ledger) (x : RequestId) (r : OutstandingRequest) :
    (L.ask x r).windows = L.windows ∧ (L.ask x r).lines = L.lines ∧
      (L.ask x r).disposed = L.disposed := by
  unfold Ledger.ask
  split <;> exact ⟨rfl, rfl, rfl⟩

theorem issued_ask (L : Ledger) (x : RequestId) (r : OutstandingRequest) :
    (L.ask x r).issued = L.issued ++ [x] := by
  unfold Ledger.ask
  split <;> rfl

theorem direct?_ask (L : Ledger) (x y : RequestId) (r : OutstandingRequest) :
    (L.ask x r).direct? y = if y = x then r.direct else L.direct? y := by
  simp only [direct?, requests_ask, OrderedMap.get?_set]
  split <;> rfl

/-- How often a request has been entered, and how often struck out with an event. -/
def entered (L : Ledger) (x : RequestId) : Nat := L.armed.countP fun p => p.1 = x

def ended (L : Ledger) (x : RequestId) : Nat := L.terminals.countP fun event => event.requestId = x

/-- The books are in order: exactly the open direct requests have a timer, and every direct
request has ended once if it is not open, and not yet if it is. -/
structure Kept (L : Ledger) : Prop where
  issued : ∀ x r, L.requests.get? x = some r → x ∈ L.issued
  armed : (L.armed.map Prod.fst).Sublist L.issued
  timers : ∀ x, L.timers.has x = (L.direct? x).isSome
  slots : ∀ x k, L.timers.get? x = some k → ∃ key, L.armed[k]? = some (x, key)
  keys : ∀ x key, (x, key) ∈ L.armed → ∀ d, L.direct? x = some d → d.windowKey = key
  ended : ∀ x, L.entered x = L.ended x + (L.direct? x).isSome.toNat

theorem Kept.fresh (h : L.Kept) {x : RequestId} (hx : x ∉ L.issued) :
    L.requests.get? x = none ∧ L.direct? x = none ∧ L.entered x = 0 := by
  have hnone : L.requests.get? x = none := by
    cases hr : L.requests.get? x with
    | none => rfl
    | some r => exact absurd (h.issued x r hr) hx
  refine ⟨hnone, by simp [direct?, hnone], ?_⟩
  refine List.countP_eq_zero.2 fun p hp => ?_
  have hmem : p.1 ∈ L.issued := h.armed.subset (List.mem_map.2 ⟨p, hp, rfl⟩)
  simp only [decide_eq_true_eq]
  rintro rfl
  exact hx hmem

/-- In the books of ids that are not handed out twice, a direct request ends at most once. -/
theorem Kept.ended_le_one (h : L.Kept) (hn : L.issued.Nodup) (x : RequestId) : L.ended x ≤ 1 := by
  have hcount : L.entered x = (L.armed.map Prod.fst).count x := by
    rw [List.count, List.countP_map]
    rfl
  have hle : (L.armed.map Prod.fst).count x ≤ 1 :=
    List.nodup_iff_count_le_one.1 (hn.sublist h.armed) x
  have hended := h.ended x
  omega

theorem Posting.issued_prefix (h : Posting max P L L') : L.issued <+: L'.issued := by
  cases h with
  | ask x r h =>
    rw [issued_ask]
    exact List.prefix_append _ _
  | retire x r d event hr hd hid hkey hcount =>
    have hissued : (L.retire x r d event).issued = L.issued := by rw [retire_eq]
    exact hissued ▸ List.prefix_refl _
  | enqueue key job h hkey =>
    have hissued : (L.enqueue key job).issued = L.issued := enqueue_issued L key job
    exact hissued ▸ List.prefix_refl _
  | _ => exact List.prefix_refl _

theorem Postings.issued_prefix (h : Postings max P L L') : L.issued <+: L'.issued := by
  induction h with
  | refl => exact List.prefix_refl _
  | tail _ hlast ih => exact ih.trans hlast.issued_prefix

/-- Books that differ only in what the order of the books does not look at. -/
theorem Kept.same (hk : L.Kept) (hr : L'.requests = L.requests) (ht : L'.timers = L.timers)
    (ha : L'.armed = L.armed) (he : L'.terminals = L.terminals) (hi : L'.issued = L.issued) :
    L'.Kept := by
  have hdirect : ∀ x, L'.direct? x = L.direct? x := fun x => by rw [direct?, direct?, hr]
  constructor
  · simpa [hr, hi] using hk.issued
  · simpa [ha, hi] using hk.armed
  · simpa [ht, hdirect] using hk.timers
  · simpa [ht, ha] using hk.slots
  · simpa [ha, hdirect] using hk.keys
  · simpa [entered, Ledger.ended, ha, he, hdirect] using hk.ended

theorem kept_ask {x : RequestId} {r : OutstandingRequest} (hx : x ∉ L.issued) (hk : L.Kept) :
    (L.ask x r).Kept := by
  obtain ⟨hnone, hdirect, hzero⟩ := hk.fresh hx
  have hlast := hk.ended x
  constructor
  · intro y r' hy
    rw [requests_ask, OrderedMap.get?_set] at hy
    rw [issued_ask, List.mem_append]
    by_cases hyx : y = x
    · simp [hyx]
    · exact .inl (hk.issued y r' (by simpa [hyx] using hy))
  · unfold Ledger.ask
    split
    · exact hk.armed.trans (List.sublist_append_left _ _)
    · simpa using hk.armed.append (List.Sublist.refl [x])
  · intro y
    have hy := hk.timers y
    rw [direct?_ask]
    unfold Ledger.ask
    cases hd : r.direct with
    | none => by_cases hyx : y = x <;> simp_all
    | some d => by_cases hyx : y = x <;> simp_all [OrderedMap.has, OrderedMap.get?_set]
  · intro y k hy
    unfold Ledger.ask at hy ⊢
    cases hd : r.direct with
    | none =>
      simp only [hd] at hy ⊢
      exact hk.slots y k hy
    | some d =>
      simp only [hd, OrderedMap.get?_set] at hy ⊢
      by_cases hyx : y = x
      · subst hyx
        obtain rfl : L.armed.length = k := by simpa using hy
        exact ⟨d.windowKey, by simp⟩
      · obtain ⟨key, hkey⟩ := hk.slots y k (by simpa [hyx] using hy)
        have hlt : k < L.armed.length := (List.getElem?_eq_some_iff.1 hkey).1
        exact ⟨key, by rw [List.getElem?_append_left hlt, hkey]⟩
  · intro y key hy d hd
    rw [direct?_ask] at hd
    have harmed : (y, key) ∈ L.armed → y ≠ x := by
      rintro hmem rfl
      exact hx (hk.armed.subset (List.mem_map.2 ⟨_, hmem, rfl⟩))
    unfold Ledger.ask at hy
    by_cases hyx : y = x
    · rw [if_pos hyx] at hd
      simp only [hd, List.mem_append, List.mem_singleton, Prod.mk.injEq] at hy
      obtain hold | ⟨-, rfl⟩ := hy
      · exact absurd hyx (harmed hold)
      · rfl
    · rw [if_neg hyx] at hd
      split at hy
      · exact hk.keys y key hy d hd
      · obtain hold | hnew := List.mem_append.1 hy
        · exact hk.keys y key hold d hd
        · cases List.mem_singleton.1 hnew
          exact absurd rfl hyx
  · intro y
    have hy := hk.ended y
    rw [direct?_ask]
    unfold Ledger.ask entered Ledger.ended at *
    cases hd : r.direct with
    | none => by_cases hyx : y = x <;> simp_all
    | some d =>
      by_cases hyx : y = x
      · subst hyx
        simp_all
      · have hxy : x ≠ y := fun h => hyx h.symm
        simp_all

theorem kept_retire {x : RequestId} {r : OutstandingRequest} {d : DirectRequest}
    {event : DirectTerminalEvent} (hd : L.direct? x = some d) (hid : event.requestId = x)
    (hk : L.Kept) : (L.retire x r d event).Kept := by
  constructor
  · intro y r' hy
    rw [retire_eq] at hy ⊢
    exact hk.issued y r' (OrderedMap.get?_delete_eq_some.1 hy).2
  · rw [retire_eq]
    exact hk.armed
  · intro y
    have hy := hk.timers y
    rw [direct?_retire, retire_eq]
    by_cases hyx : y = x <;> simp_all [OrderedMap.has, OrderedMap.get?_delete]
  · intro y k hy
    rw [retire_eq] at hy ⊢
    exact hk.slots y k (OrderedMap.get?_delete_eq_some.1 hy).2
  · intro y key hy d' hd'
    rw [direct?_retire] at hd'
    rw [retire_eq] at hy
    split at hd'
    · cases hd'
    · exact hk.keys y key hy d' hd'
  · intro y
    have hy := hk.ended y
    rw [direct?_retire, retire_eq]
    unfold entered Ledger.ended at *
    by_cases hyx : y = x
    · subst hyx
      simp_all
    · have hxy : event.requestId ≠ y := fun h => hyx (h.symm.trans hid)
      simp_all

theorem kept_close {x : RequestId} (hx : L.direct? x = none) (hk : L.Kept) :
    Kept { L with requests := L.requests.delete x } := by
  have hsame : ∀ y, direct? { L with requests := L.requests.delete x } y = L.direct? y := by
    intro y
    simp only [direct?, OrderedMap.get?_delete] at hx ⊢
    by_cases hyx : y = x
    · subst hyx
      simpa using hx.symm
    · simp [hyx]
  refine ⟨fun y r hy => hk.issued y r (OrderedMap.get?_delete_eq_some.1 hy).2, hk.armed,
    fun y => ?_, hk.slots, fun y key hy d hd => ?_, fun y => ?_⟩
  · rw [hsame]
    exact hk.timers y
  · rw [hsame] at hd
    exact hk.keys y key hy d hd
  · rw [hsame]
    exact hk.ended y

theorem kept_dispose (hnone : ∀ x, L.direct? x = none) (hk : L.Kept) :
    Kept { L with requests := .empty, timers := .empty, windows := .empty, disposed := true } := by
  refine ⟨fun x r hx => (nomatch hx), hk.armed, fun x => rfl, fun x k hx => (nomatch hx),
    fun x key hx d hd => (nomatch hd), fun x => ?_⟩
  have hx := hk.ended x
  rw [hnone x] at hx
  exact hx

/-- No direct request is struck out without its event. -/
theorem Posting.kept (h : Posting max P L L') (hlose : ∀ x, ¬ P (.lose x)) (hd : ¬ P .dispose)
    (hn : L'.issued.Nodup) (hk : L.Kept) : L'.Kept := by
  cases h with
  | ask x r h =>
    rw [issued_ask] at hn
    exact kept_ask (fun hmem => (List.nodup_append.1 hn).2.2 x hmem x (by simp) rfl) hk
  | close x hx => exact kept_close (hx.resolve_right (hlose x)) hk
  | retire x r d event hr hd hid hkey hcount =>
    exact kept_retire (by simp [direct?, hr, hd]) hid hk
  | enqueue key job h hkey => exact hk.same (by simp) (by simp) (by simp) (by simp) (by simp)
  | dispose h => exact kept_dispose (h.resolve_right hd) hk
  | _ => exact hk.same rfl rfl rfl rfl rfl

/-- While no id is handed out twice, the books stay in order. -/
theorem Postings.kept (h : Postings max P L L') (hlose : ∀ x, ¬ P (.lose x)) (hd : ¬ P .dispose)
    (hn : L'.issued.Nodup) (hk : L.Kept) : L'.Kept := by
  induction h with
  | refl => exact hk
  | tail _ hlast ih =>
    exact hlast.kept hlose hd hn (ih (hn.sublist hlast.issued_prefix.sublist))

end Ledger

end PonsWarp.Core
