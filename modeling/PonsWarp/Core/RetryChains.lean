import PonsWarp.Core.Timeouts

set_option autoImplicit false

/-!
The chains of requests of a direct window. A chain begins with a request that no retry makes.
A request that ends and will be retried hands its chain on to a task of the window, and the
task to the next request, until a request ends for good. In between the chain is somewhere: it
is an open request, or a task that waits.
-/

namespace PonsWarp.Core

open PonsWarp.Data

/-- The task retries a request of the window. -/
def WindowJob.carries (key : String) : WindowJob → Bool
  | .retry _ _ d => d.windowKey = key
  | _ => false

theorem WindowJob.carries_of_isRetry {job : WindowJob} (h : job.isRetry = false) (key : String) :
    job.carries key = false := by
  cases job with
  | retry x r d => cases h
  | _ => rfl

def OutstandingRequest.under (r : OutstandingRequest) (key : String) : Bool :=
  r.direct.map (·.windowKey) = some key

namespace Ledger

/-- The open requests of a window. -/
def openUnder (L : Ledger) (key : String) : Nat := L.requests.values.countP (·.under key)

/-- Its requests that wait to be retried, in the chain of whatever window. -/
def waitingFor (L : Ledger) (key : String) : Nat :=
  (L.lines.map fun line => line.queue.countP (·.carries key)).sum

def alive (L : Ledger) (key : String) : Nat := L.openUnder key + L.waitingFor key

/-- The requests of a window that have ended for good. -/
def finals (L : Ledger) (key : String) : Nat :=
  L.terminals.countP fun event => event.windowKey = key && !event.willRetry

/-- All requests there have been of a window. -/
def askedUnder (L : Ledger) (key : String) : Nat := L.armed.countP fun p => p.2 = key

/-- After a request that will be retried there is a later one: it is open, or waits to be made,
or one has ended for good since. -/
def Answered (L : Ledger) (key : String) : Prop :=
  ∀ before event after, L.terminals = before ++ event :: after → event.windowKey = key →
    event.willRetry = true →
    0 < L.alive key ∨ ∃ later ∈ after, later.windowKey = key ∧ later.willRetry = false

/-- Every open direct request has a window, under the key it was made with, and the ids of the
open requests have been handed out. -/
structure Anchored (L : Ledger) : Prop where
  issued : ∀ x r, L.requests.get? x = some r → x ∈ L.issued
  refs : ∀ key ref, L.windows.get? key = some ref → ref < L.lines.length
  windows : ∀ x d, L.direct? x = some d → d.windowKey ≠ "" →
    ∃ ref, L.windows.get? d.windowKey = some ref

/-- The window at a position is in the table under its key, and takes tasks. -/
structure Stays (L : Ledger) (key : String) (ref : Nat) : Prop where
  live : L.disposed = false
  table : L.windows.get? key = some ref
  enabled : ∃ line, L.lines[ref]? = some line ∧ line.disabled = false

/-- What a stretch of code leaves of the chains of a window. -/
structure Carried (key : String) (L L' : Ledger) : Prop where
  count : L'.finals key + L'.alive key = L.finals key + L.alive key
  asked : L'.askedUnder key = L.askedUnder key
  answered : L.Answered key → L'.Answered key

variable {max : Nat} {P : Entry → Prop} {L L' L'' : Ledger} {key : String} {ref : Nat}

theorem Carried.refl (key : String) (L : Ledger) : Carried key L L := ⟨rfl, rfl, id⟩

theorem Carried.trans (h : Carried key L L') (h' : Carried key L' L'') : Carried key L L'' :=
  ⟨h'.count.trans h.count, h'.asked.trans h.asked, fun ha => h'.answered (h.answered ha)⟩

/-- Nothing that the chains of the window are made of has changed. -/
theorem Carried.same (ho : L'.openUnder key = L.openUnder key)
    (hw : L'.waitingFor key = L.waitingFor key) (ht : L'.terminals = L.terminals)
    (ha : L'.askedUnder key = L.askedUnder key) : Carried key L L' := by
  have halive : L'.alive key = L.alive key := by rw [alive, alive, ho, hw]
  have hfinals : L'.finals key = L.finals key := by rw [finals, finals, ht]
  refine ⟨by omega, ha, fun hanswered => ?_⟩
  unfold Answered
  rw [ht, halive]
  exact hanswered

/-! ### The open requests and the tasks that wait -/

theorem openUnder_delete {x : RequestId} (h : ∀ d, L.direct? x = some d → d.windowKey ≠ key) :
    openUnder { L with requests := L.requests.delete x } key = L.openUnder key := by
  cases hr : L.requests.get? x with
  | none =>
    unfold openUnder
    simp only [OrderedMap.delete_of_get? hr]
  | some r =>
    have hunder : r.under key = false := by
      cases hd : r.direct with
      | none => simp [OutstandingRequest.under, hd]
      | some d =>
        have hne : d.windowKey ≠ key := h d (by simp [direct?, hr, hd])
        simp [OutstandingRequest.under, hd, hne]
    unfold openUnder
    simp only
    rw [(OrderedMap.values_delete_perm hr).countP_eq]
    simp [hunder]

theorem openUnder_delete_succ {x : RequestId} {r : OutstandingRequest}
    (hr : L.requests.get? x = some r) (hunder : r.under key = true) :
    openUnder { L with requests := L.requests.delete x } key + 1 = L.openUnder key := by
  unfold openUnder
  simp only
  rw [(OrderedMap.values_delete_perm hr).countP_eq]
  simp [hunder]

theorem openUnder_ask {x : RequestId} {r : OutstandingRequest} (hx : L.requests.get? x = none) :
    (L.ask x r).openUnder key = L.openUnder key + (r.under key).toNat := by
  unfold openUnder
  rw [requests_ask, (OrderedMap.values_set_perm L.requests x r).countP_eq,
    OrderedMap.delete_of_get? hx, List.countP_cons]
  cases r.under key <;> rfl

theorem waitingFor_set (key : String) {line : Line} (line' : Line)
    (hline : L.lines[ref]? = some line) :
    waitingFor { L with lines := L.lines.set ref line' } key + line.queue.countP (·.carries key) =
      L.waitingFor key + line'.queue.countP (·.carries key) := by
  unfold waitingFor
  simp only
  generalize L.lines = lines at hline
  induction lines generalizing ref with
  | nil => simp at hline
  | cons first rest ih =>
    cases ref with
    | zero =>
      obtain rfl : first = line := by simpa using hline
      simp only [List.set_cons_zero, List.map_cons, List.sum_cons]
      omega
    | succ n =>
      have hrest := ih (by simpa using hline)
      simp only [List.set_cons_succ, List.map_cons, List.sum_cons]
      omega

theorem waitingFor_enqueue {job : WindowJob} {line : Line} {key' : String}
    (hline : L.line? key' = some (ref, line)) (henabled : line.disabled = false)
    (hlive : L.disposed = false) :
    (L.enqueue key' job).waitingFor key = L.waitingFor key + (job.carries key).toNat := by
  have hfree : ¬ (line.disabled = true ∨ L.disposed = true) := by simp [henabled, hlive]
  have hset := waitingFor_set key { line with queue := line.queue ++ [job] }
    (line?_eq_some.1 hline).2
  unfold Ledger.enqueue
  simp only [hline, if_neg hfree]
  simp only [List.countP_append, List.countP_singleton] at hset
  cases hjob : job.carries key with
  | false =>
    simp only [hjob, Bool.false_eq_true, if_false] at hset
    simpa using hset
  | true =>
    simp only [hjob, if_true] at hset
    simp only [Bool.toNat_true]
    omega

/-- A task that retries no request of the window may be queued or not. -/
theorem waitingFor_enqueue_other {job : WindowJob} {key' : String} (h : job.carries key = false) :
    (L.enqueue key' job).waitingFor key = L.waitingFor key := by
  by_cases hgoes : ∃ ref line, L.line? key' = some (ref, line) ∧ line.disabled = false ∧
      L.disposed = false
  · obtain ⟨ref, line, hline, henabled, hlive⟩ := hgoes
    rw [waitingFor_enqueue hline henabled hlive, h]
    rfl
  · unfold Ledger.enqueue
    split
    · rename_i ref line hline
      split
      · rfl
      · rename_i hfree
        simp only [not_or, Bool.not_eq_true] at hfree
        exact absurd ⟨ref, line, hline, hfree⟩ hgoes
    · rfl

/-! ### What a posting keeps -/

theorem lines_enqueue {key' : String} {job : WindowJob} {line' : Line}
    (h : (L.enqueue key' job).lines[ref]? = some line') :
    ∃ line, L.lines[ref]? = some line ∧ line.disabled = line'.disabled := by
  unfold Ledger.enqueue at h
  split at h
  · rename_i r line hline
    split at h
    · exact ⟨line', h, rfl⟩
    · simp only [List.getElem?_set] at h
      split at h
      · rename_i heq
        subst heq
        split at h
        · cases h
          exact ⟨line, (line?_eq_some.1 hline).2, rfl⟩
        · cases h
      · exact ⟨line', h, rfl⟩
  · exact ⟨line', h, rfl⟩

theorem length_lines_enqueue (L : Ledger) (key' : String) (job : WindowJob) :
    (L.enqueue key' job).lines.length = L.lines.length := by
  unfold Ledger.enqueue
  split
  · split
    · rfl
    · exact List.length_set
  · rfl

theorem Posting.length_lines (h : Posting max P L L') : L.lines.length ≤ L'.lines.length := by
  cases h with
  | ask x r h => rw [(ask_frame L x r).2.1]
  | retire x r d event hr hd hid hkey hcount =>
    unfold Ledger.retire
    simp only
    split
    · rw [length_lines_enqueue]
    · exact le_rfl
  | enqueue key' job h hkey => exact (length_lines_enqueue L key' job).ge
  | newWindow key' cap h hnew hcap => simp
  | _ => simp

/-- The position of a window that still stays has not been handed out twice. -/
theorem Posting.stays (h : Posting max P L L') (href : ref < L.lines.length)
    (hs : L'.Stays key ref) : L.Stays key ref := by
  obtain ⟨hlive, htable, line, hline, henabled⟩ := hs
  cases h with
  | ask x r h =>
    obtain ⟨hwindows, hlines, hdisposed⟩ := ask_frame L x r
    exact ⟨hdisposed ▸ hlive, hwindows ▸ htable, line, hlines ▸ hline, henabled⟩
  | retire x r d event hr hd hid hkey hcount =>
    rw [retire_eq] at hlive htable
    refine ⟨hlive, htable, ?_⟩
    unfold Ledger.retire at hline
    simp only at hline
    split at hline
    · obtain ⟨line', hline', hd'⟩ := lines_enqueue hline
      exact ⟨line', hline', hd'.trans henabled⟩
    · exact ⟨line, hline, henabled⟩
  | enqueue key' job h hkey =>
    obtain ⟨line', hline', hd'⟩ := lines_enqueue hline
    exact ⟨by simpa using hlive, by simpa using htable, line', hline', hd'.trans henabled⟩
  | newWindow key' cap h hnew hcap =>
    simp only [OrderedMap.get?_set] at htable
    split at htable
    · cases htable
      exact absurd href (lt_irrefl _)
    · rw [List.getElem?_append_left href] at hline
      exact ⟨hlive, htable, line, hline, henabled⟩
  | disable r line1 hline1 =>
    refine ⟨hlive, htable, line, ?_, henabled⟩
    by_cases hr : r = ref
    · subst hr
      rw [List.getElem?_set_self href] at hline
      cases hline
      cases henabled
    · rwa [List.getElem?_set_ne hr] at hline
  | prune windows hsub hkeep hcut => exact ⟨hlive, hsub key ref htable, line, hline, henabled⟩
  | take r line1 job rest hline1 hq h =>
    refine ⟨hlive, htable, ?_⟩
    by_cases hr : r = ref
    · subst hr
      rw [List.getElem?_set_self href] at hline
      cases hline
      exact ⟨line1, hline1, henabled⟩
    · rw [List.getElem?_set_ne hr] at hline
      exact ⟨line, hline, henabled⟩
  | dispose h => cases hlive
  | close x h => exact ⟨hlive, htable, line, hline, henabled⟩

theorem Posting.anchored (h : Posting max P L L') (ha : L.Anchored) : L'.Anchored := by
  have hlength := h.length_lines
  cases h with
  | ask x r h =>
    obtain ⟨hwindows, hlines, -⟩ := ask_frame L x r
    refine ⟨fun y r' hy => ?_, fun k ref hk => ?_, fun y d hd hne => ?_⟩
    · rw [requests_ask, OrderedMap.get?_set] at hy
      rw [issued_ask, List.mem_append, List.mem_singleton]
      split at hy
      · exact .inr (by assumption)
      · exact .inl (ha.issued y r' hy)
    · rw [hlines]
      exact ha.refs k ref (hwindows ▸ hk)
    · rw [direct?_ask] at hd
      rw [hwindows]
      split at hd
      · exact (h d hd).2 hne
      · exact ha.windows y d hd hne
  | retire x r d event hr hd hid hkey hcount =>
    refine ⟨fun y r' hy => ?_, fun k ref hk => ?_, fun y d' hd' hne => ?_⟩
    · rw [retire_eq] at hy ⊢
      exact ha.issued y r' (OrderedMap.get?_delete_eq_some.1 hy).2
    · rw [retire_eq] at hk
      exact (ha.refs k ref hk).trans_le hlength
    · rw [direct?_retire] at hd'
      rw [retire_eq]
      split at hd'
      · cases hd'
      · exact ha.windows y d' hd' hne
  | enqueue key' job h hkey =>
    refine ⟨by simpa using ha.issued, fun k ref hk => ?_, by simpa using ha.windows⟩
    exact (ha.refs k ref (by simpa using hk)).trans_le hlength
  | newWindow key' cap h hnew hcap =>
    refine ⟨ha.issued, fun k ref hk => ?_, fun y d hd hne => ?_⟩
    · simp only [OrderedMap.get?_set] at hk
      split at hk
      · cases hk
        simp
      · exact (ha.refs k ref hk).trans_le hlength
    · simp only [OrderedMap.get?_set]
      split
      · exact ⟨_, rfl⟩
      · exact ha.windows y d hd hne
  | prune windows hsub hkeep hcut =>
    refine ⟨ha.issued, fun k ref hk => ha.refs k ref (hsub k ref hk), fun y d hd hne => ?_⟩
    obtain ⟨ref, href⟩ := ha.windows y d hd hne
    exact ⟨ref, (hkeep y d hd).trans href⟩
  | disable r line hline =>
    exact ⟨ha.issued, fun k ref hk => (ha.refs k ref hk).trans_le hlength, ha.windows⟩
  | take r line job rest hline hq h =>
    exact ⟨ha.issued, fun k ref hk => (ha.refs k ref hk).trans_le hlength, ha.windows⟩
  | dispose h =>
    exact ⟨fun _ _ hx => (nomatch hx), fun _ _ hk => (nomatch hk), fun _ _ hd => (nomatch hd)⟩
  | close x h =>
    refine ⟨fun y r hy => ha.issued y r (OrderedMap.get?_delete_eq_some.1 hy).2, ha.refs,
      fun y d hd hne => ha.windows y d ?_ hne⟩
    simp only [direct?, OrderedMap.get?_delete] at hd
    split at hd
    · cases hd
    · exact hd

theorem Postings.anchored (h : Postings max P L L') (ha : L.Anchored) : L'.Anchored :=
  h.keeps (fun _ _ hpost => hpost.anchored) ha

/-! ### No chain is lost -/

theorem Answered.append {event : DirectTerminalEvent} (h : L.Answered key)
    (ht : L'.terminals = L.terminals ++ [event])
    (hnew : event.windowKey = key → event.willRetry = true → 0 < L'.alive key)
    (hold : 0 < L.alive key →
      0 < L'.alive key ∨ (event.windowKey = key ∧ event.willRetry = false)) :
    L'.Answered key := by
  intro before last after hsplit hkey hretry
  rw [ht] at hsplit
  obtain rfl | ⟨front, final, rfl⟩ := after.eq_nil_or_concat
  · obtain ⟨-, hlast⟩ := List.append_inj' hsplit rfl
    cases hlast
    exact .inl (hnew hkey hretry)
  · rw [List.concat_eq_append, ← List.cons_append, ← List.append_assoc] at hsplit
    obtain ⟨hfront, hlast⟩ := List.append_inj' hsplit rfl
    cases hlast
    obtain halive | ⟨later, hlater, hfinal⟩ := h before last front hfront hkey hretry
    · refine (hold halive).imp_right fun hfinal => ⟨event, by simp, hfinal⟩
    · exact .inr ⟨later, by simp [hlater], hfinal⟩

theorem under_direct {r : OutstandingRequest} {d : DirectRequest} (hd : r.direct = some d)
    (key : String) : r.under key = decide (d.windowKey = key) := by
  simp [OutstandingRequest.under, hd]

/-- A request that ends hands its chain on, or ends it. -/
theorem carried_retire {x : RequestId} {r : OutstandingRequest} {d : DirectRequest}
    {event : DirectTerminalEvent} (hr : L.requests.get? x = some r) (hd : r.direct = some d)
    (hkey : event.windowKey = d.windowKey) (hne : key ≠ "")
    (hstays : d.windowKey = key → ∃ ref, L.Stays key ref) :
    Carried key L (L.retire x r d event) := by
  have hterminals : (L.retire x r d event).terminals = L.terminals ++ [event] := by rw [retire_eq]
  have hfinals : (L.retire x r d event).finals key =
      L.finals key + (event.windowKey = key && !event.willRetry).toNat := by
    rw [finals, finals, hterminals, List.countP_append, List.countP_singleton]
    cases (event.windowKey = key && !event.willRetry) <;> rfl
  have hasked : (L.retire x r d event).askedUnder key = L.askedUnder key := by
    rw [askedUnder, askedUnder, retire_eq]
  have hopened : (L.retire x r d event).openUnder key =
      openUnder { L with requests := L.requests.delete x } key := by
    rw [openUnder, openUnder, retire_eq]
  have hstruck : ∀ (timers : OrderedMap RequestId Nat) (terminals : List DirectTerminalEvent),
      waitingFor { L with
        requests := L.requests.delete x, timers := timers, terminals := terminals } key =
        L.waitingFor key := fun _ _ => rfl
  by_cases hd' : d.windowKey = key
  · obtain ⟨ref, hlive, htable, line, hline, henabled⟩ := hstays hd'
    have hunder : r.under key = true := by simp [under_direct hd, hd']
    have hdelete := openUnder_delete_succ hr hunder
    by_cases hretry : event.willRetry = true
    · have hwaiting : (L.retire x r d event).waitingFor key = L.waitingFor key + 1 := by
        have hcarries : (WindowJob.retry x r d).carries key = true := by
          simp [WindowJob.carries, hd']
        have hat : ∀ (timers : OrderedMap RequestId Nat) (terminals : List DirectTerminalEvent),
            line? { L with
              requests := L.requests.delete x, timers := timers, terminals := terminals }
              d.windowKey = some (ref, line) := fun _ _ =>
          line?_eq_some.2 ⟨hd' ▸ htable, hline⟩
        unfold Ledger.retire
        simp only
        rw [if_pos ⟨hretry, hd' ▸ hne⟩, waitingFor_enqueue (hat _ _) henabled (by exact hlive),
          hstruck, hcarries]
        rfl
      have halive : (L.retire x r d event).alive key = L.alive key := by
        rw [alive, alive, hopened, hwaiting]
        omega
      refine ⟨?_, hasked, fun h => h.append hterminals (fun _ _ => ?_) fun _ => .inl ?_⟩
      · rw [hfinals, halive, hretry]
        simp
      · rw [alive]
        omega
      · rw [alive]
        omega
    · have hwaiting : (L.retire x r d event).waitingFor key = L.waitingFor key := by
        unfold Ledger.retire
        simp only
        rw [if_neg (fun h => hretry h.1), hstruck]
      have halive : (L.retire x r d event).alive key + 1 = L.alive key := by
        rw [alive, alive, hopened, hwaiting]
        omega
      have hfinal : (event.windowKey = key ∧ event.willRetry = false) :=
        ⟨hkey.trans hd', by simpa using hretry⟩
      refine ⟨?_, hasked, fun h => h.append hterminals (fun _ h => absurd h hretry) fun _ =>
        .inr hfinal⟩
      rw [hfinals, hfinal.1, hfinal.2]
      simp only [decide_true, Bool.not_false, Bool.and_self, Bool.toNat_true]
      omega
  · have hother : event.windowKey ≠ key := hkey ▸ hd'
    have hwaiting : (L.retire x r d event).waitingFor key = L.waitingFor key := by
      unfold Ledger.retire
      simp only
      split
      · rw [waitingFor_enqueue_other (by simp [WindowJob.carries, hd']), hstruck]
      · exact hstruck _ _
    have halive : (L.retire x r d event).alive key = L.alive key := by
      rw [alive, alive, hopened, hwaiting, openUnder_delete]
      intro d1 hd1
      have hsame : L.direct? x = some d := by simp [direct?, hr, hd]
      rw [hsame] at hd1
      cases hd1
      exact hd'
    refine ⟨?_, hasked, fun h => h.append hterminals (fun h _ => absurd h hother) fun h => .inl ?_⟩
    · rw [hfinals, halive]
      simp [hother]
    · rwa [halive]

/-- A posting that makes no direct request and takes no retry. -/
theorem Posting.carried (h : Posting max P L L') (hne : key ≠ "") (ha : L.Anchored)
    (hn : L'.issued.Nodup) (hlive : L'.disposed = false) (hask : ∀ x d, ¬ P (.ask x d))
    (htake : ∀ ref job, P (.take ref job) → job.isRetry = false)
    (hlose : ∀ x, P (.lose x) → ∀ d, L.direct? x = some d → d.windowKey ≠ key)
    (hstays : ∀ x d, L.direct? x = some d → d.windowKey = key → ∃ ref, L.Stays key ref) :
    Carried key L L' := by
  cases h with
  | ask x r h =>
    have hdirect : r.direct = none := by
      cases hd : r.direct with
      | none => rfl
      | some d => exact absurd (h d hd).1 (hask x d)
    rw [issued_ask] at hn
    have hx : L.requests.get? x = none := by
      cases hr : L.requests.get? x with
      | none => rfl
      | some old => exact absurd rfl ((List.nodup_append.1 hn).2.2 x (ha.issued x old hr) x (by simp))
    have hask : L.ask x r = { L with requests := L.requests.set x r, issued := L.issued ++ [x] } := by
      unfold Ledger.ask
      rw [hdirect]
    refine .same ?_ ?_ ?_ ?_
    · rw [openUnder_ask hx, OutstandingRequest.under, hdirect]
      rfl
    · rw [hask]
      rfl
    · rw [hask]
    · rw [hask]
      rfl
  | close x hx =>
    refine .same (openUnder_delete fun d hd => ?_) rfl rfl rfl
    obtain hnone | hP := hx
    · rw [hnone] at hd
      cases hd
    · exact hlose x hP d hd
  | retire x r d event hr hd hid hkey hcount =>
    exact carried_retire hr hd hkey hne (hstays x d (by simp [direct?, hr, hd]))
  | enqueue key' job h hkey =>
    refine .same (by simp [openUnder]) ?_ (by simp) (by simp [askedUnder])
    exact waitingFor_enqueue_other (WindowJob.carries_of_isRetry h key)
  | newWindow key' cap h hnew hcap => exact .same rfl (by simp [waitingFor]) rfl rfl
  | disable r line hline =>
    refine .same rfl ?_ rfl rfl
    have hset := waitingFor_set key { line with disabled := true } hline
    simpa using hset
  | prune windows hsub hkeep hcut => exact .same rfl rfl rfl rfl
  | take r line job rest hline hq h =>
    refine .same rfl ?_ rfl rfl
    have hset := waitingFor_set key { line with queue := rest } hline
    rw [hq, List.countP_cons, WindowJob.carries_of_isRetry (htake r job h) key] at hset
    simpa using hset
  | dispose h => cases hlive

theorem Posting.direct?_le (h : Posting max P L L') (hask : ∀ x d, ¬ P (.ask x d)) {x : RequestId}
    {d : DirectRequest} (hd : L'.direct? x = some d) : L.direct? x = some d := by
  cases h with
  | ask y r h =>
    rw [direct?_ask] at hd
    split at hd
    · exact absurd (h d hd).1 (hask y d)
    · exact hd
  | close y h =>
    simp only [direct?, OrderedMap.get?_delete] at hd
    split at hd
    · cases hd
    · exact hd
  | retire y r d event hr hdirect hid hkey hcount =>
    rw [direct?_retire] at hd
    split at hd
    · cases hd
    · exact hd
  | enqueue key job h hkey => simpa using hd
  | dispose h => cases hd
  | _ => exact hd

theorem Postings.grows (h : Postings max P L L') (hask : ∀ x d, ¬ P (.ask x d)) :
    L.lines.length ≤ L'.lines.length ∧
      ∀ x d, L'.direct? x = some d → L.direct? x = some d := by
  induction h with
  | refl => exact ⟨le_rfl, fun _ _ => id⟩
  | tail _ hlast ih =>
    exact ⟨ih.1.trans hlast.length_lines, fun x d hd => ih.2 x d (hlast.direct?_le hask hd)⟩

theorem Posting.live_of (h : Posting max P L L') (hlive : L'.disposed = false) :
    L.disposed = false := by
  cases h with
  | ask x r h => exact (ask_frame L x r).2.2 ▸ hlive
  | retire x r d event hr hd hid hkey hcount =>
    rw [retire_eq] at hlive
    exact hlive
  | enqueue key job h hkey => simpa using hlive
  | dispose h => cases hlive
  | _ => exact hlive

/-- A stretch of code that makes no direct request and takes no retry, while the window stays
where it is. -/
theorem Postings.carried (h : Postings max P L L') (hne : key ≠ "") (ha : L.Anchored)
    (hn : L'.issued.Nodup) (hlive : L'.disposed = false) (hask : ∀ x d, ¬ P (.ask x d))
    (htake : ∀ ref job, P (.take ref job) → job.isRetry = false)
    (hlose : ∀ x, P (.lose x) → ∀ d, L.direct? x = some d → d.windowKey ≠ key)
    (hstays : ∀ ref, L.windows.get? key = some ref → L'.Stays key ref) : Carried key L L' := by
  induction h with
  | refl => exact .refl key L
  | @tail M N hfirst hlast ih =>
    have hmid := Postings.grows hfirst hask
    have hback : ∀ ref, L.windows.get? key = some ref → M.Stays key ref := fun ref href =>
      hlast.stays ((ha.refs key ref href).trans_le hmid.1) (hstays ref href)
    have hmidlive : M.disposed = false := hlast.live_of hlive
    refine (ih (hn.sublist hlast.issued_prefix.sublist) hmidlive hback).trans ?_
    refine hlast.carried hne (Postings.anchored hfirst ha) hn hlive hask htake ?_ ?_
    · exact fun x hx d hd => hlose x hx d (hmid.2 x d hd)
    · intro x d hd hkey
      obtain ⟨ref, href⟩ := ha.windows x d (hmid.2 x d hd) (hkey ▸ hne)
      exact ⟨ref, hback ref (hkey ▸ href)⟩

/-! ### Requests that are made -/

/-- One request is entered. A window may be opened for it. -/
def Enters (under : Option String) (L L' : Ledger) : Prop :=
  ∃ M x r, (M = L ∨ ∃ key cap, M = { L with
      windows := L.windows.set key L.lines.length, lines := L.lines ++ [⟨[], false, cap⟩] }) ∧
    r.direct.map (·.windowKey) = under ∧ L' = M.ask x r

theorem Enters.issued {under : Option String} (h : Enters under L L') :
    ∃ x, L'.issued = L.issued ++ [x] := by
  obtain ⟨M, x, r, rfl | ⟨key, cap, rfl⟩, -, rfl⟩ := h
  · exact ⟨x, issued_ask ..⟩
  · exact ⟨x, issued_ask ..⟩

theorem Enters.counts {under : Option String} (h : Enters under L L') (ha : L.Anchored)
    (hn : L'.issued.Nodup) (key : String) :
    L'.terminals = L.terminals ∧ L'.alive key = L.alive key + (under = some key : Bool).toNat ∧
      L'.askedUnder key = L.askedUnder key + (under = some key : Bool).toNat := by
  obtain ⟨M, x, r, hM, rfl, rfl⟩ := h
  have hsame : M.requests = L.requests ∧ M.terminals = L.terminals ∧ M.issued = L.issued ∧
      M.armed = L.armed ∧ M.waitingFor key = L.waitingFor key := by
    obtain rfl | ⟨key', cap, rfl⟩ := hM
    · exact ⟨rfl, rfl, rfl, rfl, rfl⟩
    · exact ⟨rfl, rfl, rfl, rfl, by simp [waitingFor]⟩
  obtain ⟨hrequests, hterminals, hissued, harmed, hwaiting⟩ := hsame
  have hx : M.requests.get? x = none := by
    rw [issued_ask, hissued] at hn
    rw [hrequests]
    cases hr : L.requests.get? x with
    | none => rfl
    | some old => exact absurd rfl ((List.nodup_append.1 hn).2.2 x (ha.issued x old hr) x (by simp))
  have hlines : (M.ask x r).waitingFor key = M.waitingFor key := by
    rw [waitingFor, waitingFor, (ask_frame M x r).2.1]
  have hopen : M.openUnder key = L.openUnder key := by rw [openUnder, openUnder, hrequests]
  refine ⟨?_, ?_, ?_⟩
  · rw [← hterminals]
    unfold Ledger.ask
    split <;> rfl
  · rw [alive, alive, openUnder_ask hx, hlines, hwaiting, hopen, OutstandingRequest.under]
    omega
  · rw [askedUnder, askedUnder, ← harmed]
    unfold Ledger.ask
    cases hd : r.direct with
    | none => simp
    | some d => by_cases hkey : d.windowKey = key <;> simp [hkey]

/-- Chains may begin; none is lost, and what ends is counted. -/
structure Grows (key : String) (L L' : Ledger) : Prop where
  count : L'.finals key + L'.alive key + L.askedUnder key =
    L.finals key + L.alive key + L'.askedUnder key
  asked : L.askedUnder key ≤ L'.askedUnder key
  answered : L.Answered key → L'.Answered key

theorem Carried.grows (h : Carried key L L') : Grows key L L' := by
  have hcount := h.count
  have hasked := h.asked
  exact ⟨by omega, hasked.ge, h.answered⟩

theorem Answered.more (h : L.Answered key) (ht : L'.terminals = L.terminals)
    (halive : L.alive key ≤ L'.alive key) : L'.Answered key := by
  intro before event after hsplit hkey hretry
  rw [ht] at hsplit
  exact (h before event after hsplit hkey hretry).imp_left fun hpos => hpos.trans_le halive

theorem Enters.grows {under : Option String} (h : L' = L ∨ Enters under L L') (ha : L.Anchored)
    (hn : L'.issued.Nodup) (key : String) : Grows key L L' := by
  obtain rfl | h := h
  · exact ⟨rfl, le_rfl, id⟩
  · obtain ⟨hterminals, halive, hasked⟩ := h.counts ha hn key
    have hfinals : L'.finals key = L.finals key := by rw [finals, finals, hterminals]
    exact ⟨by omega, by omega, fun hanswered => hanswered.more hterminals (by omega)⟩

/-- So many chains begin, and none is lost. -/
structure HandsOn (L : Ledger) (key : String) (n : Nat) (L' : Ledger) : Prop where
  count : L'.finals key + L'.alive key = L.finals key + L.alive key + n
  answered : L.Answered key → L'.Answered key

theorem Grows.handsOn (h : Grows key L L') :
    L.HandsOn key (L'.askedUnder key - L.askedUnder key) L' := by
  have hcount := h.count
  have hasked := h.asked
  exact ⟨by omega, h.answered⟩

/-- What is left when a task is taken out of a chain. -/
def taken (L : Ledger) (ref : Nat) (line : Line) (rest : List WindowJob) : Ledger :=
  { L with lines := L.lines.set ref { line with queue := rest } }

theorem anchored_taken {line : Line} {rest : List WindowJob} (ha : L.Anchored) :
    (L.taken ref line rest).Anchored :=
  ⟨ha.issued, fun k r hk => (ha.refs k r hk).trans_eq List.length_set.symm, ha.windows⟩

theorem alive_taken {line : Line} {job : WindowJob} {rest : List WindowJob}
    (hline : L.lines[ref]? = some line) (hq : line.queue = job :: rest) (key : String) :
    (L.taken ref line rest).alive key + (job.carries key).toNat = L.alive key := by
  have hset := waitingFor_set key { line with queue := rest } hline
  rw [hq, List.countP_cons] at hset
  have hopen : (L.taken ref line rest).openUnder key = L.openUnder key := rfl
  rw [alive, alive, hopen, taken]
  cases hjob : job.carries key with
  | false =>
    simp only [hjob, Bool.false_eq_true, if_false] at hset
    simp only [Bool.toNat_false]
    omega
  | true =>
    simp only [hjob, if_true] at hset
    simp only [Bool.toNat_true]
    omega

theorem grows_taken {line : Line} {job : WindowJob} {rest : List WindowJob}
    (hline : L.lines[ref]? = some line) (hq : line.queue = job :: rest)
    (hjob : job.carries key = false) : Grows key L (L.taken ref line rest) := by
  have halive := alive_taken hline hq key
  rw [hjob, Bool.toNat_false] at halive
  have hfinals : (L.taken ref line rest).finals key = L.finals key := rfl
  have hasked : (L.taken ref line rest).askedUnder key = L.askedUnder key := rfl
  exact ⟨by omega, hasked.ge, fun h => h.more rfl (by omega)⟩

theorem Grows.trans (h : Grows key L L') (h' : Grows key L' L'') : Grows key L L'' := by
  have hcount := h.count
  have hcount' := h'.count
  exact ⟨by omega, h.asked.trans h'.asked, fun ha => h'.answered (h.answered ha)⟩

end Ledger

/-- The key that a request with these options is made under. -/
def keyUnder (p : PeerId) (f : FileId) (options : Option DirectRequestOptions) : Option String :=
  options.map fun o => o.windowKey.getD (Engine.defaultWindowKey f p o.controllerId)

namespace Engine

variable {σ : Type} {e e' : Engine σ} {cfg : Config} {t : Turn}

theorem enters_recordRequest (e : Engine σ) (cfg : Config) (t : Turn) (p : PeerId) (f : FileId)
    (i : Nat) (x : RequestId) (options : Option DirectRequestOptions) :
    Ledger.Enters (keyUnder p f options) e.ledger (e.recordRequest cfg t p f i x options).ledger := by
  cases options with
  | none => exact ⟨e.ledger, x, ⟨f, i, p, t.clock, none, none⟩, .inl rfl, rfl, rfl⟩
  | some o =>
    have hask : ∀ (e1 : Engine σ) (r : OutstandingRequest) (d : DirectRequest),
        (e1.ledger = e.ledger ∨ ∃ key cap, e1.ledger = { e.ledger with
          windows := e.ledger.windows.set key e.ledger.lines.length
          lines := e.ledger.lines ++ [⟨[], false, cap⟩] }) →
        r.direct = some d → d.windowKey = o.windowKey.getD (defaultWindowKey f p o.controllerId) →
        Ledger.Enters (keyUnder p f (some o)) e.ledger ({ e1 with
          outstandingRequests := e1.outstandingRequests.set x r
          issued := e1.issued ++ [x]
          directTimers := e1.directTimers.set x e1.armed.length
          armed := e1.armed ++ [(x, d.windowKey)] } : Engine σ).ledger := by
      intro e1 r d hopen hd hkey
      refine ⟨e1.ledger, x, r, hopen, by simp [hd, hkey, keyUnder], ?_⟩
      simp only [Ledger.ask, hd]
      rfl
    unfold recordRequest
    simp only
    split
    · have hnew := ledger_newWindow e (o.windowKey.getD (defaultWindowKey f p o.controllerId))
        (freshWindow f p o.controllerId 1 0) rfl rfl
      exact hask _ _ ⟨_, _, _, _, _, _⟩ (.inr ⟨_, _, hnew⟩) rfl rfl
    · exact hask e _ ⟨_, _, _, _, _, _⟩ (.inl rfl) rfl rfl

theorem enters_requestNextPiece (e : Engine σ) (cfg : Config) (t : Turn) (p : PeerId) (f : FileId)
    (options : Option DirectRequestOptions) :
    (e.requestNextPiece cfg t p f options).1.ledger = e.ledger ∨
      Ledger.Enters (keyUnder p f options) e.ledger
        (e.requestNextPiece cfg t p f options).1.ledger := by
  unfold requestNextPiece
  split
  · exact .inl rfl
  · split
    · exact .inl rfl
    · exact .inl rfl
    · simp only
      split
      · exact .inl rfl
      · split
        · exact .inl rfl
        · rename_i e1 he1
          right
          rw [ledger_sendPieceRequest, ← ledger_onManager he1]
          exact enters_recordRequest e1 ..

/-- The retry of a request gets as far as its next request: no check of its closure stops it,
and there is a piece to ask the peer for. -/
structure CanRetry (e : Engine σ) (cfg : Config) (x : RequestId) (r : OutstandingRequest)
    (d : DirectRequest) : Prop where
  live : e.disposed = false
  known : x ∉ e.directTombstones
  window : ∃ ref w, e.window? d.windowKey = some (ref, w) ∧ w.disabled = false ∧
    w.generation = d.generation ∧
    (e.countOutstandingRequestsForWindow d.windowKey : Number) < w.cap
  timeout : assertPositiveSafeInteger d.timeoutMs "timeoutMs" = .ok ()
  piece : ∃ ref m scheduled, e.managers.get? r.fileId = some ref ∧
    (e.managerAt ref).resetFailedToMissing r.pieceIndex = .ok m ∧
    (OwnerFirstScheduler.mk r.peerId cfg.maxRetries).next m = .ok (some scheduled)

theorem markRequested_of_next {s : OwnerFirstScheduler} {m : PieceManager}
    {scheduled : ScheduledPiece} (h : s.next m = .ok (some scheduled)) (p : PeerId) :
    ∃ m', m.markRequested scheduled.piece.index p = .ok m' := by
  obtain ⟨i, -, hi, -⟩ := OwnerFirstScheduler.nextOf_eq_some h
  obtain ⟨-, rfl⟩ := PieceManager.requirePiece_eq_ok.1 hi
  unfold PieceManager.markRequested PieceManager.update
  rw [hi]
  exact ⟨_, rfl⟩

theorem enters_retryDirectRequest {x : RequestId} {r : OutstandingRequest} {d : DirectRequest}
    (t : Turn) (h : e.CanRetry cfg x r d) :
    Ledger.Enters (some d.windowKey) e.ledger (e.retryDirectRequest cfg t x r d).1.ledger := by
  obtain ⟨ref, w, hwindow, henabled, hgeneration, hcap⟩ := h.window
  obtain ⟨mref, m, scheduled, hcurrent, hreset, hnext⟩ := h.piece
  have hlt : mref < e.heap.length := by
    by_contra hge
    have hdefault : e.managerAt mref = ⟨"", []⟩ := by
      simp [managerAt, List.getElem?_eq_none (not_lt.1 hge)]
    rw [hdefault] at hreset
    cases hreset
  have hat : (e.putManager mref m).managerAt mref = m := by
    rw [managerAt_putManager, if_pos ⟨rfl, hlt⟩]
  obtain ⟨m', hm'⟩ := markRequested_of_next hnext r.peerId
  have hstopped : ¬ (w.disabled = true ∨ w.generation ≠ d.generation) := by
    simp [henabled, hgeneration]
  have hearly : ¬ (e.disposed = true ∨ x ∈ e.directTombstones) := by
    simp [h.live, h.known]
  have hreset' : e.resetFailedToMissing mref r.pieceIndex = .ok (e.putManager mref m) := by
    simp [resetFailedToMissing, onManager, hreset]
  have hmark : (e.putManager mref m).onManager mref
      (fun m => m.markRequested scheduled.piece.index r.peerId) =
      .ok ((e.putManager mref m).putManager mref m') := by
    simp only [onManager, hat, hm']
  have hrequire : (e.putManager mref m).requireManager r.fileId = .ok mref := by
    have hsame : (e.putManager mref m).managers = e.managers := rfl
    simp only [requireManager, hsame, hcurrent]
  have hledger : ((e.putManager mref m).putManager mref m').ledger = e.ledger := rfl
  unfold retryDirectRequest
  simp only [if_neg hearly, hwindow, if_neg hstopped, if_neg (not_le.2 hcap), hcurrent, hreset']
  unfold requestNextPiece
  simp only [hrequire, hat, hnext, Option.bind_some, h.timeout, hmark]
  rw [ledger_sendPieceRequest, ← hledger]
  exact enters_recordRequest _ cfg t r.peerId r.fileId _ _
    (some ⟨some d.timeoutMs, d.controllerId, some d.windowKey, d.retryCount + 1⟩)

theorem enters_fillWindow (e : Engine σ) (cfg : Config) (t : Turn) (window : Nat) (key : String)
    (p : PeerId) (f : FileId) (options : DirectRequestOptions) (scheduled : List ScheduledPiece) :
    (e.fillWindow cfg t window key p f options scheduled).1.ledger = e.ledger ∨
      Ledger.Enters (some key) e.ledger
        (e.fillWindow cfg t window key p f options scheduled).1.ledger := by
  unfold fillWindow
  simp only
  split
  · exact enters_requestNextPiece e cfg t p f (some { options with windowKey := some key })
  · exact .inl rfl

theorem enters_windowFilled (e : Engine σ) (cfg : Config) (t : Turn) (window : Nat) (key : String)
    (p : PeerId) (f : FileId) (options : DirectRequestOptions) (scheduled : List ScheduledPiece)
    (outcome : Except Failure Value) :
    (e.windowFilled cfg t window key p f options scheduled outcome).1.ledger = e.ledger ∨
      Ledger.Enters (some key) e.ledger
        (e.windowFilled cfg t window key p f options scheduled outcome).1.ledger := by
  unfold windowFilled
  split
  · exact .inl rfl
  · exact enters_fillWindow ..
  · exact .inl rfl
  · exact .inl rfl

/-- A retry that does not get that far makes no request. -/
theorem enters_of_retryDirectRequest (e : Engine σ) (cfg : Config) (t : Turn) (x : RequestId)
    (r : OutstandingRequest) (d : DirectRequest) :
    (e.retryDirectRequest cfg t x r d).1.ledger = e.ledger ∨
      Ledger.Enters (some d.windowKey) e.ledger (e.retryDirectRequest cfg t x r d).1.ledger := by
  unfold retryDirectRequest
  split
  · exact .inl rfl
  · split
    · exact .inl rfl
    · split
      · exact .inl rfl
      · split
        · exact .inl rfl
        · split
          · exact .inl rfl
          · rename_i e1 he1
            have hreset : e1.ledger = e.ledger := by
              split at he1
              · exact ledger_onManager he1
              · cases he1
                rfl
            rw [← hreset]
            exact enters_requestNextPiece e1 cfg t r.peerId r.fileId
              (some ⟨some d.timeoutMs, d.controllerId, some d.windowKey, d.retryCount + 1⟩)

/-- The window that is at work is the one the retry looks up, or another. -/
theorem CanRetry.putWindow {x : RequestId} {r : OutstandingRequest} {d : DirectRequest} {ref : Nat}
    {window : DirectWindow} (h : e.CanRetry cfg x r d) (hw : e.windowHeap[ref]? = some window)
    (queue : List WindowJob) (running : Bool) :
    (e.putWindow ref { window with queue := queue, running := running }).CanRetry cfg x r d := by
  refine ⟨h.live, h.known, ?_, h.timeout, h.piece⟩
  obtain ⟨at_, w, hwindow, hrest⟩ := h.window
  obtain ⟨htable, hat⟩ := window?_spec hwindow
  by_cases href : ref = at_
  · subst href
    rw [hw] at hat
    cases hat
    refine ⟨ref, { window with queue := queue, running := running }, ?_, hrest⟩
    have hlt := (List.getElem?_eq_some_iff.1 hw).1
    simp [window?, Engine.putWindow, htable, hlt]
  · refine ⟨at_, w, ?_, hrest⟩
    simp [window?, Engine.putWindow, htable, List.getElem?_set_ne href, hat]

end Engine

namespace World

variable {σ : Type} {w : World σ} {cfg : Config} {key : String}

/-- The action begins the retry of a request. -/
def beginsRetry (w : World σ) : Action → Bool
  | .window ref => match w.engine.windowHeap[ref]? with
    | some window => !window.running && (window.queue.head?.map WindowJob.isRetry).getD false
    | none => false
  | _ => false

variable [StorageAdapter σ]

/-- The chains of the window that begin with a step. -/
def starts (cfg : Config) (key : String) (w : World σ) (x : Turn × Action) : Nat :=
  if w.beginsRetry x.2 then 0
  else (w.step cfg x).engine.ledger.askedUnder key - w.engine.ledger.askedUnder key

def started (cfg : Config) (key : String) : World σ → List (Turn × Action) → Nat
  | _, [] => 0
  | w, x :: rest => w.starts cfg key x + (w.step cfg x).started cfg key rest

/-- A step in which the window under the key lives on: ids are not handed out twice, the window
stays in the table and takes tasks, none of its requests is dropped, and the retries that the
step begins get as far as their requests. -/
structure KeepsChains (cfg : Config) (key : String) (w : World σ) (x : Turn × Action) : Prop where
  fresh : (w.step cfg x).engine.issued.Nodup
  live : (w.step cfg x).engine.disposed = false
  stays : ∀ ref, w.engine.directWindows.get? key = some ref →
    (w.step cfg x).engine.ledger.Stays key ref
  drops : ∀ y d, w.books x.2 (.lose y) ∨ w.engine.leased (.lose y) →
    w.engine.ledger.direct? y = some d → d.windowKey ≠ key
  retries : ∀ ref window y r d rest, x.2 = .window ref →
    w.engine.windowHeap[ref]? = some window → window.running = false →
    window.queue = .retry y r d :: rest → d.windowKey = key →
    window.disabled = false ∧ w.engine.CanRetry cfg y r d

variable {t : Turn} {a : Action}

/-- A step that makes no direct request and takes no retry. -/
theorem KeepsChains.carried (hk : w.KeepsChains cfg key (t, a)) (hne : key ≠ "")
    (ha : w.engine.ledger.Anchored) (hask : ∀ y d, ¬ w.books a (.ask y d))
    (htake : ∀ ref job, w.books a (.take ref job) → job.isRetry = false) :
    Ledger.Carried key w.engine.ledger (w.step cfg (t, a)).engine.ledger := by
  have hbooks : Ledger.Postings cfg.maxDirectMetadataEntries
      (fun entry => w.books a entry ∨ w.engine.leased entry) w.engine.ledger
      (w.step cfg (t, a)).engine.ledger := books_step cfg w t a
  refine hbooks.carried hne ha hk.fresh hk.live ?_ ?_ (fun y hy d => hk.drops y d hy) hk.stays
  · rintro y d (h | h)
    · exact hask y d h
    · exact h
  · rintro ref job (h | h)
    · exact htake ref job h
    · exact h.elim

omit [StorageAdapter σ] in
/-- The expiry of a request, taken out of a chain. -/
theorem grows_expiry {e : Engine σ} {x : RequestId} {ref : Nat} (hne : key ≠ "")
    (ha : e.ledger.Anchored) (hn : (e.runWindowJob cfg t ref (.expire x)).1.issued.Nodup)
    (hlive : (e.runWindowJob cfg t ref (.expire x)).1.disposed = false)
    (hstays : ∀ ref', e.directWindows.get? key = some ref' →
      (e.runWindowJob cfg t ref (.expire x)).1.ledger.Stays key ref') :
    Ledger.Grows key e.ledger (e.runWindowJob cfg t ref (.expire x)).1.ledger := by
  have hbooks : Ledger.Postings cfg.maxDirectMetadataEntries (fun _ => False) e.ledger
      (e.runWindowJob cfg t ref (.expire x)).1.ledger :=
    Engine.books_runWindowJob e ref (.expire x) fun entry h => h
  exact (hbooks.carried hne ha hn hlive (fun _ _ => id) (fun _ _ h => h.elim)
    (fun _ h => h.elim) hstays).grows

omit [StorageAdapter σ] in
/-- A retry that begins hands its chain on to a request. -/
theorem handsOn_retry {e : Engine σ} {window : DirectWindow} {ref : Nat} {rest : List WindowJob}
    {x : RequestId} {r : OutstandingRequest} {d : DirectRequest}
    (hw : e.windowHeap[ref]? = some window) (hq : window.queue = .retry x r d :: rest)
    (ha : e.ledger.Anchored) (hr : d.windowKey = key → e.CanRetry cfg x r d)
    (hn : ((e.putWindow ref { window with queue := rest, running := true }).retryDirectRequest
      cfg t x r d).1.issued.Nodup) :
    e.ledger.HandsOn key 0 ((e.putWindow ref
      { window with queue := rest, running := true }).retryDirectRequest cfg t x r d).1.ledger := by
  generalize he2 : e.putWindow ref { window with queue := rest, running := true } = e2 at hn ⊢
  have htake : e2.ledger = e.ledger.taken ref window.line rest := by
    rw [← he2]
    exact Engine.ledger_take
  have hline : e.ledger.lines[ref]? = some window.line := by simp [Engine.ledger, hw]
  have hanchored : e2.ledger.Anchored := htake ▸ Ledger.anchored_taken ha
  have hfinals : e2.ledger.finals key = e.ledger.finals key := by rw [htake]; rfl
  have halive := Ledger.alive_taken hline hq key
  rw [← htake] at halive
  by_cases hkey : d.windowKey = key
  · have hcan : e2.CanRetry cfg x r d := he2 ▸ (hr hkey).putWindow hw rest true
    have henters := Engine.enters_retryDirectRequest t hcan
    obtain ⟨hterminals, hcount, -⟩ := henters.counts hanchored hn key
    have hcarries : (WindowJob.retry x r d).carries key = true := by
      simp [WindowJob.carries, hkey]
    rw [hcarries] at halive
    simp only [hkey, decide_true, Bool.toNat_true] at hcount halive
    refine ⟨?_, fun _ _ _ _ _ _ _ => .inl (by omega)⟩
    rw [Ledger.finals, hterminals, ← Ledger.finals]
    omega
  · have hcarries : (WindowJob.retry x r d).carries key = false := by
      simp [WindowJob.carries, hkey]
    have hgrows : Ledger.Grows key e.ledger e2.ledger :=
      htake ▸ Ledger.grows_taken hline hq hcarries
    have hasked : (e2.retryDirectRequest cfg t x r d).1.ledger.askedUnder key =
        e.ledger.askedUnder key := by
      have hsame : e2.ledger.askedUnder key = e.ledger.askedUnder key := by rw [htake]; rfl
      obtain heq | henters := e2.enters_of_retryDirectRequest cfg t x r d
      · rw [heq, hsame]
      · obtain ⟨-, -, hcount⟩ := henters.counts hanchored hn key
        simpa [hkey, hsame] using hcount
    have hall := hgrows.trans
      (Ledger.Enters.grows (e2.enters_of_retryDirectRequest cfg t x r d) hanchored hn key)
    have hcount := hall.count
    exact ⟨by omega, hall.answered⟩

omit [StorageAdapter σ] in
/-- A task that retries nothing, taken out of its chain. -/
theorem grows_job {e : Engine σ} {window : DirectWindow} {ref : Nat} {job : WindowJob}
    {rest : List WindowJob} (hw : e.windowHeap[ref]? = some window) (hq : window.queue = job :: rest)
    (hne : key ≠ "") (ha : e.ledger.Anchored) (hjob : job.isRetry = false)
    (hn : ((e.putWindow ref { window with queue := rest, running := true }).runWindowJob
      cfg t ref job).1.issued.Nodup)
    (hlive : ((e.putWindow ref { window with queue := rest, running := true }).runWindowJob
      cfg t ref job).1.disposed = false)
    (hstays : ∀ ref', e.directWindows.get? key = some ref' →
      ((e.putWindow ref { window with queue := rest, running := true }).runWindowJob
        cfg t ref job).1.ledger.Stays key ref') :
    Ledger.Grows key e.ledger ((e.putWindow ref
      { window with queue := rest, running := true }).runWindowJob cfg t ref job).1.ledger := by
  have hline : e.ledger.lines[ref]? = some window.line := by simp [Engine.ledger, hw]
  have htake : (e.putWindow ref { window with queue := rest, running := true }).ledger =
      e.ledger.taken ref window.line rest := Engine.ledger_take
  have hanchored : (e.putWindow ref
      { window with queue := rest, running := true }).ledger.Anchored :=
    htake ▸ Ledger.anchored_taken ha
  have htaken : Ledger.Grows key e.ledger (e.putWindow ref
      { window with queue := rest, running := true }).ledger :=
    htake ▸ Ledger.grows_taken hline hq (WindowJob.carries_of_isRetry hjob key)
  refine htaken.trans ?_
  cases job with
  | fill p f key' options =>
    exact Ledger.Enters.grows (Engine.enters_fillWindow ..) hanchored hn key
  | retry x r d => cases hjob
  | expire x => exact grows_expiry hne hanchored hn hlive hstays

/-- Whatever a chain starts. -/
theorem KeepsChains.window {ref : Nat} (hk : w.KeepsChains cfg key (t, .window ref))
    (hne : key ≠ "") (ha : w.engine.ledger.Anchored) :
    w.engine.ledger.HandsOn key (w.starts cfg key (t, .window ref))
      (w.step cfg (t, .window ref)).engine.ledger := by
  have hn := hk.fresh
  have hlive := hk.live
  have hstays := hk.stays
  unfold starts
  unfold step at hn hlive hstays ⊢
  simp only at hn hlive hstays ⊢
  cases hstart : w.engine.startWindowJob cfg t ref with
  | none =>
    simp only [Option.map_none, Option.getD_none, Nat.sub_self, ite_self]
    exact ⟨rfl, id⟩
  | some result =>
    simp only [hstart, Option.map_some, Option.getD_some, spawn] at hn hlive hstays ⊢
    unfold Engine.startWindowJob at hstart
    split at hstart
    · cases hstart
    · rename_i window hw
      split at hstart
      · cases hstart
      · rename_i job rest hq
        split at hstart
        · cases hstart
        · rename_i hrunning
          have hbegins : w.beginsRetry (.window ref) = job.isRetry := by
            simp [beginsRetry, hw, hq, hrunning]
          rw [hbegins]
          simp only at hstart
          split at hstart
          · rename_i hoff
            cases hstart
            have htake : (w.engine.putWindow ref
                { window with queue := rest, running := true }).ledger =
                w.engine.ledger.taken ref window.line rest := Engine.ledger_take
            have hline : w.engine.ledger.lines[ref]? = some window.line := by
              simp [Engine.ledger, hw]
            simp only [htake]
            cases hjob : job.isRetry with
            | false =>
              simp only [Bool.false_eq_true, if_false]
              exact (Ledger.grows_taken hline hq (WindowJob.carries_of_isRetry hjob key)).handsOn
            | true =>
              have hother : job.carries key = false := by
                cases job with
                | retry y r d =>
                  by_contra hcarries
                  have hkey : d.windowKey = key := by simpa [WindowJob.carries] using hcarries
                  obtain ⟨henabled, hcan⟩ := hk.retries ref window y r d rest rfl hw
                    (by simpa using hrunning) hq hkey
                  simp [henabled, Engine.putWindow, hcan.live] at hoff
                | _ => rfl
              have hgrows := Ledger.grows_taken hline hq hother
              have hcount := hgrows.count
              have hasked : (w.engine.ledger.taken ref window.line rest).askedUnder key =
                  w.engine.ledger.askedUnder key := rfl
              exact ⟨by simp only [if_true]; omega, hgrows.answered⟩
          · cases hstart
            cases hjob : job.isRetry with
            | false =>
              simp only [Bool.false_eq_true, if_false]
              exact (grows_job hw hq hne ha hjob hn hlive hstays).handsOn
            | true =>
              simp only [if_true]
              cases job with
              | retry y r d =>
                exact handsOn_retry hw hq ha (fun hkey => (hk.retries ref window y r d rest rfl hw
                  (by simpa using hrunning) hq hkey).2) hn
              | _ => cases hjob

/-- Whatever asks for a request outside the chains begins a chain. -/
theorem KeepsChains.enters {under : Option String} (hk : w.KeepsChains cfg key (t, a))
    (ha : w.engine.ledger.Anchored) (hbegins : w.beginsRetry a = false)
    (h : (w.step cfg (t, a)).engine.ledger = w.engine.ledger ∨
      Ledger.Enters under w.engine.ledger (w.step cfg (t, a)).engine.ledger) :
    w.engine.ledger.HandsOn key (w.starts cfg key (t, a)) (w.step cfg (t, a)).engine.ledger := by
  unfold starts
  rw [hbegins]
  exact (Ledger.Enters.grows h ha hk.fresh key).handsOn

theorem KeepsChains.others (hk : w.KeepsChains cfg key (t, a)) (hne : key ≠ "")
    (ha : w.engine.ledger.Anchored) (hbegins : w.beginsRetry a = false)
    (hbooks : ∀ entry, w.books a entry → entry = .dispose ∨ (∃ x, entry = .lose x) ∨
      ∃ key', entry = .opens key') :
    w.engine.ledger.HandsOn key (w.starts cfg key (t, a)) (w.step cfg (t, a)).engine.ledger := by
  unfold starts
  rw [hbegins]
  refine (hk.carried hne ha ?_ ?_).grows.handsOn
  · intro y d h
    obtain h | ⟨x, h⟩ | ⟨key', h⟩ := hbooks _ h <;> cases h
  · intro ref job h
    obtain h | ⟨x, h⟩ | ⟨key', h⟩ := hbooks _ h <;> cases h

omit [StorageAdapter σ] in
theorem lose_of_competing {e : Engine σ} {f : FileId} {i : Nat} {keep : RequestId} {entry : Entry}
    (h : e.competing f i keep entry) : ∃ x, entry = .lose x := by
  cases entry with
  | lose x => exact ⟨x, rfl⟩
  | _ => cases h

/-- One step in which the window lives on. -/
theorem KeepsChains.step (hk : w.KeepsChains cfg key (t, a)) (hne : key ≠ "")
    (ha : w.engine.ledger.Anchored) :
    w.engine.ledger.HandsOn key (w.starts cfg key (t, a)) (w.step cfg (t, a)).engine.ledger := by
  cases a with
  | window ref => exact hk.window hne ha
  | call c =>
    cases c with
    | requestNextPiece p f options =>
      exact hk.enters ha rfl (Engine.enters_requestNextPiece w.engine cfg t p f options)
    | requestPieceWindow p f options max =>
      exact hk.others hne ha rfl fun entry h => .inr (.inr ⟨_, h⟩)
    | cancelCompetingGridRequests f i keep =>
      exact hk.others hne ha rfl fun entry h => .inr (.inl (lose_of_competing h))
    | _ => exact hk.others hne ha rfl fun entry h => h.elim
  | resume i =>
    by_cases hfill : ∃ pending below window key' p f options scheduled, w.tasks[i]? =
        some ⟨pending, .fillWindow window key' p f options scheduled :: below⟩
    · obtain ⟨pending, below, window, key', p, f, options, scheduled, hi⟩ := hfill
      have henters : (w.step cfg (t, .resume i)).engine.ledger = w.engine.ledger ∨
          Ledger.Enters (some key') w.engine.ledger
            (w.step cfg (t, .resume i)).engine.ledger := by
        unfold World.step
        simp only [resumeTask, hi]
        split
        · rename_i outcome houtcome
          exact Engine.enters_windowFilled ..
        · exact .inl rfl
      exact hk.enters ha rfl henters
    · refine hk.others hne ha rfl ?_
      rintro entry ⟨pending, frame, below, hi, hframe⟩
      cases frame with
      | fillWindow window key' p f options scheduled =>
        exact absurd ⟨_, _, _, _, _, _, _, _, hi⟩ hfill
      | piecePersisted r result => exact .inr (.inl (lose_of_competing hframe))
      | disposeFlushed => exact .inl hframe.1
      | _ => cases hframe
  | message p message => exact hk.others hne ha rfl fun entry h => h.elim
  | binary p data => exact hk.others hne ha rfl fun entry h => h.elim
  | upload p => exact hk.others hne ha rfl fun entry h => h.elim
  | timer k => exact hk.others hne ha rfl fun entry h => h.elim

end World

namespace Sample

end Sample

end PonsWarp.Core
