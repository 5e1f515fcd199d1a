import PonsWarp.Scripts.EventRules

set_option autoImplicit false

/-!
What the script derives from all events of a run that the web application accepts, beside what
the application derives from them.
-/

namespace PonsWarp.Scripts

open PonsWarp.Core PonsWarp.Demo

variable {l : Language} {run : Fields} {file : String} {windowCap : Option JsValue}
  {counts : Counts} {event : Fields} {events : List Fields} {d : Derivation}

/-- The counts with more leaks. -/
def addLeaks (counts : Counts) (n : Nat) : Counts :=
  { counts with lifecycleLeaks := counts.lifecycleLeaks + n }

@[simp] theorem addLeaks_zero (counts : Counts) : addLeaks counts 0 = counts := rfl

theorem addLeaks_addLeaks (counts : Counts) (m n : Nat) :
    addLeaks (addLeaks counts m) n = addLeaks counts (m + n) := by
  simp [addLeaks, Nat.add_assoc]

theorem countEvent_addLeaks (counts : Counts) (event : Fields) (n : Nat) :
    countEvent (addLeaks counts n) event = addLeaks (countEvent counts event) n := by
  unfold countEvent addLeaks
  split_ifs <;> simp [Nat.add_right_comm]

theorem foldl_addLeaks (counts : Counts) (events : List Fields) (n : Nat) :
    events.foldl countEvent (addLeaks counts n) = addLeaks (events.foldl countEvent counts) n := by
  induction events generalizing counts with
  | nil => rfl
  | cons event rest ih => rw [List.foldl_cons, List.foldl_cons, countEvent_addLeaks, ih]

/-- A disposal that leaves work behind. -/
def leavesWork (event : Fields) : Bool := isDisposal event && !isClean event

/-- One event of the run, at its place. -/
theorem deriveStep_object {k : Nat} (hevent : eventInRun l run k event = true)
    (hd : d.previousSequence = k) : ∃ path,
    deriveStep l file run windowCap d (.object event, k) =
      { counts := addLeaks (countEvent d.counts event) (leavesWork event).toNat
        errors := d.errors ++ (deriveEvent l event path d.counts windowCap).errors
        lastController :=
          if hasType event "controller" then Fields.field? event "state" else d.lastController
        disposeCount := d.disposeCount + (isDisposal event).toNat
        previousSequence := k + 1 } := by
  simp only [eventInRun, Bool.and_eq_true, Bool.not_eq_true'] at hevent
  obtain ⟨⟨⟨hvalid, hseq⟩, hstart⟩, hend⟩ := hevent
  have hcases := validEvent hvalid
  have hat : safeInteger (Fields.field? event "atMs") = true := by
    unfold eventValid at hvalid
    simp only [Bool.and_eq_true] at hvalid
    exact safeInteger_of_integer hvalid.1.2
  refine ⟨file ++ ".events[" ++ toString k ++ "]", ?_⟩
  simp only [deriveStep, hd, hseq, hat, hstart, hend, counts_deriveEvent hcases,
    controller_deriveEvent hcases, disposed_deriveEvent hcases, leavesWork]
  by_cases hcontroller : hasType event "controller" = true
  · simp [hcontroller, report, addLeaks]
  · simp [hcontroller, report, addLeaks]

/-- What the events bring from the derivation `d` to the derivation `e`. -/
structure Brings (l : Language) (events : List Fields) (d e : Derivation) : Prop where
  counts : e.counts = addLeaks (events.foldl countEvent d.counts) (events.countP leavesWork)
  errors : (∀ event ∈ events, hasType event "scheduled" = false) →
    (e.errors = [] ↔ d.errors = [] ∧ ∀ event ∈ events,
      hasType event "direct_lifecycle_error" = true →
        l.test symbolicPattern (Fields.field? event "code") = true)
  lastController : e.lastController =
    ((events.reverse.find? (hasType · "controller")).map (Fields.field? · "state")).getD
      d.lastController
  disposeCount : e.disposeCount = d.disposeCount + events.countP isDisposal

theorem Brings.nil : Brings l [] d d := ⟨rfl, by simp, rfl, rfl⟩

theorem Brings.cons {k : Nat} (hevent : eventInRun l run k event = true)
    (hkeys : exactKeys (some (.object event)) (eventKeys event) = true)
    (hd : d.previousSequence = k) {e : Derivation}
    (h : Brings l events (deriveStep l file run windowCap d (.object event, k)) e) :
    Brings l (event :: events) d e := by
  have hcases : ValidEvent l event := by
    simp only [eventInRun, Bool.and_eq_true] at hevent
    exact validEvent hevent.1.1.1
  obtain ⟨path, hstep⟩ : ∃ path, deriveStep l file run windowCap d (.object event, k) = _ :=
    deriveStep_object hevent hd
  rw [hstep] at h
  constructor
  · rw [h.counts, foldl_addLeaks, addLeaks_addLeaks, List.foldl_cons, List.countP_cons]
    congr 1
    cases leavesWork event with
    | true => simp only [Bool.toNat_true, if_true, Nat.add_comm]
    | false => simp
  · intro hscheduled
    simp only [List.forall_mem_cons] at hscheduled ⊢
    rw [h.errors hscheduled.2, List.append_eq_nil_iff,
      errors_deriveEvent hcases hkeys hscheduled.1, and_assoc]
  · rw [h.lastController, List.reverse_cons, List.find?_append]
    cases events.reverse.find? (hasType · "controller") with
    | some found => rfl
    | none =>
      by_cases hcontroller : hasType event "controller" = true
      · simp [hcontroller]
      · simp [hcontroller]
  · rw [h.disposeCount, List.countP_cons]
    cases isDisposal event with
    | true =>
      simp only [Bool.toNat_true, if_true]
      omega
    | false => simp

/-- The whole run, by induction on the events that are left. -/
theorem brings_events {k : Nat} (hkeys : ∀ event ∈ events,
      exactKeys (some (.object event)) (eventKeys event) = true)
    (hevents : ∀ (i : Nat) (event : Fields), events[i]? = some event →
      eventInRun l run (k + i) event = true)
    (hd : d.previousSequence = k) :
    Brings l events d
      (((events.map JsValue.object).zipIdx k).foldl (deriveStep l file run windowCap) d) := by
  induction events generalizing k d with
  | nil => exact .nil
  | cons event rest ih =>
    simp only [List.forall_mem_cons] at hkeys
    have hevent : eventInRun l run k event = true := hevents 0 event rfl
    obtain ⟨path, hstep⟩ : ∃ path, deriveStep l file run windowCap d (.object event, k) = _ :=
      deriveStep_object hevent hd
    rw [List.map_cons, List.zipIdx_cons, List.foldl_cons]
    refine .cons hevent hkeys.1 hd (ih hkeys.2 ?_ ?_)
    · intro i later hlater
      have hnext := hevents (i + 1) later hlater
      rwa [Nat.add_comm i 1, ← Nat.add_assoc] at hnext
    · rw [hstep]

/-! The counts of a run. -/

def Bounded (counts : Counts) (n : Nat) : Prop := ∀ entry ∈ counts.entries, entry.2 ≤ n

theorem bounded_countEvent {n : Nat} (h : Bounded counts n)
    (hscheduled : hasType event "scheduled" = false) : Bounded (countEvent counts event) (n + 1) := by
  have hreason : ∀ reason, reasonIs event reason ≤ 1 := fun reason => Bool.toNat_le _
  have hone : ∀ b : Bool, b.toNat ≤ 1 := Bool.toNat_le
  simp only [Bounded, Counts.entries, List.forall_mem_cons, List.not_mem_nil, false_implies,
    implies_true, and_true] at h
  unfold countEvent
  simp only [hscheduled, Bool.false_eq_true, if_false]
  split
  · have h1 := hreason "verified"
    have h2 := hreason "request_timeout"
    have h3 := hreason "provider_reject"
    have h4 := hreason "send_failed"
    have h5 := hreason "invalid_chunk"
    have h6 := hreason "cancelled"
    have h7 := hreason "hash_mismatch"
    have h8 := hone ((Fields.field? event "willRetry").elim false (·.isTruthy))
    simp only [Bounded, Counts.entries, List.forall_mem_cons, List.not_mem_nil, false_implies,
      implies_true, and_true]
    omega
  · have h1 := hone (Fields.isString event "status" "failed")
    split_ifs <;>
      simp only [Bounded, Counts.entries, List.forall_mem_cons, List.not_mem_nil, false_implies,
        implies_true, and_true] <;>
      omega

theorem bounded_foldl {n : Nat} (h : Bounded counts n)
    (hscheduled : ∀ event ∈ events, hasType event "scheduled" = false) :
    Bounded (events.foldl countEvent counts) (n + events.length) := by
  induction events generalizing counts n with
  | nil => exact h
  | cons event rest ih =>
    simp only [List.forall_mem_cons] at hscheduled
    have hrest := ih (bounded_countEvent h hscheduled.1) hscheduled.2
    rwa [List.length_cons, Nat.add_comm rest.length 1, ← Nat.add_assoc]

theorem bounded_countEvents (hscheduled : ∀ event ∈ events, hasType event "scheduled" = false) :
    Bounded (countEvents events) events.length := by
  have hempty : Bounded {} 0 := by
    unfold Bounded
    decide
  have hbounded := bounded_foldl hempty hscheduled
  rwa [Nat.zero_add] at hbounded

/-- All counts are within the number of the events. -/
theorem bounded_deriveCounts (hne : events ≠ [])
    (hscheduled : ∀ event ∈ events, hasType event "scheduled" = false) :
    Bounded (deriveCounts events) events.length := by
  have hbounded := bounded_countEvents hscheduled
  have hpos := List.length_pos_iff.2 hne
  simp only [Bounded, Counts.entries, List.forall_mem_cons, List.not_mem_nil, false_implies,
    implies_true, and_true] at hbounded
  unfold deriveCounts
  simp only [Bounded, Counts.entries, List.forall_mem_cons, List.not_mem_nil, false_implies,
    implies_true, and_true]
  split_ifs <;> omega

/-- A count to which each event adds one or nothing. -/
theorem count_foldl {f : Counts → Nat} {p : Fields → Bool}
    (h : ∀ event ∈ events, ∀ c, f (countEvent c event) = f c + (p event).toNat) :
    f (events.foldl countEvent counts) = f counts + events.countP p := by
  induction events generalizing counts with
  | nil => rfl
  | cons event rest ih =>
    simp only [List.forall_mem_cons] at h
    rw [List.foldl_cons, ih h.2, h.1, List.countP_cons]
    cases p event with
    | true =>
      simp only [Bool.toNat_true, if_true]
      omega
    | false => simp

/-- Each failure of the lifecycle is one leak. -/
theorem lifecycleLeaks_countEvent (h : ValidEvent l event) (c : Counts) :
    (countEvent c event).lifecycleLeaks =
      c.lifecycleLeaks + (hasType event "direct_lifecycle_error").toNat := by
  unfold countEvent
  cases h with
  | controller type => simp [type _]
  | scheduled type => simp [type _]
  | terminal type => simp [type _]
  | windowExhausted type => simp [type _]
  | watermark type =>
    simp [type _]
    split_ifs <;> rfl
  | storageWrite type => simp [type _]
  | resumeValidation type => simp [type _]
  | lifecycle type => simp [type _]
  | directLifecycleError type =>
    simp [type _]
    split_ifs <;> rfl

theorem resumeValidations_countEvent (h : ValidEvent l event) (c : Counts) :
    (countEvent c event).resumeValidations =
      c.resumeValidations + (hasType event "resume_validation").toNat := by
  unfold countEvent
  cases h with
  | controller type => simp [type _]
  | scheduled type => simp [type _]
  | terminal type => simp [type _]
  | windowExhausted type => simp [type _]
  | watermark type =>
    simp [type _]
    split_ifs <;> rfl
  | storageWrite type => simp [type _]
  | resumeValidation type => simp [type _]
  | lifecycle type => simp [type _]
  | directLifecycleError type =>
    simp [type _]
    split_ifs <;> rfl

/-! The two ways to count leaks. -/

theorem addLeaks_eq_deriveCounts (h : ∀ event ∈ events, ValidEvent l event) {disposal : Fields}
    (hdisposal : events.filter isDisposal = [disposal]) :
    addLeaks (countEvents events) (events.countP leavesWork) = deriveCounts events ↔
      events.countP (hasType · "direct_lifecycle_error") + (!isClean disposal).toNat ≤ 1 := by
  have hleaks : (countEvents events).lifecycleLeaks =
      events.countP (hasType · "direct_lifecycle_error") := by
    unfold countEvents
    rw [count_foldl fun event hevent c => lifecycleLeaks_countEvent (h event hevent) c]
    exact Nat.zero_add _
  have hwork : events.countP leavesWork = (!isClean disposal).toNat := by
    have hfilter : events.countP leavesWork = (events.filter isDisposal).countP (!isClean ·) := by
      rw [List.countP_filter]
      congr 1
      funext event
      rw [leavesWork, Bool.and_comm]
    rw [hfilter, hdisposal, List.countP_singleton]
    cases isClean disposal <;> rfl
  have hderived : deriveCounts events = { countEvents events with
      lifecycleLeaks := if 0 < events.countP (hasType · "direct_lifecycle_error") +
        (!isClean disposal).toNat then 1 else 0 } := by
    unfold deriveCounts
    simp only [hleaks, hdisposal]
    generalize events.countP (hasType · "direct_lifecycle_error") = errors
    cases hclean : isClean disposal <;> simp [hclean]
  rw [hwork, hderived, addLeaks, hleaks]
  simp only [Counts.mk.injEq, true_and]
  split_ifs <;> omega

end PonsWarp.Scripts
