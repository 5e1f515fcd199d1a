import PonsWarp.Demo.RunRecording

set_option autoImplicit false

/-!
An artifact that a run has recorded and completed is one for the validator, except that of a
successful run on the way of which something failed: this the validator refuses, and the
completion lets it pass.
-/

namespace PonsWarp.Demo

open PonsWarp.Core

variable {l : Language}

/-! Numbers. -/

theorem integer_iff {x : JsNumber} :
    integer (some (.number x)) = true ↔ ∃ n, x = .ofNat n ∧ n ≤ MAX_SAFE_INTEGER := by
  simp only [integer, Option.isSome_iff_exists, JsNumber.natural?_eq_some]

theorem lt_ofNat (m n : Nat) : (JsNumber.ofNat m).lt (.ofNat n) = decide (m < n) := by
  simp [JsNumber.ofNat, JsNumber.lt]

theorem max_ofNat (m n : Nat) : (JsNumber.ofNat m).max (.ofNat n) = .ofNat (max m n) := by
  have hle : (JsNumber.ofNat m).le (.ofNat n) = decide (m ≤ n) := by
    simp [JsNumber.ofNat, JsNumber.le]
  unfold JsNumber.max
  rw [if_neg (by simp [JsNumber.ofNat]), hle]
  by_cases h : m ≤ n
  · simp [h]
  · simp [h, Nat.max_eq_left (Nat.le_of_not_le h)]

/-- The later of two times is not before the second one. -/
theorem max_not_lt (x : JsNumber) {m n : Nat} (h : m ≤ n) :
    (x.max (.ofNat n)).lt (.ofNat m) = false := by
  have hmn : (JsNumber.ofNat n).lt (.ofNat m) = false := by
    rw [lt_ofNat]
    simpa using h
  unfold JsNumber.max
  split
  · rfl
  · split
    · exact hmn
    · rename_i hle
      cases x with
      | finite x =>
        simp only [JsNumber.ofNat, JsNumber.le, decide_eq_true_eq, not_le] at hle
        have hm : (m : Number) ≤ x := (Nat.cast_le.2 h).trans hle.le
        simpa [JsNumber.ofNat, JsNumber.lt] using hm
      | nan => rfl
      | infinity negative =>
        cases negative with
        | true => simp [JsNumber.ofNat, JsNumber.le] at hle
        | false => rfl

theorem le_of_max_eq {x : JsNumber} {n k : Nat} (h : x.max (.ofNat n) = .ofNat k) : n ≤ k := by
  have hlt := max_not_lt x (le_refl n)
  rw [h, lt_ofNat] at hlt
  simpa using hlt

/-! The events as objects. -/

theorem exactKeys_event (event : DirectRunEvent) :
    exactKeys (some (.object event.fields)) (eventKeys event.fields) = true := by
  obtain ⟨⟨kind, atMs⟩, seq⟩ := event
  cases kind <;> rfl

theorem field_seq (event : DirectRunEvent) :
    Fields.field? event.fields "seq" = some (.number event.seq) := rfl

theorem field_atMs (event : DirectRunEvent) :
    Fields.field? event.fields "atMs" = some (.number event.atMs) := rfl

theorem isDisposal_fields (event : DirectRunEvent) :
    isDisposal event.fields = event.kind.isDispose := by
  obtain ⟨⟨kind, atMs⟩, seq⟩ := event
  cases kind with
  | lifecycle status outstandingDirect activeTimers => cases status <;> rfl
  | _ => rfl

def DirectRunEventKind.isController : DirectRunEventKind → Bool
  | .controller _ => true
  | _ => false

theorem hasType_controller (event : DirectRunEvent) :
    hasType event.fields "controller" = event.kind.isController := by
  obtain ⟨⟨kind, atMs⟩, seq⟩ := event
  cases kind <;> rfl

theorem times_of_valid {event : DirectRunEvent} (h : eventValid l event.fields = true) :
    integer (some (.number event.seq)) = true ∧ integer (some (.number event.atMs)) = true := by
  unfold eventValid at h
  simp only [Bool.and_eq_true, field_seq, field_atMs] at h
  exact h.1

/-- Something failed: a resume validation, the hash of a piece, or the receipt or storage of one. -/
def DirectRunEventKind.isTrouble : DirectRunEventKind → Bool
  | .terminal .hashMismatch _ _ => true
  | .resumeValidation _ _ .failed => true
  | .directLifecycleError phase _ => phase = .receive || phase = .storage || phase = .persist
  | _ => false

def Counts.failures (c : Counts) : Nat :=
  c.resumeFailures + c.integrityFailures + c.framingFailures

theorem failures_countEvent (c : Counts) (event : DirectRunEvent) :
    (countEvent c event.fields).failures = c.failures + event.kind.isTrouble.toNat := by
  obtain ⟨⟨kind, atMs⟩, seq⟩ := event
  cases kind with
  | terminal reason retryCount willRetry =>
    have hcount : (countEvent c (DirectRunEvent.fields
        ⟨⟨.terminal reason retryCount willRetry, atMs⟩, seq⟩)).failures =
          c.resumeFailures + (c.integrityFailures + (decide (reason = .hashMismatch)).toNat) +
            c.framingFailures := by
      cases reason <;> rfl
    have htrouble : (DirectRunEventKind.terminal reason retryCount willRetry).isTrouble =
        decide (reason = .hashMismatch) := by
      cases reason <;> rfl
    rw [hcount, htrouble, Counts.failures]
    omega
  | resumeValidation verifiedPieces discardedPieces status =>
    have hcount : (countEvent c (DirectRunEvent.fields
        ⟨⟨.resumeValidation verifiedPieces discardedPieces status, atMs⟩, seq⟩)).failures =
          c.resumeFailures + (decide (status = .failed)).toNat + c.integrityFailures +
            c.framingFailures := by
      cases status <;> rfl
    have htrouble : (DirectRunEventKind.resumeValidation verifiedPieces discardedPieces
        status).isTrouble = decide (status = .failed) := by
      cases status <;> rfl
    rw [hcount, htrouble, Counts.failures]
    omega
  | directLifecycleError phase code =>
    have hcount : (countEvent c (DirectRunEvent.fields
        ⟨⟨.directLifecycleError phase code, atMs⟩, seq⟩)).failures =
          c.resumeFailures +
            (c.integrityFailures + (decide (phase = .storage || phase = .persist)).toNat) +
            (c.framingFailures + (decide (phase = .receive)).toNat) := by
      cases phase <;> rfl
    have htrouble : (DirectRunEventKind.directLifecycleError phase code).isTrouble.toNat =
        (decide (phase = .storage || phase = .persist)).toNat +
          (decide (phase = .receive)).toNat := by
      cases phase <;> rfl
    rw [hcount, htrouble, Counts.failures]
    omega
  | watermark level bufferedAmount highWaterMark lowWaterMark => cases level <;> rfl
  | _ => rfl

theorem failures_foldl (c : Counts) (events : List DirectRunEvent) :
    ((events.map DirectRunEvent.fields).foldl countEvent c).failures =
      c.failures + events.countP (·.kind.isTrouble) := by
  induction events generalizing c with
  | nil => rfl
  | cons event rest ih =>
    have hone : event.kind.isTrouble.toNat = if event.kind.isTrouble = true then 1 else 0 := by
      cases event.kind.isTrouble <;> rfl
    rw [List.map_cons, List.foldl_cons, ih, failures_countEvent, List.countP_cons, hone]
    omega

/-- The controller and the disposal add nothing to the counts. -/
theorem countEvent_of_unremarkable (c : Counts) {event : DirectRunEvent}
    (h : event.kind.isController = true ∨ event.kind.isDispose = true) :
    countEvent c event.fields = c := by
  obtain ⟨⟨kind, atMs⟩, seq⟩ := event
  cases kind with
  | controller state => rfl
  | lifecycle status outstandingDirect activeTimers => rfl
  | _ => simp [DirectRunEventKind.isController, DirectRunEventKind.isDispose] at h

theorem cleanResume_fields {transfer : RunTransfer} {event : DirectRunEvent}
    (h : event.kind.isCleanResume transfer.pieceCount = true) (rest : Fields)
    (hrest : Fields.field? rest "pieceCount" = some (.number transfer.pieceCount)) :
    cleanResume (some (.object rest)) event.fields = true := by
  obtain ⟨⟨kind, atMs⟩, seq⟩ := event
  cases kind with
  | resumeValidation verifiedPieces discardedPieces status =>
    cases status with
    | passed =>
      simp only [DirectRunEventKind.isCleanResume, Bool.and_eq_true, decide_eq_true_eq] at h
      obtain ⟨⟨rfl, hnan⟩, rfl⟩ := h
      have hverified : Fields.field? (DirectRunEvent.fields
          ⟨⟨.resumeValidation transfer.pieceCount (.ofNat 0) .passed, atMs⟩, seq⟩)
          "verifiedPieces" = some (.number transfer.pieceCount) := rfl
      have hpassed : (hasType (DirectRunEvent.fields
          ⟨⟨.resumeValidation transfer.pieceCount (.ofNat 0) .passed, atMs⟩, seq⟩)
          "resume_validation" && Fields.isString (DirectRunEvent.fields
          ⟨⟨.resumeValidation transfer.pieceCount (.ofNat 0) .passed, atMs⟩, seq⟩)
          "status" "passed") = true := rfl
      have hdiscarded : isNumber (Fields.field? (DirectRunEvent.fields
          ⟨⟨.resumeValidation transfer.pieceCount (.ofNat 0) .passed, atMs⟩, seq⟩)
          "discardedPieces") 0 = true := by
        simp [isNumber, DirectRunEvent.fields, DirectRunEventKind.fields, Fields.field?, List.lookup_cons]
      simp [cleanResume, hpassed, hverified, hdiscarded, property, hrest, strictEq, hnan]
    | failed => cases h
  | _ => cases h

/-! What holds while a run is recorded. -/

/-- A run starts with an artifact that could be published as far as its provenance goes. -/
structure ValidProvenance (a : DirectRunArtifact) : Prop where
  runId : idPattern a.runId.toList = true
  ids : ∀ text ∈ [a.suiteId, a.fixtureId, a.pairId, a.stratum, a.buildSha,
    a.environment.browserFamilyMajor, a.environment.storageKind], idPattern text.toList = true
  sha : shaPattern a.fixtureSha256.toList = true
  window : a.window = .ofNat 1 ∨ a.window = .ofNat 2
  attempt : ∃ n, a.attempt = .ofNat n ∧ 1 ≤ n ∧ n ≤ 10
  times : ∃ s t, a.startedAtMs = .ofNat s ∧ a.endedAtMs = .ofNat t ∧ s ≤ t ∧ t ≤ MAX_SAFE_INTEGER
  transfer : ∀ x ∈ [a.transfer.fileBytes, a.transfer.pieceBytes, a.transfer.pieceCount],
    integer (some (.number x)) = true

/-- The outcome that a controller event ends the run with. -/
def DirectRunEventKind.ends : DirectRunEventKind → Option DirectRunOutcome
  | .controller (.ended outcome) => some outcome
  | _ => none

/-- After the event the controller may not change its state. -/
def Absorbs (event later : DirectRunEvent) : Prop :=
  event.kind.ends ≠ none → later.kind.isController = false

/-- The artifact `a` is recorded since the artifact `start`, at the natural times `s` to `t`. -/
structure Recorded (l : Language) (start : DirectRunArtifact) (s t : Nat) (a : DirectRunArtifact) :
    Prop where
  same : a = { start with endedAtMs := .ofNat t, counts := a.counts, events := a.events }
  started : start.startedAtMs = .ofNat s
  order : s ≤ t
  safe : t ≤ MAX_SAFE_INTEGER
  verified : a.counts.verified = (countEvents (a.events.map DirectRunEvent.fields)).verified
  valid : ∀ (i : Nat) (event : DirectRunEvent), a.events[i]? = some event →
    eventValid l event.fields = true ∧ event.seq = .ofNat (i + 1)
  times : ∀ event ∈ a.events, ∃ n, event.atMs = .ofNat n ∧ s ≤ n ∧ n ≤ t

section Recording

variable {start a b : DirectRunArtifact} {s t : Nat} {event : DirectArtifactEventInput}

/-- What an event that is appended does to the artifact. -/
theorem append_eq (h : appendDirectArtifactEvent l a event = .ok b) :
    ∃ next : DirectRunEvent, next.kind = event.kind ∧
      next.atMs = (normalizeEvent event a.startedAtMs).atMs ∧
      next.seq = .ofNat (a.events.length + 1) ∧ eventValid l next.fields = true ∧
      (∀ e ∈ a.events, e.kind.isDispose = false) ∧
      b = { a with
        endedAtMs := a.endedAtMs.max next.atMs
        counts := deriveCounts ((a.events ++ [next]).map DirectRunEvent.fields)
        events := a.events ++ [next] } := by
  unfold appendDirectArtifactEvent at h
  split at h
  · cases h
  · rename_i hdisposed
    simp only at h
    split at h
    · cases h
    · rename_i hvalid
      cases h
      refine ⟨_, rfl, rfl, rfl, by simpa using hvalid, ?_, rfl⟩
      simpa using hdisposed

theorem Recorded.append (h : Recorded l start s t a)
    (happend : appendDirectArtifactEvent l a event = .ok b)
    (htime : (normalizeEvent event a.startedAtMs).atMs.lt start.startedAtMs = false) :
    ∃ next n, next.kind = event.kind ∧ next.atMs = .ofNat n ∧
      next.atMs = (normalizeEvent event a.startedAtMs).atMs ∧
      (∀ e ∈ a.events, e.kind.isDispose = false) ∧ b.events = a.events ++ [next] ∧
      b.counts = deriveCounts (b.events.map DirectRunEvent.fields) ∧
      Recorded l start s (max t n) b := by
  obtain ⟨next, hkind, hat, hseq, hvalid, hopen, rfl⟩ := append_eq happend
  obtain ⟨n, hn, hsafe⟩ := integer_iff.1 (times_of_valid hvalid).2
  have hended : a.endedAtMs = .ofNat t := by rw [h.same]
  have hsn : s ≤ n := by
    rw [← hat, hn, h.started, lt_ofNat] at htime
    simpa using htime
  have horder := h.order
  have hsafe' := h.safe
  refine ⟨next, n, hkind, hn, hat, hopen, rfl, rfl, ?_⟩
  constructor
  · simp only [hended, hn, max_ofNat]
    conv => lhs; rw [h.same]
  · exact h.started
  · omega
  · omega
  · rfl
  · intro i e he
    rw [List.getElem?_append] at he
    split at he
    · exact h.valid i e he
    · have hi : i = a.events.length := by
        have hlt := (List.getElem?_eq_some_iff.1 he).1
        simp only [List.length_singleton] at hlt
        omega
      subst hi
      rw [Nat.sub_self] at he
      cases he
      exact ⟨hvalid, hseq⟩
  · intro e he
    rcases List.mem_append.1 he with hold | hnew
    · obtain ⟨k, hk, hsk, hkt⟩ := h.times e hold
      exact ⟨k, hk, hsk, by omega⟩
    · rw [List.mem_singleton.1 hnew]
      exact ⟨n, hn, hsn, by omega⟩

/-- A run so far: an artifact that is created, and events that are appended to it at or after its
start. Once the controller has ended the run, it adds no event. -/
inductive Grown (l : Language) (start : DirectRunArtifact) : DirectRunArtifact → Prop
  | start : Grown l start start
  | append {a b : DirectRunArtifact} {event : DirectArtifactEventInput} (h : Grown l start a)
      (happend : appendDirectArtifactEvent l a event = .ok b)
      (htime : (normalizeEvent event a.startedAtMs).atMs.lt start.startedAtMs = false)
      (hrule : event.kind.isController = true → ∀ e ∈ a.events, e.kind.ends = none) :
      Grown l start b

theorem Grown.recorded (h : Grown l start a) (hstart : ValidProvenance start)
    (hevents : start.events = []) (hcounts : start.counts = {}) :
    (∃ s t, Recorded l start s t a) ∧ a.events.Pairwise Absorbs := by
  induction h with
  | start =>
    obtain ⟨s, t, hs, ht, hst, hsafe⟩ := hstart.times
    refine ⟨⟨s, t, ⟨by rw [← ht], hs, hst, hsafe, ?_, ?_, ?_⟩⟩, ?_⟩
    · rw [hcounts, hevents]
      rfl
    · intro i e he
      rw [hevents] at he
      cases he
    · intro e he
      rw [hevents] at he
      cases he
    · rw [hevents]
      exact List.Pairwise.nil
  | append _ happend htime hrule ih =>
    obtain ⟨⟨s, t, hrecorded⟩, habsorbs⟩ := ih
    obtain ⟨next, n, hkind, -, -, -, hevents, -, hb⟩ := hrecorded.append happend htime
    refine ⟨⟨s, _, hb⟩, ?_⟩
    rw [hevents, List.pairwise_append]
    refine ⟨habsorbs, List.pairwise_singleton _ _, ?_⟩
    intro e he later hlater hends
    rw [List.mem_singleton.1 hlater, hkind]
    by_contra hcontroller
    exact hends (hrule (by simpa using hcontroller) e he)

/-! The completion. -/

variable {done : DirectRunArtifact} {evidence : CleanupEvidence} {outcome : DirectRunOutcome}
  {finalState : ControllerState} {now : JsNumber}

/-- What a completion that returns has appended. -/
theorem complete_eq
    (h : completeDirectRunArtifact l a evidence outcome finalState now = .ok done) :
    (outcome = .succeeded → JsNumber.ofNat a.counts.verified = a.transfer.pieceCount ∧
      ∃ e ∈ a.events, e.kind.isCleanResume a.transfer.pieceCount = true) ∧
    ∃ mid next,
      ((∃ e ∈ a.events, e.kind = .controller finalState) ∧ mid = a ∨
        (∀ e ∈ a.events, e.kind ≠ .controller finalState) ∧
          appendDirectArtifactEvent l a ⟨.controller finalState, now.max a.endedAtMs⟩ = .ok mid) ∧
      appendDirectArtifactEvent l mid
        ⟨.lifecycle .disposeCompleted (.ofNat 0) (.ofNat 0), now.max a.endedAtMs⟩ = .ok next ∧
      done = { next with
        outcome
        endedAtMs := (next.events.getLast?.map (·.atMs)).getD .nan
        counts := deriveCounts (next.events.map DirectRunEvent.fields) } := by
  unfold completeDirectRunArtifact at h
  split at h
  · cases h
  · rename_i hclean
    simp only [Bool.or_eq_true, Bool.not_eq_true', decide_eq_true_eq, not_or, not_not] at hclean
    obtain ⟨⟨-, houtstanding⟩, htimers⟩ := hclean
    split at h
    · cases h
    · rename_i hsuccess
      refine ⟨?_, ?_⟩
      · intro houtcome
        simp only [houtcome, decide_true, Bool.true_and, Bool.or_eq_true, decide_eq_true_eq,
          Bool.not_eq_true', not_or, not_not, List.any_eq_true, Bool.not_eq_false] at hsuccess
        exact hsuccess
      · rw [houtstanding, htimers] at h
        simp only at h
        by_cases hstate : a.events.any (·.kind = .controller finalState) = true
        · rw [if_pos hstate] at h
          simp only [List.any_eq_true, decide_eq_true_eq] at hstate
          cases hdispose : appendDirectArtifactEvent l a
              ⟨.lifecycle .disposeCompleted (.ofNat 0) (.ofNat 0), now.max a.endedAtMs⟩ with
          | error e =>
            simp only [hdispose, bind, Except.bind, reduceCtorEq] at h
          | ok next =>
            simp only [hdispose, bind, Except.bind, Except.ok.injEq] at h
            exact ⟨a, next, .inl ⟨hstate, rfl⟩, hdispose, h.symm⟩
        · rw [if_neg hstate] at h
          simp only [List.any_eq_true, decide_eq_true_eq, not_exists, not_and] at hstate
          cases hcontroller : appendDirectArtifactEvent l a
              ⟨.controller finalState, now.max a.endedAtMs⟩ with
          | error e =>
            simp only [hcontroller, bind, Except.bind, reduceCtorEq] at h
          | ok mid =>
            cases hdispose : appendDirectArtifactEvent l mid
                ⟨.lifecycle .disposeCompleted (.ofNat 0) (.ofNat 0), now.max a.endedAtMs⟩ with
            | error e =>
              simp only [hcontroller, hdispose, bind, Except.bind, reduceCtorEq] at h
            | ok next =>
              simp only [hcontroller, hdispose, bind, Except.bind, Except.ok.injEq] at h
              exact ⟨mid, next, .inr ⟨hstate, rfl⟩, hdispose, h.symm⟩

/-- The artifact `done` completes `a` at the time `n`: it has the `extra` event of the controller,
if one was missing, and the disposal as its `last` event. -/
structure Completed (l : Language) (start a : DirectRunArtifact) (outcome : DirectRunOutcome)
    (finalState : ControllerState) (s n : Nat) (extra : List DirectRunEvent)
    (last : DirectRunEvent) (done : DirectRunArtifact) : Prop where
  events : done.events = a.events ++ extra ++ [last]
  disposed : last.kind = .lifecycle .disposeCompleted (.ofNat 0) (.ofNat 0)
  controller : (extra = [] ∧ ∃ e ∈ a.events, e.kind = .controller finalState) ∨
    ∃ c, extra = [c] ∧ c.kind = .controller finalState
  undisposed : ∀ e ∈ a.events ++ extra, e.kind.isDispose = false
  outcome : done.outcome = outcome
  counts : done.counts = deriveCounts (done.events.map DirectRunEvent.fields)
  recorded : Recorded l start s n { done with outcome := start.outcome }

/-- A time that is not before the start is taken as it is. -/
theorem normalizeEvent_atMs (kind : DirectRunEventKind) {x startedAtMs : JsNumber}
    (h : x.lt startedAtMs = false) : (normalizeEvent ⟨kind, x⟩ startedAtMs).atMs = x := by
  simp [normalizeEvent, h]

theorem Recorded.dispose {mid next : DirectRunArtifact} {extra : List DirectRunEvent} {u : Nat}
    {x : JsNumber} (h : Recorded l start s u mid) (hmid : mid.events = a.events ++ extra)
    (hcontroller : (extra = [] ∧ ∃ e ∈ a.events, e.kind = .controller finalState) ∨
      ∃ c, extra = [c] ∧ c.kind = .controller finalState)
    (hx : x.lt start.startedAtMs = false) (hlate : ∀ n, x = .ofNat n → u ≤ n)
    (hdispose : appendDirectArtifactEvent l mid
      ⟨.lifecycle .disposeCompleted (.ofNat 0) (.ofNat 0), x⟩ = .ok next)
    (hdone : done = { next with
      outcome
      endedAtMs := (next.events.getLast?.map (·.atMs)).getD .nan
      counts := deriveCounts (next.events.map DirectRunEvent.fields) }) :
    ∃ n last, Completed l start a outcome finalState s n extra last done := by
  have hstarted : mid.startedAtMs = start.startedAtMs := by rw [h.same]
  have htime := normalizeEvent_atMs (.lifecycle .disposeCompleted (.ofNat 0) (.ofNat 0)) hx
  obtain ⟨last, n, hkind, hat, hx', hopen, hevents, hcounts, hnext⟩ :=
    h.append hdispose (by rw [hstarted, htime, hx])
  rw [hstarted, htime, hat] at hx'
  rw [max_eq_right (hlate n hx'.symm)] at hnext
  have hended : (next.events.getLast?.map (·.atMs)).getD .nan = .ofNat n := by
    rw [hevents]
    simp [hat]
  subst hdone
  refine ⟨n, last, ?_, hkind, hcontroller, ?_, rfl, rfl, ?_⟩
  · rw [hevents, hmid]
  · rw [← hmid]
    exact hopen
  · have hsame : ({ next with
        outcome := start.outcome
        endedAtMs := (next.events.getLast?.map (·.atMs)).getD .nan
        counts := deriveCounts (next.events.map DirectRunEvent.fields) } : DirectRunArtifact) =
        next := by
      rw [hended, ← hcounts, hnext.same]
    rw [hsame]
    exact hnext

/-- A completion that returns has completed the artifact. -/
theorem Recorded.complete (h : Recorded l start s t a)
    (hcomplete : completeDirectRunArtifact l a evidence outcome finalState now = .ok done) :
    ∃ n extra last, Completed l start a outcome finalState s n extra last done := by
  obtain ⟨-, mid, next, hmid, hdispose, hdone⟩ := complete_eq hcomplete
  have hended : a.endedAtMs = .ofNat t := by rw [h.same]
  have hstarted : a.startedAtMs = start.startedAtMs := by rw [h.same]
  have hx : (now.max a.endedAtMs).lt start.startedAtMs = false := by
    rw [hended, h.started]
    exact max_not_lt now h.order
  have hlate : ∀ n, now.max a.endedAtMs = .ofNat n → t ≤ n := by
    rw [hended]
    exact fun n hn => le_of_max_eq hn
  rcases hmid with ⟨hstate, rfl⟩ | ⟨-, hcontroller⟩
  · obtain ⟨n, last, hdone⟩ :=
      h.dispose (List.append_nil _).symm (.inl ⟨rfl, hstate⟩) hx hlate hdispose hdone
    exact ⟨n, [], last, hdone⟩
  · have htime := normalizeEvent_atMs (.controller finalState) hx
    obtain ⟨c, n, hkind, hat, hx', -, hevents, -, hnext⟩ :=
      h.append hcontroller (by rw [hstarted, htime, hx])
    rw [hstarted, htime, hat] at hx'
    rw [max_eq_right (hlate n hx'.symm)] at hnext
    have hlater : ∀ k, now.max a.endedAtMs = .ofNat k → n ≤ k := by
      intro k hk
      rw [← hx', JsNumber.ofNat_inj] at hk
      exact hk.le
    obtain ⟨k, last, hdone⟩ :=
      hnext.dispose hevents (.inr ⟨c, rfl, hkind⟩) hx hlater hdispose hdone
    exact ⟨k, [c], last, hdone⟩

/-! The validator on what was completed. -/

theorem eventObjects_map (events : List Fields) :
    eventObjects (events.map .object) = some events := by
  induction events with
  | nil => rfl
  | cons event rest ih => simp [eventObjects, ih]

/-- The disposal is the only one and the last event. -/
theorem disposals_eq {events : List DirectRunEvent} {last : DirectRunEvent}
    (h : ∀ e ∈ events, e.kind.isDispose = false) (hlast : last.kind.isDispose = true) :
    ((events ++ [last]).map DirectRunEvent.fields).filter isDisposal = [last.fields] ∧
      ((events ++ [last]).map DirectRunEvent.fields).findIdx isDisposal = events.length := by
  induction events with
  | nil => simp [isDisposal_fields, hlast, List.findIdx_cons]
  | cons event rest ih =>
    simp only [List.forall_mem_cons] at h
    obtain ⟨hfilter, hindex⟩ := ih h.2
    have hevent : isDisposal event.fields = false := by rw [isDisposal_fields, h.1]
    simp only [List.cons_append, List.map_cons, List.filter_cons, List.findIdx_cons, hevent,
      hfilter, hindex, List.length_cons]
    simp

theorem lastController_eq (before : List DirectRunEvent) {event : DirectRunEvent}
    {after : List DirectRunEvent} {state : ControllerState} (hevent : event.kind = .controller state)
    (hafter : ∀ e ∈ after, e.kind.isController = false) :
    lastController ((before ++ event :: after).map DirectRunEvent.fields) =
      some (.string state.text) := by
  have hnone : (after.map DirectRunEvent.fields).reverse.find? (hasType · "controller") = none := by
    simp only [List.find?_eq_none, List.mem_reverse, List.mem_map]
    rintro _ ⟨e, he, rfl⟩
    rw [hasType_controller, hafter e he]
    decide
  have hfound : hasType event.fields "controller" = true := by
    rw [hasType_controller, hevent]
    rfl
  have hstate : Fields.field? event.fields "state" = some (.string state.text) := by
    obtain ⟨⟨kind, atMs⟩, seq⟩ := event
    subst hevent
    rfl
  unfold lastController
  rw [List.map_append, List.map_cons, List.reverse_append, List.reverse_cons, List.append_assoc,
    List.find?_append, hnone, Option.none_or, List.singleton_append]
  simp only [List.find?_cons, hfound, Option.bind_some, hstate]

variable {s n : Nat} {extra : List DirectRunEvent} {last : DirectRunEvent}

theorem Completed.lastController
    (h : Completed l start a outcome (.ended outcome) s n extra last done)
    (habsorbs : a.events.Pairwise Absorbs) :
    lastController (done.events.map DirectRunEvent.fields) = some (.string outcome.text) := by
  have hlast : last.kind.isController = false := by
    rw [h.disposed]
    rfl
  rw [h.events]
  rcases h.controller with ⟨rfl, e, he, hkind⟩ | ⟨c, rfl, hkind⟩
  · obtain ⟨before, after, hsplit⟩ := List.append_of_mem he
    rw [hsplit, List.pairwise_append, List.pairwise_cons] at habsorbs
    have hends : e.kind.ends ≠ none := by
      rw [hkind]
      exact Option.some_ne_none _
    rw [List.append_nil, hsplit, List.append_assoc, List.cons_append]
    refine lastController_eq before hkind fun later hlater => ?_
    rcases List.mem_append.1 hlater with hafter | hlater
    · exact habsorbs.2.1.1 later hafter hends
    · rw [List.mem_singleton.1 hlater, hlast]
  · rw [List.append_assoc, List.singleton_append]
    refine lastController_eq a.events hkind fun later hlater => ?_
    rw [List.mem_singleton.1 hlater, hlast]

theorem exactKeys_artifact (a : DirectRunArtifact) :
    exactKeys (some a.toValue) ROOT_KEYS = true ∧
      exactKeys (Fields.field? a.fields "environment") ENVIRONMENT_KEYS = true ∧
      exactKeys (Fields.field? a.fields "transfer") TRANSFER_KEYS = true ∧
      exactKeys (Fields.field? a.fields "counts") COUNT_KEYS = true := ⟨rfl, rfl, rfl, rfl⟩

theorem outcome_text (outcome : DirectRunOutcome) : OUTCOMES.contains outcome.text = true := by
  cases outcome <;> rfl

theorem path_text (path : DirectRunPath) : PATHS.contains path.text = true := by
  cases path <;> rfl

theorem hashMode_text (hashMode : HashMode) :
    ["sha256", "none"].contains hashMode.text = true := by
  cases hashMode <;> rfl

theorem test_string (pattern : List Char → Bool) (text : String) :
    l.test pattern (some (.string text)) = pattern text.toList := rfl

theorem identityValid_fields {b : DirectRunArtifact} (h : ValidProvenance b) :
    identityValid l b.fields = true := by
  obtain ⟨s, t, hs, ht, hst, hsafe⟩ := h.times
  obtain ⟨k, hattempt, hlow, hhigh⟩ := h.attempt
  have hids := h.ids
  simp only [List.mem_cons, List.not_mem_nil, or_false, forall_eq_or_imp, forall_eq] at hids
  obtain ⟨hsuite, hfixture, hpair, hstratum, hbuild, -, -⟩ := hids
  have hwindow : (isNumber (some (.number b.window)) 1 || isNumber (some (.number b.window)) 2) =
      true := by
    rcases h.window with hwindow | hwindow <;> simp [isNumber, hwindow]
  have hinteger : ∀ x : Nat, x ≤ MAX_SAFE_INTEGER →
      integer (some (.number (.ofNat x))) = true := fun x hx => integer_iff.2 ⟨x, rfl, hx⟩
  have hten : (10 : Nat) ≤ MAX_SAFE_INTEGER := by decide
  simp only [identityValid, DirectRunArtifact.fields, Fields.field?, List.lookup_cons, String.reduceBEq,
    test_string, h.runId, hsuite, hfixture, hpair, hstratum, hbuild, h.sha, hwindow, hattempt, hs,
    ht, hinteger k (by omega), hinteger s (by omega), hinteger t hsafe, Language.less, lt_ofNat,
    isOneOf, outcome_text]
  simp [SCHEMA, Nat.not_lt.2 hst, Nat.not_lt.2 hlow, Nat.not_lt.2 hhigh]

theorem settingValid_fields {b : DirectRunArtifact} (h : ValidProvenance b) :
    settingValid l b.fields = true := by
  have hids := h.ids
  simp only [List.mem_cons, List.not_mem_nil, or_false, forall_eq_or_imp, forall_eq] at hids
  obtain ⟨-, -, -, -, -, hbrowser, hstorage⟩ := hids
  simp only [settingValid, DirectRunArtifact.fields, property, Fields.field?, List.lookup_cons,
    String.reduceBEq, test_string, hbrowser, hstorage, isOneOf, path_text, Bool.and_true]

theorem transferValid_fields {b : DirectRunArtifact} (h : ValidProvenance b) :
    transferValid b.fields = true := by
  have hsizes := h.transfer
  simp only [List.mem_cons, List.not_mem_nil, or_false, forall_eq_or_imp, forall_eq] at hsizes
  simp only [transferValid, DirectRunArtifact.fields, property, Fields.field?, List.lookup_cons,
    String.reduceBEq, hsizes, isOneOf, hashMode_text, Bool.and_true]

theorem Completed.provenance (h : Completed l start a outcome finalState s n extra last done)
    (hstart : ValidProvenance start) : ValidProvenance done := by
  have hdone : done = { start with
      outcome := done.outcome
      endedAtMs := .ofNat n
      counts := done.counts
      events := done.events } := by
    have hsame := h.recorded.same
    have hback : done = { ({ done with outcome := start.outcome } : DirectRunArtifact) with
      outcome := done.outcome } := rfl
    rw [hback, hsame]
  rw [hdone]
  exact ⟨hstart.runId, hstart.ids, hstart.sha, hstart.window, hstart.attempt,
    ⟨s, n, h.recorded.started, rfl, h.recorded.order, h.recorded.safe⟩, hstart.transfer⟩

theorem Completed.eventsInRun (h : Completed l start a outcome finalState s n extra last done) :
    ((done.events.map DirectRunEvent.fields).mapIdx (eventInRun l done.fields)).all id = true := by
  have hstarted : Fields.field? done.fields "startedAtMs" = some (.number (.ofNat s)) := by
    have hsame := congrArg DirectRunArtifact.startedAtMs h.recorded.same
    rw [← h.recorded.started]
    exact congrArg (some ∘ JsValue.number) hsame
  have hended : Fields.field? done.fields "endedAtMs" = some (.number (.ofNat n)) := by
    have hsame := congrArg DirectRunArtifact.endedAtMs h.recorded.same
    exact congrArg (some ∘ JsValue.number) hsame
  simp only [List.all_eq_true, id]
  intro ok hok
  obtain ⟨i, hi, rfl⟩ := List.mem_mapIdx.1 hok
  have hi' : i < done.events.length := by simpa using hi
  obtain ⟨hvalid, hseq⟩ := h.recorded.valid i _ (List.getElem?_eq_getElem hi')
  obtain ⟨k, hk, hsk, hkn⟩ := h.recorded.times _ (List.getElem_mem hi')
  rw [List.getElem_map]
  simp only [eventInRun, hvalid, field_seq, field_atMs, hseq, hk, hstarted, hended,
    Language.less, lt_ofNat, isNumber]
  simp [Nat.not_lt.2 hsk, Nat.not_lt.2 hkn]

theorem Completed.finalStateValid
    (h : Completed l start a outcome (.ended outcome) s n extra last done)
    (habsorbs : a.events.Pairwise Absorbs) :
    Demo.finalStateValid done.fields (done.events.map DirectRunEvent.fields) = true := by
  have hlast : last.kind.isDispose = true := by
    rw [h.disposed]
    rfl
  obtain ⟨hfilter, hindex⟩ := disposals_eq h.undisposed hlast
  have hcontroller := h.lastController habsorbs
  have houtcome : Fields.field? done.fields "outcome" = some (.string outcome.text) := by
    rw [← h.outcome]
    rfl
  rw [← h.events] at hfilter hindex
  have hlength : done.events.length = (a.events ++ extra).length + 1 := by
    rw [h.events, List.length_append, List.length_singleton]
  simp only [Demo.finalStateValid, hfilter, hindex, hcontroller, houtcome, isOneOf, outcome_text,
    strictEq, List.length_map, hlength]
  simp

theorem sameJson_entries (c : Counts) :
    sameJson (some (.object (c.entries.map fun (key, n) => (key, .number (.ofNat n))))) c = true :=
  decide_eq_true (by rw [List.map_map]; rfl)

/-- What the completion adds changes no count but that of the leaks. -/
theorem Completed.countEvents (h : Completed l start a outcome finalState s n extra last done) :
    countEvents (done.events.map DirectRunEvent.fields) =
      countEvents (a.events.map DirectRunEvent.fields) := by
  have hlast : ∀ c, countEvent c last.fields = c := by
    refine fun c => countEvent_of_unremarkable c (.inr ?_)
    rw [h.disposed]
    rfl
  have hextra : ∀ c, (extra.map DirectRunEvent.fields).foldl countEvent c = c := by
    intro c
    rcases h.controller with ⟨rfl, -⟩ | ⟨e, rfl, hkind⟩
    · rfl
    · refine countEvent_of_unremarkable c (.inl ?_)
      rw [hkind]
      rfl
  rw [h.events, List.map_append, List.map_append]
  unfold Demo.countEvents
  rw [List.foldl_append, List.foldl_append, hextra]
  exact hlast _

theorem failureCount_entries (c : Counts) :
    failureCount (some (.object (c.entries.map fun (key, n) => (key, .number (.ofNat n))))) =
      .ofNat c.failures := by
  have hadd : ∀ m n : Nat, (JsNumber.ofNat m).add (.ofNat n) = .ofNat (m + n) := by
    intro m n
    simp [JsNumber.ofNat, JsNumber.add]
  have hfold : failureCount (some (.object (c.entries.map fun (key, n) =>
      (key, .number (.ofNat n))))) = (((JsNumber.ofNat 0).add (.ofNat c.resumeFailures)).add
        (.ofNat c.integrityFailures)).add (.ofNat c.framingFailures) := rfl
  rw [hfold, hadd, hadd, hadd, Nat.zero_add, Counts.failures]

theorem Completed.outcomeValid_iff
    (h : Completed l start a outcome (.ended outcome) s n extra last done)
    (hrecorded : Recorded l start s t a)
    (hsuccess : outcome = .succeeded → JsNumber.ofNat a.counts.verified = a.transfer.pieceCount ∧
      ∃ e ∈ a.events, e.kind.isCleanResume a.transfer.pieceCount = true)
    (hends : ∀ e ∈ a.events, ∀ o, e.kind.ends = some o → o = outcome) :
    outcomeValid done.fields (done.events.map DirectRunEvent.fields) = true ↔
      (outcome = .succeeded → ∀ e ∈ a.events, e.kind.isTrouble = false) := by
  have htransfer : done.transfer = a.transfer := by
    have hsame := congrArg DirectRunArtifact.transfer h.recorded.same
    have hsame' := congrArg DirectRunArtifact.transfer hrecorded.same
    exact hsame.trans hsame'.symm
  have hcounts : ∀ f : Counts → Nat, (∀ c leaks, f { c with lifecycleLeaks := leaks } = f c) →
      f done.counts = f (Demo.countEvents (a.events.map DirectRunEvent.fields)) := by
    intro f hf
    rw [h.counts, deriveCounts, hf, h.countEvents]
  have hcountsField : Fields.field? done.fields "counts" =
      some (.object (done.counts.entries.map fun (key, n) => (key, .number (.ofNat n)))) := rfl
  unfold outcomeValid
  by_cases houtcome : outcome = .succeeded
  · have hfield : Fields.isString done.fields "outcome" "succeeded" = true := by
      have htext : done.outcome.text = "succeeded" := by rw [h.outcome, houtcome]; rfl
      have hvalue : Fields.field? done.fields "outcome" = some (.string done.outcome.text) := rfl
      simp [Fields.isString, hvalue, JsValue.isString, htext]
    obtain ⟨hverified, e, he, hresume⟩ := hsuccess houtcome
    have hfailures : done.counts.failures = a.events.countP (·.kind.isTrouble) := by
      rw [hcounts Counts.failures fun _ _ => rfl, Demo.countEvents, failures_foldl]
      exact Nat.zero_add _
    have hmet : strictEq (property (Fields.field? done.fields "counts") "verified")
        (property (Fields.field? done.fields "transfer") "pieceCount") = true := by
      have hleft : property (Fields.field? done.fields "counts") "verified" =
          some (.number (.ofNat done.counts.verified)) := rfl
      have hright : property (Fields.field? done.fields "transfer") "pieceCount" =
          some (.number done.transfer.pieceCount) := rfl
      rw [hleft, hright, hcounts Counts.verified fun _ _ => rfl, ← hrecorded.verified, htransfer,
        ← hverified]
      simp [strictEq, JsNumber.ofNat]
    have hclean : (done.events.map DirectRunEvent.fields).any
        (cleanResume (Fields.field? done.fields "transfer")) = true := by
      refine List.any_eq_true.2 ⟨e.fields, List.mem_map_of_mem ?_, ?_⟩
      · rw [h.events]
        simp [he]
      · rw [← htransfer] at hresume
        exact cleanResume_fields hresume _ rfl
    rw [if_pos hfield, hmet, hclean, hcountsField, failureCount_entries, lt_ofNat, hfailures]
    simp only [Bool.and_true, Bool.not_eq_true', decide_eq_false_iff_not, Nat.not_lt,
      Nat.le_zero_eq, List.countP_eq_zero, Bool.not_eq_true, houtcome, forall_const]
  · have hfield : Fields.isString done.fields "outcome" "succeeded" ≠ true := by
      have hvalue : Fields.field? done.fields "outcome" = some (.string done.outcome.text) := rfl
      rw [h.outcome] at hvalue
      cases outcome with
      | succeeded => exact absurd rfl houtcome
      | failed => simp [Fields.isString, hvalue, JsValue.isString, DirectRunOutcome.text]
      | cancelled => simp [Fields.isString, hvalue, JsValue.isString, DirectRunOutcome.text]
    rw [if_neg hfield]
    refine iff_of_true ?_ fun hsucceeded => absurd hsucceeded houtcome
    have hstates : ∀ e ∈ done.events, e.kind ≠ .controller (.ended .succeeded) := by
      intro e he hkind
      rw [h.events] at he
      rcases List.mem_append.1 he with hold | hlast
      · rcases List.mem_append.1 hold with hold | hextra
        · refine houtcome (hends e hold .succeeded ?_).symm
          rw [hkind]
          rfl
        · rcases h.controller with ⟨rfl, -⟩ | ⟨c, rfl, hc⟩
          · cases hextra
          · rw [List.mem_singleton.1 hextra, hc] at hkind
            cases hkind
            exact houtcome rfl
      · rw [List.mem_singleton.1 hlast, h.disposed] at hkind
        cases hkind
    simp only [Bool.not_eq_true', List.any_eq_false, List.mem_map, Bool.and_eq_true, not_and]
    rintro _ ⟨e, he, rfl⟩ hcontroller hstate
    obtain ⟨⟨kind, atMs⟩, seq⟩ := e
    rw [hasType_controller] at hcontroller
    cases kind with
    | controller state =>
      have htext : decide (state.text = "succeeded") = true := hstate
      have hne := hstates _ he
      cases state with
      | ended o =>
        cases o with
        | succeeded => exact hne rfl
        | _ => exact absurd htext (by decide)
      | _ => exact absurd htext (by decide)
    | _ => cases hcontroller

end Recording

variable (l)

/-- What is recorded and completed is valid exactly if nothing failed on the way to a success. -/
theorem completed_artifact_validates_iff {runId : String} {provenance : Provenance}
    {startedNow now : JsNumber} {start a done : DirectRunArtifact} {evidence : CleanupEvidence}
    {outcome : DirectRunOutcome}
    (hcreate : createDirectRunArtifact runId provenance startedNow = .ok start)
    (hstart : ValidProvenance start) (hgrown : Grown l start a)
    (hcomplete : completeDirectRunArtifact l a evidence outcome (.ended outcome) now = .ok done)
    (hends : ∀ e ∈ a.events, ∀ o, e.kind.ends = some o → o = outcome) :
    validateDirectRunArtifact l done.toValue = true ↔
      (outcome = .succeeded → ∀ e ∈ a.events, e.kind.isTrouble = false) := by
  have hempty : start.events = [] ∧ start.counts = {} := by
    unfold createDirectRunArtifact at hcreate
    split at hcreate
    · cases hcreate
    · cases hcreate
      exact ⟨rfl, rfl⟩
  obtain ⟨⟨s, t, hrecorded⟩, habsorbs⟩ := hgrown.recorded hstart hempty.1 hempty.2
  obtain ⟨n, extra, last, h⟩ := hrecorded.complete hcomplete
  have houtcome := h.outcomeValid_iff hrecorded (complete_eq hcomplete).1 hends
  have hprovenance := h.provenance hstart
  obtain ⟨hroot, henvironment, htransfer, hcounts⟩ := exactKeys_artifact done
  have hevents : Fields.field? done.fields "events" =
      some (.array ((done.events.map DirectRunEvent.fields).map .object)) := by
    rw [List.map_map]
    rfl
  have hkeys : (done.events.map DirectRunEvent.fields).all
      (fun event => exactKeys (some (.object event)) (eventKeys event)) = true := by
    simp only [List.all_map, List.all_eq_true, Function.comp_apply, exactKeys_event, implies_true]
  have hne : done.events.map DirectRunEvent.fields ≠ [] := by
    rw [h.events]
    simp
  have hjson : sameJson (Fields.field? done.fields "counts")
      (deriveCounts (done.events.map DirectRunEvent.fields)) = true := by
    rw [← h.counts]
    exact sameJson_entries done.counts
  rw [← houtcome]
  unfold validateDirectRunArtifact DirectRunArtifact.toValue
  simp only [DirectRunArtifact.toValue] at hroot
  simp only [hroot, henvironment, htransfer, hcounts, hevents, eventObjects_map, hkeys,
    identityValid_fields hprovenance, settingValid_fields hprovenance,
    transferValid_fields hprovenance, hne, h.eventsInRun, h.finalStateValid habsorbs, hjson,
    ne_eq, not_false_eq_true, decide_true, Bool.true_and, Bool.and_true]

/-! A run of one piece. -/

namespace SampleRun

def language : Language := ⟨fun _ => "", fun _ _ => false⟩

def provenance : Provenance :=
  { suiteId := none
    fixtureId := none
    fixtureSha256 := none
    pairId := none
    stratum := none
    attempt := none
    buildSha := none
    window := none
    startedAtMs := none
    endedAtMs := none
    outcome := none
    environment := none
    path := none
    transfer := some ⟨.ofNat 1, .ofNat 1, .ofNat 1, .sha256⟩ }

def start : DirectRunArtifact :=
  { runId := "run_succeeded"
    suiteId := "local"
    fixtureId := "direct"
    fixtureSha256 := String.ofList (List.replicate 64 '0')
    pairId := "local"
    stratum := "unavailable"
    attempt := .ofNat 1
    buildSha := "local"
    window := .ofNat 1
    startedAtMs := .ofNat 0
    endedAtMs := .ofNat 0
    outcome := .failed
    environment := ⟨"unknown", "unknown"⟩
    path := .unavailable
    transfer := ⟨.ofNat 1, .ofNat 1, .ofNat 1, .sha256⟩
    counts := {}
    events := [] }

theorem created : createDirectRunArtifact "run_succeeded" provenance (.ofNat 0) = .ok start := rfl

theorem valid : ValidProvenance start := by
  refine ⟨by decide, by decide, by decide, .inl rfl, ⟨1, rfl, by decide, by decide⟩,
    ⟨0, 0, rfl, rfl, le_rfl, Nat.zero_le _⟩, ?_⟩
  simp only [start, List.mem_cons, List.not_mem_nil, or_false, forall_eq_or_imp, forall_eq]
  exact ⟨by decide +kernel, by decide +kernel, by decide +kernel⟩

/-- Events that are appended at the start. -/
def record (kinds : List DirectRunEventKind) : Except JsError DirectRunArtifact :=
  kinds.foldlM (fun a kind => appendDirectArtifactEvent language a ⟨kind, .ofNat 0⟩) start

theorem grown_foldlM {kinds : List DirectRunEventKind}
    (hkinds : ∀ kind ∈ kinds, kind.isController = false) {a b : DirectRunArtifact}
    (ha : Grown language start a) (hstarted : a.startedAtMs = start.startedAtMs)
    (h : kinds.foldlM (fun a kind => appendDirectArtifactEvent language a ⟨kind, .ofNat 0⟩) a =
      .ok b) :
    Grown language start b ∧ b.events.map (·.kind) = a.events.map (·.kind) ++ kinds := by
  induction kinds generalizing a with
  | nil =>
    cases h
    exact ⟨ha, (List.append_nil _).symm⟩
  | cons kind rest ih =>
    simp only [List.forall_mem_cons] at hkinds
    rw [List.foldlM_cons] at h
    cases hstep : appendDirectArtifactEvent language a ⟨kind, .ofNat 0⟩ with
    | error e =>
      rw [hstep] at h
      cases h
    | ok mid =>
      rw [hstep] at h
      obtain ⟨next, hkind, -, -, -, -, rfl⟩ := append_eq hstep
      have htime : (normalizeEvent ⟨kind, .ofNat 0⟩ a.startedAtMs).atMs.lt start.startedAtMs =
          false := by
        have hzero : (JsNumber.ofNat 0).lt start.startedAtMs = false := lt_ofNat 0 0
        rw [hstarted, normalizeEvent_atMs kind hzero, hzero]
      have hgrown := ha.append hstep htime fun hcontroller => by
        rw [hkinds.1] at hcontroller
        cases hcontroller
      obtain ⟨hb, hevents⟩ := ih hkinds.2 hgrown hstarted h
      refine ⟨hb, ?_⟩
      rw [hevents, List.map_append, List.map_singleton, hkind, List.append_assoc,
        List.singleton_append]

def evidence : CleanupEvidence := ⟨true, true, .ofNat 0, .ofNat 0⟩

def complete (kinds : List DirectRunEventKind) : Except JsError DirectRunArtifact := do
  let a ← record kinds
  completeDirectRunArtifact language a evidence .succeeded (.ended .succeeded) (.ofNat 0)

def verified : List DirectRunEventKind :=
  [.terminal .verified (.ofNat 0) false, .resumeValidation (.ofNat 1) (.ofNat 0) .passed]

/-- The piece comes corrupt first. -/
def recovered : List DirectRunEventKind := .terminal .hashMismatch (.ofNat 1) true :: verified

end SampleRun

theorem completed_artifact_validates_iff_sample :
    ∃ done, SampleRun.complete SampleRun.verified = .ok done ∧
      validateDirectRunArtifact SampleRun.language done.toValue = true := by
  have hkinds : ∀ kind ∈ SampleRun.verified, kind.isController = false ∧ kind.ends = none ∧
      kind.isTrouble = false := by decide
  have hok : (SampleRun.complete SampleRun.verified).isOk = true := by decide +kernel
  unfold SampleRun.complete at hok ⊢
  cases hrecord : SampleRun.record SampleRun.verified with
  | error e =>
    rw [hrecord] at hok
    cases hok
  | ok a =>
    rw [hrecord] at hok
    obtain ⟨hgrown, hevents⟩ := SampleRun.grown_foldlM (fun kind hkind => (hkinds kind hkind).1)
      .start rfl hrecord
    have hkind : ∀ e ∈ a.events, e.kind ∈ SampleRun.verified := by
      intro e he
      have hmem : e.kind ∈ a.events.map (·.kind) := List.mem_map_of_mem he
      rwa [hevents] at hmem
    cases hcomplete : completeDirectRunArtifact SampleRun.language a SampleRun.evidence .succeeded
        (.ended .succeeded) (.ofNat 0) with
    | error e =>
      change (completeDirectRunArtifact SampleRun.language a SampleRun.evidence .succeeded
        (.ended .succeeded) (.ofNat 0)).isOk = true at hok
      rw [hcomplete] at hok
      cases hok
    | ok done =>
      refine ⟨done, hcomplete, (completed_artifact_validates_iff SampleRun.language
        SampleRun.created SampleRun.valid hgrown hcomplete ?_).2 ?_⟩
      · intro e he o ho
        rw [(hkinds _ (hkind e he)).2.1] at ho
        cases ho
      · exact fun _ e he => (hkinds _ (hkind e he)).2.2

/-- A run that succeeds after a corrupt piece is completed, and then refused. -/
theorem recovered_run_is_refused :
    ¬ ∀ (l : Language) (runId : String) (provenance : Provenance) (startedNow now : JsNumber)
      (start a done : DirectRunArtifact) (evidence : CleanupEvidence)
      (outcome : DirectRunOutcome),
      createDirectRunArtifact runId provenance startedNow = .ok start → ValidProvenance start →
      Grown l start a →
      completeDirectRunArtifact l a evidence outcome (.ended outcome) now = .ok done →
      (∀ e ∈ a.events, ∀ o, e.kind.ends = some o → o = outcome) →
      validateDirectRunArtifact l done.toValue = true := by
  intro h
  have hkinds : ∀ kind ∈ SampleRun.recovered, kind.isController = false ∧ kind.ends = none := by
    decide
  have hrefused : (SampleRun.complete SampleRun.recovered).toOption.map
      (fun done => validateDirectRunArtifact SampleRun.language done.toValue) = some false := by
    decide +kernel
  unfold SampleRun.complete at hrefused
  cases hrecord : SampleRun.record SampleRun.recovered with
  | error e =>
    rw [hrecord] at hrefused
    cases hrefused
  | ok a =>
    rw [hrecord] at hrefused
    change ((completeDirectRunArtifact SampleRun.language a SampleRun.evidence .succeeded
      (.ended .succeeded) (.ofNat 0)).toOption.map _) = some false at hrefused
    obtain ⟨hgrown, hevents⟩ := SampleRun.grown_foldlM (fun kind hkind => (hkinds kind hkind).1)
      .start rfl hrecord
    cases hcomplete : completeDirectRunArtifact SampleRun.language a SampleRun.evidence .succeeded
        (.ended .succeeded) (.ofNat 0) with
    | error e =>
      rw [hcomplete] at hrefused
      cases hrefused
    | ok done =>
      rw [hcomplete] at hrefused
      have hvalid := h SampleRun.language _ _ _ _ _ a done _ _ SampleRun.created SampleRun.valid
        hgrown hcomplete (by
          intro e he o ho
          have hmem : e.kind ∈ a.events.map (·.kind) := List.mem_map_of_mem he
          rw [hevents] at hmem
          rw [(hkinds _ hmem).2] at ho
          cases ho)
      have hfalse : validateDirectRunArtifact SampleRun.language done.toValue = false := by
        simpa [Except.toOption] using hrefused
      rw [hvalid] at hfalse
      cases hfalse

end PonsWarp.Demo
