import PonsWarp.Demo.CompletedArtifacts
import PonsWarp.Scripts.PrivacyRules

set_option autoImplicit false

/-!
What the script says about one event that the web application accepts: its errors, its counts,
and whether it looks private.
-/

namespace PonsWarp.Scripts

open PonsWarp.Core PonsWarp.Demo PonsWarp.ShareCodes

variable {l : Language} {event : Fields} {path : String} {counts : Counts}
  {windowCap : Option JsValue}

theorem isString_iff {fields : Fields} {key s : String} :
    Fields.isString fields key s = true ↔ Fields.field? fields key = some (.string s) := by
  unfold Fields.isString
  cases Fields.field? fields key with
  | none => simp
  | some value => cases value <;> simp [JsValue.isString]

theorem isString_of_field {fields : Fields} {key t : String}
    (h : Fields.field? fields key = some (.string t)) (s : String) :
    Fields.isString fields key s = decide (t = s) := by
  simp [Fields.isString, h, JsValue.isString]

theorem oneOf_of_isOneOf {value : Option JsValue} {names : List String}
    (h : isOneOf value names = true) : ∃ s ∈ names, value = some (.string s) := by
  cases value with
  | none => cases h
  | some value =>
    cases value with
    | string s => exact ⟨s, List.contains_iff_mem.1 h, rfl⟩
    | _ => cases h

theorem safeInteger_of_integer {value : Option JsValue} (h : integer value = true) :
    safeInteger value = true := by
  cases value with
  | none => cases h
  | some value =>
    cases value with
    | number x =>
      obtain ⟨n, rfl, hn⟩ := integer_iff.1 h
      exact Number.isSafeInteger_natCast.2 hn
    | _ => cases h

/-- The type of the event, which answers every question for it. -/
def Typed (event : Fields) (type : String) : Prop :=
  ∀ name, hasType event name = decide (type = name)

theorem typed_of_hasType {type : String} (h : hasType event type = true) : Typed event type :=
  fun name => isString_of_field (isString_iff.1 h) name

/-- What the application has checked of an event, type by type. -/
inductive ValidEvent (l : Language) (event : Fields) : Prop
  | controller (type : Typed event "controller")
      (state : isOneOf (Fields.field? event "state") STATES = true)
  | scheduled (type : Typed event "scheduled")
      (requested : integer (Fields.field? event "requested") = true)
      (outstandingAfter : integer (Fields.field? event "outstandingAfter") = true)
  | terminal (type : Typed event "terminal")
      (reason : isOneOf (Fields.field? event "reason") TERMINAL_REASONS = true)
      (retryCount : integer (Fields.field? event "retryCount") = true)
      (willRetry : isBoolean (Fields.field? event "willRetry") = true)
  | windowExhausted (type : Typed event "window_exhausted")
  | watermark (type : Typed event "watermark")
      (level : isOneOf (Fields.field? event "level") ["high", "low"] = true)
      (bufferedAmount : integer (Fields.field? event "bufferedAmount") = true)
      (highWaterMark : integer (Fields.field? event "highWaterMark") = true)
      (lowWaterMark : integer (Fields.field? event "lowWaterMark") = true)
  | storageWrite (type : Typed event "storage_write")
      (bytes : integer (Fields.field? event "bytes") = true)
  | resumeValidation (type : Typed event "resume_validation")
      (verifiedPieces : integer (Fields.field? event "verifiedPieces") = true)
      (discardedPieces : integer (Fields.field? event "discardedPieces") = true)
      (status : isOneOf (Fields.field? event "status") ["passed", "failed"] = true)
  | lifecycle (type : Typed event "lifecycle")
      (status : isOneOf (Fields.field? event "status") LIFECYCLE_STATUSES = true)
      (outstandingDirect : integer (Fields.field? event "outstandingDirect") = true)
      (activeTimers : integer (Fields.field? event "activeTimers") = true)
  | directLifecycleError (type : Typed event "direct_lifecycle_error")
      (phase : isOneOf (Fields.field? event "phase") PHASES = true)
      (code : l.test idPattern (Fields.field? event "code") = true)

theorem validEvent (h : eventValid l event = true) : ValidEvent l event := by
  unfold eventValid at h
  simp only [Bool.and_eq_true] at h
  obtain ⟨-, h⟩ := h
  split at h
  · rename_i htype
    exact .controller (typed_of_hasType htype) h
  split at h
  · rename_i htype
    simp only [Bool.and_eq_true] at h
    exact .scheduled (typed_of_hasType htype) h.1 h.2
  split at h
  · rename_i htype
    simp only [Bool.and_eq_true] at h
    exact .terminal (typed_of_hasType htype) h.1.1 h.1.2 h.2
  split at h
  · rename_i htype
    exact .windowExhausted (typed_of_hasType htype)
  split at h
  · rename_i htype
    simp only [Bool.and_eq_true] at h
    exact .watermark (typed_of_hasType htype) h.1.1.1 h.1.1.2 h.1.2 h.2
  split at h
  · rename_i htype
    exact .storageWrite (typed_of_hasType htype) h
  split at h
  · rename_i htype
    simp only [Bool.and_eq_true] at h
    exact .resumeValidation (typed_of_hasType htype) h.1.1 h.1.2 h.2
  split at h
  · rename_i htype
    simp only [Bool.and_eq_true] at h
    exact .lifecycle (typed_of_hasType htype) h.1.1 h.1.2 h.2
  split at h
  · rename_i htype
    simp only [Bool.and_eq_true] at h
    exact .directLifecycleError (typed_of_hasType htype) h.1 h.2
  · cases h

theorem controller_deriveEvent (h : ValidEvent l event) :
    (deriveEvent l event path counts windowCap).controller =
      if hasType event "controller" then some (Fields.field? event "state") else none := by
  unfold deriveEvent
  cases h with
  | controller type => simp [type _]
  | scheduled type => simp [type _]
  | terminal type => simp [type _]
  | windowExhausted type => simp [type _]
  | watermark type => simp [type _]
  | storageWrite type => simp [type _]
  | resumeValidation type => simp [type _]
  | lifecycle type => simp [type _]
  | directLifecycleError type => simp [type _]

theorem disposed_deriveEvent (h : ValidEvent l event) :
    (deriveEvent l event path counts windowCap).disposed = isDisposal event := by
  unfold deriveEvent isDisposal
  cases h with
  | controller type => simp [type _]
  | scheduled type => simp [type _]
  | terminal type => simp [type _]
  | windowExhausted type => simp [type _]
  | watermark type => simp [type _]
  | storageWrite type => simp [type _]
  | resumeValidation type => simp [type _]
  | lifecycle type => simp [type _]
  | directLifecycleError type => simp [type _]

/-- A disposal that leaves work behind is counted by the script at once, and by the application
in the end. -/
theorem counts_deriveEvent (h : ValidEvent l event) :
    (deriveEvent l event path counts windowCap).counts =
      { countEvent counts event with
        lifecycleLeaks := (countEvent counts event).lifecycleLeaks +
          (isDisposal event && !isClean event).toNat } := by
  unfold deriveEvent countEvent isDisposal
  cases h with
  | controller type => simp [type _]
  | scheduled type => simp [type _]
  | terminal type => simp [type _]
  | windowExhausted type => simp [type _]
  | watermark type level =>
    obtain ⟨s, hs, hlevel⟩ := oneOf_of_isOneOf level
    simp only [List.mem_cons, List.not_mem_nil, or_false] at hs
    rcases hs with rfl | rfl <;> simp [type _, isString_of_field hlevel]
  | storageWrite type => simp [type _]
  | resumeValidation type => simp [type _]
  | lifecycle type => simp [type _]
  | directLifecycleError type phase =>
    obtain ⟨s, hs, hphase⟩ := oneOf_of_isOneOf phase
    simp only [PHASES, List.mem_cons, List.not_mem_nil, or_false] at hs
    rcases hs with rfl | rfl | rfl | rfl | rfl <;> simp [type _, isString_of_field hphase]

theorem nodup_eventKeys (event : Fields) : (eventKeys event).Nodup := by
  unfold eventKeys
  split_ifs <;> decide

/-- The only error: the code of a failure of the lifecycle is not the symbol that the script
wants. -/
theorem errors_deriveEvent (h : ValidEvent l event)
    (hkeys : exactKeys (some (.object event)) (eventKeys event) = true)
    (hscheduled : hasType event "scheduled" = false) :
    (deriveEvent l event path counts windowCap).errors = [] ↔
      (hasType event "direct_lifecycle_error" = true →
        l.test symbolicPattern (Fields.field? event "code") = true) := by
  have hexact : exact (some (.object event)) (eventKeys event) path = [] :=
    exact_eq_nil hkeys (nodup_eventKeys event)
  unfold eventKeys at hexact
  unfold deriveEvent
  cases h with
  | controller type state =>
    simp [type _] at hexact
    simp [type _, hexact, report_eq_nil, state]
  | scheduled type =>
    rw [type] at hscheduled
    cases hscheduled
  | terminal type reason retryCount willRetry =>
    simp [type _] at hexact
    simp [type _, hexact, report_eq_nil, reason, retryCount, willRetry]
  | windowExhausted type =>
    simp [type _] at hexact
    simp [type _, hexact]
  | watermark type level bufferedAmount highWaterMark lowWaterMark =>
    simp [type _] at hexact
    simp [type _, hexact, report_eq_nil, level, bufferedAmount, highWaterMark, lowWaterMark]
  | storageWrite type bytes =>
    simp [type _] at hexact
    simp [type _, hexact, report_eq_nil, bytes]
  | resumeValidation type verifiedPieces discardedPieces status =>
    simp [type _] at hexact
    simp [type _, hexact, report_eq_nil, verifiedPieces, discardedPieces, status]
  | lifecycle type status outstandingDirect activeTimers =>
    simp [type _] at hexact
    simp [type _, hexact, report_eq_nil, status, outstandingDirect, activeTimers]
  | directLifecycleError type phase =>
    simp [type _] at hexact
    simp [type _, hexact, report_eq_nil, phase]

theorem discreet_of_typed {type : String} (h : Typed event type)
    (htype : isPrivateText type.toList = false) : Discreet (Fields.field? event "type") := by
  have hfield := isString_iff.1 ((h type).trans (decide_eq_true rfl))
  have hone : isOneOf (some (.string type)) [type] = true := by simp [isOneOf]
  rw [hfield]
  refine discreet_of_oneOf hone ?_
  simpa using htype

/-- Nothing in an event looks private, unless the event schedules or its code does. -/
theorem discreet_event (h : ValidEvent l event)
    (hkeys : exactKeys (some (.object event)) (eventKeys event) = true)
    (hseq : integer (Fields.field? event "seq") = true)
    (hat : integer (Fields.field? event "atMs") = true)
    (hcode : hasType event "direct_lifecycle_error" = true →
      Discreet (Fields.field? event "code"))
    (hscheduled : hasType event "scheduled" = false) : Discreet (some (.object event)) := by
  have hseq' := discreet_of_integer hseq
  have hat' := discreet_of_integer hat
  refine discreet_object hkeys (nodup_eventKeys event) ?_ ?_
  · unfold eventKeys
    cases h with
    | scheduled type =>
      rw [type] at hscheduled
      cases hscheduled
    | controller type => simp only [type _]; decide +kernel
    | terminal type => simp only [type _]; decide +kernel
    | windowExhausted type => simp only [type _]; decide +kernel
    | watermark type => simp only [type _]; decide +kernel
    | storageWrite type => simp only [type _]; decide +kernel
    | resumeValidation type => simp only [type _]; decide +kernel
    | lifecycle type => simp only [type _]; decide +kernel
    | directLifecycleError type => simp only [type _]; decide +kernel
  · unfold eventKeys
    cases h with
    | controller type state =>
      have htype := discreet_of_typed type (by decide +kernel)
      have hstate := discreet_of_oneOf state (by decide +kernel)
      simp [type _, hseq', hat', htype, hstate]
    | scheduled type =>
      rw [type] at hscheduled
      cases hscheduled
    | terminal type reason retryCount willRetry =>
      have htype := discreet_of_typed type (by decide +kernel)
      have hreason := discreet_of_oneOf reason (by decide +kernel)
      simp [type _, hseq', hat', htype, hreason, discreet_of_integer retryCount,
        discreet_of_boolean willRetry]
    | windowExhausted type =>
      have htype := discreet_of_typed type (by decide +kernel)
      simp [type _, hseq', hat', htype]
    | watermark type level bufferedAmount highWaterMark lowWaterMark =>
      have htype := discreet_of_typed type (by decide +kernel)
      have hlevel := discreet_of_oneOf level (by decide +kernel)
      simp [type _, hseq', hat', htype, hlevel, discreet_of_integer bufferedAmount,
        discreet_of_integer highWaterMark, discreet_of_integer lowWaterMark]
    | storageWrite type bytes =>
      have htype := discreet_of_typed type (by decide +kernel)
      simp [type _, hseq', hat', htype, discreet_of_integer bytes]
    | resumeValidation type verifiedPieces discardedPieces status =>
      have htype := discreet_of_typed type (by decide +kernel)
      have hstatus := discreet_of_oneOf status (by decide +kernel)
      simp [type _, hseq', hat', htype, hstatus, discreet_of_integer verifiedPieces,
        discreet_of_integer discardedPieces]
    | lifecycle type status outstandingDirect activeTimers =>
      have htype := discreet_of_typed type (by decide +kernel)
      have hstatus := discreet_of_oneOf status (by decide +kernel)
      simp [type _, hseq', hat', htype, hstatus, discreet_of_integer outstandingDirect,
        discreet_of_integer activeTimers]
    | directLifecycleError type phase =>
      have htype := discreet_of_typed type (by decide +kernel)
      have hphase := discreet_of_oneOf phase (by decide +kernel)
      have hcode' := hcode ((type _).trans (decide_eq_true rfl))
      simp [type _, hseq', hat', htype, hphase, hcode']

/-- A field of every event that schedules looks private to the script. -/
theorem scheduled_is_private
    (hkeys : exactKeys (some (.object event)) (eventKeys event) = true)
    (hscheduled : hasType event "scheduled" = true) : privacy path (.object event) ≠ [] := by
  have htype := typed_of_hasType hscheduled
  have hrequested : "requested" ∈ eventKeys event := by
    unfold eventKeys
    simp [htype _]
  obtain ⟨value, hmem⟩ := field?_isSome hkeys hrequested
  rw [privacy, Ne, privacyFields_eq_nil]
  intro hall
  have hpublic := (hall _ hmem).1
  have hprivate : isPrivateField "requested" = true := by decide +kernel
  rw [hprivate] at hpublic
  cases hpublic

end PonsWarp.Scripts
