import PonsWarp.Scripts.DerivedCounts

set_option autoImplicit false

/-!
The web application and the release gate on the same evidence: of the runs that the application
accepts, the gate refuses those that schedule, those whose failures have other codes than its
own or are more than one, those whose disposal leaves work behind, and those without a name.
-/

namespace PonsWarp.Scripts

open PonsWarp.Core PonsWarp.Demo PonsWarp.ShareCodes

variable {l : Language} {run : Fields} {manifest : JsValue} {file : String}
  {events : List Fields}

/-- The events of a run, if each of them is an object. -/
def runEvents (run : Fields) : List Fields :=
  match Fields.field? run "events" with
  | some (.array items) => (eventObjects items).getD []
  | _ => []

theorem eq_of_strictEq {value : Option JsValue} {s : String}
    (h : strictEq value (some (.string s)) = true) : value = some (.string s) := by
  cases value with
  | none => cases h
  | some value =>
    cases value with
    | string t =>
      simp only [strictEq, decide_eq_true_eq] at h
      rw [h]
    | _ => cases h

/-- What the application has checked of a run. -/
structure AcceptedRun (l : Language) (run : Fields) (events : List Fields) : Prop where
  recorded : Fields.field? run "events" = some (.array (events.map .object))
  root : exactKeys (some (.object run)) ROOT_KEYS = true
  environment : exactKeys (Fields.field? run "environment") ENVIRONMENT_KEYS = true
  transfer : exactKeys (Fields.field? run "transfer") TRANSFER_KEYS = true
  counts : exactKeys (Fields.field? run "counts") COUNT_KEYS = true
  keys : ∀ event ∈ events, exactKeys (some (.object event)) (eventKeys event) = true
  identity : identityValid l run = true
  setting : settingValid l run = true
  sizes : transferValid run = true
  nonempty : events ≠ []
  inRun : ∀ (i : Nat) (event : Fields), events[i]? = some event → eventInRun l run i event = true
  final : finalStateValid run events = true
  outcome : outcomeValid run events = true
  same : sameJson (Fields.field? run "counts") (deriveCounts events) = true

theorem eventObjects_eq {items : List JsValue} (h : eventObjects items = some events) :
    items = events.map .object := by
  induction items generalizing events with
  | nil =>
    cases h
    rfl
  | cons item rest ih =>
    cases item with
    | object event =>
      simp only [eventObjects, Option.map_eq_some_iff] at h
      obtain ⟨later, hlater, rfl⟩ := h
      rw [ih hlater, List.map_cons]
    | _ => cases h

theorem acceptedRun (h : validateDirectRunArtifact l (.object run) = true) :
    AcceptedRun l run (runEvents run) := by
  unfold validateDirectRunArtifact at h
  simp only [Bool.and_eq_true] at h
  obtain ⟨⟨⟨⟨hroot, henvironment⟩, htransfer⟩, hcounts⟩, h⟩ := h
  split at h
  · rename_i items hitems
    cases hevents : eventObjects items with
    | none =>
      rw [hevents] at h
      cases h
    | some events =>
      rw [hevents] at h
      simp only [Bool.and_eq_true, List.all_eq_true, decide_eq_true_eq] at h
      obtain ⟨⟨⟨⟨⟨⟨⟨⟨hkeys, hidentity⟩, hsetting⟩, hsizes⟩, hne⟩, hin⟩, hfinal⟩, houtcome⟩,
        hsame⟩ := h
      have hrun : runEvents run = events := by simp [runEvents, hitems, hevents]
      rw [hrun]
      refine ⟨?_, hroot, henvironment, htransfer, hcounts, hkeys, hidentity, hsetting, hsizes, hne,
        ?_, hfinal, houtcome, hsame⟩
      · rw [hitems, eventObjects_eq hevents]
      · intro i event hevent
        obtain ⟨hi, rfl⟩ := List.getElem?_eq_some_iff.1 hevent
        exact hin _ (List.mem_mapIdx.2 ⟨i, hi, rfl⟩)
  · cases h

/-! What the claim takes for granted. -/

/-- The pair of a manifest is that of the run. -/
structure SamePair (l : Language) (run : Fields) (pair : JsValue) : Prop where
  stratum : strictEq (property (some pair) "stratum") (Fields.field? run "stratum") = true
  browserFamilyMajor : strictEq (property (some pair) "browserFamilyMajor")
    (property (Fields.field? run "environment") "browserFamilyMajor") = true
  storageKind : strictEq (property (some pair) "storageKind")
    (property (Fields.field? run "environment") "storageKind") = true
  path : strictEq (property (some pair) "path") (Fields.field? run "path") = true
  runId : strictEq (Fields.field? run "runId")
    ((windowKey l run).bind (element (property (some pair) "runs"))) = true
  attempt : strictEq (Fields.field? run "attempt") (property (some pair) "attempt") = true

/-- Provenance, transfer and pair of the run are those of the manifest. -/
structure SameProvenance (l : Language) (run : Fields) (manifest : JsValue) : Prop where
  suiteId : strictEq (Fields.field? run "suiteId") (property (some manifest) "suiteId") = true
  fixture : ∀ key ∈ ["fixtureId", "fixtureSha256"], strictEq (Fields.field? run key)
    (property (property (some manifest) "fixture") key) = true
  buildSha : strictEq (Fields.field? run "buildSha") (property (some manifest) "buildSha") = true
  hashMode : isOneOf (property (Fields.field? run "transfer") "hashMode") ["sha256"] = true
  transfer : ∀ key ∈ TRANSFER_KEYS, strictEq (property (Fields.field? run "transfer") key)
    (property (property (some manifest) "fixture") key) = true
  pair : ∃ pair, findPair run manifest = some pair ∧ SamePair l run pair

/-- The scheduled events stay within the cap of the window. -/
def WithinWindow (l : Language) (run : Fields) (manifest : JsValue) : Prop :=
  ∀ event ∈ runEvents run, hasType event "scheduled" = true →
    l.less (windowCap l run manifest) (Fields.field? event "outstandingAfter") = false

/-- No identifier of the run looks like an address, a URL or a secret. -/
structure DiscreetIdentifiers (run : Fields) : Prop where
  ids : ∀ key ∈ ["runId", "suiteId", "fixtureId", "pairId", "stratum", "buildSha"],
    Discreet (Fields.field? run key)
  environment : ∀ key ∈ ENVIRONMENT_KEYS, Discreet (property (Fields.field? run "environment") key)
  codes : ∀ event ∈ runEvents run, hasType event "direct_lifecycle_error" = true →
    Discreet (Fields.field? event "code")

/-- The run is one for the release gate. -/
structure GateReady (l : Language) (run : Fields) : Prop where
  unscheduled : ∀ event ∈ runEvents run, hasType event "scheduled" = false
  symbolic : ∀ event ∈ runEvents run, hasType event "direct_lifecycle_error" = true →
    l.test symbolicPattern (Fields.field? event "code") = true
  leaks : (runEvents run).countP (hasType · "direct_lifecycle_error") ≤ 1
  clean : ∀ event ∈ runEvents run, isDisposal event = true → isClean event = true
  named : Fields.field? run "runId" ≠ some .null

/-! The counts as JSON. -/

theorem eq_of_sameJson {value : Option JsValue} {c : Counts} (h : sameJson value c = true) :
    value = some (.object (c.entries.map fun (key, n) => (key, .number (.ofNat n)))) := by
  cases value with
  | none => cases h
  | some value =>
    cases value with
    | object fields =>
      have hsame := of_decide_eq_true h
      have hlength : fields.length = c.entries.length := by
        simpa only [List.length_map] using congrArg List.length hsame
      refine congrArg some (congrArg JsValue.object (List.ext_getElem (by simpa) fun i hi hi' => ?_))
      have hentry : i < c.entries.length := hlength ▸ hi
      have hat := List.getElem_of_eq hsame (by simpa using hi)
      simp only [List.getElem_map] at hat ⊢
      generalize fields[i] = field at hat ⊢
      obtain ⟨key, value⟩ := field
      simp only [Prod.mk.injEq] at hat ⊢
      obtain ⟨hkey, hvalue⟩ := hat
      cases value with
      | number x =>
        cases hvalue
        exact ⟨hkey, rfl⟩
      | _ => cases hvalue
    | _ => cases h

theorem sameJson_entries_iff {c c' : Counts} :
    sameJson (some (.object (c.entries.map fun (key, n) => (key, .number (.ofNat n))))) c' = true ↔
      c' = c := by
  constructor
  · intro h
    have hsame := eq_of_sameJson h
    cases c
    cases c'
    simp [Counts.entries, JsNumber.ofNat_inj] at hsame
    simp [hsame]
  · rintro rfl
    exact sameJson_entries c'

namespace AcceptedRun

theorem validEvents (h : AcceptedRun l run events) : ∀ event ∈ events, ValidEvent l event := by
  intro event hevent
  obtain ⟨i, hi, rfl⟩ := List.getElem_of_mem hevent
  have hin := h.inRun i _ (List.getElem?_eq_getElem hi)
  simp only [eventInRun, Bool.and_eq_true] at hin
  exact validEvent hin.1.1.1

theorem eventTimes (h : AcceptedRun l run events) : ∀ event ∈ events,
    integer (Fields.field? event "seq") = true ∧ integer (Fields.field? event "atMs") = true := by
  intro event hevent
  obtain ⟨i, hi, rfl⟩ := List.getElem_of_mem hevent
  have hin := h.inRun i _ (List.getElem?_eq_getElem hi)
  simp only [eventInRun, eventValid, Bool.and_eq_true] at hin
  exact hin.1.1.1.1

/-- The last event has the number of events as its position, a safe integer. -/
theorem length_le (h : AcceptedRun l run events) : events.length ≤ MAX_SAFE_INTEGER := by
  have hpos := List.length_pos_iff.2 h.nonempty
  have hlast := List.getElem?_eq_getElem (Nat.sub_one_lt_of_lt hpos)
  have hin := h.inRun _ _ hlast
  have hseq := (h.eventTimes _ (List.mem_of_getElem? hlast)).1
  simp only [eventInRun, Bool.and_eq_true] at hin
  have hnumber := hin.1.1.2
  cases hfield : Fields.field? (events[events.length - 1]) "seq" with
  | none =>
    rw [hfield] at hseq
    cases hseq
  | some value =>
    rw [hfield] at hseq hnumber
    cases value with
    | number x =>
      obtain ⟨n, rfl, hn⟩ := integer_iff.1 hseq
      simp only [isNumber, decide_eq_true_eq, JsNumber.ofNat_inj] at hnumber
      omega
    | _ => cases hseq

theorem disposal (h : AcceptedRun l run events) :
    ∃ last, events.filter isDisposal = [last] ∧ events.find? isDisposal = some last ∧
      events.findIdx isDisposal + 1 = events.length := by
  have hfinal := h.final
  simp only [finalStateValid, Bool.and_eq_true, decide_eq_true_eq] at hfinal
  obtain ⟨⟨⟨hone, hlast⟩, -⟩, -⟩ := hfinal
  obtain ⟨last, hfilter⟩ := List.length_eq_one_iff.1 hone
  refine ⟨last, hfilter, ?_, hlast⟩
  rw [← List.head?_filter, hfilter]
  rfl

/-- A field of the root is there. -/
theorem hasField (h : AcceptedRun l run events) {key : String} (hkey : key ∈ ROOT_KEYS) :
    ∃ value, Fields.field? run key = some value := by
  obtain ⟨value, hmem⟩ := field?_isSome h.root hkey
  exact ⟨value, (entry_of_exactKeys h.root (by decide) hmem).2⟩

theorem identityErrors_eq_nil (h : AcceptedRun l run events)
    (hsame : SameProvenance l run manifest) :
    identityErrors l run manifest file = [] ↔ Fields.field? run "runId" ≠ some .null := by
  have hvalid := h.identity
  have hfixture := hsame.fixture
  obtain ⟨runId, hrunId⟩ := h.hasField (show "runId" ∈ ROOT_KEYS by decide)
  simp only [identityValid, Bool.and_eq_true] at hvalid
  simp only [List.mem_cons, List.not_mem_nil, or_false, forall_eq_or_imp, forall_eq] at hfixture
  obtain ⟨hschema, hid⟩ := hvalid.1.1.1.1.1.1.1.1.1.1.1.1.1.1
  simp only [identityErrors, List.append_eq_nil_iff, report_eq_nil, hschema, hsame.suiteId,
    hfixture.1, hfixture.2, hsame.buildSha, hrunId]
  rw [hrunId] at hid
  cases runId with
  | null => simp [JsValue.coalesce, Language.test, JsValue.toText, idPattern]
  | _ => simpa [JsValue.coalesce] using hid

theorem timingErrors_eq_nil (h : AcceptedRun l run events) : timingErrors l run file = [] := by
  have hvalid := h.identity
  have hsetting := h.setting
  simp only [identityValid, settingValid, Bool.and_eq_true, Bool.not_eq_true'] at hvalid hsetting
  obtain ⟨⟨⟨⟨⟨⟨⟨⟨-, hwindow⟩, hattempt⟩, hlow⟩, hhigh⟩, hstarted⟩, hended⟩, horder⟩, houtcome⟩ :=
    hvalid
  simp [timingErrors, report_eq_nil, hwindow, safeInteger_of_integer hattempt, hlow, hhigh,
    safeInteger_of_integer hstarted, safeInteger_of_integer hended, horder, houtcome, hsetting.2]

theorem transferErrors_eq_nil (h : AcceptedRun l run events)
    (hsame : SameProvenance l run manifest) : transferErrors run manifest file = [] := by
  have hsizes := h.sizes
  have htransfer := hsame.transfer
  simp only [transferValid, Bool.and_eq_true] at hsizes
  have hall : (TRANSFER_KEYS.all fun key => strictEq (property (Fields.field? run "transfer") key)
      (property (property (some manifest) "fixture") key)) = true := List.all_eq_true.2 htransfer
  simp [transferErrors, report_eq_nil, hsizes.1.1.1, hsizes.1.1.2, hsizes.1.2, hsame.hashMode, hall]

theorem pairErrors_eq_nil (h : AcceptedRun l run events)
    (hsame : SameProvenance l run manifest) : pairErrors l run manifest file = [] := by
  obtain ⟨pair, hpair, hequal⟩ := hsame.pair
  obtain ⟨stratum, hstratum⟩ := h.hasField (show "stratum" ∈ ROOT_KEYS by decide)
  have htruthy : pair.isTruthy = true := by
    have hsome := hequal.stratum
    rw [hstratum] at hsome
    cases pair with
    | object fields => rfl
    | _ => cases hsome
  simp [pairErrors, report_eq_nil, hpair, pairMatches, htruthy, hequal.stratum,
    hequal.browserFamilyMajor, hequal.storageKind, hequal.path, hequal.runId, hequal.attempt]

/-! What the gate derives. -/

theorem brings (h : AcceptedRun l run events) (file : String) (windowCap : Option JsValue) :
    Brings l events {}
      ((events.map JsValue.object).zipIdx.foldl (deriveStep l file run windowCap) {}) := by
  refine brings_events h.keys ?_ rfl
  intro i event hevent
  rw [Nat.zero_add]
  exact h.inRun i event hevent

theorem derived_counts (h : AcceptedRun l run events) (file : String)
    (windowCap : Option JsValue) :
    (derive l file run windowCap).1 =
      addLeaks (countEvents events) (events.countP leavesWork) := by
  have hbrings := (h.brings file windowCap).counts
  simp only [derive, h.recorded, hbrings, countEvents]

theorem derived_errors (h : AcceptedRun l run events) (windowCap : Option JsValue)
    (hscheduled : ∀ event ∈ events, hasType event "scheduled" = false) :
    (derive l file run windowCap).2 = [] ↔
      (∀ event ∈ events, hasType event "direct_lifecycle_error" = true →
        l.test symbolicPattern (Fields.field? event "code") = true) ∧
      ∀ event ∈ events, isDisposal event = true → isClean event = true := by
  have hbrings := h.brings file windowCap
  obtain ⟨last, hfilter, hfind, hindex⟩ := h.disposal
  have hfinal := h.final
  simp only [finalStateValid, Bool.and_eq_true] at hfinal
  obtain ⟨⟨-, hstate⟩, houtcome⟩ := hfinal
  obtain ⟨outcome, -, hcontroller⟩ := oneOf_of_isOneOf hstate
  have hlast : ((events.map JsValue.object).zipIdx.foldl (deriveStep l file run windowCap)
      {}).lastController = some (.string outcome) := by
    rw [hbrings.lastController, ← hcontroller, lastController]
    cases events.reverse.find? (hasType · "controller") <;> rfl
  have hcount : ((events.map JsValue.object).zipIdx.foldl (deriveStep l file run windowCap)
      {}).disposeCount = 1 := by
    rw [hbrings.disposeCount, List.countP_eq_length_filter, hfilter]
    rfl
  have hfound : (events.map JsValue.object).find? isDisposeEvent = some (.object last) := by
    have hsame : isDisposeEvent ∘ JsValue.object = isDisposal := rfl
    rw [List.find?_map, hsame, hfind]
    rfl
  have hplace : (events.map JsValue.object).findIdx isDisposeEvent + 1 =
      (events.map JsValue.object).length := by
    have hsame : isDisposeEvent ∘ JsValue.object = isDisposal := rfl
    rw [List.findIdx_map, hsame, hindex, List.length_map]
  have hclean : (∀ event ∈ events, isDisposal event = true → isClean event = true) ↔
      isClean last = true := by
    have hmem : ∀ event, event ∈ events ∧ isDisposal event = true ↔ event = last := by
      intro event
      rw [← List.mem_filter, hfilter, List.mem_singleton]
    constructor
    · intro hall
      obtain ⟨hin, hdisposal⟩ := (hmem last).2 rfl
      exact hall last hin hdisposal
    · intro hclean event hin hdisposal
      rw [(hmem event).1 ⟨hin, hdisposal⟩, hclean]
  have hequal : strictEq (some (.string outcome)) (Fields.field? run "outcome") = true := by
    rw [hcontroller] at houtcome
    rw [eq_of_strictEq houtcome]
    simp [strictEq]
  rw [hclean]
  simp only [derive, h.recorded, hlast, hcount, hfound, hplace, hequal, List.append_eq_nil_iff,
    report_eq_nil, (hbrings.errors hscheduled)]
  simp [isClean, property]

/-! The counts that the run carries. -/

theorem counts_eq (h : AcceptedRun l run events) : Fields.field? run "counts" =
    some (.object ((deriveCounts events).entries.map fun (key, n) =>
      (key, .number (.ofNat n)))) := eq_of_sameJson h.same

/-- Every count is a safe integer. -/
theorem integer_counts (h : AcceptedRun l run events)
    (hscheduled : ∀ event ∈ events, hasType event "scheduled" = false) :
    ∀ key value, (key, value) ∈ ((deriveCounts events).entries.map fun (key, n) =>
      (key, JsValue.number (.ofNat n))) → integer (some value) = true := by
  intro key value hmem
  simp only [List.mem_map, Prod.mk.injEq, Prod.exists] at hmem
  obtain ⟨k, n, hentry, rfl, rfl⟩ := hmem
  have hbounded := bounded_deriveCounts h.nonempty hscheduled _ hentry
  exact integer_iff.2 ⟨n, rfl, hbounded.trans h.length_le⟩

theorem validateCounts_eq_nil (h : AcceptedRun l run events)
    (hscheduled : ∀ event ∈ events, hasType event "scheduled" = false) (derived : Counts) :
    validateCounts (Fields.field? run "counts") derived file = [] ↔
      derived = deriveCounts events := by
  have hkeys := h.counts
  have hinteger := h.integer_counts hscheduled
  rw [h.counts_eq] at hkeys ⊢
  generalize hfields : (deriveCounts events).entries.map (fun (key, n) =>
    (key, JsValue.number (.ofNat n))) = fields at hkeys hinteger ⊢
  have hall : ∀ key ∈ COUNT_KEYS, integer (Fields.field? fields key) = true := by
    intro key hkey
    obtain ⟨value, hmem⟩ := field?_isSome hkeys hkey
    rw [(entry_of_exactKeys hkeys (by decide) hmem).2]
    exact hinteger key value hmem
  have hexact : exact (some (.object fields)) COUNT_KEYS (file ++ ".counts") = [] :=
    exact_eq_nil hkeys (by decide)
  have hjson : sameJson (some (.object fields)) derived = true ↔ derived = deriveCounts events := by
    rw [← hfields]
    exact sameJson_entries_iff
  simp only [validateCounts, hexact, List.append_eq_nil_iff, List.flatMap_eq_nil_iff,
    report_eq_nil, Bool.not_eq_false', hjson, true_and, and_iff_right_iff_imp]
  exact fun _ => hall

theorem successErrors_eq_nil (h : AcceptedRun l run events) (n : Nat) :
    successErrors run (addLeaks (countEvents events) n) file = [] := by
  have houtcome := h.outcome
  rw [successErrors, report_eq_nil]
  by_cases hsuccess : Fields.isString run "outcome" "succeeded" = true
  · rw [outcomeValid, if_pos hsuccess, h.counts_eq, failureCount_entries, lt_ofNat] at houtcome
    simp only [Bool.and_eq_true, Bool.not_eq_true', decide_eq_false_iff_not, Nat.not_lt,
      Nat.le_zero_eq, List.any_eq_true] at houtcome
    obtain ⟨⟨hfailures, hverified⟩, event, hevent, hresume⟩ := houtcome
    have hcounted : property (some (.object ((deriveCounts events).entries.map fun (key, n) =>
        (key, JsValue.number (.ofNat n))))) "verified" =
          some (.number (.ofNat (countEvents events).verified)) := rfl
    have hfailed : (countEvents events).resumeFailures = 0 := by
      have hsum : (deriveCounts events).failures = (countEvents events).failures := rfl
      rw [hsum, Counts.failures] at hfailures
      omega
    have hvalidations : 0 < (countEvents events).resumeValidations := by
      simp only [cleanResume, Bool.and_eq_true] at hresume
      unfold countEvents
      rw [count_foldl fun e he c => resumeValidations_countEvent (h.validEvents e he) c]
      refine Nat.add_pos_right _ (List.countP_pos_iff.2 ⟨event, hevent, hresume.1.1.1⟩)
    rw [hcounted] at hverified
    simp [addLeaks, hsuccess, hverified, hfailed]
    omega
  · simp [hsuccess]

/-! Privacy. -/

theorem privacy_items {path : String} {index : Nat} {items : List JsValue}
    (h : privacyItems path index items = []) : ∀ item ∈ items, ∃ at', privacy at' item = [] := by
  induction items generalizing index with
  | nil => simp
  | cons item rest ih =>
    rw [privacyItems, List.append_eq_nil_iff, List.append_eq_nil_iff] at h
    simp only [List.forall_mem_cons]
    exact ⟨⟨_, h.1.2⟩, ih h.2⟩

theorem discreet_digest {value other : Option JsValue} (h : l.test shaPattern value = true)
    (hequal : strictEq value other = true) : Discreet value := by
  intro v hv path
  subst hv
  cases v with
  | string s => simp [privacy, report_eq_nil, isPrivateText_sha h]
  | array items => cases other <;> cases hequal
  | object fields => cases other <;> cases hequal
  | _ => rfl

theorem discreet_of_exactKeys {value : Option JsValue} {keys : List String}
    (h : exactKeys value keys = true) (hkeys : keys.Nodup)
    (hnames : ∀ key ∈ keys, isPrivateField key = false)
    (hvalues : ∀ key ∈ keys, Discreet (property value key)) : Discreet value := by
  cases value with
  | none => cases h
  | some value =>
    cases value with
    | object fields => exact discreet_object h hkeys hnames hvalues
    | _ => cases h

/-- The names of the fields of a run. -/
theorem public_keys : ∀ keys ∈ [ROOT_KEYS, ENVIRONMENT_KEYS, TRANSFER_KEYS, COUNT_KEYS],
    ∀ key ∈ keys, isPrivateField key = false := by
  decide +kernel

/-- The words that a run may have, and those of a run on one machine. -/
theorem public_words : ∀ words ∈ [[SCHEMA], OUTCOMES, PATHS, ["sha256"],
      ["run_succeeded", "local", "direct", "unavailable", "unknown"]],
    ∀ word ∈ words, isPrivateText word.toList = false := by
  decide +kernel

theorem discreet_transfer (h : AcceptedRun l run events) (hsame : SameProvenance l run manifest) :
    Discreet (Fields.field? run "transfer") := by
  have hsizes := h.sizes
  simp only [transferValid, Bool.and_eq_true] at hsizes
  obtain ⟨⟨⟨hfile, hpiece⟩, hcount⟩, -⟩ := hsizes
  refine discreet_of_exactKeys h.transfer (by decide) (public_keys TRANSFER_KEYS (by simp)) ?_
  simp only [TRANSFER_KEYS, List.mem_cons, List.not_mem_nil, or_false, forall_eq_or_imp, forall_eq]
  exact ⟨discreet_of_integer hfile, discreet_of_integer hpiece, discreet_of_integer hcount,
    discreet_of_oneOf hsame.hashMode (public_words ["sha256"] (by simp))⟩

theorem discreet_counts (h : AcceptedRun l run events) :
    Discreet (Fields.field? run "counts") := by
  have hkeys := h.counts
  refine discreet_of_exactKeys hkeys (by decide) (public_keys COUNT_KEYS (by simp)) ?_
  rw [h.counts_eq] at hkeys ⊢
  intro key hkey v hv path
  obtain ⟨value, hmem⟩ := field?_isSome hkeys hkey
  rw [property, (entry_of_exactKeys hkeys (by decide) hmem).2] at hv
  cases hv
  simp only [List.mem_map, Prod.mk.injEq, Prod.exists] at hmem
  obtain ⟨k, n, -, -, rfl⟩ := hmem
  rfl

theorem privacy_eq_nil (h : AcceptedRun l run (runEvents run))
    (hsame : SameProvenance l run manifest) (hids : DiscreetIdentifiers run) :
    privacy file (.object run) = [] ↔
      ∀ event ∈ runEvents run, hasType event "scheduled" = false := by
  constructor
  · intro hprivacy event hevent
    rw [privacy, privacyFields_eq_nil] at hprivacy
    obtain ⟨value, hmem⟩ := field?_isSome h.root (show "events" ∈ ROOT_KEYS by decide)
    have hfield := (entry_of_exactKeys h.root (by decide) hmem).2
    have hitems := (hprivacy _ hmem).2
    rw [h.recorded] at hfield
    cases hfield
    rw [privacy] at hitems
    obtain ⟨path, hpath⟩ := privacy_items hitems _ (List.mem_map_of_mem hevent)
    by_contra hscheduled
    rw [Bool.not_eq_false] at hscheduled
    exact scheduled_is_private (h.keys event hevent) hscheduled hpath
  · intro hscheduled
    refine discreet_object h.root (by decide) (public_keys ROOT_KEYS (by simp)) ?_ _ rfl _
    have hidentity := h.identity
    simp only [identityValid, Bool.and_eq_true] at hidentity
    obtain ⟨⟨⟨⟨⟨⟨⟨⟨⟨⟨⟨⟨⟨⟨⟨hschema, -⟩, -⟩, -⟩, hsha⟩, -⟩, -⟩, -⟩, hwindow⟩, hattempt⟩, -⟩, -⟩,
      hstarted⟩, hended⟩, -⟩, houtcome⟩ := hidentity
    have hsetting := h.setting
    simp only [settingValid, Bool.and_eq_true] at hsetting
    have hids' := hids.ids
    simp only [List.mem_cons, List.not_mem_nil, or_false, forall_eq_or_imp, forall_eq] at hids'
    obtain ⟨hrunId, hsuite, hfixture, hpair, hstratum, hbuild⟩ := hids'
    have hdigest := discreet_digest hsha (hsame.fixture "fixtureSha256" (by decide))
    have hevents : Discreet (Fields.field? run "events") := by
      rw [h.recorded]
      refine discreet_array fun item hitem => ?_
      obtain ⟨event, hevent, rfl⟩ := List.mem_map.1 hitem
      obtain ⟨hseq, hat⟩ := h.eventTimes event hevent
      exact discreet_event (h.validEvents event hevent) (h.keys event hevent) hseq hat
        (hids.codes event hevent) (hscheduled event hevent)
    have hwindow' : Discreet (Fields.field? run "window") := by
      rw [Bool.or_eq_true] at hwindow
      rcases hwindow with hone | htwo
      · exact discreet_of_number hone
      · exact discreet_of_number htwo
    simp only [ROOT_KEYS, List.mem_cons, List.not_mem_nil, or_false, forall_eq_or_imp, forall_eq]
    exact ⟨discreet_of_oneOf hschema (public_words [SCHEMA] (by simp)), hrunId, hsuite, hfixture,
      hdigest, hpair, hstratum, discreet_of_integer hattempt, hbuild, hwindow',
      discreet_of_integer hstarted, discreet_of_integer hended,
      discreet_of_oneOf houtcome (public_words OUTCOMES (by simp)),
      discreet_of_exactKeys h.environment (by decide) (public_keys ENVIRONMENT_KEYS (by simp))
        hids.environment,
      discreet_of_oneOf hsetting.2 (public_words PATHS (by simp)), h.discreet_transfer hsame,
      h.discreet_counts, hevents⟩

end AcceptedRun

variable (l)

/-- Both derive the same counts and the gate has nothing to report exactly if the run is ready for
the gate. -/
theorem same_evidence_iff (file : String)
    (hvalid : validateDirectRunArtifact l (.object run) = true)
    (hsame : SameProvenance l run manifest) (hids : DiscreetIdentifiers run) :
    checkRun l (.object run) manifest file = [] ∧
      (derive l file run (windowCap l run manifest)).1 = deriveCounts (runEvents run) ↔
      GateReady l run := by
  have h := acceptedRun hvalid
  obtain ⟨last, hfilter, -, -⟩ := h.disposal
  have hprivacy : privacy file (.object run) = [] ↔ _ := h.privacy_eq_nil hsame hids
  have hroot : exact (some (.object run)) ROOT_KEYS file = [] := exact_eq_nil h.root (by decide)
  have henvironment : exact (Fields.field? run "environment") ENVIRONMENT_KEYS
      (file ++ ".environment") = [] := exact_eq_nil h.environment (by decide)
  have htransfer : exact (Fields.field? run "transfer") TRANSFER_KEYS (file ++ ".transfer") = [] :=
    exact_eq_nil h.transfer (by decide)
  have hidentity : identityErrors l run manifest file = [] ↔ _ := h.identityErrors_eq_nil hsame
  have hcounts := h.derived_counts file (windowCap l run manifest)
  have hleaks := addLeaks_eq_deriveCounts h.validEvents hfilter
  have hlast : last ∈ runEvents run ∧ isDisposal last = true := by
    rw [← List.mem_filter, hfilter]
    exact List.mem_singleton_self last
  have hcheck : checkRun l (.object run) manifest file = [] ↔
      Fields.field? run "runId" ≠ some .null ∧
        (derive l file run (windowCap l run manifest)).2 = [] ∧
        validateCounts (Fields.field? run "counts")
          (derive l file run (windowCap l run manifest)).1 file = [] ∧
        ∀ event ∈ runEvents run, hasType event "scheduled" = false := by
    simp only [checkRun, List.append_eq_nil_iff, hroot, hidentity, h.timingErrors_eq_nil,
      henvironment, htransfer, h.transferErrors_eq_nil hsame, h.pairErrors_eq_nil hsame, hcounts,
      h.successErrors_eq_nil, hprivacy, true_and, and_true, and_assoc]
  rw [hcheck, hcounts]
  constructor
  · rintro ⟨⟨hnamed, herrors, -, hscheduled⟩, hequal⟩
    obtain ⟨hsymbolic, hclean⟩ := (h.derived_errors _ hscheduled).1 herrors
    have hone := hleaks.1 hequal
    exact ⟨hscheduled, hsymbolic, by omega, hclean, hnamed⟩
  · rintro ⟨hscheduled, hsymbolic, hone, hclean, hnamed⟩
    have hequal := hleaks.2 (by simpa [hclean last hlast.1 hlast.2] using hone)
    exact ⟨⟨hnamed, (h.derived_errors _ hscheduled).2 ⟨hsymbolic, hclean⟩,
      (h.validateCounts_eq_nil hscheduled _).2 hequal, hscheduled⟩, hequal⟩

/-! A run of one piece and its manifest. -/

namespace SampleEvidence

def language : Language where
  numberText x := x.natural?.elim "NaN" toString
  lessThan _ _ := false

def artifact (kinds : List DirectRunEventKind) : DirectRunArtifact :=
  let events := kinds.mapIdx fun i kind => ⟨⟨kind, .ofNat 0⟩, .ofNat (i + 1)⟩
  { SampleRun.start with
    outcome := .succeeded
    counts := deriveCounts (events.map DirectRunEvent.fields)
    events }

def runManifest : JsValue :=
  .object
    [("suiteId", .string "local"), ("buildSha", .string "local"),
      ("fixture", .object
        [("fixtureId", .string "direct"),
          ("fixtureSha256", .string (String.ofList (List.replicate 64 '0'))),
          ("fileBytes", .number (.ofNat 1)), ("pieceBytes", .number (.ofNat 1)),
          ("pieceCount", .number (.ofNat 1)), ("hashMode", .string "sha256")]),
      ("windowPolicy", .object
        [("maxInFlight", .object [("1", .number (.ofNat 1)), ("2", .number (.ofNat 2))])]),
      ("pairs", .array [.object
        [("pairId", .string "local"), ("stratum", .string "unavailable"),
          ("attempt", .number (.ofNat 1)), ("browserFamilyMajor", .string "unknown"),
          ("storageKind", .string "unknown"), ("path", .string "unavailable"),
          ("runs", .object [("1", .string "run_succeeded"), ("2", .string "run_of_two")])]])]

def verified : List DirectRunEventKind :=
  [.terminal .verified (.ofNat 0) false, .resumeValidation (.ofNat 1) (.ofNat 0) .passed,
    .controller (.ended .succeeded), .lifecycle .disposeCompleted (.ofNat 0) (.ofNat 0)]

/-- The piece is scheduled, within the window. -/
def scheduled : List DirectRunEventKind := .scheduled (.ofNat 1) (.ofNat 1) :: verified

variable (kinds : List DirectRunEventKind)

theorem windowKey_eq : windowKey language (artifact kinds).fields = some "1" := by
  change (JsValue.toText language.numberText (.number (.ofNat 1))).toOption = some "1"
  decide +kernel

theorem sameProvenance : SameProvenance language (artifact kinds).fields runManifest := by
  refine ⟨rfl, ?_, rfl, rfl, ?_, ⟨_, rfl, rfl, rfl, rfl, rfl, ?_, rfl⟩⟩
  · simp only [List.mem_cons, List.not_mem_nil, or_false, forall_eq_or_imp, forall_eq]
    exact ⟨rfl, rfl⟩
  · simp only [TRANSFER_KEYS, List.mem_cons, List.not_mem_nil, or_false, forall_eq_or_imp,
      forall_eq]
    exact ⟨by rfl, by rfl, by rfl, rfl⟩
  · rw [windowKey_eq]
    rfl

theorem discreet_word {s : String}
    (h : s ∈ ["run_succeeded", "local", "direct", "unavailable", "unknown"]) :
    Discreet (some (.string s)) := by
  have hpublic := AcceptedRun.public_words _ (by simp) s h
  rintro v hv path
  cases hv
  simp [privacy, report_eq_nil, hpublic]

theorem discreetIdentifiers
    (hkinds : ∀ event ∈ runEvents (artifact kinds).fields,
      hasType event "direct_lifecycle_error" = false) :
    DiscreetIdentifiers (artifact kinds).fields := by
  refine ⟨?_, ?_, ?_⟩
  · simp only [List.mem_cons, List.not_mem_nil, or_false, forall_eq_or_imp, forall_eq]
    exact ⟨discreet_word (s := "run_succeeded") (by simp), discreet_word (s := "local") (by simp),
      discreet_word (s := "direct") (by simp), discreet_word (s := "local") (by simp),
      discreet_word (s := "unavailable") (by simp), discreet_word (s := "local") (by simp)⟩
  · simp only [ENVIRONMENT_KEYS, List.mem_cons, List.not_mem_nil, or_false, forall_eq_or_imp,
      forall_eq]
    exact ⟨discreet_word (s := "unknown") (by simp), discreet_word (s := "unknown") (by simp)⟩
  · intro event hevent herror
    rw [hkinds event hevent] at herror
    cases herror

end SampleEvidence

theorem same_evidence_iff_sample :
    checkRun SampleEvidence.language (SampleEvidence.artifact SampleEvidence.verified).toValue
      SampleEvidence.runManifest "run.json" = [] ∧
      (derive SampleEvidence.language "run.json"
        (SampleEvidence.artifact SampleEvidence.verified).fields
        (windowCap SampleEvidence.language
          (SampleEvidence.artifact SampleEvidence.verified).fields SampleEvidence.runManifest)).1 =
        deriveCounts (runEvents (SampleEvidence.artifact SampleEvidence.verified).fields) := by
  refine (same_evidence_iff SampleEvidence.language "run.json" (by decide +kernel)
    (SampleEvidence.sameProvenance _)
    (SampleEvidence.discreetIdentifiers _ (by decide +kernel))).2 ?_
  refine ⟨by decide +kernel, by decide +kernel, by decide +kernel, by decide +kernel, ?_⟩
  simp [SampleEvidence.artifact, DirectRunArtifact.fields, Fields.field?, List.lookup_cons]

theorem privacy_of_checkRun {manifest : JsValue} {file : String}
    (h : checkRun l (.object run) manifest file = []) : privacy file (.object run) = [] := by
  simp only [checkRun, List.append_eq_nil_iff] at h
  exact h.2

/-- A run that schedules is refused, since the name of a field of the event looks private. -/
theorem scheduled_run_is_refused :
    ¬ ∀ (l : Language) (run : Fields) (manifest : JsValue) (file : String),
      validateDirectRunArtifact l (.object run) = true → SameProvenance l run manifest →
      WithinWindow l run manifest → DiscreetIdentifiers run →
      checkRun l (.object run) manifest file = [] := by
  intro h
  have hvalid : validateDirectRunArtifact SampleEvidence.language
      (.object (SampleEvidence.artifact SampleEvidence.scheduled).fields) = true := by
    decide +kernel
  have hids : DiscreetIdentifiers (SampleEvidence.artifact SampleEvidence.scheduled).fields :=
    SampleEvidence.discreetIdentifiers _ (by decide +kernel)
  have hpassed := h SampleEvidence.language
    (SampleEvidence.artifact SampleEvidence.scheduled).fields SampleEvidence.runManifest "run.json"
    hvalid (SampleEvidence.sameProvenance _) (by
      unfold WithinWindow
      decide +kernel) hids
  have hnone := ((acceptedRun hvalid).privacy_eq_nil (SampleEvidence.sameProvenance _) hids).1
    (privacy_of_checkRun _ hpassed)
  have hscheduled : ((runEvents (SampleEvidence.artifact SampleEvidence.scheduled).fields).all
      fun event => !hasType event "scheduled") = false := by decide +kernel
  have hall : ((runEvents (SampleEvidence.artifact SampleEvidence.scheduled).fields).all
      fun event => !hasType event "scheduled") = true :=
    List.all_eq_true.2 fun event hevent => by rw [hnone event hevent, Bool.not_false]
  rw [hscheduled] at hall
  cases hall

end PonsWarp.Scripts
