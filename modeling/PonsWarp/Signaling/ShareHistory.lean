import Mathlib.Data.List.Induction
import Mathlib.Tactic.Linarith
import PonsWarp.Signaling.History
import PonsWarp.Signaling.HttpRequests

set_option autoImplicit false

/-!
Browser shares over the requests of a server. Any request for a share, for reading or for
writing, throws out what the clock says is past; which share a code stands for is a matter of the
requests alone, and of the readings of the clock between them.
-/

namespace PonsWarp.Signaling

open PonsWarp.Core PonsWarp.Data ShareCodes

/-- A call on the registry. -/
inductive RegistryCall
  | put (input : ShareInput)
  | get (code : String)

def BrowserShareRecord.ExpiredAt (record : BrowserShareRecord) (t : Number) : Prop :=
  record.expiresAt.le (.finite t) = true

namespace BrowserShareRegistry

variable {r : Runtime} {clock : RegistryClock} {registry : BrowserShareRegistry}
  {record : BrowserShareRecord} {code : String}

/-- The key of a code. -/
def key (r : Runtime) (code : String) : String := String.ofList (r.normalizeCode code.toList)

def call (r : Runtime) (clock : RegistryClock) (registry : BrowserShareRegistry) :
    RegistryCall → BrowserShareRegistry
  | .put input => (registry.put r clock input).2
  | .get code => (registry.get r clock code).2

/-- The record that a call puts, whatever is there before it. -/
def puts (r : Runtime) (clock : RegistryClock) : RegistryCall → Option BrowserShareRecord
  | .put input => ((⟨.empty⟩ : BrowserShareRegistry).put r clock input).1.toOption
  | .get _ => none

/-- The readings of the clock that a record under the key has to outlive. -/
def readings (r : Runtime) (clock : RegistryClock) (code : String) : RegistryCall → List Number
  | .put _ => [clock.atCleanup]
  | .get asked =>
    if key r asked = code then [clock.atCleanup, clock.afterwards] else [clock.atCleanup]

theorem get?_cleanup {now : Number} :
    (registry.cleanup now).byCode.get? code = some record ↔
      registry.byCode.get? code = some record ∧ ¬ record.ExpiredAt now := by
  rw [cleanup, OrderedMap.get?_deleteAll]
  simp only [List.mem_map, List.mem_filter, Prod.exists, OrderedMap.mem_entries_iff,
    exists_and_right, exists_eq_right, BrowserShareRecord.ExpiredAt]
  constructor
  · intro h
    split at h
    · cases h
    · rename_i hnone
      refine ⟨h, fun hexpired => hnone ⟨record, h, hexpired⟩⟩
  · rintro ⟨hget, hlive⟩
    rw [if_neg]
    · exact hget
    · rintro ⟨other, hother, hexpired⟩
      cases hget.symm.trans hother
      exact hlive hexpired

theorem put_refused {input : ShareInput} (h : (key r input.code).length < 6) :
    registry.put r clock input =
      (.error ⟨"Error", "Share code too short"⟩, registry.cleanup clock.atCleanup) := by
  unfold put
  exact if_pos h

theorem put_taken {input : ShareInput} (h : ¬ (key r input.code).length < 6) :
    ∃ made : BrowserShareRecord, made.code = key r input.code ∧
      made.expiresAt =
        (JsNumber.finite clock.afterwards).add (.max (.finite 60000) input.ttlMs) ∧
      ∀ old : BrowserShareRegistry, old.put r clock input =
        (.ok made, ⟨(old.cleanup clock.atCleanup).byCode.set made.code made⟩) := by
  refine ⟨⟨key r input.code, input.sessionId, input.fileId, input.fileName, input.sizeBytes,
    input.pieceSize, input.pieceCount, input.ownerPeerId, input.joinUrl, _, clock.afterwards⟩,
    rfl, rfl, fun old => ?_⟩
  unfold put
  exact if_neg h

/-- A put that is taken stores its record under the code of the record. -/
theorem put_spec (input : ShareInput) :
    (∃ made, puts r clock (.put input) = some made ∧ made.code = key r input.code ∧
      registry.put r clock input =
        (.ok made, ⟨(registry.cleanup clock.atCleanup).byCode.set made.code made⟩)) ∨
    (puts r clock (.put input) = none ∧
      (registry.put r clock input).2 = registry.cleanup clock.atCleanup) := by
  by_cases hshort : (key r input.code).length < 6
  · exact .inr ⟨by rw [puts, put_refused hshort]; rfl, by rw [put_refused hshort]⟩
  · obtain ⟨made, hcode, -, hput⟩ := put_taken hshort
    exact .inl ⟨made, by rw [puts, hput]; rfl, hcode, hput registry⟩

theorem get?_get_of_ne {asked : String} (h : code ≠ key r asked) :
    (registry.get r clock asked).2.byCode.get? code =
      (registry.cleanup clock.atCleanup).byCode.get? code := by
  unfold get
  simp only
  split
  · rfl
  · split
    · exact OrderedMap.get?_delete_of_ne _ h
    · rfl

/-- A call leaves under a key what it puts there, or what was there and outlives its readings. -/
theorem get?_call (c : RegistryCall) :
    (registry.call r clock c).byCode.get? code = some record ↔
      (puts r clock c = some record ∧ record.code = code) ∨
      (registry.byCode.get? code = some record ∧
        (∀ made, puts r clock c = some made → made.code ≠ code) ∧
        ∀ t ∈ readings r clock code c, ¬ record.ExpiredAt t) := by
  cases c with
  | put input =>
    simp only [call, readings, List.mem_singleton, forall_eq]
    obtain ⟨made, hputs, -, hput⟩ | ⟨hputs, hput⟩ := @put_spec r clock registry input
    · rw [hput, OrderedMap.get?_set, hputs]
      split
      · rename_i hcode
        subst hcode
        simp only [Option.some.injEq, forall_eq', ne_eq, not_true, false_and, and_false, or_false]
        exact ⟨fun h => ⟨h, h ▸ rfl⟩, And.left⟩
      · rename_i hcode
        rw [get?_cleanup]
        constructor
        · rintro ⟨hget, hlive⟩
          refine .inr ⟨hget, fun m hm => ?_, hlive⟩
          cases hm
          exact Ne.symm hcode
        · rintro (⟨hm, hc⟩ | ⟨hget, -, hlive⟩)
          · cases hm
            exact absurd hc.symm hcode
          · exact ⟨hget, hlive⟩
    · rw [hput, get?_cleanup, hputs]
      simp
  | get asked =>
    simp only [call, puts, readings]
    by_cases hcode : key r asked = code
    · subst hcode
      simp only [get, show String.ofList (r.normalizeCode asked.toList) = key r asked from rfl,
        if_true, List.mem_cons, List.not_mem_nil, or_false, forall_eq_or_imp, forall_eq]
      split
      · rename_i hnone
        refine iff_of_false (by simp [hnone]) ?_
        rintro (⟨h, -⟩ | ⟨hget, -, hlive, -⟩)
        · cases h
        · cases hnone.symm.trans (get?_cleanup.2 ⟨hget, hlive⟩)
      · rename_i found hfound
        obtain ⟨hget, hlive⟩ := get?_cleanup.1 hfound
        split
        · rename_i hexpired
          refine iff_of_false (by simp) ?_
          rintro (⟨h, -⟩ | ⟨hget', -, -, hlive'⟩)
          · cases h
          · cases hget.symm.trans hget'
            exact hlive' hexpired
        · rename_i hfresh
          rw [hfound]
          constructor
          · intro h
            cases h
            exact .inr ⟨hget, by simp, hlive, hfresh⟩
          · rintro (⟨h, -⟩ | ⟨hget', -⟩)
            · cases h
            · exact hget.symm.trans hget'
    · rw [if_neg hcode, get?_get_of_ne (Ne.symm hcode), get?_cleanup]
      simp

/-- What a get answers is what it leaves under the key. -/
theorem get_fst (asked : String) :
    (registry.get r clock asked).1 = (registry.get r clock asked).2.byCode.get? (key r asked) := by
  unfold get
  simp only
  split
  · rename_i hnone
    exact hnone.symm
  · rename_i found hfound
    split
    · exact (OrderedMap.get?_delete_self ..).symm
    · exact hfound.symm

/-- A share lasts a minute at least, whatever lifetime was asked for. -/
theorem puts_lasts {c : RegistryCall} {t : Number} (hputs : puts r clock c = some record)
    (hexpired : record.ExpiredAt t) : clock.afterwards + 60000 ≤ t := by
  cases c with
  | get asked => cases hputs
  | put input =>
    by_cases hshort : (key r input.code).length < 6
    · rw [puts, put_refused hshort] at hputs
      cases hputs
    · obtain ⟨made, -, hends, hput⟩ := put_taken hshort
      rw [puts, hput] at hputs
      cases hputs
      rw [BrowserShareRecord.ExpiredAt, hends, JsNumber.max] at hexpired
      split at hexpired
      · simp [JsNumber.add, JsNumber.le] at hexpired
      · split at hexpired
        · rename_i hle
          generalize input.ttlMs = ttl at hexpired hle
          cases ttl with
          | finite x =>
            simp only [JsNumber.add, JsNumber.le, decide_eq_true_eq] at hexpired hle
            linarith
          | nan => simp [JsNumber.le] at hle
          | infinity negative =>
            cases negative <;> simp [JsNumber.add, JsNumber.le] at hexpired hle
        · simpa [JsNumber.add, JsNumber.le] using hexpired

end BrowserShareRegistry

section Requests

open BrowserShareRegistry

variable (r : Runtime) (config : HttpServerConfig)

/-- The call on the registry that a route makes. -/
def routeCall (request : IncomingMessage) (path : List Char) : Option RegistryCall :=
  if request.method = some "POST" ∧ path = FILES_ROUTE then none
  else if request.method = some "POST" ∧ path = SHARES_ROUTE then
    match readJsonBody r request.body with
    | .error _ => none
    | .ok none => none
    | .ok (some body) =>
      match shareTexts r body with
      | .error _ => none
      | .ok texts =>
        if texts.sessionId = "" ∨ texts.codeRaw = "" ∨ texts.fileId = "" then none
        else (shareInput r config body texts).toOption.map .put
  else if request.method = some "GET" ∧ SHARES <+: path then
    (decodeURIComponent (shareParts path).1).map fun code => .get (String.ofList code)
  else none

/-- The call on the registry that a request comes to. -/
def registryCall (request : IncomingMessage) : Option RegistryCall :=
  if request.url ∈ PLAIN_TARGETS.map some then none
  else (request.parsedUrl r).bind fun url => routeCall r config request (routePath url)

/-- The registry after requests that came one after the other. -/
def registryAfter (run : List (Surroundings × IncomingMessage)) : BrowserShareRegistry :=
  steps (fun registry x =>
    (handleHttpRequest r config x.1 x.2 ⟨[], registry⟩).exchange.shareRegistry) ⟨.empty⟩ run

/-- The record that a request publishes. -/
def published (x : Surroundings × IncomingMessage) : Option BrowserShareRecord :=
  (registryCall r config x.2).bind (puts r x.1.clock)

/-- The readings of the clock at which the request throws out a record under the code. -/
def readingsOf (code : String) (x : Surroundings × IncomingMessage) : List Number :=
  ((registryCall r config x.2).map (readings r x.1.clock code)).getD []

/-- The record was published; nothing has been published under its code since then, and no
reading of the clock that concerns it was past its end. -/
def Stands (run : List (Surroundings × IncomingMessage)) (record : BrowserShareRecord) : Prop :=
  ∃ before x after, run = before ++ x :: after ∧ published r config x = some record ∧
    ∀ y ∈ after, (∀ made, published r config y = some made → made.code ≠ record.code) ∧
      ∀ t ∈ readingsOf r config record.code y, ¬ record.ExpiredAt t

variable {r config} {m : Surroundings} {request : IncomingMessage}
  {registry : BrowserShareRegistry} {record : BrowserShareRecord} {code : String}

theorem handleRoute_registry (path : List Char) :
    (handleRoute r config m request path ⟨[], registry⟩).exchange.shareRegistry =
      match routeCall r config request path with
      | none => registry
      | some c => registry.call r m.clock c := by
  unfold handleRoute routeCall
  split
  · unfold postFiles
    split
    · rfl
    · split <;> rfl
  · split
    · unfold postShares
      cases readJsonBody r request.body with
      | error e => rfl
      | ok taken =>
        cases taken with
        | none => rfl
        | some body =>
          simp only
          cases shareTexts r body with
          | error e => rfl
          | ok texts =>
            simp only
            split
            · rfl
            · unfold publishShare
              cases shareInput r config body texts with
              | error e => rfl
              | ok input =>
                simp only [Except.toOption, Option.map_some, call]
                generalize hput : registry.put r m.clock input = taken
                obtain ⟨result, left⟩ := taken
                cases result with
                | error e => rfl
                | ok record =>
                  simp only
                  split <;> rfl
    · split
      · unfold getShare
        simp only
        cases decodeURIComponent (shareParts path).1 with
        | none => rfl
        | some code =>
          simp only [Option.map_some, call]
          split
          · rfl
          · split <;> rfl
      · split <;> rfl

/-- A request leaves the registry as the one call that it comes to. -/
theorem handleHttpRequest_registry :
    (handleHttpRequest r config m request ⟨[], registry⟩).exchange.shareRegistry =
      match registryCall r config request with
      | none => registry
      | some c => registry.call r m.clock c := by
  unfold handleHttpRequest registryCall
  by_cases hplain : request.url ∈ PLAIN_TARGETS.map some
  · rw [if_pos hplain]
    simp only [PLAIN_TARGETS, List.map_cons, List.map_nil, List.mem_cons, List.not_mem_nil,
      or_false] at hplain
    obtain h | h | h | h := hplain <;> simp [h] <;> rfl
  · rw [if_neg hplain]
    simp only [PLAIN_TARGETS, List.map_cons, List.map_nil, List.mem_cons, List.not_mem_nil,
      or_false, not_or] at hplain
    obtain ⟨hhealth, hready, hversion, hice⟩ := hplain
    rw [if_neg hhealth, if_neg hready, if_neg hversion, if_neg hice]
    cases request.parsedUrl r with
    | none => rfl
    | some url => exact handleRoute_registry (routePath url)

theorem stands_snoc {run : List (Surroundings × IncomingMessage)}
    {x : Surroundings × IncomingMessage} :
    Stands r config (run ++ [x]) record ↔ published r config x = some record ∨
      (Stands r config run record ∧
        (∀ made, published r config x = some made → made.code ≠ record.code) ∧
        ∀ t ∈ readingsOf r config record.code x, ¬ record.ExpiredAt t) := by
  constructor
  · rintro ⟨before, y, after, hrun, hy, hafter⟩
    obtain ⟨rfl, rfl, rfl⟩ | ⟨rest, rfl, rfl⟩ := Past.snoc_eq_iff.1 hrun
    · exact .inl hy
    · refine .inr ⟨⟨before, y, rest, rfl, hy, fun z hz => hafter z (by simp [hz])⟩, ?_⟩
      exact hafter x (by simp)
  · rintro (hx | ⟨⟨before, y, rest, rfl, hy, hrest⟩, hx⟩)
    · exact ⟨run, x, [], rfl, hx, by simp⟩
    · refine ⟨before, y, rest ++ [x], by simp, hy, fun z hz => ?_⟩
      obtain hz | hz := List.mem_append.1 hz
      · exact hrest z hz
      · cases List.mem_singleton.1 hz
        exact hx

theorem registryAfter_snoc (run : List (Surroundings × IncomingMessage))
    (x : Surroundings × IncomingMessage) :
    registryAfter r config (run ++ [x]) = (handleHttpRequest r config x.1 x.2
      ⟨[], registryAfter r config run⟩).exchange.shareRegistry := by
  simp [registryAfter, steps]

/-- What the registry holds is what stands of the requests. -/
theorem registryAfter_iff (run : List (Surroundings × IncomingMessage)) :
    (registryAfter r config run).byCode.get? code = some record ↔
      record.code = code ∧ Stands r config run record := by
  induction run using List.reverseRecOn with
  | nil =>
    refine iff_of_false (by simp [registryAfter, steps]) ?_
    rintro ⟨-, before, x, after, hrun, -⟩
    simp at hrun
  | append_singleton run x ih =>
    rw [registryAfter_snoc, handleHttpRequest_registry, stands_snoc]
    cases hcall : registryCall r config x.2 with
    | none =>
      simp [published, readingsOf, hcall, ih]
    | some c =>
      simp only [published, readingsOf, hcall, Option.bind_some, Option.map_some,
        Option.getD_some]
      rw [get?_call, ih]
      constructor
      · rintro (⟨hputs, hcode⟩ | ⟨⟨rfl, hstands⟩, hlast⟩)
        · exact ⟨hcode, .inl hputs⟩
        · exact ⟨rfl, .inr ⟨hstands, hlast⟩⟩
      · rintro ⟨rfl, hputs | ⟨hstands, hlast⟩⟩
        · exact .inl ⟨hputs, rfl⟩
        · exact .inr ⟨⟨rfl, hstands⟩, hlast⟩

/-- The request asks for the share with the code. -/
structure Asks (r : Runtime) (request : IncomingMessage) (path : List Char) (code : String) :
    Prop where
  parsed : request.url ∉ PLAIN_TARGETS.map some
  routed : ∃ url, request.parsedUrl r = some url ∧ routePath url = path
  method : request.method = some "GET"
  shares : SHARES <+: path
  code : decodeURIComponent (shareParts path).1 = some code.toList

/-- How a request for a share is answered. -/
def shareResponse (path : List Char) : Option BrowserShareRecord → HttpResponse
  | none => ⟨404, [("content-type", "application/json")],
      .object [("error", .string "not_found")]⟩
  | some record => ⟨200, ("content-type", "application/json") :: NO_STORE,
      if (shareParts path).2 = some "candidates".toList then shareProviders record
      else shareAnswer record⟩

theorem Asks.call {path : List Char} (h : Asks r request path code) :
    registryCall r config request = some (.get code) := by
  obtain ⟨url, hurl, rfl⟩ := h.routed
  rw [registryCall, if_neg h.parsed, hurl, Option.bind_some, routeCall,
    if_neg (by simp [h.method]), if_neg (by simp [h.method]), if_pos ⟨h.method, h.shares⟩, h.code]
  simp

theorem Asks.written {path : List Char} (h : Asks r request path code) :
    (handleHttpRequest r config m request ⟨[], registry⟩).exchange.written =
      [shareResponse path (registry.get r m.clock code).1] := by
  obtain ⟨url, hurl, rfl⟩ := h.routed
  have hplain := h.parsed
  simp only [PLAIN_TARGETS, List.map_cons, List.map_nil, List.mem_cons, List.not_mem_nil,
    or_false, not_or] at hplain
  obtain ⟨hhealth, hready, hversion, hice⟩ := hplain
  rw [handleHttpRequest, if_neg hhealth, if_neg hready, if_neg hversion, if_neg hice, hurl]
  simp only
  rw [handleRoute, if_neg (by simp [h.method]), if_neg (by simp [h.method]),
    if_pos ⟨h.method, h.shares⟩, getShare]
  simp only [h.code, String.ofList_toList]
  cases (registry.get r m.clock code).1 with
  | none => rfl
  | some record =>
    simp only [shareResponse]
    split <;> rfl

/-- Whatever requests came before it, a request for a share is answered with the record that was
published last under the code, unless it was past its end at a reading of the clock since then,
and with 404 if there is none. -/
theorem shares_stand_as_published {path : List Char} (h : Asks r request path code)
    (run : List (Surroundings × IncomingMessage)) (m : Surroundings) :
    (∃ record, record.code = key r code ∧ Stands r config (run ++ [(m, request)]) record ∧
      (handleHttpRequest r config m request
        ⟨[], registryAfter r config run⟩).exchange.written = [shareResponse path (some record)]) ∨
    ((∀ record, Stands r config (run ++ [(m, request)]) record → record.code ≠ key r code) ∧
      (handleHttpRequest r config m request
        ⟨[], registryAfter r config run⟩).exchange.written = [shareResponse path none]) := by
  have hafter : registryAfter r config (run ++ [(m, request)]) =
      ((registryAfter r config run).get r m.clock code).2 := by
    have hregistry := @handleHttpRequest_registry r config m request (registryAfter r config run)
    rw [h.call] at hregistry
    exact (registryAfter_snoc run _).trans hregistry
  have hanswer := @get_fst r m.clock (registryAfter r config run) code
  rw [h.written, hanswer, ← hafter]
  cases hfound : (registryAfter r config (run ++ [(m, request)])).byCode.get? (key r code) with
  | none =>
    refine .inr ⟨fun record hstands hcode => ?_, rfl⟩
    cases hfound.symm.trans ((registryAfter_iff _).2 ⟨hcode, hstands⟩)
  | some record =>
    obtain ⟨hcode, hstands⟩ := (registryAfter_iff _).1 hfound
    exact .inl ⟨record, hcode, hstands, rfl⟩

end Requests

/-- A runtime in which every body is one share. -/
def publishingRuntime : Runtime :=
  { sampleRuntime with
    parseJson := fun _ => some (.object [("requestedCode", .string "ab-12-cd"),
      ("fileId", .string "file"), ("signalingSessionId", .string "sess")]) }

def publication : IncomingMessage :=
  { sampleRequest "/api/grid/v1/workspaces/browser/shares" with
    method := some "POST"
    body := ⟨[[1]], none⟩ }

theorem shares_stand_as_published_sample :
    ∃ record, record.code = "AB12CD" ∧
      Stands publishingRuntime sampleConfig [(sampleSurroundings, publication),
        (⟨none, 7, ⟨7, 7⟩⟩, sampleRequest "/api/grid/v1/shares/AB12CD")] record := by
  have hasks : Asks publishingRuntime (sampleRequest "/api/grid/v1/shares/AB12CD")
      "/api/grid/v1/shares/AB12CD".toList "AB12CD" :=
    ⟨by decide, ⟨_, rfl, by decide⟩, rfl, by decide, by decide⟩
  have hkey : BrowserShareRegistry.key publishingRuntime "AB12CD" = "AB12CD" := by decide
  have hstatus : ((handleHttpRequest publishingRuntime sampleConfig ⟨none, 7, ⟨7, 7⟩⟩
      (sampleRequest "/api/grid/v1/shares/AB12CD") ⟨[], registryAfter publishingRuntime
        sampleConfig [(sampleSurroundings, publication)]⟩).exchange.written.map (·.status)) =
      [200] := by decide +kernel
  obtain ⟨record, hcode, hstands, -⟩ | ⟨-, hwritten⟩ :=
    @shares_stand_as_published _ sampleConfig _ _ _ hasks
      [(sampleSurroundings, publication)] ⟨none, 7, ⟨7, 7⟩⟩
  · exact ⟨record, hcode.trans hkey, hstands⟩
  · rw [hwritten] at hstatus
    cases hstatus

end PonsWarp.Signaling
