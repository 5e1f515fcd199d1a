import PonsWarp.Signaling.HttpRoutes

set_option autoImplicit false

/-!
Which requests are answered. A handler that does not reject its promise has written one
response; four kinds of requests make it reject.
-/

namespace PonsWarp.Signaling

open PonsWarp.Core PonsWarp.Data

variable {r : Runtime} {config : HttpServerConfig} {m : Surroundings} {request : IncomingMessage}

/-- One response is written, and the promise is fulfilled. -/
def Handled.Answered (h : Handled) : Prop :=
  h.rejection = none ∧ h.exchange.written.length = 1

/-- Nothing is written when the promise is rejected, and one response when it is not. -/
def Handled.Settled (h : Handled) : Prop :=
  h.Answered ∨ (h.rejection ≠ none ∧ h.exchange.written = [])

theorem Handled.Settled.answered_iff {h : Handled} (hs : h.Settled) :
    h.Answered ↔ h.rejection = none := by
  constructor
  · exact fun ha => ha.1
  · intro hnone
    rcases hs with ha | ⟨hsome, -⟩
    · exact ha
    · exact absurd hnone hsome

theorem writeJson_answered (registry : BrowserShareRegistry) (status : Nat) (body : JsValue)
    (headers : List (String × String)) :
    (writeJson ⟨[], registry⟩ status body headers).Answered := ⟨rfl, rfl⟩

/-- The values that a share is published with. -/
def shareValues (body : Fields) : List JsValue :=
  [sessionIdOf body, joinUrlOf body, codeOf body, fileIdOf body, ownerPeerIdOf body]

theorem isOk_shareTexts (r : Runtime) (body : Fields) :
    (shareTexts r body).isOk = (shareValues body).all JsValue.hasText := by
  simp only [shareValues, List.all_cons, List.all_nil, ← JsValue.isOk_toText r.numberText, shareTexts]
  cases (sessionIdOf body).toText r.numberText with
  | error e => rfl
  | ok sessionId =>
    cases (joinUrlOf body).toText r.numberText with
    | error e => rfl
    | ok joinUrl =>
      cases (codeOf body).toText r.numberText with
      | error e => rfl
      | ok codeRaw =>
        cases (fileIdOf body).toText r.numberText with
        | error e => rfl
        | ok fileId => cases (ownerPeerIdOf body).toText r.numberText <;> rfl

/-! The body. -/

/-- The stream does not fail, or too late. -/
def BodyStream.Arrives (body : BodyStream) : Prop :=
  body.failure = none ∨ MAX_BODY_BYTES < body.chunks.flatten.length

/-- The object that was sent, when there is one. -/
def BodyStream.sent (r : Runtime) (body : BodyStream) : Option Fields :=
  if MAX_BODY_BYTES < body.chunks.flatten.length then none
  else if body.chunks = [] then some []
  else match r.parseJson (utf8Decode body.chunks.flatten) with
    | some (.object fields) => some fields
    | _ => none

theorem readChunks_eq (failure : Option JsError) {bytes : List UInt8}
    (h : bytes.length ≤ MAX_BODY_BYTES) (chunks : List (List UInt8)) :
    readChunks failure bytes chunks =
      if MAX_BODY_BYTES < (bytes ++ chunks.flatten).length then .ok none
      else failure.elim (.ok (some (bytes ++ chunks.flatten))) .error := by
  induction chunks generalizing bytes with
  | nil =>
    have hshort : ¬ MAX_BODY_BYTES < (bytes ++ ([] : List (List UInt8)).flatten).length := by
      simpa using h
    rw [if_neg hshort]
    cases failure with
    | none => simp [readChunks]
    | some e => rfl
  | cons chunk rest ih =>
    rw [readChunks]
    by_cases hlong : MAX_BODY_BYTES < (bytes ++ chunk).length
    · have hwhole : MAX_BODY_BYTES < (bytes ++ (chunk :: rest).flatten).length := by
        simp only [List.flatten_cons, List.length_append] at hlong ⊢
        omega
      rw [if_pos hlong, if_pos hwhole]
    · rw [if_neg hlong, ih (by omega), List.flatten_cons, List.append_assoc]

theorem readJsonBody_eq {body : BodyStream} (h : body.Arrives) :
    readJsonBody r body = .ok (body.sent r) := by
  unfold readJsonBody BodyStream.sent
  rw [readChunks_eq body.failure (Nat.zero_le _), List.nil_append]
  by_cases hlong : MAX_BODY_BYTES < body.chunks.flatten.length
  · rw [if_pos hlong, if_pos hlong]
  · have hnone : body.failure = none := h.resolve_right hlong
    rw [if_neg hlong, if_neg hlong, hnone]
    simp only [Option.elim_none]
    generalize r.parseJson (utf8Decode body.chunks.flatten) = parsed
    split
    · rfl
    · rcases parsed with - | value
      · rfl
      · cases value <;> rfl

theorem readJsonBody_error {body : BodyStream} (h : ¬ body.Arrives) :
    ∃ e, readJsonBody r body = .error e := by
  unfold BodyStream.Arrives at h
  push Not at h
  obtain ⟨hfailure, hshort⟩ := h
  obtain ⟨e, he⟩ := Option.ne_none_iff_exists'.1 hfailure
  unfold readJsonBody
  rw [readChunks_eq body.failure (Nat.zero_le _), List.nil_append, if_neg (by omega), he]
  exact ⟨e, rfl⟩

/-! The routes. -/

variable (r config m request)

theorem postFiles_settled (registry : BrowserShareRegistry) :
    (postFiles r request ⟨[], registry⟩).Settled ∧
      ((postFiles r request ⟨[], registry⟩).rejection = none ↔ request.body.Arrives) := by
  unfold postFiles
  by_cases h : request.body.Arrives
  · rw [readJsonBody_eq h]
    simp only
    split
    · exact ⟨.inl (writeJson_answered _ _ _ _), iff_of_true rfl h⟩
    · exact ⟨.inl (writeJson_answered _ _ _ _), iff_of_true rfl h⟩
  · obtain ⟨e, he⟩ := readJsonBody_error (r := r) h
    rw [he]
    exact ⟨.inr ⟨Option.some_ne_none e, rfl⟩, iff_of_false (Option.some_ne_none e) h⟩

/-- The stream does not fail, and what it brings has the texts of a share. -/
def Publishes (r : Runtime) (body : BodyStream) : Prop :=
  body.Arrives ∧ ∀ fields, body.sent r = some fields → (shareValues fields).all JsValue.hasText = true

theorem postShares_settled (registry : BrowserShareRegistry) :
    (postShares r config m request ⟨[], registry⟩).Settled ∧
      ((postShares r config m request ⟨[], registry⟩).rejection = none ↔
        Publishes r request.body) := by
  unfold postShares
  by_cases h : request.body.Arrives
  · rw [readJsonBody_eq h]
    cases hsent : request.body.sent r with
    | none =>
      refine ⟨.inl (writeJson_answered _ _ _ _), iff_of_true rfl ⟨h, ?_⟩⟩
      intro fields hfields
      rw [hsent] at hfields
      cases hfields
    | some body =>
      have htexts := isOk_shareTexts r body
      simp only
      cases hshare : shareTexts r body with
      | error e =>
        rw [hshare] at htexts
        refine ⟨.inr ⟨Option.some_ne_none e, rfl⟩, iff_of_false (Option.some_ne_none e) ?_⟩
        rintro ⟨-, hall⟩
        rw [hall body hsent] at htexts
        cases htexts
      | ok texts =>
        rw [hshare] at htexts
        have hpublishes : Publishes r request.body := by
          refine ⟨h, fun fields hfields => ?_⟩
          rw [hsent] at hfields
          cases hfields
          exact htexts.symm
        simp only
        split
        · exact ⟨.inl (writeJson_answered _ _ _ _), iff_of_true rfl hpublishes⟩
        · -- Whatever is thrown between `try` and `catch` is answered.
          split
          · exact ⟨.inl (writeJson_answered _ _ _ _), iff_of_true rfl hpublishes⟩
          · exact ⟨.inl (writeJson_answered _ _ _ _), iff_of_true rfl hpublishes⟩
  · obtain ⟨e, he⟩ := readJsonBody_error (r := r) h
    rw [he]
    refine ⟨.inr ⟨Option.some_ne_none e, rfl⟩, iff_of_false (Option.some_ne_none e) ?_⟩
    exact fun hpublishes => h hpublishes.1

theorem getShare_settled (path : List Char) (registry : BrowserShareRegistry) :
    (getShare r m path ⟨[], registry⟩).Settled ∧
      ((getShare r m path ⟨[], registry⟩).rejection = none ↔
        decodeURIComponent (shareParts path).1 ≠ none) := by
  unfold getShare
  cases hdecode : decodeURIComponent (shareParts path).1 with
  | none =>
    simp only [hdecode]
    exact ⟨.inr ⟨Option.some_ne_none _, rfl⟩, iff_of_false (Option.some_ne_none _) (by simp)⟩
  | some code =>
    simp only [hdecode]
    have hcode : some code ≠ none := Option.some_ne_none code
    split
    · exact ⟨.inl (writeJson_answered _ _ _ _), iff_of_true rfl hcode⟩
    · split
      · exact ⟨.inl (writeJson_answered _ _ _ _), iff_of_true rfl hcode⟩
      · exact ⟨.inl (writeJson_answered _ _ _ _), iff_of_true rfl hcode⟩

/-- The targets that are answered before anything is parsed. -/
def PLAIN_TARGETS : List String :=
  ["/healthz", "/readyz", "/version.json", "/api/grid/v1/ice"]

/-- What the three routes that read the request ask of it. -/
structure Harmless (r : Runtime) (request : IncomingMessage) (path : List Char) : Prop where
  files : request.method = some "POST" → path = FILES_ROUTE → request.body.Arrives
  shares : request.method = some "POST" → path = SHARES_ROUTE → Publishes r request.body
  get : request.method = some "GET" → SHARES <+: path →
    decodeURIComponent (shareParts path).1 ≠ none

theorem handleRoute_settled (path : List Char) (registry : BrowserShareRegistry) :
    (handleRoute r config m request path ⟨[], registry⟩).Settled ∧
      ((handleRoute r config m request path ⟨[], registry⟩).rejection = none ↔
        Harmless r request path) := by
  have hroutes : FILES_ROUTE ≠ SHARES_ROUTE := by decide
  unfold handleRoute
  by_cases hfiles : request.method = some "POST" ∧ path = FILES_ROUTE
  · obtain ⟨hmethod, rfl⟩ := hfiles
    rw [if_pos ⟨hmethod, rfl⟩]
    obtain ⟨hsettled, hiff⟩ := postFiles_settled r request registry
    refine ⟨hsettled, hiff.trans ⟨fun harrives => ⟨fun _ _ => harrives, ?_, ?_⟩, ?_⟩⟩
    · exact fun _ hpath => absurd hpath hroutes
    · intro hget
      rw [hmethod] at hget
      exact absurd hget (by decide)
    · exact fun hharmless => hharmless.files hmethod rfl
  · rw [if_neg hfiles]
    by_cases hshares : request.method = some "POST" ∧ path = SHARES_ROUTE
    · obtain ⟨hmethod, rfl⟩ := hshares
      rw [if_pos ⟨hmethod, rfl⟩]
      obtain ⟨hsettled, hiff⟩ := postShares_settled r config m request registry
      refine ⟨hsettled, hiff.trans ⟨fun hpublishes => ⟨?_, fun _ _ => hpublishes, ?_⟩, ?_⟩⟩
      · exact fun _ hpath => absurd hpath hroutes.symm
      · intro hget
        rw [hmethod] at hget
        exact absurd hget (by decide)
      · exact fun hharmless => hharmless.shares hmethod rfl
    · rw [if_neg hshares]
      by_cases hget : request.method = some "GET" ∧ SHARES <+: path
      · rw [if_pos hget]
        obtain ⟨hsettled, hiff⟩ := getShare_settled r m path registry
        refine ⟨hsettled, hiff.trans ⟨fun hdecode => ⟨?_, ?_, fun _ _ => hdecode⟩, ?_⟩⟩
        · exact fun hmethod hpath => absurd ⟨hmethod, hpath⟩ hfiles
        · exact fun hmethod hpath => absurd ⟨hmethod, hpath⟩ hshares
        · exact fun hharmless => hharmless.get hget.1 hget.2
      · have hharmless : Harmless r request path :=
          ⟨fun hmethod hpath => absurd ⟨hmethod, hpath⟩ hfiles,
            fun hmethod hpath => absurd ⟨hmethod, hpath⟩ hshares,
            fun hmethod hpath => absurd ⟨hmethod, hpath⟩ hget⟩
        rw [if_neg hget]
        split
        · exact ⟨.inl (writeJson_answered _ _ _ _), iff_of_true rfl hharmless⟩
        · exact ⟨.inl (writeJson_answered _ _ _ _), iff_of_true rfl hharmless⟩

/-- A request is answered exactly if it is for a target that is not parsed, or has a URL and is
harmless to the route of it. -/
theorem request_is_answered_iff (registry : BrowserShareRegistry) :
    (handleHttpRequest r config m request ⟨[], registry⟩).Answered ↔
      (∃ target ∈ PLAIN_TARGETS, request.url = some target) ∨
        ∃ url, request.parsedUrl r = some url ∧ Harmless r request (routePath url) := by
  by_cases hplain : ∃ target ∈ PLAIN_TARGETS, request.url = some target
  · refine iff_of_true ?_ (.inl hplain)
    obtain ⟨target, htarget, hurl⟩ := hplain
    simp only [PLAIN_TARGETS, List.mem_cons, List.not_mem_nil, or_false] at htarget
    unfold handleHttpRequest
    rcases htarget with rfl | rfl | rfl | rfl
    · rw [if_pos hurl]
      exact writeJson_answered _ _ _ _
    · rw [if_neg (by rw [hurl]; decide), if_pos hurl]
      exact writeJson_answered _ _ _ _
    · rw [if_neg (by rw [hurl]; decide), if_neg (by rw [hurl]; decide), if_pos hurl]
      exact writeJson_answered _ _ _ _
    · rw [if_neg (by rw [hurl]; decide), if_neg (by rw [hurl]; decide),
        if_neg (by rw [hurl]; decide), if_pos hurl]
      exact writeJson_answered _ _ _ _
  · have hne : ∀ target ∈ PLAIN_TARGETS, request.url ≠ some target :=
      fun target htarget hurl => hplain ⟨target, htarget, hurl⟩
    simp only [PLAIN_TARGETS, List.mem_cons, List.not_mem_nil, or_false, forall_eq_or_imp,
      forall_eq] at hne
    obtain ⟨hhealthz, hreadyz, hversion, hice⟩ := hne
    rw [or_iff_right hplain]
    unfold handleHttpRequest
    rw [if_neg hhealthz, if_neg hreadyz, if_neg hversion, if_neg hice]
    cases hurl : request.parsedUrl r with
    | none =>
      simp only [reduceCtorEq, false_and, exists_false, iff_false]
      exact fun hanswered => absurd hanswered.1 (Option.some_ne_none _)
    | some url =>
      obtain ⟨hsettled, hiff⟩ := handleRoute_settled r config m request (routePath url) registry
      simp only [Option.some.injEq, exists_eq_left']
      exact hsettled.answered_iff.trans hiff

def sampleSurroundings : Surroundings := ⟨none, 0, ⟨0, 0⟩⟩

/-- A lone percent sign where a code should be rejects the promise. -/
theorem malformed_code_is_not_answered :
    ¬ ∀ (r : Runtime) (config : HttpServerConfig) (m : Surroundings) (request : IncomingMessage)
      (registry : BrowserShareRegistry),
      (handleHttpRequest r config m request ⟨[], registry⟩).Answered := by
  intro h
  have hanswered := h sampleRuntime sampleConfig sampleSurroundings
    (sampleRequest "/api/grid/v1/shares/%") ⟨.empty⟩
  have hrejected : (handleHttpRequest sampleRuntime sampleConfig sampleSurroundings
      (sampleRequest "/api/grid/v1/shares/%") ⟨[], ⟨.empty⟩⟩).rejection = some uriError := by
    decide
  rw [hanswered.1] at hrejected
  cases hrejected

end PonsWarp.Signaling
