import PonsWarp.Signaling.HttpServer

set_option autoImplicit false

/-!
A server with a session token takes no connection over: the token is asked for in the query of
the URL, and a URL with a query is no path of the gateway.
-/

namespace PonsWarp.Signaling

open PonsWarp.Core PonsWarp.Data

variable {F : Type}

/-- Who is to be let in: the origin, the token, the path and the key are right. -/
structure Admitted (config : HttpServerConfig) (request : IncomingMessage) (token : String)
    (url : Url) : Prop where
  origin : isOriginAllowed request.origin config.allowedOrigins = true
  token : url.param "token" = some token
  path : isGridWebSocketPath (some url.pathname) = true
  key : request.secWebSocketKey.isSome = true

/-- Of the connection `c` that may be attached: it is when it is to be let in, and otherwise the
socket is destroyed and the gateway is what it was. -/
def Gated (c : ConnectionId) (before after : Upgrade F) (admitted : Prop) : Prop :=
  (c ∈ after.gateway.peers ↔ admitted) ∧
    (¬ admitted → after.socket.destroyed = true ∧ after.gateway = before.gateway)

theorem UpgradeSocket.refuse_destroyed (socket : UpgradeSocket) (status : String) :
    (socket.refuse status).destroyed = true := rfl

theorem gridWebSocketPath_no_query {url : String} (h : isGridWebSocketPath (some url) = true) :
    ∃ path, url = String.ofList ('/' :: path) ∧ '?' ∉ path := by
  simp only [isGridWebSocketPath, Bool.or_eq_true, decide_eq_true_eq, Option.some.injEq] at h
  rcases h with ((rfl | rfl) | rfl) | rfl
  · exact ⟨['w', 's'], rfl, by decide⟩
  · exact ⟨['w', 's', '/'], rfl, by decide⟩
  · exact ⟨['w', 's', '/', 'g', 'r', 'i', 'd'], rfl, by decide⟩
  · exact ⟨['w', 's', '/', 'g', 'r', 'i', 'd', '/'], rfl, by decide⟩

/-- No request has both the token and a path of the gateway. -/
theorem token_excludes_path {r : Runtime} {request : IncomingMessage} {url : Url} {token : String}
    (hurl : request.parsedUrl r = some url) (htoken : url.param "token" = some token) :
    isGridWebSocketPath request.url = false := by
  cases hraw : request.url with
  | none => rfl
  | some raw =>
    by_contra hpath
    rw [Bool.not_eq_false] at hpath
    obtain ⟨path, rfl, hquery⟩ := gridWebSocketPath_no_query hpath
    have hparsed : r.requestUrl (String.ofList ('/' :: path))
        ("http://" ++ request.host.getD "localhost") = some url := by
      rw [← hurl, IncomingMessage.parsedUrl, hraw, Option.getD_some]
    have hnone := r.requestUrl_path path _ url hquery hparsed
    rw [Url.param, hnone] at htoken
    cases htoken

/-- With a token, every request is refused. -/
theorem onUpgrade_refused (r : Runtime) {config : HttpServerConfig} {request : IncomingMessage}
    {token : String} {url : Url} (m : Moment) (c : ConnectionId) (s : Upgrade F)
    (hconfig : truthy config.sessionToken = some token) (hurl : request.parsedUrl r = some url) :
    ∃ status, onUpgrade r config request m c s =
      .ok { s with socket := s.socket.refuse status } := by
  have hcheck : checkToken r config request = .ok (url.param "token" = some token) := by
    simp only [checkToken, hconfig, hurl]
  unfold onUpgrade
  rw [hcheck]
  split
  · exact ⟨_, rfl⟩
  · by_cases htoken : url.param "token" = some token
    · have hpath := token_excludes_path hurl htoken
      simp only [htoken, decide_true, hpath, Bool.not_false, if_true]
      exact ⟨_, rfl⟩
    · simp only [htoken, decide_false]
      exact ⟨_, rfl⟩

variable (r : Runtime)

/-- The gate is right exactly about those that are not to be let in. -/
theorem token_gate_holds_iff {config : HttpServerConfig} {request : IncomingMessage}
    {token : String} {url : Url} (m : Moment) (c : ConnectionId) (s : Upgrade F)
    (hconfig : truthy config.sessionToken = some token) (hurl : request.parsedUrl r = some url)
    (hnew : c ∉ s.gateway.peers) :
    (∃ after, onUpgrade r config request m c s = .ok after ∧
      Gated c s after (Admitted config request token url)) ↔
        ¬ Admitted config request token url := by
  obtain ⟨status, hrefused⟩ := onUpgrade_refused r m c s hconfig hurl
  rw [hrefused]
  constructor
  · rintro ⟨after, hafter, hgated, -⟩ hadmitted
    cases hafter
    exact hnew (hgated.2 hadmitted)
  · intro hadmitted
    refine ⟨_, rfl, iff_of_false hnew hadmitted, fun _ => ⟨?_, rfl⟩⟩
    exact s.socket.refuse_destroyed status

def sampleMoment : Moment := ⟨0, 0, "", "", ""⟩

def sampleUpgrade : Upgrade Unit := ⟨.new, {}⟩

theorem token_gate_holds_iff_sample :
    ∃ after, onUpgrade sampleRuntime sampleConfig (sampleRequest "/ws") sampleMoment 0
        sampleUpgrade = .ok after ∧
      Gated 0 sampleUpgrade after
        (Admitted sampleConfig (sampleRequest "/ws") "secret" ⟨"/ws", []⟩) := by
  refine (token_gate_holds_iff sampleRuntime sampleMoment 0 sampleUpgrade rfl rfl
    (by simp [sampleUpgrade, SignalingGateway.new])).2 ?_
  intro hadmitted
  cases hadmitted.token

/-- A request with the right token on the path of the gateway is refused. -/
theorem right_token_is_refused :
    ¬ ∀ (r : Runtime) (config : HttpServerConfig) (request : IncomingMessage) (token : String)
      (url : Url) (m : Moment) (c : ConnectionId) (s : Upgrade Unit),
      truthy config.sessionToken = some token → request.parsedUrl r = some url →
      c ∉ s.gateway.peers → ∃ after, onUpgrade r config request m c s = .ok after ∧
        Gated c s after (Admitted config request token url) := by
  intro h
  have hurl : (sampleRequest "/ws?token=secret").parsedUrl sampleRuntime =
      some ⟨"/ws", [("token", "secret")]⟩ := by decide
  have hempty : (0 : ConnectionId) ∉ sampleUpgrade.gateway.peers := by
    simp [sampleUpgrade, SignalingGateway.new]
  obtain ⟨after, hafter, hgated, -⟩ := h sampleRuntime sampleConfig _ "secret" _ sampleMoment 0
    sampleUpgrade rfl hurl hempty
  have hconfig : truthy sampleConfig.sessionToken = some "secret" := rfl
  obtain ⟨status, hrefused⟩ := onUpgrade_refused sampleRuntime sampleMoment 0 sampleUpgrade
    hconfig hurl
  rw [hrefused] at hafter
  cases hafter
  exact hempty (hgated.2 ⟨rfl, rfl, rfl, rfl⟩)

end PonsWarp.Signaling
