import ScopedStore.Account.Http
import ScopedStore.Proofs.Account.Connections

/-! Where the token goes. Whether an endpoint is local is guessed from its text before that is read
and decided by its host afterwards. Only the host counts: for the own machine requests are the same
whatever the token is, and to any other they carry it and are encrypted. -/
namespace ScopedStore.Account

theorem Config.token_of_not_lacksToken {config : Config} (h : config.lacksToken = false) :
    ∃ token, config.token = some token ∧ Text.isBlankText token = false := by
  unfold lacksToken at h
  cases htoken : config.token with
  | none =>
    rw [htoken] at h
    cases h
  | some token =>
    rw [htoken] at h
    exact ⟨token, rfl, h⟩

/-- An endpoint keeps its scheme where the slashes at its end are dropped and a method follows. -/
theorem Connection.methodUrl_https (config : Config) {url : Url} (hscheme : url.scheme = "https")
    (method : String) :
    ∃ rest, ((towards config url).methodUrl method).toList = "https".toList ++ ':' :: rest := by
  have hendpoint : ∃ rest, (trimSlashes url.text).toList = "https".toList ++ ':' :: rest := by
    unfold trimSlashes Url.text Url.chars
    rw [String.toList_ofList, String.toList_ofList, hscheme]
    simp only [List.append_assoc, List.cons_append]
    rw [Url.trimEnd_append (by decide)]
    exact ⟨_, rfl⟩
  obtain ⟨rest, hrest⟩ := hendpoint
  unfold methodUrl towards
  simp only [String.toList_append, hrest, List.append_assoc, List.cons_append]
  exact ⟨_, rfl⟩

theorem Http.not_bearer_of_basic {url : Url} {credentials : String}
    (h : Http.basicCredentials url = some credentials) (token : String) :
    credentials ≠ "Bearer " ++ token := by
  unfold Http.basicCredentials at h
  split at h
  · split at h
    · cases h
    · cases h
      intro he
      have hchars := congrArg (fun text => text.toList.drop 1 |>.head?) he
      simp at hchars
  · cases h

section Requests
variable [Url.Naming] {config : Config} {connection : Connection} {url : Url}

/-- An endpoint does not depend on the token. -/
theorem Config.endpoint_token (config : Config) (token : Option String) :
    { config with token := token }.endpoint = config.endpoint := by
  unfold endpoint
  dsimp only

theorem Http.request?_eq_some {rpc : Rpc} {target : Url} {request : Http.Request}
    (h : Http.request? connection rpc = some (target, request)) :
    Url.parse (connection.methodUrl rpc.method) = .ok target ∧
      request.authorizations = Http.authorizations connection target := by
  unfold Http.request? at h
  split at h
  · cases h
  next hparse =>
    split at h
    · cases h
      exact ⟨hparse, rfl⟩
    · cases h

/-- The token never travels in clear. What an endpoint's text looks like does not count: only if its
host is not the own machine do requests carry the token, and then they are encrypted. Otherwise they
are the same whatever the token is. -/
theorem token_never_in_clear (h : Connection.ofConfig config = .ok connection) :
    ∃ url host, config.endpoint = .ok url ∧ url.host = some host ∧
      (host ∉ ownHosts → url.scheme = "https" ∧
        ∃ token, config.token = some token ∧ Text.isBlankText token = false ∧
          ∀ rpc target request, Http.request? connection rpc = some (target, request) →
            target.scheme = "https" ∧ "Bearer " ++ token ∈ request.authorizations) ∧
      (host ∈ ownHosts →
        (∀ rpc target request, Http.request? connection rpc = some (target, request) →
          ∀ token, "Bearer " ++ token ∉ request.authorizations) ∧
        ∀ token, Connection.ofConfig { config with token := token } = .ok connection) := by
  obtain ⟨url, hurl, hallowed, hagent, rfl⟩ := Connection.ofConfig_eq_ok_iff.mp h
  obtain ⟨hweb, host, hhost, hcanonical⟩ := Config.endpoint_eq_ok hurl
  have hlocal : Config.hasLocalHost url = true ↔ host ∈ ownHosts := by
    rw [← isLocalHost_iff hcanonical]
    unfold Config.hasLocalHost
    rw [hhost]
    rfl
  refine ⟨url, host, hurl, hhost, fun hforeign => ?_, fun hown => ⟨?_, fun token => ?_⟩⟩
  · have hremote : ¬ Config.hasLocalHost url = true := mt hlocal.mp hforeign
    obtain ⟨hscheme, hlacks⟩ := hallowed.resolve_left hremote
    obtain ⟨token, htoken, hblank⟩ := Config.token_of_not_lacksToken hlacks
    refine ⟨hscheme, token, htoken, hblank, fun rpc target request hrequest => ?_⟩
    obtain ⟨hparse, hsent⟩ := Http.request?_eq_some hrequest
    obtain ⟨rest, hrest⟩ := Connection.methodUrl_https config hscheme rpc.method
    refine ⟨Url.parse_https hrest hparse, ?_⟩
    rw [hsent]
    unfold Http.authorizations Connection.towards
    dsimp only
    rw [if_neg hremote, htoken]
    exact List.mem_append_right _ List.mem_cons_self
  · intro rpc target request hrequest token hmem
    rw [(Http.request?_eq_some hrequest).2] at hmem
    unfold Http.authorizations Connection.towards at hmem
    dsimp only at hmem
    rw [if_pos (hlocal.mpr hown)] at hmem
    simp only [Option.map_none, Option.toList_none, List.append_nil, Option.mem_toList] at hmem
    exact Http.not_bearer_of_basic hmem token rfl
  · refine Connection.ofConfig_eq_ok_iff.mpr
      ⟨url, (config.endpoint_token token).trans hurl, .inl (hlocal.mpr hown), hagent, ?_⟩
    unfold Connection.towards
    rw [if_pos (hlocal.mpr hown), if_pos (hlocal.mpr hown)]

end Requests

/-- An endpoint whose user looks like a local host and goes with the token, and one on the own
machine whose text does not look local. -/
theorem token_never_in_clear_disguised :
    let config : Config :=
      { uri := " https://localhost:80@Ex%41mple.COM:8443/base/ ", token := some "secret" }
    let connection : Connection :=
      { endpoint := "https://localhost:80@example.com:8443/base", token := some "secret",
        userAgent := defaultUserAgent, timeoutMs := none }
    let own : Config := { uri := "user:pw@[0::0001]:9", token := some "secret" }
    let ownConnection : Connection :=
      { endpoint := "https://user:pw@[::1]:9", token := none, userAgent := defaultUserAgent,
        timeoutMs := none }
    Connection.ofConfig config = .ok connection ∧ Connection.ofConfig own = .ok ownConnection ∧
      (Http.request? connection (.getValue ⟨{}⟩)).map (fun sent =>
        (sent.1.host, sent.2.authorizations)) =
          some (some (.domain "example.com"), ["Basic bG9jYWxob3N0Ojgw", "Bearer secret"]) ∧
      (∀ rpc target request, Http.request? connection rpc = some (target, request) →
        target.scheme = "https" ∧ "Bearer secret" ∈ request.authorizations) ∧
      ∀ token, Connection.ofConfig { own with token := token } = .ok ownConnection := by
  intro config connection own ownConnection
  have hendpoint : config.endpoint = .ok
      { scheme := "https", username := "localhost", password := some "80",
        host := some (.domain "example.com"), port := some 8443,
        path := .segments ["base", ""] } := by
    decide +kernel
  have hownEndpoint : own.endpoint = .ok
      { scheme := "https", username := "user", password := some "pw",
        host := some (.ipv6 [0, 0, 0, 0, 0, 0, 0, 1]), port := some 9,
        path := .segments [""] } := by
    decide +kernel
  have hagent : Connection.isHeaderValue defaultUserAgent = true := by decide
  have hconnection : Connection.ofConfig config = .ok connection :=
    Connection.ofConfig_eq_ok_iff.mpr
      ⟨_, hendpoint, .inr ⟨rfl, by decide⟩, hagent, by decide +kernel⟩
  have hown : Connection.ofConfig own = .ok ownConnection :=
    Connection.ofConfig_eq_ok_iff.mpr ⟨_, hownEndpoint, .inl (by cbv), hagent, by decide +kernel⟩
  refine ⟨hconnection, hown, by decide +kernel, ?_, ?_⟩
  · obtain ⟨url, host, hurl, hhost, hforeign, _⟩ := token_never_in_clear hconnection
    rw [hendpoint] at hurl
    cases hurl
    cases hhost
    obtain ⟨_, token, htoken, _, hsent⟩ := hforeign (by decide)
    cases htoken
    exact hsent
  · obtain ⟨url, host, hurl, hhost, _, hlocal⟩ := token_never_in_clear hown
    rw [hownEndpoint] at hurl
    cases hurl
    cases hhost
    exact (hlocal (by decide)).2

end ScopedStore.Account
