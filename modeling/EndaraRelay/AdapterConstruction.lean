import EndaraRelay.Config

/-!
# What adapters are built from

`create_adapter` of `watcher.rs` and its OAuth twin in `main.rs`, as functions from the settings to
the adapter they construct. An `AdapterSpec` is that adapter with the settings it holds. Where the
code asks the outside world (the credential store, discovery, the handshake), the spec holds what
the question was asked with: two adapters of one spec were built alike, whatever the answers.

- `createAdapter` is the path of hot reload and of deferred start-up.
- `startupAdapter` is the path of a cold start. It looks at the transport before it looks for an
  EMA block, `createAdapter` the other way round.
-/

namespace EndaraRelay

/-- How a STDIO server process is isolated. -/
inductive IsolationMode where
  | none
  | container
deriving DecidableEq, Repr

def IsolationMode.fromConfigValue (value : Option String) : IsolationMode :=
  if value = some "container" then .container else .none

/-- Where the URL of refresh-token requests comes from. -/
inductive TokenEndpointSource where
  /-- The `token_endpoint` of the settings. -/
  | explicit (url : String)
  /-- Discovery against the OAuth server, with `{base}/token` as the fallback. -/
  | discovered (base : String) (allowInsecure : Bool)
  /-- `/token`, when there is no server to ask. -/
  | conventional
deriving DecidableEq, Repr

/-- The identity provider of an EMA endpoint: the key of the credential pool, the issuer, the
resource and the registered client. -/
structure ResolvedEmaIdp where
  idpKey : String
  idpIssuer : String
  resource : String
  clientId : Option String
deriving DecidableEq, Repr

/-- An adapter, by the settings it was built from. -/
inductive AdapterSpec where
  /-- The placeholder of an endpoint that is being initialized. -/
  | starting
  | failed (error : String) (serverTypeOverride : Option String)
  | stdio (command : String) (args : List String) (env : List (String × String))
      (serverTypeOverride : Option String) (endpointName : String) (isolation : IsolationMode)
      (containerImage : Option String) (mounts : List String)
  | sse (url : String) (headers : List (String × String)) (serverTypeOverride : Option String)
      (endpointName : String)
  | http (url : String) (headers : List (String × String)) (serverTypeOverride : Option String)
      (endpointName : String) (jitAllowInsecure : Bool)
  /-- The client is that of the credential store for `endpointName`, or else the one given. -/
  | oauth (endpointName : String) (url : String) (tokenEndpoint : TokenEndpointSource)
      (clientId : String) (clientSecret : Option String) (serverTypeOverride : Option String)
      (allowInsecure : Bool)
  | ema (endpointName : String) (url : String) (idp : ResolvedEmaIdp) (resourceScope : Option String)
      (serverTypeOverride : Option String) (allowInsecure : Bool)
deriving DecidableEq, Repr

def resolveOauthTokenEndpoint (ep : EndpointConfig) (allowInsecure : Bool) : TokenEndpointSource :=
  match trimmedNonEmpty ep.tokenEndpoint with
  | some explicit => .explicit explicit
  | none =>
    match trimmedNonEmpty ep.oauthServerUrl with
    | none => .conventional
    | some base => .discovered base allowInsecure

def isEmaEndpoint (ep : EndpointConfig) : Bool :=
  match ep.auth with
  | some auth => auth.authType = "ema"
  | none => false

/-- The IdP of an EMA endpoint: by the organization it names, or by a bare issuer. -/
def resolveEmaIdp (ep : EndpointConfig) (organizations : List ConfigOrganization) :
    Option ResolvedEmaIdp := do
  let auth ← ep.auth
  if auth.authType ≠ "ema" then none
  let resource ← trimmedNonEmpty auth.resource
  match trimmedNonEmpty auth.organization with
  | some orgName =>
    let org ← organizations.find? fun o => o.name = orgName
    if trim org.idp = "" then none
    some ⟨org.name, trim org.idp, resource, trimmedNonEmpty org.clientId⟩
  | none =>
    let idpIssuer ← trimmedNonEmpty auth.idp
    some ⟨idpIssuer, idpIssuer, resource, none⟩

/-- The endpoint's scopes, space-delimited. -/
def resourceScope (ep : EndpointConfig) : Option String :=
  (ep.scopes.map fun s => String.intercalate " " s).filter (· ≠ "")

def buildEmaAdapter (allowInsecure : Bool) (organizations : List ConfigOrganization)
    (ep : EndpointConfig) : AdapterSpec :=
  match resolveEmaIdp ep organizations with
  | none => .failed ("EMA endpoint '" ++ ep.name ++
      "' is missing a resolvable organization/idp and resource") ep.serverTypeOverride
  | some idp =>
    if ep.transport ≠ .http ∧ ep.transport ≠ .oauth then
      .failed ("EMA endpoint '" ++ ep.name ++
        "' requires transport \"http\" or \"oauth\", got \"" ++ ep.transport.display ++ "\"")
        ep.serverTypeOverride
    else if trim (ep.url.getD "") = "" then
      .failed ("EMA endpoint '" ++ ep.name ++
        "' requires a non-empty 'url' (upstream MCP server URL)") ep.serverTypeOverride
    else
      .ema ep.name (ep.url.getD "") idp (resourceScope ep) ep.serverTypeOverride allowInsecure

/-- The `OAuthAdapter` of a plain OAuth endpoint. -/
def oauthAdapter (allowInsecure : Bool) (ep : EndpointConfig) : AdapterSpec :=
  .oauth ep.name (ep.url.getD "") (resolveOauthTokenEndpoint ep allowInsecure)
    (ep.clientId.getD "") ep.clientSecret ep.serverTypeOverride allowInsecure

def createAdapter (allowInsecure : Bool) (organizations : List ConfigOrganization)
    (ep : EndpointConfig) : AdapterSpec :=
  if isEmaEndpoint ep then buildEmaAdapter allowInsecure organizations ep
  else
    match ep.transport with
    | .stdio => .stdio (ep.command.getD "") (ep.args.getD []) (ep.env.getD [])
        ep.serverTypeOverride ep.name (.fromConfigValue ep.isolation) ep.containerImage
        (ep.mounts.getD [])
    | .sse => .sse (ep.url.getD "") (ep.headers.getD []) ep.serverTypeOverride ep.name
    | .http => .http (ep.url.getD "") (ep.headers.getD []) ep.serverTypeOverride ep.name
        allowInsecure
    | .oauth => oauthAdapter allowInsecure ep

/-- The adapter a cold start builds: OAuth endpoints first, everything else by `create_adapter`. -/
def startupAdapter (allowInsecure : Bool) (organizations : List ConfigOrganization)
    (ep : EndpointConfig) : AdapterSpec :=
  if ep.transport = .oauth then oauthAdapter allowInsecure ep
  else createAdapter allowInsecure organizations ep

/-- `relay.allow_insecure_oauth.unwrap_or(false)`. -/
def Config.insecure (cfg : Config) : Bool := cfg.allowInsecureOauth.getD false

/-! ## Where the two paths differ -/

/-- **Cold start and hot reload build different adapters** exactly for an EMA endpoint over the
`oauth` transport. -/
theorem startupAdapter_eq_iff (allowInsecure : Bool) (organizations : List ConfigOrganization)
    (ep : EndpointConfig) :
    startupAdapter allowInsecure organizations ep = createAdapter allowInsecure organizations ep ↔
      ¬ (ep.transport = .oauth ∧ isEmaEndpoint ep = true) := by
  unfold startupAdapter
  by_cases ht : ep.transport = .oauth
  · by_cases hema : isEmaEndpoint ep = true
    · simp only [ht, hema, if_true, createAdapter, true_and, not_true_eq_false, iff_false]
      unfold buildEmaAdapter oauthAdapter
      split
      · simp
      · split
        · simp
        · split <;> simp
    · simp [ht, hema, createAdapter]
  · simp [ht]

end EndaraRelay
