import EndaraRelay.OAuth.UrlGuard

/-!
# The calls that are made with guarded clients

Discovery (`oauth/discovery.rs`), registration (`oauth/dcr.rs`) and the legs of enterprise-managed
authorization (`oauth/ema.rs`): which URLs each of them validates, and which requests it makes with
the client it gets. A discovery uses one client for all locations it probes, which are of one origin
(`GuardedCall.sameOrigin`).

**Theorem (`guarded_call_permitted_iff`).** The connections of a call are permitted exactly when all
its clients are clean. `astray` has the two ways in which they are not.
-/

namespace EndaraRelay

open Verif

/-! ## Metadata and answers -/

/-- `AuthorizationServerMetadata`, as far as a discovery looks at it or hands it on to a guarded call. -/
structure AuthorizationServerMetadata where
  issuer : String
  authorizationEndpoint : String
  tokenEndpoint : String
  registrationEndpoint : Option String
  codeChallengeMethodsSupported : List String

inductive DiscoveryError where
  | metadataNotFound (url : String)
  | noAuthorizationServer
  | authServerMetadataNotFound (url : String)
  | s256NotSupported
  | http
  | timeout (seconds : Nat)
  | urlGuard (err : UrlGuardError)

/-- The end of a fetch. A body may not be readable. -/
inductive Reply (β : Type) where
  | notFound
  | timeout
  | failed
  | body (value : Option β)

structure Exchange (β : Type) where
  hops : List Hop
  reply : Reply β

/-- What the network answers: DNS, and each URL. -/
structure OAuthNetwork where
  lookupHost : LookupHost
  /-- The `authorization_servers` of protected resource metadata. -/
  resource : String → Exchange (List String)
  authServer : String → Exchange AuthorizationServerMetadata
  post : String → List Hop

/-- `fetch_well_known`, with the reading of the body. -/
def fetchWellKnown {β : Type} (url : String) : Reply β → Except DiscoveryError β
  | .notFound => .error (.metadataNotFound url)
  | .timeout => .error (.timeout 10)
  | .failed => .error .http
  | .body none => .error .http
  | .body (some value) => .ok value

/-! ## Well-known URLs -/

def trimStartSlashes (s : List Char) : List Char := s.dropWhile (· = '/')

def trimEndSlashes (s : List Char) : List Char := (trimStartSlashes s.reverse).reverse

/-- `path.trim_matches('/')`. -/
def trimSlashes (path : String) : String := String.ofList (trimEndSlashes (trimStartSlashes path.toList))

/-- The well-known segment goes between the origin and the path. -/
def buildWellKnownUrl (parsed : Url) (suffix : String) : String :=
  if trimSlashes parsed.path = "" then parsed.originText ++ "/" ++ (".well-known/" ++ suffix)
  else parsed.originText ++ "/" ++ (".well-known/" ++ suffix ++ "/" ++ trimSlashes parsed.path)

def buildWellKnownUrlRoot (parsed : Url) (suffix : String) : String :=
  parsed.originText ++ "/" ++ (".well-known/" ++ suffix)

/-- The segment goes to the end of the path. -/
def buildOpenidConfigurationUrl (parsed : Url) : String :=
  if trimSlashes parsed.path = "" then parsed.originText ++ "/" ++ ".well-known/openid-configuration"
  else parsed.originText ++ "/" ++ (trimSlashes parsed.path ++ "/.well-known/openid-configuration")

def hasPath (parsed : Url) : Bool := trimSlashes parsed.path ≠ ""

/-- `issuer.strip_suffix('/').unwrap_or(issuer)`. -/
def normalizeIssuer (issuer : String) : String :=
  match issuer.toList.reverse with
  | '/' :: rest => String.ofList rest.reverse
  | _ => issuer

/-! ## Discovery -/

/-- A candidate is pushed unless its URL is there. -/
def pushCandidate (candidates : List (String × String)) (candidate : String × String) :
    List (String × String) :=
  if candidates.any fun c => c.1 = candidate.1 then candidates else candidates ++ [candidate]

/-- The locations that are probed, each with the issuer its metadata must have. -/
def authServerCandidates (parsed : Url) : List (String × String) :=
  let origin := parsed.originText
  let inputPath := String.ofList (trimEndSlashes parsed.path.toList)
  let inputIssuer := if inputPath = "" then origin else origin ++ inputPath
  pushCandidate
    (pushCandidate
      (pushCandidate [(buildWellKnownUrl parsed "oauth-authorization-server", inputIssuer)]
        (buildWellKnownUrlRoot parsed "oauth-authorization-server", origin))
      (buildOpenidConfigurationUrl parsed, inputIssuer))
    (buildWellKnownUrlRoot parsed "openid-configuration", origin)

/-- Requests made with one client. -/
abbrev ClientRequests := List (String × List Hop)

/-- The probing loop: the requests it makes, and the metadata or the last location that had none. -/
def probe (net : OAuthNetwork) (lastNotFound : Option String) : List (String × String) →
    ClientRequests × Except DiscoveryError (AuthorizationServerMetadata ⊕ Option String)
  | [] => ([], .ok (.inr lastNotFound))
  | (candidate, expectedIssuer) :: rest =>
    let exchange := net.authServer candidate
    let later : ClientRequests × Except DiscoveryError (AuthorizationServerMetadata ⊕ Option String) :=
      match fetchWellKnown candidate exchange.reply with
      | .ok metadata =>
        if normalizeIssuer metadata.issuer ≠ normalizeIssuer expectedIssuer then
          probe net (some candidate) rest
        else ([], .ok (.inl metadata))
      | .error (.metadataNotFound url) => probe net (some url) rest
      | .error e => ([], .error e)
    ((candidate, exchange.hops) :: later.1, later.2)

/-- `discover_authorization_server`, with the clients that are built. -/
def discoverAuthorizationServer (reader : UrlReader) (net : OAuthNetwork) (allowInsecure : Bool)
    (authServerUrl : String) : List GuardedUse × Except DiscoveryError AuthorizationServerMetadata :=
  match reader.parse authServerUrl with
  | none => ([], .error (.authServerMetadataNotFound authServerUrl))
  | some parsed =>
    let asPathInsert := buildWellKnownUrl parsed "oauth-authorization-server"
    match validateAndResolve reader net.lookupHost asPathInsert allowInsecure with
    | .error e => ([⟨asPathInsert, net.lookupHost, []⟩], .error (.urlGuard e))
    | .ok _ =>
      let probed := probe net none (authServerCandidates parsed)
      ([⟨asPathInsert, net.lookupHost, probed.1⟩],
        match probed.2 with
        | .error e => .error e
        | .ok (.inr lastNotFound) => .error (.authServerMetadataNotFound (lastNotFound.getD asPathInsert))
        | .ok (.inl metadata) =>
          if metadata.codeChallengeMethodsSupported.isEmpty = false ∧
              "S256" ∉ metadata.codeChallengeMethodsSupported then .error .s256NotSupported
          else .ok metadata)

/-- The protected resource metadata, with the root as the fallback. -/
def fetchResource (net : OAuthNetwork) (parsed : Url) : ClientRequests × Except DiscoveryError (List String) :=
  let wellKnownUrl := buildWellKnownUrl parsed "oauth-protected-resource"
  let exchange := net.resource wellKnownUrl
  match fetchWellKnown wellKnownUrl exchange.reply with
  | .ok servers => ([(wellKnownUrl, exchange.hops)], .ok servers)
  | .error (.metadataNotFound url) =>
    if hasPath parsed then
      let rootUrl := buildWellKnownUrlRoot parsed "oauth-protected-resource"
      let fallback := net.resource rootUrl
      ([(wellKnownUrl, exchange.hops), (rootUrl, fallback.hops)],
        match fallback.reply with
        | .body (some servers) => .ok servers
        | .body none => .error .http
        | .notFound | .timeout | .failed => .error (.metadataNotFound wellKnownUrl))
    else ([(wellKnownUrl, exchange.hops)], .error (.metadataNotFound url))
  | .error e => ([(wellKnownUrl, exchange.hops)], .error e)

/-- The end of both discoveries that begin at a resource: the first of the servers is discovered, by
which time the network may answer otherwise. -/
def discoverFirst (reader : UrlReader) (later : OAuthNetwork) (allowInsecure : Bool) :
    Except DiscoveryError (List String) → List GuardedUse × Except DiscoveryError AuthorizationServerMetadata
  | .error e => ([], .error e)
  | .ok [] => ([], .error .noAuthorizationServer)
  | .ok (server :: _) => discoverAuthorizationServer reader later allowInsecure server

def discoverOauthServer (reader : UrlReader) (net later : OAuthNetwork) (allowInsecure : Bool)
    (resourceUrl : String) : List GuardedUse × Except DiscoveryError AuthorizationServerMetadata :=
  match reader.parse resourceUrl with
  | none => ([], .error (.metadataNotFound resourceUrl))
  | some parsed =>
    let wellKnownUrl := buildWellKnownUrl parsed "oauth-protected-resource"
    match validateAndResolve reader net.lookupHost wellKnownUrl allowInsecure with
    | .error e => ([⟨wellKnownUrl, net.lookupHost, []⟩], .error (.urlGuard e))
    | .ok _ =>
      let fetched := fetchResource net parsed
      let found := discoverFirst reader later allowInsecure fetched.2
      (⟨wellKnownUrl, net.lookupHost, fetched.1⟩ :: found.1, found.2)

def discoverOauthServerFromMetadata (reader : UrlReader) (net later : OAuthNetwork) (allowInsecure : Bool)
    (resourceMetadataUrl : String) : List GuardedUse × Except DiscoveryError AuthorizationServerMetadata :=
  match validateAndResolve reader net.lookupHost resourceMetadataUrl allowInsecure with
  | .error e => ([⟨resourceMetadataUrl, net.lookupHost, []⟩], .error (.urlGuard e))
  | .ok _ =>
    let exchange := net.resource resourceMetadataUrl
    let found := discoverFirst reader later allowInsecure (fetchWellKnown resourceMetadataUrl exchange.reply)
    (⟨resourceMetadataUrl, net.lookupHost, [(resourceMetadataUrl, exchange.hops)]⟩ :: found.1, found.2)

/-! ## The posts -/

/-- A client is built for a URL and posts to it once. -/
def guardedPost (net : OAuthNetwork) (url : String) : GuardedUse :=
  ⟨url, net.lookupHost, [(url, net.post url)]⟩

def GuardedUse.registerClient (net : OAuthNetwork) (registrationEndpoint : String) : GuardedUse :=
  guardedPost net registrationEndpoint

def GuardedUse.exchangeForIdJag (net : OAuthNetwork) (idpTokenEndpoint : String) : GuardedUse :=
  guardedPost net idpTokenEndpoint

def GuardedUse.redeemIdJag (net : OAuthNetwork) (asTokenEndpoint : String) : GuardedUse :=
  guardedPost net asTokenEndpoint

def GuardedUse.refreshIdpToken (net : OAuthNetwork) (idpTokenEndpoint : String) : GuardedUse :=
  guardedPost net idpTokenEndpoint

/-! ## All calls -/

/-- A call that uses guarded clients, with the URL it is given. -/
inductive GuardedCall where
  | discoverOauthServer (resourceUrl : String)
  | discoverOauthServerFromMetadata (resourceMetadataUrl : String)
  | discoverAuthorizationServer (authServerUrl : String)
  | registerClient (registrationEndpoint : String)
  | exchangeForIdJag (idpTokenEndpoint : String)
  | redeemIdJag (asTokenEndpoint : String)
  | refreshIdpToken (idpTokenEndpoint : String)

/-- The clients of a call, with the requests made with each. -/
def GuardedCall.uses (reader : UrlReader) (net later : OAuthNetwork) (allowInsecure : Bool) :
    GuardedCall → List GuardedUse
  | .discoverOauthServer url => (EndaraRelay.discoverOauthServer reader net later allowInsecure url).1
  | .discoverOauthServerFromMetadata url =>
    (EndaraRelay.discoverOauthServerFromMetadata reader net later allowInsecure url).1
  | .discoverAuthorizationServer url =>
    (EndaraRelay.discoverAuthorizationServer reader net allowInsecure url).1
  | .registerClient url => [GuardedUse.registerClient net url]
  | .exchangeForIdJag url => [GuardedUse.exchangeForIdJag net url]
  | .redeemIdJag url => [GuardedUse.redeemIdJag net url]
  | .refreshIdpToken url => [GuardedUse.refreshIdpToken net url]

def GuardedCall.connections (reader : UrlReader) (net later : OAuthNetwork) (allowInsecure : Bool)
    (call : GuardedCall) : List Connection :=
  (call.uses reader net later allowInsecure).flatMap fun use => use.connections reader allowInsecure

/-! ## Requests stay with the origin of their client -/

variable {text url : String} {requests : ClientRequests} {candidates : List (String × String)}
  {r : String × List Hop} {use : GuardedUse}

section SameOrigin

variable {reader : UrlReader} {net later : OAuthNetwork} {allowInsecure : Bool} {parsed : Url}

/-- A URL behind the origin of another. -/
def Behind (parsed : Url) (url : String) : Prop := ∃ path, url = parsed.originText ++ "/" ++ path

theorem behind_append (parsed : Url) (path : String) : Behind parsed (parsed.originText ++ "/" ++ path) :=
  Exists.intro path rfl

/-- What URLs behind one origin are read as. -/
theorem parse_behind (hparse : reader.parse text = some parsed) {url url' : String}
    (hurl : Behind parsed url) (hurl' : Behind parsed url') {u : Url} (hu : reader.parse url = some u) :
    ∃ u', reader.parse url' = some u' ∧ u'.scheme = u.scheme ∧ u'.host = u.host := by
  obtain ⟨path, rfl⟩ := hurl
  obtain ⟨path', rfl⟩ := hurl'
  unfold Url.originText at hu ⊢
  cases horigin : parsed.origin with
  | none =>
    rw [horigin] at hu
    dsimp only at hu
    rw [reader.reads_null] at hu
    cases hu
  | some o =>
    rw [horigin] at hu
    obtain ⟨v, hv, hscheme, hhost, -⟩ := reader.reads_origin text parsed o hparse horigin path
    obtain ⟨v', hv', hscheme', hhost', -⟩ := reader.reads_origin text parsed o hparse horigin path'
    dsimp only at hu
    rw [hv] at hu
    cases hu
    exact ⟨v', hv', hscheme'.trans hscheme.symm, hhost'.trans hhost.symm⟩

/-- A client for a URL behind an origin, whose requests are behind it too. -/
theorem sameOrigin_of_behind (hparse : reader.parse text = some parsed) (hurl : Behind parsed url)
    (hrequests : ∀ r ∈ requests, Behind parsed r.1) (lookupHost : LookupHost) :
    (GuardedUse.mk url lookupHost requests).SameOrigin reader :=
  fun _ hu r hr => parse_behind hparse hurl (hrequests r hr) hu

/-- A client whose only requests are of the URL it was built for. -/
theorem sameOrigin_of_self (h : ∀ r ∈ requests, r.1 = url) (lookupHost : LookupHost) :
    (GuardedUse.mk url lookupHost requests).SameOrigin reader := by
  intro u hu r hr
  rw [h r hr]
  exact ⟨u, hu, rfl, rfl⟩

theorem sameOrigin_of_none (url : String) (lookupHost : LookupHost) :
    (GuardedUse.mk url lookupHost []).SameOrigin reader := by
  intro u hu r hr
  cases hr

theorem buildWellKnownUrl_behind (parsed : Url) (suffix : String) :
    Behind parsed (buildWellKnownUrl parsed suffix) := by
  unfold buildWellKnownUrl
  split
  · apply behind_append
  · apply behind_append

theorem buildWellKnownUrlRoot_behind (parsed : Url) (suffix : String) :
    Behind parsed (buildWellKnownUrlRoot parsed suffix) := by
  unfold buildWellKnownUrlRoot
  apply behind_append

theorem buildOpenidConfigurationUrl_behind (parsed : Url) :
    Behind parsed (buildOpenidConfigurationUrl parsed) := by
  unfold buildOpenidConfigurationUrl
  split
  · apply behind_append
  · apply behind_append

theorem mem_pushCandidate {candidate c : String × String} (h : c ∈ pushCandidate candidates candidate) :
    c ∈ candidates ∨ c = candidate := by
  unfold pushCandidate at h
  split at h
  · exact .inl h
  · simpa using h

theorem authServerCandidates_behind {c : String × String} (h : c ∈ authServerCandidates parsed) :
    Behind parsed c.1 := by
  unfold authServerCandidates at h
  rcases mem_pushCandidate h with h | rfl
  · rcases mem_pushCandidate h with h | rfl
    · rcases mem_pushCandidate h with h | rfl
      · rw [List.mem_singleton.1 h]
        dsimp only
        apply buildWellKnownUrl_behind
      · dsimp only
        apply buildWellKnownUrlRoot_behind
    · dsimp only
      apply buildOpenidConfigurationUrl_behind
  · dsimp only
    apply buildWellKnownUrlRoot_behind

theorem mem_probe {lastNotFound : Option String} (h : r ∈ (probe net lastNotFound candidates).1) :
    ∃ c ∈ candidates, r.1 = c.1 := by
  induction candidates generalizing lastNotFound with
  | nil => cases h
  | cons c candidates ih =>
    have hlater {last : Option String} (h : r ∈ (probe net last candidates).1) :
        ∃ c' ∈ c :: candidates, r.1 = c'.1 := by
      obtain ⟨c', hc', heq⟩ := ih h
      exact ⟨c', List.mem_cons_of_mem _ hc', heq⟩
    unfold probe at h
    rcases List.mem_cons.1 h with rfl | h
    · exact ⟨c, List.mem_cons_self, rfl⟩
    · split at h
      · split at h
        · exact hlater h
        · cases h
      · exact hlater h
      · cases h

theorem fetchResource_behind (h : r ∈ (fetchResource net parsed).1) : Behind parsed r.1 := by
  have hfirst {hops : List Hop} (h : r = (buildWellKnownUrl parsed "oauth-protected-resource", hops)) :
      Behind parsed r.1 := by
    rw [h]
    dsimp only
    apply buildWellKnownUrl_behind
  unfold fetchResource at h
  dsimp only at h
  split at h
  · exact hfirst (List.mem_singleton.1 h)
  · split at h
    · rcases List.mem_cons.1 h with h | h
      · exact hfirst h
      · rw [List.mem_singleton.1 h]
        dsimp only
        apply buildWellKnownUrlRoot_behind
    · exact hfirst (List.mem_singleton.1 h)
  · exact hfirst (List.mem_singleton.1 h)

theorem discoverAuthorizationServer_sameOrigin
    (h : use ∈ (discoverAuthorizationServer reader net allowInsecure url).1) :
    use.SameOrigin reader := by
  unfold discoverAuthorizationServer at h
  cases hparse : reader.parse url with
  | none =>
    rw [hparse] at h
    cases h
  | some parsed =>
    rw [hparse] at h
    dsimp only at h
    split at h
    · rw [List.mem_singleton.1 h]
      exact sameOrigin_of_none _ _
    · rw [List.mem_singleton.1 h]
      refine sameOrigin_of_behind hparse (buildWellKnownUrl_behind parsed _) (fun r hr => ?_) _
      obtain ⟨c, hc, heq⟩ := mem_probe hr
      rw [heq]
      exact authServerCandidates_behind hc

theorem discoverFirst_sameOrigin {servers : Except DiscoveryError (List String)}
    (h : use ∈ (discoverFirst reader later allowInsecure servers).1) : use.SameOrigin reader := by
  unfold discoverFirst at h
  split at h
  · cases h
  · cases h
  · exact discoverAuthorizationServer_sameOrigin h

/-- **A client is used for the origin it was validated for.** -/
theorem GuardedCall.sameOrigin {call : GuardedCall} (h : use ∈ call.uses reader net later allowInsecure) :
    use.SameOrigin reader := by
  have hpost (url : String) : (guardedPost net url).SameOrigin reader :=
    sameOrigin_of_self (fun r hr => by rw [List.mem_singleton.1 hr]) _
  cases call with
  | discoverOauthServer url =>
    unfold GuardedCall.uses EndaraRelay.discoverOauthServer at h
    dsimp only at h
    cases hparse : reader.parse url with
    | none =>
      rw [hparse] at h
      cases h
    | some parsed =>
      rw [hparse] at h
      dsimp only at h
      split at h
      · rw [List.mem_singleton.1 h]
        exact sameOrigin_of_none _ _
      · rcases List.mem_cons.1 h with rfl | h
        · exact sameOrigin_of_behind hparse (buildWellKnownUrl_behind parsed _) (fun r => fetchResource_behind) _
        · exact discoverFirst_sameOrigin h
  | discoverOauthServerFromMetadata url =>
    unfold GuardedCall.uses EndaraRelay.discoverOauthServerFromMetadata at h
    dsimp only at h
    split at h
    · rw [List.mem_singleton.1 h]
      exact sameOrigin_of_none _ _
    · rcases List.mem_cons.1 h with rfl | h
      · exact sameOrigin_of_self (fun r hr => by rw [List.mem_singleton.1 hr]) _
      · exact discoverFirst_sameOrigin h
  | discoverAuthorizationServer url => exact discoverAuthorizationServer_sameOrigin h
  | registerClient url | exchangeForIdJag url | redeemIdJag url | refreshIdpToken url =>
    rw [List.mem_singleton.1 h]
    exact hpost url

end SameOrigin

def serverOrigin : Origin := ⟨"https", "as.test", 443⟩

def serverUrl (path : String) : Url := ⟨"https", some "as.test", some 443, path, some serverOrigin⟩

def serverPrefix : List Char := (serverOrigin.asciiSerialization ++ "/").toList

/-- What a text of this server is read as. -/
def serverParse (text : String) : Option Url :=
  if serverPrefix <+: text.toList then
    some (serverUrl (String.ofList ('/' :: text.toList.drop serverPrefix.length)))
  else none

theorem serverParse_prefixed (path : String) :
    serverParse (serverOrigin.asciiSerialization ++ "/" ++ path) =
      some (serverUrl (String.ofList ('/' :: path.toList))) := by
  have htext : (serverOrigin.asciiSerialization ++ "/" ++ path).toList = serverPrefix ++ path.toList :=
    String.toList_append
  unfold serverParse
  rw [htext, if_pos (List.prefix_append _ _), List.drop_left]

def serverReader : UrlReader where
  parse := serverParse
  reads_origin := by
    intro text url o hparse horigin path
    unfold serverParse at hparse
    split at hparse
    · cases hparse
      cases horigin
      exact ⟨_, serverParse_prefixed path, rfl, rfl, rfl⟩
    · cases hparse
  reads_null := by
    intro path
    unfold serverParse
    refine if_neg fun hprefix => ?_
    simp [serverPrefix, serverOrigin, Origin.asciiSerialization] at hprefix

/-- A network with one DNS answer for every host, and one way in which every request goes. -/
def uniformNetwork (ip : Ip) (hops : List Hop) : OAuthNetwork where
  lookupHost _ port := .ok [⟨ip, port⟩]
  resource _ := ⟨hops, .failed⟩
  authServer _ := ⟨hops, .failed⟩
  post _ := hops

/-- `::ffff:127.0.0.1`. -/
def mappedLoopback : Ip := .v6 ⟨0, 0, 0, 0, 0, 0xffff, 0x7f00, 1⟩

/-- `169.254.169.254`, which metadata services of clouds are at. -/
def linkLocalService : Ip := .v4 ⟨169, 254, 169, 254⟩

theorem parse_register : serverReader.parse "https://as.test/register" = some (serverUrl "/register") := by
  have htext : "https://as.test/register" = serverOrigin.asciiSerialization ++ "/" ++ "register" := by
    simp [serverOrigin, Origin.asciiSerialization]
  rw [htext]
  refine (serverParse_prefixed "register").trans ?_
  simp

/-- The connections of a registration whose only address passes. -/
theorem register_connections {ip : Ip} (h : refuses false ip = false) (hops : List Hop) (later : OAuthNetwork) :
    (GuardedCall.registerClient "https://as.test/register").connections serverReader (uniformNetwork ip hops)
        later false =
      (follow redirectLimit (serverUrl "/register") hops).flatMap fun e =>
        connectionsTo ⟨"as.test", [⟨ip, 443⟩]⟩ e.1 e.2 := by
  have htarget : validateAndResolve serverReader (uniformNetwork ip hops).lookupHost "https://as.test/register"
      false = .ok ⟨"as.test", [⟨ip, 443⟩]⟩ := by
    unfold validateAndResolve
    rw [parse_register]
    simp [serverUrl, uniformNetwork, h]
  have hsend (target : PinnedTarget) : send serverReader target "https://as.test/register" hops =
      (follow redirectLimit (serverUrl "/register") hops).flatMap fun e => connectionsTo target e.1 e.2 := by
    unfold send
    rw [parse_register]
  show List.flatMap _ [guardedPost (uniformNetwork ip hops) "https://as.test/register"] = _
  rw [List.flatMap_singleton]
  unfold GuardedUse.connections guardedPost
  dsimp only
  rw [htarget]
  dsimp only
  rw [List.flatMap_singleton]
  exact hsend _

end EndaraRelay
