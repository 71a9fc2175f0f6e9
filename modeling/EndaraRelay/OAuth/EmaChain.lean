import EndaraRelay.ConfigRequests
import EndaraRelay.JsonRpc
import EndaraRelay.Lib.Program
import EndaraRelay.OAuth.Failure

/-!
# The chain of an enterprise-managed endpoint

`oauth/ema.rs` in full: from an ID token to an ID-JAG at the identity provider (RFC 8693), from there to
an access token at the resource authorization server (RFC 7523), with the renewal of the ID token and the
store around it. `Failure` has the same chain as far as its errors sort.

A call is a program (`Prog`) over what it asks of the world: the clock, the store, the two locks, the
URL guard, and the servers. A file is written as it is there, next to its place and then moved. The two
pairs of client credentials are threaded by position like in the source.
-/

namespace EndaraRelay.Ema

open Verif

/-! ## What is stored -/

structure TokenSet where
  accessToken : String
  refreshToken : Option String
  expiresAt : Option Nat
  tokenType : String
  scope : Option String
  issuedAt : Option Nat
deriving DecidableEq

structure IdpCredentials where
  idpIssuer : String
  idToken : String
  refreshToken : Option String
  idTokenExpiresAt : Option Nat
  obtainedAt : Nat
deriving DecidableEq

/-- A file of the token manager with what it is to hold: the tokens of an endpoint, or the credentials
of a sign-in. -/
inductive EmaFile where
  | token (endpoint : String) (tokens : TokenSet)
  | idp (key : String) (creds : IdpCredentials)
deriving DecidableEq

/-! ## Errors -/

inductive EmaError where
  | authorizationDenied (error description : String)
  | invalidIdJag (reason : String)
  | reauthRequired (reason : String)
  | tokenEndpoint (status : Nat) (body : String)
  | malformedResponse (field : String)
  | http (error : String)
  | urlGuard (error : String)
  | storage (error : String)
  | staleGrant
deriving DecidableEq

/-- The crates that read and show texts: base64 without padding, JSON from bytes and from text, and the
status of a response. -/
structure Codecs where
  decodeBase64 : List Char → Except String (List UInt8)
  fromSlice : List UInt8 → Except String Json
  fromStr : String → Option Json
  showStatus : Nat → String

/-- `Display`. -/
def EmaError.text (codecs : Codecs) : EmaError → String
  | authorizationDenied error description =>
    "IdP denied authorization (non-retryable): " ++ error ++ ": " ++ description
  | invalidIdJag reason => "ID-JAG validation failed: " ++ reason
  | reauthRequired reason => "re-authentication (SSO) required: " ++ reason
  | tokenEndpoint status body => "token endpoint returned " ++ codecs.showStatus status ++ ": " ++ body
  | malformedResponse field => "token endpoint response missing field '" ++ field ++ "'"
  | http error => "HTTP request failed: " ++ error
  | urlGuard error => "EMA URL rejected by SSRF guard: " ++ error
  | storage error => "token storage error: " ++ error
  | staleGrant => "grant discarded or replaced while EMA refresh was in flight"

/-! ## Forms -/

/-- The pairs of a form, in their order. -/
abbrev Form := List (String × String)

def endaraClientMetadataUrl : String := "https://endara.ai/oauth/client-metadata.json"

def grantTypeTokenExchange : String := "urn:ietf:params:oauth:grant-type:token-exchange"

def requestedTokenTypeIdJag : String := "urn:ietf:params:oauth:token-type:id-jag"

def subjectTokenTypeIdToken : String := "urn:ietf:params:oauth:token-type:id_token"

def grantTypeJwtBearer : String := "urn:ietf:params:oauth:grant-type:jwt-bearer"

def grantTypeRefreshToken : String := "refresh_token"

/-- A pair that is appended only when it has a value. -/
def optionalPair (name : String) : Option String → Form
  | some value => [(name, value)]
  | none => []

def buildIdJagExchangeForm (idToken resourceAsIssuer resource : String)
    (scope clientId clientSecret : Option String) : Form :=
  [("grant_type", grantTypeTokenExchange), ("requested_token_type", requestedTokenTypeIdJag),
    ("audience", resourceAsIssuer), ("resource", resource), ("subject_token", idToken),
    ("subject_token_type", subjectTokenTypeIdToken)] ++
  optionalPair "scope" (scope.filter (· ≠ "")) ++
  [("client_id", clientId.getD endaraClientMetadataUrl)] ++
  optionalPair "client_secret" clientSecret

def buildJwtBearerForm (idJag : String) (scope clientId clientSecret : Option String) : Form :=
  [("grant_type", grantTypeJwtBearer), ("assertion", idJag)] ++
  optionalPair "scope" (scope.filter (· ≠ "")) ++
  [("client_id", clientId.getD endaraClientMetadataUrl)] ++
  optionalPair "client_secret" clientSecret

def buildRefreshTokenForm (refreshToken : String) (clientId clientSecret : Option String) (scope : String) :
    Form :=
  [("grant_type", grantTypeRefreshToken), ("refresh_token", refreshToken),
    ("client_id", clientId.getD endaraClientMetadataUrl), ("scope", scope)] ++
  optionalPair "client_secret" clientSecret

def composeIdpScope (resourceScope : Option String) (wantOffline : Bool) : String :=
  let parts := (splitWhitespace (resourceScope.getD "")).foldl
    (fun parts tok => if tok ∈ parts then parts else parts ++ [tok]) ["openid"]
  let parts := if wantOffline ∧ "offline_access" ∉ parts then parts ++ ["offline_access"] else parts
  String.intercalate " " parts

/-! ## What is asked of the world -/

/-- A POST of a form. -/
structure EmaRequest where
  url : String
  form : Form
deriving DecidableEq

inductive EmaOp where
  /-- `now_unix`. -/
  | now
  | load (endpoint : String)
  | loadIdp (key : String)
  | lockRefresh
  | unlockRefresh
  | lockApply
  | unlockApply
  /-- The grant epoch of the adapter. -/
  | readEpoch
  /-- `url_guard::validated_client`. -/
  | guard (url : String) (allowInsecure : Bool)
  | post (request : EmaRequest)
  | writeTmp (file : EmaFile)
  | setPermissions (file : EmaFile)
  | rename (file : EmaFile)
deriving DecidableEq

/-- A response: its body as text, which may break off, and as JSON. -/
structure EmaResponse where
  status : Nat
  text : Option String
  json : Except String Json

/-- What an operation is answered. Each reads its own field. -/
structure EmaAnswer where
  now : Nat := 0
  loaded : Except String (Option TokenSet) := .ok none
  loadedIdp : Except String (Option IdpCredentials) := .ok none
  epoch : Nat := 0
  guarded : Except String Unit := .ok ()
  /-- Or the transport fails. -/
  response : Except String EmaResponse := .error ""
  /-- Of a step of a save. -/
  written : Except String Unit := .ok ()

abbrev EmaM := Prog EmaOp EmaAnswer EmaError

abbrev EmaTrace := List (EmaOp × EmaAnswer)

def nowUnix : EmaM Nat := .call .now fun answer => .ok answer.now

/-- `u64` addition in a release build. -/
def addSecs (now secs : Nat) : Nat := (now + secs) % UInt64.size

/-- `TokenManager::save` and `TokenManager::save_idp`. -/
def save (file : EmaFile) : EmaM Unit := do
  Prog.call (.writeTmp file) fun answer => answer.written.mapError .storage
  Prog.call (.setPermissions file) fun answer => answer.written.mapError .storage
  Prog.call (.rename file) fun answer => answer.written.mapError .storage

/-- A guarded client is built and posts a form. -/
def postForm (url : String) (allowInsecure : Bool) (form : Form) : EmaM EmaResponse := do
  Prog.call (.guard url allowInsecure) fun answer => answer.guarded.mapError .urlGuard
  Prog.call (.post ⟨url, form⟩) fun answer => answer.response.mapError .http

/-- The text under a key, or none. -/
def text (json : Json) (key : String) : Option String := (json.get key).bind Json.asStr

/-- A text that a response must have. -/
def requireText (json : Json) (field : String) : Except EmaError String :=
  let value := (text json field).getD ""
  if value = "" then .error (.malformedResponse field) else .ok value

/-! ## Reading an ID-JAG -/

def expSkewSecs : Nat := 30

def decodeJwtClaims (codecs : Codecs) (jwt : String) : Except EmaError Json :=
  match jwt.toList.splitOn '.' with
  | _ :: payload :: _ :: _ =>
    match codecs.decodeBase64 (payload.reverse.dropWhile (· = '=')).reverse with
    | .error e => .error (.invalidIdJag ("base64url decode of claims failed: " ++ e))
    | .ok bytes =>
      match codecs.fromSlice bytes with
      | .error e => .error (.invalidIdJag ("claims are not valid JSON: " ++ e))
      | .ok claims => .ok claims
  | _ => .error (.invalidIdJag "malformed JWT: expected three dot-separated segments")

def requireStr (claims : Json) (field : String) : Except EmaError String :=
  match text claims field with
  | some s => .ok s
  | none => .error (.invalidIdJag ("missing or non-string '" ++ field ++ "' claim"))

/-- `aud` may be one text or an array of them. -/
def audContains (aud : Option Json) (expected : String) : Bool :=
  match aud with
  | some (.str s) => s == expected
  | some (.arr items) => items.any fun v => v.asStr == some expected
  | _ => false

structure IdJagClaims where
  iss : String
  aud : String
  resource : String
  sub : String
  exp : Nat

/-- An early return with an error. -/
def require (holds : Bool) (e : EmaError) : Except EmaError Unit := if holds then .ok () else .error e

/-- The checks of `validate_id_jag` that come before the clock is read. -/
def checkIdJag (codecs : Codecs) (jwt expectedIss expectedAud expectedResource : String) :
    Except EmaError (Json × Nat) := do
  let claims ← decodeJwtClaims codecs jwt
  let iss ← requireStr claims "iss"
  require (iss == expectedIss)
    (.invalidIdJag ("iss mismatch: expected '" ++ expectedIss ++ "', got '" ++ iss ++ "'"))
  require (audContains (claims.get "aud") expectedAud)
    (.invalidIdJag ("aud mismatch: expected '" ++ expectedAud ++ "'"))
  let resource ← requireStr claims "resource"
  require (resource == expectedResource)
    (.invalidIdJag ("resource mismatch: expected '" ++ expectedResource ++ "', got '" ++ resource ++ "'"))
  match (claims.get "exp").bind Json.asU64 with
  | none => .error (.invalidIdJag "missing or non-numeric 'exp' claim")
  | some exp => .ok (claims, exp)

def validateIdJag (codecs : Codecs) (jwt expectedIss expectedAud expectedResource : String) :
    EmaM IdJagClaims := do
  let (claims, exp) ← Prog.done (checkIdJag codecs jwt expectedIss expectedAud expectedResource)
  let now ← nowUnix
  if exp ≤ now + expSkewSecs then
    Prog.fail (.invalidIdJag ("token expired or within skew window (exp=" ++ toString exp ++ ", now=" ++
      toString now ++ ")"))
  else
    let sub ← Prog.done (requireStr claims "sub")
    return ⟨expectedIss, expectedAud, expectedResource, sub, exp⟩

/-! ## The legs -/

def classifyExchangeError (codecs : Codecs) (status : Nat) (body : String) : EmaError :=
  let denied : Option EmaError := do
    let value ← codecs.fromStr body
    let err ← text value "error"
    if err = "access_denied" ∨ err = "authorization_request_denied" then
      some (.authorizationDenied err ((text value "error_description").getD ""))
    else none
  if status = 400 then denied.getD (.tokenEndpoint status body) else .tokenEndpoint status body

/-- What comes back from the exchange. -/
def readIdJag (codecs : Codecs) (resp : EmaResponse) : Except EmaError String :=
  if isSuccess resp.status then
    match resp.json with
    | .error e => .error (.http e)
    | .ok json => requireText json "access_token"
  else .error (classifyExchangeError codecs resp.status (resp.text.getD ""))

def exchangeForIdJag (codecs : Codecs) (idpTokenEndpoint idToken resourceAsIssuer resource : String)
    (scope : Option String) (allowInsecure : Bool) (clientId clientSecret : Option String) : EmaM String := do
  let resp ← postForm idpTokenEndpoint allowInsecure
    (buildIdJagExchangeForm idToken resourceAsIssuer resource scope clientId clientSecret)
  Prog.done (readIdJag codecs resp)

/-- What comes back from a leg whose refusals are not told apart, with the text it must have. -/
def readLeg (field : String) (resp : EmaResponse) : Except EmaError (String × Json) :=
  if isSuccess resp.status then
    match resp.json with
    | .error e => .error (.http e)
    | .ok json =>
      match requireText json field with
      | .error e => .error e
      | .ok value => .ok (value, json)
  else .error (.tokenEndpoint resp.status (resp.text.getD ""))

/-- The tokens of a response to a redemption. -/
def mintedTokens (accessToken : String) (json : Json) (nowSecs : Nat) : TokenSet where
  accessToken := accessToken
  refreshToken := text json "refresh_token"
  expiresAt := ((json.get "expires_in").bind Json.asU64).map fun secs => addSecs nowSecs secs
  tokenType := (text json "token_type").getD "Bearer"
  scope := text json "scope"
  issuedAt := some nowSecs

def redeemIdJag (asTokenEndpoint idJag : String) (scope : Option String) (allowInsecure : Bool)
    (clientId clientSecret : Option String) : EmaM TokenSet := do
  let resp ← postForm asTokenEndpoint allowInsecure (buildJwtBearerForm idJag scope clientId clientSecret)
  let (accessToken, json) ← Prog.done (readLeg "access_token" resp)
  let nowSecs ← nowUnix
  return mintedTokens accessToken json nowSecs

structure RefreshedIdToken where
  idToken : String
  refreshToken : Option String
  idTokenExpiresAt : Option Nat

def idTokenExp (codecs : Codecs) (idToken : String) : Option Nat :=
  match decodeJwtClaims codecs idToken with
  | .ok claims => (claims.get "exp").bind Json.asU64
  | .error _ => none

/-- The expiry of a new ID token: its own claim, or what the response says. -/
def refreshedExpiry (codecs : Codecs) (idToken : String) (json : Json) : EmaM (Option Nat) :=
  match idTokenExp codecs idToken, (json.get "expires_in").bind Json.asU64 with
  | some exp, _ => return some exp
  | none, some secs => do
    let now ← nowUnix
    return some (addSecs now secs)
  | none, none => return none

def refreshIdpToken (codecs : Codecs) (idpTokenEndpoint refreshToken : String) (allowInsecure : Bool)
    (clientId clientSecret : Option String) (scope : String) : EmaM RefreshedIdToken := do
  let resp ← postForm idpTokenEndpoint allowInsecure
    (buildRefreshTokenForm refreshToken clientId clientSecret scope)
  let (idToken, json) ← Prog.done (readLeg "id_token" resp)
  let idTokenExpiresAt ← refreshedExpiry codecs idToken json
  return ⟨idToken, text json "refresh_token", idTokenExpiresAt⟩

/-! ## The chain -/

def idTokenExpired (creds : IdpCredentials) : EmaM Bool :=
  match creds.idTokenExpiresAt with
  | some exp => do
    let now ← nowUnix
    return exp ≤ now + expSkewSecs
  | none => return false

def isSubjectTokenInvalid : EmaError → Bool
  | .tokenEndpoint status body =>
    status == 401 || containsText body "invalid_grant" || containsText body "invalid_token"
  | _ => false

def refreshAndPersistIdpToken (codecs : Codecs) (idpTokenEndpoint idpKey : String) (creds : IdpCredentials)
    (allowInsecure : Bool) (clientId clientSecret resourceScope : Option String) : EmaM String :=
  match creds.refreshToken with
  | none => Prog.fail (.reauthRequired "ID Token expired and no IdP refresh token is stored")
  | some refreshToken => do
    let refreshed ← (refreshIdpToken codecs idpTokenEndpoint refreshToken allowInsecure clientId clientSecret
      (composeIdpScope resourceScope true)).mapError fun e =>
        EmaError.reauthRequired ("IdP refresh-token grant failed: " ++ e.text codecs)
    let obtainedAt ← nowUnix
    save (.idp idpKey
      { idpIssuer := creds.idpIssuer
        idToken := refreshed.idToken
        refreshToken := refreshed.refreshToken.or creds.refreshToken
        idTokenExpiresAt := refreshed.idTokenExpiresAt
        obtainedAt := obtainedAt })
    return refreshed.idToken

/-- `load_token`, and `is_valid` of what is there. -/
def loadValid (endpoint : String) : EmaM (Option TokenSet) := do
  let loaded ← Prog.call (.load endpoint) fun answer => answer.loaded.mapError .storage
  match loaded with
  | none => return none
  | some ts =>
    match ts.expiresAt with
    | none => return some ts
    | some exp => do
      let now ← nowUnix
      return if now + 30 < exp then some ts else none

/-- `load_idp`, where there must be credentials. -/
def loadCreds (idpKey : String) : EmaM IdpCredentials :=
  Prog.call (.loadIdp idpKey) fun answer =>
    match answer.loadedIdp with
    | .error e => .error (.storage e)
    | .ok none => .error (.reauthRequired ("no stored IdP credentials for key '" ++ idpKey ++ "'"))
    | .ok (some creds) => .ok creds

/-- The ID token to exchange, and whether it was renewed: one that is known to have expired is. -/
def freshIdToken (codecs : Codecs) (idpKey idpTokenEndpoint : String) (resourceScope : Option String)
    (allowInsecure : Bool) (clientId clientSecret : Option String) (creds : IdpCredentials) :
    EmaM (String × Bool) := do
  let expired ← idTokenExpired creds
  if expired then
    let idToken ← refreshAndPersistIdpToken codecs idpTokenEndpoint idpKey creds allowInsecure clientId
      clientSecret resourceScope
    return (idToken, true)
  else return (creds.idToken, false)

/-- Step 2: the exchange, with one renewal and another try where the ID token is refused that was not
renewed yet. -/
def obtainIdJag (codecs : Codecs) (idpKey idpTokenEndpoint asIssuer resource : String)
    (resourceScope : Option String) (allowInsecure : Bool) (clientId clientSecret : Option String)
    (creds : IdpCredentials) : EmaM String := do
  let (idToken, refreshed) ← freshIdToken codecs idpKey idpTokenEndpoint resourceScope allowInsecure clientId
    clientSecret creds
  let exchanged ← (exchangeForIdJag codecs idpTokenEndpoint idToken asIssuer resource resourceScope
    allowInsecure clientId clientSecret).attempt
  match exchanged with
  | .ok jag => return jag
  | .error e =>
    if !refreshed && isSubjectTokenInvalid e then
      let newIdToken ← refreshAndPersistIdpToken codecs idpTokenEndpoint idpKey creds allowInsecure clientId
        clientSecret resourceScope
      exchangeForIdJag codecs idpTokenEndpoint newIdToken asIssuer resource resourceScope allowInsecure
        clientId clientSecret
    else Prog.fail e

/-- The save of the minted tokens: with a guard under the `apply_lock`, and only in the epoch the caller
expects. -/
def persist (endpoint : String) (tokenSet : TokenSet) : Option Nat → EmaM Unit
  | none => save (.token endpoint tokenSet)
  | some expectedEpoch => do
    Prog.call .lockApply fun _ => .ok ()
    let saved ← Prog.attempt do
      let epoch ← Prog.call .readEpoch fun answer => .ok answer.epoch
      if expectedEpoch ≠ epoch then Prog.fail .staleGrant else save (.token endpoint tokenSet)
    Prog.call .unlockApply fun _ => .ok ()
    Prog.done saved

/-- `ensure_access_token` behind its two looks at the stored tokens. -/
def mint (codecs : Codecs) (endpoint idpKey idpTokenEndpoint asIssuer asTokenEndpoint resource : String)
    (resourceScope : Option String) (allowInsecure : Bool)
    (clientId clientSecret resourceClientId resourceClientSecret : Option String)
    (grantGuard : Option Nat) : EmaM TokenSet := do
  let creds ← loadCreds idpKey
  let idJag ← obtainIdJag codecs idpKey idpTokenEndpoint asIssuer resource resourceScope allowInsecure
    clientId clientSecret creds
  let _ ← validateIdJag codecs idJag creds.idpIssuer asIssuer resource
  let tokenSet ← redeemIdJag asTokenEndpoint idJag resourceScope allowInsecure
    (resourceClientId.or clientId) resourceClientSecret
  persist endpoint tokenSet grantGuard
  return tokenSet

/-- `ensure_access_token`. The guard is the epoch that its caller expects. -/
def ensureAccessToken (codecs : Codecs)
    (endpoint idpKey idpTokenEndpoint asIssuer asTokenEndpoint resource : String)
    (resourceScope : Option String) (allowInsecure : Bool)
    (clientId clientSecret resourceClientId resourceClientSecret : Option String)
    (grantGuard : Option Nat) : EmaM TokenSet := do
  let valid ← loadValid endpoint
  match valid with
  | some ts => return ts
  | none =>
    Prog.call .lockRefresh fun _ => .ok ()
    let ensured ← Prog.attempt do
      let valid ← loadValid endpoint
      match valid with
      | some ts => return ts
      | none =>
        mint codecs endpoint idpKey idpTokenEndpoint asIssuer asTokenEndpoint resource resourceScope
          allowInsecure clientId clientSecret resourceClientId resourceClientSecret grantGuard
    Prog.call .unlockRefresh fun _ => .ok ()
    Prog.done ensured

/-! ## Requests -/

/-- The requests of a run, in their order. -/
def requests (tr : EmaTrace) : List EmaRequest :=
  tr.filterMap fun e =>
    match e.1 with
    | .post request => some request
    | _ => none

@[simp] theorem requests_nil : requests [] = [] := rfl

@[simp] theorem requests_post (request : EmaRequest) (answer : EmaAnswer) (tr : EmaTrace) :
    requests ((.post request, answer) :: tr) = request :: requests tr := rfl

theorem requests_idle {o : EmaOp} (h : ∀ request, o ≠ .post request) (answer : EmaAnswer) (tr : EmaTrace) :
    requests ((o, answer) :: tr) = requests tr := by
  cases o with
  | post request => exact absurd rfl (h request)
  | _ => rfl

@[simp] theorem requests_append (tr tr' : EmaTrace) : requests (tr ++ tr') = requests tr ++ requests tr' :=
  List.filterMap_append

namespace EmaRequest

variable (request : EmaRequest)

def grantType : Option String := request.form.lookup "grant_type"

/-- A renewal of the ID token at the identity provider. -/
def isIdpRefresh : Bool := request.grantType = some grantTypeRefreshToken

/-- An exchange of an ID token for an ID-JAG at the identity provider. -/
def isExchange : Bool := request.grantType = some grantTypeTokenExchange

/-- A redemption of an ID-JAG at the resource authorization server. -/
def isRedemption : Bool := request.grantType = some grantTypeJwtBearer

end EmaRequest

@[simp] theorem grantType_exchangeForm (url idToken audience resource : String)
    (scope clientId clientSecret : Option String) :
    EmaRequest.grantType ⟨url, buildIdJagExchangeForm idToken audience resource scope clientId clientSecret⟩ =
      some grantTypeTokenExchange := rfl

@[simp] theorem grantType_bearerForm (url idJag : String) (scope clientId clientSecret : Option String) :
    EmaRequest.grantType ⟨url, buildJwtBearerForm idJag scope clientId clientSecret⟩ =
      some grantTypeJwtBearer := rfl

@[simp] theorem grantType_refreshForm (url refreshToken : String) (clientId clientSecret : Option String)
    (scope : String) :
    EmaRequest.grantType ⟨url, buildRefreshTokenForm refreshToken clientId clientSecret scope⟩ =
      some grantTypeRefreshToken := rfl

end EndaraRelay.Ema
