import EndaraRelay.ReloadPaths

/-!
# Requests to edit the config

What `management.rs` makes of the bodies of its create and update requests, before anything is written:
`validate_endpoint_request`, `validate_profile_request`, and the resolution of an organization's name,
provider and issuer. Each answers with an error of its own, or with the entry that is to land in
`config.toml`. What all of them check is that the key of that entry is free.

The texts of the error responses are those of the source. How `Debug` quotes a string is a parameter.
-/

namespace EndaraRelay

open Verif

/-- An error response: its status, and the body. -/
structure ErrorResponse where
  status : Nat
  error : String
  detail : Option String
deriving DecidableEq, Repr

def errorResponse (status : Nat) (error : String) (detail : Option String) : ErrorResponse :=
  ⟨status, error, detail⟩

def badRequest (error detail : String) : ErrorResponse := errorResponse 400 error (some detail)

def conflict (error detail : String) : ErrorResponse := errorResponse 409 error (some detail)

def endpointNotFound (name : String) : ErrorResponse :=
  errorResponse 404 "endpoint not found"
    (some ("No endpoint named '" ++ name ++ "'. Use GET /api/endpoints to list available endpoints."))

/-- A check that stops the request when it fails. -/
def reject (failed : Bool) (response : ErrorResponse) : Except ErrorResponse Unit :=
  if failed then .error response else .ok ()

theorem reject_eq_ok {failed : Bool} {response : ErrorResponse} {u : Unit} :
    reject failed response = .ok u ↔ failed = false := by
  cases failed with
  | true => simp [reject]
  | false => simp [reject]

/-! ## Server names -/

inductive ServerNameError where
  | missing
  | empty
  | unsanitizable (raw : String)
  | tooLong (length : Nat)
deriving DecidableEq, Repr

def ServerNameError.display (quote : String → String) : ServerNameError → String
  | .missing => "server did not report `serverInfo.name` in initialize response"
  | .empty => "`serverInfo.name` was present but empty after trimming"
  | .unsanitizable raw => "`serverInfo.name` " ++ quote raw ++ " reduced to empty after sanitization"
  | .tooLong length => "`serverInfo.name` length " ++ toString length ++ " exceeds 64-character limit"

/-- Keep lower-case letters, digits and underscores; a run of other characters is one dash. -/
def dashed : Bool → List Char → List Char
  | _, [] => []
  | lastWasDash, c :: cs =>
    if isAsciiLowercase c || isAsciiDigit c || c = '_' then c :: dashed false cs
    else if lastWasDash then dashed true cs
    else '-' :: dashed true cs

def sanitizeServerName (raw : String) : Except ServerNameError String :=
  let trimmed := trim raw
  if trimmed = "" then .error .empty
  else
    let out := dashed false (trimmed.toList.flatMap toLowercase)
    let sanitized := (out.dropWhile (· = '-')).rdropWhile (· = '-')
    if sanitized = [] then .error (.unsanitizable raw)
    else if 64 < sanitized.length then .error (.tooLong sanitized.length)
    else .ok (String.ofList sanitized)

/-! ## Endpoints -/

/-- The body of a request to create or update an endpoint. Of the three fields that are not allowed only
their presence counts. -/
structure EndpointRequest where
  name : String
  description : Option String := none
  transport : Transport
  toolPrefix : Option String := none
  command : Option String := none
  args : Option (List String) := none
  url : Option String := none
  env : Option (List (String × String)) := none
  headers : Option (List (String × String)) := none
  oauthServerUrl : Option String := none
  clientId : Option String := none
  scopes : Option String := none
  tokenEndpoint : Option String := none
  serverTypeOverride : Option String := none
  isolation : Option String := none
  containerImage : Option String := none
  mounts : Option (List String) := none
  auth : Option EndpointAuthConfig := none
  hasClientSecret : Bool := false
  hasDisabled : Bool := false
  hasDisabledTools : Bool := false

def splitWhitespace (s : String) : List String :=
  ((s.toList.splitOnP isWhitespace).filter (· ≠ [])).map String.ofList

def checkForbiddenFields (req : EndpointRequest) : Except ErrorResponse Unit := do
  reject req.hasClientSecret (badRequest "client_secret not allowed"
    ("POST the client_secret to /api/endpoints/\x7bname\x7d/credentials instead — it is persisted via " ++
      "TokenManager (DCR file, chmod 0600) rather than config.toml."))
  reject req.hasDisabled (badRequest "disabled not allowed"
    "Use POST /api/endpoints/\x7bname\x7d/disable or /enable instead.")
  reject req.hasDisabledTools (badRequest "disabled_tools not allowed"
    "Use POST /api/endpoints/\x7bname\x7d/tools/\x7btool\x7d/disable or /enable instead.")

/-- The name, and the field the transport needs. -/
def checkRequiredFields (req : EndpointRequest) : Except ErrorResponse Unit := do
  reject (trim req.name = "") (badRequest "invalid endpoint" "Endpoint name must not be empty")
  match req.transport with
  | .stdio => reject (missing req.command) (badRequest "invalid endpoint"
      ("Endpoint '" ++ req.name ++ "': stdio transport requires a 'command' field"))
  | .sse | .http | .oauth => reject (missing req.url) (badRequest "invalid endpoint"
      ("Endpoint '" ++ req.name ++ "': " ++ req.transport.display ++ " transport requires a 'url' field"))

/-- The override, trimmed; it must be one the adapters could use. -/
def checkServerTypeOverride (quote : String → String) (req : EndpointRequest) :
    Except ErrorResponse (Option String) :=
  match trimmedNonEmpty req.serverTypeOverride with
  | none => .ok none
  | some s =>
    match sanitizeServerName s with
    | .error e => .error (badRequest "invalid server_type_override"
        ("Endpoint '" ++ req.name ++ "': " ++ e.display quote))
    | .ok _ => .ok (some s)

def checkIsolation (req : EndpointRequest) : Except ErrorResponse (Option String) :=
  match trimmedNonEmpty req.isolation with
  | none => .ok none
  | some s =>
    if s ≠ "container" ∧ s ≠ "none" then
      .error (badRequest "invalid isolation" ("Endpoint '" ++ req.name ++ "': invalid isolation value '" ++
        s ++ "' — expected \"container\" or \"none\""))
    else .ok (some s)

/-- No endpoint has the name, apart from the one that is updated. -/
def nameInUse (name : String) (original : Option String) (endpoints : List EndpointConfig) : Bool :=
  endpoints.any fun ep => some ep.name ≠ original && ep.name = name

def duplicateEndpointName (name : String) : ErrorResponse :=
  conflict "duplicate endpoint name" ("Endpoint name '" ++ name ++ "' is already in use.")

/-- `validate_endpoint_request`, over the endpoints of the config it is given. -/
def validateEndpointRequest (quote : String → String) (req : EndpointRequest)
    (endpoints : List EndpointConfig) (original : Option String) :
    Except ErrorResponse EndpointConfig := do
  checkForbiddenFields req
  checkRequiredFields req
  let serverTypeOverride ← checkServerTypeOverride quote req
  let isolation ← checkIsolation req
  reject (nameInUse req.name original endpoints) (duplicateEndpointName req.name)
  let ep : EndpointConfig :=
    { name := req.name
      description := req.description
      toolPrefix := req.toolPrefix
      transport := req.transport
      command := req.command
      args := req.args
      url := req.url
      env := req.env
      headers := req.headers
      oauthServerUrl := req.oauthServerUrl
      clientId := req.clientId
      scopes := (req.scopes.map splitWhitespace).filter (· ≠ [])
      tokenEndpoint := req.tokenEndpoint
      serverTypeOverride
      isolation
      containerImage := req.containerImage
      mounts := req.mounts
      auth := req.auth }
  match validateEndpointAuth ep with
  | some msg => throw (badRequest "invalid auth" ("Endpoint '" ++ req.name ++ "': " ++ msg))
  | none => return ep

/-- **What an accepted endpoint is like**: its name is free, and it leaves to the relay what has routes
of its own. -/
structure AcceptedEndpoint (endpoints : List EndpointConfig) (original : Option String)
    (ep : EndpointConfig) : Prop where
  free : ∀ other ∈ endpoints, some other.name ≠ original → other.name ≠ ep.name
  flags : ep.disabled = false ∧ ep.disabledTools = []
  clientSecret : ep.clientSecret = none
  auth : validateEndpointAuth ep = none

theorem validateEndpointRequest_ok {quote : String → String} {req : EndpointRequest}
    {endpoints : List EndpointConfig} {original : Option String} {ep : EndpointConfig}
    (h : validateEndpointRequest quote req endpoints original = .ok ep) :
    AcceptedEndpoint endpoints original ep ∧ ep.name = req.name := by
  unfold validateEndpointRequest at h
  obtain ⟨_, -, h⟩ := bind_eq_ok.1 h
  obtain ⟨_, -, h⟩ := bind_eq_ok.1 h
  obtain ⟨_, -, h⟩ := bind_eq_ok.1 h
  obtain ⟨_, -, h⟩ := bind_eq_ok.1 h
  obtain ⟨_, hname, h⟩ := bind_eq_ok.1 h
  have hfree := reject_eq_ok.1 hname
  dsimp only at h
  split at h
  · cases h
  · next hauth =>
    cases h
    refine ⟨⟨?_, ⟨rfl, rfl⟩, rfl, hauth⟩, rfl⟩
    intro other hmem hne heq
    have hname : other.name = req.name := heq
    have hall := List.any_eq_false.1 hfree other hmem
    rw [Bool.not_eq_true, Bool.and_eq_false_iff, decide_eq_false_iff_not, decide_eq_false_iff_not] at hall
    obtain hall | hall := hall
    · exact hall hne
    · exact hall hname

/-! ## Profiles -/

/-- The body of a request to create or update a profile. -/
abbrev ManagedProfileRequest := ProfileSettings

/-- The key of a profile: its path, in lower case. -/
def ProfileSettings.pathKey (p : ProfileSettings) : String := toAsciiLowercase p.profile.path

/-- The first profile, apart from the one that is updated, that is in the way of a path and a name. -/
def profileConflict (req : ManagedProfileRequest) (existing : Option String) :
    List ProfileSettings → Except ErrorResponse Unit
  | [] => .ok ()
  | p :: profiles =>
    if some p.pathKey = existing then profileConflict req existing profiles
    else if p.pathKey = req.pathKey then
      .error (conflict "duplicate profile path" ("Profile path '" ++ req.profile.path ++
        "' is already in use (paths are case-insensitive)."))
    else if p.profile.name = req.profile.name then
      .error (conflict "duplicate profile name" ("Profile name '" ++ req.profile.name ++
        "' is already in use."))
    else profileConflict req existing profiles

/-- The first endpoint of a profile that the config does not have. -/
def unknownEndpoint (req : ManagedProfileRequest) (endpoints : List EndpointConfig) : Option String :=
  req.profile.endpoints.find? fun name => !(endpoints.map (·.name)).contains name

def checkProfilePath (path : String) : Except ErrorResponse Unit :=
  match validateProfilePath path with
  | some msg => .error (badRequest "invalid profile path" msg)
  | none => .ok ()

/-- `validate_profile_request`; the profile accepted is the request. -/
def validateProfileRequest (req : ManagedProfileRequest) (cfg : RunningConfig) (existing : Option String) :
    Except ErrorResponse ProfileSettings := do
  reject (trim req.profile.name = "") (badRequest "invalid profile" "Profile name must not be empty")
  checkProfilePath req.profile.path
  profileConflict req existing (cfg.profiles.getD [])
  match unknownEndpoint req cfg.core.endpoints with
  | some ep => throw (badRequest "unknown endpoint" ("Profile '" ++ req.profile.name ++
      "' references unknown endpoint '" ++ ep ++ "'"))
  | none => return req

variable {existing : Option String} {orgs : List ConfigOrganization} {o : ConfigOrganization}

theorem profileConflict_ok {req : ManagedProfileRequest} {profiles : List ProfileSettings}
    (h : profileConflict req existing profiles = .ok ()) :
    ∀ p ∈ profiles, some p.pathKey ≠ existing → p.pathKey ≠ req.pathKey := by
  induction profiles with
  | nil =>
    intro p hp
    cases hp
  | cons q profiles ih =>
    intro p hp hne
    unfold profileConflict at h
    rcases List.mem_cons.1 hp with rfl | hp
    · rw [if_neg hne] at h
      intro heq
      rw [if_pos heq] at h
      cases h
    · split at h
      · exact ih h p hp hne
      · split at h
        · cases h
        · split at h
          · cases h
          · exact ih h p hp hne

theorem validateProfileRequest_ok {req p : ProfileSettings} {cfg : RunningConfig}
    (h : validateProfileRequest req cfg existing = .ok p) :
    p = req ∧ ∀ q ∈ cfg.profiles.getD [], some q.pathKey ≠ existing → q.pathKey ≠ p.pathKey := by
  unfold validateProfileRequest at h
  obtain ⟨_, -, h⟩ := bind_eq_ok.1 h
  obtain ⟨_, -, h⟩ := bind_eq_ok.1 h
  obtain ⟨_, hfree, h⟩ := bind_eq_ok.1 h
  split at h
  · cases h
  · cases h
    exact ⟨rfl, profileConflict_ok hfree⟩

/-! ## Organizations -/

/-- An issuer template: a fixed issuer, or one with a slug between two parts. -/
inductive IssuerPattern where
  | fixed (issuer : String)
  | slug (before after : String)

/-- An identity-provider template; the custom one has no pattern. -/
structure IdpProvider where
  id : String
  issuerPattern : Option IssuerPattern

def idpProviders : List IdpProvider :=
  [⟨"okta", some (.slug "https://" ".okta.com")⟩,
    ⟨"entra", some (.slug "https://login.microsoftonline.com/" "/v2.0")⟩,
    ⟨"google", some (.fixed "https://accounts.google.com")⟩,
    ⟨"ping", some (.slug "https://auth.pingone.com/" "/as")⟩,
    ⟨"custom", none⟩]

def findProvider (id : String) : Option IdpProvider := idpProviders.find? fun p => p.id = id

def hasTwoDots : List Char → Bool
  | '.' :: '.' :: _ => true
  | _ :: cs => hasTwoDots cs
  | [] => false

/-- The slugs that could alter the host or the path of the issuer. -/
def isUnsafeSlug (slug : String) : Bool :=
  slug.toList.any (fun c => ['/', ':', '?', '#', '@', '\\', ' '].contains c) || hasTwoDots slug.toList

def IdpProvider.buildIssuer (p : IdpProvider) (slug : Option String) : Except String String :=
  match p.issuerPattern with
  | none => .error ("provider '" ++ p.id ++ "' has no issuer template; supply a custom issuer URL")
  | some (.fixed issuer) => .ok issuer
  | some (.slug before after) =>
    match trimmedNonEmpty slug with
    | none => .error ("provider '" ++ p.id ++ "' requires a 'slug'")
    | some s =>
      if isUnsafeSlug s then .error ("invalid slug '" ++ s ++ "' for provider '" ++ p.id ++ "'")
      else .ok (before ++ s ++ after)

def resolveIssuer (provider : String) (slug idp : Option String) (pasted : Option String) :
    Except ErrorResponse String :=
  if provider = "custom" then
    match (trimmedNonEmpty idp).or pasted with
    | some issuer => .ok issuer
    | none => .error (badRequest "missing_idp" "provider 'custom' requires a full 'idp' issuer URL.")
  else
    match findProvider provider with
    | none => .error (badRequest "unknown_provider" ("Unknown provider '" ++ provider ++
        "'. Use GET /api/idp-providers to list templates."))
    | some p =>
      match p.buildIssuer slug with
      | .ok issuer => .ok issuer
      | .error e => .error (badRequest "invalid_slug" e)

/-- The body of a request to create an organization. -/
structure CreateOrganizationRequest where
  name : String
  provider : String
  slug : Option String := none
  idp : Option String := none

/-- The body of a request to update an organization; an absent field keeps its value. -/
structure UpdateOrganizationRequest where
  name : Option String := none
  provider : Option String := none
  slug : Option String := none
  idp : Option String := none

def organizationExists (name : String) : ErrorResponse :=
  conflict "organization_exists"
    ("An organization named '" ++ name ++ "' already exists. Use a different name.")

def organizationNotFound (org : String) : ErrorResponse :=
  errorResponse 404 "organization not found" (some ("No organization named '" ++ org ++ "'."))

/-- A new organization, up to its client id: the name must be given and free. -/
def prepareOrganization (req : CreateOrganizationRequest) (orgs : List ConfigOrganization) :
    Except ErrorResponse ConfigOrganization := do
  let name := trim req.name
  reject (name = "") (badRequest "invalid_name" "Organization name must not be empty.")
  reject (orgs.any fun o => o.name = name) (organizationExists name)
  let issuer ← resolveIssuer req.provider req.slug req.idp none
  return ⟨name, req.provider, issuer, none⟩

/-- The issuer an update asks for: the provider or the issuer is given, or the current one is kept. -/
def updatedIssuer (req : UpdateOrganizationRequest) (provider : String) (current : ConfigOrganization) :
    Except ErrorResponse String :=
  if provider ≠ current.provider || req.slug.isSome || req.idp.isSome then
    resolveIssuer provider req.slug req.idp
      (if provider ≠ current.provider then none else some current.idp)
  else .ok current.idp

/-- The new settings of an organization, up to its client id. -/
def prepareOrganizationUpdate (org : String) (req : UpdateOrganizationRequest)
    (orgs : List ConfigOrganization) : Except ErrorResponse ConfigOrganization :=
  match orgs.find? fun o => o.name = org with
  | none => .error (organizationNotFound org)
  | some current => do
    let name := (trimmedNonEmpty req.name).getD current.name
    let provider := (trimmedNonEmpty req.provider).getD current.provider
    reject (name ≠ current.name && orgs.any fun o => o.name = name) (organizationExists name)
    let issuer ← updatedIssuer req provider current
    return ⟨name, provider, issuer, current.clientId⟩

theorem prepareOrganization_ok {req : CreateOrganizationRequest}
    (h : prepareOrganization req orgs = .ok o) : o.name ∉ orgs.map (·.name) := by
  unfold prepareOrganization at h
  obtain ⟨_, -, h⟩ := bind_eq_ok.1 h
  obtain ⟨_, hfree, h⟩ := bind_eq_ok.1 h
  obtain ⟨issuer, -, h⟩ := bind_eq_ok.1 h
  cases h
  intro hmem
  obtain ⟨other, hother, hname⟩ := List.mem_map.1 hmem
  have hall := List.any_eq_false.1 (reject_eq_ok.1 hfree) other hother
  exact hall (decide_eq_true hname)

theorem prepareOrganizationUpdate_ok {org : String} {req : UpdateOrganizationRequest}
    (h : prepareOrganizationUpdate org req orgs = .ok o) :
    org ∈ orgs.map (·.name) ∧ (o.name = org ∨ o.name ∉ orgs.map (·.name)) := by
  unfold prepareOrganizationUpdate at h
  split at h
  · cases h
  · next current hfind =>
    obtain rfl : current.name = org := by simpa using List.find?_some hfind
    refine ⟨List.mem_map_of_mem (List.mem_of_find?_eq_some hfind), ?_⟩
    obtain ⟨_, hfree, h⟩ := bind_eq_ok.1 h
    obtain ⟨issuer, -, h⟩ := bind_eq_ok.1 h
    cases h
    have hfree := reject_eq_ok.1 hfree
    show (trimmedNonEmpty req.name).getD current.name = current.name ∨ _
    by_cases hsame : (trimmedNonEmpty req.name).getD current.name = current.name
    · exact .inl hsame
    · right
      intro hmem
      obtain ⟨other, hother, hname⟩ := List.mem_map.1 hmem
      rw [Bool.and_eq_false_iff, decide_eq_false_iff_not, not_not] at hfree
      obtain hfree | hfree := hfree
      · exact hsame hfree
      · exact List.any_eq_false.1 hfree other hother (decide_eq_true hname)

end EndaraRelay
