import Mathlib.Data.List.DropRight
import Mathlib.Data.List.Pairwise
import EndaraRelay.Lib.Table
import EndaraRelay.Prefix
import EndaraRelay.Text

/-!
# Configuration

`config.rs`: endpoint and organization settings, the validation that collects every error, the
hand-written equality of endpoint settings, and the diff that hot reload acts on.

- `Config.validate` and `validate_ok`, which says what an accepted config guarantees: non-empty
  names, well-formed tool prefixes, no two of them equal.
- `validateGraceful` turns the same problems, and a few more, into warnings by endpoint name.
- `EndpointConfig.eq` is the `PartialEq` of the source, field by field. It is not equality:
  `eq_iff` says what it leaves out.
- `diffConfigs` compares two configs by endpoint name, through maps that keep the last endpoint of
  a name.

A map of the source that is only compared or passed on (`env`, `headers`) is its list of entries in
key order.
-/

namespace EndaraRelay

/-- Transport type for an endpoint. -/
inductive Transport where
  | stdio
  | sse
  | http
  | oauth
deriving DecidableEq, Repr

def Transport.display : Transport → String
  | .stdio => "stdio"
  | .sse => "sse"
  | .http => "http"
  | .oauth => "oauth"

/-- An identity-provider organization. -/
structure ConfigOrganization where
  name : String
  provider : String
  idp : String
  clientId : Option String
deriving DecidableEq, Repr

/-- The `[endpoints.auth]` block. -/
structure EndpointAuthConfig where
  authType : String
  organization : Option String
  idp : Option String
  resource : Option String
deriving DecidableEq, Repr

structure EndpointConfig where
  name : String
  description : Option String := none
  toolPrefix : Option String := none
  transport : Transport
  command : Option String := none
  args : Option (List String) := none
  url : Option String := none
  env : Option (List (String × String)) := none
  headers : Option (List (String × String)) := none
  disabled : Bool := false
  disabledTools : List String := []
  oauthServerUrl : Option String := none
  clientId : Option String := none
  clientSecret : Option String := none
  scopes : Option (List String) := none
  tokenEndpoint : Option String := none
  serverTypeOverride : Option String := none
  isolation : Option String := none
  containerImage : Option String := none
  mounts : Option (List String) := none
  auth : Option EndpointAuthConfig := none
deriving DecidableEq, Repr

/-- The settings the modelled code reads: of the `[relay]` table only the insecure-OAuth flag. -/
structure Config where
  allowInsecureOauth : Option Bool
  endpoints : List EndpointConfig
  organizations : List ConfigOrganization
deriving DecidableEq, Repr

/-- The explicit tool prefix, or the sanitized name. -/
def EndpointConfig.resolvedToolPrefix (ep : EndpointConfig) : Option String :=
  match ep.toolPrefix with
  | some tp => some tp
  | none => sanitizeName ep.name

/-- `opt.as_deref().map(str::trim).filter(|s| !s.is_empty())`. -/
def trimmedNonEmpty (s : Option String) : Option String :=
  (s.map trim).filter (· ≠ "")

/-! ## Validation -/

/-- Validate the auth block of an endpoint; `some` is the error. -/
def validateEndpointAuth (ep : EndpointConfig) : Option String :=
  match ep.auth with
  | none => none
  | some auth =>
    if auth.authType = "ema" then
      if trim (auth.resource.getD "") = "" then
        some "auth.type = \"ema\" requires a non-empty 'resource' (MCP server URL)"
      else if trim (auth.organization.getD "") = "" ∧ trim (auth.idp.getD "") = "" then
        some ("auth.type = \"ema\" requires an 'organization' (the name of an " ++
          "[[organizations]] entry) or a bare 'idp' (IdP issuer URL; deprecated)")
      else none
    else some ("unknown auth.type '" ++ auth.authType ++ "' — supported values: \"ema\"")

def missing (field : Option String) : Prop := field = none ∨ field = some ""

instance (field : Option String) : Decidable (missing field) := by
  unfold missing
  infer_instance

/-- The checks on the resolved tool prefix: it exists, is well formed and was not seen before. -/
def prefixErrors (seen : List String) (ep : EndpointConfig) : List String :=
  match ep.resolvedToolPrefix with
  | none => ["Endpoint '" ++ ep.name ++ "': name cannot be sanitized into a valid tool prefix. " ++
      "Set 'tool_prefix' explicitly."]
  | some tp =>
    if isValidEndpointName tp then
      if tp ∈ seen then
        ["Duplicate tool_prefix '" ++ tp ++ "' (from endpoint '" ++ ep.name ++ "')"]
      else []
    else ["Endpoint '" ++ ep.name ++ "': tool_prefix '" ++ tp ++ "' must match " ++
      "^[a-z0-9][a-z0-9_-]*$ (lowercase alphanumeric, hyphens, underscores; " ++
      "must start with letter or digit)"]

/-- The prefixes seen once this endpoint has been checked. -/
def seenPrefixes (seen : List String) (ep : EndpointConfig) : List String :=
  match ep.resolvedToolPrefix with
  | none => seen
  | some tp => if isValidEndpointName tp then tp :: seen else seen

def transportErrors (ep : EndpointConfig) : List String :=
  match ep.transport with
  | .stdio =>
    if missing ep.command then
      ["Endpoint '" ++ ep.name ++ "': stdio transport requires a 'command' field"]
    else []
  | .sse | .http =>
    if missing ep.url then
      ["Endpoint '" ++ ep.name ++ "': " ++ ep.transport.display ++
        " transport requires a 'url' field"]
    else []
  | .oauth =>
    if missing ep.url then
      ["Endpoint '" ++ ep.name ++ "': oauth transport requires a 'url' field"]
    else []

def authErrors (ep : EndpointConfig) : List String :=
  match validateEndpointAuth ep with
  | some msg => ["Endpoint '" ++ ep.name ++ "': " ++ msg]
  | none => []

def nameErrors (ep : EndpointConfig) : List String :=
  if ep.name = "" then ["Endpoint name must not be empty"] else []

/-- Every error of a list of endpoints, given the prefixes seen before it. -/
def validateEndpoints : List String → List EndpointConfig → List String
  | _, [] => []
  | seen, ep :: eps =>
    nameErrors ep ++ prefixErrors seen ep ++ transportErrors ep ++ authErrors ep ++
      validateEndpoints (seenPrefixes seen ep) eps

/-- Validate the config, collecting all errors. -/
def Config.validate (cfg : Config) : Except (List String) Unit :=
  match validateEndpoints [] cfg.endpoints with
  | [] => .ok ()
  | errors => .error errors

/-- What an accepted endpoint guarantees of itself. -/
structure ValidEndpoint (ep : EndpointConfig) : Prop where
  name_ne : ep.name ≠ ""
  prefix_ok : ∃ tp, ep.resolvedToolPrefix = some tp ∧ isValidEndpointName tp = true
  transport_ok : transportErrors ep = []
  auth_ok : validateEndpointAuth ep = none

variable {seen : List String} {ep : EndpointConfig} {cfg : Config}

theorem prefixErrors_eq_nil (h : prefixErrors seen ep = []) :
    ∃ tp, ep.resolvedToolPrefix = some tp ∧ isValidEndpointName tp = true ∧ tp ∉ seen := by
  unfold prefixErrors at h
  split at h
  · cases h
  · next tp htp =>
    split at h
    · next hv =>
      split at h
      · cases h
      · next hs => exact ⟨tp, htp, hv, hs⟩
    · cases h

theorem authErrors_eq_nil (h : authErrors ep = []) : validateEndpointAuth ep = none := by
  unfold authErrors at h
  split at h
  · cases h
  · next hn => exact hn

/-- An endpoint list without errors: every endpoint is valid, and no two prefixes agree, neither with
each other nor with one seen before. -/
theorem validateEndpoints_eq_nil {eps : List EndpointConfig} (h : validateEndpoints seen eps = []) :
    (∀ ep ∈ eps, ValidEndpoint ep) ∧ (∀ ep ∈ eps, ∀ tp ∈ seen, ep.resolvedToolPrefix ≠ some tp) ∧
      eps.Pairwise fun a b => a.resolvedToolPrefix ≠ b.resolvedToolPrefix := by
  induction eps generalizing seen with
  | nil => simp
  | cons ep eps ih =>
    simp only [validateEndpoints, List.append_eq_nil_iff] at h
    obtain ⟨⟨⟨⟨hname, hpre⟩, htransport⟩, hauth⟩, hrest⟩ := h
    obtain ⟨tp, htp, hvalid, hnew⟩ := prefixErrors_eq_nil hpre
    have hseen : seenPrefixes seen ep = tp :: seen := by simp [seenPrefixes, htp, hvalid]
    rw [hseen] at hrest
    obtain ⟨hall, hfresh, hpair⟩ := ih hrest
    refine ⟨?_, ?_, ?_⟩
    · rintro ep' (_ | ⟨_, hmem⟩)
      · refine ⟨?_, ⟨tp, htp, hvalid⟩, htransport, authErrors_eq_nil hauth⟩
        intro hempty
        simp [nameErrors, hempty] at hname
      · exact hall ep' hmem
    · rintro ep' (_ | ⟨_, hmem⟩) tp' htp'
      · rw [htp]
        rintro ⟨⟩
        exact hnew htp'
      · exact hfresh ep' hmem tp' (List.mem_cons_of_mem _ htp')
    · refine List.pairwise_cons.2 ⟨fun ep' hmem => ?_, hpair⟩
      rw [htp]
      exact (hfresh ep' hmem tp List.mem_cons_self).symm

/-- **What `validate` guarantees.** -/
theorem validate_ok (h : cfg.validate = .ok ()) :
    (∀ ep ∈ cfg.endpoints, ValidEndpoint ep) ∧
      cfg.endpoints.Pairwise fun a b => a.resolvedToolPrefix ≠ b.resolvedToolPrefix := by
  unfold Config.validate at h
  split at h
  · next hnil =>
    obtain ⟨hall, -, hpair⟩ := validateEndpoints_eq_nil hnil
    exact ⟨hall, hpair⟩
  · cases h

/-- In an accepted config, endpoints of different names have different prefixes. -/
theorem validate_prefix_injective (h : cfg.validate = .ok ()) {a b : EndpointConfig}
    (ha : a ∈ cfg.endpoints) (hb : b ∈ cfg.endpoints) (hname : a.name ≠ b.name) :
    a.resolvedToolPrefix ≠ b.resolvedToolPrefix := by
  have hne : a ≠ b := fun hab => hname (congrArg EndpointConfig.name hab)
  have : Std.Symm fun a b : EndpointConfig => a.resolvedToolPrefix ≠ b.resolvedToolPrefix :=
    ⟨fun _ _ => Ne.symm⟩
  exact (validate_ok h).2.forall ha hb hne

/-! ## Graceful validation -/

/-- A problem of one endpoint that does not stop the config from loading. -/
structure EndpointValidationWarning where
  endpointName : String
  message : String
deriving DecidableEq, Repr

def gracefulPrefixMessages (seen : List String) (ep : EndpointConfig) : List String :=
  match ep.resolvedToolPrefix with
  | none => ["Endpoint '" ++ ep.name ++ "': name cannot be sanitized into a valid tool prefix. " ++
      "Set 'tool_prefix' explicitly."]
  | some tp =>
    if isValidEndpointName tp then
      if tp ∈ seen then
        ["Duplicate tool_prefix '" ++ tp ++ "' (from endpoint '" ++ ep.name ++ "')"]
      else []
    else ["Endpoint '" ++ ep.name ++ "': tool_prefix '" ++ tp ++ "' is invalid: must match " ++
      "^[a-z0-9][a-z0-9_-]*$"]

def gracefulTransportMessages (ep : EndpointConfig) : List String :=
  match ep.transport with
  | .stdio => if missing ep.command then ["stdio transport requires a 'command' field"] else []
  | .sse | .http | .oauth =>
    if missing ep.url then [ep.transport.display ++ " transport requires a 'url' field"] else []

def isolationMessages (ep : EndpointConfig) : List String :=
  match ep.isolation with
  | none => []
  | some iso =>
    if iso ≠ "container" ∧ iso ≠ "none" then
      ["invalid isolation value '" ++ iso ++ "' — expected \"container\" or \"none\""]
    else []

/-- The messages about one endpoint. The settings of an endpoint that was warned about already are
not checked further. -/
def gracefulMessages (warnings : List EndpointValidationWarning) (seen : List String)
    (ep : EndpointConfig) : List String :=
  nameErrors ep ++ gracefulPrefixMessages seen ep ++
    if warnings.any fun w => w.endpointName = ep.name then []
    else gracefulTransportMessages ep ++ isolationMessages ep ++ (validateEndpointAuth ep).toList

/-- Every warning about a list of endpoints, after those given. -/
def validateGraceful : List EndpointValidationWarning → List String → List EndpointConfig →
    List EndpointValidationWarning
  | warnings, _, [] => warnings
  | warnings, seen, ep :: eps =>
    validateGraceful
      (warnings ++ (gracefulMessages warnings seen ep).map fun msg => ⟨ep.name, msg⟩)
      (seenPrefixes seen ep) eps

/-- The warnings of a config whose environment references all resolved. -/
def Config.warnings (cfg : Config) : List EndpointValidationWarning :=
  validateGraceful [] [] cfg.endpoints

/-- The messages about one endpoint name, joined; `none` when there are none. -/
def warningMessage (warnings : List EndpointValidationWarning) (name : String) : Option String :=
  match (warnings.filter fun w => w.endpointName = name).map (·.message) with
  | [] => none
  | msgs => some (String.intercalate "; " msgs)

/-! ## The diff -/

/-- The hand-written equality of endpoint settings. -/
def EndpointConfig.eq (a b : EndpointConfig) : Bool :=
  a.name = b.name && a.toolPrefix = b.toolPrefix && a.transport = b.transport &&
    a.command = b.command && a.args = b.args && a.url = b.url && a.env = b.env &&
    a.headers = b.headers && a.oauthServerUrl = b.oauthServerUrl && a.clientId = b.clientId &&
    a.clientSecret = b.clientSecret && a.scopes = b.scopes &&
    a.serverTypeOverride = b.serverTypeOverride && a.isolation = b.isolation &&
    a.containerImage = b.containerImage && a.mounts = b.mounts && a.auth = b.auth

/-- **What the hand-written equality leaves out.** -/
theorem EndpointConfig.eq_iff {a b : EndpointConfig} :
    a.eq b = true ↔
      b = { a with
        description := b.description, tokenEndpoint := b.tokenEndpoint, disabled := b.disabled
        disabledTools := b.disabledTools } := by
  constructor
  · intro h
    simp only [EndpointConfig.eq, Bool.and_eq_true, decide_eq_true_eq] at h
    cases b
    grind
  · intro h
    rw [h]
    simp [EndpointConfig.eq]

/-- Endpoints by name. Of several of one name the last one stays. -/
def Config.endpointMap (cfg : Config) : Verif.Table String EndpointConfig :=
  cfg.endpoints.foldl (fun m ep => m.insert ep.name ep) ∅

/-- Result of comparing two configs. -/
structure ConfigDiff where
  added : List EndpointConfig
  removed : List String
  changed : List (String × EndpointConfig)
  unchanged : List String
  organizationsChanged : Bool

/-- Compare two configs by endpoint name. -/
def diffConfigs (old new : Config) : ConfigDiff where
  added := (new.endpointMap.entries.filter fun e => (old.endpointMap.lookup e.1).isNone).map (·.2)
  removed := old.endpointMap.keys.filter fun name => (new.endpointMap.lookup name).isNone
  changed := (new.endpointMap.entries.filter fun e =>
    match old.endpointMap.lookup e.1 with
    | none => false
    | some oldEp => !oldEp.eq e.2).map fun e => (e.1, e.2)
  unchanged := (new.endpointMap.entries.filter fun e =>
    match old.endpointMap.lookup e.1 with
    | none => false
    | some oldEp => oldEp.eq e.2).map (·.1)
  organizationsChanged := old.organizations ≠ new.organizations

end EndaraRelay
