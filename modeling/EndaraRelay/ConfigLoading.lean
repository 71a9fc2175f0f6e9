import EndaraRelay.Config
import EndaraRelay.Lib.UnixPath

/-!
# Loading a config

What happens in `config.rs` to a file once it has been parsed: the environment references of its
endpoints are resolved, the endpoints are validated, and the profiles and write directories are
checked.

**Strict loading** (`parseAndValidate`) stops at the first stage that finds a fault.

**Graceful loading** (`parseAndValidateGraceful`) puts the faults of an endpoint down as warnings
under its name and goes on; only the checks on profiles and write directories stop it.

**Theorem (`strict_graceful_agree_iff`).** The two agree on a file unless an `isolation` value that
graceful validation does not know is its only fault: strict validation does not look at `isolation`.
The endpoints without a warning always pass `Config.validate`.

The entries of a map are resolved in key order where the source takes them in the order of the hash
map; which missing variable is reported first depends on it and nothing else does.
-/

namespace EndaraRelay

open Verif

/-- A named endpoint profile: the fields that are validated. -/
structure ProfileConfig where
  name : String
  path : String
  endpoints : List String
deriving DecidableEq, Repr

/-- A parsed config file, with the profiles and the write directories of its `[relay]` table. -/
structure ParsedConfig where
  config : Config
  profiles : Option (List ProfileConfig) := none
  writeDirs : Option (List String) := none
deriving DecidableEq, Repr

inductive ConfigError where
  | envVarMissing (varName endpoint : String)
  | validationError (msg : String)
deriving DecidableEq, Repr

def ConfigError.display : ConfigError → String
  | .envVarMissing varName endpoint =>
    "Environment variable '" ++ varName ++ "' not found for endpoint '" ++ endpoint ++ "'"
  | .validationError msg => "Validation error: " ++ msg

/-- The process environment: its variables, and the home directory a tilde stands for. -/
structure Environment where
  var : String → Option String
  home : Option String

/-! ## Environment references -/

variable (env : Environment)

/-- Look up a variable that a value of the endpoint refers to. -/
def Environment.lookup (endpointName varName : String) : Except ConfigError String :=
  match env.var varName with
  | some val => .ok val
  | none => .error (.envVarMissing varName endpointName)

/-- Resolve a single env value: `$$` stands for a dollar sign, `$VAR` for the variable. -/
def resolveEnvValue (endpointName value : String) : Except ConfigError String :=
  match value.toList with
  | '$' :: '$' :: rest => .ok (String.ofList ('$' :: rest))
  | ['$'] => .ok value
  | '$' :: varName => env.lookup endpointName (String.ofList varName)
  | _ => .ok value

/-- The characters of a variable name inside a header value. -/
def isVarChar (c : Char) : Bool :=
  isAsciiLowercase c || ('A' ≤ c && c ≤ 'Z') || isAsciiDigit c || c = '_'

/-- Resolve the references in the characters of a header value. -/
def resolveHeaderChars (endpointName : String) : List Char → Except ConfigError (List Char)
  | [] => .ok []
  | '$' :: '$' :: rest => (resolveHeaderChars endpointName rest).map ('$' :: ·)
  | '$' :: rest =>
    let varName := rest.takeWhile isVarChar
    if varName = [] then (resolveHeaderChars endpointName rest).map ('$' :: ·)
    else do
      let val ← env.lookup endpointName (String.ofList varName)
      (resolveHeaderChars endpointName (rest.dropWhile isVarChar)).map (val.toList ++ ·)
  | c :: rest => (resolveHeaderChars endpointName rest).map (c :: ·)
termination_by chars => chars.length
decreasing_by
  all_goals simp only [List.length_cons]
  · omega
  · omega
  · have hle := (List.dropWhile_suffix (l := rest) isVarChar).length_le
    omega
  · omega

/-- Resolve a header value, with references at any position. -/
def resolveHeaderValue (endpointName value : String) : Except ConfigError String :=
  (resolveHeaderChars env endpointName value.toList).map String.ofList

/-- Resolve the values of a map one after the other. -/
def resolveEntries (resolve : String → Except ConfigError String) :
    List (String × String) → Except ConfigError (List (String × String))
  | [] => .ok []
  | (key, value) :: entries => do
    let resolvedValue ← resolve value
    let resolved ← resolveEntries resolve entries
    return (key, resolvedValue) :: resolved

/-- Resolve the values of a map that may be missing. -/
def resolveMap (resolve : String → Except ConfigError String) :
    Option (List (String × String)) → Except ConfigError (Option (List (String × String)))
  | none => .ok none
  | some entries => (resolveEntries resolve entries).map some

def resolveEndpoint (ep : EndpointConfig) : Except ConfigError EndpointConfig := do
  let envMap ← resolveMap (resolveEnvValue env ep.name) ep.env
  let headersMap ← resolveMap (resolveHeaderValue env ep.name) ep.headers
  return { ep with env := envMap, headers := headersMap }

/-- Resolve the references in the endpoints; the first that is missing ends it. -/
def resolveEnvVars : List EndpointConfig → Except ConfigError (List EndpointConfig)
  | [] => .ok []
  | ep :: eps => do
    let resolvedEp ← resolveEndpoint env ep
    let resolved ← resolveEnvVars eps
    return resolvedEp :: resolved

/-- Resolve the references in one endpoint, or warn about it. The headers are only looked at when the
env values resolved, and only replaced while nothing was said about an endpoint of the name. -/
def resolveEndpointGraceful (warnings : List EndpointValidationWarning) (ep : EndpointConfig) :
    EndpointConfig × List EndpointValidationWarning :=
  match resolveMap (resolveEnvValue env ep.name) ep.env with
  | .error e => (ep, warnings ++ [⟨ep.name, e.display⟩])
  | .ok envMap =>
    match resolveMap (resolveHeaderValue env ep.name) ep.headers with
    | .error e => ({ ep with env := envMap }, warnings ++ [⟨ep.name, e.display⟩])
    | .ok headersMap =>
      if warnings.all fun w => w.endpointName ≠ ep.name then
        ({ ep with env := envMap, headers := headersMap }, warnings)
      else ({ ep with env := envMap }, warnings)

def resolveEnvVarsGraceful : List EndpointValidationWarning → List EndpointConfig →
    List EndpointConfig × List EndpointValidationWarning
  | warnings, [] => ([], warnings)
  | warnings, ep :: eps =>
    let (resolvedEp, warnings) := resolveEndpointGraceful env warnings ep
    let (resolved, warnings) := resolveEnvVarsGraceful warnings eps
    (resolvedEp :: resolved, warnings)

/-! ## Profiles and write directories -/

def reservedProfilePaths : List String := ["sse", "initialize", "tools", "oauth", "healthz"]

def toAsciiLowercase (s : String) : String :=
  String.ofList (s.toList.map fun c =>
    if 'A' ≤ c ∧ c ≤ 'Z' then Char.ofNat (c.toNat + 32) else c)

/-- The slugs `^[a-zA-Z0-9][a-zA-Z0-9_-]*$`. -/
def isSlug (path : String) : Bool :=
  match path.toList with
  | [] => false
  | first :: rest => (isVarChar first && first ≠ '_') && rest.all fun c => isVarChar c || c = '-'

/-- Validate a profile path; `some` is the error. -/
def validateProfilePath (path : String) : Option String :=
  if path = "" then some "profile path must not be empty"
  else if !isSlug path then
    some ("profile path '" ++ path ++ "' contains invalid characters — use letters, digits, " ++
      "hyphens, or underscores (must start with a letter or digit)")
  else if reservedProfilePaths.contains (toAsciiLowercase path) then
    some ("profile path '" ++ path ++ "' is reserved by the relay")
  else none

def profileNameErrors (seenNames : List String) (profile : ProfileConfig) : List String :=
  if trim profile.name = "" then ["Profile name must not be empty"]
  else if profile.name ∈ seenNames then ["Duplicate profile name: '" ++ profile.name ++ "'"]
  else []

def profilePathErrors (seenPaths : List String) (profile : ProfileConfig) : List String :=
  match validateProfilePath profile.path with
  | some msg => ["Profile '" ++ profile.name ++ "': " ++ msg]
  | none =>
    if toAsciiLowercase profile.path ∈ seenPaths then
      ["Duplicate profile path '" ++ profile.path ++ "' (paths are case-insensitive)"]
    else []

def profileEndpointErrors (endpointNames : List String) (profile : ProfileConfig) : List String :=
  (profile.endpoints.filter fun name => !endpointNames.contains name).map fun name =>
    "Profile '" ++ profile.name ++ "' references unknown endpoint '" ++ name ++ "'"

/-- Every error of a list of profiles, given the names and paths seen before it. -/
def profileErrors (endpointNames : List String) :
    List String → List String → List ProfileConfig → List String
  | _, _, [] => []
  | seenNames, seenPaths, profile :: profiles =>
    profileNameErrors seenNames profile ++ profilePathErrors seenPaths profile ++
      profileEndpointErrors endpointNames profile ++
      profileErrors endpointNames
        (if trim profile.name = "" then seenNames else profile.name :: seenNames)
        (if (validateProfilePath profile.path).isSome then seenPaths
          else toAsciiLowercase profile.path :: seenPaths)
        profiles

/-- Validate the profiles, collecting all errors. -/
def validateProfiles (cfg : ParsedConfig) : List String :=
  profileErrors (cfg.config.endpoints.map (·.name)) [] [] (cfg.profiles.getD [])

/-- A tilde in front stands for the home directory. -/
def expandTilde (path : String) : UnixPath.Path :=
  let asWritten := (UnixPath.Path.mk false []).join path.toList
  match path.toList, env.home with
  | ['~'], some home => (UnixPath.Path.mk false []).join home.toList
  | '~' :: '/' :: rest, some home => ((UnixPath.Path.mk false []).join home.toList).join rest
  | _, _ => asWritten

/-- Validate the write directories: each must be absolute. -/
def validateWriteDirs (cfg : ParsedConfig) : List String :=
  ((cfg.writeDirs.getD []).filter fun dir => !(expandTilde env dir).absolute).map fun dir =>
    "relay.write_dirs entry '" ++ dir ++ "' must be an absolute path"

/-! ## The two ways to load -/

/-- A stage that must not find anything. -/
def failFast (errors : List String) : Except ConfigError Unit :=
  match errors with
  | [] => .ok ()
  | errors => .error (.validationError (String.intercalate "; " errors))

def ParsedConfig.setEndpoints (cfg : ParsedConfig) (eps : List EndpointConfig) : ParsedConfig :=
  { cfg with config := { cfg.config with endpoints := eps } }

/-- Resolve and validate a parsed file strictly. -/
def parseAndValidate (parsed : ParsedConfig) : Except ConfigError ParsedConfig := do
  let eps ← resolveEnvVars env parsed.config.endpoints
  let cfg := parsed.setEndpoints eps
  match cfg.config.validate with
  | .ok () => pure ()
  | .error errors => throw (.validationError (String.intercalate "; " errors))
  failFast (validateProfiles cfg)
  failFast (validateWriteDirs env cfg)
  return cfg

/-- Resolve and validate a parsed file, with the faults of endpoints as warnings. -/
def parseAndValidateGraceful (parsed : ParsedConfig) :
    Except ConfigError (ParsedConfig × List EndpointValidationWarning) := do
  let (eps, warnings) := resolveEnvVarsGraceful env [] parsed.config.endpoints
  let cfg := parsed.setEndpoints eps
  let warnings := validateGraceful warnings [] cfg.config.endpoints
  failFast (validateProfiles cfg)
  failFast (validateWriteDirs env cfg)
  return (cfg, warnings)

/-! ## What success means -/

section Except

variable {ε α β : Type}

variable {x : Except ε α}

theorem bind_eq_ok {f : α → Except ε β} {b : β} : x >>= f = .ok b ↔ ∃ a, x = .ok a ∧ f a = .ok b := by
  cases x with
  | error e => simp [bind, Except.bind]
  | ok a => simp [bind, Except.bind]

theorem map_isOk {f : α → β} : (x.map f).isOk = x.isOk := by
  cases x <;> rfl

theorem isOk_iff : x.isOk = true ↔ ∃ a, x = .ok a := by
  cases x with
  | error e => simp [Except.isOk, Except.toBool]
  | ok a => simp [Except.isOk, Except.toBool]

/-- A second stage that succeeds or fails whatever the first one found. -/
theorem bind_isOk {f : α → Except ε β} {q : Bool} (h : ∀ a, (f a).isOk = q) :
    (x >>= f).isOk = (x.isOk && q) := by
  cases x with
  | error e => rfl
  | ok a => exact (h a).trans (Bool.true_and q).symm

/-- Two stages that do not look at each other's result. -/
theorem both_isOk {γ : Type} {y : Except ε β} {f : α → β → γ} :
    (do let a ← x; let b ← y; return f a b : Except ε γ).isOk = (x.isOk && y.isOk) := by
  cases x with
  | error e => rfl
  | ok a =>
    cases y with
    | error e => rfl
    | ok b => rfl

end Except

/-- The variable an env value refers to. -/
def envReferences (value : String) : List String :=
  match value.toList with
  | '$' :: '$' :: _ => []
  | ['$'] => []
  | '$' :: varName => [String.ofList varName]
  | _ => []

/-- The variables the characters of a header value refer to. -/
def headerReferences : List Char → List String
  | [] => []
  | '$' :: '$' :: rest => headerReferences rest
  | '$' :: rest =>
    let varName := rest.takeWhile isVarChar
    if varName = [] then headerReferences rest
    else String.ofList varName :: headerReferences (rest.dropWhile isVarChar)
  | _ :: rest => headerReferences rest
termination_by chars => chars.length
decreasing_by
  all_goals simp only [List.length_cons]
  · omega
  · omega
  · have hle := (List.dropWhile_suffix (l := rest) isVarChar).length_le
    omega
  · omega

/-- The variables the settings of an endpoint refer to. -/
def EndpointConfig.references (ep : EndpointConfig) : List String :=
  (ep.env.getD []).flatMap (fun e => envReferences e.2) ++
    (ep.headers.getD []).flatMap fun e => headerReferences e.2.toList

def Environment.isSet (varName : String) : Bool := (env.var varName).isSome

theorem Environment.lookup_isOk (endpointName varName : String) :
    (env.lookup endpointName varName).isOk = env.isSet varName := by
  unfold Environment.lookup Environment.isSet
  cases env.var varName <;> rfl

theorem resolveEnvValue_isOk (endpointName value : String) :
    (resolveEnvValue env endpointName value).isOk = (envReferences value).all env.isSet := by
  unfold resolveEnvValue envReferences
  split
  · rfl
  · rfl
  · rw [Environment.lookup_isOk, List.all_cons, List.all_nil, Bool.and_true]
  · rfl

theorem resolveHeaderChars_isOk (endpointName : String) (chars : List Char) :
    (resolveHeaderChars env endpointName chars).isOk = (headerReferences chars).all env.isSet := by
  fun_induction headerReferences chars with
  | case1 => simp [resolveHeaderChars, Except.isOk, Except.toBool]
  | case2 rest ih => rw [resolveHeaderChars, map_isOk, ih]
  | case3 rest hne varName hempty ih =>
    rw [resolveHeaderChars]
    · rw [if_pos hempty, map_isOk, ih]
    · exact hne
  | case4 rest hne varName hname ih =>
    rw [resolveHeaderChars]
    · rw [if_neg hname, bind_isOk (fun val => map_isOk), ih, Environment.lookup_isOk, List.all_cons]
    · exact hne
  | case5 c rest hne hc ih =>
    rw [resolveHeaderChars, map_isOk, ih]
    · exact hne
    · exact hc

variable {resolve : String → Except ConfigError String} {eps eps' : List EndpointConfig}
  {cfg parsed : ParsedConfig} {ep : EndpointConfig} {seen : List String}
  {warnings : List EndpointValidationWarning}

theorem resolveEntries_isOk {references : String → List String}
    (h : ∀ value, (resolve value).isOk = (references value).all env.isSet)
    (entries : List (String × String)) :
    (resolveEntries resolve entries).isOk =
      (entries.flatMap fun e => references e.2).all env.isSet := by
  induction entries with
  | nil => rfl
  | cons e entries ih =>
    obtain ⟨key, value⟩ := e
    rw [resolveEntries, List.flatMap_cons, List.all_append, both_isOk, h, ih]

theorem resolveMap_isOk {references : String → List String}
    (h : ∀ value, (resolve value).isOk = (references value).all env.isSet)
    (entries : Option (List (String × String))) :
    (resolveMap resolve entries).isOk =
      ((entries.getD []).flatMap fun e => references e.2).all env.isSet := by
  cases entries with
  | none => rfl
  | some entries => rw [resolveMap, map_isOk, resolveEntries_isOk env h, Option.getD_some]

theorem resolveEndpoint_isOk (ep : EndpointConfig) :
    (resolveEndpoint env ep).isOk = ep.references.all env.isSet := by
  have henv := resolveMap_isOk env (resolveEnvValue_isOk env ep.name) ep.env
  have hvalue (value : String) : (resolveHeaderValue env ep.name value).isOk =
      (headerReferences value.toList).all env.isSet :=
    map_isOk.trans (resolveHeaderChars_isOk env ep.name value.toList)
  have hheaders := resolveMap_isOk env hvalue ep.headers
  rw [resolveEndpoint, both_isOk, henv, hheaders, EndpointConfig.references, List.all_append]

theorem resolveEnvVars_isOk (eps : List EndpointConfig) :
    (resolveEnvVars env eps).isOk = eps.all fun ep => ep.references.all env.isSet := by
  induction eps with
  | nil => rfl
  | cons ep eps ih =>
    rw [resolveEnvVars, both_isOk, resolveEndpoint_isOk, ih, List.all_cons]

/-! ## What resolving leaves alone -/

/-- The settings of an endpoint that hold no references. -/
def EndpointConfig.plain (ep : EndpointConfig) : EndpointConfig := { ep with env := none, headers := none }

theorem resolveEndpoint_plain {ep ep' : EndpointConfig} (h : resolveEndpoint env ep = .ok ep') :
    ep'.plain = ep.plain := by
  obtain ⟨envMap, -, h⟩ := bind_eq_ok.1 h
  obtain ⟨headersMap, -, h⟩ := bind_eq_ok.1 h
  cases h
  rfl

theorem resolveEnvVars_plain (h : resolveEnvVars env eps = .ok eps') :
    eps'.map EndpointConfig.plain = eps.map EndpointConfig.plain := by
  induction eps generalizing eps' with
  | nil =>
    cases h
    rfl
  | cons ep eps ih =>
    obtain ⟨resolvedEp, hep, h⟩ := bind_eq_ok.1 h
    obtain ⟨resolved, heps, h⟩ := bind_eq_ok.1 h
    cases h
    rw [List.map_cons, List.map_cons, resolveEndpoint_plain env hep, ih heps]

theorem resolveEndpointGraceful_plain (warnings : List EndpointValidationWarning)
    (ep : EndpointConfig) : (resolveEndpointGraceful env warnings ep).1.plain = ep.plain := by
  unfold resolveEndpointGraceful
  split
  · rfl
  · split
    · rfl
    · split
      · rfl
      · rfl

theorem resolveEnvVarsGraceful_plain (warnings : List EndpointValidationWarning)
    (eps : List EndpointConfig) :
    (resolveEnvVarsGraceful env warnings eps).1.map EndpointConfig.plain =
      eps.map EndpointConfig.plain := by
  induction eps generalizing warnings with
  | nil => rfl
  | cons ep eps ih =>
    rw [resolveEnvVarsGraceful, List.map_cons, List.map_cons, resolveEndpointGraceful_plain, ih]

theorem names_plain (eps : List EndpointConfig) :
    (eps.map EndpointConfig.plain).map (·.name) = eps.map (·.name) := by
  rw [List.map_map]
  rfl

/-- The checks on endpoints do not look at what is resolved. -/
theorem validateEndpoints_plain (seen : List String) (eps : List EndpointConfig) :
    validateEndpoints seen (eps.map EndpointConfig.plain) = validateEndpoints seen eps := by
  induction eps generalizing seen with
  | nil => rfl
  | cons ep eps ih =>
    show _ ++ validateEndpoints (seenPrefixes seen ep.plain) _ = _ ++ validateEndpoints _ eps
    rw [ih]
    rfl

theorem validateEndpoints_congr (h : eps.map EndpointConfig.plain = eps'.map EndpointConfig.plain)
    (seen : List String) : validateEndpoints seen eps = validateEndpoints seen eps' := by
  rw [← validateEndpoints_plain, h, validateEndpoints_plain]

theorem validateProfiles_congr
    (h : eps.map EndpointConfig.plain = cfg.config.endpoints.map EndpointConfig.plain) :
    validateProfiles (cfg.setEndpoints eps) = validateProfiles cfg := by
  have hnames : eps.map (·.name) = cfg.config.endpoints.map (·.name) := by
    rw [← names_plain, h, names_plain]
  show profileErrors (eps.map (·.name)) _ _ _ = profileErrors _ _ _ _
  rw [hnames]
  rfl

/-! ## Strict loading -/

theorem failFast_eq_ok {errors : List String} : failFast errors = .ok () ↔ errors = [] := by
  cases errors with
  | nil => simp [failFast]
  | cons e errors => simp [failFast]

theorem validate_eq_ok {cfg : Config} :
    cfg.validate = .ok () ↔ validateEndpoints [] cfg.endpoints = [] := by
  unfold Config.validate
  split
  · next h => simp [h]
  · next h => simpa using h

/-- The stages after the endpoints. -/
structure RestValid (parsed : ParsedConfig) : Prop where
  profiles : validateProfiles parsed = []
  writeDirs : validateWriteDirs env parsed = []

/-- **What strict loading accepts**, and that it returns the file with its references resolved. -/
theorem parseAndValidate_eq_ok :
    parseAndValidate env parsed = .ok cfg ↔
      ∃ eps, resolveEnvVars env parsed.config.endpoints = .ok eps ∧
        validateEndpoints [] parsed.config.endpoints = [] ∧ RestValid env parsed ∧
        cfg = parsed.setEndpoints eps := by
  unfold parseAndValidate
  rw [bind_eq_ok]
  refine exists_congr fun eps => and_congr_right fun heps => ?_
  have hplain := resolveEnvVars_plain env heps
  have hvalidate : (parsed.setEndpoints eps).config.validate = .ok () ↔
      validateEndpoints [] parsed.config.endpoints = [] := by
    rw [validate_eq_ok, ← validateEndpoints_congr hplain]
    rfl
  have hprofiles := validateProfiles_congr hplain
  constructor
  · intro h
    dsimp only at h
    split at h
    · next hok =>
      obtain ⟨_, hp, h⟩ := bind_eq_ok.1 h
      obtain ⟨_, hw, h⟩ := bind_eq_ok.1 h
      cases h
      exact ⟨hvalidate.1 hok, ⟨hprofiles ▸ failFast_eq_ok.1 hp, failFast_eq_ok.1 hw⟩, rfl⟩
    · obtain ⟨_, herr, -⟩ := bind_eq_ok.1 h
      cases herr
  · rintro ⟨hendpoints, ⟨hp, hw⟩, rfl⟩
    have hw' : validateWriteDirs env (parsed.setEndpoints eps) = [] := hw
    dsimp only
    rw [hvalidate.2 hendpoints, hprofiles, hp, hw']
    rfl

/-! ## Graceful loading -/

section
variable {warnings : List EndpointValidationWarning}

theorem resolveEndpointGraceful_extends (ep : EndpointConfig) :
    warnings <+: (resolveEndpointGraceful env warnings ep).2 := by
  unfold resolveEndpointGraceful
  split
  · exact List.prefix_append _ _
  · split
    · exact List.prefix_append _ _
    · split
      · exact List.prefix_rfl
      · exact List.prefix_rfl

theorem resolveEnvVarsGraceful_extends (eps : List EndpointConfig) :
    warnings <+: (resolveEnvVarsGraceful env warnings eps).2 := by
  induction eps generalizing warnings with
  | nil => exact List.prefix_rfl
  | cons ep eps ih => exact (resolveEndpointGraceful_extends env ep).trans ih

end

/-- Without a warning, graceful resolution is strict resolution. -/
theorem resolveEndpointGraceful_eq {ep ep' : EndpointConfig} :
    resolveEndpointGraceful env [] ep = (ep', []) ↔ resolveEndpoint env ep = .ok ep' := by
  unfold resolveEndpointGraceful resolveEndpoint
  cases resolveMap (resolveEnvValue env ep.name) ep.env with
  | error e => simp [bind, Except.bind]
  | ok envMap =>
    cases resolveMap (resolveHeaderValue env ep.name) ep.headers with
    | error e => simp [bind, Except.bind]
    | ok headersMap => simp [bind, Except.bind, pure, Except.pure]

theorem resolveEnvVarsGraceful_eq :
    resolveEnvVarsGraceful env [] eps = (eps', []) ↔ resolveEnvVars env eps = .ok eps' := by
  induction eps generalizing eps' with
  | nil => simp [resolveEnvVarsGraceful, resolveEnvVars]
  | cons ep eps ih =>
    rw [resolveEnvVarsGraceful, resolveEnvVars, bind_eq_ok]
    constructor
    · intro h
      simp only [Prod.mk.injEq] at h
      obtain ⟨heps', hnil⟩ := h
      have hep : (resolveEndpointGraceful env [] ep).2 = [] := by
        have hpre : (resolveEndpointGraceful env [] ep).2 <+: _ :=
          resolveEnvVarsGraceful_extends env eps
        rw [hnil] at hpre
        exact List.prefix_nil.1 hpre
      rw [hep] at heps' hnil
      refine ⟨_, (resolveEndpointGraceful_eq env).1 (Prod.ext rfl hep), bind_eq_ok.2 ?_⟩
      exact ⟨_, ih.1 (Prod.ext rfl hnil), congrArg Except.ok heps'⟩
    · rintro ⟨resolvedEp, hep, h⟩
      obtain ⟨resolved, heps, h⟩ := bind_eq_ok.1 h
      cases h
      have hgraceful := (resolveEndpointGraceful_eq env).2 hep
      dsimp only
      rw [hgraceful, ih.2 heps]

theorem validateGraceful_extends (warnings : List EndpointValidationWarning) (seen : List String)
    (eps : List EndpointConfig) : warnings <+: validateGraceful warnings seen eps := by
  induction eps generalizing warnings seen with
  | nil => exact List.prefix_rfl
  | cons ep eps ih => exact (List.prefix_append _ _).trans (ih _ _)

theorem gracefulPrefixMessages_eq_nil :
    gracefulPrefixMessages seen ep = [] ↔ prefixErrors seen ep = [] := by
  unfold gracefulPrefixMessages prefixErrors
  cases ep.resolvedToolPrefix with
  | none => simp
  | some tp =>
    dsimp only
    by_cases hvalid : isValidEndpointName tp = true
    · simp [hvalid]
    · simp [hvalid]

theorem gracefulTransportMessages_eq_nil :
    gracefulTransportMessages ep = [] ↔ transportErrors ep = [] := by
  unfold gracefulTransportMessages transportErrors
  cases ep.transport <;> simp

theorem validateEndpointAuth_eq_nil : (validateEndpointAuth ep).toList = [] ↔ authErrors ep = [] := by
  unfold authErrors
  cases validateEndpointAuth ep <;> simp

/-- The `isolation` values graceful validation knows. -/
def EndpointConfig.IsolationKnown (ep : EndpointConfig) : Prop :=
  ep.isolation = none ∨ ep.isolation = some "container" ∨ ep.isolation = some "none"

theorem isolationKnown_congr (h : eps.map EndpointConfig.plain = eps'.map EndpointConfig.plain) :
    (∀ ep ∈ eps, ep.IsolationKnown) ↔ ∀ ep ∈ eps', ep.IsolationKnown := by
  have hmap (l : List EndpointConfig) :
      (∀ ep ∈ l, ep.IsolationKnown) ↔ ∀ ep ∈ l.map EndpointConfig.plain, ep.IsolationKnown := by
    rw [List.forall_mem_map]
    rfl
  rw [hmap, h, ← hmap]

theorem isolationMessages_eq_nil : isolationMessages ep = [] ↔ ep.IsolationKnown := by
  unfold isolationMessages EndpointConfig.IsolationKnown
  cases ep.isolation with
  | none => simp
  | some iso =>
    by_cases hc : iso = "container"
    · simp [hc]
    · simp [hc]

/-- What strict validation finds wrong with one endpoint. -/
def endpointErrors (seen : List String) (ep : EndpointConfig) : List String :=
  nameErrors ep ++ prefixErrors seen ep ++ transportErrors ep ++ authErrors ep

/-- Graceful validation has nothing to say about an endpoint that was not warned about before when
strict validation has not, and its `isolation` is known. -/
theorem gracefulMessages_eq_nil (hnew : ∀ w ∈ warnings, w.endpointName ≠ ep.name) :
    gracefulMessages warnings seen ep = [] ↔ endpointErrors seen ep = [] ∧ ep.IsolationKnown := by
  have hany : (warnings.any fun w => w.endpointName = ep.name) = false := by
    rw [List.any_eq_false]
    intro w hw
    simpa using hnew w hw
  unfold gracefulMessages endpointErrors
  rw [hany]
  simp only [Bool.false_eq_true, if_false, List.append_eq_nil_iff, gracefulPrefixMessages_eq_nil,
    gracefulTransportMessages_eq_nil, validateEndpointAuth_eq_nil, isolationMessages_eq_nil]
  tauto

theorem validateGraceful_eq_nil :
    validateGraceful [] seen eps = [] ↔
      validateEndpoints seen eps = [] ∧ ∀ ep ∈ eps, ep.IsolationKnown := by
  induction eps generalizing seen with
  | nil => simp [validateGraceful, validateEndpoints]
  | cons ep eps ih =>
    rw [validateGraceful, List.forall_mem_cons]
    show _ ↔ endpointErrors seen ep ++ validateEndpoints _ eps = [] ∧ _
    rw [List.append_eq_nil_iff]
    have hmessages : gracefulMessages [] seen ep = [] ↔ _ := gracefulMessages_eq_nil (by simp)
    by_cases hnil : gracefulMessages [] seen ep = []
    · rw [hnil, List.map_nil, List.append_nil, ih]
      have := hmessages.1 hnil
      tauto
    · constructor
      · intro h
        have hpre := validateGraceful_extends
          ([] ++ (gracefulMessages [] seen ep).map fun msg => ⟨ep.name, msg⟩) (seenPrefixes seen ep) eps
        rw [h, List.prefix_nil, List.nil_append, List.map_eq_nil_iff] at hpre
        exact absurd hpre hnil
      · rintro ⟨⟨herr, -⟩, hiso, -⟩
        exact absurd (hmessages.2 ⟨herr, hiso⟩) hnil

/-- **What graceful loading returns.** -/
theorem parseAndValidateGraceful_eq_ok :
    parseAndValidateGraceful env parsed = .ok (cfg, warnings) ↔
      RestValid env parsed ∧
        cfg = parsed.setEndpoints (resolveEnvVarsGraceful env [] parsed.config.endpoints).1 ∧
        warnings = validateGraceful (resolveEnvVarsGraceful env [] parsed.config.endpoints).2 []
          cfg.config.endpoints := by
  unfold parseAndValidateGraceful
  have hprofiles := validateProfiles_congr
    (resolveEnvVarsGraceful_plain env [] parsed.config.endpoints)
  have hwrite : validateWriteDirs env (parsed.setEndpoints
    (resolveEnvVarsGraceful env [] parsed.config.endpoints).1) = validateWriteDirs env parsed := rfl
  dsimp only
  rw [hprofiles, hwrite]
  constructor
  · intro h
    obtain ⟨_, hp, h⟩ := bind_eq_ok.1 h
    obtain ⟨_, hw, h⟩ := bind_eq_ok.1 h
    cases h
    exact ⟨⟨failFast_eq_ok.1 hp, failFast_eq_ok.1 hw⟩, rfl, rfl⟩
  · rintro ⟨⟨hp, hw⟩, rfl, rfl⟩
    rw [hp, hw]
    rfl

/-! ## The endpoints without a warning -/

/-- The config restricted to the endpoints whose name carries no warning. -/
def Config.unwarned (cfg : Config) (warnings : List EndpointValidationWarning) : Config :=
  { cfg with endpoints := cfg.endpoints.filter fun ep => warnings.all fun w => w.endpointName ≠ ep.name }

/-- The endpoints that end up without a warning pass strict validation, also when it has seen fewer
prefixes. -/
theorem validateEndpoints_unwarned {warnings final : List EndpointValidationWarning}
    {seen seen' : List String} (hfinal : validateGraceful warnings seen eps = final)
    (hseen : seen' ⊆ seen) :
    validateEndpoints seen' (eps.filter fun ep => final.all fun w => w.endpointName ≠ ep.name) = [] := by
  induction eps generalizing warnings seen seen' with
  | nil => rfl
  | cons ep eps ih =>
    rw [validateGraceful] at hfinal
    have hsub : seenPrefixes seen' ep ⊆ seenPrefixes seen ep := by
      unfold seenPrefixes
      split
      · exact hseen
      · split
        · exact List.cons_subset_cons _ hseen
        · exact hseen
    have hpre := hfinal ▸ validateGraceful_extends _ (seenPrefixes seen ep) eps
    rw [List.filter_cons]
    by_cases hun : (final.all fun w => w.endpointName ≠ ep.name) = true
    · have hnone : ∀ w ∈ final, w.endpointName ≠ ep.name := by simpa using hun
      have hmessages : gracefulMessages warnings seen ep = [] := by
        rw [← List.map_eq_nil_iff (f := fun msg => (⟨ep.name, msg⟩ : EndpointValidationWarning)),
          List.eq_nil_iff_forall_not_mem]
        intro w hw
        refine hnone w (hpre.subset (List.mem_append_right _ hw)) ?_
        obtain ⟨msg, -, rfl⟩ := List.mem_map.1 hw
        rfl
      have hnew : ∀ w ∈ warnings, w.endpointName ≠ ep.name := fun w hw =>
        hnone w (hpre.subset (List.mem_append_left _ hw))
      have herrors := ((gracefulMessages_eq_nil hnew).1 hmessages).1
      have hfewer : endpointErrors seen' ep = [] := by
        unfold endpointErrors at herrors ⊢
        simp only [List.append_eq_nil_iff] at herrors ⊢
        obtain ⟨⟨⟨hname, hprefix⟩, htransport⟩, hauth⟩ := herrors
        obtain ⟨tp, htp, hvalid, hnotin⟩ := prefixErrors_eq_nil hprefix
        have hnotin' : tp ∉ seen' := fun hmem => hnotin (hseen hmem)
        exact ⟨⟨⟨hname, by simp [prefixErrors, htp, hvalid, hnotin']⟩, htransport⟩, hauth⟩
      rw [if_pos hun]
      show endpointErrors seen' ep ++ validateEndpoints (seenPrefixes seen' ep) _ = []
      rw [hfewer, List.nil_append]
      exact ih hfinal hsub
    · rw [if_neg hun]
      exact ih hfinal (List.Subset.trans hseen (by
        unfold seenPrefixes
        split
        · exact List.Subset.refl _
        · split
          · exact List.subset_cons_self _ _
          · exact List.Subset.refl _))

/-! ## Agreement -/

theorem validateEndpoints_eq_nil_of_valid (hvalid : ∀ ep ∈ eps, ValidEndpoint ep)
    (hfresh : ∀ ep ∈ eps, ∀ tp ∈ seen, ep.resolvedToolPrefix ≠ some tp)
    (hpair : eps.Pairwise fun a b => a.resolvedToolPrefix ≠ b.resolvedToolPrefix) :
    validateEndpoints seen eps = [] := by
  induction eps generalizing seen with
  | nil => rfl
  | cons ep eps ih =>
    rw [List.forall_mem_cons] at hvalid hfresh
    rw [List.pairwise_cons] at hpair
    obtain ⟨⟨hname, ⟨tp, htp, hok⟩, htransport, hauth⟩, hvalid⟩ := hvalid
    have hnew : tp ∉ seen := fun hmem => hfresh.1 tp hmem htp
    have hnext : ∀ ep' ∈ eps, ∀ tp' ∈ seenPrefixes seen ep, ep'.resolvedToolPrefix ≠ some tp' := by
      intro ep' hmem tp' htp'
      have hseen : seenPrefixes seen ep = tp :: seen := by simp [seenPrefixes, htp, hok]
      rw [hseen, List.mem_cons] at htp'
      obtain rfl | htp' := htp'
      · exact htp ▸ (hpair.1 ep' hmem).symm
      · exact hfresh.2 ep' hmem tp' htp'
    rw [validateEndpoints, ih hvalid hnext hpair.2]
    simp [nameErrors, hname, prefixErrors, htp, hok, hnew, htransport, authErrors, hauth]

/-- The endpoints of a file pass strict validation: each by itself, and no two share a prefix. -/
theorem validateEndpoints_eq_nil_iff :
    validateEndpoints [] eps = [] ↔ (∀ ep ∈ eps, ValidEndpoint ep) ∧
      eps.Pairwise fun a b => a.resolvedToolPrefix ≠ b.resolvedToolPrefix := by
  constructor
  · intro h
    obtain ⟨hvalid, -, hpair⟩ := validateEndpoints_eq_nil h
    exact ⟨hvalid, hpair⟩
  · rintro ⟨hvalid, hpair⟩
    exact validateEndpoints_eq_nil_of_valid hvalid (by simp) hpair

/-- Everything that is asked of a file, except of the `isolation` of its endpoints. -/
structure OtherwiseSound (parsed : ParsedConfig) : Prop where
  references : ∀ ep ∈ parsed.config.endpoints, ∀ varName ∈ ep.references, env.isSet varName = true
  endpoints : ∀ ep ∈ parsed.config.endpoints, ValidEndpoint ep
  prefixes : parsed.config.endpoints.Pairwise fun a b => a.resolvedToolPrefix ≠ b.resolvedToolPrefix
  rest : RestValid env parsed

theorem otherwiseSound_iff :
    OtherwiseSound env parsed ↔ ∃ cfg, parseAndValidate env parsed = .ok cfg := by
  have hisOk : (∃ eps, resolveEnvVars env parsed.config.endpoints = .ok eps) ↔
      ∀ ep ∈ parsed.config.endpoints, ∀ varName ∈ ep.references, env.isSet varName = true := by
    rw [← isOk_iff, resolveEnvVars_isOk]
    simp
  constructor
  · rintro ⟨href, hvalid, hpair, hrest⟩
    obtain ⟨eps, heps⟩ := hisOk.2 href
    exact ⟨_, (parseAndValidate_eq_ok env).2
      ⟨eps, heps, validateEndpoints_eq_nil_iff.2 ⟨hvalid, hpair⟩, hrest, rfl⟩⟩
  · rintro ⟨cfg, hcfg⟩
    obtain ⟨eps, heps, hendpoints, hrest, -⟩ := (parseAndValidate_eq_ok env).1 hcfg
    obtain ⟨hvalid, hpair⟩ := validateEndpoints_eq_nil_iff.1 hendpoints
    exact ⟨hisOk.1 ⟨eps, heps⟩, hvalid, hpair, hrest⟩

theorem parseAndValidateGraceful_eq_ok_nil :
    parseAndValidateGraceful env parsed = .ok (cfg, []) ↔
      parseAndValidate env parsed = .ok cfg ∧ ∀ ep ∈ parsed.config.endpoints, ep.IsolationKnown := by
  rw [parseAndValidateGraceful_eq_ok, parseAndValidate_eq_ok]
  constructor
  · rintro ⟨hrest, rfl, hnil⟩
    have hplain := resolveEnvVarsGraceful_plain env [] parsed.config.endpoints
    have hwarnings : (resolveEnvVarsGraceful env [] parsed.config.endpoints).2 = [] := by
      have hpre := validateGraceful_extends
        (resolveEnvVarsGraceful env [] parsed.config.endpoints).2 []
        (parsed.setEndpoints (resolveEnvVarsGraceful env [] parsed.config.endpoints).1).config.endpoints
      rw [← hnil] at hpre
      exact List.prefix_nil.1 hpre
    rw [hwarnings] at hnil
    obtain ⟨herrors, hknown⟩ := validateGraceful_eq_nil.1 hnil.symm
    refine ⟨⟨_, (resolveEnvVarsGraceful_eq env).1 (Prod.ext rfl hwarnings), ?_, hrest, rfl⟩, ?_⟩
    · rw [← validateEndpoints_congr hplain]
      exact herrors
    · exact (isolationKnown_congr hplain).1 hknown
  · rintro ⟨⟨eps, heps, herrors, hrest, rfl⟩, hknown⟩
    have hplain := resolveEnvVars_plain env heps
    rw [(resolveEnvVarsGraceful_eq env).2 heps]
    refine ⟨hrest, rfl, (validateGraceful_eq_nil.2 ⟨?_, (isolationKnown_congr hplain).2 hknown⟩).symm⟩
    exact (validateEndpoints_congr hplain []).trans herrors

/-- Strict and graceful loading agree on a file. -/
structure StrictGracefulAgree (parsed : ParsedConfig) : Prop where
  same_result : ∀ cfg, parseAndValidate env parsed = .ok cfg ↔
    parseAndValidateGraceful env parsed = .ok (cfg, [])
  unwarned_valid : ∀ cfg warnings, parseAndValidateGraceful env parsed = .ok (cfg, warnings) →
    (cfg.config.unwarned warnings).validate = .ok ()

/-- **Agreement.** Strict and graceful loading agree on a file unless its only faults are `isolation`
values that graceful validation does not know. -/
theorem strict_graceful_agree_iff (parsed : ParsedConfig) :
    StrictGracefulAgree env parsed ↔
      (OtherwiseSound env parsed → ∀ ep ∈ parsed.config.endpoints, ep.IsolationKnown) := by
  constructor
  · rintro ⟨hsame, -⟩ hsound
    obtain ⟨cfg, hcfg⟩ := (otherwiseSound_iff env).1 hsound
    exact ((parseAndValidateGraceful_eq_ok_nil env).1 ((hsame cfg).1 hcfg)).2
  · intro hknown
    refine ⟨fun cfg => ?_, fun cfg warnings h => ?_⟩
    · rw [parseAndValidateGraceful_eq_ok_nil]
      exact ⟨fun h => ⟨h, hknown ((otherwiseSound_iff env).2 ⟨cfg, h⟩)⟩, And.left⟩
    · obtain ⟨-, -, hwarnings⟩ := (parseAndValidateGraceful_eq_ok env).1 h
      exact validate_eq_ok.2 (validateEndpoints_unwarned hwarnings.symm (List.Subset.refl _))

/-- A stdio endpoint with an `isolation` value that does not exist. -/
def dockerIsolation : ParsedConfig where
  config :=
    { allowInsecureOauth := none
      endpoints := [{
        name := "box", transport := .stdio, command := some "echo", isolation := some "docker" }]
      organizations := [] }

/-- Strict validation accepts it without a word, graceful validation warns about it. -/
theorem strict_accepts_unknown_isolation : ¬ StrictGracefulAgree ⟨fun _ => none, none⟩ dockerIsolation := by
  rintro ⟨hsame, -⟩
  have hstrict : parseAndValidate ⟨fun _ => none, none⟩ dockerIsolation = .ok dockerIsolation := rfl
  have hgraceful := ((parseAndValidateGraceful_eq_ok_nil _).1 ((hsame _).1 hstrict)).2
  have hbox := hgraceful _ List.mem_cons_self
  simp [EndpointConfig.IsolationKnown] at hbox

end EndaraRelay
