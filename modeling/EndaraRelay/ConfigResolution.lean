import EndaraRelay.ConfigLoading

/-!
# What graceful resolution leaves of an endpoint

The loop of `resolve_env_vars_graceful` over the endpoints: the env map of an endpoint is replaced
before its headers are looked at, and the headers are replaced unless the warnings hold its name.

**Pieces.** A value is a list of characters and variables. When no variable of an endpoint is missing,
strict resolution gives it the text of its pieces.

**Theorem (`graceful_allOrNothing_iff`).** Resolution is all or nothing on every endpoint exactly when
every endpoint whose name is warned about, and whose env map resolves, has an env map that resolving
does not change, and headers that it does not change either if the endpoint comes before the
warnings of its name and misses nothing.
-/

namespace EndaraRelay

variable (env : Environment)

/-! ## The text of a value -/

/-- A piece of a value: a character that stands for itself, or a variable. -/
inductive ValuePiece where
  | char (c : Char)
  | reference (varName : String)
deriving DecidableEq, Repr

/-- The pieces of an env value: only the whole value is a variable. -/
def envPieces : List Char → List ValuePiece
  | '$' :: '$' :: rest => ('$' :: rest).map .char
  | ['$'] => [.char '$']
  | '$' :: varName => [.reference (String.ofList varName)]
  | chars => chars.map .char

/-- The pieces of a header value, with variables at any position. -/
def headerPieces : List Char → List ValuePiece
  | [] => []
  | '$' :: '$' :: rest => .char '$' :: headerPieces rest
  | '$' :: rest =>
    let varName := rest.takeWhile isVarChar
    if varName = [] then .char '$' :: headerPieces rest
    else .reference (String.ofList varName) :: headerPieces (rest.dropWhile isVarChar)
  | c :: rest => .char c :: headerPieces rest
termination_by chars => chars.length
decreasing_by
  all_goals simp only [List.length_cons]
  · omega
  · omega
  · have hle := (List.dropWhile_suffix (l := rest) isVarChar).length_le
    omega
  · omega

def Environment.expand : ValuePiece → List Char
  | .char c => [c]
  | .reference varName => ((env.var varName).getD "").toList

/-- The text of a list of pieces; a missing variable has none. -/
def Environment.textOf (pieces : List ValuePiece) : String :=
  String.ofList (pieces.flatMap env.expand)

theorem flatMap_expand_char (chars : List Char) :
    (chars.map ValuePiece.char).flatMap env.expand = chars := by
  induction chars with
  | nil => rfl
  | cons c chars ih => rw [List.map_cons, List.flatMap_cons, ih, Environment.expand, List.singleton_append]

theorem textOf_chars (value : String) : env.textOf (value.toList.map .char) = value := by
  rw [Environment.textOf, flatMap_expand_char, String.ofList_toList]

/-- A variable that is set is looked up as what it expands to. -/
theorem lookup_eq {varName : String} (endpointName : String) (h : env.isSet varName) :
    env.lookup endpointName varName = .ok (String.ofList (env.expand (.reference varName))) := by
  obtain ⟨val, hval⟩ := Option.isSome_iff_exists.1 h
  rw [Environment.lookup, Environment.expand, hval, Option.getD_some, String.ofList_toList]

variable {value : String} {resolve : String → Except ConfigError String}
  {references : String → List String} {text : String → String}
  {entries : Option (List (String × String))} {varNames : List String}

theorem resolveEnvValue_eq (endpointName : String) (h : (envReferences value).all env.isSet) :
    resolveEnvValue env endpointName value = .ok (env.textOf (envPieces value.toList)) := by
  unfold envReferences at h
  unfold resolveEnvValue
  split
  next rest hvalue =>
    rw [hvalue, envPieces, Environment.textOf, flatMap_expand_char]
  next hvalue =>
    rw [hvalue, envPieces, Environment.textOf, List.flatMap_singleton, Environment.expand, ← hvalue,
      String.ofList_toList]
  next varName hne hempty hvalue =>
    rw [hvalue] at h
    have hset : env.isSet (String.ofList varName) := by simpa using h
    rw [hvalue, envPieces, lookup_eq env endpointName hset, Environment.textOf, List.flatMap_singleton]
    · exact hne
    · exact hempty
  next hne hempty hname =>
    rw [envPieces, textOf_chars]
    · exact hne
    · exact hempty
    · exact hname

theorem resolveHeaderChars_eq (endpointName : String) {chars : List Char}
    (h : (headerReferences chars).all env.isSet) :
    resolveHeaderChars env endpointName chars = .ok ((headerPieces chars).flatMap env.expand) := by
  fun_induction headerReferences chars with
  | case1 => rw [resolveHeaderChars, headerPieces, List.flatMap_nil]
  | case2 rest ih =>
    rw [resolveHeaderChars, headerPieces, ih h]
    rfl
  | case3 rest hne varName hempty ih =>
    rw [resolveHeaderChars, headerPieces]
    · rw [if_pos hempty, if_pos hempty, ih h]
      rfl
    · exact hne
    · exact hne
  | case4 rest hne varName hname ih =>
    rw [List.all_cons, Bool.and_eq_true] at h
    rw [resolveHeaderChars, headerPieces]
    · rw [if_neg hname, if_neg hname, lookup_eq env endpointName h.1, ih h.2, List.flatMap_cons]
      exact congrArg (fun text => Except.ok (text ++ _)) String.toList_ofList
    · exact hne
    · exact hne
  | case5 c rest hne hc ih =>
    rw [resolveHeaderChars, headerPieces, ih h]
    · rfl
    all_goals assumption

theorem resolveHeaderValue_eq (endpointName : String)
    (h : (headerReferences value.toList).all env.isSet) :
    resolveHeaderValue env endpointName value = .ok (env.textOf (headerPieces value.toList)) := by
  rw [resolveHeaderValue, resolveHeaderChars_eq env endpointName h]
  rfl

/-! ## The text of a map -/

/-- A map with every value as its text. -/
def expandMap (text : String → String) (entries : Option (List (String × String))) :
    Option (List (String × String)) :=
  entries.map fun entries => entries.map fun e => (e.1, text e.2)

theorem resolveEntries_eq
    (h : ∀ value, (references value).all env.isSet → resolve value = .ok (text value))
    {entries : List (String × String)} (hset : (entries.flatMap fun e => references e.2).all env.isSet) :
    resolveEntries resolve entries = .ok (entries.map fun e => (e.1, text e.2)) := by
  induction entries with
  | nil => rfl
  | cons e entries ih =>
    rw [List.flatMap_cons, List.all_append, Bool.and_eq_true] at hset
    rw [resolveEntries, h _ hset.1, ih hset.2]
    rfl

theorem resolveMap_eq (h : ∀ value, (references value).all env.isSet → resolve value = .ok (text value))
    (hset : ((entries.getD []).flatMap fun e => references e.2).all env.isSet) :
    resolveMap resolve entries = .ok (expandMap text entries) := by
  cases entries with
  | none => rfl
  | some entries =>
    rw [Option.getD_some] at hset
    rw [resolveMap, resolveEntries_eq env h hset]
    rfl

theorem expandMap_eq_self :
    expandMap text entries = entries ↔ ∀ e ∈ entries.getD [], text e.2 = e.2 := by
  cases entries with
  | none => simp [expandMap]
  | some entries =>
    have hmap : entries.map (fun e => (e.1, text e.2)) = entries.map id ↔
        ∀ e ∈ entries, text e.2 = e.2 :=
      List.map_inj_left.trans (forall₂_congr fun e _ => Prod.ext_iff.trans (and_iff_right rfl))
    rw [List.map_id] at hmap
    rw [expandMap, Option.map_some, Option.some_inj, Option.getD_some, hmap]

/-! ## One endpoint -/

/-- The variables the env map of an endpoint refers to. -/
def EndpointConfig.envRefs (ep : EndpointConfig) : List String :=
  (ep.env.getD []).flatMap fun e => envReferences e.2

/-- The variables the headers of an endpoint refer to. -/
def EndpointConfig.headerRefs (ep : EndpointConfig) : List String :=
  (ep.headers.getD []).flatMap fun e => headerReferences e.2.toList

/-- One of the variables is missing. -/
def Environment.lacks (varNames : List String) : Bool := !varNames.all env.isSet

theorem lacks_references (ep : EndpointConfig) :
    env.lacks ep.references = (env.lacks ep.envRefs || env.lacks ep.headerRefs) := by
  rw [Environment.lacks, EndpointConfig.references, List.all_append, Bool.not_and]
  rfl

/-- The endpoint with its env map resolved. -/
def EndpointConfig.expandEnv (ep : EndpointConfig) : EndpointConfig :=
  { ep with env := expandMap (fun value => env.textOf (envPieces value.toList)) ep.env }

/-- The endpoint with its headers resolved. -/
def EndpointConfig.expandHeaders (ep : EndpointConfig) : EndpointConfig :=
  { ep with headers := expandMap (fun value => env.textOf (headerPieces value.toList)) ep.headers }

/-- Resolving changes no env value. -/
def EndpointConfig.EnvFixed (ep : EndpointConfig) : Prop :=
  ∀ e ∈ ep.env.getD [], env.textOf (envPieces e.2.toList) = e.2

/-- Resolving changes no header. -/
def EndpointConfig.HeadersFixed (ep : EndpointConfig) : Prop :=
  ∀ e ∈ ep.headers.getD [], env.textOf (headerPieces e.2.toList) = e.2

variable {ep : EndpointConfig}

theorem expandEnv_eq_self : ep.expandEnv env = ep ↔ ep.EnvFixed env := by
  cases ep
  rw [EndpointConfig.expandEnv, EndpointConfig.mk.injEq]
  simp only [and_true, true_and]
  exact expandMap_eq_self

theorem expand_eq_self :
    (ep.expandEnv env).expandHeaders env = ep ↔ ep.EnvFixed env ∧ ep.HeadersFixed env := by
  cases ep
  rw [EndpointConfig.expandEnv, EndpointConfig.expandHeaders, EndpointConfig.mk.injEq]
  simp only [and_true, true_and]
  exact and_congr expandMap_eq_self expandMap_eq_self

theorem all_isSet (h : ¬ env.lacks varNames) : varNames.all env.isSet := by
  rwa [Environment.lacks, Bool.not_eq_true', Bool.not_eq_false] at h

theorem all_isSet_eq_false (h : env.lacks varNames) : varNames.all env.isSet = false := by
  rwa [Environment.lacks, Bool.not_eq_true'] at h

theorem resolveMap_error (h : ∀ value, (resolve value).isOk = (references value).all env.isSet)
    (hlacks : env.lacks ((entries.getD []).flatMap fun e => references e.2)) :
    ∃ e, resolveMap resolve entries = .error e := by
  have hok := resolveMap_isOk env h entries
  rw [all_isSet_eq_false env hlacks] at hok
  cases hmap : resolveMap resolve entries with
  | error e => exact ⟨e, rfl⟩
  | ok resolved =>
    rw [hmap] at hok
    cases hok

theorem resolve_env (h : ¬ env.lacks ep.envRefs) :
    resolveMap (resolveEnvValue env ep.name) ep.env = .ok (ep.expandEnv env).env :=
  resolveMap_eq env (fun _ => resolveEnvValue_eq env ep.name) (all_isSet env h)

theorem resolve_headers (h : ¬ env.lacks ep.headerRefs) :
    resolveMap (resolveHeaderValue env ep.name) ep.headers = .ok (ep.expandHeaders env).headers := by
  have hvalue (value : String) (hset : (headerReferences value.toList).all env.isSet) :=
    resolveHeaderValue_eq env ep.name hset
  exact resolveMap_eq env hvalue (all_isSet env h)

/-- Strict resolution gives an endpoint the text of its values when it lacks no variable. -/
theorem resolveEndpoint_ok_iff {ep' : EndpointConfig} :
    resolveEndpoint env ep = .ok ep' ↔
      ¬ env.lacks ep.references ∧ ep' = (ep.expandEnv env).expandHeaders env := by
  by_cases h : env.lacks ep.references
  · have hok := resolveEndpoint_isOk env ep
    rw [all_isSet_eq_false env h] at hok
    refine iff_of_false (fun hep => ?_) fun hep => hep.1 h
    rw [hep] at hok
    cases hok
  · have hboth : ¬ env.lacks ep.envRefs ∧ ¬ env.lacks ep.headerRefs := by
      rwa [lacks_references, Bool.or_eq_true, not_or] at h
    rw [and_iff_right h, resolveEndpoint, resolve_env env hboth.1, resolve_headers env hboth.2]
    exact ⟨fun hep => (Except.ok.inj hep).symm, fun hep => congrArg Except.ok hep.symm⟩

/-! ## A step of the loop -/

def warnedNames (warnings : List EndpointValidationWarning) : List String :=
  warnings.map EndpointValidationWarning.endpointName

variable (warnings : List EndpointValidationWarning)

theorem graceful_env_lacks (h : env.lacks ep.envRefs) :
    ∃ message, resolveEndpointGraceful env warnings ep = (ep, warnings ++ [⟨ep.name, message⟩]) := by
  obtain ⟨e, he⟩ := resolveMap_error env (resolveEnvValue_isOk env ep.name) h
  rw [resolveEndpointGraceful, he]
  exact ⟨_, rfl⟩

/-- A missing variable of the headers is warned about when the env map has been replaced already. -/
theorem graceful_headers_lack (henv : ¬ env.lacks ep.envRefs) (h : env.lacks ep.headerRefs) :
    ∃ message, resolveEndpointGraceful env warnings ep =
      (ep.expandEnv env, warnings ++ [⟨ep.name, message⟩]) := by
  have hvalue (value : String) : (resolveHeaderValue env ep.name value).isOk =
      (headerReferences value.toList).all env.isSet :=
    map_isOk.trans (resolveHeaderChars_isOk env ep.name value.toList)
  obtain ⟨e, he⟩ := resolveMap_error env hvalue h
  rw [resolveEndpointGraceful, resolve_env env henv, he]
  exact ⟨_, rfl⟩

theorem graceful_set (henv : ¬ env.lacks ep.envRefs) (hheaders : ¬ env.lacks ep.headerRefs) :
    resolveEndpointGraceful env warnings ep =
      (if ep.name ∈ warnedNames warnings then ep.expandEnv env
        else (ep.expandEnv env).expandHeaders env, warnings) := by
  rw [resolveEndpointGraceful, resolve_env env henv, resolve_headers env hheaders]
  have hnames : (warnings.all fun w => w.endpointName ≠ ep.name) = true ↔
      ep.name ∉ warnedNames warnings := by
    simp [warnedNames]
  by_cases hwarned : ep.name ∈ warnedNames warnings
  · rw [if_pos hwarned]
    exact if_neg fun hall => hnames.1 hall hwarned
  · rw [if_neg hwarned]
    exact if_pos (hnames.2 hwarned)

theorem warnedNames_endpoint :
    warnedNames (resolveEndpointGraceful env warnings ep).2 =
      warnedNames warnings ++ if env.lacks ep.references then [ep.name] else [] := by
  rw [lacks_references]
  by_cases henv : env.lacks ep.envRefs
  · obtain ⟨message, hstep⟩ := graceful_env_lacks env warnings henv
    rw [hstep, henv, Bool.true_or, if_pos rfl]
    exact List.map_append
  · by_cases hheaders : env.lacks ep.headerRefs
    · obtain ⟨message, hstep⟩ := graceful_headers_lack env warnings henv hheaders
      rw [hstep, hheaders, Bool.or_true, if_pos rfl]
      exact List.map_append
    · have hboth : ¬ (env.lacks ep.envRefs || env.lacks ep.headerRefs) = true := by
        rw [Bool.or_eq_true, not_or]
        exact ⟨henv, hheaders⟩
      rw [graceful_set env _ henv hheaders, if_neg hboth, List.append_nil]

/-! ## The loop -/

/-- One of the endpoints of the name lacks a variable. -/
def Warns (eps : List EndpointConfig) (name : String) : Prop :=
  ∃ ep ∈ eps, ep.name = name ∧ env.lacks ep.references

theorem warnedNames_run (eps : List EndpointConfig) :
    warnedNames (resolveEnvVarsGraceful env warnings eps).2 =
      warnedNames warnings ++ (eps.filter fun ep => env.lacks ep.references).map EndpointConfig.name := by
  induction eps generalizing warnings with
  | nil => exact (List.append_nil _).symm
  | cons ep eps ih =>
    rw [resolveEnvVarsGraceful]
    dsimp only
    rw [ih, warnedNames_endpoint, List.append_assoc, List.filter_cons]
    split
    · rfl
    · rfl

theorem mem_warnedNames {eps : List EndpointConfig} {name : String} :
    name ∈ warnedNames (resolveEnvVarsGraceful env [] eps).2 ↔ Warns env eps name := by
  rw [warnedNames_run]
  simp only [warnedNames, List.map_nil, List.nil_append, List.mem_map, List.mem_filter, Warns]
  exact exists_congr fun ep => by rw [and_assoc, and_comm (a := ep.name = name)]

/-- The endpoint at a place is resolved under the warnings of those before it. -/
theorem resolved_at (eps : List EndpointConfig) (i : Nat) :
    (resolveEnvVarsGraceful env warnings eps).1[i]? =
      eps[i]?.map fun ep =>
        (resolveEndpointGraceful env (resolveEnvVarsGraceful env warnings (eps.take i)).2 ep).1 := by
  induction eps generalizing warnings i with
  | nil => rfl
  | cons ep eps ih =>
    cases i with
    | zero => rfl
    | succ i => exact ih _ i

/-! ## All or nothing -/

/-- The endpoint was resolved without a warning of its name, or is warned about and left as it was. -/
def ResolvedOrKept (eps : List EndpointConfig) (ep ep' : EndpointConfig) : Prop :=
  (resolveEndpoint env ep = .ok ep' ∧ ep.name ∉ warnedNames (resolveEnvVarsGraceful env [] eps).2) ∨
    (ep' = ep ∧ ep.name ∈ warnedNames (resolveEnvVarsGraceful env [] eps).2)

/-- Graceful resolution is all or nothing on every endpoint. -/
def AllOrNothing (eps : List EndpointConfig) : Prop :=
  ∀ (i : Nat) ep ep', eps[i]? = some ep → (resolveEnvVarsGraceful env [] eps).1[i]? = some ep' →
    ResolvedOrKept env eps ep ep'

/-- The maps of the endpoint that are replaced although its name is warned about hold nothing to
resolve. -/
def LeftAlone (eps : List EndpointConfig) (i : Nat) (ep : EndpointConfig) : Prop :=
  Warns env eps ep.name → ¬ env.lacks ep.envRefs →
    ep.EnvFixed env ∧
      (¬ env.lacks ep.headerRefs → ¬ Warns env (eps.take i) ep.name → ep.HeadersFixed env)

section At

variable {eps : List EndpointConfig} {i : Nat} {ep' : EndpointConfig}

theorem resolvedOrKept_warned (h : Warns env eps ep.name) :
    ResolvedOrKept env eps ep ep' ↔ ep' = ep := by
  rw [ResolvedOrKept, mem_warnedNames]
  exact ⟨fun hep => hep.elim (fun hresolved => absurd h hresolved.2) And.left, fun hep => .inr ⟨hep, h⟩⟩

/-- An endpoint that lacks a variable has its name warned about. -/
theorem warns_of_lacks (hep : ep ∈ eps) (h : env.lacks ep.references) : Warns env eps ep.name :=
  ⟨ep, hep, rfl, h⟩

theorem warns_take (h : Warns env (eps.take i) ep.name) : Warns env eps ep.name := by
  obtain ⟨other, hother, hwarns⟩ := h
  exact ⟨other, List.mem_of_mem_take hother, hwarns⟩

theorem resolvedOrKept_at (hi : eps[i]? = some ep) :
    ResolvedOrKept env eps ep
        (resolveEndpointGraceful env (resolveEnvVarsGraceful env [] (eps.take i)).2 ep).1 ↔
      LeftAlone env eps i ep := by
  have hep : ep ∈ eps := List.mem_of_getElem? hi
  by_cases henv : env.lacks ep.envRefs
  · -- the first pass fails: nothing is replaced
    obtain ⟨message, hstep⟩ := graceful_env_lacks env
      (resolveEnvVarsGraceful env [] (eps.take i)).2 henv
    have hwarns : Warns env eps ep.name :=
      warns_of_lacks env hep (by rw [lacks_references, henv, Bool.true_or])
    rw [hstep, resolvedOrKept_warned env hwarns]
    exact iff_of_true rfl fun _ hset => absurd henv hset
  by_cases hheaders : env.lacks ep.headerRefs
  · -- the second pass fails: the env map has been replaced by then
    obtain ⟨message, hstep⟩ := graceful_headers_lack env
      (resolveEnvVarsGraceful env [] (eps.take i)).2 henv hheaders
    have hwarns : Warns env eps ep.name :=
      warns_of_lacks env hep (by rw [lacks_references, hheaders, Bool.or_true])
    rw [hstep, resolvedOrKept_warned env hwarns, expandEnv_eq_self]
    exact ⟨fun hfixed _ _ => ⟨hfixed, fun hset => absurd hheaders hset⟩, fun h => (h hwarns henv).1⟩
  rw [graceful_set env _ henv hheaders]
  by_cases hbefore : Warns env (eps.take i) ep.name
  · have hwarns := warns_take env hbefore
    rw [if_pos ((mem_warnedNames env).2 hbefore), resolvedOrKept_warned env hwarns, expandEnv_eq_self]
    exact ⟨fun hfixed _ _ => ⟨hfixed, fun _ hnot => absurd hbefore hnot⟩, fun h => (h hwarns henv).1⟩
  rw [if_neg (mt (mem_warnedNames env).1 hbefore)]
  by_cases hwarns : Warns env eps ep.name
  · rw [resolvedOrKept_warned env hwarns, expand_eq_self]
    exact ⟨fun hfixed _ _ => ⟨hfixed.1, fun _ _ => hfixed.2⟩,
      fun h => ⟨(h hwarns henv).1, (h hwarns henv).2 hheaders hbefore⟩⟩
  · have hresolved : resolveEndpoint env ep = .ok ((ep.expandEnv env).expandHeaders env) := by
      refine (resolveEndpoint_ok_iff env).2 ⟨?_, rfl⟩
      rw [lacks_references, Bool.or_eq_true, not_or]
      exact ⟨henv, hheaders⟩
    exact iff_of_true (.inl ⟨hresolved, fun hmem => hwarns ((mem_warnedNames env).1 hmem)⟩)
      fun h => absurd h hwarns

end At

/-- Graceful resolution is all or nothing exactly when no endpoint whose name is warned about has
anything to resolve in the maps that are replaced all the same. -/
theorem graceful_allOrNothing_iff (eps : List EndpointConfig) :
    AllOrNothing env eps ↔ ∀ (i : Nat) ep, eps[i]? = some ep → LeftAlone env eps i ep := by
  refine forall₂_congr fun i ep => ⟨fun h hi => ?_, fun h ep' hi hep' => ?_⟩
  · refine (resolvedOrKept_at env hi).1 (h _ hi ?_)
    rw [resolved_at, hi, Option.map_some]
  · rw [resolved_at, hi, Option.map_some, Option.some_inj] at hep'
    exact hep' ▸ (resolvedOrKept_at env hi).2 (h hi)

/-- The endpoint `api` with `HOME` in its env map and a token that is not set in a header: its env map
comes out resolved under a warning. -/
def halfSet : EndpointConfig :=
  { name := "api", transport := .http, url := some "http://localhost:1"
    env := some [("DIR", "$HOME")], headers := some [("Authorization", "Bearer $TOKEN")] }

def homeOnly : Environment where
  var varName := if varName = "HOME" then some "/root" else none
  home := some "/root"

theorem half_resolved : ¬ AllOrNothing homeOnly [halfSet] := by
  have henv : ¬ homeOnly.lacks halfSet.envRefs := by decide
  have hheaders : homeOnly.lacks halfSet.headerRefs := by
    simp [Environment.lacks, EndpointConfig.headerRefs, halfSet, headerReferences, isVarChar,
      isAsciiLowercase, isAsciiDigit, Environment.isSet, homeOnly]
  obtain ⟨message, hstep⟩ := graceful_headers_lack homeOnly [] henv hheaders
  have hwarns : Warns homeOnly [halfSet] halfSet.name :=
    warns_of_lacks homeOnly List.mem_cons_self (by rw [lacks_references, hheaders, Bool.or_true])
  intro h
  have hkept := (resolvedOrKept_warned homeOnly hwarns).1
    (h 0 halfSet (halfSet.expandEnv homeOnly) rfl
      (by rw [resolved_at]; exact congrArg (fun step => some step.1) hstep))
  revert hkept
  decide

end EndaraRelay
