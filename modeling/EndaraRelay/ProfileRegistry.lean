import EndaraRelay.CatalogNames

/-!
# The registry as a profile sees it

`profile_registry.rs`: a `ProfileRegistryView` shows the registry restricted to the endpoints of a
profile. Prompts and resources are listed anew over these endpoints, and named by how many of them
are active. Tools are taken out of the merged catalog, which names them by how many endpoints are
active in the whole registry.

- `standalone` is the registry with the endpoints of the profile alone, in the same order of
  iteration.
- `ActsAlone` says that the view lists and routes tools, prompts and resources as that registry does.
- `acts_alone_iff`: it does exactly when the names of the tools of the profile do not depend on the
  other endpoints (`SameNames`) and no other endpoint advertises one of these names (`NotCrowded`).

With two endpoints active and one of them in the profile, the view lists the tool `gmail__send`
beside unwrapped resource URIs (`solo_profile_differs`).
-/

namespace EndaraRelay

open Verif

variable {A : Type} [McpAdapter A]

/-! ## Operations of the view -/

/-- `ProfileRegistryView::merged_catalog`, of the registry's catalog: the tools whose name the lookup
map gives to an allowed endpoint. -/
def profileMergedCatalog (allowedEndpoints : List String) (catalog : Catalog) : List ToolInfo :=
  catalog.tools.filter fun tool =>
    match catalog.lookup.lookup tool.name with
    | some (endpoint, _) => allowedEndpoints.contains endpoint
    | none => false

/-- Which endpoint and raw name `ProfileRegistryView::route_tool_call` hands on. -/
def profileToolTarget (allowedEndpoints : List String) (catalog : Catalog) (prefixedName : String) :
    Except AdapterError (String × String) :=
  match catalog.lookup.lookup prefixedName with
  | none => .error (.protocolError ("no tool '" ++ prefixedName ++ "' in profile"))
  | some (endpoint, tool) =>
    if allowedEndpoints.contains endpoint then .ok (endpoint, tool)
    else .error (.protocolError
      ("tool '" ++ prefixedName ++ "' is not available in this profile"))

/-- `ProfileRegistryView::route_tool_call`. -/
def profileRouteToolCall (validateArguments : Option (String → Json → Json → Option Json))
    (allowedEndpoints : List String) (catalog : Catalog) (entries : Entries A)
    (prefixedName : String) (arguments : Json) (requestParams : Fields) :
    Except AdapterError Json :=
  match profileToolTarget allowedEndpoints catalog prefixedName with
  | .error err => .error err
  | .ok _ => routeToolCall validateArguments catalog entries prefixedName arguments requestParams

def activeEndpointCountIn (allowedEndpoints : List String) (entries : Entries A) : Nat :=
  (entries.entries.filter fun e => !e.2.disabled && allowedEndpoints.contains e.1).length

/-- Single-endpoint mode within the profile. -/
def skipWrapIn (allowedEndpoints : List String) (entries : Entries A) : Bool :=
  activeEndpointCountIn allowedEndpoints entries ≤ 1

def listResourcesIn (allowedEndpoints : List String) (entries : Entries A) : List Json :=
  entries.entries.flatMap fun e =>
    if e.2.disabled || !allowedEndpoints.contains e.1 then []
    else
      match McpAdapter.listResources e.2.adapter with
      | .ok items => items.map (wrapListedResource e.1 (skipWrapIn allowedEndpoints entries))
      | .error _ => []

/-- A listed prompt under its final name, and what the lookup map says of it. A prompt without a name
is listed as it is. -/
def namespacePrompt (skip : Bool) (endpointName : String) (entry : RegisteredAdapter A)
    (item : Json) : Json × Lookup :=
  match (item.get "name").bind Json.asStr with
  | some raw =>
    (item.mapObject fun m => m.insert "name" (.str (finalName skip entry raw)),
      [(finalName skip entry raw, (endpointName, raw))])
  | none => (item, [])

/-- One turn of the loop over the entries that `list_prompts` makes. -/
def endpointPrompts (skip : Bool) (e : Sigma fun _ : String => RegisteredAdapter A) :
    List (Json × Lookup) :=
  match McpAdapter.listPrompts e.2.adapter with
  | .ok items => items.map (namespacePrompt skip e.1 e.2)
  | .error _ => []

/-- `list_prompts_with_lookup`: the prompts, and the lookup map with the last insertion first. -/
def listPromptsWithLookup (entries : Entries A) : List Json × Lookup :=
  let prompts := entries.entries.flatMap fun e =>
    if e.2.disabled then [] else endpointPrompts (skipPrefix entries) e
  (prompts.map (·.1), (prompts.flatMap (·.2)).reverse)

def listPromptsInWithLookup (allowedEndpoints : List String) (entries : Entries A) :
    List Json × Lookup :=
  let prompts := entries.entries.flatMap fun e =>
    if e.2.disabled || !allowedEndpoints.contains e.1 then []
    else endpointPrompts (skipWrapIn allowedEndpoints entries) e
  (prompts.map (·.1), (prompts.flatMap (·.2)).reverse)

/-- Which endpoint and raw name `ProfileRegistryView::route_prompt_get` dispatches to. -/
def profilePromptTarget (allowedEndpoints : List String) (entries : Entries A)
    (prefixedName : String) : Except AdapterError (String × String) :=
  match (listPromptsInWithLookup allowedEndpoints entries).2.lookup prefixedName with
  | none => .error (.protocolError ("no prompt '" ++ prefixedName ++ "' in profile"))
  | some (endpoint, rawName) =>
    if allowedEndpoints.contains endpoint then .ok (endpoint, rawName)
    else .error (.protocolError
      ("prompt '" ++ prefixedName ++ "' is not available in this profile"))

/-- `ProfileRegistryView::route_prompt_get`. -/
def profileRoutePromptGet (allowedEndpoints : List String) (entries : Entries A)
    (prefixedName : String) (arguments : Option Json) : Except AdapterError Json :=
  match profilePromptTarget allowedEndpoints entries prefixedName with
  | .error err => .error err
  | .ok (endpoint, rawName) =>
    (dispatchPromptGetTo entries endpoint rawName arguments).map fun v =>
      rewritePromptGetResult v endpoint (skipWrapIn allowedEndpoints entries)

/-! ## The standalone registry -/

/-- The registry with the endpoints of the profile alone. -/
def standalone (allowedEndpoints : List String) (entries : Entries A) : Entries A :=
  entries.restrict fun name => allowedEndpoints.contains name

variable {allowedEndpoints : List String} {entries : Entries A}

section Entries

omit [McpAdapter A]

theorem activeCount_standalone :
    activeCount (standalone allowedEndpoints entries) =
      activeEndpointCountIn allowedEndpoints entries := by
  unfold activeCount activeEndpointCountIn standalone
  rw [AList.entries_restrict, List.filter_filter]

theorem skipPrefix_standalone :
    skipPrefix (standalone allowedEndpoints entries) = skipWrapIn allowedEndpoints entries := by
  unfold skipPrefix skipWrapIn
  rw [activeCount_standalone]

/-- Going over the entries of the profile is going over all entries and skipping the others. -/
theorem flatMap_standalone {β : Type} (f : (Sigma fun _ : String => RegisteredAdapter A) → List β) :
    ((standalone allowedEndpoints entries).entries.flatMap fun e =>
        if e.2.disabled then [] else f e) =
      entries.entries.flatMap fun e =>
        if e.2.disabled || !allowedEndpoints.contains e.1 then [] else f e := by
  unfold standalone
  rw [AList.entries_restrict]
  induction entries.entries with
  | nil => rfl
  | cons e es ih =>
    rw [List.filter_cons, List.flatMap_cons]
    split
    · next hin =>
      rw [List.flatMap_cons, ih]
      simp only [hin, Bool.not_true, Bool.or_false]
    · next hout =>
      rw [ih]
      simp only [Bool.not_eq_true] at hout
      simp only [hout, Bool.not_false, Bool.or_true, if_true, List.nil_append]

theorem rows_standalone (listed : String → RegisteredAdapter A → Except AdapterError (List ToolInfo)) :
    rows listed (standalone allowedEndpoints entries) =
      (rows listed entries).filter fun r => allowedEndpoints.contains r.endpoint := by
  unfold rows standalone
  rw [AList.entries_restrict, List.filter_flatMap]
  induction entries.entries with
  | nil => rfl
  | cons e es ih =>
    rw [List.filter_cons, List.flatMap_cons, ← ih]
    split
    · next hin =>
      rw [List.flatMap_cons]
      congr 1
      refine (List.filter_eq_self.2 fun r hr => ?_).symm
      rw [endpoint_of_entryRows hr, hin]
    · next hout =>
      have hnone : (entryRows e.1 e.2 (listed e.1 e.2)).filter
          (fun r => allowedEndpoints.contains r.endpoint) = [] := by
        refine List.filter_eq_nil_iff.2 fun r hr => ?_
        rw [endpoint_of_entryRows hr]
        exact hout
      rw [hnone, List.nil_append]

end Entries

theorem listResources_standalone :
    listResources (standalone allowedEndpoints entries) =
      listResourcesIn allowedEndpoints entries := by
  unfold listResources listedResources listResourcesIn
  rw [skipPrefix_standalone, flatMap_standalone, List.map_flatMap]
  congr 1
  funext e
  split
  · rfl
  · cases McpAdapter.listResources e.2.adapter with
    | ok items => simp [Function.comp_def]
    | error err => rfl

theorem listPrompts_standalone :
    listPromptsWithLookup (standalone allowedEndpoints entries) =
      listPromptsInWithLookup allowedEndpoints entries := by
  unfold listPromptsWithLookup listPromptsInWithLookup
  rw [flatMap_standalone, skipPrefix_standalone]

/-- The lookup map is the one prompts are routed by. -/
theorem listPromptsWithLookup_lookup : (listPromptsWithLookup entries).2 = promptLookup entries := by
  unfold listPromptsWithLookup promptLookup
  dsimp only
  rw [List.flatMap_assoc]
  congr 2
  funext e
  split
  · rfl
  · unfold endpointPrompts
    cases McpAdapter.listPrompts e.2.adapter with
    | error err => rfl
    | ok items =>
      dsimp only
      induction items with
      | nil => rfl
      | cons item items ih =>
        rw [List.map_cons, List.flatMap_cons, ih, List.filterMap_cons]
        unfold namespacePrompt
        cases (item.get "name").bind Json.asStr with
        | none => rfl
        | some raw => rfl

variable {name : String} {target : String × String} {r : CatalogRow A}

/-- What the lookup map of the profile gives is an endpoint of the profile. -/
theorem mem_of_promptLookup
    (h : (promptLookup (standalone allowedEndpoints entries)).lookup name = some target) :
    allowedEndpoints.contains target.1 = true := by
  have hmem := List.mem_reverse.1 (mem_of_lookup h)
  obtain ⟨e, he, hmem⟩ := List.mem_flatMap.1 hmem
  have hin : allowedEndpoints.contains e.1 = true := (List.mem_filter.1 he).2
  split at hmem
  · cases hmem
  · split at hmem
    · obtain ⟨item, -, hitem⟩ := List.mem_filterMap.1 hmem
      obtain ⟨raw, -, heq⟩ := Option.map_eq_some_iff.1 hitem
      cases heq
      exact hin
    · cases hmem

/-- **Prompts are routed as in the standalone registry.** -/
theorem profilePromptTarget_eq_ok :
    profilePromptTarget allowedEndpoints entries name = .ok target ↔
      (promptLookup (standalone allowedEndpoints entries)).lookup name = some target := by
  unfold profilePromptTarget
  rw [← listPrompts_standalone, listPromptsWithLookup_lookup]
  cases h : (promptLookup (standalone allowedEndpoints entries)).lookup name with
  | none => simp
  | some found =>
    obtain ⟨endpoint, raw⟩ := found
    have hin : allowedEndpoints.contains endpoint = true := mem_of_promptLookup h
    simp only [hin, if_true, Except.ok.injEq, Option.some.injEq]

/-! ## Acting alone -/

/-- The view lists and routes what the standalone registry does. -/
structure ActsAlone (listed : String → RegisteredAdapter A → Except AdapterError (List ToolInfo))
    (allowedEndpoints : List String) (entries : Entries A) : Prop where
  tool_names : ((profileMergedCatalog allowedEndpoints (buildCatalog listed entries)).map
      (·.name)).Perm
    ((buildCatalog listed (standalone allowedEndpoints entries)).tools.map (·.name))
  tool_target : ∀ tool ∈ profileMergedCatalog allowedEndpoints (buildCatalog listed entries),
    ∃ target, profileToolTarget allowedEndpoints (buildCatalog listed entries) tool.name =
        .ok target ∧
      (buildCatalog listed (standalone allowedEndpoints entries)).lookup.lookup tool.name =
        some target
  prompts : (listPromptsInWithLookup allowedEndpoints entries).1 =
    (listPromptsWithLookup (standalone allowedEndpoints entries)).1
  prompt_target : ∀ name target, profilePromptTarget allowedEndpoints entries name = .ok target ↔
    (promptLookup (standalone allowedEndpoints entries)).lookup name = some target
  resources : listResourcesIn allowedEndpoints entries =
    listResources (standalone allowedEndpoints entries)

/-- Names are prefixed in the whole registry when they are in the profile, or its tools have no
prefix. -/
def SameNames (listed : String → RegisteredAdapter A → Except AdapterError (List ToolInfo))
    (allowedEndpoints : List String) (entries : Entries A) : Prop :=
  skipPrefix entries = skipWrapIn allowedEndpoints entries ∨
    ∀ r ∈ rows listed entries, allowedEndpoints.contains r.endpoint = true →
      r.entry.toolPrefix = none

/-- No endpoint outside the profile advertises a name of the profile. -/
def NotCrowded (listed : String → RegisteredAdapter A → Except AdapterError (List ToolInfo))
    (allowedEndpoints : List String) (entries : Entries A) : Prop :=
  ∀ r ∈ rows listed entries, allowedEndpoints.contains r.endpoint = true →
    ∀ r' ∈ rows listed entries, allowedEndpoints.contains r'.endpoint = false →
      r.name (skipPrefix entries) ≠ r'.name (skipPrefix entries)

section Tools

variable {listed : String → RegisteredAdapter A → Except AdapterError (List ToolInfo)}

theorem row_of_lookup (h : (buildCatalog listed entries).lookup.lookup name = some target) :
    ∃ r ∈ rows listed entries, r.name (skipPrefix entries) = name ∧
      (r.endpoint, r.tool.name) = target := by
  rw [buildCatalog_eq] at h
  obtain ⟨r, hr, heq⟩ := List.mem_map.1 (List.mem_reverse.1 (mem_of_lookup h))
  cases heq
  exact ⟨r, hr, rfl, rfl⟩

/-- Every row is found under its name, or another one is. -/
theorem lookup_of_row (hr : r ∈ rows listed entries) :
    ∃ target, (buildCatalog listed entries).lookup.lookup (r.name (skipPrefix entries)) =
      some target := by
  rw [buildCatalog_eq, ← Option.isSome_iff_exists, List.lookup_isSome_iff]
  exact ⟨_, List.mem_reverse.2 (List.mem_map.2 ⟨r, hr, rfl⟩), beq_self_eq_true _⟩

/-- What the lookup map of a catalog says about a name: whether the profile has it. -/
def ownsName (allowedEndpoints : List String) (catalog : Catalog) (name : String) : Bool :=
  match catalog.lookup.lookup name with
  | some (endpoint, _) => allowedEndpoints.contains endpoint
  | none => false

theorem profileMergedCatalog_names_perm :
    ((profileMergedCatalog allowedEndpoints (buildCatalog listed entries)).map (·.name)).Perm
      (((rows listed entries).map (CatalogRow.name (skipPrefix entries))).filter
        (ownsName allowedEndpoints (buildCatalog listed entries))) := by
  have hfilter : (profileMergedCatalog allowedEndpoints (buildCatalog listed entries)).map
      (·.name) = ((buildCatalog listed entries).tools.map (·.name)).filter
        (ownsName allowedEndpoints (buildCatalog listed entries)) := by
    rw [List.filter_map]
    rfl
  rw [hfilter]
  exact (catalog_names_perm listed entries).filter _

theorem standalone_names_perm :
    ((buildCatalog listed (standalone allowedEndpoints entries)).tools.map (·.name)).Perm
      (((rows listed entries).filter fun r => allowedEndpoints.contains r.endpoint).map
        (CatalogRow.name (skipWrapIn allowedEndpoints entries))) := by
  have h := catalog_names_perm listed (standalone allowedEndpoints entries)
  rwa [rows_standalone, skipPrefix_standalone] at h

omit [McpAdapter A] in
/-- With `SameNames` the names of the profile are the same in both registries. -/
theorem SameNames.name_eq (h : SameNames listed allowedEndpoints entries) (hr : r ∈ rows listed entries)
    (hin : allowedEndpoints.contains r.endpoint = true) :
    r.name (skipPrefix entries) = r.name (skipWrapIn allowedEndpoints entries) := by
  obtain h | h := h
  · rw [h]
  · simp [CatalogRow.name, finalName, effectivePrefix, h r hr hin]

/-- The winner of a name that a row of the profile has is of the profile too. -/
theorem NotCrowded.ownsName_eq (h : NotCrowded listed allowedEndpoints entries)
    (hr : r ∈ rows listed entries) :
    ownsName allowedEndpoints (buildCatalog listed entries) (r.name (skipPrefix entries)) =
      allowedEndpoints.contains r.endpoint := by
  obtain ⟨target, hlookup⟩ := lookup_of_row hr
  obtain ⟨r', hr', hname, rfl⟩ := row_of_lookup hlookup
  rw [ownsName, hlookup]
  show allowedEndpoints.contains r'.endpoint = allowedEndpoints.contains r.endpoint
  cases hin : allowedEndpoints.contains r.endpoint with
  | true =>
    by_contra hout
    exact h r hr hin r' hr' (eq_false_of_ne_true hout) hname.symm
  | false =>
    by_contra hin'
    exact h r' hr' (eq_true_of_ne_false hin') r hr hin hname

/-! ### The condition is enough -/

/-- The rows of the profile have the names the view lists. -/
theorem view_names_of (hnames : SameNames listed allowedEndpoints entries)
    (hcrowd : NotCrowded listed allowedEndpoints entries) :
    ((rows listed entries).map (CatalogRow.name (skipPrefix entries))).filter
        (ownsName allowedEndpoints (buildCatalog listed entries)) =
      ((rows listed entries).filter fun r => allowedEndpoints.contains r.endpoint).map
        (CatalogRow.name (skipWrapIn allowedEndpoints entries)) := by
  have howned : (rows listed entries).filter
      (ownsName allowedEndpoints (buildCatalog listed entries) ∘
        CatalogRow.name (skipPrefix entries)) =
      (rows listed entries).filter fun r => allowedEndpoints.contains r.endpoint :=
    List.filter_congr fun r hr => hcrowd.ownsName_eq hr
  rw [List.filter_map, howned]
  refine List.map_congr_left fun r hr => ?_
  obtain ⟨hr, hin⟩ := List.mem_filter.1 hr
  exact hnames.name_eq hr hin

/-- A name the profile owns is found in the standalone registry as in the whole one. -/
theorem standalone_lookup_of (hnames : SameNames listed allowedEndpoints entries)
    (hcrowd : NotCrowded listed allowedEndpoints entries)
    (howns : ownsName allowedEndpoints (buildCatalog listed entries) name = true) :
    (buildCatalog listed (standalone allowedEndpoints entries)).lookup.lookup name =
      (buildCatalog listed entries).lookup.lookup name := by
  have htargets : ((rows listed entries).filter fun r => allowedEndpoints.contains r.endpoint).map
      (CatalogRow.target (skipWrapIn allowedEndpoints entries)) =
        ((rows listed entries).map (CatalogRow.target (skipPrefix entries))).filter
          fun e => allowedEndpoints.contains e.2.1 := by
    rw [List.filter_map]
    refine List.map_congr_left fun r hr => ?_
    obtain ⟨hr, hin⟩ := List.mem_filter.1 hr
    rw [CatalogRow.target, CatalogRow.target, hnames.name_eq hr hin]
  have hstandalone : (buildCatalog listed (standalone allowedEndpoints entries)).lookup =
      (buildCatalog listed entries).lookup.filter fun e => allowedEndpoints.contains e.2.1 := by
    rw [buildCatalog_eq, buildCatalog_eq, rows_standalone, skipPrefix_standalone, htargets,
      List.filter_reverse]
  rw [hstandalone]
  refine lookup_filter fun e he hkey => ?_
  rw [buildCatalog_eq] at he
  obtain ⟨r, hr, rfl⟩ := List.mem_map.1 (List.mem_reverse.1 he)
  have hname : r.name (skipPrefix entries) = name := hkey
  rwa [← hname, hcrowd.ownsName_eq hr] at howns

/-- A listed name is owned, and goes where the lookup map says. -/
theorem profileToolTarget_of_owns {catalog : Catalog}
    (howns : ownsName allowedEndpoints catalog name = true) :
    ∃ target, catalog.lookup.lookup name = some target ∧
      profileToolTarget allowedEndpoints catalog name = .ok target := by
  unfold ownsName at howns
  split at howns
  · next endpoint tool hlookup =>
    refine ⟨(endpoint, tool), hlookup, ?_⟩
    rw [profileToolTarget, hlookup]
    exact if_pos howns
  · cases howns

theorem actsAlone_of (hnames : SameNames listed allowedEndpoints entries)
    (hcrowd : NotCrowded listed allowedEndpoints entries) :
    ActsAlone listed allowedEndpoints entries where
  tool_names := by
    refine profileMergedCatalog_names_perm.trans ?_
    rw [view_names_of hnames hcrowd]
    exact standalone_names_perm.symm
  tool_target := by
    intro tool htool
    have howns : ownsName allowedEndpoints (buildCatalog listed entries) tool.name = true :=
      (List.mem_filter.1 htool).2
    obtain ⟨target, hlookup, htarget⟩ := profileToolTarget_of_owns howns
    exact ⟨target, htarget, (standalone_lookup_of hnames hcrowd howns).trans hlookup⟩
  prompts := by rw [listPrompts_standalone]
  prompt_target := fun _ _ => profilePromptTarget_eq_ok
  resources := listResources_standalone.symm

/-! ### The condition is necessary -/

/-- The names the view owns are those of the rows of the profile. -/
theorem ActsAlone.names_perm (h : ActsAlone listed allowedEndpoints entries) :
    (((rows listed entries).map (CatalogRow.name (skipPrefix entries))).filter
        (ownsName allowedEndpoints (buildCatalog listed entries))).Perm
      (((rows listed entries).filter fun r => allowedEndpoints.contains r.endpoint).map
        (CatalogRow.name (skipWrapIn allowedEndpoints entries))) :=
  profileMergedCatalog_names_perm.symm.trans (h.tool_names.trans standalone_names_perm)

omit [McpAdapter A] in
/-- When modes differ names are prefixed in the registry only, and the profile has at most one
active endpoint. -/
theorem modes_of_ne (h : skipPrefix entries ≠ skipWrapIn allowedEndpoints entries) :
    skipPrefix entries = false ∧ skipWrapIn allowedEndpoints entries = true := by
  have hle : activeEndpointCountIn allowedEndpoints entries ≤ activeCount entries := by
    rw [activeEndpointCountIn, activeCount, ← List.countP_eq_length_filter,
      ← List.countP_eq_length_filter]
    refine List.countP_mono_left fun e _ he => ?_
    exact (Bool.and_eq_true_iff.1 he).1
  simp only [skipPrefix, skipWrapIn, ne_eq, decide_eq_decide, decide_eq_false_iff_not,
    decide_eq_true_eq] at h ⊢
  omega

omit [McpAdapter A] in
/-- With at most one active endpoint in the profile its rows are of one entry. -/
theorem entry_eq_of_skipWrapIn (hskip : skipWrapIn allowedEndpoints entries = true)
    {r r' : CatalogRow A} (hr : r ∈ rows listed entries)
    (hin : allowedEndpoints.contains r.endpoint = true) (hr' : r' ∈ rows listed entries)
    (hin' : allowedEndpoints.contains r'.endpoint = true) : r.entry = r'.entry := by
  have hactive {x : CatalogRow A} (hx : x ∈ rows listed entries)
      (hx' : allowedEndpoints.contains x.endpoint = true) :
      (⟨x.endpoint, x.entry⟩ : Sigma fun _ : String => RegisteredAdapter A) ∈
        entries.entries.filter fun e => !e.2.disabled && allowedEndpoints.contains e.1 := by
    obtain ⟨hentry, hdisabled, -⟩ := mem_rows hx
    refine List.mem_filter.2 ⟨AList.mem_entries_iff.2 hentry, ?_⟩
    simp only [hdisabled, hx', Bool.not_false, Bool.and_self]
  have hone : (entries.entries.filter fun e =>
      !e.2.disabled && allowedEndpoints.contains e.1).length ≤ 1 := of_decide_eq_true hskip
  have heq := eq_of_mem_of_length_le_one hone (hactive hr hin) (hactive hr' hin')
  exact congrArg (·.2) heq

theorem length_lt_encodeToolName {p raw : String} : raw.length < (encodeToolName p none raw).length := by
  have hlen : "__".length = 2 := rfl
  simp only [encodeToolName, String.length_append, hlen]
  omega

/-- **Names are the same.** Otherwise every listed name is the prefixed name of a tool of the
profile, and no shortest raw name is. -/
theorem ActsAlone.sameNames (h : ActsAlone listed allowedEndpoints entries) :
    SameNames listed allowedEndpoints entries := by
  by_cases hmode : skipPrefix entries = skipWrapIn allowedEndpoints entries
  · exact Or.inl hmode
  obtain ⟨hskip, hskipIn⟩ := modes_of_ne hmode
  refine Or.inr fun r₀ hr₀ hin₀ => ?_
  by_contra hprefix
  obtain ⟨p, hp⟩ := Option.ne_none_iff_exists'.1 hprefix
  have hp' : ∀ r ∈ rows listed entries, allowedEndpoints.contains r.endpoint = true →
      r.entry.toolPrefix = some p := by
    intro r hr hin
    rw [entry_eq_of_skipWrapIn hskipIn hr hin hr₀ hin₀, hp]
  -- Each raw name of the profile is `p__t` for another raw name `t`.
  have hstep : ∀ r ∈ rows listed entries, allowedEndpoints.contains r.endpoint = true →
      ∃ r' ∈ rows listed entries, allowedEndpoints.contains r'.endpoint = true ∧
        r'.tool.name.length < r.tool.name.length := by
    intro r hr hin
    have hraw : r.name (skipWrapIn allowedEndpoints entries) = r.tool.name := by
      simp [CatalogRow.name, finalName, effectivePrefix, hskipIn]
    have hmem : r.tool.name ∈
        ((rows listed entries).map (CatalogRow.name (skipPrefix entries))).filter
          (ownsName allowedEndpoints (buildCatalog listed entries)) := by
      refine h.names_perm.mem_iff.2 (List.mem_map.2 ⟨r, List.mem_filter.2 ⟨hr, hin⟩, hraw⟩)
    obtain ⟨target, hlookup, -⟩ := profileToolTarget_of_owns (List.mem_filter.1 hmem).2
    obtain ⟨r', hr', hname, rfl⟩ := row_of_lookup hlookup
    have hin' : allowedEndpoints.contains r'.endpoint = true := by
      have howns := (List.mem_filter.1 hmem).2
      rwa [ownsName, hlookup] at howns
    refine ⟨r', hr', hin', ?_⟩
    rw [name_eq hskip (hp' r' hr' hin')] at hname
    rw [← hname]
    exact length_lt_encodeToolName
  -- So none is shortest.
  have hnone : ∀ n, ∀ r ∈ rows listed entries, allowedEndpoints.contains r.endpoint = true →
      r.tool.name.length < n → False := by
    intro n
    induction n with
    | zero => exact fun r _ _ hlt => Nat.not_lt_zero _ hlt
    | succ n ih =>
      intro r hr hin hlt
      obtain ⟨r', hr', hin', hlt'⟩ := hstep r hr hin
      exact ih r' hr' hin' (by omega)
  exact hnone _ r₀ hr₀ hin₀ (Nat.lt_succ_self _)

/-- **No name is crowded.** The view lists a name once for each row that has it, the standalone
registry once for each row of the profile. -/
theorem ActsAlone.notCrowded (h : ActsAlone listed allowedEndpoints entries) :
    NotCrowded listed allowedEndpoints entries := by
  intro r hr hin r' hr' hout hname
  have hnames := h.sameNames
  let named : CatalogRow A → Bool := fun x => x.name (skipPrefix entries) = r.name (skipPrefix entries)
  -- The rows of the profile that have the name.
  have hprofile : (((rows listed entries).filter fun x => allowedEndpoints.contains x.endpoint).map
      (CatalogRow.name (skipWrapIn allowedEndpoints entries))).count (r.name (skipPrefix entries)) =
        ((rows listed entries).filter fun x => allowedEndpoints.contains x.endpoint).countP named := by
    rw [List.count, List.countP_map]
    refine List.countP_congr fun x hx => ?_
    obtain ⟨hx, hxin⟩ := List.mem_filter.1 hx
    simp only [Function.comp_apply, ← hnames.name_eq hx hxin, beq_iff_eq, named, decide_eq_true_eq]
  have hpos : 0 < ((rows listed entries).filter fun x =>
      allowedEndpoints.contains x.endpoint).countP named :=
    List.countP_pos_iff.2 ⟨r, List.mem_filter.2 ⟨hr, hin⟩, decide_eq_true rfl⟩
  have hcount := h.names_perm.count_eq (r.name (skipPrefix entries))
  rw [hprofile] at hcount
  -- The view has the name, so it lists every row that has it.
  have howns : ownsName allowedEndpoints (buildCatalog listed entries)
      (r.name (skipPrefix entries)) = true := by
    have hmem := List.count_pos_iff.1 (hcount ▸ hpos)
    exact (List.mem_filter.1 hmem).2
  rw [List.count_filter howns, List.count, List.countP_map] at hcount
  have hall : (rows listed entries).countP named =
      ((rows listed entries).filter fun x => allowedEndpoints.contains x.endpoint).countP named := by
    rw [← hcount]
    refine List.countP_congr fun x _ => ?_
    simp only [Function.comp_apply, beq_iff_eq, named, decide_eq_true_eq]
  rw [List.countP_eq_countP_filter_add _ named fun x => allowedEndpoints.contains x.endpoint] at hall
  have hzero : ((rows listed entries).filter fun x =>
      !allowedEndpoints.contains x.endpoint).countP named = 0 := by omega
  have hnot := List.countP_eq_zero.1 hzero r' (List.mem_filter.2 ⟨hr', by simp only [hout, Bool.not_false]⟩)
  exact hnot (decide_eq_true hname.symm)

/-- **When a profile acts like a registry of its endpoints alone.** -/
theorem acts_alone_iff
    (listed : String → RegisteredAdapter A → Except AdapterError (List ToolInfo))
    (allowedEndpoints : List String) (entries : Entries A) :
    ActsAlone listed allowedEndpoints entries ↔
      SameNames listed allowedEndpoints entries ∧ NotCrowded listed allowedEndpoints entries := by
  constructor
  · intro h
    exact ⟨h.sameNames, h.notCrowded⟩
  · rintro ⟨hnames, hcrowd⟩
    exact actsAlone_of hnames hcrowd

end Tools

/-! ## A profile of one endpoint -/

def gmailEntry : RegisteredAdapter FixedAdapter :=
  freshEntry
    { tools := .ok [bareTool "send"], resources := .ok [.obj [("uri", .str "mail://inbox")]] }
    "http" none (some "gmail")

def mailEntries : Entries FixedAdapter :=
  (∅ : Entries FixedAdapter)
    |>.insert "gmail" gmailEntry
    |>.insert "todoist" (freshEntry { tools := .ok [bareTool "add"] } "http" none (some "todoist"))

/-- The profile `{gmail}` passes resource URIs through but lists its tool as `gmail__send`; a
registry with `gmail` alone lists `send`. -/
theorem solo_profile_differs :
    (profileMergedCatalog ["gmail"] (buildCatalog listedByAdapter mailEntries)).map (·.name) =
        ["gmail__send"] ∧
      (buildCatalog listedByAdapter (standalone ["gmail"] mailEntries)).tools.map (·.name) =
        ["send"] ∧
      listResourcesIn ["gmail"] mailEntries = [.obj [("uri", .str "mail://inbox")]] ∧
      ¬ ActsAlone listedByAdapter ["gmail"] mailEntries := by
  have hview : (profileMergedCatalog ["gmail"] (buildCatalog listedByAdapter mailEntries)).map
      (·.name) = ["gmail__send"] := rfl
  have halone : (buildCatalog listedByAdapter (standalone ["gmail"] mailEntries)).tools.map
      (·.name) = ["send"] := rfl
  refine ⟨hview, halone, rfl, fun h => ?_⟩
  have hperm := h.tool_names
  rw [hview, halone] at hperm
  exact absurd (List.perm_singleton.1 hperm) (by decide)

end EndaraRelay
