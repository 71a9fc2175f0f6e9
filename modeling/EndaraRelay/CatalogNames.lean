import EndaraRelay.Lib.Delimiter
import EndaraRelay.Config
import EndaraRelay.Registry

/-!
# Names in the merged catalog

Is every advertised tool called under the name it is advertised by? `rows` lists what the build
advertises, one row for each non-disabled tool of each active endpoint. `buildCatalog_eq` reads
the catalog and the lookup map off the rows, and everything else is about the names of rows.

**Within an endpoint** names differ because raw names do. **Between endpoints** the names
`p1__t1` and `p2__t2` agree exactly when one tool name reads on into the other prefix (`NameReadsOn`,
from `join_eq_join_iff`). Validation keeps prefixes apart but does not see tool names, so this can
happen.

`no_shadowing_iff` is the result: no tool is shadowed if and only if no advertised name reads on.
`shadowed_tool` is a config that validation accepts and that shadows a tool.
-/

namespace EndaraRelay

open Verif

variable {A : Type}

/-- One advertised tool: the endpoint and entry it is from, and the tool as the upstream lists it. -/
structure CatalogRow (A : Type) where
  endpoint : String
  entry : RegisteredAdapter A
  tool : ToolInfo

/-- The tools an entry advertises. -/
def entryRows (endpoint : String) (entry : RegisteredAdapter A)
    (listed : Except AdapterError (List ToolInfo)) : List (CatalogRow A) :=
  if entry.disabled then []
  else
    match listed with
    | .ok tools => (tools.filter fun t => t.name ∉ entry.disabledTools).map fun t => ⟨endpoint, entry, t⟩
    | .error _ => []

/-- Everything the merged catalog advertises. -/
def rows (listed : String → RegisteredAdapter A → Except AdapterError (List ToolInfo))
    (entries : Entries A) : List (CatalogRow A) :=
  entries.entries.flatMap fun e => entryRows e.1 e.2 (listed e.1 e.2)

variable {r : CatalogRow A}
  {listed : String → RegisteredAdapter A → Except AdapterError (List ToolInfo)}
  {entries : Entries A} {p : String} {skip : Bool}

theorem endpoint_of_entryRows {endpoint : String} {entry : RegisteredAdapter A}
    {listed : Except AdapterError (List ToolInfo)} (h : r ∈ entryRows endpoint entry listed) :
    r.endpoint = endpoint := by
  unfold entryRows at h
  split at h
  · cases h
  · split at h
    · obtain ⟨t, -, rfl⟩ := List.mem_map.1 h
      rfl
    · cases h

namespace CatalogRow

/-- The name a row is advertised under. -/
def name (skip : Bool) (r : CatalogRow A) : String := finalName skip r.entry r.tool.name

/-- What the lookup map should say about a row. -/
def target (skip : Bool) (r : CatalogRow A) : String × (String × String) :=
  (r.name skip, (r.endpoint, r.tool.name))

end CatalogRow

/-- The characters `p2` of a prefix and the tool name `t1` behind the prefix `p1` share a part: the
name `p1__t1` is also `p2__t2`. -/
def NameReadsOn (p1 t1 p2 t2 : String) : Prop :=
  (p2 = p1 ++ "_" ∧ t1 = "_" ++ t2) ∨ ∃ r, p2 = p1 ++ "__" ++ r ∧ t1 = r ++ "__" ++ t2

theorem encodeToolName_toList (p t : String) :
    (encodeToolName p none t).toList = p.toList ++ '_' :: '_' :: t.toList := by
  simp [encodeToolName]

theorem nameReadsOn_iff {p1 t1 p2 t2 : String} :
    NameReadsOn p1 t1 p2 t2 ↔
      Delimiter.Continues '_' p1.toList t1.toList p2.toList t2.toList := by
  unfold NameReadsOn Delimiter.Continues
  refine or_congr ?_ ⟨?_, ?_⟩
  · simp [← String.toList_inj]
  · rintro ⟨r, rfl, rfl⟩
    exact ⟨r.toList, by simp, by simp⟩
  · rintro ⟨r, hp, ht⟩
    refine ⟨String.ofList r, ?_, ?_⟩
    · simp [← String.toList_inj, hp]
    · simp [← String.toList_inj, ht]

/-- **When two prefixed names agree.** -/
theorem encodeToolName_eq_iff {p1 t1 p2 t2 : String} (hne : p1 ≠ p2) :
    encodeToolName p1 none t1 = encodeToolName p2 none t2 ↔
      NameReadsOn p1 t1 p2 t2 ∨ NameReadsOn p2 t2 p1 t1 := by
  have hne' : p1.toList ≠ p2.toList := fun h => hne (String.toList_inj.1 h)
  rw [← String.toList_inj, encodeToolName_toList, encodeToolName_toList,
    Delimiter.join_eq_join_iff hne', nameReadsOn_iff, nameReadsOn_iff]

theorem encodeToolName_right_inj {p t1 t2 : String} :
    encodeToolName p none t1 = encodeToolName p none t2 ↔ t1 = t2 := by
  simp [← String.toList_inj, encodeToolName_toList]

/-! ## The catalog, read off the rows -/

variable [McpAdapter A]

theorem foldl_addTool (skip : Bool) (endpoint : String) (entry : RegisteredAdapter A)
    (tools : List ToolInfo) (acc : Catalog) :
    tools.foldl (addTool skip endpoint entry) acc =
      let kept := tools.filter fun t => t.name ∉ entry.disabledTools
      { tools := acc.tools ++ kept.map (catalogTool skip endpoint entry)
        lookup := (kept.map fun t => (finalName skip entry t.name, (endpoint, t.name))).reverse ++
          acc.lookup } := by
  induction tools generalizing acc with
  | nil => simp
  | cons t tools ih =>
    rw [List.foldl_cons, ih]
    by_cases h : t.name ∈ entry.disabledTools
    · simp [addTool, h]
    · simp [addTool, h]

theorem addEndpoint_eq (skip : Bool) (endpoint : String) (entry : RegisteredAdapter A)
    (listed : Except AdapterError (List ToolInfo)) (acc : Catalog) :
    addEndpoint skip endpoint entry listed acc =
      { tools := acc.tools ++ (entryRows endpoint entry listed).map fun r =>
          catalogTool skip r.endpoint r.entry r.tool
        lookup := ((entryRows endpoint entry listed).map (CatalogRow.target skip)).reverse ++
          acc.lookup } := by
  unfold addEndpoint entryRows
  split
  · simp
  · cases listed with
    | ok tools =>
      dsimp only
      rw [foldl_addTool]
      simp [List.map_map, Function.comp_def, CatalogRow.target, CatalogRow.name]
    | error e => simp

theorem foldl_addEndpoint (skip : Bool)
    (listed : String → RegisteredAdapter A → Except AdapterError (List ToolInfo))
    (es : List (Sigma fun _ : String => RegisteredAdapter A)) (acc : Catalog) :
    es.foldl (fun acc e => addEndpoint skip e.1 e.2 (listed e.1 e.2) acc) acc =
      let rs := es.flatMap fun e => entryRows e.1 e.2 (listed e.1 e.2)
      { tools := acc.tools ++ rs.map fun r => catalogTool skip r.endpoint r.entry r.tool
        lookup := (rs.map (CatalogRow.target skip)).reverse ++ acc.lookup } := by
  induction es generalizing acc with
  | nil => simp
  | cons e es ih =>
    rw [List.foldl_cons, ih, addEndpoint_eq]
    simp

/-- **The catalog is its rows**: sorted for the tools, the last one first for the lookup map. -/
theorem buildCatalog_eq
    (listed : String → RegisteredAdapter A → Except AdapterError (List ToolInfo))
    (entries : Entries A) :
    buildCatalog listed entries =
      { tools := sortByName ((rows listed entries).map fun r =>
          catalogTool (skipPrefix entries) r.endpoint r.entry r.tool)
        lookup := ((rows listed entries).map (CatalogRow.target (skipPrefix entries))).reverse } := by
  rw [buildCatalog, foldl_addEndpoint]
  simp [Catalog.sorted, rows]

omit [McpAdapter A] in
theorem mem_rows (h : r ∈ rows listed entries) :
    entries.lookup r.endpoint = some r.entry ∧ r.entry.disabled = false ∧
      r.tool.name ∉ r.entry.disabledTools := by
  obtain ⟨e, he, hr⟩ := List.mem_flatMap.1 h
  unfold entryRows at hr
  split at hr
  · cases hr
  · next hd =>
    split at hr
    · obtain ⟨t, ht, rfl⟩ := List.mem_map.1 hr
      exact ⟨AList.mem_entries_iff.1 he, by simpa using hd, by simpa using (List.mem_filter.1 ht).2⟩
    · cases hr

/-- The names in the catalog are those of the rows, in some order. -/
theorem catalog_names_perm
    (listed : String → RegisteredAdapter A → Except AdapterError (List ToolInfo))
    (entries : Entries A) :
    ((buildCatalog listed entries).tools.map (·.name)).Perm
      ((rows listed entries).map (CatalogRow.name (skipPrefix entries))) := by
  rw [buildCatalog_eq]
  refine ((List.perm_insertionSort _ _).map _).trans ?_
  rw [List.map_map]
  exact List.Perm.refl _

/-! ## No tool is shadowed -/

/-- What it is for no tool to be shadowed. A call of an advertised name is answered by the tool's own
schema when the arguments do not fit it, and goes to the tool otherwise. -/
structure NoShadowing
    (listed : String → RegisteredAdapter A → Except AdapterError (List ToolInfo))
    (entries : Entries A) : Prop where
  names_nodup : ((buildCatalog listed entries).tools.map (·.name)).Nodup
  lookup_eq : ∀ r ∈ rows listed entries,
    (buildCatalog listed entries).lookup.lookup (r.name (skipPrefix entries)) =
      some (r.endpoint, r.tool.name)
  routed : ∀ r ∈ rows listed entries, r.entry.isHealthy = true →
    ∀ (validate : String → Json → Json → Option Json) (arguments : Json),
      routeDecision (some validate) (buildCatalog listed entries) entries
          (r.name (skipPrefix entries)) arguments =
        match validate (r.name (skipPrefix entries)) r.tool.inputSchema arguments with
        | some result => .invalid result
        | none => .called r.endpoint r.entry.adapter r.tool.name

/-- Distinct names are all that is needed. -/
theorem noShadowing_of_nodup
    (hnd : ((rows listed entries).map (CatalogRow.name (skipPrefix entries))).Nodup) :
    NoShadowing listed entries := by
  have hnames : ((buildCatalog listed entries).tools.map (·.name)).Nodup :=
    (catalog_names_perm listed entries).nodup_iff.2 hnd
  have hlookup : ∀ r ∈ rows listed entries,
      (buildCatalog listed entries).lookup.lookup (r.name (skipPrefix entries)) =
        some (r.endpoint, r.tool.name) := by
    intro r hr
    rw [buildCatalog_eq]
    refine lookup_of_mem ?_ (List.mem_reverse.2 (List.mem_map.2 ⟨r, hr, rfl⟩))
    rw [List.map_reverse, List.nodup_reverse, List.map_map]
    exact hnd
  refine ⟨hnames, hlookup, fun r hr hhealthy validate arguments => ?_⟩
  obtain ⟨hentry, hd, ht⟩ := mem_rows hr
  have hmem : catalogTool (skipPrefix entries) r.endpoint r.entry r.tool ∈
      (buildCatalog listed entries).tools := by
    rw [buildCatalog_eq]
    exact (List.perm_insertionSort _ _).mem_iff.2 (List.mem_map.2 ⟨r, hr, rfl⟩)
  have hfind : ((buildCatalog listed entries).tools.find? fun t =>
      t.name = r.name (skipPrefix entries)) =
        some (catalogTool (skipPrefix entries) r.endpoint r.entry r.tool) :=
    (find?_key_eq_some_iff hnames).2 ⟨hmem, rfl⟩
  cases hv : validate (r.name (skipPrefix entries)) r.tool.inputSchema arguments with
  | some result =>
    simp [routeDecision, hlookup r hr, dispatchDecision, hentry, hd, hhealthy, ht,
      validationFailure, hfind, catalogTool, hv]
  | none =>
    simp [routeDecision, hlookup r hr, dispatchDecision, hentry, hd, hhealthy, ht,
      validationFailure, hfind, catalogTool, hv]

/-- No advertised name reads on into another endpoint's prefix. -/
def NoNameReadsOn
    (listed : String → RegisteredAdapter A → Except AdapterError (List ToolInfo))
    (entries : Entries A) : Prop :=
  ∀ r1 ∈ rows listed entries, ∀ r2 ∈ rows listed entries,
    ∀ p1 p2, r1.entry.toolPrefix = some p1 → r2.entry.toolPrefix = some p2 →
      ¬ NameReadsOn p1 r1.tool.name p2 r2.tool.name

/-- The entries are registered from the endpoints of a config. -/
def FromConfig (cfg : Config) (entries : Entries A) : Prop :=
  ∀ name entry, entries.lookup name = some entry →
    ∃ ep ∈ cfg.endpoints, ep.name = name ∧ entry.toolPrefix = ep.resolvedToolPrefix

/-- No endpoint lists two tools of one name. -/
def ToolsDistinct
    (listed : String → RegisteredAdapter A → Except AdapterError (List ToolInfo))
    (entries : Entries A) : Prop :=
  ∀ name entry tools, entries.lookup name = some entry → listed name entry = .ok tools →
    (tools.map (·.name)).Nodup

section Valid

variable {listed : String → RegisteredAdapter A → Except AdapterError (List ToolInfo)}
  {cfg : Config} {entries : Entries A}

omit [McpAdapter A]

/-- Endpoints of an accepted config have prefixes, and different ones. -/
theorem prefixes_of_valid (hvalid : cfg.validate = .ok ()) (hcfg : FromConfig cfg entries)
    {n1 n2 : String} {e1 e2 : RegisteredAdapter A} (h1 : entries.lookup n1 = some e1)
    (h2 : entries.lookup n2 = some e2) :
    ∃ p1 p2, e1.toolPrefix = some p1 ∧ e2.toolPrefix = some p2 ∧ (n1 ≠ n2 → p1 ≠ p2) := by
  obtain ⟨ep1, hep1, rfl, hp1⟩ := hcfg n1 e1 h1
  obtain ⟨ep2, hep2, rfl, hp2⟩ := hcfg n2 e2 h2
  obtain ⟨p1, hr1, -⟩ := ((validate_ok hvalid).1 ep1 hep1).prefix_ok
  obtain ⟨p2, hr2, -⟩ := ((validate_ok hvalid).1 ep2 hep2).prefix_ok
  refine ⟨p1, p2, hp1.trans hr1, hp2.trans hr2, ?_⟩
  rintro hne rfl
  exact validate_prefix_injective hvalid hep1 hep2 hne (hr1.trans hr2.symm)

theorem name_eq (hskip : skip = false) (hp : r.entry.toolPrefix = some p) :
    r.name skip = encodeToolName p none r.tool.name := by
  simp [CatalogRow.name, finalName, effectivePrefix, hskip, hp]

/-- Rows of one entry have the names of its tools, each behind the same prefix. -/
theorem entryRows_names_pairwise {n : String} {e : RegisteredAdapter A} (hskip : skip = false)
    (hp : e.toolPrefix = some p) {res : Except AdapterError (List ToolInfo)}
    (hnd : ∀ tools, res = .ok tools → (tools.map (·.name)).Nodup) :
    (entryRows n e res).Pairwise fun a b => a.name skip ≠ b.name skip := by
  unfold entryRows
  split
  · exact List.Pairwise.nil
  · split
    · next tools =>
      rw [List.pairwise_map]
      refine ((List.pairwise_map.1 (hnd tools rfl)).filter _).imp fun {a b} hab heq => hab ?_
      rw [name_eq hskip hp, name_eq hskip hp] at heq
      exact encodeToolName_right_inj.1 heq
    · exact List.Pairwise.nil

/-- No name reads on, so the names of all rows differ. -/
theorem names_nodup_of_noNameReadsOn (hvalid : cfg.validate = .ok ())
    (hcfg : FromConfig cfg entries) (hskip : skipPrefix entries = false)
    (hdistinct : ToolsDistinct listed entries) (h : NoNameReadsOn listed entries) :
    ((rows listed entries).map (CatalogRow.name (skipPrefix entries))).Nodup := by
  rw [List.Nodup, List.pairwise_map, rows, List.pairwise_flatMap]
  refine ⟨fun e he => ?_, ?_⟩
  · have hentry := AList.mem_entries_iff.1 he
    obtain ⟨p, -, hp, -⟩ := prefixes_of_valid hvalid hcfg hentry hentry
    exact entryRows_names_pairwise hskip hp fun tools => hdistinct e.1 e.2 tools hentry
  · refine (List.nodupKeys_iff_pairwise.1 entries.nodupKeys).imp_of_mem
      fun {e1 e2} he1 he2 hne r1 hr1 r2 hr2 heq => ?_
    have hm1 : r1 ∈ rows listed entries := List.mem_flatMap.2 ⟨e1, he1, hr1⟩
    have hm2 : r2 ∈ rows listed entries := List.mem_flatMap.2 ⟨e2, he2, hr2⟩
    obtain ⟨p1, p2, hp1, hp2, hpne⟩ :=
      prefixes_of_valid hvalid hcfg (mem_rows hm1).1 (mem_rows hm2).1
    have hpne : p1 ≠ p2 := hpne (by rwa [endpoint_of_entryRows hr1, endpoint_of_entryRows hr2])
    rw [name_eq hskip hp1, name_eq hskip hp2, encodeToolName_eq_iff hpne] at heq
    obtain hon | hon := heq
    · exact h r1 hm1 r2 hm2 p1 p2 hp1 hp2 hon
    · exact h r2 hm2 r1 hm1 p2 p1 hp2 hp1 hon

/-- A name that reads on is the name of two rows. -/
theorem noNameReadsOn_of_names_nodup (hskip : skipPrefix entries = false)
    (h : ((rows listed entries).map (CatalogRow.name (skipPrefix entries))).Nodup) :
    NoNameReadsOn listed entries := by
  intro r1 hr1 r2 hr2 p1 p2 hp1 hp2 hon
  have hjoin : p1.toList ++ '_' :: '_' :: r1.tool.name.toList =
      p2.toList ++ '_' :: '_' :: r2.tool.name.toList := (nameReadsOn_iff.1 hon).join_eq
  have hname : r1.name (skipPrefix entries) = r2.name (skipPrefix entries) := by
    rw [name_eq hskip hp1, name_eq hskip hp2, ← String.toList_inj, encodeToolName_toList,
      encodeToolName_toList, hjoin]
  obtain rfl : r1 = r2 := List.inj_on_of_nodup_map h hr1 hr2 hname
  obtain rfl : p1 = p2 := by
    rw [hp1] at hp2
    exact Option.some.inj hp2
  obtain ⟨hp, -⟩ | ⟨r, hp, -⟩ := hon
  · have hlen := congrArg String.length hp
    simp at hlen
  · have hlen := congrArg String.length hp
    have hsep : "__".length = 2 := rfl
    simp only [String.length_append] at hlen
    omega

end Valid

/-- **No tool is shadowed exactly when no name reads on.** For the entries of a config that
validation accepts, at least two of them active, and any listing that is free of duplicates within
each endpoint. -/
theorem no_shadowing_iff
    (listed : String → RegisteredAdapter A → Except AdapterError (List ToolInfo))
    (cfg : Config) (entries : Entries A) (hvalid : cfg.validate = .ok ())
    (hcfg : FromConfig cfg entries) (hactive : 2 ≤ activeCount entries)
    (hdistinct : ToolsDistinct listed entries) :
    NoShadowing listed entries ↔ NoNameReadsOn listed entries := by
  have hskip : skipPrefix entries = false := by
    simp only [skipPrefix, decide_eq_false_iff_not]
    omega
  constructor
  · intro h
    exact noNameReadsOn_of_names_nodup hskip
      ((catalog_names_perm listed entries).nodup_iff.1 h.names_nodup)
  · intro h
    exact noShadowing_of_nodup (names_nodup_of_noNameReadsOn hvalid hcfg hskip hdistinct h)

/-! ## A shadowed tool -/

/-- Two endpoints that validation accepts, with the prefixes `a` and `a__b`. -/
def readsOnConfig : Config where
  allowInsecureOauth := none
  endpoints := [{ name := "a", transport := .http, url := some "https://one" },
    { name := "a__b", transport := .http, url := some "https://two" }]
  organizations := []

/-- `a` lists the tool `b__c`, `a__b` lists the tool `c` (or `d`, when `other` is set). -/
def readsOnEntries (other : Bool) : Entries FixedAdapter :=
  (∅ : Entries FixedAdapter)
    |>.insert "a__b" (freshEntry { tools := .ok [bareTool (if other then "d" else "c")] } "http" none
      (some "a__b"))
    |>.insert "a" (freshEntry { tools := .ok [bareTool "b__c"] } "http" none (some "a"))

theorem readsOnEntries_lookup {other : Bool} {name : String} {entry : RegisteredAdapter FixedAdapter}
    (h : (readsOnEntries other).lookup name = some entry) :
    (name = "a" ∧ entry = freshEntry { tools := .ok [bareTool "b__c"] } "http" none (some "a")) ∨
      (name = "a__b" ∧ entry = freshEntry { tools := .ok [bareTool (if other then "d" else "c")] }
        "http" none (some "a__b")) := by
  unfold readsOnEntries at h
  rcases AList.lookup_insert_cases h with ha | ⟨-, h⟩
  · exact .inl ha
  · rcases AList.lookup_insert_cases h with hb | ⟨-, h⟩
    · exact .inr hb
    · cases h

theorem readsOnEntries_fromConfig (other : Bool) :
    FromConfig readsOnConfig (readsOnEntries other) := by
  intro name entry h
  obtain ⟨rfl, rfl⟩ | ⟨rfl, rfl⟩ := readsOnEntries_lookup h
  · exact ⟨_, List.mem_cons_self, rfl, rfl⟩
  · exact ⟨_, List.mem_cons_of_mem _ List.mem_cons_self, rfl, rfl⟩

theorem readsOnEntries_distinct (other : Bool) :
    ToolsDistinct listedByAdapter (readsOnEntries other) := by
  intro name entry tools h htools
  obtain ⟨rfl, rfl⟩ | ⟨rfl, rfl⟩ := readsOnEntries_lookup h
  · cases htools
    exact List.nodup_singleton _
  · cases htools
    exact List.nodup_singleton _

/-- Both tools are advertised as `a__b__c`, and a call of that name always goes to `a__b`. -/
theorem shadowed_tool :
    readsOnConfig.validate = .ok () ∧ FromConfig readsOnConfig (readsOnEntries false) ∧
      2 ≤ activeCount (readsOnEntries false) ∧
      ToolsDistinct listedByAdapter (readsOnEntries false) ∧
      (buildCatalog listedByAdapter (readsOnEntries false)).tools.map (·.name) =
        ["a__b__c", "a__b__c"] ∧
      (buildCatalog listedByAdapter (readsOnEntries false)).lookup.lookup "a__b__c" =
        some ("a__b", "c") ∧
      ¬ NoShadowing listedByAdapter (readsOnEntries false) := by
  have hnames : (buildCatalog listedByAdapter (readsOnEntries false)).tools.map (·.name) =
      ["a__b__c", "a__b__c"] := rfl
  refine ⟨rfl, readsOnEntries_fromConfig false, by decide, readsOnEntries_distinct false, hnames,
    rfl, fun h => ?_⟩
  have hnd := h.names_nodup
  rw [hnames] at hnd
  exact absurd hnd (by decide)

/-- With `d` in the place of `c` no name reads on, and every tool is called by its name. -/
theorem unshadowed_tools : NoShadowing listedByAdapter (readsOnEntries true) := by
  have hnames : (rows listedByAdapter (readsOnEntries true)).map
      (CatalogRow.name (skipPrefix (readsOnEntries true))) = ["a__b__c", "a__b__d"] := rfl
  refine (no_shadowing_iff listedByAdapter readsOnConfig (readsOnEntries true) rfl
    (readsOnEntries_fromConfig true) (by decide) (readsOnEntries_distinct true)).2 ?_
  refine noNameReadsOn_of_names_nodup rfl ?_
  rw [hnames]
  decide

end EndaraRelay
