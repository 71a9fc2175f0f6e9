import Mathlib.Data.List.Chain
import EndaraRelay.ToolsList

/-!
# Calling the tools that are listed

`mcp_tools_call` (`server.rs`), next to the `tools/list` response of `ToolsList`. A call is of a
meta-tool when its name is one, whatever the catalog says; otherwise it is routed by the catalog.

**The rows.** `advertised` is what the response has an entry for: in normal mode the rows of the
catalog that the profile is served, and the meta-tools. `CallableAsItself` says that their names
differ and that a call of a name is of the tool that has it.

**Theorem (`callable_as_itself_iff`).** In JS mode this always holds. In normal mode it holds exactly
when no two served rows have one name and no served row is without a prefix and named like a
meta-tool. The tools of a single endpoint have no prefix, so an upstream that calls a tool
`list_tools` is advertised and never called (`upstream_list_tools`).
-/

namespace EndaraRelay

open Verif

/-! ## The call -/

def MetaTool.all : List MetaTool := [.listTools, .searchTools, .executeTools, .writeFile]

/-- The meta-tool that a name is matched with. -/
def MetaTool.ofName (name : String) : Option MetaTool := MetaTool.all.find? fun t => t.name = name

/-- A call of the meta-tool handler. What `execute_tools` also hands on of the surrounding request is
left out. -/
inductive HandlerCall where
  | listTools (limit offset : Option Nat)
  | searchTools (query : String) (limit : Option Nat)
  | executeTools (script : String)
  | writeFile (path data encoding : String)

/-- What becomes of a `tools/call`. -/
inductive ToolsCall (A : Type) where
  /-- A JSON-RPC error. -/
  | refused (code : Int) (message : String)
  /-- The arguments do not fit the meta-tool. -/
  | answered (tool : MetaTool) (result : Json)
  | handled (call : HandlerCall)
  /-- The call is routed, with the parameters that go with it. -/
  | routed (decision : RouteDecision A) (requestParams : Fields)

def metaToolErrorResult (text : String) : Json :=
  .obj [("content", .arr [.obj [("type", .str "text"), ("text", .str text)]]), ("isError", .bool true)]

variable {A : Type}

/-- What the arm of a meta-tool does with arguments that its schema does not refuse. -/
def MetaTool.run (arguments : Json) : MetaTool → ToolsCall A
  | .listTools =>
    .handled (.listTools ((arguments.get "limit").bind Json.asU64) ((arguments.get "offset").bind Json.asU64))
  | .searchTools =>
    .handled (.searchTools (((arguments.get "query").bind Json.asStr).getD "")
      ((arguments.get "limit").bind Json.asU64))
  | .executeTools => .handled (.executeTools (((arguments.get "script").bind Json.asStr).getD ""))
  | .writeFile =>
    match (arguments.get "path").bind Json.asStr with
    | none => .answered .writeFile
        (metaToolErrorResult "write_file: 'path' is required and must be a string")
    | some path =>
      match (arguments.get "data").bind Json.asStr with
      | none => .answered .writeFile
          (metaToolErrorResult "write_file: 'data' is required and must be a string")
      | some data =>
        match arguments.get "encoding" with
        | none => .handled (.writeFile path data "utf8")
        | some (.str encoding) => .handled (.writeFile path data encoding)
        | some _ => .answered .writeFile (metaToolErrorResult
            "write_file: 'encoding' must be a string (\"utf8\" or \"base64\") when provided")

/-- The arm of a meta-tool. `validateMeta` is `validate_meta_tool_args`. -/
def MetaTool.handle (validateMeta : String → Json → Option Json) (arguments : Json) (tool : MetaTool) :
    ToolsCall A :=
  match validateMeta tool.name arguments with
  | some err => .answered tool err
  | none => tool.run arguments

/-- `params.get("arguments").cloned().unwrap_or(json!({}))`. -/
def callArguments (params : Json) : Json := (params.get "arguments").getD (.obj [])

/-- Every parameter but the name and the arguments. -/
def callRequestParams (params : Json) : Fields :=
  (params.asObject.getD []).filter fun kv => kv.1 ≠ "name" ∧ kv.1 ≠ "arguments"

variable [McpAdapter A]

/-- The routing of a call, by the registry or by the view of a profile. -/
def routeWithin (validateArguments : Option (String → Json → Json → Option Json))
    (profile : Option (List String)) (catalog : Catalog) (entries : Entries A) (toolName : String)
    (arguments : Json) : RouteDecision A :=
  match profile with
  | none => routeDecision validateArguments catalog entries toolName arguments
  | some allowedEndpoints =>
    match profileToolTarget allowedEndpoints catalog toolName with
    | .error err => .rejected err
    | .ok _ => routeDecision validateArguments catalog entries toolName arguments

def mcpToolsCall (jsMode : Bool) (validateMeta : String → Json → Option Json)
    (validateArguments : Option (String → Json → Json → Option Json)) (profile : Option (List String))
    (catalog : Catalog) (entries : Entries A) (params : Json) : ToolsCall A :=
  match (params.get "name").bind Json.asStr with
  | none => .refused (-32602) "missing 'name' in params"
  | some toolName =>
    match MetaTool.ofName toolName with
    | some .executeTools =>
      if !jsMode then
        .refused (-32601)
          "execute_tools is disabled — set relay.local_js_execution = true to enable the JS sandbox."
      else MetaTool.executeTools.handle validateMeta (callArguments params)
    | some tool => tool.handle validateMeta (callArguments params)
    | none =>
      if jsMode then
        .refused (-32601)
          "Direct tool calls are not allowed in JS execution mode. Use execute_tools instead."
      else
        .routed (routeWithin validateArguments profile catalog entries toolName (callArguments params))
          (callRequestParams params)

/-! ## What is advertised -/

/-- The name is served: to everybody, or by the view of the profile. -/
def serves (profile : Option (List String)) (catalog : Catalog) (name : String) : Bool :=
  match profile with
  | none => true
  | some allowedEndpoints => ownsName allowedEndpoints catalog name

/-- The rows of the catalog that are served. -/
def servedRows (profile : Option (List String))
    (listed : String → RegisteredAdapter A → Except AdapterError (List ToolInfo)) (entries : Entries A) :
    List (CatalogRow A) :=
  (rows listed entries).filter fun r =>
    serves profile (buildCatalog listed entries) (r.name (skipPrefix entries))

/-- The meta-tools that are defined. -/
def advertisedMetaTools (jsMode : Bool) (writeRoots : List String) : List MetaTool :=
  [.listTools, .searchTools] ++ (if jsMode then [.executeTools] else []) ++
    (if writeRoots.isEmpty then [] else [.writeFile])

/-- A tool that has an entry in the response: a tool of an upstream, or one of the relay. -/
inductive Advertised (A : Type) where
  | upstream (row : CatalogRow A)
  | metaTool (tool : MetaTool)

def MetaTool.definition (texts : MetaToolTexts) : MetaTool → Json
  | .listTools => listToolsDefinition texts.listTools
  | .searchTools => searchToolsDefinition texts.searchTools
  | .executeTools => executeToolsDefinition texts.executeTools
  | .writeFile => writeFileDefinition texts.writeFile

namespace Advertised

/-- The name a tool is advertised under. -/
def name (skip : Bool) : Advertised A → String
  | .upstream r => r.name skip
  | .metaTool t => t.name

def entry (texts : MetaToolTexts) (skip : Bool) : Advertised A → Json
  | .upstream r => r.toolEntry skip
  | .metaTool t => t.definition texts

end Advertised

/-- Everything that the response has an entry for. -/
def advertised (jsMode : Bool) (writeRoots : List String) (profile : Option (List String))
    (listed : String → RegisteredAdapter A → Except AdapterError (List ToolInfo)) (entries : Entries A) :
    List (Advertised A) :=
  (if jsMode then [] else (servedRows profile listed entries).map .upstream) ++
    (advertisedMetaTools jsMode writeRoots).map .metaTool

/-- What the call of a row is to become. The endpoint may have to refuse it for a while; otherwise it
is answered by the tool's own schema when the arguments do not fit it, and goes to the tool. -/
def CatalogRow.call (validateArguments : Option (String → Json → Json → Option Json)) (skip : Bool)
    (r : CatalogRow A) (arguments : Json) : RouteDecision A :=
  if !r.entry.isHealthy then
    .rejected (.protocolError ("tool '" ++ r.tool.name ++ "' is currently unavailable: endpoint '" ++
      r.endpoint ++ "' is not healthy"))
  else
    match validateArguments.bind fun validate => validate (r.name skip) r.tool.inputSchema arguments with
    | some result => .invalid result
    | none => .called r.endpoint r.entry.adapter r.tool.name

/-- What the call of an advertised tool is to become. -/
def Advertised.call (validateMeta : String → Json → Option Json)
    (validateArguments : Option (String → Json → Json → Option Json)) (skip : Bool) (params : Json) :
    Advertised A → ToolsCall A
  | .upstream r => .routed (r.call validateArguments skip (callArguments params)) (callRequestParams params)
  | .metaTool t => t.handle validateMeta (callArguments params)

/-- Every advertised tool has a name of its own and is what a call of this name is of. -/
structure CallableAsItself (jsMode : Bool) (texts : MetaToolTexts) (writeRoots : List String)
    (validateMeta : String → Json → Option Json)
    (validateArguments : Option (String → Json → Json → Option Json)) (profile : Option (List String))
    (listed : String → RegisteredAdapter A → Except AdapterError (List ToolInfo)) (entries : Entries A) :
    Prop where
  names_nodup :
    ((mcpToolsList jsMode texts writeRoots profile (buildCatalog listed entries)).map entryName).Nodup
  dispatched : ∀ tool ∈ advertised jsMode writeRoots profile listed entries, ∀ params,
    params.get "name" = some (.str (tool.name (skipPrefix entries))) →
      mcpToolsCall jsMode validateMeta validateArguments profile (buildCatalog listed entries) entries
        params = tool.call validateMeta validateArguments (skipPrefix entries) params

/-! ## When names agree -/

/-- Two rows are advertised under one name, as their prefixes and raw names tell. -/
def SameName (skip : Bool) (r₁ r₂ : CatalogRow A) : Prop :=
  match effectivePrefix skip r₁.entry, effectivePrefix skip r₂.entry with
  | none, none => r₁.tool.name = r₂.tool.name
  | some p, none => r₂.tool.name = p ++ "__" ++ r₁.tool.name
  | none, some p => r₁.tool.name = p ++ "__" ++ r₂.tool.name
  | some p₁, some p₂ =>
    (p₁ = p₂ ∧ r₁.tool.name = r₂.tool.name) ∨
      NameReadsOn p₁ r₁.tool.name p₂ r₂.tool.name ∨ NameReadsOn p₂ r₂.tool.name p₁ r₁.tool.name

/-- The rows that are served have names of their own, apart from those of the meta-tools. -/
structure RowsApart (profile : Option (List String))
    (listed : String → RegisteredAdapter A → Except AdapterError (List ToolInfo)) (entries : Entries A) :
    Prop where
  rows_apart : (servedRows profile listed entries).Pairwise fun r₁ r₂ => ¬ SameName (skipPrefix entries) r₁ r₂
  not_reserved : ∀ r ∈ servedRows profile listed entries, effectivePrefix (skipPrefix entries) r.entry = none →
    ∀ t : MetaTool, r.tool.name ≠ t.name

variable {skip : Bool} {r : CatalogRow A} {t : MetaTool}

section Names

omit [McpAdapter A]

/-- A name does not read on into its own prefix. -/
theorem not_nameReadsOn_self {p t₁ t₂ : String} : ¬ NameReadsOn p t₁ p t₂ := by
  rintro (⟨hp, -⟩ | ⟨r, hp, -⟩)
  · have hlen := congrArg String.length hp
    simp at hlen
  · have hlen := congrArg String.length hp
    have hsep : "__".length = 2 := rfl
    simp only [String.length_append] at hlen
    omega

theorem sameName_iff {r₁ r₂ : CatalogRow A} : SameName skip r₁ r₂ ↔ r₁.name skip = r₂.name skip := by
  unfold SameName CatalogRow.name finalName
  cases h₁ : effectivePrefix skip r₁.entry with
  | none =>
    cases h₂ : effectivePrefix skip r₂.entry with
    | none => exact Iff.rfl
    | some p => exact Iff.rfl
  | some p₁ =>
    cases h₂ : effectivePrefix skip r₂.entry with
    | none => exact eq_comm
    | some p₂ =>
      dsimp only
      by_cases hp : p₁ = p₂
      · subst hp
        rw [encodeToolName_right_inj]
        simp [not_nameReadsOn_self]
      · rw [encodeToolName_eq_iff hp]
        simp [hp]

/-- No meta-tool has two underscores in a row in its name. -/
theorem metaTool_name_isChain (t : MetaTool) :
    t.name.toList.IsChain fun a b => ¬ (a = '_' ∧ b = '_') := by
  cases t with
  | listTools | searchTools | executeTools | writeFile => simp [MetaTool.name]

theorem encodeToolName_ne_metaTool (p raw : String) (t : MetaTool) : encodeToolName p none raw ≠ t.name := by
  intro h
  have hchain := metaTool_name_isChain t
  rw [← h, encodeToolName_toList] at hchain
  simp [List.isChain_append] at hchain

/-- A row is named like a meta-tool when it has no prefix and the raw name is that of the meta-tool. -/
theorem name_eq_metaTool_iff :
    r.name skip = t.name ↔ effectivePrefix skip r.entry = none ∧ r.tool.name = t.name := by
  unfold CatalogRow.name finalName
  cases h : effectivePrefix skip r.entry with
  | none => simp
  | some p => simp [encodeToolName_ne_metaTool]

theorem ofName_name (t : MetaTool) : MetaTool.ofName t.name = some t := by
  cases t with
  | listTools | searchTools | executeTools | writeFile => rfl

theorem ofName_eq_none {name : String} (h : ∀ t : MetaTool, name ≠ t.name) :
    MetaTool.ofName name = none := by
  unfold MetaTool.ofName
  rw [List.find?_eq_none]
  intro t _
  simpa using (h t).symm

end Names

/-! ## The response, read off what is advertised -/

theorem metaToolDefinitions_eq (jsMode : Bool) (texts : MetaToolTexts) (writeRoots : List String) :
    metaToolDefinitions jsMode texts writeRoots =
      (advertisedMetaTools jsMode writeRoots).map (MetaTool.definition texts) := by
  unfold metaToolDefinitions advertisedMetaTools
  cases jsMode with
  | true => cases writeRoots <;> rfl
  | false => cases writeRoots <;> rfl

theorem entryName_definition (texts : MetaToolTexts) (t : MetaTool) : entryName (t.definition texts) = t.name := by
  cases t with
  | listTools | searchTools | executeTools | writeFile => rfl

theorem entryName_toolEntry (skip : Bool) (r : CatalogRow A) : entryName (r.toolEntry skip) = r.name skip := rfl

theorem Advertised.entryName_entry (texts : MetaToolTexts) (skip : Bool) (tool : Advertised A) :
    entryName (tool.entry texts skip) = tool.name skip := by
  cases tool with
  | upstream r => exact entryName_toolEntry skip r
  | metaTool t => exact entryName_definition texts t

variable {listed : String → RegisteredAdapter A → Except AdapterError (List ToolInfo)} {entries : Entries A}
  {profile : Option (List String)}

theorem servedTools_eq (profile : Option (List String)) (catalog : Catalog) :
    servedTools profile catalog = catalog.tools.filter fun t => serves profile catalog t.name := by
  cases profile with
  | none => simp [servedTools, serves]
  | some allowedEndpoints => rfl

/-- The tools that are served are those of the served rows. -/
theorem servedTools_rows_perm (profile : Option (List String))
    (listed : String → RegisteredAdapter A → Except AdapterError (List ToolInfo)) (entries : Entries A) :
    (servedTools profile (buildCatalog listed entries)).Perm
      ((servedRows profile listed entries).map fun r =>
        catalogTool (skipPrefix entries) r.endpoint r.entry r.tool) := by
  have hall := servedTools_perm listed entries
  rw [servedTools_eq]
  refine (hall.filter _).trans ?_
  rw [List.filter_map]
  exact List.Perm.refl _

/-- **The response is the entries of what is advertised**, in some order. -/
theorem mcpToolsList_advertised (jsMode : Bool) (texts : MetaToolTexts) (writeRoots : List String)
    (profile : Option (List String))
    (listed : String → RegisteredAdapter A → Except AdapterError (List ToolInfo)) (entries : Entries A) :
    (mcpToolsList jsMode texts writeRoots profile (buildCatalog listed entries)).Perm
      ((advertised jsMode writeRoots profile listed entries).map
        (Advertised.entry texts (skipPrefix entries))) := by
  unfold advertised
  cases jsMode with
  | true =>
    unfold mcpToolsList
    rw [if_pos rfl, if_pos rfl, List.nil_append, metaToolDefinitions_eq, List.map_map]
    exact List.Perm.refl _
  | false =>
    refine (mcpToolsList_perm texts writeRoots profile _).trans ?_
    rw [if_neg (by decide), List.map_append, metaToolDefinitions_eq, List.map_map, List.map_map]
    refine List.Perm.append ?_ (List.Perm.refl _)
    have hserved := (servedTools_rows_perm profile listed entries).map toolEntry
    rw [List.map_map] at hserved
    exact hserved

theorem response_names_perm (jsMode : Bool) (texts : MetaToolTexts) (writeRoots : List String)
    (profile : Option (List String))
    (listed : String → RegisteredAdapter A → Except AdapterError (List ToolInfo)) (entries : Entries A) :
    ((mcpToolsList jsMode texts writeRoots profile (buildCatalog listed entries)).map entryName).Perm
      ((advertised jsMode writeRoots profile listed entries).map (Advertised.name (skipPrefix entries))) := by
  refine ((mcpToolsList_advertised jsMode texts writeRoots profile listed entries).map entryName).trans ?_
  rw [List.map_map]
  refine List.Perm.of_eq (List.map_congr_left fun tool _ => ?_)
  exact tool.entryName_entry texts _

theorem metaTool_names_nodup (jsMode : Bool) (writeRoots : List String) :
    ((advertisedMetaTools jsMode writeRoots).map MetaTool.name).Nodup := by
  unfold advertisedMetaTools
  cases jsMode with
  | true => cases writeRoots <;> simp [MetaTool.name]
  | false => cases writeRoots <;> simp [MetaTool.name]

/-! ## A served row is called by its name -/

theorem serves_of_mem (h : r ∈ servedRows profile listed entries) :
    r ∈ rows listed entries ∧
      serves profile (buildCatalog listed entries) (r.name (skipPrefix entries)) = true :=
  List.mem_filter.1 h

/-- A row with the name of a served one is served, and is that one when names are apart. -/
theorem eq_of_name_eq (hnd : ((servedRows profile listed entries).map
      (CatalogRow.name (skipPrefix entries))).Nodup) {r r' : CatalogRow A}
    (hr : r ∈ servedRows profile listed entries) (hr' : r' ∈ rows listed entries)
    (hname : r'.name (skipPrefix entries) = r.name (skipPrefix entries)) : r' = r := by
  have hserved : r' ∈ servedRows profile listed entries := by
    refine List.mem_filter.2 ⟨hr', ?_⟩
    rw [hname]
    exact (serves_of_mem hr).2
  exact List.inj_on_of_nodup_map hnd hserved hr hname

theorem lookup_servedRow (hnd : ((servedRows profile listed entries).map
      (CatalogRow.name (skipPrefix entries))).Nodup) (hr : r ∈ servedRows profile listed entries) :
    (buildCatalog listed entries).lookup.lookup (r.name (skipPrefix entries)) =
      some (r.endpoint, r.tool.name) := by
  obtain ⟨target, hlookup⟩ := lookup_of_row (serves_of_mem hr).1
  obtain ⟨r', hr', hname, rfl⟩ := row_of_lookup hlookup
  rw [hlookup, eq_of_name_eq hnd hr hr' hname]

theorem find_servedRow (hnd : ((servedRows profile listed entries).map
      (CatalogRow.name (skipPrefix entries))).Nodup) (hr : r ∈ servedRows profile listed entries) :
    ((buildCatalog listed entries).tools.find? fun t => t.name = r.name (skipPrefix entries)) =
      some (catalogTool (skipPrefix entries) r.endpoint r.entry r.tool) := by
  have hperm : (buildCatalog listed entries).tools.Perm _ := servedTools_perm listed entries
  cases hfind : (buildCatalog listed entries).tools.find? fun t => t.name = r.name (skipPrefix entries) with
  | none =>
    have hmem := hperm.mem_iff.2 (List.mem_map.2 ⟨r, (serves_of_mem hr).1, rfl⟩)
    have hne := List.find?_eq_none.1 hfind _ hmem
    exact absurd (decide_eq_true rfl) hne
  | some t =>
    have hname : t.name = r.name (skipPrefix entries) := by simpa using List.find?_some hfind
    obtain ⟨r', hr', rfl⟩ := List.mem_map.1 (hperm.mem_iff.1 (List.mem_of_find?_eq_some hfind))
    rw [eq_of_name_eq hnd hr hr' hname]

/-- The view of a profile lets the names it serves through. -/
theorem routeWithin_of_serves (validateArguments : Option (String → Json → Json → Option Json))
    {catalog : Catalog} {name : String} (h : serves profile catalog name = true) (arguments : Json) :
    routeWithin validateArguments profile catalog entries name arguments =
      routeDecision validateArguments catalog entries name arguments := by
  unfold routeWithin
  cases profile with
  | none => rfl
  | some allowedEndpoints =>
    obtain ⟨target, -, htarget⟩ := profileToolTarget_of_owns h
    dsimp only
    rw [htarget]

/-- **A served row is routed to its own tool** when names are apart. -/
theorem routeWithin_servedRow (validateArguments : Option (String → Json → Json → Option Json))
    (hnd : ((servedRows profile listed entries).map (CatalogRow.name (skipPrefix entries))).Nodup)
    (hr : r ∈ servedRows profile listed entries) (arguments : Json) :
    routeWithin validateArguments profile (buildCatalog listed entries) entries
        (r.name (skipPrefix entries)) arguments =
      r.call validateArguments (skipPrefix entries) arguments := by
  obtain ⟨hrow, hserves⟩ := serves_of_mem hr
  obtain ⟨hentry, hdisabled, hnotDisabled⟩ := mem_rows hrow
  have hfailure : validationFailure validateArguments (buildCatalog listed entries)
      (r.name (skipPrefix entries)) arguments =
        validateArguments.bind fun validate =>
          validate (r.name (skipPrefix entries)) r.tool.inputSchema arguments := by
    unfold validationFailure
    cases validateArguments with
    | none => rfl
    | some validate =>
      show Option.bind _ _ = _
      rw [find_servedRow hnd hr]
      rfl
  rw [routeWithin_of_serves validateArguments hserves]
  unfold routeDecision
  rw [lookup_servedRow hnd hr]
  unfold dispatchDecision CatalogRow.call
  simp only [hentry, hdisabled, hfailure, if_neg hnotDisabled, Bool.false_eq_true, if_false]
  all_goals rfl

/-! ## The result -/

section Result

variable {jsMode : Bool} {texts : MetaToolTexts} {writeRoots : List String}
  {validateMeta : String → Json → Option Json}
  {validateArguments : Option (String → Json → Json → Option Json)}

theorem name_of_get {params : Json} {name : String} (h : params.get "name" = some (.str name)) :
    (params.get "name").bind Json.asStr = some name := by
  rw [h]
  rfl

theorem mem_advertised_upstream :
    (.upstream r) ∈ advertised false writeRoots profile listed entries ↔
      r ∈ servedRows profile listed entries := by
  simp [advertised]

theorem mem_advertised_metaTool :
    (.metaTool t) ∈ advertised jsMode writeRoots profile listed entries ↔
      t ∈ advertisedMetaTools jsMode writeRoots := by
  unfold advertised
  cases jsMode with
  | true => simp
  | false => simp

/-- An advertised meta-tool is what a call of its name is of, in either mode. -/
theorem mcpToolsCall_metaTool {t : MetaTool} (ht : t ∈ advertisedMetaTools jsMode writeRoots)
    {catalog : Catalog} {params : Json} (hname : params.get "name" = some (.str t.name)) :
    mcpToolsCall jsMode validateMeta validateArguments profile catalog entries params =
      t.handle validateMeta (callArguments params) := by
  unfold mcpToolsCall
  rw [name_of_get hname]
  dsimp only
  rw [ofName_name]
  cases t with
  | listTools | searchTools | writeFile => rfl
  | executeTools =>
    have hjs : jsMode = true := by
      cases jsMode with
      | true => rfl
      | false =>
        unfold advertisedMetaTools at ht
        cases writeRoots with
        | nil => simp at ht
        | cons root roots => simp at ht
    subst hjs
    rfl

/-- In normal mode a name that no meta-tool has is routed. -/
theorem mcpToolsCall_routed {name : String} (hreserved : ∀ t : MetaTool, name ≠ t.name) {catalog : Catalog}
    {params : Json} (hname : params.get "name" = some (.str name)) :
    mcpToolsCall false validateMeta validateArguments profile catalog entries params =
      .routed (routeWithin validateArguments profile catalog entries name (callArguments params))
        (callRequestParams params) := by
  unfold mcpToolsCall
  rw [name_of_get hname]
  dsimp only
  rw [ofName_eq_none hreserved]
  rfl

/-- A call of the name of a meta-tool is never routed. -/
theorem mcpToolsCall_reserved (t : MetaTool) {catalog : Catalog} {params : Json}
    (hname : params.get "name" = some (.str t.name)) (decision : RouteDecision A) (requestParams : Fields) :
    mcpToolsCall jsMode validateMeta validateArguments profile catalog entries params ≠
      .routed decision requestParams := by
  have hrun (arguments : Json) : t.run arguments ≠ ToolsCall.routed decision requestParams := by
    cases t with
    | listTools | searchTools | executeTools => exact nofun
    | writeFile =>
      unfold MetaTool.run
      dsimp only
      split
      · exact nofun
      · split
        · exact nofun
        · split <;> exact nofun
  have hhandle (arguments : Json) : t.handle validateMeta arguments ≠ ToolsCall.routed decision requestParams := by
    unfold MetaTool.handle
    split
    · exact nofun
    · exact hrun arguments
  unfold mcpToolsCall
  rw [name_of_get hname]
  dsimp only
  rw [ofName_name]
  cases t with
  | listTools | searchTools | writeFile => exact hhandle _
  | executeTools =>
    dsimp only
    split
    · exact nofun
    · exact hhandle _

theorem callable_of_jsMode :
    CallableAsItself true texts writeRoots validateMeta validateArguments profile listed entries where
  names_nodup := by
    rw [(response_names_perm true texts writeRoots profile listed entries).nodup_iff]
    unfold advertised
    rw [if_pos rfl, List.nil_append, List.map_map]
    exact metaTool_names_nodup true writeRoots
  dispatched := by
    intro tool htool params hname
    cases tool with
    | upstream r => simp [advertised] at htool
    | metaTool t => exact mcpToolsCall_metaTool (mem_advertised_metaTool.1 htool) hname

theorem RowsApart.names_nodup (h : RowsApart profile listed entries) :
    ((servedRows profile listed entries).map (CatalogRow.name (skipPrefix entries))).Nodup := by
  rw [List.Nodup, List.pairwise_map]
  exact h.rows_apart.imp fun hne heq => hne (sameName_iff.2 heq)

/-- The name of a served row is not that of a meta-tool. -/
theorem RowsApart.ne_metaTool (h : RowsApart profile listed entries)
    (hr : r ∈ servedRows profile listed entries) (t : MetaTool) :
    r.name (skipPrefix entries) ≠ t.name := by
  intro heq
  obtain ⟨hskip, hraw⟩ := name_eq_metaTool_iff.1 heq
  exact h.not_reserved r hr hskip t hraw

theorem callable_of_rowsApart (h : RowsApart profile listed entries) :
    CallableAsItself false texts writeRoots validateMeta validateArguments profile listed entries where
  names_nodup := by
    rw [(response_names_perm false texts writeRoots profile listed entries).nodup_iff]
    unfold advertised
    rw [if_neg (by decide), List.map_append, List.map_map, List.map_map]
    refine List.nodup_append.2 ⟨h.names_nodup, metaTool_names_nodup false writeRoots, ?_⟩
    intro name hrow name' hmeta
    obtain ⟨r, hr, rfl⟩ := List.mem_map.1 hrow
    obtain ⟨t, -, rfl⟩ := List.mem_map.1 hmeta
    exact h.ne_metaTool hr t
  dispatched := by
    intro tool htool params hname
    cases tool with
    | upstream r =>
      have hr := mem_advertised_upstream.1 htool
      rw [mcpToolsCall_routed (h.ne_metaTool hr) hname]
      exact congrArg (ToolsCall.routed · _) (routeWithin_servedRow validateArguments h.names_nodup hr _)
    | metaTool t => exact mcpToolsCall_metaTool (mem_advertised_metaTool.1 htool) hname

theorem CallableAsItself.rowsApart
    (h : CallableAsItself false texts writeRoots validateMeta validateArguments profile listed entries) :
    RowsApart profile listed entries where
  rows_apart := by
    have hnd := (response_names_perm false texts writeRoots profile listed entries).nodup_iff.1 h.names_nodup
    unfold advertised at hnd
    rw [if_neg (by decide), List.map_append, List.map_map] at hnd
    have hrows := (List.nodup_append.1 hnd).1
    rw [List.Nodup, List.pairwise_map] at hrows
    exact hrows.imp fun hne hsame => hne (sameName_iff.1 hsame)
  not_reserved := by
    intro r hr hskip t hraw
    have hname : r.name (skipPrefix entries) = t.name := name_eq_metaTool_iff.2 ⟨hskip, hraw⟩
    have hcall := h.dispatched (.upstream r) (mem_advertised_upstream.2 hr) (.obj [("name", .str t.name)])
      (by rw [Advertised.name, hname]; rfl)
    exact mcpToolsCall_reserved t rfl _ _ hcall

end Result

/-- **When every advertised tool is callable as itself.** The response has an entry for each tool that
is advertised and no other. -/
theorem callable_as_itself_iff (jsMode : Bool) (texts : MetaToolTexts) (writeRoots : List String)
    (validateMeta : String → Json → Option Json)
    (validateArguments : Option (String → Json → Json → Option Json)) (profile : Option (List String))
    (listed : String → RegisteredAdapter A → Except AdapterError (List ToolInfo)) (entries : Entries A) :
    (mcpToolsList jsMode texts writeRoots profile (buildCatalog listed entries)).Perm
        ((advertised jsMode writeRoots profile listed entries).map
          (Advertised.entry texts (skipPrefix entries))) ∧
      (CallableAsItself jsMode texts writeRoots validateMeta validateArguments profile listed entries ↔
        jsMode = true ∨ RowsApart profile listed entries) := by
  refine ⟨mcpToolsList_advertised jsMode texts writeRoots profile listed entries, ?_⟩
  cases jsMode with
  | true => exact ⟨fun _ => .inl rfl, fun _ => callable_of_jsMode⟩
  | false =>
    constructor
    · intro h
      exact .inr h.rowsApart
    · rintro (hjs | happart)
      · cases hjs
      · exact callable_of_rowsApart happart

/-! ## An upstream with a tool called `list_tools` -/

/-- The endpoint `mail`, alone, with one tool. -/
def loneToolEntries (tool : String) : Entries FixedAdapter :=
  (∅ : Entries FixedAdapter).insert "mail"
    (freshEntry { tools := .ok [bareTool tool] } "http" none (some "mail"))

/-- The response has two entries called `list_tools`, a call of the name reaches the relay's own, and
no call reaches the upstream's. -/
theorem upstream_list_tools :
    (mcpToolsList false blankTexts [] none (buildCatalog listedByAdapter (loneToolEntries "list_tools"))).map
        entryName = ["list_tools", "list_tools", "search_tools"] ∧
      (∃ call, mcpToolsCall false (fun _ _ => none) none none
          (buildCatalog listedByAdapter (loneToolEntries "list_tools")) (loneToolEntries "list_tools")
          (.obj [("name", .str "list_tools")]) = .handled call) ∧
      ¬ CallableAsItself false blankTexts [] (fun _ _ => none) none none listedByAdapter
        (loneToolEntries "list_tools") := by
  have hnames : (mcpToolsList false blankTexts [] none
      (buildCatalog listedByAdapter (loneToolEntries "list_tools"))).map entryName =
        ["list_tools", "list_tools", "search_tools"] := rfl
  refine ⟨hnames, ⟨.listTools none none, rfl⟩, fun h => ?_⟩
  have hnd := h.names_nodup
  rw [hnames] at hnd
  exact absurd hnd (by decide)

end EndaraRelay
