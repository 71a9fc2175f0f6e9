import EndaraRelay.JsonRpc
import EndaraRelay.ProfileRegistry

/-!
# Tool descriptors on their way through the relay

A descriptor that an upstream lists is read into a `ToolInfo` (`adapter/mod.rs`), put on the merged
catalog by `build_catalog`, and written into the `tools/list` response by `mcp_tools_list`
(`server.rs`).

**The layers.** `ToolInfo.fromJson` has seven named fields and keeps all others in `extra`, so
nothing is lost there but nulls. `catalogTool` replaces the name and the description and wraps the UI
pointers (`catalog_keeps_fields`). `toolEntry` names four fields again, and has no `extra`.

**Theorem (`tool_descriptor_survives_iff`).** The entry of a tool equals the descriptor in every field
other than the name and the description, apart from the two pointers, exactly when the descriptor
has no field but the four, and no null for its annotations.
-/

namespace EndaraRelay

open Verif

/-! ## Reading a descriptor -/

namespace ToolInfo

/-- The fields of a descriptor that `ToolInfo` has by name. -/
def fieldNames : List String :=
  ["name", "description", "inputSchema", "annotations", "title", "outputSchema", "_meta"]

/-- The derived deserializer. Every field that is not named goes to `extra`. -/
def fromJson : Json → Option ToolInfo
  | .obj m => do
    let name ← required Json.asStr (← Fields.field m "name")
    let description ← optional Json.asStr (← Fields.field m "description")
    let inputSchema ← required some (← Fields.field m "inputSchema")
    let annotations ← optional some (← Fields.field m "annotations")
    let title ← optional Json.asStr (← Fields.field m "title")
    let outputSchema ← optional some (← Fields.field m "outputSchema")
    let toolMeta ← optional some (← Fields.field m "_meta")
    some { name, description, inputSchema, annotations, title, outputSchema, toolMeta
           extra := m.filter fun kv => kv.1 ∉ fieldNames }
  | _ => none

/-- The derived serializer. -/
def toJson (tool : ToolInfo) : Json :=
  .obj ([("name", .str tool.name), ("description", (tool.description.map Json.str).getD .null),
      ("inputSchema", tool.inputSchema)] ++
    (tool.annotations.map fun v => ("annotations", v)).toList ++
    (tool.title.map fun s => ("title", Json.str s)).toList ++
    (tool.outputSchema.map fun v => ("outputSchema", v)).toList ++
    (tool.toolMeta.map fun v => ("_meta", v)).toList ++ tool.extra)

end ToolInfo

/-- `list_tools` of a transport, of the result that `tools/list` came back with. What is said of a
value that cannot be read is the parameter `jsonError`. -/
def listToolsOf (jsonError : Json → AdapterError) (result : Json) : Except AdapterError (List ToolInfo) :=
  match result.get "tools" with
  | none => .error (.protocolError "missing 'tools' field")
  | some (.arr items) =>
    match items.mapM ToolInfo.fromJson with
    | some tools => .ok tools
    | none => .error (jsonError (.arr items))
  | some v => .error (jsonError v)

/-! ## The `tools/list` response -/

/-- The tools of the relay itself. -/
inductive MetaTool where
  | listTools
  | searchTools
  | executeTools
  | writeFile
deriving DecidableEq

def MetaTool.name : MetaTool → String
  | .listTools => "list_tools"
  | .searchTools => "search_tools"
  | .executeTools => "execute_tools"
  | .writeFile => "write_file"

/-- The descriptions of the meta-tools, which `advertise.rs` writes from the endpoints there are. -/
structure MetaToolTexts where
  listTools : String
  searchTools : String
  executeTools : String
  writeFile : String

/-- `{ "type": t }`. -/
def typed (t : String) : Json := .obj [("type", .str t)]

def listToolsDefinition (description : String) : Json :=
  .obj [("name", .str "list_tools"), ("description", .str description),
    ("inputSchema", .obj [("type", .str "object"),
      ("properties", .obj [("limit", typed "integer"), ("offset", typed "integer")])])]

def searchToolsDefinition (description : String) : Json :=
  .obj [("name", .str "search_tools"), ("description", .str description),
    ("inputSchema", .obj [("type", .str "object"),
      ("properties", .obj [("query", typed "string"), ("limit", typed "integer")]),
      ("required", .arr [.str "query"])])]

def executeToolsDefinition (description : String) : Json :=
  .obj [("name", .str "execute_tools"), ("description", .str description),
    ("inputSchema", .obj [("type", .str "object"), ("properties", .obj [("script", typed "string")]),
      ("required", .arr [.str "script"])])]

def writeFileDefinition (description : String) : Json :=
  .obj [("name", .str "write_file"), ("description", .str description),
    ("inputSchema", .obj [("type", .str "object"),
      ("properties", .obj [
        ("path", .obj [("type", .str "string"),
          ("description", .str "Absolute path of the file to write, inside an allowed directory.")]),
        ("data", .obj [("type", .str "string"),
          ("description", .str "File content (UTF-8 text, or base64 when encoding is \"base64\").")]),
        ("encoding", .obj [("type", .str "string"), ("enum", .arr [.str "utf8", .str "base64"]),
          ("default", .str "utf8"), ("description", .str "How to decode `data` before writing.")])]),
      ("required", .arr [.str "path", .str "data"]), ("additionalProperties", .bool false)])]

def metaToolDefinitions (jsMode : Bool) (texts : MetaToolTexts) (writeRoots : List String) : List Json :=
  [listToolsDefinition texts.listTools, searchToolsDefinition texts.searchTools] ++
    (if jsMode then [executeToolsDefinition texts.executeTools] else []) ++
    (if writeRoots.isEmpty then [] else [writeFileDefinition texts.writeFile])

/-- The entry of a tool of the catalog. -/
def toolEntry (tool : ToolInfo) : Json :=
  .obj ([("name", .str tool.name), ("description", (tool.description.map Json.str).getD .null),
      ("inputSchema", tool.inputSchema)] ++
    (tool.annotations.map fun v => ("annotations", v)).toList)

/-- `entry["name"].as_str().unwrap_or("")`. -/
def entryName (entry : Json) : String := ((entry.get "name").bind Json.asStr).getD ""

/-- The tools of the catalog that are served to everybody, or within a profile. -/
def servedTools (profile : Option (List String)) (catalog : Catalog) : List ToolInfo :=
  match profile with
  | none => catalog.tools
  | some allowedEndpoints => profileMergedCatalog allowedEndpoints catalog

def mcpToolsList (jsMode : Bool) (texts : MetaToolTexts) (writeRoots : List String)
    (profile : Option (List String)) (catalog : Catalog) : List Json :=
  if jsMode then metaToolDefinitions jsMode texts writeRoots
  else
    ((servedTools profile catalog).map toolEntry ++
      metaToolDefinitions jsMode texts writeRoots).insertionSort fun a b => entryName a ≤ entryName b

/-- In normal mode the response is the entries of the served tools and the meta-tools, in some order. -/
theorem mcpToolsList_perm (texts : MetaToolTexts) (writeRoots : List String)
    (profile : Option (List String)) (catalog : Catalog) :
    (mcpToolsList false texts writeRoots profile catalog).Perm
      ((servedTools profile catalog).map toolEntry ++ metaToolDefinitions false texts writeRoots) :=
  List.perm_insertionSort _ _

/-! ## What a field of a descriptor becomes -/

/-- A descriptor with its pointers blanked out: what is left of a `_meta` to compare. -/
def blankPointer : Json → Json
  | .str _ => .str ""
  | v => v

def blankUiPointers (toolMeta : Fields) : Fields :=
  (toolMeta.modify "ui" (Json.mapObject fun ui => ui.modify "resourceUri" blankPointer)).modify
    "openai/outputTemplate" blankPointer

/-- The value of a field, without the two UI pointers. -/
def apartFromPointers (key : String) (v : Json) : Json :=
  if key = "_meta" then v.mapObject blankUiPointers else v

/-- The entry has every field of the descriptor as it was, and no other, leaving the name and the
description aside. -/
def KeepsFields (descriptor entry : Json) : Prop :=
  ∀ key, key ≠ "name" → key ≠ "description" →
    (entry.get key).map (apartFromPointers key) = (descriptor.get key).map (apartFromPointers key)

/-- A descriptor of nothing but the fields that are written again. -/
def PlainDescriptor (descriptor : Json) : Prop :=
  (∀ key, (descriptor.get key).isSome → key ∈ ["name", "description", "inputSchema", "annotations"]) ∧
    (descriptor.get "annotations").all (fun v => !v.isNull) = true

/-! ## Reading keeps the fields -/

section Reading

variable {m : Fields} {tool : ToolInfo} {key : String}

/-- What an optional field is read as: a null is not told from a field that is missing. -/
theorem optional_some_eq {v w : Option Json} (h : optional some v = some w) :
    w = v.filter fun v => !v.isNull := by
  cases v with
  | none =>
    cases h
    rfl
  | some v =>
    cases v with
    | null =>
      cases h
      rfl
    | bool b | num s | str s | arr items | obj fields =>
      cases h
      rfl

/-- The fields of a descriptor in the `ToolInfo` it is read as. -/
structure ReadFrom (m : Fields) (tool : ToolInfo) : Prop where
  name : Fields.get m "name" = some (.str tool.name)
  inputSchema : Fields.get m "inputSchema" = some tool.inputSchema
  annotations : tool.annotations = (Fields.get m "annotations").filter fun v => !v.isNull
  title : tool.title.map Json.str = (Fields.get m "title").filter fun v => !v.isNull
  outputSchema : tool.outputSchema = (Fields.get m "outputSchema").filter fun v => !v.isNull
  toolMeta : tool.toolMeta = (Fields.get m "_meta").filter fun v => !v.isNull
  extra : tool.extra = m.filter fun kv => kv.1 ∉ ToolInfo.fieldNames

theorem optional_asStr_eq {v : Option Json} {w : Option String} (h : optional Json.asStr v = some w) :
    w.map Json.str = v.filter fun v => !v.isNull := by
  cases v with
  | none =>
    cases h
    rfl
  | some v =>
    cases v with
    | null | str s =>
      cases h
      rfl
    | bool b | num s | arr items | obj fields => cases h

theorem required_asStr_eq {v : Option Json} {s : String} (h : required Json.asStr v = some s) :
    v = some (.str s) := by
  obtain ⟨v, rfl, h⟩ := Option.bind_eq_some_iff.1 h
  cases v with
  | str s' =>
    cases h
    rfl
  | null | bool b | num s | arr items | obj fields => cases h

theorem readFrom_of_fromJson (h : ToolInfo.fromJson (.obj m) = some tool) : ReadFrom m tool := by
  obtain ⟨v₁, h₁, h⟩ := Option.bind_eq_some_iff.1 h
  obtain ⟨name, hname, h⟩ := Option.bind_eq_some_iff.1 h
  obtain ⟨v₂, h₂, h⟩ := Option.bind_eq_some_iff.1 h
  obtain ⟨description, -, h⟩ := Option.bind_eq_some_iff.1 h
  obtain ⟨v₃, h₃, h⟩ := Option.bind_eq_some_iff.1 h
  obtain ⟨inputSchema, hschema, h⟩ := Option.bind_eq_some_iff.1 h
  obtain ⟨v₄, h₄, h⟩ := Option.bind_eq_some_iff.1 h
  obtain ⟨annotations, hannotations, h⟩ := Option.bind_eq_some_iff.1 h
  obtain ⟨v₅, h₅, h⟩ := Option.bind_eq_some_iff.1 h
  obtain ⟨title, htitle, h⟩ := Option.bind_eq_some_iff.1 h
  obtain ⟨v₆, h₆, h⟩ := Option.bind_eq_some_iff.1 h
  obtain ⟨outputSchema, houtput, h⟩ := Option.bind_eq_some_iff.1 h
  obtain ⟨v₇, h₇, h⟩ := Option.bind_eq_some_iff.1 h
  obtain ⟨toolMeta, hmeta, h⟩ := Option.bind_eq_some_iff.1 h
  cases h
  refine ⟨?_, ?_, ?_, ?_, ?_, ?_, rfl⟩
  · rw [Fields.get_of_field h₁]
    exact required_asStr_eq hname
  · rw [Fields.get_of_field h₃]
    obtain ⟨v, rfl, hv⟩ := Option.bind_eq_some_iff.1 hschema
    cases hv
    rfl
  · rw [Fields.get_of_field h₄]
    exact optional_some_eq hannotations
  · rw [Fields.get_of_field h₅]
    exact optional_asStr_eq htitle
  · rw [Fields.get_of_field h₆]
    exact optional_some_eq houtput
  · rw [Fields.get_of_field h₇]
    exact optional_some_eq hmeta

/-- Only an object is read as a descriptor. -/
theorem object_of_fromJson {v : Json} (h : ToolInfo.fromJson v = some tool) :
    ∃ m, v = .obj m ∧ ReadFrom m tool := by
  cases v with
  | obj m => exact ⟨m, rfl, readFrom_of_fromJson h⟩
  | null | bool b | num s | str s | arr items => cases h

end Reading

/-! ## The catalog keeps the fields -/

section Kept

variable {m : Fields} {key : String}

theorem get_append (m n : Fields) (key : String) :
    Fields.get (m ++ n) key = (Fields.get m key).or (Fields.get n key) :=
  List.lookup_append

theorem get_toList (k : String) (v : Option Json) (key : String) :
    Fields.get (v.map fun w => (k, w)).toList key = if key = k then v else none := by
  cases v with
  | none => simp
  | some w => simp

theorem get_filter_notMem (names : List String) (m : Fields) (key : String) :
    Fields.get (m.filter fun kv => kv.1 ∉ names) key =
      if key ∈ names then none else Fields.get m key := by
  induction m with
  | nil => simp
  | cons kv m ih =>
    obtain ⟨k, w⟩ := kv
    by_cases hk : k ∈ names
    · rw [List.filter_cons_of_neg (by simpa using hk), ih, Fields.get_cons]
      by_cases hkey : key ∈ names
      · rw [if_pos hkey, if_pos hkey]
      · have hne : key ≠ k := by
          rintro rfl
          exact hkey hk
        rw [if_neg hkey, if_neg hkey, if_neg hne]
    · rw [List.filter_cons_of_pos (by simpa using hk), Fields.get_cons, Fields.get_cons, ih]
      by_cases hkey : key = k
      · subst hkey
        rw [if_pos rfl, if_neg hk, if_pos rfl]
      · rw [if_neg hkey, if_neg hkey]

theorem modify_modify (m : Fields) (key : String) (f g : Json → Json) :
    (m.modify key f).modify key g = m.modify key (g ∘ f) := by
  induction m with
  | nil => rfl
  | cons kv m ih =>
    obtain ⟨k, w⟩ := kv
    by_cases hk : key = k
    · simp [Fields.modify, hk]
    · simp [Fields.modify, hk, ih]

theorem modify_comm (m : Fields) {k₁ k₂ : String} (h : k₁ ≠ k₂) (f g : Json → Json) :
    (m.modify k₁ f).modify k₂ g = (m.modify k₂ g).modify k₁ f := by
  induction m with
  | nil => rfl
  | cons kv m ih =>
    obtain ⟨k, w⟩ := kv
    by_cases h₁ : k₁ = k
    · subst h₁
      simp [Fields.modify, h.symm]
    · by_cases h₂ : k₂ = k
      · subst h₂
        simp [Fields.modify, h]
      · simp [Fields.modify, h₁, h₂, ih]

/-- Wrapping a URI is an edit of the string at its key. -/
theorem wrapUriField_eq_modify (m : Fields) (key endpoint : String) :
    wrapUriField m key endpoint = m.modify key fun v =>
      match v with
      | .str uri => .str (maybeEncodeResourceUri endpoint uri false)
      | v => v := by
  induction m with
  | nil => rfl
  | cons kv m ih =>
    obtain ⟨k, w⟩ := kv
    unfold wrapUriField at ih ⊢
    by_cases hk : key = k
    · subst hk
      cases w <;> simp [Fields.modify, Fields.insert, Json.asStr]
    · rw [Fields.get_cons, if_neg hk, Fields.modify, if_neg hk, ← ih]
      split
      · simp [Fields.insert, hk]
      · rfl

/-- Wrapping the pointers changes nothing apart from them. -/
theorem blank_rewriteMetaUiPointers (toolMeta : Fields) (endpoint : String) :
    blankUiPointers (rewriteMetaUiPointers toolMeta endpoint) = blankUiPointers toolMeta := by
  have hne : "openai/outputTemplate" ≠ "ui" := by decide
  unfold blankUiPointers rewriteMetaUiPointers
  rw [wrapUriField_eq_modify, modify_comm _ hne, modify_modify, modify_modify]
  congr 1
  · congr 1
    funext v
    cases v with
    | obj ui =>
      show Json.obj ((wrapUriField ui "resourceUri" endpoint).modify "resourceUri" blankPointer) = _
      rw [wrapUriField_eq_modify, modify_modify]
      show Json.obj _ = Json.obj _
      congr 2
      funext w
      cases w <;> rfl
    | null | bool b | num s | str s | arr items => rfl
  · funext w
    cases w <;> rfl

theorem apart_catalogMeta (skip : Bool) (endpoint : String) (toolMeta : Option Json) :
    (catalogMeta skip endpoint toolMeta).map (apartFromPointers "_meta") =
      toolMeta.map (apartFromPointers "_meta") := by
  unfold catalogMeta
  split
  · rfl
  · rw [Option.map_map]
    congr 1
    funext v
    cases v with
    | obj fields =>
      show Json.obj (blankUiPointers (rewriteMetaUiPointers fields endpoint)) = _
      rw [blank_rewriteMetaUiPointers]
      rfl
    | null | bool b | num s | str s | arr items => rfl

variable {A : Type} [McpAdapter A]

/-- **The catalog keeps every field** but the name and the description, apart from the pointers, of a
descriptor none of whose named fields is null. -/
theorem catalog_keeps_fields {tool : ToolInfo} (hread : ReadFrom m tool)
    (hnull : ∀ key ∈ ToolInfo.fieldNames, (Fields.get m key).all fun v => !v.isNull) (skip : Bool)
    (endpoint : String) (entry : RegisteredAdapter A) :
    KeepsFields (.obj m) (catalogTool skip endpoint entry tool).toJson := by
  have hfilter (key : String) (hkey : key ∈ ToolInfo.fieldNames) :
      ((Fields.get m key).filter fun v => !v.isNull) = Fields.get m key := by
    have h := hnull key hkey
    cases hget : Fields.get m key with
    | none => rfl
    | some v =>
      rw [hget] at h
      exact Option.filter_eq_some_iff.2 ⟨rfl, h⟩
  have hannotations := hread.annotations.trans (hfilter "annotations" (by decide))
  have htitle := hread.title.trans (hfilter "title" (by decide))
  have houtput := hread.outputSchema.trans (hfilter "outputSchema" (by decide))
  have hmeta := hread.toolMeta.trans (hfilter "_meta" (by decide))
  have htitles : (tool.title.map fun s => ("title", Json.str s)) =
      (tool.title.map Json.str).map fun v => ("title", v) := by rw [Option.map_map]; rfl
  intro key hname hdescription
  unfold ToolInfo.toJson
  rw [Json.get_obj, Json.get_obj]
  simp only [catalogTool, get_append, htitles, get_toList, Fields.get_cons, Fields.get_nil, if_neg hname,
    if_neg hdescription, hread.extra, get_filter_notMem]
  by_cases hschema : key = "inputSchema"
  · subst hschema
    simp [hread.inputSchema]
  by_cases hann : key = "annotations"
  · subst hann
    simp [hannotations, ToolInfo.fieldNames]
  by_cases htit : key = "title"
  · subst htit
    simp [htitle, ToolInfo.fieldNames]
  by_cases hout : key = "outputSchema"
  · subst hout
    simp [houtput, ToolInfo.fieldNames]
  by_cases hm : key = "_meta"
  · subst hm
    have happart := apart_catalogMeta skip endpoint tool.toolMeta
    rw [hmeta] at happart
    simpa [ToolInfo.fieldNames, hmeta] using happart
  have hextra : key ∉ ToolInfo.fieldNames := by
    simp [ToolInfo.fieldNames, hname, hdescription, hschema, hann, htit, hout, hm]
  simp [hschema, hann, htit, hout, hm, hextra]

end Kept

/-! ## The response does not -/

section Response

variable {A : Type} [McpAdapter A]

/-- What the adapters list when `upstream` is what their last `tools/list` came back with. -/
def listedFrom (jsonError : Json → AdapterError) (upstream : String → RegisteredAdapter A → Except AdapterError Json)
    (endpoint : String) (entry : RegisteredAdapter A) : Except AdapterError (List ToolInfo) :=
  (upstream endpoint entry).bind (listToolsOf jsonError)

/-- An active endpoint lists a descriptor, which is read as a tool that is not disabled there. -/
structure Lists (upstream : String → RegisteredAdapter A → Except AdapterError Json) (entries : Entries A)
    (endpoint : String) (entry : RegisteredAdapter A) (descriptor : Json) (tool : ToolInfo) : Prop where
  registered : entries.lookup endpoint = some entry
  active : entry.disabled = false
  listed : ∃ result items, upstream endpoint entry = .ok result ∧ result.get "tools" = some (.arr items) ∧
    descriptor ∈ items ∧ (items.mapM ToolInfo.fromJson).isSome
  read : ToolInfo.fromJson descriptor = some tool
  enabled : tool.name ∉ entry.disabledTools

theorem mem_of_mapM {α β : Type} {f : α → Option β} {xs : List α} {ys : List β} {x : α} {y : β}
    (h : xs.mapM f = some ys) (hx : x ∈ xs) (hf : f x = some y) : y ∈ ys := by
  induction xs generalizing ys with
  | nil => cases hx
  | cons x' xs ih =>
    simp only [List.mapM_cons, Option.bind_eq_bind, Option.bind_eq_some_iff] at h
    obtain ⟨y', hy', ys', hys', heq⟩ := h
    cases heq
    rcases List.mem_cons.1 hx with rfl | hx
    · rw [hf] at hy'
      cases hy'
      exact List.mem_cons_self
    · exact List.mem_cons_of_mem _ (ih hys' hx)

variable {upstream : String → RegisteredAdapter A → Except AdapterError Json} {entries : Entries A}
  {endpoint : String} {entry : RegisteredAdapter A} {descriptor : Json} {tool : ToolInfo}

omit [McpAdapter A] in
/-- A descriptor that is listed is a row of the catalog. -/
theorem Lists.row (jsonError : Json → AdapterError) (h : Lists upstream entries endpoint entry descriptor tool) :
    ⟨endpoint, entry, tool⟩ ∈ rows (listedFrom jsonError upstream) entries := by
  obtain ⟨result, items, hresult, htools, hmem, hread⟩ := h.listed
  obtain ⟨tools, hmapM⟩ := Option.isSome_iff_exists.1 hread
  have hlisted : listedFrom jsonError upstream endpoint entry = .ok tools := by
    unfold listedFrom
    rw [hresult]
    show listToolsOf jsonError result = _
    unfold listToolsOf
    rw [htools]
    dsimp only
    rw [hmapM]
  refine List.mem_flatMap.2 ⟨⟨endpoint, entry⟩, AList.mem_entries_iff.2 h.registered, ?_⟩
  unfold entryRows
  rw [if_neg (by simp [h.active]), hlisted]
  refine List.mem_map.2 ⟨tool, List.mem_filter.2 ⟨mem_of_mapM hmapM hmem h.read, ?_⟩, rfl⟩
  simpa using h.enabled

def CatalogRow.toolEntry (skip : Bool) (r : CatalogRow A) : Json :=
  EndaraRelay.toolEntry (catalogTool skip r.endpoint r.entry r.tool)

/-- The tools served to everybody are those of the rows. -/
theorem servedTools_perm (listed : String → RegisteredAdapter A → Except AdapterError (List ToolInfo))
    (entries : Entries A) : (servedTools none (buildCatalog listed entries)).Perm
      ((rows listed entries).map fun r => catalogTool (skipPrefix entries) r.endpoint r.entry r.tool) := by
  unfold servedTools
  rw [buildCatalog_eq]
  exact List.perm_insertionSort _ _

/-- The fields of an entry of the response. -/
theorem get_toolEntry {key : String} (hname : key ≠ "name") (hdescription : key ≠ "description")
    (tool : ToolInfo) : (toolEntry tool).get key =
      if key = "inputSchema" then some tool.inputSchema
      else if key = "annotations" then tool.annotations else none := by
  unfold toolEntry
  rw [Json.get_obj, get_append, get_toList]
  simp only [Fields.get_cons, Fields.get_nil, if_neg hname, if_neg hdescription]
  by_cases hschema : key = "inputSchema"
  · simp [hschema]
  · simp [hschema]

/-- Which descriptors an entry keeps the fields of. -/
theorem keepsFields_toolEntry_iff {m : Fields} (hread : ReadFrom m tool) (skip : Bool) (endpoint : String)
    (entry : RegisteredAdapter A) :
    KeepsFields (.obj m) (toolEntry (catalogTool skip endpoint entry tool)) ↔ PlainDescriptor (.obj m) := by
  constructor
  · intro h
    constructor
    · intro key hsome
      by_contra hkey
      simp only [List.mem_cons, List.not_mem_nil, or_false, not_or] at hkey
      obtain ⟨hname, hdescription, hschema, hannotations⟩ := hkey
      have hkeep := h key hname hdescription
      rw [get_toolEntry hname hdescription, if_neg hschema, if_neg hannotations] at hkeep
      rw [Option.map_eq_none_iff.1 hkeep.symm] at hsome
      cases hsome
    · have hkeep := h "annotations" (by decide) (by decide)
      rw [get_toolEntry (by decide) (by decide), if_neg (by decide), if_pos rfl] at hkeep
      have hann : (catalogTool skip endpoint entry tool).annotations = tool.annotations := rfl
      rw [hann, hread.annotations, Json.get_obj] at hkeep
      rw [Json.get_obj]
      cases hget : Fields.get m "annotations" with
      | none => rfl
      | some v =>
        rw [hget] at hkeep
        cases v with
        | null => cases hkeep
        | bool b | num s | str s | arr items | obj fields => rfl
  · rintro ⟨hfields, hannotations⟩ key hname hdescription
    rw [get_toolEntry hname hdescription]
    by_cases hschema : key = "inputSchema"
    · subst hschema
      rw [if_pos rfl, Json.get_obj, hread.inputSchema]
      rfl
    · rw [if_neg hschema]
      by_cases hann : key = "annotations"
      · subst hann
        have hsame : tool.annotations = (Json.obj m).get "annotations" := by
          rw [Json.get_obj] at hannotations ⊢
          rw [hread.annotations]
          cases hget : Fields.get m "annotations" with
          | none => rfl
          | some v =>
            rw [hget] at hannotations
            exact Option.filter_eq_some_iff.2 ⟨rfl, hannotations⟩
        rw [if_pos rfl, ← hsame]
        rfl
      · rw [if_neg hann]
        have hnone : (Json.obj m).get key = none := by
          by_contra hsome
          have hmem := hfields key (Option.isSome_iff_ne_none.2 hsome)
          simp [hname, hdescription, hschema, hann] at hmem
        rw [hnone]

/-- **Which descriptors survive the relay.** The response has an entry for every tool that an active
endpoint lists, and it keeps the fields of the descriptor exactly when the descriptor is plain. -/
theorem tool_descriptor_survives_iff (jsonError : Json → AdapterError) (texts : MetaToolTexts)
    (writeRoots : List String) (h : Lists upstream entries endpoint entry descriptor tool) :
    toolEntry (catalogTool (skipPrefix entries) endpoint entry tool) ∈
        mcpToolsList false texts writeRoots none (buildCatalog (listedFrom jsonError upstream) entries) ∧
      (KeepsFields descriptor (toolEntry (catalogTool (skipPrefix entries) endpoint entry tool)) ↔
        PlainDescriptor descriptor) := by
  obtain ⟨m, rfl, hread⟩ := object_of_fromJson h.read
  refine ⟨?_, keepsFields_toolEntry_iff hread _ _ _⟩
  rw [(mcpToolsList_perm texts writeRoots none _).mem_iff]
  refine List.mem_append_left _ (List.mem_map_of_mem ?_)
  rw [(servedTools_perm _ entries).mem_iff]
  exact List.mem_map.2 ⟨_, h.row jsonError, rfl⟩

end Response

/-! ## A descriptor with a title -/

/-- A descriptor of the tool `send`, with fields behind the two it must have. -/
def sendDescriptor (more : Fields) : Json :=
  .obj ([("name", .str "send"), ("inputSchema", typed "object")] ++ more)

def sendTool (annotations : Option Json) (title : Option String) : ToolInfo where
  name := "send"
  description := none
  inputSchema := typed "object"
  annotations := annotations
  title := title
  outputSchema := none
  toolMeta := none
  extra := []

def sendEntry : RegisteredAdapter FixedAdapter := freshEntry {} "http" none (some "mail")

def sendEntries : Entries FixedAdapter := (∅ : Entries FixedAdapter).insert "mail" sendEntry

def sendLists (descriptor : Json) (_ : String) (_ : RegisteredAdapter FixedAdapter) : Except AdapterError Json :=
  .ok (.obj [("tools", .arr [descriptor])])

def blankTexts : MetaToolTexts := ⟨"", "", "", ""⟩

theorem send_lists {descriptor : Json} {tool : ToolInfo} (h : ToolInfo.fromJson descriptor = some tool) :
    Lists (sendLists descriptor) sendEntries "mail" sendEntry descriptor tool where
  registered := rfl
  active := rfl
  listed := by
    refine ⟨_, [descriptor], rfl, rfl, List.mem_singleton_self _, ?_⟩
    simp [List.mapM_cons, h]
  read := h
  enabled := List.not_mem_nil

/-- Annotations come through. -/
theorem annotations_survive :
    KeepsFields (sendDescriptor [("annotations", .obj [("readOnlyHint", .bool true)])])
      (toolEntry (catalogTool (skipPrefix sendEntries) "mail" sendEntry
        (sendTool (some (.obj [("readOnlyHint", .bool true)])) none))) := by
  have hread : ToolInfo.fromJson (sendDescriptor [("annotations", .obj [("readOnlyHint", .bool true)])]) =
      some (sendTool (some (.obj [("readOnlyHint", .bool true)])) none) := rfl
  refine (tool_descriptor_survives_iff (fun _ => .notInitialized) blankTexts [] (send_lists hread)).2.2 ?_
  refine ⟨fun key hsome => ?_, rfl⟩
  by_contra hkey
  simp only [List.mem_cons, List.not_mem_nil, or_false, not_or] at hkey
  simp [sendDescriptor, hkey] at hsome

theorem title_in_catalog : KeepsFields (sendDescriptor [("title", .str "Send a mail")])
    (catalogTool true "mail" sendEntry (sendTool none (some "Send a mail"))).toJson :=
  catalog_keeps_fields (readFrom_of_fromJson rfl) (by decide) _ _ _

/-- **A title does not**: the only upstream lists one tool, which has a title, and the entry of the tool
has none. -/
theorem title_dropped :
    Lists (sendLists (sendDescriptor [("title", .str "Send a mail")])) sendEntries "mail" sendEntry
        (sendDescriptor [("title", .str "Send a mail")]) (sendTool none (some "Send a mail")) ∧
      mcpToolsList false blankTexts [] none (buildCatalog (listedFrom (fun _ => .notInitialized)
          (sendLists (sendDescriptor [("title", .str "Send a mail")]))) sendEntries) =
        [listToolsDefinition "", searchToolsDefinition "",
          .obj [("name", .str "send"), ("description", .str "[mail]"), ("inputSchema", typed "object")]] ∧
      ¬ KeepsFields (sendDescriptor [("title", .str "Send a mail")])
        (.obj [("name", .str "send"), ("description", .str "[mail]"), ("inputSchema", typed "object")]) := by
  refine ⟨send_lists rfl, rfl, fun h => ?_⟩
  have htitle := h "title" (by decide) (by decide)
  cases htitle

end EndaraRelay
