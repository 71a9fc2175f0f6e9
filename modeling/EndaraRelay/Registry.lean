import Mathlib.Data.List.Sort
import EndaraRelay.Lib.Table
import EndaraRelay.Adapter
import EndaraRelay.Prefix
import EndaraRelay.ToolCallRewrite

/-!
# The adapter registry

`registry.rs`, one operation at a time: the entries, the merged catalog built from them, and the
routing of tool calls, resource reads and prompt gets. How these interleave with each other is the
business of `CatalogCache`.

**The catalog.** `buildCatalog` goes over the entries in their order of iteration. Each tool of a
non-disabled entry is pushed on the catalog under its final name and inserted into the lookup map
under the same name, where a later insertion wins. With at most one active endpoint names are not
prefixed. What an adapter lists is the parameter `listed`, so that the tool caches can be put in
its place.

**Routing.** `routeDecision` says what `route_tool_call` does with a call: reject it, answer it with
a validation failure, or hand it to an adapter. Validation against a JSON schema is the parameter
`validateArguments`.
-/

namespace EndaraRelay

open Verif

/-- Metadata stored alongside each adapter in the registry. -/
structure RegisteredAdapter (A : Type) where
  adapter : A
  transport : String
  description : Option String
  toolPrefix : Option String
  disabled : Bool
  disabledTools : List String
  toolCache : Option (List ToolInfo)
  toolCacheEpoch : Nat

/-- The adapters of the registry by endpoint name. -/
abbrev Entries (A : Type) := Table String (RegisteredAdapter A)

/-- The reverse-lookup map, most recent insertion first: final name to endpoint and raw name. -/
abbrev Lookup := List (String × (String × String))

/-- The merged catalog with its reverse-lookup map. -/
structure Catalog where
  tools : List ToolInfo
  lookup : Lookup

variable {A : Type} [McpAdapter A]

/-- The entry `register` inserts. -/
def freshEntry (adapter : A) (transport : String) (description toolPrefix : Option String) :
    RegisteredAdapter A where
  adapter := adapter
  transport := transport
  description := description
  toolPrefix := toolPrefix
  disabled := false
  disabledTools := []
  toolCache := none
  toolCacheEpoch := 0

namespace RegisteredAdapter

def isHealthy (entry : RegisteredAdapter A) : Bool := (McpAdapter.health entry.adapter).isHealthy

/-- Clear the tool cache and bump its epoch. -/
def invalidateToolCache (entry : RegisteredAdapter A) : RegisteredAdapter A :=
  { entry with toolCache := none, toolCacheEpoch := entry.toolCacheEpoch + 1 }

/-- What `cached_list_tools` returns. `fresh` says whether a cached list is inside its freshness
window. -/
def cachedListTools (entry : RegisteredAdapter A) (fresh : Bool) :
    Except AdapterError (List ToolInfo) :=
  match entry.isHealthy, entry.toolCache, fresh with
  | true, some tools, true => .ok tools
  | _, _, _ => McpAdapter.listTools entry.adapter

end RegisteredAdapter

/-! ## The merged catalog -/

/-- The number of non-disabled adapters. -/
def activeCount (entries : Entries A) : Nat :=
  (entries.entries.filter fun e => !e.2.disabled).length

/-- Single-server mode: names and URIs pass through unprefixed. -/
def skipPrefix (entries : Entries A) : Bool := activeCount entries ≤ 1

def effectivePrefix (skip : Bool) (entry : RegisteredAdapter A) : Option String :=
  if skip then none else entry.toolPrefix

/-- The name a tool is advertised under. -/
def finalName (skip : Bool) (entry : RegisteredAdapter A) (raw : String) : String :=
  match effectivePrefix skip entry with
  | some pfx => encodeToolName pfx none raw
  | none => raw

/-- The description with the label of the endpoint, and a mark when it is not healthy. -/
def enrichedDescription (isHealthy : Bool) (label : String) (description : Option String) :
    Option String :=
  if isHealthy then
    match description with
    | some desc => some ("[" ++ label ++ "] " ++ desc)
    | none => some ("[" ++ label ++ "]")
  else
    match description with
    | some desc => some ("[⚠️ UNAVAILABLE] [" ++ label ++ "] " ++ desc)
    | none => some ("[⚠️ UNAVAILABLE] [" ++ label ++ "]")

/-- The `_meta` of an advertised tool: its UI pointers are wrapped unless names pass through. -/
def catalogMeta (skip : Bool) (endpointName : String) (toolMeta : Option Json) : Option Json :=
  if skip then toolMeta
  else toolMeta.map (Json.mapObject fun m => rewriteMetaUiPointers m endpointName)

/-- The descriptor pushed on the catalog for a tool of an entry. -/
def catalogTool (skip : Bool) (endpointName : String) (entry : RegisteredAdapter A)
    (tool : ToolInfo) : ToolInfo :=
  { tool with
    name := finalName skip entry tool.name
    description := enrichedDescription entry.isHealthy (entry.description.getD endpointName)
      tool.description
    toolMeta := catalogMeta skip endpointName tool.toolMeta }

/-- Push one tool, unless it is disabled on its endpoint. -/
def addTool (skip : Bool) (endpointName : String) (entry : RegisteredAdapter A) (acc : Catalog)
    (tool : ToolInfo) : Catalog :=
  if tool.name ∈ entry.disabledTools then acc
  else
    { tools := acc.tools ++ [catalogTool skip endpointName entry tool]
      lookup := (finalName skip entry tool.name, (endpointName, tool.name)) :: acc.lookup }

/-- One turn of the loop over the entries. A disabled entry is skipped, and so is one whose tools
cannot be listed. -/
def addEndpoint (skip : Bool) (endpointName : String) (entry : RegisteredAdapter A)
    (listed : Except AdapterError (List ToolInfo)) (acc : Catalog) : Catalog :=
  if entry.disabled then acc
  else
    match listed with
    | .ok tools => tools.foldl (addTool skip endpointName entry) acc
    | .error _ => acc

/-- `catalog.sort_by(|a, b| a.name.cmp(&b.name))`, a stable sort. -/
def sortByName (tools : List ToolInfo) : List ToolInfo :=
  tools.insertionSort fun a b => a.name ≤ b.name

def Catalog.sorted (acc : Catalog) : Catalog := { acc with tools := sortByName acc.tools }

/-- Build the merged catalog from all entries. -/
def buildCatalog (listed : String → RegisteredAdapter A → Except AdapterError (List ToolInfo))
    (entries : Entries A) : Catalog :=
  (entries.entries.foldl (fun acc e => addEndpoint (skipPrefix entries) e.1 e.2 (listed e.1 e.2) acc)
    ⟨[], []⟩).sorted

/-- What the adapters list, without a cache. -/
def listedByAdapter (_ : String) (entry : RegisteredAdapter A) : Except AdapterError (List ToolInfo) :=
  McpAdapter.listTools entry.adapter

/-! ## Routing tool calls -/

/-- What becomes of a tool call. -/
inductive RouteDecision (A : Type) where
  /-- An early rejection, before any adapter is consulted. -/
  | rejected (err : AdapterError)
  /-- The arguments do not match the schema; the call is answered with this result. -/
  | invalid (result : Json)
  /-- `call_tool` on this adapter. -/
  | called (endpoint : String) (adapter : A) (tool : String)

/-- Validate the arguments of a call against the first catalog tool of the called name; `some` is
the answer to a call that fails. -/
def validationFailure (validateArguments : Option (String → Json → Json → Option Json))
    (catalog : Catalog) (prefixedName : String) (arguments : Json) : Option Json := do
  let validate ← validateArguments
  let toolInfo ← catalog.tools.find? fun t => t.name = prefixedName
  validate prefixedName toolInfo.inputSchema arguments

/-- Steps of `route_tool_call` after the lookup: the entry is fetched anew from the registry and
checked, then the arguments are validated. -/
def dispatchDecision (validateArguments : Option (String → Json → Json → Option Json))
    (catalog : Catalog) (entries : Entries A) (prefixedName endpoint tool : String)
    (arguments : Json) : RouteDecision A :=
  match entries.lookup endpoint with
  | none => .rejected (.protocolError ("no adapter found for endpoint '" ++ endpoint ++ "'"))
  | some entry =>
    if entry.disabled then
      .rejected (.protocolError ("endpoint '" ++ endpoint ++ "' is disabled"))
    else if !entry.isHealthy then
      .rejected (.protocolError ("tool '" ++ tool ++ "' is currently unavailable: endpoint '" ++
        endpoint ++ "' is not healthy"))
    else if tool ∈ entry.disabledTools then
      .rejected (.protocolError ("tool '" ++ tool ++ "' is disabled on endpoint '" ++ endpoint ++ "'"))
    else
      match validationFailure validateArguments catalog prefixedName arguments with
      | some result => .invalid result
      | none => .called endpoint entry.adapter tool

/-- What `route_tool_call` does with a call, given the catalog it consulted. -/
def routeDecision (validateArguments : Option (String → Json → Json → Option Json))
    (catalog : Catalog) (entries : Entries A) (prefixedName : String) (arguments : Json) :
    RouteDecision A :=
  match catalog.lookup.lookup prefixedName with
  | none => .rejected (.protocolError ("no tool found for prefixed name '" ++ prefixedName ++ "'"))
  | some (endpoint, tool) =>
    dispatchDecision validateArguments catalog entries prefixedName endpoint tool arguments

/-- **What a call that reaches an adapter says**: which entry it went to, and that every check
passed. -/
theorem routeDecision_eq_called
    {validateArguments : Option (String → Json → Json → Option Json)} {catalog : Catalog}
    {entries : Entries A} {prefixedName endpoint tool : String} {arguments : Json} {adapter : A} :
    routeDecision validateArguments catalog entries prefixedName arguments =
        .called endpoint adapter tool ↔
      catalog.lookup.lookup prefixedName = some (endpoint, tool) ∧
        ∃ entry, entries.lookup endpoint = some entry ∧ entry.adapter = adapter ∧
          entry.disabled = false ∧ entry.isHealthy = true ∧ tool ∉ entry.disabledTools ∧
          validationFailure validateArguments catalog prefixedName arguments = none := by
  unfold routeDecision
  cases hl : catalog.lookup.lookup prefixedName with
  | none => simp
  | some p =>
    obtain ⟨ep, t⟩ := p
    unfold dispatchDecision
    constructor
    · intro h
      dsimp only at h
      split at h
      · cases h
      · next entry hentry =>
        split at h
        · cases h
        · next hd =>
          split at h
          · cases h
          · next hh =>
            split at h
            · cases h
            · next ht =>
              split at h
              · cases h
              · next hv =>
                cases h
                exact ⟨rfl, entry, hentry, rfl, by simpa using hd, by simpa using hh, ht, hv⟩
    · rintro ⟨⟨⟩, entry, hentry, rfl, hd, hh, ht, hv⟩
      simp [hentry, hd, hh, ht, hv]

/-- The answer to a tool call. URIs in the result of an adapter are put behind its endpoint, unless
a single endpoint is active. -/
def routeToolCall (validateArguments : Option (String → Json → Json → Option Json))
    (catalog : Catalog) (entries : Entries A) (prefixedName : String) (arguments : Json)
    (requestParams : Fields) : Except AdapterError Json :=
  match routeDecision validateArguments catalog entries prefixedName arguments with
  | .rejected err => .error err
  | .invalid result => .ok result
  | .called endpoint adapter tool =>
    (McpAdapter.callToolWithRequestParams adapter tool arguments requestParams).map
      fun v => rewriteToolCallResult v endpoint (skipPrefix entries)

/-! ## Resources and prompts -/

/-- Wrap the `uri` of a listed resource. -/
def wrapListedResource (endpointName : String) (skipWrap : Bool) (item : Json) : Json :=
  match (item.get "uri").bind Json.asStr with
  | some uri => item.mapObject fun m =>
      m.insert "uri" (.str (maybeEncodeResourceUri endpointName uri skipWrap))
  | none => item

/-- `resources/list` across every non-disabled adapter, each item with the endpoint it is from. -/
def listedResources (entries : Entries A) : List (String × Json) :=
  entries.entries.flatMap fun e =>
    if e.2.disabled then []
    else
      match McpAdapter.listResources e.2.adapter with
      | .ok items => items.map fun item => (e.1, item)
      | .error _ => []

def listResources (entries : Entries A) : List Json :=
  (listedResources entries).map fun p => wrapListedResource p.1 (skipPrefix entries) p.2

/-- The first block of `route_resource_read`: which endpoint a URI is read from, and under which
original URI. -/
def resolveResource (entries : Entries A) (wrappedUri : String) :
    Except AdapterError (String × String) :=
  match maybeDecodeResourceUri wrappedUri (skipPrefix entries) with
  | .error e => .error (.protocolError
      ("invalid resource URI '" ++ wrappedUri ++ "': " ++ e.display))
  | .ok (some name, originalUri) => .ok (name, originalUri)
  | .ok (none, originalUri) =>
    match entries.entries.find? fun e => !e.2.disabled with
    | some e => .ok (e.1, originalUri)
    | none => .error (.protocolError
        ("no active endpoint to serve resource '" ++ wrappedUri ++ "'"))

/-- The checks shared by the dispatchers of resource reads and prompt gets; `what` names the thing
asked for. -/
def dispatchTo (entries : Entries A) (endpointName what : String) (call : A → Except AdapterError Json) :
    Except AdapterError Json :=
  match entries.lookup endpointName with
  | none => .error (.protocolError ("no adapter found for endpoint '" ++ endpointName ++ "'"))
  | some entry =>
    if entry.disabled then
      .error (.protocolError ("endpoint '" ++ endpointName ++ "' is disabled"))
    else if !entry.isHealthy then
      .error (.protocolError (what ++ " is currently unavailable: endpoint '" ++ endpointName ++
        "' is not healthy"))
    else call entry.adapter

def dispatchResourceReadTo (entries : Entries A) (endpointName originalUri : String) :
    Except AdapterError Json :=
  dispatchTo entries endpointName ("resource '" ++ originalUri ++ "'")
    fun adapter => McpAdapter.readResource adapter originalUri

def routeResourceRead (entries : Entries A) (wrappedUri : String) : Except AdapterError Json :=
  match resolveResource entries wrappedUri with
  | .error e => .error e
  | .ok (endpointName, originalUri) => dispatchResourceReadTo entries endpointName originalUri

/-- The lookup map of prompt names that `list_prompts_with_lookup` builds. -/
def promptLookup (entries : Entries A) : Lookup :=
  (entries.entries.flatMap fun e =>
    if e.2.disabled then []
    else
      match McpAdapter.listPrompts e.2.adapter with
      | .ok items => items.filterMap fun item =>
          ((item.get "name").bind Json.asStr).map fun raw =>
            (finalName (skipPrefix entries) e.2 raw, (e.1, raw))
      | .error _ => []).reverse

def dispatchPromptGetTo (entries : Entries A) (endpointName rawName : String)
    (arguments : Option Json) : Except AdapterError Json :=
  dispatchTo entries endpointName ("prompt '" ++ rawName ++ "'")
    fun adapter => McpAdapter.getPrompt adapter rawName arguments

def routePromptGet (entries : Entries A) (prefixedName : String) (arguments : Option Json) :
    Except AdapterError Json :=
  match (promptLookup entries).lookup prefixedName with
  | none => .error (.protocolError
      ("no prompt found for prefixed name '" ++ prefixedName ++ "'"))
  | some (endpoint, rawName) =>
    (dispatchPromptGetTo entries endpoint rawName arguments).map
      fun v => rewritePromptGetResult v endpoint (skipPrefix entries)

end EndaraRelay
