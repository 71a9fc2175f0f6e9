import EndaraRelay.Config
import EndaraRelay.Registry

/-!
# Resource URIs through the merged view

Does a URI that the registry hands out lead back to where it came from? `Emits` collects the places
where the registry emits URIs: listed resources, the `_meta` pointers of advertised tools, the slots
of tool-call results and those of prompt results. Each constructor gives the URIs as the upstream
wrote them and as the registry emits them, slot by slot.

**Emission.** `emits_eq` says what all emitters have in common: the endpoint is registered and
active, and every slot is put through `maybeEncodeResourceUri` with the same `skipPrefix` flag
that the reader uses.

**Reading back.** With one active endpoint the URI is its own original and goes to that endpoint
(`resolve_single`). With several it is decoded, which works for the endpoint names without `/`
(`resolve_wrapped_iff`).

`resource_uris_round_trip_iff` puts the two together. `slash_in_name_breaks_round_trip` is a config
that validation accepts and whose URIs go to another endpoint.
-/

namespace EndaraRelay

variable {A : Type} [McpAdapter A]

/-- The endpoint is registered and not disabled. -/
def IsActive (entries : Entries A) (name : String) : Prop :=
  ∃ entry, entries.lookup name = some entry ∧ entry.disabled = false

/-- The URI of a listed resource. -/
def resourceSlots (item : Json) : List String :=
  ((item.get "uri").bind Json.asStr).toList

/-- The UI pointers in the `_meta` of a tool descriptor. -/
def toolMetaSlots (tool : ToolInfo) : List String :=
  ((tool.toolMeta.bind Json.asObject).map metaUiPointerSlots).getD []

/-- `Emits listed entries name originals emitted`: the upstream of `name` wrote the URIs `originals`,
and the registry emits them as `emitted`. -/
inductive Emits (listed : String → RegisteredAdapter A → Except AdapterError (List ToolInfo))
    (entries : Entries A) : String → List String → List String → Prop
  | listedResource {name : String} {item : Json} :
      (name, item) ∈ listedResources entries →
      Emits listed entries name (resourceSlots item)
        (resourceSlots (wrapListedResource name (skipPrefix entries) item))
  | toolMeta {name : String} {entry : RegisteredAdapter A} {tools : List ToolInfo}
      {tool : ToolInfo} :
      entries.lookup name = some entry → entry.disabled = false → listed name entry = .ok tools →
      tool ∈ tools → tool.name ∉ entry.disabledTools →
      Emits listed entries name (toolMetaSlots tool)
        (toolMetaSlots (catalogTool (skipPrefix entries) name entry tool))
  | toolCallResult {validate : Option (String → Json → Json → Option Json)} {catalog : Catalog}
      {called tool name : String} {adapter : A} {arguments v r : Json} {params : Fields} :
      routeDecision validate catalog entries called arguments = .called name adapter tool →
      McpAdapter.callToolWithRequestParams adapter tool arguments params = .ok v →
      routeToolCall validate catalog entries called arguments params = .ok r →
      Emits listed entries name (toolCallResultSlots v) (toolCallResultSlots r)
  | promptGetResult {called raw name : String} {arguments : Option Json} {v r : Json} :
      (promptLookup entries).lookup called = some (name, raw) →
      dispatchPromptGetTo entries name raw arguments = .ok v →
      routePromptGet entries called arguments = .ok r →
      Emits listed entries name (promptGetResultSlots v) (promptGetResultSlots r)

/-- Reading `uri` reaches the endpoint `name` with the URI `original`. -/
def ReadsBack (entries : Entries A) (name original uri : String) : Prop :=
  resolveResource entries uri = .ok (name, original) ∧
    routeResourceRead entries uri = dispatchResourceReadTo entries name original

/-! ## What the emitters have in common -/

theorem resourceSlots_wrap (name : String) (skip : Bool) (item : Json) :
    resourceSlots (wrapListedResource name skip item) =
      (resourceSlots item).map fun uri => maybeEncodeResourceUri name uri skip := by
  unfold resourceSlots wrapListedResource
  split
  · next uri h =>
    cases item with
    | obj m => simp_all [Json.mapObject, Fields.get_insert, Json.asStr]
    | _ => simp [Json.get, Json.asObject] at h
  · next h => simp [h]

theorem toolMetaSlots_catalogTool (skip : Bool) (name : String) (entry : RegisteredAdapter A)
    (tool : ToolInfo) :
    toolMetaSlots (catalogTool skip name entry tool) =
      (toolMetaSlots tool).map fun uri => maybeEncodeResourceUri name uri skip := by
  cases skip with
  | true => simp [toolMetaSlots, catalogTool, catalogMeta, maybeEncodeResourceUri]
  | false =>
    simp only [toolMetaSlots, catalogTool, catalogMeta, Bool.false_eq_true, if_false]
    cases tool.toolMeta with
    | none => rfl
    | some v =>
      cases v with
      | obj m => exact metaUiPointerSlots_rewrite m name
      | _ => rfl

theorem toolCallResultSlots_maybe (result : Json) (name : String) (skip : Bool) :
    toolCallResultSlots (rewriteToolCallResult result name skip) =
      (toolCallResultSlots result).map fun uri => maybeEncodeResourceUri name uri skip := by
  cases skip with
  | true => simp [rewriteToolCallResult, maybeEncodeResourceUri]
  | false => exact toolCallResultSlots_rewrite result name

theorem promptGetResultSlots_maybe (result : Json) (name : String) (skip : Bool) :
    promptGetResultSlots (rewritePromptGetResult result name skip) =
      (promptGetResultSlots result).map fun uri => maybeEncodeResourceUri name uri skip := by
  cases skip with
  | true => simp [rewritePromptGetResult, maybeEncodeResourceUri]
  | false => exact promptGetResultSlots_rewrite result name

variable {entries : Entries A} {name : String}

omit [McpAdapter A] in
theorem isActive_of_mem {e : Sigma fun _ : String => RegisteredAdapter A} (he : e ∈ entries.entries)
    (hd : e.2.disabled = false) : IsActive entries e.1 :=
  ⟨e.2, AList.mem_entries_iff.1 he, hd⟩

theorem isActive_of_listed {item : Json} (h : (name, item) ∈ listedResources entries) :
    IsActive entries name := by
  obtain ⟨e, he, hmem⟩ := List.mem_flatMap.1 h
  split at hmem
  · cases hmem
  · next hd =>
    split at hmem
    · obtain ⟨_, _, heq⟩ := List.mem_map.1 hmem
      cases heq
      exact isActive_of_mem he (by simpa using hd)
    · cases hmem

theorem isActive_of_called {validate : Option (String → Json → Json → Option Json)} {catalog : Catalog}
    {called name tool : String} {arguments : Json} {adapter : A}
    (h : routeDecision validate catalog entries called arguments = .called name adapter tool) :
    IsActive entries name := by
  obtain ⟨-, entry, hentry, -, hd, -⟩ := routeDecision_eq_called.1 h
  exact ⟨entry, hentry, hd⟩

theorem isActive_of_dispatch {name what : String} {call : A → Except AdapterError Json} {v : Json}
    (h : dispatchTo entries name what call = .ok v) : IsActive entries name := by
  unfold dispatchTo at h
  split at h
  · cases h
  · next entry hentry =>
    split at h
    · cases h
    · next hd => exact ⟨entry, hentry, by simpa using hd⟩

/-- **Every emitter** encodes its slots for an active endpoint, under the registry's wrap flag. -/
theorem emits_eq {listed : String → RegisteredAdapter A → Except AdapterError (List ToolInfo)}
    {originals emitted : List String} (h : Emits listed entries name originals emitted) :
    IsActive entries name ∧
      emitted = originals.map fun uri => maybeEncodeResourceUri name uri (skipPrefix entries) := by
  cases h with
  | listedResource hitem => exact ⟨isActive_of_listed hitem, resourceSlots_wrap _ _ _⟩
  | toolMeta hentry hd _ _ _ => exact ⟨⟨_, hentry, hd⟩, toolMetaSlots_catalogTool _ _ _ _⟩
  | toolCallResult hcalled hv hr =>
    refine ⟨isActive_of_called hcalled, ?_⟩
    simp only [routeToolCall, hcalled, hv, Except.map, Except.ok.injEq] at hr
    rw [← hr, toolCallResultSlots_maybe]
  | promptGetResult hlookup hv hr =>
    refine ⟨isActive_of_dispatch hv, ?_⟩
    simp only [routePromptGet, hlookup, hv, Except.map, Except.ok.injEq] at hr
    rw [← hr, promptGetResultSlots_maybe]

/-! ## Reading back -/

omit [McpAdapter A] in
/-- With at most one active endpoint, the first active one is the only one. -/
theorem find?_active (hskip : skipPrefix entries = true) (h : IsActive entries name) :
    ∃ entry, entries.entries.find? (fun e => !e.2.disabled) = some ⟨name, entry⟩ := by
  obtain ⟨entry, hentry, hd⟩ := h
  have hmem : (⟨name, entry⟩ : Sigma fun _ : String => RegisteredAdapter A) ∈
      entries.entries.filter fun e => !e.2.disabled :=
    List.mem_filter.2 ⟨AList.mem_entries_iff.2 hentry, by simp [hd]⟩
  have hlen : (entries.entries.filter fun e => !e.2.disabled).length ≤ 1 :=
    of_decide_eq_true hskip
  refine ⟨entry, ?_⟩
  rw [← List.head?_filter]
  cases hf : entries.entries.filter fun e => !e.2.disabled with
  | nil => rw [hf] at hmem; cases hmem
  | cons e es =>
    rw [hf] at hmem hlen
    obtain rfl : es = [] := List.length_eq_zero_iff.1 (by simpa using hlen)
    obtain rfl : ⟨name, entry⟩ = e := by simpa using hmem
    rfl

omit [McpAdapter A] in
/-- One active endpoint: a URI is its own original, and goes to that endpoint. -/
theorem resolve_single (hskip : skipPrefix entries = true) (h : IsActive entries name) (uri : String) :
    resolveResource entries uri = .ok (name, uri) := by
  obtain ⟨entry, hfind⟩ := find?_active hskip h
  simp [resolveResource, maybeDecodeResourceUri, hskip, hfind]

omit [McpAdapter A] in
/-- Several active endpoints: a wrapped URI reads back when its endpoint has a name the decoder can
find again. -/
theorem resolve_wrapped_iff (hskip : skipPrefix entries = false) (name uri : String) :
    resolveResource entries (encodeResourceUri name uri) = .ok (name, uri) ↔
      name ≠ "" ∧ '/' ∉ name.toList := by
  rw [← decode_encode_iff name uri, resolveResource, maybeDecodeResourceUri, hskip]
  cases hd : decodeResourceUri (encodeResourceUri name uri) with
  | error e => simp [Except.map]
  | ok p => simp [Except.map, Prod.ext_iff]

theorem readsBack_iff_resolve {name original uri : String} :
    ReadsBack entries name original uri ↔ resolveResource entries uri = .ok (name, original) := by
  refine ⟨And.left, fun h => ⟨h, ?_⟩⟩
  rw [routeResourceRead, h]

/-- The condition under which the URIs of an endpoint read back. -/
def NameReadsBack (entries : Entries A) (name : String) : Prop :=
  skipPrefix entries = true ∨ '/' ∉ name.toList

theorem readsBack_emitted_iff {entries : Entries A} {name : String} (hne : name ≠ "")
    (hactive : IsActive entries name) (original : String) :
    ReadsBack entries name original
        (maybeEncodeResourceUri name original (skipPrefix entries)) ↔
      NameReadsBack entries name := by
  rw [readsBack_iff_resolve]
  cases hskip : skipPrefix entries with
  | true => simp [maybeEncodeResourceUri, NameReadsBack, hskip, resolve_single hskip hactive]
  | false =>
    rw [maybeEncodeResourceUri_false, resolve_wrapped_iff hskip]
    simp [NameReadsBack, hskip, hne]

/-- **Emitted URIs read back exactly for names without `/`**, or when a single endpoint is active.
For a registry whose endpoint names come from a config that validation accepts: every URI of an
emission is dispatched to the emitting endpoint under the original URI if and only if there are no
URIs in it, at most one endpoint is active, or the endpoint name has no `/`. -/
theorem resource_uris_round_trip_iff
    (listed : String → RegisteredAdapter A → Except AdapterError (List ToolInfo))
    (cfg : Config) (entries : Entries A) (hvalid : cfg.validate = .ok ())
    (hcfg : ∀ name ∈ entries, ∃ ep ∈ cfg.endpoints, ep.name = name)
    {name : String} {originals emitted : List String}
    (h : Emits listed entries name originals emitted) :
    List.Forall₂ (fun original uri => ReadsBack entries name original uri) originals emitted ↔
      originals = [] ∨ NameReadsBack entries name := by
  obtain ⟨hactive, rfl⟩ := emits_eq h
  have hne : name ≠ "" := by
    obtain ⟨entry, hentry, -⟩ := hactive
    obtain ⟨ep, hep, rfl⟩ := hcfg name (AList.lookup_isSome.1 (by simp [hentry]))
    exact ((validate_ok hvalid).1 ep hep).name_ne
  rw [List.forall₂_map_right_iff, List.forall₂_same]
  simp only [readsBack_emitted_iff hne hactive]
  cases originals with
  | nil => simp
  | cons u us => simp +contextual

/-! ## A name with `/` -/

/-- Two endpoints that validation accepts; the prefix of the first is sanitized to `ab`. -/
def slashConfig : Config where
  allowInsecureOauth := none
  endpoints := [{ name := "a/b", transport := .http, url := some "https://one" },
    { name := "a", transport := .http, url := some "https://two" }]
  organizations := []

def slashEntries : Entries FixedAdapter :=
  (∅ : Entries FixedAdapter)
    |>.insert "a" (freshEntry { resources := .ok [.obj [("uri", .str "ui://y")]] } "http" none
      (some "a"))
    |>.insert "a/b" (freshEntry { resources := .ok [.obj [("uri", .str "ui://x")]] } "http" none
      (some "ab"))

theorem slashEntries_fromConfig :
    ∀ name ∈ slashEntries, ∃ ep ∈ slashConfig.endpoints, ep.name = name := by
  intro name hname
  rw [slashEntries, AList.mem_insert, AList.mem_insert] at hname
  rcases hname with rfl | rfl | hempty
  · exact ⟨_, List.mem_cons_self, rfl⟩
  · exact ⟨_, List.mem_cons_of_mem _ List.mem_cons_self, rfl⟩
  · exact absurd hempty (AList.notMem_empty name)

/-- The resource `ui://x` of `a/b` is emitted as a URI that reads `b/ui://x` from `a`. -/
theorem slash_in_name_breaks_round_trip :
    slashConfig.validate = .ok () ∧
      (∀ name ∈ slashEntries, ∃ ep ∈ slashConfig.endpoints, ep.name = name) ∧
      Emits (fun _ _ => .ok []) slashEntries "a/b" ["ui://x"] ["mcp-relay://a/b/ui%3A%2F%2Fx"] ∧
      resolveResource slashEntries "mcp-relay://a/b/ui%3A%2F%2Fx" = .ok ("a", "b/ui://x") ∧
      ¬ ReadsBack slashEntries "a/b" "ui://x" "mcp-relay://a/b/ui%3A%2F%2Fx" := by
  have hread : resolveResource slashEntries "mcp-relay://a/b/ui%3A%2F%2Fx" =
      .ok ("a", "b/ui://x") := rfl
  refine ⟨rfl, slashEntries_fromConfig, ?_, hread, ?_⟩
  · have hlisted : ("a/b", Json.obj [("uri", .str "ui://x")]) ∈ listedResources slashEntries :=
      List.mem_cons_self
    exact Emits.listedResource hlisted
  · rintro ⟨h, -⟩
    rw [hread] at h
    simp at h

/-- The resource of the endpoint without `/` in its name reads back. -/
theorem plain_name_reads_back :
    List.Forall₂ (fun original uri => ReadsBack slashEntries "a" original uri)
      ["ui://y"] ["mcp-relay://a/ui%3A%2F%2Fy"] := by
  have hlisted : ("a", Json.obj [("uri", .str "ui://y")]) ∈ listedResources slashEntries :=
    List.mem_cons_of_mem _ List.mem_cons_self
  have hemits : Emits (fun _ _ => .ok []) slashEntries "a" ["ui://y"]
      ["mcp-relay://a/ui%3A%2F%2Fy"] := Emits.listedResource hlisted
  apply (resource_uris_round_trip_iff (fun _ _ => .ok []) slashConfig slashEntries rfl
    slashEntries_fromConfig hemits).2
  exact .inr (.inr (by decide))

end EndaraRelay
