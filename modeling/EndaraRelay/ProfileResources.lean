import EndaraRelay.ProfileRegistry
import EndaraRelay.ResourceRoundTrip

/-!
# Resource URIs through a profile

A profile emits URIs in two places. Its list of resources is wrapped by the number of endpoints that
are active in the profile; the results of tool calls are wrapped by the registry, by the number of
endpoints that are active in all (`ProfileEmitter.skipWrap`). Both are read by
`ProfileRegistryView::route_resource_read`, which decodes whatever it can and takes for an original
what it cannot.

- An emitter that wraps is read back for the endpoint names the decoder finds again.
- One that passes URIs through is read back unless the URI of the upstream has the form of a wrapped
  one, as a relay behind this relay emits: then it is decoded although nothing was encoded.

`profile_resource_uris_round_trip_iff` says that there are no other cases. In
`nested_uri_is_refused` a profile does not find a resource that it lists.
-/

namespace EndaraRelay

open Verif

variable {A : Type} [McpAdapter A]

def findSingleActiveEndpointIn (allowedEndpoints : List String) (entries : Entries A) :
    Option String :=
  match entries.entries.filter fun e => !e.2.disabled && allowedEndpoints.contains e.1 with
  | [e] => some e.1
  | _ => none

/-- Which endpoint and original URI `ProfileRegistryView::route_resource_read` dispatches to. -/
def profileResolveResource (allowedEndpoints : List String) (entries : Entries A)
    (wrappedUri : String) : Except AdapterError (String × String) :=
  match decodeResourceUri wrappedUri with
  | .ok (endpoint, originalUri) =>
    if allowedEndpoints.contains endpoint then .ok (endpoint, originalUri)
    else .error (.protocolError
      ("resource '" ++ wrappedUri ++ "' is not available in this profile"))
  | .error _ =>
    match findSingleActiveEndpointIn allowedEndpoints entries with
    | some endpoint => .ok (endpoint, wrappedUri)
    | none => .error (.protocolError
        ("no active endpoint to serve resource '" ++ wrappedUri ++ "'"))

/-- `ProfileRegistryView::route_resource_read`. -/
def profileRouteResourceRead (allowedEndpoints : List String) (entries : Entries A)
    (wrappedUri : String) : Except AdapterError Json :=
  match profileResolveResource allowedEndpoints entries wrappedUri with
  | .error e => .error e
  | .ok (endpoint, originalUri) => dispatchResourceReadTo entries endpoint originalUri

/-! ## Emission -/

/-- Where a profile emits URIs. -/
inductive ProfileEmitter where
  /-- `ProfileRegistryView::list_resources`. -/
  | listing
  /-- The result of a tool call. -/
  | toolCall
deriving DecidableEq, Repr

/-- Whether an emitter passes URIs through. -/
def ProfileEmitter.skipWrap (emitter : ProfileEmitter) (allowedEndpoints : List String)
    (entries : Entries A) : Bool :=
  match emitter with
  | .listing => skipWrapIn allowedEndpoints entries
  | .toolCall => skipPrefix entries

/-- `ProfileEmits allowedEndpoints entries emitter name originals emitted`: the upstream of `name`
wrote the URIs `originals`, and the profile emits them as `emitted`. -/
inductive ProfileEmits (allowedEndpoints : List String) (entries : Entries A) :
    ProfileEmitter → String → List String → List String → Prop
  | listedResource {name : String} {entry : RegisteredAdapter A} {items : List Json} {item : Json} :
      entries.lookup name = some entry → entry.disabled = false →
      allowedEndpoints.contains name = true →
      McpAdapter.listResources entry.adapter = .ok items → item ∈ items →
      ProfileEmits allowedEndpoints entries .listing name (resourceSlots item)
        (resourceSlots (wrapListedResource name (skipWrapIn allowedEndpoints entries) item))
  | toolCallResult {validate : Option (String → Json → Json → Option Json)} {catalog : Catalog}
      {called tool name : String} {adapter : A} {arguments v r : Json} {params : Fields} :
      routeDecision validate catalog entries called arguments = .called name adapter tool →
      McpAdapter.callToolWithRequestParams adapter tool arguments params = .ok v →
      profileRouteToolCall validate allowedEndpoints catalog entries called arguments params =
        .ok r →
      ProfileEmits allowedEndpoints entries .toolCall name (toolCallResultSlots v)
        (toolCallResultSlots r)

/-- Reading `uri` through the profile reaches the endpoint `name` with the URI `original`. -/
def ProfileReadsBack (allowedEndpoints : List String) (entries : Entries A)
    (name original uri : String) : Prop :=
  profileResolveResource allowedEndpoints entries uri = .ok (name, original) ∧
    profileRouteResourceRead allowedEndpoints entries uri =
      dispatchResourceReadTo entries name original

variable {allowedEndpoints : List String} {entries : Entries A}

/-- **Every emitter** encodes its slots for an active endpoint of the profile, under its own wrap
flag. -/
theorem profileEmits_eq {emitter : ProfileEmitter} {name : String} {originals emitted : List String}
    (h : ProfileEmits allowedEndpoints entries emitter name originals emitted) :
    IsActive entries name ∧ allowedEndpoints.contains name = true ∧
      emitted = originals.map fun uri =>
        maybeEncodeResourceUri name uri (emitter.skipWrap allowedEndpoints entries) := by
  cases h with
  | listedResource hentry hdisabled hin _ _ =>
    exact ⟨⟨_, hentry, hdisabled⟩, hin, resourceSlots_wrap _ _ _⟩
  | toolCallResult hcalled hv hr =>
    unfold profileRouteToolCall at hr
    split at hr
    · cases hr
    · next target htarget =>
      have hin : allowedEndpoints.contains name = true := by
        unfold profileToolTarget at htarget
        rw [(routeDecision_eq_called.1 hcalled).1] at htarget
        dsimp only at htarget
        split at htarget
        · assumption
        · cases htarget
      refine ⟨isActive_of_called hcalled, hin, ?_⟩
      simp only [routeToolCall, hcalled, hv, Except.map, Except.ok.injEq] at hr
      rw [← hr, toolCallResultSlots_maybe]
      rfl

/-! ## Reading back -/

theorem profileReadsBack_iff_resolve {name original uri : String} :
    ProfileReadsBack allowedEndpoints entries name original uri ↔
      profileResolveResource allowedEndpoints entries uri = .ok (name, original) := by
  refine ⟨And.left, fun h => ⟨h, ?_⟩⟩
  rw [profileRouteResourceRead, h]

section Entries

omit [McpAdapter A]

/-- An active endpoint of the profile that is the only one is found. -/
theorem findSingleActiveEndpointIn_eq {name : String}
    (hskip : skipWrapIn allowedEndpoints entries = true) (hactive : IsActive entries name)
    (hin : allowedEndpoints.contains name = true) :
    findSingleActiveEndpointIn allowedEndpoints entries = some name := by
  obtain ⟨entry, hentry, hdisabled⟩ := hactive
  have hmem : (⟨name, entry⟩ : Sigma fun _ : String => RegisteredAdapter A) ∈
      entries.entries.filter fun e => !e.2.disabled && allowedEndpoints.contains e.1 := by
    refine List.mem_filter.2 ⟨AList.mem_entries_iff.2 hentry, ?_⟩
    simp only [hdisabled, hin, Bool.not_false, Bool.and_self]
  have hone : (entries.entries.filter fun e =>
      !e.2.disabled && allowedEndpoints.contains e.1).length ≤ 1 := of_decide_eq_true hskip
  unfold findSingleActiveEndpointIn
  split
  · next e he =>
    rw [he] at hmem
    rw [← List.mem_singleton.1 hmem]
  · next hnot =>
    exfalso
    cases hf : entries.entries.filter fun e => !e.2.disabled && allowedEndpoints.contains e.1 with
    | nil =>
      rw [hf] at hmem
      cases hmem
    | cons e es =>
      rw [hf] at hone
      obtain rfl : es = [] := List.length_eq_zero_iff.1 (by simpa using hone)
      exact hnot e hf

/-- A URI of the form the decoder accepts. -/
def IsWrapped (uri : String) : Prop := ∃ p, decodeResourceUri uri = .ok p

/-- The condition under which a URI that an endpoint wrote reads back through the profile. -/
def ReadsBackThrough (skipWrap : Bool) (name original : String) : Prop :=
  if skipWrap then ¬ IsWrapped original else name ≠ "" ∧ '/' ∉ name.toList

/-- A URI that was passed through reads back when the decoder does not take it for a wrapped one. -/
theorem profileResolve_raw_iff {name original : String}
    (hskip : skipWrapIn allowedEndpoints entries = true) (hactive : IsActive entries name)
    (hin : allowedEndpoints.contains name = true) :
    profileResolveResource allowedEndpoints entries original = .ok (name, original) ↔
      ¬ IsWrapped original := by
  unfold profileResolveResource IsWrapped
  cases hdecode : decodeResourceUri original with
  | error e =>
    rw [findSingleActiveEndpointIn_eq hskip hactive hin]
    simp
  | ok p =>
    obtain ⟨endpoint, inner⟩ := p
    have hne : inner ≠ original := decodeResourceUri_ne hdecode
    dsimp only
    split
    · simp [hne]
    · simp

/-- A wrapped URI reads back when its endpoint has a name the decoder finds again. -/
theorem profileResolve_wrapped_iff {name original : String}
    (hin : allowedEndpoints.contains name = true) :
    profileResolveResource allowedEndpoints entries (encodeResourceUri name original) =
        .ok (name, original) ↔ name ≠ "" ∧ '/' ∉ name.toList := by
  rw [← decode_encode_iff name original]
  unfold profileResolveResource
  cases hdecode : decodeResourceUri (encodeResourceUri name original) with
  | error e =>
    have hne : encodeResourceUri name original ≠ original := encodeResourceUri_ne name original
    dsimp only
    split
    · simp [hne]
    · simp
  | ok p =>
    obtain ⟨endpoint, inner⟩ := p
    dsimp only
    split
    · rw [Except.ok.injEq, Except.ok.injEq]
    · next hout =>
      simp only [reduceCtorEq, Except.ok.injEq, Prod.mk.injEq, false_iff, not_and]
      rintro rfl
      exact absurd hin hout

/-- In a registry with at most one active endpoint so is the profile. -/
theorem skipWrapIn_of_skipPrefix (h : skipPrefix entries = true) :
    skipWrapIn allowedEndpoints entries = true := by
  by_cases heq : skipPrefix entries = skipWrapIn allowedEndpoints entries
  · rw [← heq, h]
  · exact (modes_of_ne heq).2

end Entries

theorem profileReadsBack_emitted_iff {emitter : ProfileEmitter} {name : String}
    (hactive : IsActive entries name) (hin : allowedEndpoints.contains name = true)
    (original : String) :
    ProfileReadsBack allowedEndpoints entries name original
        (maybeEncodeResourceUri name original (emitter.skipWrap allowedEndpoints entries)) ↔
      ReadsBackThrough (emitter.skipWrap allowedEndpoints entries) name original := by
  rw [profileReadsBack_iff_resolve]
  cases hskip : emitter.skipWrap allowedEndpoints entries with
  | true =>
    have hin' : skipWrapIn allowedEndpoints entries = true := by
      cases emitter with
      | listing => exact hskip
      | toolCall => exact skipWrapIn_of_skipPrefix hskip
    exact profileResolve_raw_iff hin' hactive hin
  | false => exact profileResolve_wrapped_iff hin

/-- **When the URIs of a profile read back.** Every URI of an emission reaches the emitting endpoint
under its original if and only if, where the emitter passes URIs through, none of the originals has
the form of a wrapped URI, and, where it wraps them, the endpoint has a non-empty name without `/`. -/
theorem profile_resource_uris_round_trip_iff (allowedEndpoints : List String) (entries : Entries A)
    {emitter : ProfileEmitter} {name : String} {originals emitted : List String}
    (h : ProfileEmits allowedEndpoints entries emitter name originals emitted) :
    List.Forall₂ (fun original uri => ProfileReadsBack allowedEndpoints entries name original uri)
        originals emitted ↔
      ∀ original ∈ originals,
        ReadsBackThrough (emitter.skipWrap allowedEndpoints entries) name original := by
  obtain ⟨hactive, hin, rfl⟩ := profileEmits_eq h
  rw [List.forall₂_map_right_iff, List.forall₂_same]
  simp only [profileReadsBack_emitted_iff hactive hin]

/-- The resource of a profile that wrote a plain URI reads back. -/
theorem plain_uri_reads_back :
    List.Forall₂ (fun original uri => ProfileReadsBack ["gmail"] mailEntries "gmail" original uri)
      ["mail://inbox"] ["mail://inbox"] := by
  have hentry : mailEntries.lookup "gmail" = some gmailEntry := rfl
  have hemits : ProfileEmits ["gmail"] mailEntries .listing "gmail" ["mail://inbox"]
      ["mail://inbox"] :=
    ProfileEmits.listedResource hentry rfl rfl rfl List.mem_cons_self
  apply (profile_resource_uris_round_trip_iff ["gmail"] mailEntries hemits).2
  intro original horiginal
  obtain rfl := List.mem_singleton.1 horiginal
  rintro ⟨p, hp⟩
  cases hp

/-! ## A relay behind the relay -/

/-- An endpoint that is a relay itself and lists a wrapped URI. -/
def hubEntry : RegisteredAdapter FixedAdapter :=
  freshEntry { resources := .ok [.obj [("uri", .str "mcp-relay://inner/ui%3A%2F%2Fx")]] } "http" none
    (some "hub")

def nestedEntries : Entries FixedAdapter :=
  (∅ : Entries FixedAdapter)
    |>.insert "hub" hubEntry
    |>.insert "todoist" (freshEntry { tools := .ok [bareTool "add"] } "http" none (some "todoist"))

/-- The profile `{hub}` lists the URI as `hub` wrote it, and refuses to read it. -/
theorem nested_uri_is_refused :
    listResourcesIn ["hub"] nestedEntries =
        [.obj [("uri", .str "mcp-relay://inner/ui%3A%2F%2Fx")]] ∧
      ProfileEmits ["hub"] nestedEntries .listing "hub" ["mcp-relay://inner/ui%3A%2F%2Fx"]
        ["mcp-relay://inner/ui%3A%2F%2Fx"] ∧
      profileRouteResourceRead ["hub"] nestedEntries "mcp-relay://inner/ui%3A%2F%2Fx" =
        .error (.protocolError
          "resource 'mcp-relay://inner/ui%3A%2F%2Fx' is not available in this profile") ∧
      ¬ ProfileReadsBack ["hub"] nestedEntries "hub" "mcp-relay://inner/ui%3A%2F%2Fx"
        "mcp-relay://inner/ui%3A%2F%2Fx" := by
  have hentry : nestedEntries.lookup "hub" = some hubEntry := rfl
  have hrefused : profileResolveResource ["hub"] nestedEntries "mcp-relay://inner/ui%3A%2F%2Fx" =
      .error (.protocolError
        "resource 'mcp-relay://inner/ui%3A%2F%2Fx' is not available in this profile") := rfl
  refine ⟨rfl, ProfileEmits.listedResource hentry rfl rfl rfl List.mem_cons_self, ?_, ?_⟩
  · rw [profileRouteResourceRead, hrefused]
  · rintro ⟨hread, -⟩
    rw [hrefused] at hread
    cases hread

end EndaraRelay
