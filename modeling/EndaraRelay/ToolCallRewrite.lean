import EndaraRelay.Json
import EndaraRelay.ResourceUri

/-!
# Rewriting URIs in results

`tool_call_rewrite.rs`: the slots of a result where the protocol puts a resource URI, and the
rewriting that puts each of them behind the endpoint the result came from.

Every rewriting function `f` has a reader `fSlots` that lists the URIs standing in its slots, in
order. The lemmas say that a rewriting encodes each slot and leaves their number and order alone:
`fSlots (f v endpoint) = (fSlots v).map (encodeResourceUri endpoint)`.
-/

namespace EndaraRelay

/-- The recurring step of the rewriting: wrap the string at a key of an object. -/
def wrapUriField (m : Fields) (key endpoint : String) : Fields :=
  match (Fields.get m key).bind Json.asStr with
  | some uri => m.insert key (.str (maybeEncodeResourceUri endpoint uri false))
  | none => m

/-- Wrap the two UI pointers of a `_meta` object. -/
def rewriteMetaUiPointers (toolMeta : Fields) (endpoint : String) : Fields :=
  let toolMeta := toolMeta.modify "ui" (Json.mapObject fun ui =>
    wrapUriField ui "resourceUri" endpoint)
  wrapUriField toolMeta "openai/outputTemplate" endpoint

/-- `item.get("type").and_then(as_str).unwrap_or("")`. -/
def contentKind (item : Json) : String := ((item.get "type").bind Json.asStr).getD ""

/-- Wrap the URI of a content block of kind `resource` or `resource_link`. Tool results and prompt
messages share the body. -/
def rewritePromptMessageContentBlock (endpoint : String) (item : Json) : Json :=
  if contentKind item = "resource" then
    item.mapObject fun m => m.modify "resource" (Json.mapObject fun r => wrapUriField r "uri" endpoint)
  else if contentKind item = "resource_link" then
    item.mapObject fun m => wrapUriField m "uri" endpoint
  else item

/-- Wrap the URI slots of a `tools/call` result. -/
def rewriteToolCallResult (result : Json) (endpoint : String) (skipWrap : Bool) : Json :=
  if skipWrap then result
  else
    result.mapObject fun m =>
      (m.modify "_meta" (Json.mapObject fun toolMeta => rewriteMetaUiPointers toolMeta endpoint)).modify
        "content" (Json.mapArray (rewritePromptMessageContentBlock endpoint))

/-- Wrap the URI slots of a prompt message, whose content is one block or an array of them. -/
def rewriteContent (endpoint : String) : Json → Json
  | .arr items => .arr (items.map (rewritePromptMessageContentBlock endpoint))
  | .obj fields => rewritePromptMessageContentBlock endpoint (.obj fields)
  | v => v

/-- Wrap the URI slots of a `prompts/get` result. -/
def rewritePromptGetResult (result : Json) (endpoint : String) (skipWrap : Bool) : Json :=
  if skipWrap then result
  else
    result.mapObject fun m => m.modify "messages" (Json.mapArray fun message =>
      message.mapObject fun msg => msg.modify "content" (rewriteContent endpoint))

/-! ## The slots -/

/-- The URI at a key of an object. -/
def uriFieldSlots (m : Fields) (key : String) : List String :=
  ((Fields.get m key).bind Json.asStr).toList

def metaUiPointerSlots (toolMeta : Fields) : List String :=
  (((Fields.get toolMeta "ui").bind Json.asObject).map fun ui => uriFieldSlots ui "resourceUri").getD []
    ++ uriFieldSlots toolMeta "openai/outputTemplate"

def contentBlockSlots (item : Json) : List String :=
  if contentKind item = "resource" then
    (((item.get "resource").bind Json.asObject).map fun r => uriFieldSlots r "uri").getD []
  else if contentKind item = "resource_link" then
    (item.asObject.map fun m => uriFieldSlots m "uri").getD []
  else []

def toolCallResultSlots (result : Json) : List String :=
  (((result.get "_meta").bind Json.asObject).map metaUiPointerSlots).getD []
    ++ (((result.get "content").bind Json.asArray).map fun items =>
      items.flatMap contentBlockSlots).getD []

def contentSlots : Json → List String
  | .arr items => items.flatMap contentBlockSlots
  | .obj fields => contentBlockSlots (.obj fields)
  | _ => []

def promptGetResultSlots (result : Json) : List String :=
  (((result.get "messages").bind Json.asArray).map fun messages =>
    messages.flatMap fun message => ((message.get "content").map contentSlots).getD []).getD []

/-! ## Rewriting encodes the slots -/

@[simp] theorem maybeEncodeResourceUri_false (endpoint uri : String) :
    maybeEncodeResourceUri endpoint uri false = encodeResourceUri endpoint uri := rfl

theorem get_wrapUriField_ne {m : Fields} {key k : String} (endpoint : String) (h : k ≠ key) :
    Fields.get (wrapUriField m key endpoint) k = Fields.get m k := by
  unfold wrapUriField
  split
  · rw [Fields.get_insert, if_neg h]
  · rfl

theorem uriFieldSlots_wrapUriField (m : Fields) (key endpoint : String) :
    uriFieldSlots (wrapUriField m key endpoint) key =
      (uriFieldSlots m key).map (encodeResourceUri endpoint) := by
  unfold uriFieldSlots wrapUriField
  split
  · next uri h => simp [Fields.get_insert, h, Json.asStr]
  · next h => simp [h]

theorem metaUiPointerSlots_rewrite (toolMeta : Fields) (endpoint : String) :
    metaUiPointerSlots (rewriteMetaUiPointers toolMeta endpoint) =
      (metaUiPointerSlots toolMeta).map (encodeResourceUri endpoint) := by
  have hne : "ui" ≠ "openai/outputTemplate" := by decide
  have hne' : "openai/outputTemplate" ≠ "ui" := by decide
  have halias : ∀ f, uriFieldSlots (toolMeta.modify "ui" f) "openai/outputTemplate" =
      uriFieldSlots toolMeta "openai/outputTemplate" := by
    intro f
    rw [uriFieldSlots, Fields.get_modify, if_neg hne', uriFieldSlots]
  rw [rewriteMetaUiPointers, metaUiPointerSlots, metaUiPointerSlots, List.map_append,
    get_wrapUriField_ne endpoint hne, Fields.get_modify, if_pos rfl, uriFieldSlots_wrapUriField,
    halias]
  congr 1
  cases Fields.get toolMeta "ui" with
  | none => rfl
  | some v =>
    cases v with
    | obj ui => exact uriFieldSlots_wrapUriField ui "resourceUri" endpoint
    | _ => rfl

theorem contentKind_rewrite (endpoint : String) (item : Json) :
    contentKind (rewritePromptMessageContentBlock endpoint item) = contentKind item := by
  have hres : "type" ≠ "resource" := by decide
  have huri : "type" ≠ "uri" := by decide
  unfold rewritePromptMessageContentBlock
  split
  · cases item <;> simp [contentKind, Json.mapObject, Fields.get_modify, hres]
  · split
    · cases item <;> simp [contentKind, Json.mapObject, get_wrapUriField_ne endpoint huri]
    · rfl

theorem contentBlockSlots_rewrite (endpoint : String) (item : Json) :
    contentBlockSlots (rewritePromptMessageContentBlock endpoint item) =
      (contentBlockSlots item).map (encodeResourceUri endpoint) := by
  rw [contentBlockSlots, contentKind_rewrite, contentBlockSlots, rewritePromptMessageContentBlock]
  by_cases hres : contentKind item = "resource"
  · simp only [hres, if_true]
    cases item with
    | obj m =>
      simp only [Json.mapObject, Json.get_obj, Fields.get_modify, if_true]
      cases Fields.get m "resource" with
      | none => rfl
      | some v =>
        cases v with
        | obj r => exact uriFieldSlots_wrapUriField r "uri" endpoint
        | _ => rfl
    | _ => rfl
  · by_cases hlink : contentKind item = "resource_link"
    · simp only [hlink, if_true]
      cases item with
      | obj m => exact uriFieldSlots_wrapUriField m "uri" endpoint
      | _ => rfl
    · simp only [hres, hlink, if_false, List.map_nil]

/-- The slots of a list of blocks, each of them rewritten. -/
theorem flatMap_slots_rewrite {slots : Json → List String} {rw : Json → Json} {endpoint : String}
    (h : ∀ v, slots (rw v) = (slots v).map (encodeResourceUri endpoint)) (items : List Json) :
    (items.map rw).flatMap slots = (items.flatMap slots).map (encodeResourceUri endpoint) := by
  rw [List.flatMap_map, List.map_flatMap]
  exact congrArg (items.flatMap ·) (funext h)

theorem toolCallResultSlots_rewrite (result : Json) (endpoint : String) :
    toolCallResultSlots (rewriteToolCallResult result endpoint false) =
      (toolCallResultSlots result).map (encodeResourceUri endpoint) := by
  cases result with
  | obj m =>
    have hne : "_meta" ≠ "content" := by decide
    have hne' : "content" ≠ "_meta" := by decide
    simp only [rewriteToolCallResult, toolCallResultSlots, Json.mapObject, Json.get_obj,
      Fields.get_modify, Bool.false_eq_true, hne, hne', if_false, if_true, List.map_append]
    congr 1
    · cases Fields.get m "_meta" with
      | none => rfl
      | some v =>
        cases v with
        | obj toolMeta => exact metaUiPointerSlots_rewrite toolMeta endpoint
        | _ => rfl
    · cases Fields.get m "content" with
      | none => rfl
      | some v =>
        cases v with
        | arr items => exact flatMap_slots_rewrite (contentBlockSlots_rewrite endpoint) items
        | _ => rfl
  | _ => rfl

theorem rewritePromptMessageContentBlock_obj (endpoint : String) (fields : Fields) :
    ∃ fields', rewritePromptMessageContentBlock endpoint (.obj fields) = .obj fields' := by
  unfold rewritePromptMessageContentBlock
  split
  · exact ⟨_, rfl⟩
  · split
    · exact ⟨_, rfl⟩
    · exact ⟨_, rfl⟩

theorem contentSlots_rewrite (endpoint : String) (v : Json) :
    contentSlots (rewriteContent endpoint v) = (contentSlots v).map (encodeResourceUri endpoint) := by
  cases v with
  | arr items => exact flatMap_slots_rewrite (contentBlockSlots_rewrite endpoint) items
  | obj fields =>
    obtain ⟨fields', h⟩ := rewritePromptMessageContentBlock_obj endpoint fields
    have hblock := contentBlockSlots_rewrite endpoint (.obj fields)
    rw [h] at hblock
    rw [rewriteContent, h]
    exact hblock
  | _ => rfl

theorem promptGetResultSlots_rewrite (result : Json) (endpoint : String) :
    promptGetResultSlots (rewritePromptGetResult result endpoint false) =
      (promptGetResultSlots result).map (encodeResourceUri endpoint) := by
  cases result with
  | obj m =>
    simp only [rewritePromptGetResult, promptGetResultSlots, Json.mapObject, Json.get_obj,
      Fields.get_modify, Bool.false_eq_true, if_false, if_true]
    cases Fields.get m "messages" with
    | none => rfl
    | some v =>
      cases v with
      | arr messages =>
        refine flatMap_slots_rewrite (fun message => ?_) messages
        cases message with
        | obj msg =>
          simp only [Json.get_obj, Fields.get_modify, if_true]
          cases Fields.get msg "content" with
          | none => rfl
          | some content => exact contentSlots_rewrite endpoint content
        | _ => rfl
      | _ => rfl
  | _ => rfl

end EndaraRelay
