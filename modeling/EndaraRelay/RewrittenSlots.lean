import EndaraRelay.JsonPaths
import EndaraRelay.ToolCallRewrite

/-!
# Rewriting touches the slots and nothing else

The walks of `tool_call_rewrite.rs`, over paths: at each enumerated slot of a result the wrapped URI
stands where the URI stood, and at any other path stands what stood there.

`BlockSlot`, `ToolCallSlot` and `PromptGetSlot` enumerate the slots. Each walk is a composition of edits
at keys and items, and its slots are those of its parts.
-/

namespace EndaraRelay

open Json

/-! ## The walks as edits in place -/

variable {m : Fields} {k key s : String} {f : Json → Json} {v : Json} {path : Path}

theorem Fields.modify_eq_self (h : ∀ w, Fields.get m key = some w → f w = w) : m.modify key f = m := by
  induction m with
  | nil => rfl
  | cons kw m ih =>
    obtain ⟨k, w⟩ := kw
    by_cases hk : key = k
    · have hw : f w = w := h w (by rw [Fields.get_cons, if_pos hk])
      rw [Fields.modify, if_pos hk, hw]
    · have hm := ih fun w' hw' => h w' (by rw [Fields.get_cons, if_neg hk, hw'])
      rw [Fields.modify, if_neg hk, hm]

theorem Fields.insert_eq_modify {w v : Json} (h : Fields.get m key = some w) (hv : f w = v) :
    m.insert key v = m.modify key f := by
  induction m with
  | nil => cases h
  | cons kw m ih =>
    obtain ⟨k, w'⟩ := kw
    by_cases hk : key = k
    · rw [Fields.get_cons, if_pos hk] at h
      cases h
      rw [Fields.insert, Fields.modify, if_pos hk, if_pos hk, hv]
    · rw [Fields.get_cons, if_neg hk] at h
      rw [Fields.insert, Fields.modify, if_neg hk, if_neg hk, ih h]

theorem wrapUriField_eq (m : Fields) (key endpoint : String) :
    wrapUriField m key endpoint = m.modify key (mapStr (encodeResourceUri endpoint)) := by
  have hkeep : (∀ uri, Fields.get m key ≠ some (.str uri)) →
      m.modify key (mapStr (encodeResourceUri endpoint)) = m := by
    intro h
    refine Fields.modify_eq_self fun w hw => ?_
    cases w with
    | str uri => exact absurd hw (h uri)
    | _ => rfl
  unfold wrapUriField
  split
  · next uri h =>
    obtain ⟨w, hw, huri⟩ := Option.bind_eq_some_iff.1 h
    cases w with
    | str s =>
      cases huri
      exact Fields.insert_eq_modify hw rfl
    | _ => cases huri
  · next h =>
    refine (hkeep fun uri huri => ?_).symm
    rw [huri] at h
    cases h

theorem mapObject_wrapUriField (key endpoint : String) :
    (mapObject fun m => wrapUriField m key endpoint) = modifyKey key (mapStr (encodeResourceUri endpoint)) :=
  congrArg mapObject (funext fun m => wrapUriField_eq m key endpoint)

theorem mapObject_rewriteMetaUiPointers (endpoint : String) :
    (mapObject fun toolMeta => rewriteMetaUiPointers toolMeta endpoint) = fun v =>
      modifyKey "openai/outputTemplate" (mapStr (encodeResourceUri endpoint))
        (modifyKey "ui" (modifyKey "resourceUri" (mapStr (encodeResourceUri endpoint))) v) := by
  funext v
  rw [← mapObject_wrapUriField, ← mapObject_wrapUriField]
  cases v <;> rfl

/-! ## Content blocks -/

/-- The slots of a content block. -/
inductive BlockSlot (item : Json) (uri : String) : Path → Prop
  | resource : item.locate [.key "type"] = some (.str "resource") →
      item.locate [.key "resource", .key "uri"] = some (.str uri) →
      BlockSlot item uri [.key "resource", .key "uri"]
  | resourceLink : item.locate [.key "type"] = some (.str "resource_link") →
      item.locate [.key "uri"] = some (.str uri) → BlockSlot item uri [.key "uri"]

/-- A kind other than the one of a block without a kind. -/
theorem contentKind_eq_iff {item : Json} {kind : String} (h : kind ≠ "") :
    contentKind item = kind ↔ item.locate [.key "type"] = some (.str kind) := by
  have hne : ¬ "" = kind := fun h' => h h'.symm
  rw [contentKind, locate_cons, child_key]
  cases item.get "type" with
  | none => simp [hne]
  | some v => cases v <;> simp [asStr, hne]

/-- A string at a key. -/
theorem atKey_string_iff :
    atKey k (fun v path s => path = [] ∧ v = .str s) v path s ↔
      path = [.key k] ∧ v.locate [.key k] = some (.str s) := by
  rw [locate_singleton]
  constructor
  · rintro ⟨w, path', rfl, hw, rfl, rfl⟩
    exact ⟨rfl, hw⟩
  · rintro ⟨rfl, hw⟩
    exact ⟨.str s, [], rfl, hw, rfl, rfl⟩

/-- A string at a key of what stands at a key. -/
theorem atKey_atKey_string_iff {k k' : String} :
    atKey k (atKey k' fun v path s => path = [] ∧ v = .str s) v path s ↔
      path = [.key k, .key k'] ∧ v.locate [.key k, .key k'] = some (.str s) := by
  constructor
  · rintro ⟨w, path', rfl, hw, hs⟩
    obtain ⟨rfl, huri⟩ := atKey_string_iff.1 hs
    exact ⟨rfl, Option.bind_eq_some_iff.2 ⟨w, hw, huri⟩⟩
  · rintro ⟨rfl, hs⟩
    obtain ⟨w, hw, hs⟩ := Option.bind_eq_some_iff.1 hs
    exact ⟨w, _, rfl, hw, atKey_string_iff.2 ⟨rfl, hs⟩⟩

theorem blockSlots_iff (item : Json) (path : Path) (uri : String) :
    (if contentKind item = "resource" then
        atKey "resource" (atKey "uri" fun v path s => path = [] ∧ v = .str s) item path uri
      else if contentKind item = "resource_link" then
        atKey "uri" (fun v path s => path = [] ∧ v = .str s) item path uri
      else False) ↔ BlockSlot item uri path := by
  rw [atKey_atKey_string_iff, atKey_string_iff]
  constructor
  · intro h
    by_cases hres : contentKind item = "resource"
    · rw [if_pos hres] at h
      obtain ⟨rfl, huri⟩ := h
      exact .resource ((contentKind_eq_iff (by decide)).1 hres) huri
    · rw [if_neg hres] at h
      by_cases hlink : contentKind item = "resource_link"
      · rw [if_pos hlink] at h
        obtain ⟨rfl, huri⟩ := h
        exact .resourceLink ((contentKind_eq_iff (by decide)).1 hlink) huri
      · rw [if_neg hlink] at h
        exact h.elim
  · intro h
    cases h with
    | resource hkind huri => exact (if_pos ((contentKind_eq_iff (by decide)).2 hkind)).symm ▸ ⟨rfl, huri⟩
    | resourceLink hkind huri =>
      have hlink : contentKind item = "resource_link" := (contentKind_eq_iff (by decide)).2 hkind
      have hres : ¬ contentKind item = "resource" := by
        rw [hlink]
        decide
      rw [if_neg hres, if_pos hlink]
      exact ⟨rfl, huri⟩

theorem rewrites_block (endpoint : String) :
    Rewrites (encodeResourceUri endpoint) (fun item path uri => BlockSlot item uri path)
      (rewritePromptMessageContentBlock endpoint) := by
  have hresource := (Rewrites.string (g := encodeResourceUri endpoint)).key "uri" |>.key "resource"
  have hlink := (Rewrites.string (g := encodeResourceUri endpoint)).key "uri"
  have hwalk : rewritePromptMessageContentBlock endpoint = fun item =>
      if contentKind item = "resource" then
        modifyKey "resource" (modifyKey "uri" (mapStr (encodeResourceUri endpoint))) item
      else if contentKind item = "resource_link" then
        modifyKey "uri" (mapStr (encodeResourceUri endpoint)) item
      else item := by
    funext item
    rw [← mapObject_wrapUriField]
    rfl
  rw [hwalk]
  exact (hresource.ite (hlink.ite .none)).congr blockSlots_iff

/-! ## Tool results -/

inductive ToolCallSlot (result : Json) (uri : String) : Path → Prop
  | resourceUri : result.locate [.key "_meta", .key "ui", .key "resourceUri"] = some (.str uri) →
      ToolCallSlot result uri [.key "_meta", .key "ui", .key "resourceUri"]
  | outputTemplate : result.locate [.key "_meta", .key "openai/outputTemplate"] = some (.str uri) →
      ToolCallSlot result uri [.key "_meta", .key "openai/outputTemplate"]
  | content {i : ℕ} {item : Json} {path : Path} :
      result.locate [.key "content", .item i] = some item → BlockSlot item uri path →
      ToolCallSlot result uri (.key "content" :: .item i :: path)

theorem metaSlots_iff {result : Json} {uri : String} :
    atKey "_meta" (fun v path s =>
        atKey "ui" (atKey "resourceUri" fun v path s => path = [] ∧ v = .str s) v path s ∨
        atKey "openai/outputTemplate" (fun v path s => path = [] ∧ v = .str s) v path s) result path uri ↔
      path = [.key "_meta", .key "ui", .key "resourceUri"] ∧
          result.locate [.key "_meta", .key "ui", .key "resourceUri"] = some (.str uri) ∨
        path = [.key "_meta", .key "openai/outputTemplate"] ∧
          result.locate [.key "_meta", .key "openai/outputTemplate"] = some (.str uri) := by
  constructor
  · rintro ⟨w, path', rfl, hw, hs | hs⟩
    · obtain ⟨rfl, huri⟩ := atKey_atKey_string_iff.1 hs
      exact .inl ⟨rfl, Option.bind_eq_some_iff.2 ⟨w, hw, huri⟩⟩
    · obtain ⟨rfl, huri⟩ := atKey_string_iff.1 hs
      exact .inr ⟨rfl, Option.bind_eq_some_iff.2 ⟨w, hw, huri⟩⟩
  · rintro (⟨rfl, huri⟩ | ⟨rfl, huri⟩)
    · obtain ⟨w, hw, huri⟩ := Option.bind_eq_some_iff.1 huri
      exact ⟨w, _, rfl, hw, .inl (atKey_atKey_string_iff.2 ⟨rfl, huri⟩)⟩
    · obtain ⟨w, hw, huri⟩ := Option.bind_eq_some_iff.1 huri
      exact ⟨w, _, rfl, hw, .inr (atKey_string_iff.2 ⟨rfl, huri⟩)⟩

/-- The slots of the items of an array that stands at a key. -/
theorem atKey_atItems_iff {slot : Slots} :
    atKey k (atItems slot) v path s ↔
      ∃ i item path', path = .key k :: .item i :: path' ∧ v.locate [.key k, .item i] = some item ∧
        slot item path' s := by
  constructor
  · rintro ⟨w, _, rfl, hw, i, item, path', rfl, hitem, hs⟩
    rw [← locate_singleton] at hitem
    exact ⟨i, item, path', rfl, Option.bind_eq_some_iff.2 ⟨w, hw, hitem⟩, hs⟩
  · rintro ⟨i, item, path', rfl, hitem, hs⟩
    obtain ⟨w, hw, hitem⟩ := Option.bind_eq_some_iff.1 hitem
    rw [locate_singleton] at hitem
    exact ⟨w, _, rfl, hw, i, item, path', rfl, hitem, hs⟩

theorem rewrites_toolCallResult (endpoint : String) :
    Rewrites (encodeResourceUri endpoint) (fun result path uri => ToolCallSlot result uri path)
      fun result => rewriteToolCallResult result endpoint false := by
  have hstring := Rewrites.string (g := encodeResourceUri endpoint)
  have hmeta := ((hstring.key "resourceUri").keys (show "ui" ≠ "openai/outputTemplate" by decide) hstring)
  have hwalk : (fun result => rewriteToolCallResult result endpoint false) = fun result =>
      modifyKey "content" (mapArray (rewritePromptMessageContentBlock endpoint))
        (modifyKey "_meta" (fun v => modifyKey "openai/outputTemplate" (mapStr (encodeResourceUri endpoint))
          (modifyKey "ui" (modifyKey "resourceUri" (mapStr (encodeResourceUri endpoint))) v)) result) := by
    funext result
    rw [← mapObject_rewriteMetaUiPointers]
    cases result <;> rfl
  rw [hwalk]
  refine (hmeta.keys (show "_meta" ≠ "content" by decide) (rewrites_block endpoint).items).congr
    fun result path uri => ?_
  rw [metaSlots_iff, atKey_atItems_iff]
  constructor
  · rintro ((⟨rfl, huri⟩ | ⟨rfl, huri⟩) | ⟨i, item, path', rfl, hitem, hblock⟩)
    · exact .resourceUri huri
    · exact .outputTemplate huri
    · exact .content hitem hblock
  · intro h
    cases h with
    | resourceUri huri => exact .inl (.inl ⟨rfl, huri⟩)
    | outputTemplate huri => exact .inl (.inr ⟨rfl, huri⟩)
    | content hitem hblock => exact .inr ⟨_, _, _, rfl, hitem, hblock⟩

/-! ## Prompts -/

/-- The slots of a `prompts/get` result: a message holds one block or an array of them. -/
inductive PromptGetSlot (result : Json) (uri : String) : Path → Prop
  | block {i : ℕ} {content : Json} {path : Path} :
      result.locate [.key "messages", .item i, .key "content"] = some content →
      BlockSlot content uri path →
      PromptGetSlot result uri (.key "messages" :: .item i :: .key "content" :: path)
  | blocks {i j : ℕ} {item : Json} {path : Path} :
      result.locate [.key "messages", .item i, .key "content", .item j] = some item →
      BlockSlot item uri path →
      PromptGetSlot result uri (.key "messages" :: .item i :: .key "content" :: .item j :: path)

theorem contentSlots_iff (content : Json) (path : Path) (uri : String) :
    (if content.asArray.isSome then atItems (fun item path uri => BlockSlot item uri path) content path uri
      else BlockSlot content uri path) ↔
      BlockSlot content uri path ∨ atItems (fun item path uri => BlockSlot item uri path) content path uri := by
  cases content with
  | arr items =>
    have hblock : ¬ BlockSlot (.arr items) uri path := by
      intro h
      cases h with
      | resource hkind => cases hkind
      | resourceLink hkind => cases hkind
    simp [asArray, hblock]
  | _ =>
    simp [asArray, atItems, child]

theorem rewrites_content (endpoint : String) :
    Rewrites (encodeResourceUri endpoint)
      (fun content path uri => BlockSlot content uri path ∨
        atItems (fun item path uri => BlockSlot item uri path) content path uri)
      (rewriteContent endpoint) := by
  have hwalk : rewriteContent endpoint = fun content =>
      if content.asArray.isSome then mapArray (rewritePromptMessageContentBlock endpoint) content
      else rewritePromptMessageContentBlock endpoint content := by
    funext content
    cases content <;> rfl
  rw [hwalk]
  exact ((rewrites_block endpoint).items.ite (rewrites_block endpoint)).congr contentSlots_iff

theorem rewrites_promptGetResult (endpoint : String) :
    Rewrites (encodeResourceUri endpoint) (fun result path uri => PromptGetSlot result uri path)
      fun result => rewritePromptGetResult result endpoint false := by
  refine (((rewrites_content endpoint).key "content").items.key "messages").congr fun result path uri => ?_
  rw [atKey_atItems_iff]
  constructor
  · rintro ⟨i, message, _, rfl, hmessage, content, path', rfl, hcontent, hs⟩
    rw [← locate_singleton] at hcontent
    rcases hs with hblock | ⟨j, item, path'', rfl, hitem, hblock⟩
    · exact .block (locate_append_eq_some.2 ⟨message, hmessage, hcontent⟩) hblock
    · rw [← locate_singleton] at hitem
      have hblocks := locate_append_eq_some.2 ⟨content, hcontent, hitem⟩
      exact .blocks (locate_append_eq_some.2 ⟨message, hmessage, hblocks⟩) hblock
  · intro h
    cases h with
    | @block i content path hcontent hblock =>
      obtain ⟨message, hmessage, hcontent⟩ :=
        (locate_append_eq_some (p := [.key "messages", .item i]) (q := [.key "content"])).1 hcontent
      rw [locate_singleton] at hcontent
      exact ⟨i, message, _, rfl, hmessage, content, path, rfl, hcontent, .inl hblock⟩
    | @blocks i j item path hitem hblock =>
      obtain ⟨message, hmessage, hitem⟩ :=
        (locate_append_eq_some (p := [.key "messages", .item i]) (q := [.key "content", .item j])).1 hitem
      obtain ⟨content, hcontent, hitem⟩ := Option.bind_eq_some_iff.1 hitem
      rw [locate_singleton] at hitem
      exact ⟨i, message, _, rfl, hmessage, content, _, rfl, hcontent, .inr ⟨j, item, path, rfl, hitem, hblock⟩⟩

end EndaraRelay
