import EndaraRelay.RewrittenSlots

/-!
# TOON conversion

`toon_convert.rs`: the text blocks of a tool result whose text is a JSON object or array are written in
TOON. The JSON parser and the TOON encoder are parameters, and nothing is assumed of them.

The conversion edits `text` where the kind is `text`, the rewriting of `tool_call_rewrite.rs` edits other
fields of blocks of other kinds, and neither edits a kind or `isError`. So each leaves the other's blocks
alone, and the two commute (`rewrite_toonify_comm`).
-/

namespace EndaraRelay

open Json

def Json.asBool : Json → Option Bool
  | .bool b => some b
  | _ => none

/-- An object or an array: what TOON is for. -/
def Json.isContainer (v : Json) : Bool := v.asObject.isSome || v.asArray.isSome

section Toonify

variable (fromStr : List Char → Option Json) (encodeDefault : Json → Option String)

/-- One content entry: a text that is no JSON, a scalar and a failed encoding stay as they are. -/
def toonifyItem (item : Json) : Json :=
  if (item.get "type").bind asStr ≠ some "text" then item
  else
    match (item.get "text").bind asStr with
    | none => item
    | some text =>
      match fromStr text.toList with
      | none => item
      | some jsonVal =>
        if !jsonVal.isContainer then item
        else
          match encodeDefault jsonVal with
          | none => item
          | some toonText => item.mapObject fun m => m.insert "text" (.str toonText)

/-- Convert the entries of a result; an error result stays as it is. -/
def toonifyCallResult (result : Json) : Json :=
  if ((result.get "isError").bind asBool).getD false then result
  else
    result.mapObject fun m =>
      m.modify "content" (mapArray (toonifyItem fromStr encodeDefault))

/-! ## One entry -/

variable {fromStr encodeDefault}

theorem contentKind_ne_text_iff {item : Json} :
    contentKind item ≠ "text" ↔ (item.get "type").bind asStr ≠ some "text" := by
  rw [contentKind]
  cases (item.get "type").bind asStr with
  | none => simp
  | some kind => simp

theorem toonifyItem_of_ne_text {item : Json} (h : contentKind item ≠ "text") :
    toonifyItem fromStr encodeDefault item = item :=
  if_pos (contentKind_ne_text_iff.1 h)

/-- The conversion sets the text of an object, or does nothing. -/
theorem toonifyItem_eq (item : Json) :
    toonifyItem fromStr encodeDefault item = item ∨
      ∃ toonText, toonifyItem fromStr encodeDefault item =
        item.mapObject fun m => m.insert "text" (.str toonText) := by
  unfold toonifyItem
  split
  · exact .inl rfl
  · split
    · exact .inl rfl
    · split
      · exact .inl rfl
      · split
        · exact .inl rfl
        · split
          · exact .inl rfl
          · exact .inr ⟨_, rfl⟩

theorem contentKind_toonifyItem (item : Json) :
    contentKind (toonifyItem fromStr encodeDefault item) = contentKind item := by
  have hne : "type" ≠ "text" := by decide
  obtain h | ⟨toonText, h⟩ := @toonifyItem_eq fromStr encodeDefault item
  · rw [h]
  · rw [h]
    cases item with
    | obj m => simp [contentKind, mapObject, Fields.get_insert, hne]
    | _ => rfl

theorem rewriteBlock_of_text {endpoint : String} {item : Json} (h : contentKind item = "text") :
    rewritePromptMessageContentBlock endpoint item = item := by
  have hres : ¬ "text" = "resource" := by decide
  have hlink : ¬ "text" = "resource_link" := by decide
  rw [rewritePromptMessageContentBlock, h, if_neg hres, if_neg hlink]

/-- The two edits of a content block in either order. -/
theorem rewrite_toonifyItem_comm (endpoint : String) (item : Json) :
    toonifyItem fromStr encodeDefault (rewritePromptMessageContentBlock endpoint item) =
      rewritePromptMessageContentBlock endpoint (toonifyItem fromStr encodeDefault item) := by
  by_cases h : contentKind item = "text"
  · have htoon : contentKind (toonifyItem fromStr encodeDefault item) = "text" := by
      rw [contentKind_toonifyItem, h]
    rw [rewriteBlock_of_text h, rewriteBlock_of_text htoon]
  · have hrewritten : contentKind (rewritePromptMessageContentBlock endpoint item) ≠ "text" := by
      rw [contentKind_rewrite]
      exact h
    rw [toonifyItem_of_ne_text h, toonifyItem_of_ne_text hrewritten]

/-! ## Whole results -/

theorem Fields.modify_modify (m : Fields) (key : String) (f f' : Json → Json) :
    (m.modify key f).modify key f' = m.modify key fun v => f' (f v) := by
  induction m with
  | nil => rfl
  | cons kw m ih =>
    obtain ⟨k, w⟩ := kw
    by_cases h : key = k
    · simp [Fields.modify, h]
    · simp [Fields.modify, h, ih]

theorem Fields.modify_comm (m : Fields) {key key' : String} (hne : key ≠ key') (f f' : Json → Json) :
    (m.modify key f).modify key' f' = (m.modify key' f').modify key f := by
  induction m with
  | nil => rfl
  | cons kw m ih =>
    obtain ⟨k, w⟩ := kw
    by_cases h : key = k
    · subst h
      have h' : ¬ key' = key := fun hk => hne hk.symm
      simp [Fields.modify, h']
    · by_cases h' : key' = k
      · simp [Fields.modify, h, h']
      · simp [Fields.modify, h, h', ih]

theorem mapArray_comm {f f' : Json → Json} (h : ∀ v, f (f' v) = f' (f v)) (v : Json) :
    mapArray f (mapArray f' v) = mapArray f' (mapArray f v) := by
  cases v with
  | arr items => simp [mapArray, h]
  | _ => rfl

/-- The rewriting edits `_meta` and `content`. -/
theorem get_rewriteToolCallResult {key : String} (hmeta : key ≠ "_meta") (hcontent : key ≠ "content")
    (result : Json) (endpoint : String) :
    (rewriteToolCallResult result endpoint false).get key = result.get key := by
  cases result with
  | obj m => simp [rewriteToolCallResult, mapObject, Fields.get_modify, hmeta, hcontent]
  | _ => rfl

theorem rewrite_toonify_comm (result : Json) (endpoint : String) (skipWrap : Bool) :
    toonifyCallResult fromStr encodeDefault (rewriteToolCallResult result endpoint skipWrap) =
      rewriteToolCallResult (toonifyCallResult fromStr encodeDefault result) endpoint skipWrap := by
  cases skipWrap with
  | true => rfl
  | false =>
    have herror := get_rewriteToolCallResult (show "isError" ≠ "_meta" by decide) (by decide) result endpoint
    rw [toonifyCallResult, toonifyCallResult, herror]
    by_cases h : ((result.get "isError").bind asBool).getD false
    · rw [if_pos h, if_pos h]
    · rw [if_neg h, if_neg h]
      cases result with
      | obj m =>
        have hne : "_meta" ≠ "content" := by decide
        have hcomm : ∀ v, mapArray (toonifyItem fromStr encodeDefault)
            (mapArray (rewritePromptMessageContentBlock endpoint) v) =
              mapArray (rewritePromptMessageContentBlock endpoint)
                (mapArray (toonifyItem fromStr encodeDefault) v) :=
          mapArray_comm (rewrite_toonifyItem_comm endpoint)
        simp only [rewriteToolCallResult, mapObject, Bool.false_eq_true, if_false, Fields.modify_modify,
          Fields.modify_comm _ hne.symm, hcomm]
      | _ => rfl

end Toonify

/-- **Rewriting touches its slots only and commutes with TOON**: in a tool result and in a prompt result
exactly the enumerated strings are wrapped, a lone endpoint's result is untouched, and the conversion may
come before or after. -/
theorem rewriting_touches_slots (endpoint : String) :
    Rewrites (encodeResourceUri endpoint) (fun result path uri => ToolCallSlot result uri path)
      (fun result => rewriteToolCallResult result endpoint false) ∧
    Rewrites (encodeResourceUri endpoint) (fun result path uri => PromptGetSlot result uri path)
      (fun result => rewritePromptGetResult result endpoint false) ∧
    (∀ result, rewriteToolCallResult result endpoint true = result ∧
      rewritePromptGetResult result endpoint true = result) ∧
    ∀ fromStr encodeDefault result skipWrap,
      toonifyCallResult fromStr encodeDefault (rewriteToolCallResult result endpoint skipWrap) =
        rewriteToolCallResult (toonifyCallResult fromStr encodeDefault result) endpoint skipWrap :=
  ⟨rewrites_toolCallResult endpoint, rewrites_promptGetResult endpoint, fun _ => ⟨rfl, rfl⟩,
    fun _ _ result skipWrap => rewrite_toonify_comm result endpoint skipWrap⟩

end EndaraRelay
