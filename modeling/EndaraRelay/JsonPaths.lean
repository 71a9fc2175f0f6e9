import EndaraRelay.Json

/-!
# Paths into JSON values

What stands where in a value, and functions that rewrite the strings in some places and nothing else.

**Paths.** A path goes through keys of objects and items of arrays. `Json.nodeAt` is what stands at its
end, without what stands further down: a scalar, the length of an array, the keys of an object. The keys
of a `serde_json::Map` are distinct, so the nodes at all paths are the whole value.

**Rewriting** (`Rewrites`). `f` maps the string in each slot of a value, and the node at any other path is
what it was. A function that edits one field, or each item of an array, inherits the slots of what it does
there; one edit after another has the slots of both, when neither moves the other's.
-/

namespace EndaraRelay

namespace Json

/-- A step into a value. -/
inductive Step where
  | key (k : String)
  | item (i : ℕ)

abbrev Path := List Step

/-- A value without what stands further down. -/
inductive Node where
  | null
  | bool (b : Bool)
  | num (literal : String)
  | str (s : String)
  | arr (length : ℕ)
  | obj (keys : List String)

def node : Json → Node
  | .null => .null
  | .bool b => .bool b
  | .num literal => .num literal
  | .str s => .str s
  | .arr items => .arr items.length
  | .obj fields => .obj (fields.map Prod.fst)

def child : Json → Step → Option Json
  | .obj fields, .key k => Fields.get fields k
  | .arr items, .item i => items[i]?
  | _, _ => none

def locate : Json → Path → Option Json
  | v, [] => some v
  | v, step :: path => (v.child step).bind fun w => w.locate path

def nodeAt (v : Json) (path : Path) : Option Node := (v.locate path).map node

/-- Edit a string in place; any other value stays as it is. -/
def mapStr (g : String → String) : Json → Json
  | .str s => .str (g s)
  | v => v

@[simp] theorem locate_nil (v : Json) : v.locate [] = some v := rfl

@[simp] theorem locate_cons (v : Json) (step : Step) (path : Path) :
    v.locate (step :: path) = (v.child step).bind fun w => w.locate path := rfl

theorem locate_append_eq_some {v w : Json} {p q : Path} :
    v.locate (p ++ q) = some w ↔ ∃ u, v.locate p = some u ∧ u.locate q = some w := by
  induction p generalizing v with
  | nil => simp
  | cons step p ih =>
    rw [List.cons_append, locate_cons, locate_cons, Option.bind_eq_some_iff]
    constructor
    · rintro ⟨u, hu, hw⟩
      obtain ⟨u', hu', hw'⟩ := ih.1 hw
      exact ⟨u', Option.bind_eq_some_iff.2 ⟨u, hu, hu'⟩, hw'⟩
    · rintro ⟨u', hu', hw'⟩
      obtain ⟨u, hu, hw⟩ := Option.bind_eq_some_iff.1 hu'
      exact ⟨u, hu, ih.2 ⟨u', hw, hw'⟩⟩

@[simp] theorem locate_singleton (v : Json) (step : Step) : v.locate [step] = v.child step := by
  cases h : v.child step <;> simp [h]

@[simp] theorem nodeAt_nil (v : Json) : v.nodeAt [] = some v.node := rfl

@[simp] theorem nodeAt_cons (v : Json) (step : Step) (path : Path) :
    v.nodeAt (step :: path) = (v.child step).bind fun w => w.nodeAt path := by
  rw [nodeAt, locate_cons, Option.map_bind]
  rfl

theorem child_key (v : Json) (k : String) : v.child (.key k) = v.get k := by
  cases v <;> rfl

end Json

theorem Fields.keys_modify (m : Fields) (key : String) (f : Json → Json) :
    (m.modify key f).map Prod.fst = m.map Prod.fst := by
  induction m with
  | nil => rfl
  | cons kw m ih =>
    obtain ⟨k, w⟩ := kw
    by_cases h : key = k
    · simp [Fields.modify, h]
    · simp [Fields.modify, h, ih]

namespace Json

/-- Edit the value at a key in place. -/
def modifyKey (key : String) (f : Json → Json) : Json → Json := mapObject fun m => m.modify key f

@[simp] theorem node_modifyKey (key : String) (f : Json → Json) (v : Json) : (modifyKey key f v).node = v.node := by
  cases v with
  | obj m => simp [modifyKey, mapObject, node, Fields.keys_modify]
  | _ => rfl

@[simp] theorem node_mapArray (f : Json → Json) (v : Json) : (mapArray f v).node = v.node := by
  cases v with
  | arr items => simp [mapArray, node]
  | _ => rfl

theorem child_modifyKey_self (key : String) (f : Json → Json) (v : Json) :
    (modifyKey key f v).child (.key key) = (v.child (.key key)).map f := by
  cases v with
  | obj m => simp [modifyKey, mapObject, child, Fields.get_modify]
  | _ => rfl

theorem child_modifyKey {key : String} {step : Step} (h : step ≠ .key key) (f : Json → Json) (v : Json) :
    (modifyKey key f v).child step = v.child step := by
  cases v with
  | obj m =>
    cases step with
    | key k =>
      have hne : k ≠ key := fun hk => h (hk ▸ rfl)
      simp [modifyKey, mapObject, child, Fields.get_modify, hne]
    | item i => rfl
  | _ => rfl

theorem child_item_mapArray (f : Json → Json) (v : Json) (i : ℕ) :
    (mapArray f v).child (.item i) = (v.child (.item i)).map f := by
  cases v with
  | arr items => simp [mapArray, child]
  | _ => rfl

theorem child_key_mapArray (f : Json → Json) (v : Json) (k : String) :
    (mapArray f v).child (.key k) = v.child (.key k) := by
  cases v <;> rfl

end Json

/-! ## Rewriting the strings in some places -/

open Json

/-- `slot v path s`: the string `s` stands in a slot of `v`, at the end of `path`. -/
abbrev Slots := Json → Path → String → Prop

/-- The slots of what stands at a key. -/
def atKey (k : String) (slot : Slots) : Slots := fun v path s =>
  ∃ w path', path = .key k :: path' ∧ v.child (.key k) = some w ∧ slot w path' s

/-- The slots of the items of an array. -/
def atItems (slot : Slots) : Slots := fun v path s =>
  ∃ i w path', path = .item i :: path' ∧ v.child (.item i) = some w ∧ slot w path' s

/-- `f` maps the strings in the slots, and nothing else. -/
structure Rewrites (g : String → String) (slot : Slots) (f : Json → Json) : Prop where
  stands : ∀ {v path s}, slot v path s → v.nodeAt path = some (.str s)
  wraps : ∀ {v path s}, slot v path s → (f v).nodeAt path = some (.str (g s))
  frame : ∀ {v path}, (∀ s, ¬ slot v path s) → (f v).nodeAt path = v.nodeAt path

namespace Rewrites

variable {g : String → String} {slot slot' : Slots} {f f' : Json → Json}

theorem congr (h : Rewrites g slot f) (hslot : ∀ v path s, slot v path s ↔ slot' v path s) :
    Rewrites g slot' f where
  stands hs := h.stands ((hslot _ _ _).2 hs)
  wraps hs := h.wraps ((hslot _ _ _).2 hs)
  frame hs := h.frame fun s hs' => hs s ((hslot _ _ _).1 hs')

theorem none : Rewrites g (fun _ _ _ => False) fun v => v where
  stands := False.elim
  wraps := False.elim
  frame _ := rfl

/-- The value itself, when it is a string. -/
theorem string : Rewrites g (fun v path s => path = [] ∧ v = .str s) (mapStr g) where
  stands h := by
    obtain ⟨rfl, rfl⟩ := h
    rfl
  wraps h := by
    obtain ⟨rfl, rfl⟩ := h
    rfl
  frame {v path} h := by
    cases v with
    | str s =>
      cases path with
      | nil => exact absurd ⟨rfl, rfl⟩ (h s)
      | cons step path => rfl
    | _ => rfl

theorem key (k : String) (h : Rewrites g slot f) : Rewrites g (atKey k slot) (modifyKey k f) where
  stands := by
    rintro v path s ⟨w, path', rfl, hw, hs⟩
    rw [nodeAt_cons, hw]
    exact h.stands hs
  wraps := by
    rintro v path s ⟨w, path', rfl, hw, hs⟩
    rw [nodeAt_cons, child_modifyKey_self, hw]
    exact h.wraps hs
  frame := by
    intro v path hframe
    cases path with
    | nil => rw [nodeAt_nil, nodeAt_nil, node_modifyKey]
    | cons step path =>
      rw [nodeAt_cons, nodeAt_cons]
      by_cases hstep : step = .key k
      · subst hstep
        rw [child_modifyKey_self]
        cases hw : v.child (.key k) with
        | none => rfl
        | some w => exact h.frame fun s hs => hframe s ⟨w, path, rfl, hw, hs⟩
      · rw [child_modifyKey hstep]

theorem items (h : Rewrites g slot f) : Rewrites g (atItems slot) (mapArray f) where
  stands := by
    rintro v path s ⟨i, w, path', rfl, hw, hs⟩
    rw [nodeAt_cons, hw]
    exact h.stands hs
  wraps := by
    rintro v path s ⟨i, w, path', rfl, hw, hs⟩
    rw [nodeAt_cons, child_item_mapArray, hw]
    exact h.wraps hs
  frame := by
    intro v path hframe
    cases path with
    | nil => rw [nodeAt_nil, nodeAt_nil, node_mapArray]
    | cons step path =>
      rw [nodeAt_cons, nodeAt_cons]
      cases step with
      | key k => rw [child_key_mapArray]
      | item i =>
        rw [child_item_mapArray]
        cases hw : v.child (.item i) with
        | none => rfl
        | some w => exact h.frame fun s hs => hframe s ⟨i, w, path, rfl, hw, hs⟩

/-- One edit after another: the slots of the second are where they were, and none of them is the first's. -/
theorem seq (h : Rewrites g slot f) (h' : Rewrites g slot' f')
    (hsame : ∀ v path s, slot' (f v) path s ↔ slot' v path s)
    (hdisjoint : ∀ {v path s s'}, slot v path s → ¬ slot' v path s') :
    Rewrites g (fun v path s => slot v path s ∨ slot' v path s) fun v => f' (f v) where
  stands := by
    rintro v path s (hs | hs)
    · exact h.stands hs
    · exact h'.stands hs
  wraps := by
    rintro v path s (hs | hs)
    · rw [h'.frame fun s' hs' => hdisjoint hs ((hsame _ _ _).1 hs')]
      exact h.wraps hs
    · exact h'.wraps ((hsame _ _ _).2 hs)
  frame := by
    intro v path hframe
    rw [h'.frame fun s hs => hframe s (.inr ((hsame _ _ _).1 hs)), h.frame fun s hs => hframe s (.inl hs)]

theorem keys {k k' : String} (hne : k ≠ k') (h : Rewrites g slot f) (h' : Rewrites g slot' f') :
    Rewrites g (fun v path s => atKey k slot v path s ∨ atKey k' slot' v path s)
      fun v => modifyKey k' f' (modifyKey k f v) := by
  have hstep : Step.key k' ≠ .key k := fun h => hne (Step.key.inj h).symm
  refine (h.key k).seq (h'.key k') (fun v path s => ?_) ?_
  · rw [atKey, atKey, child_modifyKey hstep]
  · rintro v path s s' ⟨w, path', rfl, -, -⟩ ⟨w', path'', heq, -, -⟩
    exact hstep (List.cons.inj heq).1.symm

/-- One edit or the other, as the value says. -/
theorem ite {c : Json → Prop} [DecidablePred c] (h : Rewrites g slot f) (h' : Rewrites g slot' f') :
    Rewrites g (fun v path s => if c v then slot v path s else slot' v path s)
      fun v => if c v then f v else f' v where
  stands {v path s} hs := by
    by_cases hc : c v
    · exact h.stands (by rwa [if_pos hc] at hs)
    · exact h'.stands (by rwa [if_neg hc] at hs)
  wraps {v path s} hs := by
    by_cases hc : c v
    · rw [if_pos hc] at hs ⊢
      exact h.wraps hs
    · rw [if_neg hc] at hs ⊢
      exact h'.wraps hs
  frame {v path} hframe := by
    by_cases hc : c v
    · rw [if_pos hc]
      exact h.frame fun s hs => hframe s (by rwa [if_pos hc])
    · rw [if_neg hc]
      exact h'.frame fun s hs => hframe s (by rwa [if_neg hc])

end Rewrites

end EndaraRelay
