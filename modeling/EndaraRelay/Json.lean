import Mathlib.Data.List.Basic

/-!
# JSON values

The JSON values the relay passes around, with the accessors the code uses on them.

- `Json` is `serde_json::Value`. Numbers keep their literal: nothing in the model computes with
  them.
- `Fields` is `serde_json::Map`, as a list of keys and values. `Fields.insert` replaces the value
  of a key in place; `Fields.modify` is the `get_mut` idiom, which edits a value where it stands.

The lemmas say how the two updates act on a lookup: the key that is written gets the new value, every
other key keeps its own.
-/

namespace EndaraRelay

/-- A JSON value. -/
inductive Json where
  | null
  | bool (b : Bool)
  | num (literal : String)
  | str (s : String)
  | arr (items : List Json)
  | obj (fields : List (String × Json))

/-- A JSON object. -/
abbrev Fields := List (String × Json)

namespace Json

def asStr : Json → Option String
  | .str s => some s
  | _ => none

def asObject : Json → Option Fields
  | .obj fields => some fields
  | _ => none

def asArray : Json → Option (List Json)
  | .arr items => some items
  | _ => none

/-- Edit an object in place; any other value stays as it is. -/
def mapObject (f : Fields → Fields) : Json → Json
  | .obj fields => .obj (f fields)
  | v => v

/-- Edit the items of an array in place; any other value stays as it is. -/
def mapArray (f : Json → Json) : Json → Json
  | .arr items => .arr (items.map f)
  | v => v

end Json

namespace Fields

def get (m : Fields) (key : String) : Option Json := m.lookup key

/-- Set the value of a key, in place when the key is there. -/
def insert : Fields → String → Json → Fields
  | [], key, v => [(key, v)]
  | (k, w) :: m, key, v => if key = k then (k, v) :: m else (k, w) :: Fields.insert m key v

/-- Edit the value of a key in place; nothing happens when the key is not there. -/
def modify : Fields → String → (Json → Json) → Fields
  | [], _, _ => []
  | (k, w) :: m, key, f => if key = k then (k, f w) :: m else (k, w) :: Fields.modify m key f

@[simp] theorem get_nil (key : String) : Fields.get [] key = none := rfl

@[simp] theorem get_cons (k key : String) (w : Json) (m : Fields) :
    Fields.get ((k, w) :: m) key = if key = k then some w else Fields.get m key := by
  by_cases h : key = k
  · simp [Fields.get, h]
  · simp [Fields.get, List.lookup_cons, beq_false_of_ne h, h]

theorem get_insert (m : Fields) (key k : String) (v : Json) :
    Fields.get (m.insert key v) k = if k = key then some v else Fields.get m k := by
  induction m with
  | nil => simp [Fields.insert]
  | cons kw m ih =>
    obtain ⟨k', w⟩ := kw
    by_cases h : key = k'
    · subst h
      simp only [Fields.insert, if_true, get_cons]
      split <;> rfl
    · by_cases hk : k = k'
      · have hne : ¬ k' = key := fun h' => h h'.symm
        simp [Fields.insert, h, hk, hne]
      · simp [Fields.insert, h, hk, ih]

theorem get_modify (m : Fields) (key k : String) (f : Json → Json) :
    Fields.get (m.modify key f) k = if k = key then (Fields.get m k).map f else Fields.get m k := by
  induction m with
  | nil => simp [Fields.modify]
  | cons kw m ih =>
    obtain ⟨k', w⟩ := kw
    by_cases h : key = k'
    · subst h
      simp only [Fields.modify, if_true, get_cons]
      split <;> simp_all
    · by_cases hk : k = k'
      · have hne : ¬ k' = key := fun h' => h h'.symm
        simp [Fields.modify, h, hk, hne]
      · simp [Fields.modify, h, hk, ih]

end Fields

/-- `Value::get` with a key: the field of an object, nothing for any other value. -/
def Json.get (v : Json) (key : String) : Option Json := v.asObject.bind fun m => Fields.get m key

@[simp] theorem Json.get_obj (m : Fields) (key : String) :
    Json.get (.obj m) key = Fields.get m key := rfl

end EndaraRelay
