import EndaraRelay.Lib.Table

/-!
# TOML documents

Values and tables of a TOML document, and what a typed reader makes of them.

**Tables** are lists of fields. A key that is written moves to the end, so the order of the keys means
nothing; what counts is what `get` finds.

**Reading.** A field that is required has to be there and to be of its type. An optional one may be absent,
but when it is there it has to be of its type. Keys nobody asks for are ignored.

**Writing.** `ofFields` builds a table from fields that may be absent. When the keys are distinct, each field
is found under its key as it was given (`get_ofFields`), so it is read back by the reader of its type
(`required_of_get`, `optional_of_get`).
-/

namespace Verif.Toml

/-- A value. Numbers and dates keep their literal. -/
inductive Value where
  | string (s : String)
  | boolean (b : Bool)
  | scalar (literal : String)
  | array (items : List Value)
  | table (fields : List (String × Value))

abbrev Table := List (String × Value)

namespace Value

def asString : Value → Option String
  | .string s => some s
  | _ => none

def asBool : Value → Option Bool
  | .boolean b => some b
  | _ => none

def asArray : Value → Option (List Value)
  | .array items => some items
  | _ => none

def asTable : Value → Option Table
  | .table fields => some fields
  | _ => none

def strings (l : List String) : Value := .array (l.map .string)

def asStrings (v : Value) : Option (List String) := v.asArray.bind (·.mapM asString)

def stringMap (l : List (String × String)) : Value := .table (l.map fun e => (e.1, .string e.2))

def asStringMap (v : Value) : Option (List (String × String)) :=
  v.asTable.bind (·.mapM fun f => f.2.asString.map (f.1, ·))

theorem asStrings_strings (l : List String) : (strings l).asStrings = some l := by
  show (l.map Value.string).mapM asString = some l
  induction l with
  | nil => rfl
  | cons s l ih =>
    rw [List.map_cons, List.mapM_cons, ih]
    rfl

theorem asStringMap_stringMap (l : List (String × String)) : (stringMap l).asStringMap = some l := by
  show (l.map fun e => (e.1, Value.string e.2)).mapM (fun f => f.2.asString.map (f.1, ·)) = some l
  induction l with
  | nil => rfl
  | cons e l ih =>
    rw [List.map_cons, List.mapM_cons, ih]
    rfl

end Value

namespace Table

def get (t : Table) (key : String) : Option Value := t.lookup key

def remove (t : Table) (key : String) : Table := t.filter fun f => f.1 ≠ key

def insert (t : Table) (key : String) (v : Value) : Table := t.remove key ++ [(key, v)]

variable {t : Table} {key k : String} {v : Value}

theorem get_remove_self (t : Table) (key : String) : (t.remove key).get key = none := by
  refine List.lookup_eq_none_iff.2 fun f hf => ?_
  rw [bne_iff_ne]
  exact Ne.symm (of_decide_eq_true (List.mem_filter.1 hf).2)

theorem get_remove_ne (h : k ≠ key) : (t.remove key).get k = t.get k := by
  refine lookup_filter fun f _ hf => ?_
  rw [hf]
  exact decide_eq_true h

theorem get_insert_self (t : Table) (key : String) (v : Value) : (t.insert key v).get key = some v := by
  unfold insert get
  rw [List.lookup_append]
  have hnone : (t.remove key).lookup key = none := get_remove_self t key
  rw [hnone]
  simp

theorem get_insert_ne (h : k ≠ key) : (t.insert key v).get k = t.get k := by
  unfold insert get
  rw [List.lookup_append]
  have hsame : (t.remove key).lookup k = t.lookup k := get_remove_ne h
  rw [hsame, List.lookup_cons, beq_false_of_ne h]
  simp

/-! ## Reading -/

variable {α : Type} {read : Value → Option α}

def required (read : Value → Option α) (t : Table) (key : String) : Option α := (t.get key).bind read

def optional (read : Value → Option α) (t : Table) (key : String) : Option (Option α) :=
  match t.get key with
  | some v => (read v).map some
  | none => some none

theorem required_of_get {f : α → Value} {a : α} (hread : ∀ a, read (f a) = some a)
    (h : t.get key = some (f a)) : t.required read key = some a := by
  rw [required, h]
  exact hread a

theorem optional_of_get {f : α → Value} {o : Option α} (hread : ∀ a, read (f a) = some a)
    (h : t.get key = o.map f) : t.optional read key = some o := by
  rw [optional, h]
  cases o with
  | none => rfl
  | some a =>
    show (read (f a)).map some = _
    rw [hread]
    rfl

theorem required_string {s : String} (h : t.get key = some (.string s)) :
    t.required Value.asString key = some s :=
  required_of_get (fun _ => rfl) h

theorem required_boolean {b : Bool} (h : t.get key = some (.boolean b)) :
    t.required Value.asBool key = some b :=
  required_of_get (fun _ => rfl) h

theorem optional_string {o : Option String} (h : t.get key = o.map .string) :
    t.optional Value.asString key = some o :=
  optional_of_get (fun _ => rfl) h

theorem optional_strings {o : Option (List String)} (h : t.get key = o.map Value.strings) :
    t.optional Value.asStrings key = some o :=
  optional_of_get Value.asStrings_strings h

theorem optional_stringMap {o : Option (List (String × String))} (h : t.get key = o.map Value.stringMap) :
    t.optional Value.asStringMap key = some o :=
  optional_of_get Value.asStringMap_stringMap h

theorem optional_congr {t' : Table} (read : Value → Option α) (h : t.get key = t'.get key) :
    t.optional read key = t'.optional read key := by
  rw [optional, optional, h]

/-! ## Writing -/

def ofFields (fields : List (String × Option Value)) : Table :=
  fields.filterMap fun f => f.2.map fun v => (f.1, v)

theorem get_ofFields_none {fields : List (String × Option Value)} (h : key ∉ fields.map (·.1)) :
    (ofFields fields).get key = none := by
  refine List.lookup_eq_none_iff.2 fun f hf => ?_
  obtain ⟨g, hg, hgf⟩ := List.mem_filterMap.1 hf
  obtain ⟨v, -, rfl⟩ := Option.map_eq_some_iff.1 hgf
  rw [bne_iff_ne]
  rintro rfl
  exact h (List.mem_map_of_mem hg)

/-- **Fields with distinct keys** are found as they were given. -/
theorem get_ofFields {fields : List (String × Option Value)} {o : Option Value}
    (hnd : (fields.map (·.1)).Nodup) (h : fields.lookup key = some o) : (ofFields fields).get key = o := by
  induction fields with
  | nil => cases h
  | cons f fields ih =>
    obtain ⟨k, w⟩ := f
    rw [List.map_cons, List.nodup_cons] at hnd
    rw [List.lookup_cons] at h
    by_cases hk : key = k
    · subst hk
      rw [beq_self_eq_true] at h
      obtain rfl := Option.some.inj h
      cases w with
      | none =>
        show (ofFields fields).get key = none
        exact get_ofFields_none hnd.1
      | some v =>
        show List.lookup key ((key, v) :: ofFields fields) = some v
        rw [List.lookup_cons, beq_self_eq_true]
    · rw [beq_false_of_ne hk] at h
      have hrest := ih hnd.2 h
      cases w with
      | none => exact hrest
      | some v =>
        show List.lookup key ((k, v) :: ofFields fields) = o
        rw [List.lookup_cons, beq_false_of_ne hk]
        exact hrest

end Table

end Verif.Toml
