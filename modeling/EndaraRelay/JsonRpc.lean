import EndaraRelay.Json

/-!
# JSON-RPC messages

What the transports read from a message of an upstream (`jsonrpc.rs`).

- A document may repeat a key. As a `Value` it keeps the last value of each (`Json.toValue`); a field
  of a struct that is there twice is an error (`Fields.field`).
- `JsonRpcResponse.fromJson` is the derived deserializer: unknown fields are skipped, a missing or
  null optional field is `None`, and an array in place of the object gives the fields in order.
- `isResponse`: what a response is, apart from what the transports take for one.
-/

namespace EndaraRelay

/-! ## Numbers -/

/-- The number that digits denote. -/
def digitsValue (ds : List Char) : Option Nat :=
  if !ds.isEmpty && ds.all Char.isDigit then
    some (ds.foldl (fun n c => 10 * n + (c.toNat - 48)) 0)
  else none

/-- The integer a literal denotes. Fractions, exponents and `-0` are read as floats. -/
def integerValue : List Char → Option Int
  | '-' :: ds => (digitsValue ds).bind fun n => if n = 0 then none else some (-n)
  | ds => (digitsValue ds).map Int.ofNat

namespace Json

def asU64 : Json → Option Nat
  | .num literal =>
    (integerValue literal.toList).bind fun n =>
      if 0 ≤ n ∧ n.toNat < UInt64.size then some n.toNat else none
  | _ => none

def asI64 : Json → Option Int
  | .num literal =>
    (integerValue literal.toList).bind fun n =>
      if -9223372036854775808 ≤ n ∧ n ≤ 9223372036854775807 then some n else none
  | _ => none

def isNull : Json → Bool
  | .null => true
  | _ => false

end Json

/-! ## Repeated keys -/

mutual

def Json.toValue : Json → Json
  | .arr items => .arr (Json.toValues items)
  | .obj fields => .obj (Fields.toMap [] fields)
  | v => v

def Json.toValues : List Json → List Json
  | [] => []
  | v :: vs => v.toValue :: Json.toValues vs

/-- Insert the fields one after the other: a later value replaces an earlier one. -/
def Fields.toMap (m : Fields) : List (String × Json) → Fields
  | [] => m
  | (key, v) :: rest => Fields.toMap (m.insert key v.toValue) rest

end

/-- A known field of a struct: missing, there, or repeated, which is an error. -/
def Fields.field (m : Fields) (key : String) : Option (Option Json) :=
  match m.filter fun kv => kv.1 == key with
  | [] => some none
  | [kv] => some (some kv.2)
  | _ => none

/-! ## Responses -/

structure JsonRpcError where
  code : Int
  message : String
  data : Option Json

structure JsonRpcResponse where
  jsonrpc : String
  result : Option Json
  error : Option JsonRpcError
  id : Option Nat

/-- A required field. -/
def required {α : Type} (decode : Json → Option α) (v : Option Json) : Option α := v.bind decode

/-- An optional field: missing and `null` are the same. -/
def optional {α : Type} (decode : Json → Option α) : Option Json → Option (Option α)
  | none | some .null => some none
  | some v => (decode v).map some

def JsonRpcError.fromFields (code message data : Option Json) : Option JsonRpcError := do
  let code ← required Json.asI64 code
  let message ← required Json.asStr message
  let data ← optional some data
  some { code, message, data }

def JsonRpcError.fromJson : Json → Option JsonRpcError
  | .obj m => do
    JsonRpcError.fromFields (← Fields.field m "code") (← Fields.field m "message")
      (← Fields.field m "data")
  | .arr [code, message, data] => JsonRpcError.fromFields (some code) (some message) (some data)
  | _ => none

def JsonRpcResponse.fromFields (jsonrpc result error id : Option Json) :
    Option JsonRpcResponse := do
  let jsonrpc ← required Json.asStr jsonrpc
  let result ← optional some result
  let error ← optional JsonRpcError.fromJson error
  let id ← optional Json.asU64 id
  some { jsonrpc, result, error, id }

def JsonRpcResponse.fromJson : Json → Option JsonRpcResponse
  | .obj m => do
    JsonRpcResponse.fromFields (← Fields.field m "jsonrpc") (← Fields.field m "result")
      (← Fields.field m "error") (← Fields.field m "id")
  | .arr [jsonrpc, result, error, id] =>
    JsonRpcResponse.fromFields (some jsonrpc) (some result) (some error) (some id)
  | _ => none

/-- A result, or an error that is not null. -/
def carriesAnswer (v : Json) : Bool :=
  (v.get "result").isSome || (v.get "error").any fun e => !e.isNull

/-- A response to the request with id `n`. -/
def isResponse (n : Nat) (v : Json) : Bool :=
  (v.get "id").bind Json.asU64 == some n && carriesAnswer v

/-! ## Repeated keys -/

variable {m : Fields} {key : String} {v : Option Json}

namespace Fields

theorem get_toMap (fields : List (String × Json)) (m : Fields) (key : String) :
    Fields.get (toMap m fields) key =
      ((fields.reverse.lookup key).map Json.toValue).or (Fields.get m key) := by
  induction fields generalizing m with
  | nil => simp [toMap]
  | cons kv fields ih =>
    obtain ⟨k, v⟩ := kv
    rw [toMap, ih, get_insert, List.reverse_cons, List.lookup_append]
    cases fields.reverse.lookup key with
    | some w => rfl
    | none =>
      by_cases hk : key = k
      · simp [hk]
      · simp [hk, List.lookup_cons, beq_false_of_ne hk]

theorem keys_insert (m : Fields) (key : String) (v : Json) :
    (m.insert key v).map Prod.fst =
      if key ∈ m.map Prod.fst then m.map Prod.fst else m.map Prod.fst ++ [key] := by
  induction m with
  | nil => simp [Fields.insert]
  | cons kv m ih =>
    obtain ⟨k, w⟩ := kv
    by_cases hk : key = k
    · simp [Fields.insert, hk]
    · rw [Fields.insert, if_neg hk, List.map_cons, List.map_cons, ih]
      by_cases hmem : key ∈ m.map Prod.fst
      · rw [if_pos hmem, if_pos (List.mem_cons_of_mem _ hmem)]
      · have hcons : key ∉ k :: m.map Prod.fst := by
          rw [List.mem_cons, not_or]
          exact ⟨hk, hmem⟩
        rw [if_neg hmem, if_neg hcons, List.cons_append]

theorem nodup_toMap (h : (m.map Prod.fst).Nodup) (fields : List (String × Json)) :
    ((toMap m fields).map Prod.fst).Nodup := by
  induction fields generalizing m with
  | nil => simpa [toMap] using h
  | cons kv fields ih =>
    obtain ⟨k, v⟩ := kv
    rw [toMap]
    apply ih
    rw [keys_insert]
    by_cases hmem : k ∈ m.map Prod.fst
    · rwa [if_pos hmem]
    · rw [if_neg hmem]
      rw [List.nodup_append]
      refine ⟨h, by simp, fun key hkey k' hk' => ?_⟩
      rw [List.mem_singleton.1 hk']
      rintro rfl
      exact hmem hkey

theorem field_cons (k key : String) (v : Json) (m : Fields) :
    field ((k, v) :: m) key =
      if k = key then (if key ∈ m.map Prod.fst then none else some (some v)) else field m key := by
  by_cases hk : k = key
  · subst hk
    rw [if_pos rfl, field, List.filter_cons_of_pos (by simp)]
    by_cases hmem : k ∈ m.map Prod.fst
    · obtain ⟨kv, hkv, heq⟩ := List.mem_map.1 hmem
      have hne : (m.filter fun kv => kv.1 == k) ≠ [] := by
        intro hnil
        have := List.filter_eq_nil_iff.1 hnil kv hkv
        simp [heq] at this
      rw [if_pos hmem]
      cases hfilter : m.filter fun kv => kv.1 == k with
      | nil => exact absurd hfilter hne
      | cons kv' rest => rfl
    · have hnil : (m.filter fun kv => kv.1 == k) = [] := by
        rw [List.filter_eq_nil_iff]
        intro kv hkv heq
        exact hmem (List.mem_map.2 ⟨kv, hkv, by simpa using heq⟩)
      rw [if_neg hmem, hnil]
  · rw [if_neg hk, field, field, List.filter_cons_of_neg (by simpa using hk)]

theorem get_eq_none_iff {m : Fields} {key : String} :
    Fields.get m key = none ↔ key ∉ m.map Prod.fst := by
  induction m with
  | nil => simp
  | cons kv m ih =>
    obtain ⟨k, v⟩ := kv
    rw [get_cons, List.map_cons, List.mem_cons, not_or]
    by_cases hk : key = k
    · simp [hk]
    · rw [if_neg hk, ih]
      simp [hk]

theorem field_of_nodup (h : (m.map Prod.fst).Nodup) (key : String) :
    field m key = some (Fields.get m key) := by
  induction m with
  | nil => rfl
  | cons kv m ih =>
    obtain ⟨k, v⟩ := kv
    rw [List.map_cons, List.nodup_cons] at h
    rw [field_cons, get_cons]
    by_cases hk : k = key
    · subst hk
      rw [if_pos rfl, if_pos rfl, if_neg h.1]
    · rw [if_neg hk, if_neg (Ne.symm hk), ih h.2]

/-- A known field that is not an error has one value, in the document and in the `Value`. -/
theorem get_toMap_of_field (h : field m key = some v) :
    Fields.get (toMap [] m) key = v.map Json.toValue := by
  rw [get_toMap, get_nil, Option.or_none]
  congr 1
  induction m with
  | nil =>
    cases h
    rfl
  | cons kv m ih =>
    obtain ⟨k, w⟩ := kv
    rw [field_cons] at h
    rw [List.reverse_cons, List.lookup_append]
    by_cases hk : k = key
    · subst hk
      rw [if_pos rfl] at h
      by_cases hmem : k ∈ m.map Prod.fst
      · rw [if_pos hmem] at h
        cases h
      · rw [if_neg hmem] at h
        cases h
        have hnone : m.reverse.lookup k = none := by
          have := @get_eq_none_iff m.reverse k
          rw [List.map_reverse, List.mem_reverse] at this
          exact this.2 hmem
        rw [hnone]
        simp
    · rw [if_neg hk] at h
      rw [ih h]
      cases v with
      | some v => rfl
      | none => simp [List.lookup_cons, beq_false_of_ne (Ne.symm hk)]

theorem get_of_field (h : field m key = some v) : Fields.get m key = v := by
  induction m with
  | nil => simpa [field] using h
  | cons kv m ih =>
    obtain ⟨k, w⟩ := kv
    rw [field_cons] at h
    rw [get_cons]
    by_cases hk : k = key
    · subst hk
      rw [if_pos rfl] at h ⊢
      by_cases hmem : k ∈ m.map Prod.fst
      · rw [if_pos hmem] at h
        cases h
      · rw [if_neg hmem] at h
        exact Option.some.inj h
    · rw [if_neg hk] at h
      rw [if_neg (Ne.symm hk), ih h]

end Fields

end EndaraRelay
