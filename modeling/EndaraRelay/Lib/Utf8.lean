import Mathlib.Data.List.Basic

/-!
# Texts by their UTF-8 bytes

A text is a list of characters; positions in it are counted in bytes, as a byte string would count
them. Only some byte positions are boundaries of characters.

- `takeBytes` cuts a text at a position. At a boundary the piece has exactly that many bytes
  (`byteLength_takeBytes`).
- `floorCharBoundary` goes back from a position to the nearest boundary.
-/

namespace Verif.Utf8

/-- The length of a text in bytes. -/
def byteLength : List Char → Nat
  | [] => 0
  | c :: s => c.utf8Size + byteLength s

/-- Whether a byte position lies between two characters, or at an end of the text. -/
def isCharBoundary : List Char → Nat → Bool
  | _, 0 => true
  | [], _ + 1 => false
  | c :: s, n + 1 => c.utf8Size ≤ n + 1 && isCharBoundary s (n + 1 - c.utf8Size)

/-- The characters that lie wholly before a byte position. -/
def takeBytes : List Char → Nat → List Char
  | [], _ => []
  | c :: s, n => if c.utf8Size ≤ n then c :: takeBytes s (n - c.utf8Size) else []

/-- The last boundary at or before a byte position. -/
def floorCharBoundary (s : List Char) : Nat → Nat
  | 0 => 0
  | n + 1 => if isCharBoundary s (n + 1) then n + 1 else floorCharBoundary s n

@[simp] theorem byteLength_nil : byteLength [] = 0 := rfl

@[simp] theorem byteLength_cons (c : Char) (s : List Char) :
    byteLength (c :: s) = c.utf8Size + byteLength s := rfl

theorem takeBytes_isPrefix (s : List Char) (n : Nat) : takeBytes s n <+: s := by
  induction s generalizing n with
  | nil => exact List.prefix_rfl
  | cons c s ih =>
    rw [takeBytes]
    split
    · exact (List.prefix_cons_inj c).2 (ih _)
    · exact List.nil_prefix

theorem takeBytes_zero (s : List Char) : takeBytes s 0 = [] := by
  cases s with
  | nil => rfl
  | cons c s =>
    have := c.utf8Size_pos
    rw [takeBytes, if_neg (by omega)]

theorem byteLength_takeBytes {s : List Char} {n : Nat} (h : isCharBoundary s n = true) :
    byteLength (takeBytes s n) = n := by
  induction s generalizing n with
  | nil =>
    cases n with
    | zero => rfl
    | succ n => simp [isCharBoundary] at h
  | cons c s ih =>
    cases n with
    | zero => rw [takeBytes_zero, byteLength_nil]
    | succ n =>
      rw [isCharBoundary, Bool.and_eq_true, decide_eq_true_eq] at h
      rw [takeBytes, if_pos h.1, byteLength_cons, ih h.2]
      omega

/-- A text ends at a boundary of every text it begins. -/
theorem isCharBoundary_of_isPrefix {s t : List Char} (h : t <+: s) :
    isCharBoundary s (byteLength t) = true := by
  obtain ⟨rest, rfl⟩ := h
  induction t with
  | nil => simp [isCharBoundary]
  | cons c t ih =>
    have hpos := c.utf8Size_pos
    obtain ⟨n, hn⟩ : ∃ n, c.utf8Size + byteLength t = n + 1 := ⟨_, (Nat.sub_add_cancel (by omega)).symm⟩
    have hrest : n + 1 - c.utf8Size = byteLength t := by omega
    rw [byteLength_cons, hn, List.cons_append, isCharBoundary, hrest, ih, Bool.and_true,
      decide_eq_true_eq]
    omega

theorem isCharBoundary_floor (s : List Char) (n : Nat) :
    isCharBoundary s (floorCharBoundary s n) = true := by
  induction n with
  | zero => simp [floorCharBoundary, isCharBoundary]
  | succ n ih =>
    rw [floorCharBoundary]
    split
    · next h => exact h
    · exact ih

theorem floorCharBoundary_le (s : List Char) (n : Nat) : floorCharBoundary s n ≤ n := by
  induction n with
  | zero => exact Nat.le_refl 0
  | succ n ih =>
    rw [floorCharBoundary]
    split
    · exact Nat.le_refl _
    · exact Nat.le_succ_of_le ih

theorem byteLength_le_of_isPrefix {s t : List Char} (h : t <+: s) : byteLength t ≤ byteLength s := by
  obtain ⟨rest, rfl⟩ := h
  induction t with
  | nil => exact Nat.zero_le _
  | cons c t ih => exact Nat.add_le_add_left ih _

/-- Cut where a text that it begins with ends. -/
theorem takeBytes_of_isPrefix {s t : List Char} (h : t <+: s) : takeBytes s (byteLength t) = t := by
  obtain ⟨rest, rfl⟩ := h
  induction t with
  | nil => exact takeBytes_zero rest
  | cons c t ih =>
    rw [List.cons_append, takeBytes, byteLength_cons, if_pos (Nat.le_add_right _ _), Nat.add_sub_cancel_left, ih]

/-! ## ASCII -/

theorem isDigit_iff {c : Char} : c.isDigit = true ↔ 48 ≤ c.toNat ∧ c.toNat ≤ 57 := by
  rw [show c.isDigit = (decide (48 ≤ c.toNat) && decide (c.toNat ≤ 57)) from rfl]
  simp only [Bool.and_eq_true, decide_eq_true_eq]

theorem isAlphanum_iff {c : Char} : c.isAlphanum = true ↔
    (65 ≤ c.toNat ∧ c.toNat ≤ 90 ∨ 97 ≤ c.toNat ∧ c.toNat ≤ 122) ∨
      48 ≤ c.toNat ∧ c.toNat ≤ 57 := by
  rw [show c.isAlphanum = ((decide (65 ≤ c.toNat ∧ c.toNat ≤ 90) ||
    (decide (97 ≤ c.toNat) && decide (c.toNat ≤ 122))) || c.isDigit) from rfl]
  simp only [Bool.or_eq_true, Bool.and_eq_true, decide_eq_true_eq, isDigit_iff]

theorem utf8Size_of_ascii {c : Char} (h : c.toNat < 128) : c.utf8Size = 1 := by
  unfold Char.utf8Size
  rw [if_pos]
  exact UInt32.le_iff_toNat_le.2 (Nat.le_of_lt_succ h)

theorem byteLength_of_ascii {s : List Char} (h : ∀ c ∈ s, c.toNat < 128) : byteLength s = s.length := by
  induction s with
  | nil => rfl
  | cons c s ih =>
    obtain ⟨hc, hs⟩ := List.forall_mem_cons.1 h
    rw [byteLength_cons, utf8Size_of_ascii hc, ih hs, List.length_cons, Nat.add_comm]

/-- Every position in a text in ASCII is a boundary. -/
theorem isCharBoundary_of_ascii {s : List Char} (h : ∀ c ∈ s, c.toNat < 128) {n : Nat}
    (hn : n ≤ byteLength s) : isCharBoundary s n = true := by
  induction s generalizing n with
  | nil =>
    rw [byteLength_nil, Nat.le_zero] at hn
    rw [hn]
    rfl
  | cons c s ih =>
    obtain ⟨hc, hs⟩ := List.forall_mem_cons.1 h
    cases n with
    | zero => rfl
    | succ n =>
      rw [byteLength_cons, utf8Size_of_ascii hc] at hn
      rw [isCharBoundary, utf8Size_of_ascii hc, Nat.add_sub_cancel, ih hs (by omega)]
      simp

end Verif.Utf8
