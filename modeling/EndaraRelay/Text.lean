import Mathlib.Data.List.DropRight

/-!
# White space

The trimming functions of the standard library, on strings and on lists of characters.
-/

namespace EndaraRelay

/-- `char::is_whitespace`: the White_Space property of Unicode. -/
def isWhitespace (c : Char) : Bool :=
  let n := c.toNat
  (0x9 ≤ n ∧ n ≤ 0xD) ∨ n = 0x20 ∨ n = 0x85 ∨ n = 0xA0 ∨ n = 0x1680 ∨
    (0x2000 ≤ n ∧ n ≤ 0x200A) ∨ n = 0x2028 ∨ n = 0x2029 ∨ n = 0x202F ∨ n = 0x205F ∨ n = 0x3000

/-- `str::trim`, on the characters. -/
def trimChars (s : List Char) : List Char := (s.dropWhile isWhitespace).rdropWhile isWhitespace

def trim (s : String) : String :=
  String.ofList ((s.toList.dropWhile isWhitespace).rdropWhile isWhitespace)

/-! ## What trimming takes away -/

theorem dropWhile_of_head {t : List Char} (h : ∀ c ∈ t.head?, isWhitespace c = false) :
    t.dropWhile isWhitespace = t := by
  cases t with
  | nil => rfl
  | cons c t => exact List.dropWhile_cons_of_neg (by simp [h c rfl])

/-- What neither begins nor ends with white space is not trimmed. -/
theorem trimChars_eq_self {s : List Char} (hhead : ∀ c ∈ s.head?, isWhitespace c = false)
    (hlast : ∀ c ∈ s.getLast?, isWhitespace c = false) : trimChars s = s := by
  unfold trimChars
  rw [dropWhile_of_head hhead, List.rdropWhile_eq_self_iff]
  intro hne
  rw [hlast _ (List.getLast?_eq_some_getLast hne)]
  exact Bool.false_ne_true

theorem head_trimChars {s : List Char} {c : Char} (hc : c ∈ (trimChars s).head?) : isWhitespace c = false := by
  obtain ⟨rest, hrest⟩ := List.rdropWhile_prefix isWhitespace (l := s.dropWhile isWhitespace)
  have hhead := List.head?_dropWhile_not isWhitespace s
  unfold trimChars at hc
  rw [← hrest, List.head?_append, Option.mem_def.mp hc] at hhead
  exact hhead

theorem trimChars_trimChars (s : List Char) : trimChars (trimChars s) = trimChars s := by
  refine trimChars_eq_self (fun c hc => head_trimChars hc) fun c hc => ?_
  obtain ⟨hne, rfl⟩ := List.mem_getLast?_eq_getLast hc
  exact Bool.eq_false_iff.mpr (List.rdropWhile_last_not isWhitespace _ hne)

theorem trim_trim (s : String) : trim (trim s) = trim s := by
  unfold trim
  rw [String.toList_ofList]
  exact congrArg String.ofList (trimChars_trimChars s.toList)

theorem rdropWhile_append_of_ne {a b : List Char} (h : b.rdropWhile isWhitespace ≠ []) :
    (a ++ b).rdropWhile isWhitespace = a ++ b.rdropWhile isWhitespace := by
  unfold List.rdropWhile at h ⊢
  rw [List.reverse_append, List.dropWhile_append]
  cases hb : b.reverse.dropWhile isWhitespace with
  | nil =>
    rw [hb] at h
    exact absurd rfl h
  | cons c t => simp

theorem rdropWhile_append_of_all {a w : List Char} (h : ∀ c ∈ w, isWhitespace c = true) :
    (a ++ w).rdropWhile isWhitespace = a.rdropWhile isWhitespace := by
  unfold List.rdropWhile
  rw [List.reverse_append, List.dropWhile_append,
    List.dropWhile_eq_nil_iff.mpr fun c hc => h c (List.mem_reverse.mp hc)]
  rfl

theorem trimChars_append {s w : List Char} (h : ∀ c ∈ w, isWhitespace c = true) :
    trimChars (s ++ w) = trimChars s := by
  unfold trimChars
  rw [List.dropWhile_append]
  cases hs : s.dropWhile isWhitespace with
  | nil =>
    rw [List.dropWhile_eq_nil_iff.mpr h]
    rfl
  | cons c t => exact rdropWhile_append_of_all h

theorem trimChars_of_all_append {s w : List Char} (h : ∀ c ∈ w, isWhitespace c = true) :
    trimChars (w ++ s) = trimChars s := by
  unfold trimChars
  rw [List.dropWhile_append, List.dropWhile_eq_nil_iff.mpr h]
  rfl

end EndaraRelay
