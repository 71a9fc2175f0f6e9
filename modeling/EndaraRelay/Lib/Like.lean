import Mathlib.Data.List.Basic
import Mathlib.Data.List.Infix

/-!
# LIKE patterns

`LIKE` of SQL with a backslash for an escape: `%` stands for any text, `_` for any character, an
escaped character for itself. Characters are compared up to a folding of cases.

**Theorem (`likeMatch_contains`).** A text with its special characters escaped, between two percent
signs, matches the texts that contain it.
-/

namespace Verif.Like

variable (fold : Char → Char)

/-- Whether a pattern matches a text. -/
def likeMatch : List Char → List Char → Bool
  | [], text => text.isEmpty
  | '%' :: pattern, text => text.tails.any (likeMatch pattern)
  | '_' :: pattern, text =>
    match text with
    | [] => false
    | _ :: text => likeMatch pattern text
  | ['\\'], _ => false
  | '\\' :: c :: pattern, text =>
    match text with
    | [] => false
    | d :: text => fold c = fold d && likeMatch pattern text
  | c :: pattern, text =>
    match text with
    | [] => false
    | d :: text => fold c = fold d && likeMatch pattern text

/-- The characters with a meaning in a pattern. -/
def isSpecial (c : Char) : Bool := c = '\\' || c = '%' || c = '_'

/-- A text as a pattern that matches it alone. -/
def literal (text : List Char) : List Char :=
  text.flatMap fun c => if isSpecial c then ['\\', c] else [c]

theorem likeMatch_literal_cons (c : Char) (pattern text : List Char) :
    likeMatch fold ((if isSpecial c then ['\\', c] else [c]) ++ pattern) text = true ↔
      ∃ d rest, text = d :: rest ∧ fold c = fold d ∧ likeMatch fold pattern rest = true := by
  by_cases hspecial : isSpecial c = true
  · rw [if_pos hspecial]
    show likeMatch fold ('\\' :: c :: pattern) text = true ↔ _
    cases text with
    | nil => simp [likeMatch]
    | cons d text => simp [likeMatch]
  · rw [if_neg hspecial]
    show likeMatch fold (c :: pattern) text = true ↔ _
    simp only [isSpecial, Bool.or_eq_true, decide_eq_true_eq, not_or] at hspecial
    obtain ⟨⟨hbackslash, hpercent⟩, hunderscore⟩ := hspecial
    cases text with
    | nil => simp [likeMatch, hbackslash]
    | cons d text => simp [likeMatch, hbackslash]

theorem likeMatch_literal_append (s pattern text : List Char) :
    likeMatch fold (literal s ++ pattern) text = true ↔
      ∃ before after, text = before ++ after ∧ before.map fold = s.map fold ∧
        likeMatch fold pattern after = true := by
  induction s generalizing text with
  | nil => simp [literal]
  | cons c s ih =>
    have hcons : literal (c :: s) ++ pattern =
        (if isSpecial c then ['\\', c] else [c]) ++ (literal s ++ pattern) := by
      simp [literal]
    rw [hcons, likeMatch_literal_cons]
    constructor
    · rintro ⟨d, rest, rfl, hfold, hmatch⟩
      obtain ⟨before, after, rfl, hmap, hafter⟩ := (ih rest).1 hmatch
      exact ⟨d :: before, after, rfl, by simp [hmap, hfold], hafter⟩
    · rintro ⟨before, after, rfl, hmap, hafter⟩
      cases before with
      | nil => simp at hmap
      | cons d before =>
        simp only [List.map_cons, List.cons.injEq] at hmap
        exact ⟨d, before ++ after, rfl, hmap.1.symm, (ih _).2 ⟨before, after, rfl, hmap.2, hafter⟩⟩

theorem likeMatch_any (pattern text : List Char) :
    likeMatch fold ('%' :: pattern) text = true ↔
      ∃ before after, text = before ++ after ∧ likeMatch fold pattern after = true := by
  rw [likeMatch, List.any_eq_true]
  constructor
  · rintro ⟨after, hsuffix, hmatch⟩
    obtain ⟨before, rfl⟩ := (List.mem_tails _ _).1 hsuffix
    exact ⟨before, after, rfl, hmatch⟩
  · rintro ⟨before, after, rfl, hmatch⟩
    exact ⟨after, (List.mem_tails _ _).2 ⟨before, rfl⟩, hmatch⟩

/-- **Containment.** -/
theorem likeMatch_contains (s text : List Char) :
    likeMatch fold ('%' :: (literal s ++ ['%'])) text = true ↔ s.map fold <:+: text.map fold := by
  rw [likeMatch_any]
  constructor
  · rintro ⟨before, rest, rfl, hmatch⟩
    obtain ⟨mid, after, rfl, hmap, -⟩ := (likeMatch_literal_append fold s ['%'] rest).1 hmatch
    exact ⟨before.map fold, after.map fold, by simp [hmap]⟩
  · rintro ⟨before, after, heq⟩
    rw [← List.append_eq] at heq
    obtain ⟨t, t₃, rfl, ht, rfl⟩ := List.map_eq_append_iff.1 heq.symm
    obtain ⟨t₁, t₂, rfl, rfl, hs⟩ := List.map_eq_append_iff.1 ht
    refine ⟨t₁, t₂ ++ t₃, List.append_assoc _ _ _, ?_⟩
    refine (likeMatch_literal_append fold s ['%'] _).2 ⟨t₂, t₃, rfl, hs, ?_⟩
    exact (likeMatch_any fold [] t₃).2 ⟨t₃, [], (List.append_nil t₃).symm, rfl⟩

end Verif.Like
