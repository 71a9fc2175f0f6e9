import EndaraRelay.Lib.Utf8.Blurred
import Mathlib.Data.List.DropRight

/-!
# Cutting lines from a buffer

A reader that appends what arrives to a buffer and takes complete lines from its front. `cutLines`
gives the lines and what is left; `cutLines_append` says that reading on does not depend on where the
text was cut.

The last part is about blurred texts (`Utf8.Blurred`): they have the same lines, each of them blurred.
-/

namespace Verif.Lines

open Verif.Utf8

universe u

variable {α β : Type u}

/-- The lines that are complete, and the rest. -/
def cutLines (isEnd : α → Bool) : List α → List (List α) × List α
  | [] => ([], [])
  | a :: s =>
    if isEnd a then ([] :: (cutLines isEnd s).1, (cutLines isEnd s).2)
    else
      match (cutLines isEnd s).1 with
      | [] => ([], a :: (cutLines isEnd s).2)
      | line :: lines => ((a :: line) :: lines, (cutLines isEnd s).2)

variable {isEnd : α → Bool}

theorem cutLines_append (s t : List α) :
    cutLines isEnd (s ++ t) =
      ((cutLines isEnd s).1 ++ (cutLines isEnd ((cutLines isEnd s).2 ++ t)).1,
        (cutLines isEnd ((cutLines isEnd s).2 ++ t)).2) := by
  induction s with
  | nil => rfl
  | cons a s ih =>
    rw [List.cons_append, cutLines, cutLines, ih]
    by_cases ha : isEnd a = true
    · rw [if_pos ha, if_pos ha]
      rfl
    · rw [if_neg ha, if_neg ha]
      cases hs : (cutLines isEnd s).1 with
      | nil =>
        rw [List.nil_append, List.cons_append, cutLines, if_neg ha]
        cases (cutLines isEnd ((cutLines isEnd s).2 ++ t)).1 with
        | nil => rfl
        | cons line lines => rfl
      | cons line lines => rfl

/-- What is left has no complete line. -/
theorem cutLines_rest (s : List α) : (cutLines isEnd (cutLines isEnd s).2).1 = [] := by
  induction s with
  | nil => rfl
  | cons a s ih =>
    rw [cutLines]
    by_cases ha : isEnd a = true
    · rw [if_pos ha]
      exact ih
    · rw [if_neg ha]
      cases (cutLines isEnd s).1 with
      | nil =>
        dsimp only
        rw [cutLines, if_neg ha, ih]
      | cons line lines => exact ih

theorem cutLines_map (f : β → α) (s : List β) :
    cutLines isEnd (s.map f) =
      ((cutLines (isEnd ∘ f) s).1.map (List.map f), (cutLines (isEnd ∘ f) s).2.map f) := by
  induction s with
  | nil => rfl
  | cons b s ih =>
    rw [List.map_cons, cutLines, cutLines, ih]
    by_cases hb : isEnd (f b) = true
    · rw [if_pos hb, if_pos (show (isEnd ∘ f) b = true from hb)]
      rfl
    · rw [if_neg hb, if_neg (show ¬ (isEnd ∘ f) b = true from hb)]
      cases (cutLines (isEnd ∘ f) s).1 with
      | nil => rfl
      | cons line lines => rfl

/-! ## Blurred lines -/

/-- Characters that end no line stay in front of the next one. -/
theorem cutLines_replicate {a : α} (ha : isEnd a = false) (n : Nat) (s : List α) :
    cutLines isEnd (List.replicate n a ++ s) =
      match (cutLines isEnd s).1 with
      | [] => ([], List.replicate n a ++ (cutLines isEnd s).2)
      | line :: lines => ((List.replicate n a ++ line) :: lines, (cutLines isEnd s).2) := by
  induction n with
  | zero =>
    cases hs : (cutLines isEnd s).1 with
    | nil => exact Prod.ext hs rfl
    | cons line lines => exact Prod.ext hs rfl
  | succ n ih =>
    rw [List.replicate_succ, List.cons_append, cutLines, if_neg (by simp [ha]), ih]
    cases (cutLines isEnd s).1 with
    | nil => rfl
    | cons line lines => rfl

def isNewline (c : Char) : Bool := c == '\n'

theorem blurred_cutLines {m : List (Char × Bool)} {d : List Char} (h : Blurred m d) :
    List.Forall₂ Blurred (cutLines (fun x => isNewline x.1) m).1 (cutLines isNewline d).1 ∧
      Blurred (cutLines (fun x => isNewline x.1) m).2 (cutLines isNewline d).2 := by
  induction h with
  | nil => exact ⟨.nil, .nil⟩
  | @kept c m d _ ih =>
    obtain ⟨hlines, hrest⟩ := ih
    rw [cutLines, cutLines]
    dsimp only
    by_cases hc : isNewline c = true
    · rw [if_pos hc, if_pos hc]
      exact ⟨.cons .nil hlines, hrest⟩
    · rw [if_neg hc, if_neg hc]
      generalize (cutLines (fun x : Char × Bool => isNewline x.1) m).1 = lines at hlines ⊢
      generalize (cutLines isNewline d).1 = lines' at hlines ⊢
      cases hlines with
      | nil => exact ⟨.nil, .kept c hrest⟩
      | cons hline hlines => exact ⟨.cons (.kept c hline) hlines, hrest⟩
  | @lost c n m d hc _ ih =>
    obtain ⟨hlines, hrest⟩ := ih
    have hne : ¬ isNewline c = true := by
      intro heq
      rw [isNewline, beq_iff_eq] at heq
      rw [heq] at hc
      exact absurd hc (by decide)
    rw [cutLines, cutLines_replicate (by decide)]
    dsimp only
    rw [if_neg hne]
    generalize (cutLines (fun x : Char × Bool => isNewline x.1) m).1 = lines at hlines ⊢
    generalize (cutLines isNewline d).1 = lines' at hlines ⊢
    cases hlines with
    | nil => exact ⟨.nil, .lost n hc hrest⟩
    | cons hline hlines => exact ⟨.cons (.lost n hc hline) hlines, hrest⟩

end Verif.Lines
