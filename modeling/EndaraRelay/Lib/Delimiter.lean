import Mathlib.Data.List.Basic

/-!
# Joining two lists with a doubled separator

`p ++ d :: d :: s` joins `p` and `s` with the separator `dd`, which either part may contain. The
join is injective in `s`, and in `p` for a fixed `s`, but not in both: `join_eq_join_iff` says
exactly which other pair joins to the same list.
-/

namespace Verif.Delimiter

universe u

variable {α : Type u}

/-- The join of `(p, s)` reads on as the join of `(q, t)`: the longer `q` takes up the beginning of
`s`, either one half of the separator or the whole of it. -/
def Continues (d : α) (p s q t : List α) : Prop :=
  (q = p ++ [d] ∧ s = d :: t) ∨ ∃ r, q = p ++ d :: d :: r ∧ s = r ++ d :: d :: t

theorem Continues.join_eq {d : α} {p s q t : List α} (h : Continues d p s q t) :
    p ++ d :: d :: s = q ++ d :: d :: t := by
  obtain ⟨rfl, rfl⟩ | ⟨r, rfl, rfl⟩ := h
  · simp
  · simp

/-- Cutting a join inside: what follows `p` starts with the rest `a` of a longer first part. -/
theorem continues_of_append {d : α} {p a s t : List α} (hne : a ≠ [])
    (h : d :: d :: s = a ++ d :: d :: t) : Continues d p s (p ++ a) t := by
  match a with
  | [] => exact absurd rfl hne
  | [x] =>
    obtain ⟨rfl, hs⟩ : d = x ∧ s = d :: t := by simpa using h
    exact .inl ⟨rfl, hs⟩
  | x :: y :: r =>
    obtain ⟨rfl, rfl, hs⟩ : d = x ∧ d = y ∧ s = r ++ d :: d :: t := by simpa using h
    exact .inr ⟨r, rfl, hs⟩

/-- **When two joins agree.** -/
theorem join_eq_join_iff {d : α} {p s q t : List α} (hne : p ≠ q) :
    p ++ d :: d :: s = q ++ d :: d :: t ↔ Continues d p s q t ∨ Continues d q t p s := by
  refine ⟨fun h => ?_, fun h => ?_⟩
  · rw [List.append_eq_append_iff] at h
    obtain ⟨a, rfl, h⟩ | ⟨a, rfl, h⟩ := h
    · refine .inl (continues_of_append ?_ h)
      rintro rfl
      exact hne (List.append_nil p).symm
    · refine .inr (continues_of_append ?_ h)
      rintro rfl
      exact hne (List.append_nil q)
  · obtain h | h := h
    · exact h.join_eq
    · exact h.join_eq.symm

end Verif.Delimiter
