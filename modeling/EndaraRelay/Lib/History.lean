import Mathlib.Data.List.Basic
import Mathlib.Data.List.Sublists

/-!
# Histories

A history is the list of the events of a run, oldest first, and grows at its end. That some events came in
an order is that their list is a sublist of the history; an order that never comes is one that is no
sublist of any.

`sublist_of_append` and `sublist_concat` say what the events of one step add. `passes_between` is for events of
which a history has one each.
-/

namespace Verif.History

variable {ε : Type*} {h es o : List ε} {p : ε → Bool} {a b c x y : ε}

/-- A step in which the last event of an order does not happen does not complete it. -/
theorem sublist_of_append (hs : (o ++ [b]).Sublist (h ++ es)) (hb : b ∉ es) : (o ++ [b]).Sublist h := by
  obtain ⟨l₁, l₂, heq, hl₁, hl₂⟩ := List.sublist_append_iff.mp hs
  rcases List.eq_nil_or_concat l₂ with rfl | ⟨l, b', rfl⟩
  · rwa [heq, List.append_nil]
  · rw [List.concat_eq_append] at heq hl₂
    rw [← List.append_assoc] at heq
    obtain ⟨-, hbb⟩ := List.append_inj' heq rfl
    obtain rfl : b = b' := List.singleton_injective hbb
    exact absurd (hl₂.subset (List.mem_append_right _ (List.mem_singleton_self b))) hb

/-- An event completes an order only where it is the last one. -/
theorem sublist_concat (hs : (o ++ [b]).Sublist (h ++ [a])) :
    (o ++ [b]).Sublist h ∨ b = a ∧ o.Sublist h := by
  by_cases hb : b = a
  · subst hb
    rw [List.append_sublist_append_right] at hs
    exact .inr ⟨rfl, hs⟩
  · exact .inl (sublist_of_append hs (by simpa using hb))

theorem pair_sublist (hx : x ∈ h) (hy : y ∈ es) : [x, y].Sublist (h ++ es) :=
  (List.singleton_sublist.mpr hx).append (List.singleton_sublist.mpr hy)

/-- Where `b` is all that comes between `a` and `c`, what is before `a` is before `b`, and what is after `c` is
after it. -/
theorem passes_between (hp : h.filter p = [a, b, c]) (hnodup : [a, b, c].Nodup)
    (hs : [x, a, c, y].Sublist h) : [x, b, y].Sublist h := by
  have hall : p a = true ∧ p b = true ∧ p c = true := by
    have hmem : ∀ e ∈ [a, b, c], p e = true := fun e he => (List.mem_filter.mp (hp ▸ he)).2
    exact ⟨hmem a (by simp), hmem b (by simp), hmem c (by simp)⟩
  obtain ⟨ha, hb, hc⟩ := hall
  -- neither is b before a, nor after c
  have hnot : ∀ e e', p e = true → p e' = true → ¬ [e, e'].Sublist [a, b, c] → ¬ [e, e'].Sublist h := by
    intro e e' he he' hno hsub
    have := hsub.filter p
    rw [List.filter_cons_of_pos he, List.filter_cons_of_pos he', hp] at this
    exact hno this
  have hba : ¬ [b, a].Sublist h := hnot b a hb ha fun hsub => by
    simp only [List.sublist_cons_iff, List.nodup_cons, List.mem_cons] at hsub hnodup
    grind
  have hcb : ¬ [c, b].Sublist h := hnot c b hc hb fun hsub => by
    simp only [List.sublist_cons_iff, List.nodup_cons, List.mem_cons] at hsub hnodup
    grind
  have hmem : b ∈ h := (List.mem_filter.mp (hp ▸ (by simp : b ∈ [a, b, c]))).1
  obtain ⟨h₁, h₂, rfl, hxa, hcy⟩ := List.append_sublist_iff.mp (show ([x, a] ++ [c, y]).Sublist h from hs)
  obtain ⟨m₁, m₂, rfl, hx, ha⟩ := List.append_sublist_iff.mp (show ([x] ++ [a]).Sublist h₁ from hxa)
  obtain ⟨m₃, m₄, rfl, hc, hy⟩ := List.append_sublist_iff.mp (show ([c] ++ [y]).Sublist h₂ from hcy)
  rw [List.singleton_sublist] at hx ha hc hy
  rw [List.mem_append, List.mem_append, List.mem_append] at hmem
  obtain (hb | hb) | (hb | hb) := hmem
  · exact absurd ((pair_sublist hb ha).trans (List.sublist_append_left _ _)) hba
  · exact (pair_sublist hx hb).append (List.singleton_sublist.mpr (List.mem_append_right _ hy))
  · exact (List.singleton_sublist.mpr (List.mem_append_left _ hx)).append (pair_sublist hb hy)
  · exact absurd ((pair_sublist hc hb).trans (List.sublist_append_right _ _)) hcb

end Verif.History
