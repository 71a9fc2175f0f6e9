import Mathlib.Order.Lattice
import Mathlib.Data.List.Basic

/-!
# Percentiles by nearest rank

The `p`-th percentile of some values is the least of them that at least `p` percent do not exceed. In a
sorted list it stands at the place `⌈p n / 100⌉`, which integer arithmetic reaches by rounding up
(`IsNearestRank.getElem`).
-/

namespace Verif.NearestRank

variable {α : Type*} [LinearOrder α]

/-- `v` is the least of the values that at least `p` percent of them do not exceed. -/
structure IsNearestRank (p : ℕ) (values : List α) (v : α) : Prop where
  mem : v ∈ values
  enough : p * values.length ≤ 100 * values.countP fun w => w ≤ v
  least : ∀ w ∈ values, (p * values.length ≤ 100 * values.countP fun x => x ≤ w) → v ≤ w

/-- The order of the values does not matter. -/
theorem IsNearestRank.perm {p : ℕ} {values values' : List α} {v : α} (h : IsNearestRank p values v)
    (hperm : values.Perm values') : IsNearestRank p values' v where
  mem := hperm.mem_iff.1 h.mem
  enough := by
    rw [← hperm.length_eq, ← hperm.countP_eq]
    exact h.enough
  least w hw hcount := by
    rw [← hperm.length_eq, ← hperm.countP_eq] at hcount
    exact h.least w (hperm.mem_iff.2 hw) hcount

/-- The place of a percentile among `n` values, from one on. -/
def rank (p n : ℕ) : ℕ := max 1 (min n ((p * n + 99) / 100))

theorem rank_pos (p n : ℕ) : 1 ≤ rank p n := Nat.le_max_left _ _

theorem rank_le (p : ℕ) {n : ℕ} (h : 1 ≤ n) : rank p n ≤ n := Nat.max_le.2 ⟨h, Nat.min_le_left _ _⟩

theorem le_rank {p : ℕ} (hp : p ≤ 100) (n : ℕ) : p * n ≤ 100 * rank p n := by
  have hle : p * n ≤ 100 * n := Nat.mul_le_mul_right n hp
  unfold rank
  omega

/-- One place less would be too few values. -/
theorem rank_sub_one_lt (p n : ℕ) : rank p n = 1 ∨ 100 * (rank p n - 1) < p * n := by
  unfold rank
  omega

section Sorted

variable {values : List α}

theorem lt_countP_getElem (h : values.Pairwise fun a b => a ≤ b) {i : ℕ} (hi : i < values.length) :
    i < values.countP fun w => w ≤ values[i] := by
  have hall : (values.take (i + 1)).countP (fun w => w ≤ values[i]) = i + 1 := by
    have hlength : (values.take (i + 1)).length = i + 1 := by
      rw [List.length_take]
      omega
    refine (List.countP_eq_length.2 fun w hw => ?_).trans hlength
    obtain ⟨j, hj, rfl⟩ := List.mem_take_iff_getElem.1 hw
    rw [decide_eq_true_eq]
    obtain hlt | heq := Nat.lt_or_eq_of_le (show j ≤ i by omega)
    · exact List.pairwise_iff_getElem.1 h j i _ hi hlt
    · subst heq
      exact le_refl _
  have hsub := (List.take_sublist (i + 1) values).countP_le (p := fun w => decide (w ≤ values[i]))
  omega

theorem countP_le_of_lt_getElem (h : values.Pairwise fun a b => a ≤ b) {i : ℕ} (hi : i < values.length) {w : α}
    (hw : w < values[i]) : (values.countP fun x => x ≤ w) ≤ i := by
  have hdrop : (values.drop i).countP (fun x => x ≤ w) = 0 := by
    refine List.countP_eq_zero.2 fun x hx => ?_
    obtain ⟨j, hj, rfl⟩ := List.mem_drop_iff_getElem.1 hx
    rw [decide_eq_true_eq, not_le]
    refine hw.trans_le ?_
    obtain hlt | heq := Nat.lt_or_eq_of_le (Nat.le_add_right i j)
    · exact List.pairwise_iff_getElem.1 h i (i + j) hi _ hlt
    · exact le_of_eq (getElem_congr_idx heq)
  have hsplit : (values.countP fun x => x ≤ w) =
      ((values.take i).countP fun x => x ≤ w) + (values.drop i).countP fun x => x ≤ w := by
    rw [← List.countP_append, List.take_append_drop]
  have htake := List.countP_le_length (p := fun x => decide (x ≤ w)) (l := values.take i)
  rw [List.length_take] at htake
  omega

/-- The value at the rank of a percentile is the percentile. -/
theorem IsNearestRank.getElem (h : values.Pairwise fun a b => a ≤ b) {p : ℕ} (hp : p ≤ 100)
    (hi : rank p values.length - 1 < values.length) :
    IsNearestRank p values values[rank p values.length - 1] where
  mem := List.getElem_mem hi
  enough := by
    have hcount := lt_countP_getElem h hi
    have hrank := le_rank hp values.length
    have hpos := rank_pos p values.length
    omega
  least w hw hcount := by
    by_contra hlt
    rw [not_le] at hlt
    have hle := countP_le_of_lt_getElem h hi hlt
    obtain hone | hfew := rank_sub_one_lt p values.length
    · -- nothing is less than the first value
      have hmem : 0 < values.countP fun x => x ≤ w :=
        List.countP_pos_iff.2 ⟨w, hw, decide_eq_true (le_refl w)⟩
      omega
    · omega

end Sorted

end Verif.NearestRank
