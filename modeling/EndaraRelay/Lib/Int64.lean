import Mathlib.Data.Int.Basic

/-!
# Signed 64-bit arithmetic

Integers as a 64-bit register holds them: `wrap` keeps the last 64 bits and reads them as a signed number.
An operation that leaves the range comes back at the other end of it, or panics in a build that checks.
-/

namespace Verif.Int64

/-- The numbers of the type. -/
def InRange (n : Int) : Prop := -9223372036854775808 ≤ n ∧ n < 9223372036854775808

instance (n : Int) : Decidable (InRange n) := inferInstanceAs (Decidable (_ ∧ _))

/-- What a result is stored as. -/
def wrap (n : Int) : Int := (n + 9223372036854775808) % 18446744073709551616 - 9223372036854775808

theorem inRange_wrap (n : Int) : InRange (wrap n) := by
  unfold InRange wrap
  omega

theorem wrap_of_inRange {n : Int} (h : InRange n) : wrap n = n := by
  unfold InRange at h
  unfold wrap
  omega

/-- Intermediate results need not be in range. -/
theorem wrap_sub_wrap (a b : Int) : wrap (a - wrap b) = wrap (a - b) := by
  unfold wrap
  omega

/-- The result is the least number of the type. -/
theorem wrap_eq_min_iff (n : Int) :
    wrap n = -9223372036854775808 ↔ (n + 9223372036854775808) % 18446744073709551616 = 0 := by
  unfold wrap
  omega

/-! ## Operations -/

/-- A number of the type. -/
abbrev I64 := { n : Int // InRange n }

/-- The result of an operation, in a build that checks for overflow or in one that does not; `none` is a
panic. -/
def arith (checks : Bool) (n : Int) : Option Int :=
  if InRange n then some n else if checks then none else some (wrap n)

/-- A division towards zero, which checks in every build. -/
def divide (a b : Int) : Option Int := if b ≠ 0 ∧ InRange (a.tdiv b) then some (a.tdiv b) else none

theorem arith_of_inRange {n : Int} (h : InRange n) (checks : Bool) : arith checks n = some n := if_pos h

theorem arith_true_eq_some_iff {n m : Int} : arith true n = some m ↔ InRange n ∧ n = m := by
  by_cases h : InRange n
  · simp [arith, h]
  · simp [arith, h]

theorem arith_false (n : Int) : arith false n = some (wrap n) := by
  by_cases h : InRange n
  · rw [arith_of_inRange h, wrap_of_inRange h]
  · simp [arith, h]

/-- A quotient lies between zero and what was divided, and so does its multiple. -/
theorem tdiv_between {a b : Int} (hb : 0 < b) :
    min a 0 ≤ a.tdiv b ∧ a.tdiv b ≤ max a 0 ∧ min a 0 ≤ a.tdiv b * b ∧ a.tdiv b * b ≤ max a 0 := by
  have hquotient : (a.tdiv b).natAbs ≤ a.natAbs := by
    rw [Int.natAbs_tdiv]
    exact Nat.div_le_self _ _
  have hproduct : (a.tdiv b * b).natAbs ≤ a.natAbs := by
    rw [Int.natAbs_mul, Int.natAbs_tdiv]
    exact Nat.div_mul_le_self _ _
  obtain hpos | hneg := Int.le_total 0 a
  · have hq := Int.tdiv_nonneg hpos (Int.le_of_lt hb)
    have hqb := Int.mul_nonneg hq (Int.le_of_lt hb)
    omega
  · have hq := Int.tdiv_nonneg (show 0 ≤ -a by omega) (Int.le_of_lt hb)
    rw [Int.neg_tdiv] at hq
    have hqb := Int.mul_nonneg hq (Int.le_of_lt hb)
    rw [Int.neg_mul] at hqb
    omega

theorem inRange_tdiv {a b : Int} (hb : 0 < b) (h : InRange a) :
    InRange (a.tdiv b) ∧ InRange (a.tdiv b * b) := by
  have hbetween := @tdiv_between a b hb
  unfold InRange at h ⊢
  omega

end Verif.Int64
