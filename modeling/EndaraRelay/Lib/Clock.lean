import Mathlib.Data.Int.Order.Basic
import Mathlib.Data.Option.Basic

/-!
# Instants and durations

A duration is a whole number of nanoseconds, of fewer than `2 ^ 64` seconds. An instant of the
monotonic clock is a number of nanoseconds, whose seconds are a signed 64-bit number. Arithmetic that
leaves the range gives no value; the difference of two instants saturates at zero.

* `checkedAdd_of_lt`, `checkedSub_of_lt`, `checkedMul_of_lt`: when the arithmetic does give a value.
* `durationSince_of_le`, `durationSince_of_ge`: the two sides of the saturation.
-/

namespace Verif.Clock

def nanosPerSec : Nat := 1000000000

/-- A number of seconds as a duration. -/
def secs (n : Nat) : Nat := n * nanosPerSec

/-- The durations there are. -/
def maxDuration : Nat := 18446744073709551616 * nanosPerSec

/-- The instants there are, on both sides of the origin of the clock. -/
def maxInstant : Int := 9223372036854775808 * nanosPerSec

def checkedMul (d k : Nat) : Option Nat :=
  if d * k < maxDuration then some (d * k) else none

def inRange (t : Int) : Prop := -maxInstant ≤ t ∧ t < maxInstant

instance (t : Int) : Decidable (inRange t) := inferInstanceAs (Decidable (_ ∧ _))

def checkedAdd (t : Int) (d : Nat) : Option Int :=
  if inRange (t + d) then some (t + d) else none

def checkedSub (t : Int) (d : Nat) : Option Int :=
  if inRange (t - d) then some (t - d) else none

/-- The time from `earlier` to `later`, zero if it is the other way round. -/
def durationSince (later earlier : Int) : Nat := (later - earlier).toNat

theorem checkedMul_of_lt {d k : Nat} (h : d * k < maxDuration) : checkedMul d k = some (d * k) :=
  if_pos h

theorem checkedAdd_of_lt {t : Int} {d : Nat} (ht : -maxInstant ≤ t) (h : t + d < maxInstant) :
    checkedAdd t d = some (t + d) := by
  apply if_pos
  exact ⟨by omega, h⟩

theorem checkedSub_of_lt {t : Int} {d : Nat} (ht : t < maxInstant) (h : -maxInstant ≤ t - d) :
    checkedSub t d = some (t - d) := by
  apply if_pos
  exact ⟨h, by omega⟩

theorem checkedMul_eq_some {d k n : Nat} : checkedMul d k = some n ↔ d * k < maxDuration ∧ d * k = n := by
  unfold checkedMul
  split <;> simp_all

theorem checkedSub_eq_some {t s : Int} {d : Nat} : checkedSub t d = some s ↔ inRange (t - d) ∧ t - d = s := by
  unfold checkedSub
  split <;> simp_all

theorem durationSince_of_le {later earlier : Int} (h : earlier ≤ later) :
    (durationSince later earlier : Int) = later - earlier :=
  Int.toNat_of_nonneg (by omega)

theorem durationSince_of_ge {later earlier : Int} (h : later ≤ earlier) :
    durationSince later earlier = 0 :=
  Int.toNat_of_nonpos (by omega)

theorem durationSince_pos {later earlier : Int} : 0 < durationSince later earlier ↔ earlier < later := by
  unfold durationSince
  omega

end Verif.Clock
