import Mathlib.Data.List.Basic
import EndaraRelay.Lib.Clock

/-!
# How crashes of a stdio child are tracked

`CrashTracker` in `adapter/stdio.rs` says of each crash whether the adapter is to be marked unhealthy,
and how long the supervisor waits before it respawns the child.

**Theorem (`recordCrash_told`).** After any crashes and resets, a crash is told unhealthy exactly when
it is at least the third within a minute, and its backoff goes by the crashes since the last reset or
pause of two minutes.

**Theorem (`recordCrash_capped`).** When the supervisor waits each backoff, the seventh crash in a row
and all after it are not told unhealthy, although the child goes on crashing.
-/

namespace EndaraRelay

open Verif.Clock

structure CrashTracker where
  timestamps : List Int := []
  consecutiveCrashes : Nat := 0
  lastCrash : Option Int := none
  backoffUnit : Nat := secs 1

namespace CrashTracker

def backoffFor (c : CrashTracker) (streak : Nat) : Nat :=
  c.backoffUnit * match streak with
    | 0 | 1 => 1
    | 2 => 2
    | 3 => 4
    | 4 => 8
    | _ => 60

def stabilityInterval (c : CrashTracker) : Nat := c.backoffUnit * 120

/-- The consecutive crashes before the one that is recorded. -/
def streakAt (c : CrashTracker) (now : Int) : Nat :=
  match c.lastCrash with
  | some last => if c.stabilityInterval ≤ durationSince now last then 0 else c.consecutiveCrashes
  | none => c.consecutiveCrashes

/-- `record_crash`: whether the adapter is to be marked unhealthy, and the backoff. -/
def recordCrash (c : CrashTracker) (now : Int) : CrashTracker × Bool × Nat :=
  let timestamps := (c.timestamps ++ [now]).filter fun t => now - secs 60 ≤ t
  ({ c with timestamps, consecutiveCrashes := c.streakAt now + 1, lastCrash := some now },
    3 ≤ timestamps.length, c.backoffFor (c.streakAt now))

def reset (c : CrashTracker) : CrashTracker := { c with consecutiveCrashes := 0, lastCrash := none }

/-- What happens to a tracker: a crash, or the end of an `initialize`. -/
inductive Event where
  | crash (now : Int)
  | reset

/-- The tracker after a history, the newest event first. -/
def after : List Event → CrashTracker
  | [] => {}
  | .crash now :: es => ((after es).recordCrash now).1
  | .reset :: es => (after es).reset

def crashes : List Event → List Int
  | [] => []
  | .crash now :: es => crashes es ++ [now]
  | .reset :: es => crashes es

/-- The crashes in a row before `now`, without a reset or a pause of two minutes. -/
def streak : List Event → Int → Nat
  | .crash last :: es, now => if secs 120 ≤ durationSince now last then 0 else streak es last + 1
  | _, _ => 0

variable {es : List Event} {now : Int}

theorem backoffUnit_after : ∀ es : List Event, (after es).backoffUnit = secs 1
  | [] => rfl
  | .crash _ :: es => backoffUnit_after es
  | .reset :: es => backoffUnit_after es

theorem streakAt_after (es : List Event) (now : Int) : (after es).streakAt now = streak es now := by
  induction es generalizing now with
  | nil => rfl
  | cons e es ih =>
    cases e with
    | crash last =>
      have hinterval : (after es).stabilityInterval = secs 120 := by
        rw [stabilityInterval, backoffUnit_after]
        rfl
      rw [streak, ← hinterval, ← ih last]
      rfl
    | reset => rfl

/-- What was forgotten is too old for later crashes as well. -/
theorem filter_timestamps {cutoff : Int} (h : ∀ t ∈ crashes es, t - secs 60 ≤ cutoff) :
    (after es).timestamps.filter (fun t => cutoff ≤ t) = (crashes es).filter fun t => cutoff ≤ t := by
  induction es with
  | nil => rfl
  | cons e es ih =>
    cases e with
    | crash last =>
      simp only [crashes, List.forall_mem_append, List.forall_mem_singleton] at h
      have hlater (t : Int) : (decide (cutoff ≤ t) && decide (last - secs 60 ≤ t)) = decide (cutoff ≤ t) := by
        simp only [Bool.and_eq_left_iff_imp, decide_eq_true_eq]
        exact Int.le_trans h.2
      simp only [after, recordCrash, crashes, List.filter_filter, hlater, List.filter_append, ih h.1]
    | reset => exact ih h

theorem recordCrash_unhealthy (h : ∀ t ∈ crashes es, t ≤ now) :
    ((after es).recordCrash now).2.1 = decide (2 ≤ (crashes es).countP fun t => now - secs 60 ≤ t) := by
  have hkept : ∀ t ∈ crashes es, t - (secs 60 : Int) ≤ now - secs 60 := fun t ht =>
    Int.sub_le_sub_right (h t ht) _
  have hnow : ([now].filter fun t => now - (secs 60 : Int) ≤ t) = [now] :=
    List.filter_eq_self.2 fun t ht => by rw [List.mem_singleton.1 ht, decide_eq_true_eq]; omega
  simp only [recordCrash, List.filter_append, filter_timestamps hkept, hnow, List.length_append,
    List.countP_eq_length_filter, List.length_singleton, Nat.reduceLeDiff]

theorem recordCrash_backoff (es : List Event) (now : Int) :
    ((after es).recordCrash now).2.2 = ({} : CrashTracker).backoffFor (streak es now) := by
  rw [recordCrash, streakAt_after]
  unfold backoffFor
  rw [backoffUnit_after]

/-- **What a crash is told**, when the clock has not gone back. -/
theorem recordCrash_told (h : ∀ t ∈ crashes es, t ≤ now) :
    ((after es).recordCrash now).2 =
      (decide (2 ≤ (crashes es).countP fun t => now - secs 60 ≤ t),
        ({} : CrashTracker).backoffFor (streak es now)) :=
  Prod.ext (recordCrash_unhealthy h) (recordCrash_backoff es now)

theorem third_crash_told :
    ((after [.crash (secs 1), .crash 0]).recordCrash (secs 2)).2 = (true, secs 2) :=
  (recordCrash_told (by decide)).trans (by decide)

/-- When the child is respawned, if the last event is a crash. -/
def respawnAt : List Event → Option Int
  | .crash last :: es => some (last + ((after es).recordCrash last).2.2)
  | _ => none

def Paced : List Event → Prop
  | [] => True
  | .reset :: es => Paced es
  | .crash now :: es => (∀ t ∈ crashes es, t ≤ now) ∧ (∀ t ∈ respawnAt es, t ≤ now) ∧ Paced es

theorem Paced.waited {last : Int} (h : Paced (.crash now :: .crash last :: es)) :
    last + ({} : CrashTracker).backoffFor (streak es last) ≤ now := by
  rw [← recordCrash_backoff]
  exact h.2.1 _ rfl

theorem exists_of_lt_streak {n : Nat} (h : n < streak es now) :
    ∃ last es', es = .crash last :: es' ∧ n ≤ streak es' last := by
  obtain _ | ⟨_ | _, es⟩ := es
  · exact absurd h (Nat.not_lt_zero n)
  · next last =>
    refine ⟨last, es, rfl, ?_⟩
    rw [streak] at h
    split at h <;> omega
  · exact absurd h (Nat.not_lt_zero n)

theorem le_backoffFor {n : Nat} (h : 4 ≤ n) :
    secs 8 ≤ ({} : CrashTracker).backoffFor n ∧ (5 ≤ n → secs 60 ≤ ({} : CrashTracker).backoffFor n) := by
  simp only [backoffFor, secs, nanosPerSec]
  split <;> omega

/-- **Capped crashes are not told unhealthy**: of those before, at most one is within the minute. -/
theorem recordCrash_capped (h : Paced (.crash now :: es)) (hstreak : 6 ≤ streak es now) :
    ((after es).recordCrash now).2.1 = false := by
  obtain ⟨last, es, rfl, hlast⟩ := exists_of_lt_streak hstreak
  obtain ⟨before, es, rfl, hbefore⟩ := exists_of_lt_streak hlast
  have hminute := (le_backoffFor (by omega)).2 hlast
  have hpause := (le_backoffFor hbefore).1
  have hwaited := h.waited
  have hwaited' := Paced.waited h.2.2
  have hpos : 0 < secs 8 := by decide
  have hold : ((crashes es ++ [before]).countP fun t => now - secs 60 ≤ t) = 0 := by
    refine List.countP_eq_zero.2 fun t ht => ?_
    have hle : t ≤ before := by
      obtain ht | ht := List.mem_append.1 ht
      · exact h.2.2.2.2.1 t ht
      · rw [List.mem_singleton.1 ht]
    rw [decide_eq_true_eq]
    omega
  have hone : ([last].countP fun t => now - secs 60 ≤ t) ≤ 1 := List.countP_le_length
  rw [recordCrash_unhealthy h.1, decide_eq_false_iff_not, crashes, crashes, List.countP_append, hold]
  omega

theorem seventh_crash_told : ((after ([16, 8, 4, 2, 1, 0].map fun n => .crash (secs n))).recordCrash
    (secs 76)).2.1 = false :=
  recordCrash_capped (by repeat first | exact trivial | refine ⟨by decide, by decide, ?_⟩) (by decide)

end CrashTracker

end EndaraRelay
