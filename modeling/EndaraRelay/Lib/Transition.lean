import Mathlib.Logic.Basic
import Mathlib.Data.Option.Basic

/-!
# Guarded transition systems

A system is an initial-state predicate and a partial, executable step function: `step s a` is
`some s'` when the action `a` is enabled in `s`. One definition serves two purposes:

* `run` replays a concrete list of actions, so that a scenario is checked by evaluation;
* `ReachableWhile ok` collects the states of the runs every step of which meets `ok`, and carries
  the induction principle by which an invariant is proved of all of them.

`Reachable` is the unrestricted case. A property that fails in general but holds of every run that
avoids some steps is stated over `ReachableWhile`, with the guard naming the steps to avoid.
-/

namespace Verif

universe u v

/-- A transition system: which states it starts in, and what an action does in a state. -/
structure System (σ : Type u) (α : Type v) where
  init : σ → Prop
  step : σ → α → Option σ

namespace System

variable {σ : Type u} {α : Type v} (S : System σ α)

/-- Replay a list of actions; `none` when one of them is not enabled. -/
def run : σ → List α → Option σ
  | s, [] => some s
  | s, a :: as =>
    match S.step s a with
    | none => none
    | some s' => run s' as

/-- The states reached by runs every step of which meets `ok`. -/
inductive ReachableWhile (ok : σ → α → Prop) : σ → Prop
  | init {s : σ} : S.init s → ReachableWhile ok s
  | step {s s' : σ} {a : α} :
      ReachableWhile ok s → ok s a → S.step s a = some s' → ReachableWhile ok s'

/-- The states reached by any run. -/
def Reachable : σ → Prop := S.ReachableWhile fun _ _ => True

variable {S} {ok : σ → α → Prop}

variable {s s' : σ} {as : List α} {check : σ → α → Bool}

/-- **Invariant rule.** What holds initially and is kept by every step that meets the guard holds
of every state such runs reach. -/
theorem ReachableWhile.invariant {P : σ → Prop} (hinit : ∀ s, S.init s → P s)
    (hstep : ∀ s a s', P s → ok s a → S.step s a = some s' → P s') (h : S.ReachableWhile ok s) :
    P s := by
  induction h with
  | init h0 => exact hinit _ h0
  | step _ hok hst ih => exact hstep _ _ _ ih hok hst

/-- The invariant rule relative to an invariant `J` already established. -/
theorem ReachableWhile.invariant_of {J P : σ → Prop} (hJ : ∀ s, S.ReachableWhile ok s → J s)
    (hinit : ∀ s, S.init s → P s) (hstep : ∀ s a s', J s → P s → ok s a → S.step s a = some s' → P s')
    (h : S.ReachableWhile ok s) : P s := by
  induction h with
  | init h0 => exact hinit _ h0
  | step hr hok hst ih => exact hstep _ _ _ (hJ _ hr) ih hok hst

/-- A weaker guard reaches more states. -/
theorem ReachableWhile.mono {ok' : σ → α → Prop} (himp : ∀ s a, ok s a → ok' s a)
    (h : S.ReachableWhile ok s) : S.ReachableWhile ok' s := by
  induction h with
  | init h0 => exact .init h0
  | step _ hok hst ih => exact .step ih (himp _ _ hok) hst

theorem ReachableWhile.reachable (h : S.ReachableWhile ok s) : S.Reachable s :=
  h.mono fun _ _ _ => trivial

theorem Reachable.init (h : S.init s) : S.Reachable s := ReachableWhile.init h

theorem Reachable.step {s s' : σ} {a : α} (h : S.Reachable s) (hst : S.step s a = some s') :
    S.Reachable s' :=
  ReachableWhile.step h trivial hst

@[simp] theorem run_nil (s : σ) : S.run s [] = some s := rfl

theorem run_cons {a : α} : S.run s (a :: as) = (S.step s a).bind fun s' => S.run s' as := by
  rw [run]
  cases S.step s a with
  | none => rfl
  | some s' => rfl

/-- Replaying a list of actions from a reachable state ends in a reachable state. -/
theorem Reachable.run (h : S.Reachable s) (hr : S.run s as = some s') : S.Reachable s' := by
  induction as generalizing s with
  | nil =>
    obtain rfl : s = s' := by simpa using hr
    exact h
  | cons a as ih =>
    rw [run_cons] at hr
    obtain ⟨s₁, hst, hr⟩ := Option.bind_eq_some_iff.1 hr
    exact ih (h.step hst) hr

/-- Replay a list of actions as long as each of them passes `check`. -/
def runWhile (S : System σ α) (check : σ → α → Bool) : σ → List α → Option σ
  | s, [] => some s
  | s, a :: as =>
    if check s a then
      match S.step s a with
      | none => none
      | some s' => runWhile S check s' as
    else none

/-- Replaying actions that pass a check of the guard stays inside the guarded runs. -/
theorem ReachableWhile.run (hcheck : ∀ s a, check s a = true → ok s a) (h : S.ReachableWhile ok s)
    (hr : S.runWhile check s as = some s') : S.ReachableWhile ok s' := by
  induction as generalizing s with
  | nil =>
    obtain rfl : s = s' := by simpa [runWhile] using hr
    exact h
  | cons a as ih =>
    rw [runWhile] at hr
    split at hr
    · next hok =>
      split at hr
      · cases hr
      · next s₁ hst => exact ih (h.step (hcheck s a hok) hst) hr
    · cases hr

/-! ## Runs from a state -/

/-- The runs that start in a given state. -/
def startingAt (S : System σ α) (s : σ) : System σ α := { S with init := (· = s) }

theorem runWhile_startingAt (s₀ : σ) (check : σ → α → Bool) (s : σ) (as : List α) :
    (S.startingAt s₀).runWhile check s as = S.runWhile check s as := by
  induction as generalizing s with
  | nil => rfl
  | cons a as ih =>
    rw [runWhile, runWhile]
    show (if check s a = true then match S.step s a with | none => none | some s' => _ else none) = _
    cases S.step s a with
    | none => rfl
    | some s' =>
      dsimp only
      rw [ih]

/-- Replaying checked actions from a state is a run from it. -/
theorem startingAt_run (hcheck : ∀ s a, check s a = true → ok s a)
    (hr : S.runWhile check s as = some s') : (S.startingAt s).ReachableWhile ok s' :=
  ReachableWhile.run hcheck (.init rfl) ((runWhile_startingAt s check s as).trans hr)

theorem Reachable.startingAt (h : S.Reachable s) (hr : (S.startingAt s).ReachableWhile ok s') :
    S.Reachable s' := by
  induction hr with
  | init h0 => exact h0 ▸ h
  | step _ _ hst ih => exact ih.step hst

/-! ## Recorded runs -/

/-- The system with the events of its steps, latest first. -/
def recording {ε : Type*} (S : System σ α) (event : σ → α → Option ε) : System (σ × List ε) α where
  init s := S.init s.1 ∧ s.2 = []
  step s a := (S.step s.1 a).map fun s' => (s', (event s.1 a).toList ++ s.2)

theorem ReachableWhile.of_recording {ε : Type*} {event : σ → α → Option ε} {s : σ × List ε}
    (h : (S.recording event).ReachableWhile (fun s a => ok s.1 a) s) : S.ReachableWhile ok s.1 := by
  induction h with
  | init h0 => exact .init h0.1
  | step _ hok hst ih =>
    obtain ⟨s', hs', rfl⟩ := Option.map_eq_some_iff.1 hst
    exact .step ih hok hs'

end System

end Verif
