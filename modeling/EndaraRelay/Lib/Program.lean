import Mathlib.Data.List.Forall2
import Mathlib.Data.List.Basic

/-!
# Programs that ask their environment

A program (`Prog`) is done, with a result or an error, or performs an operation and goes on with the
answer. Nothing says what an operation means: `run` gives it answers one after the other, whatever they
are, and keeps the trace of what was asked and answered.

* `Runs p tr r`: a run of `p` has the trace `tr` and ends in `r`. The lemmas `runs_*` take the runs of
  a composed program apart.
* `Only P p`, `AtMost q n p`: what every run of `p` performs, and how often.
* `Along P h tr`: every step of a trace is as `P` says, which also sees what was there before it.
* `Alike R p q`: the programs perform operations related by `R` as long as they get the same answers,
  and then end alike. It composes like the programs do, and `Alike.run` says what it means for two runs
  with the same answers: their traces are related step by step.
-/

namespace Verif

universe u v w

/-- A computation that succeeds has succeeded in its first part. -/
theorem exists_of_bind_ok {ε α β : Type w} {a : Except ε α} {f : α → Except ε β} {b : β}
    (h : (a >>= f) = .ok b) : ∃ c, a = .ok c ∧ f c = .ok b := by
  cases a with
  | error e => cases h
  | ok c => exact ⟨c, rfl, h⟩

/-- A program over operations `O` with answers `A`, which fails with an `ε` or returns an `α`. -/
inductive Prog (O : Type u) (A : Type v) (ε α : Type w) where
  | done (result : Except ε α)
  | op (o : O) (next : A → Prog O A ε α)

namespace Prog

variable {O : Type u} {A : Type v} {ε ε' α β : Type w}

/-- Continue with the result, unless it is an error. -/
def bind : Prog O A ε α → (α → Prog O A ε β) → Prog O A ε β
  | done (.ok a), f => f a
  | done (.error e), _ => done (.error e)
  | op o next, f => op o fun answer => (next answer).bind f

instance : Monad (Prog O A ε) where
  pure a := done (.ok a)
  bind := bind

/-- Perform an operation and read its answer. -/
def call (o : O) (read : A → Except ε α) : Prog O A ε α := op o fun answer => done (read answer)

def fail (e : ε) : Prog O A ε α := done (.error e)

/-- `map_err`. -/
def mapError (f : ε → ε') : Prog O A ε α → Prog O A ε' α
  | done (.ok a) => done (.ok a)
  | done (.error e) => done (.error (f e))
  | op o next => op o fun answer => (next answer).mapError f

/-- A failure becomes a result, on which the program can branch. -/
def attempt : Prog O A ε α → Prog O A ε (Except ε α)
  | done result => done (.ok result)
  | op o next => op o fun answer => (next answer).attempt

/-- What is asked and answered, and how it ends, when the answers are `answers n`, `answers (n + 1)` and
so on. -/
def run (answers : Nat → A) : Nat → Prog O A ε α → List (O × A) × Except ε α
  | _, done result => ([], result)
  | n, op o next =>
    let later := (next (answers n)).run answers (n + 1)
    ((o, answers n) :: later.1, later.2)

/-! ## Runs -/

/-- A run, with its trace. -/
inductive Runs : Prog O A ε α → List (O × A) → Except ε α → Prop where
  | done (result : Except ε α) : Runs (done result) [] result
  | op {o : O} {next : A → Prog O A ε α} {answer : A} {tr : List (O × A)} {result : Except ε α} :
    Runs (next answer) tr result → Runs (op o next) ((o, answer) :: tr) result

theorem runs_run (answers : Nat → A) (n : Nat) (p : Prog O A ε α) :
    Runs p (p.run answers n).1 (p.run answers n).2 := by
  induction p generalizing n with
  | done result => exact .done result
  | op o next ih => exact .op (ih (answers n) (n + 1))

variable {o : O} {p : Prog O A ε α} {f : α → Prog O A ε β}

section Compose

variable {tr : List (O × A)}

theorem runs_done {result result' : Except ε α} :
    Runs (done result : Prog O A ε α) tr result' ↔ tr = [] ∧ result' = result := by
  constructor
  · intro h
    cases h
    exact ⟨rfl, rfl⟩
  · rintro ⟨rfl, rfl⟩
    exact .done _

theorem runs_op {next : A → Prog O A ε α} {result : Except ε α} :
    Runs (op o next) tr result ↔
      ∃ answer tr', tr = (o, answer) :: tr' ∧ Runs (next answer) tr' result := by
  constructor
  · intro h
    cases h with
    | op h => exact ⟨_, _, rfl, h⟩
  · rintro ⟨answer, tr', rfl, h⟩
    exact .op h

theorem runs_call {read : A → Except ε α} {result : Except ε α} :
    Runs (call o read) tr result ↔ ∃ answer, tr = [(o, answer)] ∧ result = read answer := by
  rw [call, runs_op]
  constructor
  · rintro ⟨answer, tr', rfl, h⟩
    obtain ⟨rfl, rfl⟩ := runs_done.mp h
    exact ⟨answer, rfl, rfl⟩
  · rintro ⟨answer, rfl, rfl⟩
    exact ⟨answer, [], rfl, .done _⟩

/-- A composed program fails in its first part or goes through it. -/
theorem runs_bind {result : Except ε β} :
    Runs (p >>= f) tr result ↔
      (∃ e, Runs p tr (.error e) ∧ result = .error e) ∨
        ∃ a tr₁ tr₂, tr = tr₁ ++ tr₂ ∧ Runs p tr₁ (.ok a) ∧ Runs (f a) tr₂ result := by
  change Runs (p.bind f) tr result ↔ _
  induction p generalizing tr with
  | done r =>
    cases r with
    | error e => simp [bind, runs_done, and_assoc]
    | ok a => simp [bind, runs_done]
  | op o next ih =>
    simp only [bind, runs_op, ih]
    constructor
    · rintro ⟨answer, tr', rfl, ⟨e, he, hresult⟩ | ⟨a, tr₁, tr₂, rfl, h₁, h₂⟩⟩
      · exact .inl ⟨e, ⟨answer, tr', rfl, he⟩, hresult⟩
      · exact .inr ⟨a, (o, answer) :: tr₁, tr₂, rfl, ⟨answer, tr₁, rfl, h₁⟩, h₂⟩
    · rintro (⟨e, ⟨answer, tr', rfl, he⟩, hresult⟩ | ⟨a, -, tr₂, rfl, ⟨answer, tr₁, rfl, h₁⟩, h₂⟩)
      · exact ⟨answer, tr', rfl, .inl ⟨e, he, hresult⟩⟩
      · exact ⟨answer, tr₁ ++ tr₂, rfl, .inr ⟨a, tr₁, tr₂, rfl, h₁, h₂⟩⟩

theorem runs_mapError {f : ε → ε'} {result : Except ε' α} :
    Runs (p.mapError f) tr result ↔ ∃ r, Runs p tr r ∧ result = r.mapError f := by
  induction p generalizing tr with
  | done r =>
    cases r with
    | error e => simp [mapError, runs_done, Except.mapError, and_assoc]
    | ok a => simp [mapError, runs_done, Except.mapError, and_assoc]
  | op o next ih =>
    simp only [mapError, runs_op, ih]
    constructor
    · rintro ⟨answer, tr', rfl, r, hr, hresult⟩
      exact ⟨r, ⟨answer, tr', rfl, hr⟩, hresult⟩
    · rintro ⟨r, ⟨answer, tr', rfl, hr⟩, hresult⟩
      exact ⟨answer, tr', rfl, r, hr, hresult⟩

theorem runs_attempt {result : Except ε (Except ε α)} :
    Runs p.attempt tr result ↔ ∃ r, Runs p tr r ∧ result = .ok r := by
  induction p generalizing tr with
  | done r => simp [attempt, runs_done, and_assoc]
  | op o next ih =>
    simp only [attempt, runs_op, ih]
    constructor
    · rintro ⟨answer, tr', rfl, r, hr, hresult⟩
      exact ⟨r, ⟨answer, tr', rfl, hr⟩, hresult⟩
    · rintro ⟨r, ⟨answer, tr', rfl, hr⟩, hresult⟩
      exact ⟨answer, tr', rfl, r, hr, hresult⟩

/-- A composed program begins with an operation that does not fail. -/
theorem runs_call_bind {read : A → α} {result : Except ε β} :
    Runs ((call o fun answer => .ok (read answer)) >>= f) tr result ↔
      ∃ answer tr', tr = (o, answer) :: tr' ∧ Runs (f (read answer)) tr' result :=
  runs_op

theorem runs_attempt_bind {f : Except ε α → Prog O A ε β} {result : Except ε β} :
    Runs (p.attempt >>= f) tr result ↔
      ∃ r tr₁ tr₂, tr = tr₁ ++ tr₂ ∧ Runs p tr₁ r ∧ Runs (f r) tr₂ result := by
  rw [runs_bind]
  constructor
  · rintro (⟨e, herror, -⟩ | ⟨r, tr₁, tr₂, rfl, hp, hf⟩)
    · obtain ⟨r, -, hr⟩ := runs_attempt.mp herror
      cases hr
    · obtain ⟨r', hp, hr⟩ := runs_attempt.mp hp
      obtain rfl := Except.ok.inj hr
      exact ⟨r, tr₁, tr₂, rfl, hp, hf⟩
  · rintro ⟨r, tr₁, tr₂, rfl, hp, hf⟩
    exact .inr ⟨r, tr₁, tr₂, rfl, runs_attempt.mpr ⟨r, hp, rfl⟩, hf⟩

end Compose

/-! ## What a program performs -/

/-- Every operation of every run satisfies `P`. -/
def Only (P : O → Prop) (p : Prog O A ε α) : Prop := ∀ tr result, Runs p tr result → ∀ e ∈ tr, P e.1

/-- No run performs more than `n` operations that satisfy `q`. -/
def AtMost (q : O → Bool) (n : Nat) (p : Prog O A ε α) : Prop :=
  ∀ tr result, Runs p tr result → (tr.countP fun e => q e.1) ≤ n

section Performs

variable {P : O → Prop} {q : O → Bool} {m n : Nat}

theorem only_done (result : Except ε α) : Only P (done result : Prog O A ε α) := by
  intro tr result' h
  obtain ⟨rfl, -⟩ := runs_done.mp h
  simp

theorem only_call (ho : P o) (read : A → Except ε α) : Only P (call o read) := by
  intro tr result h
  obtain ⟨answer, rfl, -⟩ := runs_call.mp h
  simpa using ho

theorem only_bind (hp : Only P p) (hf : ∀ a, Only P (f a)) : Only P (p >>= f) := by
  intro tr result h e he
  obtain ⟨_, herror, -⟩ | ⟨a, tr₁, tr₂, rfl, h₁, h₂⟩ := runs_bind.mp h
  · exact hp _ _ herror e he
  · obtain he | he := List.mem_append.mp he
    · exact hp _ _ h₁ e he
    · exact hf a _ _ h₂ e he

theorem only_mapError (hp : Only P p) (f : ε → ε') : Only P (p.mapError f) := by
  intro tr result h
  obtain ⟨r, hr, -⟩ := runs_mapError.mp h
  exact hp _ _ hr

theorem only_attempt (hp : Only P p) : Only P p.attempt := by
  intro tr result h
  obtain ⟨r, hr, -⟩ := runs_attempt.mp h
  exact hp _ _ hr

theorem Only.imp {P' : O → Prop} (hp : Only P p) (himp : ∀ o, P o → P' o) : Only P' p :=
  fun tr result h e he => himp _ (hp tr result h e he)

theorem atMost_zero (hp : Only (fun o => q o = false) p) : AtMost q 0 p := by
  intro tr result h
  rw [Nat.le_zero, List.countP_eq_zero]
  intro e he
  simp [hp tr result h e he]

theorem atMost_call (o : O) (read : A → Except ε α) : AtMost q 1 (call o read) := by
  intro tr result h
  obtain ⟨answer, rfl, -⟩ := runs_call.mp h
  exact List.countP_le_length

theorem atMost_call_of_false (ho : q o = false) (read : A → Except ε α) : AtMost q 0 (call o read) := by
  intro tr result h
  obtain ⟨answer, rfl, -⟩ := runs_call.mp h
  simp [ho]

theorem atMost_bind (hp : AtMost q m p) (hf : ∀ a, AtMost q n (f a)) : AtMost q (m + n) (p >>= f) := by
  intro tr result h
  obtain ⟨_, herror, -⟩ | ⟨a, tr₁, tr₂, rfl, h₁, h₂⟩ := runs_bind.mp h
  · exact Nat.le_add_right_of_le (hp _ _ herror)
  · rw [List.countP_append]
    exact Nat.add_le_add (hp _ _ h₁) (hf a _ _ h₂)

theorem atMost_mapError (hp : AtMost q n p) (f : ε → ε') : AtMost q n (p.mapError f) := by
  intro tr result h
  obtain ⟨r, hr, -⟩ := runs_mapError.mp h
  exact hp _ _ hr

end Performs

/-! ## Steps and what is before them -/

section Along

variable {E : Type u} {P : List E → E → Prop}

/-- Behind the history `h`, every step of a trace satisfies `P` together with all that is before it. -/
def Along (P : List E → E → Prop) (h tr : List E) : Prop :=
  ∀ before e after, tr = before ++ e :: after → P (h ++ before) e

theorem along_nil (h : List E) : Along P h [] := by
  intro before e after heq
  simp at heq

theorem along_cons {h tr : List E} {e : E} : Along P h (e :: tr) ↔ P h e ∧ Along P (h ++ [e]) tr := by
  constructor
  · intro halong
    constructor
    · simpa using halong [] e tr rfl
    · rintro before e' after rfl
      simpa using halong (e :: before) e' after rfl
  · rintro ⟨he, htr⟩ before e' after heq
    cases before with
    | nil =>
      obtain ⟨rfl, rfl⟩ : e = e' ∧ tr = after := by simpa using heq
      simpa using he
    | cons e'' before =>
      obtain ⟨rfl, rfl⟩ : e = e'' ∧ tr = before ++ e' :: after := by simpa using heq
      simpa using htr before e' after rfl

theorem along_append {h tr tr' : List E} : Along P h (tr ++ tr') ↔ Along P h tr ∧ Along P (h ++ tr) tr' := by
  induction tr generalizing h with
  | nil => simp [along_nil]
  | cons e tr ih => simp [along_cons, ih, and_assoc]

/-- Steps that are permitted whatever is before them. -/
theorem along_of_forall {h tr : List E} (htr : ∀ e ∈ tr, ∀ h, P h e) : Along P h tr := by
  rintro before e after rfl
  exact htr e (by simp) _

end Along

/-! ## Programs alike -/

/-- With the same answers, two programs perform related operations and end alike. -/
inductive Alike (R : O → O → Prop) : Prog O A ε α → Prog O A ε α → Prop where
  | done (result : Except ε α) : Alike R (done result) (done result)
  | op {o o' : O} {next next' : A → Prog O A ε α} :
    R o o' → (∀ answer, Alike R (next answer) (next' answer)) → Alike R (op o next) (op o' next')

namespace Alike

variable {R : O → O → Prop}

theorem call {o o' : O} (h : R o o') (read : A → Except ε α) : Alike R (call o read) (call o' read) :=
  .op h fun _ => .done _

theorem bind {p q : Prog O A ε α} {f g : α → Prog O A ε β} (hp : Alike R p q)
    (hf : ∀ a, Alike R (f a) (g a)) : Alike R (p >>= f) (q >>= g) := by
  change Alike R (p.bind f) (q.bind g)
  induction hp with
  | done result =>
    cases result with
    | error e => exact .done _
    | ok a => exact hf a
  | op hR _ ih => exact .op hR ih

theorem mapError {p q : Prog O A ε α} (h : Alike R p q) (f : ε → ε') :
    Alike R (p.mapError f) (q.mapError f) := by
  induction h with
  | done result =>
    cases result with
    | error e => exact .done _
    | ok a => exact .done _
  | op hR _ ih => exact .op hR ih

theorem attempt {p q : Prog O A ε α} (h : Alike R p q) : Alike R p.attempt q.attempt := by
  induction h with
  | done result => exact .done _
  | op hR _ ih => exact .op hR ih

/-- Two runs of programs alike with the same answers. -/
theorem run {p q : Prog O A ε α} (h : Alike R p q) (answers : Nat → A) (n : Nat) :
    List.Forall₂ (fun e e' => R e.1 e'.1 ∧ e.2 = e'.2) (p.run answers n).1 (q.run answers n).1 ∧
      (p.run answers n).2 = (q.run answers n).2 := by
  induction h generalizing n with
  | done result => exact ⟨.nil, rfl⟩
  | op hR _ ih =>
    obtain ⟨htrace, hresult⟩ := ih (answers n) (n + 1)
    exact ⟨.cons ⟨hR, rfl⟩ htrace, hresult⟩

end Alike

end Prog

end Verif
