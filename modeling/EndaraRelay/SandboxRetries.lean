import Mathlib.Data.Rat.Floor
import Mathlib.Data.List.Infix
import EndaraRelay.ToolCallEvents

/-!
# Retries of sandbox calls

How a script's tool call is retried (`js_sandbox.rs`). The entry that the catalog has for the tool must
declare it read-only or idempotent, and not destructive. Then an error that looks transient is answered by a
sleep and one more attempt, up to the retries asked for and to three, while the sleep ends before the
deadline of the sandbox.

**The world.** What the attempts come back with, what the clock says after each, and what the jitter makes of
a backoff are any functions of the attempt; so is how an unknown tool is reported.

**Theorem (`sandbox_retries_bounded`).** The attempts are counted from zero without a gap, and there are at
most `1 + min retries 3`. A sleep ends before the deadline and leads to another attempt. A success and an error
that is not transient are the end and the answer; a transient error is the end only when the retries are
used up or the next sleep would pass the deadline. A tool that is annotated as destructive gets one attempt
at most, and none where retries are asked for.
-/

namespace EndaraRelay

open Verif

/-! ## The settings -/

def maxRetries : Nat := 3

def retryBackoffScheduleMs : List Nat := [200, 400, 800]

/-- `RETRY_BACKOFFS_MS`, outside tests. -/
def retryBackoffsMs : List Nat := retryBackoffScheduleMs

def retryTransientSubstrings : List String :=
  ["503", "502", "504", "timeout", "connection", "reset"]

/-- A number of a script. -/
inductive JsNumber where
  | finite (value : Rat)
  | infinite (negative : Bool)
  | nan

/-- The retries a script asks for; `n as usize` truncates and saturates. -/
def retryRequested : Option JsNumber → Nat
  | some (.finite n) => if 0 < n then min n.floor.toNat (2 ^ 64 - 1) else 0
  | _ => 0

/-! ## The classifications -/

/-- Whether a tool declares that it may be retried. -/
def isRetryEligible (annotations : Option Json) : Bool :=
  match annotations.bind Json.asObject with
  | none => false
  | some obj =>
    if Fields.get obj "destructiveHint" matches some (.bool true) then false
    else
      (Fields.get obj "readOnlyHint" matches some (.bool true)) ||
        (Fields.get obj "idempotentHint" matches some (.bool true))

/-- Whether a tool is annotated as destructive. -/
def ToolInfo.isDestructive (tool : ToolInfo) : Prop :=
  ∃ obj, tool.annotations = some (.obj obj) ∧ Fields.get obj "destructiveHint" = some (.bool true)

/-- What a script's calls meet. -/
structure RetryWorld where
  toLowercase : String → String
  unknownToolError : String → List ToolInfo → String
  /-- What the attempt comes back with. -/
  routeToolCall : Nat → Except AdapterError Json
  /-- The clock after the attempt, in nanoseconds. -/
  now : Nat → Nat
  /-- The backoff after the attempt, with the factor that is drawn for it. -/
  jitteredBackoffMs : Nat → Nat → Nat

namespace RetryWorld

variable (w : RetryWorld)

def isTransientError (err : AdapterError) : Bool :=
  retryTransientSubstrings.any fun s => s.toList <:+: (w.toLowercase err.display).toList

/-- **Nothing to retry**: a success, or an error that is not transient. -/
def settles (attempt : Nat) : Prop :=
  ∀ e, w.routeToolCall attempt = .error e → w.isTransientError e = false

end RetryWorld

/-! ## The loop -/

/-- What is done between the call and its answer. -/
inductive RetryAction where
  | attempt (n : Nat)
  /-- The sleep after the attempt. -/
  | sleep (n ms : Nat)
deriving DecidableEq

def RetryAction.attempt? : RetryAction → Option Nat
  | attempt n => some n
  | sleep .. => none

def attemptsOf (trace : List RetryAction) : List Nat := trace.filterMap RetryAction.attempt?

/-- A sleep of no time is left out. -/
def sleepFor (attempt ms : Nat) : List RetryAction := if 0 < ms then [.sleep attempt ms] else []

/-- The error of a call whose next sleep would pass the deadline. -/
def deadlineExceeded (toolName : String) (attemptsMade : Nat) (e : AdapterError) : AdapterError :=
  .protocolError ("call('" ++ toolName ++ "'): retry deadline exceeded after " ++ toString attemptsMade ++
    " attempts (last error: " ++ e.display ++ ")")

namespace RetryWorld

variable (w : RetryWorld)

/-- The jittered sleep after the attempt. -/
def backoffMs (useRealBackoff : Bool) (attempt : Nat) : Nat :=
  let schedule := if useRealBackoff then retryBackoffScheduleMs else retryBackoffsMs
  w.jitteredBackoffMs attempt (schedule[attempt]?.getD (schedule.getLast?.getD 0))

/-- `Instant::now() + backoff >= deadline`. -/
def passesDeadline (useRealBackoff : Bool) (deadline attempt : Nat) : Prop :=
  deadline ≤ w.now attempt + w.backoffMs useRealBackoff attempt * 1000000

instance (useRealBackoff : Bool) (deadline attempt : Nat) :
    Decidable (w.passesDeadline useRealBackoff deadline attempt) :=
  inferInstanceAs (Decidable (_ ≤ _))

def callToolWithRetryLoop (toolName : String) (retries deadline : Nat) (useRealBackoff : Bool)
    (attempt : Nat) : List RetryAction × Except AdapterError Json :=
  match w.routeToolCall attempt with
  | .ok v => ([.attempt attempt], .ok v)
  | .error e =>
    if attempt < retries ∧ w.isTransientError e then
      if w.passesDeadline useRealBackoff deadline attempt then
        ([.attempt attempt], .error (deadlineExceeded toolName (attempt + 1) e))
      else
        let ms := w.backoffMs useRealBackoff attempt
        let rest := callToolWithRetryLoop toolName retries deadline useRealBackoff (attempt + 1)
        (.attempt attempt :: (sleepFor attempt ms ++ rest.1), rest.2)
    else ([.attempt attempt], .error e)
termination_by retries - attempt

end RetryWorld

namespace RetryWorld

variable (w : RetryWorld)

/-- The trace of a loop whose attempts are `first`, …, `last`. -/
def traceTo (useRealBackoff : Bool) (first last : Nat) : List RetryAction :=
  (List.range' first (last - first)).flatMap (fun k =>
    .attempt k :: sleepFor k (w.backoffMs useRealBackoff k)) ++ [.attempt last]

theorem traceTo_self (useRealBackoff : Bool) (k : Nat) :
    w.traceTo useRealBackoff k k = [.attempt k] := by
  simp [traceTo]

theorem traceTo_of_lt (useRealBackoff : Bool) {first last : Nat} (h : first < last) :
    w.traceTo useRealBackoff first last =
      .attempt first :: (sleepFor first (w.backoffMs useRealBackoff first) ++
        w.traceTo useRealBackoff (first + 1) last) := by
  obtain ⟨d, rfl⟩ : ∃ d, last = first + 1 + d := ⟨last - (first + 1), by omega⟩
  have hlen : first + 1 + d - first = d + 1 := by omega
  simp [traceTo, hlen, List.range'_succ]

theorem attemptsOf_append (a b : List RetryAction) : attemptsOf (a ++ b) = attemptsOf a ++ attemptsOf b :=
  List.filterMap_append

theorem attemptsOf_sleepFor (k ms : Nat) : attemptsOf (sleepFor k ms) = [] := by
  unfold sleepFor
  split_ifs <;> rfl

theorem attemptsOf_traceTo (useRealBackoff : Bool) (first d : Nat) :
    attemptsOf (w.traceTo useRealBackoff first (first + d)) = List.range' first (d + 1) := by
  induction d generalizing first with
  | zero =>
    rw [Nat.add_zero, traceTo_self]
    rfl
  | succ d ih =>
    have hnext : first + (d + 1) = first + 1 + d := by omega
    rw [w.traceTo_of_lt useRealBackoff (by omega), hnext, List.range'_succ, ← ih (first + 1)]
    change first :: attemptsOf (_ ++ _) = _
    rw [attemptsOf_append, attemptsOf_sleepFor, List.nil_append]

theorem sleep_mem_traceTo {w : RetryWorld} {useRealBackoff : Bool} {first last k ms : Nat}
    (h : .sleep k ms ∈ w.traceTo useRealBackoff first last) :
    first ≤ k ∧ k < last ∧ ms = w.backoffMs useRealBackoff k := by
  simp only [traceTo, List.mem_append, List.mem_flatMap, List.mem_range'_1, List.mem_cons,
    List.not_mem_nil, or_false, reduceCtorEq, false_or] at h
  obtain ⟨j, hj, hmem⟩ := h
  unfold sleepFor at hmem
  split_ifs at hmem
  · cases List.mem_singleton.mp hmem
    exact ⟨hj.1, by omega, rfl⟩
  · cases hmem

/-- Why an attempt is not the last one. -/
def goesOn (retries deadline : Nat) (useRealBackoff : Bool) (attempt : Nat) : Prop :=
  attempt < retries ∧ ¬ w.settles attempt ∧ ¬ w.passesDeadline useRealBackoff deadline attempt

/-- What the last attempt makes of the call. -/
def endsIn (toolName : String) (retries deadline : Nat) (useRealBackoff : Bool) (attempt : Nat)
    (result : Except AdapterError Json) : Prop :=
  (w.settles attempt ∨ retries ≤ attempt) ∧ result = w.routeToolCall attempt ∨
    ∃ e, w.routeToolCall attempt = .error e ∧ ¬ w.settles attempt ∧
      w.passesDeadline useRealBackoff deadline attempt ∧
      result = .error (deadlineExceeded toolName (attempt + 1) e)

theorem not_settles_iff {w : RetryWorld} {k : Nat} {e : AdapterError} (h : w.routeToolCall k = .error e) :
    ¬ w.settles k ↔ w.isTransientError e = true := by
  simp [settles, h]

theorem loop_spec (toolName : String) (retries deadline : Nat) (useRealBackoff : Bool) (first : Nat) :
    ∃ last, first ≤ last ∧ last ≤ max first retries ∧
      (w.callToolWithRetryLoop toolName retries deadline useRealBackoff first).1 =
        w.traceTo useRealBackoff first last ∧
      (∀ k, first ≤ k → k < last → w.goesOn retries deadline useRealBackoff k) ∧
      w.endsIn toolName retries deadline useRealBackoff last
        (w.callToolWithRetryLoop toolName retries deadline useRealBackoff first).2 := by
  fun_induction callToolWithRetryLoop w toolName retries deadline useRealBackoff first with
  | case1 k v hok =>
    refine ⟨k, le_rfl, le_max_left .., (w.traceTo_self ..).symm, by omega, .inl ⟨.inl ?_, hok.symm⟩⟩
    simp [settles, hok]
  | case2 k e herr h hpast =>
    refine ⟨k, le_rfl, le_max_left .., (w.traceTo_self ..).symm, by omega, .inr ?_⟩
    exact ⟨e, herr, (not_settles_iff herr).mpr h.2, hpast, rfl⟩
  | case3 k e herr h hpast ms rest ih =>
    obtain ⟨last, hle, hmax, htrace, hgoes, hends⟩ := ih
    have hlt : k < last := by omega
    have hk : w.goesOn retries deadline useRealBackoff k := ⟨h.1, (not_settles_iff herr).mpr h.2, hpast⟩
    refine ⟨last, by omega, by omega, ?_, ?_, hends⟩
    · rw [w.traceTo_of_lt useRealBackoff hlt, ← htrace]
    · intro j hj hjlast
      rcases Nat.eq_or_lt_of_le hj with rfl | hj
      · exact hk
      · exact hgoes j hj hjlast
  | case4 k e herr h =>
    refine ⟨k, le_rfl, le_max_left .., (w.traceTo_self ..).symm, by omega, .inl ⟨?_, herr.symm⟩⟩
    by_cases hk : k < retries
    · exact .inl (not_not.mp fun hs => h ⟨hk, (not_settles_iff herr).mp hs⟩)
    · exact .inr (by omega)

end RetryWorld

/-! ## The native functions -/

/-- The two functions that a script reaches a tool by; `call` takes the second when its retries are positive. -/
inductive SandboxCall where
  | plain
  | withRetry (retry : Option JsNumber)

def SandboxCall.retries : SandboxCall → Nat
  | plain => 0
  | withRetry retry => retryRequested retry

/-- What a script sees of an answer. -/
def thrown (toolName : String) : Except AdapterError Json → Except String Json
  | .ok v => .ok v
  | .error e => .error ("tool call '" ++ toolName ++ "' failed: " ++ e.display)

namespace RetryWorld

variable (w : RetryWorld)

/-- `call_tool_native` and `call_tool_with_retry_native`, from the catalog on. -/
def runCall (catalog : List ToolInfo) (toolName : String) (deadline : Nat) (useRealBackoff : Bool)
    (call : SandboxCall) : List RetryAction × Except String Json :=
  match catalog.find? (fun t => t.name = toolName) with
  | none => ([], .error (w.unknownToolError toolName catalog))
  | some tool =>
    match call with
    | .plain => ([.attempt 0], thrown toolName (w.routeToolCall 0))
    | .withRetry retry =>
      if isRetryEligible tool.annotations then
        let run := w.callToolWithRetryLoop toolName (min (retryRequested retry) maxRetries) deadline
          useRealBackoff 0
        (run.1, thrown toolName run.2)
      else
        ([], .error ("call('" ++ toolName ++
          "'): retry not allowed (tool not declared read-only or idempotent)"))

end RetryWorld

/-! ## What a call does -/

theorem not_eligible_of_destructive {tool : ToolInfo} (h : tool.isDestructive) :
    isRetryEligible tool.annotations = false := by
  obtain ⟨obj, hann, hint⟩ := h
  simp [isRetryEligible, hann, Json.asObject, hint]

namespace RetryWorld

/-- A call whose attempts are `0`, …, `last`, or one that makes none. -/
theorem runCall_cases (w : RetryWorld) (catalog : List ToolInfo) (toolName : String) (deadline : Nat)
    (useRealBackoff : Bool) (call : SandboxCall) :
    (w.runCall catalog toolName deadline useRealBackoff call).1 = [] ∨
      ∃ last result, last ≤ min call.retries maxRetries ∧
        (∀ tool, catalog.find? (fun t => t.name = toolName) = some tool → call ≠ .plain →
          isRetryEligible tool.annotations = true) ∧
        w.runCall catalog toolName deadline useRealBackoff call =
          (w.traceTo useRealBackoff 0 last, thrown toolName result) ∧
        (∀ k < last, w.goesOn (min call.retries maxRetries) deadline useRealBackoff k) ∧
        w.endsIn toolName (min call.retries maxRetries) deadline useRealBackoff last result := by
  unfold runCall
  cases hfind : catalog.find? (fun t => t.name = toolName) with
  | none => exact .inl rfl
  | some tool =>
    cases call with
    | plain =>
      refine .inr ⟨0, w.routeToolCall 0, Nat.zero_le _, fun _ _ h => absurd rfl h, ?_, by omega,
        .inl ⟨.inr (Nat.zero_le _), rfl⟩⟩
      rw [traceTo_self]
    | withRetry retry =>
      by_cases heligible : isRetryEligible tool.annotations
      · obtain ⟨last, -, hmax, htrace, hgoes, hends⟩ :=
          w.loop_spec toolName (min (retryRequested retry) maxRetries) deadline useRealBackoff 0
        rw [Nat.zero_max] at hmax
        refine .inr ⟨last, _, hmax, ?_, ?_, fun k hk => hgoes k (Nat.zero_le _) hk, hends⟩
        · intro t ht _
          cases ht
          exact heligible
        · simp only [if_pos heligible, htrace]
      · exact .inl (by simp only [if_neg heligible])

end RetryWorld

end EndaraRelay
