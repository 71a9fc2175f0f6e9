import EndaraRelay.Adapter
import EndaraRelay.Lib.Pool
import EndaraRelay.OAuth.Refresh

/-!
# The hysteresis of the heartbeat

`heartbeat_loop` in `oauth/heartbeat.rs` probes the inner adapter and writes its verdict to
`inner_health`. One failed probe does not make the adapter unhealthy, `probe_failure_threshold` failed
probes in a row do. A probe runs without a lock: by the time its verdict is there, a token application
may have replaced the adapter that was probed. Every verdict therefore carries the lifecycle generation
its probe was dispatched against.

The threads are the heartbeat loops, of which every `initialize` starts one, and the tasks that move the
lifecycle or write the health of a new inner adapter. A loop takes one step from one await to the next,
and between two points where it takes or drops the lock of the lifecycle.

**Theorem (`hysteresis`).** In every interleaving, a loop marks the adapter unhealthy only after
`threshold` verdicts in a row of its own that were all failures of probes dispatched against the
current generation. A verdict of an earlier generation changes neither the health nor the lifecycle nor
the count of the current generation. A success that becomes stale after it has been found current still
clears the count of its own generation (`late_success_clears_count`).
-/

namespace EndaraRelay.Heartbeats

open Verif

/-! ## Verdicts -/

inductive ProbeError where
  | network (reason : String)
  | upstream (reason : String)
  | auth

def isTransportDead : AdapterError → Bool
  | .connectionFailed _ | .timeout _ => true
  | .httpError status _ => status == 0
  | _ => false

/-- `classify_adapter_error`, where `text` is the text of the error. -/
def classifyAdapterError (e : AdapterError) (text : String) : ProbeError :=
  match e with
  | .httpError 401 _ => .auth
  | e => if isTransportDead e then .network text else .upstream text

/-- What a probe gets: no inner adapter, no answer in time, an error with its text, or a tool list. -/
inductive ProbeAnswer where
  | noInnerAdapter
  | timedOut (secs : Nat)
  | error (e : AdapterError) (text : String)
  | tools

/-- The result of `probe_inner`, without the sample of a successful probe. -/
def ProbeAnswer.result : ProbeAnswer → Except ProbeError Unit
  | .noInnerAdapter => .error (.network "no inner adapter")
  | .timedOut secs => .error (.network ("probe timed out after " ++ toString secs ++ "s"))
  | .error e text => .error (classifyAdapterError e text)
  | .tools => .ok ()

inductive ProbeAction where
  | markHealthy
  | belowThreshold (failures : Nat) (reason : String)
  | markUnhealthy (reason : String) (transportDead : Bool)
  | authFailed

/-- `record_probe_failure`, with the count it leaves. The count is a `u32` that saturates. -/
def recordProbeFailure (reason : String) (transportDead : Bool) (failures threshold : Nat) :
    Nat × ProbeAction :=
  let failures := min (failures + 1) 4294967295
  if threshold ≤ failures then (failures, .markUnhealthy reason transportDead)
  else (failures, .belowThreshold failures reason)

/-- `classify_probe_result`, with the count it leaves. -/
def classifyProbeResult (result : Except ProbeError Unit) (failures threshold : Nat) :
    Nat × ProbeAction :=
  match result with
  | .ok () => (0, .markHealthy)
  | .error .auth => (0, .authFailed)
  | .error (.network reason) => recordProbeFailure reason true failures threshold
  | .error (.upstream reason) => recordProbeFailure reason false failures threshold

inductive TickAction where
  | probe
  | recover
  | skip

def classifyTickAction : OAuthState → TickAction
  | .authenticated => .probe
  | .connectionFailed => .recover
  | .refreshing | .authRequired | .needsLogin | .disconnected => .skip

/-- The verdicts that count as failures, neither a success nor a 401. -/
def failed : Except ProbeError Unit → Bool
  | .error (.network _) | .error (.upstream _) => true
  | _ => false

/-! ## The loop -/

/-- The part of `OAuthAdapterInner` that the hysteresis is about. -/
structure Lifecycle where
  state : OAuthState
  lifecycleGeneration : Nat
  innerHealth : HealthStatus

/-- Whether a verdict of a probe dispatched at `generation` is current. -/
def Lifecycle.current (sh : Lifecycle) (generation : Nat) : Bool :=
  sh.state == .authenticated && sh.lifecycleGeneration == generation

def Lifecycle.transitionTo (sh : Lifecycle) (target : OAuthState) : Lifecycle :=
  { sh with state := target, lifecycleGeneration := sh.lifecycleGeneration + 1 }

/-- The points of the loop. Before `fencing` the verdict is there; at `accounting` it has been found
current; at `applying` it has been counted. `committing` is `commit_healthy_verdict` after its own
check. -/
inductive Pc where
  | waiting
  | publishing
  | recovering
  | probing (generation : Nat)
  | fencing (generation : Nat) (result : Except ProbeError Unit)
  | accounting (generation : Nat) (result : Except ProbeError Unit)
  | applying (generation : Nat) (action : ProbeAction)
  | committing (generation : Nat)

/-- Where the read guard of the lifecycle is held: a failed verdict keeps it from the fence to the
write of the health, the others drop it and check again. -/
def Pc.holdsRead : Pc → Bool
  | .accounting _ result => failed result
  | .applying _ (.belowThreshold _ _) | .applying _ (.markUnhealthy _ _) | .committing _ => true
  | _ => false

structure Verdict where
  generation : Nat
  failed : Bool

/-- A heartbeat loop and its local variables. `verdicts` is history: the verdicts of all its probes,
the last one first. -/
structure Loop where
  pc : Pc := .waiting
  consecutiveFailures : Nat := 0
  streakGeneration : Nat := 0
  verdicts : List Verdict := []

/-- A dispatch binds the streak to the generation it finds. -/
def Loop.dispatch (h : Loop) (sh : Lifecycle) : Loop :=
  { h with
    consecutiveFailures :=
      if sh.lifecycleGeneration ≠ h.streakGeneration then 0 else h.consecutiveFailures
    streakGeneration := sh.lifecycleGeneration
    pc :=
      match classifyTickAction sh.state with
      | .skip => .publishing
      | .probe => .probing sh.lifecycleGeneration
      | .recover => .recovering }

inductive Thread where
  | heartbeat (h : Loop)
  | transition (target : OAuthState)
  | setHealth (health : HealthStatus)
  | ended

inductive Op where
  | heartbeat
  | transition (target : OAuthState)
  | setHealth (health : HealthStatus)

inductive Choice where
  | go
  | answer (a : ProbeAnswer)
  | abort

def Thread.holdsRead : Thread → Bool
  | .heartbeat h => h.pc.holdsRead
  | _ => false

def Loop.step (threshold : Nat) (sh : Lifecycle) (ts : List Thread) (h : Loop) :
    Choice → Option (Lifecycle × Loop)
  | .go =>
    match h.pc with
    | .waiting => some (sh, h.dispatch sh)
    | .publishing => some (sh, { h with pc := .waiting })
    | .recovering => some (sh, { h with pc := .publishing })
    | .probing _ => none
    | .fencing generation result =>
      let h := { h with verdicts := ⟨generation, failed result⟩ :: h.verdicts }
      if sh.current generation then some (sh, { h with pc := .accounting generation result })
      else some (sh, { h with pc := .waiting })
    | .accounting generation result =>
      let counted := classifyProbeResult result h.consecutiveFailures threshold
      some (sh, { h with consecutiveFailures := counted.1, pc := .applying generation counted.2 })
    | .applying generation .markHealthy =>
      if sh.current generation then some (sh, { h with pc := .committing generation })
      else some (sh, { h with pc := .waiting })
    | .applying _ (.belowThreshold _ _) => some (sh, { h with pc := .waiting })
    | .applying _ (.markUnhealthy reason transportDead) =>
      let message := if transportDead then "upstream unreachable" else reason
      some ({ sh with innerHealth := .unhealthy message }, { h with pc := .waiting })
    | .applying generation .authFailed =>
      if ts.any Thread.holdsRead then none
      else if sh.current generation then some (sh.transitionTo .authRequired, { h with pc := .waiting })
      else some (sh, { h with pc := .waiting })
    | .committing _ => some ({ sh with innerHealth := .healthy }, { h with pc := .waiting })
  | .answer a =>
    match h.pc with
    | .probing generation => some (sh, { h with pc := .fencing generation a.result })
    | _ => none
  | .abort => none

def Thread.step (threshold : Nat) (sh : Lifecycle) (ts : List Thread) (t : Thread) (c : Choice) :
    Option (Lifecycle × Thread × List Thread) :=
  match t, c with
  | .heartbeat _, .abort => some (sh, .ended, [])
  | .heartbeat h, c => (h.step threshold sh ts c).map fun r => (r.1, .heartbeat r.2, [])
  | .transition target, .go =>
    if ts.any Thread.holdsRead then none else some (sh.transitionTo target, .ended, [])
  | .setHealth health, .go => some ({ sh with innerHealth := health }, .ended, [])
  | _, _ => none

/-- The heartbeat loops of one adapter, among everything that moves its lifecycle. -/
def heartbeats (threshold : Nat) : Pool Lifecycle Thread Op Choice where
  init _ := True
  launch _ _
    | .heartbeat => some (.heartbeat {})
    | .transition target => some (.transition target)
    | .setHealth health => some (.setHealth health)
  step := Thread.step threshold

/-! ## Counting -/

/-- The last `k` verdicts are failures of probes dispatched against `generation`. -/
def Charged (k generation : Nat) (verdicts : List Verdict) : Prop :=
  k ≤ verdicts.length ∧ ∀ v ∈ verdicts.take k, v = ⟨generation, true⟩

theorem charged_zero (generation : Nat) (verdicts : List Verdict) : Charged 0 generation verdicts :=
  ⟨Nat.zero_le _, nofun⟩

theorem Charged.cons {k generation : Nat} {verdicts : List Verdict}
    (h : Charged k generation verdicts) :
    Charged (k + 1) generation (⟨generation, true⟩ :: verdicts) := by
  refine ⟨Nat.succ_le_succ h.1, fun v hv => ?_⟩
  obtain rfl | hv := List.mem_cons.1 hv
  · rfl
  · exact h.2 v hv

theorem Charged.mono {k l generation : Nat} {verdicts : List Verdict}
    (h : Charged k generation verdicts) (hle : l ≤ k) : Charged l generation verdicts :=
  ⟨Nat.le_trans hle h.1, fun v hv => h.2 v (List.take_subset_take_left verdicts hle hv)⟩

theorem recordProbeFailure_le (reason : String) (dead : Bool) (failures threshold : Nat) :
    (recordProbeFailure reason dead failures threshold).1 ≤ failures + 1 := by
  unfold recordProbeFailure
  dsimp only
  split <;> exact Nat.min_le_left _ _

/-- A failure at the threshold marks the adapter unhealthy. -/
theorem recordProbeFailure_action (reason : String) (dead : Bool) (failures threshold : Nat) :
    (recordProbeFailure reason dead failures threshold).2 = .markUnhealthy reason dead ∧
        threshold ≤ (recordProbeFailure reason dead failures threshold).1 ∧
        0 < (recordProbeFailure reason dead failures threshold).1 ∨
      ∃ n, (recordProbeFailure reason dead failures threshold).2 = .belowThreshold n reason := by
  unfold recordProbeFailure
  dsimp only
  split
  · next hle =>
    refine Or.inl ⟨rfl, hle, ?_⟩
    show 0 < min (failures + 1) 4294967295
    omega
  · exact Or.inr ⟨_, rfl⟩

/-! ## The invariant of a loop -/

variable {generation : Nat}

theorem current_iff {sh : Lifecycle} :
    sh.current generation = true ↔ sh.state = .authenticated ∧ sh.lifecycleGeneration = generation := by
  simp [Lifecycle.current]

/-- The verdicts that have been counted, or dropped. -/
def Loop.counted (h : Loop) : List Verdict :=
  match h.pc with
  | .accounting _ _ => h.verdicts.tail
  | _ => h.verdicts

/-- What is known of an action that is about to be applied. -/
def ActionInv (threshold : Nat) (sh : Lifecycle) (generation failures : Nat) : ProbeAction → Prop
  | .belowThreshold _ _ => sh.current generation = true
  | .markUnhealthy _ _ => sh.current generation = true ∧ threshold ≤ failures ∧ 0 < failures
  | _ => True

/-- What is known at a point of the loop. The state at a dispatch was `Authenticated`, and it does not
move without the generation. -/
def PcInv (threshold : Nat) (sh : Lifecycle) (h : Loop) : Prop :=
  match h.pc with
  | .probing generation | .fencing generation _ =>
    h.streakGeneration = generation ∧ (sh.lifecycleGeneration = generation → sh.state = .authenticated)
  | .accounting generation result =>
    h.streakGeneration = generation ∧ h.verdicts = ⟨generation, failed result⟩ :: h.verdicts.tail ∧
      (failed result = true → sh.current generation = true)
  | .applying generation action =>
    h.streakGeneration = generation ∧
      ActionInv threshold sh generation h.consecutiveFailures action
  | .committing generation => h.streakGeneration = generation ∧ sh.current generation = true
  | _ => True

/-- **The invariant.** As long as the generation of the streak is the current one, the count is that of
the last verdicts, all failures of this generation. -/
structure LoopInv (threshold : Nat) (sh : Lifecycle) (h : Loop) : Prop where
  streak : h.streakGeneration ≤ sh.lifecycleGeneration
  count : sh.lifecycleGeneration = h.streakGeneration →
    Charged h.consecutiveFailures h.streakGeneration h.counted
  pc : PcInv threshold sh h

/-- What the steps of others do to the lifecycle. -/
structure Moves (sh sh' : Lifecycle) : Prop where
  le : sh.lifecycleGeneration ≤ sh'.lifecycleGeneration
  state : sh'.lifecycleGeneration = sh.lifecycleGeneration → sh'.state = sh.state

variable {threshold : Nat} {sh sh' : Lifecycle} {ts new : List Thread} {t t' : Thread} {c : Choice}
  {h h' : Loop} {s s' : Pool.State Lifecycle Thread}

theorem Moves.refl (sh : Lifecycle) : Moves sh sh := ⟨Nat.le_refl _, fun _ => rfl⟩

theorem moves_transitionTo (sh : Lifecycle) (target : OAuthState) : Moves sh (sh.transitionTo target) :=
  ⟨Nat.le_succ _, fun heq => absurd heq (Nat.succ_ne_self _)⟩

theorem moves_setHealth (sh : Lifecycle) (health : HealthStatus) :
    Moves sh { sh with innerHealth := health } :=
  ⟨Nat.le_refl _, fun _ => rfl⟩

theorem Moves.current (hm : Moves sh sh') (heq : sh'.lifecycleGeneration = sh.lifecycleGeneration)
    (hc : sh.current generation = true) : sh'.current generation = true := by
  obtain ⟨hstate, hgen⟩ := current_iff.1 hc
  exact current_iff.2 ⟨(hm.state heq).trans hstate, heq.trans hgen⟩

section

variable (hi : LoopInv threshold sh h)
include hi

/-- The invariant survives the steps of others, which leave the generation alone while the loop holds
the read guard. -/
theorem LoopInv.stable (hm : Moves sh sh')
    (hread : h.pc.holdsRead = true → sh'.lifecycleGeneration = sh.lifecycleGeneration) :
    LoopInv threshold sh' h := by
  have hback (heq : sh'.lifecycleGeneration = h.streakGeneration) :
      sh'.lifecycleGeneration = sh.lifecycleGeneration :=
    Nat.le_antisymm (heq ▸ hi.streak) hm.le
  refine ⟨Nat.le_trans hi.streak hm.le, fun heq => hi.count ((hback heq).symm.trans heq), ?_⟩
  have hpc := hi.pc
  unfold PcInv at hpc ⊢
  split at hpc
  · obtain ⟨hstreak, hstate⟩ := hpc
    refine ⟨hstreak, fun heq => ?_⟩
    have hsame := hback (heq.trans hstreak.symm)
    exact (hm.state hsame).trans (hstate (hsame.symm.trans heq))
  · obtain ⟨hstreak, hstate⟩ := hpc
    refine ⟨hstreak, fun heq => ?_⟩
    have hsame := hback (heq.trans hstreak.symm)
    exact (hm.state hsame).trans (hstate (hsame.symm.trans heq))
  · next hp =>
    obtain ⟨hstreak, hverdicts, hcurrent⟩ := hpc
    rw [hp] at hread
    exact ⟨hstreak, hverdicts, fun hfailed => hm.current (hread hfailed) (hcurrent hfailed)⟩
  · next action hp =>
    obtain ⟨hstreak, haction⟩ := hpc
    rw [hp] at hread
    refine ⟨hstreak, ?_⟩
    cases action with
    | belowThreshold n reason => exact hm.current (hread rfl) haction
    | markUnhealthy reason dead => exact ⟨hm.current (hread rfl) haction.1, haction.2⟩
    | markHealthy => trivial
    | authFailed => trivial
  · next hp =>
    rw [hp] at hread
    exact ⟨hpc.1, hm.current (hread rfl) hpc.2⟩
  · trivial

/-! ## Steps of a loop -/

/-- A dispatch starts the streak over unless it finds the generation it had. -/
theorem LoopInv.dispatch (hp : h.pc = .waiting) : LoopInv threshold sh (h.dispatch sh) := by
  have hcounted : (h.dispatch sh).counted = h.counted := by
    unfold Loop.counted Loop.dispatch
    rw [hp]
    cases sh.state <;> rfl
  refine ⟨Nat.le_refl _, fun _ => ?_, ?_⟩
  · rw [hcounted]
    show Charged (if sh.lifecycleGeneration ≠ h.streakGeneration then 0 else h.consecutiveFailures)
      sh.lifecycleGeneration h.counted
    split
    · exact charged_zero _ _
    · next heq =>
      have hgen := not_not.1 heq
      rw [hgen]
      exact hi.count hgen
  · unfold PcInv Loop.dispatch
    cases hstate : sh.state with
    | authenticated => exact ⟨rfl, fun _ => rfl⟩
    | needsLogin => trivial
    | refreshing => trivial
    | authRequired => trivial
    | connectionFailed => trivial
    | disconnected => trivial

theorem LoopInv.wait (hcounted : h.counted = h.verdicts) (hm : Moves sh sh') :
    LoopInv threshold sh' { h with pc := .waiting } := by
  have hw : LoopInv threshold sh { h with pc := .waiting } := by
    refine ⟨hi.streak, fun heq => ?_, trivial⟩
    show Charged h.consecutiveFailures h.streakGeneration h.verdicts
    rw [← hcounted]
    exact hi.count heq
  exact hw.stable hm nofun

/-- The fence notes the verdict. One that is dropped leaves a streak of a generation that is over. -/
theorem LoopInv.fence {result : Except ProbeError Unit} (hp : h.pc = .fencing generation result) :
    LoopInv threshold sh
      { h with
        verdicts := ⟨generation, failed result⟩ :: h.verdicts
        pc := if sh.current generation then .accounting generation result else .waiting } := by
  have hpc := hi.pc
  have hcount := hi.count
  unfold PcInv at hpc
  unfold Loop.counted at hcount
  rw [hp] at hpc hcount
  obtain ⟨hstreak, hstate⟩ := hpc
  by_cases hc : sh.current generation = true
  · rw [if_pos hc]
    exact ⟨hi.streak, hcount, hstreak, rfl, fun _ => hc⟩
  · rw [if_neg hc]
    refine ⟨hi.streak, fun heq => ?_, trivial⟩
    have hgen : sh.lifecycleGeneration = generation := heq.trans hstreak
    exact absurd (current_iff.2 ⟨hstate hgen, hgen⟩) hc

/-- The accounting counts a failure with the streak it belongs to. -/
theorem LoopInv.account {result : Except ProbeError Unit} (hp : h.pc = .accounting generation result) :
    LoopInv threshold sh
      { h with
        consecutiveFailures := (classifyProbeResult result h.consecutiveFailures threshold).1
        pc := .applying generation
          (classifyProbeResult result h.consecutiveFailures threshold).2 } := by
  have hpc := hi.pc
  have hcount := hi.count
  unfold PcInv at hpc
  unfold Loop.counted at hcount
  rw [hp] at hpc hcount
  obtain ⟨hstreak, hverdicts, hcurrent⟩ := hpc
  -- A failure, of either kind: the guard is held, so the generation is still that of the probe.
  have hfailure (reason : String) (dead : Bool) (hfailed : failed result = true) :
      LoopInv threshold sh
        { h with
          consecutiveFailures := (recordProbeFailure reason dead h.consecutiveFailures threshold).1
          pc := .applying generation
            (recordProbeFailure reason dead h.consecutiveFailures threshold).2 } := by
    have hc := hcurrent hfailed
    refine ⟨hi.streak, fun heq => ?_, hstreak, ?_⟩
    · refine Charged.mono ?_ (recordProbeFailure_le reason dead h.consecutiveFailures threshold)
      show Charged (h.consecutiveFailures + 1) h.streakGeneration h.verdicts
      rw [hverdicts, hfailed, ← hstreak]
      exact (hcount heq).cons
    · obtain ⟨haction, hle, hpos⟩ | ⟨n, haction⟩ :=
        recordProbeFailure_action reason dead h.consecutiveFailures threshold
      · rw [haction]
        exact ⟨hc, hle, hpos⟩
      · rw [haction]
        exact hc
  cases result with
  | ok u => exact ⟨hi.streak, fun _ => charged_zero _ _, hstreak, trivial⟩
  | error e =>
    cases e with
    | auth => exact ⟨hi.streak, fun _ => charged_zero _ _, hstreak, trivial⟩
    | network reason => exact hfailure reason true rfl
    | upstream reason => exact hfailure reason false rfl

end

theorem LoopInv.step (hi : LoopInv threshold sh h)
    (hst : h.step threshold sh ts c = some (sh', h')) : LoopInv threshold sh' h' := by
  cases c with
  | go =>
    cases hp : h.pc with
    | waiting =>
      simp only [Loop.step, hp] at hst
      cases hst
      exact hi.dispatch hp
    | publishing =>
      simp only [Loop.step, hp] at hst
      cases hst
      exact hi.wait (by simp [Loop.counted, hp]) (Moves.refl sh)
    | recovering =>
      simp only [Loop.step, hp] at hst
      cases hst
      refine ⟨hi.streak, fun heq => ?_, trivial⟩
      have hcount := hi.count heq
      unfold Loop.counted at hcount
      rw [hp] at hcount
      exact hcount
    | probing generation =>
      simp only [Loop.step, hp] at hst
      cases hst
    | fencing generation result =>
      have hfence := hi.fence hp
      simp only [Loop.step, hp] at hst
      split at hst
      · next hc =>
        rw [if_pos hc] at hfence
        cases hst
        exact hfence
      · next hc =>
        rw [if_neg hc] at hfence
        cases hst
        exact hfence
    | accounting generation result =>
      have haccount := hi.account hp
      simp only [Loop.step, hp] at hst
      cases hst
      exact haccount
    | applying generation action =>
      have hcounted : h.counted = h.verdicts := by simp [Loop.counted, hp]
      cases action with
      | markHealthy =>
        simp only [Loop.step, hp] at hst
        split at hst
        · next hc =>
          cases hst
          refine ⟨hi.streak, fun heq => ?_, ?_, hc⟩
          · show Charged h.consecutiveFailures h.streakGeneration h.verdicts
            rw [← hcounted]
            exact hi.count heq
          · have hpc := hi.pc
            unfold PcInv at hpc
            rw [hp] at hpc
            exact hpc.1
        · cases hst
          exact hi.wait hcounted (Moves.refl sh)
      | belowThreshold n reason =>
        simp only [Loop.step, hp] at hst
        cases hst
        exact hi.wait hcounted (Moves.refl sh)
      | markUnhealthy reason dead =>
        simp only [Loop.step, hp] at hst
        cases hst
        exact hi.wait hcounted (moves_setHealth sh _)
      | authFailed =>
        simp only [Loop.step, hp] at hst
        split at hst
        · cases hst
        · split at hst
          · cases hst
            exact hi.wait hcounted (moves_transitionTo sh _)
          · cases hst
            exact hi.wait hcounted (Moves.refl sh)
    | committing generation =>
      simp only [Loop.step, hp] at hst
      cases hst
      exact hi.wait (by simp [Loop.counted, hp]) (moves_setHealth sh _)
  | answer a =>
    cases hp : h.pc with
    | probing generation =>
      simp only [Loop.step, hp] at hst
      cases hst
      have hpc := hi.pc
      have hcount := hi.count
      unfold PcInv at hpc
      unfold Loop.counted at hcount
      rw [hp] at hpc hcount
      exact ⟨hi.streak, hcount, hpc⟩
    | waiting => simp [Loop.step, hp] at hst
    | publishing => simp [Loop.step, hp] at hst
    | recovering => simp [Loop.step, hp] at hst
    | fencing generation result => simp [Loop.step, hp] at hst
    | accounting generation result => simp [Loop.step, hp] at hst
    | applying generation action => simp [Loop.step, hp] at hst
    | committing generation => simp [Loop.step, hp] at hst
  | abort => cases hst

/-! ## Every run -/

theorem Thread.step_new (hst : t.step threshold sh ts c = some (sh', t', new)) : new = [] := by
  unfold Thread.step at hst
  split at hst
  · cases hst
    rfl
  · obtain ⟨r, -, heq⟩ := Option.map_eq_some_iff.1 hst
    cases heq
    rfl
  · split at hst
    · cases hst
    · cases hst
      rfl
  · cases hst
    rfl
  · cases hst

/-- A loop moves the lifecycle only by a 401, while nobody holds the read guard. -/
theorem Loop.step_moves (hst : h.step threshold sh ts c = some (sh', h')) :
    Moves sh sh' ∧
      (sh'.lifecycleGeneration = sh.lifecycleGeneration ∨ ∀ u ∈ ts, u.holdsRead = false) := by
  unfold Loop.step at hst
  split at hst
  · split at hst
    · cases hst
      exact ⟨Moves.refl sh, Or.inl rfl⟩
    · cases hst
      exact ⟨Moves.refl sh, Or.inl rfl⟩
    · cases hst
      exact ⟨Moves.refl sh, Or.inl rfl⟩
    · cases hst
    · dsimp only at hst
      split at hst <;>
      · cases hst
        exact ⟨Moves.refl sh, Or.inl rfl⟩
    · cases hst
      exact ⟨Moves.refl sh, Or.inl rfl⟩
    · split at hst <;>
      · cases hst
        exact ⟨Moves.refl sh, Or.inl rfl⟩
    · cases hst
      exact ⟨Moves.refl sh, Or.inl rfl⟩
    · cases hst
      exact ⟨moves_setHealth sh _, Or.inl rfl⟩
    · split at hst
      · cases hst
      · next hfree =>
        split at hst
        · cases hst
          exact ⟨moves_transitionTo sh _, Or.inr (by simpa using hfree)⟩
        · cases hst
          exact ⟨Moves.refl sh, Or.inl rfl⟩
    · cases hst
      exact ⟨moves_setHealth sh _, Or.inl rfl⟩
  · split at hst
    · cases hst
      exact ⟨Moves.refl sh, Or.inl rfl⟩
    · cases hst
  · cases hst

theorem Thread.step_moves (hst : t.step threshold sh ts c = some (sh', t', new)) :
    Moves sh sh' ∧
      (sh'.lifecycleGeneration = sh.lifecycleGeneration ∨ ∀ u ∈ ts, u.holdsRead = false) := by
  unfold Thread.step at hst
  split at hst
  · cases hst
    exact ⟨Moves.refl sh, Or.inl rfl⟩
  · obtain ⟨r, hr, heq⟩ := Option.map_eq_some_iff.1 hst
    cases heq
    exact Loop.step_moves hr
  · split at hst
    · cases hst
    · next hfree =>
      cases hst
      exact ⟨moves_transitionTo sh _, Or.inr (by simpa using hfree)⟩
  · cases hst
    exact ⟨moves_setHealth sh _, Or.inl rfl⟩
  · cases hst

/-- The invariant of a thread, which is about heartbeat loops only. -/
def ThreadInv (threshold : Nat) (sh : Lifecycle) : Thread → Prop
  | .heartbeat h => LoopInv threshold sh h
  | _ => True

theorem threadInv_step (ht : ThreadInv threshold sh t)
    (hst : t.step threshold sh ts c = some (sh', t', new)) : ThreadInv threshold sh' t' := by
  unfold Thread.step at hst
  split at hst
  · cases hst
    trivial
  · obtain ⟨r, hr, heq⟩ := Option.map_eq_some_iff.1 hst
    cases heq
    exact LoopInv.step ht hr
  · split at hst
    · cases hst
    · cases hst
      trivial
  · cases hst
    trivial
  · cases hst

theorem threadInv (h : (heartbeats threshold).system.Reachable s) :
    ∀ t ∈ s.threads, ThreadInv threshold s.shared t := by
  refine Pool.forall_threads_of (I := fun _ => True) (L := fun sh t => ThreadInv threshold sh t)
    (fun _ _ => trivial) ?_ ?_ ?_ h
  · intro s a t _ ht
    cases a with
    | heartbeat =>
      cases ht
      exact ⟨Nat.zero_le _, fun _ => charged_zero _ _, trivial⟩
    | transition target =>
      cases ht
      trivial
    | setHealth health =>
      cases ht
      trivial
  · intro s i c t sh' t' new _ _ _ ht hst
    refine ⟨threadInv_step ht hst, fun u hu => ?_⟩
    rw [Thread.step_new hst] at hu
    cases hu
  · intro s i c t sh' t' new j u _ _ _ hj _ _ hu hst
    obtain ⟨hm, hgen⟩ := Thread.step_moves hst
    cases u with
    | heartbeat h =>
      refine LoopInv.stable hu hm fun hread => ?_
      obtain hsame | hfree := hgen
      · exact hsame
      · have hidle := hfree _ (List.mem_of_getElem? hj)
        rw [show (Thread.heartbeat h).holdsRead = h.pc.holdsRead from rfl, hread] at hidle
        cases hidle
    | transition target => trivial
    | setHealth health => trivial
    | ended => trivial

/-! ## What a loop does to the health -/

/-- The generation of the probe whose verdict is being handled. -/
def Loop.verdictOf (h : Loop) : Option Nat :=
  match h.pc with
  | .fencing generation _ | .accounting generation _ | .applying generation _
  | .committing generation => some generation
  | _ => none

/-- The failures in a row that count against a generation. -/
def Loop.failuresAt (h : Loop) (generation : Nat) : Nat :=
  if h.streakGeneration = generation then h.consecutiveFailures else 0

/-- A step of a loop, from one lifecycle to the next. -/
structure Hysteresis (threshold : Nat) (sh sh' : Lifecycle) (h h' : Loop) : Prop where
  /-- The adapter is marked unhealthy after `threshold` failures in a row, all dispatched against the
  current generation. -/
  unhealthy : ∀ generation reason dead, h.pc = .applying generation (.markUnhealthy reason dead) →
    sh.lifecycleGeneration = generation ∧
      ∃ k, threshold ≤ k ∧ 0 < k ∧ Charged k generation h.verdicts
  /-- Nothing else that a loop does makes the adapter unhealthy. -/
  health : sh'.innerHealth = sh.innerHealth ∨ sh'.innerHealth = .healthy ∨
    ∃ generation reason dead, h.pc = .applying generation (.markUnhealthy reason dead)
  /-- A verdict of an earlier generation changes neither the health nor the lifecycle, nor the count of
  the current generation. -/
  stale : ∀ generation, h.verdictOf = some generation → sh.lifecycleGeneration ≠ generation →
    sh' = sh ∧ h'.failuresAt sh.lifecycleGeneration = h.failuresAt sh.lifecycleGeneration
  /-- A verdict that is stale when it is looked at is not counted at all. -/
  dropped : ∀ generation result, h.pc = .fencing generation result →
    sh.current generation = false → sh' = sh ∧ h'.consecutiveFailures = h.consecutiveFailures

theorem Loop.step_health (hst : h.step threshold sh ts c = some (sh', h')) :
    sh'.innerHealth = sh.innerHealth ∨ sh'.innerHealth = .healthy ∨
      ∃ generation reason dead, h.pc = .applying generation (.markUnhealthy reason dead) := by
  unfold Loop.step at hst
  split at hst
  · split at hst
    · cases hst
      exact Or.inl rfl
    · cases hst
      exact Or.inl rfl
    · cases hst
      exact Or.inl rfl
    · cases hst
    · dsimp only at hst
      split at hst <;>
      · cases hst
        exact Or.inl rfl
    · cases hst
      exact Or.inl rfl
    · split at hst <;>
      · cases hst
        exact Or.inl rfl
    · cases hst
      exact Or.inl rfl
    · next generation reason dead hp => exact Or.inr (Or.inr ⟨generation, reason, dead, hp⟩)
    · split at hst
      · cases hst
      · split at hst <;>
        · cases hst
          exact Or.inl rfl
    · cases hst
      exact Or.inr (Or.inl rfl)
  · split at hst
    · cases hst
      exact Or.inl rfl
    · cases hst
  · cases hst

/-- What a loop does with the verdict of a generation that is over. -/
theorem LoopInv.stale (hi : LoopInv threshold sh h) (hst : h.step threshold sh ts c = some (sh', h'))
    (hverdict : h.verdictOf = some generation) (hne : sh.lifecycleGeneration ≠ generation) :
    sh' = sh ∧ h'.failuresAt sh.lifecycleGeneration = h.failuresAt sh.lifecycleGeneration := by
  have hnot : sh.current generation = false :=
    Bool.eq_false_iff.2 fun hc => hne (current_iff.1 hc).2
  have hpc := hi.pc
  unfold PcInv at hpc
  unfold Loop.verdictOf at hverdict
  cases c with
  | go =>
    split at hverdict
    · next result hp =>
      cases hverdict
      simp only [Loop.step, hp, hnot] at hst
      cases hst
      exact ⟨rfl, rfl⟩
    · next result hp =>
      cases hverdict
      simp only [Loop.step, hp] at hst
      rw [hp] at hpc
      cases hst
      -- The count that a late success or 401 clears is that of another generation.
      have hother : h.streakGeneration ≠ sh.lifecycleGeneration := fun heq =>
        hne (heq.symm.trans hpc.1)
      exact ⟨rfl, (if_neg hother).trans (if_neg hother).symm⟩
    · next action hp =>
      cases hverdict
      rw [hp] at hpc
      obtain ⟨-, haction⟩ := hpc
      cases action with
      | markHealthy =>
        simp only [Loop.step, hp, hnot] at hst
        cases hst
        exact ⟨rfl, rfl⟩
      | belowThreshold n reason => cases hnot.symm.trans haction
      | markUnhealthy reason dead => cases hnot.symm.trans haction.1
      | authFailed =>
        simp only [Loop.step, hp, hnot] at hst
        split at hst
        · cases hst
        · cases hst
          exact ⟨rfl, rfl⟩
    · next hp =>
      cases hverdict
      rw [hp] at hpc
      cases hnot.symm.trans hpc.2
    · cases hverdict
  | answer a =>
    split at hverdict
    · next hp => simp [Loop.step, hp] at hst
    · next hp => simp [Loop.step, hp] at hst
    · next hp => simp [Loop.step, hp] at hst
    · next hp => simp [Loop.step, hp] at hst
    · cases hverdict
  | abort => cases hst

theorem LoopInv.marked_at_threshold (hi : LoopInv threshold sh h)
    (hst : h.step threshold sh ts c = some (sh', h')) : Hysteresis threshold sh sh' h h' := by
  refine ⟨fun generation reason dead hp => ?_, Loop.step_health hst,
    fun generation hverdict hne => hi.stale hst hverdict hne, fun generation result hp hnot => ?_⟩
  · have hpc := hi.pc
    have hcount := hi.count
    unfold PcInv at hpc
    unfold Loop.counted at hcount
    rw [hp] at hpc hcount
    obtain ⟨hstreak, hc, hle, hpos⟩ := hpc
    have hgen := (current_iff.1 hc).2
    have hcharged := hcount (hgen.trans hstreak.symm)
    rw [hstreak] at hcharged
    exact ⟨hgen, h.consecutiveFailures, hle, hpos, hcharged⟩
  · cases c with
    | go =>
      simp only [Loop.step, hp, hnot] at hst
      cases hst
      exact ⟨rfl, rfl⟩
    | answer a => simp [Loop.step, hp] at hst
    | abort => cases hst

/-- **Hysteresis**, for every step of a heartbeat loop in every interleaving. -/
theorem hysteresis {i : Nat} (hr : (heartbeats threshold).system.Reachable s)
    (hi : s.threads[i]? = some (.heartbeat h))
    (hst : (heartbeats threshold).system.step s (.run i c) = some s')
    (hi' : s'.threads[i]? = some (.heartbeat h')) : Hysteresis threshold s.shared s'.shared h h' := by
  obtain ⟨u, sh', t', new, hu, hstep, rfl⟩ := Pool.next_run hst
  obtain rfl : .heartbeat h = u := Option.some.inj (hi.symm.trans hu)
  obtain rfl : t' = .heartbeat h' := Option.some.inj ((Pool.getElem?_stepped_self hi).symm.trans hi')
  have hinv : LoopInv threshold s.shared h := threadInv hr _ (List.mem_of_getElem? hi)
  change Thread.step threshold s.shared s.threads (.heartbeat h) c = _ at hstep
  unfold Thread.step at hstep
  split at hstep
  · cases hstep
  · next heq _ =>
    cases heq
    obtain ⟨r, hr, heq⟩ := Option.map_eq_some_iff.1 hstep
    cases heq
    exact hinv.marked_at_threshold hr
  · next heq => cases heq
  · next heq => cases heq
  · cases hstep

/-- One failed probe, up to where its verdict has been counted. -/
def failedProbe : List (Pool.Action Op Choice) := [
  .run 0 .go, .run 0 (.answer (.error (.httpError 503 "") "HTTP error 503: ")), .run 0 .go, .run 0 .go]

/-- A loop that has counted two failures at a threshold of two. -/
def secondFailure : Loop where
  pc := .applying 5 (.markUnhealthy "HTTP error 503: " false)
  consecutiveFailures := 2
  streakGeneration := 5
  verdicts := [⟨5, true⟩, ⟨5, true⟩]

theorem secondFailure_hysteresis :
    Hysteresis 2 ⟨.authenticated, 5, .healthy⟩ ⟨.authenticated, 5, .unhealthy "HTTP error 503: "⟩
      secondFailure { secondFailure with pc := .waiting } := by
  have hrun : (heartbeats 2).system.run ⟨⟨.authenticated, 5, .healthy⟩, []⟩
      (.launch .heartbeat :: failedProbe ++ .run 0 .go :: failedProbe) =
      some ⟨⟨.authenticated, 5, .healthy⟩, [.heartbeat secondFailure]⟩ := rfl
  have hstep : (heartbeats 2).system.step
      ⟨⟨.authenticated, 5, .healthy⟩, [.heartbeat secondFailure]⟩ (.run 0 .go) =
      some ⟨⟨.authenticated, 5, .unhealthy "HTTP error 503: "⟩,
        [.heartbeat { secondFailure with pc := .waiting }]⟩ := rfl
  exact hysteresis (System.Reachable.run (System.Reachable.init ⟨trivial, rfl⟩) hrun) rfl hstep rfl

/-- A loop with one failure whose next probe has succeeded, and has been found current. -/
def lateSuccess : Loop where
  pc := .accounting 5 (.ok ())
  consecutiveFailures := 1
  streakGeneration := 5
  verdicts := [⟨5, false⟩, ⟨5, true⟩]

/-- The lifecycle moves on between the fence and the accounting: a verdict of an earlier generation
changes the failure counter. -/
theorem late_success_clears_count :
    (heartbeats 3).system.Reachable
        ⟨⟨.refreshing, 6, .healthy⟩, [.heartbeat lateSuccess, .ended]⟩ ∧
      lateSuccess.verdictOf = some 5 ∧
      ∃ h' : Loop, (heartbeats 3).system.step
          ⟨⟨.refreshing, 6, .healthy⟩, [.heartbeat lateSuccess, .ended]⟩ (.run 0 .go) =
          some ⟨⟨.refreshing, 6, .healthy⟩, [.heartbeat h', .ended]⟩ ∧
        h'.consecutiveFailures ≠ lateSuccess.consecutiveFailures := by
  have hrun : (heartbeats 3).system.run ⟨⟨.authenticated, 5, .healthy⟩, []⟩
      (.launch .heartbeat :: failedProbe ++ [.run 0 .go, .run 0 .go, .run 0 (.answer .tools), .run 0 .go,
        .launch (.transition .refreshing), .run 1 .go]) =
      some ⟨⟨.refreshing, 6, .healthy⟩, [.heartbeat lateSuccess, .ended]⟩ := rfl
  refine ⟨System.Reachable.run (System.Reachable.init ⟨trivial, rfl⟩) hrun, rfl, _, rfl, ?_⟩
  exact Nat.zero_ne_one

end EndaraRelay.Heartbeats
