import EndaraRelay.Http.Exclusion

/-!
# An unhealthy adapter is being retried

An adapter *needs a retry* when it is `Unhealthy`, not shutting down and not latched. What keeps it from
being left alone is that each thread hands the matter on: a request that demotes the adapter and an
`initialize` that fails go on to arm the supervisor, and the supervisor leaves its attempt loop only when
the adapter needs no retry any more. `Covers` says this of one step, `Covered` of the states of a run.
-/

namespace EndaraRelay.Http

open Verif

/-- The outcome of the most recent handshake that was committed since the last demotion from a live
state: whether it was a permanent failure. -/
def latestOutcome : List HttpEvent → Option Bool
  | [] => none
  | .failed permanent :: _ => some permanent
  | .succeeded :: _ => some false
  | .demoted _ :: _ => none
  | _ :: log => latestOutcome log

/-! ## The latch -/

/-- The latch is set exactly when that outcome was a permanent failure. -/
def HttpAdapter.Latched (sh : HttpAdapter) : Prop :=
  sh.permanentHandshakeFailure = (latestOutcome sh.log == some true)

theorem HttpAdapter.Latched.installListener {sh : HttpAdapter} (h : sh.Latched)
    (sessionId : Option String) : (sh.installListener sessionId).Latched := by
  unfold HttpAdapter.installListener
  split
  · exact h
  · exact h

theorem HttpAdapter.latched_markHealthyLocked (sh : HttpAdapter) : sh.markHealthyLocked.Latched := by
  unfold HttpAdapter.Latched HttpAdapter.markHealthyLocked
  dsimp only
  split <;> rfl

variable {sh : HttpAdapter} {act : Act} {lockFree supervisorAttempt : Bool} {c : HttpChoice}
  {t : HttpThread} {s : HttpState}

/-- Every act commits the latch along with the outcome. -/
theorem HttpAdapter.Latched.perform (h : sh.Latched) (act : Act) : (sh.perform act).Latched := by
  cases act with
  | noteRequestSuccess =>
    show (sh.noteRequestSuccess).Latched
    unfold HttpAdapter.noteRequestSuccess
    split
    · exact h
    · exact h
  | noteTransportFailure =>
    show (sh.noteTransportFailure).Latched
    unfold HttpAdapter.noteTransportFailure
    split
    · rfl
    · split
      · exact h
      · exact h
  | setHandshakeUnhealthy reason permanent supervisorAttempt =>
    show (sh.setHandshakeUnhealthy reason permanent supervisorAttempt).Latched
    unfold HttpAdapter.setHandshakeUnhealthy
    split
    · exact h
    · cases permanent <;> rfl
  | commit2026Handshake identity => exact HttpAdapter.latched_markHealthyLocked _
  | markHandshakeHealthy => exact HttpAdapter.latched_markHealthyLocked _
  | installListener sessionId => exact h.installListener sessionId
  | drainListener =>
    show (sh.drainListener).Latched
    unfold HttpAdapter.drainListener
    split
    · exact h
    · exact h
  | listenerEnded id =>
    show (sh.listenerEnded id).Latched
    unfold HttpAdapter.listenerEnded
    split
    · exact h
    · exact h
  | _ => exact h

/-! ## Coverage -/

/-- The adapter is down, not shut down, and no permanent failure stands against a retry. -/
def HttpAdapter.needsRetry (sh : HttpAdapter) : Bool :=
  isUnhealthy sh.health && !sh.shuttingDown && !sh.permanentHandshakeFailure

/-- The handshake may still fail in a way that is retried. -/
def HandshakePc.undecided : HandshakePc → Bool
  | .done (.error err) => !isPermanentInitFailure err
  | .done (.ok _) | .finish _ | .tick _ => false
  | _ => true

/-- Inside the attempt loop, and not yet about to leave it. -/
def SupervisorPc.attempts : SupervisorPc → Bool
  | .parked | .left _ | .replacing _ | .ended => false
  | .handshake pc => pc.undecided
  | .unlock result => result = .retry
  | _ => true

/-- Before it arms the supervisor, unless the handshake turns out well. -/
def InitializePc.arms : InitializePc → Bool
  | .clearing | .lockWait | .starting | .probe | .retry | .ensuring => true
  | .handshake pc => pc.undecided
  | .unlock (.error err) | .clearFlag err => !isPermanentInitFailure err
  | _ => false

namespace HttpThread

/-- It retries, or will see to it that the supervisor does. -/
def urges : HttpThread → Bool
  | .supervisor pc => pc.attempts
  | .request .ensuring => true
  | .initializing pc => pc.arms
  | _ => false

/-- The supervisor is running; the permit comes next. -/
def permits : HttpThread → Bool
  | .request .permitting | .initializing .permitting => true
  | _ => false

end HttpThread

/-- What makes the adapter need a retry. -/
theorem needsRetry_of_perform (h : (sh.perform act).needsRetry = true) :
    sh.needsRetry = true ∨ act = .noteTransportFailure ∧ sh.demotes = true ∨
      (∃ reason supervisorAttempt, act = .setHandshakeUnhealthy reason false supervisorAttempt) ∨
      act = .setShuttingDown false ∧ sh.shuttingDown = true ∧ isUnhealthy sh.health = true := by
  cases act with
  | noteTransportFailure =>
    by_cases hd : sh.demotes = true
    · exact .inr (.inl ⟨rfl, hd⟩)
    · left
      simp only [HttpAdapter.perform, HttpAdapter.noteTransportFailure, if_neg hd] at h
      split at h
      · next hu => simp_all [HttpAdapter.needsRetry]
      · exact h
  | setHandshakeUnhealthy reason permanent supervisorAttempt =>
    simp only [HttpAdapter.perform, HttpAdapter.setHandshakeUnhealthy] at h
    split at h
    · exact .inl h
    · cases permanent
      · exact .inr (.inr (.inl ⟨reason, supervisorAttempt, rfl⟩))
      · simp [HttpAdapter.needsRetry] at h
  | noteRequestSuccess =>
    simp only [HttpAdapter.perform, HttpAdapter.noteRequestSuccess] at h
    split at h
    · simp [HttpAdapter.needsRetry, isUnhealthy] at h
    · exact .inl h
  | setShuttingDown value =>
    cases value with
    | true => simp [HttpAdapter.perform, HttpAdapter.needsRetry] at h
    | false =>
      cases hsd : sh.shuttingDown with
      | true =>
        refine .inr (.inr (.inr ⟨rfl, rfl, ?_⟩))
        simp [HttpAdapter.perform, HttpAdapter.needsRetry] at h
        exact h.1
      | false =>
        left
        simpa [HttpAdapter.perform, HttpAdapter.needsRetry, hsd] using h
  | installListener sessionId =>
    simp only [HttpAdapter.perform, HttpAdapter.installListener] at h
    split at h <;> exact .inl h
  | drainListener | listenerEnded =>
    rw [perform_onTask (·.needsRetry = sh.needsRetry) rfl fun _ _ => rfl] at h
    exact .inl h
  | commit2026Handshake identity => cases h
  | markHandshakeHealthy => cases h
  | beginInitialize => cases h
  | setStopped => cases h
  | _ => exact .inl h

theorem needsRetry_iff : sh.needsRetry = true ↔
    isUnhealthy sh.health = true ∧ sh.shuttingDown = false ∧ sh.permanentHandshakeFailure = false := by
  unfold HttpAdapter.needsRetry
  rw [Bool.and_eq_true, Bool.and_eq_true, Bool.not_eq_true', Bool.not_eq_true', and_assoc]

/-- A retry that was needed before is not one that a step has caused. -/
theorem needsRetry_before {p : Prop} (hn : sh.needsRetry = true) (hf : sh.needsRetry = false) : p :=
  absurd (hf.symm.trans hn) Bool.false_ne_true

/-- Only a supervisor's attempt is ever obsolete, and then the adapter is not down. -/
theorem HttpAdapter.needsRetry_of_obsolete (h : sh.obsolete supervisorAttempt = true) :
    sh.needsRetry = false := by
  unfold HttpAdapter.obsolete at h
  unfold HttpAdapter.needsRetry
  cases hu : isUnhealthy sh.health with
  | true => simp [hu] at h
  | false => rfl

theorem InitializeAnswer.next_undecided (a : InitializeAnswer) : a.next.undecided = true := by
  cases a with
  | result sessionId identity dialect => cases identity <;> rfl
  | _ => rfl

/-- The last look at the health, and the write of the failure, keep the handshake undecided while the
adapter needs a retry. -/
theorem HandshakePc.undecided_of_step {pc pc' : HandshakePc}
    (h : pc.step sh supervisorAttempt c = some (act, pc')) (hneeds : (sh.perform act).needsRetry = true) :
    (pc.undecided = true → pc'.undecided = true) ∧
      (sh.needsRetry = false → pc'.undecided = true) ∧ act ≠ .takePermit := by
  revert h
  fun_cases HandshakePc.step sh supervisorAttempt pc c <;> intro h <;> cases h
  case case4 reason err =>
    have hundecided : (HandshakePc.done (.error err)).undecided = true ∨ sh.needsRetry = true ∧
        sh.obsolete supervisorAttempt = true := by
      simp only [HttpAdapter.perform, HttpAdapter.setHandshakeUnhealthy] at hneeds
      split at hneeds
      · next ho => exact .inr ⟨hneeds, ho⟩
      · left
        cases hp : isPermanentInitFailure err with
        | true => simp [HttpAdapter.needsRetry, hp] at hneeds
        | false => simp [HandshakePc.undecided, hp]
    obtain hundecided | ⟨hn, ho⟩ := hundecided
    · exact ⟨fun _ => hundecided, fun _ => hundecided, fun h => by cases h⟩
    · rw [HttpAdapter.needsRetry_of_obsolete ho] at hn
      cases hn
  case case5 ho =>
    have hn : sh.needsRetry = true := hneeds
    rw [HttpAdapter.needsRetry_of_obsolete ho] at hn
    cases hn
  case case6 => cases hneeds
  case case7 =>
    have hn : sh.needsRetry = true := hneeds
    have ho : sh.obsolete supervisorAttempt ≠ true := by
      intro ho
      rw [HttpAdapter.needsRetry_of_obsolete ho] at hn
      cases hn
    rw [if_neg ho]
    exact ⟨fun _ => rfl, fun _ => rfl, fun h => by cases h⟩
  case case8 a => exact ⟨fun _ => a.next_undecided, fun _ => a.next_undecided, fun h => by cases h⟩
  case case15 => cases hneeds
  case case16 flipped =>
    cases flipped with
    | true => refine ⟨?_, fun hn => absurd (hn.symm.trans hneeds) Bool.false_ne_true, ?_⟩ <;> intro h <;> cases h
    | false => refine ⟨?_, fun hn => absurd (hn.symm.trans hneeds) Bool.false_ne_true, ?_⟩ <;> intro h <;> cases h
  case case17 flipped =>
    cases flipped with
    | true => refine ⟨?_, fun hn => absurd (hn.symm.trans hneeds) Bool.false_ne_true, ?_⟩ <;> intro h <;> cases h
    | false => refine ⟨?_, fun hn => absurd (hn.symm.trans hneeds) Bool.false_ne_true, ?_⟩ <;> intro h <;> cases h
  all_goals exact ⟨fun _ => rfl, fun _ => rfl, fun h => by cases h⟩

theorem ReplacePc.step_covers (sh : HttpAdapter) (repair lockFree : Bool) (pc : ReplacePc)
    (hneeds : (sh.perform (pc.step sh repair lockFree).1).needsRetry = true) :
    sh.needsRetry = true ∧ (pc.step sh repair lockFree).1 ≠ .takePermit := by
  cases pc with
  | install sessionId =>
    obtain hn | ⟨hact, -⟩ | ⟨_, _, hact⟩ | ⟨hact, -⟩ := needsRetry_of_perform hneeds
    · exact ⟨hn, fun h => by cases h⟩
    · cases hact
    · cases hact
    · cases hact
  | _ => exact ⟨hneeds, fun h => by cases h⟩

/-- A supervisor stays in the attempt loop while the adapter needs a retry, and comes to it by the
permit. -/
theorem SupervisorPc.attempts_of_step {pc pc' : SupervisorPc}
    (h : pc.step sh lockFree c = some (act, pc')) (hneeds : (sh.perform act).needsRetry = true) :
    (pc.attempts = true → pc'.attempts = true) ∧ (sh.needsRetry = false → pc'.attempts = true) ∧
      (act = .takePermit → pc'.attempts = true) ∧ pc' ≠ .ended := by
  revert h
  fun_cases SupervisorPc.step sh lockFree pc c <;> intro h
  case case24 pc =>
    obtain ⟨⟨act, pc'⟩, hstep, heq⟩ := Option.map_eq_some_iff.1 h
    cases heq
    obtain ⟨hkeeps, hcauses, hpermit⟩ := HandshakePc.undecided_of_step hstep hneeds
    exact ⟨hkeeps, hcauses, fun hact => absurd hact hpermit, fun h => by cases h⟩
  case case31 pc next =>
    obtain ⟨hn, hpermit⟩ := ReplacePc.step_covers sh false lockFree pc (by cases h; exact hneeds)
    refine ⟨(fun h => by cases h), needsRetry_before hn, ?_, ?_⟩
    · cases h
      exact fun hact => absurd hact hpermit
    · cases h
      cases hnext : next.2 with
      | none =>
        intro h
        cases h
      | some pc' =>
        intro h
        cases h
  all_goals try cases h
  case case4 => exact ⟨fun _ => rfl, fun _ => rfl, fun _ => rfl, fun h => by cases h⟩
  all_goals
    have hn : sh.needsRetry = true := hneeds
    obtain ⟨hu, hsd, hl⟩ := needsRetry_iff.1 hn
  case case2 hdown _ => exact absurd (hsd.symm.trans hdown) Bool.false_ne_true
  case case7 | case12 | case13 | case16 | case21 | case22 =>
    rw [if_pos hu]
    refine ⟨fun _ => rfl, needsRetry_before hn, ?_, ?_⟩ <;> intro h <;> cases h
  case case8 | case17 =>
    rw [if_neg (by simp [hl])]
    refine ⟨fun _ => rfl, needsRetry_before hn, ?_, ?_⟩ <;> intro h <;> cases h
  case case23 outcome =>
    refine ⟨?_, needsRetry_before hn, (fun h => by cases h), (fun h => by cases h)⟩
    cases outcome with
    | ok o =>
      intro h
      cases h
    | error err =>
      intro hpc
      cases hp : isPermanentInitFailure err with
      | true => simp [SupervisorPc.attempts, HandshakePc.undecided, hp] at hpc
      | false => simp [SupervisorPc.attempts, attemptEnd, hp]
  case case25 | case26 | case28 | case29 | case30 => refine ⟨?_, needsRetry_before hn, ?_, ?_⟩ <;> intro h <;> cases h
  all_goals refine ⟨fun _ => rfl, needsRetry_before hn, ?_, ?_⟩ <;> intro h <;> cases h

/-- An `initialize` that fails goes on to arm the supervisor. -/
theorem InitializePc.arms_of_step {pc pc' : InitializePc} (h : pc.step sh lockFree c = some (act, pc'))
    (hneeds : (sh.perform act).needsRetry = true) :
    (pc.arms = true → pc'.arms = true) ∧ (sh.needsRetry = false → pc'.arms = true) ∧
      act ≠ .takePermit ∧ (pc = .permitting → act = .notifyOne) := by
  revert h
  fun_cases InitializePc.step sh lockFree pc c <;> intro h
  case case7 pc _ =>
    obtain ⟨⟨act, pc'⟩, hstep, heq⟩ := Option.map_eq_some_iff.1 h
    cases heq
    obtain ⟨hkeeps, hcauses, hpermit⟩ := HandshakePc.undecided_of_step hstep hneeds
    refine ⟨hkeeps, hcauses, hpermit, (fun h => by cases h)⟩
  all_goals try cases h
  case case1 => refine ⟨fun _ => rfl, fun _ => rfl, ?_, ?_⟩ <;> intro h <;> cases h
  case case4 => cases hneeds
  all_goals
    have hn : sh.needsRetry = true := hneeds
    obtain ⟨hu, -, -⟩ := needsRetry_iff.1 hn
  case case6 outcome =>
    refine ⟨?_, needsRetry_before hn, (fun h => by cases h), (fun h => by cases h)⟩
    cases outcome with
    | ok o =>
      intro h
      cases h
    | error err => exact id
  case case8 => refine ⟨?_, needsRetry_before hn, ?_, ?_⟩ <;> intro h <;> cases h
  case case9 => refine ⟨id, needsRetry_before hn, ?_, ?_⟩ <;> intro h <;> cases h
  case case10 err =>
    refine ⟨fun harms => ?_, needsRetry_before hn, (fun h => by cases h), (fun h => by cases h)⟩
    have hp : isPermanentInitFailure err = false := by simpa [InitializePc.arms] using harms
    rw [if_neg (by simp [hp])]
    rfl
  case case11 =>
    rw [if_pos hu]
    refine ⟨fun _ => rfl, needsRetry_before hn, ?_, ?_⟩ <;> intro h <;> cases h
  case case12 => refine ⟨?_, needsRetry_before hn, ?_, fun _ => rfl⟩ <;> intro h <;> cases h
  all_goals refine ⟨fun _ => rfl, needsRetry_before hn, ?_, ?_⟩ <;> intro h <;> cases h

/-- A request that demotes the adapter goes on to arm the supervisor. -/
theorem TrackedPc.arms_of_step {pc pc' : TrackedPc} (h : pc.step sh lockFree c = some (act, pc'))
    (hneeds : (sh.perform act).needsRetry = true) :
    pc ≠ .ensuring ∧ (sh.needsRetry = false → pc' = .ensuring) ∧ act ≠ .takePermit ∧
      (pc = .permitting → act = .notifyOne) := by
  revert h
  fun_cases TrackedPc.step sh lockFree pc c <;> intro h <;> cases h
  case case6 =>
    obtain hn | ⟨hact, -⟩ | ⟨_, _, hact⟩ | ⟨hact, -⟩ := needsRetry_of_perform hneeds
    · refine ⟨?_, needsRetry_before hn, ?_, ?_⟩ <;> intro h <;> cases h
    · cases hact
    · cases hact
    · cases hact
  case case7 =>
    refine ⟨(fun h => by cases h), fun hf => ?_, (fun h => by cases h), (fun h => by cases h)⟩
    obtain hn | ⟨-, hd⟩ | ⟨_, _, hact⟩ | ⟨hact, -⟩ := needsRetry_of_perform hneeds
    · exact needsRetry_before hn hf
    · rw [if_pos hd]
    · cases hact
    · cases hact
  case case9 f pc _ =>
    obtain ⟨hn, hpermit⟩ := ReplacePc.step_covers sh true lockFree pc hneeds
    refine ⟨?_, needsRetry_before hn, hpermit, ?_⟩ <;> intro h <;> cases h
  case case10 f flippedTo pc _ =>
    obtain ⟨hn, hpermit⟩ := ReplacePc.step_covers sh false lockFree pc hneeds
    refine ⟨?_, needsRetry_before hn, hpermit, ?_⟩ <;> intro h <;> cases h
  case case8 => refine ⟨?_, needsRetry_before hneeds, ?_, fun _ => rfl⟩ <;> intro h <;> cases h
  all_goals refine ⟨?_, needsRetry_before hneeds, ?_, ?_⟩ <;> intro h <;> cases h

theorem ShutdownPc.step_covers {supervised : Bool} {pc pc' : ShutdownPc}
    (h : pc.step supervised = some (act, pc')) (hneeds : (sh.perform act).needsRetry = true) :
    sh.needsRetry = true ∧ act ≠ .takePermit := by
  revert h
  fun_cases ShutdownPc.step supervised pc <;> intro h <;> cases h
  case case4 =>
    obtain hn | ⟨hact, -⟩ | ⟨_, _, hact⟩ | ⟨hact, -⟩ := needsRetry_of_perform hneeds
    · exact ⟨hn, fun h => by cases h⟩
    · cases hact
    · cases hact
    · cases hact
  case case1 =>
    obtain ⟨-, hsd, -⟩ := needsRetry_iff.1 hneeds
    cases hsd
  case case6 => cases hneeds
  all_goals exact ⟨hneeds, fun h => by cases h⟩

/-- What a step does for the retry that the adapter needs afterwards. -/
structure Covers (sh : HttpAdapter) (ts : List HttpThread) (t : HttpThread) (act : Act) (t' : HttpThread)
    (new : List HttpThread) : Prop where
  urges : t.urges = true → t'.urges = true ∨
    t'.permits = true ∧ ((∃ u ∈ ts, u.supervises = true) ∨ ∃ u ∈ new, u.supervises = true)
  causes : sh.needsRetry = false → t'.urges = true
  supervises : t.supervises = true → t'.supervises = true
  permits : t.permits = true → act = .notifyOne
  takePermit : act = .takePermit → t'.urges = true

/-- Unless the adapter is shutting down there is a supervisor afterwards. -/
theorem supervises_of_ensure (hsd : sh.shuttingDown = false) (ts : List HttpThread) :
    (∃ u ∈ ts, u.supervises = true) ∨ ∃ u ∈ ensureSupervisorRunning sh ts, u.supervises = true := by
  by_cases hany : ts.any (·.supervises) = true
  · left
    simpa using hany
  · right
    unfold ensureSupervisorRunning
    rw [if_neg (by rw [hsd]; exact hany)]
    exact ⟨_, List.mem_singleton_self _, rfl⟩

theorem HttpThread.Steps.covers {ts new : List HttpThread} {t t' : HttpThread}
    (h : HttpThread.Steps sh ts c t act t' new) (hstreams : t.Streams)
    (hneeds : (sh.perform act).needsRetry = true) : Covers sh ts t act t' new := by
  cases h with
  | @request pc pc' act hstep =>
    obtain ⟨hensuring, hcauses, hpermit, hpermits⟩ := TrackedPc.arms_of_step hstep hneeds
    refine ⟨fun hu => ?_, fun hf => ?_, (fun h => by cases h), fun hp => ?_, fun hact => absurd hact hpermit⟩
    · cases pc with
      | ensuring => exact absurd rfl hensuring
      | _ => cases hu
    · rw [hcauses hf]
      rfl
    · cases pc with
      | permitting => exact hpermits rfl
      | _ => cases hp
  | @supervisor pc pc' act hstep =>
    obtain ⟨hkeeps, hcauses, hpermit, hended⟩ := SupervisorPc.attempts_of_step hstep hneeds
    refine ⟨fun hu => .inl (hkeeps hu), hcauses, fun _ => ?_, (fun h => by cases h), hpermit⟩
    cases pc' with
    | ended => exact absurd rfl hended
    | _ => rfl
  | @initializing pc pc' act hstep =>
    obtain ⟨hkeeps, hcauses, hpermit, hpermits⟩ := InitializePc.arms_of_step hstep hneeds
    refine ⟨fun hu => .inl (hkeeps hu), hcauses, (fun h => by cases h), fun hp => ?_, fun hact => absurd hact hpermit⟩
    cases pc with
    | permitting => exact hpermits rfl
    | _ => cases hp
  | shutdown hstep =>
    obtain ⟨hn, hpermit⟩ := ShutdownPc.step_covers hstep hneeds
    refine ⟨?_, needsRetry_before hn, ?_, ?_, fun hact => absurd hact hpermit⟩ <;> intro h <;> cases h
  | requestEnsures | retryEnsures =>
    obtain ⟨-, hsd, -⟩ := needsRetry_iff.1 hneeds
    exact ⟨fun _ => .inr ⟨rfl, supervises_of_ensure hsd ts⟩, needsRetry_before hneeds,
      (fun h => by cases h), (fun h => by cases h), (fun h => by cases h)⟩
  | initializedEnsures =>
    refine ⟨?_, needsRetry_before hneeds, ?_, ?_, ?_⟩ <;> intro h <;> cases h
  | stream =>
    obtain hn | ⟨rfl, -⟩ | ⟨_, _, rfl⟩ | ⟨rfl, -⟩ := needsRetry_of_perform hneeds
    · refine ⟨(fun h => by cases h), needsRetry_before hn, (fun h => by cases h), (fun h => by cases h), ?_⟩
      rintro rfl
      cases hstreams
    · cases hstreams
    · cases hstreams
    · cases hstreams

/-- The coverage of an adapter in need of a retry: somebody is at it, or the supervisor has its permit or
will get it. -/
def Covered (s : HttpState) : Prop :=
  s.shared.needsRetry = true →
    (∃ t ∈ s.threads, t.urges = true) ∨
      (∃ t ∈ s.threads, t.supervises = true) ∧
        (s.shared.reconnectPermit = true ∨ ∃ t ∈ s.threads, t.permits = true)

theorem reconnectPermit_perform (hact : act ≠ .takePermit) (h : sh.reconnectPermit = true) :
    (sh.perform act).reconnectPermit = true := by
  cases act with
  | takePermit => exact absurd rfl hact
  | noteRequestSuccess | noteTransportFailure | setHandshakeUnhealthy =>
    exact perform_onHealth (·.reconnectPermit = true) rfl fun _ _ _ _ _ => h
  | commit2026Handshake identity =>
    simp only [HttpAdapter.perform, HttpAdapter.markHealthyLocked, HttpAdapter.installListener]
    split <;> exact h
  | installListener sessionId =>
    simp only [HttpAdapter.perform, HttpAdapter.installListener]
    split <;> exact h
  | drainListener | listenerEnded => exact perform_onTask (·.reconnectPermit = true) rfl fun _ _ => h
  | notifyOne => rfl
  | _ => exact h

theorem Covered.step {s : HttpState} {i : Nat} {t t' : HttpThread} {c : HttpChoice} {act : Act}
    {new : List HttpThread} (h : Covered s) (hi : s.threads[i]? = some t)
    (hsteps : HttpThread.Steps s.shared s.threads c t act t' new) (hstreams : t.Streams) :
    Covered ⟨s.shared.perform act, Pool.stepped s.threads i t' new⟩ := by
  intro hneeds
  have hc := hsteps.covers hstreams hneeds
  cases hn : s.shared.needsRetry with
  | false => exact .inl ⟨t', Pool.mem_stepped_self hi, hc.causes hn⟩
  | true =>
    have hkept : (∃ u ∈ s.threads, u.supervises = true) →
        ∃ u ∈ Pool.stepped s.threads i t' new, u.supervises = true :=
      Pool.exists_stepped hi hc.supervises
    obtain ⟨u, hu, hurges⟩ | ⟨hsup, hpermit⟩ := h hn
    · obtain ⟨j, hj⟩ := List.mem_iff_getElem?.1 hu
      by_cases hne : j = i
      · subst hne
        rw [hi] at hj
        cases hj
        obtain hurges | ⟨hpermits, hsup | ⟨v, hv, hsup⟩⟩ := hc.urges hurges
        · exact .inl ⟨t', Pool.mem_stepped_self hi, hurges⟩
        · exact .inr ⟨hkept hsup, .inr ⟨t', Pool.mem_stepped_self hi, hpermits⟩⟩
        · exact .inr ⟨⟨v, Pool.mem_stepped_of_new hv, hsup⟩, .inr ⟨t', Pool.mem_stepped_self hi, hpermits⟩⟩
      · exact .inl ⟨u, Pool.mem_stepped_of_ne hj hne, hurges⟩
    · -- Nobody but the supervisor takes the permit.
      by_cases hact : act = .takePermit
      · exact .inl ⟨t', Pool.mem_stepped_self hi, hc.takePermit hact⟩
      · refine .inr ⟨hkept hsup, ?_⟩
        obtain hpermit | ⟨u, hu, hpermits⟩ := hpermit
        · exact .inl (reconnectPermit_perform hact hpermit)
        · obtain ⟨j, hj⟩ := List.mem_iff_getElem?.1 hu
          by_cases hne : j = i
          · subst hne
            rw [hi] at hj
            cases hj
            left
            rw [hc.permits hpermits]
            rfl
          · exact .inr ⟨u, Pool.mem_stepped_of_ne hj hne, hpermits⟩

theorem Covered.launch (h : Covered s) : Covered { s with threads := s.threads ++ [t] } := by
  intro hneeds
  obtain ⟨u, hu, hurges⟩ | ⟨⟨u, hu, hsup⟩, hpermit⟩ := h hneeds
  · exact .inl ⟨u, List.mem_append_left _ hu, hurges⟩
  · refine .inr ⟨⟨u, List.mem_append_left _ hu, hsup⟩, hpermit.imp_right ?_⟩
    rintro ⟨v, hv, hpermits⟩
    exact ⟨v, List.mem_append_left _ hv, hpermits⟩

theorem covered (h : httpAdapter.system.Reachable s) : s.shared.Latched ∧ Covered s := by
  refine Pool.invariant_of (P := httpAdapter) (I := fun s => ∀ t ∈ s.threads, t.Streams)
    (J := fun s => s.shared.Latched ∧ Covered s) (fun s hs => streams hs) ?_ ?_ ?_ h
  · rintro sh rfl
    exact ⟨rfl, fun h => by cases h⟩
  · intro s op t _ hJ _ _
    exact ⟨hJ.1, hJ.2.launch⟩
  · intro s i c t sh t' new hI hJ _ hi hstep
    obtain ⟨act, hsteps, rfl⟩ := httpAdapter_steps hstep
    exact ⟨hJ.1.perform act, hJ.2.step hi hsteps (hI t (List.mem_of_getElem? hi))⟩

/-! ## The supervisor is at it -/

namespace HttpThread

def initializes : HttpThread → Bool
  | .initializing .returned => false
  | .initializing _ => true
  | _ => false

/-- A request that has demoted the adapter and not yet handed over the permit. -/
def arms : HttpThread → Bool
  | .request .ensuring | .request .permitting => true
  | _ => false

def attempts : HttpThread → Bool
  | .supervisor pc => pc.attempts
  | _ => false

end HttpThread

/-- The supervisor is alive, and inside its attempt loop or with a permit. -/
def Retrying (s : HttpState) : Prop :=
  ∃ t ∈ s.threads, t.supervises = true ∧ (t.attempts = true ∨ s.shared.reconnectPermit = true)

theorem retrying_or_arms_of_urges (hinit : ∀ t ∈ s.threads, t.initializes = false) (ht : t ∈ s.threads)
    (hurges : t.urges = true) : Retrying s ∨ ∃ t ∈ s.threads, t.arms = true := by
  cases t with
  | supervisor pc =>
    refine .inl ⟨_, ht, ?_, .inl hurges⟩
    cases pc with
    | ended => cases hurges
    | _ => rfl
  | request pc =>
    cases pc with
    | ensuring => exact .inr ⟨_, ht, rfl⟩
    | _ => cases hurges
  | initializing pc =>
    cases pc with
    | returned => cases hurges
    | _ => cases hinit _ ht
  | _ => cases hurges

theorem arms_of_permits (hinit : ∀ t ∈ s.threads, t.initializes = false) (ht : t ∈ s.threads)
    (hpermits : t.permits = true) : t.arms = true := by
  cases t with
  | request pc =>
    cases pc with
    | permitting => rfl
    | _ => cases hpermits
  | initializing pc =>
    cases pc with
    | permitting => cases hinit _ ht
    | _ => cases hpermits
  | _ => cases hpermits

/-- **An unhealthy adapter is being retried**, once the request that demoted it has armed the
supervisor; and the latch stands for a permanent failure. -/
theorem unhealthy_retried {s : HttpState} (h : httpAdapter.system.Reachable s) :
    (s.shared.permanentHandshakeFailure = true ↔ latestOutcome s.shared.log = some true) ∧
      (isUnhealthy s.shared.health = true → s.shared.shuttingDown = false →
        (∀ t ∈ s.threads, t.initializes = false) → latestOutcome s.shared.log ≠ some true →
        Retrying s ∨ ∃ t ∈ s.threads, t.arms = true) := by
  obtain ⟨hlatched, hcovered⟩ := covered h
  have hlatch : s.shared.permanentHandshakeFailure = true ↔ latestOutcome s.shared.log = some true := by
    rw [hlatched, beq_iff_eq]
  refine ⟨hlatch, fun hu hsd hinit hnot => ?_⟩
  have hl : s.shared.permanentHandshakeFailure = false :=
    Bool.eq_false_iff.2 fun hl => hnot (hlatch.1 hl)
  obtain ⟨t, ht, hurges⟩ | ⟨⟨t, ht, hsup⟩, hpermit⟩ := hcovered (needsRetry_iff.2 ⟨hu, hsd, hl⟩)
  · exact retrying_or_arms_of_urges hinit ht hurges
  · obtain hpermit | ⟨u, hu, hpermits⟩ := hpermit
    · exact .inl ⟨t, ht, hsup, .inr hpermit⟩
    · exact .inr ⟨u, hu, arms_of_permits hinit hu hpermits⟩

/-- Three requests die on a healthy adapter; the third demotes it. -/
def demotion : List HttpAction :=
  initializesWell 0 "s1" ++ diesOnTheWay 2 ++ diesOnTheWay 3 ++ diesOnTheWay 4

/-- **Between the demotion and the permit** the supervisor is parked, with no permit. -/
theorem demotion_not_yet_retried :
    ∃ s, httpAdapter.system.Reachable s ∧ isUnhealthy s.shared.health = true ∧
      s.shared.shuttingDown = false ∧ (∀ t ∈ s.threads, t.initializes = false) ∧
        latestOutcome s.shared.log ≠ some true ∧ ¬ Retrying s := by
  obtain ⟨s, hrun, hu, hsd, hinit, hlatest, hparked, hpermit⟩ :
      ∃ s, httpAdapter.system.run ⟨.new, []⟩ demotion = some s ∧ isUnhealthy s.shared.health = true ∧
        s.shared.shuttingDown = false ∧ s.threads.all (!·.initializes) = true ∧
          latestOutcome s.shared.log = none ∧ s.threads.all (!·.attempts) = true ∧
            s.shared.reconnectPermit = false :=
    ⟨_, rfl, rfl, rfl, rfl, rfl, rfl, rfl⟩
  refine ⟨s, System.Reachable.run (.init httpAdapter_init) hrun, hu, hsd, ?_, ?_, ?_⟩
  · simpa using hinit
  · rw [hlatest]
    intro h
    cases h
  · rintro ⟨t, ht, -, hattempts | hp⟩
    · have hnot := List.all_eq_true.1 hparked t ht
      rw [hattempts] at hnot
      cases hnot
    · rw [hpermit] at hp
      cases hp

/-- Once the permit is there the adapter is being retried. -/
theorem demotion_retried :
    ∃ s, httpAdapter.system.run ⟨.new, []⟩ (demotion ++ goes 4 2) = some s ∧
      (Retrying s ∨ ∃ t ∈ s.threads, t.arms = true) ∧ s.threads.all (!·.arms) = true := by
  obtain ⟨s, hrun, hu, hsd, hinit, hlatest, harms⟩ :
      ∃ s, httpAdapter.system.run ⟨.new, []⟩ (demotion ++ goes 4 2) = some s ∧
        isUnhealthy s.shared.health = true ∧ s.shared.shuttingDown = false ∧
          s.threads.all (!·.initializes) = true ∧ latestOutcome s.shared.log = none ∧
            s.threads.all (!·.arms) = true :=
    ⟨_, rfl, rfl, rfl, rfl, rfl, rfl⟩
  refine ⟨s, hrun, ?_, harms⟩
  refine (unhealthy_retried (System.Reachable.run (.init httpAdapter_init) hrun)).2 hu hsd ?_ ?_
  · simpa using hinit
  · rw [hlatest]
    intro h
    cases h

end EndaraRelay.Http
