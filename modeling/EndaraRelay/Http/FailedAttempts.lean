import EndaraRelay.Http.Exclusion

/-!
# Failed attempts

An attempt of the supervisor that fails or finds the adapter recovered. While it holds the handshake lock
nobody else commits anything, and it commits nothing itself before it has validated what the upstream
answered: `uncommitted` are the steps up to there and those that lead out of the attempt from there. Once
a request has recovered the adapter, the last thing the attempt could still write, its failure, is refused.
-/

namespace EndaraRelay.Http

open Verif

/-! ## What a handshake commits -/

/-- The session, the dialect, the identity and the installed listener. -/
structure Committed where
  sessionId : Option String
  upstreamDialect : ProtocolVersion
  serverType : Option String
  upstreamServerName : Option String
  listener : Option (Nat × Option String)

def HttpAdapter.committed (sh : HttpAdapter) : Committed where
  sessionId := sh.sessionId
  upstreamDialect := sh.upstreamDialect
  serverType := sh.serverType
  upstreamServerName := sh.upstreamServerName
  listener := sh.listenerHandle.map fun listener => (listener.id, listener.sessionId)

def Act.commits : Act → Bool
  | .commit2026Handshake _ | .installListener _ | .commitServerIdentity _ | .commitSession _
  | .setUpstreamDialect _ | .drainListener => true
  | _ => false

variable {sh : HttpAdapter} {act : Act} {c : HttpChoice} {lockFree : Bool} {a : HttpAction}
  {s : HttpState} {p : SupervisorPc → Bool}

theorem committed_perform (hact : act.commits = false) : (sh.perform act).committed = sh.committed := by
  cases act with
  | noteRequestSuccess | noteTransportFailure | setHandshakeUnhealthy =>
    exact perform_onHealth (·.committed = sh.committed) rfl fun _ _ _ _ _ => rfl
  | listenerEnded id =>
    simp only [HttpAdapter.perform, HttpAdapter.listenerEnded]
    split
    · cases hl : sh.listenerHandle with
      | none => simp [HttpAdapter.committed, hl]
      | some listener => by_cases hid : listener.id = id <;> simp [HttpAdapter.committed, hl, hid]
    · rfl
  | commit2026Handshake => cases hact
  | installListener => cases hact
  | commitServerIdentity => cases hact
  | commitSession => cases hact
  | setUpstreamDialect => cases hact
  | drainListener => cases hact
  | _ => rfl

/-- The acts that write the health or the latch on the outcome of a handshake or of failing requests. -/
def Act.settles : Act → Bool
  | .noteTransportFailure | .setHandshakeUnhealthy _ _ _ | .commit2026Handshake _
  | .markHandshakeHealthy | .beginInitialize | .setStopped => true
  | _ => false

theorem latch_perform (hact : act.settles = false) :
    (sh.perform act).permanentHandshakeFailure = sh.permanentHandshakeFailure := by
  cases act with
  | noteRequestSuccess =>
    simp only [HttpAdapter.perform, HttpAdapter.noteRequestSuccess]
    split <;> rfl
  | noteTransportFailure => cases hact
  | setHandshakeUnhealthy => cases hact
  | commit2026Handshake => cases hact
  | markHandshakeHealthy => cases hact
  | installListener sessionId =>
    simp only [HttpAdapter.perform, HttpAdapter.installListener]
    split <;> rfl
  | drainListener | listenerEnded => exact perform_onTask (·.permanentHandshakeFailure = sh.permanentHandshakeFailure) rfl fun _ _ => rfl
  | _ => rfl

/-- A success leaves an adapter alone that is not down. -/
theorem health_perform (hact : act.settles = false) (hup : isUnhealthy sh.health = false) :
    (sh.perform act).health = sh.health := by
  cases act with
  | noteRequestSuccess =>
    simp only [HttpAdapter.perform, HttpAdapter.noteRequestSuccess]
    split
    · next hrec =>
      have hu := (Bool.and_eq_true_iff.1 hrec).2
      rw [hup] at hu
      cases hu
    · rfl
  | noteTransportFailure => cases hact
  | setHandshakeUnhealthy => cases hact
  | commit2026Handshake => cases hact
  | markHandshakeHealthy => cases hact
  | beginInitialize => cases hact
  | setStopped => cases hact
  | installListener sessionId =>
    simp only [HttpAdapter.perform, HttpAdapter.installListener]
    split <;> rfl
  | drainListener | listenerEnded => exact perform_onTask (·.health = sh.health) rfl fun _ _ => rfl
  | _ => rfl

/-! ## The attempt -/

/-- Nothing is committed yet, or nothing ever will be. -/
def HandshakePc.uncommitted : HandshakePc → Bool
  | .entered _ | .failing _ _ | .commit2026 _ | .beforePost | .posted | .done (.error _)
  | .done (.ok .obsolete) => true
  | _ => false

/-- The outcome is still open, and nothing is committed yet. -/
def HandshakePc.pending : HandshakePc → Bool
  | .entered _ | .failing _ _ | .commit2026 _ | .beforePost | .posted => true
  | _ => false

namespace SupervisorPc

def attempting : SupervisorPc → Bool
  | .lockedHealth | .lockedLatch | .probe | .probeHint | .probed _ | .handshake _ | .unlock _ => true
  | _ => false

def uncommitted : SupervisorPc → Bool
  | .lockedHealth | .lockedLatch | .probe | .probeHint | .probed _ => true
  | .handshake pc => pc.uncommitted
  | .unlock result => result ≠ .completed
  | _ => false

def pending : SupervisorPc → Bool
  | .lockedHealth | .lockedLatch | .probe | .probeHint | .probed _ => true
  | .handshake pc => pc.pending
  | _ => false

end SupervisorPc

/-- A handshake that has committed nothing after a step had committed nothing before it, and may have
written its failure. -/
theorem HandshakePc.uncommitted_of_step {pc pc' : HandshakePc} (h : pc.step sh true c = some (act, pc'))
    (hpc' : pc'.uncommitted = true) :
    pc.uncommitted = true ∧ (pc'.pending = true → pc.pending = true) ∧
      (act = .skip ∨ pc'.pending = false ∧
        ∃ reason permanent, act = .setHandshakeUnhealthy reason permanent true) := by
  revert h
  fun_cases HandshakePc.step sh true pc c <;> intro h <;> cases h
  case case4 reason err => exact ⟨rfl, fun _ => rfl, .inr ⟨rfl, _, _, rfl⟩⟩
  case case1 | case2 | case3 | case5 | case7 | case8 => exact ⟨rfl, fun _ => rfl, .inl rfl⟩
  all_goals cases hpc'

/-- So it is with an attempt, once it has the handshake lock. -/
theorem SupervisorPc.uncommitted_of_step {pc pc' : SupervisorPc}
    (h : pc.step sh lockFree c = some (act, pc')) (hpc : pc.attempting = true)
    (hpc' : pc'.uncommitted = true) :
    pc.uncommitted = true ∧ (pc'.pending = true → pc.pending = true) ∧
      (act = .skip ∨ act = .registerHint ∨ pc'.pending = false ∧
        ∃ reason permanent, act = .setHandshakeUnhealthy reason permanent true) := by
  revert h
  fun_cases SupervisorPc.step sh lockFree pc c <;> intro h
  case case24 pc _ =>
    obtain ⟨⟨act, pc'⟩, hstep, heq⟩ := Option.map_eq_some_iff.1 h
    cases heq
    obtain ⟨hun, hpending, hact⟩ := HandshakePc.uncommitted_of_step hstep hpc'
    exact ⟨hun, hpending, hact.imp_right .inr⟩
  case case31 => cases hpc
  all_goals cases h
  case case16 | case17 | case21 => exact ⟨rfl, fun _ => rfl, .inl rfl⟩
  case case20 | case22 => exact ⟨rfl, fun _ => rfl, .inl rfl⟩
  case case18 => exact ⟨rfl, fun _ => rfl, .inr (.inl rfl)⟩
  case case23 outcome =>
    refine ⟨?_, (fun hp => by cases hp), .inl rfl⟩
    cases outcome with
    | ok outcome =>
      cases outcome with
      | completed => cases hpc'
      | obsolete => rfl
    | error err => rfl
  case case2 | case25 | case26 | case27 => cases hpc'
  all_goals cases hpc

/-! ## Along the attempt -/

/-- Thread `i` is at a point of its attempt that meets `p`. -/
def attemptAt (p : SupervisorPc → Bool) (i : Nat) (s : HttpState) : Bool :=
  match s.threads[i]? with
  | some (.supervisor pc) => p pc
  | _ => false

/-- The attempt of thread `i` is under way. -/
def attempting (i : Nat) (s : HttpState) (_ : HttpAction) : Bool := attemptAt (·.attempting) i s

/-- The attempt is under way, and no failure of a request is accounted. -/
def attemptUndisturbed (i : Nat) (s : HttpState) (a : HttpAction) : Bool :=
  attempting i s a && match a with
    | .launch _ => true
    | .run j _ => match s.threads[j]? with
      | some (.request .dead) => false
      | _ => true

theorem InitializePc.stops_nothing {pc pc' : InitializePc} (h : pc.step sh lockFree c = some (act, pc')) :
    act ≠ .drainListener ∧ act ≠ .setStopped := by
  revert h
  fun_cases InitializePc.step sh lockFree pc c <;> intro h
  case case7 =>
    obtain ⟨⟨act, pc'⟩, hstep, heq⟩ := Option.map_eq_some_iff.1 h
    cases heq
    obtain ⟨howner, -⟩ := HandshakePc.author_of_step hstep
    constructor <;> rintro rfl <;> cases howner
  all_goals cases h
  all_goals constructor <;> intro h <;> cases h

theorem ShutdownPc.joined_of_stops {pc pc' : ShutdownPc} {supervised : Bool}
    (h : pc.step supervised = some (act, pc')) (hact : act = .drainListener ∨ act = .setStopped) :
    pc.joined = true := by
  revert h
  fun_cases ShutdownPc.step supervised pc <;> intro h <;> cases h
  case case4 | case6 => rfl
  all_goals rcases hact with hact | hact <;> cases hact

/-- The listener is drained and the adapter stopped by a shutdown that has joined the supervisor. -/
theorem HttpThread.Steps.stops {ts new : List HttpThread} {t t' : HttpThread}
    (h : HttpThread.Steps sh ts c t act t' new) (hstreams : t.Streams)
    (hact : act = .drainListener ∨ act = .setStopped) : ∃ pc, t = .shutdown pc ∧ pc.joined = true := by
  have howns : t.owns = true := by
    apply (h.author hstreams).1
    rcases hact with rfl | rfl <;> rfl
  cases h with
  | initializing hstep =>
    obtain ⟨hdrain, hstop⟩ := InitializePc.stops_nothing hstep
    exact absurd hact (not_or.2 ⟨hdrain, hstop⟩)
  | @shutdown pc pc' act hstep => exact ⟨pc, rfl, ShutdownPc.joined_of_stops hstep hact⟩
  | retryEnsures => rcases hact with hact | hact <;> cases hact
  | initializedEnsures => rcases hact with hact | hact <;> cases hact
  | _ => cases howns

theorem TrackedPc.dead_of_step {pc pc' : TrackedPc}
    (h : pc.step sh lockFree c = some (.noteTransportFailure, pc')) : pc = .dead := by
  have hauthor := fun repair replacing => (ReplacePc.author_of_step sh repair lockFree replacing).2.1
  cases pc with
  | dead => rfl
  | repairing f replacing =>
    cases c with
    | go =>
      have hact : (replacing.step sh true lockFree).1 = .noteTransportFailure :=
        congrArg Prod.fst (Option.some.inj h)
      have hnot := hauthor true replacing
      rw [hact] at hnot
      cases hnot
    | _ => cases h
  | replacing f flippedTo replacing =>
    cases c with
    | go =>
      have hact : (replacing.step sh false lockFree).1 = .noteTransportFailure :=
        congrArg Prod.fst (Option.some.inj h)
      have hnot := hauthor false replacing
      rw [hact] at hnot
      cases hnot
    | _ => cases h
  | inFlight d =>
    cases c with
    | outcome o => cases o <;> cases h
    | _ => cases h
  | _ => cases c <;> cases h

/-- A failure is accounted by the request that died. -/
theorem HttpThread.Steps.dies {ts new : List HttpThread} {t t' : HttpThread}
    (h : HttpThread.Steps sh ts c t .noteTransportFailure t' new) (hstreams : t.Streams) :
    t = .request .dead := by
  have hborrows := (h.author hstreams).2.1 rfl
  cases h with
  | request hstep => rw [TrackedPc.dead_of_step hstep]
  | _ => cases hborrows

theorem SupervisorPc.holds_of_attempting {pc : SupervisorPc} (h : pc.attempting = true) :
    pc.holdsHandshake = true ∧ (HttpThread.supervisor pc).supervises = true := by
  cases pc with
  | lockedHealth | lockedLatch | probe | probeHint | probed | handshake | unlock => exact ⟨rfl, rfl⟩
  | _ => cases h

/-- **The steps during an attempt**: its own, and those of others, which neither commit anything nor
settle anything but the failure of a request. -/
theorem attempt_next {s s' : HttpState} {i : Nat} {pc : SupervisorPc}
    (h : httpAdapter.system.Reachable s) (hi : s.threads[i]? = some (.supervisor pc))
    (hpc : pc.attempting = true) (hstep : httpAdapter.system.step s a = some s') :
    ∃ act pc', s'.threads[i]? = some (.supervisor pc') ∧ s'.shared = s.shared.perform act ∧
      ((∃ lockFree c, pc.step s.shared lockFree c = some (act, pc')) ∨
        pc' = pc ∧ act.commits = false ∧ (act.settles = true →
          ∃ j c, a = .run j c ∧ s.threads[j]? = some (.request .dead))) := by
  obtain ⟨hholds, hsup⟩ := SupervisorPc.holds_of_attempting hpc
  cases a with
  | launch op =>
    obtain ⟨t, ht, rfl⟩ := Pool.next_launch hstep
    refine ⟨.skip, pc, ?_, rfl, .inr ⟨rfl, rfl, fun hact => by cases hact⟩⟩
    show (s.threads ++ [t])[i]? = some (.supervisor pc)
    rw [List.getElem?_append_left (List.getElem?_eq_some_iff.1 hi).1, hi]
  | run j c =>
    obtain ⟨t, sh, t', new, hj, hthread, rfl⟩ := Pool.next_run hstep
    obtain ⟨act, hsteps, rfl⟩ := httpAdapter_steps hthread
    by_cases hne : j = i
    · subst hne
      rw [hi] at hj
      cases hj
      cases hsteps with
      | supervisor hown => exact ⟨act, _, Pool.getElem?_stepped_self hi, rfl, .inl ⟨_, c, hown⟩⟩
    · have hstreams := streams h t (List.mem_of_getElem? hj)
      have hlock := not_underLock h hi hholds hj hne hsteps
      have hstop : act ≠ .drainListener ∧ act ≠ .setStopped := by
        rw [← not_or]
        intro hact
        obtain ⟨pc', rfl, hjoined⟩ := hsteps.stops hstreams hact
        have hnone := (joined h pc' (List.mem_of_getElem? hj)).2 hjoined _ (List.mem_of_getElem? hi)
        rw [hsup] at hnone
        cases hnone
      refine ⟨act, pc, Pool.getElem?_stepped_of_ne hi fun hij => hne hij.symm, rfl, .inr ⟨rfl, ?_, ?_⟩⟩
      · cases act with
        | drainListener => exact absurd rfl hstop.1
        | commit2026Handshake | installListener | commitServerIdentity | commitSession
        | setUpstreamDialect => cases hlock
        | _ => rfl
      · intro hact
        refine ⟨j, c, rfl, ?_⟩
        cases act with
        | noteTransportFailure => rw [hj, hsteps.dies hstreams]
        | setStopped => exact absurd rfl hstop.2
        | setHandshakeUnhealthy | commit2026Handshake | markHandshakeHealthy | beginInitialize =>
          cases hlock
        | _ => cases hact

theorem attemptAt_iff {i : Nat} :
    attemptAt p i s = true ↔ ∃ pc, s.threads[i]? = some (.supervisor pc) ∧ p pc = true := by
  unfold attemptAt
  constructor
  · intro h
    split at h
    · next pc hi => exact ⟨pc, hi, h⟩
    · cases h
  · rintro ⟨pc, hi, hp⟩
    rw [hi]
    exact hp

variable {s s' : HttpState} {i : Nat}

/-- **Attempt rule.** What holds of the shared state at the start of an attempt, and is kept by what may
happen during it, holds as long as the attempt is in the phase `p`. -/
theorem attempt_keeps (ok : HttpState → HttpAction → Bool) {Q : HttpAdapter → Prop}
    (h : httpAdapter.system.Reachable s) (hok : ∀ s a, ok s a = true → attempting i s a = true)
    (hs : Q s.shared) (hown : ∀ sh pc pc' lockFree c act, pc.attempting = true →
      pc.step sh lockFree c = some (act, pc') → p pc' = true → p pc = true ∧ (Q sh → Q (sh.perform act)))
    (hother : ∀ s a act, ok s a = true → act.commits = false → (act.settles = true →
      ∃ j c, a = .run j c ∧ s.threads[j]? = some (.request .dead)) →
        Q s.shared → Q (s.shared.perform act))
    (hrun : (httpAdapter.system.startingAt s).ReachableWhile (fun s a => ok s a = true) s') :
    attemptAt p i s' = true → Q s'.shared := by
  refine hrun.invariant_of (J := httpAdapter.system.Reachable)
    (P := fun s' => attemptAt p i s' = true → Q s'.shared) (fun s' hs' => h.startingAt hs') ?_ ?_
  · rintro s' rfl _
    exact hs
  · intro s₁ a s₂ hreach hkept hoka hstep hp
    obtain ⟨pc, hi, hpc⟩ := attemptAt_iff.1 (hok s₁ a hoka)
    obtain ⟨act, pc', hi', hshared, hact⟩ := attempt_next hreach hi hpc hstep
    obtain ⟨pc'', hi'', hp'⟩ := attemptAt_iff.1 hp
    rw [hi'] at hi''
    cases hi''
    rw [hshared]
    obtain ⟨lockFree, c, hthread⟩ | ⟨rfl, hcommits, hsettles⟩ := hact
    · obtain ⟨hp₁, hQ⟩ := hown _ _ _ _ _ _ hpc hthread hp'
      exact hQ (hkept (attemptAt_iff.2 ⟨pc, hi, hp₁⟩))
    · exact hother _ _ _ hoka hcommits hsettles (hkept (attemptAt_iff.2 ⟨pc', hi, hp'⟩))

theorem attemptUndisturbed_settles (hok : attemptUndisturbed i s a = true)
    (hsettles : act.settles = true →
      ∃ j c, a = .run j c ∧ s.threads[j]? = some (.request .dead)) : act.settles = false := by
  rw [← Bool.not_eq_true]
  intro hact
  obtain ⟨j, c, rfl, hj⟩ := hsettles hact
  simp [attemptUndisturbed, hj] at hok

theorem attempt_commits_nothing (h : httpAdapter.system.Reachable s)
    (hrun : (httpAdapter.system.startingAt s).ReachableWhile (fun s a => attempting i s a = true) s')
    (huncommitted : attemptAt (·.uncommitted) i s' = true) : s'.shared.committed = s.shared.committed := by
  refine attempt_keeps (attempting i) (Q := fun sh => sh.committed = s.shared.committed) h
    (fun _ _ h => h) rfl ?_ ?_ hrun huncommitted
  · intro sh pc pc' lockFree c act hpc hstep hpc'
    obtain ⟨hun, -, hact⟩ := SupervisorPc.uncommitted_of_step hstep hpc hpc'
    refine ⟨hun, fun hQ => ?_⟩
    rw [committed_perform, hQ]
    obtain rfl | rfl | ⟨-, reason, permanent, rfl⟩ := hact <;> rfl
  · intro s a act _ hcommits _ hQ
    rw [committed_perform hcommits, hQ]

theorem SupervisorPc.uncommitted_of_pending {pc : SupervisorPc} (h : pc.pending = true) :
    pc.uncommitted = true := by
  cases pc with
  | handshake pc =>
    cases pc with
    | entered | failing | commit2026 | beforePost | posted => rfl
    | _ => cases h
  | lockedHealth | lockedLatch | probe | probeHint | probed => rfl
  | _ => cases h

/-- While the outcome is open, the latch is as it was. -/
theorem attempt_keeps_latch (h : httpAdapter.system.Reachable s)
    (hrun : (httpAdapter.system.startingAt s).ReachableWhile (fun s a => attemptUndisturbed i s a = true) s')
    (hpending : attemptAt (·.pending) i s' = true) :
    s'.shared.permanentHandshakeFailure = s.shared.permanentHandshakeFailure := by
  refine attempt_keeps (attemptUndisturbed i)
    (Q := fun sh => sh.permanentHandshakeFailure = s.shared.permanentHandshakeFailure) h
    (fun _ _ h => (Bool.and_eq_true_iff.1 h).1) rfl ?_ ?_ hrun hpending
  · intro sh pc pc' lockFree c act hpc hstep hpc'
    obtain ⟨-, hp, hact⟩ :=
      SupervisorPc.uncommitted_of_step hstep hpc (SupervisorPc.uncommitted_of_pending hpc')
    refine ⟨hp hpc', fun hQ => ?_⟩
    obtain rfl | rfl | ⟨hnot, -⟩ := hact
    · exact hQ
    · exact hQ
    · rw [hpc'] at hnot
      cases hnot
  · intro s a act hok _ hsettles hQ
    rw [latch_perform (attemptUndisturbed_settles hok hsettles), hQ]

/-- Once the adapter is recovered the attempt changes neither its health nor the latch. -/
theorem attempt_keeps_recovery (h : httpAdapter.system.Reachable s)
    (hup : isUnhealthy s.shared.health = false)
    (hrun : (httpAdapter.system.startingAt s).ReachableWhile (fun s a => attemptUndisturbed i s a = true) s')
    (huncommitted : attemptAt (·.uncommitted) i s' = true) :
    s'.shared.health = s.shared.health ∧
      s'.shared.permanentHandshakeFailure = s.shared.permanentHandshakeFailure := by
  refine attempt_keeps (attemptUndisturbed i) (Q := fun sh => sh.health = s.shared.health ∧
    sh.permanentHandshakeFailure = s.shared.permanentHandshakeFailure) h
    (fun _ _ h => (Bool.and_eq_true_iff.1 h).1) ⟨rfl, rfl⟩ ?_ ?_ hrun huncommitted
  · intro sh pc pc' lockFree c act hpc hstep hpc'
    obtain ⟨hun, -, hact⟩ := SupervisorPc.uncommitted_of_step hstep hpc hpc'
    refine ⟨hun, fun hQ => ?_⟩
    obtain rfl | rfl | ⟨-, reason, permanent, rfl⟩ := hact
    · exact hQ
    · exact hQ
    · -- The failure of an obsolete attempt is refused.
      have hobsolete : sh.obsolete true = true := by
        unfold HttpAdapter.obsolete
        rw [hQ.1, hup]
        rfl
      simp only [HttpAdapter.perform, HttpAdapter.setHandshakeUnhealthy, if_pos hobsolete]
      exact hQ
  · intro s₁ a act hok _ hsettles hQ
    have hact := attemptUndisturbed_settles hok hsettles
    rw [latch_perform hact, health_perform hact (by rw [hQ.1, hup])]
    exact hQ

theorem SupervisorPc.skip_of_lockWait {pc' : SupervisorPc}
    (h : SupervisorPc.lockWait.step sh lockFree .go = some (act, pc')) : act = .skip := by
  cases lockFree <;> cases h
  rfl

/-- **A failed or obsolete attempt leaves no trace**: from the lock it takes to its release nothing is
committed, and an adapter that was recovered before the outcome keeps its health and its latch. -/
theorem failed_attempt_leaves_no_trace {s s₁ s₂ : HttpState} {i : Nat} {r : AttemptEnd}
    (h : httpAdapter.system.Reachable s) (hi : s.threads[i]? = some (.supervisor .lockWait))
    (hlock : httpAdapter.system.step s (.run i .go) = some s₁)
    (hrun : (httpAdapter.system.startingAt s₁).ReachableWhile (fun s a => attempting i s a = true) s₂)
    (hend : s₂.threads[i]? = some (.supervisor (.unlock r))) (hr : r ≠ .completed) :
    s₂.shared.committed = s.shared.committed ∧
      ∀ s', (httpAdapter.system.startingAt s₁).ReachableWhile (fun s a => attemptUndisturbed i s a = true) s' →
        attemptAt (·.pending) i s' = true → isUnhealthy s'.shared.health = false →
        (httpAdapter.system.startingAt s').ReachableWhile (fun s a => attemptUndisturbed i s a = true) s₂ →
        s₂.shared.health = s'.shared.health ∧
          s₂.shared.permanentHandshakeFailure = s.shared.permanentHandshakeFailure := by
  have hreach := h.step hlock
  have hshared : s₁.shared = s.shared := by
    obtain ⟨t, sh, t', new, ht, hthread, rfl⟩ := Pool.next_run hlock
    obtain ⟨act, hsteps, rfl⟩ := httpAdapter_steps hthread
    rw [hi] at ht
    cases ht
    cases hsteps with
    | supervisor hown =>
      rw [SupervisorPc.skip_of_lockWait hown]
      rfl
  have huncommitted : attemptAt (·.uncommitted) i s₂ = true := by
    refine attemptAt_iff.2 ⟨_, hend, ?_⟩
    show decide (r ≠ .completed) = true
    exact decide_eq_true hr
  rw [← hshared]
  refine ⟨attempt_commits_nothing hreach hrun huncommitted, fun s' hrun' hpending hup hrun₂ => ?_⟩
  obtain ⟨hhealth, hlatch⟩ :=
    attempt_keeps_recovery (hreach.startingAt hrun') hup hrun₂ huncommitted
  exact ⟨hhealth, hlatch.trans (attempt_keeps_latch hreach hrun' hpending)⟩

def untilLockWait : List HttpAction := initializesWell 0 "s1" ++ threeDie 2 ++ goes 1 6

/-- The attempt sends its `initialize`, and a request recovers the adapter meanwhile. -/
def recoversMeanwhile : List HttpAction :=
  goes 1 2 ++ [.run 1 (.probe .legacy)] ++ goes 1 3 ++ recoversIt 5 1

def attemptFails : List HttpAction := [.run 1 (.initialized (.status 404 "gone"))] ++ goes 1 2

/-- The recovered adapter stays healthy, and is not latched by the 404. -/
theorem attempt_fails_after_recovery :
    ∃ s s₁ s' s₂, httpAdapter.system.run ⟨.new, []⟩ untilLockWait = some s ∧
      httpAdapter.system.step s (.run 1 .go) = some s₁ ∧
      httpAdapter.system.runWhile (attemptUndisturbed 1) s₁ recoversMeanwhile = some s' ∧
      httpAdapter.system.runWhile (attemptUndisturbed 1) s' attemptFails = some s₂ ∧
      s'.shared.health = .healthy ∧ s₂.shared.committed = s.shared.committed ∧
        s₂.shared.health = s'.shared.health ∧
          s₂.shared.permanentHandshakeFailure = s.shared.permanentHandshakeFailure := by
  obtain ⟨s, s₁, s', s₂, hrun, hi, hlock, hrun', hrun₂, hall, hpending, hhealth, hend⟩ :
      ∃ s s₁ s' s₂, httpAdapter.system.run ⟨.new, []⟩ untilLockWait = some s ∧
        s.threads[1]? = some (.supervisor .lockWait) ∧
        httpAdapter.system.step s (.run 1 .go) = some s₁ ∧
        httpAdapter.system.runWhile (attemptUndisturbed 1) s₁ recoversMeanwhile = some s' ∧
        httpAdapter.system.runWhile (attemptUndisturbed 1) s' attemptFails = some s₂ ∧
        httpAdapter.system.runWhile (attempting 1) s₁ (recoversMeanwhile ++ attemptFails) = some s₂ ∧
        attemptAt (·.pending) 1 s' = true ∧ s'.shared.health = .healthy ∧
          s₂.threads[1]? = some (.supervisor (.unlock .standDown)) :=
    ⟨_, _, _, _, rfl, rfl, rfl, rfl, rfl, rfl, rfl, rfl, rfl⟩
  obtain ⟨hcommitted, hrecovered⟩ := failed_attempt_leaves_no_trace
    (System.Reachable.run (.init httpAdapter_init) hrun) hi hlock
    (System.startingAt_run (fun _ _ h => h) hall) hend (by decide)
  obtain ⟨hh, hl⟩ := hrecovered s'
    (System.startingAt_run (fun _ _ h => h) hrun') hpending
    (by rw [hhealth]; rfl)
    (System.startingAt_run (fun _ _ h => h) hrun₂)
  exact ⟨s, s₁, s', s₂, hrun, hlock, hrun', hrun₂, hhealth, hcommitted, hh, hl⟩

end EndaraRelay.Http
