import EndaraRelay.Http.Outages

/-!
# The failure counter

`health` and `transport_failures` are written under one lock, so that no success comes between the
counting of a failure and the demotion it leads to. A success resets the counter in any case, but brings
the adapter back only if it has a session: without one the adapter stays down, with the reason of failures
that are no longer counted (`stray_success_disagrees`).

**Theorem (`health_agrees`).** As long as no success is accounted on an adapter that is down by failing
requests and has no session, an adapter that is down by failing requests has counted at least
`TRANSPORT_FAILURE_THRESHOLD` of them since the last success.

**Recorded runs.** `Act` says what a step does to the shared state; `recorded` keeps the acts of a run, from
which the failures since the last success are counted without a look at the counter.
-/

namespace EndaraRelay.Http

open Verif

/-! ## Reasons -/

def upstreamUnreachable : String := "upstream unreachable"

inductive ServerNameError where
  | missing
  | empty
  | unsanitizable (raw : String)
  | tooLong (length : Nat)

/-- The `Display` of an error of `serverInfo.name`, where `debugFormat` writes a string by `{:?}`. -/
def ServerNameError.display (debugFormat : String → String) : ServerNameError → String
  | .missing => "server did not report `serverInfo.name` in initialize response"
  | .empty => "`serverInfo.name` was present but empty after trimming"
  | .unsanitizable raw => "`serverInfo.name` " ++ debugFormat raw ++ " reduced to empty after sanitization"
  | .tooLong length => "`serverInfo.name` length " ++ toString length ++ " exceeds 64-character limit"

theorem head_upstreamUnreachable : upstreamUnreachable.toList.head? = some 'u' := rfl

/-- What begins otherwise is not the reason of a demotion. -/
theorem append_ne {s t : String} {c : Char} (hs : s.toList.head? = some c) (hne : c ≠ 'u') :
    s ++ t ≠ upstreamUnreachable := by
  intro h
  have hhead := head_upstreamUnreachable
  rw [← h, String.toList_append, List.head?_append, hs] at hhead
  exact hne (Option.some.inj hhead)

/-- No other error reads like a demotion. -/
theorem displayError_ne (err : AdapterError) : displayError err ≠ upstreamUnreachable := by
  intro h
  unfold displayError at h
  cases err with
  | notInitialized => exact absurd h (by decide)
  | timeout | jsonRpcError | authenticationRequired | httpError =>
    simp only [String.append_assoc] at h
    exact append_ne rfl (by decide) h
  | _ => exact append_ne rfl (by decide) h

theorem ServerNameError.display_ne (debugFormat : String → String) (e : ServerNameError) :
    e.display debugFormat ≠ upstreamUnreachable := by
  intro h
  unfold ServerNameError.display at h
  cases e with
  | missing =>
    dsimp only at h
    exact absurd h (by decide)
  | empty =>
    dsimp only at h
    exact absurd h (by decide)
  | _ =>
    simp only [String.append_assoc] at h
    exact append_ne rfl (by decide) h

/-! ## Acts of a run -/

def HttpThread.act (sh : HttpAdapter) (ts : List HttpThread) (t : HttpThread) (c : HttpChoice) : Option Act :=
  (t.step sh ts c).map (·.1)

/-- What an action does to the shared state. -/
def actOf (s : HttpState) : HttpAction → Option Act
  | .launch _ => none
  | .run i c => s.threads[i]?.bind fun t => t.act s.shared s.threads c

/-- The adapter, with the acts of the run. -/
def recorded : System (HttpState × List Act) HttpAction := httpAdapter.system.recording actOf

/-- The failures accounted since the latest success that was. -/
def failuresSinceSuccess : List Act → Nat
  | [] => 0
  | .noteRequestSuccess :: _ => 0
  | .noteTransportFailure :: acts => failuresSinceSuccess acts + 1
  | _ :: acts => failuresSinceSuccess acts

/-- An adapter that is down by failing requests has counted enough of them since the latest success, and
has them still. -/
def Agrees (s : HttpState × List Act) : Prop :=
  s.1.shared.health = .unhealthy upstreamUnreachable →
    transportFailureThreshold ≤ s.1.shared.transportFailures ∧
      s.1.shared.transportFailures ≤ failuresSinceSuccess s.2

/-! ## What an act does to the counter -/

/-- The counter and the health belong together, and the counter to the acts. -/
structure Counted (sh : HttpAdapter) (acts : List Act) : Prop where
  counted : sh.transportFailures ≤ failuresSinceSuccess acts
  reached : sh.health = .unhealthy upstreamUnreachable → transportFailureThreshold ≤ sh.transportFailures

variable {acts : List Act} {lockFree : Bool} {s s' : HttpState × List Act} {a : HttpAction}

/-- Every act keeps them together but a success on an adapter without a session. -/
theorem Counted.perform {sh : HttpAdapter} (h : Counted sh acts) {act : Act}
    (hsuccess : act = .noteRequestSuccess →
      sh.handshakeCompleted = true ∨ sh.health ≠ .unhealthy upstreamUnreachable)
    (hreason : ∀ reason permanent supervisorAttempt,
      act = .setHandshakeUnhealthy reason permanent supervisorAttempt → reason ≠ upstreamUnreachable) :
    Counted (sh.perform act) (act :: acts) := by
  cases act with
  | noteRequestSuccess =>
    simp only [HttpAdapter.perform, HttpAdapter.noteRequestSuccess]
    split
    · exact ⟨Nat.zero_le _, fun hh => by cases hh⟩
    · next hrec =>
      refine ⟨Nat.zero_le _, fun hh => absurd ?_ hrec⟩
      have hsession := (hsuccess rfl).resolve_right (not_not_intro hh)
      unfold HttpAdapter.recovers
      rw [hsession, show sh.health = _ from hh]
      rfl
  | noteTransportFailure =>
    have hcounted : sh.transportFailures + 1 ≤ failuresSinceSuccess (.noteTransportFailure :: acts) :=
      Nat.succ_le_succ h.counted
    simp only [HttpAdapter.perform, HttpAdapter.noteTransportFailure]
    split
    · next hdemotes =>
      unfold HttpAdapter.demotes at hdemotes
      exact ⟨hcounted, fun _ => (of_decide_eq_true hdemotes).1⟩
    · split
      · next hdown => exact ⟨hcounted, fun _ => hdown.1⟩
      · exact ⟨hcounted, fun hh => Nat.le_succ_of_le (h.reached hh)⟩
  | setHandshakeUnhealthy reason permanent supervisorAttempt =>
    simp only [HttpAdapter.perform, HttpAdapter.setHandshakeUnhealthy]
    split
    · exact ⟨h.counted, h.reached⟩
    · refine ⟨h.counted, fun hh => absurd ?_ (hreason reason permanent supervisorAttempt rfl)⟩
      exact HealthStatus.unhealthy.inj hh
  | commit2026Handshake identity => exact ⟨Nat.zero_le _, fun hh => by cases hh⟩
  | markHandshakeHealthy => exact ⟨Nat.zero_le _, fun hh => by cases hh⟩
  | beginInitialize => exact ⟨h.counted, fun hh => by cases hh⟩
  | setStopped => exact ⟨h.counted, fun hh => by cases hh⟩
  | installListener sessionId =>
    simp only [HttpAdapter.perform, HttpAdapter.installListener]
    split <;> exact ⟨h.counted, h.reached⟩
  | drainListener | listenerEnded => exact perform_onTask (Counted · (_ :: acts)) rfl fun _ _ => ⟨h.counted, h.reached⟩
  | _ => exact ⟨h.counted, h.reached⟩

/-! ## The reasons of failed handshakes -/

section Named

variable (debugFormat : String → String)

/-- What is wrong with the name of the upstream is one of the errors there are. -/
def ProbeAnswer.Named : ProbeAnswer → Prop
  | .modern (.error msg) => ∃ e : ServerNameError, msg = e.display debugFormat
  | _ => True

def InitializeAnswer.Named : InitializeAnswer → Prop
  | .result _ (.error msg) _ => ∃ e : ServerNameError, msg = e.display debugFormat
  | _ => True

def HttpChoice.Named : HttpChoice → Prop
  | .probe a => a.Named debugFormat
  | .initialized a => a.Named debugFormat
  | _ => True

/-- The handshake fails for no reason but those of handshakes. -/
def HandshakePc.Told : HandshakePc → Prop
  | .entered a => a.Named debugFormat
  | .failing reason _ => reason ≠ upstreamUnreachable
  | _ => True

def HttpThread.Told : HttpThread → Prop
  | .supervisor (.probed a) => a.Named debugFormat
  | .supervisor (.handshake pc) => pc.Told debugFormat
  | .initializing (.handshake pc) => pc.Told debugFormat
  | _ => True

end Named

section Told

variable {debugFormat : String → String} {sh : HttpAdapter} {ts new : List HttpThread} {t t' : HttpThread}
  {c : HttpChoice} {act : Act}

/-- The reason is no demotion's. -/
def Act.OtherReason (act : Act) : Prop :=
  ∀ reason permanent supervisorAttempt, act = .setHandshakeUnhealthy reason permanent supervisorAttempt →
    reason ≠ upstreamUnreachable

theorem InitializeAnswer.told_next {a : InitializeAnswer} (h : a.Named debugFormat) :
    a.next.Told debugFormat := by
  cases a with
  | result sessionId identity dialect =>
    cases identity with
    | ok identity => trivial
    | error msg =>
      obtain ⟨e, rfl⟩ := h
      exact e.display_ne debugFormat
  | _ => exact displayError_ne _

theorem HandshakePc.told_of_step {pc pc' : HandshakePc} {supervisorAttempt : Bool}
    (h : pc.step sh supervisorAttempt c = some (act, pc')) (hc : c.Named debugFormat)
    (hpc : pc.Told debugFormat) : pc'.Told debugFormat ∧ act.OtherReason := by
  revert h
  fun_cases HandshakePc.step sh supervisorAttempt pc c <;> intro h <;> cases h
  case case1 msg =>
    obtain ⟨e, rfl⟩ := hpc
    exact ⟨e.display_ne debugFormat, fun _ _ _ hact => by cases hact⟩
  case case4 reason err =>
    refine ⟨trivial, fun _ _ _ hact => ?_⟩
    cases hact
    exact hpc
  case case8 a => exact ⟨InitializeAnswer.told_next hc, fun _ _ _ hact => by cases hact⟩
  case case7 =>
    refine ⟨?_, fun _ _ _ hact => by cases hact⟩
    split <;> trivial
  all_goals
    refine ⟨trivial, fun _ _ _ hact => ?_⟩
    first | cases hact | (split at hact <;> cases hact)

theorem ReplacePc.otherReason (sh : HttpAdapter) (repair lockFree : Bool) (pc : ReplacePc) :
    (pc.step sh repair lockFree).1.OtherReason := by
  intro reason permanent supervisorAttempt hact
  cases pc <;> cases hact

theorem TrackedPc.otherReason_of_step {pc pc' : TrackedPc} (h : pc.step sh lockFree c = some (act, pc')) :
    act.OtherReason := by
  revert h
  fun_cases TrackedPc.step sh lockFree pc c <;> intro h <;> cases h
  case case9 pc _ => exact ReplacePc.otherReason sh true lockFree pc
  case case10 pc _ => exact ReplacePc.otherReason sh false lockFree pc
  all_goals
    intro _ _ _ hact
    cases hact

theorem SupervisorPc.told_of_step {pc pc' : SupervisorPc} (h : pc.step sh lockFree c = some (act, pc'))
    (hc : c.Named debugFormat) (hpc : (HttpThread.supervisor pc).Told debugFormat) :
    (HttpThread.supervisor pc').Told debugFormat ∧ act.OtherReason := by
  revert h
  fun_cases SupervisorPc.step sh lockFree pc c <;> intro h
  case case24 pc _ =>
    obtain ⟨⟨act, pc'⟩, hstep, heq⟩ := Option.map_eq_some_iff.1 h
    cases heq
    exact HandshakePc.told_of_step hstep hc hpc
  case case31 pc next =>
    cases h
    refine ⟨?_, ReplacePc.otherReason sh false lockFree pc⟩
    cases next.2 <;> trivial
  all_goals cases h
  case case20 a => exact ⟨hc, fun _ _ _ hact => by cases hact⟩
  case case22 a =>
    refine ⟨?_, fun _ _ _ hact => by cases hact⟩
    split
    · exact hpc
    · trivial
  all_goals
    refine ⟨?_, fun _ _ _ hact => by cases hact⟩
    first | trivial | (split <;> trivial)

theorem InitializePc.told_of_step {pc pc' : InitializePc} (h : pc.step sh lockFree c = some (act, pc'))
    (hc : c.Named debugFormat) (hpc : (HttpThread.initializing pc).Told debugFormat) :
    (HttpThread.initializing pc').Told debugFormat ∧ act.OtherReason := by
  revert h
  fun_cases InitializePc.step sh lockFree pc c <;> intro h
  case case7 pc _ =>
    obtain ⟨⟨act, pc'⟩, hstep, heq⟩ := Option.map_eq_some_iff.1 h
    cases heq
    exact HandshakePc.told_of_step hstep hc hpc
  all_goals cases h
  case case5 a => exact ⟨hc, fun _ _ _ hact => by cases hact⟩
  all_goals
    refine ⟨?_, fun _ _ _ hact => by cases hact⟩
    first | trivial | (split <;> trivial)

/-- **A failed handshake does not pass for a demotion.** -/
theorem HttpThread.Steps.told (h : HttpThread.Steps sh ts c t act t' new) (hstreams : t.Streams)
    (hc : c.Named debugFormat) (ht : t.Told debugFormat) : t'.Told debugFormat ∧ act.OtherReason := by
  cases h with
  | supervisor hstep => exact SupervisorPc.told_of_step hstep hc ht
  | initializing hstep => exact InitializePc.told_of_step hstep hc ht
  | shutdown hstep =>
    refine ⟨trivial, ?_⟩
    rintro reason permanent supervisorAttempt rfl
    cases (ShutdownPc.author_of_step hstep).2
  | request hstep => exact ⟨trivial, TrackedPc.otherReason_of_step hstep⟩
  | stream =>
    refine ⟨trivial, ?_⟩
    rintro reason permanent supervisorAttempt rfl
    cases hstreams
  | _ => exact ⟨trivial, fun _ _ _ hact => by cases hact⟩

end Told

/-! ## Runs -/

theorem recorded_launch {s : HttpState} {op : HttpOperation}
    (h : recorded.step (s, acts) (.launch op) = some s') :
    ∃ t, op.thread s.threads = some t ∧ s' = ({ s with threads := s.threads ++ [t] }, acts) := by
  obtain ⟨_, hst, rfl⟩ := Option.map_eq_some_iff.1 h
  obtain ⟨t, ht, rfl⟩ := Pool.next_launch hst
  exact ⟨t, ht, rfl⟩

theorem recorded_run {s : HttpState} {i : Nat} {c : HttpChoice}
    (h : recorded.step (s, acts) (.run i c) = some s') :
    ∃ t t' new act, s.threads[i]? = some t ∧ HttpThread.Steps s.shared s.threads c t act t' new ∧
      actOf s (.run i c) = some act ∧
      s' = (⟨s.shared.perform act, Pool.stepped s.threads i t' new⟩, act :: acts) := by
  obtain ⟨_, hst, rfl⟩ := Option.map_eq_some_iff.1 h
  obtain ⟨t, sh, t', new, hi, hstep, rfl⟩ := Pool.next_run hst
  change s.threads[i]? = some t at hi
  obtain ⟨⟨act, t', new⟩, hthread, heq⟩ := Option.map_eq_some_iff.1 hstep
  cases heq
  have hact : actOf s (.run i c) = some act := by
    show s.threads[i]?.bind (fun t => (t.step s.shared s.threads c).map (·.1)) = _
    rw [hi]
    show (t.step s.shared s.threads c).map (·.1) = _
    rw [hthread]
    rfl
  refine ⟨t, t', new, act, hi, HttpThread.steps hthread, hact, ?_⟩
  dsimp only
  rw [hact]
  rfl

theorem recorded_streams {ok : HttpState → HttpAction → Prop} {s : HttpState × List Act}
    (h : recorded.ReachableWhile (fun s a => ok s.1 a) s) : ∀ t ∈ s.1.threads, t.Streams :=
  streams (System.ReachableWhile.of_recording h)

def HttpAction.Named (debugFormat : String → String) : HttpAction → Prop
  | .launch _ => True
  | .run _ c => c.Named debugFormat

/-- A success is accounted on an adapter with a session, or on one that is not down by failing requests. -/
def AccountedWithSession (s : HttpState) (a : HttpAction) : Prop :=
  actOf s a = some .noteRequestSuccess →
    s.shared.handshakeCompleted = true ∨ s.shared.health ≠ .unhealthy upstreamUnreachable

theorem counted {debugFormat : String → String} (h : recorded.ReachableWhile
      (fun s a => AccountedWithSession s.1 a ∧ HttpAction.Named debugFormat a) s) :
    (∀ t ∈ s.1.threads, t.Told debugFormat) ∧ Counted s.1.shared s.2 := by
  refine System.ReachableWhile.invariant_of (J := fun s => ∀ t ∈ s.1.threads, t.Streams)
    (P := fun s => (∀ t ∈ s.1.threads, t.Told debugFormat) ∧ Counted s.1.shared s.2)
    (fun s hs => @recorded_streams (fun s a => AccountedWithSession s a ∧ HttpAction.Named debugFormat a) s hs)
    ?_ ?_ h
  · rintro ⟨⟨sh, ts⟩, acts⟩ ⟨⟨hsh, hts⟩, hacts⟩
    cases hsh
    cases hts
    cases hacts
    refine ⟨fun t ht => ?_, Nat.le_refl 0, fun hh => ?_⟩
    · cases ht
    · cases hh
  · rintro ⟨s, acts⟩ a s' hstreams ⟨htold, hcounted⟩ ⟨hsession, hnamed⟩ hst
    cases a with
    | launch op =>
      obtain ⟨t, ht, rfl⟩ := recorded_launch hst
      refine ⟨fun u hu => ?_, hcounted⟩
      rcases List.mem_append.1 hu with hu | hu
      · exact htold u hu
      · rw [List.mem_singleton.1 hu]
        revert ht
        fun_cases HttpOperation.thread s.threads op <;> intro ht <;> cases ht <;> trivial
    | run i c =>
      obtain ⟨t, t', new, act, hi, hsteps, hact, rfl⟩ := recorded_run hst
      have hmem := List.mem_of_getElem? hi
      obtain ⟨htold', hother⟩ := hsteps.told (hstreams t hmem) hnamed (htold t hmem)
      refine ⟨Pool.forall_mem_stepped htold' (fun u hu => ?_) fun j u _ hj => ?_,
        hcounted.perform (fun h => hsession (h ▸ hact)) hother⟩
      · obtain ⟨rfl, -⟩ := hsteps.spawned u hu
        trivial
      · exact htold u (List.mem_of_getElem? hj)

/-- **The health agrees with the counter** on every run that accounts no success on an adapter which is down
by failing requests and has no session. -/
theorem health_agrees {debugFormat : String → String} {s : HttpState × List Act}
    (h : recorded.ReachableWhile
      (fun s a => AccountedWithSession s.1 a ∧ HttpAction.Named debugFormat a) s) : Agrees s := by
  obtain ⟨-, hcounted⟩ := counted h
  exact fun hdown => ⟨hcounted.reached hdown, hcounted.counted⟩

/-! ## Schedules -/

def HttpChoice.wellNamed : HttpChoice → Bool
  | .probe (.modern (.error _)) | .initialized (.result _ (.error _) _) => false
  | _ => true

def HttpAction.wellNamed : HttpAction → Bool
  | .launch _ => true
  | .run _ c => c.wellNamed

/-- Nor is a success accounted where it does harm. -/
def accountsWithSession (s : HttpState × List Act) (a : HttpAction) : Bool :=
  HttpAction.wellNamed a &&
    match actOf s.1 a with
    | some .noteRequestSuccess =>
      s.1.shared.handshakeCompleted || s.1.shared.health != .unhealthy upstreamUnreachable
    | _ => true

theorem HttpAction.named_of_wellNamed (h : HttpAction.wellNamed a = true) : HttpAction.Named id a := by
  cases a with
  | launch op => trivial
  | run i c =>
    cases c with
    | probe a =>
      cases a with
      | modern identity => cases identity <;> trivial
      | legacy => trivial
    | initialized a =>
      cases a with
      | result sessionId identity dialect => cases identity <;> trivial
      | _ => trivial
    | _ => trivial

theorem accountedWithSession_of_check (h : accountsWithSession s a = true) :
    AccountedWithSession s.1 a ∧ HttpAction.Named id a := by
  obtain ⟨hnamed, hsession⟩ := Bool.and_eq_true_iff.1 h
  refine ⟨fun hact => ?_, HttpAction.named_of_wellNamed hnamed⟩
  rw [hact] at hsession
  simpa using hsession

theorem recorded_init : recorded.init (⟨.new, []⟩, []) := ⟨httpAdapter_init, rfl⟩

theorem health_agrees_threeDie :
    ∃ s, recorded.runWhile accountsWithSession (⟨.new, []⟩, []) (initializesWell 0 "s1" ++ threeDie 2) = some s ∧
      s.1.shared.health = .unhealthy upstreamUnreachable ∧ 3 ≤ s.1.shared.transportFailures ∧
        s.1.shared.transportFailures ≤ failuresSinceSuccess s.2 := by
  obtain ⟨s, hrun, hdown⟩ :
      ∃ s, recorded.runWhile accountsWithSession (⟨.new, []⟩, []) (initializesWell 0 "s1" ++ threeDie 2) = some s ∧
        s.1.shared.health = .unhealthy upstreamUnreachable := ⟨_, rfl, rfl⟩
  have hreach := System.ReachableWhile.run (fun _ _ => accountedWithSession_of_check) (.init recorded_init) hrun
  exact ⟨s, hrun, hdown, health_agrees hreach hdown⟩

/-- Such a success leaves the adapter down, with nothing counted. -/
theorem stray_success_disagrees (hact : actOf s.1 a = some .noteRequestSuccess)
    (hsession : s.1.shared.handshakeCompleted = false)
    (hdown : s.1.shared.health = .unhealthy upstreamUnreachable) (h : recorded.step s a = some s') :
    ¬ Agrees s' := by
  cases a with
  | launch op => cases hact
  | run i c =>
    obtain ⟨t, t', new, act, -, -, hact', rfl⟩ := recorded_run h
    obtain rfl : act = .noteRequestSuccess := Option.some.inj (hact'.symm.trans hact)
    have hrec : s.1.shared.recovers = false := by
      unfold HttpAdapter.recovers
      rw [hsession]
      rfl
    intro hagrees
    have hsh : s.1.shared.perform .noteRequestSuccess = { s.1.shared with transportFailures := 0 } := by
      simp [HttpAdapter.perform, HttpAdapter.noteRequestSuccess, hrec]
    have := (hagrees (by simp only [hsh, hdown])).1
    simp only [hsh] at this
    cases this

/-- An `initialize` fails, three requests die, and the upstream answers the next one. -/
def straySuccess : List HttpAction :=
  failsToInitialize 0 ++ diesOnTheWay 2 ++ diesOnTheWay 3 ++ diesOnTheWay 4 ++
    [.launch .sendRequest, .run 5 (.outcome .ok)]

theorem health_disagrees :
    ¬ ∀ s, recorded.ReachableWhile (fun _ a => HttpAction.Named id a) s → Agrees s := by
  intro h
  obtain ⟨s, s', hrun, hact, hsession, hdown, hstep⟩ :
      ∃ s s', recorded.runWhile (fun _ a => HttpAction.wellNamed a) (⟨.new, []⟩, []) straySuccess = some s ∧
        actOf s.1 (.run 5 .go) = some .noteRequestSuccess ∧ s.1.shared.handshakeCompleted = false ∧
        s.1.shared.health = .unhealthy upstreamUnreachable ∧ recorded.step s (.run 5 .go) = some s' :=
    ⟨_, _, rfl, rfl, rfl, rfl, rfl⟩
  have hreach := System.ReachableWhile.run (fun _ _ => HttpAction.named_of_wellNamed) (.init recorded_init) hrun
  exact stray_success_disagrees hact hsession hdown hstep (h s' (.step (a := .run 5 .go) hreach trivial hstep))

end EndaraRelay.Http
