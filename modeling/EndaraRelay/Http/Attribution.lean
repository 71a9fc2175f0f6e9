import EndaraRelay.Http.Outages

/-!
# Tool lists and recovery epochs

`list_tools_tracked` reads the generation before its request and may credit its answer to the next one.
`TrackedPc.Attributed` follows what it read through the request: the generation that it will report is of
an outage that had begun by the time the upstream answered.
-/

namespace EndaraRelay.Http

open Verif

/-! ## The log over time -/

/-- The log when it had `n` entries. -/
def logAt (n : Nat) (log : List HttpEvent) : List HttpEvent := log.drop (log.length - n)

@[simp] theorem logAt_length (log : List HttpEvent) : logAt log.length log = log := by
  unfold logAt
  rw [Nat.sub_self, List.drop_zero]

/-- What the log once was does not depend on what came later. -/
theorem logAt_of_suffix {n : Nat} {log later : List HttpEvent} (h : n ≤ log.length)
    (hsuffix : log.IsSuffix later) : logAt n later = logAt n log := by
  obtain ⟨events, rfl⟩ := hsuffix
  unfold logAt
  rw [List.length_append, Nat.add_sub_assoc h, List.drop_length_add_append]

theorem outagesBegun_le_of_suffix {log later : List HttpEvent} (hsuffix : log.IsSuffix later) :
    outagesBegun log ≤ outagesBegun later := by
  obtain ⟨events, rfl⟩ := hsuffix
  induction events with
  | nil => exact Nat.le_refl _
  | cons event events ih => exact Nat.le_add_right_of_le ih

theorem log_installListener (sh : HttpAdapter) (sessionId : Option String) :
    sh.log.IsSuffix (sh.installListener sessionId).log := by
  unfold HttpAdapter.installListener
  split
  · exact List.suffix_refl _
  · exact List.suffix_cons _ _

theorem log_markHealthyLocked (sh : HttpAdapter) : sh.log.IsSuffix sh.markHealthyLocked.log :=
  (List.suffix_cons _ _).trans (List.suffix_append _ _)

theorem log_perform (sh : HttpAdapter) (act : Act) : sh.log.IsSuffix (sh.perform act).log := by
  cases act with
  | noteRequestSuccess =>
    simp only [HttpAdapter.perform, HttpAdapter.noteRequestSuccess]
    split
    · exact (List.suffix_cons _ _).trans (List.suffix_cons _ _)
    · exact List.suffix_refl _
  | noteTransportFailure =>
    simp only [HttpAdapter.perform, HttpAdapter.noteTransportFailure]
    split
    · exact List.suffix_cons _ _
    · split <;> exact List.suffix_refl _
  | setHandshakeUnhealthy reason permanent supervisorAttempt =>
    simp only [HttpAdapter.perform, HttpAdapter.setHandshakeUnhealthy]
    split
    · exact List.suffix_refl _
    · exact List.suffix_cons _ _
  | commit2026Handshake identity =>
    have h2026 := log_installListener
      { sh.commitServerIdentity identity with upstreamDialect := .v20260728, sessionId := none } none
    exact h2026.trans (log_markHealthyLocked _)
  | markHandshakeHealthy => exact log_markHealthyLocked sh
  | installListener sessionId => exact log_installListener sh sessionId
  | beginInitialize => exact List.suffix_cons _ _
  | setStopped => exact List.suffix_cons _ _
  | sendTick => exact List.suffix_cons _ _
  | drainListener | listenerEnded => exact perform_onTask (sh.log.IsSuffix ·.log) rfl fun _ _ => List.suffix_refl _
  | _ => exact List.suffix_refl _

/-! ## A session stays -/

/-- A recovery has left the adapter with a session. -/
def HttpAdapter.Sessioned (sh : HttpAdapter) : Prop :=
  sh.recoveryGeneration ≠ 0 → sh.handshakeCompleted = true

variable {sh : HttpAdapter} {act : Act} {pc : TrackedPc} {f : Flight} {lockFree : Bool}
  {c : HttpChoice}

theorem handshakeCompleted_perform (hact : act ≠ .clearHandshakeCompleted)
    (h : sh.handshakeCompleted = true) : (sh.perform act).handshakeCompleted = true := by
  cases act with
  | clearHandshakeCompleted => exact absurd rfl hact
  | noteRequestSuccess | noteTransportFailure | setHandshakeUnhealthy =>
    exact perform_onHealth (·.handshakeCompleted = true) rfl fun _ _ _ _ _ => h
  | commit2026Handshake identity => rfl
  | markHandshakeHealthy => rfl
  | installListener sessionId =>
    simp only [HttpAdapter.perform, HttpAdapter.installListener]
    split <;> exact h
  | drainListener | listenerEnded => exact perform_onTask (·.handshakeCompleted = true) rfl fun _ _ => h
  | _ => exact h

theorem HttpAdapter.Sessioned.perform (h : sh.Sessioned) (hact : act ≠ .clearHandshakeCompleted) :
    (sh.perform act).Sessioned := by
  intro hgen
  rw [generation_perform] at hgen
  by_cases hadvances : act.advances sh = true
  · cases act with
    | noteRequestSuccess =>
      refine handshakeCompleted_perform (fun h => by cases h) ?_
      exact (Bool.and_eq_true_iff.1 hadvances).1
    | commit2026Handshake identity => rfl
    | markHandshakeHealthy => rfl
    | _ => cases hadvances
  · rw [Bool.not_eq_true] at hadvances
    rw [hadvances] at hgen
    exact handshakeCompleted_perform hact (h hgen)

/-! ## What a request will report -/

/-- The latest generation that the answer may be credited to. -/
def Dispatch.latest (d : Dispatch) : Nat := d.generationBefore + d.dispatchedUnhealthy.toNat

theorem Dispatch.generation_le (d : Dispatch) (recoveredTo : Option Nat) :
    d.generation recoveredTo ≤ d.latest := by
  unfold Dispatch.generation Dispatch.latest
  cases recoveredTo with
  | none => exact Nat.le_add_right _ _
  | some flippedTo =>
    dsimp only
    split
    · next hflipped =>
      rw [hflipped.1]
      exact Nat.le_of_eq hflipped.2
    · exact Nat.le_add_right _ _

/-- What `list_tools_tracked` has read, as long as the upstream has not answered. -/
def TrackedPc.dispatch : TrackedPc → Option Dispatch
  | .dispatched d => some d
  | .inFlight d => d
  | _ => none

def TrackedPc.flight : TrackedPc → Option Flight
  | .succeeded f | .repairing f _ | .replacing f _ _ | .notifying f _ | .ticking f _ => some f
  | _ => none

/-- When the upstream answered, the outage of any generation that may be reported had begun. -/
def Flight.Attributed (f : Flight) (log : List HttpEvent) : Prop :=
  f.answeredAt ≤ log.length ∧
    ∀ d, f.dispatch = some d → d.latest ≤ outagesBegun (logAt f.answeredAt log)

structure TrackedPc.Attributed (sh : HttpAdapter) (pc : TrackedPc) : Prop where
  dispatch : ∀ d, pc.dispatch = some d →
    d.generationBefore ≤ sh.recoveryGeneration ∧ d.latest ≤ outagesBegun sh.log
  flight : ∀ f, pc.flight = some f → f.Attributed sh.log
  returned : ∀ answeredAt generation, pc = .returned answeredAt (some generation) →
    generation = 0 ∨ ∃ n, answeredAt = some n ∧ n ≤ sh.log.length ∧
      generation ≤ outagesBegun (logAt n sh.log)

namespace TrackedPc.Attributed

variable {sh : HttpAdapter}

theorem of_idle (hdispatch : pc.dispatch = none) (hflight : pc.flight = none)
    (hpc : ∀ answeredAt generation, pc ≠ .returned answeredAt generation) : pc.Attributed sh := by
  refine ⟨fun d hd => ?_, fun f hf => ?_, fun answeredAt generation h => absurd h (hpc _ _)⟩
  · rw [hdispatch] at hd
    cases hd
  · rw [hflight] at hf
    cases hf

theorem of_dispatch {d : Dispatch}
    (hd : d.generationBefore ≤ sh.recoveryGeneration ∧ d.latest ≤ outagesBegun sh.log)
    (hdispatch : pc.dispatch = some d) (hflight : pc.flight = none)
    (hpc : ∀ answeredAt generation, pc ≠ .returned answeredAt generation) : pc.Attributed sh := by
  refine ⟨fun d' hd' => ?_, fun f hf => ?_, fun answeredAt generation h => absurd h (hpc _ _)⟩
  · rw [hdispatch] at hd'
    cases hd'
    exact hd
  · rw [hflight] at hf
    cases hf

theorem of_flight (hf : f.Attributed sh.log) (hflight : pc.flight = some f)
    (hdispatch : pc.dispatch = none)
    (hpc : ∀ answeredAt generation, pc ≠ .returned answeredAt generation) : pc.Attributed sh := by
  refine ⟨fun d hd => ?_, fun f' hf' => ?_, fun answeredAt generation h => absurd h (hpc _ _)⟩
  · rw [hdispatch] at hd
    cases hd
  · rw [hflight] at hf'
    cases hf'
    exact hf

theorem of_returned {answeredAt generation : Option Nat}
    (h : ∀ g, generation = some g → g = 0 ∨ ∃ n, answeredAt = some n ∧ n ≤ sh.log.length ∧
      g ≤ outagesBegun (logAt n sh.log)) : (TrackedPc.returned answeredAt generation).Attributed sh := by
  refine ⟨fun d hd => ?_, fun f hf => ?_, fun answeredAt' g hpc => ?_⟩
  · cases hd
  · cases hf
  · cases hpc
    exact h g rfl

/-- Other threads and later acts do not disturb it. -/
theorem perform (h : pc.Attributed sh) (act : Act) : pc.Attributed (sh.perform act) := by
  have hsuffix := log_perform sh act
  refine ⟨fun d hd => ?_, fun f hf => ?_, fun answeredAt generation hpc => ?_⟩
  · obtain ⟨hgen, hlatest⟩ := h.dispatch d hd
    refine ⟨?_, Nat.le_trans hlatest (outagesBegun_le_of_suffix hsuffix)⟩
    rw [generation_perform]
    exact Nat.le_add_right_of_le hgen
  · obtain ⟨hle, hlatest⟩ := h.flight f hf
    refine ⟨Nat.le_trans hle hsuffix.length_le, fun d hd => ?_⟩
    rw [logAt_of_suffix hle hsuffix]
    exact hlatest d hd
  · obtain hzero | ⟨n, hn, hle, hgen⟩ := h.returned _ _ hpc
    · exact .inl hzero
    · refine .inr ⟨n, hn, Nat.le_trans hle hsuffix.length_le, ?_⟩
      rw [logAt_of_suffix hle hsuffix]
      exact hgen

/-- A request returns what it may report. -/
theorem of_return (hf : f.Attributed sh.log) (recoveredTo : Option Nat) :
    (f.return recoveredTo).Attributed sh := by
  refine of_returned fun g hg => .inr ⟨f.answeredAt, rfl, hf.1, ?_⟩
  obtain ⟨d, hd, rfl⟩ := Option.map_eq_some_iff.1 hg
  exact Nat.le_trans (d.generation_le recoveredTo) (hf.2 d hd)

theorem accounted (hf : f.Attributed sh.log) : (TrackedPc.accounted sh f).Attributed sh := by
  unfold TrackedPc.accounted
  split
  · exact of_flight hf rfl rfl fun _ _ h => by cases h
  · split
    · exact of_flight hf rfl rfl fun _ _ h => by cases h
    · exact TrackedPc.Attributed.of_return hf none

end TrackedPc.Attributed

/-- **Each step of a request keeps the attribution.** -/
theorem TrackedPc.attributed_of_step {pc pc' : TrackedPc} (hbooks : Books sh)
    (hsessioned : sh.Sessioned) (h : pc.Attributed sh) (hstep : pc.step sh lockFree c = some (act, pc')) :
    pc'.Attributed sh := by
  revert hstep
  fun_cases TrackedPc.step sh lockFree pc c <;> intro hstep <;> cases hstep
  case case1 =>
    refine TrackedPc.Attributed.of_dispatch ⟨Nat.le_refl _, ?_⟩ rfl rfl fun _ _ h => by cases h
    show sh.recoveryGeneration + (isUnhealthy sh.health).toNat ≤ _
    rw [hbooks.begun, hbooks.down]
    unfold HttpAdapter.resumes
    cases isUnhealthy sh.health with
    | true => exact Nat.le_refl _
    | false => exact Nat.le_add_right _ _
  case case2 d =>
    obtain ⟨hgen, hlatest⟩ := h.dispatch d rfl
    split
    · next hearly =>
      refine TrackedPc.Attributed.of_returned fun g hg => ?_
      cases hg
      left
      by_contra hne
      have hcompleted := hsessioned (by omega)
      rw [hcompleted] at hearly
      simp at hearly
    · exact TrackedPc.Attributed.of_dispatch ⟨hgen, hlatest⟩ rfl rfl fun _ _ h => by cases h
  case case3 d =>
    refine TrackedPc.Attributed.of_flight ⟨Nat.le_refl _, fun d' hd' => ?_⟩ rfl rfl fun _ _ h => by cases h
    show d'.latest ≤ outagesBegun (logAt sh.log.length sh.log)
    rw [logAt_length]
    exact (h.dispatch d' hd').2
  case case6 f => exact TrackedPc.Attributed.accounted (h.flight f rfl)
  case case7 => split <;> exact TrackedPc.Attributed.of_idle rfl rfl fun _ _ h => by cases h
  case case9 f pc next =>
    cases hnext : next.2 with
    | none => exact TrackedPc.Attributed.of_return (h.flight f rfl) none
    | some pc' => exact TrackedPc.Attributed.of_flight (h.flight f rfl) rfl rfl fun _ _ h => by cases h
  case case10 f flippedTo pc next =>
    cases hnext : next.2 with
    | none => exact TrackedPc.Attributed.of_flight (h.flight f rfl) rfl rfl fun _ _ h => by cases h
    | some pc' => exact TrackedPc.Attributed.of_flight (h.flight f rfl) rfl rfl fun _ _ h => by cases h
  case case11 f flippedTo => exact TrackedPc.Attributed.of_flight (h.flight f rfl) rfl rfl fun _ _ h => by cases h
  case case12 f flippedTo => exact TrackedPc.Attributed.of_return (h.flight f rfl) _
  all_goals exact TrackedPc.Attributed.of_idle rfl rfl fun _ _ h => by cases h

theorem HttpOperation.attributed {ts : List HttpThread} {op : HttpOperation}
    (h : op.thread ts = some (.request pc)) (sh : HttpAdapter) : pc.Attributed sh := by
  revert h
  fun_cases HttpOperation.thread ts op <;> intro h <;> cases h <;>
    exact TrackedPc.Attributed.of_idle rfl rfl fun _ _ h => by cases h

theorem InitializePc.keepsSession {pc pc' : InitializePc} (h : pc.step sh lockFree c = some (act, pc')) :
    act ≠ .clearHandshakeCompleted := by
  revert h
  fun_cases InitializePc.step sh lockFree pc c <;> intro h
  case case7 pc _ =>
    obtain ⟨⟨act, pc'⟩, hstep, heq⟩ := Option.map_eq_some_iff.1 h
    cases heq
    obtain ⟨howner, -⟩ := HandshakePc.author_of_step hstep
    rintro rfl
    cases howner
  all_goals cases h
  all_goals
    intro h
    cases h

variable {s : HttpState}

theorem sessioned (h : httpAdapter.system.ReachableWhile (fun s a => unstopped s a = true) s) :
    s.shared.Sessioned := by
  refine Pool.invariant_of (P := httpAdapter) (I := Unstopped) (J := fun s => s.shared.Sessioned)
    (fun s hs => unstopped_of_run hs) ?_ ?_ ?_ h
  · rintro sh rfl
    exact fun hgen => absurd rfl hgen
  · intro s op t _ hJ _ _
    exact hJ
  · intro s i c t sh t' new hI hJ _ hi hstep
    obtain ⟨act, hsteps, rfl⟩ := httpAdapter_steps hstep
    refine hJ.perform ?_
    rintro rfl
    -- Only a shutdown drops the session.
    have howns := (hsteps.author (hI.streams t (List.mem_of_getElem? hi))).1 rfl
    cases hsteps with
    | initializing hthread => exact InitializePc.keepsSession hthread rfl
    | shutdown => exact hI.threads _ (List.mem_of_getElem? hi) _ rfl
    | _ => cases howns

theorem attributed (h : httpAdapter.system.ReachableWhile (fun s a => unstopped s a = true) s) :
    ∀ t ∈ s.threads, ∀ pc, t = .request pc → pc.Attributed s.shared := by
  refine Pool.forall_threads_of (P := httpAdapter)
    (I := fun s => (Carried s ∧ Books s.shared) ∧ s.shared.Sessioned)
    (L := fun sh t => ∀ pc, t = .request pc → pc.Attributed sh)
    (fun s hs => ⟨carried hs, sessioned hs⟩) ?_ ?_ ?_ h
  · rintro s op t _ ht pc rfl
    exact HttpOperation.attributed ht s.shared
  · intro s i c t sh t' new hI _ hi hL hstep
    obtain ⟨act, hsteps, rfl⟩ := httpAdapter_steps hstep
    refine ⟨?_, fun u hu => ?_⟩
    · rintro pc' rfl
      cases hsteps with
      | request hthread =>
        exact (TrackedPc.attributed_of_step hI.1.2 hI.2 (hL _ rfl) hthread).perform act
      | requestEnsures => exact TrackedPc.Attributed.of_idle rfl rfl fun _ _ h => by cases h
    · obtain ⟨rfl, -⟩ := hsteps.spawned u hu
      intro pc hpc
      cases hpc
  · intro s i c t sh t' new j u _ _ _ _ _ _ hL hstep
    obtain ⟨act, -, rfl⟩ := httpAdapter_steps hstep
    exact fun pc hpc => (hL pc hpc).perform act

/-- **Tool lists belong to the epoch they are reported for.** The outages alternate with the recoveries,
so that recovery `g` ends outage `g`; and a call that reports generation `g` was answered after outage `g`
had begun. -/
theorem tools_attributed (h : httpAdapter.system.ReachableWhile (fun s a => unstopped s a = true) s) :
    outagesBegun s.shared.log = s.shared.recoveryGeneration + (down s.shared.log).toNat ∧
      ∀ answeredAt g, .request (.returned answeredAt (some g)) ∈ s.threads →
        g = 0 ∨ ∃ n, answeredAt = some n ∧ n ≤ s.shared.log.length ∧
          g ≤ outagesBegun (logAt n s.shared.log) := by
  refine ⟨(carried h).2.begun, fun answeredAt g ht => ?_⟩
  exact (attributed h _ ht _ rfl).returned answeredAt g rfl

/-- A `tools/list` sent in an outage brings the adapter back, and is reported for the recovered epoch. -/
def listsInOutage : List HttpAction :=
  initializesWell 0 "s1" ++ threeDie 2 ++ [.launch .listToolsTracked] ++ goes 5 2 ++
    [.run 5 (.outcome .ok)] ++ goes 5 7

theorem tools_attributed_in_outage :
    ∃ s, httpAdapter.system.runWhile unstopped ⟨.new, []⟩ listsInOutage = some s ∧
      .request (.returned (some 4) (some 1)) ∈ s.threads ∧ 1 ≤ outagesBegun (logAt 4 s.shared.log) := by
  obtain ⟨s, hrun, hi⟩ :
      ∃ s, httpAdapter.system.runWhile unstopped ⟨.new, []⟩ listsInOutage = some s ∧
        s.threads[5]? = some (.request (.returned (some 4) (some 1))) :=
    ⟨_, rfl, rfl⟩
  have ht := List.mem_of_getElem? hi
  obtain hzero | ⟨n, hn, -, hbegun⟩ :=
    (tools_attributed (.run (fun _ _ h => h) (.init httpAdapter_init) hrun)).2 _ _ ht
  · cases hzero
  · cases hn
    exact ⟨s, hrun, ht, hbegun⟩

end EndaraRelay.Http
