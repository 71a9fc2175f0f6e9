import Mathlib.Data.List.Count
import EndaraRelay.Http.Exclusion

/-!
# Outages

An outage begins when the adapter goes down and ends when a request or a handshake brings it back; an
`initialize` carries it across `Starting` by `initialize_from_unhealthy`. `Books` says how the log, the
generation and the flag belong together, and every act keeps it as long as the flag is touched by
nobody but the `initialize` that set it (`Carried`).
-/

namespace EndaraRelay.Http

open Verif

/-! ## Outages in the log -/

def down : List HttpEvent → Bool
  | [] => false
  | .demoted _ :: _ | .failed _ :: _ => true
  | .succeeded :: _ | .flipped :: _ | .stopped :: _ => false
  | _ :: log => down log

/-- The event begins an outage. -/
def begins (event : HttpEvent) (log : List HttpEvent) : Bool := down (event :: log) && !down log

def outagesBegun : List HttpEvent → Nat
  | [] => 0
  | event :: log => outagesBegun log + (begins event log).toNat

/-- How often the generation has advanced since the latest outage began. -/
def advancesSince : List HttpEvent → Nat
  | [] => 0
  | event :: log =>
    if begins event log then 0 else advancesSince log + if event = .advanced then 1 else 0

/-- What the log, the health and the generation say of the outages. -/
structure Books (sh : HttpAdapter) : Prop where
  down : down sh.log = sh.resumes
  advances : sh.log.count .advanced = sh.recoveryGeneration
  begun : outagesBegun sh.log = sh.recoveryGeneration + (Http.down sh.log).toNat
  since : advancesSince sh.log =
    if Http.down sh.log = true ∨ sh.recoveryGeneration = 0 then 0 else 1

variable {sh sh' : HttpAdapter} {act : Act} {t t' : HttpThread} {lockFree : Bool} {c : HttpChoice}
  {new ts : List HttpThread}

namespace Books

variable {sh : HttpAdapter}

/-- An event that neither ends nor begins an outage. -/
theorem cons_of_idle (h : Books sh) (event : HttpEvent) (hdown : Http.down (event :: sh.log) = Http.down sh.log)
    (hne : event ≠ .advanced) : Books { sh with log := event :: sh.log } := by
  have hbegins : begins event sh.log = false := by
    unfold begins
    rw [hdown]
    exact Bool.and_not_self _
  refine ⟨hdown.trans h.down, ?_, ?_, ?_⟩
  · show (event :: sh.log).count .advanced = _
    rw [List.count_cons_of_ne hne, h.advances]
  · show outagesBegun sh.log + (begins event sh.log).toNat = _ + (Http.down (event :: sh.log)).toNat
    rw [hbegins, hdown]
    exact h.begun
  · show (if begins event sh.log = true then 0 else _) = if Http.down (event :: sh.log) = true ∨ _ then 0 else 1
    rw [hbegins, hdown, if_neg hne]
    exact h.since

theorem fall (h : Books sh) (event : HttpEvent) (hdown : Http.down (event :: sh.log) = true)
    (hne : event ≠ .advanced) (hlog : sh'.log = event :: sh.log)
    (hgen : sh'.recoveryGeneration = sh.recoveryGeneration) (hresumes : sh'.resumes = true) :
    Books sh' := by
  have hdown' : Http.down sh'.log = true := by rw [hlog, hdown]
  refine ⟨hdown'.trans hresumes.symm, ?_, ?_, ?_⟩
  · rw [hlog, hgen, List.count_cons_of_ne hne, h.advances]
  · rw [hdown', hlog, hgen]
    show outagesBegun sh.log + (Http.down (event :: sh.log) && !Http.down sh.log).toNat = _
    rw [h.begun, hdown]
    cases Http.down sh.log <;> rfl
  · rw [if_pos (.inl hdown'), hlog]
    show (if begins event sh.log = true then 0 else advancesSince sh.log + ite _ _ _) = 0
    split
    · rfl
    · next hbegins =>
      have hd : Http.down sh.log = true := by
        unfold begins at hbegins
        rw [hdown] at hbegins
        simpa using hbegins
      simp [h.since, hd]

/-- The adapter comes back: an outage that was under way ends, and the generation advances. -/
theorem rise (h : Books sh) (event : HttpEvent) (hdown : Http.down (event :: sh.log) = false)
    (hne : event ≠ .advanced)
    (hlog : sh'.log = (if sh.resumes then [.advanced] else []) ++ event :: sh.log)
    (hgen : sh'.recoveryGeneration =
      if sh.resumes then sh.recoveryGeneration + 1 else sh.recoveryGeneration)
    (hresumes : sh'.resumes = false) : Books sh' := by
  have hbegins : begins event sh.log = false := by
    unfold begins
    rw [hdown]
    rfl
  have hr := h.down
  cases hres : sh.resumes with
  | true =>
    rw [hres] at hlog hgen hr
    have hlog' : sh'.log = .advanced :: event :: sh.log := hlog
    have hgen' : sh'.recoveryGeneration = sh.recoveryGeneration + 1 := hgen
    have hdown' : Http.down (.advanced :: event :: sh.log) = false := hdown
    have hbegins' : begins .advanced (event :: sh.log) = false := by
      unfold begins
      exact Bool.and_not_self _
    rw [← hlog'] at hdown'
    refine ⟨hdown'.trans hresumes.symm, ?_, ?_, ?_⟩
    · rw [hlog', hgen', List.count_cons_self, List.count_cons_of_ne hne, h.advances]
    · rw [hdown', hlog', hgen']
      show outagesBegun sh.log + (begins event sh.log).toNat +
        (begins .advanced (event :: sh.log)).toNat = _
      rw [hbegins, hbegins', h.begun, hr]
      rfl
    · rw [hdown', hgen', hlog']
      show (if begins .advanced (event :: sh.log) = true then 0 else
        (if begins event sh.log = true then 0 else advancesSince sh.log + ite _ _ _) + ite _ _ _) = _
      rw [hbegins, hbegins', h.since, hr]
      simp [hne]
  | false =>
    rw [hres] at hlog hgen hr
    have hdown' : Http.down (event :: sh.log) = Http.down sh.log := by rw [hdown, hr]
    have hidle := h.cons_of_idle event hdown' hne
    have hlog' : sh'.log = event :: sh.log := hlog
    have hgen' : sh'.recoveryGeneration = sh.recoveryGeneration := hgen
    refine ⟨?_, ?_, ?_, ?_⟩
    · rw [hlog', hdown, hresumes]
    · rw [hlog', hgen']
      exact hidle.advances
    · rw [hlog', hgen']
      exact hidle.begun
    · rw [hlog', hgen']
      exact hidle.since

theorem installListener (h : Books sh) (sessionId : Option String) : Books (sh.installListener sessionId) := by
  unfold HttpAdapter.installListener
  split
  · exact h
  · have hi := h.cons_of_idle .installed rfl fun h => by cases h
    exact ⟨hi.down, hi.advances, hi.begun, hi.since⟩

theorem markHealthyLocked (h : Books sh) : Books sh.markHealthyLocked :=
  h.rise .succeeded rfl (fun h => by cases h) rfl rfl rfl

/-- **Every act keeps the books**, as long as the flag of `initialize` is left to it. -/
theorem perform (h : Books sh)
    (hsuccess : act = .noteRequestSuccess → sh.initializeFromUnhealthy = false)
    (hbegin : act = .beginInitialize → sh.initializeFromUnhealthy = false)
    (hclear : act = .clearInitializeFromUnhealthy → sh.initializeFromUnhealthy = true →
      isUnhealthy sh.health = true) (hstop : act ≠ .setStopped) : Books (sh.perform act) := by
  cases act with
  | noteRequestSuccess =>
    show Books sh.noteRequestSuccess
    unfold HttpAdapter.noteRequestSuccess
    split
    · next hrec =>
      have hu : isUnhealthy sh.health = true := by
        unfold HttpAdapter.recovers at hrec
        exact (Bool.and_eq_true_iff.1 hrec).2
      have hres : sh.resumes = true := by
        unfold HttpAdapter.resumes
        rw [hu]
        rfl
      refine h.rise .flipped rfl (fun h => by cases h) ?_ ?_ ?_
      · rw [if_pos hres]
        rfl
      · rw [if_pos hres]
      · exact hsuccess rfl
    · exact ⟨h.down, h.advances, h.begun, h.since⟩
  | noteTransportFailure =>
    show Books sh.noteTransportFailure
    unfold HttpAdapter.noteTransportFailure
    split
    · exact h.fall (.demoted sh.health) rfl (fun h => by cases h) rfl rfl rfl
    · split
      · next hu =>
        refine ⟨h.down.trans ?_, h.advances, h.begun, h.since⟩
        unfold HttpAdapter.resumes
        rw [hu.2]
        rfl
      · exact ⟨h.down, h.advances, h.begun, h.since⟩
  | setHandshakeUnhealthy reason permanent supervisorAttempt =>
    show Books (sh.setHandshakeUnhealthy reason permanent supervisorAttempt)
    unfold HttpAdapter.setHandshakeUnhealthy
    split
    · exact h
    · exact h.fall (.failed permanent) rfl (fun h => by cases h) rfl rfl rfl
  | commit2026Handshake identity =>
    refine markHealthyLocked (installListener ?_ none)
    exact ⟨h.down, h.advances, h.begun, h.since⟩
  | markHandshakeHealthy => exact h.markHealthyLocked
  | beginInitialize =>
    have hi := h.cons_of_idle .starting rfl fun h => by cases h
    refine ⟨h.down.trans ?_, hi.advances, hi.begun, hi.since⟩
    unfold HttpAdapter.resumes
    rw [hbegin rfl]
    exact Bool.or_comm _ _
  | clearInitializeFromUnhealthy =>
    refine ⟨h.down.trans ?_, h.advances, h.begun, h.since⟩
    unfold HttpAdapter.resumes
    cases hf : sh.initializeFromUnhealthy with
    | true =>
      show _ = (isUnhealthy sh.health || false)
      rw [hclear rfl hf]
      rfl
    | false => rfl
  | setStopped => exact absurd rfl hstop
  | sendTick =>
    have hi := h.cons_of_idle .ticked rfl fun h => by cases h
    exact ⟨hi.down, hi.advances, hi.begun, hi.since⟩
  | installListener sessionId => exact h.installListener sessionId
  | drainListener =>
    show Books sh.drainListener
    unfold HttpAdapter.drainListener
    split
    · exact h
    · exact ⟨h.down, h.advances, h.begun, h.since⟩
  | listenerEnded id =>
    show Books (sh.listenerEnded id)
    unfold HttpAdapter.listenerEnded
    split
    · exact ⟨h.down, h.advances, h.begun, h.since⟩
    · exact h
  | _ => exact ⟨h.down, h.advances, h.begun, h.since⟩

end Books

/-! ## The flag of `initialize` -/

/-- The handshake has neither marked the adapter healthy nor found itself obsolete. -/
def HandshakePc.unsettled : HandshakePc → Bool
  | .finish _ | .tick _ | .done (.ok _) => false
  | _ => true

/-- The flag may be set on behalf of this `initialize`. -/
def InitializePc.carries : InitializePc → Bool
  | .probe | .unlock (.error _) | .clearFlag _ => true
  | .handshake pc => pc.unsettled
  | _ => false

def InitializePc.failed : InitializePc → Bool
  | .handshake (.done (.error _)) | .unlock (.error _) | .clearFlag _ => true
  | _ => false

def HttpThread.carries : HttpThread → Bool
  | .initializing pc => pc.carries
  | _ => false

def HttpThread.failed : HttpThread → Bool
  | .initializing pc => pc.failed
  | _ => false

theorem HttpThread.carries_of_failed (h : t.failed = true) : t.carries = true := by
  cases t with
  | initializing pc =>
    cases pc with
    | handshake pc =>
      cases pc with
      | done outcome => cases outcome <;> first | rfl | cases h
      | _ => cases h
    | unlock outcome => cases outcome <;> first | rfl | cases h
    | clearFlag err => rfl
    | _ => cases h
  | _ => cases h

theorem HttpThread.owns_of_carries (h : t.carries = true) : t.owns = true := by
  cases t with
  | initializing pc =>
    cases pc with
    | returned => cases h
    | _ => rfl
  | _ => cases h

/-- The flag is set for an `initialize` on its way, whose failure leaves the adapter down. -/
structure Carried (s : HttpState) : Prop where
  owner : s.shared.initializeFromUnhealthy = true → ∃ t ∈ s.threads, t.carries = true
  failed : ∀ t ∈ s.threads, t.failed = true → s.shared.initializeFromUnhealthy = true →
    isUnhealthy s.shared.health = true
  health : s.shared.initializeFromUnhealthy = true →
    s.shared.health = .starting ∨ isUnhealthy s.shared.health = true

namespace Carried

/-- Nobody else has the adapter while the flag is set. -/
theorem not_flagged {s : HttpState} (h : Carried s) (hborrowed : s.threads.Pairwise HttpThread.Apart)
    {i : Nat} (hi : s.threads[i]? = some t) (hcarries : t.carries = false)
    (ht : t.owns = true ∨ t.borrows = true) : s.shared.initializeFromUnhealthy = false := by
  by_contra hflag
  obtain ⟨u, hu, hucarries⟩ := h.owner (Bool.not_eq_false _ ▸ hflag)
  obtain ⟨j, hj⟩ := List.mem_iff_getElem?.1 hu
  have hne : j ≠ i := by
    rintro rfl
    rw [hi] at hj
    cases hj
    rw [hcarries] at hucarries
    cases hucarries
  obtain ⟨-, hapart⟩ := Pool.rel_of_ne (fun _ _ h => h.symm) hborrowed hi hj hne
  obtain ⟨howns, hborrows⟩ := hapart (HttpThread.owns_of_carries hucarries)
  rcases ht with ht | ht
  · rw [howns] at ht
    cases ht
  · rw [hborrows] at ht
    cases ht

end Carried

theorem InitializePc.flag_of_step {pc pc' : InitializePc} (h : pc.step sh lockFree c = some (act, pc')) :
    (act = .beginInitialize → pc = .starting) ∧
      (act = .clearInitializeFromUnhealthy → pc.failed = true) ∧ act ≠ .setStopped ∧
      act ≠ .setShuttingDown true := by
  revert h
  fun_cases InitializePc.step sh lockFree pc c <;> intro h
  case case7 pc _ =>
    obtain ⟨⟨act, pc'⟩, hstep, heq⟩ := Option.map_eq_some_iff.1 h
    cases heq
    obtain ⟨howner, -⟩ := HandshakePc.author_of_step hstep
    refine ⟨?_, ?_, ?_, ?_⟩ <;> rintro rfl <;> cases howner
  all_goals cases h
  case case4 => refine ⟨fun _ => rfl, ?_, ?_, ?_⟩ <;> intro h <;> cases h
  case case10 err => refine ⟨?_, fun _ => rfl, ?_, ?_⟩ <;> intro h <;> cases h
  all_goals refine ⟨?_, ?_, ?_, ?_⟩ <;> intro h <;> cases h

/-- Who sets the flag and who clears it, and who stops the adapter. -/
theorem HttpThread.Steps.flag (h : HttpThread.Steps sh ts c t act t' new) (hstreams : t.Streams) :
    (act = .beginInitialize → t = .initializing .starting) ∧
      (act = .clearInitializeFromUnhealthy → t.failed = true) ∧
      (act = .setStopped ∨ act = .setShuttingDown true → ∃ pc, t = .shutdown pc) := by
  have hauthor := (h.author hstreams).1
  cases h with
  | initializing hstep =>
    obtain ⟨hbegin, hclear, hstop, hdown⟩ := InitializePc.flag_of_step hstep
    refine ⟨fun hact => by rw [hbegin hact], hclear, fun hact => ?_⟩
    exact absurd hact (not_or.2 ⟨hstop, hdown⟩)
  | @shutdown pc pc' act hstep =>
    refine ⟨?_, ?_, fun _ => ⟨pc, rfl⟩⟩
    · rintro rfl
      revert hstep
      fun_cases ShutdownPc.step (ts.any (·.supervises)) pc <;> intro h <;> cases h
    · rintro rfl
      revert hstep
      fun_cases ShutdownPc.step (ts.any (·.supervises)) pc <;> intro h <;> cases h
  | request | supervisor | stream =>
    refine ⟨fun hact => ?_, fun hact => ?_, fun hact => ?_⟩
    · cases hauthor (by rw [hact]; rfl)
    · cases hauthor (by rw [hact]; rfl)
    · rcases hact with hact | hact
      · cases hauthor (by rw [hact]; rfl)
      · cases hauthor (by rw [hact]; rfl)
  | _ =>
    refine ⟨fun hact => ?_, fun hact => ?_, fun hact => ?_⟩
    · cases hact
    · cases hact
    · rcases hact with hact | hact <;> cases hact

/-- While the flag stays, the handshake that it was set for is under way. -/
theorem HandshakePc.unsettled_of_step {pc pc' : HandshakePc} (h : pc.step sh false c = some (act, pc'))
    (hflag : (sh.perform act).initializeFromUnhealthy = true) (hpc : pc.unsettled = true) :
    pc'.unsettled = true := by
  revert h
  fun_cases HandshakePc.step sh false pc c <;> intro h <;> cases h
  case case5 ho => cases ho
  case case6 => cases hflag
  case case8 a => 
    cases a with
    | result sessionId identity dialect => cases identity <;> rfl
    | _ => rfl
  case case15 => cases hflag
  all_goals first | rfl | cases hpc

/-- A failure is committed before the handshake is over. -/
theorem HandshakePc.unhealthy_of_step {pc : HandshakePc} {err : AdapterError}
    (h : pc.step sh false c = some (act, .done (.error err))) :
    isUnhealthy (sh.perform act).health = true := by
  cases pc with
  | failing reason err =>
    cases c with
    | go =>
      cases h
      rfl
    | _ => cases h
  | commit2026 identity => cases c <;> cases h
  | beforePost => cases c <;> cases h
  | posted =>
    cases c with
    | initialized a =>
      cases a with
      | result sessionId identity dialect => cases identity <;> cases h
      | _ => cases h
    | _ => cases h
  | entered discovered =>
    cases discovered with
    | modern identity => cases identity <;> cases c <;> cases h
    | legacy => cases c <;> cases h
  | _ => cases c <;> cases h

/-- An `initialize` whose flag is set has not gone on from its handshake, and counts as failed only once
its failure is committed. -/
theorem InitializePc.carried_of_step {pc pc' : InitializePc}
    (h : pc.step sh lockFree c = some (act, pc'))
    (hflag : (sh.perform act).initializeFromUnhealthy = true) :
    (pc.carries = true → pc'.carries = true) ∧ (act = .beginInitialize → pc'.carries = true) ∧
      (pc'.failed = true → pc.failed = true ∧ act = .skip ∨
        isUnhealthy (sh.perform act).health = true) := by
  revert h
  fun_cases InitializePc.step sh lockFree pc c <;> intro h
  case case6 outcome =>
    cases h
    cases outcome with
    | ok o => refine ⟨?_, ?_, ?_⟩ <;> intro h <;> cases h
    | error err => exact ⟨fun _ => rfl, (fun h => by cases h), fun _ => .inl ⟨rfl, rfl⟩⟩
  case case7 pc _ =>
    obtain ⟨⟨act, pc'⟩, hstep, heq⟩ := Option.map_eq_some_iff.1 h
    cases heq
    refine ⟨HandshakePc.unsettled_of_step hstep hflag, ?_, fun hf => ?_⟩
    · rintro rfl
      obtain ⟨howner, -⟩ := HandshakePc.author_of_step hstep
      cases howner
    · cases pc' with
      | done outcome =>
        cases outcome with
        | ok o => cases hf
        | error err => exact .inr (HandshakePc.unhealthy_of_step hstep)
      | _ => cases hf
  all_goals cases h
  case case4 => refine ⟨?_, fun _ => rfl, ?_⟩ <;> intro h <;> cases h
  case case5 => refine ⟨fun _ => rfl, ?_, ?_⟩ <;> intro h <;> cases h
  case case9 err => exact ⟨fun _ => rfl, (fun h => by cases h), fun _ => .inl ⟨rfl, rfl⟩⟩
  case case10 => cases hflag
  case case11 =>
    refine ⟨(fun h => by cases h), (fun h => by cases h), fun hf => ?_⟩
    split at hf <;> cases hf
  all_goals refine ⟨?_, ?_, ?_⟩ <;> intro h <;> cases h

theorem flag_of_perform (hact : act ≠ .beginInitialize)
    (h : (sh.perform act).initializeFromUnhealthy = true) : sh.initializeFromUnhealthy = true := by
  cases act with
  | beginInitialize => exact absurd rfl hact
  | noteRequestSuccess | noteTransportFailure | setHandshakeUnhealthy =>
    rwa [perform_onHealth (·.initializeFromUnhealthy = sh.initializeFromUnhealthy) rfl fun _ _ _ _ _ => rfl]
      at h
  | commit2026Handshake identity => cases h
  | markHandshakeHealthy => cases h
  | clearInitializeFromUnhealthy => cases h
  | installListener sessionId =>
    simp only [HttpAdapter.perform, HttpAdapter.installListener] at h
    split at h <;> exact h
  | drainListener | listenerEnded =>
    rwa [perform_onTask (·.initializeFromUnhealthy = sh.initializeFromUnhealthy) rfl fun _ _ => rfl] at h
  | _ => exact h

/-- While the flag is set, an act leaves the adapter down if it was. -/
theorem unhealthy_of_flag (hact : act ≠ .beginInitialize) (hsuccess : act ≠ .noteRequestSuccess)
    (hstop : act ≠ .setStopped) (h : (sh.perform act).initializeFromUnhealthy = true) :
    (sh.perform act).health = sh.health ∨ isUnhealthy (sh.perform act).health = true := by
  cases act with
  | beginInitialize => exact absurd rfl hact
  | noteRequestSuccess => exact absurd rfl hsuccess
  | setStopped => exact absurd rfl hstop
  | noteTransportFailure =>
    simp only [HttpAdapter.perform, HttpAdapter.noteTransportFailure]
    split
    · exact .inr rfl
    · split
      · exact .inr rfl
      · exact .inl rfl
  | setHandshakeUnhealthy reason permanent supervisorAttempt =>
    simp only [HttpAdapter.perform, HttpAdapter.setHandshakeUnhealthy]
    split
    · exact .inl rfl
    · exact .inr rfl
  | commit2026Handshake identity => cases h
  | markHandshakeHealthy => cases h
  | installListener sessionId =>
    simp only [HttpAdapter.perform, HttpAdapter.installListener]
    split <;> exact .inl rfl
  | drainListener | listenerEnded =>
    exact .inl (perform_onTask (·.health = sh.health) rfl fun _ _ => rfl)
  | _ => exact .inl rfl

/-! ## Runs without a shutdown -/

/-- Nobody shuts the adapter down. -/
def unstopped (_ : HttpState) : HttpAction → Bool
  | .launch .shutdown => false
  | _ => true

/-- There is neither a shutdown nor its flag. -/
structure Unstopped (s : HttpState) : Prop where
  flag : s.shared.shuttingDown = false
  threads : ∀ t ∈ s.threads, ∀ pc, t ≠ .shutdown pc
  streams : ∀ t ∈ s.threads, t.Streams
  borrowed : s.threads.Pairwise HttpThread.Apart

theorem shuttingDown_perform (hact : act ≠ .setShuttingDown true) (h : sh.shuttingDown = false) :
    (sh.perform act).shuttingDown = false := by
  by_cases hset : ∃ value, act = .setShuttingDown value
  · obtain ⟨value, rfl⟩ := hset
    cases value with
    | true => exact absurd rfl hact
    | false => rfl
  · rw [shuttingDown_of_perform fun value hv => hset ⟨value, hv⟩, h]

theorem HttpOperation.not_shutdown {op : HttpOperation} (h : op.thread ts = some t)
    (hop : op ≠ .shutdown) : ∀ pc, t ≠ .shutdown pc := by
  revert h
  fun_cases HttpOperation.thread ts op <;> intro h <;> cases h
  case case8 => exact absurd rfl hop
  all_goals
    intro pc hpc
    cases hpc

variable {s : HttpState}

theorem unstopped_of_run (h : httpAdapter.system.ReachableWhile (fun s a => unstopped s a = true) s) :
    Unstopped s := by
  have hinv : s.shared.shuttingDown = false ∧ ∀ t ∈ s.threads, ∀ pc, t ≠ .shutdown pc := by
    refine Pool.invariant_of (P := httpAdapter) (I := fun s => ∀ t ∈ s.threads, t.Streams)
      (J := fun s => s.shared.shuttingDown = false ∧ ∀ t ∈ s.threads, ∀ pc, t ≠ .shutdown pc)
      (fun s hs => streams hs) ?_ ?_ ?_ h
    · rintro sh rfl
      refine ⟨rfl, fun t ht => ?_⟩
      cases ht
    · intro s op t _ hJ hok ht
      refine ⟨hJ.1, fun u hu => ?_⟩
      rcases List.mem_append.1 hu with hu | hu
      · exact hJ.2 u hu
      · rw [List.mem_singleton.1 hu]
        refine HttpOperation.not_shutdown ht ?_
        rintro rfl
        cases hok
    · intro s i c t sh t' new hI hJ _ hi hstep
      obtain ⟨act, hsteps, rfl⟩ := httpAdapter_steps hstep
      obtain ⟨-, -, hstops⟩ := hsteps.flag (hI t (List.mem_of_getElem? hi))
      have ht := hJ.2 t (List.mem_of_getElem? hi)
      refine ⟨shuttingDown_perform (fun hact => ?_) hJ.1, Pool.forall_mem_stepped ?_ ?_ ?_⟩
      · obtain ⟨pc, hpc⟩ := hstops (.inr hact)
        exact ht pc hpc
      · cases hsteps with
        | shutdown => exact absurd rfl (ht _)
        | _ =>
          intro pc hpc
          cases hpc
      · intro u hu pc hpc
        obtain ⟨rfl, -⟩ := hsteps.spawned u hu
        cases hpc
      · intro j u _ hj
        exact hJ.2 u (List.mem_of_getElem? hj)
  exact ⟨hinv.1, hinv.2, streams h, borrowed h⟩

theorem HttpThread.Steps.carried (h : HttpThread.Steps sh ts c t act t' new) (hstreams : t.Streams)
    (hflag : (sh.perform act).initializeFromUnhealthy = true) :
    (t.carries = true → t'.carries = true) ∧ (act = .beginInitialize → t'.carries = true) ∧
      (t'.failed = true → t.failed = true ∧ act = .skip ∨ isUnhealthy (sh.perform act).health = true) := by
  have hbegin := (h.flag hstreams).1
  cases h with
  | initializing hstep => exact InitializePc.carried_of_step hstep hflag
  | _ =>
    refine ⟨fun ht => ?_, fun hact => ?_, fun ht => ?_⟩
    · cases ht
    · cases hbegin hact
    · cases ht

/-- **The flag stays with its `initialize`**, and the books are kept. -/
theorem carried (h : httpAdapter.system.ReachableWhile (fun s a => unstopped s a = true) s) :
    Carried s ∧ Books s.shared := by
  refine Pool.invariant_of (P := httpAdapter) (I := Unstopped)
    (J := fun s => Carried s ∧ Books s.shared) (fun s hs => unstopped_of_run hs) ?_ ?_ ?_ h
  · rintro sh rfl
    refine ⟨⟨fun hflag => ?_, fun t ht => ?_, fun hflag => ?_⟩, ⟨rfl, rfl, rfl, rfl⟩⟩
    · cases hflag
    · cases ht
    · cases hflag
  · intro s op t _ hJ _ ht
    refine ⟨⟨fun hflag => ?_, fun u hu => ?_, hJ.1.health⟩, hJ.2⟩
    · obtain ⟨u, hu, hcarries⟩ := hJ.1.owner hflag
      exact ⟨u, List.mem_append_left _ hu, hcarries⟩
    · rcases List.mem_append.1 hu with hu | hu
      · exact hJ.1.failed u hu
      · rw [List.mem_singleton.1 hu]
        change op.thread s.threads = some t at ht
        revert ht
        fun_cases HttpOperation.thread s.threads op <;> intro ht <;> cases ht <;> intro h <;> cases h
  · intro s i c t sh t' new hI hJ _ hi hstep
    obtain ⟨act, hsteps, rfl⟩ := httpAdapter_steps hstep
    have hstreams := hI.streams t (List.mem_of_getElem? hi)
    obtain ⟨howner, hrequest, -⟩ := hsteps.author hstreams
    obtain ⟨hbegin, hclear, hstops⟩ := hsteps.flag hstreams
    have hstop : act ≠ .setStopped := by
      intro hact
      obtain ⟨pc, hpc⟩ := hstops (.inl hact)
      exact hI.threads t (List.mem_of_getElem? hi) pc hpc
    have hsuccess : act = .noteRequestSuccess → s.shared.initializeFromUnhealthy = false := by
      rintro rfl
      have hborrows := hrequest rfl
      refine hJ.1.not_flagged hI.borrowed hi ?_ (.inr hborrows)
      cases t with
      | initializing pc => cases hborrows
      | _ => rfl
    have hbegins : act = .beginInitialize → s.shared.initializeFromUnhealthy = false := by
      rintro rfl
      refine hJ.1.not_flagged hI.borrowed hi ?_ (.inl (howner rfl))
      rw [hbegin rfl]
      rfl
    have hkeeps : act ≠ .beginInitialize → (s.shared.perform act).initializeFromUnhealthy = true →
        s.shared.initializeFromUnhealthy = true ∧
          ((s.shared.perform act).health = s.shared.health ∨
            isUnhealthy (s.shared.perform act).health = true) := by
      intro hact hflag
      have hf := flag_of_perform hact hflag
      have hns : act ≠ .noteRequestSuccess := by
        intro hns
        rw [hsuccess hns] at hf
        cases hf
      exact ⟨hf, unhealthy_of_flag hact hns hstop hflag⟩
    refine ⟨⟨fun hflag => ?_, fun u hu huf hflag => ?_, fun hflag => ?_⟩, ?_⟩
    · obtain ⟨hcarries, hsets, -⟩ := hsteps.carried hstreams hflag
      by_cases hact : act = .beginInitialize
      · exact ⟨t', Pool.mem_stepped_self hi, hsets hact⟩
      · exact Pool.exists_stepped hi hcarries (hJ.1.owner (flag_of_perform hact hflag))
    · by_cases hact : act = .beginInitialize
      · -- The `initialize` that sets the flag is the only one there is.
        subst hact
        have ht := hbegin rfl
        rcases Pool.mem_stepped hu with rfl | hu | ⟨j, hne, hj⟩
        · cases ht
          obtain hfailed | hunhealthy := (hsteps.carried hstreams hflag).2.2 huf
          · cases hfailed.1
          · cases hunhealthy
        · obtain ⟨rfl, -⟩ := hsteps.spawned u hu
          cases huf
        · obtain ⟨-, hapart⟩ := Pool.rel_of_ne (fun _ _ h => h.symm) hI.borrowed hi hj hne
          rw [(hapart (HttpThread.owns_of_carries (HttpThread.carries_of_failed huf))).1] at howner
          cases howner rfl
      · obtain ⟨hf, hkept⟩ := hkeeps hact hflag
        rcases Pool.mem_stepped hu with rfl | hu | ⟨j, hne, hj⟩
        · obtain ⟨ht, rfl⟩ | hunhealthy := (hsteps.carried hstreams hflag).2.2 huf
          · exact hJ.1.failed t (List.mem_of_getElem? hi) ht hf
          · exact hunhealthy
        · obtain ⟨rfl, -⟩ := hsteps.spawned u hu
          cases huf
        · rcases hkept with hsame | hunhealthy
          · show isUnhealthy (s.shared.perform act).health = true
            rw [hsame]
            exact hJ.1.failed u (List.mem_of_getElem? hj) huf hf
          · exact hunhealthy
    · by_cases hact : act = .beginInitialize
      · subst hact
        exact .inl rfl
      · obtain ⟨hf, hsame | hunhealthy⟩ := hkeeps hact hflag
        · show (s.shared.perform act).health = _ ∨ _
          rw [hsame]
          exact hJ.1.health hf
        · exact .inr hunhealthy
    · exact hJ.2.perform hsuccess hbegins
        (fun hact hflag => hJ.1.failed t (List.mem_of_getElem? hi) (hclear hact) hflag) hstop

/-! ## Ticks -/

/-- The act advances the generation. -/
def Act.advances (sh : HttpAdapter) : Act → Bool
  | .noteRequestSuccess => sh.recovers
  | .commit2026Handshake _ | .markHandshakeHealthy => sh.resumes
  | _ => false

def Act.ticks : Act → Bool
  | .sendTick => true
  | _ => false

/-- The generation has been advanced, and the tick comes later. -/
def HandshakePc.owesTick : HandshakePc → Bool
  | .finish flipped | .tick flipped => flipped
  | _ => false

def HttpThread.owesTick : HttpThread → Bool
  | .supervisor (.handshake pc) | .initializing (.handshake pc) => pc.owesTick
  | .request (.replacing _ _ _) | .request (.notifying _ _) | .request (.ticking _ _) => true
  | _ => false

theorem generation_perform (sh : HttpAdapter) (act : Act) :
    (sh.perform act).recoveryGeneration = sh.recoveryGeneration + (act.advances sh).toNat := by
  cases act with
  | noteRequestSuccess =>
    simp only [HttpAdapter.perform, HttpAdapter.noteRequestSuccess, Act.advances]
    cases sh.recovers <;> rfl
  | markHandshakeHealthy =>
    simp only [HttpAdapter.perform, HttpAdapter.markHealthyLocked, Act.advances]
    cases sh.resumes <;> rfl
  | commit2026Handshake identity =>
    simp only [HttpAdapter.perform, HttpAdapter.markHealthyLocked, HttpAdapter.installListener,
      Act.advances]
    split
    · cases hr : sh.resumes <;> simp_all [HttpAdapter.resumes, HttpAdapter.commitServerIdentity]
    · cases hr : sh.resumes <;> simp_all [HttpAdapter.resumes, HttpAdapter.commitServerIdentity]
  | noteTransportFailure =>
    simp only [HttpAdapter.perform, HttpAdapter.noteTransportFailure]
    split
    · rfl
    · split <;> rfl
  | setHandshakeUnhealthy reason permanent supervisorAttempt =>
    simp only [HttpAdapter.perform, HttpAdapter.setHandshakeUnhealthy]
    split <;> rfl
  | installListener sessionId =>
    simp only [HttpAdapter.perform, HttpAdapter.installListener]
    split <;> rfl
  | drainListener | listenerEnded => exact perform_onTask (·.recoveryGeneration = sh.recoveryGeneration) rfl fun _ _ => rfl
  | _ => rfl

theorem ticks_markHealthyLocked (sh : HttpAdapter) :
    sh.markHealthyLocked.log.count .ticked = sh.log.count .ticked := by
  unfold HttpAdapter.markHealthyLocked
  dsimp only
  split <;> simp

theorem ticks_installListener (sh : HttpAdapter) (sessionId : Option String) :
    (sh.installListener sessionId).log.count .ticked = sh.log.count .ticked := by
  unfold HttpAdapter.installListener
  split <;> simp

theorem ticks_perform (sh : HttpAdapter) (act : Act) :
    (sh.perform act).log.count .ticked = sh.log.count .ticked + act.ticks.toNat := by
  cases act with
  | noteRequestSuccess =>
    simp only [HttpAdapter.perform, HttpAdapter.noteRequestSuccess]
    split <;> simp [Act.ticks]
  | markHandshakeHealthy => exact ticks_markHealthyLocked sh
  | commit2026Handshake identity =>
    exact (ticks_markHealthyLocked _).trans (ticks_installListener _ none)
  | noteTransportFailure =>
    simp only [HttpAdapter.perform, HttpAdapter.noteTransportFailure]
    split
    · simp [Act.ticks]
    · split <;> rfl
  | setHandshakeUnhealthy reason permanent supervisorAttempt =>
    simp only [HttpAdapter.perform, HttpAdapter.setHandshakeUnhealthy]
    split <;> simp [Act.ticks]
  | installListener sessionId => exact ticks_installListener sh sessionId
  | drainListener | listenerEnded => exact perform_onTask (·.log.count .ticked = sh.log.count .ticked) rfl fun _ _ => rfl
  | beginInitialize => simp [HttpAdapter.perform, Act.ticks]
  | setStopped => simp [HttpAdapter.perform, Act.ticks]
  | sendTick => simp [HttpAdapter.perform, Act.ticks]
  | _ => rfl

theorem ReplacePc.ticks_of_step (sh : HttpAdapter) (repair lockFree : Bool) (pc : ReplacePc) :
    (pc.step sh repair lockFree).1.ticks = false ∧ (pc.step sh repair lockFree).1.advances sh = false := by
  cases pc <;> exact ⟨rfl, rfl⟩

/-- **What advances the generation owes a tick, and who owes one sends it.** -/
theorem HandshakePc.ticks_of_step {pc pc' : HandshakePc} {supervisorAttempt : Bool}
    (h : pc.step sh supervisorAttempt c = some (act, pc')) :
    act.ticks.toNat + pc'.owesTick.toNat = pc.owesTick.toNat + (act.advances sh).toNat := by
  revert h
  fun_cases HandshakePc.step sh supervisorAttempt pc c <;> intro h <;> cases h
  case case6 identity _ => 
    show 0 + sh.resumes.toNat = 0 + sh.resumes.toNat
    rfl
  case case7 => split <;> rfl
  case case8 a =>
    cases a with
    | result sessionId identity dialect => cases identity <;> rfl
    | _ => rfl
  case case15 => rfl
  case case16 flipped => cases flipped <;> rfl
  case case17 flipped => cases flipped <;> rfl
  all_goals rfl

theorem SupervisorPc.ticks_of_step {pc pc' : SupervisorPc} (h : pc.step sh lockFree c = some (act, pc'))
    (hsd : sh.shuttingDown = false) :
    act.ticks.toNat + (HttpThread.supervisor pc').owesTick.toNat =
      (HttpThread.supervisor pc).owesTick.toNat + (act.advances sh).toNat := by
  revert h
  fun_cases SupervisorPc.step sh lockFree pc c <;> intro h
  case case24 pc _ =>
    obtain ⟨⟨act, pc'⟩, hstep, heq⟩ := Option.map_eq_some_iff.1 h
    cases heq
    exact HandshakePc.ticks_of_step hstep
  case case31 pc next =>
    cases h
    obtain ⟨hticks, hadvances⟩ := ReplacePc.ticks_of_step sh false lockFree pc
    rw [hticks, hadvances]
    cases hnext : next.2 with
    | none => rfl
    | some pc' => rfl
  all_goals cases h
  case case2 hdown _ =>
    rw [hsd] at hdown
    cases hdown
  case case7 | case8 | case12 | case13 | case16 | case17 | case21 | case22 => split <;> rfl
  all_goals rfl

theorem TrackedPc.ticks_of_step {pc pc' : TrackedPc} (h : pc.step sh lockFree c = some (act, pc')) :
    act.ticks.toNat + (HttpThread.request pc').owesTick.toNat =
      (HttpThread.request pc).owesTick.toNat + (act.advances sh).toNat := by
  revert h
  fun_cases TrackedPc.step sh lockFree pc c <;> intro h <;> cases h
  case case6 f => 
    show 0 + (HttpThread.request (TrackedPc.accounted sh f)).owesTick.toNat = 0 + sh.recovers.toNat
    unfold TrackedPc.accounted
    cases hr : sh.recovers with
    | true => rfl
    | false =>
      rw [if_neg Bool.false_ne_true]
      split <;> rfl
  case case9 f pc next =>
    obtain ⟨hticks, hadvances⟩ := ReplacePc.ticks_of_step sh true lockFree pc
    rw [hticks, hadvances]
    cases hnext : next.2 with
    | none => rfl
    | some pc' => rfl
  case case10 f flippedTo pc next =>
    obtain ⟨hticks, hadvances⟩ := ReplacePc.ticks_of_step sh false lockFree pc
    rw [hticks, hadvances]
    cases hnext : next.2 with
    | none => rfl
    | some pc' => rfl
  case case2 | case7 => split <;> rfl
  all_goals rfl

theorem InitializePc.ticks_of_step {pc pc' : InitializePc} (h : pc.step sh lockFree c = some (act, pc')) :
    act.ticks.toNat + (HttpThread.initializing pc').owesTick.toNat =
      (HttpThread.initializing pc).owesTick.toNat + (act.advances sh).toNat := by
  revert h
  fun_cases InitializePc.step sh lockFree pc c <;> intro h
  case case7 pc _ =>
    obtain ⟨⟨act, pc'⟩, hstep, heq⟩ := Option.map_eq_some_iff.1 h
    cases heq
    exact HandshakePc.ticks_of_step hstep
  all_goals cases h
  case case10 | case11 => split <;> rfl
  all_goals rfl

theorem HttpThread.Steps.tick (h : HttpThread.Steps sh ts c t act t' new) (hstreams : t.Streams)
    (hsd : sh.shuttingDown = false) :
    act.ticks.toNat + t'.owesTick.toNat = t.owesTick.toNat + (act.advances sh).toNat := by
  cases h with
  | request hstep => exact TrackedPc.ticks_of_step hstep
  | supervisor hstep => exact SupervisorPc.ticks_of_step hstep hsd
  | initializing hstep => exact InitializePc.ticks_of_step hstep
  | @shutdown pc pc' act hstep =>
    revert hstep
    fun_cases ShutdownPc.step (ts.any (·.supervises)) pc <;> intro hstep <;> cases hstep <;> rfl
  | stream =>
    cases act with
    | listenerAnswered => rfl
    | listenerEnded => rfl
    | _ => cases hstreams
  | _ => rfl

/-- Every advance has its tick, sent or still to come. -/
theorem ticks_owed (h : httpAdapter.system.ReachableWhile (fun s a => unstopped s a = true) s) :
    s.shared.log.count .ticked + s.threads.countP (·.owesTick) = s.shared.recoveryGeneration := by
  refine Pool.invariant_of (P := httpAdapter) (I := Unstopped)
    (J := fun s => s.shared.log.count .ticked + s.threads.countP (·.owesTick) =
      s.shared.recoveryGeneration) (fun s hs => unstopped_of_run hs) ?_ ?_ ?_ h
  · rintro sh rfl
    rfl
  · intro s op t _ hJ _ ht
    have howes : t.owesTick = false := by
      change op.thread s.threads = some t at ht
      revert ht
      fun_cases HttpOperation.thread s.threads op <;> intro ht <;> cases ht <;> rfl
    show _ + (s.threads ++ [t]).countP (·.owesTick) = _
    rw [List.countP_append, ← hJ]
    simp [howes]
  · intro s i c t sh t' new hI hJ _ hi hstep
    obtain ⟨act, hsteps, rfl⟩ := httpAdapter_steps hstep
    have htick := hsteps.tick (hI.streams t (List.mem_of_getElem? hi)) hI.flag
    have hcount : (Pool.stepped s.threads i t' new).countP (·.owesTick) + t.owesTick.toNat =
        s.threads.countP (·.owesTick) + t'.owesTick.toNat + new.countP (·.owesTick) :=
      Pool.countP_stepped _ hi
    have hnew : new.countP (·.owesTick) = 0 := by
      rw [List.countP_eq_zero]
      intro u hu
      obtain ⟨rfl, -⟩ := hsteps.spawned u hu
      intro h
      cases h
    show (s.shared.perform act).log.count .ticked + (Pool.stepped s.threads i t' new).countP _ =
      (s.shared.perform act).recoveryGeneration
    rw [ticks_perform, generation_perform]
    omega

/-! ## One event for each outage -/

/-- **Each outage that ends is published once**: the generation advances when the adapter is back, and
not before, and each advance is followed by one tick. -/
theorem recovery_published_once
    (h : httpAdapter.system.ReachableWhile (fun s a => unstopped s a = true) s) :
    (down s.shared.log = true → advancesSince s.shared.log = 0) ∧
      (down s.shared.log = false → outagesBegun s.shared.log ≠ 0 → advancesSince s.shared.log = 1) ∧
      s.shared.log.count .advanced = s.shared.recoveryGeneration ∧
      s.shared.log.count .ticked + s.threads.countP (·.owesTick) = s.shared.log.count .advanced ∧
      (isUnhealthy s.shared.health = true → down s.shared.log = true) ∧
      (s.shared.health = .healthy → down s.shared.log = false) := by
  obtain ⟨hcarried, hbooks⟩ := carried h
  refine ⟨fun hd => ?_, fun hd hbegun => ?_, hbooks.advances, ?_, fun hu => ?_, fun hh => ?_⟩
  · rw [hbooks.since, if_pos (.inl hd)]
  · have hgen := hbooks.begun
    rw [hd] at hgen
    rw [hbooks.since, if_neg]
    rintro (hd' | hgen')
    · rw [hd] at hd'
      cases hd'
    · exact hbegun (hgen.trans hgen')
  · rw [hbooks.advances]
    exact ticks_owed h
  · rw [hbooks.down]
    unfold HttpAdapter.resumes
    rw [hu]
    rfl
  · rw [hbooks.down]
    unfold HttpAdapter.resumes
    rw [hh]
    show (false || s.shared.initializeFromUnhealthy) = false
    rw [Bool.false_or]
    by_contra hflag
    obtain hstarting | hunhealthy := hcarried.health (Bool.not_eq_false _ ▸ hflag)
    · rw [hh] at hstarting
      cases hstarting
    · rw [hh] at hunhealthy
      cases hunhealthy

/-- An `initialize` fails on a 503 and arms the supervisor. -/
def failsToInitialize (i : Nat) : List HttpAction :=
  [.launch .initializeAdapter] ++ goes i 3 ++ [.run i (.probe .legacy)] ++ goes i 2 ++
    [.run i (.initialized (.status 503 ""))] ++ goes i 7

/-- Between two demotions an `initialize` takes the healthy adapter down, which is an outage of its own. -/
def outageOfInitialize : List HttpAction :=
  initializesWell 0 "s1" ++ threeDie 2 ++ recoversIt 5 7 ++ failsToInitialize 6 ++ recoversIt 7 7 ++
    threeDie 8

/-- A recovery is published only after the next demotion. -/
def delayedTick : List HttpAction :=
  initializesWell 0 "s1" ++ threeDie 2 ++ recoversIt 5 6 ++ threeDie 6 ++ goes 5 1 ++ recoversIt 9 7 ++
    threeDie 10

/-- These events lie between two consecutive demotions of a healthy adapter. -/
def Between (between log : List HttpEvent) : Prop :=
  ∃ before, log = .demoted .healthy :: between ++ .demoted .healthy :: before ∧
    ∀ live, .demoted live ∉ between

/-- **Counted between demotions** there are two advances if the adapter went down by an `initialize`
meanwhile, and two ticks if the first one is late. -/
theorem two_between_demotions :
    (∃ s between, httpAdapter.system.ReachableWhile (fun s a => unstopped s a = true) s ∧
      Between between s.shared.log ∧ between.count .advanced = 2) ∧
    ∃ s between, httpAdapter.system.ReachableWhile (fun s a => unstopped s a = true) s ∧
      Between between s.shared.log ∧ between.count .ticked = 2 := by
  constructor
  · obtain ⟨s, hrun, hlog⟩ : ∃ s, httpAdapter.system.runWhile unstopped ⟨.new, []⟩ outageOfInitialize = some s ∧
        s.shared.log = [.demoted .healthy, .ticked, .installed, .advanced, .flipped, .failed false, .starting,
          .ticked, .installed, .advanced, .flipped, .demoted .healthy, .succeeded, .installed, .starting] :=
      ⟨_, rfl, rfl⟩
    refine ⟨s, [.ticked, .installed, .advanced, .flipped, .failed false, .starting, .ticked, .installed,
      .advanced, .flipped], .run (fun _ _ h => h) (.init httpAdapter_init) hrun,
      ⟨[.succeeded, .installed, .starting], hlog, fun live => ?_⟩, rfl⟩
    simp
  · obtain ⟨s, hrun, hlog⟩ : ∃ s, httpAdapter.system.runWhile unstopped ⟨.new, []⟩ delayedTick = some s ∧
        s.shared.log = [.demoted .healthy, .ticked, .installed, .advanced, .flipped, .ticked,
          .demoted .healthy, .installed, .advanced, .flipped, .demoted .healthy, .succeeded, .installed,
          .starting] :=
      ⟨_, rfl, rfl⟩
    refine ⟨s, [.ticked, .installed, .advanced, .flipped, .ticked],
      .run (fun _ _ h => h) (.init httpAdapter_init) hrun,
      ⟨[.installed, .advanced, .flipped, .demoted .healthy, .succeeded, .installed, .starting], hlog,
        fun live => ?_⟩, rfl⟩
    simp

/-- After a demotion and a recovery there is one advance and one tick. -/
theorem recovery_published :
    ∃ s, httpAdapter.system.runWhile unstopped ⟨.new, []⟩
        (initializesWell 0 "s1" ++ threeDie 2 ++ recoversIt 5 7) = some s ∧
      advancesSince s.shared.log = 1 ∧
        s.shared.log.count .ticked + s.threads.countP (·.owesTick) = s.shared.log.count .advanced := by
  obtain ⟨s, hrun, hdown, hbegun⟩ :
      ∃ s, httpAdapter.system.runWhile unstopped ⟨.new, []⟩
          (initializesWell 0 "s1" ++ threeDie 2 ++ recoversIt 5 7) = some s ∧
        down s.shared.log = false ∧ outagesBegun s.shared.log ≠ 0 :=
    ⟨_, rfl, rfl, (fun h => by cases h)⟩
  obtain ⟨-, hsince, -, hticks, -⟩ :=
    recovery_published_once (.run (fun _ _ h => h) (.init httpAdapter_init) hrun)
  exact ⟨s, hrun, hsince hdown hbegun, hticks⟩

end EndaraRelay.Http
