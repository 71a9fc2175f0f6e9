import EndaraRelay.Http.FailedAttempts
import EndaraRelay.Http.Retried

/-!
# The renewal of the `GET` listener

A recovery owes the adapter a new listener. The request installs it itself if it gets the handshake lock,
and else leaves the debt to the holder with the deferral flag. The debt is paid when the listener is
`Settled`; until then some thread `renews`, or the flag is set and some thread `consumes` it (`Owed`).

The hand-over has a gap: between the failed `try_lock` and the store of the flag the holder can pass both
its install and its test of the flag. `paysOff` is the guard that leaves these steps out.
-/

namespace EndaraRelay.Http

open Verif

/-! ## One listener -/

/-- The tasks that run are the one whose handle is stored, unless it has finished. -/
def HttpAdapter.Sole (sh : HttpAdapter) : Prop :=
  sh.runningListeners = match sh.listenerHandle with
    | none => []
    | some listener => if listener.finished then [] else [listener.id]

theorem HttpAdapter.Sole.installListener {sh : HttpAdapter} (h : sh.Sole) (sessionId : Option String) :
    (sh.installListener sessionId).Sole := by
  unfold HttpAdapter.installListener
  split
  · exact h
  · unfold HttpAdapter.Sole at h ⊢
    cases hl : sh.listenerHandle with
    | none =>
      rw [hl] at h
      simp [h]
    | some previous =>
      rw [hl] at h
      by_cases hf : previous.finished = true <;> simp [h, hf]

variable {sh : HttpAdapter} {lockFree repair supervisorAttempt : Bool} {c : HttpChoice} {act : Act}
  {sessionId : Option String} {t t' : HttpThread} {new ts : List HttpThread}

theorem HttpAdapter.Sole.drainListener (h : sh.Sole) : sh.drainListener.Sole := by
  unfold HttpAdapter.drainListener
  split
  · exact h
  · next listener hl =>
    unfold HttpAdapter.Sole at h ⊢
    rw [hl] at h
    by_cases hf : listener.finished = true <;> simp [h, hf]

theorem HttpAdapter.Sole.listenerEnded (h : sh.Sole) (id : Nat) : (sh.listenerEnded id).Sole := by
  unfold HttpAdapter.listenerEnded
  split
  · next hid =>
    unfold HttpAdapter.Sole at h ⊢
    cases hl : sh.listenerHandle with
    | none =>
      rw [h, hl] at hid
      cases hid
    | some listener =>
      rw [hl] at h
      by_cases hf : listener.finished = true
      · rw [h] at hid
        simp [hf] at hid
      · rw [h] at hid
        simp only [hf] at hid
        obtain rfl := List.mem_singleton.1 hid
        simp [h, hf]
  · exact h

/-- **Two listeners never run at once.** -/
theorem HttpAdapter.Sole.perform (h : sh.Sole) (act : Act) : (sh.perform act).Sole := by
  cases act with
  | noteRequestSuccess | noteTransportFailure | setHandshakeUnhealthy =>
    exact perform_onHealth (HttpAdapter.Sole) rfl fun _ _ _ _ _ => h
  | commit2026Handshake identity =>
    exact @HttpAdapter.Sole.installListener
      { sh.commitServerIdentity identity with upstreamDialect := .v20260728, sessionId := none } h none
  | installListener sessionId => exact h.installListener sessionId
  | drainListener => exact h.drainListener
  | listenerEnded id => exact h.listenerEnded id
  | _ => exact h

/-! ## The debt -/

/-- A listener was installed after the last recovery by a request. -/
def renewed : List HttpEvent → Bool
  | [] => false
  | .installed :: _ => true
  | .flipped :: _ => false
  | _ :: log => renewed log

/-- The installed listener is the newest one, later than every recovery by a request, and carries the
session; and no replacement is deferred. -/
structure Settled (sh : HttpAdapter) : Prop where
  paid : sh.listenerReplacementDeferred = false
  renewed : renewed sh.log = true
  installed : ∃ listener, sh.listenerHandle = some listener ∧ listener.id + 1 = sh.nextListener ∧
    listener.sessionId = sh.sessionId

/-- It will install a listener, or defer the install. -/
def ReplacePc.renews (repair : Bool) : ReplacePc → Bool
  | .tryLock | .defer => !repair
  | .readSession | .install _ => true
  | _ => false

/-- It has committed itself to install a listener; an `initialize` is so from the start, unless it
fails. -/
def HandshakePc.renews (supervisorAttempt : Bool) : HandshakePc → Bool
  | .entered _ | .failing _ _ | .commit2026 _ | .beforePost | .posted => !supervisorAttempt
  | .commitIdentity _ _ _ | .commitSession _ _ | .commitDialect _ | .notifying | .readSession
  | .install _ => true
  | _ => false

/-- The session it is about to install a listener with. -/
def ReplacePc.installing : ReplacePc → Option (Option String)
  | .install sessionId => some sessionId
  | _ => none

def HandshakePc.installing : HandshakePc → Option (Option String)
  | .install sessionId => some sessionId
  | _ => none

def HandshakePc.pastInstall : HandshakePc → Bool
  | .markHealthy => true
  | _ => false

def ReplacePc.defers : ReplacePc → Bool
  | .defer => true
  | _ => false

/-- It will test the flag, unless it turns to an install. -/
def SupervisorPc.consumes (permit : Bool) : SupervisorPc → Bool
  | .parked => permit
  | .handshake pc => pc.uncommitted
  | .unlock result => result ≠ .completed
  | .left completed => !completed
  | .replacing _ | .ended => false
  | _ => true

namespace HttpThread

def renews : HttpThread → Bool
  | .request (.repairing _ pc) => pc.renews true
  | .request (.replacing _ _ pc) => pc.renews false
  | .supervisor (.handshake pc) => pc.renews true
  | .supervisor (.replacing pc) => pc.renews false
  | .initializing .lockWait | .initializing .starting | .initializing .probe => true
  | .initializing (.handshake pc) => pc.renews false
  | _ => false

def installing : HttpThread → Option (Option String)
  | .request (.repairing _ pc) | .request (.replacing _ _ pc) | .supervisor (.replacing pc) => pc.installing
  | .supervisor (.handshake pc) | .initializing (.handshake pc) => pc.installing
  | _ => none

def pastInstall : HttpThread → Bool
  | .supervisor (.handshake pc) | .initializing (.handshake pc) => pc.pastInstall
  | _ => false

def defers : HttpThread → Bool
  | .request (.repairing _ pc) | .request (.replacing _ _ pc) | .supervisor (.replacing pc) => pc.defers
  | _ => false

/-- A repair looks at the listener again, under the lock. -/
def rechecks : HttpThread → Bool
  | .request (.repairing _ .recheck) => true
  | _ => false

def consumes (sh : HttpAdapter) : HttpThread → Bool
  | .supervisor pc => pc.consumes sh.reconnectPermit
  | .request (.repairing _ .recheck) => true
  | _ => false

/-- A recovery, a repair, an attempt or an `initialize` is under way. -/
def recovering (sh : HttpAdapter) : HttpThread → Bool
  | .request (.repairing _ _) | .request (.replacing _ _ _) => true
  | .supervisor .parked => sh.reconnectPermit
  | .supervisor .ended => false
  | .supervisor _ => true
  | .initializing .returned => false
  | .initializing _ => true
  | _ => false

/-- It drops the debt: it stores the flag, or leaves a stored one alone. -/
def drops (sh : HttpAdapter) (t : HttpThread) : Bool :=
  t.defers || t.rechecks && !sh.listenerEndedAfterStreaming && sh.listenerReplacementDeferred

end HttpThread

/-- A thread drops the debt only while another one will pay it off. -/
def paysOff (s : HttpState) : HttpAction → Bool
  | .launch _ => true
  | .run i _ => match s.threads[i]? with
    | none => true
    | some t => !t.drops s.shared ||
      (s.threads.eraseIdx i).any fun u => u.renews || u.consumes s.shared

/-- The adapter is settled, or somebody will see to it, or it is not healthy and nobody is about to declare
it so. -/
def Owed (s : HttpState) : Prop :=
  Settled s.shared ∨ s.shared.shuttingDown = true ∨ (∃ t ∈ s.threads, t.renews = true) ∨
    (s.shared.listenerReplacementDeferred = true ∧ ∃ t ∈ s.threads, t.consumes s.shared = true) ∨
    (s.shared.health ≠ .healthy ∧ ∀ t ∈ s.threads, t.pastInstall = false)

/-! ## What the steps do about it -/

namespace Act

def pays : Act → Bool
  | .installListener _ | .commit2026Handshake _ => true
  | _ => false

end Act

/-- Where a thread is at when it does what bears on the debt. -/
def HttpThread.Accounts (sh : HttpAdapter) (t t' : HttpThread) : Act → Prop
  | .noteRequestSuccess => sh.recovers = true → t'.renews = true
  | .installListener sessionId => t.installing = some sessionId
  | .setDeferred true => t.defers = true
  | .setDeferred false => sh.listenerReplacementDeferred = true → t'.renews = true
  | .takePermit => ∀ sh, t'.consumes sh = true
  | .commitSession _ | .setShuttingDown false => t'.renews = true
  | .markHandshakeHealthy => t.pastInstall = true
  | _ => True

def HandshakePc.Accounts (supervisorAttempt : Bool) (pc pc' : HandshakePc) : Act → Prop
  | .installListener sessionId => pc.installing = some sessionId
  | .commitSession _ => pc'.renews supervisorAttempt = true
  | .markHandshakeHealthy => pc.pastInstall = true
  | .noteRequestSuccess | .setDeferred _ | .takePermit | .setShuttingDown _ => False
  | _ => True

theorem HandshakePc.accounts {pc pc' : HandshakePc}
    (h : pc.step sh supervisorAttempt c = some (act, pc')) :
    HandshakePc.Accounts supervisorAttempt pc pc' act := by
  revert h
  fun_cases HandshakePc.step sh supervisorAttempt pc c <;> intro h <;> cases h
  case case16 flipped => cases flipped <;> trivial
  case case17 flipped => cases flipped <;> trivial
  all_goals trivial

/-- A handshake comes to its install by reading the session, and past it by the install. -/
theorem HandshakePc.enters {pc pc' : HandshakePc} (h : pc.step sh supervisorAttempt c = some (act, pc')) :
    (pc'.pastInstall = true → act.pays = true) ∧
      ∀ sessionId, pc'.installing = some sessionId → act = .skip ∧ sessionId = sh.sessionId := by
  revert h
  fun_cases HandshakePc.step sh supervisorAttempt pc c <;> intro h <;> cases h
  case case7 => constructor <;> intros <;> split at * <;> contradiction
  case case8 a =>
    cases a with
    | result sessionId identity dialect =>
      cases identity <;> exact ⟨(fun h => by cases h), fun _ h => by cases h⟩
    | _ => exact ⟨(fun h => by cases h), fun _ h => by cases h⟩
  case case13 => exact ⟨(fun h => by cases h), fun _ h => ⟨rfl, (Option.some.inj h).symm⟩⟩
  case case14 => exact ⟨fun _ => rfl, fun _ h => by cases h⟩
  all_goals exact ⟨(fun h => by cases h), fun _ h => by cases h⟩

theorem InitializeAnswer.next_renews (a : InitializeAnswer) : a.next.renews false = true := by
  cases a with
  | result sessionId identity dialect => cases identity <;> rfl
  | _ => rfl

/-- What is going to install a listener does, or fails if it is an `initialize`. -/
theorem HandshakePc.renews_of_step {pc pc' : HandshakePc}
    (h : pc.step sh supervisorAttempt c = some (act, pc')) (hpc : pc.renews supervisorAttempt = true) :
    pc'.renews supervisorAttempt = true ∨ act.pays = true ∨ supervisorAttempt = false ∧
      ∃ reason permanent, act = .setHandshakeUnhealthy reason permanent false := by
  have howned (hs : (!supervisorAttempt) = true) : supervisorAttempt = false := by simpa using hs
  revert h
  fun_cases HandshakePc.step sh supervisorAttempt pc c <;> intro h <;> cases h
  case case1 | case2 | case3 => exact .inl hpc
  case case4 =>
    obtain rfl := howned hpc
    exact .inr (.inr ⟨rfl, _, _, rfl⟩)
  case case5 hobsolete =>
    obtain rfl := howned hpc
    cases hobsolete
  case case6 => exact .inr (.inl rfl)
  case case7 =>
    obtain rfl := howned hpc
    exact .inl rfl
  case case8 a =>
    obtain rfl := howned hpc
    exact .inl a.next_renews
  case case14 => exact .inr (.inl rfl)
  case case15 | case16 | case17 => cases hpc
  all_goals exact .inl rfl

theorem InitializeAnswer.next_consumes (a : InitializeAnswer) :
    a.next.renews true = true ∨ a.next.uncommitted = true := by
  cases a with
  | result sessionId identity dialect =>
    cases identity with
    | ok identity => exact .inl rfl
    | error msg => exact .inr rfl
  | _ => exact .inr rfl

/-- An attempt of the supervisor stays uncommitted until it is going to install a listener. -/
theorem HandshakePc.consumes_of_step {pc pc' : HandshakePc} (h : pc.step sh true c = some (act, pc'))
    (hpc : pc.uncommitted = true) :
    pc'.renews true = true ∨ act.pays = true ∨ pc'.uncommitted = true := by
  revert h
  fun_cases HandshakePc.step sh true pc c <;> intro h <;> cases h
  case case6 => exact .inr (.inl rfl)
  case case7 => split <;> exact .inr (.inr rfl)
  case case8 a => exact a.next_consumes.imp_right .inr
  case case1 | case2 | case3 | case4 | case5 => exact .inr (.inr rfl)
  all_goals cases hpc

/-! ### Replacements -/

theorem ReplacePc.accounts (sh : HttpAdapter) (repair lockFree : Bool) (pc : ReplacePc) :
    (∀ sessionId, (pc.step sh repair lockFree).1 = .installListener sessionId →
      pc.installing = some sessionId) ∧
      ((pc.step sh repair lockFree).1 = .setDeferred true → pc.defers = true) ∧
      ((pc.step sh repair lockFree).1 = .skip ∨ (pc.step sh repair lockFree).1 = .setDeferred true ∨
        ∃ sessionId, (pc.step sh repair lockFree).1 = .installListener sessionId) := by
  cases pc with
  | install sessionId => exact ⟨fun _ h => by cases h; rfl, (fun h => by cases h), .inr (.inr ⟨_, rfl⟩)⟩
  | «defer» => exact ⟨(fun _ h => by cases h), fun _ => rfl, .inr (.inl rfl)⟩
  | _ => exact ⟨(fun _ h => by cases h), (fun h => by cases h), .inl rfl⟩

theorem ReplacePc.enters {pc pc' : ReplacePc} (h : (pc.step sh repair lockFree).2 = some pc')
    (hpc' : pc'.installing = some sessionId) :
    (pc.step sh repair lockFree).1 = .skip ∧ sessionId = sh.sessionId := by
  cases pc with
  | readSession =>
    cases h
    exact ⟨rfl, (Option.some.inj hpc').symm⟩
  | check =>
    simp only [ReplacePc.step] at h
    split at h <;> cases h
    cases hpc'
  | tryLock => cases repair <;> cases lockFree <;> cases h <;> cases hpc'
  | recheck =>
    simp only [ReplacePc.step] at h
    split at h <;> cases h <;> cases hpc'
  | install =>
    cases h
    cases hpc'
  | _ => cases h

theorem ReplacePc.renews_of_step (sh : HttpAdapter) (lockFree : Bool) {pc : ReplacePc}
    (hpc : pc.renews repair = true) :
    (∃ pc', (pc.step sh repair lockFree).2 = some pc' ∧ pc'.renews repair = true) ∨
      (pc.step sh repair lockFree).1.pays = true ∨ pc.defers = true := by
  cases pc with
  | tryLock =>
    cases repair with
    | true => cases hpc
    | false => cases lockFree <;> exact .inl ⟨_, rfl, rfl⟩
  | «defer» => exact .inr (.inr rfl)
  | readSession => exact .inl ⟨_, rfl, rfl⟩
  | install => exact .inr (.inl rfl)
  | _ => cases hpc

/-! ### Threads -/

namespace HttpThread

theorem accounts_of_handshake {pc pc' : HandshakePc}
    (h : HandshakePc.Accounts supervisorAttempt pc pc' act) (hinstalling : t.installing = pc.installing)
    (hpast : t.pastInstall = pc.pastInstall) (hrenews : t'.renews = pc'.renews supervisorAttempt) :
    Accounts sh t t' act := by
  cases act with
  | installListener sessionId => exact hinstalling.trans h
  | commitSession sessionId => exact hrenews.trans h
  | markHandshakeHealthy => exact hpast.trans h
  | noteRequestSuccess => cases h
  | setDeferred value => cases h
  | takePermit => cases h
  | setShuttingDown value => cases h
  | _ => trivial

theorem accounts_of_replace {pc : ReplacePc} (hinstalling : t.installing = pc.installing)
    (hdefers : t.defers = pc.defers) : Accounts sh t t' (pc.step sh repair lockFree).1 := by
  obtain ⟨hinstall, hdefer, hact⟩ := ReplacePc.accounts sh repair lockFree pc
  obtain hact | hact | ⟨sessionId, hact⟩ := hact
  · rw [hact]
    trivial
  · rw [hact]
    exact hdefers.trans (hdefer hact)
  · rw [hact]
    exact hinstalling.trans (hinstall sessionId hact)

end HttpThread

theorem TrackedPc.accounts {pc pc' : TrackedPc} (h : pc.step sh lockFree c = some (act, pc')) :
    HttpThread.Accounts sh (.request pc) (.request pc') act := by
  revert h
  fun_cases TrackedPc.step sh lockFree pc c <;> intro h <;> cases h
  case case6 f =>
    intro hrecovers
    unfold TrackedPc.accounted
    rw [if_pos hrecovers]
    rfl
  case case9 => exact HttpThread.accounts_of_replace rfl rfl
  case case10 => exact HttpThread.accounts_of_replace rfl rfl
  all_goals trivial

theorem SupervisorPc.accounts {pc pc' : SupervisorPc} (h : pc.step sh lockFree c = some (act, pc')) :
    HttpThread.Accounts sh (.supervisor pc) (.supervisor pc') act := by
  revert h
  fun_cases SupervisorPc.step sh lockFree pc c <;> intro h
  case case24 =>
    obtain ⟨⟨act, pc'⟩, hstep, heq⟩ := Option.map_eq_some_iff.1 h
    cases heq
    exact HttpThread.accounts_of_handshake (HandshakePc.accounts hstep) rfl rfl rfl
  case case31 =>
    cases h
    exact HttpThread.accounts_of_replace rfl rfl
  all_goals cases h
  case case4 => exact fun _ => rfl
  case case29 => exact fun _ => rfl
  case case30 hdeferred => exact fun h => absurd h hdeferred
  all_goals trivial

theorem InitializePc.accounts {pc pc' : InitializePc} (h : pc.step sh lockFree c = some (act, pc')) :
    HttpThread.Accounts sh (.initializing pc) (.initializing pc') act := by
  revert h
  fun_cases InitializePc.step sh lockFree pc c <;> intro h
  case case7 =>
    obtain ⟨⟨act, pc'⟩, hstep, heq⟩ := Option.map_eq_some_iff.1 h
    cases heq
    exact HttpThread.accounts_of_handshake (HandshakePc.accounts hstep) rfl rfl rfl
  all_goals cases h
  case case1 => exact rfl
  all_goals trivial

theorem HttpThread.Steps.accounts (h : HttpThread.Steps sh ts c t act t' new) (hstreams : t.Streams) :
    HttpThread.Accounts sh t t' act := by
  cases h with
  | request hstep => exact TrackedPc.accounts hstep
  | supervisor hstep => exact SupervisorPc.accounts hstep
  | initializing hstep => exact InitializePc.accounts hstep
  | @shutdown pc pc' act hstep =>
    revert hstep
    fun_cases ShutdownPc.step (ts.any (·.supervises)) pc <;> intro h <;> cases h <;> trivial
  | stream =>
    cases act with
    | listenerAnswered => trivial
    | listenerEnded => trivial
    | _ => cases hstreams
  | _ => trivial

theorem TrackedPc.enters {pc pc' : TrackedPc} (h : pc.step sh lockFree c = some (act, pc')) :
    ∀ sessionId, (HttpThread.request pc').installing = some sessionId →
      act = .skip ∧ sessionId = sh.sessionId := by
  revert h
  fun_cases TrackedPc.step sh lockFree pc c <;> intro h <;> cases h <;> intro sessionId hpc'
  case case9 f pc next =>
    cases hnext : next.2 with
    | none =>
      rw [hnext] at hpc'
      cases hpc'
    | some pc' =>
      rw [hnext] at hpc'
      exact ReplacePc.enters hnext hpc'
  case case10 f flippedTo pc next =>
    cases hnext : next.2 with
    | none =>
      rw [hnext] at hpc'
      cases hpc'
    | some pc' =>
      rw [hnext] at hpc'
      exact ReplacePc.enters hnext hpc'
  case case2 | case7 => split at hpc' <;> cases hpc'
  case case6 =>
    unfold TrackedPc.accounted at hpc'
    split at hpc'
    · cases hpc'
    · split at hpc' <;> cases hpc'
  all_goals cases hpc'

theorem SupervisorPc.enters {pc pc' : SupervisorPc} (h : pc.step sh lockFree c = some (act, pc')) :
    ((HttpThread.supervisor pc').pastInstall = true → act.pays = true) ∧
      ∀ sessionId, (HttpThread.supervisor pc').installing = some sessionId →
        act = .skip ∧ sessionId = sh.sessionId := by
  revert h
  fun_cases SupervisorPc.step sh lockFree pc c <;> intro h
  case case24 =>
    obtain ⟨⟨act, pc'⟩, hstep, heq⟩ := Option.map_eq_some_iff.1 h
    cases heq
    exact HandshakePc.enters hstep
  case case31 pc next =>
    cases h
    cases hnext : next.2 with
    | none => exact ⟨(fun h => by cases h), fun _ h => by cases h⟩
    | some pc' => exact ⟨(fun h => by cases h), fun _ hpc' => ReplacePc.enters hnext hpc'⟩
  all_goals cases h
  case case7 | case8 | case12 | case13 | case16 | case17 | case21 | case22 =>
    split <;> exact ⟨(fun h => by cases h), fun _ h => by cases h⟩
  all_goals exact ⟨(fun h => by cases h), fun _ h => by cases h⟩

theorem InitializePc.enters {pc pc' : InitializePc} (h : pc.step sh lockFree c = some (act, pc')) :
    ((HttpThread.initializing pc').pastInstall = true → act.pays = true) ∧
      ∀ sessionId, (HttpThread.initializing pc').installing = some sessionId →
        act = .skip ∧ sessionId = sh.sessionId := by
  revert h
  fun_cases InitializePc.step sh lockFree pc c <;> intro h
  case case7 =>
    obtain ⟨⟨act, pc'⟩, hstep, heq⟩ := Option.map_eq_some_iff.1 h
    cases heq
    exact HandshakePc.enters hstep
  all_goals cases h
  case case10 | case11 => split <;> exact ⟨(fun h => by cases h), fun _ h => by cases h⟩
  all_goals exact ⟨(fun h => by cases h), fun _ h => by cases h⟩

/-- A thread comes to an install by reading the session, and past it by the install. -/
theorem HttpThread.Steps.enters (h : HttpThread.Steps sh ts c t act t' new) :
    (t'.pastInstall = true → act.pays = true) ∧
      ∀ sessionId, t'.installing = some sessionId → act = .skip ∧ sessionId = sh.sessionId := by
  cases h with
  | request hstep => exact ⟨(fun h => by cases h), TrackedPc.enters hstep⟩
  | supervisor hstep => exact SupervisorPc.enters hstep
  | initializing hstep => exact InitializePc.enters hstep
  | _ => exact ⟨(fun h => by cases h), fun _ h => by cases h⟩

theorem TrackedPc.renews_of_step {pc pc' : TrackedPc} (h : pc.step sh lockFree c = some (act, pc'))
    (hpc : (HttpThread.request pc).renews = true) :
    (HttpThread.request pc').renews = true ∨ act.pays = true ∨ (HttpThread.request pc).defers = true := by
  revert h
  fun_cases TrackedPc.step sh lockFree pc c <;> intro h <;> cases h
  case case9 f pc next =>
    obtain ⟨pc', hnext, hpc'⟩ | hpays | hdefers :=
      ReplacePc.renews_of_step sh lockFree hpc
    · left
      show (HttpThread.request ((Option.map _ next.2).getD _)).renews = true
      rw [hnext]
      exact hpc'
    · exact .inr (.inl hpays)
    · exact .inr (.inr hdefers)
  case case10 f flippedTo pc next =>
    obtain ⟨pc', hnext, hpc'⟩ | hpays | hdefers :=
      ReplacePc.renews_of_step sh lockFree hpc
    · left
      show (HttpThread.request ((Option.map _ next.2).getD _)).renews = true
      rw [hnext]
      exact hpc'
    · exact .inr (.inl hpays)
    · exact .inr (.inr hdefers)
  all_goals cases hpc

/-- A repair that looks again either goes on to its install or drops the debt. -/
theorem TrackedPc.consumes_of_step {pc pc' : TrackedPc} (h : pc.step sh lockFree c = some (act, pc'))
    (hpc : (HttpThread.request pc).consumes sh = true)
    (hdeferred : sh.listenerReplacementDeferred = true) :
    (HttpThread.request pc').renews = true ∨ (HttpThread.request pc).drops sh = true := by
  cases pc with
  | repairing f pc =>
    cases pc with
    | recheck =>
      cases c with
      | go =>
        cases h
        by_cases hended : sh.listenerEndedAfterStreaming = true
        · left
          simp only [ReplacePc.step, if_pos hended]
          rfl
        · right
          show (_ && !sh.listenerEndedAfterStreaming && sh.listenerReplacementDeferred) = true
          rw [Bool.not_eq_true] at hended
          rw [hended, hdeferred]
          rfl
      | _ => cases h
    | _ => cases hpc
  | _ => cases hpc

theorem SupervisorPc.renews_of_step {pc pc' : SupervisorPc}
    (h : pc.step sh lockFree c = some (act, pc')) (hsd : sh.shuttingDown = false)
    (hpc : (HttpThread.supervisor pc).renews = true) :
    (HttpThread.supervisor pc').renews = true ∨ act.pays = true ∨
      (HttpThread.supervisor pc).defers = true := by
  revert h
  fun_cases SupervisorPc.step sh lockFree pc c <;> intro h
  case case24 =>
    obtain ⟨⟨act, pc'⟩, hstep, heq⟩ := Option.map_eq_some_iff.1 h
    cases heq
    obtain hpc' | hpays | ⟨hattempt, -⟩ := HandshakePc.renews_of_step hstep hpc
    · exact .inl hpc'
    · exact .inr (.inl hpays)
    · cases hattempt
  case case31 pc next =>
    cases h
    obtain ⟨pc', hnext, hpc'⟩ | hpays | hdefers :=
      ReplacePc.renews_of_step sh lockFree hpc
    · left
      show (HttpThread.supervisor ((Option.map _ next.2).getD _)).renews = true
      rw [hnext]
      exact hpc'
    · exact .inr (.inl hpays)
    · exact .inr (.inr hdefers)
  all_goals cases h
  case case2 hshutting _ => exact absurd (hsd.symm.trans hshutting) Bool.false_ne_true
  all_goals cases hpc

theorem SupervisorPc.consumes_of_step {pc pc' : SupervisorPc}
    (h : pc.step sh lockFree c = some (act, pc')) (hsd : sh.shuttingDown = false)
    (hdeferred : sh.listenerReplacementDeferred = true) (hpc : pc.consumes sh.reconnectPermit = true) :
    (HttpThread.supervisor pc').renews = true ∨ act.pays = true ∨ ∀ permit, pc'.consumes permit = true := by
  revert h
  fun_cases SupervisorPc.step sh lockFree pc c <;> intro h
  case case24 =>
    obtain ⟨⟨act, pc'⟩, hstep, heq⟩ := Option.map_eq_some_iff.1 h
    cases heq
    obtain hpc' | hpays | hpc' := HandshakePc.consumes_of_step hstep hpc
    · exact .inl hpc'
    · exact .inr (.inl hpays)
    · exact .inr (.inr fun _ => hpc')
  case case31 => cases hpc
  all_goals cases h
  case case2 hshutting _ => exact absurd (hsd.symm.trans hshutting) Bool.false_ne_true
  case case7 | case8 | case12 | case13 | case16 | case17 | case21 | case22 =>
    right
    right
    intro permit
    split <;> rfl
  case case23 outcome =>
    right
    right
    intro permit
    cases outcome with
    | ok outcome =>
      cases outcome with
      | completed => cases hpc
      | obsolete => rfl
    | error err =>
      show decide (attemptEnd (.error err) ≠ .completed) = true
      unfold attemptEnd
      dsimp only
      split <;> rfl
  case case25 | case28 => cases hpc
  case case29 => exact .inl rfl
  case case30 hnot => exact absurd hdeferred hnot
  all_goals exact .inr (.inr fun _ => rfl)

theorem InitializePc.renews_of_step {pc pc' : InitializePc}
    (h : pc.step sh lockFree c = some (act, pc')) (hpc : (HttpThread.initializing pc).renews = true) :
    (HttpThread.initializing pc').renews = true ∨ act.pays = true ∨
      ∃ reason permanent, act = .setHandshakeUnhealthy reason permanent false := by
  revert h
  fun_cases InitializePc.step sh lockFree pc c <;> intro h
  case case7 =>
    obtain ⟨⟨act, pc'⟩, hstep, heq⟩ := Option.map_eq_some_iff.1 h
    cases heq
    obtain hpc' | hpays | ⟨-, hfails⟩ := HandshakePc.renews_of_step hstep hpc
    · exact .inl hpc'
    · exact .inr (.inl hpays)
    · exact .inr (.inr hfails)
  all_goals cases h
  case case2 | case4 | case5 => exact .inl rfl
  all_goals cases hpc

theorem HttpThread.Steps.renews (h : HttpThread.Steps sh ts c t act t' new)
    (hsd : sh.shuttingDown = false) (ht : t.renews = true) :
    t'.renews = true ∨ act.pays = true ∨ t.drops sh = true ∨
      ∃ reason permanent, act = .setHandshakeUnhealthy reason permanent false := by
  have hdrops (hdefers : t.defers = true) : t.drops sh = true := by
    unfold HttpThread.drops
    rw [hdefers]
    rfl
  cases h with
  | request hstep =>
    obtain ht' | hpays | hdefers := TrackedPc.renews_of_step hstep ht
    · exact .inl ht'
    · exact .inr (.inl hpays)
    · exact .inr (.inr (.inl (hdrops hdefers)))
  | supervisor hstep =>
    obtain ht' | hpays | hdefers := SupervisorPc.renews_of_step hstep hsd ht
    · exact .inl ht'
    · exact .inr (.inl hpays)
    · exact .inr (.inr (.inl (hdrops hdefers)))
  | initializing hstep =>
    obtain ht' | hpays | hfails := InitializePc.renews_of_step hstep ht
    · exact .inl ht'
    · exact .inr (.inl hpays)
    · exact .inr (.inr (.inr hfails))
  | _ => cases ht

theorem HttpThread.Steps.consumes (h : HttpThread.Steps sh ts c t act t' new)
    (hsd : sh.shuttingDown = false) (hdeferred : sh.listenerReplacementDeferred = true)
    (ht : t.consumes sh = true) :
    t'.renews = true ∨ act.pays = true ∨ t.drops sh = true ∨ ∀ sh, t'.consumes sh = true := by
  cases h with
  | request hstep =>
    obtain ht' | hdrops := TrackedPc.consumes_of_step hstep ht hdeferred
    · exact .inl ht'
    · exact .inr (.inr (.inl hdrops))
  | supervisor hstep =>
    obtain ht' | hpays | hpc' := SupervisorPc.consumes_of_step hstep hsd hdeferred ht
    · exact .inl ht'
    · exact .inr (.inl hpays)
    · exact .inr (.inr (.inr fun sh => hpc' sh.reconnectPermit))
  | _ => cases ht

theorem ReplacePc.deferred_of_defers {pc : ReplacePc} (h : pc.defers = true) :
    (pc.step sh repair lockFree).1 = .setDeferred true := by
  cases pc with
  | «defer» => rfl
  | _ => cases h

theorem TrackedPc.drops_of_step {pc pc' : TrackedPc} (h : pc.step sh lockFree c = some (act, pc')) :
    ((HttpThread.request pc).defers = true → act = .setDeferred true) ∧
      ((HttpThread.request pc).rechecks = true → act = .skip) := by
  revert h
  fun_cases TrackedPc.step sh lockFree pc c <;> intro h <;> cases h
  case case9 f pc next =>
    refine ⟨fun hdefers => ReplacePc.deferred_of_defers hdefers, fun hrechecks => ?_⟩
    cases pc with
    | recheck => rfl
    | _ => cases hrechecks
  case case10 => exact ⟨fun hdefers => ReplacePc.deferred_of_defers hdefers, fun h => by cases h⟩
  all_goals constructor <;> intro h <;> cases h

theorem SupervisorPc.deferred_of_step {pc pc' : SupervisorPc}
    (h : pc.step sh lockFree c = some (act, pc')) (hsd : sh.shuttingDown = false)
    (hpc : (HttpThread.supervisor pc).defers = true) : act = .setDeferred true := by
  revert h
  fun_cases SupervisorPc.step sh lockFree pc c <;> intro h
  case case24 => cases hpc
  case case31 =>
    cases h
    exact ReplacePc.deferred_of_defers hpc
  all_goals cases h
  case case2 hshutting _ => exact absurd (hsd.symm.trans hshutting) Bool.false_ne_true
  all_goals cases hpc

/-- A thread that drops the debt leaves the flag set. -/
theorem HttpThread.Steps.drops (h : HttpThread.Steps sh ts c t act t' new)
    (hsd : sh.shuttingDown = false) (ht : t.drops sh = true) :
    act = .setDeferred true ∨ act = .skip ∧ sh.listenerReplacementDeferred = true := by
  obtain hdefers | hrechecks := Bool.or_eq_true_iff.1 ht
  · left
    cases h with
    | request hstep => exact (TrackedPc.drops_of_step hstep).1 hdefers
    | supervisor hstep => exact SupervisorPc.deferred_of_step hstep hsd hdefers
    | _ => cases hdefers
  · right
    rw [Bool.and_eq_true_iff, Bool.and_eq_true_iff] at hrechecks
    obtain ⟨⟨hrechecks, -⟩, hdeferred⟩ := hrechecks
    refine ⟨?_, hdeferred⟩
    cases h with
    | request hstep => exact (TrackedPc.drops_of_step hstep).2 hrechecks
    | _ => cases hrechecks

/-! ## Keeping the debt covered -/

theorem settled_installListener {sh : HttpAdapter} (hsd : sh.shuttingDown = false) :
    Settled (sh.installListener sh.sessionId) := by
  simp only [HttpAdapter.installListener, hsd]
  exact ⟨rfl, rfl, _, rfl, rfl, rfl⟩

theorem Settled.markHealthyLocked (h : Settled sh) : Settled sh.markHealthyLocked := by
  refine ⟨h.paid, ?_, h.installed⟩
  unfold HttpAdapter.markHealthyLocked
  dsimp only
  split <;> exact h.renewed

theorem settled_of_pays (hact : act.pays = true) (hsd : sh.shuttingDown = false)
    (hsession : ∀ sessionId, act = .installListener sessionId → sessionId = sh.sessionId) :
    Settled (sh.perform act) := by
  cases act with
  | installListener sessionId =>
    obtain rfl := hsession sessionId rfl
    exact settled_installListener hsd
  | commit2026Handshake identity =>
    exact (@settled_installListener
      { sh.commitServerIdentity identity with upstreamDialect := .v20260728, sessionId := none }
      hsd).markHealthyLocked
  | _ => cases hact

theorem Settled.perform (h : Settled sh) (hpays : act.pays = false)
    (hflip : act = .noteRequestSuccess → sh.recovers = false)
    (hcommit : ∀ sessionId, act ≠ .commitSession sessionId) (hdefer : act ≠ .setDeferred true)
    (hdrain : act ≠ .drainListener) : Settled (sh.perform act) := by
  obtain ⟨hpaid, hrenewed, listener, hlistener, hid, hsession⟩ := h
  cases act with
  | noteRequestSuccess =>
    simp only [HttpAdapter.perform, HttpAdapter.noteRequestSuccess, hflip rfl]
    exact ⟨hpaid, hrenewed, listener, hlistener, hid, hsession⟩
  | noteTransportFailure =>
    simp only [HttpAdapter.perform, HttpAdapter.noteTransportFailure]
    split
    · exact ⟨hpaid, hrenewed, listener, hlistener, hid, hsession⟩
    · split <;> exact ⟨hpaid, hrenewed, listener, hlistener, hid, hsession⟩
  | setHandshakeUnhealthy reason permanent supervisorAttempt =>
    simp only [HttpAdapter.perform, HttpAdapter.setHandshakeUnhealthy]
    split <;> exact ⟨hpaid, hrenewed, listener, hlistener, hid, hsession⟩
  | markHandshakeHealthy =>
    exact Settled.markHealthyLocked ⟨hpaid, hrenewed, listener, hlistener, hid, hsession⟩
  | listenerEnded id =>
    simp only [HttpAdapter.perform, HttpAdapter.listenerEnded]
    split
    · refine ⟨hpaid, hrenewed, if listener.id = id then { listener with finished := true } else listener, ?_⟩
      rw [hlistener]
      refine ⟨rfl, ?_⟩
      by_cases hl : listener.id = id
      · rw [if_pos hl]
        exact ⟨hid, hsession⟩
      · rw [if_neg hl]
        exact ⟨hid, hsession⟩
    · exact ⟨hpaid, hrenewed, listener, hlistener, hid, hsession⟩
  | setDeferred value =>
    cases value with
    | true => exact absurd rfl hdefer
    | false => exact ⟨rfl, hrenewed, listener, hlistener, hid, hsession⟩
  | commitSession sessionId => exact absurd rfl (hcommit sessionId)
  | drainListener => exact absurd rfl hdrain
  | commit2026Handshake => cases hpays
  | installListener => cases hpays
  | _ => exact ⟨hpaid, hrenewed, listener, hlistener, hid, hsession⟩

theorem deferred_perform (hpays : act.pays = false) (hact : act ≠ .setDeferred false)
    (h : sh.listenerReplacementDeferred = true) :
    (sh.perform act).listenerReplacementDeferred = true := by
  cases act with
  | noteRequestSuccess | noteTransportFailure | setHandshakeUnhealthy =>
    exact perform_onHealth (·.listenerReplacementDeferred = true) rfl fun _ _ _ _ _ => h
  | drainListener | listenerEnded => exact perform_onTask (·.listenerReplacementDeferred = true) rfl fun _ _ => h
  | setDeferred value =>
    cases value with
    | true => rfl
    | false => exact absurd rfl hact
  | commit2026Handshake => cases hpays
  | installListener => cases hpays
  | _ => exact h

/-- A recovery, and the declaration at the end of a handshake, alone make the adapter healthy. -/
theorem not_healthy_perform (h : sh.health ≠ .healthy) (hpays : act.pays = false)
    (hflip : act = .noteRequestSuccess → sh.recovers = false) (hmark : act ≠ .markHandshakeHealthy) :
    (sh.perform act).health ≠ .healthy := by
  cases act with
  | noteRequestSuccess =>
    simp only [HttpAdapter.perform, HttpAdapter.noteRequestSuccess, hflip rfl]
    exact h
  | noteTransportFailure =>
    simp only [HttpAdapter.perform, HttpAdapter.noteTransportFailure]
    split
    · intro h
      cases h
    · split
      · intro h
        cases h
      · exact h
  | setHandshakeUnhealthy reason permanent supervisorAttempt =>
    simp only [HttpAdapter.perform, HttpAdapter.setHandshakeUnhealthy]
    split
    · exact h
    · intro h
      cases h
  | drainListener | listenerEnded => exact perform_onTask (·.health ≠ .healthy) rfl fun _ _ => h
  | beginInitialize =>
    intro h
    cases h
  | setStopped =>
    intro h
    cases h
  | markHandshakeHealthy => exact absurd rfl hmark
  | commit2026Handshake => cases hpays
  | installListener => cases hpays
  | _ => exact h

/-! ### Sessions -/

variable {ok : HttpState → HttpAction → Prop} {s : HttpState}

theorem sessionId_perform (hact : act.underLock = false) :
    (sh.perform act).sessionId = sh.sessionId := by
  cases act with
  | noteRequestSuccess =>
    simp only [HttpAdapter.perform, HttpAdapter.noteRequestSuccess]
    split <;> rfl
  | noteTransportFailure =>
    simp only [HttpAdapter.perform, HttpAdapter.noteTransportFailure]
    split
    · rfl
    · split <;> rfl
  | drainListener | listenerEnded => exact perform_onTask (·.sessionId = sh.sessionId) rfl fun _ _ => rfl
  | setHandshakeUnhealthy | commit2026Handshake | installListener | commitSession => cases hact
  | _ => rfl

theorem HttpThread.holds_of_installing (h : t.installing = some sessionId) :
    t.holdsHandshake = true := by
  have hreplace {pc : ReplacePc} (h : pc.installing = some sessionId) : pc.holdsHandshake = true := by
    cases pc with
    | install => rfl
    | _ => cases h
  cases t with
  | request pc =>
    cases pc with
    | repairing f pc => exact hreplace h
    | replacing f flippedTo pc => exact hreplace h
    | _ => cases h
  | supervisor pc =>
    cases pc with
    | handshake => rfl
    | replacing pc => exact hreplace h
    | _ => cases h
  | initializing pc =>
    cases pc with
    | handshake => rfl
    | _ => cases h
  | _ => cases h

/-- **The session of an install is the committed one**, since the lock is held from reading it. -/
theorem snapshots (h : httpAdapter.system.ReachableWhile ok s) :
    ∀ t ∈ s.threads, ∀ sessionId, t.installing = some sessionId → sessionId = s.shared.sessionId := by
  refine Pool.forall_threads_of (P := httpAdapter) (I := httpAdapter.system.ReachableWhile ok)
    (L := fun sh t => ∀ sessionId, t.installing = some sessionId → sessionId = sh.sessionId)
    (fun _ h => h) ?_ ?_ ?_ h
  · intro s op t _ ht
    change op.thread s.threads = some t at ht
    revert ht
    fun_cases HttpOperation.thread s.threads op <;> intro ht <;> cases ht <;> intro _ h <;> cases h
  · intro s i c t sh' t' new _ _ _ _ hstep
    obtain ⟨act, hsteps, rfl⟩ := httpAdapter_steps hstep
    refine ⟨fun sessionId h => ?_, fun u hu sessionId h => ?_⟩
    · obtain ⟨rfl, hsession⟩ := hsteps.enters.2 sessionId h
      exact hsession
    · obtain ⟨rfl, -⟩ := hsteps.spawned u hu
      cases h
  · intro s i c t sh' t' new j u hreach _ hi hj hne _ hu hstep sessionId h
    obtain ⟨act, hsteps, rfl⟩ := httpAdapter_steps hstep
    rw [sessionId_perform (not_underLock hreach hj (HttpThread.holds_of_installing h) hi hne.symm hsteps)]
    exact hu sessionId h

/-! ### The step -/

theorem HttpThread.holds_of_pastInstall (h : t.pastInstall = true) : t.holdsHandshake = true := by
  cases t with
  | supervisor pc =>
    cases pc with
    | handshake => rfl
    | _ => cases h
  | initializing pc =>
    cases pc with
    | handshake => rfl
    | _ => cases h
  | _ => cases h

theorem HttpThread.consumes_mono {sh sh' : HttpAdapter}
    (hpermit : sh.reconnectPermit = true → sh'.reconnectPermit = true) (h : t.consumes sh = true) :
    t.consumes sh' = true := by
  cases t with
  | supervisor pc =>
    cases pc with
    | parked => exact hpermit h
    | _ => exact h
  | request pc =>
    cases pc with
    | repairing f pc => cases pc <;> exact h
    | _ => exact h
  | _ => exact h

section Step

variable {i : Nat} {t t' : HttpThread} {c : HttpChoice} {act : Act} {new : List HttpThread}

/-- Nobody comes to declare the adapter healthy but by an install. -/
theorem pastInstall_stepped (hsteps : HttpThread.Steps s.shared s.threads c t act t' new)
    (hpays : act.pays = false)
    (hothers : ∀ j u, j ≠ i → s.threads[j]? = some u → u.pastInstall = false) :
    ∀ u ∈ Pool.stepped s.threads i t' new, u.pastInstall = false := by
  refine Pool.forall_mem_stepped ?_ ?_ hothers
  · rw [← Bool.not_eq_true]
    intro hpast
    rw [hsteps.enters.1 hpast] at hpays
    cases hpays
  · intro u hu
    obtain ⟨rfl, -⟩ := hsteps.spawned u hu
    rfl

/-- A debt that is dropped is paid off by another thread. -/
theorem owed_of_drops (hguard : paysOff s (.run i c) = true) (hi : s.threads[i]? = some t)
    (hsteps : HttpThread.Steps s.shared s.threads c t act t' new)
    (hsd : s.shared.shuttingDown = false) (hdrops : t.drops s.shared = true) :
    Owed ⟨s.shared.perform act, Pool.stepped s.threads i t' new⟩ := by
  simp only [paysOff, hi, hdrops, Bool.not_true, Bool.false_or] at hguard
  obtain ⟨u, hu, hpays⟩ := List.any_eq_true.1 hguard
  obtain ⟨j, hne, hj⟩ := List.mem_eraseIdx_iff_getElem?.1 hu
  have hu' : u ∈ Pool.stepped s.threads i t' new := Pool.mem_stepped_of_ne hj hne
  obtain hrenews | hconsumes := Bool.or_eq_true_iff.1 hpays
  · exact .inr (.inr (.inl ⟨u, hu', hrenews⟩))
  · obtain rfl | ⟨rfl, hdeferred⟩ := hsteps.drops hsd hdrops
    · exact .inr (.inr (.inr (.inl ⟨rfl, u, hu', hconsumes⟩)))
    · exact .inr (.inr (.inr (.inl ⟨hdeferred, u, hu', hconsumes⟩)))

/-- **The debt stays covered.** -/
theorem Owed.step (h : Owed s) (hreach : httpAdapter.system.ReachableWhile ok s)
    (hguard : paysOff s (.run i c) = true) (hi : s.threads[i]? = some t)
    (hsteps : HttpThread.Steps s.shared s.threads c t act t' new) :
    Owed ⟨s.shared.perform act, Pool.stepped s.threads i t' new⟩ := by
  have hti := List.mem_of_getElem? hi
  have hstreams := streams hreach t hti
  have hacc := hsteps.accounts hstreams
  have hself : t' ∈ Pool.stepped s.threads i t' new := Pool.mem_stepped_self hi
  have hrenewing (ht' : t'.renews = true) : Owed ⟨s.shared.perform act, Pool.stepped s.threads i t' new⟩ :=
    .inr (.inr (.inl ⟨t', hself, ht'⟩))
  by_cases hsd' : (s.shared.perform act).shuttingDown = true
  · exact .inr (.inl hsd')
  by_cases hsd : s.shared.shuttingDown = true
  · -- The shutdown is over: an `initialize` clears the flag.
    by_cases hact : ∃ value, act = .setShuttingDown value
    · obtain ⟨value, rfl⟩ := hact
      cases value with
      | true => exact absurd rfl hsd'
      | false => exact hrenewing hacc
    · rw [shuttingDown_of_perform fun value hv => hact ⟨value, hv⟩] at hsd'
      exact absurd hsd hsd'
  rw [Bool.not_eq_true] at hsd
  by_cases hpays : act.pays = true
  · refine .inl (settled_of_pays hpays hsd ?_)
    rintro sessionId rfl
    exact snapshots hreach t hti sessionId hacc
  rw [Bool.not_eq_true] at hpays
  by_cases hdrops : t.drops s.shared = true
  · exact owed_of_drops hguard hi hsteps hsd hdrops
  by_cases hflips : act = .noteRequestSuccess ∧ s.shared.recovers = true
  · obtain ⟨rfl, hrecovers⟩ := hflips
    exact hrenewing (hacc hrecovers)
  have hflip (hact : act = .noteRequestSuccess) : s.shared.recovers = false :=
    Bool.eq_false_iff.2 fun hrec => hflips ⟨hact, hrec⟩
  obtain hsettled | hshutting | ⟨u, hu, hrenews⟩ | ⟨hdeferred, u, hu, hconsumes⟩ | ⟨hdown, hpast⟩ := h
  · by_cases hcommits : ∃ sessionId, act = .commitSession sessionId
    · obtain ⟨sessionId, rfl⟩ := hcommits
      exact hrenewing hacc
    refine .inl (hsettled.perform hpays hflip (fun sessionId hs => hcommits ⟨sessionId, hs⟩) ?_ ?_)
    · rintro rfl
      refine hdrops (Bool.or_eq_true_iff.2 (.inl hacc))
    · rintro rfl
      obtain ⟨pc, rfl, hpc⟩ := hsteps.stops hstreams (.inl rfl)
      have hset := ((joined hreach) pc hti).1 (ShutdownPc.signalled_of_joined hpc)
      exact absurd (hsd.symm.trans hset) Bool.false_ne_true
  · exact absurd (hsd.symm.trans hshutting) Bool.false_ne_true
  · obtain ⟨j, hj⟩ := List.mem_iff_getElem?.1 hu
    by_cases hne : j = i
    · subst hne
      rw [hi] at hj
      cases hj
      obtain ht' | hp | hd | ⟨reason, permanent, rfl⟩ := hsteps.renews hsd hrenews
      · exact hrenewing ht'
      · exact absurd (hpays.symm.trans hp) Bool.false_ne_true
      · exact absurd hd hdrops
      · -- An `initialize` fails, under the lock.
        have hlock := (hsteps.author hstreams).2.2 rfl
        refine .inr (.inr (.inr (.inr ⟨(fun h => by cases h), pastInstall_stepped hsteps rfl ?_⟩)))
        intro k v hk hv
        rw [← Bool.not_eq_true]
        intro hpast
        exact Pool.not_holds_of_ne (H := fun _ t => t.holdsHandshake = true) (handshakeLock hreach) hi hlock
          hv hk (HttpThread.holds_of_pastInstall hpast)
    · exact .inr (.inr (.inl ⟨u, Pool.mem_stepped_of_ne hj hne, hrenews⟩))
  · by_cases hconsumed : act = .setDeferred false
    · subst hconsumed
      exact hrenewing (hacc hdeferred)
    have hdeferred' := deferred_perform hpays hconsumed hdeferred
    obtain ⟨j, hj⟩ := List.mem_iff_getElem?.1 hu
    by_cases hne : j = i
    · subst hne
      rw [hi] at hj
      cases hj
      obtain ht' | hp | hd | ht' := hsteps.consumes hsd hdeferred hconsumes
      · exact hrenewing ht'
      · exact absurd (hpays.symm.trans hp) Bool.false_ne_true
      · exact absurd hd hdrops
      · exact .inr (.inr (.inr (.inl ⟨hdeferred', t', hself, ht' _⟩)))
    · by_cases hpermit : act = .takePermit
      · subst hpermit
        exact .inr (.inr (.inr (.inl ⟨hdeferred', t', hself, hacc _⟩)))
      · refine .inr (.inr (.inr (.inl ⟨hdeferred', u, Pool.mem_stepped_of_ne hj hne, ?_⟩)))
        exact HttpThread.consumes_mono (fun hp => reconnectPermit_perform hpermit hp) hconsumes
  · have hmark : act ≠ .markHandshakeHealthy := by
      rintro rfl
      exact absurd ((hpast t hti).symm.trans hacc) Bool.false_ne_true
    refine .inr (.inr (.inr (.inr ⟨not_healthy_perform hdown hpays hflip hmark, ?_⟩)))
    exact pastInstall_stepped hsteps hpays fun j u _ hj => hpast u (List.mem_of_getElem? hj)

end Step

theorem HttpOperation.pastInstall_of_thread {op : HttpOperation} (h : op.thread ts = some t) :
    t.pastInstall = false := by
  revert h
  fun_cases HttpOperation.thread ts op <;> intro h <;> cases h <;> rfl

theorem Owed.launch (h : Owed s) (ht : t.pastInstall = false) :
    Owed { s with threads := s.threads ++ [t] } := by
  obtain hsettled | hshutting | ⟨u, hu, hrenews⟩ | ⟨hdeferred, u, hu, hconsumes⟩ | ⟨hdown, hpast⟩ := h
  · exact .inl hsettled
  · exact .inr (.inl hshutting)
  · exact .inr (.inr (.inl ⟨u, List.mem_append_left _ hu, hrenews⟩))
  · exact .inr (.inr (.inr (.inl ⟨hdeferred, u, List.mem_append_left _ hu, hconsumes⟩)))
  · refine .inr (.inr (.inr (.inr ⟨hdown, fun u hu => ?_⟩)))
    rcases List.mem_append.1 hu with hu | hu
    · exact hpast u hu
    · rw [List.mem_singleton.1 hu]
      exact ht

theorem owed (h : httpAdapter.system.ReachableWhile (fun s a => paysOff s a = true) s) :
    s.shared.Sole ∧ Owed s := by
  refine Pool.invariant_of (P := httpAdapter)
    (I := httpAdapter.system.ReachableWhile fun s a => paysOff s a = true)
    (J := fun s => s.shared.Sole ∧ Owed s) (fun _ h => h) ?_ ?_ ?_ h
  · rintro sh rfl
    exact ⟨rfl, .inr (.inr (.inr (.inr ⟨(fun h => by cases h), List.forall_mem_nil _⟩)))⟩
  · intro s op t _ hJ _ ht
    exact ⟨hJ.1, hJ.2.launch (HttpOperation.pastInstall_of_thread ht)⟩
  · intro s i c t sh t' new hreach hJ hguard hi hstep
    obtain ⟨act, hsteps, rfl⟩ := httpAdapter_steps hstep
    exact ⟨hJ.1.perform act, hJ.2.step hreach hguard hi hsteps⟩

/-! ## Every recovery renews the listener -/

theorem HttpThread.recovering_of_renews (h : t.renews = true) : t.recovering sh = true := by
  cases t with
  | request pc =>
    cases pc with
    | repairing => rfl
    | replacing => rfl
    | _ => cases h
  | supervisor pc =>
    cases pc with
    | handshake => rfl
    | replacing => rfl
    | _ => cases h
  | initializing pc =>
    cases pc with
    | returned => cases h
    | _ => rfl
  | _ => cases h

theorem HttpThread.recovering_of_consumes (h : t.consumes sh = true) : t.recovering sh = true := by
  cases t with
  | request pc =>
    cases pc with
    | repairing => rfl
    | _ => cases h
  | supervisor pc =>
    cases pc with
    | parked => exact h
    | ended => cases h
    | _ => rfl
  | _ => cases h

/-- **Every recovery renews the listener**, when no thread drops the debt after the last one that could
pay it: two listeners never run at once, and a healthy adapter at which nothing is under way has a listener
that is newer than its recoveries and carries its session, and no replacement deferred. -/
theorem listener_renewed (h : httpAdapter.system.ReachableWhile (fun s a => paysOff s a = true) s) :
    s.shared.runningListeners.length ≤ 1 ∧
      (s.shared.health = .healthy → s.shared.shuttingDown = false →
        (∀ t ∈ s.threads, t.recovering s.shared = false) → Settled s.shared) := by
  obtain ⟨hsole, howed⟩ := owed h
  constructor
  · rw [hsole]
    split
    · exact Nat.zero_le 1
    · split
      · exact Nat.zero_le 1
      · exact Nat.le_refl 1
  · intro hhealth hsd hidle
    have hbusy {t : HttpThread} (ht : t ∈ s.threads) : t.recovering s.shared ≠ true := by
      rw [hidle t ht]
      exact Bool.false_ne_true
    obtain hsettled | hshutting | ⟨u, hu, hrenews⟩ | ⟨-, u, hu, hconsumes⟩ | ⟨hdown, -⟩ := howed
    · exact hsettled
    · exact absurd (hsd.symm.trans hshutting) Bool.false_ne_true
    · exact absurd (HttpThread.recovering_of_renews hrenews) (hbusy hu)
    · exact absurd (HttpThread.recovering_of_consumes hconsumes) (hbusy hu)
    · exact absurd hhealth hdown

/-- A request recovers the adapter while the supervisor holds the handshake lock, and finds it taken. -/
def recoversUnderAttempt : List HttpAction :=
  initializesWell 0 "s1" ++ threeDie 2 ++ goes 1 7 ++ recoversIt 5 2

/-- **The gap**: the supervisor stands down and finds no flag, and the request stores it then. The adapter
is healthy, nothing is under way, and the listener is the one from before the recovery. -/
theorem listener_not_renewed :
    ∃ s, httpAdapter.system.Reachable s ∧ s.shared.health = .healthy ∧ s.shared.shuttingDown = false ∧
      (∀ t ∈ s.threads, t.recovering s.shared = false) ∧
      s.shared.listenerReplacementDeferred = true ∧ ¬ Settled s.shared := by
  obtain ⟨s, hrun, hhealth, hsd, hidle, hdeferred⟩ :
      ∃ s, httpAdapter.system.run ⟨.new, []⟩ (recoversUnderAttempt ++ goes 1 3 ++ goes 5 3) = some s ∧
        s.shared.health = .healthy ∧ s.shared.shuttingDown = false ∧
          s.threads.all (fun t => !t.recovering s.shared) = true ∧
            s.shared.listenerReplacementDeferred = true :=
    ⟨_, rfl, rfl, rfl, rfl, rfl⟩
  refine ⟨s, System.Reachable.run (.init httpAdapter_init) hrun, hhealth, hsd, ?_, hdeferred, ?_⟩
  · simpa using hidle
  · intro h
    rw [h.paid] at hdeferred
    cases hdeferred

/-- When the request stores the flag first the supervisor pays the debt off. -/
theorem listener_renewed_by_supervisor :
    ∃ s, httpAdapter.system.runWhile paysOff ⟨.new, []⟩ (recoversUnderAttempt ++ goes 5 3 ++ goes 1 7) = some s ∧
      s.shared.runningListeners = [1] ∧ Settled s.shared := by
  obtain ⟨s, hrun, hhealth, hsd, hidle, hrunning⟩ :
      ∃ s, httpAdapter.system.runWhile paysOff ⟨.new, []⟩ (recoversUnderAttempt ++ goes 5 3 ++ goes 1 7) = some s ∧
        s.shared.health = .healthy ∧ s.shared.shuttingDown = false ∧
          s.threads.all (fun t => !t.recovering s.shared) = true ∧ s.shared.runningListeners = [1] :=
    ⟨_, rfl, rfl, rfl, rfl, rfl⟩
  refine ⟨s, hrun, hrunning, ?_⟩
  refine (listener_renewed (.run (fun _ _ h => h) (.init httpAdapter_init) hrun)).2 hhealth hsd ?_
  simpa using hidle

end EndaraRelay.Http
