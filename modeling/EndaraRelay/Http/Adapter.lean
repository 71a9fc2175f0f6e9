import EndaraRelay.Lib.Pool
import EndaraRelay.Adapter

/-!
# The HTTP adapter

The lifecycle of `HttpAdapter`: requests with their accounting, the handshakes of `initialize` and of
the reconnect supervisor, the `GET` listener, and `shutdown`, as threads over the shared state.

**Steps.** A thread takes a step between two accesses to the shared state, so that nothing is assumed of
the tasks but the locks they hold. What a step does to the shared state is an `Act`; where the thread
goes on is the business of its program counter. A critical section under the `health` lock is one act.
`initialize` and `shutdown` take `&mut self`: neither is launched while another operation is under way,
and nothing is launched while they are.

**Left to the environment**: the answers of the upstream, when a backoff is over, and how the `GET`
stream fares. A task that `shutdown` aborts may end at any of its steps once `shutting_down` is set.

Nothing looks at `log`, the history of the adapter.
-/

namespace EndaraRelay.Http

open Verif

/-! ## Shared state -/

inductive ProtocolVersion where
  | v20241105
  | v20250326
  | v20260728
deriving DecidableEq

/-- A validated upstream identity. -/
structure ServerIdentity where
  effective : Option String
  upstreamStripped : String
deriving DecidableEq

/-- The handle of a listener task, with the session id the task echoes. -/
structure Listener where
  id : Nat
  sessionId : Option String
  finished : Bool
deriving DecidableEq

/-- What happens to the adapter. -/
inductive HttpEvent where
  /-- Demoted from this live state by failing requests. -/
  | demoted (live : HealthStatus)
  /-- The failure of a handshake is committed. -/
  | failed (permanent : Bool)
  | succeeded
  | starting
  | stopped
  /-- Recovered by a request. -/
  | flipped
  /-- `recovery_generation` advances. -/
  | advanced
  /-- The tick of a recovery is sent. -/
  | ticked
  /-- A listener is installed. -/
  | installed
deriving DecidableEq

/-- `runningListeners` are the listener tasks that have neither finished nor been aborted. -/
structure HttpAdapter where
  health : HealthStatus
  transportFailures : Nat
  handshakeCompleted : Bool
  permanentHandshakeFailure : Bool
  initializeFromUnhealthy : Bool
  recoveryGeneration : Nat
  listenerReplacementDeferred : Bool
  getStreamCapable : Bool
  sessionId : Option String
  upstreamDialect : ProtocolVersion
  serverType : Option String
  upstreamServerName : Option String
  listenerHandle : Option Listener
  runningListeners : List Nat
  nextListener : Nat
  /-- A permit is stored in `reconnect_notify`. -/
  reconnectPermit : Bool
  /-- `recovered_notify` has reached the `Notified` of the supervisor. -/
  recoveredHint : Bool
  shuttingDown : Bool
  log : List HttpEvent

/-- `matches!(health, HealthStatus::Unhealthy(_))`. -/
def isUnhealthy : HealthStatus → Bool
  | .unhealthy _ => true
  | _ => false

def transportFailureThreshold : Nat := 3

def displayError : AdapterError → String
  | .processSpawnFailed msg => "failed to spawn process: " ++ msg
  | .processCrashed msg => "process crashed: " ++ msg
  | .timeout secs => "operation timed out after " ++ toString secs ++ "s"
  | .jsonRpcError code message _ => "JSON-RPC error " ++ toString code ++ ": " ++ message
  | .protocolError msg => "protocol error: " ++ msg
  | .notInitialized => "adapter not initialized"
  | .connectionFailed msg => "connection failed: " ++ msg
  | .httpError status body =>
    "HTTP error " ++ toString status ++ ": " ++
      if body.toList.length ≤ 200 then body else String.ofList (body.toList.take 200) ++ "…"
  | .authenticationRequired endpoint message =>
    "Authentication required for endpoint '" ++ endpoint ++ "': " ++ message
  | .io msg => "IO error: " ++ msg
  | .json msg => "JSON serialization error: " ++ msg

def isTransportDead : AdapterError → Bool
  | .connectionFailed _ | .timeout _ => true
  | .httpError status _ => status = 0
  | _ => false

def isPermanentInitFailure : AdapterError → Bool
  | .httpError status _ => status = 401 ∨ status = 403 ∨ status = 404
  | .protocolError _ => true
  | _ => false

/-! ## Acts -/

inductive Act where
  | skip
  | noteRequestSuccess
  | noteTransportFailure
  | setHandshakeUnhealthy (reason : String) (permanent supervisorAttempt : Bool)
  /-- The commit of the 2026 path, all of it under the `health` lock. -/
  | commit2026Handshake (identity : ServerIdentity)
  | markHandshakeHealthy
  /-- `initialize` notes whether the adapter was `Unhealthy` and writes `Starting`. -/
  | beginInitialize
  | clearInitializeFromUnhealthy
  | setShuttingDown (value : Bool)
  | drainListener
  | clearHandshakeCompleted
  | setStopped
  /-- `reconnect_notify.notify_one()`. -/
  | notifyOne
  | takePermit
  /-- A new `Notified` of `recovered_notify`. -/
  | registerHint
  /-- `recovered_notify.notify_waiters()`. -/
  | notifyWaiters
  | sendTick
  | setDeferred (value : Bool)
  | installListener (sessionId : Option String)
  | commitServerIdentity (identity : ServerIdentity)
  | commitSession (sessionId : Option String)
  | setUpstreamDialect (dialect : ProtocolVersion)
  | listenerAnswered (capable : Bool)
  | listenerEnded (id : Nat)

namespace HttpAdapter

/-- A success recovers the adapter. -/
def recovers (sh : HttpAdapter) : Bool := sh.handshakeCompleted && isUnhealthy sh.health

/-- A transport-dead failure crosses the threshold on a live adapter. -/
def demotes (sh : HttpAdapter) : Bool :=
  transportFailureThreshold ≤ sh.transportFailures + 1 ∧ sh.health ≠ .stopped ∧ !isUnhealthy sh.health

/-- A completed handshake is a recovery. -/
def resumes (sh : HttpAdapter) : Bool := isUnhealthy sh.health || sh.initializeFromUnhealthy

def listenerEndedAfterStreaming (sh : HttpAdapter) : Bool :=
  sh.getStreamCapable && sh.listenerHandle.any (·.finished)

/-- The critical section of `note_request_success`. -/
def noteRequestSuccess (sh : HttpAdapter) : HttpAdapter :=
  if sh.recovers then
    { sh with
      transportFailures := 0
      health := .healthy
      recoveryGeneration := sh.recoveryGeneration + 1
      log := .advanced :: .flipped :: sh.log }
  else { sh with transportFailures := 0 }

/-- The critical section of `note_transport_failure`. -/
def noteTransportFailure (sh : HttpAdapter) : HttpAdapter :=
  if sh.demotes then
    { sh with
      transportFailures := sh.transportFailures + 1
      permanentHandshakeFailure := false
      health := .unhealthy "upstream unreachable"
      log := .demoted sh.health :: sh.log }
  else if transportFailureThreshold ≤ sh.transportFailures + 1 ∧ isUnhealthy sh.health then
    { sh with
      transportFailures := sh.transportFailures + 1
      health := .unhealthy "upstream unreachable" }
  else { sh with transportFailures := sh.transportFailures + 1 }

/-- An attempt of the supervisor is obsolete once the adapter is not `Unhealthy` any more. -/
def obsolete (sh : HttpAdapter) (supervisorAttempt : Bool) : Bool :=
  supervisorAttempt && !isUnhealthy sh.health

def setHandshakeUnhealthy (sh : HttpAdapter) (reason : String) (permanent supervisorAttempt : Bool) :
    HttpAdapter :=
  if sh.obsolete supervisorAttempt then sh
  else
    { sh with
      permanentHandshakeFailure := permanent
      health := .unhealthy reason
      log := .failed permanent :: sh.log }

def markHealthyLocked (sh : HttpAdapter) : HttpAdapter :=
  { sh with
    transportFailures := 0
    handshakeCompleted := true
    permanentHandshakeFailure := false
    initializeFromUnhealthy := false
    health := .healthy
    recoveryGeneration := if sh.resumes then sh.recoveryGeneration + 1 else sh.recoveryGeneration
    log := (if sh.resumes then [.advanced] else []) ++ .succeeded :: sh.log }

/-- The critical section of `spawn_get_listener`. -/
def installListener (sh : HttpAdapter) (sessionId : Option String) : HttpAdapter :=
  if sh.shuttingDown then sh
  else
    { sh with
      listenerReplacementDeferred := false
      listenerHandle := some ⟨sh.nextListener, sessionId, false⟩
      runningListeners := match sh.listenerHandle with
        | none => sh.nextListener :: sh.runningListeners
        | some previous => sh.nextListener :: sh.runningListeners.erase previous.id
      nextListener := sh.nextListener + 1
      log := .installed :: sh.log }

def commitServerIdentity (sh : HttpAdapter) (identity : ServerIdentity) : HttpAdapter :=
  { sh with
    serverType := identity.effective
    upstreamServerName := some identity.upstreamStripped }

def drainListener (sh : HttpAdapter) : HttpAdapter :=
  match sh.listenerHandle with
  | none => sh
  | some listener =>
    { sh with
      listenerHandle := none
      runningListeners := sh.runningListeners.erase listener.id }

/-- A listener task finishes. -/
def listenerEnded (sh : HttpAdapter) (id : Nat) : HttpAdapter :=
  if id ∈ sh.runningListeners then
    { sh with
      listenerHandle := sh.listenerHandle.map fun l => if l.id = id then { l with finished := true } else l
      runningListeners := sh.runningListeners.erase id }
  else sh

def perform (sh : HttpAdapter) : Act → HttpAdapter
  | .skip => sh
  | .noteRequestSuccess => sh.noteRequestSuccess
  | .noteTransportFailure => sh.noteTransportFailure
  | .setHandshakeUnhealthy reason permanent supervisorAttempt =>
    sh.setHandshakeUnhealthy reason permanent supervisorAttempt
  | .commit2026Handshake identity =>
    ({ sh.commitServerIdentity identity with
      upstreamDialect := .v20260728
      sessionId := none }.installListener none).markHealthyLocked
  | .markHandshakeHealthy => sh.markHealthyLocked
  | .beginInitialize =>
    { sh with
      initializeFromUnhealthy := isUnhealthy sh.health
      health := .starting
      log := .starting :: sh.log }
  | .clearInitializeFromUnhealthy => { sh with initializeFromUnhealthy := false }
  | .setShuttingDown value => { sh with shuttingDown := value }
  | .drainListener => sh.drainListener
  | .clearHandshakeCompleted => { sh with handshakeCompleted := false }
  | .setStopped => { sh with health := .stopped, log := .stopped :: sh.log }
  | .notifyOne => { sh with reconnectPermit := true }
  | .takePermit => { sh with reconnectPermit := false }
  | .registerHint => { sh with recoveredHint := false }
  | .notifyWaiters => { sh with recoveredHint := true }
  | .sendTick => { sh with log := .ticked :: sh.log }
  | .setDeferred value => { sh with listenerReplacementDeferred := value }
  | .installListener sessionId => sh.installListener sessionId
  | .commitServerIdentity identity => sh.commitServerIdentity identity
  | .commitSession sessionId => { sh with sessionId := sessionId }
  | .setUpstreamDialect dialect => { sh with upstreamDialect := dialect }
  | .listenerAnswered capable => { sh with getStreamCapable := capable }
  | .listenerEnded id => sh.listenerEnded id

end HttpAdapter

/-! ## The answers of the environment -/

/-- What the dialect probe comes to: a 2026 result, with its identity or what is wrong with its name, or
anything else. -/
inductive ProbeAnswer where
  | modern (identity : Except String ServerIdentity)
  | legacy

/-- The answer to the `initialize` request. -/
inductive InitializeAnswer where
  | sendFailed (err : AdapterError)
  | status (code : Nat) (body : String)
  | bodyUnread (err : AdapterError)
  | malformed (msg : String)
  | jsonRpcError (code : Int) (message : String) (data : Option Json)
  | noResult
  | result (sessionId : Option String) (identity : Except String ServerIdentity)
      (dialect : ProtocolVersion)

/-- How a request of `send_request` ends. -/
inductive RequestOutcome where
  | ok
  | transportDead
  | alive

inductive HttpChoice where
  | go
  | outcome (o : RequestOutcome)
  | probe (a : ProbeAnswer)
  | initialized (a : InitializeAnswer)
  /-- The `Notified` of `recovered_notify` fires. -/
  | hint
  | abort

/-! ## The `GET` listener -/

/-- Where `replace_get_listener_after_recovery` or `repair_get_listener_if_ended` stands. -/
inductive ReplacePc where
  /-- The repair's first look at the listener. -/
  | check
  | tryLock
  | defer
  /-- The repair's second look, under the lock. -/
  | recheck
  | readSession
  | install (sessionId : Option String)
  | unlock

def ReplacePc.holdsHandshake : ReplacePc → Bool
  | .recheck | .readSession | .install _ | .unlock => true
  | _ => false

/-- One step; `none` is the end. -/
def ReplacePc.step (sh : HttpAdapter) (repair lockFree : Bool) : ReplacePc → Act × Option ReplacePc
  | .check => (.skip, if sh.listenerEndedAfterStreaming then some .tryLock else none)
  | .tryLock =>
    (.skip, some (if lockFree then if repair then .recheck else .readSession else .defer))
  | .defer => (.setDeferred true, none)
  | .recheck => (.skip, some (if sh.listenerEndedAfterStreaming then .readSession else .unlock))
  | .readSession => (.skip, some (.install sh.sessionId))
  | .install sessionId => (.installListener sessionId, some .unlock)
  | .unlock => (.skip, none)

/-! ## Handshakes -/

inductive HandshakeOutcome where
  | completed
  | obsolete
deriving DecidableEq

/-- Where `complete_handshake` stands. -/
inductive HandshakePc where
  | entered (discovered : ProbeAnswer)
  /-- `set_handshake_unhealthy` comes next. -/
  | failing (reason : String) (err : AdapterError)
  | commit2026 (identity : ServerIdentity)
  /-- The last look at the health before the `initialize` request. -/
  | beforePost
  | posted
  | commitIdentity (identity : ServerIdentity) (sessionId : Option String) (dialect : ProtocolVersion)
  | commitSession (sessionId : Option String) (dialect : ProtocolVersion)
  | commitDialect (dialect : ProtocolVersion)
  /-- `notifications/initialized` is being sent. -/
  | notifying
  | readSession
  | install (sessionId : Option String)
  | markHealthy
  | finish (flipped : Bool)
  | tick (flipped : Bool)
  | done (outcome : Except AdapterError HandshakeOutcome)

/-- The `initialize` request is answered. -/
def InitializeAnswer.next : InitializeAnswer → HandshakePc
  | .sendFailed err | .bodyUnread err => .failing (displayError err) err
  | .status code body => .failing (displayError (.httpError code body)) (.httpError code body)
  | .malformed msg => .failing (displayError (.protocolError msg)) (.protocolError msg)
  | .jsonRpcError code message data =>
    .failing (displayError (.jsonRpcError code message data)) (.jsonRpcError code message data)
  | .noResult =>
    .failing (displayError (.protocolError "response has no result"))
      (.protocolError "response has no result")
  | .result _ (.error msg) _ => .failing msg (.protocolError msg)
  | .result sessionId (.ok identity) dialect => .commitIdentity identity sessionId dialect

/-- One step of `complete_handshake`. -/
def HandshakePc.step (sh : HttpAdapter) (supervisorAttempt : Bool) :
    HandshakePc → HttpChoice → Option (Act × HandshakePc)
  | .entered (.modern (.error msg)), .go => some (.skip, .failing msg (.protocolError msg))
  | .entered (.modern (.ok identity)), .go => some (.skip, .commit2026 identity)
  | .entered .legacy, .go => some (.skip, .beforePost)
  | .failing reason err, .go =>
    some (.setHandshakeUnhealthy reason (isPermanentInitFailure err) supervisorAttempt,
      .done (.error err))
  | .commit2026 identity, .go =>
    if sh.obsolete supervisorAttempt then some (.skip, .done (.ok .obsolete))
    else some (.commit2026Handshake identity, .finish sh.resumes)
  | .beforePost, .go =>
    some (.skip, if sh.obsolete supervisorAttempt then .done (.ok .obsolete) else .posted)
  | .posted, .initialized a => some (.skip, a.next)
  | .commitIdentity identity sessionId dialect, .go =>
    some (.commitServerIdentity identity, .commitSession sessionId dialect)
  | .commitSession sessionId dialect, .go => some (.commitSession sessionId, .commitDialect dialect)
  | .commitDialect dialect, .go => some (.setUpstreamDialect dialect, .notifying)
  | .notifying, .go => some (.skip, .readSession)
  | .readSession, .go => some (.skip, .install sh.sessionId)
  | .install sessionId, .go => some (.installListener sessionId, .markHealthy)
  | .markHealthy, .go => some (.markHandshakeHealthy, .finish sh.resumes)
  | .finish flipped, .go => some (if flipped then .notifyWaiters else .skip, .tick flipped)
  | .tick flipped, .go => some (if flipped then .sendTick else .skip, .done (.ok .completed))
  | _, _ => none

/-! ## The supervisor -/

/-- What becomes of the attempt loop once the handshake lock is released. -/
inductive AttemptEnd where
  | completed
  | standDown
  | retry
deriving DecidableEq

def attemptEnd : Except AdapterError HandshakeOutcome → AttemptEnd
  | .ok .completed => .completed
  | .ok .obsolete => .standDown
  | .error err => if isPermanentInitFailure err then .standDown else .retry

/-- Where `run_supervisor` stands. -/
inductive SupervisorPc where
  | parked
  | register
  | checkHealth
  | checkLatch
  | backoff
  /-- The hint was renewed; the health is read again. -/
  | backoffHint
  | afterBackoff
  | lockWait
  | lockedHealth
  | lockedLatch
  | probe
  | probeHint
  | probed (a : ProbeAnswer)
  | handshake (pc : HandshakePc)
  | unlock (result : AttemptEnd)
  /-- Out of the attempt loop. -/
  | left (completed : Bool)
  | replacing (pc : ReplacePc)
  | ended

def SupervisorPc.holdsHandshake : SupervisorPc → Bool
  | .lockedHealth | .lockedLatch | .probe | .probeHint | .probed _ | .handshake _ | .unlock _ => true
  | .replacing pc => pc.holdsHandshake
  | _ => false

/-- One step of `run_supervisor`. -/
def SupervisorPc.step (sh : HttpAdapter) (lockFree : Bool) :
    SupervisorPc → HttpChoice → Option (Act × SupervisorPc)
  | .ended, _ => none
  | _, .abort => if sh.shuttingDown then some (.skip, .ended) else none
  | .parked, .go => if sh.reconnectPermit then some (.takePermit, .register) else none
  | .register, .go => some (.registerHint, .checkHealth)
  | .checkHealth, .go => some (.skip, if isUnhealthy sh.health then .checkLatch else .left false)
  | .checkLatch, .go =>
    some (.skip, if sh.permanentHandshakeFailure then .left false else .backoff)
  | .backoff, .hint => if sh.recoveredHint then some (.registerHint, .backoffHint) else none
  | .backoff, .go => some (.skip, .afterBackoff)
  | .backoffHint, .go => some (.skip, if isUnhealthy sh.health then .backoff else .left false)
  | .afterBackoff, .go => some (.skip, if isUnhealthy sh.health then .lockWait else .left false)
  | .lockWait, .go => if lockFree then some (.skip, .lockedHealth) else none
  | .lockedHealth, .go =>
    some (.skip, if isUnhealthy sh.health then .lockedLatch else .unlock .standDown)
  | .lockedLatch, .go =>
    some (.skip, if sh.permanentHandshakeFailure then .unlock .standDown else .probe)
  | .probe, .hint => if sh.recoveredHint then some (.registerHint, .probeHint) else none
  | .probe, .probe a => some (.skip, .probed a)
  | .probeHint, .go => some (.skip, if isUnhealthy sh.health then .probe else .unlock .standDown)
  | .probed a, .go =>
    some (.skip, if isUnhealthy sh.health then .handshake (.entered a) else .unlock .standDown)
  | .handshake (.done outcome), .go => some (.skip, .unlock (attemptEnd outcome))
  | .handshake pc, c => (pc.step sh true c).map fun next => (next.1, .handshake next.2)
  | .unlock .completed, .go => some (.skip, .left true)
  | .unlock .standDown, .go => some (.skip, .left false)
  | .unlock .retry, .go => some (.skip, .register)
  | .left true, .go => some (.skip, .parked)
  | .left false, .go =>
    if sh.listenerReplacementDeferred then some (.setDeferred false, .replacing .tryLock)
    else some (.setDeferred false, .parked)
  | .replacing pc, .go =>
    let next := pc.step sh false lockFree
    some (next.1, (next.2.map .replacing).getD .parked)
  | _, _ => none

/-! ## Requests -/

/-- What `list_tools_tracked` reads before its request. -/
structure Dispatch where
  generationBefore : Nat
  dispatchedUnhealthy : Bool

/-- The generation `list_tools_tracked` reports. -/
def Dispatch.generation (d : Dispatch) (recoveredTo : Option Nat) : Nat :=
  match recoveredTo with
  | some flippedTo =>
    if d.dispatchedUnhealthy ∧ flippedTo = d.generationBefore + 1 then flippedTo
    else d.generationBefore
  | none => d.generationBefore

/-- A request on its way: what was read before it if it is a `list_tools_tracked`, and how long the log
was when the upstream answered. -/
structure Flight where
  dispatch : Option Dispatch
  answeredAt : Nat

/-- Where a request stands. -/
inductive TrackedPc where
  /-- `list_tools_tracked`, before its look at the health. -/
  | listing
  | dispatched (d : Dispatch)
  | inFlight (d : Option Dispatch)
  /-- Answered; `note_request_success` comes next. -/
  | succeeded (f : Flight)
  /-- Dead; `note_transport_failure` comes next. -/
  | dead
  /-- Demoted; `ensure_supervisor_running` comes next. -/
  | ensuring
  | permitting
  | repairing (f : Flight) (pc : ReplacePc)
  | replacing (f : Flight) (flippedTo : Nat) (pc : ReplacePc)
  | notifying (f : Flight) (flippedTo : Nat)
  | ticking (f : Flight) (flippedTo : Nat)
  /-- Returned `Ok`: when the upstream answered, if it was asked, and the reported generation. -/
  | returned (answeredAt : Option Nat) (generation : Option Nat)
  | failed

def TrackedPc.holdsHandshake : TrackedPc → Bool
  | .repairing _ pc | .replacing _ _ pc => pc.holdsHandshake
  | _ => false

def Flight.return (f : Flight) (recoveredTo : Option Nat) : TrackedPc :=
  .returned (some f.answeredAt) (f.dispatch.map (·.generation recoveredTo))

/-- The success is accounted. -/
def TrackedPc.accounted (sh : HttpAdapter) (f : Flight) : TrackedPc :=
  if sh.recovers then .replacing f (sh.recoveryGeneration + 1) .tryLock
  else if sh.handshakeCompleted ∧ sh.health = .healthy then .repairing f .check
  else f.return none

/-- One step of a request. -/
def TrackedPc.step (sh : HttpAdapter) (lockFree : Bool) :
    TrackedPc → HttpChoice → Option (Act × TrackedPc)
  | .listing, .go => some (.skip, .dispatched ⟨sh.recoveryGeneration, isUnhealthy sh.health⟩)
  | .dispatched d, .go =>
    some (.skip, if d.dispatchedUnhealthy && !sh.handshakeCompleted then
      .returned none (some d.generationBefore) else .inFlight (some d))
  | .inFlight d, .outcome .ok => some (.skip, .succeeded ⟨d, sh.log.length⟩)
  | .inFlight _, .outcome .transportDead => some (.skip, .dead)
  | .inFlight _, .outcome .alive => some (.skip, .failed)
  | .succeeded f, .go => some (.noteRequestSuccess, .accounted sh f)
  | .dead, .go => some (.noteTransportFailure, if sh.demotes then .ensuring else .failed)
  | .permitting, .go => some (.notifyOne, .failed)
  | .repairing f pc, .go =>
    let next := pc.step sh true lockFree
    some (next.1, (next.2.map (.repairing f)).getD (f.return none))
  | .replacing f flippedTo pc, .go =>
    let next := pc.step sh false lockFree
    some (next.1, (next.2.map (.replacing f flippedTo)).getD (.notifying f flippedTo))
  | .notifying f flippedTo, .go => some (.notifyWaiters, .ticking f flippedTo)
  | .ticking f flippedTo, .go => some (.sendTick, f.return (some flippedTo))
  | _, _ => none

/-! ## `initialize` and `shutdown` -/

inductive InitializePc where
  | clearing
  | lockWait
  /-- The lock is taken; `Starting` is written next. -/
  | starting
  | probe
  | handshake (pc : HandshakePc)
  | unlock (outcome : Except AdapterError HandshakeOutcome)
  | clearFlag (err : AdapterError)
  /-- `retry_initialize_in_background`, before its look at the health. -/
  | retry
  | ensuring
  | permitting
  /-- Initialized; `ensure_supervisor_running` comes next. -/
  | ensuringOk
  | returned

def InitializePc.holdsHandshake : InitializePc → Bool
  | .starting | .probe | .handshake _ | .unlock _ => true
  | _ => false

def InitializePc.step (sh : HttpAdapter) (lockFree : Bool) :
    InitializePc → HttpChoice → Option (Act × InitializePc)
  | .clearing, .go => some (.setShuttingDown false, .lockWait)
  | .lockWait, .go => if lockFree then some (.skip, .starting) else none
  | .starting, .go => some (.beginInitialize, .probe)
  | .probe, .probe a => some (.skip, .handshake (.entered a))
  | .handshake (.done outcome), .go => some (.skip, .unlock outcome)
  | .handshake pc, c => (pc.step sh false c).map fun next => (next.1, .handshake next.2)
  | .unlock (.ok _), .go => some (.skip, .ensuringOk)
  | .unlock (.error err), .go => some (.skip, .clearFlag err)
  | .clearFlag err, .go =>
    some (.clearInitializeFromUnhealthy, if isPermanentInitFailure err then .returned else .retry)
  | .retry, .go => some (.skip, if isUnhealthy sh.health then .ensuring else .returned)
  | .permitting, .go => some (.notifyOne, .returned)
  | _, _ => none

inductive ShutdownPc where
  | signal
  /-- The supervisor is aborted and joined. -/
  | join
  | drain
  | clearCompleted
  | stop
  | returned

def ShutdownPc.step (supervised : Bool) : ShutdownPc → Option (Act × ShutdownPc)
  | .signal => some (.setShuttingDown true, .join)
  | .join => if supervised then none else some (.skip, .drain)
  | .drain => some (.drainListener, .clearCompleted)
  | .clearCompleted => some (.clearHandshakeCompleted, .stop)
  | .stop => some (.setStopped, .returned)
  | .returned => none

/-! ## The pool -/

inductive HttpThread where
  | request (pc : TrackedPc)
  | supervisor (pc : SupervisorPc)
  | initializing (pc : InitializePc)
  | shutdown (pc : ShutdownPc)
  /-- The stream is about to be answered, or to end. -/
  | stream (act : Act)
  | streamed

namespace HttpThread

def holdsHandshake : HttpThread → Bool
  | .request pc => pc.holdsHandshake
  | .supervisor pc => pc.holdsHandshake
  | .initializing pc => pc.holdsHandshake
  | _ => false

/-- A supervisor task that has not finished. -/
def supervises : HttpThread → Bool
  | .supervisor .ended => false
  | .supervisor _ => true
  | _ => false

/-- A request that has not returned. -/
def borrows : HttpThread → Bool
  | .request (.returned _ _) | .request .failed => false
  | .request _ => true
  | _ => false

/-- An `initialize` or `shutdown` that has not returned. -/
def owns : HttpThread → Bool
  | .initializing .returned | .shutdown .returned => false
  | .initializing _ | .shutdown _ => true
  | _ => false

end HttpThread

/-- `ensure_supervisor_running`: the tasks it spawns. -/
def ensureSupervisorRunning (sh : HttpAdapter) (ts : List HttpThread) : List HttpThread :=
  if sh.shuttingDown || ts.any (·.supervises) then [] else [.supervisor .parked]

/-- One step of a thread: its act, what becomes of it, and what it spawns. -/
def HttpThread.step (sh : HttpAdapter) (ts : List HttpThread) :
    HttpThread → HttpChoice → Option (Act × HttpThread × List HttpThread)
  | .request .ensuring, .go => some (.skip, .request .permitting, ensureSupervisorRunning sh ts)
  | .request pc, c =>
    (pc.step sh (!ts.any (·.holdsHandshake)) c).map fun next => (next.1, .request next.2, [])
  | .supervisor pc, c =>
    (pc.step sh (!ts.any (·.holdsHandshake)) c).map fun next => (next.1, .supervisor next.2, [])
  | .initializing .ensuring, .go =>
    some (.skip, .initializing .permitting, ensureSupervisorRunning sh ts)
  | .initializing .ensuringOk, .go =>
    some (.skip, .initializing .returned, ensureSupervisorRunning sh ts)
  | .initializing pc, c =>
    (pc.step sh (!ts.any (·.holdsHandshake)) c).map fun next => (next.1, .initializing next.2, [])
  | .shutdown pc, .go =>
    (pc.step (ts.any (·.supervises))).map fun next => (next.1, .shutdown next.2, [])
  | .stream act, .go => some (act, .streamed, [])
  | _, _ => none

inductive HttpOperation where
  | listToolsTracked
  /-- Any other method that goes through `send_request`. -/
  | sendRequest
  | initializeAdapter
  | shutdown
  /-- The `GET` request of a listener is answered with a success, or with 404 or 405. -/
  | streamAnswered (capable : Bool)
  | streamEnded (id : Nat)

/-- The thread of an operation, if the borrow of the adapter allows it now. -/
def HttpOperation.thread (ts : List HttpThread) : HttpOperation → Option HttpThread
  | .listToolsTracked => if ts.any (·.owns) then none else some (.request .listing)
  | .sendRequest => if ts.any (·.owns) then none else some (.request (.inFlight none))
  | .initializeAdapter =>
    if ts.any fun t => t.owns || t.borrows then none else some (.initializing .clearing)
  | .shutdown => if ts.any fun t => t.owns || t.borrows then none else some (.shutdown .signal)
  | .streamAnswered capable => some (.stream (.listenerAnswered capable))
  | .streamEnded id => some (.stream (.listenerEnded id))

def HttpAdapter.new : HttpAdapter where
  health := .stopped
  transportFailures := 0
  handshakeCompleted := false
  permanentHandshakeFailure := false
  initializeFromUnhealthy := false
  recoveryGeneration := 0
  listenerReplacementDeferred := false
  getStreamCapable := false
  sessionId := none
  upstreamDialect := .v20250326
  serverType := none
  upstreamServerName := none
  listenerHandle := none
  runningListeners := []
  nextListener := 0
  reconnectPermit := false
  recoveredHint := false
  shuttingDown := false
  log := []

/-- One adapter under concurrent operations. -/
def httpAdapter : Pool HttpAdapter HttpThread HttpOperation HttpChoice where
  init sh := sh = .new
  launch _ ts op := op.thread ts
  step sh ts t c := (t.step sh ts c).map fun next => (sh.perform next.1, next.2.1, next.2.2)

abbrev HttpState := Pool.State HttpAdapter HttpThread

abbrev HttpAction := Pool.Action HttpOperation HttpChoice

/-! ## Steps -/

/-- It writes the health on the outcome of a request or of a failed handshake. -/
def Act.onHealth : Act → Bool
  | .noteRequestSuccess | .noteTransportFailure | .setHandshakeUnhealthy _ _ _ => true
  | _ => false

/-- It ends a listener task. -/
def Act.onTask : Act → Bool
  | .drainListener | .listenerEnded _ => true
  | _ => false

theorem httpAdapter_init : httpAdapter.system.init ⟨.new, []⟩ := ⟨rfl, rfl⟩

/-- The steps of a thread, by its kind. -/
inductive HttpThread.Steps (sh : HttpAdapter) (ts : List HttpThread) (c : HttpChoice) :
    HttpThread → Act → HttpThread → List HttpThread → Prop
  | request {pc pc' : TrackedPc} {act : Act}
      (h : pc.step sh (!ts.any (·.holdsHandshake)) c = some (act, pc')) :
      Steps sh ts c (.request pc) act (.request pc') []
  | supervisor {pc pc' : SupervisorPc} {act : Act}
      (h : pc.step sh (!ts.any (·.holdsHandshake)) c = some (act, pc')) :
      Steps sh ts c (.supervisor pc) act (.supervisor pc') []
  | initializing {pc pc' : InitializePc} {act : Act}
      (h : pc.step sh (!ts.any (·.holdsHandshake)) c = some (act, pc')) :
      Steps sh ts c (.initializing pc) act (.initializing pc') []
  | shutdown {pc pc' : ShutdownPc} {act : Act} (h : pc.step (ts.any (·.supervises)) = some (act, pc')) :
      Steps sh ts c (.shutdown pc) act (.shutdown pc') []
  | requestEnsures : Steps sh ts c (.request .ensuring) .skip (.request .permitting)
      (ensureSupervisorRunning sh ts)
  | retryEnsures : Steps sh ts c (.initializing .ensuring) .skip (.initializing .permitting)
      (ensureSupervisorRunning sh ts)
  | initializedEnsures : Steps sh ts c (.initializing .ensuringOk) .skip (.initializing .returned)
      (ensureSupervisorRunning sh ts)
  | stream {act : Act} : Steps sh ts c (.stream act) act .streamed []

variable {sh : HttpAdapter} {t t' : HttpThread} {c : HttpChoice} {act : Act}

/-- What an act on the health can write. -/
theorem perform_onHealth (P : HttpAdapter → Prop) (hact : act.onHealth = true)
    (h : ∀ failures permanent health generation log, P { sh with
      transportFailures := failures
      permanentHandshakeFailure := permanent
      health := health
      recoveryGeneration := generation
      log := log }) : P (sh.perform act) := by
  cases act with
  | noteRequestSuccess =>
    simp only [HttpAdapter.perform, HttpAdapter.noteRequestSuccess]
    split <;> exact h _ _ _ _ _
  | noteTransportFailure =>
    simp only [HttpAdapter.perform, HttpAdapter.noteTransportFailure]
    split
    · exact h _ _ _ _ _
    · split <;> exact h _ _ _ _ _
  | setHandshakeUnhealthy reason permanent supervisorAttempt =>
    simp only [HttpAdapter.perform, HttpAdapter.setHandshakeUnhealthy]
    split <;> exact h _ _ _ _ _
  | _ => cases hact

/-- What an act on the running listener can write. -/
theorem perform_onTask (P : HttpAdapter → Prop) (hact : act.onTask = true)
    (h : ∀ handle running, P { sh with listenerHandle := handle, runningListeners := running }) :
    P (sh.perform act) := by
  cases act with
  | drainListener =>
    simp only [HttpAdapter.perform, HttpAdapter.drainListener]
    split <;> exact h _ _
  | listenerEnded id =>
    simp only [HttpAdapter.perform, HttpAdapter.listenerEnded]
    split <;> exact h _ _
  | _ => cases hact

theorem HttpThread.steps {ts new : List HttpThread} (h : t.step sh ts c = some (act, t', new)) :
    HttpThread.Steps sh ts c t act t' new := by
  revert h
  fun_cases HttpThread.step sh ts t c <;> intro h
  case case2 =>
    obtain ⟨_, hstep, heq⟩ := Option.map_eq_some_iff.1 h
    cases heq
    exact .request hstep
  case case3 =>
    obtain ⟨_, hstep, heq⟩ := Option.map_eq_some_iff.1 h
    cases heq
    exact .supervisor hstep
  case case6 =>
    obtain ⟨_, hstep, heq⟩ := Option.map_eq_some_iff.1 h
    cases heq
    exact .initializing hstep
  case case7 =>
    obtain ⟨_, hstep, heq⟩ := Option.map_eq_some_iff.1 h
    cases heq
    exact .shutdown hstep
  all_goals cases h
  case case1 => exact .requestEnsures
  case case4 => exact .retryEnsures
  case case5 => exact .initializedEnsures
  case case8 => exact .stream

theorem httpAdapter_steps {sh sh' : HttpAdapter} {ts new : List HttpThread}
    (h : httpAdapter.step sh ts t c = some (sh', t', new)) :
    ∃ act, HttpThread.Steps sh ts c t act t' new ∧ sh' = sh.perform act := by
  obtain ⟨⟨act, t', new⟩, hstep, heq⟩ := Option.map_eq_some_iff.1 h
  cases heq
  exact ⟨act, HttpThread.steps hstep, rfl⟩

/-- The supervisor is spawned only while there is none, and never in a shutdown. -/
theorem mem_ensureSupervisorRunning {ts : List HttpThread} {u : HttpThread}
    (h : u ∈ ensureSupervisorRunning sh ts) :
    u = .supervisor .parked ∧ sh.shuttingDown = false ∧ ts.any (·.supervises) = false := by
  unfold ensureSupervisorRunning at h
  split at h
  · cases h
  · next hfree =>
    rw [Bool.not_eq_true, Bool.or_eq_false_iff] at hfree
    exact ⟨List.mem_singleton.1 h, hfree⟩

theorem HttpThread.Steps.spawned {ts new : List HttpThread} (h : HttpThread.Steps sh ts c t act t' new) :
    ∀ u ∈ new, u = .supervisor .parked ∧ sh.shuttingDown = false ∧ ts.any (·.supervises) = false := by
  cases h with
  | requestEnsures => exact fun u hu => mem_ensureSupervisorRunning hu
  | retryEnsures => exact fun u hu => mem_ensureSupervisorRunning hu
  | initializedEnsures => exact fun u hu => mem_ensureSupervisorRunning hu
  | _ =>
    intro u hu
    cases hu

def Act.ofStream : Act → Bool
  | .listenerAnswered _ | .listenerEnded _ => true
  | _ => false

/-- A stream does only what streams do. -/
def HttpThread.Streams : HttpThread → Prop
  | .stream act => act.ofStream = true
  | _ => True

theorem streams {ok : HttpState → HttpAction → Prop} {s : HttpState}
    (h : httpAdapter.system.ReachableWhile ok s) : ∀ t ∈ s.threads, t.Streams := by
  refine Pool.forall_threads (P := httpAdapter) (L := fun _ t => t.Streams) ?_ ?_ ?_ h
  · intro s op t _ ht
    change op.thread s.threads = some t at ht
    revert ht
    fun_cases HttpOperation.thread s.threads op <;> intro ht <;> cases ht <;> trivial
  · intro sh ts t c sh' t' new _ hstep
    obtain ⟨act, hsteps, -⟩ := httpAdapter_steps hstep
    refine ⟨?_, fun u hu => ?_⟩
    · cases hsteps <;> trivial
    · obtain ⟨rfl, -⟩ := hsteps.spawned u hu
      trivial
  · intro _ _ _ _ _ _ _ _ _ hu _
    exact hu

/-! ## Schedules -/

def goes (i n : Nat) : List HttpAction := List.replicate n (.run i .go)

def someIdentity : ServerIdentity := ⟨none, "server"⟩

/-- An `initialize` over the legacy path goes well. -/
def initializesWell (i : Nat) (sessionId : String) : List HttpAction :=
  [.launch .initializeAdapter] ++ goes i 3 ++ [.run i (.probe .legacy)] ++ goes i 2 ++
    [.run i (.initialized (.result (some sessionId) (.ok someIdentity) .v20250326))] ++ goes i 12

/-- A request is answered; the adapter is recovered by it, and `n` more steps are taken of the seven until
it returns. -/
def recoversIt (i n : Nat) : List HttpAction :=
  [.launch .sendRequest, .run i (.outcome .ok)] ++ goes i n

/-- A request dies on the way. -/
def diesOnTheWay (i : Nat) : List HttpAction :=
  [.launch .sendRequest, .run i (.outcome .transportDead)] ++ goes i 1

/-- Three requests die, and the third arms the supervisor. -/
def threeDie (i : Nat) : List HttpAction :=
  diesOnTheWay i ++ diesOnTheWay (i + 1) ++ diesOnTheWay (i + 2) ++ goes (i + 2) 2

end EndaraRelay.Http
