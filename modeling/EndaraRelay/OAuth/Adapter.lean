import EndaraRelay.Lib.Pool
import EndaraRelay.OAuth.Refresh

/-!
# The OAuth adapter: operations and tasks

The operations on one OAuth adapter and the tasks they spawn, as a pool of threads over
`OAuthAdapterInner`: `initialize` and `shutdown`, the reactive refresh of a request that got a 401,
the manual refresh, the callback of a login, `disconnect`, the heartbeat and the proactive refresh.

A thread stands at an await and a step takes it to the next one, so every await is a point where
others intervene. A lock is held by the thread that stands where it holds it. Three things end a
thread early. The caller of an operation may drop its future at any await; an aborted task stops at
the await it is suspended in; and both release what they held. `initialize` and `shutdown` borrow the
adapter exclusively and a request shares it, as `&mut self` and `&self` say.
-/

namespace EndaraRelay

open Verif

/-! ## Threads -/

/-- Who asked for a refresh, or for a token set to be applied. -/
inductive Driver where
  | startup
  | reactive
  | manual
  | heartbeat
  | proactive
  | proactiveRetry
  | callback
deriving DecidableEq, Repr

/-- The awaits of `disconnect`, which holds `apply_lock` from `aborting` on. -/
inductive DisconnectPc where
  | lock
  | aborting
  | closing
  | forgetting
  | bumping
  | deleting
  | settling
deriving DecidableEq

/-- The awaits of `shutdown`. -/
inductive ShutdownPc where
  | heartbeat
  | refreshTask
  | closing
  | settling
deriving DecidableEq

/-- Where a thread stands. -/
inductive Pc where
  -- `initialize`
  | load
  | restore (tokenSet : TokenSet)
  | expired
  | missing
  | spawnHeartbeat
  | storeHeartbeat (task : Nat)
  -- a refresh driver: the epoch snapshot, the refresh, and the transition of its `Err` arm
  | snapshot (d : Driver)
  | refreshing (d : Driver) (epoch : Nat) (pc : RefreshPc)
  | followUp (d : Driver) (epoch : Nat) (err : OAuthError)
  | applying (d : Driver) (ap : Apply) (pc : ApplyPc)
  -- the callback handler
  | save (tokenSet : TokenSet)
  -- the proactive task
  | sleep
  | detach
  | retrySleep
  | retryDetach
  -- the heartbeat
  | tick
  | probe (generation : Nat)
  | verdict (generation : Nat)
  | disconnecting (pc : DisconnectPc)
  | shuttingDown (pc : ShutdownPc)
  | done
deriving DecidableEq

/-- How the future of an operation borrows the adapter. -/
inductive Borrow where
  | none
  | shared
  | exclusive
deriving DecidableEq

/-- A thread; a spawned task knows its place, by which its handle names it. -/
structure Thread where
  task : Option Nat := none
  borrow : Borrow := .none
  pc : Pc
deriving DecidableEq

/-- Whether the task was aborted. -/
def Thread.aborted (sh : OAuthAdapterInner) (t : Thread) : Bool :=
  t.task.any (sh.aborted.contains ·)

/-- Whether the thread will take no further step. -/
def Thread.finished (sh : OAuthAdapterInner) (t : Thread) : Bool :=
  t.aborted sh || t.pc == .done

/-! ## Locks -/

def Pc.holdsRefreshMutex : Pc → Bool
  | .refreshing _ _ pc => pc.holdsRefreshMutex
  | _ => false

def Pc.holdsApplyLock : Pc → Bool
  | .refreshing _ _ pc => pc.holdsApplyLock
  | .applying _ _ pc => pc.holdsApplyLock
  | .disconnecting .lock => false
  | .disconnecting _ => true
  | _ => false

def Thread.HoldsRefreshMutex (sh : OAuthAdapterInner) (t : Thread) : Prop :=
  t.aborted sh = false ∧ t.pc.holdsRefreshMutex = true

def Thread.HoldsApplyLock (sh : OAuthAdapterInner) (t : Thread) : Prop :=
  t.aborted sh = false ∧ t.pc.holdsApplyLock = true

instance (sh : OAuthAdapterInner) (t : Thread) : Decidable (t.HoldsRefreshMutex sh) :=
  inferInstanceAs (Decidable (_ ∧ _))

instance (sh : OAuthAdapterInner) (t : Thread) : Decidable (t.HoldsApplyLock sh) :=
  inferInstanceAs (Decidable (_ ∧ _))

def refreshMutexFree (sh : OAuthAdapterInner) (ts : List Thread) : Bool :=
  ts.all fun u => !decide (u.HoldsRefreshMutex sh)

def applyLockFree (sh : OAuthAdapterInner) (ts : List Thread) : Bool :=
  ts.all fun u => !decide (u.HoldsApplyLock sh)

/-! ## What the drivers do -/

/-- Where a driver stands when its refresh and what follows it are over. -/
def Driver.returned : Driver → Pc
  | .startup => .spawnHeartbeat
  | .heartbeat => .tick
  | _ => .done

/-- The `Ok` arm of a driver. The startup of an EMA endpoint applies the token set as a new grant, all
others as a refresh of the grant they started with. -/
def Driver.onOk (ema : Bool) (d : Driver) (epoch : Nat) (ts : TokenSet) : Pc :=
  .applying d ⟨ts, if d = .startup ∧ ema then none else some epoch, some epoch⟩ .lock

/-- The `Err` arm of a driver. -/
def Driver.onErr (ema : Bool) (d : Driver) (epoch : Nat) (err : OAuthError) : Pc :=
  match d with
  | .startup => if ema then .spawnHeartbeat else .followUp d epoch err
  | .reactive | .proactiveRetry => .followUp d epoch err
  | .proactive => .retrySleep
  | .manual | .heartbeat | .callback => d.returned

/-- The state the `Err` arm of a driver goes to. -/
def Driver.failureState (d : Driver) (err : OAuthError) : OAuthState :=
  match d with
  | .proactiveRetry => err.target
  | _ => .authRequired

/-- Where a driver stands after a step of its refresh. -/
def RefreshNext.pc (ema : Bool) (d : Driver) (epoch : Nat) : RefreshNext → Pc
  | .at pc => .refreshing d epoch pc
  | .ok tokenSet => d.onOk ema epoch tokenSet
  | .err failure => d.onErr ema epoch failure

/-- Where it stands after a step of its application. -/
def ApplyNext.pc (d : Driver) (ap : Apply) : ApplyNext → Pc
  | .at pc => .applying d ap pc
  | .returned => d.returned

/-! ## One step -/

def DisconnectPc.step (sh : OAuthAdapterInner) (applyFree : Bool) (a : Answer) :
    DisconnectPc → Option (OAuthAdapterInner × Pc)
  | .lock => if applyFree then some (sh, .disconnecting .aborting) else none
  | .aborting => some (sh.abortRefreshTask, .disconnecting .closing)
  | .closing => some ({ sh with innerAdapter := none }, .disconnecting .forgetting)
  | .forgetting => some ({ sh with tokens := none }, .disconnecting .bumping)
  | .bumping => some ({ sh with grantEpoch := sh.grantEpoch + 1 }, .disconnecting .deleting)
  | .deleting =>
    match a with
    | .proceed => some ({ sh with disk := none }, .disconnecting .settling)
    | .fail => some (sh, .disconnecting .settling)
    | _ => none
  | .settling => some (sh.transitionTo .disconnected, .done)

/-- `shutdown` takes no lock; `count` is the number of threads, which its return records. -/
def ShutdownPc.step (sh : OAuthAdapterInner) (count : Nat) :
    ShutdownPc → OAuthAdapterInner × Pc
  | .heartbeat => (sh.abortHeartbeat, .shuttingDown .refreshTask)
  | .refreshTask => (sh.abortRefreshTask, .shuttingDown .closing)
  | .closing => ({ sh with innerAdapter := none }, .shuttingDown .settling)
  | .settling => ({ sh.transitionTo .disconnected with shutdownReturned := some count }, .done)

/-- One step of a thread at `pc` among the threads `ts`: the shared state, where it stands next and
what it spawned. -/
def Pc.step (ema : Bool) (sh : OAuthAdapterInner) (ts : List Thread) (a : Answer) :
    Pc → Option (OAuthAdapterInner × Pc × List Thread)
  | .load =>
    -- `proceed`: the stored set is still valid
    match a, sh.disk with
    | .proceed, some stored => some (sh, .applying .startup ⟨stored, none, none⟩ .lock, [])
    | .fail, some stored =>
      if stored.refreshToken.isSome then some (sh, .restore stored, [])
      else some (sh, .expired, [])
    | .fail, none | .unreadable, _ => some (sh, .missing, [])
    | _, _ => none
  | .restore stored => some ({ sh with tokens := some stored }, .snapshot .startup, [])
  | .expired => some (sh.transitionTo .authRequired, .spawnHeartbeat, [])
  | .missing => some (sh.transitionTo .needsLogin, .spawnHeartbeat, [])
  | .spawnHeartbeat =>
    some (sh, .storeHeartbeat ts.length, [{ task := some ts.length, pc := .tick }])
  | .storeHeartbeat task => some ({ sh with heartbeatTaskHandle := some task }, .done, [])
  | .snapshot d =>
    some (sh, .refreshing d sh.grantEpoch (if ema then .emaStarting else .preToken), [])
  | .refreshing d epoch pc =>
    match pc.step sh (refreshMutexFree sh ts) (applyLockFree sh ts) epoch a with
    | none => none
    | some (sh', next) => some (sh', next.pc ema d epoch, [])
  | .followUp d epoch err =>
    if applyLockFree sh ts then
      some (sh.failIfCurrent epoch (d.failureState err), d.returned, [])
    else none
  | .applying d ap pc =>
    match pc.step ema sh (applyLockFree sh ts) ts.length ap a with
    | none => none
    | some (sh', next, spawned) =>
      some (sh', next.pc d ap,
        if spawned then [{ task := some ts.length, pc := .sleep }] else [])
  | .save tokenSet =>
    match a with
    | .proceed =>
      some ({ sh with disk := some tokenSet }, .applying .callback ⟨tokenSet, none, none⟩ .lock, [])
    | .fail => some (sh, .applying .callback ⟨tokenSet, none, none⟩ .lock, [])
    | _ => none
  | .sleep => some (sh, .detach, [])
  | .detach => some ({ sh with refreshTaskHandle := none }, .snapshot .proactive, [])
  | .retrySleep => some (sh, .retryDetach, [])
  | .retryDetach =>
    some ({ sh with refreshTaskHandle := none }, .snapshot .proactiveRetry, [])
  | .tick =>
    match sh.state with
    | .authenticated => some (sh, .probe sh.lifecycleGeneration, [])
    | .connectionFailed => some (sh, .snapshot .heartbeat, [])
    | _ => none
  | .probe generation =>
    -- `fail`: the probe got a 401; every other verdict leaves the lifecycle alone
    match a with
    | .proceed => some (sh, .tick, [])
    | .fail =>
      if sh.state = .authenticated ∧ sh.lifecycleGeneration = generation then
        some (sh, .verdict generation, [])
      else some (sh, .tick, [])
    | _ => none
  | .verdict generation =>
    -- written under the state lock, past `do_transition`
    if sh.state = .authenticated ∧ sh.lifecycleGeneration = generation then
      some ({ sh with
        state := .authRequired
        lifecycleGeneration := sh.lifecycleGeneration + 1 }, .tick, [])
    else some (sh, .tick, [])
  | .disconnecting pc =>
    match pc.step sh (applyLockFree sh ts) a with
    | none => none
    | some (sh', pc') => some (sh', pc', [])
  | .shuttingDown pc => some ((pc.step sh ts.length).1, (pc.step sh ts.length).2, [])
  | .done => none

/-- What a step leaves to the environment: the future is dropped, or it is resumed with an answer. -/
inductive Choice where
  | drop
  | resume (a : Answer)

/-- One step of a thread. An aborted task takes none, and a task has no caller to drop it. -/
def Thread.step (ema : Bool) (sh : OAuthAdapterInner) (ts : List Thread) (t : Thread) (c : Choice) :
    Option (OAuthAdapterInner × Thread × List Thread) :=
  if t.aborted sh then none
  else
    match c with
    | .drop =>
      if t.task = none ∧ t.pc ≠ .done then some (sh, { t with pc := .done }, []) else none
    | .resume a =>
      match t.pc.step ema sh ts a with
      | none => none
      | some (sh', pc', new) => some (sh', { t with pc := pc' }, new)

/-- The operations on an adapter. -/
inductive Op where
  | initializeAdapter
  | unauthorized
  | oauthRefresh
  | callback (tokenSet : TokenSet)
  | disconnect
  | shutdown
deriving DecidableEq

/-- What an operation launches. A request meets a 401 only through a published inner adapter, and
`oauth_refresh` refuses an endpoint that has no grant. -/
def Op.launch (ema : Bool) (sh : OAuthAdapterInner) (ts : List Thread) : Op → Option Thread
  | .initializeAdapter =>
    if ts.all fun u => u.finished sh || u.borrow == .none then
      some { borrow := .exclusive, pc := if ema then .snapshot .startup else .load }
    else none
  | .unauthorized =>
    if sh.innerAdapter.isSome ∧ ts.all fun u => u.finished sh || u.borrow != .exclusive then
      some { borrow := .shared, pc := .snapshot .reactive }
    else none
  | .oauthRefresh =>
    if sh.state = .needsLogin ∨ sh.state = .disconnected then none
    else some { pc := .snapshot .manual }
  | .callback tokenSet => some { pc := .save tokenSet }
  | .disconnect => some { pc := .disconnecting .lock }
  | .shutdown =>
    if ts.all fun u => u.finished sh || u.borrow == .none then
      some { borrow := .exclusive, pc := .shuttingDown .heartbeat }
    else none

/-- An OAuth adapter as constructed over a token directory, which may hold a token set. -/
def OAuthAdapterInner.new (disk : Option TokenSet) : OAuthAdapterInner := { disk := disk }

/-- All operations and tasks of one adapter; `ema` for an endpoint of an organisation. -/
def oauthPool (ema : Bool) : Pool OAuthAdapterInner Thread Op Choice where
  init sh := ∃ disk, sh = .new disk
  launch := Op.launch ema
  step := Thread.step ema

/-- Where thread `i` stands. -/
def pcAt (s : Pool.State OAuthAdapterInner Thread) (i : Nat) : Option Pc :=
  (s.threads[i]?).map (·.pc)

/-! ## Scenarios -/

theorem oauthPool_init (ema : Bool) (disk : Option TokenSet) :
    (oauthPool ema).system.init ⟨.new disk, []⟩ := ⟨⟨disk, rfl⟩, rfl⟩

/-- Thread `i` takes `n` steps in which all goes well. -/
def proceeds (n i : Nat) : List (Pool.Action Op Choice) :=
  List.replicate n (.run i (.resume .proceed))

/-- A token set with a refresh token and a known expiry. -/
def firstTokens : TokenSet := ⟨"access-1", some "refresh-1", some 3600⟩

def secondTokens : TokenAnswer := ⟨"access-2", some "refresh-2", some 7200⟩

/-- A login, from its callback (thread 0) until its proactive task (thread 1) is armed. -/
def login : List (Pool.Action Op Choice) := .launch (.callback firstTokens) :: proceeds 11 0

end EndaraRelay
