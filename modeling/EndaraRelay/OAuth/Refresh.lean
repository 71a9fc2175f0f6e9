import Mathlib.Data.List.Basic
import Mathlib.Tactic.Simps.Basic

/-!
# The OAuth adapter: lifecycle, token refresh, token application

`OAuthAdapterInner` is the state every refresh driver, the callback handler and the background tasks
share. This module has the lifecycle table, the writers of the shared state, and the two long
operations on it, each as a machine that goes from one `.await` to the next:

* `RefreshPc.step` is `do_token_refresh_with_epoch` (and `do_ema_refresh`, for an endpoint of an
  organisation): the coalescing under `refresh_mutex`, the inputs read under `apply_lock`, the POST,
  the discovery fallback, and the transitions guarded by the grant epoch;
* `ApplyPc.step` is `apply_tokens_inner`: the epoch check, the disk write, the rebuild of the inner
  adapter, the write in memory and the proactive task.

Whatever the network, the disk and the clock decide is the `Answer` a step receives. The `log` holds
no data of the program. It lists, newest first, what was requested and done, for the properties to
speak about.
-/

namespace EndaraRelay

/-! ## The lifecycle -/

/-- Internal state of an OAuth-authenticated endpoint. -/
inductive OAuthState where
  | needsLogin
  | authenticated
  | refreshing
  | authRequired
  | connectionFailed
  | disconnected
deriving DecidableEq, Repr

/-- The pairs `assert_legal_transition` admits. -/
def OAuthState.legal : OAuthState → OAuthState → Bool
  | .needsLogin, .refreshing | .needsLogin, .authRequired | .needsLogin, .authenticated
  | .needsLogin, .connectionFailed | .needsLogin, .disconnected => true
  | .refreshing, .authenticated | .refreshing, .authRequired | .refreshing, .connectionFailed
  | .refreshing, .disconnected => true
  | .authenticated, .refreshing | .authenticated, .connectionFailed
  | .authenticated, .authRequired | .authenticated, .disconnected => true
  | .connectionFailed, .authenticated | .connectionFailed, .refreshing
  | .connectionFailed, .authRequired | .connectionFailed, .disconnected => true
  | .authRequired, .refreshing | .authRequired, .disconnected => true
  | .disconnected, .needsLogin | .disconnected, .refreshing => true
  | old, new => old == new

@[simp] theorem OAuthState.legal_refreshing (old : OAuthState) : old.legal .refreshing := by
  cases old <;> rfl

@[simp] theorem OAuthState.legal_disconnected (old : OAuthState) : old.legal .disconnected := by
  cases old <;> rfl

theorem OAuthState.legal_authRequired {old : OAuthState} :
    old.legal .authRequired ↔ old ≠ .disconnected := by
  cases old <;> decide

theorem OAuthState.legal_connectionFailed {old : OAuthState} :
    old.legal .connectionFailed ↔ old ≠ .authRequired ∧ old ≠ .disconnected := by
  cases old <;> decide

theorem OAuthState.legal_authenticated {old : OAuthState} :
    old.legal .authenticated ↔ old ≠ .authRequired ∧ old ≠ .disconnected := by
  cases old <;> decide

theorem OAuthState.legal_needsLogin {old : OAuthState} :
    old.legal .needsLogin ↔ old = .needsLogin ∨ old = .disconnected := by
  cases old <;> decide

/-! ## The shared state -/

/-- A token set, without the fields no refresh decision reads. -/
structure TokenSet where
  accessToken : String
  refreshToken : Option String
  expiresAt : Option Nat
deriving DecidableEq, Repr

/-- How a refresh can leave its mark: the refreshed set on disk or in memory, or the lifecycle
transition of its failure. -/
inductive RefreshEffect where
  | disk
  | memory
  | failure (target : OAuthState)
deriving DecidableEq, Repr

/-- What the log keeps. A refresh effect carries the grant epoch its refresh started with and the one
current at the effect. -/
inductive Event where
  | transition (old new : OAuthState)
  | refreshed (effect : RefreshEffect) (started current : Nat)
  | installed
  | armed
  | posted (epoch : Nat) (refreshToken : String)
  | rotated (epoch : Nat) (refreshToken : String)
deriving DecidableEq, Repr

/-- `OAuthAdapterInner`. A task is named by its place among all threads; `aborted` are the tasks whose
handle was aborted. `shutdownReturned` is for the properties only: how many threads there were when
`shutdown` last returned, until a new grant is applied. -/
structure OAuthAdapterInner where
  state : OAuthState := .needsLogin
  tokens : Option TokenSet := none
  innerAdapter : Option String := none
  disk : Option TokenSet := none
  refreshTaskHandle : Option Nat := none
  heartbeatTaskHandle : Option Nat := none
  lifecycleGeneration : Nat := 0
  grantEpoch : Nat := 0
  aborted : List Nat := []
  shutdownReturned : Option Nat := none
  log : List Event := []
deriving DecidableEq, Repr

namespace OAuthAdapterInner

variable (sh : OAuthAdapterInner)

/-- `do_transition`. -/
@[simps state tokens innerAdapter grantEpoch aborted shutdownReturned log]
def doTransition (target : OAuthState) : OAuthAdapterInner :=
  { sh with state := target, log := .transition sh.state target :: sh.log }

/-- `transition_to`. -/
@[simps state tokens innerAdapter grantEpoch aborted shutdownReturned log]
def transitionTo (target : OAuthState) : OAuthAdapterInner :=
  { sh.doTransition target with lifecycleGeneration := sh.lifecycleGeneration + 1 }

def transitionIfCurrent (epoch : Nat) (target : OAuthState) : OAuthAdapterInner :=
  if sh.grantEpoch = epoch then sh.transitionTo target else sh

/-- `transition_if_current` for the failure of a refresh. -/
def failIfCurrent (epoch : Nat) (target : OAuthState) : OAuthAdapterInner :=
  if sh.grantEpoch = epoch then
    let sh' := sh.transitionTo target
    { sh' with log := .refreshed (.failure target) epoch sh.grantEpoch :: sh'.log }
  else sh

def refreshToken : Option String := sh.tokens.bind (·.refreshToken)

/-- Abort the task whose handle is given, if there is one. -/
@[simps state tokens grantEpoch aborted shutdownReturned log]
def abort (handle : Option Nat) : OAuthAdapterInner :=
  { sh with aborted := handle.toList ++ sh.aborted }

/-- `refresh_task_handle.take()`, and abort the task. -/
@[simps state tokens grantEpoch aborted shutdownReturned log]
def abortRefreshTask : OAuthAdapterInner :=
  { sh.abort sh.refreshTaskHandle with refreshTaskHandle := none }

/-- `heartbeat_task_handle.take()`, and abort the task. -/
@[simps state tokens grantEpoch aborted shutdownReturned log]
def abortHeartbeat : OAuthAdapterInner :=
  { sh.abort sh.heartbeatTaskHandle with heartbeatTaskHandle := none }

end OAuthAdapterInner

/-! ## What the environment answers -/

/-- What a token endpoint returns: `expires_in` is already added to the clock. -/
structure TokenAnswer where
  accessToken : String
  refreshToken : Option String
  expiresAt : Option Nat
deriving DecidableEq, Repr

/-- Outcome of a single POST to the OAuth token endpoint. -/
inductive TokenPostOutcome where
  | success (answer : TokenAnswer)
  | notFound
  | httpError
  | network
  | invalidJson
deriving DecidableEq, Repr

/-- Why `ensure_access_token` fails, without the reasons and with the failures of the network legs in
one. -/
inductive EmaError where
  | reauthRequired
  | authorizationDenied
  | storage
  | transport
deriving DecidableEq, Repr

/-- The lifecycle state `do_ema_refresh` goes to. -/
def EmaError.target : EmaError → OAuthState
  | .reauthRequired | .authorizationDenied => .authRequired
  | .storage | .transport => .connectionFailed

/-- What a refresh returns when it fails. -/
inductive OAuthError where
  | staleGrant
  | noRefreshToken
  | refreshFailed
  | http
  | ema
deriving DecidableEq, Repr

/-- The lifecycle state a failed refresh goes to. The proactive retry goes by the same rule. -/
def OAuthError.target : OAuthError → OAuthState
  | .refreshFailed | .noRefreshToken => .authRequired
  | .staleGrant | .http | .ema => .connectionFailed

/-- The environment's part in a step: whether what was awaited succeeded, that a file could not be
read, the answer of the token endpoint, the outcome of the EMA chain. -/
inductive Answer where
  | proceed
  | fail
  | unreadable
  | post (outcome : TokenPostOutcome)
  | chain (result : Except EmaError TokenSet)

/-! ## Refresh -/

/-- The awaits of `do_token_refresh_with_epoch` and `do_ema_refresh`. From `compare` to `failing`, and
from `emaRecheck` to `emaSave`, the refresh holds `refresh_mutex`. -/
inductive RefreshPc where
  | preToken
  | refreshMutex (preToken : Option String)
  | compare (preToken : Option String)
  | inputs
  | starting (refreshToken : String)
  | post (refreshToken : String)
  | rediscover (refreshToken : String)
  | repost (refreshToken : String)
  | failing (err : OAuthError)
  | emaStarting
  | emaFastPath
  | emaMutex
  | emaRecheck
  | emaChain
  | emaGuard (tokenSet : TokenSet)
  | emaSave (tokenSet : TokenSet)
  | emaFailing (err : EmaError)
deriving DecidableEq

def RefreshPc.holdsRefreshMutex : RefreshPc → Bool
  | .compare _ | .inputs | .starting _ | .post _ | .rediscover _ | .repost _ | .failing _
  | .emaRecheck | .emaChain | .emaGuard _ | .emaSave _ => true
  | .preToken | .refreshMutex _ | .emaStarting | .emaFastPath | .emaMutex | .emaFailing _ => false

/-- The EMA chain saves its token set under `apply_lock`. -/
def RefreshPc.holdsApplyLock : RefreshPc → Bool
  | .emaSave _ => true
  | _ => false

/-- A refresh goes on at an await, or returns. -/
inductive RefreshNext where
  | at (pc : RefreshPc)
  | ok (tokenSet : TokenSet)
  | err (e : OAuthError)

/-- The token set of a successful answer. Without a rotated refresh token the one in memory is kept. -/
def TokenAnswer.tokenSet (a : TokenAnswer) (oldRefreshToken : Option String) : TokenSet :=
  ⟨a.accessToken, a.refreshToken.or oldRefreshToken, a.expiresAt⟩

/-- The POST of `rt` for a refresh started in `epoch`, and its success with `answered`. -/
@[simps state tokens grantEpoch aborted shutdownReturned]
def OAuthAdapterInner.exchanged (sh : OAuthAdapterInner) (epoch : Nat) (rt : String)
    (answered : Option String) : OAuthAdapterInner :=
  { sh with
    log := (if answered.any (· != rt) then [.rotated epoch rt] else []) ++
      .posted epoch rt :: sh.log }

/-- The POST of `rt`, which fails. -/
@[simps state tokens grantEpoch aborted shutdownReturned]
def OAuthAdapterInner.rejected (sh : OAuthAdapterInner) (epoch : Nat) (rt : String) :
    OAuthAdapterInner :=
  { sh with log := .posted epoch rt :: sh.log }

/-- One step of a refresh started in `epoch`; `mutexFree` and `applyFree` say whether `refresh_mutex`
and `apply_lock` can be taken. -/
def RefreshPc.step (sh : OAuthAdapterInner) (mutexFree applyFree : Bool) (epoch : Nat)
    (a : Answer) : RefreshPc → Option (OAuthAdapterInner × RefreshNext)
  | .preToken => some (sh, .at (.refreshMutex (sh.tokens.map (·.accessToken))))
  | .refreshMutex pre => if mutexFree then some (sh, .at (.compare pre)) else none
  | .compare pre =>
    match sh.tokens with
    | none => some (sh, .at .inputs)
    | some ts => if some ts.accessToken = pre then some (sh, .at .inputs) else some (sh, .ok ts)
  | .inputs =>
    -- epoch check and refresh-token read are paired under `apply_lock`
    if !applyFree then none
    else if epoch ≠ sh.grantEpoch then some (sh, .err .staleGrant)
    else
      match sh.refreshToken with
      | none => some (sh, .at (.failing .noRefreshToken))
      | some rt => some (sh, .at (.starting rt))
  | .starting rt =>
    if applyFree then some (sh.transitionIfCurrent epoch .refreshing, .at (.post rt)) else none
  | .post rt =>
    match a with
    | .post (.success answer) =>
      some (sh.exchanged epoch rt answer.refreshToken, .ok (answer.tokenSet sh.refreshToken))
    | .post .notFound => some (sh.rejected epoch rt, .at (.rediscover rt))
    | .post .httpError => some (sh.rejected epoch rt, .at (.failing .refreshFailed))
    | .post .network | .post .invalidJson =>
      some (sh.rejected epoch rt, .at (.failing .http))
    | _ => none
  | .rediscover rt =>
    -- `fail`: no resource URL, no metadata, or the endpoint that just answered 404
    match a with
    | .proceed => some (sh, .at (.repost rt))
    | .fail => some (sh, .at (.failing .refreshFailed))
    | _ => none
  | .repost rt =>
    match a with
    | .post (.success answer) =>
      some (sh.exchanged epoch rt answer.refreshToken, .ok (answer.tokenSet sh.refreshToken))
    | .post _ => some (sh.rejected epoch rt, .at (.failing .refreshFailed))
    | _ => none
  | .failing err =>
    if applyFree then some (sh.failIfCurrent epoch err.target, .err err) else none
  | .emaStarting =>
    if applyFree then some (sh.transitionIfCurrent epoch .refreshing, .at .emaFastPath) else none
  | .emaFastPath =>
    match a, sh.disk with
    | .proceed, some ts => some (sh, .ok ts)
    | .fail, _ => some (sh, .at .emaMutex)
    | .unreadable, _ => some (sh, .at (.emaFailing .storage))
    | _, _ => none
  | .emaMutex => if mutexFree then some (sh, .at .emaRecheck) else none
  | .emaRecheck =>
    match a, sh.disk with
    | .proceed, some ts => some (sh, .ok ts)
    | .fail, _ => some (sh, .at .emaChain)
    | .unreadable, _ => some (sh, .at (.emaFailing .storage))
    | _, _ => none
  | .emaChain =>
    match a with
    | .chain (.ok ts) => some (sh, .at (.emaGuard ts))
    | .chain (.error err) => some (sh, .at (.emaFailing err))
    | _ => none
  | .emaGuard ts =>
    if !applyFree then none
    else if epoch ≠ sh.grantEpoch then some (sh, .err .staleGrant)
    else some (sh, .at (.emaSave ts))
  | .emaSave ts =>
    match a with
    | .proceed =>
      some ({ sh with
        disk := some ts
        log := .refreshed .disk epoch sh.grantEpoch :: sh.log }, .ok ts)
    | .fail => some (sh, .at (.emaFailing .storage))
    | _ => none
  | .emaFailing err =>
    if applyFree then some (sh.failIfCurrent epoch err.target, .err .ema) else none

/-! ## Application -/

/-- The arguments of `apply_tokens_inner`: a new grant has no `refreshEpoch`. `startedAt` is for the
properties: the epoch with which the refresh that obtained the set started, if a refresh did. -/
structure Apply where
  tokenSet : TokenSet
  refreshEpoch : Option Nat
  startedAt : Option Nat
deriving DecidableEq

/-- The awaits of `apply_tokens_inner`. `apply_lock` is held from `entering` on. -/
inductive ApplyPc where
  | lock
  | entering
  | saving
  | aborting
  | rebuild
  | publishing
  | authenticated
  | clearing
  | connectionFailed
  | remembering
  | arming
  | storing (task : Nat)
deriving DecidableEq

def ApplyPc.holdsApplyLock : ApplyPc → Bool
  | .lock => false
  | _ => true

inductive ApplyNext where
  | at (pc : ApplyPc)
  | returned

/-- The epoch in force at an effect of the application, not counting the increment by which a new
grant replaces its predecessor itself. -/
def Apply.current (a : Apply) (sh : OAuthAdapterInner) : Nat :=
  match a.refreshEpoch with
  | some _ => sh.grantEpoch
  | none => sh.grantEpoch - 1

/-- What an application logs when it writes the token set. -/
def Apply.effect (a : Apply) (sh : OAuthAdapterInner) (effect : RefreshEffect) : List Event :=
  a.startedAt.toList.map fun started => .refreshed effect started (a.current sh)

/-- Whether a proactive refresh can be scheduled: the expiry is known, and there is a refresh token or
the chain does without. -/
def TokenSet.schedules (ema : Bool) (ts : TokenSet) : Bool :=
  ts.expiresAt.isSome && (ts.refreshToken.isSome || ema)

/-- One step of `apply_tokens_inner`; `fresh` names the task spawned next. The Boolean says that the
proactive task was spawned. -/
def ApplyPc.step (ema : Bool) (sh : OAuthAdapterInner) (applyFree : Bool) (fresh : Nat) (ap : Apply)
    (a : Answer) : ApplyPc → Option (OAuthAdapterInner × ApplyNext × Bool)
  | .lock =>
    if !applyFree then none
    else
      match ap.refreshEpoch with
      | some epoch =>
        if epoch ≠ sh.grantEpoch then some (sh, .returned, false)
        else some (sh, .at .entering, false)
      | none =>
        some ({ sh with
          grantEpoch := sh.grantEpoch + 1
          shutdownReturned := none }, .at .entering, false)
  | .entering =>
    some (if sh.state = .refreshing then sh else sh.transitionTo .refreshing, .at .saving, false)
  | .saving =>
    match a with
    | .proceed =>
      some ({ sh with
        disk := some ap.tokenSet
        log := ap.effect sh .disk ++ sh.log }, .at .aborting, false)
    | .fail => some (sh, .at .aborting, false)
    | _ => none
  | .aborting => some (sh.abortRefreshTask, .at .rebuild, false)
  | .rebuild =>
    match a with
    | .proceed => some (sh, .at .publishing, false)
    | .fail => some (sh, .at .clearing, false)
    | _ => none
  | .publishing =>
    some ({ sh with
      innerAdapter := some ap.tokenSet.accessToken
      log := .installed :: sh.log }, .at .authenticated, false)
  | .authenticated => some (sh.transitionTo .authenticated, .at .remembering, false)
  | .clearing => some ({ sh with innerAdapter := none }, .at .connectionFailed, false)
  | .connectionFailed => some (sh.transitionTo .connectionFailed, .at .remembering, false)
  | .remembering =>
    some ({ sh with
      tokens := some ap.tokenSet
      log := ap.effect sh .memory ++ sh.log },
      if ap.tokenSet.schedules ema then .at .arming else .returned, false)
  | .arming => some ({ sh with log := .armed :: sh.log }, .at (.storing fresh), true)
  | .storing task => some ({ sh with refreshTaskHandle := some task }, .returned, false)

end EndaraRelay
