import EndaraRelay.Logins
import EndaraRelay.OAuth.FlowManager

/-!
# Starts, callbacks and resets

The authorization of endpoints as threads over the flow manager and the record files. `oauth_start_inner`
(`management.rs`) samples the generation of the endpoint, finds the authorization server, may register a
client, and starts a flow if the generation is still the same. `oauth_callback` (`server.rs`) consumes the
flow, checks it, exchanges the code, and checks it again under the commit lock before it commits.
`oauth_reset` invalidates the endpoint under the commit lock, disconnects, and goes on as a start of its own.

**Acts.** A step of a thread is an act on what is shared, and `FlowStores.apply` is what it does there.
`FlowStep` lists the steps with their acts, and is all that is used of them later on
(`FlowThread.step_cases`).
-/

namespace EndaraRelay.ResetFlows

open Verif

/-! ## History -/

/-- What a callback commits. -/
inductive FlowCommit where
  | idpSaved
  | setupAuthorized
  | tokensSaved
  | clientApplied
  | tokensApplied
deriving DecidableEq

/-- What happens, by the number of the start or the reset. -/
inductive FlowEvent where
  | sampled (start : Nat) (name : String)
  | clientSaved (start : Nat) (name : String)
  | registered (start : Nat) (name state : String)
  | consumed (state : String) (age : Nat)
  | committed (start : Nat) (name : String) (kind : FlowCommit)
  | resetBegan (reset : Nat) (name : String)
  | invalidated (reset : Nat) (name : String)
  | resetFinished (reset : Nat) (name : String)
deriving DecidableEq

/-- The flow manager, the record file of each endpoint, and the history, oldest first, which no step reads. -/
structure FlowStores where
  manager : OAuthFlowManager
  files : String → Option DcrText
  log : List FlowEvent

/-- A step of a thread, as the manager and the files see it. -/
inductive FlowAct where
  | pass
  | sample (start : Nat) (name : String)
  | write (name : String) (file : Option DcrText) (registered : Option Nat)
  | register (state : String) (flow : PendingFlow)
  | startFlow (state : String) (flow : PendingFlow)
  | consume (state : String) (now : Nat)
  | lock (name : String) (held : Nat → Bool)
  | commit (flow : PendingFlow) (kind : FlowCommit)
  | beginReset (reset : Nat) (name : String)
  | invalidate (reset : Nat) (name : String)
  | finishReset (reset : Nat) (name : String)

namespace FlowAct

def manager (m : OAuthFlowManager) : FlowAct → OAuthFlowManager
  | register state flow => m.insert state flow
  | startFlow state flow => m.startFlow state flow
  | consume state _ => m.consumeFlow state
  | lock name held => (m.commitLock name held).2
  | invalidate _ name => m.invalidateEndpoint name
  | _ => m

def files (files : String → Option DcrText) : FlowAct → String → Option DcrText
  | write name file _ => Function.update files name file
  | _ => files

def events (m : OAuthFlowManager) : FlowAct → List FlowEvent
  | sample start name => [.sampled start name]
  | write name _ (some start) => [.clientSaved start name]
  | register state flow => [.registered flow.start flow.endpointName state]
  | startFlow state flow =>
    [.sampled flow.start flow.endpointName, .registered flow.start flow.endpointName state]
  | consume state now =>
    match m.consumed state now with
    | some flow => [.consumed state (now - flow.createdAt)]
    | none => []
  | commit flow kind => [.committed flow.start flow.endpointName kind]
  | beginReset reset name => [.resetBegan reset name]
  | invalidate reset name => [.invalidated reset name]
  | finishReset reset name => [.resetFinished reset name]
  | _ => []

end FlowAct

def FlowStores.apply (sh : FlowStores) (a : FlowAct) : FlowStores :=
  ⟨a.manager sh.manager, a.files sh.files, sh.log ++ a.events sh.manager⟩

/-- A state value has been given out. -/
def FlowStores.issued (sh : FlowStores) (state : String) : Bool :=
  sh.log.any fun
    | .registered _ _ state' => state' = state
    | _ => false

/-! ## Threads -/

/-- What the token endpoint answers. -/
inductive ExchangeAnswer where
  | tokens
  | error
  | invalidClient

/-- What the environment answers: the config of the endpoint, whether the file call of the step succeeds, what
discovery finds, the answer of the registration endpoint, whether the callback is from the issuer of the flow,
the answer of the token endpoint, whether there is an adapter, the value of `generate_state`, and the time. -/
structure FlowAnswer where
  config : EndpointClient := {}
  succeeds : Bool := true
  found : Bool := true
  registers : Bool := true
  issuer : Option String := none
  registration : Except String RegisteredClient := .error ""
  fromIssuer : Bool := true
  exchange : ExchangeAnswer := .tokens
  adapter : Bool := true
  state : String := ""
  now : Nat := 0

/-- Where `oauth_start_inner` gets its client. -/
inductive ClientChoice where
  | use (client : FlowClient)
  | reregister (creds : DcrCredentials)
  | register
  | unsupported

def chooseClient (cfg : EndpointClient) (registers : Bool) (issuer : Option String)
    (persisted : Option DcrCredentials) : ClientChoice :=
  let bound := persisted.map (DcrCredentials.boundTo issuer)
  match bound.filter fun creds => creds.registeredViaDcr && registers with
  | some creds => .reregister creds
  | none =>
    match cfg.clientId with
    | some cid => .use (configClient cfg cid bound)
    | none =>
      match bound with
      | some creds => .use ⟨creds.clientId, creds.clientSecret, true⟩
      | none => if registers then .register else .unsupported

inductive StartPc where
  | sampling
  | loading (generation : Nat) (cfg : EndpointClient)
  | resolving (generation : Nat) (cfg : EndpointClient) (persisted : Option DcrCredentials)
  | saving (generation : Nat) (resp : RegisteredClient) (issuer : Option String)
  | updating (generation : Nat) (expected : Option String) (resp : RegisteredClient) (issuer : Option String)
  | starting (generation : Nat) (client : FlowClient)
  | ended

/-- The client is registered, if it has to be. -/
def StartPc.resolve (generation : Nat) (cfg : EndpointClient) (persisted : Option DcrCredentials)
    (env : FlowAnswer) : StartPc :=
  match chooseClient cfg env.registers env.issuer persisted, env.registration with
  | .use client, _ => .starting generation client
  | .reregister _, .ok resp =>
    .updating generation ((persisted.filter (·.registeredViaDcr)).map (·.clientId)) resp env.issuer
  | .reregister creds, .error _ =>
    if creds.clientId = "" then .ended else .starting generation ⟨creds.clientId, creds.clientSecret, true⟩
  | .register, .ok resp => .saving generation resp env.issuer
  | .register, .error _ | .unsupported, _ => .ended

/-- `oauth_start_inner`. A client that was registered again is saved if the record is the one that was read. -/
def StartPc.step (sh : FlowStores) (id : Nat) (name : String) (env : FlowAnswer) :
    StartPc → Option (FlowAct × StartPc)
  | .sampling => some (.sample id name, .loading (sh.manager.generation name) env.config)
  | .loading generation cfg =>
    some (.pass, if env.found then
        .resolving generation cfg (if env.succeeds then storedRecord (sh.files name) else none)
      else .ended)
  | .resolving generation cfg persisted => some (.pass, resolve generation cfg persisted env)
  | .saving generation resp issuer =>
    some (.write name (saveDcr env.succeeds (firstRegistration resp issuer env.now) (sh.files name))
        (if env.succeeds then some id else none),
      .starting generation ⟨resp.clientId, resp.clientSecret, true⟩)
  | .updating generation expected resp issuer =>
    if sh.files name = some .unreadable then
      some (.pass, .starting generation ⟨resp.clientId, resp.clientSecret, true⟩)
    else if matchesSnapshot expected (storedRecord (sh.files name)) then
      some (.write name
          (updateDcrFile env.succeeds env.now (reregistrationUpdate expected resp issuer) (sh.files name))
          (if env.succeeds then some id else none),
        .starting generation ⟨resp.clientId, resp.clientSecret, true⟩)
    else some (.pass, .ended)
  | .starting generation client =>
    let flow : PendingFlow := ⟨id, name, client, none, env.now, generation⟩
    match sh.manager.startFlowIfCurrent env.state flow with
    | none => some (.pass, .ended)
    | some _ => if sh.issued env.state then none else some (.register env.state flow, .ended)
  | .ended => none

inductive CallbackPc where
  | consuming (state : String)
  | checking (flow : PendingFlow)
  | guarding (flow : PendingFlow)
  | exchanging (flow : PendingFlow)
  | fetching (flow : PendingFlow)
  | locking (flow : PendingFlow) (lock : Nat)
  | rechecking (flow : PendingFlow) (lock : Nat)
  | committing (flow : PendingFlow) (lock : Nat)
  | savingTokens (flow : PendingFlow) (lock : Nat)
  | applyingClient (flow : PendingFlow) (lock : Nat)
  | applyingTokens (flow : PendingFlow) (lock : Nat)
  | ended

/-- The record has another client than the flow. -/
def replaced (sh : FlowStores) (env : FlowAnswer) (flow : PendingFlow) : Bool :=
  flow.idpIssuer.isNone && env.succeeds &&
    !passesSupersession flow.client.clientId (sh.files flow.endpointName)

def commitIf (succeeds : Bool) (flow : PendingFlow) (kind : FlowCommit) : FlowAct :=
  if succeeds then .commit flow kind else .pass

/-- `oauth_callback`. `held` are the commit locks with a reference, `guarded` those that are locked. -/
def CallbackPc.step (sh : FlowStores) (held guarded : Nat → Bool) (env : FlowAnswer) :
    CallbackPc → Option (FlowAct × CallbackPc)
  | .consuming state =>
    some (.consume state env.now, match sh.manager.consumed state env.now with
      | some flow => .checking flow
      | none => .ended)
  | .checking flow => some (.pass, if sh.manager.isCurrent flow then .guarding flow else .ended)
  | .guarding flow =>
    some (.pass, if env.fromIssuer && !replaced sh env flow then .exchanging flow else .ended)
  | .exchanging flow =>
    match env.exchange with
    | .tokens => some (.pass, .fetching flow)
    | .error => some (.pass, .ended)
    | .invalidClient =>
      some (.write flow.endpointName
        ((DcrWrite.clear flow.client.clientId).apply env.succeeds env.now (sh.files flow.endpointName)) none,
        .ended)
  | .fetching flow =>
    some (.lock flow.endpointName held, .locking flow (sh.manager.commitLock flow.endpointName held).1)
  | .locking flow lock => if guarded lock then none else some (.pass, .rechecking flow lock)
  | .rechecking flow lock =>
    some (.pass, if sh.manager.isCurrent flow then .committing flow lock else .ended)
  | .committing flow lock =>
    if flow.idpIssuer.isSome then some (commitIf env.succeeds flow .idpSaved, .ended)
    else if flow.endpointName.startsWith "setup:" then
      some (commitIf env.succeeds flow .setupAuthorized, .ended)
    else some (.pass, if replaced sh env flow then .ended else .savingTokens flow lock)
  | .savingTokens flow lock => some (commitIf env.succeeds flow .tokensSaved, .applyingClient flow lock)
  | .applyingClient flow lock =>
    some (commitIf env.adapter flow .clientApplied, if env.adapter then .applyingTokens flow lock else .ended)
  | .applyingTokens flow _ => some (.commit flow .tokensApplied, .ended)
  | .ended => none

inductive ResetPc where
  | beginning
  | fetching
  | locking (lock : Nat)
  | invalidating (lock : Nat)
  | loading (lock : Nat)
  | deletingTokens (lock : Nat) (preserved : Option DcrCredentials)
  | deletingRecord (lock : Nat) (preserved : Option DcrCredentials) (tokensDeleted : Bool)
  | restoring (lock : Nat) (preserved : Option DcrCredentials) (tokensDeleted : Bool)
  | releasing (lock : Nat) (disconnected : Bool)
  | ended
  | refused

/-- `oauth_reset`, without the start that follows. -/
def ResetPc.step (sh : FlowStores) (held guarded : Nat → Bool) (id : Nat) (name : String)
    (env : FlowAnswer) : ResetPc → Option (FlowAct × ResetPc)
  | .beginning => some (if env.adapter then (.beginReset id name, .fetching) else (.pass, .refused))
  | .fetching => some (.lock name held, .locking (sh.manager.commitLock name held).1)
  | .locking lock => if guarded lock then none else some (.pass, .invalidating lock)
  | .invalidating lock => some (.invalidate id name, .loading lock)
  | .loading lock =>
    some (.pass, .deletingTokens lock (if env.succeeds then storedRecord (sh.files name) else none))
  | .deletingTokens lock preserved => some (.pass, .deletingRecord lock preserved env.succeeds)
  | .deletingRecord lock preserved tokensDeleted =>
    some (.write name (deleteDcr env.succeeds (sh.files name)) none, .restoring lock preserved tokensDeleted)
  | .restoring lock preserved tokensDeleted =>
    match tokensDeleted, preserved with
    | true, some creds =>
      some (.write name (saveDcr env.succeeds creds (sh.files name)) none, .releasing lock tokensDeleted)
    | _, _ => some (.pass, .releasing lock tokensDeleted)
  | .releasing _ _ => some (.finishReset id name, .ended)
  | .ended | .refused => none

/-- The threads. `quick` is a flow that is started with `start_flow` or `start_idp_flow`. -/
inductive FlowThread where
  | start (id : Nat) (name : String) (pc : StartPc)
  | quick (id : Nat) (name : String) (client : FlowClient) (idpIssuer : Option String)
  | quickEnded (id : Nat) (name : String)
  | callback (pc : CallbackPc)
  | reset (id : Nat) (name : String) (pc : ResetPc)

namespace FlowThread

/-- The commit lock that a thread has a reference to, and its endpoint. -/
def holds : FlowThread → Option (String × Nat)
  | callback (.locking flow lock) | callback (.rechecking flow lock) => some (flow.endpointName, lock)
  | callback (.committing flow lock) | callback (.savingTokens flow lock) => some (flow.endpointName, lock)
  | callback (.applyingClient flow lock) => some (flow.endpointName, lock)
  | callback (.applyingTokens flow lock) => some (flow.endpointName, lock)
  | reset _ name (.locking lock) | reset _ name (.invalidating lock) => some (name, lock)
  | reset _ name (.loading lock) | reset _ name (.deletingTokens lock _) => some (name, lock)
  | reset _ name (.deletingRecord lock _ _) | reset _ name (.restoring lock _ _) => some (name, lock)
  | reset _ name (.releasing lock _) => some (name, lock)
  | _ => none

def waits : FlowThread → Bool
  | callback (.locking _ _) | reset _ _ (.locking _) => true
  | _ => false

/-- The commit lock that a thread has locked. -/
def guards (t : FlowThread) : Option (String × Nat) := if t.waits then none else t.holds

end FlowThread

/-- A reset that has disconnected goes on as a start. -/
def ResetPc.continues (next : Nat) (name : String) : ResetPc → List FlowThread
  | releasing _ true => [.start next name .sampling]
  | _ => []

def heldBy (ts : List FlowThread) (lock : Nat) : Bool :=
  ts.any fun t => t.holds.any fun l => l.2 = lock

def guardedBy (ts : List FlowThread) (lock : Nat) : Bool :=
  ts.any fun t => t.guards.any fun l => l.2 = lock

def FlowThread.step (sh : FlowStores) (ts : List FlowThread) (env : FlowAnswer) :
    FlowThread → Option (FlowAct × FlowThread × List FlowThread)
  | start id name pc => (pc.step sh id name env).map fun r => (r.1, start id name r.2, [])
  | quick id name client idpIssuer =>
    if sh.issued env.state then none
    else some (.startFlow env.state ⟨id, name, client, idpIssuer, env.now, 0⟩, quickEnded id name, [])
  | quickEnded _ _ => none
  | callback pc => (pc.step sh (heldBy ts) (guardedBy ts) env).map fun r => (r.1, callback r.2, [])
  | reset id name pc =>
    (pc.step sh (heldBy ts) (guardedBy ts) id name env).map fun r =>
      (r.1, reset id name r.2, pc.continues ts.length name)

inductive FlowOp where
  | start (name : String)
  | quick (name : String) (client : FlowClient) (idpIssuer : Option String)
  | callback (state : String)
  | reset (name : String)

/-- Any number of starts, callbacks and resets of any endpoints, with any record files. -/
def flows : Pool FlowStores FlowThread FlowOp FlowAnswer where
  init sh := sh.manager = .new ∧ sh.log = []
  launch _ ts
    | .start name => some (.start ts.length name .sampling)
    | .quick name client idpIssuer => some (.quick ts.length name client idpIssuer)
    | .callback state => some (.callback (.consuming state))
    | .reset name => some (.reset ts.length name .beginning)
  step sh ts t env := (t.step sh ts env).map fun r => (sh.apply r.1, r.2.1, r.2.2)

abbrev FlowsState := Pool.State FlowStores FlowThread

/-- Without other threads a start chooses its client as `startClient` says. -/
theorem startClient_eq_chooseClient (cfg : EndpointClient) (env : LoginEnvironment)
    (file : Option DcrText) :
    startClient cfg env file =
      match chooseClient cfg env.registrationEndpoint.isSome env.issuer (storedRecord file) with
      | .use client => (.ok client, file)
      | .reregister creds => reregister env creds file
      | .register => registerFirst env file
      | .unsupported => (.error "dcr_unsupported", file) := by
  unfold startClient chooseClient
  dsimp only
  cases hpersisted : ((storedRecord file).map (DcrCredentials.boundTo env.issuer)).filter
      fun creds => creds.registeredViaDcr && env.registrationEndpoint.isSome with
  | some creds => rfl
  | none =>
    cases cfg.clientId with
    | some cid => rfl
    | none =>
      cases hbound : (storedRecord file).map (DcrCredentials.boundTo env.issuer) with
      | some creds => rfl
      | none =>
        cases hregisters : env.registrationEndpoint with
        | some endpoint => rfl
        | none => simp [registerFirst, hregisters]

/-! ## What the steps do -/

def StartPc.generation : StartPc → Option Nat
  | loading generation _ | resolving generation _ _ | saving generation _ _ => some generation
  | updating generation _ _ _ | starting generation _ => some generation
  | sampling | ended => none

def CallbackPc.flow : CallbackPc → Option PendingFlow
  | checking flow | guarding flow | exchanging flow | fetching flow => some flow
  | locking flow _ | rechecking flow _ | committing flow _ => some flow
  | savingTokens flow _ | applyingClient flow _ | applyingTokens flow _ => some flow
  | consuming _ | ended => none

def CallbackPc.commits : CallbackPc → Option PendingFlow
  | committing flow _ | savingTokens flow _ => some flow
  | applyingClient flow _ | applyingTokens flow _ => some flow
  | _ => none

/-- An act between the sample and the start of a flow. -/
inductive StartWork (id : Nat) (name : String) : FlowAct → Prop where
  | pass : StartWork id name .pass
  | write (file : Option DcrText) (registered : Option Nat) (h : ∀ i ∈ registered, i = id) :
      StartWork id name (.write name file registered)

/-- An act of a callback or a reset that is no event. -/
inductive PlainAct (name : String) (held : Nat → Bool) : FlowAct → Prop where
  | pass : PlainAct name held .pass
  | write (file : Option DcrText) : PlainAct name held (.write name file none)
  | lock : PlainAct name held (.lock name held)

inductive StartStep (sh : FlowStores) (id : Nat) (name : String) (env : FlowAnswer) :
    StartPc → FlowAct → StartPc → Prop where
  | sample {pc' : StartPc} (h : pc'.generation = some (sh.manager.generation name)) :
      StartStep sh id name env .sampling (.sample id name) pc'
  | work {pc pc' : StartPc} {a : FlowAct} {generation : Nat} (h : pc.generation = some generation)
      (h' : pc' = .ended ∨ pc'.generation = some generation) (hwork : StartWork id name a) :
      StartStep sh id name env pc a pc'
  | register {client : FlowClient} {generation : Nat} (h : generation = sh.manager.generation name)
      (hfresh : sh.issued env.state = false) :
      StartStep sh id name env (.starting generation client)
        (.register env.state ⟨id, name, client, none, env.now, generation⟩) .ended

def ResetPc.trace (id : Nat) (name : String) : ResetPc → List FlowEvent
  | beginning | refused => []
  | fetching | locking _ | invalidating _ => [.resetBegan id name]
  | loading _ | deletingTokens _ _ | deletingRecord _ _ _ => [.resetBegan id name, .invalidated id name]
  | restoring _ _ _ | releasing _ _ => [.resetBegan id name, .invalidated id name]
  | ended => [.resetBegan id name, .invalidated id name, .resetFinished id name]

inductive ResetStep (held : Nat → Bool) (id : Nat) (name : String) :
    ResetPc → FlowAct → ResetPc → Prop where
  | begin : ResetStep held id name .beginning (.beginReset id name) .fetching
  | invalidate (lock : Nat) : ResetStep held id name (.invalidating lock) (.invalidate id name) (.loading lock)
  | finish (lock : Nat) (disconnected : Bool) :
      ResetStep held id name (.releasing lock disconnected) (.finishReset id name) .ended
  | work {pc pc' : ResetPc} {a : FlowAct} (h : pc'.trace id name = pc.trace id name)
      (hwork : PlainAct name held a) : ResetStep held id name pc a pc'

def FlowEvent.owner : FlowEvent → Option Nat
  | sampled start _ => some start
  | resetBegan reset _ | invalidated reset _ | resetFinished reset _ => some reset
  | _ => none

namespace FlowThread

def id : FlowThread → Option Nat
  | start id _ _ | quick id _ _ _ | quickEnded id _ | reset id _ _ => some id
  | callback _ => none

def trace : FlowThread → List FlowEvent
  | start _ _ .sampling => []
  | start id name _ | quickEnded id name => [.sampled id name]
  | reset id name pc => pc.trace id name
  | _ => []

end FlowThread

section Steps

variable {sh : FlowStores} {ts new : List FlowThread} {t t' u : FlowThread} {env : FlowAnswer} {a : FlowAct}
  {id start generation : Nat} {name : String} {held guarded : Nat → Bool} {flow : PendingFlow}

theorem StartPc.generation_resolve (generation : Nat) (cfg : EndpointClient)
    (persisted : Option DcrCredentials) (env : FlowAnswer) :
    resolve generation cfg persisted env = .ended ∨
      (resolve generation cfg persisted env).generation = some generation := by
  unfold resolve
  split
  · exact .inr rfl
  · exact .inr rfl
  · split
    · exact .inl rfl
    · exact .inr rfl
  · exact .inr rfl
  · exact .inl rfl
  · exact .inl rfl

theorem mem_saved {saved : Bool} : ∀ i ∈ (if saved then some id else none), i = id := by
  cases saved <;> simp

theorem StartPc.step_cases {pc pc' : StartPc} (h : pc.step sh id name env = some (a, pc')) :
    StartStep sh id name env pc a pc' := by
  cases pc with
  | sampling =>
    cases h
    exact .sample rfl
  | loading generation cfg =>
    cases h
    refine .work rfl ?_ .pass
    split
    · exact .inr rfl
    · exact .inl rfl
  | resolving generation cfg persisted =>
    cases h
    exact .work rfl (generation_resolve generation cfg persisted env) .pass
  | saving generation resp issuer =>
    cases h
    exact .work rfl (.inr rfl) (.write _ _ mem_saved)
  | updating generation expected resp issuer =>
    rw [step] at h
    split at h
    · cases h
      exact .work rfl (.inr rfl) .pass
    · split at h
      · cases h
        exact .work rfl (.inr rfl) (.write _ _ mem_saved)
      · cases h
        exact .work rfl (.inl rfl) .pass
  | starting generation client =>
    rw [step] at h
    split at h
    · cases h
      exact .work rfl (.inl rfl) .pass
    · next m' hstart =>
      split at h
      · cases h
      · next hfresh =>
        cases h
        exact .register (OAuthFlowManager.startFlowIfCurrent_eq_some hstart).1.symm (by simpa using hfresh)
  | ended => cases h

inductive CallbackStep (sh : FlowStores) (held : Nat → Bool) (env : FlowAnswer) :
    CallbackPc → FlowAct → CallbackPc → Prop where
  | consume {state : String} {pc' : CallbackPc} (h : pc'.flow = sh.manager.consumed state env.now)
      (h' : pc'.commits = none) :
      CallbackStep sh held env (.consuming state) (.consume state env.now) pc'
  | work {pc pc' : CallbackPc} {a : FlowAct} {flow : PendingFlow} (h : pc.flow = some flow)
      (h' : pc' = .ended ∨ pc'.flow = some flow)
      (hcommits : pc'.commits = none ∨ pc.commits = some flow ∨
        flow.generation = sh.manager.generation flow.endpointName)
      (hwork : PlainAct flow.endpointName held a) : CallbackStep sh held env pc a pc'
  | commit {pc pc' : CallbackPc} {flow : PendingFlow} (kind : FlowCommit) (h : pc.commits = some flow)
      (hflow : pc.flow = some flow) (h' : pc' = .ended ∨ pc'.flow = some flow) :
      CallbackStep sh held env pc (.commit flow kind) pc'

theorem CallbackPc.step_cases {pc pc' : CallbackPc}
    (h : pc.step sh held guarded env = some (a, pc')) : CallbackStep sh held env pc a pc' := by
  cases pc with
  | consuming state =>
    cases h
    refine .consume ?_ ?_
    · cases sh.manager.consumed state env.now <;> rfl
    · cases sh.manager.consumed state env.now <;> rfl
  | checking flow =>
    cases h
    refine .work rfl ?_ ?_ .pass
    · split
      · exact .inr rfl
      · exact .inl rfl
    · split <;> exact .inl rfl
  | guarding flow =>
    cases h
    refine .work rfl ?_ ?_ .pass
    · split
      · exact .inr rfl
      · exact .inl rfl
    · split <;> exact .inl rfl
  | exchanging flow =>
    rw [step] at h
    split at h
    · cases h
      exact .work rfl (.inr rfl) (.inl rfl) .pass
    · cases h
      exact .work rfl (.inl rfl) (.inl rfl) .pass
    · cases h
      exact .work rfl (.inl rfl) (.inl rfl) (.write _)
  | fetching flow =>
    cases h
    exact .work rfl (.inr rfl) (.inl rfl) .lock
  | locking flow lock =>
    rw [step] at h
    split at h
    · cases h
    · cases h
      exact .work rfl (.inr rfl) (.inl rfl) .pass
  | rechecking flow lock =>
    cases h
    refine .work rfl ?_ ?_ .pass
    · split
      · exact .inr rfl
      · exact .inl rfl
    · split
      · next hcurrent => exact .inr (.inr (of_decide_eq_true hcurrent))
      · exact .inl rfl
  | committing flow lock =>
    rw [step] at h
    split at h
    · cases h
      cases env.succeeds with
      | true => exact .commit .idpSaved rfl rfl (.inl rfl)
      | false => exact .work rfl (.inl rfl) (.inl rfl) .pass
    · split at h
      · cases h
        cases env.succeeds with
        | true => exact .commit .setupAuthorized rfl rfl (.inl rfl)
        | false => exact .work rfl (.inl rfl) (.inl rfl) .pass
      · cases h
        refine .work rfl ?_ (.inr (.inl rfl)) .pass
        split
        · exact .inl rfl
        · exact .inr rfl
  | savingTokens flow lock =>
    cases h
    cases env.succeeds with
    | true => exact .commit .tokensSaved rfl rfl (.inr rfl)
    | false => exact .work rfl (.inr rfl) (.inr (.inl rfl)) .pass
  | applyingClient flow lock =>
    cases h
    cases env.adapter with
    | true => exact .commit .clientApplied rfl rfl (.inr rfl)
    | false => exact .work rfl (.inl rfl) (.inl rfl) .pass
  | applyingTokens flow lock =>
    cases h
    exact .commit .tokensApplied rfl rfl (.inl rfl)
  | ended => cases h

theorem ResetPc.step_cases {pc pc' : ResetPc} (h : pc.step sh held guarded id name env = some (a, pc')) :
    ResetStep held id name pc a pc' := by
  cases pc with
  | beginning =>
    rw [step] at h
    split at h
    · cases h
      exact .begin
    · cases h
      exact .work rfl .pass
  | fetching =>
    cases h
    exact .work rfl .lock
  | locking lock =>
    rw [step] at h
    split at h
    · cases h
    · cases h
      exact .work rfl .pass
  | invalidating lock =>
    cases h
    exact .invalidate lock
  | loading lock =>
    cases h
    exact .work rfl .pass
  | deletingTokens lock preserved =>
    cases h
    exact .work rfl .pass
  | deletingRecord lock preserved tokensDeleted =>
    cases h
    exact .work rfl (.write _)
  | restoring lock preserved tokensDeleted =>
    match tokensDeleted, preserved with
    | true, some creds =>
      cases h
      exact .work rfl (.write _)
    | true, none =>
      cases h
      exact .work rfl .pass
    | false, _ =>
      cases h
      exact .work rfl .pass
  | releasing lock disconnected =>
    cases h
    exact .finish lock disconnected
  | ended => cases h
  | refused => cases h

inductive FlowStep (sh : FlowStores) (ts : List FlowThread) (env : FlowAnswer) :
    FlowThread → FlowAct → FlowThread → List FlowThread → Prop where
  | start {id : Nat} {name : String} {pc pc' : StartPc} {a : FlowAct} (h : StartStep sh id name env pc a pc') :
      FlowStep sh ts env (.start id name pc) a (.start id name pc') []
  | quick {id : Nat} {name : String} {client : FlowClient} {idpIssuer : Option String}
      (hfresh : sh.issued env.state = false) :
      FlowStep sh ts env (.quick id name client idpIssuer)
        (.startFlow env.state ⟨id, name, client, idpIssuer, env.now, 0⟩) (.quickEnded id name) []
  | callback {pc pc' : CallbackPc} {a : FlowAct} (h : CallbackStep sh (heldBy ts) env pc a pc') :
      FlowStep sh ts env (.callback pc) a (.callback pc') []
  | reset {id : Nat} {name : String} {pc pc' : ResetPc} {a : FlowAct} {new : List FlowThread}
      (h : ResetStep (heldBy ts) id name pc a pc')
      (hnew : new = [] ∨ new = [.start ts.length name .sampling]) :
      FlowStep sh ts env (.reset id name pc) a (.reset id name pc') new

theorem FlowThread.step_cases (h : t.step sh ts env = some (a, t', new)) :
    FlowStep sh ts env t a t' new := by
  cases t with
  | start id name pc =>
    obtain ⟨⟨a, pc'⟩, hpc, heq⟩ := Option.map_eq_some_iff.1 h
    cases heq
    exact .start (StartPc.step_cases hpc)
  | quick id name client idpIssuer =>
    rw [step] at h
    split at h
    · cases h
    · next hfresh =>
      cases h
      exact .quick (by simpa using hfresh)
  | quickEnded id name => cases h
  | callback pc =>
    obtain ⟨⟨a, pc'⟩, hpc, heq⟩ := Option.map_eq_some_iff.1 h
    cases heq
    exact .callback (CallbackPc.step_cases hpc)
  | reset id name pc =>
    obtain ⟨⟨a, pc'⟩, hpc, heq⟩ := Option.map_eq_some_iff.1 h
    cases heq
    refine .reset (ResetPc.step_cases hpc) ?_
    unfold ResetPc.continues
    split
    · exact .inr rfl
    · exact .inl rfl

theorem flows_step {sh' : FlowStores} (h : flows.step sh ts t env = some (sh', t', new)) :
    ∃ a, FlowStep sh ts env t a t' new ∧ sh' = sh.apply a := by
  obtain ⟨⟨a, t₁, new₁⟩, hst, heq⟩ := Option.map_eq_some_iff.1 h
  cases heq
  exact ⟨a, FlowThread.step_cases hst, rfl⟩

theorem FlowStep.spawns (h : FlowStep sh ts env t a t' new) :
    new = [] ∨ ∃ name, new = [.start ts.length name .sampling] := by
  cases h with
  | reset h hnew => exact hnew.imp_right fun hnew => ⟨_, hnew⟩
  | _ => exact .inl rfl

end Steps

end EndaraRelay.ResetFlows
