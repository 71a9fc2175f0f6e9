import EndaraRelay.LoginClient

/-!
# Logins, resets and the client record

The callbacks of an endpoint, the resets of its authorization and the writers of its client record, as
threads over the record file. `oauth_callback` (`server.rs`) looks at the record before it exchanges the
code and again before it commits, and then saves the tokens and hands them and its client to the adapter,
one step each. `oauth_reset` (`management.rs`) reads the record, lets `disconnect` delete the tokens and
the record, and writes the record back. Both hold the commit lock of the endpoint meanwhile. The writers
of `ClientWriters` do not.

**Writers.** A writer has `dcr_write_lock` from its read to its rename, and only a thread with the lock
changes the file (`dcrStep_frame`, `dcrWriteLock_exclusive`). Here it is one step, which may fail.

**History.** `effects`, `written` and `discards` are history, which no step reads: what the callbacks have
committed, the file after each write that changed it, and the file at the end of each discard. Two properties are stated
over them: `Current`, that a commit finds no other client in the record, and `Discard.Kept`, that a reset
leaves the record that was there when it began, or the one that was written last since.
-/

namespace EndaraRelay

open Verif

/-! ## State -/

inductive CommitKind where
  | tokensSaved
  | clientApplied
  | tokensApplied
deriving DecidableEq

/-- What a callback has committed, and the client in the record at that time. -/
structure LoginEffect where
  kind : CommitKind
  flowClientId : String
  storedClientId : String

/-- The end of a discard: the record when it began, what was written since (newest first), and what it
leaves. -/
structure Discard where
  before : Option DcrText
  written : List (Option DcrText)
  file : Option DcrText

structure LoginStores where
  file : Option DcrText
  /-- The reset generation of the endpoint. -/
  generation : Nat
  effects : List LoginEffect
  written : List (Option DcrText)
  discards : List Discard

/-- The client in the record; empty when there is none. -/
def storedClientId (file : Option DcrText) : String := ((storedRecord file).map (·.clientId)).getD ""

/-- The flow of a callback. -/
structure LoginFlow where
  client : FlowClient
  generation : Nat

inductive CallbackPc where
  | checking
  | exchanging
  | locking
  | checkingCommit
  | savingTokens
  | applyingClient
  | applyingTokens
  | done

/-- A reset remembers what it has read, and for the history the record when it began and how much had been
written by then. -/
inductive ResetPc where
  | locking
  | loading (before : Option DcrText) (since : Nat)
  | deletingTokens (before : Option DcrText) (since : Nat) (preserved : Option DcrCredentials)
  | deletingRecord (before : Option DcrText) (since : Nat) (preserved : Option DcrCredentials)
      (tokensDeleted : Bool)
  | restoring (before : Option DcrText) (since : Nat) (creds : DcrCredentials)
  | ended

inductive LoginThread where
  | callback (flow : LoginFlow) (pc : CallbackPc)
  | reset (pc : ResetPc)
  | writing (w : ClientWrite)
  | written

inductive LoginOp where
  | callback (flow : LoginFlow)
  | reset
  | write (w : ClientWrite)

/-- What the environment answers: whether the file call of the step succeeds, the code is exchanged, the
endpoint has an adapter, and the time. -/
structure LoginAnswer where
  succeeds : Bool := true
  exchanged : Bool := true
  adapter : Bool := true
  now : Nat := 0

/-! ## Steps -/

def DcrWrite.apply (saved : Bool) (now : Nat) (file : Option DcrText) : DcrWrite → Option DcrText
  | .save creds => saveDcr saved creds file
  | .delete => deleteDcr saved file
  | .update f => updateDcrFile saved now f file
  | .clear expected =>
    match storedRecord file with
    | some creds =>
      if creds.registeredViaDcr && creds.clientId = expected then saveDcr saved creds.cleared file else file
    | none => file

def LoginStores.write (sh : LoginStores) (file : Option DcrText) : LoginStores :=
  if file = sh.file then sh else { sh with file, written := file :: sh.written }

def LoginThread.commits : LoginThread → Bool
  | .callback _ .checkingCommit | .callback _ .savingTokens => true
  | .callback _ .applyingClient | .callback _ .applyingTokens => true
  | .reset (.loading _ _) | .reset (.deletingTokens _ _ _) => true
  | .reset (.deletingRecord _ _ _ _) | .reset (.restoring _ _ _) => true
  | _ => false

/-- A look at the record: one that fails rejects nothing. -/
def superseded (env : LoginAnswer) (clientId : String) (file : Option DcrText) : Bool :=
  env.succeeds && !passesSupersession clientId file

/-- A callback commits, if the call succeeds. -/
def LoginStores.effect (sh : LoginStores) (succeeds : Bool) (kind : CommitKind) (flow : LoginFlow) :
    LoginStores :=
  if succeeds then
    { sh with effects := ⟨kind, flow.client.clientId, storedClientId sh.file⟩ :: sh.effects }
  else sh

/-- What is done once the commit lock is free. -/
def whenFree {α : Type} (ts : List LoginThread) (next : α) : Option α :=
  if ts.any LoginThread.commits then none else some next

/-- `oauth_callback`, from the check of the reset generation on. -/
def CallbackPc.step (sh : LoginStores) (ts : List LoginThread) (flow : LoginFlow) (env : LoginAnswer) :
    CallbackPc → Option (LoginStores × CallbackPc)
  | .checking =>
    some (sh, if flow.generation ≠ sh.generation || superseded env flow.client.clientId sh.file then .done
      else .exchanging)
  | .exchanging => some (sh, if env.exchanged then .locking else .done)
  | .locking =>
    whenFree ts (sh, if flow.generation = sh.generation then .checkingCommit else .done)
  | .checkingCommit =>
    some (sh, if superseded env flow.client.clientId sh.file then .done else .savingTokens)
  | .savingTokens => some (sh.effect env.succeeds .tokensSaved flow, .applyingClient)
  | .applyingClient =>
    some (sh.effect env.adapter .clientApplied flow, if env.adapter then .applyingTokens else .done)
  | .applyingTokens => some (sh.effect true .tokensApplied flow, .done)
  | .done => none

/-- The discard phase is over. -/
def LoginStores.discarded (sh : LoginStores) (before : Option DcrText) (since : Nat)
    (file : Option DcrText) : LoginStores :=
  { sh with
    file
    discards := ⟨before, sh.written.take (sh.written.length - since), file⟩ :: sh.discards }

/-- The discard phase of `oauth_reset`, with `disconnect`. -/
def ResetPc.step (sh : LoginStores) (ts : List LoginThread) (env : LoginAnswer) :
    ResetPc → Option (LoginStores × ResetPc)
  | .locking =>
    whenFree ts ({ sh with generation := sh.generation + 1 }, .loading sh.file sh.written.length)
  | .loading before since =>
    some (sh, .deletingTokens before since (if env.succeeds then storedRecord sh.file else none))
  | .deletingTokens before since preserved =>
    some (sh, .deletingRecord before since preserved env.succeeds)
  | .deletingRecord before since preserved tokensDeleted =>
    match tokensDeleted, preserved with
    | true, some creds =>
      some ({ sh with file := deleteDcr env.succeeds sh.file }, .restoring before since creds)
    | _, _ => some (sh.discarded before since (deleteDcr env.succeeds sh.file), .ended)
  | .restoring before since creds =>
    some (sh.discarded before since (saveDcr env.succeeds creds sh.file), .ended)
  | .ended => none

def LoginThread.step (sh : LoginStores) (ts : List LoginThread) (t : LoginThread) (env : LoginAnswer) :
    Option (LoginStores × LoginThread) :=
  match t with
  | .callback flow pc => (pc.step sh ts flow env).map fun r => (r.1, .callback flow r.2)
  | .reset pc => (pc.step sh ts env).map fun r => (r.1, .reset r.2)
  | .writing w => some (sh.write (w.write.apply env.succeeds env.now sh.file), .written)
  | .written => none

/-- Any number of callbacks, resets and writers of one endpoint, from any record. -/
def logins : Pool LoginStores LoginThread LoginOp LoginAnswer where
  init sh := sh.effects = [] ∧ sh.discards = []
  launch _ _
    | .callback flow => some (.callback flow .checking)
    | .reset => some (.reset .locking)
    | .write w => some (.writing w)
  step sh ts t env := (t.step sh ts env).map fun r => (r.1, r.2, [])

abbrev LoginsState := Pool.State LoginStores LoginThread

abbrev LoginsAction := Pool.Action LoginOp LoginAnswer

/-! ## What is to hold -/

/-- The record has no other client than the flow. -/
def LoginEffect.Current (e : LoginEffect) : Prop :=
  e.storedClientId = "" ∨ e.storedClientId = e.flowClientId

/-- The newest of the records, or the one before. -/
def newest (before : Option DcrText) (written : List (Option DcrText)) : Option DcrText :=
  written.head?.getD before

/-- The record is the one that was there, or the one that was written last since. -/
def Discard.Kept (d : Discard) : Prop := d.file = newest d.before d.written

/-! ## The commit lock -/

section Steps

variable {s : LoginsState} {sh sh' : LoginStores} {ts : List LoginThread} {t t' : LoginThread}
  {env : LoginAnswer} {flow : LoginFlow} {pc pc' : CallbackPc} {rpc rpc' : ResetPc}

theorem effect_frame (sh : LoginStores) (succeeds : Bool) (kind : CommitKind) (flow : LoginFlow) :
    (sh.effect succeeds kind flow).file = sh.file ∧ (sh.effect succeeds kind flow).written = sh.written ∧
      (sh.effect succeeds kind flow).discards = sh.discards := by
  cases succeeds <;> exact ⟨rfl, rfl, rfl⟩

theorem whenFree_eq_some {α : Type} {next x : α} (h : whenFree ts next = some x) :
    next = x ∧ ∀ u ∈ ts, u.commits = false := by
  unfold whenFree at h
  split at h
  · cases h
  · next hfree =>
    refine ⟨Option.some.inj h, fun u hu => ?_⟩
    rw [Bool.not_eq_true, List.any_eq_false] at hfree
    simpa using hfree u hu

theorem CallbackPc.step_frame (h : pc.step sh ts flow env = some (sh', pc')) :
    sh'.file = sh.file ∧ sh'.written = sh.written ∧ sh'.discards = sh.discards := by
  cases pc with
  | locking =>
    obtain ⟨heq, -⟩ := whenFree_eq_some h
    cases heq
    exact ⟨rfl, rfl, rfl⟩
  | savingTokens =>
    cases h
    exact effect_frame _ _ _ _
  | applyingClient =>
    cases h
    exact effect_frame _ _ _ _
  | done => cases h
  | _ =>
    cases h
    exact ⟨rfl, rfl, rfl⟩

/-- The commit lock is taken when nobody has it. -/
theorem LoginThread.step_commits (h : t.step sh ts env = some (sh', t')) (ht' : t'.commits = true) :
    t.commits = true ∨ ∀ u ∈ ts, u.commits = false := by
  cases t with
  | writing w =>
    cases h
    cases ht'
  | written => cases h
  | callback flow pc =>
    obtain ⟨⟨sh₁, pc'⟩, hst, heq⟩ := Option.map_eq_some_iff.1 h
    cases heq
    cases pc with
    | checking =>
      cases hst
      dsimp only at ht'
      split at ht' <;> cases ht'
    | exchanging =>
      cases hst
      dsimp only at ht'
      split at ht' <;> cases ht'
    | locking => exact .inr (whenFree_eq_some hst).2
    | done => cases hst
    | _ => exact .inl rfl
  | reset rpc =>
    obtain ⟨⟨sh₁, rpc'⟩, hst, heq⟩ := Option.map_eq_some_iff.1 h
    cases heq
    cases rpc with
    | locking => exact .inr (whenFree_eq_some hst).2
    | ended => cases hst
    | _ => exact .inl rfl

/-- At most one callback or reset has the commit lock. -/
theorem commitLock_exclusive {ok : LoginsState → LoginsAction → Prop}
    (h : logins.system.ReachableWhile ok s) :
    s.threads.Pairwise fun t u => ¬ (t.commits = true ∧ u.commits = true) := by
  refine Pool.exclusive (H := fun _ t => LoginThread.commits t = true) ?_ ?_ ?_ ?_ h
  · intro sh ts op t ht
    cases op <;>
    · cases ht
      exact Bool.false_ne_true
  · intro sh ts t env sh' t' new hst ht'
    obtain ⟨⟨sh₁, u⟩, htask, heq⟩ := Option.map_eq_some_iff.1 hst
    cases heq
    refine (LoginThread.step_commits htask ht').imp_right fun hfree u hu => ?_
    rw [hfree u hu]
    exact Bool.false_ne_true
  · intro sh ts t env sh' t' new hst u hu
    obtain ⟨⟨sh₁, v⟩, -, heq⟩ := Option.map_eq_some_iff.1 hst
    cases heq
    cases hu
  · intro sh ts t env sh' t' new u _ hu
    exact hu

end Steps

end EndaraRelay
