import EndaraRelay.Logins

/-!
# Superseded logins

`superseded_login_not_committed`: in every run whose steps meet `clientUndisturbed`, whatever a callback
commits (it saves the tokens, hands its client to the adapter, hands the tokens to the adapter) it commits
while the record has no other client.

The check of the callback establishes this, and the steps to its last commit only keep it as far as others
let them: resets wait for the commit lock, but the writers of the record do not. So the guard asks of a
writer that it brings in no other client while a callback is in between, and of the check that it can read
the record.
-/

namespace EndaraRelay

open Verif

/-- The record has no other client. -/
def currentClient (clientId : String) (file : Option DcrText) : Bool :=
  storedClientId file = "" || storedClientId file = clientId

/-- The callback has checked the record and has still to commit something. -/
def CallbackPc.committing : CallbackPc → Bool
  | .savingTokens | .applyingClient | .applyingTokens => true
  | _ => false

/-- The client of a callback that commits is the current one. -/
def LoginThread.current (file : Option DcrText) : LoginThread → Bool
  | .callback flow pc => !pc.committing || currentClient flow.client.clientId file
  | _ => true

/-- No other client is written between the check of a callback and its commits, and the check reads the
record. -/
def clientUndisturbed (s : LoginsState) : LoginsAction → Bool
  | .launch _ => true
  | .run i env => match s.threads[i]? with
    | some (.writing w) =>
      s.threads.all fun u => u.current (w.write.apply env.succeeds env.now s.shared.file)
    | some (.callback flow .checkingCommit) =>
      env.succeeds || currentClient flow.client.clientId s.shared.file
    | _ => true

section Steps

variable {s s' : LoginsState} {sh sh' : LoginStores} {ts : List LoginThread} {t t' u : LoginThread}
  {env : LoginAnswer} {flow : LoginFlow} {pc pc' : CallbackPc} {clientId : String}
  {file : Option DcrText}

theorem passesSupersession_eq : passesSupersession clientId file = currentClient clientId file := by
  unfold passesSupersession currentClient storedClientId
  cases storedRecord file with
  | none => rfl
  | some creds => rfl

theorem writing_current {i : Nat} {w : ClientWrite} (h : clientUndisturbed s (.run i env) = true)
    (hi : s.threads[i]? = some (.writing w)) (hu : u ∈ s.threads) :
    u.current (w.write.apply env.succeeds env.now s.shared.file) = true := by
  unfold clientUndisturbed at h
  dsimp only at h
  rw [hi] at h
  exact List.all_eq_true.1 h u hu

theorem check_reads {i : Nat} (h : clientUndisturbed s (.run i env) = true)
    (hi : s.threads[i]? = some (.callback flow .checkingCommit)) :
    env.succeeds = true ∨ currentClient flow.client.clientId s.shared.file = true := by
  unfold clientUndisturbed at h
  dsimp only at h
  rw [hi] at h
  simpa using h

/-- **The check** finds the current client, and the commits leave the record as it is. -/
theorem CallbackPc.step_current (h : pc.step sh ts flow env = some (sh', pc'))
    (hcheck : pc = .checkingCommit →
      env.succeeds = true ∨ currentClient flow.client.clientId sh.file = true)
    (hold : LoginThread.current sh.file (.callback flow pc) = true) :
    LoginThread.current sh'.file (.callback flow pc') = true := by
  rw [(CallbackPc.step_frame h).1]
  cases pc with
  | checking =>
    cases h
    split <;> rfl
  | exchanging =>
    cases h
    split <;> rfl
  | locking =>
    obtain ⟨heq, -⟩ := whenFree_eq_some h
    cases heq
    split <;> rfl
  | checkingCommit =>
    cases h
    split
    · rfl
    · next hpasses =>
      rw [superseded, passesSupersession_eq, Bool.and_eq_true, not_and, Bool.not_eq_true',
        Bool.not_eq_false] at hpasses
      exact (hcheck rfl).elim hpasses id
  | savingTokens =>
    cases h
    exact hold
  | applyingClient =>
    cases h
    split
    · exact hold
    · rfl
  | applyingTokens =>
    cases h
    rfl
  | done => cases h

/-- A reset changes the record while it has the commit lock. -/
theorem ResetPc.step_file {pc pc' : ResetPc} (h : pc.step sh ts env = some (sh', pc')) :
    sh'.file = sh.file ∨ LoginThread.commits (.reset pc) = true := by
  cases pc with
  | locking =>
    obtain ⟨heq, -⟩ := whenFree_eq_some h
    cases heq
    exact .inl rfl
  | ended => cases h
  | _ => exact .inr rfl

theorem ResetPc.step_effects {pc pc' : ResetPc} (h : pc.step sh ts env = some (sh', pc')) :
    sh'.effects = sh.effects := by
  cases pc with
  | locking =>
    obtain ⟨heq, -⟩ := whenFree_eq_some h
    cases heq
    rfl
  | deletingRecord before since preserved tokensDeleted =>
    cases tokensDeleted with
    | false =>
      cases h
      rfl
    | true =>
      cases preserved <;>
      · cases h
        rfl
  | ended => cases h
  | _ =>
    cases h
    rfl

theorem write_effects (sh : LoginStores) (file : Option DcrText) :
    (sh.write file).effects = sh.effects := by
  unfold LoginStores.write
  split <;> rfl

theorem write_file (sh : LoginStores) (file : Option DcrText) : (sh.write file).file = file := by
  unfold LoginStores.write
  split
  · next hsame => exact hsame.symm
  · rfl

/-- A callback that commits has the commit lock. -/
theorem commits_of_not_current (h : u.current file = false) : u.commits = true := by
  cases u with
  | callback flow pc => cases pc <;> first | rfl | cases h
  | _ => cases h

end Steps

section Runs

variable {s : LoginsState}

/-- The callbacks that commit have the current client. -/
theorem callbacks_current
    (h : logins.system.ReachableWhile (fun s a => clientUndisturbed s a = true) s) :
    ∀ t ∈ s.threads, t.current s.shared.file = true := by
  refine Pool.forall_threads_of (L := fun sh t => LoginThread.current sh.file t = true)
    (fun s hs => commitLock_exclusive hs) ?_ ?_ ?_ h
  · intro s op t _ ht
    cases op <;>
    · cases ht
      rfl
  · intro s i env t sh' t' new hone hok hi ht hst
    obtain ⟨⟨sh₁, t₁⟩, htask, heq⟩ := Option.map_eq_some_iff.1 hst
    cases heq
    refine ⟨?_, List.forall_mem_nil _⟩
    cases t with
    | callback flow pc =>
      obtain ⟨⟨sh₂, pc'⟩, hpc, heq⟩ := Option.map_eq_some_iff.1 htask
      cases heq
      exact CallbackPc.step_current hpc (fun hcheck => check_reads hok (hcheck ▸ hi)) ht
    | reset rpc =>
      obtain ⟨⟨sh₂, rpc'⟩, -, heq⟩ := Option.map_eq_some_iff.1 htask
      cases heq
      rfl
    | writing w =>
      cases htask
      rfl
    | written => cases htask
  · intro s i env t sh' t' new j u hone hok hi hj hji _ hu hst
    obtain ⟨⟨sh₁, t₁⟩, htask, heq⟩ := Option.map_eq_some_iff.1 hst
    cases heq
    cases t with
    | callback flow pc =>
      obtain ⟨⟨sh₂, pc'⟩, hpc, heq⟩ := Option.map_eq_some_iff.1 htask
      cases heq
      dsimp only
      rw [(CallbackPc.step_frame hpc).1]
      exact hu
    | reset rpc =>
      obtain ⟨⟨sh₂, rpc'⟩, hpc, heq⟩ := Option.map_eq_some_iff.1 htask
      cases heq
      obtain hfile | hlock := ResetPc.step_file hpc
      · dsimp only
        rw [hfile]
        exact hu
      · by_contra hnot
        have hcommits := commits_of_not_current (Bool.not_eq_true _ ▸ hnot)
        exact Pool.not_holds_of_ne (H := fun _ t => LoginThread.commits t = true) hone hi hlock hj hji
          hcommits
    | writing w =>
      cases htask
      dsimp only
      rw [write_file]
      exact writing_current hok hi (List.mem_of_getElem? hj)
    | written => cases htask

theorem effect_current {sh : LoginStores} {succeeds : Bool} {kind : CommitKind} {flow : LoginFlow}
    (hcurrent : currentClient flow.client.clientId sh.file = true)
    (hold : ∀ e ∈ sh.effects, e.Current) : ∀ e ∈ (sh.effect succeeds kind flow).effects, e.Current := by
  cases succeeds with
  | false => exact hold
  | true =>
    refine List.forall_mem_cons.2 ⟨?_, hold⟩
    simpa [currentClient, LoginEffect.Current] using hcurrent

/-- **A superseded login is not committed**, as long as nobody brings in another client while it commits. -/
theorem superseded_login_not_committed
    (h : logins.system.ReachableWhile (fun s a => clientUndisturbed s a = true) s) :
    ∀ e ∈ s.shared.effects, e.Current := by
  refine Pool.invariant_of (J := fun s => ∀ e ∈ s.shared.effects, LoginEffect.Current e)
    (fun s hs => callbacks_current hs) ?_ ?_ ?_ h
  · intro sh hinit
    rw [hinit.1]
    exact List.forall_mem_nil _
  · intro s op t _ hJ _ _
    exact hJ
  · intro s i env t sh' t' new hcurrent hJ _ hi hst
    obtain ⟨⟨sh₁, t₁⟩, htask, heq⟩ := Option.map_eq_some_iff.1 hst
    cases heq
    have ht := hcurrent t (List.mem_of_getElem? hi)
    cases t with
    | callback flow pc =>
      obtain ⟨⟨sh₂, pc'⟩, hpc, heq⟩ := Option.map_eq_some_iff.1 htask
      cases heq
      cases pc with
      | locking =>
        obtain ⟨heq, -⟩ := whenFree_eq_some hpc
        cases heq
        exact hJ
      | savingTokens =>
        cases hpc
        exact effect_current ht hJ
      | applyingClient =>
        cases hpc
        exact effect_current ht hJ
      | applyingTokens =>
        cases hpc
        exact effect_current ht hJ
      | done => cases hpc
      | _ =>
        cases hpc
        exact hJ
    | reset rpc =>
      obtain ⟨⟨sh₂, rpc'⟩, hpc, heq⟩ := Option.map_eq_some_iff.1 htask
      cases heq
      dsimp only
      rw [ResetPc.step_effects hpc]
      exact hJ
    | writing w =>
      cases htask
      dsimp only
      rw [write_effects]
      exact hJ
    | written => cases htask

end Runs

/-! ## Runs -/

/-- A client that was registered for the flow is stored. -/
def clientStored : LoginsState := ⟨⟨some (.record registeredClient), 0, [], [], []⟩, []⟩

theorem clientStored_init : logins.system.init clientStored := ⟨⟨rfl, rfl⟩, rfl⟩

def storedFlow : LoginFlow := ⟨⟨registeredClient.clientId, registeredClient.clientSecret, true⟩, 0⟩

def checkedLogin : List LoginsAction := .launch (.callback storedFlow) :: List.replicate 4 (.run 0 {})

/-- A whole callback, and then an operator supplies another client. -/
def loginThenClient : List LoginsAction :=
  checkedLogin ++ List.replicate 3 (.run 0 {}) ++
    [.launch (.write (.oauthCredentials "manual" none 9)), .run 1 {}]

theorem loginThenClient_run : ∃ s,
    logins.system.runWhile clientUndisturbed clientStored loginThenClient = some s ∧
      s.shared.effects.length = 3 :=
  ⟨_, rfl, rfl⟩

theorem superseded_login_not_committed_once : ∃ s,
    logins.system.ReachableWhile (fun s a => clientUndisturbed s a = true) s ∧
      s.shared.effects.length = 3 ∧ ∀ e ∈ s.shared.effects, e.Current := by
  obtain ⟨s, hrun, hlen⟩ := loginThenClient_run
  have hreach := (System.ReachableWhile.init clientStored_init).run (fun _ _ h => h) hrun
  exact ⟨s, hreach, hlen, superseded_login_not_committed hreach⟩

/-- An operator supplies another client after the check of a callback. -/
def clientDuringLogin : List LoginsAction :=
  checkedLogin ++ [.launch (.write (.oauthCredentials "manual" none 9)), .run 1 {}] ++
    List.replicate 3 (.run 0 {})

theorem clientDuringLogin_run : ∃ s, logins.system.run clientStored clientDuringLogin = some s ∧
    s.shared.effects =
      [⟨.tokensApplied, "old", "manual"⟩, ⟨.clientApplied, "old", "manual"⟩,
        ⟨.tokensSaved, "old", "manual"⟩] :=
  ⟨_, rfl, rfl⟩

/-- The tokens and the client of a superseded login are saved and applied. -/
theorem superseded_login_committed : ∃ s, logins.system.Reachable s ∧
    ∃ e ∈ s.shared.effects, e.kind = .tokensSaved ∧ ¬ e.Current := by
  obtain ⟨s, hrun, heffects⟩ := clientDuringLogin_run
  refine ⟨s, (System.Reachable.init clientStored_init).run hrun, ⟨.tokensSaved, "old", "manual"⟩, ?_,
    rfl, ?_⟩
  · rw [heffects]
    exact .tail _ (.tail _ (.head _))
  · rintro (hempty | hsame)
    · exact absurd hempty (by decide)
    · exact absurd hsame (by decide)

end EndaraRelay
