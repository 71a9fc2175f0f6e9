import EndaraRelay.SetupTokens

/-!
# The credential store under setups

What setups leave in the credential store, whether they are committed or not. A client is stored as soon as
the setup has one, and the tokens before the config is written, and neither is taken back.

**Theorem (`setup_store_traced`).** In every run each file is as it would be without setups, or it is the
client record of a name and has a client that a setup of this name has resolved or been given, or it is the
token file of a name and has the tokens of a commit of this name that got past the check of the client
record, which had found or stored the client of the session. What else a setup does leaves the store alone:
a cancellation, a callback, a claim that is refused or lapses, and the check of a commit that refuses.
-/

namespace EndaraRelay

open Verif

/-- The client of the session is one that a setup of its name has obtained. -/
def OAuthSetupSession.Given (clients : List SetupClient) (session : OAuthSetupSession) : Prop :=
  ∀ clientId, session.clientId = some clientId → ⟨session.name, clientId, session.clientSecret⟩ ∈ clients

def SetupClient.IsRecord (client : SetupClient) (text : DcrText) : Prop :=
  ∃ creds, text = .record creds ∧ creds.clientId = client.clientId ∧
    creds.clientSecret = client.clientSecret

/-- Where the content of a file comes from. -/
inductive Setups.Trace {κ : Type} (place : TokenRecord → κ) (sh : Setups κ) (file : κ) : Prop where
  | undisturbed (h : sh.store file = sh.undisturbed file)
  | client {client text} (hclient : client ∈ sh.obtained) (hfile : file = place ⟨.dcr, client.name⟩)
      (htext : sh.store file = some (.client text)) (hrecord : client.IsRecord text)
  | tokens {p : PassedCommit} {issued} (hp : p ∈ sh.passed)
      (hfile : file = place ⟨.tokens, p.session.name⟩) (hissued : p.session.tokens = some issued)
      (htext : sh.store file = some (.tokens issued.tokens))

/-- The check has found or stored the client of the session, which a setup has obtained. -/
def PassedCommit.Checked (clients : List SetupClient) (p : PassedCommit) : Prop :=
  ∀ clientId, p.session.clientId = some clientId →
    ⟨p.session.name, clientId, p.session.clientSecret⟩ ∈ clients ∧
      ∃ text, p.record = some text ∧
        SetupClient.IsRecord ⟨p.session.name, clientId, p.session.clientSecret⟩ text

structure Setups.Traced {κ : Type} (place : TokenRecord → κ) (sh : Setups κ) : Prop where
  files : ∀ file, sh.Trace place file
  passed : ∀ p ∈ sh.passed, p.Checked sh.obtained

/-- The next step writes a file whatever it finds. -/
def SetupThread.stores {κ : Type} : SetupThread κ → Bool
  | .setup (.saving _ _ _ _ _) | .credentials (.saving _ _ _ _) => true
  | .commit (.savingTokens _ _) => true
  | .writing (.file _ _) => true
  | _ => false

/-- What a thread is about to store belongs to a setup. -/
def SetupThread.Backed {κ : Type} (sh : Setups κ) : SetupThread κ → Prop
  | .setup (.saving _ name _ client _) => ⟨name, client.clientId, client.clientSecret⟩ ∈ sh.obtained
  | .credentials (.saving _ name clientId clientSecret) => ⟨name, clientId, clientSecret⟩ ∈ sh.obtained
  | .commit (.savingTokens _ session) => ∃ p ∈ sh.passed, p.session = session
  | _ => True

section Sessions

/-- **The edits**: a client that a session is given counts as obtained for its name. -/
theorem given_rule : SessionRule (fun clients session => session.Given clients)
    (fun clients session => session.Given clients) (fun _ _ => True) where
  mono hsub hold := fun clientId h => hsub (hold clientId h)
  created := by
    intro clients req now clientId h
    cases h
  discovered hold := hold
  given := by
    intro clients session client viaDcr hmem _ clientId h
    obtain rfl := Option.some.inj h
    exact hmem
  marked _ hold := hold
  claimed _ hold := hold
  snapshot _ hold := hold
  kept hsub hold := fun clientId h => hsub (hold clientId h)
  released _ hold := hold

theorem trivial_rule : SessionRule (fun _ _ => True) (fun _ _ => True) (fun _ _ => True) := by
  constructor <;> intros <;> trivial

end Sessions

section Steps

variable {κ : Type} [DecidableEq κ] {place : TokenRecord → κ} {s s' : SetupsState κ}
  {sh sh' : Setups κ} {t t' u : SetupThread κ} {env : SetupAnswer} {file : κ}

/-! ## Histories only grow -/

theorem SetupThread.step_obtained (h : t.step place sh env = some (sh', t')) :
    sh.obtained ⊆ sh'.obtained :=
  (SetupThread.step_sessions trivial_rule h (fun _ _ _ _ _ _ => trivial) (fun _ _ _ => trivial)
    (fun _ _ => trivial)).2.1

theorem SetupThread.step_passed_subset (h : t.step place sh env = some (sh', t')) :
    sh.passed ⊆ sh'.passed := by
  obtain hsame | ⟨-, p, -, hpassed⟩ := SetupThread.step_passed h
  · exact hsame ▸ List.Subset.refl _
  · exact hpassed ▸ List.subset_cons_self _ _

omit [DecidableEq κ] in
theorem SetupThread.Backed.mono (hobtained : sh.obtained ⊆ sh'.obtained) (hpassed : sh.passed ⊆ sh'.passed)
    (h : t.Backed sh) : t.Backed sh' := by
  unfold SetupThread.Backed at h ⊢
  split at h
  · exact hobtained h
  · exact hobtained h
  · obtain ⟨p, hp, heq⟩ := h
    exact ⟨p, hpassed hp, heq⟩
  · trivial

/-! ## What is about to be stored -/

omit [DecidableEq κ] in
theorem resolveSetup_backed (sh : Setups κ) (id : Nat) (req : OAuthSetupRequest) (disc : DiscoveredServer)
    (env : SetupAnswer) :
    (SetupThread.setup (resolveSetup sh id req disc env).2).Backed (resolveSetup sh id req disc env).1 := by
  unfold resolveSetup
  split
  · exact .head _
  · trivial

omit [DecidableEq κ] in
theorem editSetup_backed (sh : Setups κ) (id : Nat) (clientId : String) (clientSecret : Option String)
    (now : Nat) :
    (SetupThread.credentials (editSetup sh id clientId clientSecret now).2).Backed
      (editSetup sh id clientId clientSecret now).1 := by
  unfold editSetup Setups.giveClient
  split
  · trivial
  · dsimp only
    split
    · dsimp only
      split
      · next hfilter =>
        obtain ⟨heq, -⟩ := Option.filter_eq_some_iff.1 hfilter
        cases heq
        exact .head _
      · trivial
    · trivial

theorem checkSetup_backed (place : TokenRecord → κ) (sh : Setups κ) (id : Nat)
    (session : OAuthSetupSession) (env : SetupAnswer) :
    (SetupThread.commit (checkSetup place sh id session env).2).Backed
      (checkSetup place sh id session env).1 := by
  unfold checkSetup
  dsimp only
  split
  · exact ⟨_, .head _, rfl⟩
  · split
    · exact ⟨_, .head _, rfl⟩
    · trivial

/-- What a thread is about to store after its step is backed. -/
theorem SetupThread.step_backed (h : t.step place sh env = some (sh', t')) : t'.Backed sh' := by
  cases t with
  | setup pc =>
    obtain ⟨⟨sh₁, pc'⟩, hpc, heq⟩ := Option.map_eq_some_iff.1 h
    cases heq
    cases pc with
    | checkingName req =>
      cases hpc
      split <;> trivial
    | creating req =>
      cases hpc
      split <;> trivial
    | discovering id req =>
      obtain rfl : (discoverSetup sh id req env).2 = pc' := congrArg Prod.snd (Option.some.inj hpc)
      unfold discoverSetup
      split <;> trivial
    | resolving id req disc =>
      have hbacked := resolveSetup_backed sh id req disc env
      rwa [Option.some.inj hpc] at hbacked
    | ended => cases hpc
    | _ =>
      cases hpc
      trivial
  | credentials pc =>
    obtain ⟨⟨sh₁, pc'⟩, hpc, heq⟩ := Option.map_eq_some_iff.1 h
    cases heq
    cases pc with
    | editing id clientId clientSecret =>
      have hbacked := editSetup_backed sh id clientId clientSecret env.now
      rwa [Option.some.inj hpc] at hbacked
    | ended => cases hpc
    | _ =>
      cases hpc
      trivial
  | callback pc =>
    obtain ⟨⟨sh₁, pc'⟩, -, heq⟩ := Option.map_eq_some_iff.1 h
    cases heq
    trivial
  | commit pc =>
    obtain ⟨⟨sh₁, pc'⟩, hpc, heq⟩ := Option.map_eq_some_iff.1 h
    cases heq
    cases pc with
    | claiming id =>
      cases hpc
      split <;> trivial
    | checkingClient id session =>
      have hbacked := checkSetup_backed place sh id session env
      rwa [Option.some.inj hpc] at hbacked
    | applying id session =>
      obtain rfl : (applySetup sh id session env.succeeds).2 = pc' := congrArg Prod.snd (Option.some.inj hpc)
      unfold applySetup
      split <;> trivial
    | ended => cases hpc
    | _ =>
      cases hpc
      trivial
  | cancelling id =>
    cases h
    trivial
  | writing w =>
    cases h
    trivial
  | ended => cases h

/-! ## What a step stores -/

/-- The two stores are as before. -/
def Setups.SameStore (sh sh' : Setups κ) : Prop := sh'.store = sh.store ∧ sh'.undisturbed = sh.undisturbed

omit [DecidableEq κ] in
theorem giveClient_store (sh : Setups κ) (id now : Nat) (client : RegisteredClient) (viaDcr : Bool) :
    sh.SameStore (sh.giveClient id now client viaDcr).1 := by
  unfold Setups.giveClient
  dsimp only
  split <;> exact ⟨rfl, rfl⟩

/-- A check that refuses writes nothing. -/
theorem checkSetup_store (place : TokenRecord → κ) (sh : Setups κ) (id : Nat)
    (session : OAuthSetupSession) (env : SetupAnswer)
    (hrefused : (checkSetup place sh id session env).1.passed = sh.passed) :
    sh.SameStore (checkSetup place sh id session env).1 := by
  unfold checkSetup at hrefused ⊢
  dsimp only at hrefused ⊢
  split at hrefused
  · exact absurd hrefused (List.cons_ne_self _ _)
  · split at hrefused
    · exact absurd hrefused (List.cons_ne_self _ _)
    · exact ⟨rfl, rfl⟩

/-- **The frame**: what is not about to store leaves the store alone, unless it is a check that passes. -/
theorem SetupThread.step_store (h : t.step place sh env = some (sh', t')) (hstores : t.stores = false)
    (hpassed : sh'.passed = sh.passed) : sh.SameStore sh' := by
  cases t with
  | setup pc =>
    obtain ⟨⟨sh₁, pc'⟩, hpc, heq⟩ := Option.map_eq_some_iff.1 h
    cases heq
    cases pc with
    | discovering id req =>
      obtain rfl : (discoverSetup sh id req env).1 = sh₁ := congrArg Prod.fst (Option.some.inj hpc)
      unfold discoverSetup
      split <;> exact ⟨rfl, rfl⟩
    | resolving id req disc =>
      obtain rfl : (resolveSetup sh id req disc env).1 = sh₁ := congrArg Prod.fst (Option.some.inj hpc)
      unfold resolveSetup
      split <;> exact ⟨rfl, rfl⟩
    | saving id name issuer client registration => cases hstores
    | storing id client registration =>
      cases hpc
      exact giveClient_store _ _ _ _ _
    | ended => cases hpc
    | _ =>
      cases hpc
      exact ⟨rfl, rfl⟩
  | credentials pc =>
    obtain ⟨⟨sh₁, pc'⟩, hpc, heq⟩ := Option.map_eq_some_iff.1 h
    cases heq
    cases pc with
    | editing id clientId clientSecret =>
      obtain rfl : (editSetup sh id clientId clientSecret env.now).1 = sh₁ :=
        congrArg Prod.fst (Option.some.inj hpc)
      unfold editSetup
      split
      · exact ⟨rfl, rfl⟩
      · exact giveClient_store _ _ _ _ _
    | saving id name clientId clientSecret => cases hstores
    | starting id clientId clientSecret =>
      cases hpc
      exact ⟨rfl, rfl⟩
    | ended => cases hpc
  | callback pc =>
    obtain ⟨⟨sh₁, pc'⟩, hpc, heq⟩ := Option.map_eq_some_iff.1 h
    cases heq
    cases pc with
    | consuming state =>
      obtain rfl : (consumeFlow sh state env.now).1 = sh₁ := congrArg Prod.fst (Option.some.inj hpc)
      unfold consumeFlow
      split <;> exact ⟨rfl, rfl⟩
    | ended => cases hpc
    | _ =>
      cases hpc
      exact ⟨rfl, rfl⟩
  | commit pc =>
    obtain ⟨⟨sh₁, pc'⟩, hpc, heq⟩ := Option.map_eq_some_iff.1 h
    cases heq
    cases pc with
    | checkingClient id session =>
      obtain rfl : (checkSetup place sh id session env).1 = sh₁ := congrArg Prod.fst (Option.some.inj hpc)
      exact checkSetup_store place sh id session env hpassed
    | savingTokens id session => cases hstores
    | applying id session =>
      obtain rfl : (applySetup sh id session env.succeeds).1 = sh₁ := congrArg Prod.fst (Option.some.inj hpc)
      unfold applySetup
      split <;> exact ⟨rfl, rfl⟩
    | ended => cases hpc
    | _ =>
      cases hpc
      exact ⟨rfl, rfl⟩
  | cancelling id =>
    cases h
    exact ⟨rfl, rfl⟩
  | writing w =>
    cases h
    cases w with
    | file file text => cases hstores
    | endpoints published written => exact ⟨rfl, rfl⟩
  | ended => cases h

/-! ## Where the files come from -/

omit [DecidableEq κ] in
theorem Setups.Trace.mono (h : sh.Trace place file) (hstore : sh'.store file = sh.store file)
    (hundisturbed : sh'.undisturbed file = sh.undisturbed file) (hobtained : sh.obtained ⊆ sh'.obtained)
    (hpassed : sh.passed ⊆ sh'.passed) : sh'.Trace place file := by
  cases h with
  | undisturbed h => exact .undisturbed (by rw [hstore, hundisturbed, h])
  | client hclient hfile htext hrecord =>
    exact .client (hobtained hclient) hfile (hstore.trans htext) hrecord
  | tokens hp hfile hissued htext => exact .tokens (hpassed hp) hfile hissued (hstore.trans htext)

/-- A write of a setup leaves a trace of its own, and the other files. -/
theorem trace_save (hold : ∀ file, sh.Trace place file) (saved : Bool) (target : κ) (text : StoredText)
    (hnew : ∀ sh' : Setups κ, sh'.obtained = sh.obtained → sh'.passed = sh.passed →
      sh'.store target = some text → sh'.Trace place target) (file : κ) :
    (sh.save saved target text).Trace place file := by
  cases saved with
  | false => exact hold file
  | true =>
    by_cases hfile : file = target
    · subst hfile
      exact hnew _ rfl rfl (Function.update_self _ _ _)
    · exact (hold file).mono (Function.update_of_ne hfile _ _) rfl (List.Subset.refl _) (List.Subset.refl _)

/-- The client that a check finds or stores. -/
theorem commitRecord_isRecord {succeeds : Bool} {now : Nat} {session : SessionClient}
    {found : Option DcrText} {text : DcrText} (name : String)
    (h : commitRecord succeeds now session found = some text) :
    SetupClient.IsRecord ⟨name, session.clientId, session.clientSecret⟩ text := by
  unfold commitRecord at h
  split at h
  · obtain rfl := Option.some.inj h
    exact ⟨_, rfl, rfl, rfl⟩
  · next creds =>
    unfold commitUpdate at h
    by_cases hsame : creds.clientId = session.clientId ∧ creds.clientSecret = session.clientSecret
    · simp only [if_pos hsame, Option.some.injEq] at h
      exact ⟨creds, h.symm, hsame.1, hsame.2⟩
    · simp only [if_neg hsame] at h
      cases h
  · cases h

/-- **A check** that passes has the client of its session on record. -/
theorem checkSetup_traced {session : OAuthSetupSession} (hgiven : session.Given sh.obtained)
    (hold : sh.Traced place) (id : Nat) (env : SetupAnswer) :
    (checkSetup place sh id session env).1.Traced place := by
  unfold checkSetup
  dsimp only
  split
  · next hnone =>
    refine ⟨fun file => ?_, List.forall_mem_cons.2 ⟨fun clientId hclient => ?_, hold.passed⟩⟩
    · exact (hold.files file).mono rfl rfl (List.Subset.refl _) (List.subset_cons_self _ _)
    · cases hnone.symm.trans hclient
  · next clientId hclient =>
    split
    · next text htext =>
      have hrecord := commitRecord_isRecord session.name htext
      refine ⟨fun file => ?_, List.forall_mem_cons.2 ⟨fun clientId' hclient' => ?_, hold.passed⟩⟩
      · have hsaved : (sh.save true (place ⟨.dcr, session.name⟩) (.client text)).Trace place file := by
          refine trace_save hold.files true _ _ (fun sh' hobtained _ hstore => ?_) file
          exact .client (hobtained ▸ hgiven clientId hclient) rfl hstore hrecord
        exact hsaved.mono rfl rfl (List.Subset.refl _) (List.subset_cons_self _ _)
      · cases hclient.symm.trans hclient'
        exact ⟨hgiven clientId hclient, text, rfl, hrecord⟩
    · exact hold

/-- A write to the store by a setup that leaves the histories alone. -/
theorem traced_save (hold : sh.Traced place) (saved : Bool) (target : κ) (text : StoredText)
    (hnew : ∀ sh' : Setups κ, sh'.obtained = sh.obtained → sh'.passed = sh.passed →
      sh'.store target = some text → sh'.Trace place target) : (sh.save saved target text).Traced place := by
  refine ⟨trace_save hold.files saved target text hnew, ?_⟩
  rw [Setups.save_passed, (Setups.save_sessions _ _ _ _).2]
  exact hold.passed

omit [DecidableEq κ] in
theorem stores_cases (h : t.stores = true) :
    (∃ id name issuer client registration, t = .setup (.saving id name issuer client registration)) ∨
      (∃ id name clientId clientSecret, t = .credentials (.saving id name clientId clientSecret)) ∨
      (∃ id session, t = .commit (.savingTokens id session)) ∨ ∃ file text, t = .writing (.file file text) := by
  unfold SetupThread.stores at h
  split at h
  · exact .inl ⟨_, _, _, _, _, rfl⟩
  · exact .inr (.inl ⟨_, _, _, _, rfl⟩)
  · exact .inr (.inr (.inl ⟨_, _, rfl⟩))
  · exact .inr (.inr (.inr ⟨_, _, rfl⟩))
  · cases h

theorem SetupThread.step_traced (h : t.step place sh env = some (sh', t')) (hbacked : t.Backed sh)
    (hgiven : ∀ session, t.session? = some session → session.Given sh.obtained) (hold : sh.Traced place) :
    sh'.Traced place := by
  have hframe (hstores : t.stores = false) (hpassed : sh'.passed = sh.passed) : sh'.Traced place := by
    obtain ⟨hstore, hundisturbed⟩ := SetupThread.step_store h hstores hpassed
    have hobtained := SetupThread.step_obtained h
    refine ⟨fun file => ?_, fun p hp clientId hclient => ?_⟩
    · exact (hold.files file).mono (congrFun hstore file) (congrFun hundisturbed file) hobtained
        (hpassed ▸ List.Subset.refl _)
    · obtain ⟨hmem, hrecord⟩ := hold.passed p (hpassed ▸ hp) clientId hclient
      exact ⟨hobtained hmem, hrecord⟩
  obtain hpassed | ⟨id, p, rfl, -⟩ := SetupThread.step_passed h
  · cases hstores : t.stores with
    | false => exact hframe hstores hpassed
    | true =>
      obtain ⟨id, name, issuer, client, registration, rfl⟩ | ⟨id, name, clientId, clientSecret, rfl⟩ |
        ⟨id, session, rfl⟩ | ⟨target, text, rfl⟩ := stores_cases hstores
      · cases h
        have hmem : ⟨name, client.clientId, client.clientSecret⟩ ∈ sh.obtained := hbacked
        refine traced_save hold _ _ _ fun sh' hobtained _ hstore => ?_
        exact .client (hobtained ▸ hmem) rfl hstore ⟨_, rfl, rfl, rfl⟩
      · cases h
        have hmem : ⟨name, clientId, clientSecret⟩ ∈ sh.obtained := hbacked
        refine traced_save hold _ _ _ fun sh' hobtained _ hstore => ?_
        exact .client (hobtained ▸ hmem) rfl hstore ⟨_, rfl, rfl, rfl⟩
      · cases h
        obtain ⟨p, hp, rfl⟩ := hbacked
        unfold saveSetupTokens
        split
        · next issued hissued =>
          refine traced_save hold _ _ _ fun sh' _ hpassed' hstore => ?_
          exact .tokens (hpassed' ▸ hp) rfl hissued hstore
        · exact hold
      · cases h
        refine ⟨fun file => ?_, hold.passed⟩
        by_cases hfile : file = target
        · subst hfile
          have hwritten (store : κ → Option StoredText) : Function.update store file text file = text :=
            Function.update_self _ _ _
          exact .undisturbed ((hwritten sh.store).trans (hwritten sh.undisturbed).symm)
        · exact (hold.files file).mono (Function.update_of_ne hfile _ _) (Function.update_of_ne hfile _ _)
            (List.Subset.refl _) (List.Subset.refl _)
  · obtain ⟨⟨sh₁, pc'⟩, hpc, heq⟩ :
        ∃ r, (SetupCommitPc.checkingClient id p.session).step place sh env = some r ∧
          (r.1, SetupThread.commit r.2) = (sh', t') := Option.map_eq_some_iff.1 h
    cases heq
    obtain rfl : (checkSetup place sh id p.session env).1 = sh₁ := congrArg Prod.fst (Option.some.inj hpc)
    exact checkSetup_traced (hgiven p.session rfl) hold id env

/-! ## Runs -/

theorem threads_backed (h : (setups place).system.Reachable s) : ∀ t ∈ s.threads, t.Backed s.shared := by
  refine Pool.forall_threads (L := SetupThread.Backed) ?_ ?_ ?_ h
  · intro s op t _ ht
    cases op <;>
    · cases ht
      trivial
  · intro sh ts t env sh' t' new _ hst
    obtain ⟨⟨sh₁, t₁⟩, htask, heq⟩ := Option.map_eq_some_iff.1 hst
    cases heq
    exact ⟨SetupThread.step_backed htask, List.forall_mem_nil _⟩
  · intro sh ts t env sh' t' new u _ hu hst
    obtain ⟨⟨sh₁, t₁⟩, htask, heq⟩ := Option.map_eq_some_iff.1 hst
    cases heq
    exact hu.mono (SetupThread.step_obtained htask) (SetupThread.step_passed_subset htask)

theorem sessions_given (h : (setups place).system.Reachable s) :
    ∀ t ∈ s.threads, ∀ session, t.session? = some session → session.Given s.shared.obtained :=
  (given_rule.all_sessions (fun _ _ _ _ _ _ _ _ _ _ _ _ => trivial) h).2

/-- **What setups leave** in the store. -/
theorem setup_store_traced (h : (setups place).system.Reachable s) :
    s.shared.Traced place ∧
      ∀ i env t s', s.threads[i]? = some t → (setups place).system.step s (.run i env) = some s' →
        t.stores = false → s'.shared.passed = s.shared.passed → s'.shared.store = s.shared.store := by
  refine ⟨?_, fun i env t s' hi hst hstores hpassed => ?_⟩
  · refine Pool.invariant_of (J := fun s => s.shared.Traced place)
      (fun s (hs : (setups place).system.Reachable s) => And.intro (threads_backed hs) (sessions_given hs))
      ?_ ?_ ?_ h
    · intro sh hinit
      refine ⟨fun file => .undisturbed (congrFun hinit.2.2.1.symm file), ?_⟩
      rw [hinit.2.2.2.2]
      exact List.forall_mem_nil _
    · intro s op t _ hJ _ _
      exact hJ
    · intro s i env t sh' t' new ⟨hbacked, hgiven⟩ hJ _ hi hst
      obtain ⟨⟨sh₁, t₁⟩, htask, heq⟩ := Option.map_eq_some_iff.1 hst
      cases heq
      have hmem := List.mem_of_getElem? hi
      exact SetupThread.step_traced htask (hbacked t hmem) (hgiven t hmem) hJ
  · obtain ⟨t₀, sh', t', new, hi₀, hstep, rfl⟩ := Pool.next_run hst
    obtain rfl := Option.some.inj (hi.symm.trans hi₀)
    obtain ⟨⟨sh₁, t₁⟩, htask, heq⟩ := Option.map_eq_some_iff.1 hstep
    cases heq
    exact (SetupThread.step_store htask hstores hpassed).1

end Steps

/-! ## Setups that are not committed -/

def setupCancelled : List (SetupsAction TokenRecord) := setupStarted ++ [.launch (.cancel 0), .run 1 {}]

theorem setupCancelled_run : ∃ s, (setups id).system.run noSetups setupCancelled = some s ∧
    s.shared.sessions.lookup 0 = none ∧ s.shared.written = [] ∧
    s.shared.undisturbed ⟨.dcr, "mail"⟩ = none ∧
    (s.shared.store ⟨.dcr, "mail"⟩).isSome = true :=
  ⟨_, rfl, rfl, rfl, rfl, rfl⟩

/-- An endpoint of the name, with tokens of its own, appears in the config before the commit. -/
def setupRefused : List (SetupsAction TokenRecord) :=
  setupStarted ++ setupCallback 1 1 ++
    [.launch (.write (.endpoints ["mail"] ["mail"])), .run 2 {},
      .launch (.write (.file ⟨.tokens, "mail"⟩ (some (.tokens ⟨"own", none, none⟩)))), .run 3 {},
      .launch (.commit 0)] ++ List.replicate 5 (.run 4 {})

theorem setupRefused_run : ∃ s, (setups id).system.run noSetups setupRefused = some s ∧
    (s.shared.sessions.lookup 0).map (·.status) = some .authorized ∧ s.shared.written = ["mail"] ∧
    s.shared.undisturbed ⟨.tokens, "mail"⟩ = some (.tokens ⟨"own", none, none⟩) ∧
    s.shared.store ⟨.tokens, "mail"⟩ = some (.tokens ⟨"token", none, none⟩) :=
  ⟨_, rfl, rfl, rfl, rfl, rfl⟩

theorem setup_store_traced_refused : ∃ s, (setups id).system.Reachable s ∧
    (s.shared.sessions.lookup 0).map (·.status) = some .authorized ∧ s.shared.Traced id := by
  obtain ⟨s, hrun, hstatus, -⟩ := setupRefused_run
  have hreach := (System.Reachable.init noSetups_init).run hrun
  exact ⟨s, hreach, hstatus, (setup_store_traced hreach).1⟩

/-- A cancelled setup leaves a client record, and a commit whose name is taken has replaced the tokens of
the endpoint. -/
theorem uncommitted_setups_write : ∃ s s', (setups id).system.Reachable s ∧
    (setups id).system.Reachable s' ∧
    (s.shared.sessions.lookup 0 = none ∧ s.shared.written = [] ∧
      s.shared.store ⟨.dcr, "mail"⟩ ≠ s.shared.undisturbed ⟨.dcr, "mail"⟩) ∧
    (s'.shared.sessions.lookup 0).map (·.status) = some .authorized ∧ s'.shared.written = ["mail"] ∧
      s'.shared.store ⟨.tokens, "mail"⟩ ≠ s'.shared.undisturbed ⟨.tokens, "mail"⟩ := by
  obtain ⟨s, hrun, hgone, hwritten, hbefore, hafter⟩ := setupCancelled_run
  obtain ⟨s', hrun', hstatus, hwritten', hown, htokens⟩ := setupRefused_run
  refine ⟨s, s', (System.Reachable.init noSetups_init).run hrun,
    (System.Reachable.init noSetups_init).run hrun', ⟨hgone, hwritten, fun hsame => ?_⟩, hstatus, hwritten',
    fun hsame => ?_⟩
  · rw [hsame, hbefore] at hafter
    cases hafter
  · rw [hown, htokens] at hsame
    exact absurd hsame (by decide)

end EndaraRelay
