import EndaraRelay.Setups

/-!
# Sessions over a run

What the requests of setups do to the sessions, said once: a property of sessions that every edit keeps
(`SessionRule`) holds of every session in every run, and of the snapshot that a commit has claimed. Only
the check of a commit adds to the commits that have passed (`SetupThread.step_passed`).
-/

namespace EndaraRelay

open Verif

/-- What is to be shown of a property `P` of sessions, which may depend on the clients obtained: every edit
of a session keeps it, and `Q` follows for what a commit claims. `Marks` are the callbacks that may mark a
session. -/
structure SessionRule (P Q : List SetupClient → OAuthSetupSession → Prop)
    (Marks : SetupFlow → OAuthSetupSession → Prop) : Prop where
  mono {clients clients' session} : clients ⊆ clients' → P clients session → P clients' session
  created {clients req now} : P clients (.ofRequest req now)
  discovered {clients session disc} :
    P clients session → P clients { session with discovered := some disc }
  given {clients session} {client : RegisteredClient} {viaDcr} :
    ⟨session.name, client.clientId, client.clientSecret⟩ ∈ clients → P clients session →
      P clients (session.withClient client viaDcr)
  marked {clients session flow tokens} : Marks flow session → P clients session →
    P clients { session with tokens := some ⟨tokens, flow.clientId⟩, status := .authorized }
  claimed {clients session now} : session.status = .authorized → P clients session →
    P clients { session with status := .committing, createdAt := now }
  snapshot {clients session now} : session.status = .authorized → P clients session →
    Q clients { session with createdAt := now }
  kept {clients clients' session} : clients ⊆ clients' → Q clients session → Q clients' session
  released {clients session} : session.status = .committing → P clients session →
    P clients (session.withStatus .authorized)

/-- The session that a commit has claimed. -/
def SetupCommitPc.session? : SetupCommitPc → Option OAuthSetupSession
  | .checkingClient _ session | .savingTokens _ session => some session
  | .applying _ session | .publishing _ session => some session
  | _ => none

def SetupThread.session? {κ : Type} : SetupThread κ → Option OAuthSetupSession
  | .commit pc => pc.session?
  | _ => none

/-- A callback marks the session as it is. -/
def SetupThread.MayMark {κ : Type} (Marks : SetupFlow → OAuthSetupSession → Prop)
    (sessions : SetupSessions) (t : SetupThread κ) : Prop :=
  ∀ flow tokens, t = .callback (.marking flow tokens) → ∀ session,
    sessions.lookup flow.session = some session → session.status ≠ .committing → Marks flow session

/-- The property of all sessions, with the clients that have been obtained. -/
def Setups.AllSessions {κ : Type} (P : List SetupClient → OAuthSetupSession → Prop) (sh : Setups κ) : Prop :=
  sh.sessions.All (P sh.obtained)

section SessionSteps

variable {κ : Type} {sh sh' : Setups κ} {t t' : SetupThread κ} {env : SetupAnswer}
  {P Q : List SetupClient → OAuthSetupSession → Prop} {Marks : SetupFlow → OAuthSetupSession → Prop}

namespace SessionRule

theorem gain (rule : SessionRule P Q Marks) (h : sh.AllSessions P) (client : SetupClient) :
    (sh.gain client).AllSessions P :=
  AList.All.mono h fun _ => rule.mono (List.subset_cons_self _ _)

theorem giveClient (rule : SessionRule P Q Marks) (h : sh.AllSessions P) (id now : Nat)
    (client : RegisteredClient) (viaDcr : Bool) : (sh.giveClient id now client viaDcr).1.AllSessions P := by
  unfold Setups.giveClient
  obtain ⟨session, hlookup, heq⟩ | ⟨kept, heq, hkept⟩ :=
    SetupSessions.getSessionMut_cases sh.sessions id now (·.withClient client viaDcr)
  · rw [heq]
    refine AList.All.modify (rule.gain h _) ?_
    intro session' hlookup' hold
    obtain rfl := Option.some.inj (hlookup.symm.trans hlookup')
    exact rule.given (.head _) hold
  · rw [heq]
    exact SetupSessions.all_of_kept h hkept

theorem discover (rule : SessionRule P Q Marks) (h : sh.AllSessions P) (id : Nat) (req : OAuthSetupRequest)
    (env : SetupAnswer) : (discoverSetup sh id req env).1.AllSessions P := by
  unfold discoverSetup
  split
  · exact SetupSessions.all_getSessionMut h fun session => rule.discovered
  · exact AList.All.erase h

theorem resolve (rule : SessionRule P Q Marks) (h : sh.AllSessions P) (id : Nat) (req : OAuthSetupRequest)
    (disc : DiscoveredServer) (env : SetupAnswer) : (resolveSetup sh id req disc env).1.AllSessions P := by
  unfold resolveSetup
  split
  · exact rule.gain h _
  · exact h

theorem edit (rule : SessionRule P Q Marks) (h : sh.AllSessions P) (id : Nat) (clientId : String)
    (clientSecret : Option String) (now : Nat) :
    (editSetup sh id clientId clientSecret now).1.AllSessions P := by
  unfold editSetup
  split
  · exact h
  · exact rule.giveClient h _ _ _ _

end SessionRule

theorem obtained_gain (sh : Setups κ) (client : SetupClient) : sh.obtained ⊆ (sh.gain client).obtained :=
  List.subset_cons_self _ _

theorem obtained_giveClient (sh : Setups κ) (id now : Nat) (client : RegisteredClient) (viaDcr : Bool) :
    sh.obtained ⊆ (sh.giveClient id now client viaDcr).1.obtained := by
  unfold Setups.giveClient
  dsimp only
  split
  · exact List.subset_cons_self _ _
  · exact List.Subset.refl _

theorem obtained_discoverSetup (sh : Setups κ) (id : Nat) (req : OAuthSetupRequest) (env : SetupAnswer) :
    sh.obtained ⊆ (discoverSetup sh id req env).1.obtained := by
  unfold discoverSetup
  split <;> exact List.Subset.refl _

theorem obtained_resolveSetup (sh : Setups κ) (id : Nat) (req : OAuthSetupRequest) (disc : DiscoveredServer)
    (env : SetupAnswer) : sh.obtained ⊆ (resolveSetup sh id req disc env).1.obtained := by
  unfold resolveSetup
  split
  · exact obtained_gain _ _
  · exact List.Subset.refl _

theorem obtained_editSetup (sh : Setups κ) (id : Nat) (clientId : String) (clientSecret : Option String)
    (now : Nat) : sh.obtained ⊆ (editSetup sh id clientId clientSecret now).1.obtained := by
  unfold editSetup
  split
  · exact List.Subset.refl _
  · exact obtained_giveClient _ _ _ _ _

theorem applySetup_sessions (sh : Setups κ) (id : Nat) (session : OAuthSetupSession) (saved : Bool) :
    (applySetup sh id session saved).1.sessions = sh.sessions ∧
      (applySetup sh id session saved).1.obtained = sh.obtained ∧
      ∀ session', (applySetup sh id session saved).2.session? = some session' → some session = some session' := by
  unfold applySetup
  split
  · refine ⟨rfl, rfl, fun session' h => ?_⟩
    cases h
  · exact ⟨rfl, rfl, fun session' h => h⟩

theorem consumeFlow_sessions (sh : Setups κ) (state now : Nat) :
    (consumeFlow sh state now).1.sessions = sh.sessions ∧
      (consumeFlow sh state now).1.obtained = sh.obtained := by
  unfold consumeFlow
  split <;> exact ⟨rfl, rfl⟩

theorem SetupCallbackPc.step_sessions {pc pc' : SetupCallbackPc} (rule : SessionRule P Q Marks)
    (h : pc.step sh env = some (sh', pc'))
    (hmay : SetupThread.MayMark Marks sh.sessions (.callback pc : SetupThread κ)) (hold : sh.AllSessions P) :
    sh'.AllSessions P ∧ sh'.obtained = sh.obtained := by
  cases pc with
  | consuming state =>
    obtain ⟨hsessions, hobtained⟩ := consumeFlow_sessions sh state env.now
    rw [Option.some.inj h] at hsessions hobtained
    rw [Setups.AllSessions, hsessions, hobtained]
    exact ⟨hold, rfl⟩
  | exchanging flow =>
    cases h
    exact ⟨hold, rfl⟩
  | marking flow tokens =>
    cases h
    refine ⟨SetupSessions.all_markAuthorized hold fun session hlookup hfree => ?_, rfl⟩
    exact rule.marked (hmay flow tokens rfl session hlookup hfree)
  | ended => cases h

variable [DecidableEq κ] {place : TokenRecord → κ}

theorem Setups.save_sessions (sh : Setups κ) (saved : Bool) (file : κ) (text : StoredText) :
    (sh.save saved file text).sessions = sh.sessions ∧
      (sh.save saved file text).obtained = sh.obtained := by
  cases saved <;> exact ⟨rfl, rfl⟩

theorem allSessions_save (h : sh.AllSessions P) (saved : Bool) (file : κ) (text : StoredText) :
    (sh.save saved file text).AllSessions P ∧ sh.obtained ⊆ (sh.save saved file text).obtained := by
  obtain ⟨hsessions, hobtained⟩ := Setups.save_sessions sh saved file text
  rw [Setups.AllSessions, hsessions, hobtained]
  exact ⟨h, List.Subset.refl _⟩

theorem saveSetupTokens_sessions (place : TokenRecord → κ) (sh : Setups κ) (session : OAuthSetupSession)
    (saved : Bool) :
    (saveSetupTokens place sh session saved).sessions = sh.sessions ∧
      (saveSetupTokens place sh session saved).obtained = sh.obtained := by
  unfold saveSetupTokens
  split
  · exact Setups.save_sessions _ _ _ _
  · exact ⟨rfl, rfl⟩

theorem checkSetup_sessions (place : TokenRecord → κ) (sh : Setups κ) (id : Nat)
    (session : OAuthSetupSession) (env : SetupAnswer) :
    (checkSetup place sh id session env).1.sessions = sh.sessions ∧
      (checkSetup place sh id session env).1.obtained = sh.obtained ∧
      ∀ session', (checkSetup place sh id session env).2.session? = some session' →
        some session = some session' := by
  unfold checkSetup
  dsimp only
  split
  · exact ⟨rfl, rfl, fun session' h => h⟩
  · split
    · exact ⟨rfl, rfl, fun session' h => h⟩
    · refine ⟨rfl, rfl, fun session' h => ?_⟩
      cases h

theorem SetupPc.step_sessions {pc pc' : SetupPc} (rule : SessionRule P Q Marks)
    (h : pc.step place sh env = some (sh', pc')) (hold : sh.AllSessions P) :
    sh'.AllSessions P ∧ sh.obtained ⊆ sh'.obtained := by
  cases pc with
  | checkingName req =>
    cases h
    exact ⟨hold, List.Subset.refl _⟩
  | creating req =>
    cases h
    exact ⟨SetupSessions.all_createSession hold rule.created, List.Subset.refl _⟩
  | discovering id req =>
    have hnew := rule.discover hold id req env
    have hobtained := obtained_discoverSetup sh id req env
    rw [Option.some.inj h] at hnew hobtained
    exact ⟨hnew, hobtained⟩
  | resolving id req disc =>
    have hnew := rule.resolve hold id req disc env
    have hobtained := obtained_resolveSetup sh id req disc env
    rw [Option.some.inj h] at hnew hobtained
    exact ⟨hnew, hobtained⟩
  | saving id name issuer client registration =>
    cases h
    exact allSessions_save hold _ _ _
  | storing id client registration =>
    cases h
    exact ⟨rule.giveClient hold _ _ _ _, obtained_giveClient _ _ _ _ _⟩
  | starting id client =>
    cases h
    exact ⟨hold, List.Subset.refl _⟩
  | ended => cases h

theorem SetupCredentialsPc.step_sessions {pc pc' : SetupCredentialsPc} (rule : SessionRule P Q Marks)
    (h : pc.step place sh env = some (sh', pc')) (hold : sh.AllSessions P) :
    sh'.AllSessions P ∧ sh.obtained ⊆ sh'.obtained := by
  cases pc with
  | editing id clientId clientSecret =>
    have hnew := rule.edit hold id clientId clientSecret env.now
    have hobtained := obtained_editSetup sh id clientId clientSecret env.now
    rw [Option.some.inj h] at hnew hobtained
    exact ⟨hnew, hobtained⟩
  | saving id name clientId clientSecret =>
    cases h
    exact allSessions_save hold _ _ _
  | starting id clientId clientSecret =>
    cases h
    exact ⟨hold, List.Subset.refl _⟩
  | ended => cases h

theorem SetupCommitPc.step_sessions {pc pc' : SetupCommitPc} (rule : SessionRule P Q Marks)
    (h : pc.step place sh env = some (sh', pc')) (hold : sh.AllSessions P)
    (hsession : ∀ session, pc.session? = some session → Q sh.obtained session) :
    sh'.AllSessions P ∧ sh'.obtained = sh.obtained ∧
      ∀ session, pc'.session? = some session → Q sh.obtained session := by
  cases pc with
  | claiming id =>
    cases h
    refine ⟨SetupSessions.all_claimForCommit hold fun session => rule.claimed, rfl, ?_⟩
    intro session hclaimed
    split at hclaimed
    · next snapshot hclaim =>
      obtain rfl := Option.some.inj hclaimed
      obtain ⟨before, hlookup, hauthorized, rfl⟩ := SetupSessions.claimForCommit_claimed hclaim
      exact rule.snapshot hauthorized (hold _ _ hlookup)
    · cases hclaimed
  | checkingClient id session =>
    have hkept := checkSetup_sessions place sh id session env
    rw [Option.some.inj h] at hkept
    obtain ⟨hsessions, hobtained, hsame⟩ := hkept
    rw [Setups.AllSessions, hsessions, hobtained]
    exact ⟨hold, rfl, fun session' h' => hsession session' (hsame session' h')⟩
  | savingTokens id session =>
    cases h
    obtain ⟨hsessions, hobtained⟩ := saveSetupTokens_sessions place sh session env.succeeds
    rw [Setups.AllSessions, hsessions, hobtained]
    exact ⟨hold, rfl, hsession⟩
  | applying id session =>
    have hkept := applySetup_sessions sh id session env.succeeds
    rw [Option.some.inj h] at hkept
    obtain ⟨hsessions, hobtained, hsame⟩ := hkept
    rw [Setups.AllSessions, hsessions, hobtained]
    exact ⟨hold, rfl, fun session' h' => hsession session' (hsame session' h')⟩
  | publishing id session =>
    cases h
    refine ⟨hold, rfl, fun session' h' => ?_⟩
    cases h'
  | releasing id =>
    cases h
    refine ⟨SetupSessions.all_releaseCommitClaim hold fun session => rule.released, rfl, fun s h' => ?_⟩
    cases h'
  | removing id =>
    cases h
    refine ⟨AList.All.erase hold, rfl, fun s h' => ?_⟩
    cases h'
  | ended => cases h

/-- What a thread does to the sessions, and to the one it has claimed. -/
theorem SetupThread.step_sessions (rule : SessionRule P Q Marks) (h : t.step place sh env = some (sh', t'))
    (hmay : t.MayMark Marks sh.sessions) (hold : sh.AllSessions P)
    (hsession : ∀ session, t.session? = some session → Q sh.obtained session) :
    sh'.AllSessions P ∧ sh.obtained ⊆ sh'.obtained ∧
      ∀ session, t'.session? = some session → Q sh'.obtained session := by
  cases t with
  | setup pc =>
    obtain ⟨⟨sh₁, pc'⟩, hpc, heq⟩ := Option.map_eq_some_iff.1 h
    cases heq
    obtain ⟨hnew, hobtained⟩ := SetupPc.step_sessions rule hpc hold
    refine ⟨hnew, hobtained, fun s hs => ?_⟩
    cases hs
  | credentials pc =>
    obtain ⟨⟨sh₁, pc'⟩, hpc, heq⟩ := Option.map_eq_some_iff.1 h
    cases heq
    obtain ⟨hnew, hobtained⟩ := SetupCredentialsPc.step_sessions rule hpc hold
    refine ⟨hnew, hobtained, fun s hs => ?_⟩
    cases hs
  | callback pc =>
    obtain ⟨⟨sh₁, pc'⟩, hpc, heq⟩ := Option.map_eq_some_iff.1 h
    cases heq
    obtain ⟨hnew, hobtained⟩ := SetupCallbackPc.step_sessions rule hpc hmay hold
    refine ⟨hnew, hobtained ▸ List.Subset.refl _, fun s hs => ?_⟩
    cases hs
  | commit pc =>
    obtain ⟨⟨sh₁, pc'⟩, hpc, heq⟩ := Option.map_eq_some_iff.1 h
    cases heq
    obtain ⟨hnew, hobtained, hnext⟩ := SetupCommitPc.step_sessions rule hpc hold hsession
    refine ⟨hnew, hobtained ▸ List.Subset.refl _, fun s hs => ?_⟩
    rw [hobtained]
    exact hnext s hs
  | cancelling id =>
    cases h
    refine ⟨SetupSessions.all_cancelSession hold, List.Subset.refl _, fun s hs => ?_⟩
    cases hs
  | writing w =>
    cases h
    cases w <;>
    · refine ⟨hold, List.Subset.refl _, fun s hs => ?_⟩
      cases hs
  | ended => cases h

/-- **The sessions rule**: what every edit of a session keeps holds of every session, and of every session
that a commit has claimed. -/
theorem SessionRule.all_sessions {ok : SetupsState κ → SetupsAction κ → Prop} {s : SetupsState κ}
    (rule : SessionRule P Q Marks)
    (hmay : ∀ s i env t, ok s (.run i env) → s.threads[i]? = some t → t.MayMark Marks s.shared.sessions)
    (h : (setups place).system.ReachableWhile ok s) :
    s.shared.AllSessions P ∧
      ∀ t ∈ s.threads, ∀ session, t.session? = some session → Q s.shared.obtained session := by
  refine Pool.invariant_of (I := fun _ => True) (J := fun s => s.shared.AllSessions P ∧
    ∀ t ∈ s.threads, ∀ session, SetupThread.session? t = some session → Q s.shared.obtained session)
    (fun _ _ => trivial) ?_ ?_ ?_ h
  · intro sh hinit
    refine ⟨?_, List.forall_mem_nil _⟩
    rw [Setups.AllSessions, hinit.1]
    intro k b hb
    cases hb
  · intro s op t _ hJ _ ht
    refine ⟨hJ.1, fun u hu => ?_⟩
    rcases List.mem_append.1 hu with hu | hu
    · exact hJ.2 u hu
    · rw [List.mem_singleton.1 hu]
      intro session hs
      cases op <;> cases ht <;> cases hs
  · intro s i env t sh' t' new _ hJ hok hi hst
    obtain ⟨⟨sh₁, t₁⟩, htask, heq⟩ := Option.map_eq_some_iff.1 hst
    cases heq
    obtain ⟨hnew, hobtained, hself⟩ := SetupThread.step_sessions rule htask (hmay s i env t hok hi) hJ.1
      (hJ.2 t (List.mem_of_getElem? hi))
    refine ⟨hnew, Pool.forall_mem_stepped hself (List.forall_mem_nil _) fun j u _ hj session hs => ?_⟩
    exact rule.kept hobtained (hJ.2 u (List.mem_of_getElem? hj) session hs)

/-! ## The commits that have passed -/

/-- A check adds its own session to the commits that have passed, or refuses. -/
theorem checkSetup_passed (place : TokenRecord → κ) (sh : Setups κ) (id : Nat)
    (session : OAuthSetupSession) (env : SetupAnswer) :
    (checkSetup place sh id session env).1.passed = sh.passed ∨
      ∃ record, (checkSetup place sh id session env).1.passed = ⟨session, record⟩ :: sh.passed := by
  unfold checkSetup
  dsimp only
  split
  · exact .inr ⟨_, rfl⟩
  · split
    · exact .inr ⟨_, rfl⟩
    · exact .inl rfl

theorem Setups.save_passed (sh : Setups κ) (saved : Bool) (file : κ) (text : StoredText) :
    (sh.save saved file text).passed = sh.passed := by
  cases saved <;> rfl

theorem saveSetupTokens_passed (place : TokenRecord → κ) (sh : Setups κ) (session : OAuthSetupSession)
    (saved : Bool) : (saveSetupTokens place sh session saved).passed = sh.passed := by
  unfold saveSetupTokens
  split
  · exact Setups.save_passed _ _ _ _
  · rfl

omit [DecidableEq κ] in
theorem giveClient_passed (sh : Setups κ) (id now : Nat) (client : RegisteredClient) (viaDcr : Bool) :
    (sh.giveClient id now client viaDcr).1.passed = sh.passed := by
  unfold Setups.giveClient
  dsimp only
  split <;> rfl

/-- Only the check of a commit adds to the commits that have passed. -/
theorem SetupThread.step_passed (h : t.step place sh env = some (sh', t')) :
    sh'.passed = sh.passed ∨
      ∃ id p, t = .commit (.checkingClient id p.session) ∧ sh'.passed = p :: sh.passed := by
  cases t with
  | setup pc =>
    obtain ⟨⟨sh₁, pc'⟩, hpc, heq⟩ := Option.map_eq_some_iff.1 h
    cases heq
    refine .inl ?_
    cases pc with
    | discovering id req =>
      rw [← congrArg Prod.fst (Option.some.inj hpc)]
      unfold discoverSetup
      split <;> rfl
    | resolving id req disc =>
      rw [← congrArg Prod.fst (Option.some.inj hpc)]
      unfold resolveSetup
      split <;> rfl
    | saving id name issuer client registration =>
      cases hpc
      exact Setups.save_passed _ _ _ _
    | storing id client registration =>
      cases hpc
      exact giveClient_passed _ _ _ _ _
    | ended => cases hpc
    | _ =>
      cases hpc
      rfl
  | credentials pc =>
    obtain ⟨⟨sh₁, pc'⟩, hpc, heq⟩ := Option.map_eq_some_iff.1 h
    cases heq
    refine .inl ?_
    cases pc with
    | editing id clientId clientSecret =>
      rw [← congrArg Prod.fst (Option.some.inj hpc)]
      unfold editSetup
      split
      · rfl
      · exact giveClient_passed _ _ _ _ _
    | saving id name clientId clientSecret =>
      cases hpc
      exact Setups.save_passed _ _ _ _
    | starting id clientId clientSecret =>
      cases hpc
      rfl
    | ended => cases hpc
  | callback pc =>
    obtain ⟨⟨sh₁, pc'⟩, hpc, heq⟩ := Option.map_eq_some_iff.1 h
    cases heq
    refine .inl ?_
    cases pc with
    | consuming state =>
      rw [← congrArg Prod.fst (Option.some.inj hpc)]
      unfold consumeFlow
      split <;> rfl
    | ended => cases hpc
    | _ =>
      cases hpc
      rfl
  | commit pc =>
    obtain ⟨⟨sh₁, pc'⟩, hpc, heq⟩ := Option.map_eq_some_iff.1 h
    cases heq
    cases pc with
    | checkingClient id session =>
      rw [← congrArg Prod.fst (Option.some.inj hpc)]
      refine (checkSetup_passed place sh id session env).imp_right ?_
      rintro ⟨record, hpassed⟩
      exact ⟨id, ⟨session, record⟩, rfl, hpassed⟩
    | savingTokens id session =>
      cases hpc
      exact .inl (saveSetupTokens_passed _ _ _ _)
    | applying id session =>
      refine .inl ?_
      rw [← congrArg Prod.fst (Option.some.inj hpc)]
      unfold applySetup
      split <;> rfl
    | ended => cases hpc
    | _ =>
      cases hpc
      exact .inl rfl
  | cancelling id =>
    cases h
    exact .inl rfl
  | writing w =>
    cases h
    cases w <;> exact .inl rfl
  | ended => cases h

end SessionSteps

end EndaraRelay
