import EndaraRelay.SetupRules

/-!
# The tokens of a setup

`setup_tokens_own_client`: in every run in which a callback marks a session only while the session has the
client of the flow, whatever commit passes has tokens that were obtained with the client it stores.

A change of the credentials sets the session back to where it waits for its login, so an authorized session
has the client it had when it was marked. But `mark_authorized` does not ask which client that was: a flow
that was started before the change still marks the session. The guard is about that step alone.
-/

namespace EndaraRelay

open Verif

/-- The tokens of the session were obtained with its client. -/
def OAuthSetupSession.OwnTokens (session : OAuthSetupSession) : Prop :=
  ∀ issued clientId, session.tokens = some issued → session.clientId = some clientId →
    issued.issuedTo = clientId

/-- A session that can be committed, or is, has tokens of its own. -/
def OAuthSetupSession.Sound (session : OAuthSetupSession) : Prop :=
  session.status = .authorized ∨ session.status = .committing → session.OwnTokens

/-- A callback marks a session only for the client it has. -/
def marksOwnClient {κ : Type} (s : SetupsState κ) : SetupsAction κ → Bool
  | .launch _ => true
  | .run i _ => match s.threads[i]? with
    | some (.callback (.marking flow _)) =>
      match s.shared.sessions.lookup flow.session with
      | some session => session.status = .committing || session.clientId = some flow.clientId
      | none => true
    | _ => true

section Runs

variable {κ : Type} {s : SetupsState κ} {t : SetupThread κ}

theorem mayMark_of_guard {i : Nat} {env : SetupAnswer} (h : marksOwnClient s (.run i env) = true)
    (hi : s.threads[i]? = some t) :
    t.MayMark (fun flow session => session.clientId = some flow.clientId) s.shared.sessions := by
  rintro flow tokens rfl session hlookup hfree
  unfold marksOwnClient at h
  dsimp only at h
  rw [hi] at h
  dsimp only at h
  rw [hlookup, Bool.or_eq_true, decide_eq_true_eq, decide_eq_true_eq] at h
  exact h.resolve_left hfree

/-- **The edits**: a client is given to a session that waits for its login, and tokens to one whose client
they are for. -/
theorem ownTokens_rule : SessionRule (fun _ session => session.Sound) (fun _ session => session.OwnTokens)
    (fun flow session => session.clientId = some flow.clientId) where
  mono _ hold := hold
  created := by
    intro clients req now hstatus
    cases hstatus with
    | inl h => cases h
    | inr h => cases h
  discovered hold := hold
  given := by
    intro clients session client viaDcr _ _ hstatus
    cases hstatus with
    | inl h => cases h
    | inr h => cases h
  marked := by
    intro clients session flow tokens hmarks _ _ issued clientId hissued hclient
    cases hissued
    exact Option.some.inj (hmarks.symm.trans hclient)
  claimed hauthorized hold := fun _ => hold (.inl hauthorized)
  snapshot hauthorized hold := hold (.inl hauthorized)
  kept _ hold := hold
  released hclaimed hold := fun _ => hold (.inr hclaimed)

variable [DecidableEq κ] {place : TokenRecord → κ}

/-- **Committed tokens belong to the committed client**, as long as callbacks mark only sessions of their
own client. -/
theorem setup_tokens_own_client
    (h : (setups place).system.ReachableWhile (fun s a => marksOwnClient s a = true) s) :
    ∀ p ∈ s.shared.passed, p.session.OwnTokens := by
  refine Pool.invariant_of (J := fun s => ∀ p ∈ s.shared.passed, p.session.OwnTokens)
    (fun s hs => ownTokens_rule.all_sessions (fun s i env t hok hi => mayMark_of_guard hok hi) hs)
    ?_ ?_ ?_ h
  · intro sh hinit
    rw [hinit.2.2.2.2]
    exact List.forall_mem_nil _
  · intro s op t _ hJ _ _
    exact hJ
  · intro s i env t sh' t' new hsessions hJ _ hi hst
    obtain ⟨⟨sh₁, t₁⟩, htask, heq⟩ := Option.map_eq_some_iff.1 hst
    cases heq
    obtain hsame | ⟨id, p, rfl, hpassed⟩ := SetupThread.step_passed htask
    · dsimp only
      rw [hsame]
      exact hJ
    · dsimp only
      rw [hpassed]
      exact List.forall_mem_cons.2 ⟨hsessions.2 _ (List.mem_of_getElem? hi) p.session rfl, hJ⟩

end Runs

/-! ## Runs -/

def noSetups : SetupsState TokenRecord :=
  ⟨⟨∅, ∅, 0, [], [], fun _ => none, fun _ => none, [], []⟩, []⟩

theorem noSetups_init : (setups id).system.init noSetups := ⟨⟨rfl, rfl, rfl, rfl, rfl⟩, rfl⟩

def setupServer : DiscoveredServer where
  authorizationEndpoint := "https://as/authorize"
  tokenEndpoint := "https://as/token"
  registrationEndpoint := some "https://as/register"
  authServerUrl := "https://as"
  issuer := "https://as"
  cimdSupported := false

/-- A setup of an endpoint, whose client is registered. -/
def setupStarted : List (SetupsAction TokenRecord) :=
  [.launch (.setup { name := "mail", url := "https://mail" }), .run 0 {}, .run 0 {},
    .run 0 { discovered := some setupServer }, .run 0 { registered := some ⟨"registered", none, 0⟩ },
    .run 0 {}, .run 0 {}, .run 0 {}]

/-- The callback of a flow. -/
def setupCallback (i state : Nat) : List (SetupsAction TokenRecord) :=
  [.launch (.callback state), .run i {}, .run i { issued := some ⟨"token", none, none⟩ }, .run i {}]

def setupCommit (i : Nat) : List (SetupsAction TokenRecord) :=
  .launch (.commit 0) :: List.replicate 6 (.run i {})

theorem setupCommitted_run : ∃ s,
    (setups id).system.runWhile marksOwnClient noSetups (setupStarted ++ setupCallback 1 1 ++ setupCommit 2) =
        some s ∧
      s.shared.written = ["mail"] :=
  ⟨_, rfl, rfl⟩

theorem setup_tokens_own_client_registered : ∃ s,
    (setups id).system.ReachableWhile (fun s a => marksOwnClient s a = true) s ∧
      s.shared.written = ["mail"] ∧ ∀ p ∈ s.shared.passed, p.session.OwnTokens := by
  obtain ⟨s, hrun, hwritten⟩ := setupCommitted_run
  have hreach := (System.ReachableWhile.init noSetups_init).run (fun _ _ h => h) hrun
  exact ⟨s, hreach, hwritten, setup_tokens_own_client hreach⟩

/-- The credentials are changed before the callback of the first flow comes in. -/
def setupChanged : List (SetupsAction TokenRecord) :=
  setupStarted ++ [.launch (.credentials 0 "manual" none), .run 1 {}, .run 1 {}, .run 1 {}] ++
    setupCallback 2 1 ++ setupCommit 3

theorem setupChanged_run : ∃ s, (setups id).system.run noSetups setupChanged = some s ∧
    s.shared.store ⟨.tokens, "mail"⟩ = some (.tokens ⟨"token", none, none⟩) ∧
    s.shared.store ⟨.dcr, "mail"⟩ = some (.client (.record (manualCredentials "manual" none 0))) ∧
    s.shared.passed.map (fun p => (p.session.tokens.map (·.issuedTo), p.session.clientId)) =
      [(some "registered", some "manual")] :=
  ⟨_, rfl, rfl, rfl, rfl⟩

/-- The tokens of one client are stored with another one. -/
theorem setup_tokens_of_other_client : ∃ s, (setups id).system.Reachable s ∧
    s.shared.store ⟨.tokens, "mail"⟩ = some (.tokens ⟨"token", none, none⟩) ∧
    s.shared.store ⟨.dcr, "mail"⟩ = some (.client (.record (manualCredentials "manual" none 0))) ∧
    ∃ p ∈ s.shared.passed, ¬ p.session.OwnTokens := by
  obtain ⟨s, hrun, htokens, hclient, hpassed⟩ := setupChanged_run
  refine ⟨s, (System.Reachable.init noSetups_init).run hrun, htokens, hclient, ?_⟩
  obtain ⟨p, hp, heq⟩ := List.map_eq_singleton_iff.1 hpassed
  obtain ⟨hissued, hid⟩ := Prod.mk.inj heq
  obtain ⟨issued, hsome, hto⟩ := Option.map_eq_some_iff.1 hissued
  refine ⟨p, hp ▸ List.mem_singleton_self p, fun hown => ?_⟩
  have hsame := hown issued "manual" hsome hid
  rw [hto] at hsame
  exact absurd hsame (by decide)

end EndaraRelay
