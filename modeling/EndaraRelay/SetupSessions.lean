import EndaraRelay.LoginClient
import EndaraRelay.TokenPaths
import EndaraRelay.OAuth.Refresh

/-!
# Setup sessions

The sessions in which an OAuth endpoint is set up before it is in the config, `OAuthSetupManager` in
`oauth/mod.rs`. A session reserves its name. It is given a client, its login brings it tokens, and a commit
claims it: a claimed session cannot be edited, cancelled or claimed again, until the commit has failed.

Each operation of the manager is atomic, under the lock of its map. Session ids are numbers, and times are
in seconds.
-/

namespace EndaraRelay

open Verif

/-! ## Sessions -/

inductive SetupSessionStatus where
  | awaitingCredentials
  | awaitingAuth
  | authorized
  | committing
deriving DecidableEq, Repr

/-- What is kept of the discovery of an authorization server. -/
structure DiscoveredServer where
  authorizationEndpoint : String
  tokenEndpoint : String
  registrationEndpoint : Option String
  authServerUrl : String
  issuer : String
  cimdSupported : Bool
deriving DecidableEq, Repr

/-- Tokens, and for the history the client their code was exchanged with. -/
structure IssuedTokens where
  tokens : TokenSet
  issuedTo : String
deriving DecidableEq, Repr

structure OAuthSetupRequest where
  name : String
  url : String
  scopes : Option (List String) := none
  toolPrefix : Option String := none
  clientId : Option String := none
  clientSecret : Option String := none
  serverTypeOverride : Option String := none
deriving DecidableEq, Repr

/-- `OAuthSetupSession`. The five endpoints of a discovery are stored together. -/
structure OAuthSetupSession where
  name : String
  url : String
  scopes : Option String
  toolPrefix : Option String
  serverTypeOverride : Option String
  discovered : Option DiscoveredServer
  clientId : Option String
  clientSecret : Option String
  clientSecretExpiresAt : Nat
  registeredViaDcr : Bool
  tokens : Option IssuedTokens
  status : SetupSessionStatus
  createdAt : Nat
deriving DecidableEq, Repr

abbrev SetupSessions := Table Nat OAuthSetupSession

def setupSessionMaxAge : Nat := 600

namespace OAuthSetupSession

/-- A sweep keeps the session. -/
def live (now : Nat) (session : OAuthSetupSession) : Bool := now - session.createdAt < setupSessionMaxAge

/-- An operation removes the session instead. -/
def expired (now : Nat) (session : OAuthSetupSession) : Bool :=
  setupSessionMaxAge < now - session.createdAt

/-- What `oauth_setup` keeps of its request. -/
def ofRequest (req : OAuthSetupRequest) (now : Nat) : OAuthSetupSession where
  name := req.name
  url := req.url
  scopes := req.scopes.map (" ".intercalate ·)
  toolPrefix := req.toolPrefix
  serverTypeOverride := req.serverTypeOverride
  discovered := none
  clientId := none
  clientSecret := none
  clientSecretExpiresAt := 0
  registeredViaDcr := false
  tokens := none
  status := .awaitingCredentials
  createdAt := now

/-- The session is given a client, which awaits its login. -/
def withClient (client : RegisteredClient) (viaDcr : Bool) (session : OAuthSetupSession) :
    OAuthSetupSession :=
  { session with
    clientId := some client.clientId
    clientSecret := client.clientSecret
    clientSecretExpiresAt := client.clientSecretExpiresAt
    registeredViaDcr := viaDcr
    status := .awaitingAuth }

def withStatus (status : SetupSessionStatus) (session : OAuthSetupSession) : OAuthSetupSession :=
  { session with status }

/-- The client that a commit stores. -/
def client (session : OAuthSetupSession) (clientId : String) : SessionClient :=
  ⟨clientId, session.clientSecret, session.clientSecretExpiresAt, session.discovered.map (·.issuer),
    session.registeredViaDcr⟩

end OAuthSetupSession

/-! ## The manager -/

namespace SetupSessions

/-- `create_session`: expired sessions are swept, and the name must not be reserved by another one. -/
def createSession (id now : Nat) (req : OAuthSetupRequest) (sessions : SetupSessions) :
    Bool × SetupSessions :=
  let kept := sessions.retain (OAuthSetupSession.live now)
  if kept.entries.any fun e => e.2.name = req.name then (false, kept)
  else (true, kept.insert id (.ofRequest req now))

/-- `get_session_mut`: the edited session, if it is there and no commit has claimed it. -/
def getSessionMut (id now : Nat) (f : OAuthSetupSession → OAuthSetupSession) (sessions : SetupSessions) :
    Option OAuthSetupSession × SetupSessions :=
  match sessions.lookup id with
  | none => (none, sessions)
  | some session =>
    if session.expired now then (none, sessions.erase id)
    else if session.status = .committing then (none, sessions)
    else (some (f session), sessions.modify id f)

def markAuthorized (id : Nat) (tokens : IssuedTokens) (sessions : SetupSessions) : SetupSessions :=
  sessions.modify id fun session =>
    if session.status = .committing then session
    else { session with tokens := some tokens, status := .authorized }

inductive CommitClaim where
  | claimed (snapshot : OAuthSetupSession)
  | alreadyCommitting
  | notAuthorized
  | notFound
deriving DecidableEq, Repr

/-- `claim_for_commit`. The claim renews the age of the session, and the snapshot shows it unclaimed. -/
def claimForCommit (id now : Nat) (sessions : SetupSessions) : CommitClaim × SetupSessions :=
  match sessions.lookup id with
  | none => (.notFound, sessions)
  | some session =>
    if session.expired now then (.notFound, sessions.erase id)
    else match session.status with
      | .committing => (.alreadyCommitting, sessions)
      | .authorized =>
        (.claimed { session with createdAt := now },
          sessions.modify id fun session => { session with status := .committing, createdAt := now })
      | _ => (.notAuthorized, sessions)

def releaseCommitClaim (id : Nat) (sessions : SetupSessions) : SetupSessions :=
  sessions.modify id fun session =>
    if session.status = .committing then session.withStatus .authorized else session

/-- `cancel_session`: a session that a commit has claimed stays. -/
def cancelSession (id now : Nat) (sessions : SetupSessions) : SetupSessions :=
  match sessions.lookup id with
  | none => sessions
  | some session =>
    if !session.expired now && session.status = .committing then sessions else sessions.erase id

/-! ## What the operations keep -/

variable {P : OAuthSetupSession → Prop} {sessions : SetupSessions} {id now : Nat}

theorem all_createSession {req : OAuthSetupRequest} (h : sessions.All P) (hnew : P (.ofRequest req now)) :
    (sessions.createSession id now req).2.All P := by
  unfold createSession
  dsimp only
  split
  · exact h.retain
  · exact h.retain.insert hnew

/-- **An edit** is made of a session that is there, or the session is at most removed. -/
theorem getSessionMut_cases (sessions : SetupSessions) (id now : Nat)
    (f : OAuthSetupSession → OAuthSetupSession) :
    (∃ session, sessions.lookup id = some session ∧
      sessions.getSessionMut id now f = (some (f session), sessions.modify id f)) ∨
    ∃ kept, sessions.getSessionMut id now f = (none, kept) ∧ (kept = sessions ∨ kept = sessions.erase id) := by
  unfold getSessionMut
  split
  · exact .inr ⟨_, rfl, .inl rfl⟩
  · next session hlookup =>
    split
    · exact .inr ⟨_, rfl, .inr rfl⟩
    · split
      · exact .inr ⟨_, rfl, .inl rfl⟩
      · exact .inl ⟨session, hlookup, rfl⟩

theorem all_of_kept {kept : SetupSessions} (h : sessions.All P)
    (hkept : kept = sessions ∨ kept = sessions.erase id) : kept.All P := by
  obtain rfl | rfl := hkept
  · exact h
  · exact h.erase

theorem all_getSessionMut {f : OAuthSetupSession → OAuthSetupSession} (h : sessions.All P)
    (hf : ∀ session, P session → P (f session)) : (sessions.getSessionMut id now f).2.All P := by
  obtain ⟨session, -, heq⟩ | ⟨kept, heq, hkept⟩ := getSessionMut_cases sessions id now f
  · rw [heq]
    exact h.modify fun session _ => hf session
  · rw [heq]
    exact all_of_kept h hkept

theorem all_markAuthorized {tokens : IssuedTokens} (h : sessions.All P)
    (hmark : ∀ session, sessions.lookup id = some session → session.status ≠ .committing →
      P session → P { session with tokens := some tokens, status := .authorized }) :
    (sessions.markAuthorized id tokens).All P := by
  refine AList.All.modify h fun session hlookup hold => ?_
  split
  · exact hold
  · next hfree => exact hmark session hlookup hfree hold

theorem all_claimForCommit (h : sessions.All P)
    (hclaim : ∀ session, session.status = .authorized → P session →
      P { session with status := .committing, createdAt := now }) :
    (sessions.claimForCommit id now).2.All P := by
  unfold claimForCommit
  split
  · exact h
  · next session hlookup =>
    split
    · exact h.erase
    · split
      · exact h
      · next hauthorized =>
        refine AList.All.modify h fun session' hlookup' hold => hclaim session' ?_ hold
        obtain rfl := Option.some.inj (hlookup.symm.trans hlookup')
        exact hauthorized
      · exact h

/-- A claim takes an authorized session. -/
theorem claimForCommit_claimed {snapshot : OAuthSetupSession}
    (h : (sessions.claimForCommit id now).1 = .claimed snapshot) :
    ∃ session, sessions.lookup id = some session ∧ session.status = .authorized ∧
      snapshot = { session with createdAt := now } := by
  unfold claimForCommit at h
  split at h
  · cases h
  · next session hlookup =>
    split at h
    · cases h
    · split at h
      · cases h
      · next hauthorized =>
        cases h
        exact ⟨session, hlookup, hauthorized, rfl⟩
      · cases h

theorem all_releaseCommitClaim (h : sessions.All P)
    (hrelease : ∀ session, session.status = .committing → P session → P (session.withStatus .authorized)) :
    (sessions.releaseCommitClaim id).All P := by
  refine AList.All.modify h fun session _ hold => ?_
  split
  · next hclaimed => exact hrelease session hclaimed hold
  · exact hold

theorem all_cancelSession (h : sessions.All P) : (sessions.cancelSession id now).All P := by
  unfold cancelSession
  split
  · exact h
  · split
    · exact h
    · exact h.erase

end SetupSessions

/-! ## The client of a session -/

def endaraClientMetadataUrl : String := "https://endara.ai/oauth/client-metadata.json"

/-- `resolve_client` for a setup, which has no pre-registered client. `registered` is what the registration
endpoint answers. -/
def resolveSetupClient (manual : Option RegisteredClient) (disc : DiscoveredServer)
    (registered : Option RegisteredClient) : Option (RegisteredClient × ClientRegistration) :=
  match manual with
  | some client => some (client, .manual)
  | none =>
    if disc.cimdSupported then some (⟨endaraClientMetadataUrl, none, 0⟩, .cimd)
    else if disc.registrationEndpoint.isSome then registered.map fun client => (client, .dcr)
    else none

/-- The client that the request supplies. -/
def OAuthSetupRequest.manual (req : OAuthSetupRequest) : Option RegisteredClient :=
  (trimmedNonEmpty req.clientId).map fun clientId => ⟨clientId, trimmedNonEmpty req.clientSecret, 0⟩

end EndaraRelay
