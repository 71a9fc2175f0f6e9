import EndaraRelay.SetupSessions

/-!
# Setups of OAuth endpoints

The requests of a setup as threads over the sessions, the pending flows, the endpoint names and the
credential store: `oauth_setup`, `oauth_setup_credentials`, `oauth_setup_commit` with
`commit_claimed_session`, and `oauth_setup_cancel` in `management.rs`, and `oauth_callback` in `server.rs`
for the flow of a setup.

**The store.** `place` says which file a record is kept in. A writer of the client record (`save_dcr`,
`update_dcr`) or of the tokens is one step, which may fail. What else writes these files or changes the
config is a thread of its own, with any content.

**History.** `undisturbed` is the store as it would be without the writes of setups, `obtained` are the
clients that setups have resolved or been given, and `passed` the commits that got past the check of the
client record, with the record they found or left. No step reads them.

Session ids and the state parameters of flows are never given out twice.
-/

namespace EndaraRelay

open Verif

/-! ## State -/

/-- The text of a file of the token directory, parsed. -/
inductive StoredText where
  | tokens (tokens : TokenSet)
  | client (text : DcrText)
deriving DecidableEq

structure SetupFlow where
  session : Nat
  clientId : String
  clientSecret : Option String
  createdAt : Nat
deriving DecidableEq

def flowMaxAge : Nat := 600

/-- A client that a setup of this name has resolved or been given. -/
structure SetupClient where
  name : String
  clientId : String
  clientSecret : Option String
deriving DecidableEq

/-- A commit that got past the check of the client record. -/
structure PassedCommit where
  session : OAuthSetupSession
  record : Option DcrText

structure Setups (κ : Type) where
  sessions : SetupSessions
  flows : Table Nat SetupFlow
  /-- The next session id or state parameter. -/
  fresh : Nat
  /-- The endpoints of the running config. -/
  published : List String
  /-- The endpoints of `config.toml`. -/
  written : List String
  store : κ → Option StoredText
  undisturbed : κ → Option StoredText
  obtained : List SetupClient
  passed : List PassedCommit

inductive SetupPc where
  | checkingName (req : OAuthSetupRequest)
  | creating (req : OAuthSetupRequest)
  | discovering (id : Nat) (req : OAuthSetupRequest)
  | resolving (id : Nat) (req : OAuthSetupRequest) (disc : DiscoveredServer)
  | saving (id : Nat) (name issuer : String) (client : RegisteredClient) (registration : ClientRegistration)
  | storing (id : Nat) (client : RegisteredClient) (registration : ClientRegistration)
  | starting (id : Nat) (client : RegisteredClient)
  | ended

inductive SetupCredentialsPc where
  | editing (id : Nat) (clientId : String) (clientSecret : Option String)
  | saving (id : Nat) (name clientId : String) (clientSecret : Option String)
  | starting (id : Nat) (clientId : String) (clientSecret : Option String)
  | ended

inductive SetupCallbackPc where
  | consuming (state : Nat)
  | exchanging (flow : SetupFlow)
  | marking (flow : SetupFlow) (tokens : TokenSet)
  | ended

inductive SetupCommitPc where
  | claiming (id : Nat)
  | checkingClient (id : Nat) (session : OAuthSetupSession)
  | savingTokens (id : Nat) (session : OAuthSetupSession)
  | applying (id : Nat) (session : OAuthSetupSession)
  | publishing (id : Nat) (session : OAuthSetupSession)
  | releasing (id : Nat)
  | removing (id : Nat)
  | ended

/-- A writer that is no setup. -/
inductive OtherWrite (κ : Type) where
  | file (file : κ) (text : Option StoredText)
  | endpoints (published written : List String)

inductive SetupThread (κ : Type) where
  | setup (pc : SetupPc)
  | credentials (pc : SetupCredentialsPc)
  | callback (pc : SetupCallbackPc)
  | commit (pc : SetupCommitPc)
  | cancelling (id : Nat)
  | writing (w : OtherWrite κ)
  | ended

inductive SetupOp (κ : Type) where
  | setup (req : OAuthSetupRequest)
  | credentials (id : Nat) (clientId : String) (clientSecret : Option String)
  | callback (state : Nat)
  | commit (id : Nat)
  | cancel (id : Nat)
  | write (w : OtherWrite κ)

/-- What the environment answers: whether the file call of the step succeeds, the time, what the
authorization server says, and the tokens for the code. -/
structure SetupAnswer where
  succeeds : Bool := true
  now : Nat := 0
  discovered : Option DiscoveredServer := none
  registered : Option RegisteredClient := none
  issued : Option TokenSet := none

/-! ## Steps -/

/-- A file of the store, read as a client record. -/
def StoredText.asClient : StoredText → DcrText
  | .client text => text
  | .tokens _ => .unreadable

namespace Setups

variable {κ : Type} [DecidableEq κ]

def setSessions (sh : Setups κ) (sessions : SetupSessions) : Setups κ := { sh with sessions }

def gain (sh : Setups κ) (client : SetupClient) : Setups κ :=
  { sh with obtained := client :: sh.obtained }

/-- A file is written. -/
def save (sh : Setups κ) (saved : Bool) (file : κ) (text : StoredText) : Setups κ :=
  if saved then { sh with store := Function.update sh.store file (some text) } else sh

/-- A session is given a client. -/
def giveClient (sh : Setups κ) (id now : Nat) (client : RegisteredClient) (viaDcr : Bool) :
    Setups κ × Option OAuthSetupSession :=
  let r := sh.sessions.getSessionMut id now (·.withClient client viaDcr)
  match r.1 with
  | some session =>
    ((sh.setSessions r.2).gain ⟨session.name, client.clientId, client.clientSecret⟩, some session)
  | none => (sh.setSessions r.2, none)

def startFlow (sh : Setups κ) (flow : SetupFlow) : Setups κ :=
  { sh with flows := sh.flows.insert sh.fresh flow, fresh := sh.fresh + 1 }

end Setups

section Steps

variable {κ : Type} [DecidableEq κ] (place : TokenRecord → κ)

/-- A session is created. -/
def createSetup (sh : Setups κ) (req : OAuthSetupRequest) (now : Nat) : Setups κ × SetupPc :=
  let r := sh.sessions.createSession sh.fresh now req
  ({ sh with sessions := r.2, fresh := sh.fresh + 1 },
    if r.1 then .discovering sh.fresh req else .ended)

/-- The authorization server is discovered. -/
def discoverSetup (sh : Setups κ) (id : Nat) (req : OAuthSetupRequest) (env : SetupAnswer) :
    Setups κ × SetupPc :=
  match env.discovered with
  | some disc =>
    (sh.setSessions (sh.sessions.getSessionMut id env.now ({ · with discovered := some disc })).2,
      .resolving id req disc)
  | none => (sh.setSessions (sh.sessions.erase id), .ended)

/-- The client is resolved. -/
def resolveSetup (sh : Setups κ) (id : Nat) (req : OAuthSetupRequest) (disc : DiscoveredServer)
    (env : SetupAnswer) : Setups κ × SetupPc :=
  match resolveSetupClient req.manual disc env.registered with
  | some (client, registration) =>
    (sh.gain ⟨req.name, client.clientId, client.clientSecret⟩,
      .saving id req.name disc.issuer client registration)
  | none => (sh, .ended)

/-- `oauth_setup`. -/
def SetupPc.step (sh : Setups κ) (env : SetupAnswer) : SetupPc → Option (Setups κ × SetupPc)
  | .checkingName req => some (sh, if sh.published.contains req.name then .ended else .creating req)
  | .creating req => some (createSetup sh req env.now)
  | .discovering id req => some (discoverSetup sh id req env)
  | .resolving id req disc => some (resolveSetup sh id req disc env)
  | .saving id name issuer client registration =>
    some (sh.save env.succeeds (place ⟨.dcr, name⟩)
      (.client (.record (setupRegistration client registration issuer env.now))),
      .storing id client registration)
  | .storing id client registration =>
    some ((sh.giveClient id env.now client (registration = .dcr)).1, .starting id client)
  | .starting id client =>
    some (sh.startFlow ⟨id, client.clientId, client.clientSecret, env.now⟩, .ended)
  | .ended => none

/-- The session is edited, and has to be one whose server is known. -/
def editSetup (sh : Setups κ) (id : Nat) (clientId : String) (clientSecret : Option String) (now : Nat) :
    Setups κ × SetupCredentialsPc :=
  if trim clientId = "" then (sh, .ended)
  else
    let r := sh.giveClient id now ⟨clientId, clientSecret, 0⟩ false
    (r.1, match r.2.filter (·.discovered.isSome) with
      | some session => .saving id session.name clientId clientSecret
      | none => .ended)

/-- `oauth_setup_credentials`. -/
def SetupCredentialsPc.step (sh : Setups κ) (env : SetupAnswer) :
    SetupCredentialsPc → Option (Setups κ × SetupCredentialsPc)
  | .editing id clientId clientSecret => some (editSetup sh id clientId clientSecret env.now)
  | .saving id name clientId clientSecret =>
    some (sh.save env.succeeds (place ⟨.dcr, name⟩)
      (.client (.record (manualCredentials clientId clientSecret env.now))),
      .starting id clientId clientSecret)
  | .starting id clientId clientSecret =>
    some (sh.startFlow ⟨id, clientId, clientSecret, env.now⟩, .ended)
  | .ended => none

def consumeFlow (sh : Setups κ) (state now : Nat) : Setups κ × SetupCallbackPc :=
  match sh.flows.lookup state with
  | some flow =>
    ({ sh with flows := sh.flows.erase state },
      if flowMaxAge < now - flow.createdAt then .ended else .exchanging flow)
  | none => (sh, .ended)

/-- `oauth_callback`, for the flow of a setup. The code is exchanged with the client of the flow. -/
def SetupCallbackPc.step (sh : Setups κ) (env : SetupAnswer) :
    SetupCallbackPc → Option (Setups κ × SetupCallbackPc)
  | .consuming state => some (consumeFlow sh state env.now)
  | .exchanging flow => some (sh, (env.issued.map fun tokens => .marking flow tokens).getD .ended)
  | .marking flow tokens =>
    some (sh.setSessions (sh.sessions.markAuthorized flow.session ⟨tokens, flow.clientId⟩), .ended)
  | .ended => none

def claimSetup (sh : Setups κ) (id now : Nat) : Setups κ × SetupCommitPc :=
  let r := sh.sessions.claimForCommit id now
  (sh.setSessions r.2, match r.1 with
    | .claimed session => .checkingClient id session
    | _ => .ended)

/-- The update of the client record by a commit; `none` if it fails. -/
def commitRecord (succeeds : Bool) (now : Nat) (session : SessionClient) (file : Option DcrText) :
    Option DcrText :=
  match succeeds, file with
  | true, none =>
    match commitUpdate session now none with
    | .ok (some creds) => some (.record creds)
    | _ => none
  | true, some (.record creds) =>
    match commitUpdate session now (some creds) with
    | .ok (some creds) => some (.record creds)
    | _ => none
  | _, _ => none

/-- The client record is checked, or written if there is none. A session without a client skips this. -/
def checkSetup (sh : Setups κ) (id : Nat) (session : OAuthSetupSession) (env : SetupAnswer) :
    Setups κ × SetupCommitPc :=
  let file := (sh.store (place ⟨.dcr, session.name⟩)).map StoredText.asClient
  match session.clientId with
  | none => ({ sh with passed := ⟨session, file⟩ :: sh.passed }, .savingTokens id session)
  | some clientId =>
    match commitRecord env.succeeds env.now (session.client clientId) file with
    | some text =>
      ({ sh.save true (place ⟨.dcr, session.name⟩) (.client text) with
          passed := ⟨session, some text⟩ :: sh.passed },
        .savingTokens id session)
    | none => (sh, .releasing id)

/-- The tokens of the session are saved; a failure is only logged. -/
def saveSetupTokens (sh : Setups κ) (session : OAuthSetupSession) (saved : Bool) : Setups κ :=
  match session.tokens with
  | some issued => sh.save saved (place ⟨.tokens, session.name⟩) (.tokens issued.tokens)
  | none => sh

/-- `write_endpoint_to_disk`: the name must be free. -/
def applySetup (sh : Setups κ) (id : Nat) (session : OAuthSetupSession) (saved : Bool) :
    Setups κ × SetupCommitPc :=
  if sh.written.contains session.name || !saved then (sh, .releasing id)
  else ({ sh with written := sh.written ++ [session.name] }, .publishing id session)

/-- `oauth_setup_commit`. -/
def SetupCommitPc.step (sh : Setups κ) (env : SetupAnswer) :
    SetupCommitPc → Option (Setups κ × SetupCommitPc)
  | .claiming id => some (claimSetup sh id env.now)
  | .checkingClient id session => some (checkSetup place sh id session env)
  | .savingTokens id session => some (saveSetupTokens place sh session env.succeeds, .applying id session)
  | .applying id session => some (applySetup sh id session env.succeeds)
  | .publishing id session =>
    some ({ sh with published := sh.published ++ [session.name] }, .removing id)
  | .releasing id => some (sh.setSessions (sh.sessions.releaseCommitClaim id), .ended)
  | .removing id => some (sh.setSessions (sh.sessions.erase id), .ended)
  | .ended => none

/-- A writer that is no setup. -/
def Setups.other (sh : Setups κ) : OtherWrite κ → Setups κ
  | .file file text =>
    { sh with
      store := Function.update sh.store file text
      undisturbed := Function.update sh.undisturbed file text }
  | .endpoints published written => { sh with published, written }

def SetupThread.step (sh : Setups κ) (t : SetupThread κ) (env : SetupAnswer) :
    Option (Setups κ × SetupThread κ) :=
  match t with
  | .setup pc => (pc.step place sh env).map fun r => (r.1, .setup r.2)
  | .credentials pc => (pc.step place sh env).map fun r => (r.1, .credentials r.2)
  | .callback pc => (pc.step sh env).map fun r => (r.1, .callback r.2)
  | .commit pc => (pc.step place sh env).map fun r => (r.1, .commit r.2)
  | .cancelling id => some (sh.setSessions (sh.sessions.cancelSession id env.now), .ended)
  | .writing w => some (sh.other w, .ended)
  | .ended => none

/-- Any number of requests for any number of setups, from any store. -/
def setups : Pool (Setups κ) (SetupThread κ) (SetupOp κ) SetupAnswer where
  init sh := sh.sessions = ∅ ∧ sh.flows = ∅ ∧ sh.undisturbed = sh.store ∧ sh.obtained = [] ∧ sh.passed = []
  launch _ _
    | .setup req => some (.setup (.checkingName req))
    | .credentials id clientId clientSecret => some (.credentials (.editing id clientId clientSecret))
    | .callback state => some (.callback (.consuming state))
    | .commit id => some (.commit (.claiming id))
    | .cancel id => some (.cancelling id)
    | .write w => some (.writing w)
  step sh _ t env := (t.step place sh env).map fun r => (r.1, r.2, [])

end Steps

abbrev SetupsState (κ : Type) := Pool.State (Setups κ) (SetupThread κ)

abbrev SetupsAction (κ : Type) := Pool.Action (SetupOp κ) SetupAnswer

end EndaraRelay
