import EndaraRelay.ConfigEdits
import EndaraRelay.SetupSessions

/-!
# The relay under management

The config file, and what the relay runs on: the published config, the registry and the profiles. The
handlers of `management.rs` that change the config are taken one after the other, each from its first read
to its answer, and only as far as they answer with success; what happens when they overlap is the business
of `ConfigEdits`. In between the watcher may reload the file.

`EndpointTable.config` and `ConfigFile.parsed` say what is read of a file, `ConfigFile.load` what a graceful
load makes of it. The `[relay]` table, which none of these requests writes, is a parameter.
-/

namespace EndaraRelay

open Verif

/-! ## Loading the file -/

/-- The settings of the `[relay]` table. -/
structure RelayTable where
  allowInsecureOauth : Option Bool := none
  localJsExecution : Option Bool := none
  writeDirs : Option (List String) := none
  validateInputs : Option Bool := none

/-- An endpoint as it is read, the flags with their defaults. -/
def EndpointTable.config (t : EndpointTable) : EndpointConfig :=
  { t.settings with disabled := t.flags.1, disabledTools := t.flags.2, clientSecret := t.clientSecret }

namespace ConfigFile

variable (env : Environment) (relay : RelayTable) (file : ConfigFile)

/-- The file, before references are resolved. -/
def parsed : ParsedConfig where
  config :=
    { allowInsecureOauth := relay.allowInsecureOauth
      endpoints := file.endpoints.map EndpointTable.config
      organizations := file.organizations }
  profiles := some (file.profiles.map (·.profile))
  writeDirs := relay.writeDirs

/-- `load_config_graceful`. -/
def load : Except ConfigError LoadedConfig := do
  let (cfg, warnings) ← parseAndValidateGraceful env (file.parsed relay)
  let config : RunningConfig :=
    { core := cfg.config
      localJsExecution := relay.localJsExecution
      writeDirs := relay.writeDirs
      validateInputs := relay.validateInputs
      profiles := if file.profiles.isEmpty then none else some file.profiles }
  return ⟨config, warnings⟩

/-- The endpoints with their references resolved, and the warnings about those that are missing. -/
def resolved : List EndpointConfig × List EndpointValidationWarning :=
  resolveEnvVarsGraceful env [] (file.endpoints.map EndpointTable.config)

/-- What a load returns when neither the profiles nor the write directories stop it. -/
def loaded : LoadedConfig where
  config :=
    { core :=
        { allowInsecureOauth := relay.allowInsecureOauth
          endpoints := (file.resolved env).1
          organizations := file.organizations }
      localJsExecution := relay.localJsExecution
      writeDirs := relay.writeDirs
      validateInputs := relay.validateInputs
      profiles := if file.profiles.isEmpty then none else some file.profiles }
  warnings := validateGraceful (file.resolved env).2 [] (file.resolved env).1

end ConfigFile

/-! ## Requests -/

structure ManagedRelay where
  file : ConfigFile
  config : ManagedConfig
  registry : ReloadState
  profiles : String → Option ProfileSettings

/-- A request that changes the config. What a commit finds when it claims its session and records the
client comes with the request. -/
inductive ConfigRequest where
  | createEndpoint (req : EndpointRequest)
  | updateEndpoint (name : String) (req : EndpointRequest)
  | deleteEndpoint (name : String)
  | commitSetup (session : OAuthSetupSession) (recorded : Except ErrorResponse Unit)
  | profile (change : ProfileChange)
  | organization (change : OrganizationChange)

/-- The endpoint that `commit_claimed_session` builds. -/
def OAuthSetupSession.endpoint (session : OAuthSetupSession) : EndpointConfig where
  name := session.name
  toolPrefix := session.toolPrefix
  transport := .oauth
  url := some session.url
  oauthServerUrl := session.discovered.map (·.authServerUrl)
  clientId := session.clientId
  scopes := (session.scopes.map splitWhitespace).filter (· ≠ [])
  tokenEndpoint := session.discovered.map (·.tokenEndpoint)
  serverTypeOverride := session.serverTypeOverride

namespace ManagedRelay

def applyEndpointChange (ep : EndpointConfig) (original : Option String) (s : ManagedRelay) :
    Except ErrorResponse ManagedRelay := do
  let file ← writeEndpoint ep original s.file
  let new := s.config.changeEndpoint original ep
  return { s with file, config := new, registry := applyConfig s.config new s.registry }

/-- `create_endpoint` and `update_endpoint`. -/
def changeEndpoint (env : EditEnvironment) (req : EndpointRequest) (original : Option String)
    (s : ManagedRelay) : Except ErrorResponse ManagedRelay := do
  checkEndpointExists original s.config.endpoints
  let ep ← validateEndpointRequest env.quote req s.config.endpoints original
  reject (some ep.name ≠ original && env.reserved) (reservedBySetup ep.name)
  s.applyEndpointChange ep original

def deleteEndpoint (name : String) (s : ManagedRelay) : Except ErrorResponse ManagedRelay := do
  let file ← removeEndpoint name s.file
  return { s with file }

/-- `oauth_setup_commit`. -/
def commitSetup (session : OAuthSetupSession) (recorded : Except ErrorResponse Unit) (s : ManagedRelay) :
    Except ErrorResponse ManagedRelay := do
  recorded
  s.applyEndpointChange session.endpoint none

/-- A list is written and published as a whole. -/
def writeList (c : ConfigList) (list : List c.Entry) (s : ManagedRelay) : ManagedRelay :=
  { s with file := s.file.setList c list, config := s.config.setList c list }

/-- The edit that `create_profile`, `update_profile` or `delete_profile` makes. -/
def profileEdit (s : ManagedRelay) : ProfileChange → Except ErrorResponse (ListEdit String ProfileSettings)
  | .create req => do
    let p ← validateProfileRequest req s.config.running none
    return .insert p
  | .update path req => do
    checkProfileExists path (s.config.list .profiles)
    let p ← validateProfileRequest req s.config.running (some (toAsciiLowercase path))
    return .replace (toAsciiLowercase path) p
  | .delete path => do
    checkProfileExists path (s.config.list .profiles)
    return .remove (toAsciiLowercase path)

/-- `apply_profiles_change`: the profiles are rebuilt as well. -/
def changeProfile (change : ProfileChange) (s : ManagedRelay) : Except ErrorResponse ManagedRelay := do
  let e ← s.profileEdit change
  let list := e.apply ProfileSettings.pathKey (s.config.list .profiles)
  return { s.writeList .profiles list with profiles := profileMap list }

/-- The edit that `create_organization`, `update_organization` or `delete_organization` makes. -/
def organizationEdit (env : EditEnvironment) (s : ManagedRelay) :
    OrganizationChange → Except ErrorResponse (ListEdit String ConfigOrganization)
  | .create req => do
    let o ← prepareOrganization req (s.config.list .organizations)
    let clientId ← env.client
    return .insert { o with clientId := clientId }
  | .update org req => do
    let o ← prepareOrganizationUpdate org req (s.config.list .organizations)
    let clientId ← env.client
    return .replace org { o with clientId := clientId }
  | .delete org => do
    reject (!(s.config.running.core.organizations.any fun o => o.name = org)) (organizationNotFound org)
    return .remove org

def changeOrganization (env : EditEnvironment) (change : OrganizationChange) (s : ManagedRelay) :
    Except ErrorResponse ManagedRelay := do
  let e ← s.organizationEdit env change
  checkCredentials env e
  return s.writeList .organizations (e.apply ConfigOrganization.name (s.config.list .organizations))

/-- A request, as far as it is answered with success. -/
def serve (env : EditEnvironment) (s : ManagedRelay) : ConfigRequest → Except ErrorResponse ManagedRelay
  | .createEndpoint req => s.changeEndpoint env req none
  | .updateEndpoint name req => s.changeEndpoint env req (some name)
  | .deleteEndpoint name => s.deleteEndpoint name
  | .commitSetup session recorded => s.commitSetup session recorded
  | .profile change => s.changeProfile change
  | .organization change => s.changeOrganization env change

/-- What is published of a loaded file. -/
def managedConfig (l : LoadedConfig) (file : ConfigFile) : ManagedConfig :=
  ⟨l.config, file.observability.getD {}⟩

/-- `reload_and_apply`, on the endpoints and the profiles. A file that does not load is left alone. -/
def reload (env : Environment) (relay : RelayTable) (s : ManagedRelay) : ManagedRelay :=
  match s.file.load env relay with
  | .error _ => s
  | .ok l =>
    { s with
      config := managedConfig l s.file
      registry := applyDiffGraceful (diffConfigs s.config.running.core l.config.core) l.inputs s.registry
      profiles := profileMap s.file.profiles }

end ManagedRelay

/-! ## What a file holds -/

section File

variable {env : Environment} {relay : RelayTable} {file file' : ConfigFile}

/-- **What a graceful load returns.** -/
theorem load_eq_ok {l : LoadedConfig} : file.load env relay = .ok l ↔
    RestValid env (file.parsed relay) ∧ l = file.loaded env relay := by
  unfold ConfigFile.load
  rw [bind_eq_ok]
  constructor
  · rintro ⟨⟨cfg, warnings⟩, h, hl⟩
    obtain ⟨hrest, rfl, rfl⟩ := (parseAndValidateGraceful_eq_ok env).1 h
    cases hl
    exact ⟨hrest, rfl⟩
  · rintro ⟨hrest, rfl⟩
    exact ⟨_, (parseAndValidateGraceful_eq_ok env).2 ⟨hrest, rfl, rfl⟩, rfl⟩

theorem config_name (t : EndpointTable) : t.config.name = t.name := rfl

theorem names_config (file : ConfigFile) :
    (file.endpoints.map EndpointTable.config).map EndpointConfig.name =
      file.endpoints.map EndpointTable.name := by
  rw [List.map_map]
  rfl

end File

end EndaraRelay
