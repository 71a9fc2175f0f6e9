import EndaraRelay.ConfigStore
import EndaraRelay.Lib.Pool

/-!
# Overlapping edits of the config

The handlers of `management.rs` that edit the config, as threads over the config file, the config in
memory and the registry. Each is split where it awaits and where it reads or writes the file: it takes
its snapshot of the config, reads the file, writes it, and publishes.

**What is written.** A profile or organization change writes the whole list it computed from its
snapshot. An endpoint change edits the file it has read, and publishes a config computed from a snapshot
it takes after the write. A deletion edits the file only: the watcher brings it into memory. The flags
are written under the write lock of the config, from the registry, whatever the request was about.

**The guard.** `conflict` says which of these cycles must not overlap: the read and the write of the
file, two changes of one list, two endpoint changes, an endpoint change and a change of flags. And
nothing else is published while an endpoint change is between its snapshot and its publication. Of all
this the handlers take care only where flags are concerned, by the lock.

`ledger` and `log` record what has been written; no step reads them. Reads and writes of the file
succeed, and so does its parsing. What the network, the adapters and the credential store answer is up
to the environment.
-/

namespace EndaraRelay

open Verif

/-! ## Threads -/

/-- What a request does to the config. -/
inductive Mutation where
  | edit (e : ConfigEdit)
  | flag (f : FlagChange)

structure ConfigStores where
  file : ConfigFile
  config : ManagedConfig
  registry : ReloadState
  /-- The view of the config in memory once all that is written is published. -/
  ledger : ConfigView
  /-- The mutations, newest first, each with the request it came from. -/
  log : List (Nat × Mutation)

/-- An edit as the handlers publish it: they leave it to the watcher to publish a deletion. -/
def ConfigEdit.published (e : ConfigEdit) (v : ConfigView) : ConfigView :=
  match e with
  | .endpoint (.remove _) => v
  | e => e.apply v

/-- The file is written. -/
def ConfigStores.commit (sh : ConfigStores) (id : Nat) (e : ConfigEdit) (contents : ConfigFile) :
    ConfigStores :=
  { sh with file := contents, ledger := e.published sh.ledger, log := (id, .edit e) :: sh.log }

/-- How a request is answered. -/
inductive EditAnswer where
  | success (m : Mutation)
  | failure (response : ErrorResponse)

/-- What the environment answers. -/
structure EditEnvironment where
  quote : String → String := id
  /-- The name is reserved by an OAuth setup session. -/
  reserved : Bool := false
  /-- The discovery of an issuer and the resolution of a client id, `none` for the default one. -/
  client : Except ErrorResponse (Option String) := .ok none
  adapter : Except String Unit := .ok ()
  credentials : Except ErrorResponse Unit := .ok ()

inductive EndpointPc where
  | validating (req : EndpointRequest)
  | reserving (ep : EndpointConfig)
  | reading (ep : EndpointConfig)
  | writing (ep : EndpointConfig) (contents : ConfigFile)
  | snapshotting (ep : EndpointConfig)
  | applying (ep : EndpointConfig) (old new : ManagedConfig)
  | publishing (ep : EndpointConfig) (new : ManagedConfig)

inductive RemovalPc where
  | reading
  | writing (contents : ConfigFile)

inductive ProfileChange where
  | create (req : ManagedProfileRequest)
  | update (path : String) (req : ManagedProfileRequest)
  | delete (path : String)

inductive OrganizationChange where
  | create (req : CreateOrganizationRequest)
  | update (org : String) (req : UpdateOrganizationRequest)
  | delete (org : String)

inductive OrganizationPc where
  | checking (change : OrganizationChange)
  | resolving (o : ConfigOrganization)
  | adding (o : ConfigOrganization)
  | resolvingUpdate (org : String) (orgs : List ConfigOrganization) (o : ConfigOrganization)

inductive ListEditPc (c : ConfigList) where
  | reading (list : List c.Entry)
  | writing (list : List c.Entry) (contents : ConfigFile)
  | publishing (list : List c.Entry)

inductive FlagPc where
  | setting
  | persisting (answer : EditAnswer)
  | reading (answer : EditAnswer)
  | writing (answer : EditAnswer) (contents : ConfigFile)

inductive ObservabilityPc where
  | reading
  | writing (contents : ConfigFile)
  | publishing

inductive EditPc where
  /-- An endpoint is created, or the one of the original name updated. -/
  | endpoint (original : Option String) (pc : EndpointPc)
  | removal (name : String) (pc : RemovalPc)
  | profile (change : ProfileChange)
  | organization (pc : OrganizationPc)
  | list (c : ConfigList) (e : ListEdit String c.Entry) (pc : ListEditPc c)
  /-- The credentials of a created or updated organization are about to be saved. -/
  | credentials (e : ListEdit String ConfigOrganization)
  | flags (f : FlagChange) (pc : FlagPc)
  | observability (new : ObservabilityConfig) (pc : ObservabilityPc)
  | answered (answer : EditAnswer)

/-- A request, by its number. -/
structure EditTask where
  id : Nat
  pc : EditPc

/-- What a step yields, or the response the request ends with. -/
abbrev EditStep := Except ErrorResponse (ConfigStores × EditPc)

/-! ## Steps -/

def checkEndpointExists (original : Option String) (endpoints : List EndpointConfig) :
    Except ErrorResponse Unit :=
  match original with
  | none => .ok ()
  | some name => reject (!endpoints.any fun ep => ep.name = name) (endpointNotFound name)

def reservedBySetup (name : String) : ErrorResponse :=
  conflict "duplicate endpoint name"
    ("Endpoint name '" ++ name ++ "' is reserved by an OAuth setup session in progress.")

/-- `apply_diff_graceful` between two configs. -/
def applyConfig (old new : ManagedConfig) (registry : ReloadState) : ReloadState :=
  applyDiffGraceful (diffConfigs old.running.core new.running.core)
    ⟨[], new.running.core.insecure, new.running.core.organizations⟩ registry

/-- `create_endpoint` and `update_endpoint`. -/
def EndpointPc.step (original : Option String) (id : Nat) (sh : ConfigStores) (env : EditEnvironment) :
    EndpointPc → EditStep
  | .validating req => do
    checkEndpointExists original sh.config.endpoints
    let ep ← validateEndpointRequest env.quote req sh.config.endpoints original
    return (sh, .endpoint original (.reserving ep))
  | .reserving ep => do
    reject (some ep.name ≠ original && env.reserved) (reservedBySetup ep.name)
    return (sh, .endpoint original (.reading ep))
  | .reading ep => do
    let contents ← writeEndpoint ep original sh.file
    return (sh, .endpoint original (.writing ep contents))
  | .writing ep contents =>
    .ok (sh.commit id (.endpoint (endpointEdit original ep)) contents,
      .endpoint original (.snapshotting ep))
  | .snapshotting ep =>
    .ok (sh, .endpoint original (.applying ep sh.config (sh.config.changeEndpoint original ep)))
  | .applying ep old new =>
    .ok ({ sh with registry := applyConfig old new sh.registry }, .endpoint original (.publishing ep new))
  | .publishing ep new =>
    .ok ({ sh with config := new },
      .answered (.success (.edit (.endpoint (endpointEdit original ep)))))

/-- `delete_endpoint`. -/
def RemovalPc.step (name : String) (id : Nat) (sh : ConfigStores) : RemovalPc → EditStep
  | .reading => do
    let contents ← removeEndpoint name sh.file
    return (sh, .removal name (.writing contents))
  | .writing contents =>
    .ok (sh.commit id (.endpoint (.remove name)) contents,
      .answered (.success (.edit (.endpoint (.remove name)))))

/-- The list an edit makes of the snapshot. -/
def startList (c : ConfigList) (e : ListEdit String c.Entry) (snapshot : List c.Entry) : EditPc :=
  .list c e (.reading (e.apply c.key snapshot))

def checkProfileExists (path : String) (profiles : List ProfileSettings) : Except ErrorResponse Unit :=
  reject (!profiles.any fun p => p.pathKey = toAsciiLowercase path)
    (errorResponse 404 "profile not found" (some ("No profile at path '" ++ path ++ "'")))

/-- `create_profile`, `update_profile` and `delete_profile`, up to `apply_profiles_change`. -/
def ProfileChange.step (sh : ConfigStores) : ProfileChange → EditStep
  | .create req => do
    let p ← validateProfileRequest req sh.config.running none
    return (sh, startList .profiles (.insert p) (sh.config.list .profiles))
  | .update path req => do
    checkProfileExists path (sh.config.list .profiles)
    let p ← validateProfileRequest req sh.config.running (some (toAsciiLowercase path))
    return (sh, startList .profiles (.replace (toAsciiLowercase path) p) (sh.config.list .profiles))
  | .delete path => do
    checkProfileExists path (sh.config.list .profiles)
    return (sh, startList .profiles (.remove (toAsciiLowercase path)) (sh.config.list .profiles))

/-- `create_organization`, `update_organization` and `delete_organization`, up to the write. A created
organization is added to a snapshot taken after the network has answered, an updated one is put into the
snapshot taken before. -/
def OrganizationPc.step (sh : ConfigStores) (env : EditEnvironment) : OrganizationPc → EditStep
  | .checking (.create req) => do
    let o ← prepareOrganization req (sh.config.list .organizations)
    return (sh, .organization (.resolving o))
  | .checking (.update org req) => do
    let o ← prepareOrganizationUpdate org req (sh.config.list .organizations)
    return (sh, .organization (.resolvingUpdate org (sh.config.list .organizations) o))
  | .checking (.delete org) => do
    reject (!(sh.config.running.core.organizations.any fun o => o.name = org)) (organizationNotFound org)
    return (sh, startList .organizations (.remove org) (sh.config.list .organizations))
  | .resolving o => do
    let clientId ← env.client
    return (sh, .organization (.adding { o with clientId := clientId }))
  | .adding o =>
    .ok (sh, startList .organizations (.insert o) (sh.config.list .organizations))
  | .resolvingUpdate org orgs o => do
    let clientId ← env.client
    return (sh, startList .organizations
      (.replace org ({ o with clientId := clientId } : ConfigOrganization)) orgs)

/-- What follows the publication of a list. -/
def afterPublish : (c : ConfigList) → ListEdit String c.Entry → EditPc
  | .profiles, e => .answered (.success (.edit (.list .profiles e)))
  | .organizations, e => .credentials e

/-- `apply_profiles_change`, and its like for organizations. -/
def ListEditPc.step (c : ConfigList) (e : ListEdit String c.Entry) (id : Nat) (sh : ConfigStores) :
    ListEditPc c → EditStep
  | .reading list => .ok (sh, .list c e (.writing list (sh.file.setList c list)))
  | .writing list contents => .ok (sh.commit id (.list c e) contents, .list c e (.publishing list))
  | .publishing list => .ok ({ sh with config := sh.config.setList c list }, afterPublish c e)

/-- Credentials that cannot be saved fail the request; those of a deleted organization are only purged. -/
def checkCredentials (env : EditEnvironment) : ListEdit String ConfigOrganization →
    Except ErrorResponse Unit
  | .remove _ => .ok ()
  | _ => env.credentials

def credentialsStep (sh : ConfigStores) (env : EditEnvironment) (e : ListEdit String ConfigOrganization) :
    EditStep := do
  checkCredentials env e
  return (sh, .answered (.success (.edit (.list .organizations e))))

/-- `disable_endpoint` shuts the adapter down first, and stops when that fails. -/
def checkShutdown (f : FlagChange) (env : EditEnvironment) : Except ErrorResponse Unit :=
  match f.tool, f.disable, env.adapter with
  | none, true, .error e => .error (errorResponse 500 "failed to shutdown adapter" (some e))
  | _, _, _ => .ok ()

/-- `enable_endpoint` answers with what the initialization came to; the flag is cleared all the same. -/
def flagAnswer (f : FlagChange) (env : EditEnvironment) : EditAnswer :=
  match f.tool, f.disable, env.adapter with
  | none, false, .error e => .failure (errorResponse 500 "failed to initialize adapter" (some e))
  | _, _, _ => .success (.flag f)

/-- The handlers that enable and disable, with `persist_disabled_state` from `persisting` on: it has the
write lock of the config until the file is written. -/
def FlagPc.step (f : FlagChange) (id : Nat) (sh : ConfigStores) (env : EditEnvironment) :
    FlagPc → EditStep
  | .setting => do
    reject (sh.registry.flagsOf f.endpoint).isNone (endpointNotFound f.endpoint)
    checkShutdown f env
    return ({ sh with registry := sh.registry.setFlag f, log := (id, .flag f) :: sh.log },
      .flags f (.persisting (flagAnswer f env)))
  | .persisting answer =>
    .ok ({ sh with config := sh.config.mirrorFlags sh.registry }, .flags f (.reading answer))
  | .reading answer => .ok (sh, .flags f (.writing answer (persistFlags sh.config sh.file)))
  | .writing answer contents => .ok ({ sh with file := contents }, .answered answer)

/-- `update_observability_config`. -/
def ObservabilityPc.step (new : ObservabilityConfig) (id : Nat) (sh : ConfigStores) :
    ObservabilityPc → EditStep
  | .reading => .ok (sh, .observability new (.writing { sh.file with observability := some new }))
  | .writing contents =>
    .ok (sh.commit id (.observability new) contents, .observability new .publishing)
  | .publishing =>
    .ok ({ sh with config := { sh.config with observability := new } },
      .answered (.success (.edit (.observability new))))

/-- The next step of a request; none once it is answered. -/
def EditPc.step (id : Nat) (sh : ConfigStores) (env : EditEnvironment) : EditPc → Option EditStep
  | .endpoint original pc => some (pc.step original id sh env)
  | .removal name pc => some (pc.step name id sh)
  | .profile change => some (change.step sh)
  | .organization pc => some (pc.step sh env)
  | .list c e pc => some (pc.step c e id sh)
  | .credentials e => some (credentialsStep sh env e)
  | .flags f pc => some (pc.step f id sh env)
  | .observability new pc => some (pc.step new id sh)
  | .answered _ => none

def EditPc.locks : EditPc → Bool
  | .flags _ (.reading _) | .flags _ (.writing _ _) => true
  | _ => false

/-- The next step reads or writes the config in memory. -/
def EditPc.needsConfig : EditPc → Bool
  | .endpoint _ (.validating _) | .endpoint _ (.snapshotting _) | .endpoint _ (.publishing _ _) => true
  | .profile _ | .organization (.checking _) | .organization (.adding _) => true
  | .list _ _ (.publishing _) | .flags _ (.persisting _) | .observability _ .publishing => true
  | _ => false

/-- A response ends the request and leaves the stores as they are. -/
def EditTask.step (sh : ConfigStores) (tasks : List EditTask) (t : EditTask) (env : EditEnvironment) :
    Option (ConfigStores × EditTask) :=
  if t.pc.needsConfig && tasks.any fun u => u.pc.locks then none
  else (t.pc.step t.id sh env).map fun result =>
    match result with
    | .ok (sh', pc') => (sh', ⟨t.id, pc'⟩)
    | .error response => (sh, ⟨t.id, .answered (.failure response)⟩)

inductive EditRequest where
  | createEndpoint (req : EndpointRequest)
  | updateEndpoint (name : String) (req : EndpointRequest)
  | deleteEndpoint (name : String)
  | profile (change : ProfileChange)
  | organization (change : OrganizationChange)
  | flag (f : FlagChange)
  | observability (new : ObservabilityConfig)

def EditRequest.start : EditRequest → EditPc
  | .createEndpoint req => .endpoint none (.validating req)
  | .updateEndpoint name req => .endpoint (some name) (.validating req)
  | .deleteEndpoint name => .removal name .reading
  | .profile change => .profile change
  | .organization change => .organization (.checking change)
  | .flag f => .flags f .setting
  | .observability new => .observability new .reading

/-- The config in memory and the registry are those of the file, as far as they are written back. -/
structure ConfigStores.Started (sh : ConfigStores) : Prop where
  lists : ∀ c, sh.config.list c = sh.file.list c
  names : ∀ name, (sh.registry.flagsOf name).isSome = true ↔
    name ∈ sh.config.endpoints.map EndpointConfig.name
  ledger : sh.ledger = sh.config.view
  log : sh.log = []

/-- Any number of requests, from the stores of a relay that has started. -/
def configEdits (start : ConfigStores) :
    Pool ConfigStores EditTask EditRequest EditEnvironment where
  init sh := sh = start ∧ start.Started
  launch _ tasks req := some ⟨tasks.length, req.start⟩
  step sh tasks t env := (t.step sh tasks env).map fun next => (next.1, next.2, [])

abbrev EditsState := Pool.State ConfigStores EditTask

abbrev EditsAction := Pool.Action EditRequest EditEnvironment

/-! ## What is not to be lost -/

/-- The edit leaves the flags of an endpoint where they are: it is about another one, or updates this one
without renaming it. -/
def ConfigEdit.LeavesFlags (name : String) : ConfigEdit → Prop
  | .endpoint (.replace k x) => (name = k ∨ name = x.name) → k = x.name
  | .endpoint e => name ∉ e.keys EndpointConfig.name
  | _ => True

/-- A later mutation that is about an entry of the earlier one. -/
def Mutation.Overrides : Mutation → Mutation → Prop
  | .edit e', .edit e => e'.Overrides e
  | .edit e', .flag f => ¬ e'.LeavesFlags f.endpoint
  | .flag f', .flag f => f'.Overrides f
  | .flag _, .edit _ => False

/-- The file contains the effect of a mutation. The flags of an endpoint are kept in its table, if there
still is one. -/
def Mutation.InFile (start file : ConfigFile) : Mutation → Prop
  | .edit e => e.written.Effect start.view file.view
  | .flag f => ∀ t ∈ file.endpoints, t.name = f.endpoint → f.Holds t.flags

/-- The config in memory contains the effect of a mutation. -/
def Mutation.InConfig (start cfg : ManagedConfig) : Mutation → Prop
  | .edit e => e.Effect start.view cfg.view
  | .flag f => (∃ ep ∈ cfg.endpoints, ep.name = f.endpoint) ∧
      ∀ ep ∈ cfg.endpoints, ep.name = f.endpoint → f.Holds ep.flags

def Mutation.IsDeletion : Mutation → Prop
  | .edit (.endpoint (.remove _)) => True
  | _ => False

/-- The mutation of a later entry of the log overrides that of an earlier one. -/
def overriddenBy (later earlier : Nat × Mutation) : Prop := later.2.Overrides earlier.2

/-- Every request answered with success is in the log, and each mutation of the log that no later one
overrides has its effect in the file and, if it is one of those `promised`, in memory. -/
structure EditsKept (start : ConfigStores) (promised : Mutation → Prop) (s : EditsState) : Prop where
  logged : ∀ t ∈ s.threads, ∀ m, t.pc = .answered (.success m) → (t.id, m) ∈ s.shared.log
  inFile : Standing overriddenBy (fun x => x.2.InFile start.file s.shared.file) s.shared.log
  inConfig : Standing overriddenBy
    (fun x => promised x.2 → x.2.InConfig start.config s.shared.config) s.shared.log

/-- Every request has been answered. -/
def AllAnswered (s : EditsState) : Prop := ∀ t ∈ s.threads, ∃ answer, t.pc = .answered answer

/-! ## The guard -/

namespace EditPc

/-- The file has been read and is about to be written. -/
def inFile : EditPc → Bool
  | .endpoint _ (.writing _ _) | .removal _ (.writing _) | .list _ _ (.writing _ _) => true
  | .flags _ (.writing _ _) | .observability _ (.writing _) => true
  | _ => false

/-- An endpoint change, from its first look at the config to its publication. -/
def inEndpoints : EditPc → Bool
  | .endpoint _ (.validating _) => false
  | .endpoint _ _ => true
  | _ => false

def inFlags : EditPc → Bool
  | .flags _ .setting => false
  | .flags _ _ => true
  | _ => false

/-- A change of a list, from its first look at the config to its publication. -/
def inList (c : ConfigList) : EditPc → Bool
  | .list c' _ _ => c' = c
  | .organization (.checking _) => false
  | .organization _ => c = .organizations
  | _ => false

/-- A change of the observability settings, from the file to its publication. -/
def inObservability : EditPc → Bool
  | .observability _ .reading => false
  | .observability _ _ => true
  | _ => false

/-- An endpoint change between its snapshot and its publication. -/
def inConfig : EditPc → Bool
  | .endpoint _ (.applying _ _ _) | .endpoint _ (.publishing _ _) => true
  | _ => false

/-- A list or the observability settings are about to be published. -/
def publishes : EditPc → Bool
  | .list _ _ (.publishing _) | .observability _ .publishing => true
  | _ => false

end EditPc

/-- Two requests that are in the middle of what must not overlap. -/
def conflicting (t u : EditTask) : Bool :=
  (t.pc.inFile && u.pc.inFile) ||
    (t.pc.inEndpoints && (u.pc.inEndpoints || u.pc.inFlags)) || (t.pc.inFlags && u.pc.inEndpoints) ||
    (t.pc.inList .profiles && u.pc.inList .profiles) ||
    (t.pc.inList .organizations && u.pc.inList .organizations) ||
    (t.pc.inObservability && u.pc.inObservability)

/-- No two requests conflict, and nothing else is published while an endpoint change is between its
snapshot and its publication. -/
def undisturbedEdits (s : EditsState) (a : EditsAction) : Bool :=
  decide (s.threads.Pairwise fun t u => conflicting t u = false) &&
    match a with
    | .launch _ => true
    | .run i _ => match s.threads[i]? with
      | some t => !(t.pc.publishes && s.threads.any fun u => u.pc.inConfig)
      | none => true

end EndaraRelay
