import EndaraRelay.AdapterConstruction

/-!
# Cold start and hot reload

How the registry is filled from a config, in `main.rs`, and how the watcher carries it over to a new
one, in `watcher.rs`. Adapters are the specs they were built from; the tool caches, which neither
path reads, are left out.

**Cold start** registers the first endpoint of each name, sets the flags of the config, and installs
the adapters once they are built.

**Hot reload** removes, re-registers and adds the endpoints of a diff. Each of the last two leaves an
`InitTask` behind, which installs its adapter later, by name, with the disabled flag it captured.
`hotReload` runs the tasks to their end; that they need not run so is the business of `ReloadRace`.
-/

namespace EndaraRelay

open Verif

/-- An adapter in the registry: what it was built from, and whether it has been left running. -/
structure InstalledAdapter where
  spec : AdapterSpec
  running : Bool
deriving DecidableEq, Repr

structure ManagedEntry where
  adapter : InstalledAdapter
  transport : String
  description : Option String
  toolPrefix : Option String
  disabled : Bool
  disabledTools : List String
deriving DecidableEq, Repr

abbrev ManagedEntries := Table String ManagedEntry

/-- The entry `register` makes for an endpoint. -/
def registeredAs (ep : EndpointConfig) (spec : AdapterSpec) : ManagedEntry where
  adapter := ⟨spec, true⟩
  transport := ep.transport.display
  description := ep.description
  toolPrefix := ep.resolvedToolPrefix
  disabled := false
  disabledTools := []

/-- The flags of an entry: disabled or not, and its disabled tools. -/
abbrev Flags := Bool × List String

def ManagedEntry.flags (entry : ManagedEntry) : Flags := (entry.disabled, entry.disabledTools)

def ManagedEntry.setFlags (flags : Flags) (entry : ManagedEntry) : ManagedEntry :=
  { entry with disabled := flags.1, disabledTools := flags.2 }

/-- What is registered before the adapter is built: a failed adapter for an endpoint with warnings,
a placeholder for any other. -/
def placeholder (warnings : List EndpointValidationWarning) (ep : EndpointConfig) : AdapterSpec :=
  match warningMessage warnings ep.name with
  | some msg => .failed msg ep.serverTypeOverride
  | none => .starting

def isWarned (warnings : List EndpointValidationWarning) (name : String) : Bool :=
  (warningMessage warnings name).isSome

/-! ## Cold start -/

/-- The endpoints that are registered: the first of each name. -/
def firstEndpoints : List String → List EndpointConfig → List EndpointConfig
  | _, [] => []
  | registered, ep :: eps =>
    if ep.name ≠ "" ∧ ep.name ∈ registered then firstEndpoints registered eps
    else ep :: firstEndpoints (ep.name :: registered) eps

/-- The flags after those of one endpoint of the config: each is set only when it asks for something. -/
def addFlags (flags : Flags) (ep : EndpointConfig) : Flags :=
  (if ep.disabled then true else flags.1,
    if ep.disabledTools = [] then flags.2 else ep.disabledTools)

def applyDisabledState (entries : ManagedEntries) (ep : EndpointConfig) : ManagedEntries :=
  entries.modify ep.name fun entry => entry.setFlags (addFlags entry.flags ep)

/-- Install a built adapter; it is shut down again when its entry is disabled. -/
def installAtStartup (cfg : Config) (entries : ManagedEntries) (ep : EndpointConfig) :
    ManagedEntries :=
  entries.modify ep.name fun entry =>
    { entry with adapter := ⟨startupAdapter cfg.insecure cfg.organizations ep, !entry.disabled⟩ }

/-- The registry a cold start ends with. -/
def coldStart (cfg : Config) : ManagedEntries :=
  let firsts := firstEndpoints [] cfg.endpoints
  let registered := firsts.foldl (fun entries ep =>
    entries.insert ep.name (registeredAs ep (placeholder cfg.warnings ep))) ∅
  let flagged := cfg.endpoints.foldl applyDisabledState registered
  (firsts.filter fun ep => !isWarned cfg.warnings ep.name).foldl (installAtStartup cfg) flagged

/-! ## Hot reload -/

/-- A background initialization: it installs the adapter of `ep` under `name`, and shuts it down when
the entry was disabled at the time the task was spawned. -/
structure InitTask where
  name : String
  ep : EndpointConfig
  allowInsecure : Bool
  organizations : List ConfigOrganization
  wasDisabled : Bool
deriving DecidableEq, Repr

/-- What a reload passes to every endpoint it handles. -/
structure ReloadInputs where
  warnings : List EndpointValidationWarning
  allowInsecure : Bool
  organizations : List ConfigOrganization

def Config.reloadInputs (cfg : Config) : ReloadInputs := ⟨cfg.warnings, cfg.insecure, cfg.organizations⟩

structure ReloadState where
  entries : ManagedEntries
  tasks : List InitTask

/-- Register an endpoint with flags, and spawn its initialization unless it has warnings. -/
def registerAndSpawn (inputs : ReloadInputs) (name : String) (ep : EndpointConfig) (flags : Flags)
    (st : ReloadState) : ReloadState where
  entries := (st.entries.insert name (registeredAs ep (placeholder inputs.warnings ep))).modify name
    (ManagedEntry.setFlags flags)
  tasks :=
    if isWarned inputs.warnings name then st.tasks
    else st.tasks ++ [⟨name, ep, inputs.allowInsecure, inputs.organizations, flags.1⟩]

def applyRemoved (st : ReloadState) (name : String) : ReloadState :=
  { st with entries := st.entries.erase name }

/-- The flags a changed endpoint keeps: those of its entry, or else those of the config. -/
def keptFlags (entries : ManagedEntries) (name : String) (ep : EndpointConfig) : Flags :=
  match entries.lookup name with
  | some entry => entry.flags
  | none => (ep.disabled, ep.disabledTools)

/-- A changed endpoint: the entry is removed and registered anew, with the flags it had. -/
def applyChanged (inputs : ReloadInputs) (st : ReloadState) (change : String × EndpointConfig) :
    ReloadState :=
  registerAndSpawn inputs change.1 change.2 (keptFlags st.entries change.1 change.2)
    (applyRemoved st change.1)

/-- An added endpoint, with the flags of the config. -/
def applyAdded (inputs : ReloadInputs) (st : ReloadState) (ep : EndpointConfig) : ReloadState :=
  registerAndSpawn inputs ep.name ep (ep.disabled, ep.disabledTools) st

def applyDiffGraceful (diff : ConfigDiff) (inputs : ReloadInputs) (st : ReloadState) : ReloadState :=
  diff.added.foldl (applyAdded inputs)
    (diff.changed.foldl (applyChanged inputs) (diff.removed.foldl applyRemoved st))

/-- The adapter a task builds. -/
def InitTask.spec (task : InitTask) : AdapterSpec :=
  createAdapter task.allowInsecure task.organizations task.ep

/-- The end of a background initialization. -/
def finishInit (entries : ManagedEntries) (task : InitTask) : ManagedEntries :=
  entries.modify task.name fun entry => { entry with adapter := ⟨task.spec, !task.wasDisabled⟩ }

/-- The registry after a reload from `old` to `new`, all initializations done. -/
def hotReload (old new : Config) : ManagedEntries :=
  let st := applyDiffGraceful (diffConfigs old new) new.reloadInputs ⟨coldStart old, []⟩
  st.tasks.foldl finishInit st.entries

end EndaraRelay
