import EndaraRelay.ConfigLoading
import EndaraRelay.Lib.Pool
import EndaraRelay.ReloadRace

/-!
# The two ways to reload

`reload_and_apply` of the watcher and `reload_config` of the management API bring the relay to a config
that has been loaded from the same file. Both diff it against the published config, the *baseline*, apply
the diff to the registry and publish the loaded config. The watcher also carries over the settings of the
`[relay]` table and the profiles, which `reload_config` leaves alone: the two agree exactly when those are
already what the config asks for (`reload_paths_agree_iff`).

**Overlapping reloads.** `reloads` is the pool of both, one `await` at a time. Each diffs against the
baseline it finds, and publishes at its end: a reload that starts on a baseline which another one is about
to replace diffs against the wrong config. `BroughtTo` says that an entry was last registered as a config
asks for; while the reloads under way have all loaded the same endpoints, each name is brought to them, or
some reload has still to get to it.

Ticks are left out. How a write directory resolves is up to the environment, at each step anew.
-/

namespace EndaraRelay

open Verif

/-! ## The settings of a reload -/

/-- A `[[profiles]]` block. -/
structure ProfileSettings where
  profile : ProfileConfig
  jsExecution : Bool
  toonOutput : Bool
deriving DecidableEq

/-- A config with the settings of the `[relay]` table that a reload carries over. -/
structure RunningConfig where
  core : Config
  localJsExecution : Option Bool := none
  writeDirs : Option (List String) := none
  validateInputs : Option Bool := none
  profiles : Option (List ProfileSettings) := none

/-- What `load_config_graceful` returns. -/
structure LoadedConfig where
  config : RunningConfig
  warnings : List EndpointValidationWarning

def LoadedConfig.inputs (l : LoadedConfig) : ReloadInputs :=
  ⟨l.warnings, l.config.core.insecure, l.config.core.organizations⟩

/-- The registry with the initializations left behind, the derived settings, and the published config. -/
structure RunningRelay where
  registry : ReloadState
  jsExecutionMode : Bool
  writeRoots : List String
  validateInputs : Bool
  profiles : String → Option ProfileSettings
  config : RunningConfig

def resolveWriteRoots (directory : String → Option String) (cfg : RunningConfig) : List String :=
  match cfg.writeDirs with
  | some dirs => dirs.filterMap directory
  | none => []

/-- The map `ProfileRegistry::rebuild` swaps in: of several profiles of a path the last one stays. -/
def profileMap (profiles : List ProfileSettings) (path : String) : Option ProfileSettings :=
  profiles.reverse.find? fun p => toAsciiLowercase p.profile.path = path

namespace RunningRelay

def applyDiff (l : LoadedConfig) (st : RunningRelay) : RunningRelay :=
  { st with
    registry := applyDiffGraceful (diffConfigs st.config.core l.config.core) l.inputs st.registry }

def updateJsMode (new : RunningConfig) (st : RunningRelay) : RunningRelay :=
  if new.localJsExecution.getD false ≠ st.jsExecutionMode then
    { st with jsExecutionMode := new.localJsExecution.getD false }
  else st

def updateWriteRoots (directory : String → Option String) (new : RunningConfig) (st : RunningRelay) :
    RunningRelay :=
  if resolveWriteRoots directory new ≠ st.writeRoots then
    { st with writeRoots := resolveWriteRoots directory new }
  else st

def updateValidateInputs (new : RunningConfig) (st : RunningRelay) : RunningRelay :=
  if new.validateInputs.getD true ≠ st.validateInputs then
    { st with validateInputs := new.validateInputs.getD true }
  else st

def rebuildProfiles (new : RunningConfig) (st : RunningRelay) : RunningRelay :=
  { st with profiles := profileMap (new.profiles.getD []) }

def publish (new : RunningConfig) (st : RunningRelay) : RunningRelay := { st with config := new }

end RunningRelay

/-- `reload_and_apply`, undisturbed. -/
def reloadAndApply (directory : String → Option String) (load : Except String LoadedConfig)
    (st : RunningRelay) : Except String Unit × RunningRelay :=
  match load with
  | .error e => (.error e, st)
  | .ok l =>
    (.ok (), ((((((st.applyDiff l).updateJsMode l.config).updateWriteRoots directory l.config
      ).updateValidateInputs l.config).rebuildProfiles l.config).publish l.config))

structure ActionResponse where
  ok : Bool
  message : String

/-- `reload_config`, undisturbed. Without a config path there is nothing to load. -/
def reloadConfig (load : Option (Except String LoadedConfig)) (st : RunningRelay) :
    ActionResponse × RunningRelay :=
  match load with
  | none => (⟨false, "config_path not configured"⟩, st)
  | some (.error e) => (⟨false, "failed to parse config: " ++ e⟩, st)
  | some (.ok l) => (⟨true, "config reloaded"⟩, (st.applyDiff l).publish l.config)

/-- The settings outside the registry are already what the config asks for. -/
structure SettingsCurrent (directory : String → Option String) (new : RunningConfig)
    (st : RunningRelay) : Prop where
  jsExecutionMode : st.jsExecutionMode = new.localJsExecution.getD false
  writeRoots : st.writeRoots = resolveWriteRoots directory new
  validateInputs : st.validateInputs = new.validateInputs.getD true
  profiles : st.profiles = profileMap (new.profiles.getD [])

/-- What `reload_and_apply` leaves behind. -/
theorem reloadAndApply_eq (directory : String → Option String) (l : LoadedConfig) (st : RunningRelay) :
    (reloadAndApply directory (.ok l) st).2 =
      { registry := (st.applyDiff l).registry
        jsExecutionMode := l.config.localJsExecution.getD false
        writeRoots := resolveWriteRoots directory l.config
        validateInputs := l.config.validateInputs.getD true
        profiles := profileMap (l.config.profiles.getD [])
        config := l.config } := by
  simp only [reloadAndApply, RunningRelay.updateJsMode, RunningRelay.updateWriteRoots,
    RunningRelay.updateValidateInputs, RunningRelay.rebuildProfiles, RunningRelay.publish]
  split <;> split <;> split <;> simp_all [RunningRelay.applyDiff]

/-- **The two ways agree** on a loaded config exactly when the settings outside the registry are current. -/
theorem reloadConfig_eq_iff (directory : String → Option String) (l : LoadedConfig) (st : RunningRelay) :
    (reloadConfig (some (.ok l)) st).2 = (reloadAndApply directory (.ok l) st).2 ↔
      SettingsCurrent directory l.config st := by
  rw [reloadAndApply_eq]
  constructor
  · intro h
    refine ⟨congrArg RunningRelay.jsExecutionMode h, congrArg RunningRelay.writeRoots h,
      congrArg RunningRelay.validateInputs h, congrArg RunningRelay.profiles h⟩
  · intro h
    rw [← h.jsExecutionMode, ← h.writeRoots, ← h.validateInputs, ← h.profiles]
    rfl

/-! ## Overlapping reloads -/

/-- Who reloads. -/
inductive ReloadPath where
  | management
  | watcher
deriving DecidableEq

/-- The relay, and the settings each entry was last registered from. -/
structure Reloads where
  relay : RunningRelay
  registered : String → Option EndpointConfig

/-- Once its flags are set an endpoint is initialized, unless it has warnings. -/
def ReloadInputs.afterFlags (inputs : ReloadInputs) (name : String) (ep : EndpointConfig) (flags : Flags) :
    Option ReloadOp :=
  if isWarned inputs.warnings name then none else some (.spawn name ep flags)

/-- The next step for one endpoint, and what is left to do for it. -/
def ReloadOp.perform (inputs : ReloadInputs) (st : ReloadState) : ReloadOp → ReloadState × Option ReloadOp
  | .remove name => (applyRemoved st name, none)
  | .change name ep => (st, some (.replace name ep (keptFlags st.entries name ep)))
  | .replace name ep flags => (applyRemoved st name, some (.register name ep flags true))
  | .register name ep flags set =>
    ({ st with entries := st.entries.insert name (registeredAs ep (placeholder inputs.warnings ep)) },
      if set then some (.setFlags name ep flags) else inputs.afterFlags name ep flags)
  | .setFlags name ep flags =>
    ({ st with entries := st.entries.modify name (ManagedEntry.setFlags flags) },
      inputs.afterFlags name ep flags)
  | .spawn name ep flags =>
    ({ st with tasks := st.tasks ++
      [⟨name, ep, inputs.allowInsecure, inputs.organizations, flags.1⟩] }, none)

/-- What an operation registers a name as. -/
def ReloadOp.registers : ReloadOp → Option (Option EndpointConfig)
  | .remove _ | .replace _ _ _ => some none
  | .register _ ep _ _ => some (some ep)
  | _ => none

def ReloadOp.record (op : ReloadOp) (registered : String → Option EndpointConfig) (name : String) :
    Option EndpointConfig :=
  match op.registers with
  | some ep => if name = op.subject then ep else registered name
  | none => registered name

/-- What the watcher updates once the diff is applied. -/
inductive SettlePc where
  | jsMode
  | writeRoots
  | validateInputs
  | profiles

inductive ReloadThread where
  /-- The file is loaded; the baseline is read next. -/
  | loaded (path : ReloadPath) (l : LoadedConfig)
  | applying (path : ReloadPath) (l : LoadedConfig) (todo : List ReloadOp)
  | settling (pc : SettlePc) (l : LoadedConfig)
  | publishing (l : LoadedConfig)
  /-- The background initialization at this place of the list is about to install its adapter. -/
  | finishing (i : Nat)
  | done

def SettlePc.step (directory : String → Option String) (l : LoadedConfig) (relay : RunningRelay) :
    SettlePc → RunningRelay × ReloadThread
  | .jsMode => (relay.updateJsMode l.config, .settling .writeRoots l)
  | .writeRoots => (relay.updateWriteRoots directory l.config, .settling .validateInputs l)
  | .validateInputs => (relay.updateValidateInputs l.config, .settling .profiles l)
  | .profiles => (relay.rebuildProfiles l.config, .publishing l)

def finishTask (i : Nat) (st : ReloadState) : ReloadState :=
  match st.tasks[i]? with
  | none => st
  | some task => ⟨finishInit st.entries task, st.tasks.eraseIdx i⟩

def ReloadThread.step (directory : String → Option String) (sh : Reloads) :
    ReloadThread → Option (Reloads × ReloadThread)
  | .loaded path l =>
    some (sh, .applying path l (diffConfigs sh.relay.config.core l.config.core).ops)
  | .applying path l (op :: todo) =>
    let next := op.perform l.inputs sh.relay.registry
    some (⟨{ sh.relay with registry := next.1 }, op.record sh.registered⟩,
      .applying path l (next.2.toList ++ todo))
  | .applying .management l [] => some (sh, .publishing l)
  | .applying .watcher l [] => some (sh, .settling .jsMode l)
  | .settling pc l =>
    let next := pc.step directory l sh.relay
    some ({ sh with relay := next.1 }, next.2)
  | .publishing l => some ({ sh with relay := sh.relay.publish l.config }, .done)
  | .finishing i =>
    some ({ sh with relay := { sh.relay with registry := finishTask i sh.relay.registry } }, .done)
  | .done => none

inductive ReloadOperation where
  | reload (path : ReloadPath) (load : Except String LoadedConfig)
  | finishInit (i : Nat)

/-- A load that fails changes nothing. -/
def ReloadOperation.thread : ReloadOperation → ReloadThread
  | .reload path (.ok l) => .loaded path l
  | .reload _ (.error _) => .done
  | .finishInit i => .finishing i

/-- An entry was last registered as the config asks for, as far as a diff can tell. -/
def SameEndpoint : Option EndpointConfig → Option EndpointConfig → Prop
  | none, none => True
  | some a, some b => a.eq b = true
  | _, _ => False

def BroughtTo (cfg : Config) (registered : String → Option EndpointConfig) (name : String) : Prop :=
  SameEndpoint (registered name) (cfg.endpointMap.lookup name)

/-- One relay that is reloaded in both ways, from a registry that was brought to its config. -/
def reloads : Pool Reloads ReloadThread ReloadOperation (String → Option String) where
  init sh := ∀ name, BroughtTo sh.relay.config.core sh.registered name
  launch _ _ op := some op.thread
  step sh _ t directory := (t.step directory sh).map fun next => (next.1, next.2, [])

abbrev ReloadsState := Pool.State Reloads ReloadThread

abbrev ReloadsAction := Pool.Action ReloadOperation (String → Option String)

/-! ### A reload alone -/

section Alone

variable {s₀ : ReloadsState}

theorem reachable_alone (directory : String → Option String) {sh sh' : Reloads} {t t' : ReloadThread}
    (h : (reloads.system.startingAt s₀).Reachable ⟨sh, [t]⟩) (hstep : t.step directory sh = some (sh', t')) :
    (reloads.system.startingAt s₀).Reachable ⟨sh', [t']⟩ := by
  refine h.step (a := .run 0 directory) ?_
  show reloads.next ⟨sh, [t]⟩ (.run 0 directory) = _
  simp [Pool.next, reloads, hstep, Pool.stepped]

/-- The state of a reload that runs alone: the registry and the thread. -/
def Alone (s₀ : ReloadsState) (relay : RunningRelay) (t : ReloadThread) : Prop :=
  ∃ registered, (reloads.system.startingAt s₀).Reachable ⟨⟨relay, registered⟩, [t]⟩

variable {relay : RunningRelay} {path : ReloadPath} {l : LoadedConfig} {todo : List ReloadOp}

theorem Alone.step {op : ReloadOp} (h : Alone s₀ relay (.applying path l (op :: todo))) :
    Alone s₀ { relay with registry := (op.perform l.inputs relay.registry).1 }
      (.applying path l ((op.perform l.inputs relay.registry).2.toList ++ todo)) := by
  obtain ⟨registered, hreach⟩ := h
  exact ⟨op.record registered, reachable_alone (fun _ => none) hreach rfl⟩

/-- The initialization is spawned, unless the endpoint has warnings. -/
theorem Alone.spawned {name : String} {ep : EndpointConfig} {flags : Flags}
    (h : Alone s₀ relay (.applying path l ((l.inputs.afterFlags name ep flags).toList ++ todo))) :
    Alone s₀ { relay with registry := { relay.registry with
      tasks := if isWarned l.inputs.warnings name then relay.registry.tasks
        else relay.registry.tasks ++
          [⟨name, ep, l.inputs.allowInsecure, l.inputs.organizations, flags.1⟩] } }
      (.applying path l todo) := by
  by_cases hw : isWarned l.inputs.warnings name = true
  · rw [if_pos hw]
    rw [ReloadInputs.afterFlags, if_pos hw] at h
    exact h
  · rw [if_neg hw]
    rw [ReloadInputs.afterFlags, if_neg hw] at h
    exact h.step

/-- An endpoint is registered with its flags, which need not be set when they are the default. -/
theorem Alone.registered {name : String} {ep : EndpointConfig} {flags : Flags} {set : Bool}
    (hset : set = true ∨ flags = (false, []))
    (h : Alone s₀ relay (.applying path l (.register name ep flags set :: todo))) :
    Alone s₀ { relay with registry := registerAndSpawn l.inputs name ep flags relay.registry }
      (.applying path l todo) := by
  cases set with
  | true => exact h.step.step.spawned
  | false =>
    obtain hset | rfl := hset
    · cases hset
    · have hflags : (relay.registry.entries.insert name
          (registeredAs ep (placeholder l.inputs.warnings ep))).modify name
            (ManagedEntry.setFlags (false, [])) =
          relay.registry.entries.insert name (registeredAs ep (placeholder l.inputs.warnings ep)) := by
        apply AList.modify_eq_self
        intro entry hentry
        rw [AList.lookup_insert] at hentry
        cases hentry
        rfl
      unfold registerAndSpawn
      rw [hflags]
      exact h.step.spawned

theorem Alone.changed {change : String × EndpointConfig}
    (h : Alone s₀ relay (.applying path l (.change change.1 change.2 :: todo))) :
    Alone s₀ { relay with registry := applyChanged l.inputs relay.registry change }
      (.applying path l todo) := by
  have hremoved := h.step.step
  exact hremoved.registered (.inl rfl)

theorem Alone.added {ep : EndpointConfig}
    (h : Alone s₀ relay (.applying path l (.register ep.name ep (ep.disabled, ep.disabledTools)
      (ep.disabled || ep.disabledTools ≠ []) :: todo))) :
    Alone s₀ { relay with registry := applyAdded l.inputs relay.registry ep } (.applying path l todo) := by
  refine h.registered ?_
  by_cases hd : ep.disabled = true
  · exact .inl (by rw [hd]; rfl)
  · rw [Bool.not_eq_true] at hd
    by_cases ht : ep.disabledTools = []
    · exact .inr (by rw [hd, ht])
    · exact .inl (by simp [ht])

theorem Alone.fold {ι : Type} (op : ι → ReloadOp) (f : ReloadState → ι → ReloadState)
    (hf : ∀ relay todo x, Alone s₀ relay (.applying path l (op x :: todo)) →
      Alone s₀ { relay with registry := f relay.registry x } (.applying path l todo))
    {xs : List ι} (h : Alone s₀ relay (.applying path l (xs.map op ++ todo))) :
    Alone s₀ { relay with registry := xs.foldl f relay.registry } (.applying path l todo) := by
  induction xs generalizing relay with
  | nil => exact h
  | cons x xs ih => exact ih (hf relay _ x h)

/-- The operations of a diff, one after the other, are `apply_diff_graceful`. -/
theorem Alone.applied {diff : ConfigDiff} (h : Alone s₀ relay (.applying path l diff.ops)) :
    Alone s₀ { relay with registry := applyDiffGraceful diff l.inputs relay.registry }
      (.applying path l []) := by
  have hremoved := Alone.fold .remove applyRemoved (fun _ _ _ h => h.step) h
  have hchanged := Alone.fold (fun change => .change change.1 change.2) (applyChanged l.inputs)
    (fun _ _ _ h => h.changed) hremoved
  rw [← List.append_nil (List.map _ diff.added)] at hchanged
  exact Alone.fold _ (applyAdded l.inputs) (fun _ _ _ h => h.added) hchanged

/-- **A reload that runs alone** does what its function says. -/
theorem reload_alone (sh : Reloads) (l : LoadedConfig) (directory : String → Option String) :
    Alone ⟨sh, [.loaded .management l]⟩ (reloadConfig (some (.ok l)) sh.relay).2 .done ∧
      Alone ⟨sh, [.loaded .watcher l]⟩ (reloadAndApply directory (.ok l) sh.relay).2 .done := by
  have hstart (path : ReloadPath) : Alone ⟨sh, [.loaded path l]⟩ (sh.relay.applyDiff l) (.applying path l []) := by
    have hread : Alone ⟨sh, [.loaded path l]⟩ sh.relay
        (.applying path l (diffConfigs sh.relay.config.core l.config.core).ops) :=
      ⟨sh.registered, reachable_alone directory (.init rfl) rfl⟩
    exact hread.applied
  constructor
  · obtain ⟨registered, h⟩ := hstart .management
    have hdone := reachable_alone directory h rfl
    exact ⟨_, reachable_alone directory hdone rfl⟩
  · obtain ⟨registered, h⟩ := hstart .watcher
    have hjs := reachable_alone directory (reachable_alone directory h rfl) rfl
    have hroots := reachable_alone directory hjs rfl
    have hinputs := reachable_alone directory hroots rfl
    have hprofiles := reachable_alone directory hinputs rfl
    exact ⟨_, reachable_alone directory hprofiles rfl⟩

end Alone

/-! ### The endpoints a reload has still to get to -/

theorem EndpointConfig.eq_refl (a : EndpointConfig) : a.eq a = true := by
  simp [EndpointConfig.eq]

theorem EndpointConfig.eq_trans {a b c : EndpointConfig} (hab : a.eq b = true) (hbc : b.eq c = true) :
    a.eq c = true := by
  rw [EndpointConfig.eq_iff] at hab hbc ⊢
  rw [hbc, hab]

/-- The endpoints a reload under way brings the relay to. -/
def ReloadThread.target : ReloadThread → Option Config
  | .applying _ l _ | .settling _ l | .publishing l => some l.config.core
  | _ => none

/-- The operation has still to bring its endpoint to the config. -/
def ReloadOp.moves : ReloadOp → Bool
  | .setFlags _ _ _ | .spawn _ _ _ => false
  | _ => true

def ReloadThread.pending (name : String) : ReloadThread → Bool
  | .applying _ _ todo => todo.any fun op => op.moves && op.subject = name
  | _ => false

/-- The operation does what the config asks for. -/
def ReloadOp.Fits (cfg : Config) : ReloadOp → Prop
  | .remove name => cfg.endpointMap.lookup name = none
  | .change name ep | .replace name ep _ | .register name ep _ _ => cfg.endpointMap.lookup name = some ep
  | _ => True

def ReloadThread.Fits : ReloadThread → Prop
  | .applying _ l todo => ∀ op ∈ todo, op.Fits l.config.core
  | _ => True

/-- A reload reads its baseline only while the reloads under way bring the relay to the same endpoints. -/
def sameTarget (s : ReloadsState) : ReloadsAction → Bool
  | .launch _ => true
  | .run i _ => match s.threads[i]? with
    | some (.loaded _ l) => s.threads.all fun t => t.target.all (· = l.config.core)
    | _ => true

/-- The baseline is what the registry was brought to, and while a reload is under way each name is brought
to its config, or will be. -/
structure ReloadsInv (s : ReloadsState) : Prop where
  fits : ∀ t ∈ s.threads, t.Fits
  same : ∀ t ∈ s.threads, ∀ u ∈ s.threads, ∀ a b, t.target = some a → u.target = some b → a = b
  idle : (∀ t ∈ s.threads, t.target = none) →
    ∀ name, BroughtTo s.shared.relay.config.core s.shared.registered name
  busy : ∀ t ∈ s.threads, ∀ cfg, t.target = some cfg → ∀ name,
    BroughtTo cfg s.shared.registered name ∨ ∃ u ∈ s.threads, u.pending name = true

variable {name : String} {registered : String → Option EndpointConfig} {st : ReloadState}
  {cfg : Config} {s : ReloadsState}

theorem target_of_pending {t : ReloadThread} (h : t.pending name = true) :
    ∃ cfg, t.target = some cfg := by
  cases t with
  | applying path l todo => exact ⟨_, rfl⟩
  | _ => cases h

theorem ops_fit (old new : Config) : ∀ op ∈ (diffConfigs old new).ops, op.Fits new := by
  intro op hop
  rw [ConfigDiff.ops, diffConfigs_changed, diffConfigs_added] at hop
  rcases List.mem_append.1 hop with hop | hop
  · obtain ⟨name, hname, rfl⟩ := List.mem_map.1 hop
    exact (mem_diffConfigs_removed.1 hname).2
  · rcases List.mem_append.1 hop with hop | hop
    · obtain ⟨change, hchange, rfl⟩ := List.mem_map.1 hop
      obtain ⟨ep, hep, rfl⟩ := List.mem_map.1 hchange
      exact (mem_endpointsWith.1 hep).1
    · obtain ⟨ep, hep, rfl⟩ := List.mem_map.1 hop
      exact (mem_endpointsWith.1 hep).1

theorem ops_move {old new : Config} {op : ReloadOp} (h : op ∈ (diffConfigs old new).ops) :
    op.moves = true := by
  rcases List.mem_append.1 h with h | h
  · obtain ⟨name, -, rfl⟩ := List.mem_map.1 h
    rfl
  · rcases List.mem_append.1 h with h | h <;> obtain ⟨_, -, rfl⟩ := List.mem_map.1 h <;> rfl

/-- What a diff leaves alone stays as the new config asks for. -/
theorem BroughtTo.of_diff {old new : Config} (h : BroughtTo old registered name)
    (hname : name ∉ (diffConfigs old new).ops.map ReloadOp.subject) :
    BroughtTo new registered name := by
  rw [ops_subjects, List.mem_append, List.mem_append, not_or, not_or] at hname
  obtain ⟨hremoved, hchanged, hadded⟩ := hname
  unfold BroughtTo at h ⊢
  cases hnew : new.endpointMap.lookup name with
  | none =>
    cases hold : old.endpointMap.lookup name with
    | none =>
      rw [hold] at h
      exact h
    | some oldEp => exact absurd (mem_diffConfigs_removed.2 ⟨by simp [hold], hnew⟩) hremoved
  | some ep =>
    obtain rfl : ep.name = name := endpointMap_name hnew
    cases hold : old.endpointMap.lookup ep.name with
    | none =>
      have hmem : ep ∈ new.endpointsWith fun name _ => isAdded old name :=
        mem_endpointsWith.2 ⟨hnew, by simp [isAdded, hold]⟩
      exact absurd (List.mem_map_of_mem hmem) hadded
    | some oldEp =>
      by_cases heq : oldEp.eq ep = true
      · rw [hold] at h
        cases hreg : registered ep.name with
        | none =>
          rw [hreg] at h
          cases h
        | some regEp =>
          rw [hreg] at h
          exact EndpointConfig.eq_trans h heq
      · have hmem : ep ∈ new.endpointsWith (isChanged old) :=
          mem_endpointsWith.2 ⟨hnew, by simp [isChanged, hold, heq]⟩
        exact absurd (List.mem_map_of_mem hmem) hchanged

/-! ### The steps -/

section Steps

variable {s : ReloadsState} {i : Nat} {t t' : ReloadThread} {sh : Reloads}

/-- A step that neither registers anything nor publishes. -/
theorem ReloadsInv.quiet (h : ReloadsInv s) (hi : s.threads[i]? = some t) (hfits : t'.Fits)
    (htarget : t'.target = t.target) (hpending : ∀ name, t.pending name = true → t'.pending name = true)
    (hregistered : sh.registered = s.shared.registered)
    (hconfig : sh.relay.config = s.shared.relay.config) :
    ReloadsInv ⟨sh, Pool.stepped s.threads i t' []⟩ := by
  have hti := List.mem_of_getElem? hi
  -- Every thread has a counterpart before the step.
  have hbefore : ∀ u ∈ Pool.stepped s.threads i t' [], ∃ v ∈ s.threads, u.target = v.target :=
    Pool.forall_mem_stepped ⟨t, hti, htarget⟩ (List.forall_mem_nil _)
      fun j u _ hj => ⟨u, List.mem_of_getElem? hj, rfl⟩
  refine ⟨?_, ?_, ?_, ?_⟩
  · exact Pool.forall_mem_stepped hfits (List.forall_mem_nil _)
      fun j u _ hj => h.fits u (List.mem_of_getElem? hj)
  · intro u hu v hv a b ha hb
    obtain ⟨u', hu', htu⟩ := hbefore u hu
    obtain ⟨v', hv', htv⟩ := hbefore v hv
    exact h.same u' hu' v' hv' a b (htu ▸ ha) (htv ▸ hb)
  · intro hidle name
    show BroughtTo sh.relay.config.core sh.registered name
    rw [hregistered, hconfig]
    refine h.idle (fun u hu => ?_) name
    obtain ⟨j, hj⟩ := List.mem_iff_getElem?.1 hu
    by_cases hne : j = i
    · subst hne
      rw [hi] at hj
      cases hj
      rw [← htarget]
      exact hidle t' (Pool.mem_stepped_self hi)
    · exact hidle u (Pool.mem_stepped_of_ne hj hne)
  · intro u hu cfg hcfg name
    obtain ⟨v, hv, htv⟩ := hbefore u hu
    show BroughtTo cfg sh.registered name ∨ _
    rw [hregistered]
    exact (h.busy v hv cfg (htv ▸ hcfg) name).imp_right (Pool.exists_stepped hi (hpending name))

variable {path : ReloadPath} {l : LoadedConfig} {op : ReloadOp} {todo : List ReloadOp}

theorem ReloadsInv.start (h : ReloadsInv s) (hi : s.threads[i]? = some (.loaded path l))
    (hok : ∀ u ∈ s.threads, ∀ cfg, u.target = some cfg → cfg = l.config.core) :
    ReloadsInv ⟨s.shared, Pool.stepped s.threads i
      (.applying path l (diffConfigs s.shared.relay.config.core l.config.core).ops) []⟩ := by
  have htarget : ∀ u ∈ Pool.stepped s.threads i
      (.applying path l (diffConfigs s.shared.relay.config.core l.config.core).ops) [],
        ∀ cfg, u.target = some cfg → cfg = l.config.core := by
    refine Pool.forall_mem_stepped ?_ (List.forall_mem_nil _) fun j u _ hj => hok u (List.mem_of_getElem? hj)
    intro cfg hcfg
    exact (Option.some.inj hcfg).symm
  refine ⟨?_, ?_, ?_, ?_⟩
  · exact Pool.forall_mem_stepped (ops_fit _ _) (List.forall_mem_nil _)
      fun j u _ hj => h.fits u (List.mem_of_getElem? hj)
  · intro u hu v hv a b ha hb
    rw [htarget u hu a ha, htarget v hv b hb]
  · intro hidle
    cases hidle _ (Pool.mem_stepped_self hi)
  · intro u hu cfg hcfg name
    rw [htarget u hu cfg hcfg]
    by_cases hbusy : ∃ v ∈ s.threads, ∃ cfg, v.target = some cfg
    · obtain ⟨v, hv, cfg, hcfg⟩ := hbusy
      have hname := h.busy v hv cfg hcfg name
      rw [hok v hv cfg hcfg] at hname
      exact hname.imp_right (Pool.exists_stepped hi fun hp => by cases hp)
    · have hbaseline := h.idle (fun v hv => Option.eq_none_iff_forall_ne_some.2
        fun cfg hcfg => hbusy ⟨v, hv, cfg, hcfg⟩) name
      by_cases hname : name ∈ (diffConfigs s.shared.relay.config.core l.config.core).ops.map ReloadOp.subject
      · obtain ⟨op, hop, hsubject⟩ := List.mem_map.1 hname
        refine .inr ⟨_, Pool.mem_stepped_self hi, List.any_eq_true.2 ⟨op, hop, ?_⟩⟩
        rw [ops_move hop]
        simpa using hsubject
      · exact .inl (hbaseline.of_diff hname)

theorem ReloadOp.perform_fits {inputs : ReloadInputs} (hop : op.Fits cfg) :
    ∀ next ∈ (op.perform inputs st).2, next.Fits cfg := by
  have hafter (name : String) (ep : EndpointConfig) (flags : Flags) :
      ∀ next ∈ inputs.afterFlags name ep flags, next.Fits cfg := by
    intro next hnext
    unfold ReloadInputs.afterFlags at hnext
    split at hnext <;> cases hnext
    trivial
  cases op with
  | change name ep =>
    intro next hnext
    cases hnext
    exact hop
  | replace name ep flags =>
    intro next hnext
    cases hnext
    exact hop
  | register name ep flags set =>
    cases set with
    | true =>
      intro next hnext
      cases hnext
      trivial
    | false => exact hafter name ep flags
  | setFlags name ep flags => exact hafter name ep flags
  | _ =>
    intro next hnext
    cases hnext

/-- An operation brings its endpoint to the config, or leaves it for the next one. -/
theorem ReloadOp.perform_moves {inputs : ReloadInputs} (hop : op.Fits cfg) (hmoves : op.moves = true) :
    BroughtTo cfg (op.record registered) op.subject ∨
      ∃ next ∈ (op.perform inputs st).2, next.moves = true ∧ next.subject = op.subject := by
  cases op with
  | remove name =>
    left
    show SameEndpoint (if name = name then none else registered name) (cfg.endpointMap.lookup name)
    rw [if_pos rfl, hop]
    trivial
  | register name ep flags set =>
    left
    show SameEndpoint (if name = name then some ep else registered name) (cfg.endpointMap.lookup name)
    rw [if_pos rfl, hop]
    exact ep.eq_refl
  | change => exact .inr ⟨_, rfl, rfl, rfl⟩
  | replace => exact .inr ⟨_, rfl, rfl, rfl⟩
  | _ => cases hmoves

theorem ReloadOp.record_of_ne (h : name ≠ op.subject ∨ op.moves = false) :
    op.record registered name = registered name := by
  cases op with
  | setFlags => rfl
  | spawn => rfl
  | change => rfl
  | _ =>
    obtain h | h := h
    · exact if_neg h
    · cases h

theorem ReloadsInv.advance (h : ReloadsInv s)
    (hi : s.threads[i]? = some (.applying path l (op :: todo)))
    (hregistered : sh.registered = op.record s.shared.registered) :
    ReloadsInv ⟨sh, Pool.stepped s.threads i
      (.applying path l ((op.perform l.inputs st).2.toList ++ todo)) []⟩ := by
  have hti := List.mem_of_getElem? hi
  obtain ⟨hop, htodo⟩ := List.forall_mem_cons.1 (h.fits _ hti)
  have hself : ReloadThread.applying path l ((op.perform l.inputs st).2.toList ++ todo) ∈
      Pool.stepped s.threads i (.applying path l ((op.perform l.inputs st).2.toList ++ todo)) [] :=
    Pool.mem_stepped_self hi
  have hbefore : ∀ u ∈ Pool.stepped s.threads i
      (.applying path l ((op.perform l.inputs st).2.toList ++ todo)) [],
        ∃ v ∈ s.threads, u.target = v.target :=
    Pool.forall_mem_stepped ⟨_, hti, rfl⟩ (List.forall_mem_nil _)
      fun j u _ hj => ⟨u, List.mem_of_getElem? hj, rfl⟩
  refine ⟨?_, ?_, ?_, ?_⟩
  · refine Pool.forall_mem_stepped ?_ (List.forall_mem_nil _) fun j u _ hj => h.fits u (List.mem_of_getElem? hj)
    intro next hnext
    rcases List.mem_append.1 hnext with hnext | hnext
    · exact ReloadOp.perform_fits hop next (Option.mem_toList.1 hnext)
    · exact htodo next hnext
  · intro u hu v hv a b ha hb
    obtain ⟨u', hu', htu⟩ := hbefore u hu
    obtain ⟨v', hv', htv⟩ := hbefore v hv
    exact h.same u' hu' v' hv' a b (htu ▸ ha) (htv ▸ hb)
  · intro hidle
    cases hidle _ hself
  · intro u hu cfg hcfg name
    obtain ⟨v, hv, htv⟩ := hbefore u hu
    have hcfg' : cfg = l.config.core := h.same v hv _ hti cfg _ (htv ▸ hcfg) rfl
    show BroughtTo cfg sh.registered name ∨ _
    rw [hregistered]
    by_cases hname : name = op.subject ∧ op.moves = true
    · obtain ⟨rfl, hmoves⟩ := hname
      rw [hcfg']
      have hmoved : BroughtTo l.config.core (op.record s.shared.registered) op.subject ∨
          ∃ next ∈ (op.perform l.inputs st).2, next.moves = true ∧ next.subject = op.subject :=
        ReloadOp.perform_moves hop hmoves
      refine hmoved.imp_right ?_
      rintro ⟨next, hnext, hnextMoves, hsubject⟩
      refine ⟨_, hself, List.any_eq_true.2 ⟨next, List.mem_append_left _ (Option.mem_toList.2 hnext), ?_⟩⟩
      rw [hnextMoves]
      simpa using hsubject
    · have hrecord : op.record s.shared.registered name = s.shared.registered name := by
        apply ReloadOp.record_of_ne
        by_cases hsubject : name = op.subject
        · exact .inr (Bool.eq_false_iff.2 fun hm => hname ⟨hsubject, hm⟩)
        · exact .inl hsubject
      unfold BroughtTo
      rw [hrecord]
      refine (h.busy v hv cfg (htv ▸ hcfg) name).imp_right (Pool.exists_stepped hi fun hp => ?_)
      -- The operation that is still pending for the name is a later one.
      obtain ⟨op', hop', hpending⟩ := List.any_eq_true.1 hp
      refine List.any_eq_true.2 ⟨op', List.mem_append_right _ ?_, hpending⟩
      rcases List.mem_cons.1 hop' with rfl | hop'
      · rw [Bool.and_eq_true, decide_eq_true_eq] at hpending
        exact absurd ⟨hpending.2.symm, hpending.1⟩ hname
      · exact hop'

theorem ReloadsInv.publish (h : ReloadsInv s) (hi : s.threads[i]? = some (.publishing l)) :
    ReloadsInv ⟨{ s.shared with relay := s.shared.relay.publish l.config },
      Pool.stepped s.threads i .done []⟩ := by
  have hti := List.mem_of_getElem? hi
  have hbefore : ∀ u ∈ Pool.stepped s.threads i .done [], ∀ cfg, u.target = some cfg →
      ∃ v ∈ s.threads, v.target = some cfg := by
    refine Pool.forall_mem_stepped (fun cfg hcfg => by cases hcfg) (List.forall_mem_nil _) ?_
    intro j u _ hj cfg hcfg
    exact ⟨u, List.mem_of_getElem? hj, hcfg⟩
  have hkept {name : String} (hp : ∃ u ∈ s.threads, u.pending name = true) :
      ∃ u ∈ Pool.stepped s.threads i .done [], u.pending name = true :=
    Pool.exists_stepped hi (fun hp => by cases hp) hp
  refine ⟨?_, ?_, ?_, ?_⟩
  · exact Pool.forall_mem_stepped trivial (List.forall_mem_nil _)
      fun j u _ hj => h.fits u (List.mem_of_getElem? hj)
  · intro u hu v hv a b ha hb
    obtain ⟨u', hu', ha⟩ := hbefore u hu a ha
    obtain ⟨v', hv', hb⟩ := hbefore v hv b hb
    exact h.same u' hu' v' hv' a b ha hb
  · intro hidle name
    obtain hname | hp := h.busy _ hti _ rfl name
    · exact hname
    · obtain ⟨u, hu, hp⟩ := hkept hp
      obtain ⟨cfg, hcfg⟩ := target_of_pending hp
      rw [hidle u hu] at hcfg
      cases hcfg
  · intro u hu cfg hcfg name
    obtain ⟨v, hv, hcfg⟩ := hbefore u hu cfg hcfg
    exact (h.busy v hv cfg hcfg name).imp_right hkept

end Steps

theorem ReloadOperation.target_of_thread (op : ReloadOperation) :
    op.thread.target = none ∧ op.thread.Fits := by
  cases op with
  | reload path load => cases load <;> exact ⟨rfl, trivial⟩
  | finishInit i => exact ⟨rfl, trivial⟩

theorem ReloadsInv.launch (h : ReloadsInv s) (op : ReloadOperation) :
    ReloadsInv { s with threads := s.threads ++ [op.thread] } := by
  obtain ⟨htarget, hfits⟩ := op.target_of_thread
  have hbefore : ∀ u ∈ s.threads ++ [op.thread], ∀ cfg, u.target = some cfg → u ∈ s.threads := by
    intro u hu cfg hcfg
    rcases List.mem_append.1 hu with hu | hu
    · exact hu
    · rw [List.mem_singleton.1 hu, htarget] at hcfg
      cases hcfg
  refine ⟨?_, ?_, ?_, ?_⟩
  · intro u hu
    rcases List.mem_append.1 hu with hu | hu
    · exact h.fits u hu
    · rw [List.mem_singleton.1 hu]
      exact hfits
  · intro u hu v hv a b ha hb
    exact h.same u (hbefore u hu a ha) v (hbefore v hv b hb) a b ha hb
  · intro hidle
    exact h.idle fun u hu => hidle u (List.mem_append_left _ hu)
  · intro u hu cfg hcfg name
    refine (h.busy u (hbefore u hu cfg hcfg) cfg hcfg name).imp_right ?_
    rintro ⟨v, hv, hp⟩
    exact ⟨v, List.mem_append_left _ hv, hp⟩

theorem reloadsInv (h : reloads.system.ReachableWhile (fun s a => sameTarget s a = true) s) :
    ReloadsInv s := by
  refine Pool.invariant_of (P := reloads) (I := fun _ => True) (J := ReloadsInv) (fun _ _ => trivial)
    ?_ ?_ ?_ h
  · intro sh hinit
    refine ⟨List.forall_mem_nil _, ?_, fun _ => hinit, ?_⟩
    · intro t ht
      cases ht
    · intro t ht
      cases ht
  · intro s op t _ hinv _ ht
    cases ht
    exact hinv.launch op
  · intro s i directory t sh t' new _ hinv hguard hi hstep
    obtain ⟨⟨sh', t''⟩, hthread, heq⟩ := Option.map_eq_some_iff.1 hstep
    cases heq
    cases t with
    | loaded path l =>
      cases hthread
      refine hinv.start hi fun u hu cfg hcfg => ?_
      simp only [sameTarget, hi] at hguard
      have hall := List.all_eq_true.1 hguard u hu
      rw [hcfg] at hall
      simpa using hall
    | applying path l todo =>
      cases todo with
      | cons op todo =>
        cases hthread
        exact hinv.advance hi rfl
      | nil =>
        cases path with
        | management =>
          cases hthread
          exact hinv.quiet hi trivial rfl (fun _ hp => by cases hp) rfl rfl
        | watcher =>
          cases hthread
          exact hinv.quiet hi trivial rfl (fun _ hp => by cases hp) rfl rfl
    | settling pc l =>
      cases hthread
      have hconfig : (pc.step directory l s.shared.relay).1.config = s.shared.relay.config := by
        cases pc with
        | jsMode =>
          simp only [SettlePc.step, RunningRelay.updateJsMode]
          split <;> rfl
        | writeRoots =>
          simp only [SettlePc.step, RunningRelay.updateWriteRoots]
          split <;> rfl
        | validateInputs =>
          simp only [SettlePc.step, RunningRelay.updateValidateInputs]
          split <;> rfl
        | profiles => rfl
      refine hinv.quiet hi ?_ ?_ (fun _ hp => by cases hp) rfl hconfig
      · cases pc <;> trivial
      · cases pc <;> rfl
    | publishing l =>
      cases hthread
      exact hinv.publish hi
    | finishing i =>
      cases hthread
      exact hinv.quiet hi trivial rfl (fun _ hp => by cases hp) rfl rfl
    | done => cases hthread

/-! ## The two ways agree -/

/-- **The two ways to reload.** They agree on a loaded config exactly when the settings outside the registry
are what it asks for, and leave everything alone when the load fails; and in every run in which a reload
reads its baseline only while the reloads under way bring the relay to the endpoints it has loaded, the
baseline is what the registry was last brought to whenever no reload is under way. -/
theorem reload_paths_agree_iff (directory : String → Option String) (load : Except String LoadedConfig)
    (st : RunningRelay) :
    ((reloadConfig (some load) st).2 = (reloadAndApply directory load st).2 ↔
      ∀ l, load = .ok l → SettingsCurrent directory l.config st) ∧
      ∀ s, reloads.system.ReachableWhile (fun s a => sameTarget s a = true) s →
        (∀ t ∈ s.threads, t.target = none) →
          ∀ name, BroughtTo s.shared.relay.config.core s.shared.registered name := by
  constructor
  · cases load with
    | error e => exact iff_of_true rfl fun l hl => by cases hl
    | ok l =>
      rw [reloadConfig_eq_iff]
      constructor
      · intro hcurrent l' hl
        cases hl
        exact hcurrent
      · intro hcurrent
        exact hcurrent l rfl
  · intro s h hidle
    exact (reloadsInv h).idle hidle

/-! ### Where they part -/

def bareRelay : RunningRelay where
  registry := ⟨∅, []⟩
  jsExecutionMode := false
  writeRoots := []
  validateInputs := true
  profiles := profileMap []
  config := { core := ⟨none, [], []⟩ }

def bareReloads : ReloadsState := ⟨⟨bareRelay, fun _ => none⟩, []⟩

theorem bareReloads_init : reloads.system.init bareReloads := ⟨fun _ => trivial, rfl⟩

/-- The mail endpoint, by its URL. -/
def loadedMail (url : String) : LoadedConfig := ⟨{ core := mailConfig url }, []⟩

def uncheckedInputs : LoadedConfig := ⟨{ core := ⟨none, [], []⟩, validateInputs := some false }, []⟩

/-- Thread `i` takes `n` steps. -/
def reloadSteps (i n : Nat) : List ReloadsAction := List.replicate n (.run i fun _ => none)

def watcherLoads (l : LoadedConfig) : List ReloadsAction := [.launch (.reload .watcher (.ok l))]

def managementLoads (l : LoadedConfig) : List ReloadsAction := [.launch (.reload .management (.ok l))]

/-- The watcher and the management API reload two versions of a file at once: both read the baseline, and
the watcher registers first and publishes last. -/
def overlap : List ReloadsAction :=
  watcherLoads (loadedMail "https://one") ++ managementLoads (loadedMail "https://two") ++
    reloadSteps 0 1 ++ reloadSteps 1 1 ++ reloadSteps 0 2 ++ reloadSteps 1 4 ++ reloadSteps 0 6

/-- `reload_config` leaves input validation switched on; and after overlapping reloads the baseline is the
version the watcher has loaded, while the registry was brought to the other one. -/
theorem reload_paths_part :
    (reloadConfig (some (.ok uncheckedInputs)) bareRelay).2 ≠
        (reloadAndApply (fun _ => none) (.ok uncheckedInputs) bareRelay).2 ∧
      ∃ s, reloads.system.Reachable s ∧ (∀ t ∈ s.threads, t.target = none) ∧
        ¬ BroughtTo s.shared.relay.config.core s.shared.registered "mail" := by
  constructor
  · intro h
    have hinputs := congrArg RunningRelay.validateInputs h
    exact absurd hinputs (by decide)
  · obtain ⟨s, hrun, hidle, hregistered, hbaseline⟩ :
        ∃ s, reloads.system.run bareReloads overlap = some s ∧
          s.threads.map ReloadThread.target = [none, none] ∧
            (s.shared.registered "mail").map (·.url) = some (some "https://two") ∧
              (s.shared.relay.config.core.endpointMap.lookup "mail").map (·.url) =
                some (some "https://one") :=
      ⟨_, rfl, rfl, rfl, rfl⟩
    refine ⟨s, System.Reachable.run (.init bareReloads_init) hrun, ?_, ?_⟩
    · intro t ht
      have hmem := List.mem_map_of_mem (f := ReloadThread.target) ht
      rw [hidle] at hmem
      simpa using hmem
    · obtain ⟨registered, hreg, hregUrl⟩ := Option.map_eq_some_iff.1 hregistered
      obtain ⟨asked, hask, haskUrl⟩ := Option.map_eq_some_iff.1 hbaseline
      unfold BroughtTo
      rw [hreg, hask]
      intro heq
      have hurl := congrArg EndpointConfig.url (EndpointConfig.eq_iff.1 heq)
      rw [hregUrl] at hurl
      rw [hurl] at haskUrl
      exact absurd haskUrl (by decide)

/-- One reload after the other, over settings that are current. -/
theorem reloads_in_turn :
    (reloadConfig (some (.ok (loadedMail "https://one"))) bareRelay).2 =
        (reloadAndApply (fun _ => none) (.ok (loadedMail "https://one")) bareRelay).2 ∧
      ∃ s, reloads.system.runWhile sameTarget bareReloads
          (watcherLoads (loadedMail "https://one") ++ reloadSteps 0 9 ++
            managementLoads (loadedMail "https://two") ++ reloadSteps 1 8) = some s ∧
        (s.shared.registered "mail").map (·.url) = some (some "https://two") ∧
          ∀ name, BroughtTo s.shared.relay.config.core s.shared.registered name := by
  obtain ⟨s, hrun, hidle, hregistered⟩ :
      ∃ s, reloads.system.runWhile sameTarget bareReloads
          (watcherLoads (loadedMail "https://one") ++ reloadSteps 0 9 ++
            managementLoads (loadedMail "https://two") ++ reloadSteps 1 8) = some s ∧
        s.threads.map ReloadThread.target = [none, none] ∧
          (s.shared.registered "mail").map (·.url) = some (some "https://two") :=
    ⟨_, rfl, rfl, rfl⟩
  obtain ⟨hsame, hbaseline⟩ :=
    reload_paths_agree_iff (fun _ => none) (.ok (loadedMail "https://one")) bareRelay
  refine ⟨hsame.2 ?_, s, hrun, hregistered,
    hbaseline s (.run (fun _ _ h => h) (.init bareReloads_init) hrun) ?_⟩
  · intro l hl
    cases hl
    exact ⟨rfl, rfl, rfl, rfl⟩
  · intro t ht
    have hmem := List.mem_map_of_mem (f := ReloadThread.target) ht
    rw [hidle] at hmem
    simpa using hmem

end EndaraRelay
