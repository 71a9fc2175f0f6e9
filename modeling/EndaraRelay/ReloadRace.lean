import EndaraRelay.Lib.Transition
import EndaraRelay.ReloadEqualsColdStart

/-!
# Overlapping reloads

A reload leaves initializations behind that finish in any order, also after later reloads. When all
of them have finished, every endpoint should have the adapter the last config asks for, running
exactly when its entry is not disabled.

**The model.** The watcher works off the operations of a diff one `await` at a time; the
initializations it spawned and the enable and disable requests of the management API come in
between. `registrations` counts how often a name has been registered, and each initialization knows
the count of the registration it belongs to. The code keeps no such count: it installs by name.

**The slips.** An initialization that outlives a later registration of its name installs the adapter
of the older config over that of the newer one (`older_init_overwrites`). And it goes by the disabled
flag it captured when it was spawned, where its twin in `main.rs` asks the entry.

**When the latest config wins.** In every run where an initialization that finds an entry belongs to
the last registration of its name and finds the flag it captured, and where a reload keeps an
endpoint only if both configs build the same adapter for it, the adapters are those of the last
config (`latest_config_wins`).

The invariant is about one name at a time: `Aligned cfg s name` says that the entry of `name` matches
`cfg`, or will once its initialization has finished. The names a reload has still to work off are
aligned with the old config, all others with the new one.
-/

namespace EndaraRelay

open Verif

/-! ## The model -/

/-- What the watcher has still to do for one endpoint. -/
inductive ReloadOp where
  /-- `registry.remove`. -/
  | remove (name : String)
  /-- A changed endpoint, before its flags are captured. -/
  | change (name : String) (ep : EndpointConfig)
  /-- The flags are captured; the old entry is removed next. -/
  | replace (name : String) (ep : EndpointConfig) (flags : Flags)
  /-- The placeholder is registered next; `set` is whether its flags are set afterwards. -/
  | register (name : String) (ep : EndpointConfig) (flags : Flags) (set : Bool)
  /-- The flags of the new entry are set next. -/
  | setFlags (name : String) (ep : EndpointConfig) (flags : Flags)
  /-- The initialization is spawned next. -/
  | spawn (name : String) (ep : EndpointConfig) (flags : Flags)
deriving DecidableEq

def ReloadOp.subject : ReloadOp → String
  | .remove name | .change name _ | .replace name _ _ | .register name _ _ _ | .setFlags name _ _
  | .spawn name _ _ => name

/-- The operations of a diff, in the order of `apply_diff_graceful`. -/
def ConfigDiff.ops (diff : ConfigDiff) : List ReloadOp :=
  diff.removed.map .remove ++ (diff.changed.map (fun change => .change change.1 change.2) ++
    diff.added.map fun ep => .register ep.name ep (ep.disabled, ep.disabledTools)
      (ep.disabled || ep.disabledTools ≠ []))

/-- A spawned initialization, and which registration of its name it belongs to. -/
structure Initialization where
  task : InitTask
  registration : Nat
deriving DecidableEq

/-- A reload to `new` in progress. -/
structure Reloading where
  new : Config
  todo : List ReloadOp

/-- The registry, the config last applied, the reload in progress and the initializations that have
not finished. -/
structure ReloadRace where
  entries : ManagedEntries
  config : Config
  reloading : Option Reloading
  initializing : List Initialization
  registrations : String → Nat

inductive ReloadAction where
  /-- The watcher starts to apply a new config. -/
  | reload (new : Config)
  /-- The watcher goes on. -/
  | advance
  /-- An initialization finishes. -/
  | finish (i : Nat)
  | enableEndpoint (name : String)
  | disableEndpoint (name : String)

/-- Once its flags are set an endpoint is initialized, unless it has warnings. -/
def afterFlags (new : Config) (name : String) (ep : EndpointConfig) (flags : Flags) :
    Option ReloadOp :=
  if isWarned new.warnings name then none else some (.spawn name ep flags)

/-- The next step of the watcher for one endpoint, and what is left to do for it. -/
def ReloadOp.step (new : Config) (s : ReloadRace) : ReloadOp → ReloadRace × Option ReloadOp
  | .remove name => ({ s with entries := s.entries.erase name }, none)
  | .change name ep => (s, some (.replace name ep (keptFlags s.entries name ep)))
  | .replace name ep flags => ({ s with entries := s.entries.erase name }, some (.register name ep flags true))
  | .register name ep flags set =>
    ({ s with
      entries := s.entries.insert name (registeredAs ep (placeholder new.warnings ep))
      registrations := fun n => if n = name then s.registrations n + 1 else s.registrations n },
      if set then some (.setFlags name ep flags) else afterFlags new name ep flags)
  | .setFlags name ep flags =>
    ({ s with entries := s.entries.modify name (ManagedEntry.setFlags flags) },
      afterFlags new name ep flags)
  | .spawn name ep flags =>
    ({ s with
      initializing := s.initializing ++
        [⟨⟨name, ep, new.insecure, new.organizations, flags.1⟩, s.registrations name⟩] }, none)

/-- `disable_endpoint`: shut the adapter down and set the flag. -/
def ManagedEntry.disable (entry : ManagedEntry) : ManagedEntry :=
  { entry with adapter := { entry.adapter with running := false }, disabled := true }

/-- `enable_endpoint`: clear the flag and initialize the adapter. -/
def ManagedEntry.enable (entry : ManagedEntry) : ManagedEntry :=
  { entry with adapter := { entry.adapter with running := true }, disabled := false }

def ReloadRace.step (s : ReloadRace) : ReloadAction → Option ReloadRace
  | .reload new =>
    match s.reloading with
    | some _ => none
    | none => some { s with reloading := some ⟨new, (diffConfigs s.config new).ops⟩ }
  | .advance =>
    match s.reloading with
    | none => none
    | some ⟨new, []⟩ => some { s with config := new, reloading := none }
    | some ⟨new, op :: todo⟩ =>
      some { (op.step new s).1 with reloading := some ⟨new, (op.step new s).2.toList ++ todo⟩ }
  | .finish i =>
    match s.initializing[i]? with
    | none => none
    | some init =>
      some { s with
        entries := finishInit s.entries init.task
        initializing := s.initializing.eraseIdx i }
  | .enableEndpoint name => some { s with entries := s.entries.modify name ManagedEntry.enable }
  | .disableEndpoint name => some { s with entries := s.entries.modify name ManagedEntry.disable }

/-! ## What a config asks for -/

/-- The adapter a reload to `cfg` builds for an endpoint. -/
def Config.adapterFor (cfg : Config) (ep : EndpointConfig) : AdapterSpec :=
  match warningMessage cfg.warnings ep.name with
  | some msg => .failed msg ep.serverTypeOverride
  | none => createAdapter cfg.insecure cfg.organizations ep

/-- The adapter is the one of the config, and runs exactly when the entry is not disabled. (The
placeholder of an endpoint with warnings has nothing to run.) -/
structure EntryMatches (cfg : Config) (ep : EndpointConfig) (entry : ManagedEntry) : Prop where
  spec : entry.adapter.spec = cfg.adapterFor ep
  running : isWarned cfg.warnings ep.name = false → entry.adapter.running = !entry.disabled

/-- The registry has the endpoints of the config and no others, each with its adapter. -/
structure Matches (cfg : Config) (entries : ManagedEntries) : Prop where
  absent : ∀ name, cfg.endpointMap.lookup name = none ↔ entries.lookup name = none
  entry : ∀ name ep entry, cfg.endpointMap.lookup name = some ep →
    entries.lookup name = some entry → EntryMatches cfg ep entry

def reloadSystem : System ReloadRace ReloadAction where
  init s := Matches s.config s.entries ∧ s.reloading = none ∧ s.initializing = []
  step := ReloadRace.step

/-- No reload is in progress and every initialization has finished. -/
def ReloadRace.Quiescent (s : ReloadRace) : Prop := s.reloading = none ∧ s.initializing = []

/-- Both configs build the same adapter for an endpoint that the diff takes for unchanged. -/
def SameAdapter (old new : Config) (oldEp ep : EndpointConfig) : Prop :=
  old.adapterFor oldEp = new.adapterFor ep ∧
    isWarned old.warnings oldEp.name = isWarned new.warnings ep.name

/-- An initialization that finds an entry belongs to the last registration of its name and finds the
disabled flag it captured. A reload keeps an endpoint only if its adapter stays the same. -/
def NoOutdatedInstall (s : ReloadRace) : ReloadAction → Prop
  | .reload new => ∀ name oldEp ep, s.config.endpointMap.lookup name = some oldEp →
      new.endpointMap.lookup name = some ep → oldEp.eq ep = true → SameAdapter s.config new oldEp ep
  | .finish i => ∀ init entry, s.initializing[i]? = some init →
      s.entries.lookup init.task.name = some entry →
        init.registration = s.registrations init.task.name ∧ entry.disabled = init.task.wasDisabled
  | _ => True

/-! ## One name at a time -/

/-- What concerns one name: its entry, its initializations and its registrations. -/
def ReloadRace.at (s : ReloadRace) (name : String) :
    Option ManagedEntry × List Initialization × Nat :=
  (s.entries.lookup name, s.initializing.filter (fun init => init.task.name = name),
    s.registrations name)

/-- The initialization belongs to the last registration of the name. -/
def ReloadRace.Current (s : ReloadRace) (name : String) (init : Initialization) : Prop :=
  init ∈ s.initializing ∧ init.task.name = name ∧ init.registration = s.registrations name

/-- The entry of the name matches the config, or an initialization that will see to it is on its
way. Every initialization of the last registration will. -/
structure Aligned (cfg : Config) (s : ReloadRace) (name : String) : Prop where
  absent : cfg.endpointMap.lookup name = none ↔ s.entries.lookup name = none
  entry : ∀ ep entry, cfg.endpointMap.lookup name = some ep → s.entries.lookup name = some entry →
    EntryMatches cfg ep entry ∨ ∃ init, s.Current name init
  current : ∀ ep init, cfg.endpointMap.lookup name = some ep → s.entries.lookup name ≠ none →
    s.Current name init → isWarned cfg.warnings ep.name = false ∧ init.task.spec = cfg.adapterFor ep

/-- The placeholder of the endpoint is registered, and no initialization belongs to it yet. -/
structure Registered (new : Config) (s : ReloadRace) (name : String) (ep : EndpointConfig) :
    Prop where
  asked : new.endpointMap.lookup name = some ep
  entry : ∃ entry, s.entries.lookup name = some entry ∧
    entry.adapter.spec = placeholder new.warnings ep
  current : ∀ init, ¬ s.Current name init

/-- How far the reload is with the endpoint of an operation. -/
def Staged (new : Config) (s : ReloadRace) : ReloadOp → Prop
  | .remove name => new.endpointMap.lookup name = none ∧ Aligned s.config s name
  | .change name ep | .replace name ep _ =>
    new.endpointMap.lookup name = some ep ∧ Aligned s.config s name
  | .register name ep _ _ => new.endpointMap.lookup name = some ep ∧ s.entries.lookup name = none
  | .setFlags name ep _ => Registered new s name ep
  | .spawn name ep _ => Registered new s name ep ∧ isWarned new.warnings name = false

variable {s s' : ReloadRace} {name : String} {cfg new : Config} {ep : EndpointConfig}
  {op : ReloadOp}

theorem current_iff_of_at (h : s'.at name = s.at name) (init : Initialization) :
    s'.Current name init ↔ s.Current name init := by
  obtain ⟨-, h⟩ := Prod.ext_iff.1 h
  have hmem : ∀ s : ReloadRace, s.Current name init ↔
      init ∈ (s.at name).2.1 ∧ init.registration = (s.at name).2.2 := by
    intro s
    simp [ReloadRace.Current, ReloadRace.at, and_assoc]
  rw [hmem, hmem, h]

/-- What happens to other names does not matter. -/
theorem Aligned.of_at (h : s'.at name = s.at name) (ha : Aligned cfg s name) : Aligned cfg s' name := by
  have hentry : s'.entries.lookup name = s.entries.lookup name := (Prod.ext_iff.1 h).1
  refine ⟨?_, ?_, ?_⟩
  · rw [hentry]
    exact ha.absent
  · intro ep entry hep hl
    simp only [current_iff_of_at h]
    exact ha.entry ep entry hep (hentry ▸ hl)
  · intro ep init hep hl hcur
    exact ha.current ep init hep (hentry ▸ hl) ((current_iff_of_at h init).1 hcur)

theorem Registered.of_at (h : s'.at name = s.at name) (hr : Registered new s name ep) :
    Registered new s' name ep := by
  have hentry : s'.entries.lookup name = s.entries.lookup name := (Prod.ext_iff.1 h).1
  obtain ⟨entry, hl, hspec⟩ := hr.entry
  exact ⟨hr.asked, ⟨entry, hentry.trans hl, hspec⟩,
    fun init hc => hr.current init ((current_iff_of_at h init).1 hc)⟩

theorem Staged.of_at (h : s'.at op.subject = s.at op.subject) (hcfg : s'.config = s.config)
    (hs : Staged new s op) : Staged new s' op := by
  cases op with
  | remove name => exact ⟨hs.1, hcfg ▸ hs.2.of_at h⟩
  | change name ep => exact ⟨hs.1, hcfg ▸ hs.2.of_at h⟩
  | replace name ep flags => exact ⟨hs.1, hcfg ▸ hs.2.of_at h⟩
  | register name ep flags set => exact ⟨hs.1, (Prod.ext_iff.1 h).1.trans hs.2⟩
  | setFlags name ep flags => exact Registered.of_at h hs
  | spawn name ep flags => exact ⟨hs.1.of_at h, hs.2⟩

/-! ## Enable and disable -/

section Toggle

variable {s : ReloadRace} {m : String} {f : ManagedEntry → ManagedEntry}

/-- The edit keeps the adapter, and leaves it running exactly when the entry is not disabled. -/
def Toggles (f : ManagedEntry → ManagedEntry) : Prop :=
  ∀ entry, (f entry).adapter.spec = entry.adapter.spec ∧
    (f entry).adapter.running = !(f entry).disabled

theorem at_modify_ne (h : name ≠ m) :
    ({ s with entries := s.entries.modify m f } : ReloadRace).at name = s.at name := by
  simp only [ReloadRace.at, AList.lookup_modify_ne h]

theorem Aligned.toggle (hf : Toggles f) (ha : Aligned cfg s m) :
    Aligned cfg { s with entries := s.entries.modify m f } m := by
  refine ⟨?_, ?_, ?_⟩
  · simp only [AList.lookup_modify_self, Option.map_eq_none_iff]
    exact ha.absent
  · intro ep entry hep hl
    simp only [AList.lookup_modify_self] at hl
    obtain ⟨entry₀, hl₀, rfl⟩ := Option.map_eq_some_iff.1 hl
    refine (ha.entry ep entry₀ hep hl₀).imp_left fun hm => ?_
    exact ⟨(hf entry₀).1.trans hm.spec, fun _ => (hf entry₀).2⟩
  · intro ep init hep hl hcur
    refine ha.current ep init hep ?_ hcur
    simpa [AList.lookup_modify_self] using hl

theorem Registered.modify (hf : ∀ entry, (f entry).adapter.spec = entry.adapter.spec)
    (hr : Registered new s m ep) : Registered new { s with entries := s.entries.modify m f } m ep := by
  obtain ⟨entry, hl, hspec⟩ := hr.entry
  refine ⟨hr.asked, ⟨f entry, ?_, (hf entry).trans hspec⟩, hr.current⟩
  simp only [AList.lookup_modify_self, hl, Option.map_some]

theorem Staged.toggle (hf : Toggles f) (hop : op.subject = m) (hs : Staged new s op) :
    Staged new { s with entries := s.entries.modify m f } op := by
  subst hop
  cases op with
  | remove name => exact ⟨hs.1, hs.2.toggle hf⟩
  | change name ep => exact ⟨hs.1, hs.2.toggle hf⟩
  | replace name ep flags => exact ⟨hs.1, hs.2.toggle hf⟩
  | register name ep flags set =>
    refine ⟨hs.1, ?_⟩
    simp only [ReloadOp.subject, AList.lookup_modify_self, hs.2, Option.map_none]
  | setFlags name ep flags => exact Registered.modify (fun entry => (hf entry).1) hs
  | spawn name ep flags => exact ⟨hs.1.modify fun entry => (hf entry).1, hs.2⟩

theorem enable_toggles : Toggles ManagedEntry.enable := fun _ => ⟨rfl, rfl⟩

theorem disable_toggles : Toggles ManagedEntry.disable := fun _ => ⟨rfl, rfl⟩

end Toggle

/-! ## An initialization finishes -/

section Finish

variable {s : ReloadRace} {i : Nat} {init : Initialization}

/-- The state after the initialization has finished. -/
def ReloadRace.finished (s : ReloadRace) (i : Nat) (init : Initialization) : ReloadRace :=
  { s with
    entries := finishInit s.entries init.task
    initializing := s.initializing.eraseIdx i }

theorem Current.of_finished {other : Initialization} (h : (s.finished i init).Current name other) :
    s.Current name other :=
  ⟨List.mem_of_mem_eraseIdx h.1, h.2⟩

theorem at_finished_ne (hi : s.initializing[i]? = some init) (h : init.task.name ≠ name) :
    (s.finished i init).at name = s.at name := by
  have hfilter : (s.initializing.eraseIdx i).filter (fun other => other.task.name = name) =
      s.initializing.filter fun other => other.task.name = name :=
    filter_eraseIdx hi (by simpa using h)
  simp only [ReloadRace.at, ReloadRace.finished, hfilter, finishInit_lookup, h, decide_false,
    Bool.false_eq_true, if_false]

theorem lookup_finished (name : String) (h : init.task.name = name) :
    (s.finished i init).entries.lookup name =
      (s.entries.lookup name).map (ManagedEntry.finish init.task) := by
  simp only [ReloadRace.finished, finishInit_lookup, h, decide_true, if_true]

theorem Aligned.finish (hname : init.task.name = name) (hi : s.initializing[i]? = some init)
    (hok : NoOutdatedInstall s (.finish i)) (ha : Aligned cfg s name) :
    Aligned cfg (s.finished i init) name := by
  subst hname
  have hl' : (s.finished i init).entries.lookup init.task.name = _ := lookup_finished _ rfl
  refine ⟨?_, ?_, ?_⟩
  · rw [hl', Option.map_eq_none_iff]
    exact ha.absent
  · intro ep entry hep hl
    rw [hl'] at hl
    obtain ⟨entry₀, hl₀, rfl⟩ := Option.map_eq_some_iff.1 hl
    obtain ⟨hreg, hdisabled⟩ := hok init entry₀ hi hl₀
    have hcur : s.Current init.task.name init := ⟨List.mem_of_getElem? hi, rfl, hreg⟩
    obtain ⟨-, hspec⟩ := ha.current ep init hep (by simp [hl₀]) hcur
    refine .inl ⟨hspec, fun _ => ?_⟩
    show (!init.task.wasDisabled) = !entry₀.disabled
    rw [hdisabled]
  · intro ep other hep hl hcur
    refine ha.current ep other hep ?_ (Current.of_finished hcur)
    simpa [hl'] using hl

theorem Registered.finish (hname : init.task.name = name) (hi : s.initializing[i]? = some init)
    (hok : NoOutdatedInstall s (.finish i)) (hr : Registered new s name ep) :
    Registered new (s.finished i init) name ep := by
  subst hname
  obtain ⟨entry, hl, -⟩ := hr.entry
  exact absurd ⟨List.mem_of_getElem? hi, rfl, (hok init entry hi hl).1⟩ (hr.current init)

theorem Staged.finish (hname : init.task.name = op.subject) (hi : s.initializing[i]? = some init)
    (hok : NoOutdatedInstall s (.finish i)) (hs : Staged new s op) :
    Staged new (s.finished i init) op := by
  cases op with
  | remove name => exact ⟨hs.1, hs.2.finish hname hi hok⟩
  | change name ep => exact ⟨hs.1, hs.2.finish hname hi hok⟩
  | replace name ep flags => exact ⟨hs.1, hs.2.finish hname hi hok⟩
  | register name ep flags set =>
    refine ⟨hs.1, ?_⟩
    rw [lookup_finished name hname, hs.2]
    rfl
  | setFlags name ep flags => exact Registered.finish hname hi hok hs
  | spawn name ep flags => exact ⟨hs.1.finish hname hi hok, hs.2⟩

end Finish

/-! ## The watcher takes a step -/

theorem endpointMap_name (h : cfg.endpointMap.lookup name = some ep) : ep.name = name :=
  endpointMap_entry (AList.mem_entries_iff.2 h)

theorem ReloadOp.step_config (new : Config) (s : ReloadRace) (op : ReloadOp) :
    (op.step new s).1.config = s.config := by
  cases op <;> rfl

theorem ReloadOp.step_subject (new : Config) (s : ReloadRace) (op : ReloadOp) :
    ∀ next, (op.step new s).2 = some next → next.subject = op.subject := by
  have hafter {name : String} {ep : EndpointConfig} {flags : Flags} {next : ReloadOp}
      (h : afterFlags new name ep flags = some next) : next.subject = name := by
    unfold afterFlags at h
    split at h
    · cases h
    · cases h
      rfl
  intro next h
  cases op with
  | remove name => cases h
  | change name ep =>
    cases h
    rfl
  | replace name ep flags =>
    cases h
    rfl
  | register name ep flags set =>
    cases set with
    | true =>
      cases h
      rfl
    | false => exact hafter h
  | setFlags name ep flags => exact hafter h
  | spawn name ep flags => cases h

/-- A step of the watcher concerns one name. -/
theorem ReloadOp.step_at_ne (h : name ≠ op.subject) : (op.step new s).1.at name = s.at name := by
  cases op with
  | remove name' =>
    have hne : name ≠ name' := h
    simp only [step, ReloadRace.at, AList.lookup_erase_ne hne]
  | change name' ep => rfl
  | replace name' ep flags =>
    have hne : name ≠ name' := h
    simp only [step, ReloadRace.at, AList.lookup_erase_ne hne]
  | register name' ep flags set =>
    have hne : name ≠ name' := h
    simp only [step, ReloadRace.at, AList.lookup_insert_ne hne, if_neg hne]
  | setFlags name' ep flags => exact at_modify_ne h
  | spawn name' ep flags =>
    have hne : ¬ name' = name := fun e => h e.symm
    simp [step, ReloadRace.at, hne]

/-- What a step leaves behind for its endpoint: the next stage, or an entry that is aligned with the
new config. -/
def Advanced (new : Config) (s : ReloadRace) (name : String) (next : Option ReloadOp) : Prop :=
  match next with
  | some op => Staged new s op
  | none => Aligned new s name

/-- Registered with its flags: the endpoint is aligned if it has warnings, and waits to be spawned
otherwise. -/
theorem Registered.afterFlags (hr : Registered new s name ep) (flags : Flags) :
    Advanced new s name (afterFlags new name ep flags) := by
  unfold EndaraRelay.afterFlags
  obtain ⟨entry, hl, hspec⟩ := hr.entry
  obtain rfl : ep.name = name := endpointMap_name hr.asked
  split
  · next hwarned =>
    refine ⟨?_, ?_, ?_⟩
    · simp [hr.asked, hl]
    · intro ep' entry' hep hl'
      obtain rfl : ep = ep' := Option.some.inj (hr.asked.symm.trans hep)
      obtain rfl : entry = entry' := Option.some.inj (hl.symm.trans hl')
      refine .inl ⟨?_, fun h => absurd hwarned (by simp [h])⟩
      rw [hspec]
      unfold placeholder Config.adapterFor
      unfold isWarned at hwarned
      cases hw : warningMessage new.warnings ep.name with
      | none =>
        rw [hw] at hwarned
        cases hwarned
      | some msg => rfl
    · intro ep' init _ _ hcur
      exact absurd hcur (hr.current init)
  · next hwarned => exact ⟨hr, eq_false_of_ne_true hwarned⟩

theorem Staged.step {new : Config} {s : ReloadRace} {op : ReloadOp}
    (hbound : ∀ init ∈ s.initializing, init.registration ≤ s.registrations init.task.name)
    (hs : Staged new s op) : Advanced new (op.step new s).1 op.subject (op.step new s).2 := by
  cases op with
  | remove name =>
    obtain ⟨hnew, -⟩ := hs
    have hl : (s.entries.erase name).lookup name = none := AList.lookup_erase _ _
    exact ⟨iff_of_true hnew hl, fun ep _ hep => (nomatch hnew.symm.trans hep),
      fun ep _ hep => (nomatch hnew.symm.trans hep)⟩
  | change name ep => exact hs
  | replace name ep flags => exact ⟨hs.1, AList.lookup_erase _ _⟩
  | register name ep flags set =>
    have hr : Registered new ((ReloadOp.register name ep flags set).step new s).1 name ep := by
      refine ⟨hs.1, ⟨_, AList.lookup_insert _, rfl⟩, ?_⟩
      rintro init ⟨hmem, rfl, hreg⟩
      have hle := hbound init hmem
      have heq : init.registration = s.registrations init.task.name + 1 := by
        simpa [ReloadOp.step] using hreg
      omega
    cases set with
    | true => exact hr
    | false => exact hr.afterFlags flags
  | setFlags name ep flags =>
    exact (Registered.modify (f := ManagedEntry.setFlags flags) (fun _ => rfl) hs).afterFlags flags
  | spawn name ep flags =>
    obtain ⟨hr, hwarned⟩ := hs
    obtain ⟨entry, hl, -⟩ := hr.entry
    obtain rfl : ep.name = name := endpointMap_name hr.asked
    have hnew : ((ReloadOp.spawn ep.name ep flags).step new s).1.Current ep.name
        ⟨⟨ep.name, ep, new.insecure, new.organizations, flags.1⟩, s.registrations ep.name⟩ :=
      ⟨List.mem_append_right _ (List.mem_singleton_self _), rfl, rfl⟩
    refine ⟨?_, fun ep' entry' hep hl' => .inr ⟨_, hnew⟩, ?_⟩
    · simp [ReloadOp.step, ReloadOp.subject, hr.asked, hl]
    · intro ep' init hep _ hcur
      obtain rfl : ep = ep' := Option.some.inj (hr.asked.symm.trans hep)
      refine ⟨hwarned, ?_⟩
      obtain ⟨hmem, hcur⟩ := hcur
      rcases List.mem_append.1 hmem with hold | hself
      · exact absurd ⟨hold, hcur⟩ (hr.current init)
      · rw [List.mem_singleton.1 hself]
        unfold Config.adapterFor
        cases hw : warningMessage new.warnings ep.name with
        | none => rfl
        | some msg =>
          rw [isWarned, hw] at hwarned
          cases hwarned

/-! ## The invariant -/

structure ReloadInv (s : ReloadRace) : Prop where
  registered : ∀ init ∈ s.initializing, init.registration ≤ s.registrations init.task.name
  idle : s.reloading = none → ∀ name, Aligned s.config s name
  todo : ∀ new todo, s.reloading = some ⟨new, todo⟩ → ∀ op ∈ todo, Staged new s op
  subjects : ∀ new todo, s.reloading = some ⟨new, todo⟩ → (todo.map ReloadOp.subject).Nodup
  others : ∀ new todo, s.reloading = some ⟨new, todo⟩ →
    ∀ name, name ∉ todo.map ReloadOp.subject → Aligned new s name

/-- A step that concerns one name, keeps the stages of that name and spawns nothing. -/
theorem ReloadInv.local_step {m : String} (hinv : ReloadInv s)
    (hreg : s'.registrations = s.registrations)
    (hinit : ∀ init ∈ s'.initializing, init ∈ s.initializing) (hcfg : s'.config = s.config)
    (hreloading : s'.reloading = s.reloading) (hat : ∀ name, name ≠ m → s'.at name = s.at name)
    (haligned : ∀ cfg, Aligned cfg s m → Aligned cfg s' m)
    (hstaged : ∀ new op, op.subject = m → Staged new s op → Staged new s' op) : ReloadInv s' := by
  have hall (cfg : Config) (name : String) (ha : Aligned cfg s name) : Aligned cfg s' name := by
    by_cases h : name = m
    · subst h
      exact haligned cfg ha
    · exact ha.of_at (hat name h)
  refine ⟨?_, ?_, ?_, ?_, ?_⟩
  · intro init hmem
    rw [hreg]
    exact hinv.registered init (hinit init hmem)
  · intro h name
    rw [hreloading] at h
    rw [hcfg]
    exact hall _ name (hinv.idle h name)
  · intro new todo h op hop
    rw [hreloading] at h
    have hs := hinv.todo new todo h op hop
    by_cases hm : op.subject = m
    · exact hstaged new op hm hs
    · exact hs.of_at (hat _ hm) hcfg
  · intro new todo h
    rw [hreloading] at h
    exact hinv.subjects new todo h
  · intro new todo h name hname
    rw [hreloading] at h
    exact hall new name (hinv.others new todo h name hname)

theorem ReloadInv.toggle (hinv : ReloadInv s) {f : ManagedEntry → ManagedEntry} (hf : Toggles f)
    (name : String) : ReloadInv { s with entries := s.entries.modify name f } :=
  hinv.local_step rfl (fun _ h => h) rfl rfl (fun _ h => at_modify_ne h)
    (fun _ ha => ha.toggle hf) fun _ _ hop hs => hs.toggle hf hop

theorem ReloadInv.finish (hinv : ReloadInv s) {i : Nat} {init : Initialization}
    (hi : s.initializing[i]? = some init) (hok : NoOutdatedInstall s (.finish i)) :
    ReloadInv (s.finished i init) :=
  hinv.local_step rfl (fun _ h => List.mem_of_mem_eraseIdx h) rfl rfl
    (fun _ h => at_finished_ne hi h.symm) (fun _ ha => ha.finish rfl hi hok)
    fun _ _ hop hs => hs.finish hop.symm hi hok

theorem ReloadOp.step_registered
    (hbound : ∀ init ∈ s.initializing, init.registration ≤ s.registrations init.task.name) :
    ∀ init ∈ (op.step new s).1.initializing,
      init.registration ≤ (op.step new s).1.registrations init.task.name := by
  intro init hmem
  cases op with
  | remove name => exact hbound init hmem
  | change name ep => exact hbound init hmem
  | replace name ep flags => exact hbound init hmem
  | register name ep flags set =>
    refine (hbound init hmem).trans ?_
    show _ ≤ if init.task.name = name then _ else _
    split
    · omega
    · exact Nat.le_refl _
  | setFlags name ep flags => exact hbound init hmem
  | spawn name ep flags =>
    rcases List.mem_append.1 hmem with hold | hself
    · exact hbound init hold
    · rw [List.mem_singleton.1 hself]
      exact Nat.le_refl _

/-- The watcher takes a step for the endpoint at the head of its list. -/
theorem ReloadInv.advance (hinv : ReloadInv s) {todo : List ReloadOp}
    (hreloading : s.reloading = some ⟨new, op :: todo⟩) :
    ReloadInv { (op.step new s).1 with
      reloading := some ⟨new, (op.step new s).2.toList ++ todo⟩ } := by
  have hstaged := hinv.todo new _ hreloading
  have hnodup := hinv.subjects new _ hreloading
  have hothers := hinv.others new _ hreloading
  rw [List.map_cons, List.nodup_cons] at hnodup
  have hadv : Advanced new (op.step new s).1 op.subject (op.step new s).2 :=
    (hstaged op List.mem_cons_self).step hinv.registered
  -- the operations for the other endpoints are where they were
  have hrest : ∀ op' ∈ todo, Staged new (op.step new s).1 op' := by
    intro op' hop'
    have hne : op'.subject ≠ op.subject := by
      intro h
      exact hnodup.1 (h ▸ List.mem_map_of_mem hop')
    exact (hstaged op' (List.mem_cons_of_mem _ hop')).of_at (ReloadOp.step_at_ne hne)
      (op.step_config new s)
  have hother (name : String) (h : name ≠ op.subject) (hname : name ∉ todo.map ReloadOp.subject) :
      Aligned new (op.step new s).1 name := by
    refine (hothers name ?_).of_at (ReloadOp.step_at_ne h)
    rw [List.map_cons, List.mem_cons]
    exact fun hmem => hmem.elim h hname
  refine ⟨ReloadOp.step_registered hinv.registered, fun h => (nomatch h), ?_, ?_, ?_⟩
  · rintro _ _ ⟨rfl, rfl⟩ op' hop'
    refine Staged.of_at (s := (op.step new s).1) rfl rfl ?_
    rcases List.mem_append.1 hop' with hnext | hold
    · rw [Option.mem_toList] at hnext
      rw [hnext] at hadv
      exact hadv
    · exact hrest op' hold
  · rintro _ _ ⟨rfl, rfl⟩
    cases hnext : (op.step new s).2 with
    | none => exact hnodup.2
    | some next =>
      rw [Option.toList_some, List.singleton_append, List.map_cons, List.nodup_cons,
        op.step_subject new s next hnext]
      exact hnodup
  · rintro _ _ ⟨rfl, rfl⟩ name hname
    refine Aligned.of_at (s := (op.step new s).1) rfl ?_
    rw [List.map_append, List.mem_append] at hname
    by_cases h : name = op.subject
    · subst h
      cases hnext : (op.step new s).2 with
      | none =>
        rw [hnext] at hadv
        exact hadv
      | some next =>
        rw [hnext] at hname
        exact absurd (.inl (by simp [op.step_subject new s next hnext])) hname
    · exact hother name h fun hmem => hname (.inr hmem)

/-! ## A reload starts -/

theorem mem_endpointsWith {p : String → EndpointConfig → Bool} :
    ep ∈ cfg.endpointsWith p ↔ cfg.endpointMap.lookup ep.name = some ep ∧ p ep.name ep = true := by
  have h := find?_key_eq_some_iff (endpointsWith_nodup cfg p) (k := ep.name) (x := ep)
  rw [find?_endpointsWith, Option.filter_eq_some_iff] at h
  rw [h]
  exact ⟨fun hmem => ⟨hmem, rfl⟩, And.left⟩

theorem ops_subjects (old new : Config) :
    (diffConfigs old new).ops.map ReloadOp.subject =
      (diffConfigs old new).removed ++ ((new.endpointsWith (isChanged old)).map (·.name) ++
        (new.endpointsWith fun name _ => isAdded old name).map (·.name)) := by
  rw [ConfigDiff.ops, diffConfigs_changed, diffConfigs_added]
  simp only [List.map_append, List.map_map]
  congr 1
  exact List.map_id _

theorem ops_nodup (old new : Config) : ((diffConfigs old new).ops.map ReloadOp.subject).Nodup := by
  rw [ops_subjects]
  refine List.Nodup.append ?_ (List.Nodup.append (endpointsWith_nodup _ _) (endpointsWith_nodup _ _) ?_)
    ?_
  · exact old.endpointMap.nodupKeys.filter _
  · intro name hchanged hadded
    obtain ⟨ep, hep, rfl⟩ := List.mem_map.1 hchanged
    obtain ⟨ep', hep', hname⟩ := List.mem_map.1 hadded
    have hc := (mem_endpointsWith.1 hep).2
    have ha := (mem_endpointsWith.1 hep').2
    rw [hname] at ha
    unfold isAdded at ha
    unfold isChanged at hc
    rw [Option.isNone_iff_eq_none.1 ha] at hc
    cases hc
  · intro name hremoved hmem
    have hnone := (mem_diffConfigs_removed.1 hremoved).2
    rcases List.mem_append.1 hmem with hmem | hmem
    · obtain ⟨ep, hep, rfl⟩ := List.mem_map.1 hmem
      cases hnone.symm.trans (mem_endpointsWith.1 hep).1
    · obtain ⟨ep, hep, rfl⟩ := List.mem_map.1 hmem
      cases hnone.symm.trans (mem_endpointsWith.1 hep).1

/-- An endpoint whose adapter stays the same is aligned with both configs. -/
theorem Aligned.keep {old new : Config} {oldEp ep : EndpointConfig} (ha : Aligned old s name)
    (hold : old.endpointMap.lookup name = some oldEp) (hnew : new.endpointMap.lookup name = some ep)
    (hsame : SameAdapter old new oldEp ep) : Aligned new s name := by
  refine ⟨?_, ?_, ?_⟩
  · rw [← ha.absent, hold, hnew]
    simp
  · intro ep' entry hep hl
    obtain rfl : ep = ep' := Option.some.inj (hnew.symm.trans hep)
    refine (ha.entry oldEp entry hold hl).imp_left fun hm => ⟨hm.spec.trans hsame.1, fun h => ?_⟩
    exact hm.running (hsame.2.trans h)
  · intro ep' init hep hl hcur
    obtain rfl : ep = ep' := Option.some.inj (hnew.symm.trans hep)
    obtain ⟨hwarned, hspec⟩ := ha.current oldEp init hold hl hcur
    exact ⟨hsame.2.symm.trans hwarned, hspec.trans hsame.1⟩

/-- An endpoint of neither config is aligned with both. -/
theorem Aligned.absent_both {old new : Config} (ha : Aligned old s name)
    (hold : old.endpointMap.lookup name = none) (hnew : new.endpointMap.lookup name = none) :
    Aligned new s name :=
  ⟨iff_of_true hnew (ha.absent.1 hold), fun _ _ hep => (nomatch hnew.symm.trans hep),
    fun _ _ hep => (nomatch hnew.symm.trans hep)⟩

theorem ReloadInv.reload (hinv : ReloadInv s) (hidle : s.reloading = none)
    (hok : NoOutdatedInstall s (.reload new)) :
    ReloadInv { s with reloading := some ⟨new, (diffConfigs s.config new).ops⟩ } := by
  have haligned := hinv.idle hidle
  refine ⟨hinv.registered, fun h => (nomatch h), ?_, ?_, ?_⟩
  · rintro _ _ ⟨rfl, rfl⟩ op hop
    refine Staged.of_at (s := s) rfl rfl ?_
    rw [ConfigDiff.ops, diffConfigs_changed, diffConfigs_added] at hop
    rcases List.mem_append.1 hop with hop | hop
    · obtain ⟨name, hname, rfl⟩ := List.mem_map.1 hop
      exact ⟨(mem_diffConfigs_removed.1 hname).2, haligned name⟩
    · rcases List.mem_append.1 hop with hop | hop
      · obtain ⟨change, hchange, rfl⟩ := List.mem_map.1 hop
        obtain ⟨ep, hep, rfl⟩ := List.mem_map.1 hchange
        exact ⟨(mem_endpointsWith.1 hep).1, haligned ep.name⟩
      · obtain ⟨ep, hep, rfl⟩ := List.mem_map.1 hop
        obtain ⟨hnew, hadded⟩ := mem_endpointsWith.1 hep
        exact ⟨hnew, (haligned ep.name).absent.1 (Option.isNone_iff_eq_none.1 hadded)⟩
  · rintro _ _ ⟨rfl, rfl⟩
    exact ops_nodup s.config new
  · rintro _ _ ⟨rfl, rfl⟩ name hname
    refine Aligned.of_at (s := s) rfl ?_
    rw [ops_subjects, List.mem_append, List.mem_append, not_or, not_or] at hname
    obtain ⟨hremoved, hchanged, hadded⟩ := hname
    cases hnew : new.endpointMap.lookup name with
    | none =>
      cases hold : s.config.endpointMap.lookup name with
      | none => exact (haligned name).absent_both hold hnew
      | some oldEp => exact absurd (mem_diffConfigs_removed.2 ⟨by simp [hold], hnew⟩) hremoved
    | some ep =>
      obtain rfl : ep.name = name := endpointMap_name hnew
      cases hold : s.config.endpointMap.lookup ep.name with
      | none =>
        have hmem : ep ∈ new.endpointsWith fun name _ => isAdded s.config name :=
          mem_endpointsWith.2 ⟨hnew, by simp [isAdded, hold]⟩
        exact absurd (List.mem_map_of_mem hmem) hadded
      | some oldEp =>
        by_cases heq : oldEp.eq ep = true
        · exact (haligned ep.name).keep hold hnew (hok ep.name oldEp ep hold hnew heq)
        · have hmem : ep ∈ new.endpointsWith (isChanged s.config) :=
            mem_endpointsWith.2 ⟨hnew, by simp [isChanged, hold, heq]⟩
          exact absurd (List.mem_map_of_mem hmem) hchanged

/-! ## Runs -/

theorem reloadInv_run (h : reloadSystem.ReachableWhile NoOutdatedInstall s) : ReloadInv s := by
  refine h.invariant ?_ ?_
  · rintro s ⟨hmatches, hidle, hinit⟩
    have hbusy {r : Reloading} (h : s.reloading = some r) : False := by
      rw [hidle] at h
      cases h
    refine ⟨?_, ?_, fun _ _ h => (hbusy h).elim, fun _ _ h => (hbusy h).elim,
      fun _ _ h => (hbusy h).elim⟩
    · intro init hmem
      rw [hinit] at hmem
      cases hmem
    · intro _ name
      refine ⟨hmatches.absent name, fun ep entry hep hl => .inl (hmatches.entry name ep entry hep hl),
        ?_⟩
      rintro ep init hep hl ⟨hmem, -⟩
      rw [hinit] at hmem
      cases hmem
  · intro s a s' hinv hok hst
    cases a with
    | reload new =>
      cases hidle : s.reloading with
      | none =>
        simp only [reloadSystem, ReloadRace.step, hidle] at hst
        cases hst
        exact hinv.reload hidle hok
      | some r =>
        simp only [reloadSystem, ReloadRace.step, hidle] at hst
        cases hst
    | advance =>
      cases hr : s.reloading with
      | none =>
        simp only [reloadSystem, ReloadRace.step, hr] at hst
        cases hst
      | some r =>
        obtain ⟨new, todo⟩ := r
        cases todo with
        | nil =>
          simp only [reloadSystem, ReloadRace.step, hr] at hst
          cases hst
          have hothers := hinv.others new [] hr
          refine ⟨hinv.registered, fun _ name => ?_, fun _ _ h => (nomatch h), fun _ _ h => (nomatch h),
            fun _ _ h => (nomatch h)⟩
          exact Aligned.of_at (s := s) rfl (hothers name List.not_mem_nil)
        | cons op todo =>
          simp only [reloadSystem, ReloadRace.step, hr] at hst
          cases hst
          exact hinv.advance hr
    | finish i =>
      cases hi : s.initializing[i]? with
      | none =>
        simp only [reloadSystem, ReloadRace.step, hi] at hst
        cases hst
      | some init =>
        simp only [reloadSystem, ReloadRace.step, hi] at hst
        cases hst
        exact hinv.finish hi hok
    | enableEndpoint name =>
      cases hst
      exact hinv.toggle enable_toggles name
    | disableEndpoint name =>
      cases hst
      exact hinv.toggle disable_toggles name

/-- **The latest config wins**, in every run without outdated installations: once all initializations
have finished the registry has the endpoints of the last applied config and no others, each with the
adapter that config asks for, running exactly when its entry is not disabled. -/
theorem latest_config_wins {s : ReloadRace} (h : reloadSystem.ReachableWhile NoOutdatedInstall s)
    (hq : s.Quiescent) : Matches s.config s.entries := by
  have haligned := (reloadInv_run h).idle hq.1
  refine ⟨fun name => (haligned name).absent, fun name ep entry hep hl => ?_⟩
  rcases (haligned name).entry ep entry hep hl with hm | ⟨init, hmem, -⟩
  · exact hm
  · rw [hq.2] at hmem
    cases hmem

/-! ## Outdated installations -/

/-- One endpoint at a URL. -/
def mailConfig (url : String) : Config where
  allowInsecureOauth := none
  endpoints := [{ name := "mail", transport := .http, url := some url }]
  organizations := []

def emptyRace : ReloadRace := ⟨∅, ⟨none, [], []⟩, none, [], fun _ => 0⟩

theorem emptyRace_init : reloadSystem.init emptyRace :=
  ⟨⟨fun _ => iff_of_true rfl rfl, fun _ _ _ hep => (nomatch hep)⟩, rfl, rfl⟩

/-- The watcher takes `n` steps. -/
def advances (n : Nat) : List ReloadAction := List.replicate n .advance

/-- The endpoint is added, its URL is changed, and the initialization of the first URL finishes after
that of the second. -/
def overwriteRun : List ReloadAction :=
  .reload (mailConfig "https://one") :: advances 3 ++
  .reload (mailConfig "https://two") :: advances 6 ++ [.finish 1, .finish 0]

/-- The endpoint is added, and disabled before its initialization finishes. -/
def disableRun : List ReloadAction :=
  .reload (mailConfig "https://one") :: advances 3 ++ [.disableEndpoint "mail", .finish 0]

def overwriteState : ReloadRace := (reloadSystem.run emptyRace overwriteRun).getD emptyRace

def disableState : ReloadRace := (reloadSystem.run emptyRace disableRun).getD emptyRace

theorem run_overwriteRun : reloadSystem.run emptyRace overwriteRun = some overwriteState := rfl

theorem run_disableRun : reloadSystem.run emptyRace disableRun = some disableState := rfl

/-- The adapter of the first URL is installed under the config of the second; and an adapter is left
running though its entry is disabled. -/
theorem outdated_installs :
    (∃ s, reloadSystem.Reachable s ∧ s.Quiescent ∧ s.config = mailConfig "https://two" ∧
      (s.entries.lookup "mail").map (·.adapter.spec) =
        some (.http "https://one" [] none "mail" false) ∧ ¬ Matches s.config s.entries) ∧
    ∃ s, reloadSystem.Reachable s ∧ s.Quiescent ∧
      (s.entries.lookup "mail").map (fun entry => (entry.disabled, entry.adapter.running)) =
        some (true, true) ∧ ¬ Matches s.config s.entries := by
  have hreach := System.Reachable.init emptyRace_init
  refine ⟨⟨overwriteState, hreach.run run_overwriteRun, ⟨rfl, rfl⟩, rfl, rfl, fun h => ?_⟩,
    ⟨disableState, hreach.run run_disableRun, ⟨rfl, rfl⟩, rfl, fun h => ?_⟩⟩
  · have hm := h.entry "mail" _ _ rfl rfl
    exact absurd hm.spec (by decide)
  · have hm := h.entry "mail" _ _ rfl rfl
    exact absurd (hm.running rfl) (by decide)

/-- A check of the guard. -/
def noOutdatedInstall (s : ReloadRace) : ReloadAction → Bool
  | .reload new => new.endpointMap.entries.all fun e =>
    match s.config.endpointMap.lookup e.1 with
    | none => true
    | some oldEp => !oldEp.eq e.2 || (s.config.adapterFor oldEp == new.adapterFor e.2 &&
        isWarned s.config.warnings oldEp.name == isWarned new.warnings e.2.name)
  | .finish i =>
    match s.initializing[i]? with
    | none => true
    | some init =>
      match s.entries.lookup init.task.name with
      | none => true
      | some entry => init.registration == s.registrations init.task.name &&
          entry.disabled == init.task.wasDisabled
  | _ => true

theorem noOutdatedInstall_of_check (s : ReloadRace) (a : ReloadAction)
    (h : noOutdatedInstall s a = true) : NoOutdatedInstall s a := by
  cases a with
  | reload new =>
    intro name oldEp ep hold hnew heq
    have hcheck := List.all_eq_true.1 h ⟨name, ep⟩ (AList.mem_entries_iff.2 hnew)
    rw [hold] at hcheck
    simpa [heq, SameAdapter] using hcheck
  | finish i =>
    intro init entry hi hl
    simpa [noOutdatedInstall, hi, hl] using h
  | advance => trivial
  | enableEndpoint name => trivial
  | disableEndpoint name => trivial

/-- The same changes, each initialization finished before the next change. -/
def orderlyRun : List ReloadAction :=
  .reload (mailConfig "https://one") :: advances 3 ++
  .finish 0 :: .reload (mailConfig "https://two") :: advances 6 ++
  [.finish 0, .disableEndpoint "mail"]

def orderlyState : ReloadRace :=
  (reloadSystem.runWhile noOutdatedInstall emptyRace orderlyRun).getD emptyRace

/-- The adapter of the second URL is installed, and it is shut down with its entry. -/
theorem orderly_run_matches :
    (orderlyState.entries.lookup "mail").map (·.adapter) =
        some ⟨.http "https://two" [] none "mail" false, false⟩ ∧
      Matches orderlyState.config orderlyState.entries := by
  have hrun : reloadSystem.runWhile noOutdatedInstall emptyRace orderlyRun = some orderlyState := rfl
  exact ⟨rfl, latest_config_wins
    ((System.ReachableWhile.init emptyRace_init).run noOutdatedInstall_of_check hrun) ⟨rfl, rfl⟩⟩

end EndaraRelay
