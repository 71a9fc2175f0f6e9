import EndaraRelay.Lib.Pool
import EndaraRelay.ReloadPaths

/-!
# Who has an adapter

An adapter that was built and initialized has processes, connections and tasks of its own. It should be
installed under its name or have been shut down, and the adapter of a disabled entry should not run.

**The model.** An adapter is a value that is moved, as a `Box<dyn McpAdapter>` is: it is in the entry of a
name, with the task that has taken or built it, or it has been discarded, and then nobody will ever shut it
down again. Restarts, enabling and disabling requests, deletions and reloads are threads that interleave at
every `await`; the watcher's initializations are threads that a reload spawns. `delete_endpoint` only
rewrites the file, and what the reloads that follow load is up to the environment.

**The slips.** `restart_endpoint` builds its adapter outside the lock and installs it by name. It looks
neither at whether the entry is still there, nor at what it has in the meantime, nor at the disabled flag,
which the watcher's initializations do look at, as it was when they were spawned.

**Theorem (`adapters_owned`).** In every run whose steps are `inPlace` every adapter is installed under its
name or has been shut down once all operations have finished, and no disabled entry has one that runs.

`number_kept` says that no adapter is lost sight of, in any run; `Sound` says in which condition those are
that are installed and those that were discarded.
-/

namespace EndaraRelay

open Verif

/-! ## Adapters and entries -/

/-- An adapter that was built. It runs when it was initialized and not shut down since. -/
structure BuiltAdapter where
  number : Nat
  endpoint : EndpointConfig
  running : Bool

namespace BuiltAdapter

def shutdown (a : BuiltAdapter) : BuiltAdapter := { a with running := false }

def started (a : BuiltAdapter) : BuiltAdapter := { a with running := true }

end BuiltAdapter

/-- An entry of the registry. It has no built adapter while it has a `StartingAdapter` or a
`FailedAdapter`. -/
structure OwnedEntry where
  adapter : Option BuiltAdapter
  flags : Flags

/-- `enable_endpoint`: clear the flag and initialize the adapter, with success or not. -/
def OwnedEntry.enable (ok : Bool) (entry : OwnedEntry) : OwnedEntry where
  adapter := if ok then entry.adapter.map BuiltAdapter.started else entry.adapter
  flags := (false, entry.flags.2)

/-- `disable_endpoint`: shut the adapter down and set the flag. -/
def OwnedEntry.disable (entry : OwnedEntry) : OwnedEntry where
  adapter := entry.adapter.map BuiltAdapter.shutdown
  flags := (true, entry.flags.2)

/-- The registry, the published config, how many adapters were built, and those that were discarded. -/
structure AdapterOwners where
  entries : Table String OwnedEntry
  config : Config
  built : Nat
  discarded : List BuiltAdapter

namespace AdapterOwners

variable (sh : AdapterOwners)

def adapterAt (name : String) : Option BuiltAdapter := (sh.entries.lookup name).bind OwnedEntry.adapter

def setEntry (name : String) (entry : OwnedEntry) : AdapterOwners :=
  { sh with entries := sh.entries.insert name entry }

/-- What goes out of scope. -/
def discard (a : Option BuiltAdapter) : AdapterOwners :=
  { sh with discarded := sh.discarded ++ a.toList }

/-- `entry.adapter = new`: the adapter that was there goes out of scope. -/
def replaceAdapter (name : String) (entry : OwnedEntry) (new : Option BuiltAdapter) : AdapterOwners :=
  (sh.setEntry name { entry with adapter := new }).discard entry.adapter

/-- The adapter that a task has built is put into the entry of the name, if it is still there, and shut down
there when `stop` says so. -/
def install (name : String) (new : Option BuiltAdapter) (stop : Bool) : AdapterOwners :=
  match sh.entries.lookup name with
  | none => sh.discard new
  | some entry => sh.replaceAdapter name entry (if stop then new.map BuiltAdapter.shutdown else new)

/-- `create_adapter` has returned, with a real adapter or a failed one. -/
def create (real : Bool) : AdapterOwners := if real then { sh with built := sh.built + 1 } else sh

/-- What `create_adapter` returns. -/
def created (ep : EndpointConfig) (real : Bool) : Option BuiltAdapter :=
  if real then some ⟨sh.built, ep, true⟩ else none

/-- `registry.remove`, the entry handed to the caller. -/
def remove (name : String) : AdapterOwners := { sh with entries := sh.entries.erase name }

/-- `registry.register` of a placeholder: the entry that was there goes out of scope. -/
def register (name : String) : AdapterOwners :=
  (sh.setEntry name ⟨none, (false, [])⟩).discard (sh.adapterAt name)

def setFlags (name : String) (flags : Flags) : AdapterOwners :=
  { sh with entries := sh.entries.modify name fun entry => { entry with flags := flags } }

/-- The flags of the entry, or those of the endpoint. -/
def keptFlags (name : String) (ep : EndpointConfig) : Flags :=
  match sh.entries.lookup name with
  | some entry => entry.flags
  | none => (ep.disabled, ep.disabledTools)

end AdapterOwners

/-! ## The operations -/

inductive OwnerOp where
  | restart (name : String)
  | enable (name : String)
  | disable (name : String)
  | delete (name : String)
  | reload (load : Except String LoadedConfig)

/-- Where an operation is. -/
inductive OwnerPc where
  | restart (name : String)
  /-- The placeholder is in; the previous adapter is shut down next. -/
  | restartStop (name : String) (old : Option BuiltAdapter)
  /-- The config is read next. -/
  | restartRead (name : String) (old : Option BuiltAdapter)
  /-- The adapter of the configured endpoint is built next. -/
  | restartBuild (name : String) (ep : EndpointConfig)
  /-- The endpoint is not in the config: the previous adapter is initialized again next. -/
  | restartAgain (name : String) (old : Option BuiltAdapter)
  | restartInstall (name : String) (new : Option BuiltAdapter)
  | enable (name : String)
  | disable (name : String)
  | delete (name : String)
  /-- The file is loaded; the published config is read next. -/
  | loaded (l : LoadedConfig)
  | applying (l : LoadedConfig) (todo : List ReloadOp)
  /-- An entry is removed; its adapter is shut down next. -/
  | retiring (old : Option BuiltAdapter) (l : LoadedConfig) (todo : List ReloadOp)
  /-- A spawned initialization, with the disabled flag it captured. -/
  | initBuild (name : String) (ep : EndpointConfig) (wasDisabled : Bool)
  | initInstall (name : String) (new : Option BuiltAdapter) (wasDisabled : Bool)
  | done

/-- Where an operation starts. A load that fails changes nothing. -/
def OwnerOp.pc : OwnerOp → OwnerPc
  | .restart name => .restart name
  | .enable name => .enable name
  | .disable name => .disable name
  | .delete name => .delete name
  | .reload (.ok l) => .loaded l
  | .reload (.error _) => .done

namespace OwnerPc

/-- One operation of a reload. -/
def applyOp (sh : AdapterOwners) (l : LoadedConfig) (todo : List ReloadOp) :
    ReloadOp → AdapterOwners × OwnerPc × List OwnerPc
  | .remove name => (sh.remove name, .retiring (sh.adapterAt name) l todo, [])
  | .change name ep => (sh, .applying l (.replace name ep (sh.keptFlags name ep) :: todo), [])
  | .replace name ep flags =>
    (sh.remove name, .retiring (sh.adapterAt name) l (.register name ep flags true :: todo), [])
  | .register name ep flags set =>
    (sh.register name, .applying l ((if set then some (.setFlags name ep flags)
      else l.inputs.afterFlags name ep flags).toList ++ todo), [])
  | .setFlags name ep flags =>
    (sh.setFlags name flags, .applying l ((l.inputs.afterFlags name ep flags).toList ++ todo), [])
  | .spawn name ep flags => (sh, .applying l todo, [.initBuild name ep flags.1])

/-- What a thread does next. The choice says whether a handshake comes about. -/
def step (sh : AdapterOwners) (ok : Bool) : OwnerPc → Option (AdapterOwners × OwnerPc × List OwnerPc)
  | .restart name =>
    match sh.entries.lookup name with
    | none => some (sh, .done, [])
    | some entry =>
      some (sh.setEntry name { entry with adapter := none }, .restartStop name entry.adapter, [])
  | .restartStop name old => some (sh, .restartRead name (old.map BuiltAdapter.shutdown), [])
  | .restartRead name old =>
    match sh.config.endpoints.find? fun ep => ep.name = name with
    | some ep => some (sh.discard old, .restartBuild name ep, [])
    | none => some (sh, .restartAgain name old, [])
  | .restartBuild name ep => some (sh.create ok, .restartInstall name (sh.created ep ok), [])
  | .restartAgain name old =>
    if ok then some (sh, .restartInstall name (old.map BuiltAdapter.started), [])
    else some (sh.discard old, .restartInstall name none, [])
  | .restartInstall name new => some (sh.install name new false, .done, [])
  | .enable name =>
    match sh.entries.lookup name with
    | none => some (sh, .done, [])
    | some entry => some (sh.setEntry name (entry.enable ok), .done, [])
  | .disable name =>
    match sh.entries.lookup name with
    | none => some (sh, .done, [])
    | some entry => some (sh.setEntry name entry.disable, .done, [])
  | .delete _ => some (sh, .done, [])
  | .loaded l => some (sh, .applying l (diffConfigs sh.config l.config.core).ops, [])
  | .applying l [] => some ({ sh with config := l.config.core }, .done, [])
  | .applying l (op :: todo) => some (applyOp sh l todo op)
  | .retiring old l todo => some (sh.discard (old.map BuiltAdapter.shutdown), .applying l todo, [])
  | .initBuild name ep wasDisabled => some (sh.create ok, .initInstall name (sh.created ep ok) wasDisabled, [])
  | .initInstall name new wasDisabled => some (sh.install name new wasDisabled, .done, [])
  | .done => none

end OwnerPc

/-- What a task has that an entry lacks: the adapter is its own. -/
def OwnerPc.held : OwnerPc → Option BuiltAdapter
  | .restartStop _ old | .restartRead _ old | .restartAgain _ old | .restartInstall _ old | .retiring old _ _
  | .initInstall _ old _ => old
  | _ => none

def runs (a : Option BuiltAdapter) : Bool := a.any BuiltAdapter.running

/-- Every adapter that was built is installed under its name or has been shut down, and no disabled entry
has one that runs. -/
def AdapterOwners.Owned (sh : AdapterOwners) : Prop :=
  (∀ number < sh.built,
    (∃ name a, sh.adapterAt name = some a ∧ a.number = number ∧ a.endpoint.name = name) ∨
      ∃ a ∈ sh.discarded, a.number = number ∧ a.running = false) ∧
    ∀ name entry, sh.entries.lookup name = some entry → entry.flags.1 = true → runs entry.adapter = false

/-- At the start every adapter that was built is installed under its name, and no disabled entry has one
that runs. -/
structure OwnedAtStart (sh : AdapterOwners) : Prop where
  installed : ∀ number < sh.built, ∃ name a, sh.adapterAt name = some a ∧ a.number = number
  named : ∀ name a, sh.adapterAt name = some a → a.endpoint.name = name
  disabled : ∀ name entry, sh.entries.lookup name = some entry → entry.flags.1 = true → runs entry.adapter = false
  discarded : sh.discarded = []

/-- Restarts, enabling, disabling, deletions and reloads over one registry. -/
def adapterOwners : Pool AdapterOwners OwnerPc OwnerOp Bool where
  init := OwnedAtStart
  launch _ _ op := some op.pc
  step sh _ pc ok := pc.step sh ok

abbrev OwnersState := Pool.State AdapterOwners OwnerPc

/-- The entry takes an adapter that runs as it should: it is there, what it has does not run, and it is not
disabled, unless the adapter is shut down at once. -/
def fits (sh : AdapterOwners) (name : String) (new : Option BuiltAdapter) (stop : Bool) : Bool :=
  match sh.entries.lookup name with
  | none => !runs new
  | some entry => !runs entry.adapter && (stop || !(runs new && entry.flags.1))

/-- What a step should find: an adapter is installed where it fits, no entry is registered over an adapter
that runs, and none is marked as disabled. -/
def OwnerPc.inPlace (sh : AdapterOwners) : OwnerPc → Bool
  | .restartInstall name new => fits sh name new false
  | .initInstall name new wasDisabled => fits sh name new wasDisabled
  | .applying _ (.register name _ _ _ :: _) => !runs (sh.adapterAt name)
  | .applying _ (.setFlags name _ flags :: _) => !(flags.1 && runs (sh.adapterAt name))
  | _ => true

def inPlace (s : OwnersState) : Pool.Action OwnerOp Bool → Bool
  | .launch _ => true
  | .run i _ =>
    match s.threads[i]? with
    | none => true
    | some pc => pc.inPlace s.shared

/-! ## No adapter is lost sight of -/

variable {f : BuiltAdapter → BuiltAdapter} {a : Option BuiltAdapter} {m : String} {stop : Bool}
  {flags : Flags} {ep : EndpointConfig} {s : OwnersState}

section Known

variable {sh sh' : AdapterOwners} {name : String} {number : Nat} {entry : OwnedEntry}
  {new : Option BuiltAdapter}

def Numbered (number : Nat) (a : Option BuiltAdapter) : Prop := ∃ b ∈ a, b.number = number

/-- An adapter is installed somewhere, or was discarded. -/
def AdapterOwners.Knows (sh : AdapterOwners) (number : Nat) : Prop :=
  (∃ name, Numbered number (sh.adapterAt name)) ∨ ∃ a ∈ sh.discarded, a.number = number

theorem numbered_map (hf : ∀ a, (f a).number = a.number) (h : Numbered number a) :
    Numbered number (a.map f) := by
  obtain ⟨b, hb, rfl⟩ := h
  exact ⟨f b, Option.mem_map_of_mem f hb, hf b⟩

theorem numbered_shutdown (h : Numbered number a) : Numbered number (a.map BuiltAdapter.shutdown) :=
  numbered_map (f := BuiltAdapter.shutdown) (fun _ => rfl) h

theorem numbered_started (h : Numbered number a) : Numbered number (a.map BuiltAdapter.started) :=
  numbered_map (f := BuiltAdapter.started) (fun _ => rfl) h

theorem adapterAt_setEntry_self : (sh.setEntry name entry).adapterAt name = entry.adapter := by
  unfold AdapterOwners.adapterAt AdapterOwners.setEntry
  rw [AList.lookup_insert]
  rfl

theorem adapterAt_setEntry_ne (h : m ≠ name) :
    (sh.setEntry name entry).adapterAt m = sh.adapterAt m := by
  unfold AdapterOwners.adapterAt AdapterOwners.setEntry
  rw [AList.lookup_insert_ne h]

theorem adapterAt_remove_ne (h : m ≠ name) : (sh.remove name).adapterAt m = sh.adapterAt m := by
  unfold AdapterOwners.adapterAt AdapterOwners.remove
  rw [AList.lookup_erase_ne h]

theorem knows_discard (h : sh.Knows number) : (sh.discard new).Knows number := by
  rcases h with h | ⟨a, ha, hn⟩
  · exact .inl h
  · exact .inr ⟨a, List.mem_append_left _ ha, hn⟩

theorem knows_discarded (h : Numbered number new) : (sh.discard new).Knows number := by
  obtain ⟨a, ha, hn⟩ := h
  exact .inr ⟨a, List.mem_append_right _ (Option.mem_toList.2 ha), hn⟩

theorem knows_installed (h : Numbered number entry.adapter) : (sh.setEntry name entry).Knows number :=
  .inl ⟨name, adapterAt_setEntry_self ▸ h⟩

/-- What an entry that is set anew does not keep is what it had. -/
theorem knows_setEntry (h : sh.Knows number) :
    (sh.setEntry name entry).Knows number ∨ Numbered number (sh.adapterAt name) := by
  rcases h with ⟨m, hm⟩ | h
  · by_cases heq : m = name
    · exact .inr (heq ▸ hm)
    · exact .inl (.inl ⟨m, (adapterAt_setEntry_ne heq).symm ▸ hm⟩)
  · exact .inl (.inr h)

theorem knows_remove (h : sh.Knows number) :
    (sh.remove name).Knows number ∨ Numbered number (sh.adapterAt name) := by
  rcases h with ⟨m, hm⟩ | h
  · by_cases heq : m = name
    · exact .inr (heq ▸ hm)
    · exact .inl (.inl ⟨m, (adapterAt_remove_ne heq).symm ▸ hm⟩)
  · exact .inl (.inr h)

theorem adapterAt_of_lookup (h : sh.entries.lookup name = some entry) : sh.adapterAt name = entry.adapter := by
  unfold AdapterOwners.adapterAt
  rw [h]
  rfl

/-- An entry that is set anew with the adapter it had. -/
theorem knows_edited {entry' : OwnedEntry} (hentry : sh.entries.lookup name = some entry)
    (hadapter : ∀ number, Numbered number entry.adapter → Numbered number entry'.adapter)
    (h : sh.Knows number) : (sh.setEntry name entry').Knows number := by
  rcases knows_setEntry h with h | h
  · exact h
  · rw [adapterAt_of_lookup hentry] at h
    exact knows_installed (hadapter number h)

theorem knows_install (h : sh.Knows number ∨ Numbered number new) :
    (sh.install name new stop).Knows number := by
  unfold AdapterOwners.install
  cases hentry : sh.entries.lookup name with
  | none =>
    dsimp only
    rcases h with h | h
    · exact knows_discard h
    · exact knows_discarded h
  | some entry =>
    dsimp only
    unfold AdapterOwners.replaceAdapter
    rcases h with h | h
    · rcases knows_setEntry h with h | h
      · exact knows_discard h
      · rw [adapterAt_of_lookup hentry] at h
        exact knows_discarded h
    · refine knows_discard (knows_installed ?_)
      dsimp only
      split
      · exact numbered_shutdown h
      · exact h

theorem knows_register (h : sh.Knows number) : (sh.register name).Knows number := by
  unfold AdapterOwners.register
  rcases knows_setEntry h with h | h
  · exact knows_discard h
  · exact knows_discarded h

theorem adapterAt_setFlags (flags : Flags) (m : String) : (sh.setFlags name flags).adapterAt m = sh.adapterAt m := by
  unfold AdapterOwners.adapterAt AdapterOwners.setFlags
  rw [AList.lookup_modify]
  by_cases h : m = name
  · rw [if_pos h, Option.bind_map]
    cases sh.entries.lookup m <;> rfl
  · rw [if_neg h]

theorem knows_setFlags (h : sh.Knows number) : (sh.setFlags name flags).Knows number := by
  rcases h with ⟨m, hm⟩ | h
  · exact .inl ⟨m, (adapterAt_setFlags flags m).symm ▸ hm⟩
  · exact .inr h

theorem numbered_none (h : Numbered number none) : False := by
  obtain ⟨a, ha, -⟩ := h
  cases ha

variable {pc pc' : OwnerPc} {ok : Bool} {spawned : List OwnerPc}

/-- **One step** loses no adapter. -/
theorem step_knows (h : pc.step sh ok = some (sh', pc', spawned))
    (hn : sh.Knows number ∨ Numbered number pc.held) : sh'.Knows number ∨ Numbered number pc'.held := by
  have hknows (hheld : pc.held = none) : sh.Knows number := by
    rcases hn with hn | hn
    · exact hn
    · rw [hheld] at hn
      exact (numbered_none hn).elim
  unfold OwnerPc.step at h
  cases pc with
  | restart name =>
    have hn := hknows rfl
    dsimp only at h
    split at h
    · cases h
      exact .inl hn
    · next entry hentry =>
      cases h
      rcases knows_setEntry hn with hn | hn
      · exact .inl hn
      · exact .inr (adapterAt_of_lookup hentry ▸ hn)
  | restartStop name old =>
    cases h
    exact hn.imp_right numbered_shutdown
  | restartRead name old =>
    dsimp only at h
    split at h
    · cases h
      rcases hn with hn | hn
      · exact .inl (knows_discard hn)
      · exact .inl (knows_discarded hn)
    · cases h
      exact hn
  | restartBuild name ep =>
    cases h
    refine .inl ?_
    unfold AdapterOwners.create
    split
    · exact hknows rfl
    · exact hknows rfl
  | restartAgain name old =>
    dsimp only at h
    split at h
    · cases h
      exact hn.imp_right numbered_started
    · cases h
      rcases hn with hn | hn
      · exact .inl (knows_discard hn)
      · exact .inl (knows_discarded hn)
  | restartInstall name new =>
    cases h
    exact .inl (knows_install hn)
  | enable name =>
    have hn := hknows rfl
    dsimp only at h
    split at h
    · cases h
      exact .inl hn
    · next entry hentry =>
      cases h
      refine .inl (knows_edited hentry (fun number hn => ?_) hn)
      unfold OwnedEntry.enable
      dsimp only
      split
      · exact numbered_started hn
      · exact hn
  | disable name =>
    have hn := hknows rfl
    dsimp only at h
    split at h
    · cases h
      exact .inl hn
    · next entry hentry =>
      cases h
      exact .inl (knows_edited hentry (fun _ => numbered_shutdown) hn)
  | delete name =>
    cases h
    exact .inl (hknows rfl)
  | loaded l =>
    cases h
    exact .inl (hknows rfl)
  | applying l todo =>
    have hk := hknows rfl
    cases todo with
    | nil =>
      cases h
      exact .inl hk
    | cons op todo =>
      cases op with
      | remove name =>
        cases h
        exact knows_remove hk
      | change name ep =>
        cases h
        exact .inl hk
      | replace name ep flags =>
        cases h
        exact knows_remove hk
      | register name ep flags set =>
        cases h
        exact .inl (knows_register hk)
      | setFlags name ep flags =>
        cases h
        exact .inl (knows_setFlags hk)
      | spawn name ep flags =>
        cases h
        exact .inl hk
  | retiring old l todo =>
    cases h
    rcases hn with hn | hn
    · exact .inl (knows_discard hn)
    · exact .inl (knows_discarded (numbered_shutdown hn))
  | initBuild name ep wasDisabled =>
    cases h
    refine .inl ?_
    unfold AdapterOwners.create
    split
    · exact hknows rfl
    · exact hknows rfl
  | initInstall name new wasDisabled =>
    cases h
    exact .inl (knows_install hn)
  | done => cases h

theorem install_built (stop : Bool) : (sh.install name new stop).built = sh.built := by
  unfold AdapterOwners.install
  split <;> rfl

theorem numbered_created (h : number < (sh.create ok).built) :
    number < sh.built ∨ Numbered number (sh.created ep ok) := by
  cases ok with
  | false => exact .inl h
  | true =>
    rcases Nat.lt_succ_iff_lt_or_eq.1 h with h | rfl
    · exact .inl h
    · exact .inr ⟨_, rfl, rfl⟩

/-- An adapter that is built is that of the task that builds it. -/
theorem step_built (h : pc.step sh ok = some (sh', pc', spawned)) (hnumber : number < sh'.built) :
    number < sh.built ∨ Numbered number pc'.held := by
  unfold OwnerPc.step at h
  cases pc with
  | restart name | enable name | disable name | restartRead name old | restartAgain name old =>
    dsimp only at h
    split at h <;> cases h <;> exact .inl hnumber
  | restartStop name old | delete name | loaded l | retiring old l todo =>
    cases h
    exact .inl hnumber
  | restartBuild name ep | initBuild name ep wasDisabled =>
    cases h
    exact numbered_created hnumber
  | restartInstall name new | initInstall name new wasDisabled =>
    cases h
    rw [install_built] at hnumber
    exact .inl hnumber
  | applying l todo =>
    cases todo with
    | nil =>
      cases h
      exact .inl hnumber
    | cons op todo => cases op <;> cases h <;> exact .inl hnumber
  | done => cases h

end Known

/-- **Every adapter that was built** is installed, discarded or with a task, in any run. -/
theorem number_kept {ok : OwnersState → Pool.Action OwnerOp Bool → Prop}
    (h : adapterOwners.system.ReachableWhile ok s) :
    ∀ number < s.shared.built, s.shared.Knows number ∨ ∃ t ∈ s.threads, Numbered number t.held := by
  refine Pool.invariant_of (P := adapterOwners) (I := fun _ => True)
    (J := fun s => ∀ number < s.shared.built, s.shared.Knows number ∨ ∃ t ∈ s.threads, Numbered number t.held)
    (fun _ _ => trivial) ?_ ?_ ?_ h
  · intro sh hsh number hnumber
    obtain ⟨name, a, ha, hn⟩ := hsh.installed number hnumber
    exact .inl (.inl ⟨name, a, ha, hn⟩)
  · intro s op t _ hJ _ _ number hnumber
    refine (hJ number hnumber).imp_right fun hheld => ?_
    obtain ⟨t, ht, hheld⟩ := hheld
    exact ⟨t, List.mem_append_left _ ht, hheld⟩
  · intro s i c t sh t' new _ hJ _ hi hstep number hnumber
    have hself (hnext : sh.Knows number ∨ Numbered number t'.held) :
        sh.Knows number ∨ ∃ u ∈ Pool.stepped s.threads i t' new, Numbered number u.held :=
      hnext.imp_right fun hheld => ⟨t', Pool.mem_stepped_self hi, hheld⟩
    rcases step_built hstep hnumber with hnumber | hheld
    · rcases hJ number hnumber with hknows | ⟨u, hu, hheld⟩
      · exact hself (step_knows hstep (.inl hknows))
      · obtain ⟨j, hj⟩ := List.mem_iff_getElem?.1 hu
        by_cases heq : j = i
        · subst heq
          rw [hi] at hj
          cases hj
          exact hself (step_knows hstep (.inr hheld))
        · exact .inr ⟨u, Pool.mem_stepped_of_ne hj heq, hheld⟩
    · exact hself (.inr hheld)

/-! ## In which condition they are -/

def NamedAs (name : String) (a : Option BuiltAdapter) : Prop := ∀ b ∈ a, b.endpoint.name = name

/-- Adapters are installed under their names, no disabled entry has one that runs, and none that was
discarded runs. -/
structure AdapterOwners.Sound (sh : AdapterOwners) : Prop where
  named : ∀ name, NamedAs name (sh.adapterAt name)
  disabled : ∀ name entry, sh.entries.lookup name = some entry → entry.flags.1 = true →
    runs entry.adapter = false
  discarded : ∀ a ∈ sh.discarded, a.running = false

/-- An operation that has an endpoint has that of its name. -/
def ReloadOp.Named : ReloadOp → Prop
  | .remove _ => True
  | .change name ep | .replace name ep _ | .register name ep _ _ | .setFlags name ep _ | .spawn name ep _ =>
    ep.name = name

/-- The tasks build adapters for the endpoints of their names, and a restart has shut down what it has
taken. -/
def OwnerPc.Fine : OwnerPc → Prop
  | .restartStop name old | .restartInstall name old | .initInstall name old _ => NamedAs name old
  | .restartRead name old | .restartAgain name old => NamedAs name old ∧ runs old = false
  | .restartBuild name ep | .initBuild name ep _ => ep.name = name
  | .applying _ todo | .retiring _ _ todo => ∀ op ∈ todo, op.Named
  | _ => True

section Sound

variable {sh sh' : AdapterOwners} {name : String} {entry : OwnedEntry} {new : Option BuiltAdapter}

theorem namedAs_none : NamedAs name none := fun b hb => by cases hb

theorem namedAs_map (hf : ∀ a, (f a).endpoint = a.endpoint) (h : NamedAs name a) :
    NamedAs name (a.map f) := by
  intro b hb
  obtain ⟨a', ha', rfl⟩ := Option.map_eq_some_iff.1 hb
  rw [hf]
  exact h a' ha'

theorem namedAs_shutdown (h : NamedAs name a) : NamedAs name (a.map BuiltAdapter.shutdown) :=
  namedAs_map (f := BuiltAdapter.shutdown) (fun _ => rfl) h

theorem namedAs_started (h : NamedAs name a) : NamedAs name (a.map BuiltAdapter.started) :=
  namedAs_map (f := BuiltAdapter.started) (fun _ => rfl) h

theorem runs_shutdown (a : Option BuiltAdapter) : runs (a.map BuiltAdapter.shutdown) = false := by
  cases a <;> rfl

theorem sound_discard (hs : sh.Sound) (h : runs new = false) : (sh.discard new).Sound := by
  refine ⟨hs.named, hs.disabled, fun a ha => ?_⟩
  rcases List.mem_append.1 ha with ha | ha
  · exact hs.discarded a ha
  · obtain rfl := Option.mem_toList.1 ha
    exact h

theorem sound_setEntry (hs : sh.Sound) (hnamed : NamedAs name entry.adapter)
    (hdisabled : entry.flags.1 = true → runs entry.adapter = false) : (sh.setEntry name entry).Sound := by
  refine ⟨fun m => ?_, fun m entry' hm => ?_, hs.discarded⟩
  · by_cases heq : m = name
    · subst heq
      rw [adapterAt_setEntry_self]
      exact hnamed
    · rw [adapterAt_setEntry_ne heq]
      exact hs.named m
  · unfold AdapterOwners.setEntry at hm
    rcases AList.lookup_insert_cases hm with ⟨-, rfl⟩ | ⟨-, hm⟩
    · exact hdisabled
    · exact hs.disabled m entry' hm

theorem sound_remove (hs : sh.Sound) : (sh.remove name).Sound := by
  have hlookup (m : String) (entry : OwnedEntry) (hm : (sh.remove name).entries.lookup m = some entry) :
      sh.entries.lookup m = some entry := by
    unfold AdapterOwners.remove at hm
    exact (AList.lookup_of_erase hm).2
  refine ⟨fun m b hb => ?_, fun m entry hm => hs.disabled m entry (hlookup m entry hm), hs.discarded⟩
  obtain ⟨entry, hm, hb⟩ := Option.bind_eq_some_iff.1 hb
  exact hs.named m b (Option.bind_eq_some_iff.2 ⟨entry, hlookup m entry hm, hb⟩)

theorem sound_register (hs : sh.Sound) (h : runs (sh.adapterAt name) = false) : (sh.register name).Sound :=
  sound_discard (sound_setEntry hs namedAs_none fun _ => rfl) h

theorem sound_setFlags (hs : sh.Sound) (h : flags.1 = true → runs (sh.adapterAt name) = false) :
    (sh.setFlags name flags).Sound := by
  refine ⟨fun m => ?_, fun m entry hm hflag => ?_, hs.discarded⟩
  · rw [adapterAt_setFlags]
    exact hs.named m
  · unfold AdapterOwners.setFlags at hm
    rw [AList.lookup_modify] at hm
    by_cases heq : m = name
    · subst heq
      rw [if_pos rfl] at hm
      obtain ⟨entry', hentry, rfl⟩ := Option.map_eq_some_iff.1 hm
      rw [adapterAt_of_lookup hentry] at h
      exact h hflag
    · rw [if_neg heq] at hm
      exact hs.disabled m entry hm hflag

theorem sound_install (hs : sh.Sound) (hnamed : NamedAs name new) (hfits : fits sh name new stop = true) :
    (sh.install name new stop).Sound := by
  unfold fits at hfits
  unfold AdapterOwners.install
  cases hentry : sh.entries.lookup name with
  | none =>
    rw [hentry] at hfits
    exact sound_discard hs (by simpa using hfits)
  | some entry =>
    rw [hentry] at hfits
    dsimp only at hfits ⊢
    rw [Bool.and_eq_true] at hfits
    refine sound_discard (sound_setEntry hs ?_ fun hflag => ?_) (by simpa using hfits.1)
    · dsimp only
      split
      · exact namedAs_shutdown hnamed
      · exact hnamed
    · dsimp only at hflag ⊢
      split
      · exact runs_shutdown new
      · next hstop =>
        simpa [hstop, hflag] using hfits.2

variable {pc pc' : OwnerPc} {ok : Bool} {spawned : List OwnerPc}

theorem sound_create (hs : sh.Sound) : (sh.create ok).Sound := by
  unfold AdapterOwners.create
  split
  · exact ⟨hs.named, hs.disabled, hs.discarded⟩
  · exact hs

theorem namedAs_created (h : ep.name = name) : NamedAs name (sh.created ep ok) := by
  intro b hb
  unfold AdapterOwners.created at hb
  split at hb
  · cases hb
    exact h
  · cases hb

theorem named_afterFlags {inputs : ReloadInputs} (h : ep.name = name) :
    ∀ op ∈ (inputs.afterFlags name ep flags).toList, op.Named := by
  intro op hop
  unfold ReloadInputs.afterFlags at hop
  split at hop
  · cases hop
  · obtain rfl := List.mem_singleton.1 hop
    exact h

theorem named_ops (old new : Config) : ∀ op ∈ (diffConfigs old new).ops, op.Named := by
  intro op hop
  unfold ConfigDiff.ops at hop
  rw [diffConfigs_changed] at hop
  rcases List.mem_append.1 hop with hop | hop
  · obtain ⟨name, -, rfl⟩ := List.mem_map.1 hop
    exact trivial
  · rcases List.mem_append.1 hop with hop | hop
    · obtain ⟨change, hchange, rfl⟩ := List.mem_map.1 hop
      obtain ⟨ep, -, rfl⟩ := List.mem_map.1 hchange
      rfl
    · obtain ⟨ep, -, rfl⟩ := List.mem_map.1 hop
      rfl

theorem find?_name {eps : List EndpointConfig} (h : eps.find? (fun ep => ep.name = name) = some ep) :
    ep.name = name := by
  simpa using List.find?_some h

/-- **One step** in place keeps the registry sound and its task fine. -/
theorem step_sound (h : pc.step sh ok = some (sh', pc', spawned)) (hs : sh.Sound) (hfine : pc.Fine)
    (hplace : pc.inPlace sh = true) : sh'.Sound ∧ pc'.Fine ∧ ∀ t ∈ spawned, t.Fine := by
  unfold OwnerPc.step at h
  cases pc with
  | restart name =>
    dsimp only at h
    split at h
    · cases h
      exact ⟨hs, trivial, List.forall_mem_nil _⟩
    · next entry hentry =>
      cases h
      refine ⟨sound_setEntry hs namedAs_none fun _ => rfl, ?_, List.forall_mem_nil _⟩
      rw [← adapterAt_of_lookup hentry]
      exact hs.named name
  | restartStop name old =>
    cases h
    exact ⟨hs, ⟨namedAs_shutdown hfine, runs_shutdown old⟩, List.forall_mem_nil _⟩
  | restartRead name old =>
    dsimp only at h
    split at h
    · next ep hep =>
      cases h
      exact ⟨sound_discard hs hfine.2, find?_name hep, List.forall_mem_nil _⟩
    · cases h
      exact ⟨hs, hfine, List.forall_mem_nil _⟩
  | restartBuild name ep =>
    cases h
    exact ⟨sound_create hs, namedAs_created hfine, List.forall_mem_nil _⟩
  | restartAgain name old =>
    dsimp only at h
    split at h
    · cases h
      exact ⟨hs, namedAs_started hfine.1, List.forall_mem_nil _⟩
    · cases h
      exact ⟨sound_discard hs hfine.2, namedAs_none, List.forall_mem_nil _⟩
  | restartInstall name new =>
    cases h
    exact ⟨sound_install hs hfine hplace, trivial, List.forall_mem_nil _⟩
  | enable name =>
    dsimp only at h
    split at h
    · cases h
      exact ⟨hs, trivial, List.forall_mem_nil _⟩
    · next entry hentry =>
      cases h
      have hnamed : NamedAs name entry.adapter := adapterAt_of_lookup hentry ▸ hs.named name
      refine ⟨sound_setEntry hs ?_ fun hflag => ?_, trivial, List.forall_mem_nil _⟩
      · unfold OwnedEntry.enable
        dsimp only
        split
        · exact namedAs_started hnamed
        · exact hnamed
      · cases hflag
  | disable name =>
    dsimp only at h
    split at h
    · cases h
      exact ⟨hs, trivial, List.forall_mem_nil _⟩
    · next entry hentry =>
      cases h
      have hnamed : NamedAs name entry.adapter := adapterAt_of_lookup hentry ▸ hs.named name
      exact ⟨sound_setEntry hs (namedAs_shutdown hnamed) fun _ => runs_shutdown _, trivial, List.forall_mem_nil _⟩
  | delete name =>
    cases h
    exact ⟨hs, trivial, List.forall_mem_nil _⟩
  | loaded l =>
    cases h
    exact ⟨hs, named_ops _ _, List.forall_mem_nil _⟩
  | applying l todo =>
    cases todo with
    | nil =>
      cases h
      exact ⟨⟨hs.named, hs.disabled, hs.discarded⟩, trivial, List.forall_mem_nil _⟩
    | cons op todo =>
      obtain ⟨hop, htodo⟩ := List.forall_mem_cons.1 hfine
      cases op with
      | remove name =>
        cases h
        exact ⟨sound_remove hs, htodo, List.forall_mem_nil _⟩
      | change name ep =>
        cases h
        exact ⟨hs, List.forall_mem_cons.2 ⟨hop, htodo⟩, List.forall_mem_nil _⟩
      | replace name ep flags =>
        cases h
        exact ⟨sound_remove hs, List.forall_mem_cons.2 ⟨hop, htodo⟩, List.forall_mem_nil _⟩
      | register name ep flags set =>
        cases h
        refine ⟨sound_register hs (by simpa [OwnerPc.inPlace] using hplace), fun op' hop' => ?_,
          List.forall_mem_nil _⟩
        rcases List.mem_append.1 hop' with hop' | hop'
        · split at hop'
          · obtain rfl := List.mem_singleton.1 hop'
            exact hop
          · exact named_afterFlags hop op' hop'
        · exact htodo op' hop'
      | setFlags name ep flags =>
        cases h
        have hstopped (hflag : flags.1 = true) : runs (sh.adapterAt name) = false := by
          simpa [OwnerPc.inPlace, hflag] using hplace
        refine ⟨sound_setFlags hs hstopped, fun op' hop' => ?_, List.forall_mem_nil _⟩
        rcases List.mem_append.1 hop' with hop' | hop'
        · exact named_afterFlags hop op' hop'
        · exact htodo op' hop'
      | spawn name ep flags =>
        cases h
        exact ⟨hs, htodo, List.forall_mem_singleton.2 hop⟩
  | retiring old l todo =>
    cases h
    exact ⟨sound_discard hs (runs_shutdown old), hfine, List.forall_mem_nil _⟩
  | initBuild name ep wasDisabled =>
    cases h
    exact ⟨sound_create hs, namedAs_created hfine, List.forall_mem_nil _⟩
  | initInstall name new wasDisabled =>
    cases h
    exact ⟨sound_install hs hfine hplace, trivial, List.forall_mem_nil _⟩
  | done => cases h

end Sound

theorem owners_sound (h : adapterOwners.system.ReachableWhile (fun s a => inPlace s a = true) s) :
    s.shared.Sound ∧ ∀ t ∈ s.threads, t.Fine := by
  refine Pool.invariant_of (P := adapterOwners) (I := fun _ => True)
    (J := fun s => s.shared.Sound ∧ ∀ t ∈ s.threads, t.Fine) (fun _ _ => trivial) ?_ ?_ ?_ h
  · intro sh hsh
    refine ⟨⟨hsh.named, hsh.disabled, fun a ha => ?_⟩, List.forall_mem_nil _⟩
    rw [hsh.discarded] at ha
    cases ha
  · intro s op t _ hJ _ ht
    refine ⟨hJ.1, fun u hu => ?_⟩
    rcases List.mem_append.1 hu with hu | hu
    · exact hJ.2 u hu
    · obtain rfl := List.mem_singleton.1 hu
      cases ht
      cases op with
      | reload load => cases load <;> exact trivial
      | restart name | enable name | disable name | delete name => exact trivial
  · intro s i c t sh t' new _ hJ hok hi hstep
    have hplace : t.inPlace s.shared = true := by
      simpa [inPlace, hi] using hok
    obtain ⟨hs, ht', hnew⟩ := step_sound hstep hJ.1 (hJ.2 t (List.mem_of_getElem? hi)) hplace
    exact ⟨hs, Pool.forall_mem_stepped ht' hnew fun j u _ hj => hJ.2 u (List.mem_of_getElem? hj)⟩

/-- **No adapter is orphaned and no disabled endpoint runs**, in every run whose steps are in place, once all
operations have finished. -/
theorem adapters_owned {s : OwnersState} (h : adapterOwners.system.ReachableWhile (fun s a => inPlace s a = true) s)
    (hdone : ∀ t ∈ s.threads, t = .done) : s.shared.Owned := by
  obtain ⟨hs, -⟩ := owners_sound h
  refine ⟨fun number hnumber => ?_, hs.disabled⟩
  rcases number_kept h number hnumber with (⟨name, a, ha, hn⟩ | ⟨a, ha, hn⟩) | ⟨t, ht, hheld⟩
  · exact .inl ⟨name, a, ha, hn, hs.named name a ha⟩
  · exact .inr ⟨a, ha, hn, hs.discarded a ha⟩
  · rw [hdone t ht] at hheld
    exact (numbered_none hheld).elim

/-! ## Two runs -/

def ownedEndpoint : EndpointConfig := { name := "mail", transport := .http, url := some "https://mail.test/mcp" }

def ownedMail : AdapterOwners where
  entries := AList.insert "mail" ⟨some ⟨0, ownedEndpoint, true⟩, (false, [])⟩ ∅
  config := ⟨none, [ownedEndpoint], []⟩
  built := 1
  discarded := []

theorem ownedMail_start : adapterOwners.system.init ⟨ownedMail, []⟩ := by
  have hlookup (name : String) (entry : OwnedEntry) (h : ownedMail.entries.lookup name = some entry) :
      name = "mail" ∧ entry = ⟨some ⟨0, ownedEndpoint, true⟩, (false, [])⟩ := by
    unfold ownedMail at h
    rcases AList.lookup_insert_cases h with hmail | ⟨-, h⟩
    · exact hmail
    · rw [AList.lookup_empty] at h
      cases h
  refine ⟨⟨fun number hnumber => ?_, fun name a ha => ?_, fun name entry h hflag => ?_, rfl⟩, rfl⟩
  · obtain rfl := Nat.lt_one_iff.1 hnumber
    exact ⟨"mail", _, rfl, rfl⟩
  · obtain ⟨entry, h, ha⟩ := Option.bind_eq_some_iff.1 ha
    obtain ⟨rfl, rfl⟩ := hlookup name entry h
    cases ha
    rfl
  · obtain ⟨-, rfl⟩ := hlookup name entry h
    cases hflag

def ownerSteps (i n : Nat) : List (Pool.Action OwnerOp Bool) := List.replicate n (.run i true)

def restartRun : List (Pool.Action OwnerOp Bool) := .launch (.restart "mail") :: ownerSteps 0 5

/-- A restart that nothing disturbs. -/
theorem adapters_owned_restart : ∃ s, adapterOwners.system.run ⟨ownedMail, []⟩ restartRun = some s ∧
    s.shared.built = 2 ∧ s.shared.Owned := by
  have hrun : ∃ s, adapterOwners.system.runWhile inPlace ⟨ownedMail, []⟩ restartRun = some s ∧
      adapterOwners.system.run ⟨ownedMail, []⟩ restartRun = some s ∧
      s.shared.built = 2 ∧ s.threads = [.done] := ⟨_, rfl, rfl, rfl, rfl⟩
  obtain ⟨s, hwhile, hrun, hbuilt, hthreads⟩ := hrun
  have hdone : ∀ t ∈ s.threads, t = .done := by
    rw [hthreads]
    exact List.forall_mem_singleton.2 rfl
  exact ⟨s, hrun, hbuilt,
    adapters_owned ((System.ReachableWhile.init ownedMail_start).run (fun _ _ h => h) hwhile) hdone⟩

/-- The endpoint is deleted and the file loaded while its adapter is built anew. -/
def orphanRun : List (Pool.Action OwnerOp Bool) :=
  .launch (.restart "mail") :: ownerSteps 0 3 ++ .launch (.delete "mail") :: ownerSteps 1 1 ++
    .launch (.reload (.ok ⟨{ core := ⟨none, [], []⟩ }, []⟩)) :: ownerSteps 2 4 ++ ownerSteps 0 2

def disabledRun : List (Pool.Action OwnerOp Bool) :=
  .launch (.disable "mail") :: ownerSteps 0 1 ++ .launch (.restart "mail") :: ownerSteps 1 5

/-- **A restart that ends after the endpoint was removed** leaves an adapter that runs and is not installed,
and a restart of a disabled endpoint an adapter that runs under a disabled entry. -/
theorem restart_orphans :
    (∃ s, adapterOwners.system.Reachable s ∧ s.threads = [.done, .done, .done] ∧
      s.shared.entries.lookup "mail" = none ∧ s.shared.discarded = [⟨0, ownedEndpoint, false⟩,
        ⟨1, ownedEndpoint, true⟩] ∧ ¬ s.shared.Owned) ∧
    ∃ s, adapterOwners.system.Reachable s ∧ s.threads = [.done, .done] ∧
      s.shared.entries.lookup "mail" = some ⟨some ⟨1, ownedEndpoint, true⟩, (true, [])⟩ ∧ ¬ s.shared.Owned := by
  have horphan : ∃ s, adapterOwners.system.run ⟨ownedMail, []⟩ orphanRun = some s ∧
      s.threads = [.done, .done, .done] ∧ s.shared.entries = ∅ ∧ s.shared.built = 2 ∧
      s.shared.discarded = [⟨0, ownedEndpoint, false⟩, ⟨1, ownedEndpoint, true⟩] := ⟨_, rfl, rfl, rfl, rfl, rfl⟩
  have hdisabled : ∃ s, adapterOwners.system.run ⟨ownedMail, []⟩ disabledRun = some s ∧
      s.threads = [.done, .done] ∧
      s.shared.entries.lookup "mail" = some ⟨some ⟨1, ownedEndpoint, true⟩, (true, [])⟩ := ⟨_, rfl, rfl, rfl⟩
  obtain ⟨s, hrun, hthreads, hentries, hbuilt, hdiscarded⟩ := horphan
  obtain ⟨s', hrun', hthreads', hlookup⟩ := hdisabled
  refine ⟨⟨s, (System.Reachable.init ownedMail_start).run hrun, hthreads, ?_, hdiscarded, fun howned => ?_⟩,
    ⟨s', (System.Reachable.init ownedMail_start).run hrun', hthreads', hlookup, fun howned => ?_⟩⟩
  · rw [hentries]
    rfl
  · have hone : 1 < s.shared.built := by rw [hbuilt]; decide
    rcases howned.1 1 hone with ⟨name, a, ha, -⟩ | ⟨a, ha, hnumber, hstopped⟩
    · unfold AdapterOwners.adapterAt at ha
      rw [hentries] at ha
      cases ha
    · rw [hdiscarded] at ha
      rcases List.mem_cons.1 ha with rfl | ha
      · exact absurd hnumber (by decide)
      · obtain rfl := List.mem_singleton.1 ha
        exact absurd hstopped (by decide)
  · exact absurd (howned.2 "mail" _ hlookup rfl) (by decide)

end EndaraRelay
