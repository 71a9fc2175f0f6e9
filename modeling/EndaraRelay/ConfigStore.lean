import EndaraRelay.ConfigRequests
import EndaraRelay.Lib.Edits
import EndaraRelay.ReloadEqualsColdStart

/-!
# The config file and the config in memory

What the management handlers write to `config.toml` and what they publish, one write at a time.

**The view.** `ConfigView` is what a config is for: its endpoints, as far as a create or update request
sets them, its profiles, its organizations and the observability settings. A `ConfigEdit` changes one
entry of it, or the settings. The file and the config in memory each have a view (`ConfigFile.view`,
`ManagedConfig.view`), and each write is an edit of it: `writeEndpoint_ok`, `removeEndpoint_ok`,
`setList_view` and `changeEndpoint_view`. The two views need not agree: references to environment
variables are resolved in memory only, and empty tables are left out of the file.

**Flags.** Which endpoints and tools are disabled is kept in the registry, mirrored into the config and
written from there. Adapters are left out.
-/

namespace EndaraRelay

open Verif

/-! ## Views -/

/-- `[relay.observability]`. -/
structure ObservabilityConfig where
  enabled : Bool := true
  storePayloads : Bool := true
  payloadWindowMinutes : Nat := 10
  recordRetentionDays : Nat := 7
  maxDbSizeMb : Nat := 1024
  maxPayloadBytes : Nat := 262144
  payloadBufferBudgetMb : Nat := 128
deriving DecidableEq, Repr

/-- A list of the config that is written and published as a whole. -/
inductive ConfigList where
  | profiles
  | organizations
deriving DecidableEq

def ConfigList.Entry : ConfigList → Type
  | .profiles => ProfileSettings
  | .organizations => ConfigOrganization

def ConfigList.key : (c : ConfigList) → c.Entry → String
  | .profiles => ProfileSettings.pathKey
  | .organizations => ConfigOrganization.name

structure ConfigView where
  endpoints : List EndpointConfig
  lists : (c : ConfigList) → List c.Entry
  observability : Option ObservabilityConfig

/-- An edit of one entry, or of the observability settings. -/
inductive ConfigEdit where
  | endpoint (e : ListEdit String EndpointConfig)
  | list (c : ConfigList) (e : ListEdit String c.Entry)
  | observability (new : ObservabilityConfig)

namespace ConfigEdit

def apply : ConfigEdit → ConfigView → ConfigView
  | .endpoint e, v => { v with endpoints := e.apply EndpointConfig.name v.endpoints }
  | .list c e, v => { v with lists := Function.update v.lists c (e.apply c.key (v.lists c)) }
  | .observability new, v => { v with observability := some new }

def Admissible : ConfigEdit → ConfigView → Prop
  | .endpoint e, v => e.Admissible EndpointConfig.name v.endpoints
  | .list c e, v => e.Admissible c.key (v.lists c)
  | .observability _, _ => True

/-- What an edit asks for, in a run that began with the view `start`: an entry under a new key, and none
under the old one if there was but one of them at the start. -/
def Effect (start : ConfigView) : ConfigEdit → ConfigView → Prop
  | .endpoint e, v => e.Effect EndpointConfig.name
      (fun k => (start.endpoints.map EndpointConfig.name).count k ≤ 1) v.endpoints
  | .list c e, v => e.Effect c.key (fun k => ((start.lists c).map c.key).count k ≤ 1) (v.lists c)
  | .observability new, v => v.observability = some new

/-- A later edit that is about an entry of the earlier one. -/
def Overrides : ConfigEdit → ConfigEdit → Prop
  | .endpoint e', .endpoint e => ∃ k ∈ e.keys EndpointConfig.name, k ∈ e'.keys EndpointConfig.name
  | .list c' e', .list c e => c' = c ∧ ∃ k ∈ e.keys c.key, k ∈ e'.keys c'.key
  | .observability _, .observability _ => True
  | _, _ => False

end ConfigEdit

/-- No key is repeated that was not repeated at the start. -/
structure Unrepeated (start v : ConfigView) : Prop where
  endpoints : ∀ k, (start.endpoints.map EndpointConfig.name).count k ≤ 1 →
    (v.endpoints.map EndpointConfig.name).count k ≤ 1
  lists : ∀ c k, ((start.lists c).map (ConfigList.key c)).count k ≤ 1 →
    ((v.lists c).map c.key).count k ≤ 1

variable {start v : ConfigView} {e e' : ConfigEdit}

theorem Unrepeated.refl (v : ConfigView) : Unrepeated v v := ⟨fun _ h => h, fun _ _ h => h⟩

theorem Unrepeated.apply (h : Unrepeated start v) (hadm : e.Admissible v) :
    Unrepeated start (e.apply v) := by
  cases e with
  | endpoint e => exact ⟨fun k hk => ListEdit.count_apply hadm (h.endpoints k hk), h.lists⟩
  | observability new => exact ⟨h.endpoints, h.lists⟩
  | list c e =>
    refine ⟨h.endpoints, fun c' k hk => ?_⟩
    show ((Function.update v.lists c (e.apply c.key (v.lists c)) c').map c'.key).count k ≤ 1
    by_cases hc : c' = c
    · subst hc
      rw [Function.update_self]
      exact ListEdit.count_apply hadm (h.lists c' k hk)
    · rw [Function.update_of_ne hc]
      exact h.lists c' k hk

/-- **An edit has its effect.** -/
theorem ConfigEdit.effect_apply_self (hadm : e.Admissible v) (h : Unrepeated start v) :
    e.Effect start (e.apply v) := by
  cases e with
  | endpoint e => exact ListEdit.effect_apply_self hadm h.endpoints
  | observability new => rfl
  | list c e =>
    show e.Effect c.key _ (Function.update v.lists c (e.apply c.key (v.lists c)) c)
    rw [Function.update_self]
    exact ListEdit.effect_apply_self hadm (h.lists c)

/-- **An edit keeps the effects it does not override.** -/
theorem ConfigEdit.Effect.apply (h : e.Effect start v) (hnot : ¬ e'.Overrides e) :
    e.Effect start (e'.apply v) := by
  cases e with
  | endpoint e =>
    cases e' with
    | endpoint e' => exact ListEdit.Effect.apply h fun k hk hk' => hnot ⟨k, hk, hk'⟩
    | _ => exact h
  | observability new =>
    cases e' with
    | observability new' => exact absurd trivial hnot
    | _ => exact h
  | list c e =>
    cases e' with
    | list c' e' =>
      show e.Effect c.key _ (Function.update v.lists c' (e'.apply c'.key (v.lists c')) c)
      by_cases hc : c = c'
      · subst hc
        rw [Function.update_self]
        exact ListEdit.Effect.apply h fun k hk hk' => hnot ⟨rfl, k, hk, hk'⟩
      · rw [Function.update_of_ne hc]
        exact h
    | _ => exact h

/-! ## The file -/

/-- What a create or update request sets of an endpoint. -/
def EndpointConfig.settings (ep : EndpointConfig) : EndpointConfig :=
  { ep with disabled := false, disabledTools := [], clientSecret := none }

def nonEmpty {α : Type} (l : Option (List α)) : Option (List α) := l.filter fun l => !l.isEmpty

/-- The settings as they are written: empty tables and lists are left out. -/
def EndpointConfig.written (ep : EndpointConfig) : EndpointConfig :=
  { ep.settings with
    env := nonEmpty ep.env
    headers := nonEmpty ep.headers
    scopes := nonEmpty ep.scopes
    mounts := nonEmpty ep.mounts }

/-- An `[[endpoints]]` table: the settings, and the keys that have routes of their own. -/
structure EndpointTable where
  settings : EndpointConfig
  disabled : Option Bool := none
  disabledTools : Option (List String) := none
  clientSecret : Option String := none
deriving DecidableEq

def EndpointTable.name (t : EndpointTable) : String := t.settings.name

/-- The flags of a table; both keys have defaults. -/
def EndpointTable.flags (t : EndpointTable) : Flags := (t.disabled.getD false, t.disabledTools.getD [])

def EndpointConfig.flags (ep : EndpointConfig) : Flags := (ep.disabled, ep.disabledTools)

def endpointToTomlTable (ep : EndpointConfig) : EndpointTable where
  settings := ep.written

/-- What the handlers read and write of `config.toml`. A list that is absent is empty. -/
structure ConfigFile where
  endpoints : List EndpointTable
  profiles : List ProfileSettings
  organizations : List ConfigOrganization
  observability : Option ObservabilityConfig

namespace ConfigFile

def list (file : ConfigFile) : (c : ConfigList) → List c.Entry
  | .profiles => file.profiles
  | .organizations => file.organizations

/-- `write_profiles_to_disk` and `write_organizations_to_disk`. -/
def setList (file : ConfigFile) : (c : ConfigList) → List c.Entry → ConfigFile
  | .profiles, profiles => { file with profiles := profiles }
  | .organizations, organizations => { file with organizations := organizations }

def view (file : ConfigFile) : ConfigView where
  endpoints := file.endpoints.map EndpointTable.settings
  lists := file.list
  observability := file.observability

def nameTaken (file : ConfigFile) (name : String) : Bool := file.endpoints.any fun t => t.name = name

end ConfigFile

/-- The edit a create or update request stands for. -/
def endpointEdit (original : Option String) (ep : EndpointConfig) : ListEdit String EndpointConfig :=
  match original with
  | none => .insert ep.settings
  | some orig => .replace orig ep.settings

def ConfigEdit.written : ConfigEdit → ConfigEdit
  | .endpoint e => .endpoint (e.map EndpointConfig.written)
  | e => e

/-- `write_endpoint_to_disk`, on the contents that were read. -/
def writeEndpoint (ep : EndpointConfig) (original : Option String) (file : ConfigFile) :
    Except ErrorResponse ConfigFile :=
  match original with
  | none =>
    if file.nameTaken ep.name then .error (duplicateEndpointName ep.name)
    else .ok { file with endpoints := file.endpoints ++ [endpointToTomlTable ep] }
  | some orig =>
    match file.endpoints.find? fun t => t.name = orig with
    | none => .error (errorResponse 404 "endpoint not found" (some ("No endpoint named '" ++ orig ++ "'")))
    | some existing =>
      if ep.name ≠ orig && file.nameTaken ep.name then .error (duplicateEndpointName ep.name)
      else .ok { file with endpoints := file.endpoints.replaceF fun t =>
        if t.name = orig then some { endpointToTomlTable ep with
          disabled := existing.disabled
          disabledTools := existing.disabledTools
          clientSecret := existing.clientSecret } else none }

/-- `delete_endpoint`, on the contents that were read. -/
def removeEndpoint (name : String) (file : ConfigFile) : Except ErrorResponse ConfigFile :=
  if file.nameTaken name then
    .ok { file with endpoints := file.endpoints.filter fun t => t.name ≠ name }
  else .error ⟨404, "Endpoint not found: " ++ name, none⟩

theorem name_written (ep : EndpointConfig) : ep.written.name = ep.name := rfl

variable {file file' : ConfigFile} {ep : EndpointConfig} {original : Option String}

theorem nameTaken_eq_false {name : String} (h : file.nameTaken name = false) :
    name ∉ file.view.endpoints.map EndpointConfig.name := by
  intro hmem
  obtain ⟨s, hs, rfl⟩ := List.mem_map.1 hmem
  obtain ⟨t, ht, rfl⟩ := List.mem_map.1 hs
  exact List.any_eq_false.1 h t ht (decide_eq_true rfl)

/-- The edits of the endpoint tables, seen through the view. -/
theorem view_apply (file : ConfigFile) (e : ListEdit String EndpointTable) :
    ConfigFile.view { file with endpoints := e.apply EndpointTable.name file.endpoints } =
      (ConfigEdit.endpoint (e.map EndpointTable.settings)).apply file.view := by
  unfold ConfigEdit.apply ConfigFile.view
  dsimp only
  rw [ListEdit.map_apply EndpointTable.name EndpointConfig.name (fun _ => rfl)]
  rfl

/-- **What writing an endpoint does to the file.** -/
theorem writeEndpoint_ok (h : writeEndpoint ep original file = .ok file') :
    file'.view = (ConfigEdit.endpoint (endpointEdit original ep)).written.apply file.view ∧
      (ConfigEdit.endpoint (endpointEdit original ep)).written.Admissible file.view := by
  cases original with
  | none =>
    unfold writeEndpoint at h
    dsimp only at h
    split at h
    · cases h
    · next hfree =>
      cases h
      refine ⟨view_apply file (.insert (endpointToTomlTable ep)), ?_⟩
      exact nameTaken_eq_false (Bool.not_eq_true _ ▸ hfree)
  | some orig =>
    unfold writeEndpoint at h
    dsimp only at h
    split at h
    · cases h
    · next existing hfind =>
      split at h
      · cases h
      · next hfree =>
        cases h
        refine ⟨view_apply file (.replace orig _), ?_, ?_⟩
        · have hmem := List.mem_of_find?_eq_some hfind
          have hname : existing.name = orig := by simpa using List.find?_some hfind
          rw [← hname]
          exact List.mem_map_of_mem (List.mem_map_of_mem hmem)
        · by_cases hsame : ep.name = orig
          · exact .inl hsame
          · right
            apply nameTaken_eq_false
            show file.nameTaken ep.name = false
            simpa [hsame] using hfree

/-- **What deleting an endpoint does to the file.** -/
theorem removeEndpoint_ok {name : String} (h : removeEndpoint name file = .ok file') :
    file'.view = (ConfigEdit.endpoint (.remove name)).written.apply file.view := by
  unfold removeEndpoint at h
  split at h
  · cases h
    exact view_apply file (.remove name)
  · cases h

/-! ## The config in memory -/

/-- The published config, with the observability settings of its `[relay]` table. -/
structure ManagedConfig where
  running : RunningConfig
  observability : ObservabilityConfig

namespace ManagedConfig

def endpoints (cfg : ManagedConfig) : List EndpointConfig := cfg.running.core.endpoints

def setEndpoints (cfg : ManagedConfig) (endpoints : List EndpointConfig) : ManagedConfig :=
  { cfg with running := { cfg.running with core := { cfg.running.core with endpoints := endpoints } } }

def list (cfg : ManagedConfig) : (c : ConfigList) → List c.Entry
  | .profiles => cfg.running.profiles.getD []
  | .organizations => cfg.running.core.organizations

def setList (cfg : ManagedConfig) : (c : ConfigList) → List c.Entry → ManagedConfig
  | .profiles, profiles => { cfg with running := { cfg.running with
      profiles := if profiles.isEmpty then none else some profiles } }
  | .organizations, organizations => { cfg with running := { cfg.running with
      core := { cfg.running.core with organizations := organizations } } }

def view (cfg : ManagedConfig) : ConfigView where
  endpoints := cfg.endpoints.map EndpointConfig.settings
  lists := cfg.list
  observability := some cfg.observability

/-- The new endpoints of `apply_endpoint_change`: an updated one keeps what has routes of its own. -/
def changeEndpoint (original : Option String) (ep : EndpointConfig) (cfg : ManagedConfig) :
    ManagedConfig :=
  match original with
  | none => cfg.setEndpoints (cfg.endpoints ++ [ep])
  | some orig =>
    match cfg.endpoints.find? fun e => e.name = orig with
    | none => cfg.setEndpoints (cfg.endpoints ++ [ep])
    | some existing => cfg.setEndpoints (cfg.endpoints.replaceF fun e =>
        if e.name = orig then some { ep with
          disabled := existing.disabled
          disabledTools := existing.disabledTools
          clientSecret := existing.clientSecret } else none)

end ManagedConfig

@[simp] theorem setEndpoints_endpoints (cfg : ManagedConfig) (endpoints : List EndpointConfig) :
    (cfg.setEndpoints endpoints).endpoints = endpoints := rfl

theorem setList_view (file : ConfigFile) (c : ConfigList) (e : ListEdit String c.Entry) :
    (file.setList c (e.apply c.key (file.list c))).view = (ConfigEdit.list c e).apply file.view := by
  unfold ConfigEdit.apply ConfigFile.view
  cases c with
  | profiles =>
    congr 1
    funext c
    cases c <;> rfl
  | organizations =>
    congr 1
    funext c
    cases c <;> rfl

theorem setList_list (cfg : ManagedConfig) (c : ConfigList) (l : List c.Entry) (c' : ConfigList) :
    (cfg.setList c l).list c' = Function.update cfg.list c l c' := by
  cases c with
  | profiles =>
    cases c' with
    | profiles => cases l <;> rfl
    | organizations => rfl
  | organizations => cases c' <;> rfl

theorem setList_endpoints (cfg : ManagedConfig) (c : ConfigList) (l : List c.Entry) :
    (cfg.setList c l).endpoints = cfg.endpoints := by
  cases c <;> rfl

theorem setList_observability (cfg : ManagedConfig) (c : ConfigList) (l : List c.Entry) :
    (cfg.setList c l).observability = cfg.observability := by
  cases c <;> rfl

theorem changeEndpoint_list (cfg : ManagedConfig) (original : Option String) (ep : EndpointConfig)
    (c : ConfigList) : (cfg.changeEndpoint original ep).list c = cfg.list c := by
  unfold ManagedConfig.changeEndpoint
  split
  · cases c <;> rfl
  · split <;> cases c <;> rfl

theorem changeEndpoint_observability (cfg : ManagedConfig) (original : Option String)
    (ep : EndpointConfig) : (cfg.changeEndpoint original ep).observability = cfg.observability := by
  unfold ManagedConfig.changeEndpoint
  split
  · rfl
  · split <;> rfl

/-- The entry a changed endpoint ends up as. -/
def effectiveEndpoint (original : Option String) (ep : EndpointConfig) (cfg : ManagedConfig) :
    EndpointConfig :=
  match original.bind fun orig => cfg.endpoints.find? fun e => e.name = orig with
  | none => ep
  | some existing => { ep with
      disabled := existing.disabled
      disabledTools := existing.disabledTools
      clientSecret := existing.clientSecret }

theorem effectiveEndpoint_settings (original : Option String) (ep : EndpointConfig)
    (cfg : ManagedConfig) : (effectiveEndpoint original ep cfg).settings = ep.settings := by
  unfold effectiveEndpoint
  split <;> rfl

theorem effectiveEndpoint_name (original : Option String) (ep : EndpointConfig)
    (cfg : ManagedConfig) : (effectiveEndpoint original ep cfg).name = ep.name := by
  show (effectiveEndpoint original ep cfg).settings.name = ep.settings.name
  rw [effectiveEndpoint_settings]

theorem settings_names (endpoints : List EndpointConfig) :
    (endpoints.map EndpointConfig.settings).map EndpointConfig.name =
      endpoints.map EndpointConfig.name := by
  rw [List.map_map]
  rfl

/-- The endpoints after a change, as an edit of the list. -/
theorem changeEndpoint_endpoints {cfg : ManagedConfig}
    (hadm : (endpointEdit original ep).Admissible EndpointConfig.name cfg.view.endpoints) :
    (cfg.changeEndpoint original ep).endpoints =
      (match original with
        | none => ListEdit.insert (effectiveEndpoint original ep cfg)
        | some orig => .replace orig (effectiveEndpoint original ep cfg)).apply EndpointConfig.name
          cfg.endpoints := by
  cases original with
  | none => rfl
  | some orig =>
    have hmem : orig ∈ cfg.endpoints.map EndpointConfig.name := settings_names _ ▸ hadm.1
    unfold ManagedConfig.changeEndpoint effectiveEndpoint
    dsimp only [Option.bind_some]
    cases hfind : cfg.endpoints.find? fun e => e.name = orig with
    | some existing => rfl
    | none =>
      obtain ⟨e, he, hname⟩ := List.mem_map.1 hmem
      exact absurd (decide_eq_true hname) (List.find?_eq_none.1 hfind e he)

/-- **What a changed endpoint does to the config in memory.** -/
theorem changeEndpoint_view {cfg : ManagedConfig}
    (hadm : (endpointEdit original ep).Admissible EndpointConfig.name cfg.view.endpoints) :
    (cfg.changeEndpoint original ep).view.endpoints =
      (endpointEdit original ep).apply EndpointConfig.name cfg.view.endpoints := by
  show (cfg.changeEndpoint original ep).endpoints.map _ = _
  rw [changeEndpoint_endpoints hadm, ListEdit.map_apply (f := EndpointConfig.settings)
    EndpointConfig.name EndpointConfig.name (fun _ => rfl)]
  cases original with
  | none => exact congrArg (fun s => ListEdit.apply _ (.insert s) _) (effectiveEndpoint_settings _ _ _)
  | some orig =>
    exact congrArg (fun s => ListEdit.apply _ (.replace orig s) _) (effectiveEndpoint_settings _ _ _)

/-! ## Flags -/

/-- A request to disable or to enable an endpoint, or one of its tools. -/
structure FlagChange where
  endpoint : String
  tool : Option String
  disable : Bool

namespace FlagChange

def apply (f : FlagChange) (flags : Flags) : Flags :=
  match f.tool with
  | none => (f.disable, flags.2)
  | some tool => (flags.1, if f.disable then flags.2.insert tool else flags.2.filter (· ≠ tool))

/-- What the change asks of the flags. -/
def Holds (f : FlagChange) (flags : Flags) : Prop :=
  match f.tool with
  | none => flags.1 = f.disable
  | some tool => tool ∈ flags.2 ↔ f.disable = true

/-- A change of the same flag. -/
def Overrides (f' f : FlagChange) : Prop := f'.endpoint = f.endpoint ∧ f'.tool = f.tool

variable {f f' : FlagChange} {flags : Flags}

theorem holds_apply : f.Holds (f.apply flags) := by
  obtain ⟨endpoint, tool, disable⟩ := f
  cases tool with
  | none => rfl
  | some tool => cases disable <;> simp [Holds, apply]

theorem Holds.apply (h : f.Holds flags) (hne : f'.tool ≠ f.tool) : f.Holds (f'.apply flags) := by
  obtain ⟨endpoint, tool, disable⟩ := f
  obtain ⟨endpoint', tool', disable'⟩ := f'
  cases tool' with
  | none =>
    cases tool with
    | none => exact absurd rfl hne
    | some tool => exact h
  | some tool' =>
    cases tool with
    | none => exact h
    | some tool =>
      have htool : tool ≠ tool' := fun heq => hne (congrArg some heq.symm)
      have h : tool ∈ flags.2 ↔ disable = true := h
      cases disable' <;> simp [Holds, FlagChange.apply, htool, h]

end FlagChange

namespace ReloadState

/-- The flags of a registered endpoint. -/
def flagsOf (st : ReloadState) (name : String) : Option Flags :=
  (st.entries.lookup name).map ManagedEntry.flags

def setFlag (f : FlagChange) (st : ReloadState) : ReloadState :=
  { st with entries := st.entries.modify f.endpoint fun entry => entry.setFlags (f.apply entry.flags) }

theorem flagsOf_setFlag (f : FlagChange) (st : ReloadState) (name : String) :
    (st.setFlag f).flagsOf name =
      if name = f.endpoint then (st.flagsOf name).map f.apply else st.flagsOf name := by
  unfold flagsOf setFlag
  rw [AList.lookup_modify]
  split
  · rw [Option.map_map, Option.map_map]
    rfl
  · rfl

end ReloadState

/-- An endpoint with the flags of its entry. -/
def EndpointConfig.mirror (registry : ReloadState) (ep : EndpointConfig) : EndpointConfig :=
  match registry.flagsOf ep.name with
  | some flags => { ep with disabled := flags.1, disabledTools := flags.2 }
  | none => ep

/-- `persist_disabled_state`, in memory: the flags of every entry are mirrored. -/
def ManagedConfig.mirrorFlags (registry : ReloadState) (cfg : ManagedConfig) : ManagedConfig :=
  cfg.setEndpoints (cfg.endpoints.map (EndpointConfig.mirror registry))

def EndpointTable.persist (cfg : ManagedConfig) (t : EndpointTable) : EndpointTable :=
  match cfg.endpoints.find? fun ep => ep.name = t.name with
  | some ep => { t with disabled := some ep.disabled, disabledTools := some ep.disabledTools }
  | none => t

/-- `persist_disabled_state`, on the contents that were read. -/
def persistFlags (cfg : ManagedConfig) (file : ConfigFile) : ConfigFile :=
  { file with endpoints := file.endpoints.map (EndpointTable.persist cfg) }

/-- The endpoints of a config have the flags of their entries. -/
def Mirrored (registry : ReloadState) (endpoints : List EndpointConfig) : Prop :=
  ∀ ep ∈ endpoints, ∀ flags, registry.flagsOf ep.name = some flags → ep.flags = flags

/-- The tables of the file have the flags of their entries. -/
def FlagsWritten (registry : ReloadState) (tables : List EndpointTable) : Prop :=
  ∀ t ∈ tables, ∀ flags, registry.flagsOf t.name = some flags → t.flags = flags

section Persist

variable {registry : ReloadState} {cfg : ManagedConfig} {file : ConfigFile}

theorem mirror_settings (ep : EndpointConfig) : (ep.mirror registry).settings = ep.settings := by
  unfold EndpointConfig.mirror
  split <;> rfl

theorem mirror_name (ep : EndpointConfig) : (ep.mirror registry).name = ep.name := by
  show (ep.mirror registry).settings.name = ep.settings.name
  rw [mirror_settings]

theorem mirrorFlags_endpoints :
    (cfg.mirrorFlags registry).endpoints = cfg.endpoints.map (EndpointConfig.mirror registry) := rfl

theorem mirrorFlags_view_endpoints : (cfg.mirrorFlags registry).view.endpoints = cfg.view.endpoints := by
  show (cfg.mirrorFlags registry).endpoints.map _ = cfg.endpoints.map _
  rw [mirrorFlags_endpoints, List.map_map]
  exact List.map_congr_left fun ep _ => mirror_settings ep

theorem mirrorFlags_list (c : ConfigList) : (cfg.mirrorFlags registry).list c = cfg.list c := by
  cases c <;> rfl

/-- After the mirroring the config has the flags of the registry. -/
theorem mirrored_mirrorFlags : Mirrored registry (cfg.mirrorFlags registry).endpoints := by
  intro ep hep flags hflags
  obtain ⟨ep, -, rfl⟩ := List.mem_map.1 hep
  rw [mirror_name] at hflags
  simp [EndpointConfig.mirror, hflags, EndpointConfig.flags]

theorem persist_settings (t : EndpointTable) : (t.persist cfg).settings = t.settings := by
  unfold EndpointTable.persist
  split <;> rfl

theorem persist_name (t : EndpointTable) : (t.persist cfg).name = t.name :=
  congrArg EndpointConfig.name (persist_settings t)

theorem persistFlags_view : (persistFlags cfg file).view = file.view := by
  unfold ConfigFile.view persistFlags
  congr 1
  rw [List.map_map]
  exact List.map_congr_left fun t _ => persist_settings t

/-- After the write the file has the flags of the registry, if the config has them. -/
theorem flagsWritten_persistFlags (hmirrored : Mirrored registry cfg.endpoints)
    (hnames : ∀ name, (registry.flagsOf name).isSome = true →
      name ∈ cfg.endpoints.map EndpointConfig.name) :
    FlagsWritten registry (persistFlags cfg file).endpoints := by
  intro t ht flags hflags
  obtain ⟨t, -, rfl⟩ := List.mem_map.1 ht
  rw [persist_name] at hflags
  obtain ⟨ep, hep, hname⟩ := List.mem_map.1 (hnames t.name (hflags ▸ rfl))
  cases hfind : cfg.endpoints.find? fun ep => ep.name = t.name with
  | none => exact absurd (decide_eq_true hname) (List.find?_eq_none.1 hfind ep hep)
  | some found =>
    have hname : found.name = t.name := by simpa using List.find?_some hfind
    have hfound := hmirrored found (List.mem_of_find?_eq_some hfind) flags (hname ▸ hflags)
    rw [← hfound]
    simp [EndpointTable.persist, hfind, EndpointTable.flags, EndpointConfig.flags]

end Persist

/-! ## The flags of a table that is written -/

theorem mem_replaceF {α : Type} {p : α → Option α} {l : List α} {x : α} (h : x ∈ l.replaceF p) :
    x ∈ l ∨ ∃ y ∈ l, p y = some x := by
  obtain heq | ⟨y, x', l₁, l₂, -, hy, rfl, heq⟩ := List.exists_or_eq_self_of_replaceF p l
  · rw [heq] at h
    exact .inl h
  · rw [heq] at h
    simp only [List.mem_append, List.mem_cons] at h ⊢
    rcases h with h | rfl | h
    · exact .inl (.inl h)
    · exact .inr ⟨y, by simp, hy⟩
    · exact .inl (.inr (.inr h))

/-- The flags a written table has: none for a new endpoint, those it had for an updated one. -/
theorem writeEndpoint_tables (h : writeEndpoint ep original file = .ok file') {t : EndpointTable}
    (ht : t ∈ file'.endpoints) :
    t ∈ file.endpoints ∨ t.name = ep.name ∧ match original with
      | none => t.flags = (false, [])
      | some orig => ∃ existing ∈ file.endpoints, existing.name = orig ∧ t.flags = existing.flags := by
  cases original with
  | none =>
    unfold writeEndpoint at h
    dsimp only at h
    split at h
    · cases h
    · cases h
      rcases List.mem_append.1 ht with ht | ht
      · exact .inl ht
      · rw [List.mem_singleton.1 ht]
        exact .inr ⟨rfl, rfl⟩
  | some orig =>
    unfold writeEndpoint at h
    dsimp only at h
    split at h
    · cases h
    · next existing hfind =>
      split at h
      · cases h
      · cases h
        refine (mem_replaceF ht).imp_right fun ⟨y, _, hsome⟩ => ?_
        have hname : existing.name = orig := by simpa using List.find?_some hfind
        by_cases hy : y.name = orig
        · rw [if_pos hy] at hsome
          cases hsome
          exact ⟨rfl, existing, List.mem_of_find?_eq_some hfind, hname, rfl⟩
        · rw [if_neg hy] at hsome
          cases hsome

/-! ## The registry after a change of the config -/

section Registry

variable {old new : Config} {inputs : ReloadInputs} {st : ReloadState} {name : String}

theorem endpointMap_lookup_eq_none_iff {cfg : Config} :
    cfg.endpointMap.lookup name = none ↔ name ∉ cfg.endpoints.map EndpointConfig.name := by
  rw [endpointMap_lookup_eq_none, List.head?_eq_none_iff, Config.named, List.filter_eq_nil_iff]
  simp

theorem endpointMap_lookup_mem {cfg : Config} (h : cfg.endpointMap.lookup name = some ep) :
    ep ∈ cfg.endpoints ∧ ep.name = name := by
  rw [endpointMap_lookup] at h
  exact mem_named.1 (List.mem_of_getLast? h)

/-- The flags of a name after a diff is applied. -/
theorem flagsOf_applyDiff :
    (applyDiffGraceful (diffConfigs old new) inputs st).flagsOf name =
      match new.endpointMap.lookup name, old.endpointMap.lookup name with
      | none, none => st.flagsOf name
      | none, some _ => none
      | some ep, none => some ep.flags
      | some ep, some oldEp =>
        if oldEp.eq ep then st.flagsOf name else some ((st.flagsOf name).getD ep.flags) := by
  have h := congrArg Prod.fst (applyDiffGraceful_diff_at old new inputs st name)
  unfold ReloadState.flagsOf
  show Option.map _ ((applyDiffGraceful (diffConfigs old new) inputs st).at name).1 = _
  rw [h]
  cases hnew : new.endpointMap.lookup name with
  | none => cases hold : old.endpointMap.lookup name <;> rfl
  | some ep =>
    cases hold : old.endpointMap.lookup name with
    | none => rfl
    | some oldEp =>
      by_cases heq : oldEp.eq ep = true
      · simp only [heq, if_true]
        rfl
      · simp only [heq, if_false, Bool.false_eq_true]
        show some (flagsAt (st.entries.lookup name) ep) = _
        cases st.entries.lookup name <;> rfl

/-- The registry has the names of the new config when it had those of the old one. -/
theorem registered_applyDiff
    (h : ∀ name, (st.flagsOf name).isSome = true ↔ name ∈ old.endpoints.map EndpointConfig.name) :
    ((applyDiffGraceful (diffConfigs old new) inputs st).flagsOf name).isSome = true ↔
      name ∈ new.endpoints.map EndpointConfig.name := by
  rw [flagsOf_applyDiff]
  cases hnew : new.endpointMap.lookup name with
  | none =>
    have habsent := endpointMap_lookup_eq_none_iff.1 hnew
    cases hold : old.endpointMap.lookup name with
    | none =>
      have hnone := mt (h name).1 (endpointMap_lookup_eq_none_iff.1 hold)
      exact ⟨fun hs => absurd hs hnone, fun hm => absurd hm habsent⟩
    | some oldEp => exact ⟨fun hs => absurd hs Bool.false_ne_true, fun hm => absurd hm habsent⟩
  | some ep =>
    obtain ⟨hep, rfl⟩ := endpointMap_lookup_mem hnew
    have hmem := List.mem_map_of_mem (f := EndpointConfig.name) hep
    cases hold : old.endpointMap.lookup ep.name with
    | none => exact ⟨fun _ => hmem, fun _ => rfl⟩
    | some oldEp =>
      refine ⟨fun _ => hmem, fun _ => ?_⟩
      dsimp only
      split
      · rw [h]
        obtain ⟨hoep, hname⟩ := endpointMap_lookup_mem hold
        exact hname ▸ List.mem_map_of_mem hoep
      · rfl

/-- A name in both configs keeps its flags. -/
theorem flagsOf_applyDiff_kept (hreg : (st.flagsOf name).isSome = true)
    (hold : name ∈ old.endpoints.map EndpointConfig.name)
    (hnew : name ∈ new.endpoints.map EndpointConfig.name) :
    (applyDiffGraceful (diffConfigs old new) inputs st).flagsOf name = st.flagsOf name := by
  rw [flagsOf_applyDiff]
  cases hn : new.endpointMap.lookup name with
  | none => exact absurd hnew (endpointMap_lookup_eq_none_iff.1 hn)
  | some ep =>
    cases ho : old.endpointMap.lookup name with
    | none => exact absurd hold (endpointMap_lookup_eq_none_iff.1 ho)
    | some oldEp =>
      dsimp only
      split
      · rfl
      · obtain ⟨flags, hflags⟩ := Option.isSome_iff_exists.1 hreg
        rw [hflags]
        rfl

/-- A new name has the flags of its only endpoint. -/
theorem flagsOf_applyDiff_added (hold : ep.name ∉ old.endpoints.map EndpointConfig.name)
    (hmem : ep ∈ new.endpoints) (honly : ∀ other ∈ new.endpoints, other.name = ep.name → other = ep) :
    (applyDiffGraceful (diffConfigs old new) inputs st).flagsOf ep.name = some ep.flags := by
  rw [flagsOf_applyDiff, endpointMap_lookup_eq_none_iff.2 hold]
  cases hn : new.endpointMap.lookup ep.name with
  | none => exact absurd (List.mem_map_of_mem hmem) (endpointMap_lookup_eq_none_iff.1 hn)
  | some last =>
    obtain ⟨hlast, hname⟩ := endpointMap_lookup_mem hn
    rw [honly last hlast hname]

end Registry

end EndaraRelay
