import EndaraRelay.Reload

/-!
# When hot reload equals cold start

Does a reload from `old` to `new` leave the registry that a cold start from `new` builds? Both
registries are first read one endpoint name at a time:

* `coldStart_lookup`: the entry of a name is `coldEntry` of its *first* endpoint.
* `hotReload_lookup`: it is absent, kept from the cold start of `old`, or rebuilt from its *last*
  endpoint, as the diff says.

`hot_reload_eq_cold_start_iff` compares the two. They differ where the diff keeps an entry although
a setting outside its comparison changed, where a rebuilt EMA endpoint goes over the `oauth`
transport, where flags were carried over, and where a name is given to two endpoints.
`coldEntry_eq_iff_of_eq` spells out the settings outside the comparison: the description, the
flags, the token endpoint, the insecure-OAuth flag and the resolved organization.
-/

namespace EndaraRelay

open Verif

/-! ## The endpoints of a name -/

/-- The endpoints of a name, in the order of the config. -/
def Config.named (cfg : Config) (name : String) : List EndpointConfig :=
  cfg.endpoints.filter fun ep => ep.name = name

theorem filter_name_eq (cfg : Config) (name : String) :
    (cfg.endpoints.filter fun ep => ep.name = name) = cfg.named name := rfl

variable {cfg new old : Config} {name : String} {a b ep : EndpointConfig}

theorem mem_named : ep ∈ cfg.named name ↔ ep ∈ cfg.endpoints ∧ ep.name = name := by
  simp [Config.named]

theorem endpointMap_lookup (cfg : Config) (name : String) :
    cfg.endpointMap.lookup name = (cfg.named name).getLast? := by
  have hstep : ∀ (m : Table String EndpointConfig) (ep : EndpointConfig),
      (m.insert ep.name ep).lookup name =
        if decide (ep.name = name) then some ep else m.lookup name := by
    intro m ep
    by_cases h : ep.name = name
    · subst h
      simp
    · simp [h, AList.lookup_insert_ne (Ne.symm h)]
  have hlast : ∀ (l : List EndpointConfig) (o : Option EndpointConfig),
      l.foldl (fun _ ep => some ep) o = l.getLast?.or o := by
    intro l
    induction l with
    | nil => intro o; rfl
    | cons ep l ih =>
      intro o
      rw [List.foldl_cons, ih, List.getLast?_cons]
      cases l.getLast? <;> rfl
  rw [Config.endpointMap, foldl_view (v := fun m => AList.lookup name m)
    (w := fun ep _ => some ep) hstep, hlast, filter_name_eq]
  simp

/-- In an accepted config, the first and the last endpoint of a name are told apart by their
prefixes. -/
theorem first_eq_last_of_prefix (hvalid : cfg.validate = .ok ()) {first last : EndpointConfig}
    (hfirst : (cfg.named name).head? = some first) (hlast : (cfg.named name).getLast? = some last)
    (hpre : first.resolvedToolPrefix = last.resolvedToolPrefix) : first = last := by
  have hpair : (cfg.named name).Pairwise fun a b => a.resolvedToolPrefix ≠ b.resolvedToolPrefix :=
    (validate_ok hvalid).2.filter _
  cases hn : cfg.named name with
  | nil => simp [hn] at hfirst
  | cons ep eps =>
    obtain rfl : ep = first := by simpa [hn] using hfirst
    rw [hn, List.getLast?_cons, Option.some.injEq] at hlast
    cases he : eps.getLast? with
    | none => simpa [he] using hlast
    | some ep' =>
      obtain rfl : ep' = last := by simpa [he] using hlast
      rw [hn, List.pairwise_cons] at hpair
      exact absurd hpre (hpair.1 ep' (List.mem_of_getLast? he))

/-! ## Cold start, one name at a time -/

theorem find?_firstEndpoints {eps : List EndpointConfig} (hne : ∀ ep ∈ eps, ep.name ≠ "")
    (registered : List String) (name : String) :
    (firstEndpoints registered eps).find? (fun ep => ep.name = name) =
      if name ∈ registered then none else eps.find? fun ep => ep.name = name := by
  induction eps generalizing registered with
  | nil => simp [firstEndpoints]
  | cons ep eps ih =>
    have hep : ep.name ≠ "" := hne ep List.mem_cons_self
    have ih := ih fun ep' h => hne ep' (List.mem_cons_of_mem _ h)
    by_cases hreg : ep.name ∈ registered
    · rw [firstEndpoints, if_pos ⟨hep, hreg⟩, ih]
      by_cases hname : ep.name = name
      · simp [← hname, hreg]
      · simp [hname]
    · rw [firstEndpoints, if_neg (by simp [hreg]), List.find?_cons]
      by_cases hname : ep.name = name
      · subst hname
        simp [hreg]
      · have hname' : ¬ name = ep.name := fun h => hname h.symm
        simp [hname, hname', ih]

theorem firstEndpoints_nodup {eps : List EndpointConfig} (hne : ∀ ep ∈ eps, ep.name ≠ "")
    (registered : List String) :
    ((firstEndpoints registered eps).map (·.name)).Nodup ∧
      ∀ ep ∈ firstEndpoints registered eps, ep.name ∉ registered := by
  induction eps generalizing registered with
  | nil => simp [firstEndpoints]
  | cons ep eps ih =>
    have hep : ep.name ≠ "" := hne ep List.mem_cons_self
    have ih := ih fun ep' h => hne ep' (List.mem_cons_of_mem _ h)
    by_cases hreg : ep.name ∈ registered
    · rw [firstEndpoints, if_pos ⟨hep, hreg⟩]
      exact ih registered
    · rw [firstEndpoints, if_neg (by simp [hreg])]
      obtain ⟨hnd, hnot⟩ := ih (ep.name :: registered)
      refine ⟨List.nodup_cons.2 ⟨?_, hnd⟩, ?_⟩
      · rw [List.mem_map]
        rintro ⟨ep', hep', hname⟩
        exact hnot ep' hep' (by simp [hname])
      · rintro ep' (_ | ⟨_, hep'⟩)
        · exact hreg
        · exact fun h => hnot ep' hep' (List.mem_cons_of_mem _ h)

/-- The flags a config gives to a name. -/
def Config.flagsOf (cfg : Config) (name : String) : Flags :=
  (cfg.named name).foldl addFlags (false, [])

/-- The adapter a cold start leaves for an endpoint. -/
def coldSpec (cfg : Config) (ep : EndpointConfig) : AdapterSpec :=
  match warningMessage cfg.warnings ep.name with
  | some msg => .failed msg ep.serverTypeOverride
  | none => startupAdapter cfg.insecure cfg.organizations ep

/-- The entry a cold start leaves for the first endpoint of a name. -/
def coldEntry (cfg : Config) (ep : EndpointConfig) : ManagedEntry where
  adapter := ⟨coldSpec cfg ep, isWarned cfg.warnings ep.name || !(cfg.flagsOf ep.name).1⟩
  transport := ep.transport.display
  description := ep.description
  toolPrefix := ep.resolvedToolPrefix
  disabled := (cfg.flagsOf ep.name).1
  disabledTools := (cfg.flagsOf ep.name).2

theorem foldl_setFlags (l : List EndpointConfig) (o : Option ManagedEntry) :
    l.foldl (fun o ep => o.map fun entry => entry.setFlags (addFlags entry.flags ep)) o =
      o.map fun entry => entry.setFlags (l.foldl addFlags entry.flags) := by
  induction l generalizing o with
  | nil => cases o <;> rfl
  | cons ep l ih =>
    rw [List.foldl_cons, ih]
    cases o <;> rfl

theorem lookup_modify_view (name : String) (entries : ManagedEntries) (k : String)
    (f : ManagedEntry → ManagedEntry) :
    (entries.modify k f).lookup name =
      if decide (k = name) then (entries.lookup name).map f else entries.lookup name := by
  rw [AList.lookup_modify]
  by_cases h : k = name
  · simp [h]
  · have h' : ¬ name = k := fun e => h e.symm
    simp [h, h']

/-- The built adapter in its entry. -/
def ManagedEntry.install (cfg : Config) (ep : EndpointConfig) (entry : ManagedEntry) : ManagedEntry :=
  { entry with adapter := ⟨startupAdapter cfg.insecure cfg.organizations ep, !entry.disabled⟩ }

theorem installAtStartup_lookup (cfg : Config) (name : String) (entries : ManagedEntries)
    (ep : EndpointConfig) :
    (installAtStartup cfg entries ep).lookup name =
      if decide (ep.name = name) then (entries.lookup name).map (ManagedEntry.install cfg ep)
      else entries.lookup name :=
  lookup_modify_view name entries ep.name (ManagedEntry.install cfg ep)

theorem applyDisabledState_lookup (name : String) (entries : ManagedEntries) (ep : EndpointConfig) :
    (applyDisabledState entries ep).lookup name =
      if decide (ep.name = name) then
        (entries.lookup name).map fun entry => entry.setFlags (addFlags entry.flags ep)
      else entries.lookup name :=
  lookup_modify_view name entries ep.name _

theorem insert_placeholder_lookup (cfg : Config) (name : String) (entries : ManagedEntries)
    (ep : EndpointConfig) :
    (entries.insert ep.name (registeredAs ep (placeholder cfg.warnings ep))).lookup name =
      if decide (ep.name = name) then some (registeredAs ep (placeholder cfg.warnings ep))
      else entries.lookup name := by
  by_cases h : ep.name = name
  · subst h
    simp
  · simp [h, AList.lookup_insert_ne (Ne.symm h)]

/-- **What a cold start leaves under a name.** -/
theorem coldStart_lookup (hvalid : cfg.validate = .ok ()) (name : String) :
    (coldStart cfg).lookup name = ((cfg.named name).head?).map (coldEntry cfg) := by
  have hne : ∀ ep ∈ cfg.endpoints, ep.name ≠ "" := fun ep h => ((validate_ok hvalid).1 ep h).name_ne
  obtain ⟨hnd, -⟩ := firstEndpoints_nodup hne []
  have hfind := find?_firstEndpoints hne [] name
  rw [if_neg List.not_mem_nil] at hfind
  have hfirst : (firstEndpoints [] cfg.endpoints).filter (fun ep => ep.name = name) =
      ((cfg.named name).head?).toList := by
    rw [filter_key_eq hnd, hfind, Config.named, List.head?_filter]
  rw [coldStart, foldl_view (v := fun m => AList.lookup name m) (installAtStartup_lookup cfg name),
    foldl_view (v := fun m => AList.lookup name m) (applyDisabledState_lookup name),
    foldl_view (v := fun m => AList.lookup name m) (w := fun ep _ =>
      some (registeredAs ep (placeholder cfg.warnings ep))) (insert_placeholder_lookup cfg name),
    filter_name_eq, foldl_setFlags, List.filter_comm, hfirst]
  cases hhead : (cfg.named name).head? with
  | none => simp
  | some ep =>
    obtain ⟨-, rfl⟩ := mem_named.1 (List.mem_of_head? hhead)
    cases hw : warningMessage cfg.warnings ep.name with
    | some msg =>
      simp [isWarned, hw, registeredAs, placeholder, coldEntry, coldSpec, ManagedEntry.setFlags,
        ManagedEntry.flags, Config.flagsOf]
    | none =>
      simp [isWarned, hw, registeredAs, placeholder, coldEntry, coldSpec, ManagedEntry.setFlags,
        ManagedEntry.flags, ManagedEntry.install, Config.flagsOf]

/-! ## Hot reload, one name at a time -/

/-- The entry a rebuilt endpoint ends with, given its flags. -/
def rebuiltEntry (inputs : ReloadInputs) (ep : EndpointConfig) (flags : Flags) : ManagedEntry where
  adapter :=
    match warningMessage inputs.warnings ep.name with
    | some msg => ⟨.failed msg ep.serverTypeOverride, true⟩
    | none => ⟨createAdapter inputs.allowInsecure inputs.organizations ep, !flags.1⟩
  transport := ep.transport.display
  description := ep.description
  toolPrefix := ep.resolvedToolPrefix
  disabled := flags.1
  disabledTools := flags.2

/-- What concerns one name in the state of a reload: its entry and its tasks. -/
def ReloadState.at (st : ReloadState) (name : String) : Option ManagedEntry × List InitTask :=
  (st.entries.lookup name, st.tasks.filter fun task => task.name = name)

/-- The entry and tasks of a name once its endpoint is registered with flags. -/
def registeredAt (inputs : ReloadInputs) (ep : EndpointConfig) (flags : Flags)
    (tasks : List InitTask) : Option ManagedEntry × List InitTask :=
  (some ((registeredAs ep (placeholder inputs.warnings ep)).setFlags flags),
    if isWarned inputs.warnings ep.name then tasks
    else tasks ++ [⟨ep.name, ep, inputs.allowInsecure, inputs.organizations, flags.1⟩])

theorem registerAndSpawn_at (inputs : ReloadInputs) (ep : EndpointConfig) (flags : Flags)
    (st : ReloadState) (name : String) :
    (registerAndSpawn inputs ep.name ep flags st).at name =
      if decide (ep.name = name) then registeredAt inputs ep flags (st.at name).2
      else st.at name := by
  by_cases h : ep.name = name
  · subst h
    simp only [ReloadState.at, registerAndSpawn, registeredAt, AList.lookup_modify_self,
      AList.lookup_insert, Option.map_some, decide_true, if_true]
    split
    · rfl
    · simp
  · have h' : ¬ name = ep.name := fun e => h e.symm
    simp only [ReloadState.at, registerAndSpawn, AList.lookup_modify_ne h',
      AList.lookup_insert_ne h', h, decide_false, Bool.false_eq_true, if_false]
    split
    · rfl
    · simp [h]

theorem applyRemoved_at (st : ReloadState) (removed name : String) :
    (applyRemoved st removed).at name =
      if decide (removed = name) then (none, (st.at name).2) else st.at name := by
  by_cases h : removed = name
  · subst h
    simp [ReloadState.at, applyRemoved]
  · have h' : name ≠ removed := fun e => h e.symm
    simp [ReloadState.at, applyRemoved, h, AList.lookup_erase_ne h']

theorem applyAdded_at (inputs : ReloadInputs) (st : ReloadState) (ep : EndpointConfig)
    (name : String) :
    (applyAdded inputs st ep).at name =
      if decide (ep.name = name) then
        registeredAt inputs ep (ep.disabled, ep.disabledTools) (st.at name).2
      else st.at name :=
  registerAndSpawn_at inputs ep _ st name

/-- The flags kept from the entry of a name. -/
def flagsAt (o : Option ManagedEntry) (ep : EndpointConfig) : Flags :=
  match o with
  | some entry => entry.flags
  | none => (ep.disabled, ep.disabledTools)

theorem applyChanged_at (inputs : ReloadInputs) (st : ReloadState) (ep : EndpointConfig)
    (name : String) :
    (applyChanged inputs st (ep.name, ep)).at name =
      if decide (ep.name = name) then
        registeredAt inputs ep (flagsAt (st.at name).1 ep) (st.at name).2
      else st.at name := by
  rw [applyChanged, registerAndSpawn_at, applyRemoved_at]
  by_cases h : ep.name = name
  · subst h
    simp only [decide_true, if_true]
    rfl
  · simp [h]

theorem foldl_applyRemoved_at (removed : List String) (st : ReloadState) (name : String) :
    (removed.foldl applyRemoved st).at name =
      if name ∈ removed then (none, (st.at name).2) else st.at name := by
  induction removed generalizing st with
  | nil => simp
  | cons r removed ih =>
    rw [List.foldl_cons, ih, applyRemoved_at]
    by_cases h : r = name
    · simp [h]
    · have h' : ¬ name = r := fun e => h e.symm
      simp [h, h']

/-- A loop over endpoints of distinct names, at one of the names. -/
theorem foldl_endpoints_at {f : ReloadState → EndpointConfig → ReloadState}
    {w : EndpointConfig → Option ManagedEntry × List InitTask →
      Option ManagedEntry × List InitTask}
    (h : ∀ st ep, (f st ep).at name = if decide (ep.name = name) then w ep (st.at name) else st.at name)
    {eps : List EndpointConfig} (hnd : (eps.map (·.name)).Nodup) (st : ReloadState) :
    (eps.foldl f st).at name =
      match eps.find? fun ep => ep.name = name with
      | some ep => w ep (st.at name)
      | none => st.at name := by
  rw [foldl_view (v := fun st => ReloadState.at st name) (w := w) h, filter_key_eq hnd]
  cases eps.find? fun ep => ep.name = name <;> rfl

/-- The endpoints of a map are found by their names. -/
theorem endpointMap_entry {e : Sigma fun _ : String => EndpointConfig}
    (he : e ∈ cfg.endpointMap.entries) : e.2.name = e.1 := by
  have hl := AList.mem_entries_iff.1 he
  rw [endpointMap_lookup] at hl
  exact (mem_named.1 (List.mem_of_getLast? hl)).2

/-- The endpoints of a map that pass a test. -/
def Config.endpointsWith (cfg : Config) (p : String → EndpointConfig → Bool) : List EndpointConfig :=
  (cfg.endpointMap.entries.filter fun e => p e.1 e.2).map (·.2)

theorem endpointsWith_nodup (cfg : Config) (p : String → EndpointConfig → Bool) :
    ((cfg.endpointsWith p).map (·.name)).Nodup := by
  have hkeys : (cfg.endpointsWith p).map (·.name) =
      (cfg.endpointMap.entries.filter fun e => p e.1 e.2).keys := by
    rw [Config.endpointsWith, List.map_map, List.keys]
    exact List.map_congr_left fun e he => endpointMap_entry (List.mem_of_mem_filter he)
  rw [hkeys]
  exact cfg.endpointMap.nodupKeys.sublist List.filter_sublist

/-- The endpoints that pass a test, at one name. -/
theorem find?_endpointsWith (cfg : Config) (p : String → EndpointConfig → Bool) (name : String) :
    ((cfg.endpointsWith p).find? fun ep => ep.name = name) =
      (cfg.endpointMap.lookup name).filter (p name) := by
  ext ep
  rw [find?_key_eq_some_iff (endpointsWith_nodup cfg p), Option.filter_eq_some_iff]
  constructor
  · rintro ⟨hmem, rfl⟩
    obtain ⟨e, he, rfl⟩ := List.mem_map.1 hmem
    obtain ⟨he, hp⟩ := List.mem_filter.1 he
    rw [endpointMap_entry he]
    exact ⟨AList.mem_entries_iff.1 he, hp⟩
  · rintro ⟨hl, hp⟩
    have he := AList.mem_entries_iff.2 hl
    exact ⟨List.mem_map.2 ⟨_, List.mem_filter.2 ⟨he, hp⟩, rfl⟩, endpointMap_entry he⟩

/-- Where an endpoint of the new config stands towards the old one. -/
def isAdded (old : Config) (name : String) : Bool := (old.endpointMap.lookup name).isNone

def isChanged (old : Config) (name : String) (ep : EndpointConfig) : Bool :=
  match old.endpointMap.lookup name with
  | none => false
  | some oldEp => !oldEp.eq ep

theorem diffConfigs_added (old new : Config) :
    (diffConfigs old new).added = new.endpointsWith fun name _ => isAdded old name := rfl

theorem diffConfigs_changed (old new : Config) :
    (diffConfigs old new).changed = (new.endpointsWith (isChanged old)).map fun ep => (ep.name, ep) := by
  rw [Config.endpointsWith, List.map_map]
  exact List.map_congr_left fun e he =>
    Prod.ext (endpointMap_entry (List.mem_of_mem_filter he)).symm rfl

def ManagedEntry.finish (task : InitTask) (entry : ManagedEntry) : ManagedEntry :=
  { entry with adapter := ⟨task.spec, !task.wasDisabled⟩ }

theorem finishInit_lookup (name : String) (entries : ManagedEntries) (task : InitTask) :
    (finishInit entries task).lookup name =
      if decide (task.name = name) then (entries.lookup name).map (ManagedEntry.finish task)
      else entries.lookup name :=
  lookup_modify_view name entries task.name (ManagedEntry.finish task)

/-- The entry of a name once its tasks have finished. -/
def finishAt (s : Option ManagedEntry × List InitTask) : Option ManagedEntry :=
  s.2.foldl (fun o task => o.map (ManagedEntry.finish task)) s.1

theorem foldl_finishInit_lookup (st : ReloadState) (name : String) :
    (st.tasks.foldl finishInit st.entries).lookup name = finishAt (st.at name) :=
  foldl_view (v := fun m => AList.lookup name m) (finishInit_lookup name) st.tasks st.entries

/-- An endpoint registered with flags, once its task has finished. -/
theorem finish_registeredAt (inputs : ReloadInputs) (ep : EndpointConfig) (flags : Flags) :
    finishAt (registeredAt inputs ep flags []) = some (rebuiltEntry inputs ep flags) := by
  cases hw : warningMessage inputs.warnings ep.name with
  | some msg =>
    simp [finishAt, registeredAt, isWarned, hw, registeredAs, placeholder, rebuiltEntry,
      ManagedEntry.setFlags]
  | none =>
    simp [finishAt, registeredAt, isWarned, hw, registeredAs, rebuiltEntry, ManagedEntry.setFlags,
      ManagedEntry.finish, InitTask.spec]

theorem mem_diffConfigs_removed :
    name ∈ (diffConfigs old new).removed ↔
      (old.endpointMap.lookup name).isSome = true ∧ new.endpointMap.lookup name = none := by
  rw [AList.lookup_isSome]
  simp [diffConfigs, AList.mem_keys]

theorem endpointMap_lookup_eq_none :
    cfg.endpointMap.lookup name = none ↔ (cfg.named name).head? = none := by
  rw [endpointMap_lookup, List.getLast?_eq_none_iff, List.head?_eq_none_iff]

/-- **What applying a diff does to a name.** -/
theorem applyDiffGraceful_diff_at (old new : Config) (inputs : ReloadInputs) (st : ReloadState)
    (name : String) :
    (applyDiffGraceful (diffConfigs old new) inputs st).at name =
      match new.endpointMap.lookup name, old.endpointMap.lookup name with
      | none, none => st.at name
      | none, some _ => (none, (st.at name).2)
      | some ep, none => registeredAt inputs ep (ep.disabled, ep.disabledTools) (st.at name).2
      | some ep, some oldEp =>
        if oldEp.eq ep then st.at name
        else registeredAt inputs ep (flagsAt (st.at name).1 ep) (st.at name).2 := by
  rw [applyDiffGraceful, diffConfigs_added, diffConfigs_changed, List.foldl_map,
    foldl_endpoints_at (w := fun ep s => registeredAt inputs ep (ep.disabled, ep.disabledTools) s.2)
      (fun st ep => applyAdded_at _ st ep name) (endpointsWith_nodup _ _),
    foldl_endpoints_at (w := fun ep s => registeredAt inputs ep (flagsAt s.1 ep) s.2)
      (fun st ep => applyChanged_at _ st ep name) (endpointsWith_nodup _ _),
    find?_endpointsWith, find?_endpointsWith, foldl_applyRemoved_at]
  cases hnew : new.endpointMap.lookup name with
  | none =>
    cases hn : old.endpointMap.lookup name with
    | none => simp [mem_diffConfigs_removed, hn]
    | some oldEp => simp [mem_diffConfigs_removed, hn, hnew]
  | some ep =>
    cases hn : old.endpointMap.lookup name with
    | none =>
      have hc : isChanged old name ep = false := by simp [isChanged, hn]
      simp [mem_diffConfigs_removed, hn, isAdded, hc, Option.filter_some]
    | some oldEp =>
      have hc : isChanged old name ep = !oldEp.eq ep := by simp [isChanged, hn]
      by_cases heq : oldEp.eq ep = true
      · simp [mem_diffConfigs_removed, hn, hnew, isAdded, hc, heq, Option.filter_some]
      · simp [mem_diffConfigs_removed, hn, hnew, isAdded, hc, heq, Option.filter_some]

/-- The state of a name once the diff is applied, no task finished. -/
theorem applyDiffGraceful_at (hold : old.validate = .ok ()) (new : Config) (name : String) :
    (applyDiffGraceful (diffConfigs old new) new.reloadInputs ⟨coldStart old, []⟩).at name =
      match new.endpointMap.lookup name, old.endpointMap.lookup name with
      | none, _ => (none, [])
      | some ep, none => registeredAt new.reloadInputs ep (ep.disabled, ep.disabledTools) []
      | some ep, some oldEp =>
        if oldEp.eq ep then ((coldStart old).lookup name, [])
        else registeredAt new.reloadInputs ep (flagsAt ((coldStart old).lookup name) ep) [] := by
  rw [applyDiffGraceful_diff_at]
  have hstart : (⟨coldStart old, []⟩ : ReloadState).at name = ((coldStart old).lookup name, []) := rfl
  rw [hstart]
  cases hnew : new.endpointMap.lookup name with
  | some ep => cases old.endpointMap.lookup name <;> rfl
  | none =>
    cases hn : old.endpointMap.lookup name with
    | some oldEp => rfl
    | none =>
      have habsent : (coldStart old).lookup name = none := by
        rw [coldStart_lookup hold, endpointMap_lookup_eq_none.1 hn, Option.map_none]
      simp [habsent]

/-- **What a reload leaves under a name.** -/
theorem hotReload_lookup (hold : old.validate = .ok ()) (new : Config) (name : String) :
    (hotReload old new).lookup name =
      match new.endpointMap.lookup name, old.endpointMap.lookup name with
      | none, _ => none
      | some ep, none => some (rebuiltEntry new.reloadInputs ep (ep.disabled, ep.disabledTools))
      | some ep, some oldEp =>
        if oldEp.eq ep then (coldStart old).lookup name
        else some (rebuiltEntry new.reloadInputs ep (flagsAt ((coldStart old).lookup name) ep)) := by
  rw [hotReload, foldl_finishInit_lookup, applyDiffGraceful_at hold]
  split
  · rfl
  · exact finish_registeredAt _ _ _
  · split
    · rfl
    · exact finish_registeredAt _ _ _

/-! ## The two registries compared -/

/-- The two ways of building an adapter agree on an endpoint: it has warnings, or it is not an EMA
endpoint over the `oauth` transport. -/
def BuildsAlike (cfg : Config) (ep : EndpointConfig) : Prop :=
  isWarned cfg.warnings ep.name = true ∨ ¬ (ep.transport = .oauth ∧ isEmaEndpoint ep = true)

/-- A rebuilt entry is the one a cold start makes, when the flags are those of the config and the
adapter is built alike. -/
theorem rebuiltEntry_eq_iff {flags : Flags} :
    rebuiltEntry cfg.reloadInputs ep flags = coldEntry cfg ep ↔
      flags = cfg.flagsOf ep.name ∧ BuildsAlike cfg ep := by
  have hspec : createAdapter cfg.insecure cfg.organizations ep =
      startupAdapter cfg.insecure cfg.organizations ep ↔
        ¬ (ep.transport = .oauth ∧ isEmaEndpoint ep = true) :=
    eq_comm.trans (startupAdapter_eq_iff _ _ ep)
  unfold rebuiltEntry coldEntry coldSpec BuildsAlike
  rw [ManagedEntry.mk.injEq]
  cases hw : warningMessage cfg.warnings ep.name with
  | some msg => simp [Config.reloadInputs, isWarned, hw, Prod.ext_iff]
  | none =>
    simp only [Config.reloadInputs, hw, isWarned, Option.isSome_none, Bool.false_or,
      InstalledAdapter.mk.injEq, hspec, Prod.ext_iff, true_and, Bool.false_eq_true, false_or]
    constructor
    · rintro ⟨⟨hb, -⟩, h1, h2⟩
      exact ⟨⟨h1, h2⟩, hb⟩
    · rintro ⟨⟨h1, h2⟩, hb⟩
      exact ⟨⟨hb, by rw [h1]⟩, h1, h2⟩

/-- When an endpoint of `new` is left as a cold start from `new` leaves it, by what the diff does
with its name. `first` and `last` are the first and the last endpoint of the name. -/
def EndpointCurrent (old new : Config) (first last : EndpointConfig) : Prop :=
  match old.endpointMap.lookup last.name with
  | none =>
    -- added: built from the last endpoint, with the flags of that endpoint
    first = last ∧ BuildsAlike new last
  | some oldLast =>
    if oldLast.eq last then
      -- kept: the entry that a cold start from `old` made
      ∀ oldFirst, (old.named last.name).head? = some oldFirst →
        coldEntry old oldFirst = coldEntry new first
    else
      -- rebuilt: built from the last endpoint, with the flags of the old entry
      first = last ∧ BuildsAlike new last ∧ old.flagsOf last.name = new.flagsOf last.name

/-- The settings outside the comparison of the diff agree, as far as the adapter of the endpoint reads
them. -/
def UncomparedAgree (old new : Config) (a b : EndpointConfig) : Prop :=
  match a.transport with
  | .oauth => trimmedNonEmpty a.tokenEndpoint = trimmedNonEmpty b.tokenEndpoint ∧
      old.insecure = new.insecure
  | .http =>
    if isEmaEndpoint a then
      match resolveEmaIdp a old.organizations, resolveEmaIdp b new.organizations with
      | none, none => True
      | some x, some y => trim (a.url.getD "") = "" ∨ x = y ∧ old.insecure = new.insecure
      | _, _ => False
    else old.insecure = new.insecure
  | .stdio | .sse =>
    isEmaEndpoint a = true →
      (resolveEmaIdp a old.organizations).isSome = (resolveEmaIdp b new.organizations).isSome

/-- With one endpoint of a name, the flags are its own. -/
theorem flagsOf_single (h : cfg.named ep.name = [ep]) :
    cfg.flagsOf ep.name = (ep.disabled, ep.disabledTools) := by
  rw [Config.flagsOf, h]
  simp only [List.foldl_cons, List.foldl_nil, addFlags]
  refine Prod.ext ?_ ?_
  · cases ep.disabled <;> rfl
  · by_cases ht : ep.disabledTools = []
    · simp [ht]
    · simp [ht]

/-- In an accepted config, a name whose first and last endpoint agree has one endpoint. -/
theorem named_eq_singleton (hvalid : cfg.validate = .ok ()) (hfirst : (cfg.named name).head? = some ep)
    (hlast : (cfg.named name).getLast? = some ep) : cfg.named name = [ep] := by
  have hpair : (cfg.named name).Pairwise fun a b => a.resolvedToolPrefix ≠ b.resolvedToolPrefix :=
    (validate_ok hvalid).2.filter _
  cases hn : cfg.named name with
  | nil => simp [hn] at hfirst
  | cons ep' eps =>
    obtain rfl : ep' = ep := by simpa [hn] using hfirst
    cases eps with
    | nil => rfl
    | cons e es =>
      rw [hn] at hpair hlast
      have hmem : ep' ∈ e :: es := by
        rw [List.getLast?_cons_cons] at hlast
        exact List.mem_of_getLast? hlast
      exact absurd rfl ((List.pairwise_cons.1 hpair).1 ep' hmem)

/-- The flags in the entry a cold start leaves. -/
theorem flagsAt_coldStart (hvalid : cfg.validate = .ok ()) {first : EndpointConfig}
    (hfirst : (cfg.named name).head? = some first) (ep : EndpointConfig) :
    flagsAt ((coldStart cfg).lookup name) ep = cfg.flagsOf name := by
  obtain ⟨-, rfl⟩ := mem_named.1 (List.mem_of_head? hfirst)
  rw [coldStart_lookup hvalid, hfirst]
  rfl

/-- A rebuilt entry agrees with the cold start of its config when the name is given once. -/
theorem rebuiltEntry_last_eq_iff (hvalid : cfg.validate = .ok ()) {first last : EndpointConfig}
    (hfirst : (cfg.named name).head? = some first) (hlast : (cfg.named name).getLast? = some last)
    (flags : Flags) :
    rebuiltEntry cfg.reloadInputs last flags = coldEntry cfg first ↔
      first = last ∧ flags = cfg.flagsOf last.name ∧ BuildsAlike cfg last := by
  constructor
  · intro h
    have hpre : first.resolvedToolPrefix = last.resolvedToolPrefix :=
      (congrArg ManagedEntry.toolPrefix h).symm
    obtain rfl := first_eq_last_of_prefix hvalid hfirst hlast hpre
    exact ⟨rfl, rebuiltEntry_eq_iff.1 h⟩
  · rintro ⟨rfl, h⟩
    exact rebuiltEntry_eq_iff.2 h

theorem hotReload_eq_coldStart_at_iff (hold : old.validate = .ok ()) (hnew : new.validate = .ok ())
    (name : String) :
    (hotReload old new).lookup name = (coldStart new).lookup name ↔
      ∀ first last, (new.named name).head? = some first → (new.named name).getLast? = some last →
        EndpointCurrent old new first last := by
  rw [hotReload_lookup hold, coldStart_lookup hnew, endpointMap_lookup new]
  cases hlast : (new.named name).getLast? with
  | none =>
    have hhead : (new.named name).head? = none := by
      rwa [List.head?_eq_none_iff, ← List.getLast?_eq_none_iff]
    simp [hhead]
  | some last =>
    obtain ⟨-, rfl⟩ := mem_named.1 (List.mem_of_getLast? hlast)
    cases hfirst : (new.named last.name).head? with
    | none =>
      rw [List.head?_eq_none_iff, ← List.getLast?_eq_none_iff, hlast] at hfirst
      cases hfirst
    | some first =>
      have hforall : ∀ P : EndpointConfig → EndpointConfig → Prop,
          (∀ f l, some first = some f → some last = some l → P f l) ↔ P first last := by
        refine fun P => ⟨fun h => h _ _ rfl rfl, fun h f l hf hl => ?_⟩
        cases hf
        cases hl
        exact h
      rw [hforall, EndpointCurrent, Option.map_some]
      cases hold' : old.endpointMap.lookup last.name with
      | none =>
        dsimp only
        rw [Option.some.injEq, rebuiltEntry_last_eq_iff hnew hfirst hlast]
        refine ⟨fun ⟨heq, _, hb⟩ => ⟨heq, hb⟩, ?_⟩
        rintro ⟨rfl, hb⟩
        exact ⟨rfl, (flagsOf_single (named_eq_singleton hnew hfirst hlast)).symm, hb⟩
      | some oldLast =>
        dsimp only
        cases holdFirst : (old.named last.name).head? with
        | none =>
          rw [← endpointMap_lookup_eq_none, hold'] at holdFirst
          cases holdFirst
        | some oldFirst =>
          split
          · rw [coldStart_lookup hold, holdFirst, Option.map_some, Option.some.injEq]
            refine ⟨fun h f hf => ?_, fun h => h _ rfl⟩
            cases hf
            exact h
          · rw [Option.some.injEq, flagsAt_coldStart hold holdFirst,
              rebuiltEntry_last_eq_iff hnew hfirst hlast]
            tauto

/-- The OAuth adapters of two settings that differ outside the comparison. -/
theorem oauthAdapter_eq_iff (heq : a.eq b = true) (i j : Bool) :
    oauthAdapter i a = oauthAdapter j b ↔
      trimmedNonEmpty a.tokenEndpoint = trimmedNonEmpty b.tokenEndpoint ∧ i = j := by
  rw [EndpointConfig.eq_iff] at heq
  have hbase : b.oauthServerUrl = a.oauthServerUrl := by rw [heq]
  have hrest : oauthAdapter j b = .oauth a.name (a.url.getD "") (resolveOauthTokenEndpoint b j)
      (a.clientId.getD "") a.clientSecret a.serverTypeOverride j := by
    rw [oauthAdapter, heq]
  rw [hrest, oauthAdapter]
  simp only [AdapterSpec.oauth.injEq, resolveOauthTokenEndpoint, hbase, true_and]
  cases trimmedNonEmpty a.tokenEndpoint <;> cases trimmedNonEmpty b.tokenEndpoint <;>
    cases trimmedNonEmpty a.oauthServerUrl <;> simp

/-- The EMA adapters of two settings that differ outside the comparison, for an `http` endpoint. -/
theorem buildEmaAdapter_http_eq_iff (heq : a.eq b = true) (htransport : a.transport = .http)
    (i j : Bool) (orgs orgs' : List ConfigOrganization) :
    buildEmaAdapter i orgs a = buildEmaAdapter j orgs' b ↔
      match resolveEmaIdp a orgs, resolveEmaIdp b orgs' with
      | none, none => True
      | some x, some y => trim (a.url.getD "") = "" ∨ x = y ∧ i = j
      | _, _ => False := by
  rw [EndpointConfig.eq_iff] at heq
  obtain ⟨hname, hurl, htr, hov, hscope⟩ : b.name = a.name ∧ b.url = a.url ∧
      b.transport = a.transport ∧ b.serverTypeOverride = a.serverTypeOverride ∧
      resourceScope b = resourceScope a := by
    rw [heq]
    exact ⟨rfl, rfl, rfl, rfl, rfl⟩
  unfold buildEmaAdapter
  rw [hname, hurl, htr, hov, hscope, htransport]
  cases resolveEmaIdp a orgs with
  | none =>
    cases resolveEmaIdp b orgs' with
    | none => simp
    | some y =>
      by_cases hu : trim (a.url.getD "") = ""
      · simp [hu]
      · simp [hu]
  | some x =>
    cases resolveEmaIdp b orgs' with
    | none =>
      by_cases hu : trim (a.url.getD "") = ""
      · simp [hu]
      · simp [hu]
    | some y =>
      by_cases hu : trim (a.url.getD "") = ""
      · simp [hu]
      · simp [hu]

/-- The two failures of an EMA endpoint over a transport that EMA does not support. -/
theorem ema_failures_ne (name transport : String) :
    "EMA endpoint '" ++ name ++ "' is missing a resolvable organization/idp and resource" ≠
      "EMA endpoint '" ++ name ++ "' requires transport \"http\" or \"oauth\", got \"" ++
        transport ++ "\"" := by
  intro h
  simp only [String.append_assoc, String.append_right_inj] at h
  have hchar := congrArg (fun s => s.toList[2]?) h
  simp at hchar

/-- The EMA adapters of two settings over a transport that EMA does not support. -/
theorem buildEmaAdapter_other_eq_iff (heq : a.eq b = true) (hhttp : a.transport ≠ .http)
    (hoauth : a.transport ≠ .oauth) (i j : Bool) (orgs orgs' : List ConfigOrganization) :
    buildEmaAdapter i orgs a = buildEmaAdapter j orgs' b ↔
      (resolveEmaIdp a orgs).isSome = (resolveEmaIdp b orgs').isSome := by
  rw [EndpointConfig.eq_iff] at heq
  obtain ⟨hname, htr, hov⟩ : b.name = a.name ∧ b.transport = a.transport ∧
      b.serverTypeOverride = a.serverTypeOverride := by
    rw [heq]
    exact ⟨rfl, rfl, rfl⟩
  unfold buildEmaAdapter
  rw [hname, htr, hov]
  cases resolveEmaIdp a orgs <;> cases resolveEmaIdp b orgs' <;>
    simp [hhttp, hoauth, ema_failures_ne, (ema_failures_ne _ _).symm]

theorem startupAdapter_eq_iff_of_eq (heq : a.eq b = true) :
    startupAdapter old.insecure old.organizations a =
        startupAdapter new.insecure new.organizations b ↔ UncomparedAgree old new a b := by
  have heq' := EndpointConfig.eq_iff.1 heq
  have htr : b.transport = a.transport := by rw [heq']
  have hema : isEmaEndpoint b = isEmaEndpoint a := by rw [heq']; rfl
  unfold startupAdapter UncomparedAgree
  rw [htr]
  cases ht : a.transport with
  | oauth => simpa using oauthAdapter_eq_iff heq _ _
  | http =>
    simp only [createAdapter, hema, htr, ht, reduceCtorEq, if_false]
    by_cases he : isEmaEndpoint a = true
    · simp only [he, if_true]
      exact buildEmaAdapter_http_eq_iff heq ht _ _ _ _
    · rw [heq']
      simp [he]
  | stdio =>
    simp only [createAdapter, hema, htr, ht, reduceCtorEq, if_false]
    by_cases he : isEmaEndpoint a = true
    · simp only [he, if_true, true_imp_iff]
      exact buildEmaAdapter_other_eq_iff heq (by simp [ht]) (by simp [ht]) _ _ _ _
    · rw [heq']
      simp [he]
  | sse =>
    simp only [createAdapter, hema, htr, ht, reduceCtorEq, if_false]
    by_cases he : isEmaEndpoint a = true
    · simp only [he, if_true, true_imp_iff]
      exact buildEmaAdapter_other_eq_iff heq (by simp [ht]) (by simp [ht]) _ _ _ _
    · rw [heq']
      simp [he]

/-- Kept entries, setting by setting: an endpoint without warnings that the diff takes for unchanged
is left as a cold start leaves it when the settings outside the comparison agree. -/
theorem coldEntry_eq_iff_of_eq (heq : a.eq b = true) (hold : isWarned old.warnings a.name = false)
    (hnew : isWarned new.warnings b.name = false) :
    coldEntry old a = coldEntry new b ↔
      a.description = b.description ∧ old.flagsOf a.name = new.flagsOf b.name ∧
        UncomparedAgree old new a b := by
  have hwo : warningMessage old.warnings a.name = none := by simpa [isWarned] using hold
  have hwn : warningMessage new.warnings b.name = none := by simpa [isWarned] using hnew
  have heq' := EndpointConfig.eq_iff.1 heq
  have htr : b.transport = a.transport := by rw [heq']
  have hpre : b.resolvedToolPrefix = a.resolvedToolPrefix := by rw [heq']; rfl
  simp only [coldEntry, coldSpec, hwo, hwn, hold, hnew, ManagedEntry.mk.injEq,
    InstalledAdapter.mk.injEq, startupAdapter_eq_iff_of_eq heq, Prod.ext_iff, htr, hpre,
    Bool.false_or]
  constructor
  · rintro ⟨⟨hu, -⟩, -, hd, -, h1, h2⟩
    exact ⟨hd, ⟨h1, h2⟩, hu⟩
  · rintro ⟨hd, ⟨h1, h2⟩, hu⟩
    exact ⟨⟨hu, by rw [h1]⟩, trivial, hd, trivial, h1, h2⟩

/-- **Hot reload equals cold start** exactly when every endpoint of the new config is current; and an
endpoint without warnings that the diff keeps is current exactly when its description, its flags and
the settings outside the comparison agree. -/
theorem hot_reload_eq_cold_start_iff (old new : Config) (hold : old.validate = .ok ())
    (hnew : new.validate = .ok ()) :
    ((∀ name, (hotReload old new).lookup name = (coldStart new).lookup name) ↔
        ∀ name first last, (new.named name).head? = some first →
          (new.named name).getLast? = some last → EndpointCurrent old new first last) ∧
      ∀ a b : EndpointConfig, a.eq b = true → isWarned old.warnings a.name = false →
        isWarned new.warnings b.name = false →
        (coldEntry old a = coldEntry new b ↔
          a.description = b.description ∧ old.flagsOf a.name = new.flagsOf b.name ∧
            UncomparedAgree old new a b) :=
  ⟨forall_congr' fun name => hotReload_eq_coldStart_at_iff hold hnew name,
    fun _ _ heq hwo hwn => coldEntry_eq_iff_of_eq heq hwo hwn⟩

/-! ## A kept token endpoint -/

/-- An OAuth endpoint with a token endpoint of its own. -/
def oauthConfig (url tokenEndpoint : String) : Config where
  allowInsecureOauth := none
  endpoints := [{ name := "mail", transport := .oauth, url := some url,
                  tokenEndpoint := some tokenEndpoint }]
  organizations := []

/-- After a change of the token endpoint alone, the adapter still posts refresh tokens to the old one. -/
theorem hot_reload_keeps_token_endpoint :
    (oauthConfig "https://mail" "https://one/token").validate = .ok () ∧
      (oauthConfig "https://mail" "https://two/token").validate = .ok () ∧
      ((hotReload (oauthConfig "https://mail" "https://one/token")
          (oauthConfig "https://mail" "https://two/token")).lookup "mail").map (·.adapter.spec) =
        some (.oauth "mail" "https://mail" (.explicit "https://one/token") "" none none false) ∧
      ((coldStart (oauthConfig "https://mail" "https://two/token")).lookup "mail").map
          (·.adapter.spec) =
        some (.oauth "mail" "https://mail" (.explicit "https://two/token") "" none none false) ∧
      ¬ ∀ name, (hotReload (oauthConfig "https://mail" "https://one/token")
          (oauthConfig "https://mail" "https://two/token")).lookup name =
        (coldStart (oauthConfig "https://mail" "https://two/token")).lookup name := by
  have hhot : ((hotReload (oauthConfig "https://mail" "https://one/token")
      (oauthConfig "https://mail" "https://two/token")).lookup "mail").map (·.adapter.spec) =
        some (.oauth "mail" "https://mail" (.explicit "https://one/token") "" none none false) := by
    rfl
  have hcold : ((coldStart (oauthConfig "https://mail" "https://two/token")).lookup "mail").map
      (·.adapter.spec) =
        some (.oauth "mail" "https://mail" (.explicit "https://two/token") "" none none false) := by
    rfl
  refine ⟨rfl, rfl, hhot, hcold, fun h => ?_⟩
  rw [h "mail", hcold] at hhot
  revert hhot
  decide

/-- A change of the URL rebuilds the endpoint, with its token endpoint. -/
theorem hot_reload_of_changed_url :
    (hotReload (oauthConfig "https://mail" "https://one/token")
        (oauthConfig "https://post" "https://two/token")).lookup "mail" =
      (coldStart (oauthConfig "https://post" "https://two/token")).lookup "mail" := by
  apply (hot_reload_eq_cold_start_iff (oauthConfig "https://mail" "https://one/token")
    (oauthConfig "https://post" "https://two/token") rfl rfl).1.2
  intro name first last hfirst hlast
  by_cases hname : name = "mail"
  · subst hname
    cases hfirst
    cases hlast
    exact ⟨rfl, .inr (by decide), rfl⟩
  · have hnone : (oauthConfig "https://post" "https://two/token").named name = [] := by
      have hname' : ¬ "mail" = name := fun h => hname h.symm
      simp [Config.named, oauthConfig, hname']
    rw [hnone] at hfirst
    cases hfirst

end EndaraRelay
