import Mathlib.Data.List.Dedup
import EndaraRelay.Advertise
import EndaraRelay.ReloadPaths

/-!
# Changes of what a profile lists

The `tools/list` of a profile (`profileListing`), the mutations of the registry and of the profiles that change
it, and the ticks they are announced by.

**The ticks.** Most mutations of an endpoint send a tick with its name. The swap that ends an initialization
in the background sends none, nor does a reload that writes the disabled state behind a registration. A
stream of a profile forwards the tick of an endpoint when the endpoint is in the profile.

**What the listing depends on** is more: names are prefixed by how many endpoints are enabled in the whole
registry, and a name that endpoints share belongs to one of them. So an endpoint outside a profile changes
its listing, under a tick that is not forwarded.

**Theorem (`forwarded_or_same`).** A mutation that is `Audible` to a profile sends a tick that its streams
forward, or leaves its listing as it was.
-/

namespace EndaraRelay

open Verif

variable {A : Type} [AdvertisedAdapter A]

/-! ## The listing -/

/-- What there is to list for the profiles. -/
structure AdvertisedRelay (A : Type) where
  entries : Entries A
  profiles : List ProfileSettings
  writeRoots : List String

/-- The `tools` that `mcp_tools_list` answers within a profile. -/
def profileTools (lower : String → String) (relay : AdvertisedRelay A) (p : ProfileSettings) : List Json :=
  mcpToolsList p.jsExecution
    (profileTexts lower p.profile.endpoints p.toonOutput relay.writeRoots relay.entries) relay.writeRoots
    (some p.profile.endpoints) (buildCatalog listedByAdapter relay.entries)

/-- What is answered on a path; `none` when there is no such profile. -/
def profileListing (lower : String → String) (relay : AdvertisedRelay A) (path : String) : Option (List Json) :=
  (profileMap relay.profiles path).map (profileTools lower relay)

/-! ## Mutations of an endpoint -/

inductive EndpointMutation (A : Type) where
  /-- `register`. -/
  | register (adapter : A) (transport : String) (description toolPrefix : Option String)
  /-- `remove`. -/
  | remove
  /-- `disable_endpoint`, with what shutting down leaves of the adapter, and whether it succeeds. -/
  | disableEndpoint (adapter : A) (shutdown : Bool)
  /-- `enable_endpoint`, with what initializing makes of the adapter. -/
  | enableEndpoint (adapter : A)
  /-- `disable_tool`. -/
  | disableTool (tool : String)
  /-- `enable_tool`. -/
  | enableTool (tool : String)
  /-- `restart_endpoint`: a placeholder is put in. -/
  | restart (placeholder : A)
  /-- The task of a restart: the new adapter is put in. -/
  | restarted (adapter : A)
  /-- The task of a start or a reload: the new adapter is put in. -/
  | initialized (adapter : A)
  /-- A reload sets the disabled state of the endpoint it has registered. -/
  | configured (disabled : Bool) (disabledTools : List String)
  /-- The upstream has changed its tools and says so to the listener of the endpoint. -/
  | upstreamChanged (adapter : A)

namespace EndpointMutation

def edit : EndpointMutation A → RegisteredAdapter A → RegisteredAdapter A
  | .register .., entry | .remove, entry => entry
  | .disableEndpoint adapter shutdown, entry =>
    { entry with adapter, disabled := shutdown || entry.disabled }
  | .enableEndpoint adapter, entry => { entry with adapter, disabled := false }
  | .disableTool tool, entry => { entry with disabledTools := entry.disabledTools.insert tool }
  | .enableTool tool, entry =>
    { entry with disabledTools := entry.disabledTools.filter fun t => t ≠ tool }
  | .restart adapter, entry | .restarted adapter, entry | .initialized adapter, entry
  | .upstreamChanged adapter, entry => { entry with adapter }
  | .configured disabled disabledTools, entry => { entry with disabled, disabledTools }

def apply (name : String) (entries : Entries A) : EndpointMutation A → Entries A
  | .register adapter transport description toolPrefix =>
    entries.insert name (freshEntry adapter transport description toolPrefix)
  | .remove => entries.erase name
  | m => entries.modify name m.edit

/-- Whether a tick with the name of the endpoint follows. -/
def ticks (name : String) (entries : Entries A) : EndpointMutation A → Bool
  | .register .. => true
  | .remove => (entries.lookup name).isSome
  | .disableEndpoint _ shutdown => (entries.lookup name).any fun entry => shutdown && !entry.disabled
  | .enableEndpoint _ => (entries.lookup name).any fun entry => entry.disabled
  | .disableTool tool => (entries.lookup name).any fun entry => tool ∉ entry.disabledTools
  | .enableTool tool => (entries.lookup name).any fun entry => tool ∈ entry.disabledTools
  | .restart _ => (entries.lookup name).isSome
  | .restarted _ => true
  | .initialized _ => false
  | .configured .. => false
  | .upstreamChanged _ => (entries.lookup name).isSome

end EndpointMutation

/-! ## Mutations of the relay -/

def relayWideToolsChanged : String := "*"

/-- A tick, on the channel of the endpoints or on that of the profiles. -/
inductive CatalogTick where
  | tools (name : String)
  | profile (path : String)
deriving DecidableEq

inductive CatalogMutation (A : Type) where
  | endpoint (name : String) (m : EndpointMutation A)
  /-- `ProfileRegistry::rebuild`. -/
  | rebuild (profiles : List ProfileSettings)
  /-- A reload swaps the write roots when they differ. -/
  | updateWriteRoots (roots : List String)

/-- The sets of allowed endpoints are equal. -/
def SameEndpoints (p p' : ProfileSettings) : Prop :=
  p.profile.endpoints ⊆ p'.profile.endpoints ∧ p'.profile.endpoints ⊆ p.profile.endpoints

instance (p p' : ProfileSettings) : Decidable (SameEndpoints p p') :=
  inferInstanceAs (Decidable (_ ∧ _))

/-- `rebuild` on a path: the profile is added or removed, its endpoints differ, or its `js_execution`. -/
def dirty : Option ProfileSettings → Option ProfileSettings → Bool
  | none, none => false
  | some p, some p' => !decide (SameEndpoints p p') || p.jsExecution != p'.jsExecution
  | _, _ => true

/-- The paths that `rebuild` sends ticks for. -/
def changedPaths (old new : List ProfileSettings) : List String :=
  ((new ++ old).map fun p => toAsciiLowercase p.profile.path).dedup.filter fun path =>
    dirty (profileMap old path) (profileMap new path)

namespace CatalogMutation

def apply (relay : AdvertisedRelay A) : CatalogMutation A → AdvertisedRelay A
  | .endpoint name m => { relay with entries := m.apply name relay.entries }
  | .rebuild profiles => { relay with profiles }
  | .updateWriteRoots roots => { relay with writeRoots := roots }

def ticks (relay : AdvertisedRelay A) : CatalogMutation A → List CatalogTick
  | .endpoint name m => if m.ticks name relay.entries then [.tools name] else []
  | .rebuild profiles => (changedPaths relay.profiles profiles).map .profile
  | .updateWriteRoots roots => if roots ≠ relay.writeRoots then [.tools relayWideToolsChanged] else []

end CatalogMutation

/-! ## Which ticks are forwarded, and which mutations are heard -/

/-- Whether an endpoint is in a profile. -/
def inProfile (profiles : List ProfileSettings) (path name : String) : Bool :=
  (profileMap profiles path).any fun p => p.profile.endpoints.contains name

/-- What a stream of a profile forwards. -/
def CatalogTick.forwarded (profiles : List ProfileSettings) (path : String) : CatalogTick → Bool
  | .tools name => name = relayWideToolsChanged || inProfile profiles path name
  | .profile p => p = path

/-- An endpoint that is not there, or disabled. -/
def Inactive (name : String) (entries : Entries A) : Prop :=
  ∀ entry, entries.lookup name = some entry → entry.disabled = true

/-- The tools of a profile keep their names, and no other endpoint has one of them, before or after. -/
structure NamesLeft (allowedEndpoints : List String) (entries entries' : Entries A) : Prop where
  names : ∀ r ∈ rows listedByAdapter entries, allowedEndpoints.contains r.endpoint = true →
    r.name (skipPrefix entries') = r.name (skipPrefix entries)
  before : NotCrowded listedByAdapter allowedEndpoints entries
  after : NotCrowded listedByAdapter allowedEndpoints entries'

/-- **When a mutation is audible to a profile**, and so a mutation of an endpoint:
its tick names an endpoint of the profile; or the endpoint is not enabled, before and after; or nothing is
changed; or the endpoint is outside the profile, and leaves its names as they are where they are listed. -/
def EndpointMutation.Audible (name : String) (entries : Entries A) (m : EndpointMutation A)
    (p : ProfileSettings) : Prop :=
  (name ∈ p.profile.endpoints ∧ m.ticks name entries = true) ∨
    (Inactive name entries ∧ Inactive name (m.apply name entries)) ∨
    m.apply name entries = entries ∨
    (name ∉ p.profile.endpoints ∧
      (p.jsExecution = true ∨ NamesLeft p.profile.endpoints entries (m.apply name entries)))

/-- A rebuild is audible unless it does nothing to a profile but change its `toon_output`. -/
def CatalogMutation.Audible (relay : AdvertisedRelay A) (path : String) : CatalogMutation A → Prop
  | .endpoint name m => ∀ p, profileMap relay.profiles path = some p → m.Audible name relay.entries p
  | .rebuild profiles => ∀ p p', profileMap relay.profiles path = some p →
      profileMap profiles path = some p' → dirty (some p) (some p') = false → p'.toonOutput = p.toonOutput
  | .updateWriteRoots _ => True

/-! ## The listing is made from the enabled entries -/

def enabledEntries (entries : Entries A) : List (Sigma fun _ : String => RegisteredAdapter A) :=
  entries.entries.filter fun e => !e.2.disabled

section Catalog

variable {entries entries' : Entries A} {allowedEndpoints allowed' : List String}
  {listed : String → RegisteredAdapter A → Except AdapterError (List ToolInfo)}

omit [AdvertisedAdapter A] in
/-- Entries that are not enabled have no rows. -/
theorem rows_eq_enabled : rows listed entries =
    (enabledEntries entries).flatMap fun e => entryRows e.1 e.2 (listed e.1 e.2) := by
  unfold rows enabledEntries
  induction entries.entries with
  | nil => rfl
  | cons e es ih =>
    rw [List.flatMap_cons, ih, List.filter_cons]
    by_cases hd : e.2.disabled = true
    · simp [hd, entryRows]
    · simp [hd]

omit [AdvertisedAdapter A] in
/-- The rows of a profile are those of its enabled entries. -/
theorem rows_filter_profile :
    (rows listed entries).filter (fun r => allowedEndpoints.contains r.endpoint) =
      (profileEnabled allowedEndpoints entries).flatMap fun e => entryRows e.1 e.2 (listed e.1 e.2) := by
  rw [← rows_standalone, rows_eq_enabled]
  unfold enabledEntries profileEnabled standalone
  rw [AList.entries_restrict, List.filter_filter]

theorem buildCatalog_congr (h : enabledEntries entries' = enabledEntries entries) :
    buildCatalog listed entries' = buildCatalog listed entries := by
  have hskip : skipPrefix entries' = skipPrefix entries := by
    show decide ((enabledEntries entries').length ≤ 1) = decide ((enabledEntries entries).length ≤ 1)
    rw [h]
  rw [buildCatalog_eq, buildCatalog_eq, rows_eq_enabled, rows_eq_enabled, h, hskip]

omit [AdvertisedAdapter A] in
theorem profileEnabled_eq : profileEnabled allowedEndpoints entries =
    (enabledEntries entries).filter fun e => allowedEndpoints.contains e.1 := by
  unfold profileEnabled enabledEntries
  rw [List.filter_filter]
  congr 1
  funext e
  exact Bool.and_comm _ _

omit [AdvertisedAdapter A] in
theorem profileEnabled_congr (h : ∀ name, allowed'.contains name = allowedEndpoints.contains name) :
    profileEnabled allowed' entries = profileEnabled allowedEndpoints entries := by
  unfold profileEnabled
  simp only [h]

theorem profileMergedCatalog_congr (h : ∀ name, allowed'.contains name = allowedEndpoints.contains name)
    (catalog : Catalog) :
    profileMergedCatalog allowed' catalog = profileMergedCatalog allowedEndpoints catalog := by
  unfold profileMergedCatalog
  simp only [h]

end Catalog

/-! ### Sorting and filtering -/

section Sorted

variable {q : ToolInfo → Bool} {tool : ToolInfo} {tools : List ToolInfo}

theorem orderedInsert_of_forall (h : ∀ b ∈ tools, tool.name ≤ b.name) :
    tools.orderedInsert (fun a b => a.name ≤ b.name) tool = tool :: tools := by
  cases tools with
  | nil => rfl
  | cons b tools => exact List.orderedInsert_cons_of_le _ _ (h b List.mem_cons_self)

theorem filter_orderedInsert (hsorted : tools.Pairwise fun a b => a.name ≤ b.name) :
    (tools.orderedInsert (fun a b => a.name ≤ b.name) tool).filter q =
      if q tool then (tools.filter q).orderedInsert (fun a b => a.name ≤ b.name) tool
      else tools.filter q := by
  induction tools with
  | nil =>
    by_cases hq : q tool = true
    · simp [hq]
    · simp [hq]
  | cons b tools ih =>
    obtain ⟨hb, hsorted'⟩ := List.pairwise_cons.mp hsorted
    by_cases hle : tool.name ≤ b.name
    · -- everything that is left is at the tool or after it
      have hforall : ∀ c ∈ (b :: tools).filter q, tool.name ≤ c.name := by
        intro c hc
        obtain rfl | hc := List.mem_cons.mp (List.mem_of_mem_filter hc)
        · exact hle
        · exact String.le_trans hle (hb c hc)
      rw [List.orderedInsert_cons, if_pos hle, List.filter_cons, orderedInsert_of_forall hforall]
    · rw [List.orderedInsert_cons, if_neg hle, List.filter_cons, ih hsorted', List.filter_cons]
      by_cases hq : q b = true
      · simp only [hq, if_true, List.orderedInsert_cons, if_neg hle]
        split <;> rfl
      · simp only [hq, if_false, Bool.false_eq_true]

instance : Std.Total fun a b : ToolInfo => a.name ≤ b.name := ⟨fun a b => String.le_total a.name b.name⟩

instance : IsTrans ToolInfo fun a b => a.name ≤ b.name := ⟨fun _ _ _ => String.le_trans⟩

/-- The sort is stable, so it commutes with dropping tools. -/
theorem filter_sortByName (tools : List ToolInfo) : (sortByName tools).filter q = sortByName (tools.filter q) := by
  unfold sortByName
  induction tools with
  | nil => rfl
  | cons tool tools ih =>
    have hsorted : (tools.insertionSort fun a b => a.name ≤ b.name).Pairwise fun a b => a.name ≤ b.name :=
      List.pairwise_insertionSort _ _
    rw [List.insertionSort_cons, filter_orderedInsert hsorted, ih, List.filter_cons]
    split
    · rw [List.insertionSort_cons]
    · rfl

/-- Sorting tools is sorting their entries. -/
theorem map_sortByName (tools : List ToolInfo) : (sortByName tools).map toolEntry =
    (tools.map toolEntry).insertionSort fun a b => entryName a ≤ entryName b :=
  List.map_insertionSort (fun a b : ToolInfo => a.name ≤ b.name) (fun a b => entryName a ≤ entryName b)
    toolEntry tools fun _ _ _ _ => Iff.rfl

end Sorted

section Catalog

variable {entries entries' : Entries A} {allowedEndpoints : List String}
  {listed : String → RegisteredAdapter A → Except AdapterError (List ToolInfo)}

/-- **What an uncrowded profile lists** is made from its enabled entries and their names. -/
theorem profileMergedCatalog_entries (h : NotCrowded listed allowedEndpoints entries) :
    (profileMergedCatalog allowedEndpoints (buildCatalog listed entries)).map toolEntry =
      (((profileEnabled allowedEndpoints entries).flatMap
        fun e => entryRows e.1 e.2 (listed e.1 e.2)).map
          fun r => toolEntry (catalogTool (skipPrefix entries) r.endpoint r.entry r.tool)).insertionSort
            fun a b => entryName a ≤ entryName b := by
  have hfilter : profileMergedCatalog allowedEndpoints (buildCatalog listed entries) =
      (buildCatalog listed entries).tools.filter fun tool =>
        ownsName allowedEndpoints (buildCatalog listed entries) tool.name := rfl
  have htools : (buildCatalog listed entries).tools = sortByName ((rows listed entries).map
      fun r => catalogTool (skipPrefix entries) r.endpoint r.entry r.tool) := by rw [buildCatalog_eq]
  have howned : (rows listed entries).filter ((fun tool =>
        ownsName allowedEndpoints (buildCatalog listed entries) tool.name) ∘
          fun r => catalogTool (skipPrefix entries) r.endpoint r.entry r.tool) =
      (rows listed entries).filter fun r => allowedEndpoints.contains r.endpoint :=
    List.filter_congr fun r hr => h.ownsName_eq hr
  rw [hfilter, htools, filter_sortByName, List.filter_map, howned, rows_filter_profile, map_sortByName,
    List.map_map]
  rfl

/-- The entry of a tool depends on the naming mode by its name alone. -/
theorem toolEntry_catalogTool {skip skip' : Bool} {r : CatalogRow A} (h : r.name skip' = r.name skip) :
    toolEntry (catalogTool skip' r.endpoint r.entry r.tool) =
      toolEntry (catalogTool skip r.endpoint r.entry r.tool) := by
  unfold CatalogRow.name at h
  simp only [toolEntry, catalogTool, h]

end Catalog

/-! ## What a mutation leaves alone -/

section Left

variable {lower : String → String} {relay relay' : AdvertisedRelay A} {p p' : ProfileSettings} {path name : String}
  {entries : Entries A} {profiles : List ProfileSettings}

omit [AdvertisedAdapter A] in
/-- A mutation shows only where its endpoint does, before or after. -/
theorem EndpointMutation.filter_apply {m : EndpointMutation A}
    {P : (Sigma fun _ : String => RegisteredAdapter A) → Bool}
    (hbefore : ∀ entry, entries.lookup name = some entry → P ⟨name, entry⟩ = false)
    (hafter : ∀ entry, (m.apply name entries).lookup name = some entry → P ⟨name, entry⟩ = false) :
    (m.apply name entries).entries.filter P = entries.entries.filter P := by
  have hmodify : ∀ f : RegisteredAdapter A → RegisteredAdapter A,
      (∀ entry, (entries.modify name f).lookup name = some entry → P ⟨name, entry⟩ = false) →
        (entries.modify name f).entries.filter P = entries.entries.filter P := by
    intro f hf
    refine AList.filter_entries_modify hbefore fun entry hentry => hf _ ?_
    rw [AList.lookup_modify_self, hentry]
    rfl
  cases m with
  | register adapter transport description toolPrefix =>
    exact AList.filter_entries_insert hbefore (hafter _ (AList.lookup_insert _))
  | remove => exact AList.filter_entries_erase hbefore
  | disableEndpoint | enableEndpoint | disableTool | enableTool | restart | restarted | initialized
  | configured | upstreamChanged => exact hmodify _ hafter

/-- Enabled entries are all there is to list. -/
theorem profileTools_of_enabled (hroots : relay'.writeRoots = relay.writeRoots)
    (h : enabledEntries relay'.entries = enabledEntries relay.entries) :
    profileTools lower relay' p = profileTools lower relay p := by
  have hprofile : profileEnabled p.profile.endpoints relay'.entries =
      profileEnabled p.profile.endpoints relay.entries := by
    rw [profileEnabled_eq, profileEnabled_eq, h]
  unfold profileTools
  rw [buildCatalog_congr h, profileTexts_congr hprofile, hroots]

/-- Those of the profile are all there is for a profile whose names are left alone. -/
theorem profileTools_of_names (hroots : relay'.writeRoots = relay.writeRoots)
    (henabled : profileEnabled p.profile.endpoints relay'.entries =
      profileEnabled p.profile.endpoints relay.entries)
    (hnames : p.jsExecution = true ∨ NamesLeft p.profile.endpoints relay.entries relay'.entries) :
    profileTools lower relay' p = profileTools lower relay p := by
  unfold profileTools
  rw [profileTexts_congr henabled, hroots]
  unfold mcpToolsList
  split
  · rfl
  · next hjs =>
    have hleft := hnames.resolve_left hjs
    simp only [servedTools]
    rw [profileMergedCatalog_entries hleft.after, profileMergedCatalog_entries hleft.before, henabled]
    congr 3
    refine List.map_congr_left fun r hr => toolEntry_catalogTool ?_
    rw [← rows_filter_profile] at hr
    exact hleft.names r (List.mem_filter.mp hr).1 (List.mem_filter.mp hr).2

omit [AdvertisedAdapter A] in
/-- What a profile that is not dirty keeps. -/
theorem of_not_dirty (h : dirty (some p) (some p') = false) :
    p'.jsExecution = p.jsExecution ∧
      ∀ name, p'.profile.endpoints.contains name = p.profile.endpoints.contains name := by
  simp only [dirty, Bool.or_eq_false_iff, Bool.not_eq_false', decide_eq_true_eq, bne_eq_false_iff_eq] at h
  obtain ⟨⟨hsub, hsub'⟩, hjs⟩ := h
  refine ⟨hjs.symm, fun name => ?_⟩
  rw [Bool.eq_iff_iff, List.contains_iff_mem, List.contains_iff_mem]
  exact ⟨fun h => hsub' h, fun h => hsub h⟩

/-- Settings that differ in no more than the order of the endpoints list the same. -/
theorem profileTools_of_settings (hdirty : dirty (some p) (some p') = false)
    (htoon : p'.toonOutput = p.toonOutput) : profileTools lower relay p' = profileTools lower relay p := by
  obtain ⟨hjs, hcontains⟩ := of_not_dirty hdirty
  unfold profileTools
  rw [profileTexts_congr (profileEnabled_congr hcontains), htoon, hjs]
  simp only [mcpToolsList, servedTools, profileMergedCatalog_congr hcontains]

/-! ### Ticks -/

omit [AdvertisedAdapter A] in
theorem not_dirty_cases {old new : Option ProfileSettings} (h : ¬ dirty old new = true) :
    (old = none ∧ new = none) ∨
      ∃ p p', old = some p ∧ new = some p' ∧ dirty (some p) (some p') = false := by
  cases old with
  | none =>
    cases new with
    | none => exact .inl ⟨rfl, rfl⟩
    | some p => exact absurd rfl h
  | some p =>
    cases new with
    | none => exact absurd rfl h
    | some p' => exact .inr ⟨p, p', rfl, rfl, by simpa using h⟩

/-- A path has a tick exactly when it is dirty. -/
theorem mem_changedPaths {old new : List ProfileSettings} (h : dirty (profileMap old path) (profileMap new path) = true) :
    path ∈ changedPaths old new := by
  refine List.mem_filter.mpr ⟨List.mem_dedup.mpr ?_, h⟩
  have hmem : ∀ {ps : List ProfileSettings} {p : ProfileSettings}, profileMap ps path = some p →
      path ∈ ps.map fun p => toAsciiLowercase p.profile.path := by
    intro ps p hp
    have hin : p ∈ ps := List.mem_reverse.mp (List.mem_of_find?_eq_some hp)
    have hpath : toAsciiLowercase p.profile.path = path := by simpa using List.find?_some hp
    exact List.mem_map.mpr ⟨p, hin, hpath⟩
  rw [List.map_append, List.mem_append]
  cases hnew : profileMap new path with
  | some p => exact .inl (hmem hnew)
  | none =>
    cases hold : profileMap old path with
    | some p => exact .inr (hmem hold)
    | none =>
      rw [hnew, hold] at h
      cases h

omit [AdvertisedAdapter A] in
/-- **A mutation leaves the endpoints of a profile as they are, or its path is sent a tick.** -/
theorem inProfile_apply (m : CatalogMutation A) (relay : AdvertisedRelay A) (path : String) :
    (∃ t ∈ m.ticks relay, t.forwarded (m.apply relay).profiles path = true) ∨
      ∀ name, inProfile (m.apply relay).profiles path name = inProfile relay.profiles path name := by
  cases m with
  | endpoint name m => exact .inr fun _ => rfl
  | updateWriteRoots roots => exact .inr fun _ => rfl
  | rebuild profiles =>
    by_cases hdirty : dirty (profileMap relay.profiles path) (profileMap profiles path) = true
    · exact .inl ⟨.profile path, List.mem_map_of_mem (mem_changedPaths hdirty), decide_eq_true rfl⟩
    · refine .inr fun name => ?_
      show (profileMap profiles path).any _ = (profileMap relay.profiles path).any _
      obtain ⟨hold, hnew⟩ | ⟨p, p', hold, hnew, hclean⟩ := not_dirty_cases hdirty
      · rw [hold, hnew]
      · rw [hold, hnew]
        exact (of_not_dirty hclean).2 name

/-! ### Being heard -/

theorem endpoint_forwarded_or_same (lower : String → String) {m : EndpointMutation A} (hp : profileMap relay.profiles path = some p)
    (h : m.Audible name relay.entries p) :
    (∃ t ∈ (CatalogMutation.endpoint name m).ticks relay, t.forwarded relay.profiles path = true) ∨
      profileTools lower { relay with entries := m.apply name relay.entries } p =
        profileTools lower relay p := by
  obtain ⟨hin, htick⟩ | ⟨hbefore, hafter⟩ | hsame | ⟨hout, hnames⟩ := h
  · -- the tick names an endpoint of the profile
    refine .inl ⟨.tools name, ?_, ?_⟩
    · show _ ∈ ite _ _ _
      rw [if_pos htick]
      exact List.mem_singleton_self _
    · simp [CatalogTick.forwarded, inProfile, hp, hin]
  · -- it is not enabled, so it does not show at all
    refine .inr (profileTools_of_enabled rfl (EndpointMutation.filter_apply ?_ ?_))
    · intro entry hentry
      simp [hbefore entry hentry]
    · intro entry hentry
      simp [hafter entry hentry]
  · rw [hsame]
    exact .inr rfl
  · -- it does not show in the profile
    refine .inr (profileTools_of_names rfl (EndpointMutation.filter_apply ?_ ?_) hnames)
    · intro entry _
      simp [hout]
    · intro entry _
      simp [hout]

/-- **An audible mutation** sends a tick that the streams of the profile forward, or leaves the listing as it
was. -/
theorem forwarded_or_same (lower : String → String) {m : CatalogMutation A} (h : m.Audible relay path) :
    (∃ t ∈ m.ticks relay, t.forwarded (m.apply relay).profiles path = true) ∨
      profileListing lower (m.apply relay) path = profileListing lower relay path := by
  cases m with
  | endpoint name m =>
    cases hp : profileMap relay.profiles path with
    | none =>
      refine .inr ?_
      show (profileMap relay.profiles path).map _ = (profileMap relay.profiles path).map _
      rw [hp, Option.map_none, Option.map_none]
    | some p =>
      refine (endpoint_forwarded_or_same lower hp (h p hp)).imp_right fun hsame => ?_
      show (profileMap relay.profiles path).map _ = (profileMap relay.profiles path).map _
      rw [hp]
      exact congrArg some hsame
  | rebuild profiles =>
    by_cases hdirty : dirty (profileMap relay.profiles path) (profileMap profiles path) = true
    · exact .inl ⟨.profile path, List.mem_map_of_mem (mem_changedPaths hdirty), decide_eq_true rfl⟩
    · refine .inr ?_
      show (profileMap profiles path).map _ = (profileMap relay.profiles path).map _
      obtain ⟨hold, hnew⟩ | ⟨p, p', hold, hnew, hclean⟩ := not_dirty_cases hdirty
      · rw [hold, hnew, Option.map_none, Option.map_none]
      · rw [hold, hnew]
        exact congrArg some (profileTools_of_settings hclean (h p p' hold hnew hclean))
  | updateWriteRoots roots =>
    by_cases hroots : roots = relay.writeRoots
    · subst hroots
      exact .inr rfl
    · refine .inl ⟨.tools relayWideToolsChanged, ?_, by simp [CatalogTick.forwarded]⟩
      show _ ∈ ite _ _ _
      rw [if_pos hroots]
      exact List.mem_singleton_self _

end Left

end EndaraRelay
