import EndaraRelay.ConfigDocument

/-!
# Targeted edits of the config document

`targeted_edit`: what each edit of the document changes, and that what it writes is read back as requested.
The entries are read field by field: `Carries` says that a table has the fields of an endpoint, and the keys
that an update keeps are none of these.
-/

namespace EndaraRelay

open Verif Verif.Toml

/-! ## What an edit is to do -/

inductive DocumentEdit where
  | endpoint (ep : EndpointConfig) (original : Option String)
  | profiles (ps : List ProfileSettings)
  | organizations (os : List ConfigOrganization)
  | flags (eps : List EndpointConfig)

def DocumentEdit.apply (doc : Table) : DocumentEdit → Except ErrorResponse Table
  | .endpoint ep original => Document.writeEndpointToDisk ep original doc
  | .profiles ps => .ok (Document.writeProfilesToDisk ps doc)
  | .organizations os => .ok (Document.writeOrganizationsToDisk os doc)
  | .flags eps => .ok (Document.persistDisabledState eps doc)

/-- The sections other than one are as before. -/
def SectionsKept (edited : String) (doc doc' : Table) : Prop :=
  ∀ key, key ≠ edited → doc'.get key = doc.get key

/-- An entry is appended, or takes the place of the one it updates. The other entries are as before. -/
inductive EntryPlaced (items : List Value) (entry : Table) : Option String → Table → List Value → Prop where
  | appended : EntryPlaced items entry none [] (items ++ [.table entry])
  | replaced {orig existing i} (hi : items[i]? = some (.table existing))
      (hname : Document.nameOf (.table existing) = some orig) :
      EntryPlaced items entry (some orig) existing (items.set i (.table entry))

/-- The entry keeps what has routes of its own, and is read back as the endpoint. The environment and the
headers are written as they were given. -/
structure EntryWritten (ep : EndpointConfig) (existing entry : Table) : Prop where
  preserved : ∀ key ∈ preservedKeys, entry.get key = existing.get key
  readBack : EndpointConfig.ofToml entry = (readPreserved existing).map ep.written.preserving
  env : entry.get "env" = (nonEmpty ep.env).map Value.stringMap
  headers : entry.get "headers" = (nonEmpty ep.headers).map Value.stringMap

structure EndpointWritten (ep : EndpointConfig) (original : Option String) (doc doc' : Table) : Prop where
  others : SectionsKept "endpoints" doc doc'
  entry : ∃ items items' entry existing, Document.endpointItems doc = some items ∧
    doc'.get "endpoints" = some (.array items') ∧ EntryPlaced items entry original existing items' ∧
    EntryWritten ep existing entry

/-- A section that is written as a whole is gone when nothing is left, and else its entries are read back as
they were given. -/
structure SectionWritten {α : Type} (ofToml : Table → Option α) (edited : String) (entries : List α)
    (doc doc' : Table) : Prop where
  others : SectionsKept edited doc doc'
  emptied : entries = [] → doc'.get edited = none
  readBack : entries ≠ [] → ∃ tables : List Table, doc'.get edited = some (.array (tables.map .table)) ∧
    tables.map ofToml = entries.map some

/-- The flags are set in an entry that the running config names, and nothing else. -/
inductive EntryPersisted (eps : List EndpointConfig) (v : Value) : Value → Prop where
  | unnamed (h : (Document.nameOf v).bind (fun name => eps.find? (·.name = name)) = none) :
      EntryPersisted eps v v
  | named {name ep} {t t' : Table} (htable : v = .table t) (hname : Document.nameOf v = some name)
      (hep : eps.find? (·.name = name) = some ep)
      (hkept : ∀ key, key ≠ "disabled" → key ≠ "disabled_tools" → t'.get key = t.get key)
      (hdisabled : t'.get "disabled" = some (.boolean ep.disabled))
      (htools : t'.get "disabled_tools" = some (Value.strings ep.disabledTools)) :
      EntryPersisted eps v (.table t')

structure FlagsPersisted (eps : List EndpointConfig) (doc doc' : Table) : Prop where
  others : SectionsKept "endpoints" doc doc'
  entries : ∀ items, doc.get "endpoints" = some (.array items) →
    ∃ items', doc'.get "endpoints" = some (.array items') ∧ List.Forall₂ (EntryPersisted eps) items items'
  absent : (∀ items, doc.get "endpoints" ≠ some (.array items)) → doc' = doc

def DocumentEdit.Effect (doc doc' : Table) : DocumentEdit → Prop
  | .endpoint ep original => EndpointWritten ep original doc doc'
  | .profiles ps => SectionWritten ProfileSettings.ofToml "profiles" ps doc doc'
  | .organizations os => SectionWritten ConfigOrganization.ofToml "organizations" os doc doc'
  | .flags eps => FlagsPersisted eps doc doc'

/-! ## Reading back -/

section Reading

variable {t existing : Table} {ep : EndpointConfig} {key : String}

theorem asTransport_display (tr : Transport) : asTransport (.string tr.display) = some tr := by
  cases tr <;> rfl

theorem asAuth_authToToml (auth : EndpointAuthConfig) : asAuth (authToToml auth) = some auth := by
  have hnd : ((authFields auth).map (·.1)).Nodup := by simp [authFields]
  have hget (key : String) (o : Option Value) (h : (authFields auth).lookup key = some o) :
      (Table.ofFields (authFields auth)).get key = o := Table.get_ofFields hnd h
  have htype := Table.required_string (hget "type" _ rfl)
  have horganization := Table.optional_string (hget "organization" _ rfl)
  have hidp := Table.optional_string (hget "idp" _ rfl)
  have hresource := Table.optional_string (hget "resource" _ rfl)
  show (do
    let authType ← (Table.ofFields (authFields auth)).required Value.asString "type"
    _) = _
  simp only [htype, horganization, hidp, hresource]
  rfl

/-- The table has the fields of the endpoint. -/
def Carries (t : Table) (ep : EndpointConfig) : Prop :=
  ∀ key o, (endpointFields ep).lookup key = some o → t.get key = o

theorem endpointFields_nodup (ep : EndpointConfig) : ((endpointFields ep).map (·.1)).Nodup := by
  simp [endpointFields]

theorem carries_endpointToTomlTable (ep : EndpointConfig) : Carries (Document.endpointToTomlTable ep) ep :=
  fun _ _ h => Table.get_ofFields (endpointFields_nodup ep) h

/-- **A table with the fields of an endpoint** is read as the endpoint, with what the preserved keys hold. -/
theorem ofToml_of_carries (h : Carries t ep) :
    EndpointConfig.ofToml t = (readPreserved t).map ep.written.preserving := by
  have hname := Table.required_string (h "name" _ rfl)
  have htransport : t.required asTransport "transport" = some ep.transport :=
    Table.required_of_get asTransport_display (h "transport" _ rfl)
  have hdescription := Table.optional_string (h "description" _ rfl)
  have htoolPrefix := Table.optional_string (h "tool_prefix" _ rfl)
  have hcommand := Table.optional_string (h "command" _ rfl)
  have hargs := Table.optional_strings (h "args" _ rfl)
  have hurl := Table.optional_string (h "url" _ rfl)
  have henv := Table.optional_stringMap (h "env" _ rfl)
  have hheaders := Table.optional_stringMap (h "headers" _ rfl)
  have hserver := Table.optional_string (h "oauth_server_url" _ rfl)
  have hclientId := Table.optional_string (h "client_id" _ rfl)
  have hscopes := Table.optional_strings (h "scopes" _ rfl)
  have htokenEndpoint := Table.optional_string (h "token_endpoint" _ rfl)
  have hoverride := Table.optional_string (h "server_type_override" _ rfl)
  have hisolation := Table.optional_string (h "isolation" _ rfl)
  have himage := Table.optional_string (h "container_image" _ rfl)
  have hmounts := Table.optional_strings (h "mounts" _ rfl)
  have hauth : t.optional asAuth "auth" = some ep.auth :=
    Table.optional_of_get asAuth_authToToml (h "auth" _ rfl)
  unfold EndpointConfig.ofToml
  simp only [hname, htransport, hdescription, htoolPrefix, hcommand, hargs, hurl, henv, hheaders, hserver,
    hclientId, hscopes, htokenEndpoint, hoverride, hisolation, himage, hmounts, hauth]
  cases readPreserved t with
  | none => rfl
  | some p => rfl

theorem readPreserved_congr (h : ∀ key ∈ preservedKeys, t.get key = existing.get key) :
    readPreserved t = readPreserved existing := by
  have hdisabled := Table.optional_congr Value.asBool (h "disabled" (by decide))
  have htools := Table.optional_congr Value.asStrings (h "disabled_tools" (by decide))
  have hsecret := Table.optional_congr Value.asString (h "client_secret" (by decide))
  unfold readPreserved
  rw [hdisabled, htools, hsecret]

theorem entryWritten_of_carries (hcarries : Carries t ep)
    (hkept : ∀ key ∈ preservedKeys, t.get key = existing.get key) : EntryWritten ep existing t where
  preserved := hkept
  readBack := by rw [ofToml_of_carries hcarries, readPreserved_congr hkept]
  env := hcarries "env" _ rfl
  headers := hcarries "headers" _ rfl

/-! ### The keys that an update keeps -/

theorem get_keepKeys_of_notMem {o : Option Table} {keys : List String} (h : key ∉ keys) :
    (Document.keepKeys o keys t).get key = t.get key := by
  induction keys generalizing t with
  | nil => rfl
  | cons k keys ih =>
    rw [List.mem_cons, not_or] at h
    unfold Document.keepKeys
    split
    · rw [ih h.2, Table.get_insert_ne h.1]
    · exact ih h.2

theorem get_keepKeys_of_mem {keys : List String} (hnd : keys.Nodup) (hkey : key ∈ keys)
    (hnone : t.get key = none) :
    (Document.keepKeys (some existing) keys t).get key = existing.get key := by
  induction keys generalizing t with
  | nil => exact absurd hkey List.not_mem_nil
  | cons k keys ih =>
    rw [List.nodup_cons] at hnd
    unfold Document.keepKeys
    by_cases hk : key = k
    · subst hk
      split
      · rename_i v hv
        rw [get_keepKeys_of_notMem hnd.1, Table.get_insert_self]
        exact hv.symm
      · rename_i hv
        rw [get_keepKeys_of_notMem hnd.1, hnone]
        exact hv.symm
    · have hrest : key ∈ keys := (List.mem_cons.1 hkey).resolve_left hk
      split
      · exact ih hnd.2 hrest (by rw [Table.get_insert_ne hk, hnone])
      · exact ih hnd.2 hrest hnone

/-- None of the preserved keys is a field of the settings. -/
theorem lookup_preserved (ep : EndpointConfig) {o : Option Value}
    (h : (endpointFields ep).lookup key = some o) : key ∉ preservedKeys := by
  intro hkey
  have hfield : key ∈ (endpointFields ep).map (·.1) := List.mem_map_of_mem (mem_of_lookup h)
  simp [preservedKeys] at hkey
  obtain rfl | rfl | rfl := hkey <;> simp [endpointFields] at hfield

theorem get_preserved (ep : EndpointConfig) (h : key ∈ preservedKeys) :
    (Document.endpointToTomlTable ep).get key = none := by
  refine Table.get_ofFields_none fun hfield => ?_
  simp [preservedKeys] at h
  obtain rfl | rfl | rfl := h <;> simp [endpointFields] at hfield

theorem entryWritten_created (ep : EndpointConfig) :
    EntryWritten ep [] (Document.endpointToTomlTable ep) :=
  entryWritten_of_carries (carries_endpointToTomlTable ep) fun _ h => get_preserved ep h

/-- What an update writes over the existing entry. -/
theorem entryWritten_updated (ep : EndpointConfig) (existing : Table) :
    EntryWritten ep existing (Document.keepPreserved (some existing) (Document.endpointToTomlTable ep)) := by
  refine entryWritten_of_carries (fun key o h => ?_) fun key h => ?_
  · have hkey := lookup_preserved ep h
    exact (get_keepKeys_of_notMem hkey).trans (carries_endpointToTomlTable ep key o h)
  · exact get_keepKeys_of_mem (by decide) h (get_preserved ep h)

end Reading

/-! ## Sections -/

section Sections

variable {doc doc' : Table} {items : List Value} {name : String}

theorem sectionsKept_insert (doc : Table) (edited : String) (v : Value) :
    SectionsKept edited doc (doc.insert edited v) :=
  fun _ h => Table.get_insert_ne h

theorem asTable_of_nameOf {v : Value} (h : Document.nameOf v = some name) : ∃ t, v = .table t := by
  cases v with
  | table t => exact ⟨t, rfl⟩
  | _ => cases h

theorem entry_of_findIdx {i : Nat}
    (h : items.findIdx? (fun v => Document.nameOf v = some name) = some i) :
    ∃ existing, items[i]? = some (.table existing) ∧ Document.nameOf (.table existing) = some name := by
  obtain ⟨hi, hname, -⟩ := List.findIdx?_eq_some_iff_getElem.1 h
  have hname := of_decide_eq_true hname
  obtain ⟨existing, hv⟩ := asTable_of_nameOf hname
  refine ⟨existing, ?_, hv ▸ hname⟩
  rw [List.getElem?_eq_getElem hi, hv]

theorem writeEndpointToDisk_written {ep : EndpointConfig} {original : Option String}
    (h : Document.writeEndpointToDisk ep original doc = .ok doc') : EndpointWritten ep original doc doc' := by
  unfold Document.writeEndpointToDisk at h
  split at h
  · cases h
  · rename_i items hitems
    split at h
    · split at h
      · cases h
      · cases h
        exact ⟨sectionsKept_insert _ _ _, items, _, _, _, hitems, Table.get_insert_self _ _ _, .appended,
          entryWritten_created ep⟩
    · rename_i orig
      split at h
      · cases h
      · rename_i i hi
        obtain ⟨existing, hentry, hname⟩ := entry_of_findIdx hi
        split at h
        · cases h
        · cases h
          refine ⟨sectionsKept_insert _ _ _, items, _, _, _, hitems, Table.get_insert_self _ _ _,
            .replaced hentry hname, ?_⟩
          rw [hentry]
          exact entryWritten_updated ep existing

theorem writeSection_written {α : Type} {ofToml : Table → Option α} {toToml : α → Table}
    (hread : ∀ a, ofToml (toToml a) = some a) (edited : String) (entries : List α) (doc : Table) :
    SectionWritten ofToml edited entries doc (Document.writeSection edited (entries.map toToml) doc) := by
  unfold Document.writeSection
  cases entries with
  | nil =>
    refine ⟨fun key h => Table.get_remove_ne h, fun _ => Table.get_remove_self _ _, fun h => ?_⟩
    exact absurd rfl h
  | cons a entries =>
    refine ⟨sectionsKept_insert _ _ _, fun h => ?_, fun _ => ⟨_, Table.get_insert_self _ _ _, ?_⟩⟩
    · cases h
    · rw [List.map_map]
      exact List.map_congr_left fun a _ => hread a

theorem profile_ofToml (p : ProfileSettings) :
    ProfileSettings.ofToml (Table.ofFields (profileFields p)) = some p := by
  have hnd : ((profileFields p).map (·.1)).Nodup := by simp [profileFields]
  have hget (key : String) (o : Option Value) (h : (profileFields p).lookup key = some o) :
      (Table.ofFields (profileFields p)).get key = o := Table.get_ofFields hnd h
  have hname := Table.required_string (hget "name" _ rfl)
  have hpath := Table.required_string (hget "path" _ rfl)
  have hendpoints : (Table.ofFields (profileFields p)).optional Value.asStrings "endpoints" =
      some (some p.profile.endpoints) := Table.optional_strings (hget "endpoints" _ rfl)
  have hjs := Table.required_boolean (hget "js_execution" _ rfl)
  have htoon := Table.required_boolean (hget "toon_output" _ rfl)
  unfold ProfileSettings.ofToml
  simp only [hname, hpath, hendpoints, hjs, htoon]
  rfl

theorem organization_ofToml (o : ConfigOrganization) :
    ConfigOrganization.ofToml (Table.ofFields (organizationFields o)) = some o := by
  have hnd : ((organizationFields o).map (·.1)).Nodup := by simp [organizationFields]
  have hget (key : String) (v : Option Value) (h : (organizationFields o).lookup key = some v) :
      (Table.ofFields (organizationFields o)).get key = v := Table.get_ofFields hnd h
  have hname := Table.required_string (hget "name" _ rfl)
  have hprovider := Table.required_string (hget "provider" _ rfl)
  have hidp := Table.required_string (hget "idp" _ rfl)
  have hclient := Table.optional_string (hget "client_id" _ rfl)
  unfold ConfigOrganization.ofToml
  simp only [hname, hprovider, hidp, hclient]
  rfl

theorem persistEntry_persisted (eps : List EndpointConfig) (v : Value) :
    EntryPersisted eps v (Document.persistEntry eps v) := by
  cases hep : (Document.nameOf v).bind fun name => eps.find? (·.name = name) with
  | none =>
    have hsame : Document.persistEntry eps v = v := by
      unfold Document.persistEntry
      rw [hep]
      split
      · rename_i hsome
        cases hsome
      · rfl
    rw [hsame]
    exact .unnamed hep
  | some ep =>
    obtain ⟨name, hname, hfind⟩ := Option.bind_eq_some_iff.1 hep
    obtain ⟨t, rfl⟩ := asTable_of_nameOf hname
    have hset : Document.persistEntry eps (.table t) = .table
        ((Table.insert t "disabled" (.boolean ep.disabled)).insert "disabled_tools"
          (Value.strings ep.disabledTools)) := by
      unfold Document.persistEntry
      rw [hep]
      rfl
    rw [hset]
    refine .named rfl hname hfind (fun key h₁ h₂ => ?_) ?_ (Table.get_insert_self _ _ _)
    · rw [Table.get_insert_ne h₂, Table.get_insert_ne h₁]
    · have hne : "disabled" ≠ "disabled_tools" := by decide
      rw [Table.get_insert_ne hne, Table.get_insert_self]

theorem persistDisabledState_persisted (eps : List EndpointConfig) (doc : Table) :
    FlagsPersisted eps doc (Document.persistDisabledState eps doc) := by
  unfold Document.persistDisabledState
  split
  · rename_i items hitems
    refine ⟨sectionsKept_insert _ _ _, fun items' h => ⟨_, Table.get_insert_self _ _ _, ?_⟩, fun h => ?_⟩
    · rw [hitems] at h
      cases h
      rw [List.forall₂_map_right_iff]
      exact List.forall₂_same.2 fun v _ => persistEntry_persisted eps v
    · exact absurd hitems (h items)
  · rename_i hnone
    exact ⟨fun _ _ => rfl, fun items h => absurd h (hnone items), fun _ => rfl⟩

end Sections

/-- **Targeted edits.** -/
theorem targeted_edit {doc doc' : Table} {edit : DocumentEdit} (h : edit.apply doc = .ok doc') :
    edit.Effect doc doc' := by
  cases edit with
  | endpoint ep original => exact writeEndpointToDisk_written h
  | profiles ps =>
    cases h
    exact writeSection_written profile_ofToml _ ps doc
  | organizations os =>
    cases h
    exact writeSection_written organization_ofToml _ os doc
  | flags eps =>
    cases h
    exact persistDisabledState_persisted eps doc

/-- An update of a disabled endpoint: it stays disabled, and the reference to the environment is what is
written. -/
def gitUpdate : DocumentEdit :=
  .endpoint { name := "git", transport := .stdio, command := some "run", env := some [("TOKEN", "$TOKEN")] }
    (some "git")

def gitDocument : Table :=
  [("endpoints", .array [.table [("name", .string "git"), ("transport", .string "sse"),
      ("disabled", .boolean true)]]),
    ("desktop", .table [("theme", .string "dark")])]

theorem targeted_edit_update :
    ∃ doc', gitUpdate.apply gitDocument = .ok doc' ∧ gitUpdate.Effect gitDocument doc' :=
  ⟨_, rfl, targeted_edit rfl⟩

def tintedProfile : Table :=
  [("name", .string "Work"), ("path", .string "work"), ("js_execution", .boolean false),
    ("toon_output", .boolean false), ("color", .string "red")]

def workProfile : ProfileSettings := ⟨⟨"Work", "work", []⟩, false, false⟩

def homeProfile : ProfileSettings := ⟨⟨"Home", "home", []⟩, false, false⟩

/-- Another profile is created, and the one that was there loses its key. -/
theorem other_profile_loses_key :
    ProfileSettings.ofToml tintedProfile = some workProfile ∧
      tintedProfile.get "color" = some (.string "red") ∧
      ∃ doc' work home, (DocumentEdit.profiles [workProfile, homeProfile]).apply
          [("profiles", .array [.table tintedProfile])] = .ok doc' ∧
        doc'.get "profiles" = some (.array [.table work, .table home]) ∧
        ProfileSettings.ofToml work = some workProfile ∧ Table.get work "color" = none :=
  ⟨rfl, rfl, _, _, _, rfl, rfl, rfl, rfl⟩

end EndaraRelay
