import EndaraRelay.ManagedRelay

/-!
# Restarting on the config

Does `config.toml` pass strict validation after every request that was answered with success?

**Validity.** `SoundEndpoints` and `SoundProfiles` say what `Config::validate` and `validate_profiles`
accept: endpoints that are valid each by itself, with distinct prefixes, and profiles with distinct names and
paths that refer to endpoints of the file.

**Theorem (`config_stays_loadable`).** In every run whose requests pass `keepsLoadable` the file stays valid.
The condition is exact: it is what an accepted request must meet not to break a valid file. It asks for what
`validate_endpoint_request`, the deletion of an endpoint and the commit of a setup do not look at: that the
tool prefix is well formed and free, and that no profile is left with a reference to an endpoint that is
gone. A reload in between changes what is published, and with it what the requests are checked against.
-/

namespace EndaraRelay

open Verif

/-! ## What is valid -/

/-- The file passes `Config::validate` and `validate_profiles`. -/
structure StrictlyValid (relay : RelayTable) (file : ConfigFile) : Prop where
  endpoints : (file.parsed relay).config.validate = .ok ()
  profiles : validateProfiles (file.parsed relay) = []

structure SoundEndpoints (eps : List EndpointConfig) : Prop where
  valid : ∀ ep ∈ eps, ValidEndpoint ep
  distinct : eps.Pairwise fun a b => a.resolvedToolPrefix ≠ b.resolvedToolPrefix

structure SoundProfiles (endpointNames : List String) (profiles : List ProfileConfig) : Prop where
  named : ∀ p ∈ profiles, trim p.name ≠ ""
  pathed : ∀ p ∈ profiles, validateProfilePath p.path = none
  known : ∀ p ∈ profiles, ∀ name ∈ p.endpoints, name ∈ endpointNames
  names : (profiles.map (·.name)).Nodup
  paths : (profiles.map fun p => toAsciiLowercase p.path).Nodup

variable {relay : RelayTable} {file : ConfigFile} {name : String} {t : EndpointTable}
  {existing original : Option String} {profiles : List ProfileSettings} {r : ConfigRequest}

section Validity

variable {endpointNames seenNames seenPaths : List String} {p : ProfileConfig} {ps : List ProfileConfig}

theorem profileNameErrors_eq_nil :
    profileNameErrors seenNames p = [] ↔ trim p.name ≠ "" ∧ p.name ∉ seenNames := by
  unfold profileNameErrors
  by_cases hempty : trim p.name = ""
  · simp [hempty]
  · by_cases hseen : p.name ∈ seenNames
    · simp [hempty, hseen]
    · simp [hempty, hseen]

theorem profilePathErrors_eq_nil :
    profilePathErrors seenPaths p = [] ↔
      validateProfilePath p.path = none ∧ toAsciiLowercase p.path ∉ seenPaths := by
  unfold profilePathErrors
  cases hpath : validateProfilePath p.path with
  | some msg => simp
  | none =>
    by_cases hseen : toAsciiLowercase p.path ∈ seenPaths
    · simp [hseen]
    · simp [hseen]

theorem profileEndpointErrors_eq_nil :
    profileEndpointErrors endpointNames p = [] ↔ ∀ name ∈ p.endpoints, name ∈ endpointNames := by
  unfold profileEndpointErrors
  rw [List.map_eq_nil_iff, List.filter_eq_nil_iff]
  simp

/-- Profiles without errors are sound, and have neither a name nor a path that was seen before. -/
theorem profileErrors_eq_nil :
    profileErrors endpointNames seenNames seenPaths ps = [] ↔
      SoundProfiles endpointNames ps ∧ (∀ p ∈ ps, p.name ∉ seenNames) ∧
        ∀ p ∈ ps, toAsciiLowercase p.path ∉ seenPaths := by
  induction ps generalizing seenNames seenPaths with
  | nil =>
    refine ⟨fun _ => ⟨⟨?_, ?_, ?_, List.nodup_nil, List.nodup_nil⟩, ?_, ?_⟩, fun _ => rfl⟩
    all_goals exact List.forall_mem_nil _
  | cons p ps ih =>
    unfold profileErrors
    simp only [List.append_eq_nil_iff, profileNameErrors_eq_nil, profilePathErrors_eq_nil,
      profileEndpointErrors_eq_nil]
    constructor
    · rintro ⟨⟨⟨⟨hname, hnewName⟩, hpath, hnewPath⟩, hknown⟩, hrest⟩
      rw [if_neg hname, hpath] at hrest
      obtain ⟨hsound, hnames, hpaths⟩ := ih.1 hrest
      refine ⟨⟨List.forall_mem_cons.2 ⟨hname, hsound.named⟩, List.forall_mem_cons.2 ⟨hpath, hsound.pathed⟩,
        List.forall_mem_cons.2 ⟨hknown, hsound.known⟩, ?_, ?_⟩, ?_, ?_⟩
      · refine List.nodup_cons.2 ⟨fun hmem => ?_, hsound.names⟩
        obtain ⟨q, hq, heq⟩ := List.mem_map.1 hmem
        exact hnames q hq (heq ▸ List.mem_cons_self)
      · refine List.nodup_cons.2 ⟨fun hmem => ?_, hsound.paths⟩
        obtain ⟨q, hq, heq⟩ := List.mem_map.1 hmem
        refine hpaths q hq ?_
        show toAsciiLowercase q.path ∈ toAsciiLowercase p.path :: seenPaths
        exact heq ▸ List.mem_cons_self
      · refine List.forall_mem_cons.2 ⟨hnewName, fun q hq hmem => ?_⟩
        exact hnames q hq (List.mem_cons_of_mem _ hmem)
      · refine List.forall_mem_cons.2 ⟨hnewPath, fun q hq hmem => ?_⟩
        exact hpaths q hq (List.mem_cons_of_mem _ hmem)
    · rintro ⟨hsound, hnames, hpaths⟩
      obtain ⟨hname, hnamed⟩ := List.forall_mem_cons.1 hsound.named
      obtain ⟨hpath, hpathed⟩ := List.forall_mem_cons.1 hsound.pathed
      obtain ⟨hknown, hknowns⟩ := List.forall_mem_cons.1 hsound.known
      obtain ⟨hnewName, hnewNames⟩ := List.forall_mem_cons.1 hnames
      obtain ⟨hnewPath, hnewPaths⟩ := List.forall_mem_cons.1 hpaths
      obtain ⟨hother, hnodup⟩ := List.nodup_cons.1 hsound.names
      obtain ⟨hotherPath, hnodupPaths⟩ := List.nodup_cons.1 hsound.paths
      refine ⟨⟨⟨⟨hname, hnewName⟩, hpath, hnewPath⟩, hknown⟩, ?_⟩
      rw [if_neg hname, hpath]
      refine ih.2 ⟨⟨hnamed, hpathed, hknowns, hnodup, hnodupPaths⟩, fun q hq hmem => ?_, fun q hq hmem => ?_⟩
      · rcases List.mem_cons.1 hmem with heq | hmem
        · exact hother (List.mem_map.2 ⟨q, hq, heq⟩)
        · exact hnewNames q hq hmem
      · rcases List.mem_cons.1 hmem with heq | hmem
        · exact hotherPath (List.mem_map.2 ⟨q, hq, heq⟩)
        · exact hnewPaths q hq hmem

/-- What `validate_profiles` accepts. -/
theorem validateProfiles_iff :
    validateProfiles (file.parsed relay) = [] ↔
      SoundProfiles (file.endpoints.map EndpointTable.name) (file.profiles.map (·.profile)) := by
  unfold validateProfiles
  rw [profileErrors_eq_nil]
  have hnames : (file.parsed relay).config.endpoints.map (·.name) =
      file.endpoints.map EndpointTable.name := names_config file
  rw [hnames]
  exact ⟨fun h => h.1, fun h => ⟨h, fun _ _ => List.not_mem_nil, fun _ _ => List.not_mem_nil⟩⟩

/-- **What strict validation accepts.** -/
theorem strictlyValid_iff :
    StrictlyValid relay file ↔ SoundEndpoints (file.endpoints.map EndpointTable.config) ∧
      SoundProfiles (file.endpoints.map EndpointTable.name) (file.profiles.map (·.profile)) := by
  have hendpoints : (file.parsed relay).config.validate = .ok () ↔
      SoundEndpoints (file.endpoints.map EndpointTable.config) := by
    rw [validate_eq_ok]
    refine validateEndpoints_eq_nil_iff.trans ⟨fun h => ⟨h.1, h.2⟩, fun h => ⟨h.valid, h.distinct⟩⟩
  rw [← hendpoints, ← validateProfiles_iff]
  exact ⟨fun h => ⟨h.endpoints, h.profiles⟩, fun h => ⟨h.1, h.2⟩⟩

end Validity

/-! ## The condition -/

/-- The explicit tool prefix of a request, or its sanitized name. -/
def EndpointRequest.resolvedToolPrefix (req : EndpointRequest) : Option String :=
  match req.toolPrefix with
  | some tp => some tp
  | none => sanitizeName req.name

/-- The prefix is there and well formed, and no other endpoint has it. -/
def prefixKept (others : List EndpointTable) (tp : Option String) : Bool :=
  match tp with
  | none => false
  | some tp => isValidEndpointName tp && others.all fun t => t.config.resolvedToolPrefix ≠ some tp

def unreferenced (name : String) (file : ConfigFile) : Bool :=
  file.profiles.all fun p => !p.profile.endpoints.contains name

/-- The endpoints that a create or update request leaves as they are. -/
def otherEndpoints (original : Option String) (file : ConfigFile) : List EndpointTable :=
  match original with
  | none => file.endpoints
  | some orig => file.endpoints.eraseP fun t => t.name = orig

/-- A rename leaves no profile with a reference to the old name. -/
def renameKept (original : Option String) (name : String) (file : ConfigFile) : Bool :=
  match original with
  | none => true
  | some orig => name = orig || (otherEndpoints original file).any (fun t => t.name = orig) ||
      unreferenced orig file

/-- The endpoints of a profile are in the file. -/
def referencesKnown (req : ManagedProfileRequest) (file : ConfigFile) : Bool :=
  req.profile.endpoints.all fun name => file.endpoints.any fun t => t.name = name

/-- What a request must meet not to break a valid file. -/
def keepsLoadable (file : ConfigFile) : ConfigRequest → Bool
  | .createEndpoint req => prefixKept file.endpoints req.resolvedToolPrefix
  | .updateEndpoint name req =>
    prefixKept (otherEndpoints (some name) file) req.resolvedToolPrefix &&
      renameKept (some name) req.name file
  | .deleteEndpoint name => unreferenced name file
  | .commitSetup session _ => session.name ≠ "" && session.url ≠ "" &&
      prefixKept file.endpoints session.endpoint.resolvedToolPrefix
  | .profile (.create req) | .profile (.update _ req) => referencesKnown req file
  | .profile (.delete _) | .organization _ => true

/-! ## Endpoints -/

section Endpoints

variable {relay : RelayTable} {file file' : ConfigFile} {ep : EndpointConfig} {original : Option String}

theorem unreferenced_iff :
    unreferenced name file = true ↔ ∀ p ∈ file.profiles, name ∉ p.profile.endpoints := by
  simp [unreferenced]

theorem prefixKept_iff {others : List EndpointTable} {tp : Option String} :
    prefixKept others tp = true ↔
      (∃ s, tp = some s ∧ isValidEndpointName s = true) ∧ ∀ t ∈ others, t.config.resolvedToolPrefix ≠ tp := by
  cases tp with
  | none => simp [prefixKept]
  | some s => simp [prefixKept]

/-- One endpoint more, wherever it is put. -/
theorem soundEndpoints_middle {l₁ l₂ : List EndpointConfig} (h : SoundEndpoints (l₁ ++ l₂)) :
    SoundEndpoints (l₁ ++ ep :: l₂) ↔
      ValidEndpoint ep ∧ ∀ other ∈ l₁ ++ l₂, other.resolvedToolPrefix ≠ ep.resolvedToolPrefix := by
  have hperm : (l₁ ++ ep :: l₂).Perm (ep :: (l₁ ++ l₂)) := List.perm_middle
  have hpair := hperm.pairwise_iff (R := fun a b : EndpointConfig =>
    a.resolvedToolPrefix ≠ b.resolvedToolPrefix) Ne.symm
  constructor
  · rintro ⟨hvalid, hdistinct⟩
    refine ⟨hvalid ep (by simp), fun other hother => ?_⟩
    exact ((List.pairwise_cons.1 (hpair.1 hdistinct)).1 other hother).symm
  · rintro ⟨hvalid, hfree⟩
    refine ⟨fun other hother => ?_, hpair.2 (List.pairwise_cons.2 ⟨fun other hother => ?_, h.distinct⟩)⟩
    · rcases List.mem_cons.1 (hperm.subset hother) with rfl | hother
      · exact hvalid
      · exact h.valid other hother
    · exact (hfree other hother).symm

theorem SoundEndpoints.sublist {l l' : List EndpointConfig} (h : SoundEndpoints l) (hsub : l'.Sublist l) :
    SoundEndpoints l' :=
  ⟨fun ep hep => h.valid ep (hsub.subset hep), h.distinct.sublist hsub⟩

/-- Of a sound list of profiles only the references depend on the endpoints. -/
theorem SoundProfiles.endpoints_iff {names names' : List String} {ps : List ProfileConfig}
    (h : SoundProfiles names ps) :
    SoundProfiles names' ps ↔ ∀ p ∈ ps, ∀ name ∈ p.endpoints, name ∈ names' :=
  ⟨fun h' => h'.known, fun hknown => ⟨h.named, h.pathed, hknown, h.names, h.paths⟩⟩

/-- Where an endpoint is written: `t` is its table, the others come before it and after it. -/
structure EndpointPlaced (ep : EndpointConfig) (original : Option String) (file file' : ConfigFile)
    (l₁ l₂ : List EndpointTable) (t : EndpointTable) : Prop where
  others : otherEndpoints original file = l₁ ++ l₂
  settings : t.settings = ep.written
  written : file' = { file with endpoints := l₁ ++ t :: l₂ }
  created : original = none → l₂ = [] ∧ t = endpointToTomlTable ep
  replaced : ∀ orig, original = some orig → orig ∉ l₁.map EndpointTable.name ∧
    ∃ y, y.name = orig ∧ file.endpoints = l₁ ++ y :: l₂ ∧ t.flags = y.flags ∧
      t.clientSecret = y.clientSecret

theorem writeEndpoint_placed (h : writeEndpoint ep original file = .ok file') :
    ∃ l₁ l₂ t, EndpointPlaced ep original file file' l₁ l₂ t := by
  cases original with
  | none =>
    unfold writeEndpoint at h
    dsimp only at h
    split at h
    · cases h
    · cases h
      refine ⟨file.endpoints, [], endpointToTomlTable ep, (List.append_nil _).symm, rfl, rfl,
        fun _ => ⟨rfl, rfl⟩, fun orig horig => ?_⟩
      cases horig
  | some orig =>
    unfold writeEndpoint at h
    dsimp only at h
    split at h
    · cases h
    · next existing hfind =>
      split at h
      · cases h
      · cases h
        have hmem := List.mem_of_find?_eq_some hfind
        have hname : existing.name = orig := by simpa using List.find?_some hfind
        have hin : orig ∈ file.endpoints.map EndpointTable.name := List.mem_map.2 ⟨existing, hmem, hname⟩
        let t : EndpointTable := { endpointToTomlTable ep with
          disabled := existing.disabled
          disabledTools := existing.disabledTools
          clientSecret := existing.clientSecret }
        obtain ⟨y, l₁, l₂, hy, hbefore, hl, happly⟩ := ListEdit.apply_replace_eq hin t
        have hnone : ∀ u ∈ l₁, ¬ decide (u.name = orig) = true := fun u hu heq =>
          hbefore (List.mem_map.2 ⟨u, hu, of_decide_eq_true heq⟩)
        have hexisting : existing = y := by
          have hfirst : (y :: l₂).find? (fun u => decide (u.name = orig)) = some y := by simp [hy]
          rw [hl, List.find?_append, List.find?_eq_none.2 hnone, Option.none_or, hfirst] at hfind
          exact (Option.some.inj hfind).symm
        refine ⟨l₁, l₂, t, ?_, rfl, ?_, fun hnew => ?_, fun orig' horig => ?_⟩
        · have hfirst : (y :: l₂).eraseP (fun u => decide (u.name = orig)) = l₂ := by simp [hy]
          show file.endpoints.eraseP (fun u => u.name = orig) = l₁ ++ l₂
          rw [hl, List.eraseP_append_right _ hnone, hfirst]
        · exact congrArg (fun l => { file with endpoints := l }) happly
        · cases hnew
        · cases horig
          refine ⟨hbefore, y, hy, hl, ?_, ?_⟩
          · rw [← hexisting]
            rfl
          · rw [← hexisting]

/-- The names of the file: those of the others, and the one that is replaced. -/
theorem EndpointPlaced.names_iff {l₁ l₂ : List EndpointTable} {orig : String}
    (h : EndpointPlaced ep (some orig) file file' l₁ l₂ t) (name : String) :
    name ∈ file.endpoints.map EndpointTable.name ↔
      name = orig ∨ name ∈ (l₁ ++ l₂).map EndpointTable.name := by
  obtain ⟨-, y, hy, hl, -, -⟩ := h.replaced orig rfl
  rw [hl]
  simp only [List.map_append, List.map_cons, List.mem_append, List.mem_cons, hy]
  tauto

/-- What an endpoint that is not yet in the file must be like: everything but its prefix. -/
structure Acceptable (ep : EndpointConfig) : Prop where
  name_ne : ep.name ≠ ""
  transport_ok : transportErrors ep = []
  auth_ok : validateEndpointAuth ep = none

theorem validEndpoint_table (h : t.settings = ep.written) :
    ValidEndpoint t.config ↔
      Acceptable ep ∧ ∃ tp, ep.resolvedToolPrefix = some tp ∧ isValidEndpointName tp = true := by
  have hvalid : ValidEndpoint t.config ↔ ValidEndpoint ep.written := by
    rw [← h]
    exact ⟨fun h => ⟨h.name_ne, h.prefix_ok, h.transport_ok, h.auth_ok⟩,
      fun h => ⟨h.name_ne, h.prefix_ok, h.transport_ok, h.auth_ok⟩⟩
  rw [hvalid]
  exact ⟨fun h => ⟨⟨h.name_ne, h.transport_ok, h.auth_ok⟩, h.prefix_ok⟩,
    fun h => ⟨h.1.name_ne, h.2, h.1.transport_ok, h.1.auth_ok⟩⟩

theorem prefix_table (h : t.settings = ep.written) :
    t.config.resolvedToolPrefix = ep.resolvedToolPrefix := by
  show EndpointConfig.resolvedToolPrefix t.settings = _
  rw [h]
  rfl

theorem soundEndpoints_written (hvalid : StrictlyValid relay file)
    (h : writeEndpoint ep original file = .ok file') :
    SoundEndpoints (file'.endpoints.map EndpointTable.config) ↔
      Acceptable ep ∧ prefixKept (otherEndpoints original file) ep.resolvedToolPrefix = true := by
  obtain ⟨l₁, l₂, t, hplaced⟩ := writeEndpoint_placed h
  obtain ⟨hothers, ht, rfl, -, -⟩ := hplaced
  have hsound := (strictlyValid_iff.1 hvalid).1
  have hsub : (otherEndpoints original file).Sublist file.endpoints := by
    unfold otherEndpoints
    cases original with
    | none => exact List.Sublist.refl _
    | some orig => exact List.eraseP_sublist
  have hrest := hsound.sublist (hsub.map EndpointTable.config)
  rw [hothers, List.map_append] at hrest
  rw [hothers, prefixKept_iff]
  show SoundEndpoints ((l₁ ++ t :: l₂).map EndpointTable.config) ↔ _
  rw [List.map_append, List.map_cons, soundEndpoints_middle hrest, validEndpoint_table ht, prefix_table ht,
    ← List.map_append, List.forall_mem_map]
  tauto

theorem soundProfiles_written
    (hsound : SoundProfiles (file.endpoints.map EndpointTable.name) (file.profiles.map (·.profile)))
    (h : writeEndpoint ep original file = .ok file') :
    SoundProfiles (file'.endpoints.map EndpointTable.name) (file'.profiles.map (·.profile)) ↔
      renameKept original ep.name file = true := by
  obtain ⟨l₁, l₂, t, hplaced⟩ := writeEndpoint_placed h
  obtain ⟨hothers, ht, rfl, -, -⟩ := id hplaced
  have hname : t.name = ep.name := (congrArg EndpointConfig.name ht).trans (name_written ep)
  have hmem (name : String) : name ∈ (l₁ ++ t :: l₂).map EndpointTable.name ↔
      name = ep.name ∨ name ∈ (l₁ ++ l₂).map EndpointTable.name := by
    simp only [List.map_append, List.map_cons, List.mem_append, List.mem_cons, hname]
    tauto
  show SoundProfiles ((l₁ ++ t :: l₂).map EndpointTable.name) (file.profiles.map (·.profile)) ↔ _
  rw [hsound.endpoints_iff, List.forall_mem_map]
  have hknown := List.forall_mem_map.1 hsound.known
  cases original with
  | none =>
    refine ⟨fun _ => rfl, fun _ p hp name hn => (hmem name).2 (.inr ?_)⟩
    have hfile : file.endpoints = l₁ ++ l₂ := hothers
    exact hfile ▸ hknown p hp name hn
  | some orig =>
    have hnames := hplaced.names_iff
    unfold renameKept
    simp only [hothers, Bool.or_eq_true, decide_eq_true_eq, List.any_eq_true, unreferenced_iff]
    constructor
    · intro hall
      by_cases hsame : ep.name = orig
      · exact .inl (.inl hsame)
      · by_cases hother : ∃ t ∈ l₁ ++ l₂, t.name = orig
        · exact .inl (.inr hother)
        · refine .inr fun p hp hn => ?_
          rcases (hmem orig).1 (hall p hp orig hn) with heq | hin
          · exact hsame heq.symm
          · exact hother (List.mem_map.1 hin)
    · intro hcase p hp name hn
      rcases (hnames name).1 (hknown p hp name hn) with rfl | hin
      · rcases hcase with (hsame | hother) | hnone
        · exact (hmem name).2 (.inl hsame.symm)
        · exact (hmem name).2 (.inr (List.mem_map.2 hother))
        · exact absurd hn (hnone p hp)
      · exact (hmem name).2 (.inr hin)

theorem strictlyValid_written (hvalid : StrictlyValid relay file)
    (h : writeEndpoint ep original file = .ok file') :
    StrictlyValid relay file' ↔
      (Acceptable ep ∧ prefixKept (otherEndpoints original file) ep.resolvedToolPrefix = true) ∧
        renameKept original ep.name file = true := by
  rw [strictlyValid_iff, soundEndpoints_written hvalid h,
    soundProfiles_written (strictlyValid_iff.1 hvalid).2 h]

/-- What the checks on a request make sure of, and what they take over from it. -/
theorem acceptable_of_request {quote : String → String} {req : EndpointRequest}
    {endpoints : List EndpointConfig} (h : validateEndpointRequest quote req endpoints original = .ok ep) :
    Acceptable ep ∧ ep.name = req.name ∧ ep.resolvedToolPrefix = req.resolvedToolPrefix := by
  unfold validateEndpointRequest at h
  obtain ⟨_, -, h⟩ := bind_eq_ok.1 h
  obtain ⟨_, hrequired, h⟩ := bind_eq_ok.1 h
  obtain ⟨_, -, h⟩ := bind_eq_ok.1 h
  obtain ⟨_, -, h⟩ := bind_eq_ok.1 h
  obtain ⟨_, -, h⟩ := bind_eq_ok.1 h
  dsimp only at h
  split at h
  · cases h
  · next hauth =>
    cases h
    refine ⟨⟨?_, ?_, hauth⟩, rfl, rfl⟩
    · obtain ⟨_, hname, -⟩ := bind_eq_ok.1 hrequired
      have hne := of_decide_eq_false (reject_eq_ok.1 hname)
      intro hempty
      have hempty : req.name = "" := hempty
      rw [hempty] at hne
      exact hne (by decide)
    · obtain ⟨_, -, hfield⟩ := bind_eq_ok.1 hrequired
      unfold transportErrors
      dsimp only
      split at hfield
      all_goals
        rename_i htransport
        have hthere := of_decide_eq_false (reject_eq_ok.1 hfield)
        rw [htransport]
        exact if_neg hthere

/-- What a commit writes is sound when its session has a name and an address. -/
theorem acceptable_session (session : OAuthSetupSession) :
    Acceptable session.endpoint ↔ session.name ≠ "" ∧ session.url ≠ "" := by
  have htransport : transportErrors session.endpoint = [] ↔ session.url ≠ "" := by
    have hmissing : missing session.endpoint.url ↔ session.url = "" := by
      simp [missing, OAuthSetupSession.endpoint]
    show (if missing session.endpoint.url then _ else []) = [] ↔ _
    rw [Ne, ← hmissing]
    by_cases hurl : missing session.endpoint.url
    · simp [hurl]
    · simp [hurl]
  rw [← htransport]
  exact ⟨fun h => ⟨h.name_ne, h.transport_ok⟩, fun h => ⟨h.1, h.2, rfl⟩⟩

end Endpoints

/-! ## Deletions and lists -/

section Lists

variable {relay : RelayTable} {file file' : ConfigFile} {req p : ProfileSettings}

theorem strictlyValid_removed (hvalid : StrictlyValid relay file)
    (h : removeEndpoint name file = .ok file') :
    StrictlyValid relay file' ↔ unreferenced name file = true := by
  obtain ⟨hendpoints, hprofiles⟩ := strictlyValid_iff.1 hvalid
  unfold removeEndpoint at h
  split at h
  · cases h
    have hsub := List.filter_sublist (p := fun t : EndpointTable => t.name ≠ name) (l := file.endpoints)
    rw [strictlyValid_iff, unreferenced_iff]
    constructor
    · rintro ⟨-, hsound⟩ p hp hn
      obtain ⟨t, ht, hname⟩ := List.mem_map.1 (hsound.known _ (List.mem_map_of_mem hp) name hn)
      exact of_decide_eq_true (List.mem_filter.1 ht).2 hname
    · intro hnone
      refine ⟨hendpoints.sublist (hsub.map _), hprofiles.endpoints_iff.2 (List.forall_mem_map.2 ?_)⟩
      intro p hp n hn
      obtain ⟨t, ht, hname⟩ := List.mem_map.1 (hprofiles.known _ (List.mem_map_of_mem hp) n hn)
      have hne : n ≠ name := fun heq => hnone p hp (heq ▸ hn)
      exact List.mem_map.2 ⟨t, List.mem_filter.2 ⟨ht, decide_eq_true (hname ▸ hne)⟩, hname⟩
  · cases h

theorem strictlyValid_organizations (organizations : List ConfigOrganization) :
    StrictlyValid relay (file.setList .organizations organizations) ↔ StrictlyValid relay file := by
  rw [strictlyValid_iff, strictlyValid_iff]
  rfl

theorem strictlyValid_profiles (hvalid : StrictlyValid relay file) (profiles : List ProfileSettings) :
    StrictlyValid relay (file.setList .profiles profiles) ↔
      SoundProfiles (file.endpoints.map EndpointTable.name) (profiles.map (·.profile)) := by
  rw [strictlyValid_iff]
  exact ⟨fun h => h.2, fun h => ⟨(strictlyValid_iff.1 hvalid).1, h⟩⟩

theorem SoundProfiles.sublist {names : List String} {l l' : List ProfileConfig} (h : SoundProfiles names l)
    (hsub : l'.Sublist l) : SoundProfiles names l' where
  named p hp := h.named p (hsub.subset hp)
  pathed p hp := h.pathed p (hsub.subset hp)
  known p hp := h.known p (hsub.subset hp)
  names := h.names.sublist (hsub.map _)
  paths := h.paths.sublist (hsub.map _)

/-- One profile more, with a name and a path that are free. -/
theorem soundProfiles_middle {names : List String} {l₁ l₂ : List ProfileConfig} {q : ProfileConfig}
    (h : SoundProfiles names (l₁ ++ l₂)) (hname : trim q.name ≠ "") (hpath : validateProfilePath q.path = none)
    (hfreeName : ∀ p ∈ l₁ ++ l₂, p.name ≠ q.name)
    (hfreePath : ∀ p ∈ l₁ ++ l₂, toAsciiLowercase p.path ≠ toAsciiLowercase q.path) :
    SoundProfiles names (l₁ ++ q :: l₂) ↔ ∀ name ∈ q.endpoints, name ∈ names := by
  have hperm : (l₁ ++ q :: l₂).Perm (q :: (l₁ ++ l₂)) := List.perm_middle
  have hmem {P : ProfileConfig → Prop} : (∀ p ∈ l₁ ++ q :: l₂, P p) ↔ P q ∧ ∀ p ∈ l₁ ++ l₂, P p := by
    rw [← List.forall_mem_cons]
    exact ⟨fun hall p hp => hall p (hperm.symm.subset hp), fun hall p hp => hall p (hperm.subset hp)⟩
  constructor
  · intro hsound
    exact (hmem.1 hsound.known).1
  · intro hknown
    refine ⟨hmem.2 ⟨hname, h.named⟩, hmem.2 ⟨hpath, h.pathed⟩, hmem.2 ⟨hknown, h.known⟩, ?_, ?_⟩
    · rw [(hperm.map _).nodup_iff, List.map_cons, List.nodup_cons]
      refine ⟨fun hin => ?_, h.names⟩
      obtain ⟨p, hp, heq⟩ := List.mem_map.1 hin
      exact hfreeName p hp heq
    · rw [(hperm.map _).nodup_iff, List.map_cons, List.nodup_cons]
      refine ⟨fun hin => ?_, h.paths⟩
      obtain ⟨p, hp, heq⟩ := List.mem_map.1 hin
      exact hfreePath p hp heq

theorem profileConflict_names (h : profileConflict req existing profiles = .ok ()) :
    ∀ q ∈ profiles, some q.pathKey ≠ existing → q.profile.name ≠ req.profile.name := by
  induction profiles with
  | nil => exact List.forall_mem_nil _
  | cons q profiles ih =>
    unfold profileConflict at h
    refine List.forall_mem_cons.2 ?_
    by_cases hsame : some q.pathKey = existing
    · rw [if_pos hsame] at h
      exact ⟨fun hne => absurd hsame hne, ih h⟩
    · rw [if_neg hsame] at h
      split at h
      · cases h
      · split at h
        · cases h
        · next hname => exact ⟨fun _ => hname, ih h⟩

/-- What the checks on a profile make sure of. -/
structure AcceptedProfile (profiles : List ProfileSettings) (existing : Option String)
    (p : ProfileSettings) : Prop where
  named : trim p.profile.name ≠ ""
  pathed : validateProfilePath p.profile.path = none
  freeName : ∀ q ∈ profiles, some q.pathKey ≠ existing → q.profile.name ≠ p.profile.name
  freePath : ∀ q ∈ profiles, some q.pathKey ≠ existing → q.pathKey ≠ p.pathKey

theorem accepted_of_request {cfg : RunningConfig} (h : validateProfileRequest req cfg existing = .ok p) :
    p = req ∧ AcceptedProfile (cfg.profiles.getD []) existing p := by
  obtain ⟨rfl, hpaths⟩ := validateProfileRequest_ok h
  unfold validateProfileRequest at h
  obtain ⟨_, hname, h⟩ := bind_eq_ok.1 h
  obtain ⟨_, hpath, h⟩ := bind_eq_ok.1 h
  obtain ⟨_, hfree, -⟩ := bind_eq_ok.1 h
  refine ⟨rfl, of_decide_eq_false (reject_eq_ok.1 hname), ?_, profileConflict_names hfree, hpaths⟩
  unfold checkProfilePath at hpath
  split at hpath
  · cases hpath
  · assumption

theorem referencesKnown_iff :
    referencesKnown p file = true ↔
      ∀ name ∈ p.profile.endpoints, name ∈ file.endpoints.map EndpointTable.name := by
  simp [referencesKnown]

theorem soundProfiles_inserted (hvalid : StrictlyValid relay file)
    (hp : AcceptedProfile file.profiles none p) :
    SoundProfiles (file.endpoints.map EndpointTable.name)
        (((ListEdit.insert p).apply ProfileSettings.pathKey file.profiles).map (·.profile)) ↔
      referencesKnown p file = true := by
  have hsound := (strictlyValid_iff.1 hvalid).2
  rw [referencesKnown_iff]
  show SoundProfiles _ ((file.profiles ++ [p]).map (·.profile)) ↔ _
  rw [List.map_append]
  refine soundProfiles_middle ((List.append_nil _).symm ▸ hsound) hp.named hp.pathed ?_ ?_
  · rw [List.map_nil, List.append_nil]
    exact List.forall_mem_map.2 fun q hq => hp.freeName q hq (Option.some_ne_none _)
  · rw [List.map_nil, List.append_nil]
    exact List.forall_mem_map.2 fun q hq => hp.freePath q hq (Option.some_ne_none _)

theorem soundProfiles_replaced {key : String} (hvalid : StrictlyValid relay file)
    (hp : AcceptedProfile file.profiles (some key) p)
    (hkey : key ∈ file.profiles.map ProfileSettings.pathKey) :
    SoundProfiles (file.endpoints.map EndpointTable.name)
        (((ListEdit.replace key p).apply ProfileSettings.pathKey file.profiles).map (·.profile)) ↔
      referencesKnown p file = true := by
  have hsound := (strictlyValid_iff.1 hvalid).2
  obtain ⟨y, l₁, l₂, hy, -, hl, happly⟩ := ListEdit.apply_replace_eq hkey p
  have hsub : (l₁ ++ l₂).Sublist file.profiles := by
    rw [hl]
    exact (List.Sublist.refl l₁).append (List.sublist_cons_self y l₂)
  have hrest := hsound.sublist (hsub.map (·.profile))
  -- the paths are distinct, so no other profile has the one that is replaced
  have hother : ∀ q ∈ l₁ ++ l₂, some q.pathKey ≠ some key := by
    intro q hq heq
    have hpaths := hsound.paths
    rw [List.map_map, hl, (List.perm_middle.map _).nodup_iff, List.map_cons, List.nodup_cons] at hpaths
    exact hpaths.1 (List.mem_map.2 ⟨q, hq, (Option.some.inj heq).trans hy.symm⟩)
  rw [referencesKnown_iff, happly, List.map_append, List.map_cons]
  rw [List.map_append] at hrest
  refine soundProfiles_middle hrest hp.named hp.pathed ?_ ?_
  · rw [← List.map_append]
    exact List.forall_mem_map.2 fun q hq => hp.freeName q (hsub.subset hq) (hother q hq)
  · rw [← List.map_append]
    exact List.forall_mem_map.2 fun q hq => hp.freePath q (hsub.subset hq) (hother q hq)

theorem soundProfiles_removed (hvalid : StrictlyValid relay file) (key : String) :
    SoundProfiles (file.endpoints.map EndpointTable.name)
      (((ListEdit.remove key).apply ProfileSettings.pathKey file.profiles).map (·.profile)) :=
  (strictlyValid_iff.1 hvalid).2.sublist (List.filter_sublist.map _)

end Lists

/-! ## Requests -/

section Requests

variable {relay : RelayTable} {s s' : ManagedRelay} {env : EditEnvironment}

theorem applyEndpointChange_ok {ep : EndpointConfig} (h : s.applyEndpointChange ep original = .ok s') :
    ∃ file, writeEndpoint ep original s.file = .ok file ∧
      s' = { s with
        file
        config := s.config.changeEndpoint original ep
        registry := applyConfig s.config (s.config.changeEndpoint original ep) s.registry } := by
  obtain ⟨file, hfile, h⟩ := bind_eq_ok.1 h
  cases h
  exact ⟨file, hfile, rfl⟩

theorem changeEndpoint_valid_iff {req : EndpointRequest} (hvalid : StrictlyValid relay s.file)
    (h : s.changeEndpoint env req original = .ok s') :
    StrictlyValid relay s'.file ↔
      prefixKept (otherEndpoints original s.file) req.resolvedToolPrefix = true ∧
        renameKept original req.name s.file = true := by
  obtain ⟨_, -, h⟩ := bind_eq_ok.1 h
  obtain ⟨ep, hep, h⟩ := bind_eq_ok.1 h
  obtain ⟨_, -, h⟩ := bind_eq_ok.1 h
  obtain ⟨file, hfile, rfl⟩ := applyEndpointChange_ok h
  obtain ⟨hacceptable, hname, hprefix⟩ := acceptable_of_request hep
  rw [← hname, ← hprefix]
  refine (strictlyValid_written hvalid hfile).trans ?_
  exact ⟨fun h => ⟨h.1.2, h.2⟩, fun h => ⟨⟨hacceptable, h.1⟩, h.2⟩⟩

theorem commitSetup_valid_iff {session : OAuthSetupSession} {recorded : Except ErrorResponse Unit}
    (hvalid : StrictlyValid relay s.file) (h : s.commitSetup session recorded = .ok s') :
    StrictlyValid relay s'.file ↔ (session.name ≠ "" ∧ session.url ≠ "") ∧
      prefixKept s.file.endpoints session.endpoint.resolvedToolPrefix = true := by
  obtain ⟨_, -, h⟩ := bind_eq_ok.1 h
  obtain ⟨file, hfile, rfl⟩ := applyEndpointChange_ok h
  rw [← acceptable_session]
  exact (strictlyValid_written hvalid hfile).trans (and_iff_left rfl)

theorem profileExists {path : String} {u : Unit} (h : checkProfileExists path profiles = .ok u) :
    toAsciiLowercase path ∈ profiles.map ProfileSettings.pathKey := by
  have hany := reject_eq_ok.1 h
  rw [Bool.not_eq_false'] at hany
  obtain ⟨p, hp, hkey⟩ := List.any_eq_true.1 hany
  exact List.mem_map.2 ⟨p, hp, of_decide_eq_true hkey⟩

theorem changeProfile_valid_iff {change : ProfileChange} (hvalid : StrictlyValid relay s.file)
    (hsame : s.config.list .profiles = s.file.profiles) (h : s.changeProfile change = .ok s') :
    StrictlyValid relay s'.file ↔ keepsLoadable s.file (.profile change) = true := by
  obtain ⟨e, he, h⟩ := bind_eq_ok.1 h
  cases h
  refine (strictlyValid_profiles hvalid _).trans ?_
  rw [hsame]
  have hlist : s.config.running.profiles.getD [] = s.file.profiles := hsame
  cases change with
  | create req =>
    obtain ⟨p, hp, he⟩ := bind_eq_ok.1 he
    cases he
    obtain ⟨rfl, haccepted⟩ := accepted_of_request hp
    exact soundProfiles_inserted hvalid (hlist ▸ haccepted)
  | update path req =>
    obtain ⟨_, hexists, he⟩ := bind_eq_ok.1 he
    obtain ⟨p, hp, he⟩ := bind_eq_ok.1 he
    cases he
    obtain ⟨rfl, haccepted⟩ := accepted_of_request hp
    exact soundProfiles_replaced hvalid (hlist ▸ haccepted) (hsame ▸ profileExists hexists)
  | delete path =>
    obtain ⟨_, -, he⟩ := bind_eq_ok.1 he
    cases he
    exact iff_of_true (soundProfiles_removed hvalid _) rfl

/-- **An accepted request keeps a valid file valid** exactly when it meets the condition. -/
theorem serve_valid_iff (hvalid : StrictlyValid relay s.file)
    (hsame : s.config.list .profiles = s.file.profiles) (h : s.serve env r = .ok s') :
    StrictlyValid relay s'.file ↔ keepsLoadable s.file r = true := by
  cases r with
  | createEndpoint req =>
    rw [changeEndpoint_valid_iff hvalid h]
    exact and_iff_left rfl
  | updateEndpoint name req =>
    rw [changeEndpoint_valid_iff hvalid h]
    exact (Bool.and_eq_true _ _).to_iff.symm
  | deleteEndpoint name =>
    obtain ⟨file, hfile, h⟩ := bind_eq_ok.1 h
    cases h
    exact strictlyValid_removed hvalid hfile
  | commitSetup session recorded =>
    rw [commitSetup_valid_iff hvalid h]
    simp [keepsLoadable]
  | profile change => exact changeProfile_valid_iff hvalid hsame h
  | organization change =>
    obtain ⟨e, -, h⟩ := bind_eq_ok.1 h
    obtain ⟨_, -, h⟩ := bind_eq_ok.1 h
    cases h
    exact iff_of_true ((strictlyValid_organizations _).2 hvalid) rfl

/-- The profiles are published as they are written. -/
theorem serve_profiles (hsame : s.config.list .profiles = s.file.profiles) (h : s.serve env r = .ok s') :
    s'.config.list .profiles = s'.file.profiles := by
  have happlied {ep : EndpointConfig} {original : Option String}
      (h : s.applyEndpointChange ep original = .ok s') :
      s'.config.list .profiles = s'.file.profiles := by
    obtain ⟨file, hfile, rfl⟩ := applyEndpointChange_ok h
    obtain ⟨l₁, l₂, t, hplaced⟩ := writeEndpoint_placed hfile
    obtain rfl := hplaced.written
    exact (changeEndpoint_list _ _ _ _).trans hsame
  cases r with
  | createEndpoint req | updateEndpoint name req =>
    obtain ⟨_, -, h⟩ := bind_eq_ok.1 h
    obtain ⟨ep, -, h⟩ := bind_eq_ok.1 h
    obtain ⟨_, -, h⟩ := bind_eq_ok.1 h
    exact happlied h
  | deleteEndpoint name =>
    obtain ⟨file, hfile, h⟩ := bind_eq_ok.1 h
    cases h
    unfold removeEndpoint at hfile
    split at hfile
    · cases hfile
      exact hsame
    · cases hfile
  | commitSetup session recorded =>
    obtain ⟨_, -, h⟩ := bind_eq_ok.1 h
    exact happlied h
  | profile change =>
    obtain ⟨e, -, h⟩ := bind_eq_ok.1 h
    cases h
    exact (setList_list _ .profiles _ .profiles).trans (Function.update_self _ _ _)
  | organization change =>
    obtain ⟨e, -, h⟩ := bind_eq_ok.1 h
    obtain ⟨_, -, h⟩ := bind_eq_ok.1 h
    cases h
    exact hsame

end Requests

/-! ## Runs -/

/-- What happens to the relay: a request is answered with success, or the file is reloaded. -/
inductive RelayAction where
  | request (env : EditEnvironment) (r : ConfigRequest)
  | reload

/-- A relay that has loaded a valid file, and its requests one after the other. -/
def managedRelay (env : Environment) (relay : RelayTable) : System ManagedRelay RelayAction where
  init s := StrictlyValid relay s.file ∧
    ∃ l, s.file.load env relay = .ok l ∧ s.config = ManagedRelay.managedConfig l s.file
  step s
    | .request environment r => (s.serve environment r).toOption
    | .reload => some (s.reload env relay)

def requestsKeepLoadable (s : ManagedRelay) : RelayAction → Bool
  | .request _ r => keepsLoadable s.file r
  | .reload => true

/-- The file is valid, and the profiles are published as they are written. -/
structure Restartable (relay : RelayTable) (s : ManagedRelay) : Prop where
  valid : StrictlyValid relay s.file
  profiles : s.config.list .profiles = s.file.profiles

section Runs

variable {env : Environment} {relay : RelayTable} {s s' : ManagedRelay}

theorem loaded_profiles {l : LoadedConfig} (h : file.load env relay = .ok l) :
    (ManagedRelay.managedConfig l file).list .profiles = file.profiles := by
  obtain ⟨-, rfl⟩ := load_eq_ok.1 h
  show (if file.profiles.isEmpty then none else some file.profiles).getD [] = file.profiles
  cases file.profiles <;> rfl

theorem Restartable.step {a : RelayAction} (h : Restartable relay s)
    (hok : requestsKeepLoadable s a = true) (hstep : (managedRelay env relay).step s a = some s') :
    Restartable relay s' := by
  cases a with
  | request environment r =>
    have hserve : s.serve environment r = .ok s' := by
      cases hr : s.serve environment r with
      | error e =>
        have hnone : (s.serve environment r).toOption = some s' := hstep
        rw [hr] at hnone
        cases hnone
      | ok s₁ =>
        have hsome : (s.serve environment r).toOption = some s' := hstep
        rw [hr] at hsome
        cases hsome
        rfl
    exact ⟨(serve_valid_iff h.valid h.profiles hserve).2 hok, serve_profiles h.profiles hserve⟩
  | reload =>
    cases hstep
    unfold ManagedRelay.reload
    split
    · exact h
    · next l hl => exact ⟨h.valid, loaded_profiles hl⟩

theorem restartable_run (h : (managedRelay env relay).ReachableWhile
    (fun s a => requestsKeepLoadable s a = true) s) : Restartable relay s := by
  apply h.invariant
  · rintro s ⟨hvalid, l, hl, hconfig⟩
    exact ⟨hvalid, hconfig ▸ loaded_profiles hl⟩
  · exact fun s a s' h hok hstep => h.step hok hstep

/-- **The config stays loadable** in every run whose requests meet the condition, and a request that does
not meet it, answered with success in such a run, leaves a file that is not valid. -/
theorem config_stays_loadable (h : (managedRelay env relay).ReachableWhile
    (fun s a => requestsKeepLoadable s a = true) s) :
    StrictlyValid relay s.file ∧ ∀ environment r s', s.serve environment r = .ok s' →
      (StrictlyValid relay s'.file ↔ keepsLoadable s.file r = true) := by
  obtain ⟨hvalid, hprofiles⟩ := restartable_run h
  exact ⟨hvalid, fun _ _ _ hserve => serve_valid_iff hvalid hprofiles hserve⟩

end Runs

/-! ### Requests that break a valid file -/

def mailFile : ConfigFile where
  endpoints := [⟨{ name := "mail", transport := .stdio, command := some "mail" }, none, none, none⟩]
  profiles := [⟨⟨"Work", "work", ["mail"]⟩, false, false⟩]
  organizations := []
  observability := none

def mailRelay : ManagedRelay where
  file := mailFile
  config := match mailFile.load ⟨fun _ => none, none⟩ {} with
    | .ok l => ManagedRelay.managedConfig l mailFile
    | .error _ => ⟨⟨⟨none, [], []⟩, none, none, none, none⟩, {}⟩
  registry := ⟨∅, []⟩
  profiles := profileMap mailFile.profiles

theorem mailRelay_init : (managedRelay ⟨fun _ => none, none⟩ {}).init mailRelay :=
  ⟨⟨rfl, rfl⟩, _, rfl, rfl⟩

def notesRequest : EndpointRequest := { name := "notes", transport := .stdio, command := some "notes" }

def duplicatePrefixRequest : EndpointRequest :=
  { name := "notes", transport := .stdio, command := some "notes", toolPrefix := some "mail" }

theorem mailRelay_run : ∃ s, (managedRelay ⟨fun _ => none, none⟩ {}).runWhile requestsKeepLoadable mailRelay
    [.request {} (.createEndpoint notesRequest), .reload] = some s :=
  ⟨_, rfl⟩

theorem config_stays_loadable_created : ∃ s,
    (managedRelay ⟨fun _ => none, none⟩ {}).runWhile requestsKeepLoadable mailRelay
      [.request {} (.createEndpoint notesRequest), .reload] = some s ∧
    StrictlyValid {} s.file ∧ ∀ environment r s', s.serve environment r = .ok s' →
      (StrictlyValid {} s'.file ↔ keepsLoadable s.file r = true) := by
  obtain ⟨s, hrun⟩ := mailRelay_run
  have hreach := (System.ReachableWhile.init mailRelay_init).run (fun _ _ h => h) hrun
  exact ⟨s, hrun, config_stays_loadable hreach⟩

/-- **Accepted requests** break a valid file: a create request with the prefix of another endpoint, and the
deletion of an endpoint of a profile, after which the relay does not start on the file at all. -/
theorem accepted_requests_break_config :
    (managedRelay ⟨fun _ => none, none⟩ {}).init mailRelay ∧
      (∃ s, mailRelay.serve {} (.createEndpoint duplicatePrefixRequest) = .ok s ∧
        ¬ StrictlyValid {} s.file) ∧
      ∃ s, mailRelay.serve {} (.deleteEndpoint "mail") = .ok s ∧ ¬ StrictlyValid {} s.file ∧
        ∀ l, s.file.load ⟨fun _ => none, none⟩ {} ≠ .ok l := by
  refine ⟨mailRelay_init, ⟨_, rfl, fun h => ?_⟩, _, rfl, fun h => ?_, fun l h => ?_⟩
  · have hnone := validate_eq_ok.1 h.endpoints
    revert hnone
    decide
  · have hnone := h.profiles
    revert hnone
    decide
  · have hnone := (load_eq_ok.1 h).1.profiles
    revert hnone
    decide

end EndaraRelay
