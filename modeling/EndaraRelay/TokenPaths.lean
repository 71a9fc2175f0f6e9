import EndaraRelay.AdapterConstruction
import EndaraRelay.Lib.Base64
import EndaraRelay.Lib.UnixPath

/-!
# The files of the token directory

`token_manager.rs` keeps four kinds of records in one directory: the tokens and the client
registration of an endpoint, and the tokens and the client registration of an identity provider. A
file name is the key of the record and an ending; only the tokens of an identity provider are stored
under a digest of their key.

- `TokenPathsSafe`: different records have different files, and every file, and the temporary file
  it is written through, lies in the directory itself.
- `token_paths_safe_iff`: this holds exactly when the names of the config stay apart.

Validation looks at tool prefixes, not at names: `collidingConfig` is accepted, and the registration
of its endpoint `a` is kept in the token file of its endpoint `a.dcr`.

Paths are those of Unix. The digest is a parameter.
-/

namespace EndaraRelay

open Verif.UnixPath

/-- What a record holds. -/
inductive RecordKind where
  /-- The `TokenSet` of an endpoint. -/
  | tokens
  /-- The `DcrCredentials` of an endpoint. -/
  | dcr
  /-- The `IdpCredentials` of an identity provider. -/
  | idpTokens
  /-- The `DcrCredentials` of an identity provider, stored through the functions for endpoints. -/
  | idpDcr
deriving DecidableEq, Repr

/-- A record and its key: the name of an endpoint, or the `idp_key` of an identity provider. -/
structure TokenRecord where
  kind : RecordKind
  key : String
deriving DecidableEq, Repr

def RecordKind.suffix : RecordKind → String
  | .tokens => ".json"
  | .dcr => ".dcr.json"
  | .idpTokens => ".idp.json"
  | .idpDcr => ".dcr.json"

/-- `data_dir.join("tokens")`. -/
def tokenDir (dataDir : Path) : Path :=
  dataDir.push "tokens".toList

def Config.endpointNames (cfg : Config) : List String :=
  cfg.endpoints.map (·.name)

/-- The keys of identity providers: the organizations, and what the EMA endpoints resolve to. -/
def Config.idpKeys (cfg : Config) : List String :=
  cfg.organizations.map (·.name) ++
    cfg.endpoints.filterMap fun ep => (resolveEmaIdp ep cfg.organizations).map (·.idpKey)

def Config.tokenRecords (cfg : Config) : List TokenRecord :=
  cfg.endpointNames.flatMap (fun name => [⟨.tokens, name⟩, ⟨.dcr, name⟩]) ++
    cfg.idpKeys.flatMap fun key => [⟨.idpTokens, key⟩, ⟨.idpDcr, key⟩]

section

variable (sha256 : List UInt8 → List UInt8)

/-- The file name stem of a logical IdP key: its digest, in URL-safe base64. -/
def sanitizeIdpKey (key : String) : String :=
  String.ofList (Verif.Base64.encode (sha256 key.toUTF8.toList))

def TokenRecord.stem (r : TokenRecord) : String :=
  match r.kind with
  | .idpTokens => sanitizeIdpKey sha256 r.key
  | .tokens | .dcr | .idpDcr => r.key

def TokenRecord.path (dir : Path) (r : TokenRecord) : Path :=
  dir.join (r.stem sha256 ++ r.kind.suffix).toList

def TokenRecord.tmpPath (dir : Path) (r : TokenRecord) : Path :=
  dir.join ("." ++ r.stem sha256 ++ r.kind.suffix ++ ".tmp").toList

/-- Different records have different files, all of them in the directory itself. -/
structure TokenPathsSafe (dir : Path) (cfg : Config) : Prop where
  injective : ∀ r ∈ cfg.tokenRecords, ∀ r' ∈ cfg.tokenRecords,
    r.path sha256 dir = r'.path sha256 dir → r = r'
  contained : ∀ r ∈ cfg.tokenRecords,
    dir.IsChild (r.path sha256 dir) ∧ dir.IsChild (r.tmpPath sha256 dir)

/-- The names of a config stay apart. -/
structure NamesApart (cfg : Config) : Prop where
  name_noSeparator : ∀ name ∈ cfg.endpointNames, '/' ∉ name.toList
  key_noSeparator : ∀ key ∈ cfg.idpKeys, '/' ∉ key.toList
  /-- No endpoint is named like an identity provider. -/
  name_ne_key : ∀ name ∈ cfg.endpointNames, name ∉ cfg.idpKeys
  /-- No endpoint is named like the registration of an endpoint or of an identity provider. -/
  name_ne_dcr : ∀ name ∈ cfg.endpointNames, ∀ key ∈ cfg.endpointNames ++ cfg.idpKeys,
    name ≠ key ++ ".dcr"
  /-- No endpoint is named like the tokens of an identity provider. -/
  name_ne_idp : ∀ name ∈ cfg.endpointNames, ∀ key ∈ cfg.idpKeys,
    name ≠ sanitizeIdpKey sha256 key ++ ".idp"
  /-- The digest keeps identity providers apart. -/
  digest_injective : ∀ key ∈ cfg.idpKeys, ∀ key' ∈ cfg.idpKeys,
    sha256 key.toUTF8.toList = sha256 key'.toUTF8.toList → key = key'

end

/-! ## Records of a config -/

theorem mem_tokenRecords {cfg : Config} {r : TokenRecord} :
    r ∈ cfg.tokenRecords ↔
      (r.kind = .tokens ∨ r.kind = .dcr) ∧ r.key ∈ cfg.endpointNames ∨
        (r.kind = .idpTokens ∨ r.kind = .idpDcr) ∧ r.key ∈ cfg.idpKeys := by
  cases r
  simp only [Config.tokenRecords, List.mem_append, List.mem_flatMap, List.mem_cons,
    List.not_mem_nil, or_false, TokenRecord.mk.injEq]
  grind

section

variable {sha256 : List UInt8 → List UInt8} {cfg : Config} {name key : String}

theorem tokens_mem_iff : ⟨.tokens, name⟩ ∈ cfg.tokenRecords ↔ name ∈ cfg.endpointNames := by
  simp [mem_tokenRecords]

theorem dcr_mem_iff : ⟨.dcr, name⟩ ∈ cfg.tokenRecords ↔ name ∈ cfg.endpointNames := by
  simp [mem_tokenRecords]

theorem idpTokens_mem_iff : ⟨.idpTokens, key⟩ ∈ cfg.tokenRecords ↔ key ∈ cfg.idpKeys := by
  simp [mem_tokenRecords]

theorem idpDcr_mem_iff : ⟨.idpDcr, key⟩ ∈ cfg.tokenRecords ↔ key ∈ cfg.idpKeys := by
  simp [mem_tokenRecords]

/-! ## Stems and endings -/

theorem sanitizeIdpKey_noSeparator (key : String) : '/' ∉ (sanitizeIdpKey sha256 key).toList := by
  unfold sanitizeIdpKey
  rw [String.toList_ofList]
  exact Verif.Base64.slash_notMem_encode _

theorem sanitizeIdpKey_eq_iff {key key' : String} :
    sanitizeIdpKey sha256 key = sanitizeIdpKey sha256 key' ↔
      sha256 key.toUTF8.toList = sha256 key'.toUTF8.toList := by
  unfold sanitizeIdpKey
  rw [String.ofList_inj, Verif.Base64.encode_injective.eq_iff]

/-- What an ending says of the kind, before the common `.json`. -/
def RecordKind.tag : RecordKind → String
  | .tokens => ""
  | .dcr => ".dcr"
  | .idpTokens => ".idp"
  | .idpDcr => ".dcr"

theorem RecordKind.suffix_eq (kind : RecordKind) : kind.suffix = kind.tag ++ ".json" := by
  cases kind <;> decide

theorem RecordKind.suffix_isEnding (kind : RecordKind) : IsEnding kind.suffix.toList := by
  cases kind <;> exact ⟨by decide, by decide⟩

theorem RecordKind.tmpSuffix_isEnding (kind : RecordKind) :
    IsEnding (kind.suffix ++ ".tmp").toList := by
  cases kind <;> exact ⟨by decide, by decide⟩

/-! ## When paths agree -/

/-- Names without separators have one path only if they are one name. -/
theorem path_eq_iff {dir : Path} {r r' : TokenRecord} (hr : '/' ∉ (r.stem sha256).toList)
    (hr' : '/' ∉ (r'.stem sha256).toList) :
    r.path sha256 dir = r'.path sha256 dir ↔
      r.stem sha256 ++ r.kind.tag = r'.stem sha256 ++ r'.kind.tag := by
  have hentry := r.kind.suffix_isEnding.isEntry hr
  have hentry' := r'.kind.suffix_isEnding.isEntry hr'
  unfold TokenRecord.path
  rw [String.toList_append, String.toList_append, hentry.join_eq, hentry'.join_eq,
    (push_injective dir).eq_iff, ← String.toList_append, ← String.toList_append, String.toList_inj,
    r.kind.suffix_eq, r'.kind.suffix_eq, ← String.append_assoc, ← String.append_assoc,
    String.append_left_inj]

/-- Which names stay in the token directory. -/
theorem contained_iff {dir : Path} (hdir : dir.components ≠ []) (r : TokenRecord) :
    dir.IsChild (r.path sha256 dir) ∧ dir.IsChild (r.tmpPath sha256 dir) ↔
      '/' ∉ (r.stem sha256).toList := by
  have htmp : ("." ++ r.stem sha256 ++ r.kind.suffix ++ ".tmp").toList =
      '.' :: (r.stem sha256).toList ++ (r.kind.suffix ++ ".tmp").toList := by
    simp [String.toList_append]
  unfold TokenRecord.path TokenRecord.tmpPath
  rw [String.toList_append, htmp]
  exact isChild_join_iff hdir _ r.kind.suffix_isEnding r.kind.tmpSuffix_isEnding

theorem RecordKind.cases (kind : RecordKind) :
    kind = .tokens ∨ kind = .idpTokens ∨ kind = .dcr ∨ kind = .idpDcr := by
  cases kind <;> simp

theorem stem_append_tag_of_dcr {kind : RecordKind} (h : kind = .dcr ∨ kind = .idpDcr) :
    TokenRecord.stem sha256 ⟨kind, key⟩ ++ kind.tag = key ++ ".dcr" := by
  obtain rfl | rfl := h <;> rfl

theorem dcr_ne_idp {a b : String} : a ++ ".dcr" ≠ b ++ ".idp" := by
  intro h
  have hlast := congrArg (fun s : String => s.toList.getLast?) h
  simp [String.toList_append] at hlast

namespace NamesApart

theorem stem_noSeparator (h : NamesApart sha256 cfg) {r : TokenRecord} (hr : r ∈ cfg.tokenRecords) :
    '/' ∉ (r.stem sha256).toList := by
  obtain ⟨hkind, hname⟩ | ⟨hkind, hkey⟩ := mem_tokenRecords.1 hr
  · have hstem : r.stem sha256 = r.key := by
      obtain hkind | hkind := hkind <;> simp [TokenRecord.stem, hkind]
    rw [hstem]
    exact h.name_noSeparator r.key hname
  · obtain hkind | hkind := hkind
    · have hstem : r.stem sha256 = sanitizeIdpKey sha256 r.key := by simp [TokenRecord.stem, hkind]
      rw [hstem]
      exact sanitizeIdpKey_noSeparator r.key
    · have hstem : r.stem sha256 = r.key := by simp [TokenRecord.stem, hkind]
      rw [hstem]
      exact h.key_noSeparator r.key hkey

/-- No token file of an endpoint is another record's. -/
theorem name_ne (h : NamesApart sha256 cfg) (hname : name ∈ cfg.endpointNames) {kind : RecordKind}
    (hr : ⟨kind, key⟩ ∈ cfg.tokenRecords) (hkind : kind ≠ .tokens) :
    name ++ "" ≠ TokenRecord.stem sha256 ⟨kind, key⟩ ++ kind.tag := by
  rw [String.append_empty]
  cases kind with
  | tokens => exact absurd rfl hkind
  | dcr => exact h.name_ne_dcr name hname key (List.mem_append_left _ (dcr_mem_iff.1 hr))
  | idpTokens => exact h.name_ne_idp name hname key (idpTokens_mem_iff.1 hr)
  | idpDcr => exact h.name_ne_dcr name hname key (List.mem_append_right _ (idpDcr_mem_iff.1 hr))

/-- The registrations of endpoints and identity providers are told apart by their keys. -/
theorem dcr_eq (h : NamesApart sha256 cfg) {kind kind' : RecordKind}
    (hr : ⟨kind, key⟩ ∈ cfg.tokenRecords) (hr' : ⟨kind', key⟩ ∈ cfg.tokenRecords)
    (hkind : kind = .dcr ∨ kind = .idpDcr) (hkind' : kind' = .dcr ∨ kind' = .idpDcr) :
    kind = kind' := by
  obtain rfl | rfl := hkind <;> obtain rfl | rfl := hkind'
  · rfl
  · exact absurd (idpDcr_mem_iff.1 hr') (h.name_ne_key key (dcr_mem_iff.1 hr))
  · exact absurd (idpDcr_mem_iff.1 hr) (h.name_ne_key key (dcr_mem_iff.1 hr'))
  · rfl

theorem record_eq (h : NamesApart sha256 cfg) {r r' : TokenRecord} (hr : r ∈ cfg.tokenRecords)
    (hr' : r' ∈ cfg.tokenRecords)
    (heq : r.stem sha256 ++ r.kind.tag = r'.stem sha256 ++ r'.kind.tag) : r = r' := by
  obtain ⟨kind, key⟩ := r
  obtain ⟨kind', key'⟩ := r'
  obtain rfl | rfl | hdcr := kind.cases <;> obtain rfl | rfl | hdcr' := kind'.cases
  · exact congrArg (TokenRecord.mk .tokens) (String.append_left_inj _ |>.1 heq)
  · exact absurd heq (h.name_ne (tokens_mem_iff.1 hr) hr' (by decide))
  · exact absurd heq (h.name_ne (tokens_mem_iff.1 hr) hr' (by obtain rfl | rfl := hdcr' <;> decide))
  · exact absurd heq.symm (h.name_ne (tokens_mem_iff.1 hr') hr (by decide))
  · have hdigest := sanitizeIdpKey_eq_iff.1 (String.append_left_inj _ |>.1 heq)
    have hkey := h.digest_injective key (idpTokens_mem_iff.1 hr) key' (idpTokens_mem_iff.1 hr') hdigest
    exact congrArg (TokenRecord.mk .idpTokens) hkey
  · rw [stem_append_tag_of_dcr hdcr'] at heq
    exact absurd heq.symm dcr_ne_idp
  · exact absurd heq.symm
      (h.name_ne (tokens_mem_iff.1 hr') hr (by obtain rfl | rfl := hdcr <;> decide))
  · rw [stem_append_tag_of_dcr hdcr] at heq
    exact absurd heq dcr_ne_idp
  · rw [stem_append_tag_of_dcr hdcr, stem_append_tag_of_dcr hdcr', String.append_left_inj] at heq
    subst heq
    rw [h.dcr_eq hr hr' hdcr hdcr']

end NamesApart

end

/-! ## The directory -/

section

variable (sha256 : List UInt8 → List UInt8) (dataDir : Path) (cfg : Config)

theorem tokenDir_components_ne : (tokenDir dataDir).components ≠ [] := by
  simp [tokenDir, Path.push]

theorem NamesApart.paths_safe {cfg : Config} (h : NamesApart sha256 cfg) :
    TokenPathsSafe sha256 (tokenDir dataDir) cfg where
  injective _ hr _ hr' hpath :=
    h.record_eq hr hr' ((path_eq_iff (h.stem_noSeparator hr) (h.stem_noSeparator hr')).1 hpath)
  contained r hr := (contained_iff (tokenDir_components_ne dataDir) r).2 (h.stem_noSeparator hr)

theorem TokenPathsSafe.names_apart {cfg : Config}
    (h : TokenPathsSafe sha256 (tokenDir dataDir) cfg) : NamesApart sha256 cfg where
  name_noSeparator name hname :=
    (contained_iff (tokenDir_components_ne dataDir) ⟨.tokens, name⟩).1
      (h.contained _ (tokens_mem_iff.2 hname))
  key_noSeparator key hkey :=
    (contained_iff (tokenDir_components_ne dataDir) ⟨.idpDcr, key⟩).1
      (h.contained _ (idpDcr_mem_iff.2 hkey))
  name_ne_key name hname hkey := by
    have hsame := h.injective _ (dcr_mem_iff.2 hname) _ (idpDcr_mem_iff.2 hkey) rfl
    cases hsame
  name_ne_dcr name hname key hkey heq := by
    have hfile : key ++ ".dcr" ++ ".json" = key ++ ".dcr.json" := String.append_assoc ..
    subst heq
    obtain hkey | hkey := List.mem_append.1 hkey
    · have hsame := h.injective _ (tokens_mem_iff.2 hname) _ (dcr_mem_iff.2 hkey)
        (congrArg (fun s : String => (tokenDir dataDir).join s.toList) hfile)
      cases hsame
    · have hsame := h.injective _ (tokens_mem_iff.2 hname) _ (idpDcr_mem_iff.2 hkey)
        (congrArg (fun s : String => (tokenDir dataDir).join s.toList) hfile)
      cases hsame
  name_ne_idp name hname key hkey heq := by
    have hfile : sanitizeIdpKey sha256 key ++ ".idp" ++ ".json" =
        sanitizeIdpKey sha256 key ++ ".idp.json" := String.append_assoc ..
    subst heq
    have hsame := h.injective _ (tokens_mem_iff.2 hname) _ (idpTokens_mem_iff.2 hkey)
      (congrArg (fun s : String => (tokenDir dataDir).join s.toList) hfile)
    cases hsame
  digest_injective key hkey key' hkey' hdigest := by
    have hstem := sanitizeIdpKey_eq_iff.2 hdigest
    have hsame := h.injective _ (idpTokens_mem_iff.2 hkey) _ (idpTokens_mem_iff.2 hkey')
      (congrArg (fun s : String => (tokenDir dataDir).join (s ++ ".idp.json").toList) hstem)
    exact congrArg TokenRecord.key hsame

/-- **When the files of the token directory are safe.** -/
theorem token_paths_safe_iff :
    TokenPathsSafe sha256 (tokenDir dataDir) cfg ↔ NamesApart sha256 cfg :=
  ⟨fun h => h.names_apart, fun h => h.paths_safe sha256 dataDir⟩

end

/-- Two endpoints, one of them named like the registration of the other. -/
def collidingConfig : Config where
  allowInsecureOauth := none
  endpoints := [
    { name := "a", transport := .oauth, url := some "https://a.example/mcp" },
    { name := "a.dcr", transport := .oauth, url := some "https://b.example/mcp" }]
  organizations := []

/-- The config is accepted, and whatever the digest is, the registration of `a` and the tokens of
`a.dcr` share a file. -/
theorem token_paths_collide :
    collidingConfig.validate = .ok () ∧
      ∀ sha256 dataDir, ¬ TokenPathsSafe sha256 (tokenDir dataDir) collidingConfig := by
  refine ⟨by rfl, fun sha256 dataDir hsafe => ?_⟩
  have hdcr : (⟨.dcr, "a"⟩ : TokenRecord) ∈ collidingConfig.tokenRecords := by decide
  have htokens : (⟨.tokens, "a.dcr"⟩ : TokenRecord) ∈ collidingConfig.tokenRecords := by decide
  have hsame := hsafe.injective _ hdcr _ htokens rfl
  cases hsame

end EndaraRelay
