import EndaraRelay.Lib.WebUrl
import EndaraRelay.ConfigRequests

/-!
# Slugs in issuer URLs

The templates of the identity providers have a placeholder in the host or in the path of an issuer URL. A slug is
pasted there, unless it has a separator or two dots in a row; only then is the issuer read as a URL.

**In the host** a slug is in its place whatever it is: its text is unescaped and brought to ASCII before the domain of
the template, or the URL has no reading.

**Theorem (`slug_in_place_iff`).** In the path a slug is in its place just when it is no dot segment once its tabs and
line ends are gone: `.` is let through, and so are two dots of which one is escaped.
-/

namespace EndaraRelay

open Verif Verif.UrlText Verif.WebHost Verif.WebUrl

/-! ## What is asked -/

/-- What a URL parser sees of a slug. -/
def slugText (slug : String) : List Char := (trim slug).toList.filter fun c => !isTabOrNewline c

/-- The host before a placeholder in the path. -/
def templateHost (before : String) : List Char := (before.toList.drop "https://".length).dropLast

/-- The segments behind a placeholder in the path. -/
def templateRest (after : String) : List (List Char) := (after.toList.drop 1).splitOn '/'

/-- **The issuer is the template**, with the slug in its place. -/
structure SlugInPlace (rules : HostRules) (before after : String) (slug : List Char) (url : ParsedUrl) : Prop where
  scheme : url.scheme = before.toList.takeWhile (· ≠ ':')
  noUserinfo : url.username = [] ∧ url.password = []
  noPort : url.port = none
  noQuery : url.query = none
  noFragment : url.fragment = none
  place :
    if before = "https://" then
      url.host = .domain (rules.ascii (unescaped slug) ++ after.toList) ∧ url.path = [[]]
    else
      url.host = .domain (templateHost before) ∧ url.path = encoded pathSet slug :: templateRest after

/-! ## The slugs that are let through -/

theorem buildIssuer_ok {p : IdpProvider} {before after slug issuer : String}
    (hpattern : p.issuerPattern = some (.slug before after)) (h : p.buildIssuer (some slug) = .ok issuer) :
    issuer = before ++ trim slug ++ after ∧ trim slug ≠ "" ∧ isUnsafeSlug (trim slug) = false := by
  unfold IdpProvider.buildIssuer trimmedNonEmpty at h
  rw [hpattern, Option.map_some] at h
  by_cases hempty : trim slug = ""
  · rw [hempty] at h
    cases h
  · rw [Option.filter_some_pos (by simpa using hempty)] at h
    dsimp only at h
    split_ifs at h with hunsafe
    exact ⟨(Except.ok.inj h).symm, hempty, Bool.eq_false_iff.mpr hunsafe⟩

theorem bare_slugText {slug : String} (hne : trim slug ≠ "") (h : isUnsafeSlug (trim slug) = false) :
    Bare (slugText slug) := by
  constructor
  · -- the first character is no white space
    have htext : (trim slug).toList = trimChars slug.toList := String.toList_ofList
    unfold slugText
    cases hchars : (trim slug).toList with
    | nil => exact absurd (String.toList_eq_nil_iff.mp hchars) hne
    | cons c rest =>
      have hspace : isWhitespace c = false := by
        refine head_trimChars (s := slug.toList) ?_
        rw [← htext, hchars]
        rfl
      have htab : isTabOrNewline c = false := by
        refine Bool.eq_false_iff.mpr fun htab => ?_
        simp only [isTabOrNewline, Bool.or_eq_true, decide_eq_true_eq] at htab
        rcases htab with (rfl | rfl) | rfl
        · exact absurd hspace (by decide)
        · exact absurd hspace (by decide)
        · exact absurd hspace (by decide)
      rw [List.filter_cons_of_pos (by rw [htab]; rfl)]
      exact List.cons_ne_nil _ _
  · intro c hc hseparator
    have hmem : c ∈ (trim slug).toList := (List.mem_filter.mp hc).1
    unfold isUnsafeSlug at h
    rw [Bool.or_eq_false_iff] at h
    have hnot := List.any_eq_false.mp h.1 c hmem
    refine hnot (List.contains_iff_mem.mpr ?_)
    exact List.mem_append_left [' '] hseparator

theorem clean_issuer {before after : String} (slug : String) (hbefore : Kept before.toList)
    (hne : before.toList ≠ []) (hafter : Kept after.toList) (hne' : after.toList ≠ []) :
    clean (before ++ trim slug ++ after).toList = before.toList ++ (slugText slug ++ after.toList) := by
  rw [String.toList_append, String.toList_append, clean_append hafter hne', fromStart_append hbefore hne,
    List.append_assoc]
  rfl

theorem kept_of_plainDomain {d : List Char} (h : PlainDomain d) : Kept d := by
  intro c hc
  rcases h.lower_or_dot c hc with hlower | rfl
  · have hle : 0x61 ≤ c.toNat ∧ c.toNat ≤ 0x7A := of_decide_eq_true hlower
    exact decide_eq_false (by omega)
  · rfl

/-! ## The two kinds of templates -/

section Templates

variable {rules : HostRules} (laws : rules.Lawful) {slug : String} (hbare : Bare (slugText slug))

include laws hbare

/-- **In the host** every slug is in its place. -/
theorem slug_in_host {after : String} {domain : List Char} (hafter : after.toList = '.' :: domain)
    (hdomain : PlainDomain domain) {url : ParsedUrl}
    (hparse : parse rules ("https://" ++ trim slug ++ after).toList = some url) :
    SlugInPlace rules "https://" after (slugText slug) url := by
  have hkept : Kept after.toList := by
    rw [hafter]
    exact List.forall_mem_cons.mpr ⟨by decide, kept_of_plainDomain hdomain⟩
  have hclean := clean_issuer slug (show Kept "https://".toList by decide) (by decide) hkept
    (by rw [hafter]; exact List.cons_ne_nil _ _)
  rw [hafter, ← List.append_nil (slugText slug ++ _)] at hclean
  rw [parse_https (hbare.append (bare_of_plainDomain hdomain)) (.inl rfl) nofun hclean] at hparse
  obtain ⟨host, hhost, rfl⟩ := Option.map_eq_some_iff.mp hparse
  have hname := laws.parseHost_append hdomain hhost
  constructor
  · rfl
  · exact ⟨rfl, rfl⟩
  · rfl
  · rfl
  · rfl
  · rw [if_pos rfl, hafter]
    exact ⟨hname, rfl⟩

/-- The reading of an issuer with the placeholder in the path. -/
theorem parse_path_issuer {before after : String} {host rest : List Char}
    (hbefore : before.toList = "https://".toList ++ (host ++ ['/'])) (hafter : after.toList = '/' :: rest)
    (hhost : PlainDomain host) (hrest : Fixed rest) (hkept : Kept rest) :
    parse rules (before ++ trim slug ++ after).toList = some
      { scheme := "https".toList, username := [], password := [], host := .domain host, port := none
        path := if isDotSegment (slugText slug) then [rest] else [encoded pathSet (slugText slug), rest]
        query := none, fragment := none } := by
  have hkeptBefore : Kept before.toList := by
    have hscheme : Kept "https://".toList := by decide
    have hslash : Kept ['/'] := by decide
    rw [hbefore]
    exact List.forall_mem_append.mpr ⟨hscheme, List.forall_mem_append.mpr ⟨kept_of_plainDomain hhost, hslash⟩⟩
  have hkeptAfter : Kept after.toList := by
    rw [hafter]
    exact List.forall_mem_cons.mpr ⟨by decide, hkept⟩
  have hclean := clean_issuer slug hkeptBefore (by rw [hbefore]; simp) hkeptAfter
    (by rw [hafter]; exact List.cons_ne_nil _ _)
  rw [hbefore, hafter, List.append_assoc, List.append_assoc, List.singleton_append] at hclean
  have hcut {text : List Char} (h : Bare text) : ∀ c ∈ text, c ≠ '?' ∧ c ≠ '#' := fun c hc =>
    ⟨fun heq => h.not_mem (by decide) (heq ▸ hc), fun heq => h.not_mem (by decide) (heq ▸ hc)⟩
  have hpath : ∀ c ∈ '/' :: (slugText slug ++ '/' :: rest), c ≠ '?' ∧ c ≠ '#' :=
    List.forall_mem_cons.mpr ⟨by decide, List.forall_mem_append.mpr ⟨hcut hbare,
      List.forall_mem_cons.mpr ⟨by decide, hcut hrest.bare⟩⟩⟩
  rw [parse_https (bare_of_plainDomain hhost) (.inr ⟨_, rfl⟩) hpath hclean, laws.parseHost_plain hhost,
    readPath_two hbare hrest]
  rfl

/-- **In the path** a slug is in its place unless it is a dot segment. -/
theorem slug_in_path_iff {before after : String} {host rest : List Char}
    (hbefore : before.toList = "https://".toList ++ (host ++ ['/'])) (hafter : after.toList = '/' :: rest)
    (hhost : PlainDomain host) (hrest : Fixed rest) (hkept : Kept rest) :
    (∀ url, parse rules (before ++ trim slug ++ after).toList = some url →
        SlugInPlace rules before after (slugText slug) url) ↔ isDotSegment (slugText slug) = false := by
  have hread := parse_path_issuer laws hbare hbefore hafter hhost hrest hkept
  have hnotHost : before ≠ "https://" := by
    intro h
    rw [h, List.self_eq_append_right] at hbefore
    exact List.cons_ne_nil _ _ (List.append_eq_nil_iff.mp hbefore).2
  have hslash : '/' ∉ rest := hrest.bare.not_mem (by decide)
  have htemplate : templateHost before = host ∧ templateRest after = [rest] := by
    unfold templateHost templateRest
    rw [hbefore, hafter, List.drop_one, List.tail_cons, List.splitOn_eq_singleton hslash]
    exact ⟨List.dropLast_concat, rfl⟩
  constructor
  · intro h
    have hplace := (h _ hread).place
    rw [if_neg hnotHost, htemplate.2] at hplace
    cases hdot : isDotSegment (slugText slug) with
    | false => rfl
    | true =>
      rw [hdot, if_pos rfl] at hplace
      exact absurd (List.cons.inj hplace.2).2.symm (List.cons_ne_nil _ _)
  · intro hdot url hparse
    rw [hread] at hparse
    obtain rfl := Option.some.inj hparse
    constructor
    · rw [hbefore]
      rfl
    · exact ⟨rfl, rfl⟩
    · rfl
    · rfl
    · rfl
    · rw [if_neg hnotHost, htemplate.1, htemplate.2, hdot]
      exact ⟨rfl, rfl⟩

/-- The template of Entra. -/
theorem slug_in_entra_iff :
    (∀ url, parse rules ("https://login.microsoftonline.com/" ++ trim slug ++ "/v2.0").toList = some url →
        SlugInPlace rules "https://login.microsoftonline.com/" "/v2.0" (slugText slug) url) ↔
      isDotSegment (slugText slug) = false := by
  have hbefore : "https://login.microsoftonline.com/".toList =
      "https://".toList ++ ("login.microsoftonline.com".toList ++ ['/']) := by decide
  have hafter : "/v2.0".toList = '/' :: "v2.0".toList := by decide
  have hrest : Fixed "v2.0".toList := ⟨by decide, by decide, by decide⟩
  exact slug_in_path_iff laws hbare hbefore hafter (by decide) hrest (by decide)

/-- The template of Ping. -/
theorem slug_in_ping_iff :
    (∀ url, parse rules ("https://auth.pingone.com/" ++ trim slug ++ "/as").toList = some url →
        SlugInPlace rules "https://auth.pingone.com/" "/as" (slugText slug) url) ↔
      isDotSegment (slugText slug) = false := by
  have hbefore : "https://auth.pingone.com/".toList =
      "https://".toList ++ ("auth.pingone.com".toList ++ ['/']) := by decide
  have hafter : "/as".toList = '/' :: "as".toList := by decide
  have hrest : Fixed "as".toList := ⟨by decide, by decide, by decide⟩
  exact slug_in_path_iff laws hbare hbefore hafter (by decide) hrest (by decide)

end Templates

/-- **A slug is in its place** unless its placeholder is in the path and it is a dot segment. -/
theorem slug_in_place_iff {rules : HostRules} (laws : rules.Lawful) {p : IdpProvider} (hp : p ∈ idpProviders)
    {before after : String} (hpattern : p.issuerPattern = some (.slug before after)) {slug issuer : String}
    (hbuilt : p.buildIssuer (some slug) = .ok issuer) :
    (∀ url, parse rules issuer.toList = some url → SlugInPlace rules before after (slugText slug) url) ↔
      before = "https://" ∨ isDotSegment (slugText slug) = false := by
  obtain ⟨rfl, hne, hsafe⟩ := buildIssuer_ok hpattern hbuilt
  have hbare := bare_slugText hne hsafe
  simp only [idpProviders, List.mem_cons, List.not_mem_nil, or_false] at hp
  rcases hp with rfl | rfl | rfl | rfl | rfl
  · -- Okta
    cases hpattern
    refine iff_of_true (fun url hparse => ?_) (.inl rfl)
    have hafter : ".okta.com".toList = '.' :: "okta.com".toList := by decide
    exact slug_in_host laws hbare hafter (by decide) hparse
  · -- Entra
    cases hpattern
    exact (slug_in_entra_iff laws hbare).trans (or_iff_right (by decide)).symm
  · cases hpattern
  · -- Ping
    cases hpattern
    exact (slug_in_ping_iff laws hbare).trans (or_iff_right (by decide)).symm
  · cases hpattern

/-! ## Domains that need no tables -/

/-- The rules as far as they need no tables: labels in ASCII that are not Punycode. -/
def asciiRules : HostRules where
  mapped d := d.map Char.toLower
  asciiLabel label := label
  valid labels := labels.all fun label => label.all (fun c => c.toNat < 0x80) && !"xn--".toList.isPrefixOf label
  ipv4 _ := none
  ipv6 _ := none

theorem toLower_of_lower {c : Char} (h : lower c = true) : c.toLower = c := by
  have hle : 0x61 ≤ c.toNat ∧ c.toNat ≤ 0x7A := of_decide_eq_true h
  have hall : ∀ n, 0x61 ≤ n → n ≤ 0x7A → (Char.ofNat n).toLower = Char.ofNat n := by decide
  rw [← Char.ofNat_toNat c, hall _ hle.1 hle.2]

theorem asciiRules_lawful : asciiRules.Lawful := by
  constructor
  · intro x y
    exact List.map_append
  · intro x hx
    change x.map Char.toLower = x
    conv_rhs => rw [← List.map_id x]
    exact List.map_congr_left fun c hc => toLower_of_lower (hx c hc)
  · intro x _
    rfl
  · intro labels h
    refine List.all_eq_true.mpr fun label hlabel => ?_
    rw [Bool.and_eq_true]
    constructor
    · refine List.all_eq_true.mpr fun c hc => ?_
      have hle : 0x61 ≤ c.toNat ∧ c.toNat ≤ 0x7A := of_decide_eq_true (h label hlabel c hc)
      exact decide_eq_true (by omega)
    · cases hprefix : "xn--".toList.isPrefixOf label with
      | false => rfl
      | true =>
        have hmem : '-' ∈ label := (List.isPrefixOf_iff_prefix.mp hprefix).subset (by decide)
        exact absurd (h label hlabel '-' hmem) (by decide)

/-- A tenant, in its place. -/
theorem contoso_in_place :
    isDotSegment (slugText "contoso") = false ∧
      ∀ url, parse asciiRules "https://login.microsoftonline.com/contoso/v2.0".toList = some url →
        SlugInPlace asciiRules "https://login.microsoftonline.com/" "/v2.0" (slugText "contoso") url := by
  have hdots : isDotSegment (slugText "contoso") = false := by decide
  have hentra : ⟨"entra", some (.slug "https://login.microsoftonline.com/" "/v2.0")⟩ ∈ idpProviders :=
    .tail _ (.head _)
  exact ⟨hdots, (slug_in_place_iff asciiRules_lawful hentra rfl (by rfl)).mpr (.inr hdots)⟩

/-- Two escaped dots take themselves out of the path. -/
theorem escaped_dots_out_of_place :
    (findProvider "entra").map (·.buildIssuer (some "%2e%2e")) =
        some (.ok "https://login.microsoftonline.com/%2e%2e/v2.0") ∧
      ¬ ∀ url, parse asciiRules "https://login.microsoftonline.com/%2e%2e/v2.0".toList = some url →
        SlugInPlace asciiRules "https://login.microsoftonline.com/" "/v2.0" (slugText "%2e%2e") url := by
  have hbare : Bare (slugText "%2e%2e") := bare_slugText (by decide) (by decide)
  refine ⟨by rfl, fun h => ?_⟩
  exact absurd ((slug_in_entra_iff asciiRules_lawful hbare).mp h) (by decide)

end EndaraRelay
