import EndaraRelay.OAuth.GuardedCalls
import Mathlib.Data.List.TakeWhile

/-!
# Metadata from its own issuer

What `discover_authorization_server` accepts (`GuardedCalls` has the function, with the loop that
probes).

**The locations** (`locations`). Behind a path there are four, of which the two with the path belong
to the identifier that has it, and the two at the root to the origin. Without a path the first two are
one location, and so are the last two.

**Theorem (`discovery_from_its_issuer`).** A discovery requests these locations in their order, none
twice, as long as each answers 404 or with metadata of another issuer. It succeeds exactly with the
metadata of the first location that does neither, if that is a document of the expected issuer which
admits S256.

The URL is trimmed of all slashes around its path for a location, and of those at its end for the
identifier, so behind `//` in front of a path the two differ.
-/

namespace EndaraRelay

open Verif

/-! ## The locations -/

/-- The identifier of the server itself: the URL without slashes at the end of its path. -/
def inputIssuer (parsed : Url) : String :=
  parsed.originText ++ String.ofList (trimEndSlashes parsed.path.toList)

/-- The well-known locations of a server in the order in which they are probed, each with the
identifier that its metadata must name. -/
def locations (parsed : Url) : List (String × String) :=
  let origin := parsed.originText
  let path := trimSlashes parsed.path
  if path = "" then
    [(origin ++ "/.well-known/oauth-authorization-server", origin),
      (origin ++ "/.well-known/openid-configuration", origin)]
  else
    [(origin ++ "/.well-known/oauth-authorization-server/" ++ path, inputIssuer parsed),
      (origin ++ "/.well-known/oauth-authorization-server", origin),
      (origin ++ "/" ++ path ++ "/.well-known/openid-configuration", inputIssuer parsed),
      (origin ++ "/.well-known/openid-configuration", origin)]

/-- Equal once a trailing slash is taken off each. -/
def SameIssuer (a b : String) : Prop :=
  ∃ c, (a = c ++ "/" ∨ (a = c ∧ c.toList.getLast? ≠ some '/')) ∧
    (b = c ++ "/" ∨ (b = c ∧ c.toList.getLast? ≠ some '/'))

def AdmitsS256 (metadata : AuthorizationServerMetadata) : Prop :=
  metadata.codeChallengeMethodsSupported = [] ∨ "S256" ∈ metadata.codeChallengeMethodsSupported

/-- A location is passed over: it answers 404, or with metadata of another issuer. -/
def PassedOver (net : OAuthNetwork) (l : String × String) : Prop :=
  (net.authServer l.1).reply = .notFound ∨
    ∃ metadata, (net.authServer l.1).reply = .body (some metadata) ∧ ¬ SameIssuer metadata.issuer l.2

/-- A location answers with metadata of the expected issuer. -/
def AnswersWith (net : OAuthNetwork) (l : String × String) (metadata : AuthorizationServerMetadata) : Prop :=
  (net.authServer l.1).reply = .body (some metadata) ∧ SameIssuer metadata.issuer l.2

/-! ## Trailing slashes -/

theorem normalizeIssuer_of_slash (c : String) : normalizeIssuer (c ++ "/") = c := by
  simp [normalizeIssuer]

theorem normalizeIssuer_of_no_slash {c : String} (h : c.toList.getLast? ≠ some '/') :
    normalizeIssuer c = c := by
  unfold normalizeIssuer
  split
  · next rest hrest =>
    rw [← List.head?_reverse, hrest] at h
    exact absurd rfl h
  · rfl

theorem normalizeIssuer_cases (a : String) :
    a = normalizeIssuer a ++ "/" ∨
      (a = normalizeIssuer a ∧ (normalizeIssuer a).toList.getLast? ≠ some '/') := by
  by_cases h : a.toList.getLast? = some '/'
  · obtain ⟨rest, hrest⟩ := List.getLast?_eq_some_iff.mp h
    have ha : a = String.ofList rest ++ "/" := by
      rw [← String.toList_inj, hrest]
      simp
    rw [ha, normalizeIssuer_of_slash]
    exact .inl rfl
  · rw [normalizeIssuer_of_no_slash h]
    exact .inr ⟨rfl, h⟩

theorem sameIssuer_iff (a b : String) : SameIssuer a b ↔ normalizeIssuer a = normalizeIssuer b := by
  constructor
  · rintro ⟨c, ha, hb⟩
    have hnormal : ∀ {x : String}, (x = c ++ "/" ∨ (x = c ∧ c.toList.getLast? ≠ some '/')) →
        normalizeIssuer x = c := by
      rintro x (rfl | ⟨rfl, hx⟩)
      · exact normalizeIssuer_of_slash c
      · exact normalizeIssuer_of_no_slash hx
    rw [hnormal ha, hnormal hb]
  · intro h
    refine ⟨normalizeIssuer a, normalizeIssuer_cases a, ?_⟩
    rw [h]
    exact normalizeIssuer_cases b

/-! ## The candidates are the locations -/

theorem trimStartSlashes_eq_nil_iff (s : List Char) :
    trimStartSlashes s = [] ↔ ∀ c ∈ s, c = '/' := by
  simp [trimStartSlashes, List.dropWhile_eq_nil_iff]

theorem trimEndSlashes_eq_nil_iff (s : List Char) : trimEndSlashes s = [] ↔ ∀ c ∈ s, c = '/' := by
  rw [trimEndSlashes, List.reverse_eq_nil_iff, trimStartSlashes_eq_nil_iff]
  simp

theorem all_slashes_trimStart (s : List Char) :
    (∀ c ∈ trimStartSlashes s, c = '/') ↔ ∀ c ∈ s, c = '/' := by
  induction s with
  | nil => rfl
  | cons a s ih =>
    by_cases ha : a = '/'
    · subst ha
      simpa [trimStartSlashes] using ih
    · simp [trimStartSlashes, ha]

/-- A path is empty for the identifier when it is for the locations. -/
theorem trimEnd_eq_nil_iff (path : String) :
    trimEndSlashes path.toList = [] ↔ trimSlashes path = "" := by
  rw [trimSlashes, ← String.toList_inj, String.toList_ofList, String.toList_empty,
    trimEndSlashes_eq_nil_iff, trimEndSlashes_eq_nil_iff, all_slashes_trimStart]

/-- Only the second and the third location can have one length. They end differently. -/
theorem root_ne_append (origin path : String) :
    origin ++ "/.well-known/oauth-authorization-server" ≠
      origin ++ "/" ++ path ++ "/.well-known/openid-configuration" := by
  intro heq
  have hlast := congrArg (fun url => url.toList.getLast?) heq
  have hr : "/.well-known/oauth-authorization-server".toList.getLast? = some 'r' := by decide
  have hn : "/.well-known/openid-configuration".toList.getLast? = some 'n' := by decide
  simp only [String.toList_append, List.getLast?_append, hr, hn, Option.some_or] at hlast
  exact absurd hlast (by decide)

theorem locations_nodup (parsed : Url) : ((locations parsed).map Prod.fst).Nodup := by
  have hinsert : "/.well-known/oauth-authorization-server/".length = 40 := by decide
  have hroot : "/.well-known/oauth-authorization-server".length = 39 := by decide
  have hoidc : "/.well-known/openid-configuration".length = 33 := by decide
  have hslash : "/".length = 1 := by decide
  have hlength : ∀ {a b : String}, a.length ≠ b.length → a ≠ b := fun h heq => h (congrArg String.length heq)
  unfold locations
  dsimp only
  split
  · simp only [List.map_cons, List.map_nil, List.nodup_cons, List.mem_singleton, List.not_mem_nil,
      not_false_eq_true, List.nodup_nil, and_true]
    apply hlength
    simp only [String.length_append, hroot, hoidc]
    omega
  · next hpath =>
    have hpos : 0 < (trimSlashes parsed.path).length := by
      rw [← String.length_toList, List.length_pos_iff]
      exact fun hnil => hpath (String.toList_inj.mp hnil)
    simp only [List.map_cons, List.map_nil, List.nodup_cons, List.mem_cons, List.not_mem_nil, not_or,
      or_false, not_false_eq_true, List.nodup_nil, and_true]
    refine ⟨⟨?_, ?_, ?_⟩, ⟨root_ne_append _ _, ?_⟩, ?_⟩
    all_goals
      apply hlength
      simp only [String.length_append, hinsert, hroot, hoidc, hslash]
      omega

section Built

variable {parsed : Url}

theorem buildWellKnownUrlRoot_server (parsed : Url) :
    buildWellKnownUrlRoot parsed "oauth-authorization-server" =
      parsed.originText ++ "/.well-known/oauth-authorization-server" := by
  rw [buildWellKnownUrlRoot, String.append_assoc]
  rfl

theorem buildWellKnownUrlRoot_openid (parsed : Url) :
    buildWellKnownUrlRoot parsed "openid-configuration" =
      parsed.originText ++ "/.well-known/openid-configuration" := by
  rw [buildWellKnownUrlRoot, String.append_assoc]
  rfl

theorem buildWellKnownUrl_of_path (h : trimSlashes parsed.path ≠ "") :
    buildWellKnownUrl parsed "oauth-authorization-server" =
      parsed.originText ++ "/.well-known/oauth-authorization-server/" ++ trimSlashes parsed.path := by
  have htext : "/" ++ (".well-known/" ++ "oauth-authorization-server" ++ "/") =
      "/.well-known/oauth-authorization-server/" := by decide
  rw [buildWellKnownUrl, if_neg h, ← htext]
  simp only [String.append_assoc]

theorem buildOpenidConfigurationUrl_of_path (h : trimSlashes parsed.path ≠ "") :
    buildOpenidConfigurationUrl parsed =
      parsed.originText ++ "/" ++ trimSlashes parsed.path ++ "/.well-known/openid-configuration" := by
  rw [buildOpenidConfigurationUrl, if_neg h, ← String.append_assoc]

theorem buildOpenidConfigurationUrl_of_root (h : trimSlashes parsed.path = "") :
    buildOpenidConfigurationUrl parsed = buildWellKnownUrlRoot parsed "openid-configuration" := by
  rw [buildOpenidConfigurationUrl, if_pos h, buildWellKnownUrlRoot]
  rfl

theorem buildWellKnownUrl_of_root (h : trimSlashes parsed.path = "") (suffix : String) :
    buildWellKnownUrl parsed suffix = buildWellKnownUrlRoot parsed suffix := by
  rw [buildWellKnownUrl, if_pos h, buildWellKnownUrlRoot]

end Built

/-- The candidates that are built are the locations: without a path two repeat another and are not
pushed, and behind a path none does. -/
theorem authServerCandidates_eq (parsed : Url) : authServerCandidates parsed = locations parsed := by
  have hnodup := locations_nodup parsed
  unfold authServerCandidates
  unfold locations at hnodup ⊢
  by_cases hpath : trimSlashes parsed.path = ""
  · have hinput : String.ofList (trimEndSlashes parsed.path.toList) = "" := by
      rw [(trimEnd_eq_nil_iff parsed.path).mpr hpath]
    simp only [hpath, hinput, if_pos, buildWellKnownUrl_of_root hpath, buildOpenidConfigurationUrl_of_root hpath,
      buildWellKnownUrlRoot_server, buildWellKnownUrlRoot_openid] at hnodup ⊢
    have h₁₂ := (List.nodup_cons.mp hnodup).1
    simp only [List.map_cons, List.map_nil, List.mem_singleton] at h₁₂
    simp [pushCandidate, h₁₂]
  · have hinput : String.ofList (trimEndSlashes parsed.path.toList) ≠ "" := by
      intro hempty
      rw [← String.toList_inj, String.toList_ofList, String.toList_empty] at hempty
      exact hpath ((trimEnd_eq_nil_iff parsed.path).mp hempty)
    simp only [if_neg hpath, if_neg hinput, buildWellKnownUrl_of_path hpath,
      buildOpenidConfigurationUrl_of_path hpath, buildWellKnownUrlRoot_server,
      buildWellKnownUrlRoot_openid, List.map_cons, List.map_nil, List.nodup_cons, List.mem_cons, not_or] at hnodup ⊢
    obtain ⟨⟨h₁₂, h₁₃, h₁₄, -⟩, ⟨h₂₃, h₂₄, -⟩, ⟨h₃₄, -⟩, -⟩ := hnodup
    simp [pushCandidate, inputIssuer, h₁₂, h₁₃, h₁₄, h₂₃, h₂₄, h₃₄]

/-! ## The loop over the locations -/

/-- Where the probing of some locations ends. Those before are passed over, and the first of the rest
is not. -/
structure EndsAt (net : OAuthNetwork) (before rest : List (String × String)) : Prop where
  passed : ∀ l ∈ before, PassedOver net l
  ends : ∀ l ∈ rest.head?, ¬ PassedOver net l

section Probe

variable {net : OAuthNetwork} {l : String × String}

/-- Behind a location that is passed over the loop goes on. -/
theorem probe_of_passed (h : PassedOver net l) (lastNotFound : Option String)
    (locs : List (String × String)) :
    ∃ lastNotFound', probe net lastNotFound (l :: locs) =
      ((l.1, (net.authServer l.1).hops) :: (probe net lastNotFound' locs).1,
        (probe net lastNotFound' locs).2) := by
  obtain ⟨url, issuer⟩ := l
  obtain hreply | ⟨metadata, hreply, hissuer⟩ := h
  · refine ⟨some url, ?_⟩
    simp only [probe, fetchWellKnown, hreply]
  · refine ⟨some url, ?_⟩
    rw [sameIssuer_iff] at hissuer
    simp only [probe, fetchWellKnown, hreply, ne_eq, hissuer, not_false_eq_true, if_true]

/-- A location that is not passed over is the last one requested, and its metadata are returned if they
are of the expected issuer. -/
theorem probe_of_not_passed (h : ¬ PassedOver net l) (lastNotFound : Option String)
    (locs : List (String × String)) :
    (probe net lastNotFound (l :: locs)).1 = [(l.1, (net.authServer l.1).hops)] ∧
      ∀ metadata, (probe net lastNotFound (l :: locs)).2 = .ok (.inl metadata) ↔
        AnswersWith net l metadata := by
  obtain ⟨url, issuer⟩ := l
  simp only [PassedOver, not_or, not_exists, not_and, not_not] at h
  obtain ⟨hfound, hissuer⟩ := h
  cases hreply : (net.authServer url).reply with
  | notFound => exact absurd hreply hfound
  | timeout => simp [probe, fetchWellKnown, AnswersWith, hreply]
  | failed => simp [probe, fetchWellKnown, AnswersWith, hreply]
  | body answer =>
    cases answer with
    | none => simp [probe, fetchWellKnown, AnswersWith, hreply]
    | some found =>
      have hsame := hissuer found hreply
      have hnormal := (sameIssuer_iff _ _).mp hsame
      simp only [probe, fetchWellKnown, hreply, ne_eq, hnormal, not_true_eq_false, if_false, true_and,
        AnswersWith, Except.ok.injEq, Sum.inl.injEq, Reply.body.injEq, Option.some.injEq]
      intro metadata
      constructor
      · rintro rfl
        exact ⟨rfl, hsame⟩
      · exact And.left

/-- What probing requests, and what it finds. -/
theorem probe_ends (lastNotFound : Option String) (locs : List (String × String)) :
    ∃ before rest, locs = before ++ rest ∧ EndsAt net before rest ∧
      (probe net lastNotFound locs).1.map Prod.fst = (before ++ rest.take 1).map Prod.fst ∧
      ∀ metadata, (probe net lastNotFound locs).2 = .ok (.inl metadata) ↔
        ∃ l ∈ rest.head?, AnswersWith net l metadata := by
  induction locs generalizing lastNotFound with
  | nil => exact ⟨[], [], rfl, ⟨by simp, by simp⟩, rfl, by simp [probe]⟩
  | cons l locs ih =>
    by_cases hl : PassedOver net l
    · obtain ⟨lastNotFound', hprobe⟩ := probe_of_passed hl lastNotFound locs
      obtain ⟨before, rest, rfl, hends, hrequests, hfound⟩ := ih lastNotFound'
      rw [hprobe]
      refine ⟨l :: before, rest, rfl, ⟨?_, hends.ends⟩, ?_, hfound⟩
      · intro l' hl'
        obtain rfl | hl' := List.mem_cons.mp hl'
        · exact hl
        · exact hends.passed l' hl'
      · simp only [List.map_cons, List.cons_append, hrequests]
    · obtain ⟨hrequests, hfound⟩ := probe_of_not_passed hl lastNotFound locs
      refine ⟨[], l :: locs, rfl, ⟨by simp, by simpa using hl⟩, ?_, ?_⟩
      · rw [hrequests]
        rfl
      · simpa using hfound

end Probe

/-- What has been probed is returned if it admits S256. -/
theorem discoverAuthorizationServer_ok_iff {reader : UrlReader} {net : OAuthNetwork} {allowInsecure : Bool}
    {authServerUrl : String} {parsed : Url} (hparse : reader.parse authServerUrl = some parsed)
    {resolved : PinnedTarget} (hguard : validateAndResolve reader net.lookupHost
      (buildWellKnownUrl parsed "oauth-authorization-server") allowInsecure = .ok resolved)
    (metadata : AuthorizationServerMetadata) :
    (discoverAuthorizationServer reader net allowInsecure authServerUrl).2 = .ok metadata ↔
      (probe net none (locations parsed)).2 = .ok (.inl metadata) ∧ AdmitsS256 metadata := by
  simp only [discoverAuthorizationServer, hparse, hguard, authServerCandidates_eq]
  rcases (probe net none (locations parsed)).2 with e | found | url
  · simp
  · dsimp only
    by_cases hadmits : AdmitsS256 found
    · rw [if_neg (by simpa [AdmitsS256, imp_iff_not_or, or_comm] using hadmits)]
      simp only [Except.ok.injEq, Sum.inl.injEq]
      constructor
      · rintro rfl
        exact ⟨rfl, hadmits⟩
      · exact And.left
    · rw [if_pos (by simpa [AdmitsS256] using hadmits)]
      simp only [reduceCtorEq, Except.ok.injEq, Sum.inl.injEq, false_iff, not_and]
      rintro rfl
      exact hadmits
  · simp

/-- For every URL and all answers of the network: nothing is requested of a URL that is not read or that
the guard refuses. Otherwise the locations, of which no two are one, are requested in their order up to
the first that is not passed over. The result are the metadata of that one, if they are of the issuer
expected there and admit S256, and a failure otherwise. -/
theorem discovery_from_its_issuer (reader : UrlReader) (net : OAuthNetwork) (allowInsecure : Bool)
    (authServerUrl : String) :
    let found := discoverAuthorizationServer reader net allowInsecure authServerUrl
    let requested := found.1.flatMap fun use => use.requests.map Prod.fst
    (requested = [] ∧ ∀ metadata, found.2 ≠ .ok metadata) ∧
        (∀ parsed, reader.parse authServerUrl = some parsed → ∃ e, validateAndResolve reader net.lookupHost
          (buildWellKnownUrl parsed "oauth-authorization-server") allowInsecure = .error e) ∨
      ∃ parsed before rest, reader.parse authServerUrl = some parsed ∧
        ((locations parsed).map Prod.fst).Nodup ∧ locations parsed = before ++ rest ∧
        EndsAt net before rest ∧ requested = (before ++ rest.take 1).map Prod.fst ∧
        ∀ metadata, found.2 = .ok metadata ↔
          ∃ l ∈ rest.head?, AnswersWith net l metadata ∧ AdmitsS256 metadata := by
  dsimp only
  cases hparse : reader.parse authServerUrl with
  | none =>
    left
    simp [discoverAuthorizationServer, hparse]
  | some parsed =>
    cases hguard : validateAndResolve reader net.lookupHost
        (buildWellKnownUrl parsed "oauth-authorization-server") allowInsecure with
    | error e =>
      left
      simp [discoverAuthorizationServer, hparse, hguard]
    | ok resolved =>
      right
      obtain ⟨before, rest, hsplit, hends, hrequests, hfound⟩ :=
        probe_ends none (locations parsed)
      refine ⟨parsed, before, rest, rfl, locations_nodup parsed, hsplit, hends, ?_, ?_⟩
      · simp [discoverAuthorizationServer, hparse, hguard, authServerCandidates_eq, hrequests]
      · intro metadata
        rw [discoverAuthorizationServer_ok_iff hparse hguard, hfound]
        constructor
        · rintro ⟨⟨l, hl, hanswers⟩, hadmits⟩
          exact ⟨l, hl, hanswers, hadmits⟩
        · rintro ⟨l, hl, hanswers, hadmits⟩
          exact ⟨⟨l, hl, hanswers⟩, hadmits⟩

end EndaraRelay
