import EndaraRelay.Lib.FormUrlencoded
import EndaraRelay.Lib.UrlText
import EndaraRelay.ConfigRequests

/-!
# Authorization URLs

The URLs that `oauth_start`, the setup flow and `compose_org_sso_url` send a browser to: an authorization
endpoint from the metadata of a server, with the parameters of the request behind it.

**Reading.** A URL is read as a browser reads it: cleaned and cut (`UrlText`), its query as form-urlencoded
parameters. The head of the text stands for scheme, host and path. Which hosts are Google's is left to
`Url::parse`, which the model takes as a parameter.

**Theorem (`authorizeUrlsCorrect_iff`).** All three are the endpoint with the parameters, and agree, just when the
endpoint has neither a query nor a fragment and ends in nothing that a parser takes off. `oauth_start` and the
setup flow put a `?` behind every endpoint; only `compose_org_sso_url` sees to a query that is there
(`org_composedAs_iff`).
-/

namespace EndaraRelay

open Verif Verif.FormUrlencoded Verif.UrlText

/-! ## The composers -/

def mergeScopes (prior : Option String) (requested : String) : String :=
  String.intercalate " " ((splitWhitespace (prior.getD "") ++ splitWhitespace requested).foldl
    (fun out s => if s ∈ out then out else out ++ [s]) [])

/-- What is put into a URL. -/
structure AuthorizeRequest where
  clientId : String
  redirectUri : String
  state : String
  codeChallenge : String
  /-- The scope of the tokens that are there. -/
  priorScope : Option String
  requestedScope : String

namespace AuthorizeRequest

def scope (r : AuthorizeRequest) : String := mergeScopes r.priorScope r.requestedScope

end AuthorizeRequest

def urlencoding (s : String) : List Char := serialize s.toList

/-- The part that the format strings of the composers share. -/
def authorizeQuery (r : AuthorizeRequest) : List Char :=
  "response_type=code&client_id=".toList ++ urlencoding r.clientId ++ "&redirect_uri=".toList ++
    urlencoding r.redirectUri ++ "&state=".toList ++ urlencoding r.state ++ "&code_challenge=".toList ++
    urlencoding r.codeChallenge ++ "&code_challenge_method=S256".toList

section Composers

-- the host that `Url::parse` finds
variable (hostStr : String → Option String)

def isGoogleAuthorizationEndpoint (endpoint : String) : Bool :=
  ((hostStr endpoint).map toAsciiLowercase) == some "accounts.google.com"

/-- `append_google_authorize_params`. -/
def googleAuthorizeParams (endpoint : String) : List Char :=
  if isGoogleAuthorizationEndpoint hostStr endpoint then "&access_type=offline".toList else []

def scopeParam (scope : String) : List Char :=
  if scope = "" then [] else "&scope=".toList ++ urlencoding scope

def oauthStartUrl (endpoint : String) (r : AuthorizeRequest) (forceConsent : Bool) : List Char :=
  endpoint.toList ++ '?' :: authorizeQuery r ++ (if forceConsent then "&prompt=consent".toList else []) ++
    googleAuthorizeParams hostStr endpoint ++ scopeParam r.scope

/-- The URL of `oauth_setup` and of `oauth_setup_credentials`. -/
def oauthSetupUrl (endpoint : String) (r : AuthorizeRequest) : List Char :=
  endpoint.toList ++ '?' :: authorizeQuery r ++ googleAuthorizeParams hostStr endpoint ++ scopeParam r.scope

def composeOrgSsoUrl (endpoint : String) (r : AuthorizeRequest) : List Char :=
  let sep := if '?' ∈ endpoint.toList then '&' else '?'
  endpoint.toList ++ sep :: authorizeQuery r ++ "&scope=".toList ++ urlencoding "openid offline_access" ++
    googleAuthorizeParams hostStr endpoint

/-! ## What is asked -/

abbrev Params := List (List Char × List Char)

def param (name value : String) : List Char × List Char := (name.toList, value.toList)

/-- The parameters behind the first one. -/
def requestParams (r : AuthorizeRequest) : Params :=
  [param "client_id" r.clientId, param "redirect_uri" r.redirectUri, param "state" r.state,
    param "code_challenge" r.codeChallenge, param "code_challenge_method" "S256"]

def optionalParam (present : Bool) (name value : String) : Params :=
  if present then [param name value] else []

def googleParams (endpoint : String) : Params :=
  optionalParam (isGoogleAuthorizationEndpoint hostStr endpoint) "access_type" "offline"

def startParams (endpoint : String) (r : AuthorizeRequest) (forceConsent : Bool) : Params :=
  param "response_type" "code" :: requestParams r ++ optionalParam forceConsent "prompt" "consent" ++
    googleParams hostStr endpoint ++ optionalParam (r.scope ≠ "") "scope" r.scope

def setupParams (endpoint : String) (r : AuthorizeRequest) : Params :=
  param "response_type" "code" :: requestParams r ++ googleParams hostStr endpoint ++
    optionalParam (r.scope ≠ "") "scope" r.scope

def orgParams (endpoint : String) (r : AuthorizeRequest) : Params :=
  param "response_type" "code" :: requestParams r ++ [param "scope" "openid offline_access"] ++
    googleParams hostStr endpoint

/-- The URL is read as the endpoint, with the parameters behind its own. -/
def ComposedAs (endpoint url : List Char) (params : Params) : Prop :=
  head (clean url) = head (clean endpoint) ∧
    parse (UrlText.query (clean url)) = parse (UrlText.query (clean endpoint)) ++ params

/-- **The three composers are right, and agree.** -/
structure AuthorizeUrlsCorrect (endpoint : String) (r : AuthorizeRequest) (forceConsent : Bool) : Prop where
  start : ComposedAs endpoint.toList (oauthStartUrl hostStr endpoint r forceConsent)
    (startParams hostStr endpoint r forceConsent)
  setup : ComposedAs endpoint.toList (oauthSetupUrl hostStr endpoint r) (setupParams hostStr endpoint r)
  org : ComposedAs endpoint.toList (composeOrgSsoUrl hostStr endpoint r) (orgParams hostStr endpoint r)
  startOnce : ((startParams hostStr endpoint r forceConsent).map Prod.fst).Nodup
  setupOnce : ((setupParams hostStr endpoint r).map Prod.fst).Nodup
  orgOnce : ((orgParams hostStr endpoint r).map Prod.fst).Nodup
  /-- Without forced consent the first two are the same. -/
  agreeSetup : forceConsent = false →
    oauthStartUrl hostStr endpoint r forceConsent = oauthSetupUrl hostStr endpoint r
  /-- With the scope of an organization the third has the same parameters. -/
  agreeOrg : r.scope = "openid offline_access" →
    head (clean (oauthSetupUrl hostStr endpoint r)) = head (clean (composeOrgSsoUrl hostStr endpoint r)) ∧
      (parse (UrlText.query (clean (oauthSetupUrl hostStr endpoint r)))).Perm
        (parse (UrlText.query (clean (composeOrgSsoUrl hostStr endpoint r))))

end Composers

/-! ## The parameters in the text -/

theorem authorizeQuery_eq (r : AuthorizeRequest) :
    authorizeQuery r = field "response_type".toList "code".toList ++ moreFields (requestParams r) := by
  have hfirst : "response_type=code&client_id=".toList =
      field "response_type".toList "code".toList ++ '&' :: ("client_id".toList ++ ['=']) := by decide
  have hredirect : "&redirect_uri=".toList = '&' :: ("redirect_uri".toList ++ ['=']) := by decide
  have hstate : "&state=".toList = '&' :: ("state".toList ++ ['=']) := by decide
  have hchallenge : "&code_challenge=".toList = '&' :: ("code_challenge".toList ++ ['=']) := by decide
  have hmethod : "&code_challenge_method=S256".toList =
      '&' :: field "code_challenge_method".toList "S256".toList := by decide
  unfold authorizeQuery moreFields requestParams
  rw [hfirst, hredirect, hstate, hchallenge, hmethod]
  simp only [List.flatMap_cons, List.flatMap_nil, param, field, urlencoding, List.append_assoc, List.cons_append,
    List.nil_append, List.append_nil]

theorem optional_eq (present : Bool) {text : List Char} {name value : String}
    (h : text = '&' :: field name.toList value.toList) :
    (if present then text else []) = moreFields (optionalParam present name value) := by
  cases present with
  | false => rfl
  | true =>
    rw [if_pos rfl, h]
    exact (List.append_nil _).symm

theorem google_text :
    "&access_type=offline".toList = '&' :: field "access_type".toList "offline".toList := by decide

theorem scope_text (scope : String) :
    "&scope=".toList ++ urlencoding scope = '&' :: field "scope".toList scope.toList := by
  have hname : "&scope=".toList = '&' :: ("scope".toList ++ ['=']) := by decide
  rw [hname]
  simp only [urlencoding, field, List.append_assoc, List.cons_append, List.nil_append]

theorem scopeParam_eq (scope : String) :
    scopeParam scope = moreFields (optionalParam (scope ≠ "") "scope" scope) := by
  rw [← optional_eq _ (scope_text scope)]
  by_cases h : scope = ""
  · simp [scopeParam, h]
  · simp [scopeParam, h]

def paramNames : List String :=
  ["response_type", "client_id", "redirect_uri", "state", "code_challenge", "code_challenge_method", "prompt",
    "access_type", "scope"]

theorem name_of_mem_paramNames : ∀ name ∈ paramNames, Name name.toList := by
  decide

/-! ## An endpoint with parameters behind it -/

section Composition

variable {endpoint : List Char} {name value : List Char} {rest : Params}

/-- The text of the parameters, the first without a separator. -/
def paramText (name value : List Char) (rest : Params) : List Char := field name value ++ moreFields rest

theorem mem_paramText (hname : Name name) (hrest : ∀ p ∈ rest, Name p.1) {c : Char}
    (h : c ∈ paramText name value rest) : isControlOrSpace c = false ∧ c ≠ '#' := by
  have hcases : Safe c ∨ c = '=' ∨ c = '&' := by
    rcases List.mem_append.mp h with h | h
    · exact (mem_field hname h).imp_right .inl
    · exact mem_moreFields hrest h
  rcases hcases with h | rfl | rfl
  · exact ⟨decide_eq_false (Nat.not_le.mpr h.graphic), h.ne_hash⟩
  · decide
  · decide

theorem parse_paramText (hname : Name name) (hrest : ∀ p ∈ rest, Name p.1) :
    parse (paramText name value rest) = (name, value) :: rest := by
  unfold paramText
  rw [parse_moreFields hrest, parse_field hname]
  rfl

theorem clean_composed (hname : Name name) (hrest : ∀ p ∈ rest, Name p.1) {sep : Char}
    (hsep : isControlOrSpace sep = false) :
    clean (endpoint ++ sep :: paramText name value rest) =
      fromStart endpoint ++ sep :: paramText name value rest := by
  refine clean_append (fun c hc => ?_) (List.cons_ne_nil _ _) endpoint
  rcases List.mem_cons.mp hc with rfl | hc
  · exact hsep
  · exact (mem_paramText hname hrest hc).1

theorem not_composedAs_of_hash (hname : Name name) (hrest : ∀ p ∈ rest, Name p.1) {sep : Char}
    (hsep : isControlOrSpace sep = false) (hhash : '#' ∈ endpoint) :
    ¬ ComposedAs endpoint (endpoint ++ sep :: paramText name value rest) ((name, value) :: rest) := by
  rintro ⟨-, hparams⟩
  obtain ⟨w, hw, -⟩ := fromStart_eq endpoint
  have hclean : '#' ∈ clean endpoint := (mem_clean_iff (by decide) _).mpr hhash
  rw [clean_composed hname hrest hsep, hw, List.append_assoc, (cut_append_of_hash hclean).2,
    List.self_eq_append_right] at hparams
  cases hparams

/-- An endpoint with neither a query nor a fragment. -/
theorem composedAs_question_iff (hname : Name name) (hrest : ∀ p ∈ rest, Name p.1) (hhash : '#' ∉ endpoint)
    (hquestion : '?' ∉ endpoint) :
    ComposedAs endpoint (endpoint ++ '?' :: paramText name value rest) ((name, value) :: rest) ↔
      EndsClean endpoint := by
  have hstart : '#' ∉ fromStart endpoint ∧ '?' ∉ fromStart endpoint :=
    ⟨fun h => hhash ((mem_fromStart_iff (by decide) _).mp h),
      fun h => hquestion ((mem_fromStart_iff (by decide) _).mp h)⟩
  have hclean : '#' ∉ clean endpoint ∧ '?' ∉ clean endpoint :=
    ⟨fun h => hhash ((mem_clean_iff (by decide) _).mp h), fun h => hquestion ((mem_clean_iff (by decide) _).mp h)⟩
  have htext : '#' ∉ paramText name value rest := fun h => (mem_paramText hname hrest h).2 rfl
  unfold ComposedAs
  rw [clean_composed hname hrest (by decide), (cut_question hstart.1 htext hstart.2).1,
    (cut_question hstart.1 htext hstart.2).2, (cut_plain hclean.1 hclean.2).1, (cut_plain hclean.1 hclean.2).2,
    parse_paramText hname hrest, endsClean_iff]
  exact and_iff_left rfl

/-- A second question mark belongs to the last parameter of the endpoint. -/
theorem not_composedAs_of_question (hname : Name name) (hrest : ∀ p ∈ rest, Name p.1) (hvalue : '?' ∉ value)
    (hhash : '#' ∉ endpoint) (hquestion : '?' ∈ endpoint) :
    ¬ ComposedAs endpoint (endpoint ++ '?' :: paramText name value rest) ((name, value) :: rest) := by
  rintro ⟨-, hparams⟩
  have hstart : '#' ∉ fromStart endpoint := fun h => hhash ((mem_fromStart_iff (by decide) _).mp h)
  have htext : '#' ∉ '?' :: paramText name value rest := by
    intro h
    rcases List.mem_cons.mp h with h | h
    · exact absurd h (by decide)
    · exact (mem_paramText hname hrest h).2 rfl
  have hnoamp : '&' ∉ '?' :: field name value := by
    intro h
    rcases List.mem_cons.mp h with h | h
    · exact absurd h (by decide)
    · exact (mem_field hname h).elim (fun h => h.ne_amp rfl) (fun h => absurd h (by decide))
  obtain ⟨params, last, hlast, hparse⟩ := exists_last_field (UrlText.query (fromStart endpoint))
  have hfield : '&' ∉ last ++ '?' :: field name value := fun h => (List.mem_append.mp h).elim hlast hnoamp
  have hquery : parse (UrlText.query (fromStart endpoint) ++ '?' :: paramText name value rest) =
      params ++ [pair (last ++ '?' :: field name value)] ++ rest := by
    rw [paramText, ← List.cons_append, ← List.append_assoc, parse_moreFields hrest, hparse,
      parse_single hfield (by simp)]
  rw [clean_composed hname hrest (by decide), (cut_append_of_question hstart htext
    ((mem_fromStart_iff (by decide) _).mpr hquestion)).2, hquery, ← List.singleton_append (l := rest),
    ← List.append_assoc, List.append_left_inj] at hparams
  have hpair : pair (last ++ '?' :: field name value) = (name, value) :=
    List.singleton_inj.mp (List.append_inj' hparams rfl).2
  have hplain : Plain '?' := ⟨by decide, by decide, by decide⟩
  by_cases hequals : '=' ∈ last
  · have hread := pair_append_value hplain (by decide) hequals (field name value)
    rw [hpair] at hread
    change value = _ at hread
    refine hvalue ?_
    rw [hread]
    exact List.mem_append_right _ List.mem_cons_self
  · have hread := pair_append_name hplain (by decide) (by decide) hequals (field name value)
    rw [hpair] at hread
    change name = _ at hread
    refine (hname '?' ?_).1.ne_question rfl
    rw [hread]
    exact List.mem_append_right _ List.mem_cons_self

/-- What comes off at the end is neither part of an escape nor a separator. -/
theorem plain_of_isControlOrSpace {c : Char} (h : isControlOrSpace c = true) :
    Plain c ∧ Percent.hexValue (byteOf c) = none ∧ c ≠ '=' ∧ c ≠ '&' ∧ c ≠ '#' := by
  have hle : c.toNat ≤ 0x20 := of_decide_eq_true h
  have hne : ∀ d : Char, 0x20 < d.toNat → c ≠ d := by
    rintro d hd rfl
    omega
  have hbyte : (byteOf c).toNat = c.toNat := toNat_byteOf (by omega)
  have hplain : Plain c := ⟨by omega, hne _ (by decide), hne _ (by decide)⟩
  refine ⟨hplain, ?_, hne _ (by decide), hne _ (by decide), hne _ (by decide)⟩
  unfold Percent.hexValue
  simp only [hbyte]
  rw [if_neg (by omega), if_neg (by omega), if_neg (by omega)]

/-- The separator that goes by the question mark. -/
theorem composedAs_amp_iff (hname : Name name) (hrest : ∀ p ∈ rest, Name p.1) (hhash : '#' ∉ endpoint)
    (hquestion : '?' ∈ endpoint) :
    ComposedAs endpoint (endpoint ++ '&' :: paramText name value rest) ((name, value) :: rest) ↔
      EndsClean endpoint := by
  obtain ⟨w, hw, hstripped⟩ := fromStart_eq endpoint
  have hclean : '#' ∉ clean endpoint ∧ '?' ∈ clean endpoint :=
    ⟨fun h => hhash ((mem_clean_iff (by decide) _).mp h), (mem_clean_iff (by decide) _).mpr hquestion⟩
  have hbehind : '#' ∉ w ++ '&' :: paramText name value rest := by
    intro h
    rcases List.mem_append.mp h with h | h
    · exact (plain_of_isControlOrSpace (hstripped _ h)).2.2.2.2 rfl
    · rcases List.mem_cons.mp h with h | h
      · exact absurd h (by decide)
      · exact (mem_paramText hname hrest h).2 rfl
  have hcut := cut_append_of_question hclean.1 hbehind hclean.2
  have hends : EndsClean endpoint ↔ w = [] := by
    rw [endsClean_iff, hw, List.append_right_eq_self]
  unfold ComposedAs
  rw [clean_composed hname hrest (by decide), hw, List.append_assoc, hcut.1, hcut.2, ← List.append_assoc,
    parse_append, parse_paramText hname hrest, List.append_left_inj, hends]
  constructor
  · rintro ⟨-, hsame⟩
    cases w with
    | nil => rfl
    | cons c w =>
      obtain ⟨hplain, hhex, hne, -, -⟩ := plain_of_isControlOrSpace (hstripped c List.mem_cons_self)
      have hamp : '&' ∉ c :: w := fun h => (plain_of_isControlOrSpace (hstripped _ h)).2.2.2.1 rfl
      exact absurd hsame (parse_append_ne hplain hhex hne hamp _)
  · rintro rfl
    rw [List.append_nil]
    exact ⟨rfl, rfl⟩

end Composition

/-! ## The composers -/

section Results

variable (hostStr : String → Option String) (endpoint : String) (r : AuthorizeRequest) (forceConsent : Bool)

theorem name_param {name value : String} (h : name ∈ paramNames) : Name (param name value).1 :=
  name_of_mem_paramNames name h

theorem name_optionalParam {present : Bool} {name value : String} (h : name ∈ paramNames) :
    ∀ p ∈ optionalParam present name value, Name p.1 := by
  intro p hp
  cases present with
  | false => cases hp
  | true =>
    rw [List.mem_singleton.mp hp]
    exact name_param h

theorem name_requestParams : ∀ p ∈ requestParams r, Name p.1 := by
  unfold requestParams
  simp only [List.forall_mem_cons]
  exact ⟨name_param (by decide), name_param (by decide), name_param (by decide), name_param (by decide),
    name_param (by decide), nofun⟩

theorem oauthStartUrl_eq :
    oauthStartUrl hostStr endpoint r forceConsent =
      endpoint.toList ++ '?' :: paramText "response_type".toList "code".toList
        (requestParams r ++ optionalParam forceConsent "prompt" "consent" ++ googleParams hostStr endpoint ++
          optionalParam (r.scope ≠ "") "scope" r.scope) := by
  unfold oauthStartUrl googleAuthorizeParams googleParams paramText
  rw [authorizeQuery_eq, optional_eq forceConsent (show "&prompt=consent".toList =
      '&' :: field "prompt".toList "consent".toList by decide),
    optional_eq _ google_text, scopeParam_eq]
  simp only [moreFields_append, List.append_assoc, List.cons_append]

theorem oauthSetupUrl_eq :
    oauthSetupUrl hostStr endpoint r = oauthStartUrl hostStr endpoint r false := by
  simp [oauthSetupUrl, oauthStartUrl]

theorem composeOrgSsoUrl_eq :
    composeOrgSsoUrl hostStr endpoint r =
      endpoint.toList ++ (if '?' ∈ endpoint.toList then '&' else '?') ::
        paramText "response_type".toList "code".toList
          (requestParams r ++ [param "scope" "openid offline_access"] ++ googleParams hostStr endpoint) := by
  have hscope : moreFields [param "scope" "openid offline_access"] =
      "&scope=".toList ++ urlencoding "openid offline_access" := by
    rw [scope_text]
    exact List.append_nil _
  unfold composeOrgSsoUrl googleAuthorizeParams googleParams paramText
  rw [authorizeQuery_eq, optional_eq _ google_text, moreFields_append, moreFields_append, hscope]
  simp only [List.append_assoc, List.cons_append]

theorem name_startRest : ∀ p ∈ requestParams r ++ optionalParam forceConsent "prompt" "consent" ++
    googleParams hostStr endpoint ++ optionalParam (r.scope ≠ "") "scope" r.scope, Name p.1 := by
  intro p hp
  simp only [List.mem_append] at hp
  rcases hp with ((hp | hp) | hp) | hp
  · exact name_requestParams r p hp
  · exact name_optionalParam (by decide) p hp
  · exact name_optionalParam (by decide) p hp
  · exact name_optionalParam (by decide) p hp

theorem name_orgRest : ∀ p ∈ requestParams r ++ [param "scope" "openid offline_access"] ++
    googleParams hostStr endpoint, Name p.1 := by
  intro p hp
  simp only [List.mem_append, List.mem_singleton] at hp
  rcases hp with (hp | rfl) | hp
  · exact name_requestParams r p hp
  · exact name_param (by decide)
  · exact name_optionalParam (by decide) p hp

theorem name_responseType : Name "response_type".toList := name_of_mem_paramNames _ (by decide)

/-- Where `oauth_start` is right, and the setup flow with it. -/
theorem start_composedAs_iff :
    ComposedAs endpoint.toList (oauthStartUrl hostStr endpoint r forceConsent)
        (startParams hostStr endpoint r forceConsent) ↔
      '?' ∉ endpoint.toList ∧ '#' ∉ endpoint.toList ∧ EndsClean endpoint.toList := by
  have hrest := name_startRest hostStr endpoint r forceConsent
  rw [oauthStartUrl_eq]
  change ComposedAs _ _ (("response_type".toList, "code".toList) :: _) ↔ _
  by_cases hhash : '#' ∈ endpoint.toList
  · exact iff_of_false (not_composedAs_of_hash name_responseType hrest (by decide) hhash) fun h => h.2.1 hhash
  by_cases hquestion : '?' ∈ endpoint.toList
  · exact iff_of_false (not_composedAs_of_question name_responseType hrest (by decide) hhash hquestion)
      fun h => h.1 hquestion
  · refine (composedAs_question_iff name_responseType hrest hhash hquestion).trans ?_
    exact ⟨fun h => ⟨hquestion, hhash, h⟩, fun h => h.2.2⟩

/-- Where `compose_org_sso_url` is right: a query may be there already. -/
theorem org_composedAs_iff :
    ComposedAs endpoint.toList (composeOrgSsoUrl hostStr endpoint r) (orgParams hostStr endpoint r) ↔
      '#' ∉ endpoint.toList ∧ EndsClean endpoint.toList := by
  have hrest := name_orgRest hostStr endpoint r
  rw [composeOrgSsoUrl_eq]
  change ComposedAs _ _ (("response_type".toList, "code".toList) :: _) ↔ _
  by_cases hhash : '#' ∈ endpoint.toList
  · refine iff_of_false (not_composedAs_of_hash name_responseType hrest ?_ hhash) fun h => h.1 hhash
    split_ifs <;> decide
  by_cases hquestion : '?' ∈ endpoint.toList
  · rw [if_pos hquestion]
    refine (composedAs_amp_iff name_responseType hrest hhash hquestion).trans ?_
    exact ⟨fun h => ⟨hhash, h⟩, fun h => h.2⟩
  · rw [if_neg hquestion]
    refine (composedAs_question_iff name_responseType hrest hhash hquestion).trans ?_
    exact ⟨fun h => ⟨hhash, h⟩, fun h => h.2⟩

/-! ## Once each -/

theorem map_fst_optionalParam (present : Bool) (name value : String) :
    (optionalParam present name value).map Prod.fst = (if present then [name] else []).map String.toList := by
  cases present with
  | false => rfl
  | true => rfl

/-- Whichever of the optional parameters there are. -/
theorem once (consent google limited : Bool) (scope : String) :
    ((param "response_type" "code" :: requestParams r ++ optionalParam consent "prompt" "consent" ++
      optionalParam google "access_type" "offline" ++ optionalParam limited "scope" scope).map Prod.fst).Nodup := by
  have hnames : ∀ consent google limited : Bool,
      (["response_type", "client_id", "redirect_uri", "state", "code_challenge", "code_challenge_method"] ++
        (if consent then ["prompt"] else []) ++ (if google then ["access_type"] else []) ++
        (if limited then ["scope"] else [])).Nodup := by
    decide
  have hinjective : Function.Injective String.toList := fun _ _ h => String.toList_inj.mp h
  have hnodup := (hnames consent google limited).map hinjective
  simp only [List.map_append] at hnodup
  simp only [List.map_append, map_fst_optionalParam]
  exact hnodup

theorem setupParams_eq : setupParams hostStr endpoint r = startParams hostStr endpoint r false := by
  simp [setupParams, startParams, optionalParam]

/-- With the same scope, the third composer differs in the order. -/
theorem setupParams_perm (h : r.scope = "openid offline_access") :
    (setupParams hostStr endpoint r).Perm (orgParams hostStr endpoint r) := by
  have hscope : optionalParam (r.scope ≠ "") "scope" r.scope = [param "scope" "openid offline_access"] := by
    rw [h]
    rfl
  unfold setupParams orgParams
  rw [hscope, List.append_assoc, List.append_assoc]
  exact List.perm_append_comm.append_left _

theorem orgParams_once : ((orgParams hostStr endpoint r).map Prod.fst).Nodup := by
  have hperm : (orgParams hostStr endpoint r).Perm
      (param "response_type" "code" :: requestParams r ++ optionalParam false "prompt" "consent" ++
        googleParams hostStr endpoint ++ optionalParam true "scope" "openid offline_access") := by
    unfold orgParams
    rw [List.append_assoc, List.append_assoc, show optionalParam false "prompt" "consent" = [] from rfl,
      List.append_nil]
    exact List.perm_append_comm.append_left _
  exact (hperm.map _).nodup_iff.mpr (once r _ _ _ _)

/-! ## All three -/

theorem setup_composedAs_iff :
    ComposedAs endpoint.toList (oauthSetupUrl hostStr endpoint r) (setupParams hostStr endpoint r) ↔
      '?' ∉ endpoint.toList ∧ '#' ∉ endpoint.toList ∧ EndsClean endpoint.toList := by
  rw [oauthSetupUrl_eq, setupParams_eq]
  exact start_composedAs_iff hostStr endpoint r false

/-- **The authorization URLs are composed correctly just for a bare endpoint**: one without a query, without a
fragment, and with nothing at its end that a parser takes off. -/
theorem authorizeUrlsCorrect_iff :
    AuthorizeUrlsCorrect hostStr endpoint r forceConsent ↔
      '?' ∉ endpoint.toList ∧ '#' ∉ endpoint.toList ∧ EndsClean endpoint.toList := by
  constructor
  · intro h
    exact (start_composedAs_iff hostStr endpoint r forceConsent).mp h.start
  · intro h
    have hsetup := (setup_composedAs_iff hostStr endpoint r).mpr h
    have horg := (org_composedAs_iff hostStr endpoint r).mpr h.2
    have agreeSetup (hconsent : forceConsent = false) :
        oauthStartUrl hostStr endpoint r forceConsent = oauthSetupUrl hostStr endpoint r := by
      rw [hconsent, oauthSetupUrl_eq]
    have agreeOrg (hscope : r.scope = "openid offline_access") :
        head (clean (oauthSetupUrl hostStr endpoint r)) = head (clean (composeOrgSsoUrl hostStr endpoint r)) ∧
          (parse (UrlText.query (clean (oauthSetupUrl hostStr endpoint r)))).Perm
            (parse (UrlText.query (clean (composeOrgSsoUrl hostStr endpoint r)))) := by
      rw [hsetup.1, horg.1, hsetup.2, horg.2]
      exact ⟨rfl, (setupParams_perm hostStr endpoint r hscope).append_left _⟩
    exact {
      start := (start_composedAs_iff hostStr endpoint r forceConsent).mpr h
      setup := hsetup
      org := horg
      startOnce := once r _ _ _ _
      setupOnce := by
        rw [setupParams_eq]
        exact once r _ _ _ _
      orgOnce := orgParams_once hostStr endpoint r
      agreeSetup := agreeSetup
      agreeOrg := agreeOrg }

end Results

/-- The endpoint of a tenant that is named in the query. -/
theorem tenant_endpoint_miscomposed :
    ¬ AuthorizeUrlsCorrect (fun _ => some "as.example") "https://as.example/authorize?tenant=1"
      ⟨"relay", "http://127.0.0.1:9400/oauth/callback", "s1", "c1", none, "read"⟩ false := by
  intro h
  have hbare := (start_composedAs_iff _ _ _ _).mp h.start
  exact hbare.1 (by decide)

end EndaraRelay
