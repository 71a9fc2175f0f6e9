import EndaraRelay.ConfigStore
import EndaraRelay.Lib.Transition
import EndaraRelay.OAuth.Refresh

/-!
# The upstream a token was granted for

The tokens of an endpoint are in a file that has its name. An adapter that starts loads the file of its name
and sends the access token to its URL, and the refresh token to its token endpoint. The endpoint that was
signed in to may have had another URL and another authorization server.

**The model.** Endpoints are created, changed, renamed and deleted, files reloaded, adapters built, started
and stopped, sign-ins begun and answered, tokens refreshed, in any order. A token carries the URL of the
endpoint it was granted for and the token endpoint that issued it; the code sees neither. Requests to a token
endpoint are in flight for as long as it takes, everything else is one step. Adapters are never dropped:
what has been replaced may still send.

**The slip.** No operation on an endpoint deletes its file or compares it with what the endpoint has become.

**Theorem (`tokens_stay_bound`).** In every run whose steps are `matched` each access token goes to the URL it
was granted for, and each refresh token to the authorization server that issued it.
-/

namespace EndaraRelay

open Verif

/-! ## Tokens -/

/-- A token, the URL of the endpoint that it was granted for, and the token endpoint that issued it. -/
structure BoundToken where
  token : String
  grantedFor : String
  issuedAt : String
deriving DecidableEq

structure BoundTokenSet where
  accessToken : BoundToken
  refreshToken : Option BoundToken
  expiresAt : Option Nat
deriving DecidableEq

namespace BoundTokenSet

/-- `is_valid`, with 30 seconds for clock skew. -/
def isValid (now : Nat) (tokens : BoundTokenSet) : Bool :=
  match tokens.expiresAt with
  | some exp => now + 30 < exp
  | none => true

/-- What a token endpoint issues. Without a new refresh token the old one stays. -/
def issued (grantedFor issuedAt : String) (answer : TokenAnswer) (old : Option BoundToken) : BoundTokenSet where
  accessToken := ⟨answer.accessToken, grantedFor, issuedAt⟩
  refreshToken := (answer.refreshToken.map fun token => ⟨token, grantedFor, issuedAt⟩).or old
  expiresAt := answer.expiresAt

end BoundTokenSet

inductive TokenSent where
  | access (token : BoundToken) (url : String)
  | refresh (token : BoundToken) (tokenEndpoint : String)
deriving DecidableEq

/-! ## Adapters -/

def conventionalTokenEndpoint (oauthServerUrl : String) : String :=
  String.ofList (oauthServerUrl.toList.rdropWhile (· = '/')) ++ "/token"

/-- The URL, given what a discovery has found. -/
def TokenEndpointSource.resolve (discovered : Option String) : TokenEndpointSource → String
  | .explicit url => url
  | .discovered base _ => discovered.getD (conventionalTokenEndpoint base)
  | .conventional => conventionalTokenEndpoint ""

inductive TokenAdapterKind where
  | oauth
  /-- Has its tokens minted, and never POSTs a refresh token. -/
  | ema
  /-- An HTTP adapter: it reads the file before each request. -/
  | jit
deriving DecidableEq

structure TokenAdapter where
  kind : TokenAdapterKind
  endpointName : String
  url : String
  tokenEndpointUrl : String
  tokenEndpointOverride : Option String := none
  tokens : Option BoundTokenSet := none
  /-- The token on the requests of the inner adapter. -/
  innerAdapter : Option BoundToken := none
  grantEpoch : Nat := 0

namespace TokenAdapter

/-- The adapters that have to do with tokens. There is none for an EMA endpoint whose discovery fails. -/
def ofSpec (discovered : Option String) : AdapterSpec → Option TokenAdapter
  | .oauth name url source .. =>
    some { kind := .oauth, endpointName := name, url, tokenEndpointUrl := source.resolve discovered }
  | .ema name url .. =>
    discovered.map fun asTokenEndpoint =>
      { kind := .ema, endpointName := name, url, tokenEndpointUrl := asTokenEndpoint }
  | .http url _ _ name _ => some { kind := .jit, endpointName := name, url, tokenEndpointUrl := "" }
  | _ => none

def effectiveTokenEndpoint (a : TokenAdapter) : String := a.tokenEndpointOverride.getD a.tokenEndpointUrl

end TokenAdapter

/-! ## The state -/

structure PendingLogin where
  endpointName : String
  tokenEndpoint : String
  /-- The URL of the endpoint that is signed in to. -/
  url : String
  /-- The endpoint that a setup will create. -/
  setup : Option EndpointConfig
deriving DecidableEq

/-- A refresh token was POSTed. -/
structure PendingRefresh where
  adapter : Nat
  refreshEpoch : Nat
  token : BoundToken
  url : String
  /-- The POST comes after a 404 elsewhere. -/
  retry : Bool
deriving DecidableEq

structure TokenBinding where
  /-- The published config. -/
  config : ManagedConfig
  /-- The token files, by the name of the endpoint. -/
  files : Table String BoundTokenSet
  adapters : List TokenAdapter
  /-- `oauth_adapter_inners`. -/
  inners : Table String Nat
  flows : List PendingLogin
  /-- The setups whose sign-in was answered. -/
  sessions : List (EndpointConfig × BoundTokenSet)
  refreshes : List PendingRefresh
  log : List TokenSent

/-- The token endpoint that is found for an endpoint, if any is. -/
abbrev TokenDiscovery := EndpointConfig → Option String

namespace TokenBinding

variable (s : TokenBinding)

/-- The handle of an OAuth adapter is put into the map. -/
def build (a : TokenAdapter) : TokenBinding :=
  { s with
    adapters := s.adapters ++ [a]
    inners := if a.kind = .jit then s.inners else s.inners.insert a.endpointName s.adapters.length }

/-- A config is published, with the adapters of its new and changed endpoints built. -/
def publish (new : ManagedConfig) (discovery : TokenDiscovery) : TokenBinding :=
  let cfg := new.running.core
  let diff := diffConfigs s.config.running.core cfg
  let built := (diff.added ++ diff.changed.map (·.2)).filterMap fun ep =>
    TokenAdapter.ofSpec (discovery ep) (createAdapter cfg.insecure cfg.organizations ep)
  { built.foldl build s with config := new }

def setAdapter (i : Nat) (a : TokenAdapter) : TokenBinding := { s with adapters := s.adapters.set i a }

/-- `apply_tokens_inner`. The new inner adapter does a handshake, and is kept if that succeeds. -/
def applyTokens (i : Nat) (a : TokenAdapter) (tokens : BoundTokenSet) (connects : Bool) : TokenBinding :=
  let applied :=
    { a with tokens := some tokens, innerAdapter := if connects then some tokens.accessToken else none }
  { s.setAdapter i applied with
    files := s.files.insert a.endpointName tokens
    log := s.log ++ [.access tokens.accessToken a.url] }

/-- `apply_tokens`: of a new grant. -/
def applyGrant (i : Nat) (a : TokenAdapter) (tokens : BoundTokenSet) (connects : Bool) : TokenBinding :=
  s.applyTokens i { a with grantEpoch := a.grantEpoch + 1 } tokens connects

/-- `execute_token_post`, up to where the answer comes. -/
def postRefresh (i refreshEpoch : Nat) (token : BoundToken) (url : String) (retry : Bool) : TokenBinding :=
  { s with
    refreshes := s.refreshes ++ [⟨i, refreshEpoch, token, url, retry⟩]
    log := s.log ++ [.refresh token url] }

/-- `ensure_access_token`: the tokens in the file, if they are valid, and else those that are minted. -/
def ensureAccessToken (a : TokenAdapter) (now : Nat) (minted : Option TokenAnswer) : Option BoundTokenSet :=
  ((s.files.lookup a.endpointName).filter (BoundTokenSet.isValid now)).or
    (minted.map fun answer => .issued a.url a.tokenEndpointUrl answer none)

end TokenBinding

/-! ## The operations -/

inductive BindingAction where
  /-- The relay is started again. -/
  | coldStart (discovery : TokenDiscovery)
  /-- An endpoint is created, or the one of the name is changed, perhaps its name as well. -/
  | change (original : Option String) (ep : EndpointConfig) (discovery : TokenDiscovery)
  /-- A deletion, with the reload that comes of it. -/
  | delete (name : String) (discovery : TokenDiscovery)
  | reload (config : ManagedConfig) (discovery : TokenDiscovery)
  | restart (name : String) (discovery : TokenDiscovery)
  /-- An adapter starts, for the first time or when it is enabled again. -/
  | start (i now : Nat) (minted : Option TokenAnswer) (connects : Bool)
  | request (i now : Nat)
  | refresh (i now : Nat) (minted : Option TokenAnswer) (connects : Bool)
  /-- The answer to a refresh token. -/
  | refreshed (k : Nat) (outcome : TokenPostOutcome) (rediscovered : Option String) (connects : Bool)
  | login (name : String) (discovery : TokenDiscovery)
  /-- A sign-in is begun because the upstream has asked an HTTP adapter for it. -/
  | intercept (i : Nat) (tokenEndpoint : String)
  /-- A sign-in is begun for an endpoint that does not exist yet. -/
  | setup (ep : EndpointConfig) (tokenEndpoint : String)
  | callback (k : Nat) (answer : TokenAnswer) (connects : Bool)
  | commit (k : Nat) (discovery : TokenDiscovery)
  | disconnect (i : Nat)

/-- The token endpoint of a sign-in. -/
def loginTokenEndpoint (ep : EndpointConfig) (discovered : Option String) : Option String :=
  match ep.oauthServerUrl with
  | some base => some (ep.tokenEndpoint.getD (discovered.getD (conventionalTokenEndpoint base)))
  | none => discovered

namespace TokenBinding

/-- `OAuthAdapter::initialize`, and nothing for an HTTP adapter. -/
def start (s : TokenBinding) (i : Nat) (a : TokenAdapter) (now : Nat) (minted : Option TokenAnswer)
    (connects : Bool) : TokenBinding :=
  match a.kind with
  | .oauth =>
    match s.files.lookup a.endpointName with
    | none => s
    | some tokens =>
      if tokens.isValid now then s.applyGrant i a tokens connects
      else
        match tokens.refreshToken with
        | none => s
        | some token =>
          (s.setAdapter i { a with tokens := some tokens }).postRefresh i a.grantEpoch token
            a.effectiveTokenEndpoint false
  | .ema =>
    match s.ensureAccessToken a now minted with
    | none => s
    | some tokens => s.applyGrant i a tokens connects
  | .jit => s

/-- A request of an adapter goes to the upstream. -/
def request (s : TokenBinding) (a : TokenAdapter) (now : Nat) : TokenBinding :=
  let bearer : Option BoundToken :=
    match a.kind with
    | .oauth | .ema => a.innerAdapter
    | .jit => ((s.files.lookup a.endpointName).filter (BoundTokenSet.isValid now)).map (·.accessToken)
  { s with log := s.log ++ (bearer.map fun token => .access token a.url).toList }

/-- `do_token_refresh_with_epoch`, up to where the answer comes. -/
def refresh (s : TokenBinding) (i : Nat) (a : TokenAdapter) (now : Nat) (minted : Option TokenAnswer)
    (connects : Bool) : TokenBinding :=
  match a.kind with
  | .oauth =>
    match a.tokens.bind (·.refreshToken) with
    | none => s
    | some token => s.postRefresh i a.grantEpoch token a.effectiveTokenEndpoint false
  | .ema =>
    match s.ensureAccessToken a now minted with
    | none => s
    | some tokens => s.applyTokens i a tokens connects
  | .jit => s

/-- The rest of it, and `apply_refreshed_tokens`. -/
def refreshed (s : TokenBinding) (r : PendingRefresh) (a : TokenAdapter) (outcome : TokenPostOutcome)
    (rediscovered : Option String) (connects : Bool) : TokenBinding :=
  match outcome with
  | .success answer =>
    -- the result of a refresh of a grant that was replaced is dropped
    if r.refreshEpoch ≠ a.grantEpoch then s
    else s.applyTokens r.adapter a
      (.issued r.token.grantedFor r.url answer (a.tokens.bind (·.refreshToken))) connects
  | .notFound =>
    if r.retry || a.url = "" then s
    else
      match rediscovered with
      | none => s
      | some url =>
        if url = r.url then s
        else (s.setAdapter r.adapter { a with tokenEndpointOverride := some url }).postRefresh r.adapter
          r.refreshEpoch r.token url true
  | .httpError | .network | .invalidJson => s

/-- `oauth_callback`, once the code is exchanged. -/
def callback (s : TokenBinding) (flow : PendingLogin) (answer : TokenAnswer) (connects : Bool) : TokenBinding :=
  let tokens := .issued flow.url flow.tokenEndpoint answer none
  match flow.setup with
  | some ep => { s with sessions := s.sessions ++ [(ep, tokens)] }
  | none =>
    let saved := { s with files := s.files.insert flow.endpointName tokens }
    match s.inners.lookup flow.endpointName with
    | none => saved
    | some i =>
      match s.adapters[i]? with
      | none => saved
      | some a => saved.applyGrant i { a with tokenEndpointOverride := some flow.tokenEndpoint } tokens connects

def disconnect (s : TokenBinding) (i : Nat) (a : TokenAdapter) : TokenBinding :=
  let disconnected := { a with tokens := none, innerAdapter := none, grantEpoch := a.grantEpoch + 1 }
  { s.setAdapter i disconnected with files := s.files.erase a.endpointName }

/-- The endpoints of the config are built as `main` builds them, and everything in memory is gone. -/
def coldStart (s : TokenBinding) (discovery : TokenDiscovery) : TokenBinding :=
  let cfg := s.config.running.core
  (cfg.endpoints.filterMap fun ep =>
    TokenAdapter.ofSpec (discovery ep) (startupAdapter cfg.insecure cfg.organizations ep)).foldl build
    { s with adapters := [], inners := ∅, flows := [], sessions := [], refreshes := [] }

def step (s : TokenBinding) : BindingAction → Option TokenBinding
  | .coldStart discovery => some (s.coldStart discovery)
  | .change original ep discovery => some (s.publish (s.config.changeEndpoint original ep) discovery)
  | .delete name discovery =>
    some (s.publish (s.config.setEndpoints (s.config.endpoints.filter fun ep => ep.name ≠ name)) discovery)
  | .reload config discovery => some (s.publish config discovery)
  | .restart name discovery => do
    let ep ← s.config.endpoints.find? fun ep => ep.name = name
    let cfg := s.config.running.core
    let a ← TokenAdapter.ofSpec (discovery ep) (createAdapter cfg.insecure cfg.organizations ep)
    return s.build a
  | .start i now minted connects => s.adapters[i]?.map fun a => s.start i a now minted connects
  | .request i now => s.adapters[i]?.map fun a => s.request a now
  | .refresh i now minted connects => s.adapters[i]?.map fun a => s.refresh i a now minted connects
  | .refreshed k outcome rediscovered connects => do
    let r ← s.refreshes[k]?
    let a ← s.adapters[r.adapter]?
    return { s with refreshes := s.refreshes.eraseIdx k }.refreshed r a outcome rediscovered connects
  | .login name discovery => do
    let ep ← s.config.endpoints.find? fun ep => ep.name = name
    let tokenEndpoint ← loginTokenEndpoint ep (discovery ep)
    return { s with flows := s.flows ++ [⟨name, tokenEndpoint, ep.url.getD "", none⟩] }
  | .intercept i tokenEndpoint => do
    let a ← s.adapters[i]?
    if a.kind = .jit then
      some { s with flows := s.flows ++ [⟨a.endpointName, tokenEndpoint, a.url, none⟩] }
    else none
  | .setup ep tokenEndpoint =>
    some { s with flows := s.flows ++ [⟨"setup:" ++ ep.name, tokenEndpoint, ep.url.getD "", some ep⟩] }
  | .callback k answer connects => do
    let flow ← s.flows[k]?
    if answer.accessToken = "" then none
    else return { s with flows := s.flows.eraseIdx k }.callback flow answer connects
  | .commit k discovery => do
    let session ← s.sessions[k]?
    return { s with
      files := s.files.insert session.1.name session.2
      sessions := s.sessions.eraseIdx k }.publish (s.config.changeEndpoint none session.1) discovery
  | .disconnect i => s.adapters[i]?.map fun a => s.disconnect i a

end TokenBinding

/-- The operations in any order. Nothing is known of the config and of the files that there are. -/
def tokenBinding : System TokenBinding BindingAction where
  init s := s.adapters = [] ∧ s.refreshes = [] ∧ s.log = []
  step := TokenBinding.step

/-! ## Tokens that are where they belong -/

section Binding

-- the authorization server that a token endpoint belongs to
variable (server : String → String)

/-- An access token goes to the URL it was granted for, a refresh token to the server that issued it. -/
def TokenSent.Bound : TokenSent → Prop
  | .access token url => token.grantedFor = url
  | .refresh token tokenEndpoint => server token.issuedAt = server tokenEndpoint

/-- The refresh token may be POSTed by the adapter. -/
def TokenAdapter.accepts (a : TokenAdapter) (token : BoundToken) : Bool :=
  token.grantedFor = a.url && server token.issuedAt = server a.effectiveTokenEndpoint

/-- The tokens were granted for the endpoint that the adapter is of. -/
def TokenAdapter.fits (a : TokenAdapter) (tokens : BoundTokenSet) : Bool :=
  tokens.accessToken.grantedFor = a.url && (a.kind ≠ .oauth || tokens.refreshToken.all (a.accepts server))

namespace TokenBinding

/-- The tokens in the file of the name of an adapter, if the adapter takes them. -/
def taken (s : TokenBinding) (a : TokenAdapter) (now : Nat) : Option BoundTokenSet :=
  (s.files.lookup a.endpointName).filter fun tokens =>
    tokens.isValid now || (a.kind = .oauth && tokens.refreshToken.isSome)

/-- An adapter of one of these kinds takes only tokens that fit it. -/
def takesFitting (s : TokenBinding) (kinds : List TokenAdapterKind) (i now : Nat) : Bool :=
  s.adapters[i]?.all fun a => a.kind ∉ kinds || (s.taken a now).all (a.fits server)

/-- What an adapter takes from a file fits it; a callback is given to an adapter with the URL that was signed
in to; and a token endpoint that is discovered after a 404 is one of the same server. -/
def matched (s : TokenBinding) : BindingAction → Bool
  | .start i now _ _ => s.takesFitting server [.oauth, .ema] i now
  | .request i now => s.takesFitting server [.jit] i now
  | .refresh i now _ _ => s.takesFitting server [.ema] i now
  | .refreshed k .notFound (some url) _ =>
    s.refreshes[k]?.all fun r => s.adapters[r.adapter]?.all fun a =>
      r.retry || a.url = "" || url = r.url ||
        (server url = server r.token.issuedAt && server url = server a.effectiveTokenEndpoint)
  | .callback k _ _ =>
    s.flows[k]?.all fun flow => flow.setup.isSome ||
      ((s.inners.lookup flow.endpointName).bind fun i => s.adapters[i]?).all fun a => flow.url = a.url
  | _ => true

end TokenBinding

/-! ## The invariant -/

/-- The adapter has tokens that fit it. -/
structure TokenAdapter.Keeps (a : TokenAdapter) : Prop where
  tokens : ∀ tokens ∈ a.tokens, a.fits server tokens = true
  inner : ∀ token ∈ a.innerAdapter, token.grantedFor = a.url

/-- A refresh of the grant that an adapter has is one of its URL and its server. -/
def PendingRefresh.Current (adapters : List TokenAdapter) (r : PendingRefresh) : Prop :=
  ∃ a, adapters[r.adapter]? = some a ∧ r.refreshEpoch ≤ a.grantEpoch ∧
    (r.refreshEpoch = a.grantEpoch →
      r.token.grantedFor = a.url ∧ server r.url = server a.effectiveTokenEndpoint)

structure TokenBinding.Sound (s : TokenBinding) : Prop where
  adapters : ∀ a ∈ s.adapters, a.Keeps server
  refreshes : ∀ r ∈ s.refreshes, r.Current server s.adapters
  log : ∀ e ∈ s.log, e.Bound server

variable {server} {s : TokenBinding} {a a' : TokenAdapter} {i now : Nat} {tokens : BoundTokenSet}
  {token : BoundToken} {connects : Bool} {minted : Option TokenAnswer} {discovery : TokenDiscovery}

theorem fits_iff : a.fits server tokens = true ↔ tokens.accessToken.grantedFor = a.url ∧
    (a.kind = .oauth → ∀ token ∈ tokens.refreshToken, a.accepts server token = true) := by
  unfold TokenAdapter.fits
  rw [Bool.and_eq_true, decide_eq_true_iff, Bool.or_eq_true, decide_eq_true_iff, Option.all_eq_true]
  exact and_congr_right fun _ => imp_iff_not_or.symm

theorem accepts_iff : a.accepts server token = true ↔
    token.grantedFor = a.url ∧ server token.issuedAt = server a.effectiveTokenEndpoint := by
  rw [TokenAdapter.accepts, Bool.and_eq_true, decide_eq_true_iff, decide_eq_true_iff]

/-- The tokens that are issued fit, as far as those that are kept do. -/
theorem fits_issued {grantedFor url : String} {answer : TokenAnswer} {old : Option BoundToken}
    (hurl : grantedFor = a.url) (hserver : a.kind = .oauth → server url = server a.effectiveTokenEndpoint)
    (hold : a.kind = .oauth → ∀ token ∈ old, a.accepts server token = true) :
    a.fits server (.issued grantedFor url answer old) = true := by
  refine fits_iff.2 ⟨hurl, fun hkind token htoken => ?_⟩
  rcases Option.or_eq_some_iff.1 htoken with hnew | ⟨-, hkept⟩
  · obtain ⟨new, -, rfl⟩ := Option.map_eq_some_iff.1 hnew
    exact accepts_iff.2 ⟨hurl, hserver hkind⟩
  · exact hold hkind token hkept

namespace TokenBinding.Sound

section

variable (h : s.Sound server)
include h

/-- Another adapter takes the place of one: with a new grant, or for the same server. -/
theorem setAdapter (hi : s.adapters[i]? = some a) (hurl : a'.url = a.url)
    (hepoch : a.grantEpoch < a'.grantEpoch ∨ a.grantEpoch = a'.grantEpoch ∧
      server a'.effectiveTokenEndpoint = server a.effectiveTokenEndpoint) (hkeeps : a'.Keeps server) :
    (s.setAdapter i a').Sound server := by
  refine ⟨fun b hb => ?_, fun r hr => ?_, h.log⟩
  · rcases List.mem_or_eq_of_mem_set hb with hb | rfl
    · exact h.adapters b hb
    · exact hkeeps
  · obtain ⟨b, hb, hle, hcurrent⟩ := h.refreshes r hr
    by_cases hr : r.adapter = i
    · subst hr
      obtain rfl : b = a := Option.some.inj (hb.symm.trans hi)
      have hlt : r.adapter < s.adapters.length := (List.getElem?_eq_some_iff.1 hi).1
      refine ⟨a', List.getElem?_set_self hlt, by omega, fun heq => ?_⟩
      obtain ⟨hsame, hserver⟩ := hepoch.resolve_left (by omega)
      obtain ⟨hgranted, hissued⟩ := hcurrent (by omega)
      exact ⟨hgranted.trans hurl.symm, hissued.trans hserver.symm⟩
    · exact ⟨b, (List.getElem?_set_ne (Ne.symm hr)).trans hb, hle, hcurrent⟩

theorem sent {events : List TokenSent} (hevents : ∀ e ∈ events, e.Bound server) :
    { s with log := s.log ++ events }.Sound server :=
  ⟨h.adapters, h.refreshes, fun e he => (List.mem_append.1 he).elim (h.log e) (hevents e)⟩

theorem applyTokens (hi : s.adapters[i]? = some a) (hurl : a'.url = a.url)
    (hepoch : a.grantEpoch < a'.grantEpoch ∨ a.grantEpoch = a'.grantEpoch ∧
      server a'.effectiveTokenEndpoint = server a.effectiveTokenEndpoint)
    (hfits : a'.fits server tokens = true) : (s.applyTokens i a' tokens connects).Sound server := by
  have hgranted := (fits_iff.1 hfits).1
  have hkeeps : TokenAdapter.Keeps server { a' with
      tokens := some tokens, innerAdapter := if connects then some tokens.accessToken else none } := by
    refine ⟨fun ts hts => Option.some.inj hts ▸ hfits, fun token htoken => ?_⟩
    cases connects with
    | true => exact Option.some.inj htoken ▸ hgranted
    | false => cases htoken
  have hset : (s.setAdapter i { a' with
      tokens := some tokens, innerAdapter := if connects then some tokens.accessToken else none }).Sound server :=
    h.setAdapter hi hurl hepoch hkeeps
  have hsent : ∀ e ∈ [TokenSent.access tokens.accessToken a'.url], e.Bound server :=
    List.forall_mem_singleton.2 hgranted
  exact ⟨hset.adapters, hset.refreshes, (hset.sent hsent).log⟩

theorem applyGrant (hi : s.adapters[i]? = some a) (hurl : a'.url = a.url)
    (hepoch : a'.grantEpoch = a.grantEpoch) (hfits : a'.fits server tokens = true) :
    (s.applyGrant i a' tokens connects).Sound server :=
  h.applyTokens hi hurl (.inl (hepoch ▸ Nat.lt_succ_self _)) hfits

/-- A refresh token is POSTed. The refresh may be one of a grant that was replaced. -/
theorem postRefresh {refreshEpoch : Nat} {url : String} {retry : Bool} (hi : s.adapters[i]? = some a)
    (hissued : server token.issuedAt = server url) (hepoch : refreshEpoch ≤ a.grantEpoch)
    (hcurrent : refreshEpoch = a.grantEpoch →
      token.grantedFor = a.url ∧ server url = server a.effectiveTokenEndpoint) :
    (s.postRefresh i refreshEpoch token url retry).Sound server := by
  have hsent : ∀ e ∈ [TokenSent.refresh token url], e.Bound server := List.forall_mem_singleton.2 hissued
  refine ⟨h.adapters, fun r hr => ?_, (h.sent hsent).log⟩
  rcases List.mem_append.1 hr with hr | hr
  · exact h.refreshes r hr
  · obtain rfl := List.mem_singleton.1 hr
    exact ⟨a, hi, hepoch, hcurrent⟩

theorem build (ha : a.Keeps server) : (s.build a).Sound server := by
  refine ⟨List.forall_mem_append.2 ⟨h.adapters, List.forall_mem_singleton.2 ha⟩, fun r hr => ?_, h.log⟩
  obtain ⟨b, hb, hcurrent⟩ := h.refreshes r hr
  exact ⟨b, (List.getElem?_append_left (List.getElem?_eq_some_iff.1 hb).1).trans hb, hcurrent⟩

theorem buildAll (built : List TokenAdapter) (hbuilt : ∀ a ∈ built, a.Keeps server) :
    (built.foldl TokenBinding.build s).Sound server := by
  induction built generalizing s with
  | nil => exact h
  | cons a built ih =>
    obtain ⟨ha, hbuilt⟩ := List.forall_mem_cons.1 hbuilt
    exact ih (h.build ha) hbuilt

end

/-- An adapter has no tokens when it is built. -/
theorem keeps_ofSpec {discovered : Option String} {spec : AdapterSpec}
    (h : TokenAdapter.ofSpec discovered spec = some a) : a.Keeps server := by
  have hnone : a.tokens = none ∧ a.innerAdapter = none := by
    cases spec with
    | oauth | http =>
      cases h
      exact ⟨rfl, rfl⟩
    | ema =>
      obtain ⟨te, -, rfl⟩ := Option.map_eq_some_iff.1 h
      exact ⟨rfl, rfl⟩
    | starting | failed | stdio | sse => cases h
  refine ⟨fun ts hts => ?_, fun token htoken => ?_⟩
  · rw [hnone.1] at hts
    cases hts
  · rw [hnone.2] at htoken
    cases htoken

theorem buildSpecs (h : s.Sound server) (discovery : TokenDiscovery) (eps : List EndpointConfig)
    (spec : EndpointConfig → AdapterSpec) :
    ((eps.filterMap fun ep => TokenAdapter.ofSpec (discovery ep) (spec ep)).foldl TokenBinding.build s).Sound
      server := by
  refine h.buildAll _ fun a ha => ?_
  obtain ⟨ep, -, hspec⟩ := List.mem_filterMap.1 ha
  exact keeps_ofSpec hspec

theorem publish (h : s.Sound server) (new : ManagedConfig) : (s.publish new discovery).Sound server := by
  have hbuilt := h.buildSpecs discovery
    ((diffConfigs s.config.running.core new.running.core).added ++
      (diffConfigs s.config.running.core new.running.core).changed.map (·.2))
    (createAdapter new.running.core.insecure new.running.core.organizations)
  exact ⟨hbuilt.adapters, hbuilt.refreshes, hbuilt.log⟩

theorem coldStart (h : s.Sound server) : (s.coldStart discovery).Sound server := by
  have hempty : TokenBinding.Sound server
      { s with adapters := [], inners := ∅, flows := [], sessions := [], refreshes := [] } :=
    ⟨fun _ ha => absurd ha List.not_mem_nil, fun _ hr => absurd hr List.not_mem_nil, h.log⟩
  exact hempty.buildSpecs _ _ _

theorem disconnect (h : s.Sound server) (hi : s.adapters[i]? = some a) : (s.disconnect i a).Sound server := by
  have hset : (s.setAdapter i { a with
      tokens := none, innerAdapter := none, grantEpoch := a.grantEpoch + 1 }).Sound server :=
    h.setAdapter hi rfl (.inl (Nat.lt_succ_self _)) ⟨nofun, nofun⟩
  exact ⟨hset.adapters, hset.refreshes, hset.log⟩

end TokenBinding.Sound

/-! ## Every run that matches -/

theorem fits_of_takesFitting {kinds : List TokenAdapterKind} (h : s.takesFitting server kinds i now = true)
    (hi : s.adapters[i]? = some a) (hkind : a.kind ∈ kinds) (hfile : s.files.lookup a.endpointName = some tokens)
    (htaken : tokens.isValid now = true ∨ a.kind = .oauth ∧ tokens.refreshToken.isSome = true) :
    a.fits server tokens = true := by
  have hall : a.kind ∉ kinds ∨ (s.taken a now).all (a.fits server) = true := by
    simpa [TokenBinding.takesFitting, hi] using h
  refine Option.all_eq_true _ _ |>.1 (hall.resolve_left (not_not_intro hkind)) tokens ?_
  refine Option.filter_eq_some_iff.2 ⟨hfile, ?_⟩
  rw [Bool.or_eq_true, Bool.and_eq_true, decide_eq_true_iff]
  exact htaken

theorem ensureAccessToken_fits (hi : s.adapters[i]? = some a) (hkind : a.kind = .ema)
    (hmatched : s.takesFitting server [.ema] i now = true ∨ s.takesFitting server [.oauth, .ema] i now = true)
    (h : s.ensureAccessToken a now minted = some tokens) : a.fits server tokens = true := by
  rcases Option.or_eq_some_iff.1 h with hfile | ⟨-, hminted⟩
  · obtain ⟨hfile, hvalid⟩ := Option.filter_eq_some_iff.1 hfile
    rcases hmatched with hmatched | hmatched
    · exact fits_of_takesFitting hmatched hi (by simp [hkind]) hfile (.inl hvalid)
    · exact fits_of_takesFitting hmatched hi (by simp [hkind]) hfile (.inl hvalid)
  · obtain ⟨answer, -, rfl⟩ := Option.map_eq_some_iff.1 hminted
    exact fits_issued rfl (fun hoauth => absurd (hkind.symm.trans hoauth) nofun) nofun

namespace TokenBinding.Sound

theorem start (h : s.Sound server) (hi : s.adapters[i]? = some a)
    (hmatched : s.takesFitting server [.oauth, .ema] i now = true) :
    (s.start i a now minted connects).Sound server := by
  unfold TokenBinding.start
  split
  · next hkind =>
    split
    · exact h
    · next tokens hfile =>
      have hfits := fun htaken => fits_of_takesFitting hmatched hi (by simp [hkind]) hfile htaken
      split
      · next hvalid => exact h.applyGrant hi rfl rfl (hfits (.inl hvalid))
      · split
        · exact h
        · next token htoken =>
          have hfits := hfits (.inr ⟨hkind, by rw [htoken]; rfl⟩)
          obtain ⟨hgranted, hissued⟩ := accepts_iff.1 ((fits_iff.1 hfits).2 hkind token htoken)
          have hkeeps : TokenAdapter.Keeps server { a with tokens := some tokens } :=
            ⟨fun ts hts => Option.some.inj hts ▸ hfits, (h.adapters a (List.mem_of_getElem? hi)).inner⟩
          have hlt : i < s.adapters.length := (List.getElem?_eq_some_iff.1 hi).1
          have hset : (s.setAdapter i { a with tokens := some tokens }).Sound server :=
            h.setAdapter hi rfl (.inr ⟨rfl, rfl⟩) hkeeps
          exact hset.postRefresh (List.getElem?_set_self hlt) hissued le_rfl fun _ => ⟨hgranted, rfl⟩
  · next hkind =>
    split
    · exact h
    · next tokens htokens =>
      exact h.applyGrant hi rfl rfl (ensureAccessToken_fits hi hkind (.inr hmatched) htokens)
  · exact h

theorem request (h : s.Sound server) (hi : s.adapters[i]? = some a)
    (hmatched : s.takesFitting server [.jit] i now = true) : (s.request a now).Sound server := by
  refine h.sent fun e he => ?_
  obtain ⟨token, htoken, rfl⟩ := Option.map_eq_some_iff.1 (Option.mem_toList.1 he)
  split at htoken
  · exact (h.adapters a (List.mem_of_getElem? hi)).inner token htoken
  · exact (h.adapters a (List.mem_of_getElem? hi)).inner token htoken
  · next hkind =>
    obtain ⟨tokens, hfile, rfl⟩ := Option.map_eq_some_iff.1 htoken
    obtain ⟨hfile, hvalid⟩ := Option.filter_eq_some_iff.1 hfile
    exact (fits_iff.1 (fits_of_takesFitting hmatched hi (by simp [hkind]) hfile (.inl hvalid))).1

theorem refresh (h : s.Sound server) (hi : s.adapters[i]? = some a)
    (hmatched : s.takesFitting server [.ema] i now = true) : (s.refresh i a now minted connects).Sound server := by
  unfold TokenBinding.refresh
  split
  · next hkind =>
    split
    · exact h
    · next token htoken =>
      obtain ⟨tokens, htokens, htoken⟩ := Option.bind_eq_some_iff.1 htoken
      have hfits := (h.adapters a (List.mem_of_getElem? hi)).tokens tokens htokens
      obtain ⟨hgranted, hissued⟩ := accepts_iff.1 ((fits_iff.1 hfits).2 hkind token htoken)
      exact h.postRefresh hi hissued le_rfl fun _ => ⟨hgranted, rfl⟩
  · next hkind =>
    split
    · exact h
    · next tokens htokens =>
      exact h.applyTokens hi rfl (.inr ⟨rfl, rfl⟩) (ensureAccessToken_fits hi hkind (.inl hmatched) htokens)
  · exact h

/-- What comes of the answer to a refresh token. -/
theorem refreshed {r : PendingRefresh} {outcome : TokenPostOutcome} {rediscovered : Option String}
    (h : s.Sound server) (hi : s.adapters[r.adapter]? = some a) (hepoch : r.refreshEpoch ≤ a.grantEpoch)
    (hcurrent : r.refreshEpoch = a.grantEpoch →
      r.token.grantedFor = a.url ∧ server r.url = server a.effectiveTokenEndpoint)
    (hmatched : outcome = .notFound → ∀ url ∈ rediscovered, r.retry = true ∨ a.url = "" ∨ url = r.url ∨
      server url = server r.token.issuedAt ∧ server url = server a.effectiveTokenEndpoint) :
    (s.refreshed r a outcome rediscovered connects).Sound server := by
  have hkeeps := h.adapters a (List.mem_of_getElem? hi)
  unfold TokenBinding.refreshed
  split
  · split
    · exact h
    · next hsame =>
      obtain ⟨hgranted, hserver⟩ := hcurrent (not_not.1 hsame)
      refine h.applyTokens hi rfl (.inr ⟨rfl, rfl⟩) (fits_issued hgranted (fun _ => hserver) ?_)
      intro hkind token htoken
      obtain ⟨tokens, htokens, htoken⟩ := Option.bind_eq_some_iff.1 htoken
      exact (fits_iff.1 (hkeeps.tokens tokens htokens)).2 hkind token htoken
  · split
    · exact h
    · next hretry =>
      split
      · exact h
      · next url =>
        split
        · exact h
        · next hnew =>
          obtain ⟨hissued, hserver⟩ : server url = server r.token.issuedAt ∧
              server url = server a.effectiveTokenEndpoint := by
            rw [Bool.or_eq_true, not_or, decide_eq_true_iff] at hretry
            simpa [hnew, hretry] using hmatched rfl url rfl
          have hlt : r.adapter < s.adapters.length := (List.getElem?_eq_some_iff.1 hi).1
          have hkeeps' : TokenAdapter.Keeps server { a with tokenEndpointOverride := some url } := by
            refine ⟨fun tokens htokens => ?_, hkeeps.inner⟩
            obtain ⟨hgranted, haccepts⟩ := fits_iff.1 (hkeeps.tokens tokens htokens)
            refine fits_iff.2 ⟨hgranted, fun hkind token htoken => ?_⟩
            obtain ⟨hurl, hold⟩ := accepts_iff.1 (haccepts hkind token htoken)
            exact accepts_iff.2 ⟨hurl, hold.trans hserver.symm⟩
          have hset : (s.setAdapter r.adapter { a with tokenEndpointOverride := some url }).Sound server :=
            h.setAdapter hi rfl (.inr ⟨rfl, hserver⟩) hkeeps'
          exact hset.postRefresh (List.getElem?_set_self hlt) hissued.symm hepoch
            fun hsame => ⟨(hcurrent hsame).1, rfl⟩
  · exact h
  · exact h
  · exact h

theorem callback {flow : PendingLogin} {answer : TokenAnswer} (h : s.Sound server)
    (hmatched : flow.setup = none → ∀ i ∈ s.inners.lookup flow.endpointName, ∀ a, s.adapters[i]? = some a →
      flow.url = a.url) : (s.callback flow answer connects).Sound server := by
  unfold TokenBinding.callback
  dsimp only
  split
  · exact ⟨h.adapters, h.refreshes, h.log⟩
  · next hsetup =>
    have hsaved (files : Table String BoundTokenSet) : { s with files }.Sound server :=
      ⟨h.adapters, h.refreshes, h.log⟩
    split
    · exact hsaved _
    · next i hinner =>
      split
      · exact hsaved _
      · next a hi =>
        exact (hsaved _).applyGrant hi rfl rfl
          (fits_issued (hmatched hsetup i hinner a hi) (fun _ => rfl) nofun)

end TokenBinding.Sound

theorem bound_step {s' : TokenBinding} {action : BindingAction} (h : s.Sound server)
    (hmatched : s.matched server action = true) (hstep : s.step action = some s') : s'.Sound server := by
  cases action with
  | coldStart =>
    cases hstep
    exact h.coldStart
  | change | delete | reload =>
    cases hstep
    exact h.publish _
  | restart name discovery =>
    obtain ⟨ep, -, hstep⟩ := Option.bind_eq_some_iff.1 hstep
    obtain ⟨a, ha, hstep⟩ := Option.bind_eq_some_iff.1 hstep
    cases hstep
    exact h.build (TokenBinding.Sound.keeps_ofSpec ha)
  | start i now minted connects =>
    obtain ⟨a, hi, rfl⟩ := Option.map_eq_some_iff.1 hstep
    exact h.start hi hmatched
  | request i now =>
    obtain ⟨a, hi, rfl⟩ := Option.map_eq_some_iff.1 hstep
    exact h.request hi hmatched
  | refresh i now minted connects =>
    obtain ⟨a, hi, rfl⟩ := Option.map_eq_some_iff.1 hstep
    exact h.refresh hi hmatched
  | refreshed k outcome rediscovered connects =>
    obtain ⟨r, hr, hstep⟩ := Option.bind_eq_some_iff.1 hstep
    obtain ⟨a, ha, hstep⟩ := Option.bind_eq_some_iff.1 hstep
    cases hstep
    obtain ⟨b, hb, hepoch, hcurrent⟩ := h.refreshes r (List.mem_of_getElem? hr)
    obtain rfl : b = a := Option.some.inj (hb.symm.trans ha)
    have hrest : { s with refreshes := s.refreshes.eraseIdx k }.Sound server :=
      ⟨h.adapters, fun r hr => h.refreshes r (List.mem_of_mem_eraseIdx hr), h.log⟩
    refine hrest.refreshed ha hepoch hcurrent ?_
    rintro rfl url hurl
    obtain rfl := Option.mem_def.1 hurl
    simpa [TokenBinding.matched, hr, ha, or_assoc] using hmatched
  | login name discovery =>
    obtain ⟨ep, -, hstep⟩ := Option.bind_eq_some_iff.1 hstep
    obtain ⟨te, -, hstep⟩ := Option.bind_eq_some_iff.1 hstep
    cases hstep
    exact ⟨h.adapters, h.refreshes, h.log⟩
  | intercept i tokenEndpoint =>
    obtain ⟨a, -, hstep⟩ := Option.bind_eq_some_iff.1 hstep
    split at hstep
    · cases hstep
      exact ⟨h.adapters, h.refreshes, h.log⟩
    · cases hstep
  | setup =>
    cases hstep
    exact ⟨h.adapters, h.refreshes, h.log⟩
  | callback k answer connects =>
    obtain ⟨flow, hflow, hstep⟩ := Option.bind_eq_some_iff.1 hstep
    split at hstep
    · cases hstep
    · cases hstep
      have hrest : { s with flows := s.flows.eraseIdx k }.Sound server := ⟨h.adapters, h.refreshes, h.log⟩
      refine hrest.callback fun hsetup i hinner a hi => ?_
      rw [Option.mem_def] at hinner
      simpa [TokenBinding.matched, hflow, hsetup, hinner, hi] using hmatched
  | commit k discovery =>
    obtain ⟨session, -, hstep⟩ := Option.bind_eq_some_iff.1 hstep
    cases hstep
    have hrest (files : Table String BoundTokenSet) (sessions : List (EndpointConfig × BoundTokenSet)) :
        { s with files, sessions }.Sound server := ⟨h.adapters, h.refreshes, h.log⟩
    exact (hrest _ _).publish _
  | disconnect i =>
    obtain ⟨a, hi, rfl⟩ := Option.map_eq_some_iff.1 hstep
    exact h.disconnect hi

/-- **Tokens stay bound to the upstream they were granted for** in every run whose steps match. -/
theorem tokens_stay_bound (server : String → String) {s : TokenBinding}
    (h : tokenBinding.ReachableWhile (fun s action => s.matched server action = true) s) :
    ∀ e ∈ s.log, e.Bound server := by
  have hsound : s.Sound server := by
    refine h.invariant ?_ fun s action s' hs hmatched hstep => bound_step hs hmatched hstep
    rintro s ⟨hadapters, hrefreshes, hlog⟩
    refine ⟨?_, ?_, ?_⟩
    · rw [hadapters]
      exact fun _ ha => absurd ha List.not_mem_nil
    · rw [hrefreshes]
      exact fun _ hr => absurd hr List.not_mem_nil
    · rw [hlog]
      exact fun _ he => absurd he List.not_mem_nil
  exact hsound.log

end Binding

/-! ## Three runs -/

/-- The mail server at a URL, with an authorization server. -/
def mailUpstream (url oauthServerUrl : String) : EndpointConfig :=
  { name := "mail", transport := .oauth, url := some url, oauthServerUrl := some oauthServerUrl }

def mailServer : EndpointConfig := mailUpstream "https://a" "https://x"

def mailBinding : TokenBinding where
  config := ⟨{ core := ⟨none, [mailServer], []⟩ }, {}⟩
  files := ∅
  adapters := []
  inners := ∅
  flows := []
  sessions := []
  refreshes := []
  log := []

theorem mailBinding_start : tokenBinding.init mailBinding := ⟨rfl, rfl, rfl⟩

/-- Each authorization server has one token endpoint. -/
def mailDiscovery (ep : EndpointConfig) : Option String := ep.oauthServerUrl.map (· ++ "/token")

/-- Somebody signs in to the endpoint, and the answer is the first one to come. -/
def signedIn (answer : TokenAnswer) : List BindingAction :=
  [.login "mail" mailDiscovery, .callback 0 answer true]

def firstGrant : TokenAnswer := ⟨"at-1", some "rt-1", some 3600⟩

/-- The relay starts, and somebody signs in to the mail server. -/
def mailRun : List BindingAction := [.coldStart mailDiscovery, .start 0 0 none true] ++ signedIn firstGrant

/-- The endpoint is disconnected before it is given another URL and signed in to again. -/
def relocatedRun : List BindingAction :=
  mailRun ++ [.disconnect 0, .change (some "mail") (mailUpstream "https://b" "https://x") mailDiscovery,
    .start 1 0 none true] ++ signedIn ⟨"at-2", none, none⟩ ++ [.request 1 0]

/-- The access tokens go to the two URLs. -/
theorem tokens_stay_bound_moved : ∃ s, tokenBinding.run mailBinding relocatedRun = some s ∧
    s.log = [.access ⟨"at-1", "https://a", "https://x/token"⟩ "https://a",
      .access ⟨"at-2", "https://b", "https://x/token"⟩ "https://b",
      .access ⟨"at-2", "https://b", "https://x/token"⟩ "https://b"] ∧ ∀ e ∈ s.log, e.Bound id := by
  have hrun : ∃ s, tokenBinding.runWhile (TokenBinding.matched id) mailBinding relocatedRun = some s ∧
      tokenBinding.run mailBinding relocatedRun = some s ∧
      s.log = [.access ⟨"at-1", "https://a", "https://x/token"⟩ "https://a",
        .access ⟨"at-2", "https://b", "https://x/token"⟩ "https://b",
        .access ⟨"at-2", "https://b", "https://x/token"⟩ "https://b"] := ⟨_, rfl, rfl, rfl⟩
  obtain ⟨s, hwhile, hrun, hlog⟩ := hrun
  exact ⟨s, hrun, hlog, tokens_stay_bound id
    ((System.ReachableWhile.init mailBinding_start).run (fun _ _ h => h) hwhile)⟩

def changedRun : List BindingAction :=
  mailRun ++ [.change (some "mail") (mailUpstream "https://b" "https://x") mailDiscovery, .start 1 0 none true]

/-- It is deleted and created again with another authorization server, when the access token has expired. -/
def recreatedRun : List BindingAction :=
  mailRun ++ [.delete "mail" mailDiscovery, .change none (mailUpstream "https://a" "https://y") mailDiscovery,
    .start 1 7200 none true]

/-- **An access token for another endpoint** is sent to the new URL, and **a refresh token of another server**
to the new one. -/
theorem tokens_astray :
    (∃ s, tokenBinding.Reachable s ∧
      .access ⟨"at-1", "https://a", "https://x/token"⟩ "https://b" ∈ s.log ∧ ¬ ∀ e ∈ s.log, e.Bound id) ∧
    ∃ s, tokenBinding.Reachable s ∧
      .refresh ⟨"rt-1", "https://a", "https://x/token"⟩ "https://y/token" ∈ s.log ∧
      ¬ ∀ e ∈ s.log, e.Bound id := by
  have hchanged : ∃ s, tokenBinding.run mailBinding changedRun = some s ∧
      s.log[1]? = some (.access ⟨"at-1", "https://a", "https://x/token"⟩ "https://b") := ⟨_, rfl, rfl⟩
  have hrecreated : ∃ s, tokenBinding.run mailBinding recreatedRun = some s ∧
      s.log[1]? = some (.refresh ⟨"rt-1", "https://a", "https://x/token"⟩ "https://y/token") := ⟨_, rfl, rfl⟩
  obtain ⟨s, hrun, hlog⟩ := hchanged
  obtain ⟨s', hrun', hlog'⟩ := hrecreated
  have hsent := List.mem_of_getElem? hlog
  have hsent' := List.mem_of_getElem? hlog'
  refine ⟨⟨s, (System.Reachable.init mailBinding_start).run hrun, hsent, fun hbound => ?_⟩,
    ⟨s', (System.Reachable.init mailBinding_start).run hrun', hsent', fun hbound => ?_⟩⟩
  · exact absurd (hbound _ hsent) (by decide : ¬ "https://a" = "https://b")
  · exact absurd (hbound _ hsent') (by decide : ¬ "https://x/token" = "https://y/token")

end EndaraRelay
