import EndaraRelay.OAuth.EmaChain

/-!
# What the chain persists

**Theorem (`chain_persists_validated`).** However the servers, the store and the clock answer, a run of
`ensure_access_token` renews the ID token at most once and exchanges at most twice, and each of its steps is
`Permitted` by those before it:

* What it posts elsewhere than to the identity provider is a redemption, of an ID-JAG whose claims have just
  passed the checks against the stored issuer.
* It moves tokens into the place of the endpoint's only as the answer to a redemption, with an access token,
  and under a guard with the `apply_lock` held and the epoch read as expected.

Up to any step, what is stored for the endpoint is what was there before, or tokens that were moved there.
After an error it is what was there before.

What others store in the meantime shows in the answers. Token files and credential files have different
names.
-/

namespace EndaraRelay.Ema

open Verif Prog

/-! ## What the steps of a run may be -/

/-- The claims of an ID-JAG pass the checks at a time. -/
def ValidIdJag (codecs : Codecs) (jwt iss aud resource : String) (now : Nat) : Prop :=
  ∃ claims exp sub, decodeJwtClaims codecs jwt = .ok claims ∧ text claims "iss" = some iss ∧
    audContains (claims.get "aud") aud = true ∧ text claims "resource" = some resource ∧
    (claims.get "exp").bind Json.asU64 = some exp ∧ now + expSkewSecs < exp ∧ text claims "sub" = some sub

/-- The tokens that an answer to a redemption has, with an access token. -/
def Minted (answer clock : EmaAnswer) (tokens : TokenSet) : Prop :=
  ∃ resp json, answer.response = .ok resp ∧ isSuccess resp.status = true ∧ resp.json = .ok json ∧
    text json "access_token" = some tokens.accessToken ∧ tokens.accessToken ≠ "" ∧
    tokens = mintedTokens tokens.accessToken json clock.now

/-- What precedes a save: without a guard nothing, and with one the lock and the epoch that is expected. -/
def UnderGuard : Option Nat → EmaTrace → Prop
  | none, acquired => acquired = []
  | some expectedEpoch, acquired =>
    ∃ locked epoch, acquired = [(.lockApply, locked), (.readEpoch, epoch)] ∧ epoch.epoch = expectedEpoch

section Permitted

variable (codecs : Codecs) (endpoint idpKey idpTokenEndpoint asIssuer asTokenEndpoint resource : String)
  (allowInsecure : Bool) (grantGuard : Option Nat)

/-- A redemption at the resource authorization server, of an ID-JAG that has just been checked against the
credentials loaded before. -/
def Redeems (history : EmaTrace) (request : EmaRequest) : Prop :=
  ∃ idJag scope clientId clientSecret earlier loaded creds clock guarded,
    request = ⟨asTokenEndpoint, buildJwtBearerForm idJag scope clientId clientSecret⟩ ∧
    history = earlier ++ [(.now, clock), (.guard asTokenEndpoint allowInsecure, guarded)] ∧
    (EmaOp.loadIdp idpKey, loaded) ∈ earlier ∧ loaded.loadedIdp = .ok (some creds) ∧
    ValidIdJag codecs idJag creds.idpIssuer asIssuer resource clock.now

/-- The tokens that a redemption has just returned, in the file next to their place. -/
def Commits (history : EmaTrace) (tokens : TokenSet) : Prop :=
  ∃ earlier request redeemed clock acquired written permitted,
    request.isRedemption = true ∧ Minted redeemed clock tokens ∧ UnderGuard grantGuard acquired ∧
    history = earlier ++ [(.post request, redeemed), (.now, clock)] ++ acquired ++
      [(.writeTmp (.token endpoint tokens), written), (.setPermissions (.token endpoint tokens), permitted)]

/-- A request to the identity provider. -/
def IdpSide (request : EmaRequest) : Prop :=
  request.url = idpTokenEndpoint ∧ (request.isIdpRefresh = true ∨ request.isExchange = true)

/-- What a step may be after those before it. -/
def Permitted (history : EmaTrace) (e : EmaOp × EmaAnswer) : Prop :=
  match e.1 with
  | .post request => IdpSide idpTokenEndpoint request ∨
      Redeems codecs idpKey asIssuer asTokenEndpoint resource allowInsecure history request
  | .rename (.token place tokens) => place = endpoint ∧ Commits endpoint grantGuard history tokens
  | _ => True

end Permitted

/-- What is stored for an endpoint after some steps of a run. -/
def storedAfter (endpoint : String) (stored : Option TokenSet) (tr : EmaTrace) : Option TokenSet :=
  tr.foldl (fun stored e =>
    match e.1, e.2.written with
    | .rename (.token place tokens), .ok () => if place = endpoint then some tokens else stored
    | _, _ => stored) stored

def isIdpRefreshOp : EmaOp → Bool
  | .post request => request.isIdpRefresh
  | _ => false

def isExchangeOp : EmaOp → Bool
  | .post request => request.isExchange
  | _ => false

/-- What a part of a run does behind a history: it renews at most once and exchanges at most twice, each
step is permitted, and what it stores are the tokens it returns. -/
structure Sound (codecs : Codecs)
    (endpoint idpKey idpTokenEndpoint asIssuer asTokenEndpoint resource : String) (allowInsecure : Bool)
    (grantGuard : Option Nat) (history tr : EmaTrace) (result : Except EmaError TokenSet) : Prop where
  refreshes : (tr.countP fun e => isIdpRefreshOp e.1) ≤ 1
  exchanges : (tr.countP fun e => isExchangeOp e.1) ≤ 2
  permitted : Along (Permitted codecs endpoint idpKey idpTokenEndpoint asIssuer asTokenEndpoint resource
    allowInsecure grantGuard) history tr
  stored : ∀ stored, storedAfter endpoint stored tr = stored ∨
    ∃ tokens, result = .ok tokens ∧ storedAfter endpoint stored tr = some tokens

/-! ## Quiet parts -/

/-- Neither a request nor a move of tokens into a place. -/
def Quiet (o : EmaOp) : Prop :=
  (∀ request, o ≠ .post request) ∧ ∀ place tokens, o ≠ .rename (.token place tokens)

/-- Quiet, or a request to the identity provider with this grant. -/
def QuietBut (idpTokenEndpoint grantType : String) (o : EmaOp) : Prop :=
  Quiet o ∨ ∃ request, o = .post request ∧ request.url = idpTokenEndpoint ∧
    request.grantType = some grantType

section Quiet

theorem quiet_nowUnix : Only Quiet nowUnix := only_call (by simp [Quiet]) _

theorem quiet_save_idp (key : String) (creds : IdpCredentials) : Only Quiet (save (.idp key creds)) :=
  only_bind (only_call (by simp [Quiet]) _) fun _ =>
    only_bind (only_call (by simp [Quiet]) _) fun _ => only_call (by simp [Quiet]) _

theorem quiet_loadValid (endpoint : String) : Only Quiet (loadValid endpoint) := by
  refine only_bind (only_call (by simp [Quiet]) _) ?_
  rintro (_ | ts)
  · exact only_done _
  · dsimp only
    cases ts.expiresAt with
    | none => exact only_done _
    | some exp => exact only_bind quiet_nowUnix fun now => only_done _

theorem quiet_idTokenExpired (creds : IdpCredentials) : Only Quiet (idTokenExpired creds) := by
  unfold idTokenExpired
  cases creds.idTokenExpiresAt with
  | none => exact only_done _
  | some exp => exact only_bind quiet_nowUnix fun now => only_done _

theorem quiet_refreshedExpiry (codecs : Codecs) (idToken : String) (json : Json) :
    Only Quiet (refreshedExpiry codecs idToken json) := by
  unfold refreshedExpiry
  split
  · exact only_done _
  · exact only_bind quiet_nowUnix fun now => only_done _
  · exact only_done _

end Quiet

/-! ## The legs at the identity provider -/

variable {form : Form} {o : EmaOp} {creds : IdpCredentials} {acquired earlier tr : EmaTrace}
  {claims : Json} {tokens : TokenSet}

section Legs

variable {codecs : Codecs} {idpKey idpTokenEndpoint asIssuer resource : String}
  {resourceScope : Option String} {allowInsecure : Bool} {clientId clientSecret : Option String}

theorem quietBut_postForm {grantType : String}
    (h : EmaRequest.grantType ⟨idpTokenEndpoint, form⟩ = some grantType) :
    Only (QuietBut idpTokenEndpoint grantType) (postForm idpTokenEndpoint allowInsecure form) :=
  only_bind (only_call (.inl (by simp [Quiet])) _) fun _ => only_call (.inr ⟨_, rfl, rfl, h⟩) _

theorem quietBut_refreshAndPersist (creds : IdpCredentials) :
    Only (QuietBut idpTokenEndpoint grantTypeRefreshToken) (refreshAndPersistIdpToken codecs idpTokenEndpoint
      idpKey creds allowInsecure clientId clientSecret resourceScope) := by
  have hquiet : ∀ {α : Type} {p : EmaM α}, Only Quiet p →
      Only (QuietBut idpTokenEndpoint grantTypeRefreshToken) p := fun h => h.imp fun _ => .inl
  unfold refreshAndPersistIdpToken
  cases creds.refreshToken with
  | none => exact only_done _
  | some refreshToken =>
    apply only_bind
    · apply only_mapError
      refine only_bind (quietBut_postForm (grantType_refreshForm _ _ _ _ _)) ?_
      intro resp
      refine only_bind (only_done _) ?_
      rintro ⟨idToken, json⟩
      exact only_bind (hquiet (quiet_refreshedExpiry codecs idToken json)) fun exp => only_done _
    · intro refreshed
      refine only_bind (hquiet quiet_nowUnix) ?_
      intro obtainedAt
      exact only_bind (hquiet (quiet_save_idp _ _)) fun _ => only_done _

theorem quietBut_exchangeForIdJag (idToken : String) :
    Only (QuietBut idpTokenEndpoint grantTypeTokenExchange) (exchangeForIdJag codecs idpTokenEndpoint idToken
      asIssuer resource resourceScope allowInsecure clientId clientSecret) :=
  only_bind (quietBut_postForm (grantType_exchangeForm _ _ _ _ _ _ _)) fun _ => only_done _

/-- Requests are counted where they are posted. -/
theorem countP_requests (q : EmaRequest → Bool) (tr : EmaTrace) :
    (requests tr).countP q = tr.countP fun e => match e.1 with
      | .post request => q request
      | _ => false := by
  induction tr with
  | nil => rfl
  | cons e tr ih =>
    obtain ⟨o, answer⟩ := e
    cases o with
    | post request => simp only [requests_post, List.countP_cons, ih]
    | _ => simpa [List.countP_cons, requests_idle] using ih

theorem isIdpRefreshOp_of_quiet (h : Quiet o) : isIdpRefreshOp o = false := by
  cases o with
  | post request => exact absurd rfl (h.1 request)
  | _ => rfl

theorem isExchangeOp_of_quiet (h : Quiet o) : isExchangeOp o = false := by
  cases o with
  | post request => exact absurd rfl (h.1 request)
  | _ => rfl

theorem isExchangeOp_of_refresh (h : QuietBut idpTokenEndpoint grantTypeRefreshToken o) :
    isExchangeOp o = false := by
  obtain h | ⟨request, rfl, -, hgrant⟩ := h
  · exact isExchangeOp_of_quiet h
  · simp [isExchangeOp, EmaRequest.isExchange, hgrant, grantTypeRefreshToken, grantTypeTokenExchange]

theorem isIdpRefreshOp_of_exchange (h : QuietBut idpTokenEndpoint grantTypeTokenExchange o) :
    isIdpRefreshOp o = false := by
  obtain h | ⟨request, rfl, -, hgrant⟩ := h
  · exact isIdpRefreshOp_of_quiet h
  · simp [isIdpRefreshOp, EmaRequest.isIdpRefresh, hgrant, grantTypeRefreshToken, grantTypeTokenExchange]

theorem atMost_postForm (q : EmaOp → Bool) (hq : ∀ url insecure, q (.guard url insecure) = false)
    (url : String) (form : Form) : AtMost q 1 (postForm url allowInsecure form) := by
  rw [← Nat.zero_add 1]
  exact atMost_bind (atMost_call_of_false (hq _ _) _) fun _ => atMost_call _ _

theorem atMost_refreshAndPersist (creds : IdpCredentials) :
    AtMost isIdpRefreshOp 1 (refreshAndPersistIdpToken codecs idpTokenEndpoint idpKey creds allowInsecure
      clientId clientSecret resourceScope) := by
  have hquiet : ∀ {α : Type} {p : EmaM α}, Only Quiet p → AtMost isIdpRefreshOp 0 p :=
    fun h => atMost_zero (h.imp fun _ => isIdpRefreshOp_of_quiet)
  unfold refreshAndPersistIdpToken
  cases creds.refreshToken with
  | none => exact fun tr result h => Nat.le_succ_of_le (atMost_zero (only_done _) tr result h)
  | some refreshToken =>
    rw [← Nat.add_zero 1]
    refine atMost_bind (atMost_mapError ?_ _) fun refreshed => ?_
    · rw [← Nat.add_zero 1]
      refine atMost_bind (atMost_postForm isIdpRefreshOp (fun _ _ => rfl) _ _) fun resp => hquiet ?_
      refine only_bind (only_done _) ?_
      rintro ⟨idToken, json⟩
      exact only_bind (quiet_refreshedExpiry codecs idToken json) fun exp => only_done _
    · exact hquiet (only_bind quiet_nowUnix fun _ => only_bind (quiet_save_idp _ _) fun _ => only_done _)

theorem atMost_exchangeForIdJag (idToken : String) :
    AtMost isExchangeOp 1 (exchangeForIdJag codecs idpTokenEndpoint idToken asIssuer resource resourceScope
      allowInsecure clientId clientSecret) := by
  rw [← Nat.add_zero 1]
  exact atMost_bind (atMost_postForm isExchangeOp (fun _ _ => rfl) _ _)
    fun _ => atMost_zero (only_done _)

theorem quietBut_freshIdToken (creds : IdpCredentials) :
    Only (QuietBut idpTokenEndpoint grantTypeRefreshToken) (freshIdToken codecs idpKey idpTokenEndpoint
      resourceScope allowInsecure clientId clientSecret creds) := by
  refine only_bind ((quiet_idTokenExpired creds).imp fun _ => .inl) ?_
  rintro (_ | _)
  · exact only_done _
  · exact only_bind (quietBut_refreshAndPersist creds) fun _ => only_done _

theorem atMost_freshIdToken (creds : IdpCredentials) :
    AtMost isIdpRefreshOp 1 (freshIdToken codecs idpKey idpTokenEndpoint resourceScope allowInsecure clientId
      clientSecret creds) := by
  rw [← Nat.zero_add 1]
  refine atMost_bind (atMost_zero ((quiet_idTokenExpired creds).imp fun _ => isIdpRefreshOp_of_quiet)) ?_
  rintro (_ | _)
  · exact fun tr result h => Nat.le_succ_of_le (atMost_zero (only_done _) tr result h)
  · rw [← Nat.add_zero 1]
    exact atMost_bind (atMost_refreshAndPersist creds) fun _ => atMost_zero (only_done _)

/-- An ID token that is not renewed takes no request. -/
theorem runs_freshIdToken_unrenewed {idToken : String}
    (h : Runs (freshIdToken codecs idpKey idpTokenEndpoint resourceScope allowInsecure clientId clientSecret
      creds) tr (.ok (idToken, false))) : (tr.countP fun e => isIdpRefreshOp e.1) = 0 := by
  obtain ⟨e, -, herror⟩ | ⟨expired, tr₁, tr₂, rfl, h₁, h₂⟩ := runs_bind.mp h
  · cases herror
  · cases expired with
    | false =>
      obtain ⟨rfl, -⟩ := runs_done.mp h₂
      rw [List.append_nil, ← Nat.le_zero]
      exact atMost_zero ((quiet_idTokenExpired creds).imp fun _ => isIdpRefreshOp_of_quiet) _ _ h₁
    | true =>
      obtain ⟨e, -, herror⟩ | ⟨idToken', tr₃, tr₄, -, -, hdone⟩ := runs_bind.mp h₂
      · cases herror
      · obtain ⟨-, hresult⟩ := runs_done.mp hdone
        cases hresult

/-- Step 2 asks the identity provider only, for at most one renewal and two exchanges. -/
theorem runs_obtainIdJag {result : Except EmaError String}
    (h : Runs (obtainIdJag codecs idpKey idpTokenEndpoint asIssuer resource resourceScope allowInsecure
      clientId clientSecret creds) tr result) :
    (tr.countP fun e => isIdpRefreshOp e.1) ≤ 1 ∧ (tr.countP fun e => isExchangeOp e.1) ≤ 2 := by
  have hfresh : AtMost isExchangeOp 0 (freshIdToken codecs idpKey idpTokenEndpoint resourceScope allowInsecure
      clientId clientSecret creds) :=
    atMost_zero ((quietBut_freshIdToken creds).imp fun _ => isExchangeOp_of_refresh)
  have hrenewal : AtMost isExchangeOp 0 (refreshAndPersistIdpToken codecs idpTokenEndpoint idpKey creds
      allowInsecure clientId clientSecret resourceScope) :=
    atMost_zero ((quietBut_refreshAndPersist creds).imp fun _ => isExchangeOp_of_refresh)
  have hexchange : ∀ idToken, AtMost isIdpRefreshOp 0 (exchangeForIdJag codecs idpTokenEndpoint idToken asIssuer
      resource resourceScope allowInsecure clientId clientSecret) := fun idToken =>
    atMost_zero ((quietBut_exchangeForIdJag idToken).imp fun _ => isIdpRefreshOp_of_exchange)
  obtain ⟨e, herror, rfl⟩ | ⟨⟨idToken, refreshed⟩, tr₁, tr₂, rfl, h₁, h₂⟩ := runs_bind.mp h
  · exact ⟨atMost_freshIdToken creds _ _ herror, Nat.le_trans (hfresh _ _ herror) (Nat.zero_le 2)⟩
  · have hrefreshes₁ := atMost_freshIdToken creds _ _ h₁
    have hexchanges₁ := hfresh _ _ h₁
    obtain ⟨e, herror, rfl⟩ | ⟨exchanged, tr₃, tr₄, rfl, h₃, h₄⟩ := runs_bind.mp h₂
    · obtain ⟨r, -, hr⟩ := runs_attempt.mp herror
      cases hr
    · obtain ⟨r, h₃, hr⟩ := runs_attempt.mp h₃
      obtain rfl : exchanged = r := Except.ok.inj hr
      have hrefreshes₃ := hexchange idToken _ _ h₃
      have hexchanges₃ := atMost_exchangeForIdJag idToken _ _ h₃
      -- what follows a failed exchange is a renewal and another exchange, unless there was a renewal
      have h₄ : (refreshed = false ∧ (tr₄.countP fun e => isIdpRefreshOp e.1) ≤ 1 ∨ tr₄ = []) ∧
          (tr₄.countP fun e => isExchangeOp e.1) ≤ 1 := by
        cases exchanged with
        | ok jag =>
          obtain ⟨rfl, -⟩ := runs_done.mp h₄
          exact ⟨.inr rfl, Nat.zero_le 1⟩
        | error e =>
          dsimp only at h₄
          split at h₄
          · next hretry =>
            have hrefreshed : refreshed = false := by
              rw [Bool.and_eq_true, Bool.not_eq_true'] at hretry
              exact hretry.1
            have hone := atMost_bind (atMost_refreshAndPersist creds) hexchange _ _ h₄
            have hother := atMost_bind hrenewal atMost_exchangeForIdJag _ _ h₄
            exact ⟨.inl ⟨hrefreshed, hone⟩, by simpa using hother⟩
          · obtain ⟨rfl, -⟩ := runs_done.mp h₄
            exact ⟨.inr rfl, Nat.zero_le 1⟩
      simp only [List.countP_append]
      obtain ⟨⟨rfl, hone⟩ | rfl, hother⟩ := h₄
      · have hnone := runs_freshIdToken_unrenewed h₁
        omega
      · simp only [List.countP_nil]
        omega

/-- Quiet, or a request to the identity provider. -/
def IdpOnly (idpTokenEndpoint : String) (o : EmaOp) : Prop :=
  Quiet o ∨ ∃ request, o = .post request ∧ IdpSide idpTokenEndpoint request

theorem idpOnly_of_refresh (h : QuietBut idpTokenEndpoint grantTypeRefreshToken o) :
    IdpOnly idpTokenEndpoint o := by
  obtain h | ⟨request, rfl, hurl, hgrant⟩ := h
  · exact .inl h
  · exact .inr ⟨request, rfl, hurl, .inl (by simp [EmaRequest.isIdpRefresh, hgrant])⟩

theorem idpOnly_of_exchange (h : QuietBut idpTokenEndpoint grantTypeTokenExchange o) :
    IdpOnly idpTokenEndpoint o := by
  obtain h | ⟨request, rfl, hurl, hgrant⟩ := h
  · exact .inl h
  · exact .inr ⟨request, rfl, hurl, .inr (by simp [EmaRequest.isExchange, hgrant])⟩

theorem idpOnly_obtainIdJag (creds : IdpCredentials) :
    Only (IdpOnly idpTokenEndpoint) (obtainIdJag codecs idpKey idpTokenEndpoint asIssuer resource resourceScope
      allowInsecure clientId clientSecret creds) := by
  refine only_bind ((quietBut_freshIdToken creds).imp fun _ => idpOnly_of_refresh) ?_
  rintro ⟨idToken, refreshed⟩
  refine only_bind (only_attempt ((quietBut_exchangeForIdJag idToken).imp fun _ => idpOnly_of_exchange)) ?_
  rintro (e | jag)
  · dsimp only
    split
    · exact only_bind ((quietBut_refreshAndPersist creds).imp fun _ => idpOnly_of_refresh) fun newIdToken =>
        (quietBut_exchangeForIdJag newIdToken).imp fun _ => idpOnly_of_exchange
    · exact only_done _
  · exact only_done _

end Legs

/-! ## The checks -/

theorem requireStr_ok {field s : String} (h : requireStr claims field = .ok s) :
    text claims field = some s := by
  unfold requireStr at h
  split at h
  · next htext => rw [htext, Except.ok.inj h]
  · cases h

theorem require_ok {holds : Bool} {e : EmaError} {u : Unit} (h : require holds e = .ok u) : holds = true := by
  unfold require at h
  split at h
  · assumption
  · cases h

theorem checkIdJag_ok {codecs : Codecs} {jwt iss aud resource : String} {exp : Nat}
    (h : checkIdJag codecs jwt iss aud resource = .ok (claims, exp)) :
    decodeJwtClaims codecs jwt = .ok claims ∧ text claims "iss" = some iss ∧
      audContains (claims.get "aud") aud = true ∧ text claims "resource" = some resource ∧
      (claims.get "exp").bind Json.asU64 = some exp := by
  obtain ⟨claims', hdecode, h₁⟩ := exists_of_bind_ok h
  obtain ⟨iss', hiss, h₂⟩ := exists_of_bind_ok h₁
  obtain ⟨_, hissEq, h₃⟩ := exists_of_bind_ok h₂
  obtain ⟨_, haud, h₄⟩ := exists_of_bind_ok h₃
  obtain ⟨resource', hresource, h₅⟩ := exists_of_bind_ok h₄
  obtain ⟨_, hresourceEq, h₆⟩ := exists_of_bind_ok h₅
  obtain rfl := eq_of_beq (require_ok hissEq)
  obtain rfl := eq_of_beq (require_ok hresourceEq)
  split at h₆
  · cases h₆
  · next exp' hexp =>
    cases h₆
    exact ⟨hdecode, requireStr_ok hiss, require_ok haud, requireStr_ok hresource, hexp⟩

/-- A check that succeeds reads the clock once. -/
theorem runs_validateIdJag {codecs : Codecs} {jwt iss aud resource : String}
    {result : Except EmaError IdJagClaims}
    (h : Runs (validateIdJag codecs jwt iss aud resource) tr result) :
    (∃ e, result = .error e ∧ ∀ e ∈ tr, Quiet e.1) ∨
      ∃ clock, tr = [(.now, clock)] ∧ ValidIdJag codecs jwt iss aud resource clock.now := by
  obtain ⟨e, herror, rfl⟩ | ⟨⟨claims, exp⟩, tr₁, tr₂, rfl, hcheck, hrest⟩ := runs_bind.mp h
  · exact .inl ⟨e, rfl, only_done _ _ _ herror⟩
  · obtain ⟨rfl, hok⟩ := runs_done.mp hcheck
    obtain ⟨clock, tr₃, rfl, hclaims⟩ := runs_call_bind.mp hrest
    split at hclaims
    · obtain ⟨rfl, rfl⟩ := runs_done.mp hclaims
      exact .inl ⟨_, rfl, by simp [Quiet]⟩
    · next hexp =>
      obtain ⟨e, hsub, rfl⟩ | ⟨sub, tr₄, tr₅, rfl, hsub, hdone⟩ := runs_bind.mp hclaims
      · obtain ⟨rfl, -⟩ := runs_done.mp hsub
        exact .inl ⟨e, rfl, by simp [Quiet]⟩
      · obtain ⟨rfl, hsubOk⟩ := runs_done.mp hsub
        obtain ⟨rfl, -⟩ := runs_done.mp hdone
        obtain ⟨hdecode, hiss, haud, hresource, hexp'⟩ := checkIdJag_ok hok.symm
        exact .inr ⟨clock, rfl, claims, exp, sub, hdecode, hiss, haud, hresource, hexp',
          Nat.lt_of_not_le hexp, requireStr_ok hsubOk.symm⟩

/-! ## The redemption -/

theorem readLeg_ok {field value : String} {resp : EmaResponse} {json : Json}
    (h : readLeg field resp = .ok (value, json)) :
    isSuccess resp.status = true ∧ resp.json = .ok json ∧ text json field = some value ∧ value ≠ "" := by
  unfold readLeg at h
  split at h
  · next hstatus =>
    split at h
    · cases h
    · next json' hjson =>
      unfold requireText at h
      by_cases hempty : (text json' field).getD "" = ""
      · simp [hempty] at h
      · simp only [hempty, if_false, Except.ok.injEq, Prod.mk.injEq] at h
        obtain ⟨rfl, rfl⟩ := h
        refine ⟨hstatus, hjson, ?_, hempty⟩
        cases htext : text json' field with
        | none => simp [htext] at hempty
        | some value => rfl
  · cases h

theorem runs_postForm {url : String} {allowInsecure : Bool} {result : Except EmaError EmaResponse}
    (h : Runs (postForm url allowInsecure form) tr result) :
    (∃ guarded e, tr = [(.guard url allowInsecure, guarded)] ∧ result = .error e) ∨
      ∃ guarded answer, tr = [(.guard url allowInsecure, guarded), (.post ⟨url, form⟩, answer)] ∧
        result = answer.response.mapError .http := by
  obtain ⟨e, hguard, rfl⟩ | ⟨_, tr₁, tr₂, rfl, hguard, hpost⟩ := runs_bind.mp h
  · obtain ⟨guarded, rfl, -⟩ := runs_call.mp hguard
    exact .inl ⟨guarded, e, rfl, rfl⟩
  · obtain ⟨guarded, rfl, -⟩ := runs_call.mp hguard
    obtain ⟨answer, rfl, rfl⟩ := runs_call.mp hpost
    exact .inr ⟨guarded, answer, rfl, rfl⟩

section Redemption

variable {url idJag : String} {scope clientId clientSecret : Option String} {allowInsecure : Bool}
  {tr : EmaTrace} {result : Except EmaError TokenSet}

/-- A redemption may fail at the guard, or after its post, and reads the clock in the end. -/
theorem runs_redeemIdJag
    (h : Runs (redeemIdJag url idJag scope allowInsecure clientId clientSecret) tr result) :
    (∃ e guarded, result = .error e ∧ tr = [(.guard url allowInsecure, guarded)]) ∨
    ∃ guarded answer rest, tr = (.guard url allowInsecure, guarded) ::
        (.post ⟨url, buildJwtBearerForm idJag scope clientId clientSecret⟩, answer) :: rest ∧
      ((∃ e, result = .error e ∧ rest = []) ∨
        ∃ clock tokens, result = .ok tokens ∧ rest = [(.now, clock)] ∧ Minted answer clock tokens) := by
  obtain ⟨e, herror, rfl⟩ | ⟨resp, tr₁, tr₂, rfl, hpost, hrest⟩ := runs_bind.mp h
  · obtain ⟨guarded, -, rfl, -⟩ | ⟨guarded, answer, rfl, -⟩ := runs_postForm herror
    · exact .inl ⟨e, guarded, rfl, rfl⟩
    · exact .inr ⟨guarded, answer, [], rfl, .inl ⟨e, rfl, rfl⟩⟩
  · obtain ⟨_, e, -, hresp⟩ | ⟨guarded, answer, rfl, hresp⟩ := runs_postForm hpost
    · cases hresp
    · refine .inr ⟨guarded, answer, tr₂, rfl, ?_⟩
      obtain ⟨e, herror, rfl⟩ | ⟨⟨accessToken, json⟩, tr₃, tr₄, rfl, hread, hlast⟩ := runs_bind.mp hrest
      · obtain ⟨rfl, -⟩ := runs_done.mp herror
        exact .inl ⟨e, rfl, rfl⟩
      · obtain ⟨rfl, hleg⟩ := runs_done.mp hread
        obtain ⟨clock, tr₅, rfl, hdone⟩ := runs_call_bind.mp hlast
        obtain ⟨rfl, rfl⟩ := runs_done.mp hdone
        obtain ⟨hstatus, hjson, htext, hne⟩ := readLeg_ok hleg.symm
        have hanswer : answer.response = .ok resp := by
          cases hr : answer.response with
          | error e => simp [hr, Except.mapError] at hresp
          | ok resp' =>
            rw [hr] at hresp
            rw [Except.ok.inj hresp]
        exact .inr ⟨clock, _, rfl, rfl, resp, json, hanswer, hstatus, hjson, htext, hne, rfl⟩

end Redemption

/-! ## The save of what was minted -/

theorem quiet_of_underGuard {grantGuard : Option Nat} (h : UnderGuard grantGuard acquired) :
    ∀ e ∈ acquired, Quiet e.1 := by
  cases grantGuard with
  | none =>
    rw [show acquired = [] from h]
    simp
  | some expectedEpoch =>
    obtain ⟨locked, epoch, rfl, -⟩ := h
    simp [Quiet]

/-- The save of minted tokens is given up in an epoch that is not expected, or it is made with the lock
held. -/
theorem runs_persist {endpoint : String} {grantGuard : Option Nat} {result : Except EmaError Unit}
    (h : Runs (persist endpoint tokens grantGuard) tr result) :
    (∃ e, result = .error e ∧ ∀ e ∈ tr, Quiet e.1) ∨
      ∃ acquired saved released, tr = acquired ++ (saved ++ released) ∧ UnderGuard grantGuard acquired ∧
        Runs (save (.token endpoint tokens)) saved result ∧ ∀ e ∈ released, Quiet e.1 := by
  cases grantGuard with
  | none => exact .inr ⟨[], tr, [], by simp, rfl, h, by simp⟩
  | some expectedEpoch =>
    obtain ⟨locked, tr₁, rfl, hlocked⟩ := runs_call_bind.mp h
    obtain ⟨r, tr₂, tr₃, rfl, hguarded, hrelease⟩ := runs_attempt_bind.mp hlocked
    obtain ⟨unlocked, tr₄, rfl, hdone⟩ := runs_call_bind.mp hrelease
    obtain ⟨rfl, rfl⟩ := runs_done.mp hdone
    obtain ⟨epoch, tr₅, rfl, hsave⟩ := runs_call_bind.mp hguarded
    split at hsave
    · obtain ⟨rfl, rfl⟩ := runs_done.mp hsave
      exact .inl ⟨_, rfl, by simp [Quiet]⟩
    · next hexpected =>
      exact .inr ⟨[(.lockApply, locked), (.readEpoch, epoch)], tr₅, [(.unlockApply, unlocked)], by simp,
        ⟨locked, epoch, rfl, (not_not.mp hexpected).symm⟩, hsave, by simp [Quiet]⟩

/-- A save may fail at each of its steps. -/
theorem runs_save {file : EmaFile} {result : Except EmaError Unit} (h : Runs (save file) tr result) :
    (∃ e, result = .error e ∧ ∀ e ∈ tr, e.1 = .writeTmp file ∨ e.1 = .setPermissions file) ∨
      ∃ written permitted moved, tr = [(.writeTmp file, written), (.setPermissions file, permitted),
        (.rename file, moved)] ∧ result = moved.written.mapError .storage := by
  obtain ⟨e, hwrite, rfl⟩ | ⟨_, tr₁, tr₂, rfl, hwrite, hrest⟩ := runs_bind.mp h
  · obtain ⟨written, rfl, -⟩ := runs_call.mp hwrite
    exact .inl ⟨e, rfl, by simp⟩
  · obtain ⟨written, rfl, -⟩ := runs_call.mp hwrite
    obtain ⟨e, hset, rfl⟩ | ⟨_, tr₃, tr₄, rfl, hset, hmove⟩ := runs_bind.mp hrest
    · obtain ⟨permitted, rfl, -⟩ := runs_call.mp hset
      exact .inl ⟨e, rfl, by simp⟩
    · obtain ⟨permitted, rfl, -⟩ := runs_call.mp hset
      obtain ⟨moved, rfl, rfl⟩ := runs_call.mp hmove
      exact .inr ⟨written, permitted, moved, rfl, rfl⟩

/-! ## What is stored -/

section Stored

variable {endpoint : String} {stored : Option TokenSet} {tr tr' : EmaTrace}

theorem storedAfter_append :
    storedAfter endpoint stored (tr ++ tr') = storedAfter endpoint (storedAfter endpoint stored tr) tr' :=
  List.foldl_append

/-- Nothing is stored without a move of tokens into a place. -/
theorem storedAfter_of_keeps (h : ∀ e ∈ tr, ∀ place tokens, e.1 ≠ .rename (.token place tokens)) :
    storedAfter endpoint stored tr = stored := by
  unfold storedAfter
  induction tr with
  | nil => rfl
  | cons e tr ih =>
    rw [List.foldl_cons]
    split
    · next hop _ => exact absurd hop (h e (by simp) _ _)
    · exact ih fun e' he' => h e' (List.mem_cons_of_mem _ he')

theorem storedAfter_of_quiet (h : ∀ e ∈ tr, Quiet e.1) : storedAfter endpoint stored tr = stored :=
  storedAfter_of_keeps fun e he => (h e he).2

theorem storedAfter_of_idpOnly {idpTokenEndpoint : String} (h : ∀ e ∈ tr, IdpOnly idpTokenEndpoint e.1) :
    storedAfter endpoint stored tr = stored := by
  apply storedAfter_of_keeps
  intro e he place tokens heq
  obtain hquiet | ⟨request, hpost, -⟩ := h e he
  · exact hquiet.2 place tokens heq
  · rw [hpost] at heq
    cases heq

/-- What is stored differs only by tokens that were moved into the place. -/
theorem storedAfter_cases (tr : EmaTrace) (stored : Option TokenSet) :
    storedAfter endpoint stored tr = stored ∨
      ∃ earlier tokens moved later, tr = earlier ++ (.rename (.token endpoint tokens), moved) :: later ∧
        moved.written = .ok () ∧ storedAfter endpoint stored tr = some tokens := by
  induction tr generalizing stored with
  | nil => exact .inl rfl
  | cons e tr ih =>
    obtain hsame | ⟨earlier, tokens, moved, later, rfl, hmoved, hstored⟩ :=
        ih (storedAfter endpoint stored [e])
    · change storedAfter endpoint stored (e :: tr) = _ at hsame
      by_cases hkept : storedAfter endpoint stored [e] = stored
      · exact .inl (hsame.trans hkept)
      · obtain ⟨o, answer⟩ := e
        right
        unfold storedAfter at hkept
        simp only [List.foldl_cons, List.foldl_nil] at hkept
        split at hkept
        · next _ _ place tokens hwritten =>
          split at hkept
          · next hplace =>
            subst hplace
            refine ⟨[], tokens, answer, tr, rfl, hwritten, hsame.trans ?_⟩
            simp [storedAfter, hwritten]
          · exact absurd rfl hkept
        · exact absurd rfl hkept
    · exact .inr ⟨e :: earlier, tokens, moved, later, rfl, hmoved, hstored⟩

/-- A save stores its tokens when it succeeds, and nothing when it fails. -/
theorem storedAfter_save {result : Except EmaError Unit}
    (h : Runs (save (.token endpoint tokens)) tr result) :
    storedAfter endpoint stored tr = if result = .ok () then some tokens else stored := by
  obtain ⟨e, rfl, hsteps⟩ | ⟨written, permitted, moved, rfl, rfl⟩ := runs_save h
  · rw [if_neg (by simp)]
    apply storedAfter_of_keeps
    intro e he place tokens' heq
    obtain h | h := hsteps e he
    · rw [h] at heq
      cases heq
    · rw [h] at heq
      cases heq
  · cases hmoved : moved.written with
    | error e => simp [storedAfter, hmoved, Except.mapError]
    | ok u => simp [storedAfter, hmoved, Except.mapError]

end Stored

/-! ## The run as a whole -/

section Run

variable {codecs : Codecs} {endpoint idpKey idpTokenEndpoint asIssuer asTokenEndpoint resource : String}
  {allowInsecure : Bool} {grantGuard : Option Nat} {history tr : EmaTrace}

theorem permitted_of_idpOnly {e : EmaOp × EmaAnswer} (h : IdpOnly idpTokenEndpoint e.1)
    (history : EmaTrace) :
    Permitted codecs endpoint idpKey idpTokenEndpoint asIssuer asTokenEndpoint resource allowInsecure
      grantGuard history e := by
  obtain ⟨o, answer⟩ := e
  obtain ⟨hpost, hrename⟩ | ⟨request, rfl, hidp⟩ := h
  · unfold Permitted
    split
    · next request heq => exact absurd heq (hpost request)
    · next place tokens heq => exact absurd heq (hrename place tokens)
    · trivial
  · exact .inl hidp

theorem along_of_quiet (h : ∀ e ∈ tr, Quiet e.1) :
    Along (Permitted codecs endpoint idpKey idpTokenEndpoint asIssuer asTokenEndpoint resource allowInsecure
      grantGuard) history tr :=
  along_of_forall fun e he => permitted_of_idpOnly (.inl (h e he))

/-- The save of what has just been minted is permitted. -/
theorem along_save {request : EmaRequest} {redeemed clock : EmaAnswer} {result : Except EmaError Unit}
    (hrequest : request.isRedemption = true) (hminted : Minted redeemed clock tokens)
    (hguard : UnderGuard grantGuard acquired)
    (hhistory : history = earlier ++ [(.post request, redeemed), (.now, clock)] ++ acquired)
    (h : Runs (save (.token endpoint tokens)) tr result) :
    Along (Permitted codecs endpoint idpKey idpTokenEndpoint asIssuer asTokenEndpoint resource allowInsecure
      grantGuard) history tr := by
  obtain ⟨e, -, hsteps⟩ | ⟨written, permitted, moved, rfl, -⟩ := runs_save h
  · apply along_of_quiet
    intro e he
    obtain h | h := hsteps e he
    · simp [h, Quiet]
    · simp [h, Quiet]
  · rw [along_cons, along_cons, along_cons]
    refine ⟨trivial, trivial, ⟨rfl, ?_⟩, along_nil _⟩
    refine ⟨earlier, request, redeemed, clock, acquired, written, permitted, hrequest, hminted, hguard, ?_⟩
    rw [hhistory]
    simp

theorem runs_persist_minted {earlier : EmaTrace} {request : EmaRequest} {redeemed clock : EmaAnswer}
    {tokens : TokenSet} {result : Except EmaError Unit} (hrequest : request.isRedemption = true)
    (hminted : Minted redeemed clock tokens)
    (hhistory : history = earlier ++ [(.post request, redeemed), (.now, clock)])
    (h : Runs (persist endpoint tokens grantGuard) tr result) :
    Along (Permitted codecs endpoint idpKey idpTokenEndpoint asIssuer asTokenEndpoint resource allowInsecure
        grantGuard) history tr ∧
      ∀ stored, storedAfter endpoint stored tr = if result = .ok () then some tokens else stored := by
  obtain ⟨e, rfl, hquiet⟩ | ⟨acquired, saved, released, rfl, hguard, hsave, hreleased⟩ := runs_persist h
  · exact ⟨along_of_quiet hquiet, fun stored => by simp [storedAfter_of_quiet hquiet]⟩
  · have hacquired := quiet_of_underGuard hguard
    rw [along_append, along_append]
    refine ⟨⟨along_of_quiet hacquired, along_save hrequest hminted hguard (by rw [hhistory]) hsave,
      along_of_quiet hreleased⟩, fun stored => ?_⟩
    rw [storedAfter_append, storedAfter_append, storedAfter_of_quiet hacquired, storedAfter_save hsave,
      storedAfter_of_quiet hreleased]

/-- What is asked besides renewals and exchanges. -/
def NoneOfStep2 (o : EmaOp) : Prop := isIdpRefreshOp o = false ∧ isExchangeOp o = false

theorem noneOfStep2_of_quiet (h : Quiet o) : NoneOfStep2 o :=
  ⟨isIdpRefreshOp_of_quiet h, isExchangeOp_of_quiet h⟩

theorem countP_eq_zero_of_none (h : ∀ e ∈ tr, NoneOfStep2 e.1) :
    (tr.countP fun e => isIdpRefreshOp e.1) = 0 ∧ (tr.countP fun e => isExchangeOp e.1) = 0 := by
  rw [List.countP_eq_zero, List.countP_eq_zero]
  exact ⟨fun e he => by simp [(h e he).1], fun e he => by simp [(h e he).2]⟩

theorem noneOfStep2_redeem (idJag : String) (scope clientId clientSecret : Option String) :
    Only NoneOfStep2 (redeemIdJag asTokenEndpoint idJag scope allowInsecure clientId clientSecret) := by
  refine only_bind (only_bind (only_call (noneOfStep2_of_quiet (by simp [Quiet])) _)
    fun _ => only_call ?_ _) fun resp => ?_
  · simp [NoneOfStep2, isIdpRefreshOp, isExchangeOp, EmaRequest.isIdpRefresh, EmaRequest.isExchange,
      grantTypeJwtBearer, grantTypeRefreshToken, grantTypeTokenExchange]
  · refine only_bind (only_done _) ?_
    rintro ⟨accessToken, json⟩
    exact only_bind (quiet_nowUnix.imp fun _ => noneOfStep2_of_quiet) fun _ => only_done _

theorem noneOfStep2_save (file : EmaFile) : Only NoneOfStep2 (save file) :=
  only_bind (only_call ⟨rfl, rfl⟩ _) fun _ => only_bind (only_call ⟨rfl, rfl⟩ _) fun _ =>
    only_call ⟨rfl, rfl⟩ _

theorem noneOfStep2_persist (tokens : TokenSet) (grantGuard : Option Nat) :
    Only NoneOfStep2 (persist endpoint tokens grantGuard) := by
  cases grantGuard with
  | none => exact noneOfStep2_save _
  | some expectedEpoch =>
    refine only_bind (only_call ⟨rfl, rfl⟩ _) fun _ => only_bind (only_attempt ?_) fun _ =>
      only_bind (only_call ⟨rfl, rfl⟩ _) fun _ => only_done _
    refine only_bind (only_call ⟨rfl, rfl⟩ _) fun epoch => ?_
    split
    · exact only_done _
    · exact noneOfStep2_save _

/-- What follows the checks: the redemption of what passed them, and the save of what it returns. -/
theorem runs_redeemAndPersist {idJag : String} {scope clientId clientSecret : Option String}
    {loaded clock : EmaAnswer} {result : Except EmaError TokenSet}
    (hhistory : history = earlier ++ [(.now, clock)])
    (hloaded : (EmaOp.loadIdp idpKey, loaded) ∈ earlier) (hcreds : loaded.loadedIdp = .ok (some creds))
    (hvalid : ValidIdJag codecs idJag creds.idpIssuer asIssuer resource clock.now) (h : Runs (do
      let tokenSet ← redeemIdJag asTokenEndpoint idJag scope allowInsecure clientId clientSecret
      persist endpoint tokenSet grantGuard
      return tokenSet) tr result) :
    Along (Permitted codecs endpoint idpKey idpTokenEndpoint asIssuer asTokenEndpoint resource allowInsecure
        grantGuard) history tr ∧
      ∀ stored, storedAfter endpoint stored tr = result.toOption.or stored := by
  have hpost : ∀ guarded answer, Permitted codecs endpoint idpKey idpTokenEndpoint asIssuer asTokenEndpoint
      resource allowInsecure grantGuard (history ++ [(.guard asTokenEndpoint allowInsecure, guarded)])
      (.post ⟨asTokenEndpoint, buildJwtBearerForm idJag scope clientId clientSecret⟩, answer) := by
    intro guarded answer
    refine .inr ⟨idJag, scope, clientId, clientSecret, earlier, loaded, creds, clock, guarded, rfl, ?_,
      hloaded, hcreds, hvalid⟩
    rw [hhistory]
    simp
  obtain ⟨e, herror, rfl⟩ | ⟨tokens, tr₁, tr₂, rfl, hredeem, hrest⟩ := runs_bind.mp h
  · obtain ⟨e, guarded, -, rfl⟩ | ⟨guarded, answer, rest, rfl, hend⟩ := runs_redeemIdJag herror
    · exact ⟨along_of_quiet (by simp [Quiet]), fun stored => rfl⟩
    · obtain ⟨e, -, rfl⟩ | ⟨clock', tokens, hok, -⟩ := hend
      · rw [along_cons, along_cons]
        exact ⟨⟨trivial, hpost guarded answer, along_nil _⟩, fun stored => rfl⟩
      · cases hok
  · obtain ⟨e, guarded, herror, -⟩ | ⟨guarded, answer, rest, rfl, hend⟩ := runs_redeemIdJag hredeem
    · cases herror
    obtain ⟨e, herror, -⟩ | ⟨clock', tokens', hok, rfl, hminted⟩ := hend
    · cases herror
    obtain rfl := Except.ok.inj hok
    -- the save, and what it makes of the result
    obtain ⟨saved, hpersist, hresult⟩ : ∃ saved, Runs (persist endpoint tokens grantGuard) tr₂ saved ∧
        result = saved.map fun _ => tokens := by
      obtain ⟨e, herror, rfl⟩ | ⟨_, tr₃, tr₄, rfl, hsave, hdone⟩ := runs_bind.mp hrest
      · exact ⟨.error e, herror, rfl⟩
      · obtain ⟨rfl, rfl⟩ := runs_done.mp hdone
        exact ⟨.ok (), by simpa using hsave, rfl⟩
    have hrequest : EmaRequest.isRedemption
        ⟨asTokenEndpoint, buildJwtBearerForm idJag scope clientId clientSecret⟩ = true := by
      simp [EmaRequest.isRedemption]
    have hbefore : history ++ [(.guard asTokenEndpoint allowInsecure, guarded),
          (.post ⟨asTokenEndpoint, buildJwtBearerForm idJag scope clientId clientSecret⟩, answer),
          (.now, clock')] =
        (history ++ [(.guard asTokenEndpoint allowInsecure, guarded)]) ++
          [(.post ⟨asTokenEndpoint, buildJwtBearerForm idJag scope clientId clientSecret⟩, answer),
          (.now, clock')] := by simp
    have hsound := @runs_persist_minted codecs endpoint idpKey idpTokenEndpoint asIssuer asTokenEndpoint
      resource allowInsecure grantGuard _ _ _ _ _ _ _ _ hrequest hminted hbefore hpersist
    obtain ⟨halong, hstored⟩ := hsound
    rw [along_append, along_cons, along_cons, along_cons]
    refine ⟨⟨⟨trivial, hpost guarded answer, trivial, along_nil _⟩, halong⟩, fun stored => ?_⟩
    rw [storedAfter_append, hstored, hresult]
    cases saved with
    | error e => rfl
    | ok u => rfl

theorem runs_loadCreds {result : Except EmaError IdpCredentials} (h : Runs (loadCreds idpKey) tr result) :
    ∃ loaded, tr = [(.loadIdp idpKey, loaded)] ∧
      ∀ creds, result = .ok creds → loaded.loadedIdp = .ok (some creds) := by
  obtain ⟨loaded, rfl, rfl⟩ := runs_call.mp h
  refine ⟨loaded, rfl, fun creds hok => ?_⟩
  split at hok
  · cases hok
  · cases hok
  · next creds' hloaded => rw [hloaded, Except.ok.inj hok]

theorem sound_of_quiet {result : Except EmaError TokenSet} (h : ∀ e ∈ tr, Quiet e.1) :
    Sound codecs endpoint idpKey idpTokenEndpoint asIssuer asTokenEndpoint resource allowInsecure grantGuard
      history tr result where
  refreshes := by
    rw [(countP_eq_zero_of_none fun e he => noneOfStep2_of_quiet (h e he)).1]
    exact Nat.zero_le 1
  exchanges := by
    rw [(countP_eq_zero_of_none fun e he => noneOfStep2_of_quiet (h e he)).2]
    exact Nat.zero_le 2
  permitted := along_of_quiet h
  stored := fun _ => .inl (storedAfter_of_quiet h)

/-- Quiet steps before and after what is sound. -/
theorem Sound.quietly {before after : EmaTrace} {result : Except EmaError TokenSet}
    (h : Sound codecs endpoint idpKey idpTokenEndpoint asIssuer asTokenEndpoint resource allowInsecure
      grantGuard (history ++ before) tr result)
    (hbefore : ∀ e ∈ before, Quiet e.1) (hafter : ∀ e ∈ after, Quiet e.1) :
    Sound codecs endpoint idpKey idpTokenEndpoint asIssuer asTokenEndpoint resource allowInsecure grantGuard
      history (before ++ (tr ++ after)) result where
  refreshes := by
    rw [List.countP_append, List.countP_append,
      (countP_eq_zero_of_none fun e he => noneOfStep2_of_quiet (hbefore e he)).1,
      (countP_eq_zero_of_none fun e he => noneOfStep2_of_quiet (hafter e he)).1, Nat.zero_add]
    exact h.refreshes
  exchanges := by
    rw [List.countP_append, List.countP_append,
      (countP_eq_zero_of_none fun e he => noneOfStep2_of_quiet (hbefore e he)).2,
      (countP_eq_zero_of_none fun e he => noneOfStep2_of_quiet (hafter e he)).2, Nat.zero_add]
    exact h.exchanges
  permitted := by
    rw [along_append, along_append]
    exact ⟨along_of_quiet hbefore, h.permitted, along_of_quiet hafter⟩
  stored := by
    intro stored
    rw [storedAfter_append, storedAfter_append, storedAfter_of_quiet hbefore, storedAfter_of_quiet hafter]
    exact h.stored stored

/-- Behind step 2 there is neither a renewal nor an exchange. -/
theorem sound_of_step2 {obtained later : EmaTrace} {result : Except EmaError TokenSet}
    (honly : ∀ e ∈ obtained, IdpOnly idpTokenEndpoint e.1)
    (hcounts : (obtained.countP fun e => isIdpRefreshOp e.1) ≤ 1 ∧
      (obtained.countP fun e => isExchangeOp e.1) ≤ 2)
    (hnone : ∀ e ∈ later, NoneOfStep2 e.1)
    (halong : Along (Permitted codecs endpoint idpKey idpTokenEndpoint asIssuer asTokenEndpoint resource
      allowInsecure grantGuard) (history ++ obtained) later)
    (hstored : ∀ stored, storedAfter endpoint stored later = result.toOption.or stored) :
    Sound codecs endpoint idpKey idpTokenEndpoint asIssuer asTokenEndpoint resource allowInsecure grantGuard
      history (obtained ++ later) result where
  refreshes := by
    rw [List.countP_append, (countP_eq_zero_of_none hnone).1]
    exact hcounts.1
  exchanges := by
    rw [List.countP_append, (countP_eq_zero_of_none hnone).2]
    exact hcounts.2
  permitted := by
    rw [along_append]
    exact ⟨along_of_forall fun e he => permitted_of_idpOnly (honly e he), halong⟩
  stored := by
    intro stored
    rw [storedAfter_append, storedAfter_of_idpOnly honly, hstored]
    cases result with
    | error e => exact .inl rfl
    | ok tokens => exact .inr ⟨tokens, rfl, rfl⟩

/-- The chain behind the two looks at the stored tokens. -/
theorem sound_mint {resourceScope clientId clientSecret resourceClientId resourceClientSecret : Option String}
    {result : Except EmaError TokenSet}
    (h : Runs (mint codecs endpoint idpKey idpTokenEndpoint asIssuer asTokenEndpoint resource resourceScope
      allowInsecure clientId clientSecret resourceClientId resourceClientSecret grantGuard) tr result) :
    Sound codecs endpoint idpKey idpTokenEndpoint asIssuer asTokenEndpoint resource allowInsecure grantGuard
      history tr result := by
  obtain ⟨e, herror, rfl⟩ | ⟨creds, tr₁, tr₂, rfl, hload, hrest⟩ := runs_bind.mp h
  · obtain ⟨loaded, rfl, -⟩ := runs_loadCreds herror
    exact sound_of_quiet (by simp [Quiet])
  obtain ⟨loaded, rfl, hloaded⟩ := runs_loadCreds hload
  have hload : ∀ e ∈ [(EmaOp.loadIdp idpKey, loaded)], Quiet e.1 := by simp [Quiet]
  rw [← List.append_nil tr₂]
  refine Sound.quietly ?_ hload (by simp)
  obtain ⟨e, herror, rfl⟩ | ⟨idJag, obtained, tr₃, rfl, hobtain, hchecked⟩ := runs_bind.mp hrest
  · rw [← List.append_nil tr₂]
    exact sound_of_step2 (idpOnly_obtainIdJag creds _ _ herror) (runs_obtainIdJag herror) (by simp)
      (along_nil _) fun stored => rfl
  have hstep2 := @sound_of_step2 codecs endpoint idpKey idpTokenEndpoint asIssuer asTokenEndpoint resource
    allowInsecure grantGuard (history ++ [(.loadIdp idpKey, loaded)]) obtained tr₃ result
    (idpOnly_obtainIdJag creds _ _ hobtain) (runs_obtainIdJag hobtain)
  obtain ⟨e, herror, rfl⟩ | ⟨claims, tr₄, tr₅, rfl, hvalidate, htail⟩ := runs_bind.mp hchecked
  · have hquiet : ∀ e ∈ tr₃, Quiet e.1 := by
      obtain ⟨-, -, hquiet⟩ | ⟨clock, rfl, -⟩ := runs_validateIdJag herror
      · exact hquiet
      · simp [Quiet]
    exact hstep2 (fun e he => noneOfStep2_of_quiet (hquiet e he)) (along_of_quiet hquiet)
      fun stored => storedAfter_of_quiet hquiet
  · obtain ⟨e, herror, -⟩ | ⟨clock, rfl, hvalid⟩ := runs_validateIdJag hvalidate
    · cases herror
    have hbefore : (EmaOp.loadIdp idpKey, loaded) ∈
        history ++ [(.loadIdp idpKey, loaded)] ++ obtained := by simp
    obtain ⟨halong, hstored⟩ := runs_redeemAndPersist rfl hbefore (hloaded creds rfl) hvalid htail
    apply hstep2
    · intro e he
      obtain he | he := List.mem_append.mp he
      · rw [List.mem_singleton.mp he]
        exact ⟨rfl, rfl⟩
      · exact (only_bind (noneOfStep2_redeem _ _ _ _) fun tokens =>
          only_bind (noneOfStep2_persist tokens grantGuard) fun _ => only_done _) _ _ htail e he
    · rw [along_append]
      exact ⟨along_of_quiet (by simp [Quiet]), halong⟩
    · intro stored
      rw [storedAfter_append, hstored]
      rfl

theorem sound_ensureAccessToken
    {resourceScope clientId clientSecret resourceClientId resourceClientSecret : Option String}
    {result : Except EmaError TokenSet}
    (h : Runs (ensureAccessToken codecs endpoint idpKey idpTokenEndpoint asIssuer asTokenEndpoint resource
      resourceScope allowInsecure clientId clientSecret resourceClientId resourceClientSecret grantGuard) tr
      result) :
    Sound codecs endpoint idpKey idpTokenEndpoint asIssuer asTokenEndpoint resource allowInsecure grantGuard
      history tr result := by
  obtain ⟨e, herror, rfl⟩ | ⟨valid, tr₁, tr₂, rfl, hlook, hrest⟩ := runs_bind.mp h
  · exact sound_of_quiet (quiet_loadValid endpoint _ _ herror)
  have hquiet := quiet_loadValid endpoint _ _ hlook
  cases valid with
  | some ts =>
    obtain ⟨rfl, rfl⟩ := runs_done.mp hrest
    rw [List.append_nil]
    exact sound_of_quiet hquiet
  | none =>
    obtain ⟨locked, tr₃, rfl, hlocked⟩ := runs_call_bind.mp hrest
    obtain ⟨ensured, tr₄, tr₅, rfl, hagain, hrelease⟩ := runs_attempt_bind.mp hlocked
    obtain ⟨unlocked, tr₆, rfl, hdone⟩ := runs_call_bind.mp hrelease
    obtain ⟨rfl, rfl⟩ := runs_done.mp hdone
    have hlocked : ∀ e ∈ tr₁ ++ [(.lockRefresh, locked)], Quiet e.1 := by
      intro e he
      obtain he | he := List.mem_append.mp he
      · exact hquiet e he
      · rw [List.mem_singleton.mp he]
        simp [Quiet]
    have hunlocked : ∀ e ∈ [(EmaOp.unlockRefresh, unlocked)], Quiet e.1 := by simp [Quiet]
    rw [← List.singleton_append, ← List.append_assoc]
    refine Sound.quietly ?_ hlocked hunlocked
    obtain ⟨e, herror, rfl⟩ | ⟨valid, tr₇, tr₈, rfl, hlook', hchain⟩ := runs_bind.mp hagain
    · exact sound_of_quiet (quiet_loadValid endpoint _ _ herror)
    have hquiet' := quiet_loadValid endpoint _ _ hlook'
    cases valid with
    | some ts =>
      obtain ⟨rfl, rfl⟩ := runs_done.mp hchain
      rw [List.append_nil]
      exact sound_of_quiet hquiet'
    | none =>
      rw [← List.append_nil tr₈]
      exact (sound_mint hchain).quietly hquiet' (by simp)

end Run

end EndaraRelay.Ema
