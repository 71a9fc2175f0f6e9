import EndaraRelay.OAuth.EmaChain

/-!
# Each secret to its own server

The chain is given two pairs of client credentials: one for the identity provider, one for the resource
authorization server. Where the second has no id, the redemption identifies itself with the id of the
first.

**Theorem (`secrets_stay_apart`).** Every request is a redemption at the resource authorization server or
goes to the identity provider. Two runs with the same answers redeem with the same requests whatever the
first secret is, and send the same requests to the identity provider whatever the second one is.

Both come from one relation between programs (`Routed`), which a run with any two pairs of secrets is in
with a run with any other two.
-/

namespace EndaraRelay.Ema

open Verif

/-! ## Two runs side by side -/

/-- Two runs ask the same, but for requests to the identity provider unless `sameClient`, and redemptions
unless `sameResource`. -/
inductive Routed (idpTokenEndpoint asTokenEndpoint : String) (sameClient sameResource : Prop) :
    EmaOp → EmaOp → Prop where
  | idle (o : EmaOp) (h : ∀ request, o ≠ .post request) :
    Routed idpTokenEndpoint asTokenEndpoint sameClient sameResource o o
  | idp (form form' : Form) (h : EmaRequest.isRedemption ⟨idpTokenEndpoint, form⟩ = false)
      (h' : EmaRequest.isRedemption ⟨idpTokenEndpoint, form'⟩ = false) (same : sameClient → form = form') :
    Routed idpTokenEndpoint asTokenEndpoint sameClient sameResource
      (.post ⟨idpTokenEndpoint, form⟩) (.post ⟨idpTokenEndpoint, form'⟩)
  | resource (form form' : Form) (h : EmaRequest.isRedemption ⟨asTokenEndpoint, form⟩ = true)
      (h' : EmaRequest.isRedemption ⟨asTokenEndpoint, form'⟩ = true) (same : sameResource → form = form') :
    Routed idpTokenEndpoint asTokenEndpoint sameClient sameResource
      (.post ⟨asTokenEndpoint, form⟩) (.post ⟨asTokenEndpoint, form'⟩)

/-! ## The operations of the chain -/

section Operations

variable {idpTokenEndpoint asTokenEndpoint : String} {sameClient sameResource : Prop}

theorem alike_idle {α : Type} {o : EmaOp} (h : ∀ request, o ≠ .post request)
    (read : EmaAnswer → Except EmaError α) :
    Prog.Alike (Routed idpTokenEndpoint asTokenEndpoint sameClient sameResource) (.call o read)
      (.call o read) :=
  .call (.idle o h) read

theorem alike_done {α : Type} (result : Except EmaError α) :
    Prog.Alike (Routed idpTokenEndpoint asTokenEndpoint sameClient sameResource)
      (Prog.done result : EmaM α) (Prog.done result) := .done result

theorem alike_nowUnix :
    Prog.Alike (Routed idpTokenEndpoint asTokenEndpoint sameClient sameResource) nowUnix nowUnix :=
  alike_idle (by simp) _

theorem alike_save (file : EmaFile) :
    Prog.Alike (Routed idpTokenEndpoint asTokenEndpoint sameClient sameResource) (save file) (save file) :=
  .bind (alike_idle (by simp) _) fun _ => .bind (alike_idle (by simp) _) fun _ => alike_idle (by simp) _

theorem alike_postForm {url : String} {form form' : Form}
    (h : Routed idpTokenEndpoint asTokenEndpoint sameClient sameResource (.post ⟨url, form⟩)
      (.post ⟨url, form'⟩)) (allowInsecure : Bool) :
    Prog.Alike (Routed idpTokenEndpoint asTokenEndpoint sameClient sameResource)
      (postForm url allowInsecure form) (postForm url allowInsecure form') :=
  .bind (alike_idle (by simp) _) fun _ => .call h _

theorem alike_loadValid (endpoint : String) :
    Prog.Alike (Routed idpTokenEndpoint asTokenEndpoint sameClient sameResource) (loadValid endpoint)
      (loadValid endpoint) := by
  apply Prog.Alike.bind (alike_idle (by simp) _)
  rintro (_ | ts)
  · exact alike_done _
  · dsimp only
    cases ts.expiresAt with
    | none => exact alike_done _
    | some exp => exact .bind alike_nowUnix fun now => alike_done _

theorem alike_validateIdJag (codecs : Codecs) (jwt iss aud resource : String) :
    Prog.Alike (Routed idpTokenEndpoint asTokenEndpoint sameClient sameResource)
      (validateIdJag codecs jwt iss aud resource) (validateIdJag codecs jwt iss aud resource) := by
  apply Prog.Alike.bind (alike_done _)
  rintro ⟨claims, exp⟩
  apply Prog.Alike.bind alike_nowUnix
  intro now
  split
  · exact alike_done _
  · exact .bind (alike_done _) fun sub => alike_done _

theorem alike_persist (endpoint : String) (tokenSet : TokenSet) (grantGuard : Option Nat) :
    Prog.Alike (Routed idpTokenEndpoint asTokenEndpoint sameClient sameResource)
      (persist endpoint tokenSet grantGuard) (persist endpoint tokenSet grantGuard) := by
  cases grantGuard with
  | none => exact alike_save _
  | some expectedEpoch =>
    apply Prog.Alike.bind (alike_idle (by simp) _)
    intro _
    apply Prog.Alike.bind
    · apply Prog.Alike.attempt
      apply Prog.Alike.bind (alike_idle (by simp) _)
      intro epoch
      split
      · exact alike_done _
      · exact alike_save _
    · exact fun saved => .bind (alike_idle (by simp) _) fun _ => alike_done _

end Operations

/-! ## The chain -/

section Chain

variable {codecs : Codecs} {idpKey idpTokenEndpoint asIssuer asTokenEndpoint resource : String}
  {resourceScope : Option String} {allowInsecure : Bool} {clientId resourceClientId : Option String}
  {clientSecret clientSecret' resourceSecret resourceSecret' : Option String}

theorem alike_refreshIdpToken (refreshToken scope : String) {sameResource : Prop} :
    Prog.Alike (Routed idpTokenEndpoint asTokenEndpoint (clientSecret = clientSecret') sameResource)
      (refreshIdpToken codecs idpTokenEndpoint refreshToken allowInsecure clientId clientSecret scope)
      (refreshIdpToken codecs idpTokenEndpoint refreshToken allowInsecure clientId clientSecret' scope) := by
  apply Prog.Alike.bind
  · exact alike_postForm (.idp _ _ (by simp [EmaRequest.isRedemption, grantTypeRefreshToken, grantTypeJwtBearer])
      (by simp [EmaRequest.isRedemption, grantTypeRefreshToken, grantTypeJwtBearer]) fun h => by rw [h]) _
  · intro resp
    apply Prog.Alike.bind (alike_done _)
    rintro ⟨idToken, json⟩
    apply Prog.Alike.bind
    · unfold refreshedExpiry
      split
      · exact alike_done _
      · exact .bind alike_nowUnix fun now => alike_done _
      · exact alike_done _
    · exact fun exp => alike_done _

theorem alike_refreshAndPersist (creds : IdpCredentials) {sameResource : Prop} :
    Prog.Alike (Routed idpTokenEndpoint asTokenEndpoint (clientSecret = clientSecret') sameResource)
      (refreshAndPersistIdpToken codecs idpTokenEndpoint idpKey creds allowInsecure clientId clientSecret
        resourceScope)
      (refreshAndPersistIdpToken codecs idpTokenEndpoint idpKey creds allowInsecure clientId clientSecret'
        resourceScope) := by
  unfold refreshAndPersistIdpToken
  cases creds.refreshToken with
  | none => exact alike_done _
  | some refreshToken =>
    apply Prog.Alike.bind ((alike_refreshIdpToken refreshToken _).mapError _)
    intro refreshed
    apply Prog.Alike.bind alike_nowUnix
    intro obtainedAt
    exact .bind (alike_save _) fun _ => alike_done _

theorem alike_exchangeForIdJag (idToken : String) {sameResource : Prop} :
    Prog.Alike (Routed idpTokenEndpoint asTokenEndpoint (clientSecret = clientSecret') sameResource)
      (exchangeForIdJag codecs idpTokenEndpoint idToken asIssuer resource resourceScope allowInsecure clientId
        clientSecret)
      (exchangeForIdJag codecs idpTokenEndpoint idToken asIssuer resource resourceScope allowInsecure clientId
        clientSecret') := by
  apply Prog.Alike.bind
  · exact alike_postForm (.idp _ _ (by simp [EmaRequest.isRedemption, grantTypeTokenExchange, grantTypeJwtBearer])
      (by simp [EmaRequest.isRedemption, grantTypeTokenExchange, grantTypeJwtBearer]) fun h => by rw [h]) _
  · exact fun resp => alike_done _

theorem alike_redeemIdJag (idJag : String) {sameClient : Prop} :
    Prog.Alike (Routed idpTokenEndpoint asTokenEndpoint sameClient (resourceSecret = resourceSecret'))
      (redeemIdJag asTokenEndpoint idJag resourceScope allowInsecure clientId resourceSecret)
      (redeemIdJag asTokenEndpoint idJag resourceScope allowInsecure clientId resourceSecret') := by
  apply Prog.Alike.bind
  · exact alike_postForm (.resource _ _ (by simp [EmaRequest.isRedemption])
      (by simp [EmaRequest.isRedemption]) fun h => by rw [h]) _
  · intro resp
    apply Prog.Alike.bind (alike_done _)
    rintro ⟨accessToken, json⟩
    exact .bind alike_nowUnix fun nowSecs => alike_done _

theorem alike_obtainIdJag (creds : IdpCredentials) {sameResource : Prop} :
    Prog.Alike (Routed idpTokenEndpoint asTokenEndpoint (clientSecret = clientSecret') sameResource)
      (obtainIdJag codecs idpKey idpTokenEndpoint asIssuer resource resourceScope allowInsecure clientId
        clientSecret creds)
      (obtainIdJag codecs idpKey idpTokenEndpoint asIssuer resource resourceScope allowInsecure clientId
        clientSecret' creds) := by
  apply Prog.Alike.bind
  · apply Prog.Alike.bind
    · unfold idTokenExpired
      cases creds.idTokenExpiresAt with
      | none => exact alike_done _
      | some exp => exact .bind alike_nowUnix fun now => alike_done _
    · rintro (_ | _)
      · exact alike_done _
      · exact .bind (alike_refreshAndPersist creds) fun idToken => alike_done _
  · rintro ⟨idToken, refreshed⟩
    apply Prog.Alike.bind (alike_exchangeForIdJag idToken).attempt
    rintro (e | jag)
    · dsimp only
      split
      · exact .bind (alike_refreshAndPersist creds) fun newIdToken => alike_exchangeForIdJag newIdToken
      · exact alike_done _
    · exact alike_done _

/-- The whole chain, with two pairs of secrets. -/
theorem alike_ensureAccessToken (endpoint : String) (grantGuard : Option Nat) :
    Prog.Alike (Routed idpTokenEndpoint asTokenEndpoint (clientSecret = clientSecret')
        (resourceSecret = resourceSecret'))
      (ensureAccessToken codecs endpoint idpKey idpTokenEndpoint asIssuer asTokenEndpoint resource
        resourceScope allowInsecure clientId clientSecret resourceClientId resourceSecret grantGuard)
      (ensureAccessToken codecs endpoint idpKey idpTokenEndpoint asIssuer asTokenEndpoint resource
        resourceScope allowInsecure clientId clientSecret' resourceClientId resourceSecret' grantGuard) := by
  apply Prog.Alike.bind (alike_loadValid endpoint)
  rintro (_ | ts)
  · apply Prog.Alike.bind (alike_idle (by simp) _)
    intro _
    apply Prog.Alike.bind
    · apply Prog.Alike.attempt
      apply Prog.Alike.bind (alike_loadValid endpoint)
      rintro (_ | ts)
      · apply Prog.Alike.bind (alike_idle (by simp) _)
        intro creds
        apply Prog.Alike.bind (alike_obtainIdJag creds)
        intro idJag
        apply Prog.Alike.bind (alike_validateIdJag codecs idJag creds.idpIssuer asIssuer resource)
        intro _
        apply Prog.Alike.bind (alike_redeemIdJag idJag)
        intro tokenSet
        exact .bind (alike_persist endpoint tokenSet grantGuard) fun _ => alike_done _
      · exact alike_done _
    · exact fun ensured => .bind (alike_idle (by simp) _) fun _ => alike_done _
  · exact alike_done _

end Chain

/-! ## What the servers see -/

/-- The requests of a run by whom they are for. -/
def redemptions (tr : EmaTrace) : List EmaRequest := (requests tr).filter fun request => request.isRedemption

def idpRequests (tr : EmaTrace) : List EmaRequest := (requests tr).filter fun request => !request.isRedemption

section Traces

variable {idpTokenEndpoint asTokenEndpoint : String} {sameClient sameResource : Prop} {tr tr' : EmaTrace}

theorem redemptions_of_routed (h : List.Forall₂ (fun e e' =>
    Routed idpTokenEndpoint asTokenEndpoint sameClient sameResource e.1 e'.1 ∧ e.2 = e'.2) tr tr')
    (same : sameResource) : redemptions tr = redemptions tr' := by
  unfold redemptions
  induction h with
  | nil => rfl
  | @cons e e' tr tr' hstep _ ih =>
    obtain ⟨o, answer⟩ := e
    obtain ⟨o', answer'⟩ := e'
    cases hstep.1 with
    | idle _ hidle => rw [requests_idle hidle, requests_idle hidle, ih]
    | idp form form' hform hform' => simp [hform, hform', ih]
    | resource form form' hform hform' hsame => simp [hform', hsame same, ih]

theorem idpRequests_of_routed (h : List.Forall₂ (fun e e' =>
    Routed idpTokenEndpoint asTokenEndpoint sameClient sameResource e.1 e'.1 ∧ e.2 = e'.2) tr tr')
    (same : sameClient) : idpRequests tr = idpRequests tr' := by
  unfold idpRequests
  induction h with
  | nil => rfl
  | @cons e e' tr tr' hstep _ ih =>
    obtain ⟨o, answer⟩ := e
    obtain ⟨o', answer'⟩ := e'
    cases hstep.1 with
    | idle _ hidle => rw [requests_idle hidle, requests_idle hidle, ih]
    | idp form form' hform hform' hsame => simp [hform', hsame same, ih]
    | resource form form' hform hform' => simp [hform, hform', ih]

/-- A request is for the server that it is sent to. -/
theorem url_of_routed (h : List.Forall₂ (fun e e' =>
    Routed idpTokenEndpoint asTokenEndpoint sameClient sameResource e.1 e'.1 ∧ e.2 = e'.2) tr tr')
    {request : EmaRequest} (hrequest : request ∈ requests tr) :
    request.url = if request.isRedemption then asTokenEndpoint else idpTokenEndpoint := by
  induction h with
  | nil => cases hrequest
  | @cons e e' tr tr' hstep _ ih =>
    obtain ⟨o, answer⟩ := e
    obtain ⟨o', answer'⟩ := e'
    cases hstep.1 with
    | idle _ hidle =>
      rw [requests_idle hidle] at hrequest
      exact ih hrequest
    | idp form form' hform =>
      obtain rfl | hlater := List.mem_cons.mp hrequest
      · rw [hform]
        rfl
      · exact ih hlater
    | resource form form' hform =>
      obtain rfl | hlater := List.mem_cons.mp hrequest
      · rw [hform]
        rfl
      · exact ih hlater

end Traces

end EndaraRelay.Ema
