import EndaraRelay.Lib.Pool
import EndaraRelay.OAuth.Failure

/-!
# One refresh token for many endpoints

The endpoints of an organization share the credentials of one sign-in at the identity provider, stored
under one key. `ensure_access_token` loads them, has the ID token renewed with their refresh token where it
has expired, and saves what it gets. Where the provider rotates refresh tokens, the token that was replaced
should not be used again.

**The model.** The runs of any number of adapters and the callbacks of any number of sign-ins interleave at
every request and at every access to the store. Each refresh token carries which sign-in it goes back to and
how often it was rotated since; the code sees neither. A save is one step.

**The slip.** A run waits for the refresh mutex of its own adapter only, and a callback for the commit lock of
its own endpoint. Two runs can load the same credentials, and the second one POSTs a token that the first
has had rotated, or saves what it got over the credentials of a new sign-in.

**Theorem (`refresh_tokens_used_once`).** In every run whose steps are `orderly` no token is POSTed after it
was replaced, and no credentials are overwritten by older ones.
-/

namespace EndaraRelay

open Verif

/-! ## Credentials -/

/-- A refresh token: the sign-in it goes back to, and how often it was rotated since. -/
structure IdpRefreshToken where
  login : Nat
  generation : Nat
  id : Nat
deriving DecidableEq

/-- `IdpCredentials`, and where they come from: the number of the sign-in, and one more than the generation
of the refresh token they were obtained with (zero for those of the sign-in itself). -/
structure SharedIdpCredentials where
  idpIssuer : String
  idToken : String
  refreshToken : Option IdpRefreshToken
  idTokenExpiresAt : Option Nat
  obtainedAt : Nat
  login : Nat
  used : Nat
deriving DecidableEq

namespace SharedIdpCredentials

/-- They come from an older sign-in, or from an older refresh token of the same one. -/
def OlderThan (c d : SharedIdpCredentials) : Prop := c.login < d.login ∨ c.login = d.login ∧ c.used < d.used

/-- They have a token of their own sign-in, at least as old as the one they were obtained with. -/
def Wf (c : SharedIdpCredentials) : Prop := ∀ t ∈ c.refreshToken, t.login = c.login ∧ c.used ≤ t.generation + 1

/-- Their refresh token is newer than `t`. -/
def Ahead (c : SharedIdpCredentials) (t : IdpRefreshToken) : Prop :=
  t.login < c.login ∨ t.login = c.login ∧ ∀ r ∈ c.refreshToken, t.generation < r.generation

end SharedIdpCredentials

def expSkewSecs : Nat := 30

def idTokenExpired (now : Nat) (creds : SharedIdpCredentials) : Bool :=
  match creds.idTokenExpiresAt with
  | some exp => exp ≤ now + expSkewSecs
  | none => false

/-! ## The store -/

inductive IdpEvent where
  /-- A refresh token is sent to the provider. -/
  | posted (token : IdpRefreshToken)
  /-- The answer to this token had another one. -/
  | rotated (token : IdpRefreshToken)
  | stored (previous : Option SharedIdpCredentials) (new : SharedIdpCredentials)
deriving DecidableEq

/-- The credentials under the key, the number of sign-ins and of refresh tokens so far, and what has
happened. -/
structure IdpStore where
  stored : Option SharedIdpCredentials
  logins : Nat
  tokens : Nat
  log : List IdpEvent

/-- `save_idp`. -/
def IdpStore.save (sh : IdpStore) (new : SharedIdpCredentials) : IdpStore :=
  { sh with stored := some new, log := sh.log ++ [.stored sh.stored new] }

/-- No token is POSTed once it was replaced, and no credentials are overwritten by older ones. -/
structure UsedOnce (log : List IdpEvent) : Prop where
  tokens : log.Pairwise fun e f => ∀ t, e = .rotated t → f ≠ .posted t
  saves : ∀ previous new, IdpEvent.stored (some previous) new ∈ log → ¬ new.OlderThan previous

/-! ## Runs and callbacks -/

/-- What a step is answered. -/
structure IdpAnswer where
  now : Nat := 0
  /-- The access token in the store is still valid. -/
  accessTokenValid : Bool := false
  response : LegResponse := .answered 200 "" none true
  idToken : String := "id"
  /-- The response has a refresh token. -/
  hasRefreshToken : Bool := true
  expiresAt : Option Nat := none
  /-- The store can be accessed, the URL is allowed, the flow is current. -/
  succeeds : Bool := true

inductive IdpOp where
  /-- `ensure_access_token` of an adapter. -/
  | ensure (adapter : Nat)
  /-- The callback of a sign-in at an issuer that was started for an endpoint. -/
  | callback (endpoint issuer : String)

inductive IdpPc where
  | ensuring (adapter : Nat)
  /-- Waits for the refresh mutex. -/
  | locking (adapter : Nat)
  | rechecking (adapter : Nat)
  | loading (adapter : Nat)
  /-- The refresh token is POSTed next. -/
  | refreshing (adapter : Nat) (loaded : SharedIdpCredentials)
  | awaiting (adapter : Nat) (loaded : SharedIdpCredentials) (token : IdpRefreshToken)
  | saving (adapter : Nat) (loaded new : SharedIdpCredentials)
  | exchanging (adapter : Nat) (creds : SharedIdpCredentials) (refreshed : Bool)
  | redeeming (adapter : Nat)
  /-- The code of a sign-in is exchanged. -/
  | signingIn (endpoint issuer : String)
  /-- Waits for the commit lock. -/
  | committing (endpoint : String) (creds : SharedIdpCredentials)
  | capturing (endpoint : String) (creds : SharedIdpCredentials)
  | done

def IdpOp.pc : IdpOp → IdpPc
  | .ensure adapter => .ensuring adapter
  | .callback endpoint issuer => .signingIn endpoint issuer

namespace IdpPc

/-- Has the refresh mutex of the adapter. -/
def refreshes (adapter : Nat) : IdpPc → Bool
  | .rechecking a | .loading a | .refreshing a _ | .awaiting a _ _ | .saving a _ _ | .exchanging a _ _
  | .redeeming a => a = adapter
  | _ => false

/-- Has the commit lock of the endpoint. -/
def commits (endpoint : String) : IdpPc → Bool
  | .capturing e _ => e = endpoint
  | _ => false

/-- A refresh token was POSTed, and what came of it is not saved yet. -/
def inFlight : IdpPc → Bool
  | .awaiting .. | .saving .. => true
  | _ => false

/-- The number of a sign-in whose credentials are not saved yet. -/
def signedIn : IdpPc → Option Nat
  | .committing _ creds | .capturing _ creds => some creds.login
  | _ => none

/-- The credentials that come with the answer to a refresh token. -/
def renewed (sh : IdpStore) (loaded : SharedIdpCredentials) (t : IdpRefreshToken) (env : IdpAnswer) :
    SharedIdpCredentials where
  idpIssuer := loaded.idpIssuer
  idToken := env.idToken
  refreshToken := if env.hasRefreshToken then some ⟨t.login, t.generation + 1, sh.tokens⟩ else loaded.refreshToken
  idTokenExpiresAt := env.expiresAt
  obtainedAt := env.now
  login := t.login
  used := t.generation + 1

/-- `build_idp_credentials`, of a response with an ID token. -/
def captured (sh : IdpStore) (issuer : String) (env : IdpAnswer) : SharedIdpCredentials where
  idpIssuer := issuer
  idToken := env.idToken
  refreshToken := if env.hasRefreshToken then some ⟨sh.logins, 0, sh.tokens⟩ else none
  idTokenExpiresAt := env.expiresAt
  obtainedAt := env.now
  login := sh.logins
  used := 0

/-- What a run or a callback does next; `none` while it waits for a lock. -/
def step (sh : IdpStore) (ts : List IdpPc) (env : IdpAnswer) : IdpPc → Option (IdpStore × IdpPc)
  | .ensuring a => some (sh, if env.accessTokenValid then .done else .locking a)
  | .locking a => if ts.any (refreshes a) then none else some (sh, .rechecking a)
  | .rechecking a => some (sh, if env.accessTokenValid then .done else .loading a)
  | .loading a =>
    match sh.stored with
    | none => some (sh, .done)
    | some creds =>
      if !env.succeeds then some (sh, .done)
      else if idTokenExpired env.now creds then some (sh, .refreshing a creds)
      else some (sh, .exchanging a creds false)
  | .refreshing a loaded =>
    match loaded.refreshToken with
    | none => some (sh, .done)
    | some t =>
      if env.succeeds then some ({ sh with log := sh.log ++ [.posted t] }, .awaiting a loaded t)
      else some (sh, .done)
  | .awaiting a loaded t =>
    match env.response.transport with
    | .error _ => some (sh, .done)
    | .ok () =>
      if env.hasRefreshToken then
        some ({ sh with tokens := sh.tokens + 1, log := sh.log ++ [.rotated t] },
          .saving a loaded (renewed sh loaded t env))
      else some (sh, .saving a loaded (renewed sh loaded t env))
  | .saving a _ new =>
    if env.succeeds then some (sh.save new, .exchanging a new true) else some (sh, .done)
  | .exchanging a creds refreshed =>
    match exchangeForIdJag env.response with
    | .ok () => some (sh, .redeeming a)
    | .error _ =>
      if !refreshed && isSubjectTokenInvalid env.response then some (sh, .refreshing a creds)
      else some (sh, .done)
  | .redeeming _ => some (sh, .done)
  | .signingIn endpoint issuer =>
    match env.response.transport with
    | .error _ => some (sh, .done)
    | .ok () =>
      if env.idToken = "" then some (sh, .done)
      else some ({ sh with logins := sh.logins + 1, tokens := sh.tokens + 1 },
        .committing endpoint (captured sh issuer env))
  | .committing endpoint creds =>
    if ts.any (commits endpoint) then none
    else some (sh, if env.succeeds then .capturing endpoint creds else .done)
  | .capturing _ creds => some (if env.succeeds then sh.save creds else sh, .done)
  | .done => none

end IdpPc

/-- Runs and callbacks over one key. What is stored at the start comes from an earlier sign-in. -/
def idpRefresh : Pool IdpStore IdpPc IdpOp IdpAnswer where
  init sh := sh.log = [] ∧ ∀ creds ∈ sh.stored, creds.Wf ∧ creds.login < sh.logins
  launch _ _ op := some op.pc
  step sh ts pc env := (pc.step sh ts env).map fun r => (r.1, r.2, [])

abbrev IdpState := Pool.State IdpStore IdpPc

/-- What a run has loaded is still stored when it POSTs the refresh token, with no other refresh in flight,
and when it saves; a token that was rotated is saved; and of two sign-ins the one that was answered first is
saved first. -/
def orderly (s : IdpState) : Pool.Action IdpOp IdpAnswer → Bool
  | .launch _ => true
  | .run i env =>
    match s.threads[i]? with
    | some (.refreshing _ loaded) =>
      loaded.refreshToken.isNone || !env.succeeds ||
        (s.shared.stored = some loaded && s.threads.all fun u => !u.inFlight)
    | some (.saving _ loaded new) =>
      if env.succeeds then s.shared.stored = some loaded else new.refreshToken = loaded.refreshToken
    | some (.capturing _ creds) =>
      (s.threads.eraseIdx i).all fun u => u.signedIn.all fun login => creds.login < login
    | _ => true

/-! ## What a step does -/

def IdpPc.plain : IdpPc → Bool
  | .locking _ | .rechecking _ | .loading _ | .redeeming _ | .done => true
  | _ => false

/-- What the step of a thread does to the store and to what the thread has. -/
inductive IdpMove (sh : IdpStore) (env : IdpAnswer) : IdpPc → IdpStore → IdpPc → Prop
  | idle {pc pc'} : pc'.plain = true →
      (∀ a loaded new, pc = .saving a loaded new → env.succeeds = false) → IdpMove sh env pc sh pc'
  | load {a creds} : sh.stored = some creds → IdpMove sh env (.loading a) sh (.exchanging a creds false)
  | loadExpired {a creds} : sh.stored = some creds → IdpMove sh env (.loading a) sh (.refreshing a creds)
  | retry {a creds} : IdpMove sh env (.exchanging a creds false) sh (.refreshing a creds)
  | post {a loaded t} : loaded.refreshToken = some t → env.succeeds = true →
      IdpMove sh env (.refreshing a loaded) { sh with log := sh.log ++ [.posted t] } (.awaiting a loaded t)
  | rotate {a loaded t} : env.hasRefreshToken = true →
      IdpMove sh env (.awaiting a loaded t) { sh with tokens := sh.tokens + 1, log := sh.log ++ [.rotated t] }
        (.saving a loaded (IdpPc.renewed sh loaded t env))
  | renew {a loaded t} : env.hasRefreshToken = false →
      IdpMove sh env (.awaiting a loaded t) sh (.saving a loaded (IdpPc.renewed sh loaded t env))
  | save {a loaded new} : env.succeeds = true →
      IdpMove sh env (.saving a loaded new) (sh.save new) (.exchanging a new true)
  | signIn {endpoint issuer} :
      IdpMove sh env (.signingIn endpoint issuer) { sh with logins := sh.logins + 1, tokens := sh.tokens + 1 }
        (.committing endpoint (IdpPc.captured sh issuer env))
  | commit {endpoint creds} : IdpMove sh env (.committing endpoint creds) sh (.capturing endpoint creds)
  | capture {endpoint creds} : IdpMove sh env (.capturing endpoint creds) (sh.save creds) .done

section Steps

variable {sh sh' : IdpStore} {ts : List IdpPc} {env : IdpAnswer} {pc pc' : IdpPc}

/-- Nothing is saved by a thread that is elsewhere. -/
theorem IdpMove.quiet (h : pc'.plain = true) (hpc : ∀ a loaded new, pc ≠ .saving a loaded new) :
    IdpMove sh env pc sh pc' :=
  .idle h fun a loaded new heq => absurd heq (hpc a loaded new)

theorem idp_move (h : pc.step sh ts env = some (sh', pc')) : IdpMove sh env pc sh' pc' := by
  cases pc with
  | ensuring a | rechecking a =>
    cases h
    split <;> exact .quiet rfl nofun
  | locking a =>
    unfold IdpPc.step at h
    dsimp only at h
    split at h
    · cases h
    · cases h
      exact .quiet rfl nofun
  | loading a =>
    unfold IdpPc.step at h
    dsimp only at h
    split at h
    · cases h
      exact .quiet rfl nofun
    · next creds hstored =>
      split at h
      · cases h
        exact .quiet rfl nofun
      · split at h <;> cases h
        · exact .loadExpired hstored
        · exact .load hstored
  | refreshing a loaded =>
    unfold IdpPc.step at h
    dsimp only at h
    split at h
    · cases h
      exact .quiet rfl nofun
    · next t ht =>
      split at h <;> cases h
      · next hsucceeds => exact .post ht hsucceeds
      · exact .quiet rfl nofun
  | awaiting a loaded t =>
    unfold IdpPc.step at h
    dsimp only at h
    split at h
    · cases h
      exact .quiet rfl nofun
    · split at h <;> cases h
      · next hrotated => exact .rotate hrotated
      · next hrotated => exact .renew (Bool.eq_false_iff.2 hrotated)
  | saving a loaded new =>
    unfold IdpPc.step at h
    dsimp only at h
    split at h <;> cases h
    · next hsucceeds => exact .save hsucceeds
    · next hsucceeds => exact .idle rfl fun _ _ _ _ => Bool.eq_false_iff.2 hsucceeds
  | exchanging a creds refreshed =>
    unfold IdpPc.step at h
    dsimp only at h
    split at h
    · cases h
      exact .quiet rfl nofun
    · split at h <;> cases h
      · next hretry =>
        cases refreshed with
        | true => cases hretry
        | false => exact .retry
      · exact .quiet rfl nofun
  | redeeming a =>
    cases h
    exact .quiet rfl nofun
  | signingIn endpoint issuer =>
    unfold IdpPc.step at h
    dsimp only at h
    split at h
    · cases h
      exact .quiet rfl nofun
    · split at h <;> cases h
      · exact .quiet rfl nofun
      · exact .signIn
  | committing endpoint creds =>
    unfold IdpPc.step at h
    dsimp only at h
    split at h
    · cases h
    · cases h
      split
      · exact .commit
      · exact .quiet rfl nofun
  | capturing endpoint creds =>
    cases h
    split
    · exact .capture
    · exact .quiet rfl nofun
  | done => cases h

end Steps

/-! ## What the threads have -/

/-- Credentials that were stored once. -/
def Based (sh : IdpStore) (c : SharedIdpCredentials) : Prop :=
  c.Wf ∧ ∃ d, sh.stored = some d ∧ c.login ≤ d.login

/-- Their refresh token is newer than every one that was replaced. -/
def AheadOfAll (sh : IdpStore) (c : SharedIdpCredentials) : Prop := ∀ r, .rotated r ∈ sh.log → c.Ahead r

/-- Credentials of a sign-in that is newer than all that was stored. -/
structure Unsaved (sh : IdpStore) (c : SharedIdpCredentials) : Prop where
  wf : c.Wf
  login_lt : c.login < sh.logins
  newer : ∀ d, sh.stored = some d → d.login < c.login
  rotated : ∀ r, .rotated r ∈ sh.log → r.login < c.login

def IdpPc.Fits (sh : IdpStore) : IdpPc → Prop
  | .refreshing _ c | .exchanging _ c _ => Based sh c
  | .awaiting _ loaded t => Based sh loaded ∧ loaded.refreshToken = some t ∧ AheadOfAll sh loaded
  | .saving _ loaded new =>
    Based sh loaded ∧ new.Wf ∧ new.login = loaded.login ∧ loaded.used ≤ new.used ∧ AheadOfAll sh new
  | .committing _ c | .capturing _ c => Unsaved sh c
  | _ => True

/-- A token was replaced, and the credentials with the new one are not saved yet. -/
def IdpPc.rotating : IdpPc → Bool
  | .saving _ loaded new => new.refreshToken ≠ loaded.refreshToken
  | _ => false

structure SharedIdpSound (s : IdpState) : Prop where
  once : UsedOnce s.shared.log
  stored : ∀ c, s.shared.stored = some c → c.Wf ∧ c.login < s.shared.logins
  logins : ∀ r, .rotated r ∈ s.shared.log → r.login < s.shared.logins
  fits : ∀ t ∈ s.threads, t.Fits s.shared
  replaced : ∀ r, .rotated r ∈ s.shared.log →
    (∃ c, s.shared.stored = some c ∧ c.Ahead r) ∨ ∃ t ∈ s.threads, t.rotating = true

section Frames

variable {sh sh' : IdpStore} {pc : IdpPc} {c loaded new : SharedIdpCredentials} {t : IdpRefreshToken}
  {env : IdpAnswer} {issuer : String}

/-- What threads have is kept while nothing is saved and no token is replaced. -/
theorem fits_mono (hstored : sh'.stored = sh.stored) (hlogins : sh.logins ≤ sh'.logins)
    (hlog : ∀ r, .rotated r ∈ sh'.log → .rotated r ∈ sh.log) (h : pc.Fits sh) : pc.Fits sh' := by
  have hbased {c : SharedIdpCredentials} (h : Based sh c) : Based sh' c := ⟨h.1, hstored ▸ h.2⟩
  have hahead {c : SharedIdpCredentials} (h : AheadOfAll sh c) : AheadOfAll sh' c :=
    fun r hr => h r (hlog r hr)
  have hunsaved {c : SharedIdpCredentials} (h : Unsaved sh c) : Unsaved sh' c :=
    ⟨h.wf, Nat.lt_of_lt_of_le h.login_lt hlogins, hstored ▸ h.newer, fun r hr => h.rotated r (hlog r hr)⟩
  cases pc with
  | refreshing | exchanging => exact hbased h
  | awaiting a loaded t => exact ⟨hbased h.1, h.2.1, hahead h.2.2⟩
  | saving a loaded new => exact ⟨hbased h.1, h.2.1, h.2.2.1, h.2.2.2.1, hahead h.2.2.2.2⟩
  | committing | capturing => exact hunsaved h
  | _ => trivial

/-- A token is replaced that goes back to a sign-in that was stored. -/
theorem fits_rotated (hbased : Based sh loaded) (ht : t.login = loaded.login) (hpc : pc.inFlight = false)
    (h : pc.Fits sh) :
    pc.Fits { sh with tokens := sh.tokens + 1, log := sh.log ++ [.rotated t] } := by
  obtain ⟨d, hd, hle⟩ := hbased.2
  have hunsaved {c : SharedIdpCredentials} (h : Unsaved sh c) :
      Unsaved { sh with tokens := sh.tokens + 1, log := sh.log ++ [.rotated t] } c := by
    refine ⟨h.wf, h.login_lt, h.newer, fun r hr => ?_⟩
    rcases List.mem_append.1 hr with hr | hr
    · exact h.rotated r hr
    · cases List.mem_singleton.1 hr
      have := h.newer d hd
      omega
  cases pc with
  | awaiting | saving => cases hpc
  | committing | capturing => exact hunsaved h
  | refreshing | exchanging => exact h
  | _ => trivial

/-- Credentials are saved that are as new as those that were stored, and older than those that are not saved
yet. -/
theorem fits_save (hstored : ∀ d, sh.stored = some d → d.login ≤ new.login)
    (hsigned : ∀ login ∈ pc.signedIn, new.login < login) (h : pc.Fits sh) : pc.Fits (sh.save new) := by
  have hlog {r : IdpRefreshToken} (hr : .rotated r ∈ (sh.save new).log) : .rotated r ∈ sh.log := by
    rcases List.mem_append.1 hr with hr | hr
    · exact hr
    · cases List.mem_singleton.1 hr
  have hbased {c : SharedIdpCredentials} (h : Based sh c) : Based (sh.save new) c := by
    obtain ⟨hwf, d, hd, hle⟩ := h
    exact ⟨hwf, new, rfl, Nat.le_trans hle (hstored d hd)⟩
  have hahead {c : SharedIdpCredentials} (h : AheadOfAll sh c) : AheadOfAll (sh.save new) c :=
    fun r hr => h r (hlog hr)
  have hunsaved {c : SharedIdpCredentials} (h : Unsaved sh c) (hc : new.login < c.login) :
      Unsaved (sh.save new) c := by
    refine ⟨h.wf, h.login_lt, fun d hd => ?_, fun r hr => h.rotated r (hlog hr)⟩
    cases hd
    exact hc
  cases pc with
  | refreshing | exchanging => exact hbased h
  | awaiting a loaded t => exact ⟨hbased h.1, h.2.1, hahead h.2.2⟩
  | saving a loaded new => exact ⟨hbased h.1, h.2.1, h.2.2.1, h.2.2.2.1, hahead h.2.2.2.2⟩
  | committing | capturing => exact hunsaved h (hsigned _ rfl)
  | _ => trivial

/-- Credentials that come with an answer go on from those that were loaded. -/
theorem renewed_wf (sh : IdpStore) (env : IdpAnswer) (hwf : loaded.Wf) (ht : loaded.refreshToken = some t) :
    (IdpPc.renewed sh loaded t env).Wf ∧ t.login = loaded.login ∧ loaded.used ≤ t.generation + 1 := by
  obtain ⟨hlogin, hused⟩ := hwf t ht
  refine ⟨fun r hr => ?_, hlogin, hused⟩
  simp only [IdpPc.renewed] at hr ⊢
  split at hr
  · cases hr
    exact ⟨rfl, Nat.le_succ _⟩
  · rw [ht] at hr
    cases hr
    exact ⟨rfl, Nat.le_refl _⟩

/-- They have a newer token, or the one that was sent. -/
theorem ahead_renewed {r : IdpRefreshToken} (hwf : loaded.Wf) (ht : loaded.refreshToken = some t)
    (h : loaded.Ahead r) : (IdpPc.renewed sh loaded t env).Ahead r := by
  obtain ⟨-, hlogin, -⟩ := renewed_wf sh env hwf ht
  rcases h with hlt | ⟨heq, hgen⟩
  · exact .inl (Nat.lt_of_lt_of_eq hlt hlogin.symm)
  · refine .inr ⟨heq.trans hlogin.symm, fun u hu => ?_⟩
    have hr := hgen t ht
    simp only [IdpPc.renewed] at hu
    split at hu
    · cases hu
      exact Nat.lt_succ_of_lt hr
    · exact hgen u hu

/-- A token of the same sign-in and generation was not replaced. -/
theorem ne_of_ahead {r : IdpRefreshToken} (hwf : c.Wf) (ht : c.refreshToken = some t) (h : c.Ahead r) :
    r ≠ t := by
  rintro rfl
  obtain ⟨hlogin, -⟩ := hwf r ht
  rcases h with hlt | ⟨-, hgen⟩
  · omega
  · exact absurd (hgen r ht) (Nat.lt_irrefl _)

theorem usedOnce_append {log : List IdpEvent} {e : IdpEvent} (h : UsedOnce log)
    (htoken : ∀ t, e = .posted t → .rotated t ∉ log)
    (hsave : ∀ previous new, e = .stored (some previous) new → ¬ new.OlderThan previous) : UsedOnce (log ++ [e]) := by
  refine ⟨List.pairwise_append.2 ⟨h.tokens, List.pairwise_singleton _ _, fun f hf g hg t ht => ?_⟩,
    fun previous new hmem => ?_⟩
  · obtain rfl := List.mem_singleton.1 hg
    rintro rfl
    exact htoken t rfl (ht ▸ hf)
  · rcases List.mem_append.1 hmem with hmem | hmem
    · exact h.saves previous new hmem
    · exact hsave previous new (List.mem_singleton.1 hmem).symm

end Frames

/-! ## Every orderly run -/

section Runs

variable {s : IdpState} {i : Nat} {env : IdpAnswer} {pc pc' : IdpPc} {sh' : IdpStore} {a : Nat}
  {loaded new creds : SharedIdpCredentials} {t : IdpRefreshToken} {endpoint : String}

/-- A step that saves nothing, and is answered with no other token. -/
theorem sound_quiet (hi : s.threads[i]? = some pc) (hs : SharedIdpSound s)
    (hstored : sh'.stored = s.shared.stored) (hlogins : s.shared.logins ≤ sh'.logins)
    (hlog : ∀ r, .rotated r ∈ sh'.log → .rotated r ∈ s.shared.log) (honce : UsedOnce sh'.log)
    (hfits : pc'.Fits sh') (hrotating : pc.rotating = true → pc'.rotating = true) :
    SharedIdpSound ⟨sh', Pool.stepped s.threads i pc' []⟩ where
  once := honce
  stored c hc := by
    obtain ⟨hwf, hlt⟩ := hs.stored c (hstored ▸ hc)
    exact ⟨hwf, Nat.lt_of_lt_of_le hlt hlogins⟩
  logins r hr := Nat.lt_of_lt_of_le (hs.logins r (hlog r hr)) hlogins
  fits := Pool.forall_mem_stepped hfits (List.forall_mem_nil _) fun j u _ hj =>
    fits_mono hstored hlogins hlog (hs.fits u (List.mem_of_getElem? hj))
  replaced r hr := by
    rcases hs.replaced r (hlog r hr) with ⟨c, hc, hahead⟩ | hsaving
    · exact .inl ⟨c, hstored.trans hc, hahead⟩
    · exact .inr (Pool.exists_stepped hi hrotating hsaving)

theorem rotating_inFlight (h : pc.rotating = true) : pc.inFlight = true := by
  cases pc with
  | saving => rfl
  | _ => cases h

theorem post_orderly (hok : orderly s (.run i env) = true) (hi : s.threads[i]? = some (.refreshing a loaded))
    (ht : loaded.refreshToken = some t) (hsucceeds : env.succeeds = true) :
    s.shared.stored = some loaded ∧ ∀ u ∈ s.threads, u.inFlight = false := by
  simpa [orderly, hi, ht, hsucceeds] using hok

theorem save_orderly (hok : orderly s (.run i env) = true)
    (hi : s.threads[i]? = some (.saving a loaded new)) :
    if env.succeeds then s.shared.stored = some loaded else new.refreshToken = loaded.refreshToken := by
  unfold orderly at hok
  dsimp only at hok
  rw [hi] at hok
  dsimp only at hok
  split at hok <;> simp_all

/-- What it asks of a callback that saves. -/
theorem capture_orderly (hok : orderly s (.run i env) = true)
    (hi : s.threads[i]? = some (.capturing endpoint creds)) {j : Nat} {u : IdpPc} (hj : s.threads[j]? = some u)
    (hne : j ≠ i) : ∀ login ∈ u.signedIn, creds.login < login := by
  unfold orderly at hok
  dsimp only at hok
  rw [hi] at hok
  have hall := List.all_eq_true.1 hok u (List.mem_eraseIdx_iff_getElem?.2 ⟨j, hne, hj⟩)
  intro login hlogin
  rw [Option.mem_def.1 hlogin] at hall
  exact of_decide_eq_true hall

/-- A refresh token is sent that was not replaced. -/
theorem sound_post (hi : s.threads[i]? = some (.refreshing a loaded)) (ht : loaded.refreshToken = some t)
    (hstored : s.shared.stored = some loaded) (hidle : ∀ u ∈ s.threads, u.inFlight = false)
    (hs : SharedIdpSound s) :
    SharedIdpSound ⟨{ s.shared with log := s.shared.log ++ [.posted t] },
      Pool.stepped s.threads i (.awaiting a loaded t) []⟩ := by
  have hwf := (hs.stored loaded hstored).1
  have hahead : AheadOfAll s.shared loaded := by
    intro r hr
    rcases hs.replaced r hr with ⟨c, hc, hahead⟩ | ⟨u, hu, hrotating⟩
    · rw [hstored] at hc
      cases hc
      exact hahead
    · exact absurd (rotating_inFlight hrotating) (by rw [hidle u hu]; decide)
  have hlog (r : IdpRefreshToken) (hr : .rotated r ∈ s.shared.log ++ [IdpEvent.posted t]) :
      .rotated r ∈ s.shared.log := by
    rcases List.mem_append.1 hr with hr | hr
    · exact hr
    · cases List.mem_singleton.1 hr
  refine sound_quiet hi hs rfl (Nat.le_refl _) hlog ?_ ?_ nofun
  · refine usedOnce_append hs.once (fun u hu hmem => ?_) nofun
    cases hu
    exact ne_of_ahead hwf ht (hahead t hmem) rfl
  · exact ⟨⟨hwf, loaded, hstored, Nat.le_refl _⟩, ht, fun r hr => hahead r (hlog r hr)⟩

theorem sound_rotate (hi : s.threads[i]? = some (.awaiting a loaded t))
    (hx : s.threads.Pairwise fun t u => ¬ (t.inFlight = true ∧ u.inFlight = true))
    (hrotated : env.hasRefreshToken = true) (hs : SharedIdpSound s) :
    SharedIdpSound ⟨{ s.shared with tokens := s.shared.tokens + 1, log := s.shared.log ++ [.rotated t] },
      Pool.stepped s.threads i (.saving a loaded (IdpPc.renewed s.shared loaded t env)) []⟩ := by
  obtain ⟨hbased, ht, hahead⟩ := hs.fits _ (List.mem_of_getElem? hi)
  obtain ⟨hwf, hlogin, hused⟩ := renewed_wf s.shared env hbased.1 ht
  have hidle {j : Nat} {u : IdpPc} (hj : s.threads[j]? = some u) (hne : j ≠ i) : u.inFlight = false := by
    have hnot := Pool.not_holds_of_ne (H := fun _ u => u.inFlight = true) (s := s) hx hi rfl hj hne
    exact Bool.eq_false_iff.2 hnot
  -- what the answer has is newer than the token that was sent
  have hself : (IdpPc.renewed s.shared loaded t env).Ahead t := by
    refine .inr ⟨rfl, fun r hr => ?_⟩
    simp only [IdpPc.renewed, hrotated, if_true] at hr
    cases hr
    exact Nat.lt_succ_self _
  have hcases (r : IdpRefreshToken) (hr : .rotated r ∈ s.shared.log ++ [IdpEvent.rotated t]) :
      .rotated r ∈ s.shared.log ∨ r = t := by
    rcases List.mem_append.1 hr with hr | hr
    · exact .inl hr
    · cases List.mem_singleton.1 hr
      exact .inr rfl
  refine ⟨?_, hs.stored, fun r hr => ?_, ?_, fun r hr => ?_⟩
  · exact usedOnce_append hs.once nofun nofun
  · rcases hcases r hr with hr | rfl
    · exact hs.logins r hr
    · obtain ⟨-, d, hd, hle⟩ := hbased
      have hlt := (hs.stored d hd).2
      dsimp only
      omega
  · refine Pool.forall_mem_stepped ?_ (List.forall_mem_nil _) fun j u hne hj =>
      fits_rotated hbased hlogin (hidle hj hne) (hs.fits u (List.mem_of_getElem? hj))
    refine ⟨hbased, hwf, hlogin, hused, fun r hr => ?_⟩
    rcases hcases r hr with hr | rfl
    · exact ahead_renewed hbased.1 ht (hahead r hr)
    · exact hself
  · refine .inr ⟨_, Pool.mem_stepped_self hi, ?_⟩
    refine decide_eq_true fun heq => ?_
    simp only [IdpPc.renewed, hrotated, if_true, ht, Option.some.injEq] at heq
    have hgen := congrArg IdpRefreshToken.generation heq
    simp at hgen

/-- Credentials are saved that are no older than those that were stored, with a token that is ahead. -/
theorem sound_save (hs : SharedIdpSound s) (hwf : new.Wf)
    (hlogin : new.login < s.shared.logins) (hahead : AheadOfAll s.shared new)
    (hle : ∀ d, s.shared.stored = some d → d.login ≤ new.login ∧ ¬ new.OlderThan d)
    (hsigned : ∀ j u, s.threads[j]? = some u → j ≠ i → ∀ login ∈ u.signedIn, new.login < login)
    (hfits : pc'.Fits (s.shared.save new)) :
    SharedIdpSound ⟨s.shared.save new, Pool.stepped s.threads i pc' []⟩ := by
  have hlog (r : IdpRefreshToken) (hr : .rotated r ∈ (s.shared.save new).log) : .rotated r ∈ s.shared.log := by
    rcases List.mem_append.1 hr with hr | hr
    · exact hr
    · cases List.mem_singleton.1 hr
  refine ⟨?_, fun c hc => ?_, fun r hr => hs.logins r (hlog r hr), ?_, fun r hr => ?_⟩
  · refine usedOnce_append hs.once nofun fun previous new' heq => ?_
    obtain ⟨hover, rfl⟩ := IdpEvent.stored.inj heq
    exact (hle previous hover).2
  · cases hc
    exact ⟨hwf, hlogin⟩
  · exact Pool.forall_mem_stepped hfits (List.forall_mem_nil _) fun j u hne hj =>
      fits_save (fun d hd => (hle d hd).1) (hsigned j u hj hne) (hs.fits u (List.mem_of_getElem? hj))
  · exact .inl ⟨new, rfl, hahead r (hlog r hr)⟩

theorem sound_step (hi : s.threads[i]? = some pc) (h : IdpMove s.shared env pc sh' pc')
    (hok : orderly s (.run i env) = true)
    (hx : s.threads.Pairwise fun t u => ¬ (t.inFlight = true ∧ u.inFlight = true)) (hs : SharedIdpSound s) :
    SharedIdpSound ⟨sh', Pool.stepped s.threads i pc' []⟩ := by
  have hmine := hs.fits pc (List.mem_of_getElem? hi)
  cases h with
  | idle hplain hsaving =>
    refine sound_quiet hi hs rfl (Nat.le_refl _) (fun _ hr => hr) hs.once ?_ fun hrotating => ?_
    · cases pc' <;> trivial
    · -- a run that gives up saving had no other token
      cases pc with
      | saving a loaded new =>
        have hnot := save_orderly hok hi
        rw [hsaving a loaded new rfl] at hnot
        exact absurd hnot (of_decide_eq_true hrotating)
      | _ => cases hrotating
  | load hstored | loadExpired hstored =>
    refine sound_quiet hi hs rfl (Nat.le_refl _) (fun _ hr => hr) hs.once ?_ nofun
    exact ⟨(hs.stored _ hstored).1, _, hstored, Nat.le_refl _⟩
  | retry => exact sound_quiet hi hs rfl (Nat.le_refl _) (fun _ hr => hr) hs.once hmine nofun
  | post ht hsucceeds =>
    obtain ⟨hstored, hidle⟩ := post_orderly hok hi ht hsucceeds
    exact sound_post hi ht hstored hidle hs
  | rotate hrotated => exact sound_rotate hi hx hrotated hs
  | renew hrotated =>
    obtain ⟨hbased, ht, hahead⟩ := hmine
    obtain ⟨hwf, hlogin, hused⟩ := renewed_wf s.shared env hbased.1 ht
    refine sound_quiet hi hs rfl (Nat.le_refl _) (fun _ hr => hr) hs.once ?_ nofun
    exact ⟨hbased, hwf, hlogin, hused, fun r hr => ahead_renewed hbased.1 ht (hahead r hr)⟩
  | @save a loaded new hsucceeds =>
    obtain ⟨-, hwf, hlogin, hused, hahead⟩ := hmine
    have hstored := save_orderly hok hi
    rw [hsucceeds, if_pos rfl] at hstored
    have hlt := (hs.stored loaded hstored).2
    refine sound_save hs hwf (by omega) hahead (fun d hd => ?_) (fun j u hj hne login hlogin' => ?_)
      ⟨hwf, new, rfl, Nat.le_refl _⟩
    · rw [hstored] at hd
      cases hd
      refine ⟨Nat.le_of_eq hlogin.symm, fun holder => ?_⟩
      rcases holder with hlt | ⟨-, hlt⟩ <;> omega
    · have hu := hs.fits u (List.mem_of_getElem? hj)
      cases u with
      | committing | capturing =>
        cases hlogin'
        have := (show Unsaved _ _ from hu).newer loaded hstored
        omega
      | _ => cases hlogin'
  | signIn =>
    refine sound_quiet hi hs rfl (Nat.le_succ _) (fun _ hr => hr) hs.once ?_ nofun
    refine ⟨fun r hr => ?_, Nat.lt_succ_self _, fun d hd => (hs.stored d hd).2, fun r hr => hs.logins r hr⟩
    simp only [IdpPc.captured] at hr ⊢
    split at hr
    · cases hr
      exact ⟨rfl, Nat.zero_le _⟩
    · cases hr
  | commit => exact sound_quiet hi hs rfl (Nat.le_refl _) (fun _ hr => hr) hs.once hmine nofun
  | capture =>
    have hmine : Unsaved _ _ := hmine
    refine sound_save hs hmine.wf hmine.login_lt (fun r hr => .inl (hmine.rotated r hr)) (fun d hd => ?_)
      (fun j u hj hne => capture_orderly hok hi hj hne) trivial
    have hlt := hmine.newer d hd
    refine ⟨Nat.le_of_lt hlt, fun holder => ?_⟩
    rcases holder with hlt' | ⟨heq, -⟩ <;> omega

theorem refresh_exclusive (h : idpRefresh.system.ReachableWhile (fun s a => orderly s a = true) s) :
    s.threads.Pairwise fun t u => ¬ (t.inFlight = true ∧ u.inFlight = true) := by
  refine Pool.exclusive_of (P := idpRefresh) (H := fun _ t => t.inFlight = true) ?_ ?_ ?_ ?_ h
  · intro sh ts op t ht
    cases ht
    cases op <;> exact nofun
  · intro s i env t sh' t' new hok hi hstep hflight
    obtain ⟨⟨sh₁, t₁⟩, hmove, hr⟩ := Option.map_eq_some_iff.1 hstep
    cases hr
    cases idp_move hmove with
    | idle hplain => cases t₁ <;> contradiction
    | post ht hsucceeds =>
      obtain ⟨-, hidle⟩ := post_orderly hok hi ht hsucceeds
      exact .inr fun u hu => by rw [hidle u hu]; decide
    | rotate | renew => exact .inl rfl
    | _ => cases hflight
  · intro sh ts t env sh' t' new hstep u hu
    obtain ⟨_, -, hr⟩ := Option.map_eq_some_iff.1 hstep
    cases hr
    cases hu
  · exact fun _ _ _ _ _ _ _ _ _ h => h

theorem idp_sound (h : idpRefresh.system.ReachableWhile (fun s a => orderly s a = true) s) :
    SharedIdpSound s := by
  refine Pool.invariant_of (P := idpRefresh) (J := SharedIdpSound) (fun _ hs => refresh_exclusive hs) ?_ ?_ ?_ h
  · intro sh ⟨hlog, hstored⟩
    have hnone {e : IdpEvent} (he : e ∈ sh.log) : False := by
      rw [hlog] at he
      cases he
    refine ⟨?_, fun c hc => hstored c hc, fun r hr => (hnone hr).elim, List.forall_mem_nil _, fun r hr =>
      (hnone hr).elim⟩
    dsimp only
    rw [hlog]
    exact ⟨List.Pairwise.nil, nofun⟩
  · intro s op t _ hJ _ ht
    refine ⟨hJ.once, hJ.stored, hJ.logins, fun u hu => ?_, fun r hr => ?_⟩
    · rcases List.mem_append.1 hu with hu | hu
      · exact hJ.fits u hu
      · obtain rfl := List.mem_singleton.1 hu
        cases ht
        cases op <;> trivial
    · exact (hJ.replaced r hr).imp_right fun ⟨u, hu, hrotating⟩ => ⟨u, List.mem_append_left _ hu, hrotating⟩
  · intro s i env pc sh' pc' new hx hJ hok hi hstep
    obtain ⟨⟨sh₁, pc₁⟩, hmove, hr⟩ := Option.map_eq_some_iff.1 hstep
    cases hr
    exact sound_step hi (idp_move hmove) hok hx hJ

/-- **A refresh token is used until it is replaced**, and no credentials are overwritten by older ones, in
every orderly run. -/
theorem refresh_tokens_used_once
    (h : idpRefresh.system.ReachableWhile (fun s a => orderly s a = true) s) : UsedOnce s.shared.log :=
  (idp_sound h).once

end Runs

/-! ## Three runs -/

def noSignIn : IdpStore := ⟨none, 0, 0, []⟩

theorem noSignIn_start : idpRefresh.system.init ⟨noSignIn, []⟩ := ⟨⟨rfl, nofun⟩, rfl⟩

def idpSteps (i n : Nat) : List (Pool.Action IdpOp IdpAnswer) := List.replicate n (.run i {})

/-- A sign-in whose ID token has expired by the time of the runs. -/
def signInRun : List (Pool.Action IdpOp IdpAnswer) :=
  [.launch (.callback "mail" "https://idp.test"), .run 0 { expiresAt := some 0 }, .run 0 {}, .run 0 {}]

def renewalRun : List (Pool.Action IdpOp IdpAnswer) :=
  signInRun ++ .launch (.ensure 0) :: idpSteps 1 4 ++
    [.run 1 {}, .run 1 { expiresAt := some 0 }, .run 1 {}, .run 1 {}, .run 1 {}] ++
    .launch (.ensure 1) :: idpSteps 2 9

/-- Two tokens are sent, each once. -/
theorem used_once_renewals : ∃ s, idpRefresh.system.run ⟨noSignIn, []⟩ renewalRun = some s ∧
    s.shared.log.filter (fun e => e matches .posted _) = [.posted ⟨0, 0, 0⟩, .posted ⟨0, 1, 1⟩] ∧
    UsedOnce s.shared.log := by
  have hrun : ∃ s, idpRefresh.system.runWhile orderly ⟨noSignIn, []⟩ renewalRun = some s ∧
      idpRefresh.system.run ⟨noSignIn, []⟩ renewalRun = some s ∧
      s.shared.log.filter (fun e => e matches .posted _) = [.posted ⟨0, 0, 0⟩, .posted ⟨0, 1, 1⟩] :=
    ⟨_, rfl, rfl, rfl⟩
  obtain ⟨s, hwhile, hrun, hlog⟩ := hrun
  exact ⟨s, hrun, hlog, refresh_tokens_used_once
    ((System.ReachableWhile.init noSignIn_start).run (fun _ _ h => h) hwhile)⟩

/-- Two runs load the same credentials. The second one sends the token when the first has saved another. -/
def replayRun : List (Pool.Action IdpOp IdpAnswer) :=
  signInRun ++ .launch (.ensure 0) :: idpSteps 1 4 ++ .launch (.ensure 1) :: idpSteps 2 4 ++ idpSteps 1 3 ++
    idpSteps 2 1

def overtakenSignIn : List (Pool.Action IdpOp IdpAnswer) :=
  [.launch (.callback "mail" "https://idp.test"), .run 0 {}, .launch (.callback "chat" "https://idp.test"),
    .run 1 {}, .run 1 {}, .run 1 {}, .run 0 {}, .run 0 {}]

/-- **A token is sent after it was replaced**, and **an older sign-in overwrites a newer one**. -/
theorem refresh_token_replayed :
    (∃ s, idpRefresh.system.Reachable s ∧ ¬ s.shared.log.Pairwise fun e f => ∀ t, e = .rotated t → f ≠ .posted t) ∧
    ∃ s, idpRefresh.system.Reachable s ∧
      ∃ previous new, IdpEvent.stored (some previous) new ∈ s.shared.log ∧ new.OlderThan previous := by
  have hreplay : ∃ s, idpRefresh.system.run ⟨noSignIn, []⟩ replayRun = some s ∧
      (s.shared.log.drop 2).take 1 = [.rotated ⟨0, 0, 0⟩] ∧ s.shared.log.drop 4 = [.posted ⟨0, 0, 0⟩] :=
    ⟨_, rfl, rfl, rfl⟩
  have hovertaken : ∃ s previous new, idpRefresh.system.run ⟨noSignIn, []⟩ overtakenSignIn = some s ∧
      s.shared.log.drop 1 = [.stored (some previous) new] ∧ new.login = 0 ∧ previous.login = 1 :=
    ⟨_, _, _, rfl, rfl, rfl, rfl⟩
  obtain ⟨s, hrun, hrotated, hposted⟩ := hreplay
  obtain ⟨s', previous, new, hrun', hlog, hnew, hover⟩ := hovertaken
  refine ⟨⟨s, (System.Reachable.init noSignIn_start).run hrun, fun hpairwise => ?_⟩,
    s', (System.Reachable.init noSignIn_start).run hrun', previous, new, ?_, .inl (by omega)⟩
  · rw [← List.take_append_drop 4 s.shared.log, List.pairwise_append] at hpairwise
    have hmem : IdpEvent.rotated ⟨0, 0, 0⟩ ∈ s.shared.log.take 4 := by
      have hsub : (s.shared.log.drop 2).take 1 ⊆ s.shared.log.take 4 := by
        rw [List.take_drop]
        exact fun e he => (List.take_subset_take_left _ (by decide)) (List.mem_of_mem_drop he)
      exact hsub (by rw [hrotated]; exact List.mem_singleton.2 rfl)
    exact hpairwise.2.2 _ hmem _ (by rw [hposted]; exact List.mem_singleton.2 rfl) _ rfl rfl
  · exact List.mem_of_mem_drop (by rw [hlog]; exact List.mem_singleton.2 rfl)

end EndaraRelay
