import EndaraRelay.OAuth.Interleaving

/-!
# How a failed refresh ends

A refresh can fail because the authorization server says no, or because it could not be asked. The
lifecycle is to tell the two apart: from `ConnectionFailed` the heartbeat tries again, from
`AuthRequired` only the user leads on.

- `executeTokenPost` and `ensureAccessToken` sort what comes back over the network, for the plain
  refresh and for the EMA chain.
- `RefreshFault` lists the ways a refresh fails, with the state each is to lead to. Every HTTP error
  status of the token endpoint counts as a refusal, 5xx included.
- `failed_refresh_lifecycle`: whatever other threads do, a driver that keeps the verdict of its
  refresh (`Driver.keepsVerdict`) makes no other transition than to that state, until it returns.

The startup of a plain endpoint and the reactive refresh keep no verdict, they follow up with
`AuthRequired`.
-/

namespace EndaraRelay

open Verif

/-! ## The token endpoint -/

/-- What comes back from a POST to the token endpoint. A body that could not be read to its end or
is not JSON has no `json`. -/
inductive TokenResponse where
  /-- Connection refused, timeout. -/
  | unreachable
  | answered (status : Nat) (json : Option TokenAnswer)
deriving DecidableEq, Repr

def isSuccess (status : Nat) : Bool := 200 ≤ status && status < 300

def executeTokenPost : TokenResponse → TokenPostOutcome
  | .unreachable => .network
  | .answered status json =>
    if isSuccess status then
      match json with
      | some answer => .success answer
      | none => .invalidJson
    else if status = 404 then .notFound
    else .httpError

/-- Whether the response is a transport failure and no answer of the authorization server. -/
def TokenResponse.transportClass : TokenResponse → Bool
  | .unreachable => true
  | .answered status _ => 500 ≤ status && status < 600

/-! ## The EMA chain -/

/-- What comes back from a leg of the chain: `error` is the OAuth error code of the body, `usable`
says that the body has the field the leg is after. -/
inductive LegResponse where
  | unreachable
  | answered (status : Nat) (body : String) (error : Option String) (usable : Bool)
deriving DecidableEq, Repr

/-- The stored credentials of the identity provider, as far as the chain branches on them. -/
structure IdpCredentials where
  refreshToken : Option String
  expired : Bool
deriving DecidableEq, Repr

/-- What the chain meets: the store, the answers of its legs, and the token set the last one mints. -/
structure EmaChain where
  /-- `none`: the store cannot be read. -/
  stored : Option (Option IdpCredentials)
  idpRefresh : LegResponse
  idpSaved : Bool
  exchange : LegResponse
  exchangeAgain : LegResponse
  idJagValid : Bool
  redeem : LegResponse
  minted : TokenSet

/-- A leg whose errors are all transport- or expiry-class. -/
def LegResponse.transport : LegResponse → Except EmaError Unit
  | .unreachable => .error .transport
  | .answered status _ _ usable =>
    if isSuccess status && usable then .ok () else .error .transport

def classifyExchangeError (status : Nat) (error : Option String) : EmaError :=
  if status = 400 ∧ (error = some "access_denied" ∨ error = some "authorization_request_denied") then
    .authorizationDenied
  else .transport

def exchangeForIdJag : LegResponse → Except EmaError Unit
  | .unreachable => .error .transport
  | .answered status _ error usable =>
    if isSuccess status then if usable then .ok () else .error .transport
    else .error (classifyExchangeError status error)

/-- `str::contains`. -/
def containsText (text pattern : String) : Bool :=
  text.toList.tails.any fun rest => pattern.toList.isPrefixOf rest

/-- `is_subject_token_invalid`, of the response the error was made from. -/
def isSubjectTokenInvalid : LegResponse → Bool
  | .unreachable => false
  | .answered status body error _ =>
    !isSuccess status && classifyExchangeError status error == .transport &&
      (status == 401 || containsText body "invalid_grant" || containsText body "invalid_token")

/-- `refresh_and_persist_idp_token`. Every failure of the grant asks for a new sign-in. -/
def refreshAndPersistIdpToken (creds : IdpCredentials) (response : LegResponse) (saved : Bool) :
    Except EmaError Unit :=
  match creds.refreshToken, response.transport with
  | none, _ => .error .reauthRequired
  | some _, .error _ => .error .reauthRequired
  | some _, .ok () => if saved then .ok () else .error .storage

/-- Step 2 of `ensure_access_token`: the exchange, after a renewal of the sign-in where it is known to
have expired, or again after one where the exchange says so. -/
def obtainIdJag (c : EmaChain) (creds : IdpCredentials) : Except EmaError Unit :=
  if creds.expired then do
    refreshAndPersistIdpToken creds c.idpRefresh c.idpSaved
    exchangeForIdJag c.exchange
  else
    match exchangeForIdJag c.exchange with
    | .ok () => .ok ()
    | .error err =>
      if isSubjectTokenInvalid c.exchange then do
        refreshAndPersistIdpToken creds c.idpRefresh c.idpSaved
        exchangeForIdJag c.exchangeAgain
      else .error err

/-- `ensure_access_token`, from the credentials on. -/
def ensureAccessToken (c : EmaChain) : Except EmaError TokenSet :=
  match c.stored with
  | none => .error .storage
  | some none => .error .reauthRequired
  | some (some creds) => do
    obtainIdJag c creds
    if c.idJagValid then
      c.redeem.transport
      return c.minted
    else .error .transport

/-- The chain meets no refusal: there is a sign-in, the identity provider renews it where that is
asked for, and it denies no exchange. -/
structure EmaChain.NotRefused (c : EmaChain) : Prop where
  signedIn : c.stored ≠ some none
  renewed : ∀ creds, c.stored = some (some creds) →
    creds.expired = true ∨ isSubjectTokenInvalid c.exchange = true →
    creds.refreshToken ≠ none ∧ c.idpRefresh.transport = .ok ()
  exchange_ne : exchangeForIdJag c.exchange ≠ .error .authorizationDenied
  exchangeAgain_ne : exchangeForIdJag c.exchangeAgain ≠ .error .authorizationDenied

variable {r : LegResponse} {err : EmaError}

theorem transport_error (h : r.transport = .error err) : err.target = .connectionFailed := by
  unfold LegResponse.transport at h
  split at h
  · cases h
    rfl
  · split at h
    · cases h
    · cases h
      rfl

theorem exchange_error (h : exchangeForIdJag r = .error err) :
    err = .authorizationDenied ∨ err.target = .connectionFailed := by
  unfold exchangeForIdJag classifyExchangeError at h
  grind [EmaError.target]

/-- The renewal of a sign-in that the identity provider does not refuse fails in the store only. -/
theorem refreshAndPersist_error {creds : IdpCredentials} {saved : Bool}
    (htoken : creds.refreshToken ≠ none) (hr : r.transport = .ok ())
    (h : refreshAndPersistIdpToken creds r saved = .error err) : err.target = .connectionFailed := by
  obtain ⟨rt, hrt⟩ := Option.ne_none_iff_exists'.1 htoken
  simp only [refreshAndPersistIdpToken, hrt, hr] at h
  split at h
  · cases h
  · cases h
    rfl

/-- A sequence fails in its first part or in its second. -/
theorem error_of_bind {α β : Type} {x : Except EmaError α} {f : α → Except EmaError β}
    (h : (x >>= f) = .error err) : x = .error err ∨ ∃ a, x = .ok a ∧ f a = .error err := by
  cases x with
  | error err' => exact .inl (congrArg Except.error (Except.error.inj h))
  | ok a => exact .inr ⟨a, rfl, h⟩

namespace EmaChain.NotRefused

variable {c : EmaChain} {creds : IdpCredentials} {err : EmaError}

theorem renewal_error (h : c.NotRefused) (hstored : c.stored = some (some creds))
    (hneeded : creds.expired = true ∨ isSubjectTokenInvalid c.exchange = true)
    (hr : exchangeForIdJag r ≠ .error .authorizationDenied) (herr : (do
      refreshAndPersistIdpToken creds c.idpRefresh c.idpSaved
      exchangeForIdJag r) = .error err) : err.target = .connectionFailed := by
  obtain ⟨htoken, hrefresh⟩ := h.renewed creds hstored hneeded
  obtain herr | ⟨_, -, herr⟩ := error_of_bind herr
  · exact refreshAndPersist_error htoken hrefresh herr
  · obtain rfl | htarget := exchange_error herr
    · exact absurd herr hr
    · exact htarget

theorem obtainIdJag_error (h : c.NotRefused) (hstored : c.stored = some (some creds))
    (herr : obtainIdJag c creds = .error err) : err.target = .connectionFailed := by
  unfold obtainIdJag at herr
  split at herr
  · next hexpired => exact h.renewal_error hstored (.inl hexpired) h.exchange_ne herr
  · split at herr
    · cases herr
    · next err' hexchange =>
      split at herr
      · next hinvalid => exact h.renewal_error hstored (.inr hinvalid) h.exchangeAgain_ne herr
      · cases herr
        obtain rfl | htarget := exchange_error hexchange
        · exact absurd hexchange h.exchange_ne
        · exact htarget

/-- **A chain that is not refused fails in transport or in the store.** -/
theorem error_target (h : c.NotRefused) (herr : ensureAccessToken c = .error err) :
    err.target = .connectionFailed := by
  unfold ensureAccessToken at herr
  split at herr
  · cases herr
    rfl
  · next hstored => exact absurd hstored h.signedIn
  · next creds hstored =>
    obtain herr | ⟨_, -, herr⟩ := error_of_bind herr
    · exact h.obtainIdJag_error hstored herr
    · split at herr
      · obtain herr | ⟨_, -, herr⟩ := error_of_bind herr
        · exact transport_error herr
        · cases herr
      · cases herr
        rfl

end EmaChain.NotRefused

/-! ## Ways to fail -/

/-- **How a refresh fails**: where it stands, what it is answered, and the state to go to. -/
inductive RefreshFault : RefreshPc → Answer → OAuthState → Prop
  /-- No response, or none that can be read. -/
  | transport {rt : String} {r : TokenResponse} :
      (∀ status json, r = .answered status json → isSuccess status = true ∧ json = none) →
      RefreshFault (.post rt) (.post (executeTokenPost r)) .connectionFailed
  /-- An HTTP error status other than 404. -/
  | refused {rt : String} {status : Nat} {json : Option TokenAnswer} :
      isSuccess status = false → status ≠ 404 →
      RefreshFault (.post rt) (.post (executeTokenPost (.answered status json))) .authRequired
  /-- After a 404 no other token endpoint is found. -/
  | notRediscovered {rt : String} : RefreshFault (.rediscover rt) .fail .authRequired
  /-- The other token endpoint fails as well. -/
  | refusedAgain {rt : String} {r : TokenResponse} :
      (∀ answer, executeTokenPost r ≠ .success answer) →
      RefreshFault (.repost rt) (.post (executeTokenPost r)) .authRequired
  /-- An EMA chain that is not refused. -/
  | chain {c : EmaChain} {err : EmaError} : c.NotRefused → ensureAccessToken c = .error err →
      RefreshFault .emaChain (.chain (ensureAccessToken c)) .connectionFailed

/-- Whether the `Err` arm of a driver leaves the lifecycle to its refresh, or goes by the same
rule. -/
def Driver.keepsVerdict (ema : Bool) : Driver → Bool
  | .startup => ema
  | .reactive => false
  | .manual | .heartbeat | .proactive | .proactiveRetry | .callback => true

/-- Where a driver stands when its `Err` arm is over; the proactive task then waits to try again. -/
def Driver.afterErr : Driver → Pc
  | .proactive => .retrySleep
  | d => d.returned

/-- Where a thread stands between the failure of its refresh and the end of the `Err` arm. -/
inductive Failing (ema : Bool) (d : Driver) (e : Nat) (target : OAuthState) : Pc → Prop
  | refresh {err : OAuthError} : err.target = target →
      (d.keepsVerdict ema = true ∨ target = .authRequired) →
      Failing ema d e target (.refreshing d e (.failing err))
  | chain {err : EmaError} : err.target = target → target = .connectionFailed →
      d.keepsVerdict ema = true → Failing ema d e target (.refreshing d e (.emaFailing err))
  | followUp {err : OAuthError} : d ≠ .proactive → d.failureState err = target →
      Failing ema d e target (.followUp d e err)

section

variable {d : Driver} {e : Nat} {target : OAuthState}

theorem failIfCurrent_state (sh : OAuthAdapterInner) (e : Nat) (target : OAuthState) :
    (sh.failIfCurrent e target).state = if sh.grantEpoch = e then target else sh.state := by
  unfold OAuthAdapterInner.failIfCurrent
  split
  · rfl
  · rfl

/-- The `Err` arm follows up with the state the refresh went to, or is over. -/
theorem onErr_failing {err : OAuthError} (htarget : err.target = target)
    (hkeeps : d.keepsVerdict ema = true ∨ target = .authRequired) :
    Failing ema d e target (d.onErr ema e err) ∨ d.onErr ema e err = d.afterErr := by
  have hoverride (hd : d = .startup ∨ d = .reactive) (hkeep : d.keepsVerdict ema = false) :
      d.failureState err = target := by
    rw [hkeep] at hkeeps
    obtain rfl := hkeeps.resolve_left Bool.false_ne_true
    obtain rfl | rfl := hd <;> rfl
  cases d with
  | startup =>
    cases ema with
    | true => exact .inr rfl
    | false => exact .inl (.followUp (by decide) (hoverride (.inl rfl) rfl))
  | reactive => exact .inl (.followUp (by decide) (hoverride (.inr rfl) rfl))
  | proactiveRetry => exact .inl (.followUp (by decide) htarget)
  | proactive => exact .inr rfl
  | manual => exact .inr rfl
  | heartbeat => exact .inr rfl
  | callback => exact .inr rfl

/-- **A step of a failing refresh** goes to the target, as long as the grant is the one it started
with, and leads on or to the end of the `Err` arm. -/
theorem Failing.step (h : Failing ema d e target pc)
    (hstep : pc.step ema sh ts a = some (sh', pc', new)) :
    sh' = sh.failIfCurrent e target ∧ (Failing ema d e target pc' ∨ pc' = d.afterErr) := by
  cases h with
  | refresh htarget hkeeps =>
    obtain ⟨next, hst, rfl, -⟩ := Pc.step_refreshing hstep
    simp only [RefreshPc.step] at hst
    split at hst
    · cases hst
      rw [htarget]
      exact ⟨rfl, onErr_failing htarget hkeeps⟩
    · cases hst
  | chain htarget hconn hkeeps =>
    obtain ⟨next, hst, rfl, -⟩ := Pc.step_refreshing hstep
    simp only [RefreshPc.step] at hst
    split at hst
    · cases hst
      rw [htarget]
      exact ⟨rfl, onErr_failing hconn.symm (.inl hkeeps)⟩
    · cases hst
  | followUp hd hstate =>
    obtain ⟨-, rfl, rfl, -⟩ := Pc.step_followUp hstep
    rw [hstate]
    refine ⟨rfl, .inr ?_⟩
    cases d <;> first | rfl | exact absurd rfl hd

theorem Failing.ne_afterErr (h : Failing ema d e target pc) : pc ≠ d.afterErr := by
  cases h <;> cases d <;> simp [Driver.afterErr, Driver.returned]

/-- The fault puts the refresh where it fails with its target, and leaves the lifecycle alone. -/
theorem RefreshFault.step {p : RefreshPc} (hfault : RefreshFault p a target)
    (hkeeps : d.keepsVerdict ema = true ∨ target = .authRequired)
    (hstep : (Pc.refreshing d e p).step ema sh ts a = some (sh', pc', new)) :
    Failing ema d e target pc' := by
  obtain ⟨next, hst, rfl, -⟩ := Pc.step_refreshing hstep
  cases hfault with
  | @transport rt r hr =>
    have hpost : executeTokenPost r = .network ∨ executeTokenPost r = .invalidJson := by
      cases r with
      | unreachable => exact .inl rfl
      | answered status json =>
        obtain ⟨hok, rfl⟩ := hr status json rfl
        exact .inr (by simp [executeTokenPost, hok])
    obtain hpost | hpost := hpost <;>
    · rw [hpost] at hst
      cases hst
      exact .refresh rfl hkeeps
  | @refused rt status json hno hne =>
    have hpost : executeTokenPost (.answered status json) = .httpError := by
      simp [executeTokenPost, hno, hne]
    rw [hpost] at hst
    cases hst
    exact .refresh rfl hkeeps
  | notRediscovered =>
    cases hst
    exact .refresh rfl hkeeps
  | refusedAgain hr =>
    -- no success is left among the answers
    simp only [RefreshPc.step] at hst
    cases hst
    exact .refresh rfl hkeeps
  | chain hnot herr =>
    rw [herr] at hst
    cases hst
    obtain hkeep | habsurd := hkeeps
    · exact .chain (hnot.error_target herr) rfl hkeep
    · cases habsurd

end

/-! ## Whole runs -/

/-- Whether the thread goes on, as against its future being dropped. -/
def Choice.resumes : Choice → Bool
  | .drop => false
  | .resume _ => true

/-- **How a failed refresh ends.** A refresh fails while others run on. From then on, until its
driver's `Err` arm is over, the driver takes the lifecycle to the target of the fault and nowhere
else: in every step while the grant is the one it started with, and in at least one step. This holds
of the faults of transport for the drivers that keep the verdict, and of refusals for all. -/
theorem failed_refresh_lifecycle {ema : Bool} {d : Driver} {e i : Nat} {p : RefreshPc} {a : Answer}
    {target : OAuthState} {s s' : Pool.State OAuthAdapterInner Thread}
    {actions : List (Pool.Action Op Choice)} {moves : List (Pool.Move OAuthAdapterInner Thread Choice)}
    (hat : pcAt s i = some (.refreshing d e p)) (hfault : RefreshFault p a target)
    (hkeeps : d.keepsVerdict ema = true ∨ target = .authRequired)
    (hrun : (oauthPool ema).follow i s (.run i (.resume a) :: actions) = some (moves, s'))
    (hresumed : ∀ m ∈ moves, m.choice.resumes = true)
    (hpending : ∀ m ∈ moves, m.thread.pc ≠ d.afterErr) :
    (∀ m ∈ moves.tail, m.after.state =
      if m.before.grantEpoch = e then target else m.before.state) ∧
      (pcAt s' i = some d.afterErr → moves.tail ≠ []) := by
  obtain ⟨t, ht, hpc⟩ := Option.map_eq_some_iff.1 hat
  obtain ⟨sh, t', new, moves', hstep, hrest, rfl⟩ := Pool.follow_own ht hrun
  rw [List.forall_mem_cons] at hresumed hpending
  have hthread : t.step ema s.shared s.threads (.resume a) = some (sh, t', new) := hstep
  obtain ⟨-, ⟨-, -, -, hdrop⟩ | ⟨a', pc', ha', hown, rfl⟩⟩ := Thread.step_cases hthread
  · cases hdrop
  cases ha'
  rw [hpc] at hown
  have hfailing : Failing ema d e target pc' := hfault.step hkeeps hown
  obtain ⟨hmoves, u, hu, -, hend⟩ := Pool.follow_phase
    (Q := fun t => Failing ema d e target t.pc) (E := fun t => t.pc = d.afterErr)
    (C := fun c => c.resumes = true)
    (R := fun m => m.after.state = if m.before.grantEpoch = e then target else m.before.state)
    (by
      intro sh ts t c sh' t' new hQ hc hstep
      have hthread : t.step ema sh ts c = some (sh', t', new) := hstep
      obtain ⟨-, ⟨-, -, -, rfl⟩ | ⟨a, pc', rfl, hown, rfl⟩⟩ := Thread.step_cases hthread
      · cases hc
      · obtain ⟨rfl, hnext⟩ := hQ.step hown
        exact ⟨failIfCurrent_state sh e target, hnext⟩)
    hrest (Pool.getElem?_stepped_self ht) (.inl hfailing) hresumed.2 hpending.2
  refine ⟨hmoves, fun hreturned => ?_⟩
  obtain ⟨rfl, -⟩ | hsome := hend
  · rw [pcAt, hu] at hreturned
    exact absurd (Option.some.inj hreturned) hfailing.ne_afterErr
  · exact hsome

/-- An endpoint without tokens starts (thread 0) and spawns its heartbeat (thread 1). A login
(thread 2) finds the upstream down, and the heartbeat refreshes the tokens to recover. -/
def recovering : List (Pool.Action Op Choice) :=
  [.launch .initializeAdapter, .run 0 (.resume .fail)] ++ proceeds 3 0 ++
    .launch (.callback firstTokens) :: proceeds 5 2 ++ .run 2 (.resume .fail) :: proceeds 5 2 ++
    proceeds 7 1

/-- The heartbeat has posted the refresh token and waits for the answer. -/
def awaitingAnswer : Pool.State OAuthAdapterInner Thread :=
  ((oauthPool false).system.run ⟨.new none, []⟩ recovering).getD ⟨.new none, []⟩

/-- The token endpoint answers, and the heartbeat handles the answer. -/
def answeredBy (r : TokenResponse) : List (Pool.Action Op Choice) :=
  [.run 1 (.resume (.post (executeTokenPost r))), .run 1 (.resume .proceed)]

/-- **A server error ends the recovery.** The token endpoint answers the heartbeat of an endpoint
that lost its connection with a 503, and the lifecycle ends in `AuthRequired`. -/
theorem server_error_requires_login :
    (oauthPool false).system.Reachable awaitingAnswer ∧
      (TokenResponse.answered 503 none).transportClass = true ∧
      ((oauthPool false).system.run awaitingAnswer (answeredBy (.answered 503 none))).map
        (fun s => (s.shared.state, pcAt s 1)) = some (.authRequired, some .tick) := by
  have hrun : (oauthPool false).system.run ⟨.new none, []⟩ recovering = some awaitingAnswer := rfl
  exact ⟨(System.Reachable.init (oauthPool_init false none)).run hrun, rfl, rfl⟩

/-- What the heartbeat does with an endpoint that does not answer at all, and where that leads. -/
def unanswered : List (Pool.Move OAuthAdapterInner Thread Choice) ×
    Pool.State OAuthAdapterInner Thread :=
  ((oauthPool false).follow 1 awaitingAnswer (answeredBy .unreachable)).getD ([], awaitingAnswer)

/-- The same heartbeat keeps an endpoint recoverable whose token endpoint does not answer at all. -/
theorem unreachable_stays_recoverable :
    pcAt unanswered.2 1 = some .tick ∧ unanswered.1.tail ≠ [] ∧
      ∀ m ∈ unanswered.1.tail, m.after.state =
        if m.before.grantEpoch = 1 then .connectionFailed else m.before.state := by
  have hat : pcAt awaitingAnswer 1 = some (.refreshing .heartbeat 1 (.post "refresh-1")) := rfl
  have hunread (status : Nat) (json : Option TokenAnswer)
      (h : TokenResponse.unreachable = .answered status json) :
      isSuccess status = true ∧ json = none := by cases h
  have hrun : (oauthPool false).follow 1 awaitingAnswer (answeredBy .unreachable) =
      some unanswered := rfl
  have hreturned : pcAt unanswered.2 1 = some .tick := rfl
  obtain ⟨hmoves, hsome⟩ := failed_refresh_lifecycle hat (.transport hunread) (.inl rfl) hrun
    (by decide +kernel) (by decide +kernel)
  exact ⟨hreturned, hsome hreturned, hmoves⟩

end EndaraRelay
