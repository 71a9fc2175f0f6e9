import EndaraRelay.OAuth.EmaChain

/-!
# Responses to a refresh

`execute_token_post` reads the fields of a successful response one by one, each with its own default, and
what it makes of them is applied: written to disk and to memory. An `access_token` that is missing, or is
no text, is read as the empty one, and nobody looks at it again. The redemption of an ID-JAG and the
callback of a login refuse the same response (`readLeg_defective`).

**Theorem (`commits_only_usable_iff`).** A response commits nothing but a usable token set exactly if it is
not a success whose JSON lacks a non-empty `access_token`.

A response is handled by its refresh alone while other threads run on: the moves of that thread are
followed until the `Err` arm of its driver is over.
-/

namespace EndaraRelay

open Verif

/-! ## Reading a response -/

/-- The `TokenSet` of a successful response, which keeps the old refresh token where none is returned. -/
def postedTokens (json : Json) (nowSecs : Nat) (oldRefreshToken : Option String) : Ema.TokenSet where
  accessToken := (Ema.text json "access_token").getD ""
  refreshToken := (Ema.text json "refresh_token").or oldRefreshToken
  expiresAt := ((json.get "expires_in").bind Json.asU64).map fun secs => Ema.addSecs nowSecs secs
  tokenType := (Ema.text json "token_type").getD "Bearer"
  scope := Ema.text json "scope"
  issuedAt := some nowSecs

/-- What the answer itself contributes to a token set. -/
def tokenAnswer (json : Json) (nowSecs : Nat) : TokenAnswer where
  accessToken := (postedTokens json nowSecs none).accessToken
  refreshToken := (postedTokens json nowSecs none).refreshToken
  expiresAt := (postedTokens json nowSecs none).expiresAt

/-- What comes back from a POST: nothing, or a response. -/
abbrev PostResponse := Except String Ema.EmaResponse

namespace PostResponse

/-- The response as `execute_token_post` tells it apart from others. -/
def toTokenResponse (nowSecs : Nat) : PostResponse → TokenResponse
  | .error _ => .unreachable
  | .ok resp =>
    .answered resp.status
      (match resp.json with
      | .ok json => some (tokenAnswer json nowSecs)
      | .error _ => none)

/-- The answer a refresh goes on with. -/
def outcome (r : PostResponse) (nowSecs : Nat) : TokenPostOutcome :=
  executeTokenPost (r.toTokenResponse nowSecs)

/-- A success with a token. -/
def Usable (r : PostResponse) : Prop :=
  ∃ resp json token, r = .ok resp ∧ isSuccess resp.status = true ∧ resp.json = .ok json ∧
    Ema.text json "access_token" = some token ∧ token ≠ ""

/-- A success whose JSON has no token, as that of an OAuth error object. -/
def Defective (r : PostResponse) : Prop :=
  ∃ resp json, r = .ok resp ∧ isSuccess resp.status = true ∧ resp.json = .ok json ∧
    (Ema.text json "access_token").getD "" = ""

variable {r : PostResponse} {nowSecs : Nat}

theorem success_cases {answer : TokenAnswer}
    (h : r.outcome nowSecs = .success answer) :
    ∃ resp json, r = .ok resp ∧ isSuccess resp.status = true ∧ resp.json = .ok json ∧
      answer = tokenAnswer json nowSecs := by
  cases r with
  | error e => cases h
  | ok resp =>
    unfold outcome toTokenResponse executeTokenPost at h
    dsimp only at h
    split at h
    · next hsuccess =>
      cases hjson : resp.json with
      | ok json =>
        rw [hjson] at h
        cases h
        exact ⟨resp, json, rfl, hsuccess, hjson, rfl⟩
      | error e =>
        rw [hjson] at h
        cases h
    · split at h <;> cases h

/-- What is neither usable nor defective does not succeed. -/
theorem not_success (hdefective : ¬ Defective r) (husable : ¬ Usable r) (answer : TokenAnswer) :
    r.outcome nowSecs ≠ .success answer := by
  intro h
  obtain ⟨resp, json, hr, hsuccess, hjson, -⟩ := success_cases h
  cases htoken : Ema.text json "access_token" with
  | none => exact hdefective ⟨resp, json, hr, hsuccess, hjson, by rw [htoken]; rfl⟩
  | some token =>
    by_cases hempty : token = ""
    · exact hdefective ⟨resp, json, hr, hsuccess, hjson, by rw [htoken]; exact hempty⟩
    · exact husable ⟨resp, json, token, hr, hsuccess, hjson, htoken, hempty⟩

/-- A defective response succeeds, with the empty token. -/
theorem success_of_defective (nowSecs : Nat) (h : Defective r) :
    ∃ answer, r.outcome nowSecs = .success answer ∧ answer.accessToken = "" := by
  obtain ⟨resp, json, rfl, hsuccess, hjson, htoken⟩ := h
  refine ⟨tokenAnswer json nowSecs, ?_, htoken⟩
  unfold outcome toTokenResponse executeTokenPost
  dsimp only
  rw [if_pos hsuccess, hjson]

theorem Usable.not_defective (husable : Usable r) : ¬ Defective r := by
  obtain ⟨resp, json, token, rfl, -, hjson, htoken, hne⟩ := husable
  rintro ⟨_, _, heq, -, hjson', hempty⟩
  cases heq
  cases hjson.symm.trans hjson'
  rw [htoken] at hempty
  exact hne hempty

end PostResponse

/-! ## After the response -/

def Choice.posts : Choice → Bool
  | .resume (.post _) => true
  | _ => false

/-- Where a refresh stands whose response brought no token set: on its way to another endpoint, or in the
`Err` arm of its driver. -/
inductive WithoutTokens (d : Driver) (e : Nat) : Pc → Prop
  | rediscover {rt : String} : WithoutTokens d e (.refreshing d e (.rediscover rt))
  | repost {rt : String} : WithoutTokens d e (.refreshing d e (.repost rt))
  | failing {err : OAuthError} : WithoutTokens d e (.refreshing d e (.failing err))
  | followUp {err : OAuthError} : d ≠ .proactive → WithoutTokens d e (.followUp d e err)
  /-- The future of the operation was dropped. -/
  | dropped : WithoutTokens d e .done

section Moves

variable {ema : Bool} {d : Driver} {e : Nat} {sh sh' : OAuthAdapterInner} {ts new : List Thread} {a : Answer}
  {pc pc' : Pc}

theorem failIfCurrent_disk (sh : OAuthAdapterInner) (e : Nat) (target : OAuthState) :
    (sh.failIfCurrent e target).disk = sh.disk := by
  unfold OAuthAdapterInner.failIfCurrent
  split <;> rfl

/-- The `Err` arm is over, or follows up. -/
theorem onErr_withoutTokens (ema : Bool) (d : Driver) (e : Nat) (err : OAuthError) :
    WithoutTokens d e (d.onErr ema e err) ∨ d.onErr ema e err = d.afterErr := by
  cases d with
  | startup =>
    cases ema with
    | true => exact .inr rfl
    | false => exact .inl (.followUp (by decide))
  | reactive => exact .inl (.followUp (by decide))
  | proactiveRetry => exact .inl (.followUp (by decide))
  | _ => exact .inr rfl

/-- **The response**: it brings a token set only if it is a success, and writes none. -/
theorem step_response {outcome : TokenPostOutcome} {p : RefreshPc} {rt : String}
    (hp : p = .post rt ∨ p = .repost rt) (hfails : ∀ answer, outcome ≠ .success answer)
    (h : (Pc.refreshing d e p).step ema sh ts (.post outcome) = some (sh', pc', new)) :
    (sh'.tokens = sh.tokens ∧ sh'.disk = sh.disk) ∧ WithoutTokens d e pc' := by
  obtain ⟨next, hst, rfl, -⟩ := Pc.step_refreshing h
  rcases hp with rfl | rfl
  · cases outcome with
    | success answer => exact absurd rfl (hfails answer)
    | notFound =>
      cases hst
      exact ⟨⟨rfl, rfl⟩, .rediscover⟩
    | _ =>
      cases hst
      exact ⟨⟨rfl, rfl⟩, .failing⟩
  · cases outcome with
    | success answer => exact absurd rfl (hfails answer)
    | _ =>
      cases hst
      exact ⟨⟨rfl, rfl⟩, .failing⟩

/-- What follows writes none either, without another response. -/
theorem WithoutTokens.step (hpc : WithoutTokens d e pc) (ha : (Choice.resume a).posts = false)
    (h : pc.step ema sh ts a = some (sh', pc', new)) :
    (sh'.tokens = sh.tokens ∧ sh'.disk = sh.disk) ∧ (WithoutTokens d e pc' ∨ pc' = d.afterErr) := by
  cases hpc with
  | rediscover =>
    obtain ⟨next, hst, rfl, -⟩ := Pc.step_refreshing h
    cases a with
    | proceed =>
      cases hst
      exact ⟨⟨rfl, rfl⟩, .inl .repost⟩
    | fail =>
      cases hst
      exact ⟨⟨rfl, rfl⟩, .inl .failing⟩
    | _ => cases hst
  | repost =>
    obtain ⟨next, hst, rfl, -⟩ := Pc.step_refreshing h
    cases a with
    | post outcome => cases ha
    | _ => cases hst
  | failing =>
    obtain ⟨next, hst, rfl, -⟩ := Pc.step_refreshing h
    simp only [RefreshPc.step] at hst
    split at hst
    · cases hst
      exact ⟨⟨OAuthAdapterInner.failIfCurrent_tokens _ _ _, failIfCurrent_disk _ _ _⟩,
        onErr_withoutTokens ema d e _⟩
    · cases hst
  | followUp hd =>
    obtain ⟨-, rfl, rfl, -⟩ := Pc.step_followUp h
    refine ⟨⟨OAuthAdapterInner.failIfCurrent_tokens _ _ _, failIfCurrent_disk _ _ _⟩, .inr ?_⟩
    cases d <;> first | rfl | exact absurd rfl hd
  | dropped => cases h

theorem WithoutTokens.not_applying (h : WithoutTokens d e pc) (d' : Driver) (ap : Apply) (p : ApplyPc) :
    pc ≠ .applying d' ap p := by
  cases h <;> intro h <;> cases h

theorem Driver.afterErr_not_applying (d d' : Driver) (ap : Apply) (p : ApplyPc) :
    d.afterErr ≠ .applying d' ap p := by
  cases d <;> intro h <;> cases h

end Moves

/-! ## The result -/

/-- The stored token set and the one in memory are left alone. -/
def KeepsTokens (m : Pool.Move OAuthAdapterInner Thread Choice) : Prop :=
  m.after.tokens = m.before.tokens ∧ m.after.disk = m.before.disk

/-- **A refresh commits only a usable token**: wherever a refresh that waits for its response gets this
one, and whatever other threads do, if the response is not usable then the refresh neither writes a
token set nor goes on to apply one, until it gets another response or its `Err` arm is over. -/
def CommitsOnlyUsable (ema : Bool) (r : PostResponse) (nowSecs : Nat) : Prop :=
  ∀ {s s' : Pool.State OAuthAdapterInner Thread} {d : Driver} {e i : Nat} {p : RefreshPc} {rt : String}
    {actions : List (Pool.Action Op Choice)} {moves : List (Pool.Move OAuthAdapterInner Thread Choice)},
    (oauthPool ema).system.Reachable s → pcAt s i = some (.refreshing d e p) →
    p = .post rt ∨ p = .repost rt →
    (oauthPool ema).follow i s
      (.run i (.resume (.post (r.outcome nowSecs))) :: actions) = some (moves, s') →
    (∀ m ∈ moves.tail, m.choice.posts = false) → (∀ m ∈ moves, m.thread.pc ≠ d.afterErr) →
    r.Usable ∨ (∀ m ∈ moves, KeepsTokens m) ∧ ∀ d' ap p', pcAt s' i ≠ some (.applying d' ap p')

/-- What is neither usable nor defective commits nothing. -/
theorem commitsOnlyUsable_of_not_defective {ema : Bool} {r : PostResponse} {nowSecs : Nat}
    (h : ¬ r.Defective) : CommitsOnlyUsable ema r nowSecs := by
  intro s s' d e i p rt actions moves _ hat hp hrun hposts hpending
  by_cases husable : r.Usable
  · exact .inl husable
  refine .inr ?_
  obtain ⟨t, ht, hpc⟩ := Option.map_eq_some_iff.1 hat
  obtain ⟨sh, t', new, moves', hstep, hrest, rfl⟩ := Pool.follow_own ht hrun
  rw [List.forall_mem_cons] at hpending
  rw [List.tail_cons] at hposts
  change t.step ema s.shared s.threads (.resume (.post (r.outcome nowSecs))) = some (sh, t', new) at hstep
  obtain ⟨-, ⟨-, -, -, hdrop⟩ | ⟨a, pc', ha, hown, rfl⟩⟩ := Thread.step_cases hstep
  · cases hdrop
  cases ha
  rw [hpc] at hown
  obtain ⟨hkeeps, hwithout⟩ := step_response hp (fun answer => PostResponse.not_success h husable answer) hown
  obtain ⟨hmoves, u, hu, hend, -⟩ := Pool.follow_phase
    (Q := fun t => WithoutTokens d e t.pc) (E := fun t => t.pc = d.afterErr)
    (C := fun c => c.posts = false) (R := KeepsTokens)
    (by
      intro sh ts t c sh' t' new hQ hc hstep
      have hthread : t.step ema sh ts c = some (sh', t', new) := hstep
      obtain ⟨-, ⟨rfl, rfl, -, -⟩ | ⟨a, pc', rfl, hown, rfl⟩⟩ := Thread.step_cases hthread
      · exact ⟨⟨rfl, rfl⟩, .inl .dropped⟩
      · exact hQ.step hc hown)
    hrest (Pool.getElem?_stepped_self ht) (.inl hwithout) hposts hpending.2
  refine ⟨List.forall_mem_cons.2 ⟨hkeeps, hmoves⟩, fun d' ap p' happly => ?_⟩
  rw [pcAt, hu] at happly
  rcases hend with hend | hend
  · exact hend.not_applying d' ap p' (Option.some.inj happly)
  · exact d.afterErr_not_applying d' ap p' (hend.symm.trans (Option.some.inj happly))

/-- The heartbeat gets a token set, and its driver starts to apply it. -/
def appliesAnswer (answer : TokenAnswer) : List (Pool.Action Op Choice) :=
  .run 1 (.resume (.post (.success answer))) :: proceeds 3 1

theorem applies_answer (answer : TokenAnswer) :
    ∃ moves s', (oauthPool false).follow 1 awaitingAnswer (appliesAnswer answer) = some (moves, s') ∧
      (∀ m ∈ moves.tail, m.choice.posts = false) ∧
      (∀ m ∈ moves, m.thread.pc ≠ Driver.afterErr .heartbeat) ∧
      ∃ m ∈ moves, m.before.disk = some firstTokens ∧
        m.after.disk = some (answer.tokenSet (some "refresh-1")) := by
  refine ⟨_, _, rfl, ?_, ?_, ?_⟩
  · simp [Choice.posts]
  · simp only [List.forall_mem_cons]
    refine ⟨?_, ?_, ?_, ?_, List.forall_mem_nil _⟩ <;> intro h <;> cases h
  · exact ⟨_, .tail _ (.tail _ (.tail _ (.head _))), rfl, rfl⟩

/-- A success whose JSON has no token is saved. -/
theorem not_commitsOnlyUsable {r : PostResponse} (nowSecs : Nat) (h : r.Defective) :
    ¬ CommitsOnlyUsable false r nowSecs := by
  intro hcommits
  obtain ⟨answer, hsuccess, hempty⟩ := PostResponse.success_of_defective nowSecs h
  obtain ⟨moves, s', hrun, hposts, hpending, m, hm, hbefore, hafter⟩ := applies_answer answer
  have hreach : (oauthPool false).system.Reachable awaitingAnswer :=
    (System.Reachable.init (oauthPool_init false none)).run (show (oauthPool false).system.run _ recovering = _ from rfl)
  have hat : pcAt awaitingAnswer 1 = some (.refreshing .heartbeat 1 (.post "refresh-1")) := rfl
  unfold appliesAnswer at hrun
  rw [← hsuccess] at hrun
  rcases hcommits hreach hat (.inl rfl) hrun hposts hpending with husable | ⟨hkeeps, -⟩
  · exact husable.not_defective h
  · have htoken := (hkeeps m hm).2
    rw [hbefore, hafter] at htoken
    have haccess := congrArg TokenSet.accessToken (Option.some.inj htoken)
    change answer.accessToken = "access-1" at haccess
    rw [hempty] at haccess
    exact absurd haccess (by decide)

/-- **A response commits only a usable token set** unless it is a success whose JSON has no token. -/
theorem commits_only_usable_iff (r : PostResponse) (nowSecs : Nat) :
    (∀ ema, CommitsOnlyUsable ema r nowSecs) ↔ ¬ r.Defective :=
  ⟨fun h hdefective => not_commitsOnlyUsable nowSecs hdefective (h false),
    fun h _ => commitsOnlyUsable_of_not_defective h⟩

def errorObject : PostResponse :=
  .ok ⟨200, none, .ok (.obj [("error", .str "invalid_grant")])⟩

theorem errorObject_committed : ¬ ∀ r nowSecs, CommitsOnlyUsable false r nowSecs :=
  fun h => not_commitsOnlyUsable 0 ⟨_, _, rfl, rfl, rfl, rfl⟩ (h errorObject 0)

end EndaraRelay
