import EndaraRelay.Lib.Pool
import EndaraRelay.Adapter
import EndaraRelay.Text

/-!
# Sign-in challenges

A tool call that the upstream answers with a 401 and a `Bearer` challenge is answered by the sign-in
that the interceptor starts. The challenge gets from `send_request_inner`, which sees the response, to
`maybe_intercept_401` through one slot of the adapter, `last_www_authenticate`: every response that is
not a success is captured there, a 401 with the first of its `WWW-Authenticate` values, any other
with nothing.

**Theorem (`challenge_intercepted`).** A Bearer 401 is answered by its own sign-in as long as the first
value of each such response is a Bearer challenge, and no other response is captured between the
capture of a tool call and its look at the slot, unless it leaves the same value there.

Otherwise the raw 401 may reach the client (`bearer_401_leaks`).
-/

namespace EndaraRelay.Http

open Verif

/-! ## Challenges -/

/-- A parsed `WWW-Authenticate: Bearer` challenge. -/
structure BearerChallenge where
  realm : Option (List Char)
  resourceMetadata : Option (List Char)

/-- `str::split_once('=')`. -/
def splitOnceEq (s : List Char) : Option (List Char × List Char) :=
  match s.dropWhile (· ≠ '=') with
  | [] => none
  | _ :: v => some (s.takeWhile (· ≠ '='), v)

/-- `str::trim_matches('"')`. -/
def trimQuotes (s : List Char) : List Char := (s.dropWhile (· = '"')).rdropWhile (· = '"')

/-- One `auth-param`. -/
def BearerChallenge.addParam (challenge : BearerChallenge) (part : List Char) : BearerChallenge :=
  match splitOnceEq part with
  | none => challenge
  | some (k, v) =>
    let key := (trimChars k).map Char.toLower
    let val := trimQuotes (trimChars v)
    if key = "realm".toList then { challenge with realm := some val }
    else if key = "resource_metadata".toList then { challenge with resourceMetadata := some val }
    else challenge

def parseBearerChallenge (header : String) : Option BearerChallenge :=
  let trimmed := trimChars header.toList
  if (trimmed.take 6).map Char.toLower ≠ "bearer".toList then none
  else
    let rest := trimmed.drop 6
    -- the scheme must be delimited by white space, or be the whole value
    if (rest.head?.map isWhitespace).getD true then
      some ((rest.splitOn ',').foldl .addParam ⟨none, none⟩)
    else none

/-! ## Responses -/

/-- A response of the upstream: its status, the values of its `WWW-Authenticate` headers (`none` where
`to_str` fails), and what its body decodes to when the status is a success. -/
structure UpstreamResponse where
  status : Nat
  wwwAuthenticate : List (Option String)
  body : String
  result : Except AdapterError Json

namespace UpstreamResponse

def isSuccess (r : UpstreamResponse) : Bool := 200 ≤ r.status ∧ r.status < 300

/-- What `send_request_inner` makes of it. -/
def toResult (r : UpstreamResponse) : Except AdapterError Json :=
  if r.isSuccess then r.result else .error (.httpError r.status r.body)

/-- What it leaves in the slot when it is not a success: `headers().get` takes the first value. -/
def captured (r : UpstreamResponse) : Option String :=
  if r.status = 401 then r.wwwAuthenticate.head?.join else none

def bearerChallenges (r : UpstreamResponse) : List String :=
  if r.status = 401 then
    (r.wwwAuthenticate.filterMap id).filter fun c => (parseBearerChallenge c).isSome
  else []

/-- What the response leaves in the slot is one of its Bearer challenges. -/
def capturesBearer (r : UpstreamResponse) : Bool :=
  r.captured.any fun c => c ∈ r.bearerChallenges

end UpstreamResponse

inductive JitError where
  | notABearerChallenge
  | discovery
  | dcr
  | noClientCredentials

/-- The tool result with this text, marked as an error. -/
def errorToolResult (text : String) : Json :=
  .obj [("content", .arr [.obj [("text", .str text), ("type", .str "text")]]),
    ("isError", .bool true)]

def surfaceAuthorizeUrl (authorizeUrl : String) : Json :=
  errorToolResult ("Sign-in required to use this tool. Open the following URL in a browser to authorize, " ++
    "then retry the tool call:\n\n" ++ authorizeUrl)

def surfaceOauthUnavailable : Json :=
  errorToolResult ("Sign-in is required to use this tool, but the sign-in flow could not be started " ++
    "right now. Please retry in a moment; if the problem persists, contact the server administrator.")

/-- What the client gets for the outcome of `intercept`. -/
def surface : Except JitError String → Json
  | .ok authorizeUrl => surfaceAuthorizeUrl authorizeUrl
  | .error _ => surfaceOauthUnavailable

def shouldInterceptOutcome : Except AdapterError Json → Bool
  | .error (.httpError status _) => status = 401
  | _ => false

/-! ## Requests -/

inductive RequestKind where
  /-- `call_tool_with_request_params`, which passes its result to `maybe_intercept_401`. -/
  | toolCall
  /-- Any other method. -/
  | other
deriving DecidableEq

structure ChallengeSlot where
  jitInterceptor : Bool
  lastWwwAuthenticate : Option String

inductive RequestPc where
  | sending
  /-- Not a success; the slot is written next. -/
  | capturing (r : UpstreamResponse)
  /-- `resp.text()` is awaited. -/
  | reading (r : UpstreamResponse)
  /-- A hard 401 of a tool call; the slot is read next. -/
  | lookingUp (r : UpstreamResponse)
  | intercepting (r : UpstreamResponse) (challenge : String)
  /-- Answered, with the challenge and the outcome of the interception if there was one. -/
  | answered (r : UpstreamResponse) (intercepted : Option (String × Except JitError String))
      (answer : Except AdapterError Json)
  | failed (err : AdapterError)
  | cancelled

structure Request where
  kind : RequestKind
  pc : RequestPc

inductive RequestChoice where
  | go
  /-- The response arrives. -/
  | response (r : UpstreamResponse)
  /-- `send` fails. -/
  | sendFails (err : AdapterError)
  | intercepted (outcome : Except JitError String)
  | cancel

/-- The result of the request is there. -/
def RequestPc.finish (jitInterceptor : Bool) (kind : RequestKind) (r : UpstreamResponse) : RequestPc :=
  if kind = .toolCall ∧ jitInterceptor ∧ shouldInterceptOutcome r.toResult then .lookingUp r
  else .answered r none r.toResult

/-- The slot is read. -/
def RequestPc.lookUp (r : UpstreamResponse) : Option String → RequestPc
  | none => .answered r none r.toResult
  | some challenge =>
    match parseBearerChallenge challenge with
    | none => .answered r none r.toResult
    | some _ => .intercepting r challenge

def RequestPc.step (sh : ChallengeSlot) (kind : RequestKind) :
    RequestPc → RequestChoice → Option (ChallengeSlot × RequestPc)
  | .sending, .response r =>
    some (sh, if r.isSuccess then .finish sh.jitInterceptor kind r else .capturing r)
  | .sending, .sendFails err => some (sh, .failed err)
  | .capturing r, .go => some ({ sh with lastWwwAuthenticate := r.captured }, .reading r)
  | .reading r, .go => some (sh, .finish sh.jitInterceptor kind r)
  | .lookingUp r, .go => some (sh, .lookUp r sh.lastWwwAuthenticate)
  | .intercepting r challenge, .intercepted outcome =>
    some (sh, .answered r (some (challenge, outcome)) (.ok (surface outcome)))
  | .sending, .cancel | .capturing _, .cancel | .reading _, .cancel | .lookingUp _, .cancel
  | .intercepting _ _, .cancel => some (sh, .cancelled)
  | _, _ => none

/-- The requests on one adapter with an interceptor. -/
def challenges : Pool ChallengeSlot Request RequestKind RequestChoice where
  init sh := sh.jitInterceptor = true ∧ sh.lastWwwAuthenticate = none
  launch _ _ kind := some ⟨kind, .sending⟩
  step sh _ t c := (t.pc.step sh t.kind c).map fun r => (r.1, ⟨t.kind, r.2⟩, [])

abbrev ChallengeState := Pool.State ChallengeSlot Request

abbrev ChallengeAction := Pool.Action RequestKind RequestChoice

/-! ## Interception -/

/-- The response of a tool call that stands between its capture and its look at the slot. -/
def Request.awaitsLookUp (t : Request) : Option UpstreamResponse :=
  match t.kind, t.pc with
  | .toolCall, .reading r | .toolCall, .lookingUp r => if r.bearerChallenges = [] then none else some r
  | _, _ => none

/-- What is captured is a Bearer challenge when there is one, and disturbs no tool call that has not
looked at the slot. -/
def undisturbed (s : ChallengeState) : ChallengeAction → Bool
  | .launch _ => true
  | .run i c =>
    match s.threads[i]?, c with
    | some ⟨kind, .capturing r⟩, .go =>
      (kind ≠ .toolCall ∨ r.bearerChallenges = [] ∨ r.capturesBearer) ∧
        s.threads.all fun u => u.awaitsLookUp.all fun q => q.captured = r.captured
    | _, _ => true

/-- A tool call whose response was a Bearer 401 is answered by the sign-in for its challenge. -/
def Request.Intercepted (t : Request) : Prop :=
  ∀ r intercepted answer, t.kind = .toolCall → t.pc = .answered r intercepted answer →
    r.bearerChallenges ≠ [] → ∃ challenge ∈ r.bearerChallenges, ∃ outcome,
      intercepted = some (challenge, outcome) ∧ answer = .ok (surface outcome)

section

variable {sh sh' : ChallengeSlot} {pc pc' : RequestPc} {c : RequestChoice} {r : UpstreamResponse}
  {challenge : String}

theorem status_of_bearerChallenges (h : r.bearerChallenges ≠ []) : r.status = 401 := by
  by_contra hne
  unfold UpstreamResponse.bearerChallenges at h
  rw [if_neg hne] at h
  exact h rfl

/-- A Bearer 401 is a hard 401, of which `send_request_inner` makes an error. -/
theorem toResult_of_bearerChallenges (h : r.bearerChallenges ≠ []) :
    r.isSuccess = false ∧ shouldInterceptOutcome r.toResult = true := by
  have hstatus := status_of_bearerChallenges h
  have hfail : r.isSuccess = false := by simp [UpstreamResponse.isSuccess, hstatus]
  refine ⟨hfail, ?_⟩
  rw [UpstreamResponse.toResult, hfail]
  simp [shouldInterceptOutcome, hstatus]

theorem parse_of_mem_bearerChallenges (h : challenge ∈ r.bearerChallenges) :
    (parseBearerChallenge challenge).isSome := by
  unfold UpstreamResponse.bearerChallenges at h
  split at h
  · exact (List.mem_filter.1 h).2
  · cases h

/-- What holds of a tool call that is answered with a Bearer 401, from the capture on. -/
def RequestPc.Undisturbed (sh : ChallengeSlot) : RequestPc → Prop
  | .reading r | .lookingUp r =>
    r.bearerChallenges ≠ [] → sh.lastWwwAuthenticate = r.captured ∧ r.capturesBearer = true
  | .intercepting r challenge => r.bearerChallenges ≠ [] → challenge ∈ r.bearerChallenges
  | .answered r intercepted answer =>
    r.bearerChallenges ≠ [] → ∃ challenge ∈ r.bearerChallenges, ∃ outcome,
      intercepted = some (challenge, outcome) ∧ answer = .ok (surface outcome)
  | _ => True

/-- The slot holds a Bearer challenge of the response: the look at it leads to the interception. -/
theorem lookUp_of_capturesBearer (h : r.capturesBearer = true) :
    ∃ challenge ∈ r.bearerChallenges,
      RequestPc.lookUp r r.captured = .intercepting r challenge := by
  unfold UpstreamResponse.capturesBearer at h
  cases hcaptured : r.captured with
  | none =>
    rw [hcaptured] at h
    cases h
  | some challenge =>
    rw [hcaptured] at h
    have hmem : challenge ∈ r.bearerChallenges := of_decide_eq_true h
    refine ⟨challenge, hmem, ?_⟩
    obtain ⟨parsed, hparsed⟩ := Option.isSome_iff_exists.1 (parse_of_mem_bearerChallenges hmem)
    rw [RequestPc.lookUp, hparsed]

theorem finish_undisturbed (hjit : sh.jitInterceptor = true)
    (h : r.bearerChallenges ≠ [] → sh.lastWwwAuthenticate = r.captured ∧ r.capturesBearer = true) :
    (RequestPc.finish sh.jitInterceptor .toolCall r).Undisturbed sh := by
  unfold RequestPc.finish
  by_cases hhard : shouldInterceptOutcome r.toResult = true
  · rw [if_pos ⟨rfl, hjit, hhard⟩]
    exact h
  · rw [if_neg fun hcond => hhard hcond.2.2]
    intro hb
    exact absurd (toResult_of_bearerChallenges hb).2 hhard

/-- A tool call's own step, where a capture is one of a Bearer challenge if there is any. -/
theorem RequestPc.step_undisturbed (hjit : sh.jitInterceptor = true)
    (hcapture : ∀ r, pc = .capturing r → c = .go → r.bearerChallenges ≠ [] →
      r.capturesBearer = true)
    (h : pc.Undisturbed sh) (hstep : pc.step sh .toolCall c = some (sh', pc')) :
    pc'.Undisturbed sh' := by
  revert hstep
  fun_cases RequestPc.step sh .toolCall pc c <;> intro hstep <;> cases hstep
  case case1 r =>
    by_cases hsuccess : r.isSuccess = true
    · rw [if_pos hsuccess]
      refine finish_undisturbed hjit fun hb => ?_
      rw [(toResult_of_bearerChallenges hb).1] at hsuccess
      cases hsuccess
    · rw [if_neg hsuccess]
      trivial
  case case3 r => exact fun hb => ⟨rfl, hcapture r rfl rfl hb⟩
  case case4 r => exact finish_undisturbed hjit h
  case case5 r =>
    by_cases hb : r.bearerChallenges = []
    · have hneg : ∀ {P : Prop}, r.bearerChallenges ≠ [] → P := fun hne => absurd hb hne
      unfold RequestPc.lookUp
      split
      · exact hneg
      · split <;> exact hneg
    · obtain ⟨hslot, hbearer⟩ := h hb
      obtain ⟨challenge, hmem, hlook⟩ := lookUp_of_capturesBearer hbearer
      rw [hslot, hlook]
      exact fun _ => hmem
  case case6 r challenge outcome => exact fun hb => ⟨challenge, h hb, outcome, rfl, rfl⟩
  all_goals trivial

theorem RequestPc.step_jitInterceptor {kind : RequestKind} (hstep : pc.step sh kind c = some (sh', pc')) :
    sh'.jitInterceptor = sh.jitInterceptor := by
  revert hstep
  fun_cases RequestPc.step sh kind pc c <;> intro hstep <;> cases hstep <;> rfl

theorem RequestPc.step_slot {kind : RequestKind} (hstep : pc.step sh kind c = some (sh', pc')) :
    sh' = sh ∨ ∃ r, pc = .capturing r ∧ c = .go ∧ sh' = { sh with lastWwwAuthenticate := r.captured } := by
  revert hstep
  fun_cases RequestPc.step sh kind pc c <;> intro hstep <;> cases hstep
  case case3 r => exact .inr ⟨r, rfl, rfl, rfl⟩
  all_goals exact .inl rfl

/-- Only the slot can disturb a tool call, and only one that awaits its look. -/
theorem RequestPc.Undisturbed.of_slot (h : pc.Undisturbed sh)
    (hslot : ∀ r, (Request.mk .toolCall pc).awaitsLookUp = some r →
      sh'.lastWwwAuthenticate = r.captured) : pc.Undisturbed sh' := by
  have hawaits : ∀ r, (pc = .reading r ∨ pc = .lookingUp r) → pc.Undisturbed sh' := by
    intro r hpc
    have hkeep : r.bearerChallenges ≠ [] →
        sh'.lastWwwAuthenticate = r.captured ∧ r.capturesBearer = true := by
      intro hb
      obtain rfl | rfl := hpc
      · exact ⟨hslot r (if_neg hb), (h hb).2⟩
      · exact ⟨hslot r (if_neg hb), (h hb).2⟩
    obtain rfl | rfl := hpc
    · exact hkeep
    · exact hkeep
  cases pc with
  | reading r => exact hawaits r (.inl rfl)
  | lookingUp r => exact hawaits r (.inr rfl)
  | _ => exact h

end

variable {s : ChallengeState}

theorem challenges_step {sh sh' : ChallengeSlot} {ts new : List Request} {t t' : Request}
    {c : RequestChoice} (h : challenges.step sh ts t c = some (sh', t', new)) :
    t.pc.step sh t.kind c = some (sh', t'.pc) ∧ t'.kind = t.kind ∧ new = [] := by
  obtain ⟨r, hr, heq⟩ := Option.map_eq_some_iff.1 h
  cases heq
  exact ⟨hr, rfl, rfl⟩

theorem jitInterceptor_of_reachable {ok : ChallengeState → ChallengeAction → Prop}
    (h : challenges.system.ReachableWhile ok s) : s.shared.jitInterceptor = true := by
  refine Pool.invariant_of (I := fun _ => True) (J := fun s => s.shared.jitInterceptor = true)
    (fun _ _ => trivial) ?_ ?_ ?_ h
  · intro sh hinit
    exact hinit.1
  · intro s _ _ _ hJ _ _
    exact hJ
  · intro s i c t sh t' new _ hJ _ _ hstep
    exact (RequestPc.step_jitInterceptor (challenges_step hstep).1).trans hJ

theorem undisturbed_capture {i : Nat} {kind : RequestKind} {r : UpstreamResponse}
    (hi : s.threads[i]? = some ⟨kind, .capturing r⟩) (h : undisturbed s (.run i .go) = true) :
    (kind ≠ .toolCall ∨ r.bearerChallenges = [] ∨ r.capturesBearer = true) ∧
      ∀ u ∈ s.threads, ∀ q, u.awaitsLookUp = some q → q.captured = r.captured := by
  simp only [undisturbed, hi] at h
  obtain ⟨hown, hothers⟩ := of_decide_eq_true h
  refine ⟨hown, fun u hu q hq => ?_⟩
  have hu := List.all_eq_true.1 hothers u hu
  rw [hq] at hu
  exact of_decide_eq_true hu

/-- **Bearer challenges are intercepted** as long as no capture disturbs a tool call. -/
theorem challenge_intercepted
    (h : challenges.system.ReachableWhile (fun s a => undisturbed s a = true) s) :
    ∀ t ∈ s.threads, t.Intercepted := by
  have hall : ∀ t ∈ s.threads, t.kind = .toolCall → t.pc.Undisturbed s.shared := by
    refine Pool.forall_threads_of (L := fun sh t => t.kind = .toolCall → t.pc.Undisturbed sh)
      (I := fun s => s.shared.jitInterceptor = true) (fun _ => jitInterceptor_of_reachable)
      ?_ ?_ ?_ h
    · intro s kind t _ hlaunch _
      cases hlaunch
      trivial
    · intro s i c t sh' t' new hjit hok hi hL hstep
      obtain ⟨hpcstep, hkind, rfl⟩ := challenges_step hstep
      refine ⟨fun htool => ?_, by simp⟩
      rw [hkind] at htool
      rw [htool] at hpcstep
      refine RequestPc.step_undisturbed hjit (fun r hpc hgo hb => ?_) (hL htool) hpcstep
      obtain ⟨kind, pc⟩ := t
      subst hpc hgo htool
      rcases (undisturbed_capture hi hok).1 with hne | hempty | hbearer
      · exact absurd rfl hne
      · exact absurd hempty hb
      · exact hbearer
    · intro s i c t sh' t' new j u _ hok hi hj hne _ hL hstep htool
      obtain ⟨hpcstep, -, -⟩ := challenges_step hstep
      rcases RequestPc.step_slot hpcstep with heq | ⟨r, hpc, hgo, heq⟩
      · rw [heq]
        exact hL htool
      · refine (hL htool).of_slot fun q hq => ?_
        obtain ⟨kind, pc⟩ := t
        obtain ⟨kind', pc'⟩ := u
        subst hpc hgo htool
        rw [heq]
        exact ((undisturbed_capture hi hok).2 _ (List.mem_of_getElem? hj) q hq).symm
  intro t ht r intercepted answer htool hpc hb
  have hdone := hall t ht htool
  rw [hpc] at hdone
  exact hdone hb

/-! ## A leak -/

def bearerResponse (challenge : String) : UpstreamResponse :=
  ⟨401, [some challenge], "unauthorized", .ok .null⟩

/-- An error that says nothing about credentials. -/
def unavailableResponse : UpstreamResponse := ⟨503, [], "unavailable", .ok .null⟩

theorem challenges_init : challenges.system.init ⟨⟨true, none⟩, []⟩ := ⟨⟨rfl, rfl⟩, rfl⟩

/-- A tool call meets a Bearer 401 and is intercepted. -/
theorem challenge_intercepted_alone :
    ∃ s : ChallengeState, (∃ t ∈ s.threads, ∃ outcome, t.kind = .toolCall ∧
        t.pc = .answered (bearerResponse "Bearer") (some ("Bearer", outcome)) (.ok (surface outcome))) ∧
      ∀ t ∈ s.threads, t.Intercepted := by
  obtain ⟨s, hrun, ht⟩ : ∃ s, challenges.system.runWhile undisturbed ⟨⟨true, none⟩, []⟩
      [.launch .toolCall, .run 0 (.response (bearerResponse "Bearer")), .run 0 .go, .run 0 .go,
        .run 0 .go, .run 0 (.intercepted (.ok "https://auth.example/authorize"))] = some s ∧
      s.threads = [⟨.toolCall, .answered (bearerResponse "Bearer")
        (some ("Bearer", .ok "https://auth.example/authorize"))
        (.ok (surface (.ok "https://auth.example/authorize")))⟩] := ⟨_, rfl, rfl⟩
  refine ⟨s, ?_, challenge_intercepted (.run (fun _ _ h => h) (.init challenges_init) hrun)⟩
  rw [ht]
  exact ⟨_, List.mem_singleton_self _, _, rfl, rfl⟩

/-- **The raw 401 reaches the client**: another request is answered with an error in between, and
clears the slot. -/
theorem bearer_401_leaks :
    ∃ s : ChallengeState, challenges.system.Reachable s ∧ ∃ t ∈ s.threads, ∃ r,
      t.kind = .toolCall ∧ t.pc = .answered r none (.error (.httpError 401 "unauthorized")) ∧
        r.bearerChallenges = ["Bearer realm=\"mcp\""] := by
  obtain ⟨s, hrun, ht⟩ : ∃ s, challenges.system.run ⟨⟨true, none⟩, []⟩
      [.launch .toolCall, .launch .other, .run 0 (.response (bearerResponse "Bearer realm=\"mcp\"")),
        .run 1 (.response unavailableResponse), .run 0 .go, .run 1 .go, .run 0 .go, .run 0 .go] =
      some s ∧
      s.threads[0]? = some ⟨.toolCall, .answered (bearerResponse "Bearer realm=\"mcp\"") none
        (.error (.httpError 401 "unauthorized"))⟩ := ⟨_, rfl, rfl⟩
  exact ⟨s, System.Reachable.run (.init challenges_init) hrun, _, List.mem_of_getElem? ht, _, rfl, rfl, rfl⟩

end EndaraRelay.Http
