import Mathlib.Data.List.Perm.Subperm
import EndaraRelay.Lib.Pool
import EndaraRelay.MessageDispatch

/-!
# Pending requests

`send_request` of the stdio and of the SSE adapter, with the map of pending requests that calls, the
tasks they spawn, the readers of the upstream's messages and `shutdown` share.

**Threads.** A call takes its id, puts the sender into the map, sends the request and waits. It may be
cancelled wherever it waits. A listener dispatches messages and, at its end, clears the map (a stdout
reader only while its process is the current one, which is for the environment to say here).

**Theorem (`completed_by_responses`).** As long as no misdirected message arrives for a waiting request,
requests are completed by responses only. A server's own request with the id of one completes it
(`server_request_completes`).

**Theorem (`pending_in_flight`).** The map holds requests in flight, as long as no call ends on a way
that leaves its entry behind: cancelled, for want of a writer (stdio), with a failed POST or a timeout
(SSE). Each of these ends with the entry still there (`not_pendingInFlight_of_leavesEntry`).
-/

namespace EndaraRelay

open Verif

/-! ## Calls -/

/-- How a call ends. -/
inductive CallResult where
  | ok (result : Json)
  | jsonRpcError (error : JsonRpcError)
  | invalidResponse
  | noResult
  | notInitialized
  | crashed
  | timeout
  | postFailed
  | channelDropped
  | cancelled

def JsonRpcResponse.toResult (response : JsonRpcResponse) : CallResult :=
  match response.error, response.result with
  | some error, _ => .jsonRpcError error
  | none, some result => .ok result
  | none, none => .noResult

/-- What a call makes of the message it receives. The stdio reader hands on the line as it is. -/
def UpstreamTransport.readAnswer : UpstreamTransport → Json → CallResult
  | .stdio, line => ((JsonRpcResponse.fromJson line).map (·.toResult)).getD .invalidResponse
  | .sse, data => ((JsonRpcResponse.fromJson data.toValue).map (·.toResult)).getD .invalidResponse

def UpstreamTransport.dispatch : UpstreamTransport → Inbox → Json → Inbox
  | .stdio => stdoutMessage
  | .sse => sseMessage

structure Requests where
  inbox : Inbox
  nextId : Nat

inductive SendPc where
  | numbering
  | registering (id : Nat)
  | sending (id : Nat)
  | waiting (id : Nat)
  | removing (id : Nat) (result : CallResult)
  | ended (id : Option Nat) (result : CallResult)

inductive UpstreamThread where
  | call (pc : SendPc)
  /-- A spawned task that removes the entry of a call. -/
  | cleanup (id : Nat)
  | listener
  | shutdown
  | done

inductive UpstreamOp where
  | sendRequest
  | connect
  | shutdown

inductive UpstreamChoice where
  | go
  | fail
  | noWriter
  | receive
  | dropped
  | timeout
  | cancel
  | message (message : Json)
  | close (current : Bool)

namespace Requests

def setPending (sh : Requests) (pending : List Nat) : Requests :=
  { sh with inbox := { sh.inbox with pending := pending } }

def insert (sh : Requests) (id : Nat) : Requests :=
  sh.setPending (if id ∈ sh.inbox.pending then sh.inbox.pending else sh.inbox.pending ++ [id])

def remove (sh : Requests) (id : Nat) : Requests := sh.setPending (sh.inbox.pending.erase id)

def clear (sh : Requests) : Requests := sh.setPending []

/-- What the receiver of a call finds in its channel. -/
def received (sh : Requests) (id : Nat) : Option Json := sh.inbox.answers.lookup id

end Requests

def callStep (t : UpstreamTransport) (sh : Requests) : SendPc → UpstreamChoice →
    Option (Requests × SendPc × List UpstreamThread)
  | .numbering, .go =>
    some ({ sh with nextId := (sh.nextId + 1) % UInt64.size }, .registering sh.nextId, [])
  | .registering id, .go => some (sh.insert id, .sending id, [])
  | .sending id, .go => some (sh, .waiting id, [])
  | .sending id, .fail =>
    match t with
    | .stdio => some (sh, .removing id .crashed, [])
    | .sse => some (sh, .ended (some id) .postFailed, [])
  | .sending id, .noWriter =>
    match t with
    | .stdio => some (sh, .ended (some id) .notInitialized, [.cleanup id])
    | .sse => none
  | .waiting id, .receive =>
    (sh.received id).map fun message => (sh, .ended (some id) (t.readAnswer message), [])
  | .waiting id, .dropped =>
    if id ∈ sh.inbox.pending ∨ (sh.received id).isSome then none
    else
      match t with
      | .stdio => some (sh, .removing id .crashed, [])
      | .sse => some (sh, .ended (some id) .channelDropped, [])
  | .waiting id, .timeout =>
    -- the channel is looked at once more before the deadline counts
    if (sh.received id).isSome then none
    else
      match t with
      | .stdio => some (sh, .removing id .timeout, [])
      | .sse => some (sh, .ended (some id) .timeout, [.cleanup id])
  | .removing id result, .go => some (sh.remove id, .ended (some id) result, [])
  | .numbering, .cancel => some (sh, .ended none .cancelled, [])
  | .registering id, .cancel | .sending id, .cancel | .waiting id, .cancel | .removing id _, .cancel =>
    some (sh, .ended (some id) .cancelled, [])
  | _, _ => none

def upstreamStep (t : UpstreamTransport) (sh : Requests) (_ : List UpstreamThread) :
    UpstreamThread → UpstreamChoice → Option (Requests × UpstreamThread × List UpstreamThread)
  | .call pc, c => (callStep t sh pc c).map fun r => (r.1, .call r.2.1, r.2.2)
  | .cleanup id, .go => some (sh.remove id, .done, [])
  | .listener, .message message =>
    some ({ sh with inbox := t.dispatch sh.inbox message }, .listener, [])
  | .listener, .close current =>
    -- the SSE listener clears the map in any case
    if current = true ∨ t = .sse then some (sh.clear, .done, []) else some (sh, .done, [])
  | .listener, .cancel => some (sh, .done, [])
  | .shutdown, .go => some (sh.clear, .done, [])
  | _, _ => none

/-- The calls, readers and shutdowns of one adapter. -/
def requests (t : UpstreamTransport) : Pool Requests UpstreamThread UpstreamOp UpstreamChoice where
  init sh := sh.inbox.pending = [] ∧ sh.inbox.answers = [] ∧ sh.nextId = 1
  launch _ _
    | .sendRequest => some (.call .numbering)
    | .connect => some .listener
    | .shutdown => some .shutdown
  step := upstreamStep t

abbrev UpstreamState := Pool.State Requests UpstreamThread

abbrev UpstreamAction := Pool.Action UpstreamOp UpstreamChoice

/-! ## What a message does -/

variable {n : Nat} {p : Nat × Json} {s : UpstreamState} {th : UpstreamThread}
  {t : UpstreamTransport}

section Dispatch

variable {t : UpstreamTransport} {inbox : Inbox} {message : Json}

@[simp] theorem notify_pending : (inbox.notify message).pending = inbox.pending := by
  unfold Inbox.notify
  split <;> rfl

@[simp] theorem notify_answers : (inbox.notify message).answers = inbox.answers := by
  unfold Inbox.notify
  split <;> rfl

/-- A message is dispatched to its target, and nothing else happens to the map. -/
theorem dispatch_eq (t : UpstreamTransport) (inbox : Inbox) (message : Json) :
    ((t.dispatch inbox message).pending, (t.dispatch inbox message).answers) =
      match t.target message with
      | some n => ((inbox.complete n message).pending, (inbox.complete n message).answers)
      | none => (inbox.pending, inbox.answers) := by
  cases t with
  | stdio =>
    rw [UpstreamTransport.dispatch, UpstreamTransport.target, stdoutMessage]
    cases (message.toValue.get "id").bind Json.asU64 with
    | none => simp
    | some n => rfl
  | sse =>
    rw [UpstreamTransport.dispatch, UpstreamTransport.target, sseMessage]
    cases (message.toValue.get "id").bind Json.asU64 with
    | none => simp
    | some n =>
      cases JsonRpcResponse.fromJson message.toValue with
      | none => rfl
      | some response =>
        obtain ⟨_, _, _, id⟩ := response
        cases id with
        | none => rfl
        | some k => rfl

theorem dispatch_of_target_none (h : t.target message = none) :
    (t.dispatch inbox message).pending = inbox.pending ∧
      (t.dispatch inbox message).answers = inbox.answers := by
  have heq := dispatch_eq t inbox message
  rw [h] at heq
  exact Prod.mk.inj heq

theorem dispatch_of_target_notMem (h : t.target message = some n) (hn : n ∉ inbox.pending) :
    (t.dispatch inbox message).pending = inbox.pending ∧
      (t.dispatch inbox message).answers = inbox.answers := by
  have heq := dispatch_eq t inbox message
  rw [h] at heq
  dsimp only at heq
  rw [Inbox.complete, if_neg hn] at heq
  exact Prod.mk.inj heq

theorem dispatch_of_target_mem (h : t.target message = some n) (hn : n ∈ inbox.pending) :
    (t.dispatch inbox message).pending = inbox.pending.erase n ∧
      (t.dispatch inbox message).answers = inbox.answers ++ [(n, message)] := by
  have heq := dispatch_eq t inbox message
  rw [h] at heq
  dsimp only at heq
  rw [Inbox.complete, if_pos hn] at heq
  exact Prod.mk.inj heq

theorem dispatch_sublist : (t.dispatch inbox message).pending.Sublist inbox.pending := by
  cases htarget : t.target message with
  | none => rw [(dispatch_of_target_none htarget).1]
  | some n =>
    by_cases hn : n ∈ inbox.pending
    · rw [(dispatch_of_target_mem htarget hn).1]
      exact List.erase_sublist
    · rw [(dispatch_of_target_notMem htarget hn).1]

/-- An answer is new only when its request was waiting for it, and is not any more. -/
theorem dispatch_answers (hnodup : inbox.pending.Nodup) (hp : p ∈ (t.dispatch inbox message).answers) :
    p ∈ inbox.answers ∨
      p = (p.1, message) ∧ t.target message = some p.1 ∧ p.1 ∈ inbox.pending ∧
        p.1 ∉ (t.dispatch inbox message).pending := by
  cases htarget : t.target message with
  | none =>
    rw [(dispatch_of_target_none htarget).2] at hp
    exact .inl hp
  | some n =>
    by_cases hn : n ∈ inbox.pending
    · rw [(dispatch_of_target_mem htarget hn).2, List.mem_append, List.mem_singleton] at hp
      obtain hp | rfl := hp
      · exact .inl hp
      · refine .inr ⟨rfl, rfl, hn, ?_⟩
        rw [(dispatch_of_target_mem htarget hn).1]
        exact hnodup.not_mem_erase
    · rw [(dispatch_of_target_notMem htarget hn).2] at hp
      exact .inl hp

end Dispatch

/-! ## The steps of a call -/

def SendPc.id : SendPc → Option Nat
  | .numbering => none
  | .registering id | .sending id | .waiting id | .removing id _ => some id
  | .ended id _ => id

/-- The id of a call that is registered and has not ended. -/
def SendPc.inFlight : SendPc → Option Nat
  | .sending id | .waiting id | .removing id _ => some id
  | _ => none

def UpstreamThread.callId : UpstreamThread → Option Nat
  | .call pc => pc.id
  | _ => none

def UpstreamThread.inFlight : UpstreamThread → Option Nat
  | .call pc => pc.inFlight
  | _ => none

/-- A call ends and does not remove its entry, which is in the map. -/
def leavesEntry (t : UpstreamTransport) (sh : Requests) : UpstreamThread → UpstreamChoice → Bool
  | .call (.sending id), .cancel | .call (.waiting id), .cancel | .call (.removing id _), .cancel
  | .call (.sending id), .noWriter => id ∈ sh.inbox.pending
  | .call (.sending id), .fail | .call (.waiting id), .timeout => t = .sse ∧ id ∈ sh.inbox.pending
  | _, _ => false

/-- What is out of the map once it is answered. -/
def Requests.AnsweredGone (sh : Requests) : Prop :=
  ∀ p ∈ sh.inbox.answers, p.1 ∉ sh.inbox.pending

/-- What a step can do. -/
structure StepEffect (t : UpstreamTransport) (sh : Requests) (th : UpstreamThread) (c : UpstreamChoice)
    (r : Requests × UpstreamThread × List UpstreamThread) : Prop where
  nodup : sh.inbox.pending.Nodup → r.1.inbox.pending.Nodup
  mem : ∀ id ∈ r.1.inbox.pending, id ∈ sh.inbox.pending ∨
    th = .call (.registering id) ∧ r.2.1 = .call (.sending id)
  own : leavesEntry t sh th c = false → sh.inbox.pending.Nodup → sh.AnsweredGone →
    ∀ id, th.inFlight = some id → id ∈ r.1.inbox.pending → r.2.1.inFlight = some id
  answers : r.1.inbox.answers = sh.inbox.answers ∨
    ∃ message, th = .listener ∧ c = .message message ∧ r.1.inbox = t.dispatch sh.inbox message
  id : r.2.1.callId = th.callId ∧ r.1.nextId = sh.nextId ∧
      (∀ id, r.2.1 = .call (.registering id) → th = .call (.registering id)) ∨
    th = .call .numbering ∧ c = .go ∧ r.2.1 = .call (.registering sh.nextId) ∧
      r.1.nextId = (sh.nextId + 1) % UInt64.size
  new : ∀ u ∈ r.2.2, u.callId = none

section StepEffect

variable {t : UpstreamTransport} {sh : Requests} {th th' : UpstreamThread} {pc pc' : SendPc}
  {c : UpstreamChoice} {new : List UpstreamThread}

/-- A thread goes on with the map as it is. -/
theorem StepEffect.same (hid : th'.callId = th.callId)
    (hregistering : ∀ id, th' ≠ .call (.registering id))
    (hown : leavesEntry t sh th c = false → sh.AnsweredGone → ∀ id, th.inFlight = some id →
      id ∈ sh.inbox.pending → th'.inFlight = some id)
    (hnew : ∀ u ∈ new, u.callId = none) : StepEffect t sh th c (sh, th', new) where
  nodup h := h
  mem _ h := .inl h
  own hleaves _ := hown hleaves
  answers := .inl rfl
  id := .inl ⟨hid, rfl, fun id h => absurd h (hregistering id)⟩
  new := hnew

theorem StepEffect.goOn (hid : pc'.id = pc.id) (hregistering : ∀ id, pc' ≠ .registering id)
    (hflight : pc'.inFlight = pc.inFlight) : StepEffect t sh (.call pc) c (sh, .call pc', []) := by
  refine .same hid ?_ ?_ (by simp)
  · intro id h
    exact hregistering id (UpstreamThread.call.inj h)
  · intro _ _ id h _
    exact hflight.trans h

/-- A call ends and leaves the map as it is. -/
theorem StepEffect.ends {id : Option Nat} {result : CallResult} (hid : pc.id = id)
    (hgone : leavesEntry t sh (.call pc) c = false → sh.AnsweredGone →
      ∀ k, pc.inFlight = some k → k ∉ sh.inbox.pending)
    (hnew : ∀ u ∈ new, u.callId = none) :
    StepEffect t sh (.call pc) c (sh, .call (.ended id result), new) := by
  refine .same hid.symm ?_ ?_ hnew
  · intro k h
    cases h
  · intro hleaves hanswered k hk hmem
    exact absurd hmem (hgone hleaves hanswered k hk)

theorem StepEffect.insert (id : Nat) :
    StepEffect t sh (.call (.registering id)) .go (sh.insert id, .call (.sending id), []) where
  nodup h := by
    show (if id ∈ sh.inbox.pending then sh.inbox.pending else sh.inbox.pending ++ [id]).Nodup
    by_cases hid : id ∈ sh.inbox.pending
    · rwa [if_pos hid]
    · rw [if_neg hid, List.nodup_append]
      refine ⟨h, by simp, fun k hk k' hk' => ?_⟩
      rw [List.mem_singleton.1 hk']
      rintro rfl
      exact hid hk
  mem k hk := by
    have hk' : k ∈ if id ∈ sh.inbox.pending then sh.inbox.pending else sh.inbox.pending ++ [id] := hk
    by_cases hid : id ∈ sh.inbox.pending
    · rw [if_pos hid] at hk'
      exact .inl hk'
    · rw [if_neg hid, List.mem_append, List.mem_singleton] at hk'
      obtain hk' | rfl := hk'
      · exact .inl hk'
      · exact .inr ⟨rfl, rfl⟩
  own _ _ _ _ h := by cases h
  answers := .inl rfl
  id := .inl ⟨rfl, rfl, fun _ h => by cases h⟩
  new := by simp

/-- Removing an entry, or all: nothing stays of what the thread had in flight. -/
theorem StepEffect.shrink {pending : List Nat} (hsub : pending.Sublist sh.inbox.pending)
    (hid : th'.callId = th.callId) (hregistering : ∀ id, th' ≠ .call (.registering id))
    (hown : sh.inbox.pending.Nodup → ∀ id, th.inFlight = some id → id ∉ pending) :
    StepEffect t sh th c (sh.setPending pending, th', []) where
  nodup h := h.sublist hsub
  mem _ h := .inl (hsub.subset h)
  own _ hnodup _ id hflight hmem := absurd hmem (hown hnodup id hflight)
  answers := .inl rfl
  id := .inl ⟨hid, rfl, fun id h => absurd h (hregistering id)⟩
  new := by simp

theorem StepEffect.dispatch (message : Json) :
    StepEffect t sh .listener (.message message)
      ({ sh with inbox := t.dispatch sh.inbox message }, .listener, []) where
  nodup h := h.sublist dispatch_sublist
  mem _ h := .inl (dispatch_sublist.subset h)
  own _ _ _ _ h := by cases h
  answers := .inr ⟨message, rfl, rfl, rfl⟩
  id := .inl ⟨rfl, rfl, fun _ h => by cases h⟩
  new := by simp

theorem clean_cleanup (id : Nat) : ∀ u ∈ [UpstreamThread.cleanup id], u.callId = none := by
  intro u hu
  rw [List.mem_singleton.1 hu]
  rfl

theorem received_notMem {id : Nat} {message : Json} (h : sh.received id = some message)
    (hanswered : sh.AnsweredGone) : id ∉ sh.inbox.pending := by
  obtain ⟨l₁, l₂, hsplit, -⟩ := List.lookup_eq_some_iff.1 h
  exact hanswered (id, message) (by rw [hsplit]; simp)

/-- **Inversion**, for calls. -/
theorem callStep_effect {r : Requests × SendPc × List UpstreamThread}
    (h : callStep t sh pc c = some r) : StepEffect t sh (.call pc) c (r.1, .call r.2.1, r.2.2) := by
  revert h
  fun_cases callStep t sh pc c <;> intro h
  case case1 =>
    cases h
    exact {
      nodup h := h
      mem _ h := .inl h
      own _ _ _ _ h := by cases h
      answers := .inl rfl
      id := .inr ⟨rfl, rfl, rfl, rfl⟩
      new := by simp }
  case case2 id =>
    cases h
    exact .insert id
  case case3 | case4 | case10 | case13 =>
    cases h
    exact .goOn rfl (fun _ h => by cases h) rfl
  case case5 id | case18 id | case19 id | case20 id _ =>
    cases h
    refine .ends rfl (fun hleaves _ k hk => ?_) (by simp)
    cases hk
    simpa [leavesEntry] using hleaves
  case case6 id | case14 id _ =>
    cases h
    refine .ends rfl (fun hleaves _ k hk => ?_) (clean_cleanup id)
    cases hk
    simpa [leavesEntry] using hleaves
  case case8 id =>
    obtain ⟨message, hreceived, rfl⟩ := Option.map_eq_some_iff.1 h
    refine .ends rfl (fun _ hanswered k hk => ?_) (by simp)
    cases hk
    exact received_notMem hreceived hanswered
  case case11 id hgone =>
    cases h
    refine .ends rfl (fun _ _ k hk => ?_) (by simp)
    cases hk
    exact fun hmem => hgone (.inl hmem)
  case case15 id result =>
    cases h
    refine .shrink List.erase_sublist rfl (fun _ h => by cases h) fun hnodup k hk => ?_
    cases hk
    exact hnodup.not_mem_erase
  case case16 | case17 =>
    cases h
    exact .ends rfl (fun _ _ k hk => by cases hk) (by simp)
  all_goals cases h

/-- **Inversion.** -/
theorem upstreamStep_effect {ts : List UpstreamThread}
    {r : Requests × UpstreamThread × List UpstreamThread}
    (h : (requests t).step sh ts th c = some r) : StepEffect t sh th c r := by
  change upstreamStep t sh ts th c = some r at h
  revert h
  fun_cases upstreamStep t sh ts th c <;> intro h
  case case1 pc =>
    obtain ⟨r', hr', rfl⟩ := Option.map_eq_some_iff.1 h
    exact callStep_effect hr'
  case case2 id =>
    cases h
    exact .shrink List.erase_sublist rfl (fun _ h => by cases h) fun _ k hk => by cases hk
  case case3 =>
    cases h
    exact .dispatch _
  case case4 | case7 =>
    cases h
    exact .shrink (List.nil_sublist _) rfl (fun _ h => by cases h) fun _ k hk => by cases hk
  case case5 | case6 =>
    cases h
    exact .same rfl (fun _ h => by cases h) (fun _ _ k hk => by cases hk) (by simp)
  all_goals cases h

end StepEffect

/-! ## Responses -/

/-- The guard: no misdirected message arrives for a waiting request. -/
def rightlyAddressed (t : UpstreamTransport) (s : UpstreamState) : UpstreamAction → Bool
  | .run i (.message message) =>
    match s.threads[i]? with
    | some .listener => s.shared.inbox.pending.all fun n => !misdirected t n message
    | _ => true
  | _ => true

section Runs

variable {t : UpstreamTransport} {s : UpstreamState}

theorem pending_nodup {ok : UpstreamState → UpstreamAction → Prop}
    (h : (requests t).system.ReachableWhile ok s) : s.shared.inbox.pending.Nodup := by
  refine Pool.invariant_of (I := fun _ => True) (J := fun s => s.shared.inbox.pending.Nodup)
    (fun _ _ => trivial) ?_ ?_ ?_ h
  · rintro sh ⟨hpending, -⟩
    rw [hpending]
    exact List.nodup_nil
  · intro s a th _ hJ _ _
    exact hJ
  · intro s i c th sh th' new _ hJ _ _ hstep
    exact (upstreamStep_effect hstep).nodup hJ

/-- Under the guard, requests are completed by responses. -/
theorem answers_isResponse
    (h : (requests t).system.ReachableWhile (fun s a => rightlyAddressed t s a = true) s) :
    ∀ p ∈ s.shared.inbox.answers, isResponse p.1 p.2.toValue = true := by
  refine Pool.invariant_of (I := fun s => s.shared.inbox.pending.Nodup)
    (J := fun s => ∀ p ∈ s.shared.inbox.answers, isResponse p.1 p.2.toValue = true)
    (fun _ h => pending_nodup h) ?_ ?_ ?_ h
  · rintro sh ⟨-, hanswers, -⟩ p hp
    rw [hanswers] at hp
    cases hp
  · intro s a th _ hJ _ _
    exact hJ
  · intro s i c th sh th' new hnodup hJ hok hi hstep p hp
    obtain hsame | ⟨message, rfl, rfl, hdispatch⟩ := (upstreamStep_effect hstep).answers
    · rw [hsame] at hp
      exact hJ p hp
    · rw [hdispatch] at hp
      obtain hp | ⟨hpair, htarget, hwaiting, -⟩ := dispatch_answers hnodup hp
      · exact hJ p hp
      · have hguard : rightlyAddressed t s (.run i (.message message)) = true := hok
        simp only [rightlyAddressed, hi, List.all_eq_true] at hguard
        by_contra hresponse
        rw [Bool.not_eq_true, hpair] at hresponse
        have := (misdirected_iff t p.1 message).1 ⟨htarget, hresponse⟩
        simpa [this] using hguard p.1 hwaiting

/-- A message leaves every request waiting that it is no response to, exactly when it is misdirected to
none of them. -/
theorem dispatch_response_iff {inbox : Inbox} (hnodup : inbox.pending.Nodup) (message : Json) :
    (∀ n ∈ inbox.pending, n ∉ (t.dispatch inbox message).pending →
        isResponse n message.toValue = true) ↔
      ∀ n ∈ inbox.pending, misdirected t n message = false := by
  constructor
  · intro h n hn
    by_contra hmisdirected
    rw [Bool.not_eq_false] at hmisdirected
    obtain ⟨htarget, hresponse⟩ := (misdirected_iff t n message).2 hmisdirected
    have hremoved : n ∉ (t.dispatch inbox message).pending := by
      rw [(dispatch_of_target_mem htarget hn).1]
      exact hnodup.not_mem_erase
    rw [h n hn hremoved] at hresponse
    cases hresponse
  · intro h n hn hremoved
    by_contra hresponse
    rw [Bool.not_eq_true] at hresponse
    have htarget : t.target message = some n := by
      by_contra hne
      apply hremoved
      cases htarget : t.target message with
      | none =>
        rw [(dispatch_of_target_none htarget).1]
        exact hn
      | some k =>
        by_cases hk : k ∈ inbox.pending
        · rw [(dispatch_of_target_mem htarget hk).1]
          refine (List.mem_erase_of_ne ?_).2 hn
          rintro rfl
          exact hne htarget
        · rw [(dispatch_of_target_notMem htarget hk).1]
          exact hn
    have hmisdirected := (misdirected_iff t n message).1 ⟨htarget, hresponse⟩
    rw [h n hn] at hmisdirected
    cases hmisdirected

end Runs

/-- **Theorem.** On stdio and SSE, a run in which no misdirected message arrives for a waiting request
completes requests by responses only; and in every reachable state a message leaves alone the requests
it is no response to, exactly when it is misdirected to none of them. A request by POST is completed by
responses only, exactly when every misdirected event comes after a response. -/
theorem completed_by_responses (t : UpstreamTransport) (fromStr : List Char → Option Json)
    (body : List Char) (n : Nat) :
    (∀ s, (requests t).system.ReachableWhile (fun s a => rightlyAddressed t s a = true) s →
      ∀ p ∈ s.shared.inbox.answers, isResponse p.1 p.2.toValue = true) ∧
    (∀ s, (requests t).system.Reachable s → ∀ message,
      (∀ k ∈ s.shared.inbox.pending, k ∉ (t.dispatch s.shared.inbox message).pending →
          isResponse k message.toValue = true) ↔
        ∀ k ∈ s.shared.inbox.pending, misdirected t k message = false) ∧
    ((∀ message, CompletedBy n (bodyMessages fromStr body) message →
        isResponse n message.toValue = true) ↔
      ∀ earlier message later, bodyMessages fromStr body = earlier ++ message :: later →
        misdirectedPost n message = true →
          ∃ response ∈ earlier, postTarget response = some n ∧
            isResponse n response.toValue = true) :=
  ⟨fun _ h => answers_isResponse h, fun _ h => dispatch_response_iff (pending_nodup h),
    completedBy_response_iff n (bodyMessages fromStr body)⟩

/-- A request that is registered, sent and waiting while a listener reads. -/
def waitingRequest : List UpstreamAction :=
  [.launch .sendRequest, .launch .connect, .run 0 .go, .run 0 .go, .run 0 .go]

def startRequests : UpstreamState := ⟨⟨⟨[], [], 0⟩, 1⟩, []⟩

/-- A request of the server's own, with the id of the relay's. -/
def serverRequest : Json := .obj [("jsonrpc", .str "2.0"), ("method", .str "ping"), ("id", .num "1")]

def nullResult : Json := .obj [("jsonrpc", .str "2.0"), ("result", .null), ("id", .num "1")]

/-- A response with a null result completes the request. -/
theorem completed_by_responses_null_result : ∃ s,
    (requests .stdio).system.ReachableWhile (fun s a => rightlyAddressed .stdio s a = true) s ∧
      s.shared.inbox.answers = [(1, nullResult)] ∧ isResponse 1 nullResult.toValue = true := by
  have hrun : ∃ s, (requests .stdio).system.runWhile (rightlyAddressed .stdio) startRequests
      (waitingRequest ++ [.run 1 (.message nullResult)]) = some s ∧
        s.shared.inbox.answers = [(1, nullResult)] := ⟨_, rfl, rfl⟩
  obtain ⟨s, hrun, hanswers⟩ := hrun
  have hreach : (requests .stdio).system.ReachableWhile
      (fun s a => rightlyAddressed .stdio s a = true) s :=
    .run (fun _ _ h => h) (.init ⟨⟨rfl, rfl, rfl⟩, rfl⟩) hrun
  exact ⟨s, hreach, hanswers,
    (completed_by_responses .stdio (fun _ => none) [] 1).1 s hreach (1, nullResult)
      (by simp [hanswers])⟩

/-- A request of the server completes the request of the relay, on every transport. -/
theorem server_request_completes :
    (∀ t, ¬ ∀ s, (requests t).system.Reachable s → ∀ p ∈ s.shared.inbox.answers,
      isResponse p.1 p.2.toValue = true) ∧
    ¬ ∀ fromStr body n message, CompletedBy n (bodyMessages fromStr body) message →
      isResponse n message.toValue = true := by
  constructor
  · intro t h
    have hrun : ∃ s, (requests t).system.run startRequests
        (waitingRequest ++ [.run 1 (.message serverRequest)]) = some s ∧
        s.shared.inbox.answers = [(1, serverRequest)] := by
      cases t <;> exact ⟨_, rfl, rfl⟩
    obtain ⟨s, hrun, hanswers⟩ := hrun
    have hresponse := h s (System.Reachable.run (.init ⟨⟨rfl, rfl, rfl⟩, rfl⟩) hrun)
      (1, serverRequest) (by simp [hanswers])
    cases hresponse
  · intro h
    have hresponse := h (fun _ => some serverRequest) "data: {}".toList 1 serverRequest
      ⟨[], [], rfl, rfl, fun hnone => matchResponse_eq_none_iff.1 hnone rfl⟩
    cases hresponse

/-! ## Requests in flight -/

/-- The counter of the ids comes round. -/
def comesRound (sh : Requests) : UpstreamThread → UpstreamChoice → Bool
  | .call .numbering, .go => UInt64.size ≤ sh.nextId + 1
  | _, _ => false

/-- The guard: no call leaves its entry behind, and the ids do not come round. -/
def removesEntries (t : UpstreamTransport) (s : UpstreamState) : UpstreamAction → Bool
  | .run i c =>
    match s.threads[i]? with
    | some th => !leavesEntry t s.shared th c && !comesRound s.shared th c
    | none => true
  | .launch _ => true

/-- What holds between the threads and the map. -/
structure InFlightInv (s : UpstreamState) : Prop where
  nodup : s.shared.inbox.pending.Nodup
  answered : s.shared.AnsweredGone
  live : ∀ id ∈ s.shared.inbox.pending, ∃ u ∈ s.threads, u.inFlight = some id
  unique : ∀ (i j : Nat) (u v : UpstreamThread) (n : Nat), s.threads[i]? = some u →
    s.threads[j]? = some v → u.callId = some n → v.callId = some n → i = j
  below : ∀ u ∈ s.threads, ∀ n, u.callId = some n → n < s.shared.nextId
  answersBelow : ∀ p ∈ s.shared.inbox.answers, p.1 < s.shared.nextId
  fresh : ∀ id, .call (.registering id) ∈ s.threads →
    id ∉ s.shared.inbox.pending ∧ ∀ p ∈ s.shared.inbox.answers, p.1 ≠ id

theorem callId_of_inFlight {u : UpstreamThread} (h : u.inFlight = some n) : u.callId = some n := by
  cases u with
  | call pc => cases pc <;> first | exact h | cases h
  | _ => cases h

theorem InFlightInv.pendingBelow (hs : InFlightInv s) :
    ∀ id ∈ s.shared.inbox.pending, id < s.shared.nextId := by
  intro id hid
  obtain ⟨u, hu, hflight⟩ := hs.live id hid
  exact hs.below u hu id (callId_of_inFlight hflight)

theorem InFlightInv.launch (hs : InFlightInv s) (hth : th.callId = none) :
    InFlightInv { s with threads := s.threads ++ [th] } := by
  have hmem : ∀ u ∈ s.threads ++ [th], ∀ n, u.callId = some n → u ∈ s.threads := by
    intro u hu n hn
    obtain hu | hu := List.mem_append.1 hu
    · exact hu
    · rw [List.mem_singleton.1 hu, hth] at hn
      cases hn
  have hplace : ∀ (j : Nat) (u : UpstreamThread) (n : Nat), (s.threads ++ [th])[j]? = some u →
      u.callId = some n → s.threads[j]? = some u := by
    intro j u n hj hn
    by_cases hlt : j < s.threads.length
    · rwa [List.getElem?_append_left hlt] at hj
    · rw [List.getElem?_append_right (by omega)] at hj
      rw [List.mem_singleton.1 (List.mem_of_getElem? hj), hth] at hn
      cases hn
  refine ⟨hs.nodup, hs.answered, ?_, ?_, ?_, hs.answersBelow, ?_⟩
  · intro id hid
    obtain ⟨u, hu, hflight⟩ := hs.live id hid
    exact ⟨u, List.mem_append_left _ hu, hflight⟩
  · intro i j u v n hi hj hu hv
    exact hs.unique i j u v n (hplace i u n hi hu) (hplace j v n hj hv) hu hv
  · intro u hu n hn
    exact hs.below u (hmem u hu n hn) n hn
  · intro id hid
    exact hs.fresh id (hmem _ hid id rfl)

section Step

variable {t : UpstreamTransport} {s : UpstreamState} {i : Nat} {th th' : UpstreamThread}
  {c : UpstreamChoice} {sh' : Requests} {new : List UpstreamThread}

theorem nextId_le (heffect : StepEffect t s.shared th c (sh', th', new))
    (hround : comesRound s.shared th c = false) : s.shared.nextId ≤ sh'.nextId ∧
      ∀ n, th'.callId = some n → th.callId = some n ∨ n = s.shared.nextId ∧ n < sh'.nextId := by
  obtain ⟨hid, hnext, -⟩ | ⟨rfl, rfl, rfl, hnext⟩ := heffect.id
  · exact ⟨Nat.le_of_eq hnext.symm, fun n hn => .inl (hid.symm.trans hn)⟩
  · have hlt : s.shared.nextId + 1 < UInt64.size := by
      simp only [comesRound, decide_eq_false_iff_not] at hround
      omega
    rw [Nat.mod_eq_of_lt hlt] at hnext
    dsimp only at hnext
    refine ⟨by omega, fun n hn => .inr ?_⟩
    cases hn
    omega

/-- The entries and answers that a step adds are those of calls that had their id. -/
theorem mem_answers_after (hs : InFlightInv s) (heffect : StepEffect t s.shared th c (sh', th', new))
    (hp : p ∈ sh'.inbox.answers) : p ∈ s.shared.inbox.answers ∨
      th = .listener ∧ p.1 ∈ s.shared.inbox.pending ∧ p.1 ∉ sh'.inbox.pending := by
  obtain hsame | ⟨message, hlistener, -, hdispatch⟩ := heffect.answers
  · dsimp only at hsame
    rw [hsame] at hp
    exact .inl hp
  · dsimp only at hdispatch
    rw [hdispatch] at hp ⊢
    obtain hp | ⟨-, -, hwaiting, hgone⟩ := dispatch_answers hs.nodup hp
    · exact .inl hp
    · exact .inr ⟨hlistener, hwaiting, hgone⟩

theorem InFlightInv.step (hs : InFlightInv s) (hi : s.threads[i]? = some th)
    (hleaves : leavesEntry t s.shared th c = false) (hround : comesRound s.shared th c = false)
    (heffect : StepEffect t s.shared th c (sh', th', new)) :
    InFlightInv ⟨sh', Pool.stepped s.threads i th' new⟩ := by
  obtain ⟨hnext, hids⟩ := nextId_le heffect hround
  have hmem : ∀ id ∈ sh'.inbox.pending, id ∈ s.shared.inbox.pending ∨
      th = .call (.registering id) ∧ th' = .call (.sending id) := heffect.mem
  have hth := List.mem_of_getElem? hi
  refine ⟨heffect.nodup hs.nodup, ?_, ?_, ?_, ?_, ?_, ?_⟩
  · -- what was answered is not in the map
    intro p hp hpending
    obtain hp | ⟨-, -, hgone⟩ := mem_answers_after hs heffect hp
    · obtain hmem' | ⟨hregistering, -⟩ := hmem p.1 hpending
      · exact hs.answered p hp hmem'
      · rw [hregistering] at hth
        exact (hs.fresh p.1 hth).2 p hp rfl
    · exact hgone hpending
  · -- every entry belongs to a call in flight
    intro id hid
    obtain hold | ⟨-, rfl⟩ := hmem id hid
    · obtain ⟨u, hu, hflight⟩ := hs.live id hold
      obtain ⟨j, hj⟩ := List.mem_iff_getElem?.1 hu
      by_cases hji : j = i
      · subst hji
        rw [hi] at hj
        cases hj
        exact ⟨th', Pool.mem_stepped_self hi,
          heffect.own hleaves hs.nodup hs.answered id hflight hid⟩
      · exact ⟨u, Pool.mem_stepped_of_ne hj hji, hflight⟩
    · exact ⟨_, Pool.mem_stepped_self hi, rfl⟩
  · -- an id is taken once
    intro j k u v n hj hk hu hv
    have hplace : ∀ {j u}, (Pool.stepped s.threads i th' new)[j]? = some u → u.callId = some n →
        j = i ∧ th'.callId = some n ∨ j ≠ i ∧ s.threads[j]? = some u := by
      intro j u hj hu
      obtain ⟨hji, rfl⟩ | hother | hnew := Pool.place_stepped hj
      · exact .inl ⟨hji, hu⟩
      · exact .inr hother
      · rw [heffect.new u hnew] at hu
        cases hu
    have hself : ∀ {k v}, th'.callId = some n → s.threads[k]? = some v → v.callId = some n →
        k = i := by
      intro k v hid hk hv
      obtain hid | ⟨rfl, -⟩ := hids n hid
      · exact hs.unique k i v th n hk hi hv hid
      · exact absurd (hs.below v (List.mem_of_getElem? hk) _ hv) (Nat.lt_irrefl _)
    obtain ⟨rfl, hid⟩ | ⟨hji, hj'⟩ := hplace hj hu
    · obtain ⟨rfl, -⟩ | ⟨hki, hk'⟩ := hplace hk hv
      · rfl
      · exact absurd (hself hid hk' hv) hki
    · obtain ⟨rfl, hid⟩ | ⟨-, hk'⟩ := hplace hk hv
      · exact absurd (hself hid hj' hu) hji
      · exact hs.unique j k u v n hj' hk' hu hv
  · -- ids are below the counter
    refine Pool.forall_mem_stepped ?_ ?_ ?_
    · intro n hn
      obtain hn | ⟨-, hlt⟩ := hids n hn
      · exact Nat.lt_of_lt_of_le (hs.below th hth n hn) hnext
      · exact hlt
    · intro u hu n hn
      rw [heffect.new u hu] at hn
      cases hn
    · intro j u _ hj n hn
      exact Nat.lt_of_lt_of_le (hs.below u (List.mem_of_getElem? hj) n hn) hnext
  · intro p hp
    obtain hp | ⟨-, hpending, -⟩ := mem_answers_after hs heffect hp
    · exact Nat.lt_of_lt_of_le (hs.answersBelow p hp) hnext
    · exact Nat.lt_of_lt_of_le (hs.pendingBelow _ hpending) hnext
  · -- an id is neither in the map nor answered before it is registered
    intro id hregistering
    obtain ⟨j, hj⟩ := List.mem_iff_getElem?.1 hregistering
    obtain ⟨-, hself⟩ | ⟨hji, hj'⟩ | hnew := Pool.place_stepped hj
    · obtain ⟨-, -, hold⟩ | ⟨hnumbering, -, hnumbered, -⟩ := heffect.id
      · -- no step of a registering call leaves it so
        have hth' := hold id hself.symm
        rw [hth'] at hth
        refine ⟨fun hpending => ?_, fun p hp hpid => ?_⟩
        · obtain hpending | ⟨-, hsending⟩ := hmem id hpending
          · exact (hs.fresh id hth).1 hpending
          · rw [← hself] at hsending
            cases hsending
        · obtain hp | ⟨hlistener, -⟩ := mem_answers_after hs heffect hp
          · exact (hs.fresh id hth).2 p hp hpid
          · rw [hth'] at hlistener
            cases hlistener
      · dsimp only at hnumbered
        rw [hnumbered] at hself
        cases hself
        refine ⟨fun hpending => ?_, fun p hp hpid => ?_⟩
        · obtain hpending | ⟨hregistering, -⟩ := hmem _ hpending
          · exact Nat.lt_irrefl _ (hs.pendingBelow _ hpending)
          · rw [hnumbering] at hregistering
            cases hregistering
        · obtain hp | ⟨hlistener, -⟩ := mem_answers_after hs heffect hp
          · have := hs.answersBelow p hp
            omega
          · rw [hnumbering] at hlistener
            cases hlistener
    · have hfresh := hs.fresh id (List.mem_of_getElem? hj')
      refine ⟨fun hpending => ?_, fun p hp hpid => ?_⟩
      · obtain hpending | ⟨rfl, -⟩ := hmem id hpending
        · exact hfresh.1 hpending
        · exact hji (hs.unique j i _ _ id hj' hi rfl rfl)
      · obtain hp | ⟨-, hwaiting, -⟩ := mem_answers_after hs heffect hp
        · exact hfresh.2 p hp hpid
        · rw [hpid] at hwaiting
          exact hfresh.1 hwaiting
    · have hnone := heffect.new _ hnew
      cases hnone

end Step

theorem inFlightInv (h : (requests t).system.ReachableWhile (fun s a => removesEntries t s a = true) s) :
    InFlightInv s := by
  refine Pool.invariant_of (I := fun _ => True) (J := InFlightInv) (fun _ _ => trivial) ?_ ?_ ?_ h
  · rintro sh ⟨hpending, hanswers, -⟩
    refine ⟨?_, ?_, ?_, ?_, ?_, ?_, ?_⟩ <;> simp [Requests.AnsweredGone, hpending, hanswers]
  · intro s a th _ hs _ hlaunch
    apply hs.launch
    cases a <;> cases hlaunch <;> rfl
  · intro s i c th sh' th' new _ hs hok hi hstep
    have hguard : removesEntries t s (.run i c) = true := hok
    simp only [removesEntries, hi, Bool.and_eq_true, Bool.not_eq_true'] at hguard
    exact hs.step hi hguard.1 hguard.2 (upstreamStep_effect hstep)

/-- The map holds requests in flight. -/
structure PendingInFlight (s : UpstreamState) : Prop where
  ended : ∀ id result, .call (.ended (some id) result) ∈ s.threads → id ∉ s.shared.inbox.pending
  bounded : s.shared.inbox.pending.length ≤ s.threads.countP fun u => u.inFlight.isSome

theorem InFlightInv.pendingInFlight (hs : InFlightInv s) : PendingInFlight s where
  ended id result hended hpending := by
    obtain ⟨u, hu, hflight⟩ := hs.live id hpending
    obtain ⟨i, hi⟩ := List.mem_iff_getElem?.1 hu
    obtain ⟨j, hj⟩ := List.mem_iff_getElem?.1 hended
    obtain rfl := hs.unique i j u _ id hi hj (callId_of_inFlight hflight) rfl
    rw [hi] at hj
    cases hj
    cases hflight
  bounded := by
    have hsub : s.shared.inbox.pending ⊆ s.threads.filterMap UpstreamThread.inFlight := by
      intro id hid
      obtain ⟨u, hu, hflight⟩ := hs.live id hid
      exact List.mem_filterMap.2 ⟨u, hu, hflight⟩
    rw [← List.length_filterMap_eq_countP]
    exact (List.subperm_of_subset hs.nodup hsub).length_le

/-- The guard is exact: a call that leaves its entry behind has ended with its id in the map. -/
theorem not_pendingInFlight_of_leavesEntry {i : Nat} {c : UpstreamChoice} {s' : UpstreamState}
    (hi : s.threads[i]? = some th) (hleaves : leavesEntry t s.shared th c = true)
    (h : (requests t).system.step s (.run i c) = some s') : ¬ PendingInFlight s' := by
  obtain ⟨th₀, sh, th', new, hi₀, hstep, rfl⟩ := Pool.next_run h
  rw [hi] at hi₀
  cases hi₀
  intro hflight
  change upstreamStep t s.shared s.threads th c = some (sh, th', new) at hstep
  have hended : ∃ id result, th' = .call (.ended (some id) result) ∧ id ∈ sh.inbox.pending := by
    revert hstep hleaves
    fun_cases leavesEntry t s.shared th c <;> intro hleaves hstep
    case case1 | case2 | case3 =>
      cases hstep
      exact ⟨_, _, rfl, by simpa using hleaves⟩
    case case4 =>
      cases t with
      | stdio =>
        cases hstep
        exact ⟨_, _, rfl, by simpa using hleaves⟩
      | sse => cases hstep
    case case5 =>
      obtain ⟨rfl, hpending⟩ := of_decide_eq_true hleaves
      cases hstep
      exact ⟨_, _, rfl, hpending⟩
    case case6 id =>
      obtain ⟨rfl, hpending⟩ := of_decide_eq_true hleaves
      simp only [upstreamStep, callStep] at hstep
      by_cases hreceived : (s.shared.received id).isSome = true
      · rw [if_pos hreceived] at hstep
        cases hstep
      · rw [if_neg hreceived] at hstep
        cases hstep
        exact ⟨_, _, rfl, hpending⟩
    case case7 => cases hleaves
  obtain ⟨id, result, rfl, hpending⟩ := hended
  exact hflight.ended id result (Pool.mem_stepped_self hi) hpending

/-- **Theorem.** In a run in which no call leaves its entry behind, and the ids do not come round, the
map holds requests in flight. -/
theorem pending_in_flight {t : UpstreamTransport} {s : UpstreamState}
    (h : (requests t).system.ReachableWhile (fun s a => removesEntries t s a = true) s) :
    PendingInFlight s :=
  (inFlightInv h).pendingInFlight

/-- One call times out over stdio, and another waits. -/
theorem pending_in_flight_timeout : ∃ s,
    (requests .stdio).system.ReachableWhile (fun s a => removesEntries .stdio s a = true) s ∧
      s.shared.inbox.pending = [2] ∧ PendingInFlight s := by
  have hrun : ∃ s, (requests .stdio).system.runWhile (removesEntries .stdio) startRequests
      (waitingRequest ++ [.launch .sendRequest, .run 2 .go, .run 2 .go, .run 0 .timeout, .run 0 .go]) =
        some s ∧ s.shared.inbox.pending = [2] := ⟨_, rfl, rfl⟩
  obtain ⟨s, hrun, hpending⟩ := hrun
  have hreach : (requests .stdio).system.ReachableWhile
      (fun s a => removesEntries .stdio s a = true) s :=
    .run (fun _ _ h => h) (.init ⟨⟨rfl, rfl, rfl⟩, rfl⟩) hrun
  exact ⟨s, hreach, hpending, pending_in_flight hreach⟩

theorem leaks (t : UpstreamTransport) :
    ¬ ∀ s, (requests t).system.Reachable s → PendingInFlight s := by
  intro h
  have hrun : ∃ s result, (requests t).system.run startRequests
      [.launch .sendRequest, .run 0 .go, .run 0 .go,
        .run 0 (match t with | .stdio => .cancel | .sse => .fail)] = some s ∧
      s.threads = [.call (.ended (some 1) result)] ∧ s.shared.inbox.pending = [1] := by
    cases t <;> exact ⟨_, _, rfl, rfl, rfl⟩
  obtain ⟨s, result, hrun, hthreads, hpending⟩ := hrun
  have hflight := h s (System.Reachable.run (.init ⟨⟨rfl, rfl, rfl⟩, rfl⟩) hrun)
  exact hflight.ended 1 result (by simp [hthreads]) (by simp [hpending])

/-- A call is cancelled over stdio, and a POST fails over SSE: the ids stay in the map. -/
theorem ended_calls_leak :
    (¬ ∀ s, (requests .stdio).system.Reachable s → PendingInFlight s) ∧
      ¬ ∀ s, (requests .sse).system.Reachable s → PendingInFlight s :=
  ⟨leaks .stdio, leaks .sse⟩

end EndaraRelay
