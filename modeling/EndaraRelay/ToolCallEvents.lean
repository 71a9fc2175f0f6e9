import EndaraRelay.Http.Challenges
import EndaraRelay.ToolsCall

/-!
# Tool-call events

What is published on the event bus (`events.rs`) while tool calls run: by the registry for a call it
rejects, and by the stdio, SSE and HTTP adapters around a call upstream. An OAuth adapter hands the
call to an inner HTTP adapter, and after a 401 once more. A bus is wired everywhere; without one
nothing is published.

**The model.** A thread is a call, and its points are where it awaits. The caller may disconnect at
any of them, and then the call does nothing more. Request ids are drawn from a counter. `upstream`
keeps for the history what the call upstream under an id came back with.

**Theorem (`events_balanced`).** Under one id there is nothing, one `Started`, or one `Started` and
then one `Completed` or `Failed`. A `Started` alone is that of a call which is under way or was
cancelled. `Completed` means that the upstream answered with a result that is not marked as an error,
which the code reports as a failed call on purpose.
-/

namespace EndaraRelay

open Verif

/-! ## Events -/

inductive ToolCallEvent where
  | started (requestId : Nat) (endpoint transport tool : String)
  | completed (requestId : Nat) (status : String)
  | failed (requestId : Nat) (status errorMessage : String)

namespace ToolCallEvent

def requestId : ToolCallEvent → Nat
  | started id .. | completed id _ | failed id .. => id

def isStarted : ToolCallEvent → Bool
  | started .. => true
  | _ => false

def isCompleted : ToolCallEvent → Bool
  | completed .. => true
  | _ => false

end ToolCallEvent

def truncateForDisplay (s : String) (maxChars : Nat) : String :=
  if s.toList.length ≤ maxChars then s else String.ofList (s.toList.take maxChars) ++ "…"

/-- The text of an error. -/
def AdapterError.display : AdapterError → String
  | .processSpawnFailed msg => "failed to spawn process: " ++ msg
  | .processCrashed msg => "process crashed: " ++ msg
  | .timeout secs => "operation timed out after " ++ toString secs ++ "s"
  | .jsonRpcError code message _ => "JSON-RPC error " ++ toString code ++ ": " ++ message
  | .protocolError msg => "protocol error: " ++ msg
  | .notInitialized => "adapter not initialized"
  | .connectionFailed msg => "connection failed: " ++ msg
  | .httpError status body => "HTTP error " ++ toString status ++ ": " ++ truncateForDisplay body 200
  | .authenticationRequired endpoint message =>
    "Authentication required for endpoint '" ++ endpoint ++ "': " ++ message
  | .io msg => "IO error: " ++ msg
  | .json msg => "JSON serialization error: " ++ msg

/-- `tool_result_error_message`: the message of a result that is marked as an error. -/
def toolResultErrorMessage (value : Json) : Option String :=
  match value.get "isError" with
  | some (.bool true) =>
    let text := (((value.get "content").bind Json.asArray).bind fun items =>
      items.findSome? fun item => (item.get "text").bind Json.asStr).getD "tool call returned an error result"
    some (String.ofList (text.toList.take 2048))
  | _ => none

/-- The event that ends a call upstream. -/
def endEvent (id : Nat) : Except AdapterError Json → ToolCallEvent
  | .ok v =>
    match toolResultErrorMessage v with
    | none => .completed id "ok"
    | some msg => .failed id "error" msg
  | .error e => .failed id "error" e.display

def succeeded : Except AdapterError Json → Bool
  | .ok v => (toolResultErrorMessage v).isNone
  | .error _ => false

/-! ## Calls -/

/-- The transports that publish, and whether an HTTP adapter has an interceptor. -/
inductive CallTransport where
  | stdio
  | sse
  | http (jitInterceptor : Bool)

def CallTransport.text : CallTransport → String
  | stdio => "stdio"
  | sse => "sse"
  | http _ => "http"

/-- What a call is handed to. -/
inductive CallAdapter where
  | direct (transport : CallTransport)
  | oauth
  /-- A placeholder, which only says why it cannot. -/
  | placeholder (err : AdapterError)

/-- A call of a transport; `mayRetry` is the first one that an OAuth adapter makes. -/
structure Attempt where
  endpoint : String
  transport : CallTransport
  tool : String
  mayRetry : Bool

structure RouteCall where
  prefixedName : String
  arguments : Json
  profile : Option (List String)

/-- A request id whose `Started` is published, with what the call came back with once it has. -/
abbrev Held := Option (Nat × Option (Except AdapterError Json))

inductive ToolCallPc where
  /-- The catalog and the entries are awaited. -/
  | routing (call : RouteCall)
  /-- The inner adapter of an OAuth adapter is awaited. -/
  | entering (endpoint tool : String) (again : Bool)
  /-- The caches of the transport are read, of which `Started` tells. -/
  | starting (a : Attempt)
  | calling (a : Attempt) (id : Nat)
  /-- The upstream came back with a 401, which may be answered by a sign-in. -/
  | intercepting (a : Attempt) (id : Nat) (body : String)
  /-- The activity log is awaited. -/
  | logging (a : Attempt) (id : Nat) (result : Except AdapterError Json)
  | refreshing (endpoint tool : String)
  | returned (result : Except AdapterError Json)
  | cancelled (held : Held)

inductive CallChoice (A : Type) where
  /-- The catalog and the entries at the time, and the text of a validation failure. -/
  | route (catalog : Catalog) (entries : Entries A) (validationMessage : String)
  | inner (present : Bool)
  | go
  | upstream (result : Except AdapterError Json)
  /-- The outcome of the interception, `none` when there is no challenge. -/
  | surfaced (outcome : Option (Except Http.JitError String))
  | refreshed (ok : Bool)
  | cancel

structure ToolCallLog where
  events : List ToolCallEvent
  fresh : Nat
  upstream : List (Nat × Except AdapterError Json)

namespace ToolCallLog

def publish (sh : ToolCallLog) (event : ToolCallEvent) : ToolCallLog :=
  { sh with events := sh.events ++ [event] }

/-- Mint an id and publish its `Started`. -/
def start (sh : ToolCallLog) (endpoint transport tool : String) : ToolCallLog :=
  { sh with fresh := sh.fresh + 1, events := sh.events ++ [.started sh.fresh endpoint transport tool] }

/-- `publish_early_rejection` and `publish_validation_failure`. -/
def reject (sh : ToolCallLog) (target : String × String × String) (status msg : String) : ToolCallLog :=
  (sh.start target.1 target.2.1 target.2.2).publish (.failed sh.fresh status msg)

def record (sh : ToolCallLog) (id : Nat) (result : Except AdapterError Json) : ToolCallLog :=
  { sh with upstream := (id, result) :: sh.upstream }

/-- The events under an id. -/
def eventsOf (sh : ToolCallLog) (id : Nat) : List ToolCallEvent := sh.events.filter fun e => e.requestId = id

end ToolCallLog

variable {A : Type} [McpAdapter A]

/-- The endpoint, transport and tool that the events of a rejection name. -/
def rejectionTarget (catalog : Catalog) (entries : Entries A) (prefixedName : String) :
    String × String × String :=
  match catalog.lookup.lookup prefixedName with
  | none => ("unknown", "unknown", prefixedName)
  | some (endpoint, tool) =>
    match entries.lookup endpoint with
    | none => (endpoint, "unknown", tool)
    | some entry => (endpoint, entry.transport, tool)

/-- What the view of a profile refuses, without an event. -/
def profileRefusal (profile : Option (List String)) (catalog : Catalog) (prefixedName : String) :
    Option AdapterError :=
  match profile with
  | none => none
  | some allowedEndpoints =>
    match profileToolTarget allowedEndpoints catalog prefixedName with
    | .error err => some err
    | .ok _ => none

namespace ToolCallPc

def route (validateArguments : Option (String → Json → Json → Option Json)) (kindOf : A → CallAdapter)
    (sh : ToolCallLog) (call : RouteCall) (catalog : Catalog) (entries : Entries A)
    (validationMessage : String) : ToolCallLog × ToolCallPc :=
  match profileRefusal call.profile catalog call.prefixedName with
  | some err => (sh, .returned (.error err))
  | none =>
    match routeDecision validateArguments catalog entries call.prefixedName call.arguments with
    | .rejected err =>
      (sh.reject (rejectionTarget catalog entries call.prefixedName) "error" err.display,
        .returned (.error err))
    | .invalid result =>
      (sh.reject (rejectionTarget catalog entries call.prefixedName) "validation_error" validationMessage,
        .returned (.ok result))
    | .called endpoint adapter tool =>
      match kindOf adapter with
      | .direct transport => (sh, .starting ⟨endpoint, transport, tool, false⟩)
      | .oauth => (sh, .entering endpoint tool false)
      | .placeholder err => (sh, .returned (.error err))

/-- The end of a call of a transport. A 401 of the first call is no end for an OAuth adapter. -/
def finish (a : Attempt) (result : Except AdapterError Json) : ToolCallPc :=
  if a.mayRetry && Http.shouldInterceptOutcome result then .refreshing a.endpoint a.tool
  else .returned result

/-- The upstream comes back. -/
def arrive (sh : ToolCallLog) (a : Attempt) (id : Nat) (result : Except AdapterError Json) :
    ToolCallLog × ToolCallPc :=
  match a.transport, result with
  | .stdio, result => ((sh.record id result).publish (endEvent id result), finish a result)
  | .http true, .error (.httpError 401 body) =>
    (sh.record id (.error (.httpError 401 body)), .intercepting a id body)
  | _, result => (sh.record id result, .logging a id result)

/-- What a call holds. -/
def held : ToolCallPc → Held
  | .calling _ id => some (id, none)
  | .intercepting _ id body => some (id, some (.error (.httpError 401 body)))
  | .logging _ id result => some (id, some result)
  | .cancelled held => held
  | _ => none

/-- What a call does next. -/
def step (validateArguments : Option (String → Json → Json → Option Json)) (kindOf : A → CallAdapter)
    (sh : ToolCallLog) : ToolCallPc → CallChoice A → Option (ToolCallLog × ToolCallPc)
  | .routing call, .route catalog entries validationMessage =>
    some (route validateArguments kindOf sh call catalog entries validationMessage)
  | .entering endpoint tool again, .inner present =>
    some (sh,
      if present then .starting ⟨endpoint, .http false, tool, !again⟩
      else if again then .returned (.error (.connectionFailed "Adapter lost during refresh"))
      else .returned (.error (.connectionFailed "not authenticated — complete OAuth login first")))
  | .starting a, .go => some (sh.start a.endpoint a.transport.text a.tool, .calling a sh.fresh)
  | .calling a id, .upstream result => some (arrive sh a id result)
  | .intercepting a id body, .surfaced none => some (sh, .logging a id (.error (.httpError 401 body)))
  | .intercepting a id _, .surfaced (some outcome) => some (sh, .logging a id (.ok (Http.surface outcome)))
  | .logging a id result, .go => some (sh.publish (endEvent id result), finish a result)
  | .refreshing endpoint tool, .refreshed ok =>
    some (sh,
      if ok then .entering endpoint tool true
      else .returned (.error (.authenticationRequired endpoint
        "Token expired and refresh failed. Re-authenticate in Endara Desktop.")))
  | .returned _, _ | .cancelled _, _ => none
  | pc, .cancel => some (sh, .cancelled pc.held)
  | _, _ => none

end ToolCallPc

/-- Tool calls over one bus. -/
def toolCalls (validateArguments : Option (String → Json → Json → Option Json)) (kindOf : A → CallAdapter) :
    Pool ToolCallLog ToolCallPc RouteCall (CallChoice A) where
  init sh := sh.events = [] ∧ sh.upstream = []
  launch _ _ call := some (.routing call)
  step sh _ pc c := (pc.step validateArguments kindOf sh c).map fun r => (r.1, r.2, [])

abbrev CallState := Pool.State ToolCallLog ToolCallPc

/-! ## Balance -/

/-- The events under an id are a `Started` and an end, which is `Completed` when the call upstream
succeeded. -/
def ToolCallLog.Closed (sh : ToolCallLog) (id : Nat) : Prop :=
  ∃ start e, sh.eventsOf id = [start, e] ∧ start.isStarted = true ∧ e.isStarted = false ∧
    (e.isCompleted = true ↔ ∃ result, sh.upstream.lookup id = some result ∧ succeeded result = true)

/-- There is a `Started` under the id, and no end. -/
def ToolCallLog.Open (sh : ToolCallLog) (id : Nat) : Prop :=
  ∃ start, sh.eventsOf id = [start] ∧ start.isStarted = true

def ToolCallPc.holds (pc : ToolCallPc) (id : Nat) : Prop := ∃ outcome, pc.held = some (id, outcome)

/-- Every id has no events, is closed, or is held open by a call that is under way or was cancelled. -/
def EventsBalanced (s : CallState) : Prop :=
  ∀ id, s.shared.eventsOf id = [] ∨ s.shared.Closed id ∨
    s.shared.Open id ∧ ∃ pc ∈ s.threads, pc.holds id

/-! ## What the operations do to the events under an id -/

variable {event : ToolCallEvent} {result : Except AdapterError Json} {id : Nat} {s : CallState}

namespace ToolCallLog

variable {sh : ToolCallLog} {id m : Nat}

theorem eventsOf_append (sh : ToolCallLog) (events : List ToolCallEvent) (id : Nat) :
    ToolCallLog.eventsOf { sh with events := sh.events ++ events } id =
      sh.eventsOf id ++ events.filter fun e => e.requestId = id :=
  List.filter_append _ _

theorem eventsOf_publish_self (h : event.requestId = id) :
    (sh.publish event).eventsOf id = sh.eventsOf id ++ [event] := by
  refine (eventsOf_append sh [event] id).trans ?_
  rw [List.filter_cons_of_pos (by simpa using h), List.filter_nil]

theorem eventsOf_publish_ne (h : event.requestId ≠ id) :
    (sh.publish event).eventsOf id = sh.eventsOf id := by
  refine (eventsOf_append sh [event] id).trans ?_
  rw [List.filter_cons_of_neg (by simpa using h), List.filter_nil, List.append_nil]

theorem eventsOf_start_ne {endpoint transport tool : String} (h : sh.fresh ≠ id) :
    (sh.start endpoint transport tool).eventsOf id = sh.eventsOf id := by
  refine (eventsOf_append sh _ id).trans ?_
  simp [ToolCallEvent.requestId, h]

theorem eventsOf_reject_ne {target : String × String × String} {status msg : String} (h : sh.fresh ≠ id) :
    (sh.reject target status msg).eventsOf id = sh.eventsOf id := by
  refine (eventsOf_publish_ne (by simpa [ToolCallEvent.requestId] using h)).trans ?_
  exact eventsOf_start_ne h

theorem lookup_record_self : (sh.record id result).upstream.lookup id = some result := by
  simp [record]

theorem lookup_record_ne (h : m ≠ id) :
    (sh.record id result).upstream.lookup m = sh.upstream.lookup m := by
  simp [record, List.lookup_cons, beq_false_of_ne h]

/-- Nothing is known of an id that has not been minted. -/
structure Bounded (sh : ToolCallLog) : Prop where
  events : ∀ id, sh.fresh ≤ id → sh.eventsOf id = []
  upstream : ∀ id, sh.fresh ≤ id → sh.upstream.lookup id = none

end ToolCallLog

theorem endEvent_requestId (id : Nat) (result : Except AdapterError Json) : (endEvent id result).requestId = id := by
  unfold endEvent
  split
  · split
    · rfl
    · rfl
  · rfl

theorem endEvent_not_started (id : Nat) (result : Except AdapterError Json) :
    (endEvent id result).isStarted = false := by
  unfold endEvent
  split
  · split
    · rfl
    · rfl
  · rfl

/-- The end of a call is `Completed` when it succeeded. -/
theorem endEvent_isCompleted (id : Nat) (result : Except AdapterError Json) :
    (endEvent id result).isCompleted = succeeded result := by
  unfold endEvent succeeded
  cases result with
  | ok v =>
    cases h : toolResultErrorMessage v with
    | none => simp [h, ToolCallEvent.isCompleted]
    | some msg => simp [h, ToolCallEvent.isCompleted]
  | error e => rfl

/-- A sign-in that is surfaced is marked as an error. -/
theorem succeeded_surface (outcome : Except Http.JitError String) :
    succeeded (.ok (Http.surface outcome)) = false := by
  cases outcome with
  | ok url => rfl
  | error e => rfl

/-! ## What a step does -/

/-- The kinds of step: to what is published, and to what the call holds. -/
inductive Moved (sh : ToolCallLog) (pc : ToolCallPc) : ToolCallLog → ToolCallPc → Prop where
  /-- Nothing is published; a result may be replaced by one that failed as well. -/
  | quiet {pc'} (held : ∀ id outcome, pc.held = some (id, outcome) → ∃ outcome', pc'.held = some (id, outcome') ∧
      outcome'.map succeeded = outcome.map succeeded) (none : pc.held = none → pc'.held = none) :
      Moved sh pc sh pc'
  | rejected {pc'} (target : String × String × String) (status msg : String) (before : pc.held = none)
      (after : pc'.held = none) : Moved sh pc (sh.reject target status msg) pc'
  | opened {pc'} (endpoint transport tool : String) (before : pc.held = none)
      (after : pc'.held = some (sh.fresh, none)) : Moved sh pc (sh.start endpoint transport tool) pc'
  | arrived {pc'} (id : Nat) (result : Except AdapterError Json) (before : pc.held = some (id, none))
      (after : pc'.held = some (id, some result)) : Moved sh pc (sh.record id result) pc'
  | answered {pc'} (id : Nat) (result : Except AdapterError Json) (before : pc.held = some (id, none))
      (after : pc'.held = none) : Moved sh pc ((sh.record id result).publish (endEvent id result)) pc'
  | closed {pc'} (id : Nat) (result : Except AdapterError Json) (before : pc.held = some (id, some result))
      (after : pc'.held = none) : Moved sh pc (sh.publish (endEvent id result)) pc'

section Steps

variable {validateArguments : Option (String → Json → Json → Option Json)} {kindOf : A → CallAdapter}
  {sh sh' : ToolCallLog} {pc pc' : ToolCallPc}

omit [McpAdapter A] in
theorem held_finish (a : Attempt) (result : Except AdapterError Json) : (ToolCallPc.finish a result).held = none := by
  unfold ToolCallPc.finish
  split
  · rfl
  · rfl

/-- A step between points that hold nothing. -/
theorem Moved.idle (h : pc.held = none) (h' : pc'.held = none) : Moved sh pc sh pc' := by
  refine .quiet (fun id outcome hheld => ?_) fun _ => h'
  rw [h] at hheld
  cases hheld

theorem Moved.keeps (h : pc'.held = pc.held) : Moved sh pc sh pc' :=
  .quiet (fun _ outcome hheld => ⟨outcome, h.trans hheld, rfl⟩) fun hnone => h.trans hnone

theorem moved_route (validateArguments : Option (String → Json → Json → Option Json)) (kindOf : A → CallAdapter)
    (call : RouteCall) (catalog : Catalog) (entries : Entries A) (validationMessage : String) :
    Moved sh (.routing call)
      (ToolCallPc.route validateArguments kindOf sh call catalog entries validationMessage).1
      (ToolCallPc.route validateArguments kindOf sh call catalog entries validationMessage).2 := by
  unfold ToolCallPc.route
  cases profileRefusal call.profile catalog call.prefixedName with
  | some err => exact .idle rfl rfl
  | none =>
    dsimp only
    cases routeDecision validateArguments catalog entries call.prefixedName call.arguments with
    | rejected err => exact .rejected _ _ _ rfl rfl
    | invalid result => exact .rejected _ _ _ rfl rfl
    | called endpoint adapter tool =>
      dsimp only
      cases kindOf adapter with
      | direct transport => exact .idle rfl rfl
      | oauth => exact .idle rfl rfl
      | placeholder err => exact .idle rfl rfl

theorem moved_arrive (a : Attempt) (id : Nat) (result : Except AdapterError Json) :
    Moved sh (.calling a id) (ToolCallPc.arrive sh a id result).1 (ToolCallPc.arrive sh a id result).2 := by
  unfold ToolCallPc.arrive
  split
  · exact .answered id _ rfl (held_finish a _)
  · exact .arrived id _ rfl rfl
  · exact .arrived id _ rfl rfl

/-- **What a step does.** -/
theorem moved_of_step {c : CallChoice A} (h : pc.step validateArguments kindOf sh c = some (sh', pc')) :
    Moved sh pc sh' pc' := by
  cases c with
  | cancel =>
    cases pc with
    | returned result => cases h
    | cancelled held => cases h
    | routing call | entering endpoint tool again | starting a | calling a id | intercepting a id body
    | logging a id result | refreshing endpoint tool =>
      cases h
      exact .keeps rfl
  | route catalog entries validationMessage =>
    cases pc with
    | routing call =>
      have hmoved : Moved sh (.routing call) _ _ :=
        moved_route validateArguments kindOf call catalog entries validationMessage
      rw [Option.some.inj h] at hmoved
      exact hmoved
    | entering _ _ _ | starting _ | calling _ _ | intercepting _ _ _ | logging _ _ _ | refreshing _ _
    | returned _ | cancelled _ => cases h
  | inner present =>
    cases pc with
    | entering endpoint tool again =>
      cases h
      refine .idle rfl ?_
      split
      · rfl
      · split
        · rfl
        · rfl
    | routing _ | starting _ | calling _ _ | intercepting _ _ _ | logging _ _ _ | refreshing _ _
    | returned _ | cancelled _ => cases h
  | go =>
    cases pc with
    | starting a =>
      cases h
      exact .opened _ _ _ rfl rfl
    | logging a id result =>
      cases h
      exact .closed id result rfl (held_finish a result)
    | routing _ | entering _ _ _ | calling _ _ | intercepting _ _ _ | refreshing _ _
    | returned _ | cancelled _ => cases h
  | upstream result =>
    cases pc with
    | calling a id =>
      have hmoved : Moved sh (.calling a id) _ _ := moved_arrive a id result
      rw [Option.some.inj h] at hmoved
      exact hmoved
    | routing _ | entering _ _ _ | starting _ | intercepting _ _ _ | logging _ _ _ | refreshing _ _
    | returned _ | cancelled _ => cases h
  | surfaced outcome =>
    cases pc with
    | intercepting a id body =>
      cases outcome with
      | none =>
        cases h
        exact .keeps rfl
      | some outcome =>
        cases h
        refine .quiet (fun m was hheld => ?_) (fun hnone => by cases hnone)
        cases hheld
        exact ⟨_, rfl, congrArg some (succeeded_surface outcome)⟩
    | routing _ | entering _ _ _ | starting _ | calling _ _ | logging _ _ _ | refreshing _ _
    | returned _ | cancelled _ => cases h
  | refreshed ok =>
    cases pc with
    | refreshing endpoint tool =>
      cases h
      refine .idle rfl ?_
      split
      · rfl
      · rfl
    | routing _ | entering _ _ _ | starting _ | calling _ _ | intercepting _ _ _ | logging _ _ _
    | returned _ | cancelled _ => cases h

end Steps

/-! ## The invariant -/

/-- What holds of a call that holds an id: there is a `Started` and no end, and what it has is what the
upstream came back with, as far as success goes. -/
structure HeldOk (sh : ToolCallLog) (id : Nat) (outcome : Option (Except AdapterError Json)) : Prop where
  lt : id < sh.fresh
  opened : sh.Open id
  upstream : (sh.upstream.lookup id).map succeeded = outcome.map succeeded

/-- The invariant of the runs. -/
structure EventsInv (s : CallState) : Prop where
  bounded : s.shared.Bounded
  balanced : EventsBalanced s
  threads : ∀ pc ∈ s.threads, ∀ id outcome, pc.held = some (id, outcome) → HeldOk s.shared id outcome
  distinct : ∀ (i j : Nat) (pc pc' : ToolCallPc), s.threads[i]? = some pc → s.threads[j]? = some pc' → i ≠ j →
    ∀ id, pc.holds id → ¬ pc'.holds id

/-- Two logs know the same of an id. -/
structure EventsAgree (sh sh' : ToolCallLog) (id : Nat) : Prop where
  events : sh'.eventsOf id = sh.eventsOf id
  upstream : sh'.upstream.lookup id = sh.upstream.lookup id

namespace EventsAgree

variable {sh sh' : ToolCallLog} {id : Nat} (h : EventsAgree sh sh' id)

include h

theorem closed (hclosed : sh.Closed id) : sh'.Closed id := by
  obtain ⟨start, e, hevents, hstart, hend, hcompleted⟩ := hclosed
  refine ⟨start, e, h.events.trans hevents, hstart, hend, ?_⟩
  rw [h.upstream]
  exact hcompleted

theorem opened (hopen : sh.Open id) : sh'.Open id := by
  obtain ⟨start, hevents, hstart⟩ := hopen
  exact ⟨start, h.events.trans hevents, hstart⟩

theorem heldOk (hfresh : sh.fresh ≤ sh'.fresh) {outcome : Option (Except AdapterError Json)}
    (hheld : HeldOk sh id outcome) : HeldOk sh' id outcome := by
  refine ⟨hheld.lt.trans_le hfresh, h.opened hheld.opened, ?_⟩
  rw [h.upstream]
  exact hheld.upstream

end EventsAgree

section Invariant

variable {sh sh' : ToolCallLog} {ts : List ToolCallPc} {i : Nat} {pc pc' : ToolCallPc}

/-- **A step leads from a balanced state to one** when the logs agree on all ids but those in `own`, on
which the call that moved has the say: each of them is no other call's, and is closed or held by it. -/
theorem EventsInv.stepped (h : EventsInv ⟨sh, ts⟩) (hi : ts[i]? = some pc) (own : Nat → Prop)
    (hfresh : sh.fresh ≤ sh'.fresh) (hbounded : sh'.Bounded)
    (hagrees : ∀ id, ¬ own id → EventsAgree sh sh' id)
    (hown : ∀ id, own id → pc.holds id ∨ sh.fresh ≤ id)
    (hsettled : ∀ id, own id → sh'.eventsOf id = [] ∨ sh'.Closed id ∨ sh'.Open id ∧ pc'.holds id)
    (hkept : ∀ id, pc.holds id → ¬ own id → pc'.holds id)
    (hheld : ∀ id outcome, pc'.held = some (id, outcome) → HeldOk sh' id outcome ∧ (pc.holds id ∨ sh.fresh ≤ id)) :
    EventsInv ⟨sh', Pool.stepped ts i pc' []⟩ := by
  -- An id of another call is not the moving call's.
  have hother : ∀ j u, j ≠ i → ts[j]? = some u → ∀ id, u.holds id → ¬ pc.holds id ∧ id < sh.fresh := by
    intro j u hne hj id hholds
    obtain ⟨outcome, houtcome⟩ := hholds
    refine ⟨h.distinct j i u pc hj hi hne id ⟨outcome, houtcome⟩, ?_⟩
    exact (h.threads u (List.mem_of_getElem? hj) id outcome houtcome).lt
  have hnotOwn : ∀ j u, j ≠ i → ts[j]? = some u → ∀ id, u.holds id → ¬ own id := by
    intro j u hne hj id hholds ho
    obtain ⟨hpc, hlt⟩ := hother j u hne hj id hholds
    rcases hown id ho with hp | hf
    · exact hpc hp
    · omega
  refine ⟨hbounded, ?_, ?_, ?_⟩
  · intro id
    by_cases ho : own id
    · rcases hsettled id ho with hnone | hclosed | ⟨hopen, hholds⟩
      · exact .inl hnone
      · exact .inr (.inl hclosed)
      · exact .inr (.inr ⟨hopen, pc', Pool.mem_stepped_self hi, hholds⟩)
    · have hagree := hagrees id ho
      rcases h.balanced id with hnone | hclosed | ⟨hopen, hholder⟩
      · exact .inl (hagree.events.trans hnone)
      · exact .inr (.inl (hagree.closed hclosed))
      · refine .inr (.inr ⟨hagree.opened hopen, ?_⟩)
        exact Pool.exists_stepped hi (fun hholds => hkept id hholds ho) hholder
  · refine Pool.forall_mem_stepped (fun id outcome hout => (hheld id outcome hout).1)
      (List.forall_mem_nil _) fun j u hne hj id outcome hout => ?_
    refine (hagrees id (hnotOwn j u hne hj id ⟨outcome, hout⟩)).heldOk hfresh ?_
    exact h.threads u (List.mem_of_getElem? hj) id outcome hout
  · intro j k u v hj hk hne id hu hv
    -- The mover against another call.
    have hmover : ∀ k v, k ≠ i → ts[k]? = some v → pc'.holds id → v.holds id → False := by
      intro k v hne hk ⟨outcome, hout⟩ hv
      obtain ⟨hpc, hlt⟩ := hother k v hne hk id hv
      rcases (hheld id outcome hout).2 with hp | hf
      · exact hpc hp
      · omega
    rcases Pool.of_getElem?_stepped hj with ⟨rfl, rfl⟩ | ⟨hji, hj'⟩
    · rcases Pool.of_getElem?_stepped hk with ⟨rfl, -⟩ | ⟨hki, hk'⟩
      · exact hne rfl
      · exact hmover k v hki hk' hu hv
    · rcases Pool.of_getElem?_stepped hk with ⟨rfl, rfl⟩ | ⟨hki, hk'⟩
      · exact hmover j u hji hj' hv hu
      · exact h.distinct j k u v hj' hk' hne id hu hv

theorem bounded_start (h : sh.Bounded) (endpoint transport tool : String) :
    (sh.start endpoint transport tool).Bounded where
  events id hid := by
    have hlt : sh.fresh < id := hid
    rw [ToolCallLog.eventsOf_start_ne (by omega)]
    exact h.events id hlt.le
  upstream id hid := by
    have hlt : sh.fresh < id := hid
    exact h.upstream id hlt.le

theorem bounded_publish (h : sh.Bounded) (hlt : event.requestId < sh.fresh) :
    (sh.publish event).Bounded where
  events id hid := by
    have hle : sh.fresh ≤ id := hid
    rw [ToolCallLog.eventsOf_publish_ne (by omega)]
    exact h.events id hle
  upstream := h.upstream

theorem bounded_record (h : sh.Bounded) (hlt : id < sh.fresh) (result : Except AdapterError Json) :
    (sh.record id result).Bounded where
  events := h.events
  upstream m hm := by
    have hle : sh.fresh ≤ m := hm
    rw [ToolCallLog.lookup_record_ne (by omega)]
    exact h.upstream m hle

theorem open_start (h : sh.Bounded) (endpoint transport tool : String) :
    (sh.start endpoint transport tool).Open sh.fresh := by
  refine ⟨.started sh.fresh endpoint transport tool, ?_, rfl⟩
  refine (ToolCallLog.eventsOf_append sh _ sh.fresh).trans ?_
  rw [h.events sh.fresh le_rfl]
  simp [ToolCallEvent.requestId]

/-- The end of an open id closes it, when it is `Completed` just after a success. -/
theorem closed_publish (hopen : sh.Open id) (hid : event.requestId = id)
    (hend : event.isStarted = false)
    (hcompleted : event.isCompleted = true ↔ ∃ result, sh.upstream.lookup id = some result ∧ succeeded result = true) :
    (sh.publish event).Closed id := by
  obtain ⟨start, hevents, hstart⟩ := hopen
  refine ⟨start, event, ?_, hstart, hend, hcompleted⟩
  rw [ToolCallLog.eventsOf_publish_self hid, hevents]
  rfl

theorem closed_endEvent (hopen : sh.Open id)
    (hupstream : (sh.upstream.lookup id).map succeeded = some (succeeded result)) :
    (sh.publish (endEvent id result)).Closed id := by
  refine closed_publish hopen (endEvent_requestId id result) (endEvent_not_started id result) ?_
  rw [endEvent_isCompleted]
  obtain ⟨was, hwas, hsame⟩ := Option.map_eq_some_iff.1 hupstream
  constructor
  · intro hsucceeded
    exact ⟨was, hwas, hsame.trans hsucceeded⟩
  · rintro ⟨result', hresult', hsucceeded⟩
    rw [hwas] at hresult'
    cases hresult'
    exact hsame.symm.trans hsucceeded

section

variable (h : EventsInv ⟨sh, ts⟩)
include h

theorem EventsInv.quiet (hi : ts[i]? = some pc)
    (hkept : ∀ id outcome, pc.held = some (id, outcome) → ∃ outcome', pc'.held = some (id, outcome') ∧
      outcome'.map succeeded = outcome.map succeeded) (hnone : pc.held = none → pc'.held = none) :
    EventsInv ⟨sh, Pool.stepped ts i pc' []⟩ := by
  refine h.stepped hi (fun _ => False) le_rfl h.bounded (fun id _ => ⟨rfl, rfl⟩) nofun nofun ?_ ?_
  · rintro id ⟨outcome, hheld⟩ -
    obtain ⟨outcome', hheld', -⟩ := hkept id outcome hheld
    exact ⟨outcome', hheld'⟩
  · intro id outcome hheld
    cases hpc : pc.held with
    | none =>
      rw [hnone hpc] at hheld
      cases hheld
    | some was =>
      obtain ⟨id', outcome'⟩ := was
      obtain ⟨outcome'', hheld', hsame⟩ := hkept id' outcome' hpc
      rw [hheld'] at hheld
      cases hheld
      have hok := h.threads pc (List.mem_of_getElem? hi) id outcome' hpc
      exact ⟨⟨hok.lt, hok.opened, hok.upstream.trans hsame.symm⟩, .inl ⟨outcome', hpc⟩⟩

theorem EventsInv.rejected (hi : ts[i]? = some pc) (target : String × String × String)
    (status msg : String) (hpc : pc.held = none) (hpc' : pc'.held = none) :
    EventsInv ⟨sh.reject target status msg, Pool.stepped ts i pc' []⟩ := by
  have hholds : ∀ id, ¬ pc.holds id := by
    rintro id ⟨outcome, hheld⟩
    rw [hpc] at hheld
    cases hheld
  have hstarted := bounded_start h.bounded target.1 target.2.1 target.2.2
  have hclosed : (sh.reject target status msg).Closed sh.fresh := by
    refine closed_publish (open_start h.bounded _ _ _) rfl rfl ?_
    have hlookup : sh.upstream.lookup sh.fresh = none := h.bounded.upstream sh.fresh le_rfl
    constructor
    · intro hcompleted
      cases hcompleted
    · rintro ⟨result, hresult, -⟩
      rw [show (sh.start target.1 target.2.1 target.2.2).upstream = sh.upstream from rfl, hlookup] at hresult
      cases hresult
  refine h.stepped hi (· = sh.fresh) (Nat.le_succ _) (bounded_publish hstarted (Nat.lt_succ_self _)) ?_ ?_ ?_ ?_ ?_
  · intro id hid
    exact ⟨ToolCallLog.eventsOf_reject_ne (Ne.symm hid), rfl⟩
  · rintro id rfl
    exact .inr le_rfl
  · rintro id rfl
    exact .inr (.inl hclosed)
  · intro id hid
    exact absurd hid (hholds id)
  · intro id outcome hheld
    rw [hpc'] at hheld
    cases hheld

theorem EventsInv.opened (hi : ts[i]? = some pc) (endpoint transport tool : String)
    (hpc : pc.held = none) (hpc' : pc'.held = some (sh.fresh, none)) :
    EventsInv ⟨sh.start endpoint transport tool, Pool.stepped ts i pc' []⟩ := by
  have hopen := open_start h.bounded endpoint transport tool
  refine h.stepped hi (· = sh.fresh) (Nat.le_succ _) (bounded_start h.bounded _ _ _) ?_ ?_ ?_ ?_ ?_
  · intro id hid
    exact ⟨ToolCallLog.eventsOf_start_ne (Ne.symm hid), rfl⟩
  · rintro id rfl
    exact .inr le_rfl
  · rintro id rfl
    exact .inr (.inr ⟨hopen, none, hpc'⟩)
  · rintro id ⟨outcome, hheld⟩
    rw [hpc] at hheld
    cases hheld
  · intro id outcome hheld
    rw [hpc'] at hheld
    cases hheld
    have hlookup : sh.upstream.lookup sh.fresh = none := h.bounded.upstream sh.fresh le_rfl
    exact ⟨⟨Nat.lt_succ_self _, hopen, congrArg (Option.map succeeded) hlookup⟩, .inr le_rfl⟩

theorem EventsInv.arrived (hi : ts[i]? = some pc) (hpc : pc.held = some (id, none))
    (hpc' : pc'.held = some (id, some result)) :
    EventsInv ⟨sh.record id result, Pool.stepped ts i pc' []⟩ := by
  have hok := h.threads pc (List.mem_of_getElem? hi) id none hpc
  refine h.stepped hi (· = id) le_rfl (bounded_record h.bounded hok.lt result) ?_ ?_ ?_ ?_ ?_
  · intro m hm
    exact ⟨rfl, ToolCallLog.lookup_record_ne hm⟩
  · rintro m rfl
    exact .inl ⟨none, hpc⟩
  · rintro m rfl
    exact .inr (.inr ⟨hok.opened, some result, hpc'⟩)
  · rintro m ⟨outcome, hheld⟩ hm
    rw [hpc] at hheld
    cases hheld
    exact absurd rfl hm
  · intro m outcome hheld
    rw [hpc'] at hheld
    cases hheld
    exact ⟨⟨hok.lt, hok.opened, congrArg (Option.map succeeded) ToolCallLog.lookup_record_self⟩, .inl ⟨none, hpc⟩⟩

theorem EventsInv.closed (hi : ts[i]? = some pc) (hpc : pc.held = some (id, some result))
    (hpc' : pc'.held = none) :
    EventsInv ⟨sh.publish (endEvent id result), Pool.stepped ts i pc' []⟩ := by
  have hok := h.threads pc (List.mem_of_getElem? hi) id (some result) hpc
  have hlt : (endEvent id result).requestId < sh.fresh := by
    rw [endEvent_requestId]
    exact hok.lt
  refine h.stepped hi (· = id) le_rfl (bounded_publish h.bounded hlt) ?_ ?_ ?_ ?_ ?_
  · intro m hm
    refine ⟨ToolCallLog.eventsOf_publish_ne ?_, rfl⟩
    rw [endEvent_requestId]
    exact Ne.symm hm
  · rintro m rfl
    exact .inl ⟨some result, hpc⟩
  · rintro m rfl
    exact .inr (.inl (closed_endEvent hok.opened hok.upstream))
  · rintro m ⟨outcome, hheld⟩ hm
    rw [hpc] at hheld
    cases hheld
    exact absurd rfl hm
  · intro m outcome hheld
    rw [hpc'] at hheld
    cases hheld

/-- A call comes back and ends at once: it might as well hold the result in between. -/
theorem EventsInv.answered (hi : ts[i]? = some pc) (hpc : pc.held = some (id, none))
    (hpc' : pc'.held = none) :
    EventsInv ⟨(sh.record id result).publish (endEvent id result), Pool.stepped ts i pc' []⟩ := by
  have hheld : (ToolCallPc.cancelled (some (id, some result))).held = some (id, some result) := rfl
  have hbetween := h.arrived hi hpc hheld
  have hstepped := hbetween.closed (Pool.getElem?_stepped_self hi) rfl hpc'
  have hsame : Pool.stepped (Pool.stepped ts i (.cancelled (some (id, some result))) []) i pc' [] =
      Pool.stepped ts i pc' [] := by simp [Pool.stepped]
  rwa [hsame] at hstepped

/-- **A step leads from a balanced state to a balanced state.** -/
theorem EventsInv.moved (hi : ts[i]? = some pc) (hmoved : Moved sh pc sh' pc') :
    EventsInv ⟨sh', Pool.stepped ts i pc' []⟩ := by
  cases hmoved with
  | quiet hkept hnone => exact h.quiet hi hkept hnone
  | rejected target status msg before after => exact h.rejected hi target status msg before after
  | opened endpoint transport tool before after => exact h.opened hi endpoint transport tool before after
  | arrived id result before after => exact h.arrived hi before after
  | answered id result before after => exact h.answered hi before after
  | closed id result before after => exact h.closed hi before after

end

end Invariant

section Runs

variable {validateArguments : Option (String → Json → Json → Option Json)} {kindOf : A → CallAdapter}

theorem eventsInv_init {sh : ToolCallLog} (hevents : sh.events = []) (hupstream : sh.upstream = []) :
    EventsInv ⟨sh, []⟩ where
  bounded :=
    { events := fun id _ => by rw [ToolCallLog.eventsOf, hevents]; rfl
      upstream := fun id _ => by rw [hupstream]; rfl }
  balanced := fun id => .inl (by rw [ToolCallLog.eventsOf, hevents]; rfl)
  threads := List.forall_mem_nil _
  distinct := by
    intro i j pc pc' hi
    cases hi

/-- A call is launched; it holds nothing. -/
theorem EventsInv.launched (h : EventsInv s) {pc : ToolCallPc} (hpc : pc.held = none) :
    EventsInv { s with threads := s.threads ++ [pc] } where
  bounded := h.bounded
  balanced := by
    intro id
    refine (h.balanced id).imp_right fun hid => hid.imp_right ?_
    rintro ⟨hopen, u, hu, hholds⟩
    exact ⟨hopen, u, List.mem_append_left _ hu, hholds⟩
  threads := by
    intro u hu id outcome hheld
    rcases List.mem_append.1 hu with hu | hu
    · exact h.threads u hu id outcome hheld
    · rw [List.mem_singleton.1 hu, hpc] at hheld
      cases hheld
  distinct := by
    have hold : ∀ (i : Nat) (u : ToolCallPc), (s.threads ++ [pc])[i]? = some u → ∀ id, u.holds id →
        s.threads[i]? = some u := by
      intro i u hi id hholds
      by_cases hlt : i < s.threads.length
      · rwa [List.getElem?_append_left hlt] at hi
      · rw [List.getElem?_append_right (by omega)] at hi
        have hu := List.mem_singleton.1 (List.mem_of_getElem? hi)
        obtain ⟨outcome, hheld⟩ := hholds
        rw [hu, hpc] at hheld
        cases hheld
    intro i j u v hi hj hne id hu hv
    exact h.distinct i j u v (hold i u hi id hu) (hold j v hj id hv) hne id hu hv

/-- **Tool-call events are balanced**, in every run. When no call is under way and none was cancelled,
every id that has events is closed. -/
theorem events_balanced {s : CallState} (h : (toolCalls validateArguments kindOf).system.Reachable s) :
    EventsBalanced s ∧
      ((∀ pc ∈ s.threads, ∃ result, pc = .returned result) →
        ∀ id, s.shared.eventsOf id ≠ [] → s.shared.Closed id) := by
  have hinv : EventsInv s := by
    refine Pool.invariant_of (I := fun _ => True) (fun _ _ => trivial) ?_ ?_ ?_ h
    · rintro sh ⟨hevents, hupstream⟩
      exact eventsInv_init hevents hupstream
    · intro s call pc _ hs _ hlaunch
      cases hlaunch
      exact hs.launched rfl
    · rintro ⟨sh, ts⟩ i c pc sh' pc' new _ hs _ hi hstep
      obtain ⟨⟨sh₁, pc₁⟩, hpc, heq⟩ := Option.map_eq_some_iff.1 hstep
      cases heq
      exact hs.moved hi (moved_of_step hpc)
  refine ⟨hinv.balanced, fun hreturned id hsome => ?_⟩
  rcases hinv.balanced id with hnone | hclosed | ⟨-, pc, hpc, outcome, hheld⟩
  · exact absurd hnone hsome
  · exact hclosed
  · obtain ⟨result, rfl⟩ := hreturned pc hpc
    cases hheld

end Runs

/-! ## A call and its end -/

def stdioCalls : Pool ToolCallLog ToolCallPc RouteCall (CallChoice FixedAdapter) :=
  toolCalls none fun _ => .direct .stdio

def sendCall : RouteCall := ⟨"send", .obj [], none⟩

/-- The call, up to the point where the upstream has it. -/
def untilCalled : List (Pool.Action RouteCall (CallChoice FixedAdapter)) :=
  [.launch sendCall,
    .run 0 (.route (buildCatalog listedByAdapter (loneToolEntries "send")) (loneToolEntries "send") ""),
    .run 0 .go]

/-- Where the call gets to. -/
def callState (events : List ToolCallEvent) (upstream : List (Nat × Except AdapterError Json)) (pc : ToolCallPc) :
    CallState :=
  ⟨⟨.started 0 "mail" "stdio" "send" :: events, 1, upstream⟩, [pc]⟩

theorem callState_reachable (c : CallChoice FixedAdapter)
    (h : stdioCalls.system.run ⟨⟨[], 0, []⟩, []⟩ (untilCalled ++ [.run 0 c]) = some s) :
    stdioCalls.system.Reachable s :=
  System.Reachable.run (.init ⟨⟨rfl, rfl⟩, rfl⟩) h

/-- An answered call is balanced. -/
theorem answered_call_balanced :
    (callState [.completed 0 "ok"] [(0, .ok .null)] (.returned (.ok .null))).shared.Closed 0 := by
  have hreach : stdioCalls.system.Reachable
      (callState [.completed 0 "ok"] [(0, .ok .null)] (.returned (.ok .null))) :=
    callState_reachable (.upstream (.ok .null)) rfl
  refine (events_balanced hreach).2 (fun pc hpc => ?_) 0 ?_
  · exact ⟨.ok .null, List.mem_singleton.1 hpc⟩
  · exact List.cons_ne_nil _ _

/-- **Not every `Started` has an end, and not every `Ok` is `Completed`.** The caller of a call
disconnects, and nothing is published for it any more. And an upstream that answers with a result
marked as an error has answered, which is published as `Failed`. -/
theorem unbalanced_calls :
    stdioCalls.system.Reachable (callState [] [] (.cancelled (some (0, none)))) ∧
      (∀ start e, (callState [] [] (.cancelled (some (0, none)))).shared.eventsOf 0 ≠ [start, e]) ∧
      stdioCalls.system.Reachable
        (callState [.failed 0 "error" "no"] [(0, .ok (Http.errorToolResult "no"))]
          (.returned (.ok (Http.errorToolResult "no")))) := by
  refine ⟨callState_reachable .cancel rfl, ?_, ?_⟩
  · intro start e h
    cases h
  · exact callState_reachable (.upstream (.ok (Http.errorToolResult "no"))) rfl

end EndaraRelay
