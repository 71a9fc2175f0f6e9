import EndaraRelay.EventStream
import EndaraRelay.JsonRpc

/-!
# Dispatching messages

How the three transports decide which waiting request a message of the upstream belongs to: the stdout
reader of the stdio adapter, the listener of the SSE adapter, and `parse_sse_response` of the HTTP
adapter, which reads the events of one POST response.

- `UpstreamTransport.target`, `postTarget`: the request a message is taken to answer. All three go by the id;
  none asks whether the message carries an answer.
- `misdirected`, `misdirectedPost`: the messages that are no response and are taken for one all the
  same, by their fields. `misdirected_iff` and `misdirectedPost_iff` say that these are all.
- `completedBy_response_iff`: a request by POST is completed by responses only, exactly when every
  misdirected message comes after a response.

The adapters with a map of pending requests go on in `PendingRequests`.
-/

namespace EndaraRelay

open Verif Verif.Lines

/-- The adapters with a map of pending requests. -/
inductive UpstreamTransport where
  | stdio
  | sse
deriving DecidableEq

def toolsListChanged : String := "notifications/tools/list_changed"

/-! ## The pending map -/

/-- What the readers of an adapter share: the requests whose sender the map holds, the answers that
were sent into a channel, and the ticks that the tools changed. -/
structure Inbox where
  pending : List Nat
  answers : List (Nat × Json)
  ticks : Nat

/-- `map.remove(&id)`, and `tx.send` where there was one. -/
def Inbox.complete (inbox : Inbox) (id : Nat) (message : Json) : Inbox :=
  if id ∈ inbox.pending then
    { inbox with pending := inbox.pending.erase id, answers := inbox.answers ++ [(id, message)] }
  else inbox

/-- A notification: only a change of the tools is passed on. -/
def Inbox.notify (inbox : Inbox) (message : Json) : Inbox :=
  if (message.get "method").bind Json.asStr = some toolsListChanged then
    { inbox with ticks := inbox.ticks + 1 }
  else inbox

def stdoutMessage (inbox : Inbox) (line : Json) : Inbox :=
  match (line.toValue.get "id").bind Json.asU64 with
  | some id => inbox.complete id line
  | none => inbox.notify line.toValue

/-- A `message` event of the SSE stream. -/
def sseMessage (inbox : Inbox) (data : Json) : Inbox :=
  match (data.toValue.get "id").bind Json.asU64 with
  | none => inbox.notify data.toValue
  | some _ =>
    match JsonRpcResponse.fromJson data.toValue with
    | some response =>
      match response.id with
      | some id => inbox.complete id data
      | none => inbox
    | none => inbox

/-! ## Responses to a POST -/

/-- `body.split("\n\n")`. -/
def splitEvents : List Char → List (List Char)
  | [] => [[]]
  | '\n' :: '\n' :: rest => [] :: splitEvents rest
  | c :: rest =>
    match splitEvents rest with
    | [] => [[c]]
    | event :: events => (c :: event) :: events

/-- Strip the `\r` of a line that ended in `\r\n`. -/
def stripCr (line : List Char) : List Char :=
  if line.getLast? = some '\r' then line.dropLast else line

/-- `str::lines`. -/
def textLines (s : List Char) : List (List Char) :=
  let (lines, rest) := cutLines isNewline s
  lines.map stripCr ++ if rest = [] then [] else [rest]

/-- The `data:` lines of an event that are not empty, joined. -/
def eventData (event : List Char) : Option (List Char) :=
  let parts := ((textLines event).filterMap getFields.data).filter (· ≠ [])
  if parts = [] then none else some (['\n'].intercalate parts)

/-- The documents in the events of a body. `fromStr` parses one. -/
def bodyMessages (fromStr : List Char → Option Json) (body : List Char) : List Json :=
  (((splitEvents body).map trimChars).filterMap eventData).filterMap fromStr

/-- The first response with the id. -/
def matchResponse (id : Nat) (matched : Option JsonRpcResponse) (data : Json) :
    Option JsonRpcResponse :=
  match matched with
  | some response => some response
  | none => (JsonRpcResponse.fromJson data).filter fun response => response.id == some id

/-- A notification among the events. Here any `id` at all makes it none. -/
def notifies (data : Json) : Bool :=
  (data.toValue.get "id").isNone &&
    (data.toValue.get "method").bind Json.asStr == some toolsListChanged

/-- `parse_sse_response`: the response, and the number of ticks. -/
def parseSseResponse (fromStr : List Char → Option Json) (body : List Char) (id : Nat) :
    Option JsonRpcResponse × Nat :=
  let messages := bodyMessages fromStr body
  (messages.foldl (matchResponse id) none, messages.countP notifies)

/-! ## Whom a message is taken to answer -/

/-- The request that a message completes when it is waiting. -/
def UpstreamTransport.target : UpstreamTransport → Json → Option Nat
  | .stdio, message => (message.toValue.get "id").bind Json.asU64
  | .sse, message =>
    ((message.toValue.get "id").bind Json.asU64).bind fun _ =>
      (JsonRpcResponse.fromJson message.toValue).bind JsonRpcResponse.id

/-- The request that an event of a POST response is matched with. -/
def postTarget (message : Json) : Option Nat :=
  (JsonRpcResponse.fromJson message).bind JsonRpcResponse.id

/-- Messages without an answer that have the id, and for SSE a `jsonrpc` text. -/
def misdirected : UpstreamTransport → Nat → Json → Bool
  | .stdio, n, message => (message.toValue.get "id").bind Json.asU64 == some n &&
      !carriesAnswer message.toValue
  | .sse, n, message => (message.toValue.get "id").bind Json.asU64 == some n &&
      !carriesAnswer message.toValue &&
        ((message.toValue.get "jsonrpc").bind Json.asStr).isSome

/-- The same for the events of a POST response. Here a known field must not be repeated, and an array of
the fields does as well, though it is no response. -/
def misdirectedPost (n : Nat) : Json → Bool
  | .obj m =>
    (["jsonrpc", "result", "error", "id"].all fun key => (Fields.field m key).isSome) &&
      (Fields.get m "id").bind Json.asU64 == some n && !carriesAnswer (.obj m) &&
        ((Fields.get m "jsonrpc").bind Json.asStr).isSome
  | .arr [jsonrpc, _, error, id] => jsonrpc.asStr.isSome && id.asU64 == some n &&
      (optional JsonRpcError.fromJson (some error)).isSome
  | _ => false

/-! ## What is deserialized -/

theorem optional_eq_some_some {α : Type} {decode : Json → Option α} (hnull : decode .null = none)
    {v : Option Json} {a : α} : optional decode v = some (some a) ↔ v.bind decode = some a := by
  cases v with
  | none => simp [optional]
  | some v => cases v <;> simp [optional, hnull]

variable {n : Nat} {message : Json} {items messages : List Json}

theorem fromFields_id {jsonrpc result error id : Option Json} :
    (JsonRpcResponse.fromFields jsonrpc result error id).bind JsonRpcResponse.id = some n ↔
      (jsonrpc.bind Json.asStr).isSome = true ∧
        (optional JsonRpcError.fromJson error).isSome = true ∧ id.bind Json.asU64 = some n := by
  have hresult : ∃ r, optional some result = some r := by
    cases result with
    | none => exact ⟨none, rfl⟩
    | some v => cases v <;> exact ⟨_, rfl⟩
  obtain ⟨r, hr⟩ := hresult
  rw [← @optional_eq_some_some _ Json.asU64 rfl, JsonRpcResponse.fromFields, required, hr]
  cases jsonrpc.bind Json.asStr with
  | none => simp
  | some j =>
    cases optional JsonRpcError.fromJson error with
    | none => simp
    | some e =>
      cases optional Json.asU64 id with
      | none => simp
      | some i => simp

/-- Without an answer there is no error that could fail. -/
theorem optional_error_of_not_carriesAnswer {v : Json} (h : carriesAnswer v = false) :
    (optional JsonRpcError.fromJson (v.get "error")).isSome = true := by
  rw [carriesAnswer, Bool.or_eq_false_iff] at h
  cases herror : v.get "error" with
  | none => rfl
  | some e =>
    rw [herror] at h
    cases e <;> simp_all [optional, Json.isNull]

theorem isResponse_eq_false_iff {n : Nat} {v : Json}
    (hid : (v.get "id").bind Json.asU64 = some n) :
    isResponse n v = false ↔ carriesAnswer v = false := by
  simp [isResponse, hid]

/-- A `Value` is deserialized by looking its fields up. -/
theorem fromJson_toValue (m : Fields) :
    JsonRpcResponse.fromJson (Json.toValue (.obj m)) =
      JsonRpcResponse.fromFields (((Json.obj m).toValue).get "jsonrpc")
        (((Json.obj m).toValue).get "result") (((Json.obj m).toValue).get "error")
        (((Json.obj m).toValue).get "id") := by
  have hnodup : ((Fields.toMap [] m).map Prod.fst).Nodup :=
    Fields.nodup_toMap (m := []) (by simp) m
  simp [Json.toValue, JsonRpcResponse.fromJson, Fields.field_of_nodup hnodup]

@[simp] theorem asU64_toValue (v : Json) : v.toValue.asU64 = v.asU64 := by
  cases v <;> simp [Json.toValue, Json.asU64]

@[simp] theorem isNull_toValue (v : Json) : v.toValue.isNull = v.isNull := by
  cases v <;> simp [Json.toValue, Json.isNull]

/-! ## The misdirected messages -/

theorem misdirected_stdio :
    UpstreamTransport.stdio.target message = some n ∧ isResponse n message.toValue = false ↔
      misdirected .stdio n message = true := by
  rw [UpstreamTransport.target, misdirected, Bool.and_eq_true, beq_iff_eq, Bool.not_eq_true']
  exact and_congr_right isResponse_eq_false_iff

theorem misdirected_sse :
    UpstreamTransport.sse.target message = some n ∧ isResponse n message.toValue = false ↔
      misdirected .sse n message = true := by
  rw [misdirected, Bool.and_eq_true, Bool.and_eq_true, beq_iff_eq, Bool.not_eq_true']
  cases message with
  | obj m =>
    rw [UpstreamTransport.target, Option.bind_eq_some_iff, fromJson_toValue]
    constructor
    · rintro ⟨⟨k, -, hfields⟩, hresponse⟩
      obtain ⟨hjsonrpc, -, hid⟩ := fromFields_id.1 hfields
      exact ⟨⟨hid, (isResponse_eq_false_iff hid).1 hresponse⟩, hjsonrpc⟩
    · rintro ⟨⟨hid, hanswer⟩, hjsonrpc⟩
      refine ⟨⟨n, hid, fromFields_id.2 ⟨hjsonrpc, ?_, hid⟩⟩, (isResponse_eq_false_iff hid).2 hanswer⟩
      exact optional_error_of_not_carriesAnswer hanswer
  | _ => simp [UpstreamTransport.target, Json.toValue, Json.get, Json.asObject]

/-- The misdirected messages are those that are dispatched and are no response. -/
theorem misdirected_iff (t : UpstreamTransport) (n : Nat) (message : Json) :
    t.target message = some n ∧ isResponse n message.toValue = false ↔
      misdirected t n message = true := by
  cases t with
  | stdio => exact misdirected_stdio
  | sse => exact misdirected_sse

/-- What a known field says is the same in the document and in the `Value`. -/
theorem get_toValue_of_field {m : Fields} {key : String} (h : (Fields.field m key).isSome = true) :
    (Json.toValue (.obj m)).get key = (Fields.get m key).map Json.toValue := by
  obtain ⟨v, hv⟩ := Option.isSome_iff_exists.1 h
  rw [Json.toValue, Json.get_obj, Fields.get_toMap_of_field hv, Fields.get_of_field hv]

theorem carriesAnswer_toValue {m : Fields} (hresult : (Fields.field m "result").isSome = true)
    (herror : (Fields.field m "error").isSome = true) :
    carriesAnswer (Json.toValue (.obj m)) = carriesAnswer (.obj m) := by
  rw [carriesAnswer, carriesAnswer, get_toValue_of_field hresult, get_toValue_of_field herror,
    Json.get_obj, Json.get_obj]
  cases Fields.get m "error" with
  | none => simp
  | some e => simp

theorem fromJson_arr_of_not_four (h : ¬ ∃ jsonrpc result error id, items = [jsonrpc, result, error, id]) :
    JsonRpcResponse.fromJson (.arr items) = none := by
  unfold JsonRpcResponse.fromJson
  split
  · next hitems => cases hitems
  · next hitems =>
    cases hitems
    exact absurd ⟨_, _, _, _, rfl⟩ h
  · rfl

theorem misdirectedPost_arr_of_not_four
    (h : ¬ ∃ jsonrpc result error id, items = [jsonrpc, result, error, id]) :
    misdirectedPost n (.arr items) = false := by
  unfold misdirectedPost
  split
  · next hitems => cases hitems
  · next hitems =>
    cases hitems
    exact absurd ⟨_, _, _, _, rfl⟩ h
  · rfl

theorem misdirectedPost_iff (n : Nat) (message : Json) :
    postTarget message = some n ∧ isResponse n message.toValue = false ↔
      misdirectedPost n message = true := by
  cases message with
  | obj m =>
    by_cases hfields : (["jsonrpc", "result", "error", "id"].all fun key =>
        (Fields.field m key).isSome) = true
    · have hall := hfields
      simp only [List.all_cons, List.all_nil, Bool.and_true, Bool.and_eq_true] at hall
      obtain ⟨hj, hr, he, hi⟩ := hall
      have hget : ∀ key, (Fields.field m key).isSome = true →
          Fields.field m key = some (Fields.get m key) := by
        intro key hkey
        obtain ⟨v, hv⟩ := Option.isSome_iff_exists.1 hkey
        rw [hv, Fields.get_of_field hv]
      have hid : ((Json.toValue (.obj m)).get "id").bind Json.asU64 =
          (Fields.get m "id").bind Json.asU64 := by
        rw [get_toValue_of_field hi]
        cases Fields.get m "id" with
        | none => rfl
        | some v => simp
      have htarget : postTarget (.obj m) =
          (JsonRpcResponse.fromFields (Fields.get m "jsonrpc") (Fields.get m "result")
            (Fields.get m "error") (Fields.get m "id")).bind JsonRpcResponse.id := by
        simp [postTarget, JsonRpcResponse.fromJson, hget _ hj, hget _ hr, hget _ he, hget _ hi]
      rw [htarget, fromFields_id, misdirectedPost, hfields, Bool.true_and, Bool.and_eq_true,
        Bool.and_eq_true, beq_iff_eq, Bool.not_eq_true']
      constructor
      · rintro ⟨⟨hjsonrpc, -, hn⟩, hresponse⟩
        rw [isResponse_eq_false_iff (hid.trans hn), carriesAnswer_toValue hr he] at hresponse
        exact ⟨⟨hn, hresponse⟩, hjsonrpc⟩
      · rintro ⟨⟨hn, hanswer⟩, hjsonrpc⟩
        rw [isResponse_eq_false_iff (hid.trans hn), carriesAnswer_toValue hr he]
        exact ⟨⟨hjsonrpc, optional_error_of_not_carriesAnswer hanswer, hn⟩, hanswer⟩
    · have hnone : JsonRpcResponse.fromJson (.obj m) = none := by
        simp only [List.all_cons, List.all_nil, Bool.and_true, Bool.and_eq_true, not_and] at hfields
        rw [JsonRpcResponse.fromJson]
        cases hj : Fields.field m "jsonrpc" with
        | none => rfl
        | some j =>
          cases hr : Fields.field m "result" with
          | none => rfl
          | some r =>
            cases he : Fields.field m "error" with
            | none => rfl
            | some e =>
              cases hi : Fields.field m "id" with
              | none => rfl
              | some i => simp [hj, hr, he, hi] at hfields
      simp [postTarget, hnone, misdirectedPost, hfields]
  | arr items =>
    have hresponse : isResponse n (Json.toValue (.arr items)) = false := by
      simp [isResponse, Json.toValue, Json.get, Json.asObject]
    rw [hresponse]
    by_cases hfour : ∃ jsonrpc result error id, items = [jsonrpc, result, error, id]
    · obtain ⟨jsonrpc, result, error, id, rfl⟩ := hfour
      simp only [postTarget, JsonRpcResponse.fromJson, fromFields_id, misdirectedPost,
        Option.bind_some, and_true, Bool.and_eq_true, beq_iff_eq]
      constructor
      · rintro ⟨hj, he, hi⟩
        exact ⟨⟨hj, hi⟩, he⟩
      · rintro ⟨⟨hj, hi⟩, he⟩
        exact ⟨hj, he, hi⟩
    · rw [postTarget, fromJson_arr_of_not_four hfour, misdirectedPost_arr_of_not_four hfour]
      simp
  | _ => simp [postTarget, JsonRpcResponse.fromJson, misdirectedPost]

/-! ## Completion by the events of a body -/

/-- The event that completes the request: the first one that is matched. -/
def CompletedBy (n : Nat) (messages : List Json) (message : Json) : Prop :=
  ∃ earlier later, messages = earlier ++ message :: later ∧
    earlier.foldl (matchResponse n) none = none ∧ matchResponse n none message ≠ none

theorem matchResponse_eq_none_iff :
    matchResponse n none message = none ↔ postTarget message ≠ some n := by
  rw [matchResponse, postTarget]
  cases JsonRpcResponse.fromJson message with
  | none => simp
  | some response =>
    by_cases hid : response.id = some n
    · simp [Option.filter, hid]
    · simp [Option.filter, hid]

theorem foldl_matchResponse_some (n : Nat) (response : JsonRpcResponse) (messages : List Json) :
    messages.foldl (matchResponse n) (some response) = some response := by
  induction messages with
  | nil => rfl
  | cons message messages ih => exact ih

theorem foldl_matchResponse_eq_none_iff :
    messages.foldl (matchResponse n) none = none ↔
      ∀ message ∈ messages, postTarget message ≠ some n := by
  induction messages with
  | nil => simp
  | cons message messages ih =>
    rw [List.foldl_cons, List.forall_mem_cons, ← matchResponse_eq_none_iff]
    cases hmatch : matchResponse n none message with
    | none => simpa using ih
    | some response => simp [foldl_matchResponse_some]

/-- When something is matched, some event completes the request. -/
theorem exists_completedBy (h : messages.foldl (matchResponse n) none ≠ none) :
    ∃ message, CompletedBy n messages message := by
  induction messages with
  | nil => exact absurd rfl h
  | cons message messages ih =>
    by_cases hmatch : matchResponse n none message = none
    · rw [List.foldl_cons, hmatch] at h
      obtain ⟨found, earlier, later, hsplit, hearlier, hfound⟩ := ih h
      refine ⟨found, message :: earlier, later, by rw [hsplit, List.cons_append], ?_, hfound⟩
      rw [List.foldl_cons, hmatch, hearlier]
    · exact ⟨message, [], messages, rfl, rfl, hmatch⟩

/-- A request is completed by responses only, exactly when a misdirected message comes after a
response, which has been matched by then. -/
theorem completedBy_response_iff (n : Nat) (messages : List Json) :
    (∀ message, CompletedBy n messages message → isResponse n message.toValue = true) ↔
      ∀ earlier message later, messages = earlier ++ message :: later →
        misdirectedPost n message = true →
          ∃ response ∈ earlier, postTarget response = some n ∧
            isResponse n response.toValue = true := by
  constructor
  · intro h earlier message later hsplit hmessage
    obtain ⟨htarget, hresponse⟩ := (misdirectedPost_iff n message).2 hmessage
    by_cases hearlier : earlier.foldl (matchResponse n) none = none
    · have hcompleted := h message ⟨earlier, later, hsplit, hearlier, fun hnone =>
        matchResponse_eq_none_iff.1 hnone htarget⟩
      rw [hresponse] at hcompleted
      cases hcompleted
    · obtain ⟨found, earlier', later', hsplit', hearlier', hfound⟩ := exists_completedBy hearlier
      refine ⟨found, ?_, ?_, ?_⟩
      · rw [hsplit']
        exact List.mem_append_right _ List.mem_cons_self
      · by_contra hne
        exact hfound (matchResponse_eq_none_iff.2 hne)
      · refine h found ⟨earlier', later' ++ message :: later, ?_, hearlier', hfound⟩
        rw [hsplit, hsplit', List.append_assoc, List.cons_append]
  · rintro h message ⟨earlier, later, hsplit, hearlier, hmatch⟩
    have htarget : postTarget message = some n := by
      by_contra hne
      exact hmatch (matchResponse_eq_none_iff.2 hne)
    by_contra hresponse
    rw [Bool.not_eq_true] at hresponse
    obtain ⟨response, hmem, hresponse', -⟩ := h earlier message later hsplit
      ((misdirectedPost_iff n message).1 ⟨htarget, hresponse⟩)
    exact foldl_matchResponse_eq_none_iff.1 hearlier response hmem hresponse'

end EndaraRelay
