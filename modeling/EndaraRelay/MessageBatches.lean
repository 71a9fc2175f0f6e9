import EndaraRelay.JsonRpc
import EndaraRelay.SessionIdentities
import EndaraRelay.ToolsCall

/-!
# Message batches

`mcp_unified_impl` of `server.rs`: a `POST` carries a JSON-RPC message or an array of them, and each
message goes through the check of the 2026 routing headers, the resolution of the caller's identity,
the test for a notification, the deserialization and the dispatch by its method.

**The model.** `mcpUnified` follows one request over the state of the relay: the session identities,
and whatever the handlers read and write. What the handlers find (a catalog, the answer of an
upstream) is a `Backend`; how they reply is written out, with the id each of them puts in.

**What is asked** (`AnsweredOneToOne`). The requests of the body, in their order, are answered by one
response each that carries their id, and a body of notifications is answered by an empty 202.

**The slip.** The routing headers are compared before a notification is recognised as one, so a
notification whose method or tool name disagrees with them is answered by an error with the id `null`.

**Theorem (`mcpUnified_one_to_one_iff`).** A body of well-formed messages is answered one to one
exactly when it is not an empty array and none of its notifications disagrees with the headers.
-/

namespace EndaraRelay

open Verif
open Http (ProtocolVersion)

/-! ## Dialects -/

/-- `ProtocolVersion::parse`. -/
def parseProtocolVersion (s : String) : Option ProtocolVersion :=
  if s = "2024-11-05" then some .v20241105
  else if s = "2025-03-26" then some .v20250326
  else if s = "2026-07-28" then some .v20260728
  else none

/-- The client a 2026 request names in its `_meta`. -/
def metaClientInfo (params : Option Json) : Option Json :=
  (params.bind fun p => p.get "_meta").bind fun m => m.get "io.modelcontextprotocol/clientInfo"

/-- A recognised header, or a client in `_meta` without a handshake, or the legacy dialect. -/
def detectInboundDialect (hasInitialize : Bool) (protocolHeader : Option String)
    (params : Option Json) : ProtocolVersion :=
  match protocolHeader.bind parseProtocolVersion with
  | some version => version
  | none =>
    if !hasInitialize && (metaClientInfo params).isSome then .v20260728 else .v20250326

/-- The headers under their names in lower case, as `header_str` reads them. -/
abbrev Headers := String → Option String

/-! ## Identities -/

namespace ClientIdentity

def isEmpty (c : ClientIdentity) : Bool :=
  c.name.isNone && c.version.isNone && c.userAgent.isNone && c.origin.isNone

def fromHeaders (headers : Headers) : ClientIdentity :=
  ⟨none, none, headers "user-agent", headers "origin"⟩

/-- The client that an `initialize` names in its parameters, or a 2026 request in its `_meta`. -/
def fromInfo (info : Option Json) : ClientIdentity :=
  ⟨info.bind fun i => (i.get "name").bind Json.asStr,
    info.bind fun i => (i.get "version").bind Json.asStr, none, none⟩

/-- What `primary` leaves open is taken from `fallback`. -/
def merge (primary fallback : ClientIdentity) : ClientIdentity :=
  ⟨primary.name.or fallback.name, primary.version.or fallback.version,
    primary.userAgent.or fallback.userAgent, primary.origin.or fallback.origin⟩

def nonEmpty (c : ClientIdentity) : Option ClientIdentity := if c.isEmpty then none else some c

end ClientIdentity

/-- The state of the relay: the session identities, and what the handlers work on. -/
structure RelayState (S : Type) where
  sessions : SessionIdentityStore
  relay : S

variable {S A : Type}

/-- The session of the request, with its headers as a fallback. -/
def resolveInboundIdentity (headers : Headers) (s : RelayState S) :
    RelayState S × Option ClientIdentity :=
  let headerIdentity := ClientIdentity.fromHeaders headers
  match headers "mcp-session-id" with
  | none => (s, headerIdentity.nonEmpty)
  | some sid =>
    let (sessions, sessionIdentity) := s.sessions.get sid
    ({ s with sessions }, match sessionIdentity with
      | some identity => (identity.merge headerIdentity).nonEmpty
      | none => headerIdentity.nonEmpty)

/-- A 2026 request names its client itself; any other goes by its session. -/
def resolveInboundIdentityVersioned (headers : Headers) (params : Option Json) (s : RelayState S) :
    RelayState S × Option ClientIdentity :=
  match detectInboundDialect false (headers "mcp-protocol-version") params with
  | .v20260728 =>
    (s, ((ClientIdentity.fromInfo (metaClientInfo params)).merge
      (ClientIdentity.fromHeaders headers)).nonEmpty)
  | _ => resolveInboundIdentity headers s

/-- The identity that goes with a message, and the session id that a legacy `initialize` is given;
`newSessionId` is the fresh UUID. -/
def resolveIdentityForMessage (newSessionId : String) (headers : Headers) (msg : Json)
    (s : RelayState S) : RelayState S × Option ClientIdentity × Option String :=
  if (msg.get "method").bind Json.asStr = some "initialize" then
    let initIdentity :=
      ClientIdentity.fromInfo ((msg.get "params").bind fun p => p.get "clientInfo")
    let identity := (initIdentity.merge (ClientIdentity.fromHeaders headers)).nonEmpty
    match detectInboundDialect true (headers "mcp-protocol-version") (msg.get "params") with
    | .v20260728 => (s, identity, none)
    | dialect =>
      if initIdentity.isEmpty then (s, identity, some newSessionId)
      else
        ({ s with sessions := (s.sessions.insertWithDialect newSessionId initIdentity dialect).1 },
          identity, some newSessionId)
  else
    let (s, identity) := resolveInboundIdentityVersioned headers (msg.get "params") s
    (s, identity, none)

/-! ## Replies -/

structure JsonRpcBody where
  jsonrpc : Option String
  method : Option String
  params : Option Json
  id : Option Json

def JsonRpcBody.fromFields (jsonrpc method params id : Option Json) : Option JsonRpcBody := do
  let jsonrpc ← optional Json.asStr jsonrpc
  let method ← optional Json.asStr method
  let params ← optional some params
  let id ← optional some id
  some { jsonrpc, method, params, id }

/-- `serde_json::from_value` of a body. -/
def JsonRpcBody.fromJson : Json → Option JsonRpcBody
  | .obj m => do
    JsonRpcBody.fromFields (← Fields.field m "jsonrpc") (← Fields.field m "method")
      (← Fields.field m "params") (← Fields.field m "id")
  | .arr [jsonrpc, method, params, id] =>
    JsonRpcBody.fromFields (some jsonrpc) (some method) (some params) (some id)
  | _ => none

def jsonrpcResponse (id : Option Json) (result : Json) : Json :=
  .obj [("jsonrpc", .str "2.0"), ("result", result), ("id", id.getD .null)]

def jsonrpcError (id : Option Json) (code : Int) (message : String) : Json :=
  .obj [("jsonrpc", .str "2.0"),
    ("error", .obj [("code", .num (toString code)), ("message", .str message)]),
    ("id", id.getD .null)]

/-! ## Handlers -/

/-- What the handlers of a route find when they look: the settings, the catalog and the registry of
the relay or of a profile, and the answers of the upstreams. -/
structure Backend (S A : Type) where
  jsMode : S → Bool
  texts : S → MetaToolTexts
  writeRoots : S → List String
  profile : Option (List String)
  validateMeta : String → Json → Option Json
  validateArguments : Option (String → Json → Json → Option Json)
  wrapMetaToolResult : Json → Json
  toonifyCallResult : Json → Json
  buildInitializeResult : S → S × Fields
  mergedCatalog : S → S × Catalog
  entries : S → Entries A
  perform : Option ClientIdentity → HandlerCall → S → S × Except String Json
  forward : Option ClientIdentity → RouteDecision A → Fields → S → S × Except String Json
  listResources : S → S × List Json
  listResourceTemplates : S → S × List Json
  listPrompts : S → S × List Json
  routeResourceRead : String → S → S × Except String Json
  routePromptGet : String → Option Json → S → S × Except String Json

/-- The reply to what the registry was asked for. -/
def replied (id : Option Json) : Except String Json → Json
  | .ok value => jsonrpcResponse id value
  | .error text => jsonrpcError id (-32603) text

namespace Backend

variable (b : Backend S A)

def mcpInitialize (body : JsonRpcBody) (s : S) : S × Json :=
  let (s, result) := b.buildInitializeResult s
  (s, jsonrpcResponse body.id (.obj result))

/-- The tools of `mcp_tools_list`; in JS mode the catalog is not asked for. -/
def listTools (s : S) : S × List Json :=
  if b.jsMode s then (s, metaToolDefinitions true (b.texts s) (b.writeRoots s))
  else
    let (s', catalog) := b.mergedCatalog s
    (s', EndaraRelay.mcpToolsList false (b.texts s) (b.writeRoots s) b.profile catalog)

def mcpToolsList (body : JsonRpcBody) (s : S) : S × Json :=
  let (s, tools) := b.listTools s
  (s, jsonrpcResponse body.id (.obj [("tools", .arr tools)]))

/-- `mcp_server_discover`: the result of `initialize`, with the tools of `tools/list`. -/
def mcpServerDiscover (body : JsonRpcBody) (s : S) : S × Json :=
  let (s, result) := b.buildInitializeResult s
  let (s, tools) := b.listTools s
  (s, jsonrpcResponse body.id (.obj (result.insert "tools" (.arr tools))))

/-- The reply to a call of a meta-tool: a failed `write_file` is a result, any other an error. -/
def metaToolReply (id : Option Json) (call : HandlerCall) : Except String Json → Json
  | .ok result => jsonrpcResponse id (b.wrapMetaToolResult result)
  | .error text =>
    match call with
    | .writeFile .. => jsonrpcResponse id (metaToolErrorResult text)
    | _ => jsonrpcError id (-32603) text

/-- The end of `mcp_tools_call`. A call is routed in the state that the catalog was read in. -/
def callReply (identity : Option ClientIdentity) (id : Option Json) (s routed : S) :
    ToolsCall A → S × Json
  | .refused code message => (s, jsonrpcError id code message)
  | .answered _ result => (s, jsonrpcResponse id result)
  | .handled call =>
    let (s, answer) := b.perform identity call s
    (s, b.metaToolReply id call answer)
  | .routed decision requestParams =>
    let (s, answer) := b.forward identity decision requestParams routed
    (s, replied id (answer.map b.toonifyCallResult))

def mcpToolsCall [McpAdapter A] (identity : Option ClientIdentity) (body : JsonRpcBody) (s : S) :
    S × Json :=
  let (routed, catalog) := b.mergedCatalog s
  b.callReply identity body.id s routed
    (EndaraRelay.mcpToolsCall (b.jsMode s) b.validateMeta b.validateArguments b.profile catalog
      (b.entries routed) (body.params.getD (.obj [])))

def mcpResourcesList (body : JsonRpcBody) (s : S) : S × Json :=
  let (s, resources) := b.listResources s
  (s, jsonrpcResponse body.id (.obj [("resources", .arr resources)]))

def mcpResourceTemplatesList (body : JsonRpcBody) (s : S) : S × Json :=
  let (s, templates) := b.listResourceTemplates s
  (s, jsonrpcResponse body.id (.obj [("resourceTemplates", .arr templates)]))

def mcpPromptsList (body : JsonRpcBody) (s : S) : S × Json :=
  let (s, prompts) := b.listPrompts s
  (s, jsonrpcResponse body.id (.obj [("prompts", .arr prompts)]))

def mcpResourcesRead (body : JsonRpcBody) (s : S) : S × Json :=
  let params := body.params.getD (.obj [])
  match (params.get "uri").bind Json.asStr with
  | none => (s, jsonrpcError body.id (-32602) "missing 'uri' in params")
  | some uri =>
    let (s, answer) := b.routeResourceRead uri s
    (s, replied body.id answer)

def mcpPromptsGet (body : JsonRpcBody) (s : S) : S × Json :=
  let params := body.params.getD (.obj [])
  match (params.get "name").bind Json.asStr with
  | none => (s, jsonrpcError body.id (-32602) "missing 'name' in params")
  | some name =>
    let (s, answer) := b.routePromptGet name (params.get "arguments") s
    (s, replied body.id answer)

/-- The dispatch of `handle_single_message` by the method. -/
def dispatch [McpAdapter A] (identity : Option ClientIdentity) (method : String)
    (body : JsonRpcBody) (s : S) : S × Json :=
  match method with
  | "initialize" => b.mcpInitialize body s
  | "server/discover" => b.mcpServerDiscover body s
  | "tools/list" => b.mcpToolsList body s
  | "tools/call" => b.mcpToolsCall identity body s
  | "resources/list" => b.mcpResourcesList body s
  | "resources/templates/list" => b.mcpResourceTemplatesList body s
  | "resources/read" => b.mcpResourcesRead body s
  | "prompts/list" => b.mcpPromptsList body s
  | "prompts/get" => b.mcpPromptsGet body s
  | _ => (s, jsonrpcError body.id (-32601) ("method not found: " ++ method))

end Backend

/-! ## One message -/

/-- The method of a message, empty when there is none. -/
def messageMethod (msg : Json) : String := ((msg.get "method").bind Json.asStr).getD ""

/-- The tool that a `tools/call` names, empty when there is none. -/
def calledTool (msg : Json) : String :=
  (((msg.get "params").bind fun p => p.get "name").bind Json.asStr).getD ""

/-- No id, or the id `null`. -/
def isNotification (msg : Json) : Bool :=
  match msg.get "id" with
  | none => true
  | some id => id.isNull

/-- `handle_single_message`: nothing for a notification. -/
def handleSingleMessage [McpAdapter A] (b : Backend S A) (identity : Option ClientIdentity)
    (msg : Json) (s : S) : S × Option Json :=
  if isNotification msg then (s, none)
  else
    match JsonRpcBody.fromJson msg with
    | none => (s, some (jsonrpcError none (-32600) "Invalid Request"))
    | some body =>
      let (s, reply) := b.dispatch identity (messageMethod msg) body s
      (s, some reply)

def messageDialect (headers : Headers) (msg : Json) : ProtocolVersion :=
  detectInboundDialect (messageMethod msg = "initialize") (headers "mcp-protocol-version")
    (msg.get "params")

/-- `Mcp-Method` is there and is not the method of the message. -/
def methodMismatch (headers : Headers) (msg : Json) : Option Json :=
  match headers "mcp-method" with
  | none => none
  | some hdrMethod =>
    if hdrMethod ≠ messageMethod msg then
      some (jsonrpcError (msg.get "id") (-32600) ("Invalid Request: Mcp-Method header '" ++
        hdrMethod ++ "' does not match body method '" ++ messageMethod msg ++ "'"))
    else none

/-- `Mcp-Name` is there and is not the tool that the message calls. -/
def nameMismatch (headers : Headers) (msg : Json) : Option Json :=
  match headers "mcp-name" with
  | none => none
  | some hdrName =>
    if messageMethod msg = "tools/call" ∧ hdrName ≠ calledTool msg then
      some (jsonrpcError (msg.get "id") (-32600) ("Invalid Request: Mcp-Name header '" ++
        hdrName ++ "' does not match tool name '" ++ calledTool msg ++ "'"))
    else none

/-- `validate_2026_routing_headers`: the headers of a 2026 message have to agree with it. -/
def validate2026RoutingHeaders (headers : Headers) (msg : Json) : Option Json :=
  match messageDialect headers msg with
  | .v20260728 => (methodMismatch headers msg).or (nameMismatch headers msg)
  | _ => none

/-- What one message of a request does: its reply, and the session id it was given. -/
def processMessage [McpAdapter A] (b : Backend S A) (newSessionId : String) (headers : Headers)
    (msg : Json) (s : RelayState S) : RelayState S × Option Json × Option String :=
  match validate2026RoutingHeaders headers msg with
  | some err => (s, some err, none)
  | none =>
    let (s, identity, newSession) := resolveIdentityForMessage newSessionId headers msg s
    let (relay, reply) := handleSingleMessage b identity msg s.relay
    ({ s with relay }, reply, newSession)

/-! ## One request -/

structure HttpResponse where
  status : Nat
  body : Option Json
  sessionId : Option String

/-- The messages of a batch, one after the other: their replies, and the first session id. -/
def processBatch [McpAdapter A] (b : Backend S A) (newSessionId : Nat → String) (headers : Headers) :
    List Json → RelayState S → RelayState S × List Json × Option String
  | [], s => (s, [], none)
  | msg :: messages, s =>
    let (s, reply, newSession) := processMessage b (newSessionId messages.length) headers msg s
    let (s, replies, laterSession) := processBatch b newSessionId headers messages s
    (s, reply.toList ++ replies, newSession.or laterSession)

/-- `mcp_unified_impl`. Every message has its own fresh UUID at hand. -/
def mcpUnified [McpAdapter A] (b : Backend S A) (newSessionId : Nat → String) (headers : Headers)
    (body : Json) (s : RelayState S) : RelayState S × HttpResponse :=
  match body with
  | .arr [] => (s, ⟨200, some (jsonrpcError none (-32600) "Invalid Request: empty batch"), none⟩)
  | .arr messages =>
    let (s, replies, session) := processBatch b newSessionId headers messages s
    if replies.isEmpty then (s, ⟨202, none, session⟩)
    else (s, ⟨200, some (.arr replies), session⟩)
  | .obj fields =>
    let (s, reply, session) := processMessage b (newSessionId 0) headers (.obj fields) s
    match reply with
    | some reply => (s, ⟨200, some reply, session⟩)
    | none => (s, ⟨202, none, session⟩)
  | _ => (s, ⟨200, some (jsonrpcError none (-32600) "Invalid Request: expected object or array"), none⟩)

/-! ## What is asked -/

/-- A response, with a result or an error, that carries this id. -/
structure IsResponseTo (id resp : Json) : Prop where
  version : resp.get "jsonrpc" = some (.str "2.0")
  id : resp.get "id" = some id
  answer : (resp.get "result").isSome = !(resp.get "error").isSome

def requestId (msg : Json) : Option Json := (msg.get "id").filter fun id => !id.isNull

/-- A request or a notification of JSON-RPC 2.0. -/
structure WellFormedMessage (msg : Json) : Prop where
  isObject : ∃ fields, msg = .obj fields
  version : msg.get "jsonrpc" = some (.str "2.0")
  method : ∃ method, msg.get "method" = some (.str method)
  params : ∀ p, msg.get "params" = some p → p.asObject.isSome ∨ p.asArray.isSome
  id : ∀ id, msg.get "id" = some id → id = .null ∨ (∃ n, id = .num n) ∨ ∃ t, id = .str t

def messagesOf (body : Json) : List Json :=
  match body with
  | .arr messages => messages
  | msg => [msg]

/-- Every request is answered by one response with its id, in order, and nothing else is answered;
without a request there is an empty 202. -/
def AnsweredOneToOne (body : Json) (resp : HttpResponse) : Prop :=
  match body with
  | .arr messages =>
    match messages.filterMap requestId with
    | [] => resp.status = 202 ∧ resp.body = none
    | ids => resp.status = 200 ∧ ∃ replies, resp.body = some (.arr replies) ∧
        List.Forall₂ IsResponseTo ids replies
  | msg =>
    match requestId msg with
    | none => resp.status = 202 ∧ resp.body = none
    | some id => resp.status = 200 ∧ ∃ reply, resp.body = some reply ∧ IsResponseTo id reply

/-- A 2026 message whose method is not that of `Mcp-Method`, or a call of another tool than that of
`Mcp-Name`. -/
def HeadersDisagree (headers : Headers) (msg : Json) : Prop :=
  messageDialect headers msg = .v20260728 ∧
    ((∃ m, headers "mcp-method" = some m ∧ m ≠ messageMethod msg) ∨
      (messageMethod msg = "tools/call" ∧ ∃ n, headers "mcp-name" = some n ∧ n ≠ calledTool msg))

/-! ## The handlers reply with the id of the request -/

theorem isResponseTo_result (id : Option Json) (result : Json) :
    IsResponseTo (id.getD .null) (jsonrpcResponse id result) := ⟨rfl, rfl, rfl⟩

theorem isResponseTo_error (id : Option Json) (code : Int) (message : String) :
    IsResponseTo (id.getD .null) (jsonrpcError id code message) := ⟨rfl, rfl, rfl⟩

theorem isResponseTo_replied (id : Option Json) (answer : Except String Json) :
    IsResponseTo (id.getD .null) (replied id answer) := by
  cases answer with
  | ok value => exact isResponseTo_result id value
  | error text => exact isResponseTo_error id _ text

namespace Backend

variable (b : Backend S A)

theorem metaToolReply_isResponseTo (id : Option Json) (call : HandlerCall)
    (answer : Except String Json) : IsResponseTo (id.getD .null) (b.metaToolReply id call answer) := by
  cases answer with
  | ok result => exact isResponseTo_result id _
  | error text =>
    cases call with
    | writeFile path data encoding => exact isResponseTo_result id _
    | listTools limit offset => exact isResponseTo_error id _ text
    | searchTools query limit => exact isResponseTo_error id _ text
    | executeTools script => exact isResponseTo_error id _ text

theorem callReply_isResponseTo (identity : Option ClientIdentity) (id : Option Json) (s routed : S)
    (call : ToolsCall A) : IsResponseTo (id.getD .null) (b.callReply identity id s routed call).2 := by
  cases call with
  | refused code message => exact isResponseTo_error id code message
  | answered tool result => exact isResponseTo_result id result
  | handled call => exact b.metaToolReply_isResponseTo id call _
  | routed decision requestParams => exact isResponseTo_replied id _

/-- Whatever the method, the reply carries the id of the request. -/
theorem dispatch_isResponseTo [McpAdapter A] (identity : Option ClientIdentity) (method : String)
    (body : JsonRpcBody) (s : S) :
    IsResponseTo (body.id.getD .null) (b.dispatch identity method body s).2 := by
  unfold dispatch
  split
  · exact isResponseTo_result body.id _
  · exact isResponseTo_result body.id _
  · exact isResponseTo_result body.id _
  · exact b.callReply_isResponseTo identity body.id _ _ _
  · exact isResponseTo_result body.id _
  · exact isResponseTo_result body.id _
  · simp only [mcpResourcesRead]
    split
    · exact isResponseTo_error body.id _ _
    · exact isResponseTo_replied body.id _
  · exact isResponseTo_result body.id _
  · simp only [mcpPromptsGet]
    split
    · exact isResponseTo_error body.id _ _
    · exact isResponseTo_replied body.id _
  · exact isResponseTo_error body.id _ _

end Backend

/-! ## The routing headers -/

theorem methodMismatch_eq_none (headers : Headers) (msg : Json) :
    methodMismatch headers msg = none ↔
      ¬ ∃ m, headers "mcp-method" = some m ∧ m ≠ messageMethod msg := by
  unfold methodMismatch
  cases headers "mcp-method" with
  | none => simp
  | some hdrMethod => simp

theorem nameMismatch_eq_none (headers : Headers) (msg : Json) :
    nameMismatch headers msg = none ↔
      ¬ (messageMethod msg = "tools/call" ∧ ∃ n, headers "mcp-name" = some n ∧ n ≠ calledTool msg) := by
  unfold nameMismatch
  cases headers "mcp-name" with
  | none => simp
  | some hdrName => simp

/-- A message is refused exactly when it disagrees with the headers. -/
theorem validate2026_eq_none (headers : Headers) (msg : Json) :
    validate2026RoutingHeaders headers msg = none ↔ ¬ HeadersDisagree headers msg := by
  unfold validate2026RoutingHeaders HeadersDisagree
  cases messageDialect headers msg with
  | v20241105 => simp
  | v20250326 => simp
  | v20260728 =>
    simp only [Option.or_eq_none_iff, methodMismatch_eq_none, nameMismatch_eq_none, true_and, not_or]

variable {document err msg : Json} {fields : Fields} {messages : List Json}

theorem methodMismatch_isResponseTo {headers : Headers} (h : methodMismatch headers msg = some err) :
    IsResponseTo ((msg.get "id").getD .null) err := by
  unfold methodMismatch at h
  split at h
  · cases h
  · split at h
    · cases h
      exact isResponseTo_error (msg.get "id") _ _
    · cases h

theorem nameMismatch_isResponseTo {headers : Headers} (h : nameMismatch headers msg = some err) :
    IsResponseTo ((msg.get "id").getD .null) err := by
  unfold nameMismatch at h
  split at h
  · cases h
  · split at h
    · cases h
      exact isResponseTo_error (msg.get "id") _ _
    · cases h

/-- The refusal carries the id of the message. -/
theorem validate2026_isResponseTo {headers : Headers}
    (h : validate2026RoutingHeaders headers msg = some err) :
    IsResponseTo ((msg.get "id").getD .null) err := by
  unfold validate2026RoutingHeaders at h
  split at h
  · obtain hmethod | ⟨-, hname⟩ := Option.or_eq_some_iff.mp h
    · exact methodMismatch_isResponseTo hmethod
    · exact nameMismatch_isResponseTo hname
  · cases h

/-! ## One message -/

theorem requestId_eq_none (msg : Json) : requestId msg = none ↔ isNotification msg = true := by
  unfold requestId isNotification
  cases msg.get "id" with
  | none => simp
  | some id => simp

theorem requestId_eq_some {msg id : Json} (h : requestId msg = some id) :
    msg.get "id" = some id ∧ isNotification msg = false := by
  have hid : msg.get "id" = some id := Option.eq_some_of_filter_eq_some h
  refine ⟨hid, ?_⟩
  have hnot : ¬ isNotification msg = true := fun hn => by
    rw [(requestId_eq_none msg).mpr hn] at h
    cases h
  simpa using hnot

/-- The body of a well-formed message is read, with the id of the message. -/
theorem WellFormedMessage.fromJson (h : WellFormedMessage (.obj fields))
    (hnd : (fields.map Prod.fst).Nodup) {id : Json} (hid : requestId (.obj fields) = some id) :
    ∃ body, JsonRpcBody.fromJson (.obj fields) = some body ∧ body.id = some id := by
  obtain ⟨hget, hsome⟩ := requestId_eq_some hid
  obtain ⟨method, hmethod⟩ := h.method
  have hversion : Fields.get fields "jsonrpc" = some (.str "2.0") := h.version
  have hmethod : Fields.get fields "method" = some (.str method) := hmethod
  have hget : Fields.get fields "id" = some id := hget
  have hparams : ∃ params, optional some (Fields.get fields "params") = some params := by
    cases Fields.get fields "params" with
    | none => exact ⟨none, rfl⟩
    | some p =>
      cases p with
      | null => exact ⟨none, rfl⟩
      | _ => exact ⟨_, rfl⟩
  have hidRead : optional some (some id) = some (some id) := by
    cases id with
    | null => simp [isNotification, Json.get, Json.asObject, hget, Json.isNull] at hsome
    | _ => rfl
  obtain ⟨params, hparams⟩ := hparams
  refine ⟨⟨some "2.0", some method, params, some id⟩, ?_, rfl⟩
  simp only [JsonRpcBody.fromJson, Fields.field_of_nodup hnd, hversion, hmethod, hget,
    JsonRpcBody.fromFields, Option.bind_eq_bind, Option.bind_some, hparams, hidRead]
  rfl

/-- What there should be for one message: a response with its id, or nothing. -/
def Answers (msg : Json) (reply : Option Json) : Prop :=
  match requestId msg with
  | none => reply = none
  | some id => ∃ resp, reply = some resp ∧ IsResponseTo id resp

/-- A well-formed message as it stands in a `Value`, where no key is repeated. -/
structure MessageValue (msg : Json) : Prop where
  wellFormed : WellFormedMessage msg
  nodup : ∀ fields, msg = .obj fields → (fields.map Prod.fst).Nodup

section OneMessage

variable [McpAdapter A] (b : Backend S A) (newSessionId : String) {headers : Headers} {msg : Json}

theorem handleSingleMessage_answers (hmsg : MessageValue msg) (identity : Option ClientIdentity)
    (s : S) : Answers msg (handleSingleMessage b identity msg s).2 := by
  unfold Answers handleSingleMessage
  cases hid : requestId msg with
  | none => rw [if_pos ((requestId_eq_none msg).mp hid)]
  | some id =>
    obtain ⟨fields, rfl⟩ := hmsg.wellFormed.isObject
    obtain ⟨body, hbody, hbodyId⟩ := hmsg.wellFormed.fromJson (hmsg.nodup fields rfl) hid
    have hreply := b.dispatch_isResponseTo identity (messageMethod (.obj fields)) body s
    rw [hbodyId] at hreply
    rw [(requestId_eq_some hid).2, hbody]
    exact ⟨_, rfl, hreply⟩

/-- A message is answered as it should be, unless it is a notification the headers disagree with. -/
theorem processMessage_answers (hmsg : MessageValue msg)
    (hok : isNotification msg = true → ¬ HeadersDisagree headers msg) (s : RelayState S) :
    Answers msg (processMessage b newSessionId headers msg s).2.1 := by
  unfold processMessage
  cases hvalid : validate2026RoutingHeaders headers msg with
  | none => exact handleSingleMessage_answers b hmsg _ _
  | some err =>
    have hdisagree : HeadersDisagree headers msg := by
      by_contra hnot
      rw [(validate2026_eq_none headers msg).mpr hnot] at hvalid
      cases hvalid
    have herr := validate2026_isResponseTo hvalid
    unfold Answers
    cases hid : requestId msg with
    | none => exact absurd hdisagree (hok ((requestId_eq_none msg).mp hid))
    | some id =>
      rw [(requestId_eq_some hid).1] at herr
      exact ⟨err, rfl, herr⟩

/-- A notification the headers disagree with is answered. -/
theorem processMessage_stray (hdisagree : HeadersDisagree headers msg) (s : RelayState S) :
    ∃ err, (processMessage b newSessionId headers msg s).2.1 = some err := by
  cases hvalid : validate2026RoutingHeaders headers msg with
  | none => exact absurd hdisagree ((validate2026_eq_none headers msg).mp hvalid)
  | some err =>
    refine ⟨err, ?_⟩
    rw [processMessage, hvalid]

theorem processMessage_length (hmsg : MessageValue msg) (s : RelayState S) :
    (requestId msg).toList.length ≤ (processMessage b newSessionId headers msg s).2.1.toList.length := by
  cases hid : requestId msg with
  | none => simp
  | some id =>
    have hnot : isNotification msg = true → ¬ HeadersDisagree headers msg := by
      rw [(requestId_eq_some hid).2]
      nofun
    have hanswers := processMessage_answers b newSessionId hmsg hnot s
    rw [Answers, hid] at hanswers
    obtain ⟨resp, hreply, -⟩ := hanswers
    simp [hreply]

end OneMessage

/-! ## Batches -/

section Batches

variable [McpAdapter A] (b : Backend S A) (newSessionId : Nat → String)

theorem processBatch_replies_cons (headers : Headers) (messages : List Json) (msg : Json)
    (s : RelayState S) :
    ∃ s₁, (processBatch b newSessionId headers (msg :: messages) s).2.1 =
      (processMessage b (newSessionId messages.length) headers msg s).2.1.toList ++
        (processBatch b newSessionId headers messages s₁).2.1 :=
  ⟨(processMessage b (newSessionId messages.length) headers msg s).1, rfl⟩

theorem filterMap_requestId_cons (msg : Json) (messages : List Json) :
    (msg :: messages).filterMap requestId = (requestId msg).toList ++ messages.filterMap requestId := by
  rw [List.filterMap_cons]
  cases requestId msg with
  | none => rfl
  | some id => rfl

variable {headers : Headers} {messages : List Json}

/-- Without a stray notification the replies are the responses to the requests, in order. -/
theorem processBatch_answers (hmsgs : ∀ m ∈ messages, MessageValue m)
    (hok : ∀ m ∈ messages, isNotification m = true → ¬ HeadersDisagree headers m) (s : RelayState S) :
    List.Forall₂ IsResponseTo (messages.filterMap requestId)
      (processBatch b newSessionId headers messages s).2.1 := by
  induction messages generalizing s with
  | nil => exact .nil
  | cons msg messages ih =>
    obtain ⟨s₁, hreplies⟩ := processBatch_replies_cons b newSessionId headers messages msg s
    rw [hreplies, filterMap_requestId_cons]
    have hrest := ih (fun m hm => hmsgs m (List.mem_cons_of_mem _ hm))
      (fun m hm => hok m (List.mem_cons_of_mem _ hm)) s₁
    have hfirst := processMessage_answers b (newSessionId messages.length)
      (hmsgs msg List.mem_cons_self) (hok msg List.mem_cons_self) s
    unfold Answers at hfirst
    cases hid : requestId msg with
    | none =>
      rw [hid] at hfirst
      rw [hfirst]
      exact hrest
    | some id =>
      rw [hid] at hfirst
      obtain ⟨resp, hreply, hresp⟩ := hfirst
      rw [hreply]
      exact .cons hresp hrest

theorem processBatch_length (hmsgs : ∀ m ∈ messages, MessageValue m) (s : RelayState S) :
    (messages.filterMap requestId).length ≤
      (processBatch b newSessionId headers messages s).2.1.length := by
  induction messages generalizing s with
  | nil => exact Nat.zero_le _
  | cons msg messages ih =>
    obtain ⟨s₁, hreplies⟩ := processBatch_replies_cons b newSessionId headers messages msg s
    rw [hreplies, filterMap_requestId_cons, List.length_append, List.length_append]
    exact Nat.add_le_add
      (processMessage_length b _ (hmsgs msg List.mem_cons_self) s)
      (ih (fun m hm => hmsgs m (List.mem_cons_of_mem _ hm)) s₁)

/-- A stray notification makes one reply too many. -/
theorem processBatch_stray (hmsgs : ∀ m ∈ messages, MessageValue m)
    (hstray : ∃ m ∈ messages, isNotification m = true ∧ HeadersDisagree headers m)
    (s : RelayState S) :
    (messages.filterMap requestId).length <
      (processBatch b newSessionId headers messages s).2.1.length := by
  induction messages generalizing s with
  | nil => simp at hstray
  | cons msg messages ih =>
    obtain ⟨s₁, hreplies⟩ := processBatch_replies_cons b newSessionId headers messages msg s
    have hmsgs' : ∀ m ∈ messages, MessageValue m := fun m hm => hmsgs m (List.mem_cons_of_mem _ hm)
    rw [hreplies, filterMap_requestId_cons, List.length_append, List.length_append]
    obtain ⟨m, hm, hnotification, hdisagree⟩ := hstray
    obtain rfl | hm := List.mem_cons.mp hm
    · obtain ⟨err, herr⟩ :=
        processMessage_stray b (newSessionId messages.length) hdisagree s
      have hrest : (messages.filterMap requestId).length ≤
          (processBatch b newSessionId headers messages s₁).2.1.length :=
        processBatch_length b newSessionId hmsgs' s₁
      rw [herr, (requestId_eq_none m).mpr hnotification]
      simp only [Option.toList_none, Option.toList_some, List.length_nil, List.length_singleton]
      omega
    · have hfirst : (requestId msg).toList.length ≤ (processMessage b
          (newSessionId messages.length) headers msg s).2.1.toList.length :=
        processMessage_length b _ (hmsgs msg List.mem_cons_self) s
      have hrest := ih hmsgs' ⟨m, hm, hnotification, hdisagree⟩ s₁
      omega

end Batches

/-! ## Requests -/

/-- The body of a request: a message, or an array of them. -/
inductive WellFormedBody : Json → Prop where
  | batch {messages : List Json} (h : ∀ m ∈ messages, WellFormedMessage m) :
      WellFormedBody (.arr messages)
  | single {msg : Json} (h : WellFormedMessage msg) : WellFormedBody msg

theorem nodup_of_toValue (h : document.toValue = .obj fields) : (fields.map Prod.fst).Nodup := by
  cases document with
  | obj m =>
    rw [Json.toValue] at h
    cases h
    have hnil : (([] : Fields).map Prod.fst).Nodup := List.nodup_nil
    exact Fields.nodup_toMap hnil m
  | _ => cases h

theorem toValue_of_mem {documents : List Json} {m : Json} (h : m ∈ Json.toValues documents) :
    ∃ document, m = Json.toValue document := by
  induction documents with
  | nil => cases h
  | cons v vs ih =>
    rw [Json.toValues] at h
    obtain rfl | h := List.mem_cons.mp h
    · exact ⟨v, rfl⟩
    · exact ih h

theorem WellFormedMessage.messageValue (h : WellFormedMessage document.toValue) :
    MessageValue document.toValue := ⟨h, fun _ => nodup_of_toValue⟩

/-- The messages of a document are messages as they stand in a `Value`. -/
theorem messageValue_of_mem (hvalue : document.toValue = .arr messages)
    (h : ∀ m ∈ messages, WellFormedMessage m) : ∀ m ∈ messages, MessageValue m := by
  intro m hm
  cases document with
  | arr items =>
    rw [Json.toValue] at hvalue
    cases hvalue
    obtain ⟨document, rfl⟩ := toValue_of_mem hm
    exact (h _ hm).messageValue
  | _ => cases hvalue

section Requests

variable [McpAdapter A] (b : Backend S A) (newSessionId : Nat → String) (headers : Headers)

theorem mcpUnified_single (hmsg : MessageValue msg) (s : RelayState S) :
    AnsweredOneToOne msg (mcpUnified b newSessionId headers msg s).2 ↔
      (isNotification msg = true → ¬ HeadersDisagree headers msg) := by
  obtain ⟨fields, rfl⟩ := hmsg.wellFormed.isObject
  have hanswered : AnsweredOneToOne (.obj fields) (mcpUnified b newSessionId headers (.obj fields) s).2 ↔
      Answers (.obj fields) (processMessage b (newSessionId 0) headers (.obj fields) s).2.1 := by
    unfold mcpUnified
    simp only [AnsweredOneToOne, Answers]
    cases (processMessage b (newSessionId 0) headers (.obj fields) s).2.1 with
    | none =>
      cases requestId (.obj fields) with
      | none => simp
      | some id => simp
    | some reply =>
      cases requestId (.obj fields) with
      | none => simp
      | some id => simp
  rw [hanswered]
  constructor
  · intro hanswers hnotification hdisagree
    obtain ⟨err, herr⟩ := processMessage_stray b (newSessionId 0) hdisagree s
    rw [Answers, (requestId_eq_none _).mpr hnotification, herr] at hanswers
    cases hanswers
  · intro hok
    exact processMessage_answers b (newSessionId 0) hmsg hok s

theorem mcpUnified_batch (hne : messages ≠ []) (hmsgs : ∀ m ∈ messages, MessageValue m)
    (s : RelayState S) :
    AnsweredOneToOne (.arr messages) (mcpUnified b newSessionId headers (.arr messages) s).2 ↔
      ∀ m ∈ messages, isNotification m = true → ¬ HeadersDisagree headers m := by
  have hanswered : AnsweredOneToOne (.arr messages)
        (mcpUnified b newSessionId headers (.arr messages) s).2 ↔
      List.Forall₂ IsResponseTo (messages.filterMap requestId)
        (processBatch b newSessionId headers messages s).2.1 := by
    cases messages with
    | nil => exact absurd rfl hne
    | cons msg messages =>
      simp only [mcpUnified, AnsweredOneToOne]
      cases (processBatch b newSessionId headers (msg :: messages) s).2.1 with
      | nil =>
        cases (msg :: messages).filterMap requestId with
        | nil => simp
        | cons id ids => simp
      | cons reply replies =>
        cases (msg :: messages).filterMap requestId with
        | nil => simp
        | cons id ids => simp
  rw [hanswered]
  constructor
  · intro hreplies m hm hnotification hdisagree
    have hmore := processBatch_stray b newSessionId hmsgs ⟨m, hm, hnotification, hdisagree⟩ s
    exact absurd hreplies.length_eq hmore.ne
  · intro hok
    exact processBatch_answers b newSessionId hmsgs hok s

/-- **Messages are answered one to one** exactly when the batch is not empty and no notification
disagrees with the headers. -/
theorem mcpUnified_one_to_one_iff (document : Json) (hbody : WellFormedBody document.toValue)
    (s : RelayState S) :
    AnsweredOneToOne document.toValue (mcpUnified b newSessionId headers document.toValue s).2 ↔
      document.toValue ≠ .arr [] ∧
        ∀ m ∈ messagesOf document.toValue, isNotification m = true → ¬ HeadersDisagree headers m := by
  generalize hvalue : document.toValue = body at hbody
  cases hbody with
  | batch h =>
    next messages =>
    by_cases hne : messages = []
    · subst hne
      simp [AnsweredOneToOne, mcpUnified]
    · rw [mcpUnified_batch b newSessionId headers hne (messageValue_of_mem hvalue h)]
      simp [messagesOf, hne]
  | single h =>
    rw [← hvalue] at h ⊢
    obtain ⟨fields, hfields⟩ := h.isObject
    rw [mcpUnified_single b newSessionId headers h.messageValue, hfields]
    simp [messagesOf]

end Requests

def quietBackend : Backend Unit FixedAdapter where
  jsMode _ := false
  texts _ := blankTexts
  writeRoots _ := []
  profile := none
  validateMeta _ _ := none
  validateArguments := none
  wrapMetaToolResult result := result
  toonifyCallResult result := result
  buildInitializeResult s := (s, [])
  mergedCatalog s := (s, ⟨[], ∅⟩)
  entries _ := ∅
  perform _ _ s := (s, .error "nothing")
  forward _ _ _ s := (s, .error "nothing")
  listResources s := (s, [])
  listResourceTemplates s := (s, [])
  listPrompts s := (s, [])
  routeResourceRead _ s := (s, .error "nothing")
  routePromptGet _ _ s := (s, .error "nothing")

def listRequest : Json :=
  .obj [("jsonrpc", .str "2.0"), ("id", .num "1"), ("method", .str "tools/list")]

def notifyInitialized : Json :=
  .obj [("jsonrpc", .str "2.0"), ("method", .str "notifications/initialized")]

theorem listAndNotify_toValue :
    (Json.arr [listRequest, notifyInitialized]).toValue = .arr [listRequest, notifyInitialized] := by
  simp [Json.toValue, Json.toValues, listRequest, notifyInitialized, Fields.toMap, Fields.insert]

theorem listAndNotify_wellFormed : ∀ m ∈ [listRequest, notifyInitialized], WellFormedMessage m := by
  intro m hm
  obtain rfl | rfl : m = listRequest ∨ m = notifyInitialized := by simpa using hm
  · refine ⟨⟨_, rfl⟩, rfl, ⟨_, rfl⟩, nofun, fun id hid => .inr (.inl ⟨"1", ?_⟩)⟩
    exact (Option.some.inj hid).symm
  · exact ⟨⟨_, rfl⟩, rfl, ⟨_, rfl⟩, nofun, nofun⟩

/-- The headers of a 2026 client that lists the tools. -/
def listHeaders (name : String) : Option String :=
  if name = "mcp-protocol-version" then some "2026-07-28"
  else if name = "mcp-method" then some "tools/list"
  else none

/-- A 2026 batch of a request and a notification cannot have a header for both: the notification is
answered. -/
theorem mcpUnified_answers_notification :
    WellFormedBody (.arr [listRequest, notifyInitialized]) ∧
      ¬ AnsweredOneToOne (.arr [listRequest, notifyInitialized])
        (mcpUnified quietBackend (fun _ => "s") listHeaders
          (.arr [listRequest, notifyInitialized]) ⟨.withCapacity 1, ()⟩).2 := by
  refine ⟨.batch listAndNotify_wellFormed, fun hanswered => ?_⟩
  have hmsgs := messageValue_of_mem listAndNotify_toValue listAndNotify_wellFormed
  have hok := (mcpUnified_batch quietBackend (fun _ => "s") listHeaders (by simp) hmsgs _).mp hanswered
  exact hok notifyInitialized (by simp) rfl ⟨rfl, .inl ⟨"tools/list", rfl, by decide⟩⟩

/-- Without the headers the request is answered and the notification is not. -/
theorem mcpUnified_answers_request :
    AnsweredOneToOne (Json.arr [listRequest, notifyInitialized]).toValue
      (mcpUnified quietBackend (fun _ => "s") (fun _ => none)
        (Json.arr [listRequest, notifyInitialized]).toValue ⟨.withCapacity 1, ()⟩).2 := by
  have hbody : WellFormedBody (Json.arr [listRequest, notifyInitialized]).toValue := by
    rw [listAndNotify_toValue]
    exact .batch listAndNotify_wellFormed
  refine (mcpUnified_one_to_one_iff quietBackend (fun _ => "s") (fun _ => none) _ hbody _).mpr
    ⟨by simp [listAndNotify_toValue], ?_⟩
  rintro m - - ⟨-, ⟨_, h, -⟩ | ⟨-, _, h, -⟩⟩
  · cases h
  · cases h

end EndaraRelay
