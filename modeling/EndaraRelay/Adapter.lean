import EndaraRelay.Json

/-!
# Adapters

What the registry knows of an adapter: the `McpAdapter` trait with the methods the registry calls,
the tool descriptors they exchange, and their errors. The registry is generic in the adapter type,
as the source is through `Box<dyn McpAdapter>`.
-/

namespace EndaraRelay

/-- Health status of an adapter. -/
inductive HealthStatus where
  | healthy
  | unhealthy (reason : String)
  | starting
  | stopped
deriving DecidableEq, Repr

def HealthStatus.isHealthy : HealthStatus → Bool
  | .healthy => true
  | _ => false

/-- Errors that can occur in adapter operations. -/
inductive AdapterError where
  | processSpawnFailed (msg : String)
  | processCrashed (msg : String)
  | timeout (secs : Nat)
  | jsonRpcError (code : Int) (message : String) (data : Option Json)
  | protocolError (msg : String)
  | notInitialized
  | connectionFailed (msg : String)
  | httpError (status : Nat) (body : String)
  | authenticationRequired (endpoint message : String)
  | io (msg : String)
  | json (msg : String)

/-- A tool descriptor. `toolMeta` is its `_meta` object, `extra` the fields not modelled by name. -/
structure ToolInfo where
  name : String
  description : Option String
  inputSchema : Json
  annotations : Option Json
  title : Option String
  outputSchema : Option Json
  toolMeta : Option Json
  extra : Fields

/-- The operations the registry uses on an adapter, each with the answer it gives. -/
class McpAdapter (A : Type) where
  health : A → HealthStatus
  listTools : A → Except AdapterError (List ToolInfo)
  callToolWithRequestParams : A → String → Json → Fields → Except AdapterError Json
  listResources : A → Except AdapterError (List Json)
  listPrompts : A → Except AdapterError (List Json)
  getPrompt : A → String → Option Json → Except AdapterError Json
  readResource : A → String → Except AdapterError Json

/-- An adapter with fixed answers, on which the examples of the development run. -/
structure FixedAdapter where
  health : HealthStatus := .healthy
  tools : Except AdapterError (List ToolInfo) := .ok []
  callResult : Except AdapterError Json := .ok .null
  resources : Except AdapterError (List Json) := .ok []

instance : McpAdapter FixedAdapter where
  health a := a.health
  listTools a := a.tools
  callToolWithRequestParams a _ _ _ := a.callResult
  listResources a := a.resources
  listPrompts _ := .ok []
  getPrompt _ _ _ :=
    .error (.jsonRpcError (-32601) "prompts/get not supported by this adapter" none)
  readResource _ _ :=
    .error (.jsonRpcError (-32601) "resources/read not supported by this adapter" none)

/-- A tool descriptor with nothing but a name. -/
def bareTool (name : String) : ToolInfo := ⟨name, none, .null, none, none, none, none, []⟩

end EndaraRelay
