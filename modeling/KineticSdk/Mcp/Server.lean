/-
  KineticSdk.Mcp.Server

  `MCPServer`: the handshake, and tools that an external client may call.

  A handler runs on the state of the server and may raise; what has happened
  by then stays.  `events` records the audit entries and the executions in
  their order.  A tool answers with a result or raises; a tool that hands back
  a bare value is found out only when its `output` is read.
-/

import KineticSdk.Lib.Wp
import KineticSdk.Mcp.Protocol
import KineticSdk.Security.Audit

namespace KineticSdk
namespace Mcp

open Py Tool Security

variable {σ : Type}

-- ============================================================================
-- The server
-- ============================================================================

/-- `METHOD_NOT_FOUND`. -/
def METHOD_NOT_FOUND : Int := -32601

/-- `INVALID_PARAMS`. -/
def INVALID_PARAMS : Int := -32602

/-- `SERVER_NOT_INITIALIZED`. -/
def SERVER_NOT_INITIALIZED : Int := -32002

/-- `MCP_PROTOCOL_VERSION`. -/
def MCP_PROTOCOL_VERSION : PyStr := py "2025-03-26"

/-- `_state`, driven by the handshake. -/
inductive Phase where
  | awaitingInitialize
  | awaitingInitializedNotification
  | ready
deriving DecidableEq

/-- A tool with the text it is listed with. -/
structure ServedTool (σ : Type) where
  tool : Tool σ
  description : PyStr

/-- `MCPServer`, as `__init__` leaves it: no two tools have one name. -/
structure MCPServer (σ : Type) where
  tools : List (ServedTool σ)
  unique : (tools.map fun t => t.tool.name).Nodup
  permissionPolicy : PyStr → Json → Act σ (Except PyExc PermissionDecision)
  auditLogger : AuditLogger
  serverName : PyStr := py "kinetic-agent-sdk"
  serverVersion : PyStr := py "0.1.0"

/-- What a server has done. -/
inductive Event where
  | audited (entry : AuditEntry)
  | executed (name : PyStr) (arguments : Dict)

/-- What handling a message changes. -/
structure ServerState (σ : Type) where
  phase : Phase := .awaitingInitialize
  clientProtocolVersion : Option PyStr := none
  clientInfo : Option Dict := none
  events : List Event := []
  world : σ

/-- A handler. -/
abbrev Handler (σ α : Type) := EStateM PyExc (ServerState σ) α

/-- `self._tools.get(name)`. -/
def MCPServer.findTool (srv : MCPServer σ) (name : PyStr) : Option (Tool σ) :=
  (srv.tools.find? fun t => t.tool.name == name).map ServedTool.tool

/-- `message.params`, when they are an object. -/
def paramsOf (r : Request) : Dict :=
  match r.params with
  | .obj params => params
  | _ => []

-- ============================================================================
-- The handshake
-- ============================================================================

/-- `_handle_notification`. -/
def handleNotification (n : Notification) : Handler σ Unit :=
  modify fun s =>
    if n.method = py "notifications/initialized" ∧ s.phase = .awaitingInitializedNotification then
      { s with phase := .ready }
    else s

/-- The answer to a request before the handshake is complete. -/
def notReadyResponse (r : Request) : Response :=
  Response.makeError r.id SERVER_NOT_INITIALIZED
    (py "Server not initialized: complete the initialize + notifications/initialized handshake first")

/-- The result of a handshake. -/
def MCPServer.initializeResult (srv : MCPServer σ) : Json :=
  .obj [(py "protocolVersion", .str MCP_PROTOCOL_VERSION),
    (py "capabilities", .obj [(py "tools", .obj [(py "listChanged", .bool false)])]),
    (py "serverInfo", .obj [(py "name", .str srv.serverName), (py "version", .str srv.serverVersion)])]

/-- `params.get("clientInfo")`, when it is an object. -/
def clientInfoOf (params : Dict) : Option Dict :=
  match Dict.get? params (py "clientInfo") with
  | some (.obj info) => some info
  | _ => none

/-- `_on_initialize`. -/
def onInitialize (srv : MCPServer σ) (r : Request) : Handler σ Response :=
  match Dict.get? (paramsOf r) (py "protocolVersion") with
  | some (.str version) => do
      modify fun s => { s with
        clientProtocolVersion := some version
        clientInfo := clientInfoOf (paramsOf r)
        phase := .awaitingInitializedNotification }
      pure { id := r.id, answer := .result srv.initializeResult }
  | _ => pure (Response.makeError r.id INVALID_PARAMS (py "initialize params miss 'protocolVersion'"))

/-- `_on_ping`. -/
def onPing (r : Request) : Handler σ Response :=
  pure { id := r.id, answer := .result (.obj []) }

/-- A tool as it is listed. -/
def ServedTool.toJson (t : ServedTool σ) : Json :=
  .obj [(py "name", .str t.tool.name), (py "description", .str t.description),
    (py "inputSchema", t.tool.parameters)]

/-- `_on_tools_list`. -/
def onToolsList (srv : MCPServer σ) (r : Request) : Handler σ Response := do
  let s ← get
  if s.phase ≠ .ready then pure (notReadyResponse r)
  else pure { id := r.id, answer := .result (.obj [(py "tools", .arr (srv.tools.map ServedTool.toJson))]) }

-- ============================================================================
-- Calls
-- ============================================================================

/-- `self.audit_logger.log_…`. -/
def audit (srv : MCPServer σ) (entry : AuditEntry) : Handler σ Unit :=
  match srv.auditLogger.record entry with
  | .ok () => modify fun s => { s with events := s.events ++ [.audited entry] }
  | .error e => throw e

/-- `self.permission_policy.check`. -/
def checkPolicy (srv : MCPServer σ) (name : PyStr) (arguments : Dict) :
    Handler σ PermissionDecision := do
  let s ← get
  modify fun s => { s with world := (srv.permissionPolicy name (.obj arguments) s.world).2 }
  match (srv.permissionPolicy name (.obj arguments) s.world).1 with
  | .ok d => pure d
  | .error e => throw e

/-- Why a call is refused, if it is. -/
def refusal (d : PermissionDecision) : Option PyStr :=
  if !d.allowed then some (py "Permission denied: " ++ d.reason)
  else if d.requiresConfirmation then
    some (py "requires manual confirmation, not yet supported in automated mode (" ++ d.reason ++ py ")")
  else none

/-- The result an execution leaves: what a tool raises is its error. -/
def resultOf : Except PyExc Returned → Except PyExc ToolResult
  | .error e => .ok (ToolResult.failed e.text)
  | .ok (.result r) => .ok r
  | .ok (.value v) =>
      .error ⟨py "AttributeError", py "'" ++ typeName v ++ py "' object has no attribute 'output'"⟩

/-- `tool.execute(**arguments)`, and reading its result. -/
def executeTool (tool : Tool σ) (name : PyStr) (arguments : Dict) : Handler σ ToolResult := do
  let s ← get
  modify fun s => { s with
    events := s.events ++ [.executed name arguments]
    world := (tool.execute arguments s.world).2 }
  match resultOf (tool.execute arguments s.world).1 with
  | .ok result => pure result
  | .error e => throw e

/-- The result as clients and the log see it. -/
def redactResult (r : ToolResult) : ToolResult :=
  { r with output := redactValue r.output, error := r.error.map redactSecrets }

/-- `_result_text`. -/
def resultText (r : ToolResult) : PyStr :=
  match (if r.isError then optStr r.error else r.output) with
  | .null => []
  | .str s => s
  | v => dumps false v

/-- The result of a call, as MCP has it. -/
def toolResponse (id : MessageId) (text : PyStr) (isError : Bool) : Response :=
  { id := id
    answer := .result (.obj [(py "content", .arr [.obj [(py "type", .str (py "text")),
      (py "text", .str text)]]), (py "isError", .bool isError)]) }

/-- A call of a tool the server has. -/
def callTool (srv : MCPServer σ) (r : Request) (tool : Tool σ) (name : PyStr) (arguments : Dict) :
    Handler σ Response := do
  let decision ← checkPolicy srv name arguments
  audit srv (.toolCall name (.obj arguments) decision)
  match refusal decision with
  | some reason => do
      audit srv (.permissionDenied name (.obj arguments) reason)
      pure (toolResponse r.id reason true)
  | none => do
      let result ← executeTool tool name arguments
      audit srv (.toolResult name (redactResult result))
      pure (toolResponse r.id (resultText (redactResult result)) (redactResult result).isError)

/-- The name and the arguments of a call. -/
def calledWith (r : Request) : Option (PyStr × Dict) :=
  match Dict.get? (paramsOf r) (py "name"), Dict.get? (paramsOf r) (py "arguments") with
  | some (.str name), some (.obj arguments) => some (name, arguments)
  | _, _ => none

/-- `_on_tools_call`. -/
def onToolsCall (srv : MCPServer σ) (r : Request) : Handler σ Response := do
  let s ← get
  if s.phase ≠ .ready then pure (notReadyResponse r)
  else
    match calledWith r with
    | none => pure (Response.makeError r.id INVALID_PARAMS
        (py "tools/call params must contain str 'name' and object 'arguments'"))
    | some (name, arguments) =>
        match srv.findTool name with
        | none => pure (Response.makeError r.id INVALID_PARAMS (py "Unknown tool: " ++ pyReprStr name))
        | some tool => callTool srv r tool name arguments

-- ============================================================================
-- Messages
-- ============================================================================

/-- The handler of a request. -/
def handleRequest (srv : MCPServer σ) (r : Request) : Handler σ Response :=
  if r.method = py "initialize" then onInitialize srv r
  else if r.method = py "ping" then onPing r
  else if r.method = py "tools/list" then onToolsList srv r
  else if r.method = py "tools/call" then onToolsCall srv r
  else pure (Response.makeError r.id METHOD_NOT_FOUND (py "Method not found: " ++ pyReprStr r.method))

/-- `handle_message`. -/
def handleMessage (srv : MCPServer σ) : Message → Handler σ (Option Response)
  | .notification n => do
      handleNotification n
      pure none
  | .response _ => pure none
  | .request r => some <$> handleRequest srv r

end Mcp
end KineticSdk
