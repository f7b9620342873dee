/-
  KineticSdk.Mcp.Adapter

  One tool of a server as a tool of an agent (`mcp/adapter.py`).

  `execute` redacts the content of a result.  What the client raises, and a
  result that is no object, go into the error as they came: there the text of
  the server is read past the redaction.
-/

import KineticSdk.Mcp.Client
import KineticSdk.Security.Redact
import KineticSdk.Tool.Base

namespace KineticSdk
namespace Mcp

open Py Tool Security

-- ============================================================================
-- MCPToolAdapter
-- ============================================================================

/-- `MCPToolAdapter`, as far as it does not hold the client. -/
structure ToolAdapter where
  toolName : PyStr
  serverName : PyStr
  description : Json
  parameters : Json

/-- `name`. -/
def ToolAdapter.name (a : ToolAdapter) : PyStr := a.serverName ++ py "." ++ a.toolName

/-- `a or b`. -/
def orElse (a : Option Json) (b : Json) : Json := (a.filter Json.truthy).getD b

/-- `MCPToolAdapter(...)`. -/
def ToolAdapter.new (toolName serverName : PyStr) (description inputSchema : Option Json) :
    Except PyExc ToolAdapter :=
  if toolName = [] then .error ⟨py "ValueError", py "tool_name must be non-empty"⟩
  else if serverName = [] then .error ⟨py "ValueError", py "server_name must be non-empty"⟩
  else .ok {
    toolName := toolName
    serverName := serverName
    description := orElse description
      (.str (py "MCP tool " ++ pyReprStr toolName ++ py " from server " ++ pyReprStr serverName))
    parameters := orElse inputSchema
      (.obj [(py "type", .str (py "object")), (py "properties", .obj [])]) }

/-- The name in an entry of a `tools/list` response. -/
def schemaName (schema : Dict) : PyStr :=
  match Dict.get? schema (py "name") with
  | some (.str name) => name
  | _ => []

/-- `from_mcp_schema`. -/
def ToolAdapter.fromMcpSchema (serverName : PyStr) (schema : Dict) : Except PyExc ToolAdapter :=
  if schemaName schema = [] then
    .error ⟨py "ValueError", py "MCP tool schema misses a string 'name': " ++ pyRepr (.obj schema)⟩
  else
    ToolAdapter.new (schemaName schema) serverName
      (some (orElse (Dict.get? schema (py "description")) (.str [])))
      (Dict.get? schema (py "inputSchema"))

/-- `_extract_output`: a single text block is its text. -/
def extractOutput : Option Json → Json
  | some (.arr [.obj block]) =>
      if Dict.get? block (py "type") = some (.str (py "text")) then
        (Dict.get? block (py "text")).getD (.str [])
      else .arr [.obj block]
  | some (.arr (x :: xs)) => .arr (x :: xs)
  | _ => .str []

theorem extractOutput_block (block : Dict) : extractOutput (some (.arr [.obj block])) =
    if Dict.get? block (py "type") = some (.str (py "text")) then
      (Dict.get? block (py "text")).getD (.str [])
    else .arr [.obj block] := rfl

/-- `_as_text`. -/
def asText : Json → PyStr
  | .str s => s
  | v => dumps false v

/-- The error of a call that failed. -/
def ToolAdapter.callFailed (a : ToolAdapter) (text : PyStr) : ToolResult :=
  .failed (py "MCP tool " ++ pyReprStr a.name ++ py " call failed: " ++ text)

/-- The error of a result that is no object. -/
def ToolAdapter.malformed (a : ToolAdapter) (result : Json) : ToolResult :=
  .failed (py "MCP tool " ++ pyReprStr a.name ++ py " returned a malformed result: " ++ pyRepr result)

/-- `str(exc)` of an `MCPServerError`. -/
def serverErrorText (code message : Json) : PyStr :=
  py "MCP server error " ++ strOf code ++ py ": " ++ strOf message

/-- `execute`, once the request has ended; a time-out's text names the method, the id and the
    deadline. -/
def ToolAdapter.execute (a : ToolAdapter) (timeoutText : PyStr) : Outcome → ToolResult
  | .timedOut => a.callFailed timeoutText
  | .clientError message => a.callFailed message
  | .serverError code message _ => a.callFailed (serverErrorText code message)
  | .returned (.obj result) =>
      let output := redactValue (extractOutput (Dict.get? result (py "content")))
      if ((Dict.get? result (py "isError")).map Json.truthy).getD false then
        .failed (if asText output = [] then py "MCP server reported a tool error" else asText output)
      else { output := output }
  | .returned v => a.malformed v

/-- What a response to a call of the tool becomes. -/
def ToolAdapter.answered (a : ToolAdapter) (timeoutText : PyStr) (id : Int) (r : Response) : ToolResult :=
  a.execute timeoutText
    ((handleIncoming id (py "tools/call") (.response r)).getD .timedOut)

theorem handleIncoming_response (id : Int) (method : PyStr) (r : Response) :
    handleIncoming id method (.response r) =
      if r.id ≠ .int id then some (.clientError (mismatchText method r.id (.int id)))
      else some r.answer.outcome := rfl

theorem ToolAdapter.answered_other (a : ToolAdapter) (timeoutText : PyStr) {id : Int} {r : Response}
    (h : r.id ≠ .int id) : a.answered timeoutText id r
      = a.callFailed (mismatchText (py "tools/call") r.id (.int id)) := by
  rw [answered, handleIncoming_response, if_pos h]
  rfl

theorem ToolAdapter.answered_own (a : ToolAdapter) (timeoutText : PyStr) (id : Int) (answer : Answer) :
    a.answered timeoutText id ⟨.int id, answer⟩ = a.execute timeoutText answer.outcome := by
  rw [answered, handleIncoming_response, if_neg (fun h => h rfl)]
  rfl

end Mcp
end KineticSdk
