/-
  KineticSdk.Mcp.Protocol

  The JSON-RPC messages of MCP, one JSON object a line.

  Which of the three kinds an object is follows from its keys.  A missing
  `params` and a null one are the same, in both directions.  The texts that
  Python's own errors add to a protocol error (of UTF-8 and of JSON) are left
  out.
-/

import KineticSdk.Py.JsonParse
import KineticSdk.Py.Repr
import KineticSdk.Py.Utf8

namespace KineticSdk
namespace Mcp

open Py

-- ============================================================================
-- Messages
-- ============================================================================

/-- `JSONRPC_VERSION`. -/
def JSONRPC_VERSION : PyStr := py "2.0"

/-- The id of a request, and of the response to it. -/
inductive MessageId where
  | int (n : Int)
  | str (s : PyStr)
  | null
deriving DecidableEq

/-- The id as JSON. -/
def MessageId.toJson : MessageId → Json
  | .int n => .int n
  | .str s => .str s
  | .null => .null

/-- What a response carries, `result` or `error`, never both. -/
inductive Answer where
  | result (v : Json)
  | error (e : Dict)
deriving DecidableEq

/-- `JsonRpcRequest`; `params` is null when there are none. -/
structure Request where
  id : MessageId
  method : PyStr
  params : Json := .null
deriving DecidableEq

/-- `JsonRpcNotification`. -/
structure Notification where
  method : PyStr
  params : Json := .null
deriving DecidableEq

/-- `JsonRpcResponse`. -/
structure Response where
  id : MessageId
  answer : Answer
deriving DecidableEq

/-- `JsonRpcMessage`. -/
inductive Message where
  | request (r : Request)
  | notification (n : Notification)
  | response (r : Response)
deriving DecidableEq

/-- `JsonRpcResponse.is_error`. -/
def Response.isError (r : Response) : Bool :=
  match r.answer with
  | .error _ => true
  | .result _ => false

/-- `JsonRpcResponse.make_error`, without `data`. -/
def Response.makeError (id : MessageId) (code : Int) (message : PyStr) : Response :=
  { id := id, answer := .error [(py "code", .int code), (py "message", .str message)] }

/-- The member for parameters, when there are any. -/
def paramsField (params : Json) : Dict :=
  if params = .null then [] else [(py "params", params)]

/-- `JsonRpcRequest.to_dict`. -/
def Request.toDict (r : Request) : Dict :=
  [(py "jsonrpc", .str JSONRPC_VERSION), (py "id", r.id.toJson), (py "method", .str r.method)]
    ++ paramsField r.params

/-- `JsonRpcNotification.to_dict`. -/
def Notification.toDict (n : Notification) : Dict :=
  [(py "jsonrpc", .str JSONRPC_VERSION), (py "method", .str n.method)] ++ paramsField n.params

/-- `JsonRpcResponse.to_dict`. -/
def Response.toDict (r : Response) : Dict :=
  [(py "jsonrpc", .str JSONRPC_VERSION), (py "id", r.id.toJson)]
    ++ match r.answer with
      | .error e => [(py "error", .obj e)]
      | .result v => [(py "result", v)]

/-- `message.to_dict()`. -/
def Message.toDict : Message → Dict
  | .request r => r.toDict
  | .notification n => n.toDict
  | .response r => r.toDict

/-- `encode`. -/
def encode (m : Message) : PyStr := dumps false (.obj m.toDict) ++ [10]

-- ============================================================================
-- Decoding
-- ============================================================================

/-- How decoding fails. -/
inductive DecodeError where
  /-- `MCPProtocolError`. -/
  | notUtf8
  | empty
  | invalidJson
  | malformed (detail : PyStr)
  /-- `ValueError` from `int()`, on a number with too many digits. -/
  | digits
  /-- `RecursionError`. -/
  | depth
deriving DecidableEq

/-- `_require`. -/
def require (cond : Bool) (detail : PyStr) : Except DecodeError Unit :=
  if cond then .ok () else .error (.malformed detail)

/-- `_validate_id`: an integer, a text or null, and not a boolean. -/
def validateId : Json → Except DecodeError MessageId
  | .int n => .ok (.int n)
  | .str s => .ok (.str s)
  | .null => .ok .null
  | v => .error (.malformed (py "'id' must be an int, str or null, got " ++ typeName v))

/-- `isinstance(v, int)`: booleans count. -/
def isIntValue : Option Json → Bool
  | some (.int _) | some (.bool _) => true
  | _ => false

/-- `isinstance(v, str)`. -/
def isStrValue : Option Json → Bool
  | some (.str _) => true
  | _ => false

/-- The response an object without a method is. -/
def decodeResponse (obj : Dict) : Except DecodeError Response := do
  match Dict.get? obj (py "id") with
  | none => .error (.malformed
      (py "neither 'method' nor 'id' present - not request, response or notification"))
  | some id =>
      let id ← validateId id
      match Dict.get? obj (py "result"), Dict.get? obj (py "error") with
      | some v, none => pure { id := id, answer := .result v }
      | none, some (.obj e) => do
          require (isIntValue (Dict.get? e (py "code")) && isStrValue (Dict.get? e (py "message")))
            (py "'error' must contain int 'code' and str 'message'")
          pure { id := id, answer := .error e }
      | none, some _ => .error (.malformed (py "'error' must be an object"))
      | _, _ => .error (.malformed (py "a response must carry exactly one of 'result' or 'error'"))

/-- The message an object is. -/
def decodeObject (obj : Dict) : Except DecodeError Message := do
  require (Dict.get? obj (py "jsonrpc") == some (.str JSONRPC_VERSION))
    (py "'jsonrpc' must be '2.0', got " ++ pyRepr ((Dict.get? obj (py "jsonrpc")).getD .null))
  match Dict.get? obj (py "method") with
  | some (.str method) =>
      require (method != []) (py "'method' must be a non-empty string")
      let params := (Dict.get? obj (py "params")).getD .null
      match Dict.get? obj (py "id") with
      | some id => do
          let id ← validateId id
          pure (.request { id := id, method := method, params := params })
      | none => pure (.notification { method := method, params := params })
  | some _ => .error (.malformed (py "'method' must be a non-empty string"))
  | none => do
      let r ← decodeResponse obj
      pure (.response r)

/-- The object a text is. -/
def parseLine (lim : Limits) (fl : FloatRepr) (s : PyStr) : Except DecodeError Dict :=
  if s = [] then .error .empty
  else
    match loads lim fl s with
    | .error .decode => .error .invalidJson
    | .error .digits => .error .digits
    | .error .depth => .error .depth
    | .ok (.obj obj) => .ok obj
    | .ok v => .error (.malformed (py "top-level value must be an object, got " ++ typeName v))

/-- `decode` on a text. -/
def decodeText (lim : Limits) (fl : FloatRepr) (line : PyStr) : Except DecodeError Message := do
  let obj ← parseLine lim fl (strip line)
  decodeObject obj

/-- A line as it is given to `decode`. -/
inductive Line where
  | text (s : PyStr)
  | bytes (bs : List Nat)

/-- `decode`. -/
def decode (lim : Limits) (fl : FloatRepr) : Line → Except DecodeError Message
  | .text s => decodeText lim fl s
  | .bytes bs =>
      match utf8Decode bs with
      | none => .error .notUtf8
      | some s => decodeText lim fl s

example : decode {} id (.text (py " \x7b\"jsonrpc\": \"2.0\", \"method\": \"ping\", \"id\": null\x7d\n")) =
    .ok (.request { id := .null, method := py "ping" }) := by decide +kernel

end Mcp
end KineticSdk
