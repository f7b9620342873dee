/-
  KineticSdk.Server.Http

  The request handler of `AgentServer` (`server/app.py`, `_make_handler`).

  The handler is a computation over what it has sent and what it has asked the
  connection for; an exception that leaves it closes the connection without
  another word.  What the handler calls is given by a `HttpServer`: the runs
  and their records, the workspaces, and the bounds of the interpreter.  The
  client keeps its connection open, so writing to it does not fail.
-/

import KineticSdk.Py.JsonParse
import KineticSdk.Py.Str
import KineticSdk.Py.Utf8
import KineticSdk.Server.Runs

namespace KineticSdk
namespace Server
namespace Http

open Py

-- ============================================================================
-- Requests and replies
-- ============================================================================

/-- The methods the handler knows, and all others. -/
inductive Method where
  | get
  | post
  | other
deriving DecidableEq

/-- A parsed request, with the bytes behind its headers. -/
structure Request where
  method : Method
  path : PyStr
  authorization : Option PyStr := none
  contentLength : Option PyStr := none
  upgrade : Option PyStr := none
  secWebSocketKey : Option PyStr := none
  rfile : List (Fin 256) := []

/-- A status line with its JSON body, if it has one. -/
structure Reply where
  status : Nat
  payload : Option Json
  headers : List (PyStr × PyStr) := []
deriving DecidableEq

/-- What the connection is asked to read. -/
inductive Ask where
  | bytes (n : Nat)
  | toEnd
deriving DecidableEq

/-- What has been sent, and what has been asked for. -/
structure Io where
  sent : List Reply := []
  asked : List Ask := []

/-- The classes of exceptions the handler tells apart. -/
inductive ExcClass where
  | fileNotFoundError
  /-- Any other `OSError`. -/
  | osError
  | valueError
  | workspaceError
  | other
deriving DecidableEq

/-- An exception with its `str(exc)`. -/
structure Raised where
  cls : ExcClass
  text : PyStr
deriving DecidableEq

/-- Handler code. -/
abbrev H := EStateM Raised Io

-- ============================================================================
-- The server behind the handler
-- ============================================================================

/-- `CommandResult`. -/
structure CommandResult where
  output : PyStr
  exitCode : Int
  durationSeconds : Json
  timedOut : Bool := false
  truncated : Bool := false
  error : Option PyStr := none
  metadata : Py.Dict := []

/-- `WorkspaceBase`. -/
structure Workspace where
  runCommand : PyStr → Json → Option PyStr → Except Raised CommandResult
  readText : PyStr → Except Raised PyStr
  writeText : PyStr → PyStr → Except Raised Unit
  deleteFile : PyStr → Except Raised Unit
  listFiles : Option PyStr → Except Raised (List PyStr)
  listDirectory : PyStr → Except Raised (List PyStr)

/-- The arguments of `_run_agent`. -/
structure RunArguments where
  message : PyStr
  stream : Bool
  outputSchema : Option Py.Dict
  sessionId : Option PyStr

/-- What `_run_agent` returns; it catches what the agent raises. -/
structure RunRecord where
  runId : PyStr
  outcome : Runs.Outcome

/-- What the handler calls. -/
structure HttpServer where
  token : Option PyStr := none
  workspaceFactory : Option (PyStr → Except Raised Workspace) := none
  /-- `_health_snapshot`. -/
  healthSnapshot : Nat × Nat := (0, 0)
  /-- `_runs.get(run_id)`. -/
  runs : PyStr → Option Py.Dict
  runAgent : RunArguments → RunRecord
  /-- The conversation in frames, once the connection is upgraded. -/
  frames : List (Fin 256) → Except Raised Unit
  limits : Limits := {}
  floats : FloatRepr
  /-- `rfile.read(n)` raises a `ValueError`, for a negative `n`. -/
  refuses : Int → Bool
  /-- `rfile.read(-1)` reads to the end. -/
  toEnd : refuses (-1) = false

-- ============================================================================
-- Sending
-- ============================================================================

/-- The `str` of a `UnicodeEncodeError`. -/
def encodeErrorText : PyStr := py "'utf-8' codec can't encode: surrogates not allowed"

/-- A status line is sent. -/
def sendReply (reply : Reply) : H Unit := modify fun io => { io with sent := io.sent ++ [reply] }

/-- `_send_json`.  The payload is encoded before the status line is sent. -/
def sendJson (status : Nat) (payload : Json) (headers : List (PyStr × PyStr) := []) : H Unit :=
  if payload.encodable then sendReply ⟨status, some payload, headers⟩
  else throw ⟨.valueError, encodeErrorText⟩

/-- The payload of an error. -/
def errorPayload (text : PyStr) : Json := .obj [(py "error", .str text)]

/-- Return the value or raise the exception. -/
def lift {α : Type} : Except Raised α → H α
  | .ok a => pure a
  | .error e => throw e

-- ============================================================================
-- Bodies
-- ============================================================================

/-- `MAX_BODY_BYTES`. -/
def maxBodyBytes : Nat := 1024 * 1024

/-- `int(text)`, with `none` for a `ValueError`; header texts are Latin-1, whose
    digits are the ASCII ones. -/
def intOf (lim : Limits) (text : PyStr) : Option Int :=
  let (neg, body) := match strip text with
    | 45 :: rest => (true, rest)
    | 43 :: rest => (false, rest)
    | rest => (false, rest)
  let groups := splitChar 95 body
  if groups.all fun group => group != [] && group.all isDigitChar then
    if lim.digits.any (· < groups.flatten.length) then none
    else some (if neg then -(digitsValue groups.flatten : Int) else digitsValue groups.flatten)
  else none

/-- `int(self.headers.get("Content-Length") or 0)`. -/
def lengthOf (lim : Limits) (r : Request) : Option Int :=
  match r.contentLength with
  | none | some [] => some 0
  | some text => intOf lim text

/-- The bytes `rfile.read(n)` returns. -/
def readBytes (n : Int) (rfile : List (Fin 256)) : List Nat :=
  (if n < 0 then rfile else rfile.take n.toNat).map Fin.val

/-- `rfile.read(n)`. -/
def read (s : HttpServer) (n : Int) (rfile : List (Fin 256)) : H (List Nat) :=
  if n < 0 ∧ s.refuses n then throw ⟨.valueError, py "read length must be non-negative or -1"⟩
  else do
    modify fun io => { io with asked := io.asked ++ [if n < 0 then .toEnd else .bytes n.toNat] }
    pure (readBytes n rfile)

/-- `json.loads(raw.decode("utf-8"))`; a `UnicodeDecodeError` and a
    `JSONDecodeError` are handled alike. -/
def loadBody (s : HttpServer) (raw : List Nat) : Except LoadsError Json :=
  match utf8Decode raw with
  | none => .error .decode
  | some text => loads s.limits s.floats text

/-- What reading a body raises that is no decoding error. -/
def loadsRaised : LoadsError → Raised
  | .digits => ⟨.valueError, py "Exceeds the limit for integer string conversion"⟩
  | .depth | .decode => ⟨.other, py "maximum recursion depth exceeded"⟩

/-- `_read_body`: `None`, or a dictionary, which is empty where an error has been
    answered. -/
def readBody (s : HttpServer) (r : Request) : H (Option Py.Dict) := do
  match lengthOf s.limits r with
  | none => pure none
  | some length =>
      if length > maxBodyBytes then
        sendJson 413 (errorPayload (py "request body too large"))
        pure (some [])
      else
        -- without a length the body is `b"\x7b\x7d"`
        let raw ← if length ≠ 0 then read s length r.rfile else pure [123, 125]
        match loadBody s raw with
        | .error .decode =>
            sendJson 400 (errorPayload (py "body must be JSON"))
            pure (some [])
        | .error e => throw (loadsRaised e)
        | .ok (.obj data) => pure (some data)
        | .ok _ =>
            sendJson 400 (errorPayload (py "body must be a JSON object"))
            pure (some [])

-- ============================================================================
-- Workspaces
-- ============================================================================

/-- `workspace_id`, when it is a non-empty string. -/
def workspaceId (body : Py.Dict) : Option PyStr :=
  match (Dict.get? body (py "workspace_id")).getD (.str (py "default")) with
  | .str id => if id = [] then none else some id
  | _ => none

/-- `_workspace`. -/
def workspaceOf (s : HttpServer) (body : Py.Dict) : H (Option Workspace) :=
  match s.workspaceFactory with
  | none => do
      sendJson 404 (errorPayload (py "workspace API is not configured"))
      pure none
  | some factory =>
      match workspaceId body with
      | none => do
          sendJson 400 (errorPayload (py "'workspace_id' must be a non-empty string"))
          pure none
      | some id =>
          match factory id with
          | .ok workspace => pure (some workspace)
          | .error e =>
              if e.cls = .valueError ∨ e.cls = .workspaceError then do
                sendJson 404 (errorPayload (py "workspace not found: " ++ e.text))
                pure none
              else throw e

/-- The six workspace endpoints. -/
def workspacePaths : List PyStr :=
  [py "/workspace/run", py "/workspace/read", py "/workspace/write", py "/workspace/delete",
    py "/workspace/list", py "/workspace/list-directory"]

/-- `isinstance(v, (int, float)) and not v <= 0`. -/
def isPositive : Json → Bool
  | .bool b => b
  | .int n => 0 < n
  | .float r => r.head? != some 45 && r != py "0.0"
  | _ => false

/-- A non-empty string. -/
def nonEmpty : Json → Option PyStr
  | .str s => if s = [] then none else some s
  | _ => none

/-- A string or `None`; the outer `none` is for anything else. -/
def strOrNone : Json → Option (Option PyStr)
  | .null => some none
  | .str s => some (some s)
  | _ => none

/-- A string that is not blank. -/
def notBlank : Json → Option PyStr
  | .str s => if strip s = [] then none else some s
  | _ => none

/-- The payload of `/workspace/run`. -/
def CommandResult.payload (result : CommandResult) : Json :=
  .obj [(py "output", .str result.output), (py "exit_code", .int result.exitCode),
    (py "duration_seconds", result.durationSeconds), (py "timed_out", .bool result.timedOut),
    (py "truncated", .bool result.truncated), (py "error", (result.error.map .str).getD .null),
    (py "metadata", .obj result.metadata)]

/-- The payload `{"ok": True}`. -/
def okPayload : Json := .obj [(py "ok", .bool true)]

/-- What a workspace endpoint asks its workspace for, or why the body is refused. -/
def operation (path : PyStr) (body : Py.Dict) : Except PyStr (Workspace → Except Raised Json) :=
  let value := fun key => (Dict.get? body (py key)).getD .null
  if path = py "/workspace/run" then
    match notBlank (value "command") with
    | none => .error (py "'command' must be a non-empty string")
    | some command =>
        if value "timeout" ≠ .null ∧ ¬ isPositive (value "timeout") then
          .error (py "'timeout' must be a positive number")
        else
          match strOrNone (value "cwd") with
          | none => .error (py "'cwd' must be a string or null")
          | some cwd => .ok fun ws => (ws.runCommand command (value "timeout") cwd).map CommandResult.payload
  else if path = py "/workspace/read" then
    match nonEmpty (value "path") with
    | none => .error (py "'path' must be a non-empty string")
    | some file => .ok fun ws => (ws.readText file).map fun text => .obj [(py "content", .str text)]
  else if path = py "/workspace/write" then
    match nonEmpty (value "path"), value "content" with
    | some file, .str content => .ok fun ws => (ws.writeText file content).map fun _ => okPayload
    | _, _ => .error (py "'path' and 'content' must be strings")
  else if path = py "/workspace/delete" then
    match nonEmpty (value "path") with
    | none => .error (py "'path' must be a non-empty string")
    | some file => .ok fun ws => (ws.deleteFile file).map fun _ => okPayload
  else if path = py "/workspace/list" then
    match strOrNone (value "pattern") with
    | none => .error (py "'pattern' must be a string or null")
    | some pattern =>
        .ok fun ws => (ws.listFiles pattern).map fun files => .obj [(py "files", .arr (files.map .str))]
  else
    match (Dict.get? body (py "path")).getD (.str (py ".")) with
    | .str file =>
        .ok fun ws => (ws.listDirectory file).map fun entries => .obj [(py "entries", .arr (entries.map .str))]
    | _ => .error (py "'path' must be a string")

/-- The handlers of `_workspace_post`. -/
def answerRaised (e : Raised) : H Unit :=
  match e.cls with
  | .fileNotFoundError => sendJson 404 (errorPayload e.text)
  | .osError | .valueError | .workspaceError => sendJson 400 (errorPayload e.text)
  | .other => throw e

/-- `_workspace_post`. -/
def workspacePost (s : HttpServer) (path : PyStr) (body : Py.Dict) : H Unit := do
  match ← workspaceOf s body with
  | none => pure ()
  | some workspace =>
      tryCatch
        (match operation path body with
          | .error message => sendJson 400 (errorPayload message)
          | .ok op => lift (op workspace) >>= fun payload => sendJson 200 payload)
        answerRaised

-- ============================================================================
-- Runs
-- ============================================================================

/-- `dict(record)`. -/
def RunRecord.payload (record : RunRecord) : Json :=
  .obj (record.outcome.update (Runs.newRecord record.runId))

/-- `record["status"] == "completed"`. -/
def RunRecord.completed (record : RunRecord) : Bool :=
  match record.outcome with
  | .completed .. => true
  | .failed _ => false

/-- What `POST /runs` runs, or why the body is refused. -/
def runsArguments (body : Py.Dict) : Except PyStr RunArguments :=
  let value := fun key => (Dict.get? body (py key)).getD .null
  match notBlank (value "message") with
  | none => .error (py "'message' must be a non-empty string")
  | some message =>
      match value "session_id" with
      | .null | .str (_ :: _) =>
          let sessionId := nonEmpty (value "session_id")
          match value "output_schema" with
          | .null => .ok ⟨message, (value "stream").truthy, none, sessionId⟩
          | .obj schema => .ok ⟨message, (value "stream").truthy, some schema, sessionId⟩
          | _ => .error (py "'output_schema' must be an object")
      | _ => .error (py "'session_id' must be a non-empty string or null")

/-- The content of a user's message. -/
def userContent : Json → Option PyStr
  | .obj item =>
      match Dict.get? item (py "role"), Dict.get? item (py "content") with
      | some (.str role), some (.str content) => if role = py "user" then some content else none
      | _, _ => none
  | _ => none

/-- What `_openai_completion` runs, or why the body is refused. -/
def chatArguments (body : Py.Dict) : Except PyStr RunArguments :=
  let value := fun key => (Dict.get? body (py key)).getD .null
  if value "stream" = .bool true then .error (py "streaming not yet supported on this endpoint")
  else
    match nonEmpty (value "model") with
    | none => .error (py "'model' must be a non-empty string")
    | some model =>
        match value "messages" with
        | .arr messages =>
            match notBlank ((messages.reverse.findSome? userContent).elim .null .str) with
            | none => .error (py "'messages' must contain a non-empty user message")
            | some message => .ok ⟨message, false, none, some model⟩
        | _ => .error (py "'messages' must be an array")

/-- A count of a usage snapshot, which holds integers. -/
def tokenCount (usage : Json) (key : String) : Int :=
  match usage with
  | .obj counts =>
      match Dict.get? counts (py key) with
      | some (.int n) => n
      | _ => 0
  | _ => 0

/-- The reply to a run of `POST /runs`. -/
def runsReply (record : RunRecord) : Nat × Json := (if record.completed then 200 else 500, record.payload)

/-- The reply to a run of `_openai_completion`. -/
def chatReply (model : PyStr) (record : RunRecord) : Nat × Json :=
  match record.outcome with
  | .failed _ => (500, record.payload)
  | .completed final _ usage =>
      (200, .obj [(py "id", .str (py "chatcmpl-" ++ record.runId)), (py "object", .str (py "chat.completion")),
        (py "model", .str model),
        (py "choices", .arr [.obj [(py "index", .int 0),
          (py "message", .obj [(py "role", .str (py "assistant")), (py "content", .str final)]),
          (py "finish_reason", .str (py "stop"))]]),
        (py "usage", .obj [(py "prompt_tokens", .int (tokenCount usage "input_tokens")),
          (py "completion_tokens", .int (tokenCount usage "output_tokens")),
          (py "total_tokens", .int (tokenCount usage "input_tokens" + tokenCount usage "output_tokens"))])])

/-- A body is refused, or its run is made and answered. -/
def answerRun (s : HttpServer) (reply : RunArguments → RunRecord → Nat × Json) :
    Except PyStr RunArguments → H Unit
  | .error message => sendJson 400 (errorPayload message)
  | .ok args => sendJson (reply args (s.runAgent args)).1 (reply args (s.runAgent args)).2

/-- `_openai_completion`. -/
def openaiCompletion (s : HttpServer) (body : Py.Dict) : H Unit :=
  answerRun s (fun args => chatReply (args.sessionId.getD [])) (chatArguments body)

-- ============================================================================
-- Routes
-- ============================================================================

/-- `_authed`. -/
def authed (s : HttpServer) (r : Request) : Bool :=
  match s.token with
  | none => true
  | some token => r.authorization = some (py "Bearer " ++ token)

/-- The key of a WebSocket upgrade. -/
def upgradeKey (r : Request) : Option PyStr :=
  if ((r.upgrade.getD []).map fun c => if 65 ≤ c ∧ c ≤ 90 then c + 32 else c) = py "websocket" then
    r.secWebSocketKey.filter (· != [])
  else none

/-- `_websocket_run`.  Behind the upgrade only frames are sent. -/
def websocketRun (s : HttpServer) (r : Request) : H Unit :=
  match upgradeKey r with
  | none => sendJson 400 (errorPayload (py "websocket upgrade required"))
  | some key =>
      if key.all (· < 128) then do
        sendReply ⟨101, none, []⟩
        lift (s.frames r.rfile)
      else throw ⟨.valueError, py "'ascii' codec can't encode: ordinal not in range(128)"⟩

/-- The path of the WebSocket endpoint. -/
def streamPath : PyStr := py "/runs/stream"

/-- `path.rsplit("/", 1)[-1]`. -/
def lastSegment (path : PyStr) : PyStr := (path.reverse.takeWhile (· != 47)).reverse

/-- `_do_get`. -/
def doGet (s : HttpServer) (r : Request) : H Unit :=
  if r.path = py "/health" then
    sendJson 200 (.obj [(py "status", .str (py "ok")), (py "active_sessions", .int s.healthSnapshot.1),
      (py "in_flight_requests", .int s.healthSnapshot.2)])
  else if ¬ authed s r then sendJson 401 (errorPayload (py "unauthorized"))
  else if r.path = streamPath then websocketRun s r
  else if startsWith (py "/runs/") r.path then
    match s.runs (lastSegment r.path) with
    | none => sendJson 404 (errorPayload (py "run not found"))
    | some record => sendJson 200 (.obj record)
  else sendJson 404 (errorPayload (py "not found"))

/-- The path of the run endpoint. -/
def runsPath : PyStr := py "/runs"

/-- The path of the gateway. -/
def chatPath : PyStr := py "/v1/chat/completions"

/-- What `_do_post` does with a body that is not empty. -/
def dispatch (s : HttpServer) (path : PyStr) (body : Py.Dict) : H Unit :=
  if path ∈ workspacePaths then workspacePost s path body
  else if path = chatPath then openaiCompletion s body
  else answerRun s (fun _ => runsReply) (runsArguments body)

/-- `_do_post`. -/
def doPost (s : HttpServer) (r : Request) : H Unit :=
  if ¬ authed s r then sendJson 401 (errorPayload (py "unauthorized"))
  else if r.path ∉ [runsPath, chatPath] ∧ r.path ∉ workspacePaths then
    sendJson 404 (errorPayload (py "not found"))
  else readBody s r >>= fun body =>
    match body with
    | none | some [] => pure ()
    | some (item :: rest) => dispatch s r.path (item :: rest)

/-- The answers of `_begin_request` and `_allow_request`. -/
structure Admission where
  /-- Why the request is not accepted. -/
  refused : Option PyStr := none
  allowed : Bool := true
  retryAfter : Int := 0

/-- `_handle_request`, and what the base class does with other methods. -/
def handleRequest (s : HttpServer) (admission : Admission) (r : Request) : H Unit :=
  let guarded := fun operation : H Unit =>
    match admission.refused with
    | some reason => sendJson 503 (errorPayload reason)
    | none =>
        if admission.allowed then operation
        else sendJson 429 (errorPayload (py "rate_limited")) [(py "Retry-After", intText admission.retryAfter)]
  match r.method with
  | .get => guarded (doGet s r)
  | .post => guarded (doPost s r)
  | .other => sendReply ⟨501, none, []⟩

/-- The state a handler leaves, whether it returns or raises. -/
def ioOf {α : Type} : EStateM.Result Raised Io α → Io
  | .ok _ io | .error _ io => io

/-- What the client of an admitted request is sent. -/
def responses (s : HttpServer) (r : Request) : List Reply := (ioOf (handleRequest s {} r {})).sent

end Http
end Server
end KineticSdk
