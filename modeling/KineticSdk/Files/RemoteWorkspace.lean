/-
  KineticSdk.Files.RemoteWorkspace

  `RemoteAPIWorkspace` (`workspace/remote.py`) against the workspace routes of
  `AgentServer` (`server/app.py`).

  A call crosses as JSON: the request is ASCII, the answer is UTF-8.  The server
  turns an exception into a status and the client turns the status into an
  exception again, so of an exception only "not found" survives.
-/

import KineticSdk.Files.LocalWorkspace
import KineticSdk.Files.Mirror
import KineticSdk.Py.JsonFile

namespace KineticSdk
namespace Files

open Py Py.Os Lib.Steps

variable {σ : Type}

-- ============================================================================
-- The server
-- ============================================================================

/-- The workspace routes, less `run` and `list`. -/
inductive Route where
  | read
  | write
  | delete
  | listDirectory
deriving DecidableEq

/-- An answer. -/
structure Response where
  status : Nat
  body : PyStr

/-- `_send_json`, with `none` for a payload that cannot be encoded. -/
def sendJson (status : Nat) (payload : Json) : Option Response :=
  (dumpText payload).map fun body => ⟨status, body⟩

/-- An answer with an error text. -/
def sendError (status : Nat) (text : PyStr) : Option Response := sendJson status (.obj [(py "error", .str text)])

/-- The classes under `(OSError, ValueError, WorkspaceError)` that a workspace raises. -/
def caught : List String :=
  ["OSError", "IsADirectoryError", "NotADirectoryError", "FileExistsError", "PermissionError", "ValueError",
    "UnicodeEncodeError", "UnicodeDecodeError", "PathTraversalError", "WorkspaceError"]

/-- What `_workspace_post` makes of an exception.  One it does not catch ends the connection
    without an answer, as one does that is raised while answering. -/
def sendException (e : PyExc) : Option Response :=
  if PyExc.isA e ["FileNotFoundError"] then sendError 404 e.message
  else if PyExc.isA e caught then sendError 400 e.message
  else none

/-- The answer to an operation. -/
def sendResult : Except PyExc Json → Option Response
  | .error e => sendException e
  | .ok payload =>
      match sendJson 200 payload with
      | some response => some response
      | none => sendException ⟨py "UnicodeEncodeError", py "surrogates not allowed"⟩

/-- `body["path"]`, if it is a text that is not empty. -/
def filePath (body : Dict) : Option PyStr :=
  match Dict.get? body (py "path") with
  | some (.str path) => if path = [] then none else some path
  | _ => none

/-- `_workspace_post` with the workspace of the request. -/
def workspacePost (w : WorkspaceBase σ) (route : Route) (body : Dict) (files : σ) : Option Response × σ :=
  match route with
  | .read =>
      match filePath body with
      | none => (sendError 400 (py "'path' must be a non-empty string"), files)
      | some path => (sendResult ((w.readText path files).map fun text => .obj [(py "content", .str text)]), files)
  | .write =>
      match filePath body, Dict.get? body (py "content") with
      | some path, some (.str content) =>
          let (result, files) := w.writeText path content files
          (sendResult (result.map fun _ => .obj [(py "ok", .bool true)]), files)
      | _, _ => (sendError 400 (py "'path' and 'content' must be strings"), files)
  | .delete =>
      match filePath body with
      | none => (sendError 400 (py "'path' must be a non-empty string"), files)
      | some path =>
          let (result, files) := w.deleteFile path files
          (sendResult (result.map fun _ => .obj [(py "ok", .bool true)]), files)
  | .listDirectory =>
      match (Dict.get? body (py "path")).getD (.str (py ".")) with
      | .str path =>
          (sendResult ((w.listDirectory path files).map fun entries =>
            .obj [(py "entries", .arr (entries.map .str))]), files)
      | _ => (sendError 400 (py "'path' must be a string"), files)

/-- `AgentServer` on a workspace request: the workspaces it makes go by their id. -/
def serve (fl : FloatRepr) (workspaceFactory : PyStr → Except PyExc (WorkspaceBase σ)) (route : Route)
    (request : PyStr) (files : σ) : Option Response × σ :=
  match loads {} fl request with
  | .error _ => (sendError 400 (py "body must be JSON"), files)
  | .ok (.obj body) =>
      match (Dict.get? body (py "workspace_id")).getD (.str (py "default")) with
      | .str workspaceId =>
          if workspaceId = [] then (sendError 400 (py "'workspace_id' must be a non-empty string"), files)
          else
            match workspaceFactory workspaceId with
            | .ok w => workspacePost w route body files
            | .error e => (sendError 404 (py "workspace not found: " ++ e.message), files)
      | _ => (sendError 400 (py "'workspace_id' must be a non-empty string"), files)
  | .ok _ => (sendError 400 (py "body must be a JSON object"), files)

-- ============================================================================
-- The client
-- ============================================================================

/-- A `RemoteAPIWorkspace`, and the server it talks to. -/
structure RemoteAPIWorkspace (σ : Type) where
  workspaceId : PyStr
  floats : FloatRepr
  workspaceFactory : PyStr → Except PyExc (WorkspaceBase σ)

namespace RemoteAPIWorkspace

variable (r : RemoteAPIWorkspace σ)

/-- What `_post` makes of the answer. -/
def receive : Option Response → Except PyExc Dict
  | none => .error ⟨py "RemoteDisconnected", py "Remote end closed connection without response"⟩
  | some response =>
      if response.status = 404 then .error ⟨py "FileNotFoundError", response.body⟩
      else if 400 ≤ response.status then
        .error ⟨py "WorkspaceError",
          py "remote workspace error (" ++ natText response.status ++ py "): " ++ response.body⟩
      else
        match loads {} r.floats response.body with
        | .ok (.obj data) => .ok data
        | .ok _ => .error ⟨py "AttributeError", py "object has no attribute 'get'"⟩
        | .error _ =>
            .error ⟨py "WorkspaceError", py "remote workspace returned non-JSON response: " ++ response.body⟩

/-- `_post`. -/
def post (route : Route) (payload : Dict) (files : σ) : Except PyExc Dict × σ :=
  let request := dumps true (.obj ((py "workspace_id", .str r.workspaceId) :: payload))
  let (response, files) := serve r.floats r.workspaceFactory route request files
  (r.receive response, files)

/-- The error of an answer that is not the expected one. -/
def answerError (data : Dict) (text : PyStr) : PyExc :=
  ⟨py "WorkspaceError", match Dict.get? data (py "error") with | some (.str error) => error | _ => text⟩

/-- `read_text`.  The server sends a text. -/
def readText (path : PyStr) (files : σ) : Except PyExc PyStr := do
  let data ← (r.post .read [(py "path", .str path)] files).1
  match Dict.get? data (py "content") with
  | some (.str text) => .ok text
  | _ => .error (answerError data (py "failed to read " ++ pyReprStr path))

/-- `if not data.get("ok", False)`. -/
def confirm (text : PyStr) (data : Dict) : Except PyExc Unit :=
  if ((Dict.get? data (py "ok")).getD (.bool false)).truthy then .ok () else .error (answerError data text)

/-- `write_text`. -/
def writeText (path content : PyStr) (files : σ) : Except PyExc Unit × σ :=
  let (data, files) := r.post .write [(py "path", .str path), (py "content", .str content)] files
  (data.bind (confirm (py "failed to write " ++ pyReprStr path)), files)

/-- `delete_file`. -/
def deleteFile (path : PyStr) (files : σ) : Except PyExc Unit × σ :=
  let (data, files) := r.post .delete [(py "path", .str path)] files
  (data.bind (confirm (py "failed to delete " ++ pyReprStr path)), files)

/-- `list_directory`.  The server sends texts. -/
def listDirectory (path : PyStr) (files : σ) : Except PyExc (List PyStr) := do
  let data ← (r.post .listDirectory [(py "path", .str path)] files).1
  match Dict.get? data (py "entries") with
  | some (.arr entries) => .ok (entries.filterMap fun | .str entry => some entry | _ => none)
  | _ => .ok []

/-- The workspace as the tools see it. -/
def base : WorkspaceBase σ := ⟨r.readText, r.writeText, r.deleteFile, r.listDirectory⟩

end RemoteAPIWorkspace

-- ============================================================================
-- There and back
-- ============================================================================

variable {r : RemoteAPIWorkspace σ} {w : WorkspaceBase σ}

/-- The server has this workspace under the client's id. -/
structure Serves (r : RemoteAPIWorkspace σ) (w : WorkspaceBase σ) : Prop where
  factory : r.workspaceFactory r.workspaceId = .ok w
  notEmpty : r.workspaceId ≠ []
  crosses : TextOk true r.workspaceId

/-- The request reaches the workspace as it was sent. -/
theorem post_eq (hr : Serves r w) (route : Route) {payload : Dict}
    (hpayload : Readable true r.floats (.obj ((py "workspace_id", .str r.workspaceId) :: payload))) (files : σ) :
    r.post route payload files
      = (r.receive (workspacePost w route ((py "workspace_id", .str r.workspaceId) :: payload) files).1,
        (workspacePost w route ((py "workspace_id", .str r.workspaceId) :: payload) files).2) := by
  have hserve : serve r.floats r.workspaceFactory route
      (dumps true (.obj ((py "workspace_id", .str r.workspaceId) :: payload))) files
      = workspacePost w route ((py "workspace_id", .str r.workspaceId) :: payload) files := by
    unfold serve
    rw [loads_dumps hpayload]
    dsimp only
    rw [Dict.get?_cons, if_pos rfl, Option.getD_some]
    dsimp only
    rw [if_neg hr.notEmpty, hr.factory]
  unfold RemoteAPIWorkspace.post
  dsimp only
  rw [hserve]

theorem encodable_errorJson (text : PyStr) : (Json.obj [(py "error", .str text)]).encodable = encodable text := by
  show (encodable (py "error") && encodable text && true) = encodable text
  rw [Bool.and_true]
  rfl

/-- An error status becomes an exception that is no longer a directory's. -/
theorem receive_sendError {status : Nat} (hstatus : 400 ≤ status) (text : PyStr) :
    ∃ e', r.receive (sendError status text) = .error e' ∧ e'.type ≠ py "IsADirectoryError" ∧
      (e'.type = py "FileNotFoundError" → status = 404) ∧
      (status = 404 → encodable text = true → e'.type = py "FileNotFoundError") := by
  have hmissing : py "FileNotFoundError" ≠ py "IsADirectoryError" := by decide
  have hother : ∀ type ∈ [py "WorkspaceError", py "RemoteDisconnected"],
      type ≠ py "IsADirectoryError" ∧ type ≠ py "FileNotFoundError" := by decide
  unfold sendError sendJson dumpText
  rw [encodable_errorJson]
  split_ifs with hencode
  · dsimp only [Option.map_some, RemoteAPIWorkspace.receive]
    by_cases h404 : status = 404
    · rw [if_pos h404]
      exact ⟨_, rfl, hmissing, fun _ => h404, fun _ _ => rfl⟩
    · rw [if_neg h404, if_pos hstatus]
      obtain ⟨hdirectory, hfound⟩ := hother (py "WorkspaceError") (by simp)
      exact ⟨_, rfl, hdirectory, fun h => absurd h hfound, fun h => absurd h h404⟩
  · obtain ⟨hdirectory, hfound⟩ := hother (py "RemoteDisconnected") (by simp)
    exact ⟨_, rfl, hdirectory, fun h => absurd h hfound, fun _ h => absurd h hencode⟩

/-- An exception comes back, and a missing file as one. -/
theorem receive_sendException {e : PyExc}
    (hmissing : e.type = py "FileNotFoundError" → encodable e.message = true) :
    ∃ e', r.receive (sendException e) = .error e' ∧ Passed e e' := by
  have hisA : PyExc.isA e ["FileNotFoundError"] = true ↔ e.type = py "FileNotFoundError" := by
    unfold PyExc.isA
    simp only [List.any_cons, List.any_nil, Bool.or_false, beq_iff_eq]
  unfold sendException
  by_cases hfound : e.type = py "FileNotFoundError"
  · rw [if_pos (hisA.mpr hfound)]
    obtain ⟨e', he', hdirectory, -, hcode⟩ := receive_sendError (r := r) (by decide : 400 ≤ 404) e.message
    exact ⟨e', he', ⟨fun _ => hfound, fun _ => hcode rfl (hmissing hfound)⟩, hdirectory⟩
  · rw [if_neg fun h => hfound (hisA.mp h)]
    split_ifs
    · obtain ⟨e', he', hdirectory, hcode, -⟩ := receive_sendError (r := r) (Nat.le_refl 400) e.message
      exact ⟨e', he', ⟨fun h => absurd (hcode h) (by decide), fun h => absurd h hfound⟩, hdirectory⟩
    · exact ⟨_, rfl, ⟨fun h => absurd h (show py "RemoteDisconnected" ≠ py "FileNotFoundError" by decide),
        fun h => absurd h hfound⟩, show py "RemoteDisconnected" ≠ py "IsADirectoryError" by decide⟩

theorem receive_error (e : PyExc) : ∃ e', r.receive (sendException e) = .error e' := by
  unfold sendException
  split_ifs
  · obtain ⟨e', he', -⟩ := receive_sendError (r := r) (by decide : 400 ≤ 404) e.message
    exact ⟨e', he'⟩
  · obtain ⟨e', he', -⟩ := receive_sendError (r := r) (Nat.le_refl 400) e.message
    exact ⟨e', he'⟩
  · exact ⟨_, rfl⟩

/-- A payload that can be encoded comes back. -/
theorem receive_sendResult {data : Dict} (hencode : (Json.obj data).encodable = true)
    (hread : Readable false r.floats (.obj data)) : r.receive (sendResult (.ok (.obj data))) = .ok data := by
  have hsend : sendJson 200 (.obj data) = some ⟨200, dumps false (.obj data)⟩ := by
    unfold sendJson dumpText
    rw [if_pos hencode]
    rfl
  unfold sendResult
  dsimp only
  rw [hsend]
  dsimp only [RemoteAPIWorkspace.receive]
  rw [if_neg (by decide), if_neg (by decide), loads_dumps hread]

-- ============================================================================
-- Operations over the wire
-- ============================================================================

section Operations

variable {path : PyStr}

theorem readable_path (hr : Serves r w) (hpath : TextOk true path) :
    Readable true r.floats (.obj [(py "workspace_id", .str r.workspaceId), (py "path", .str path)]) :=
  ⟨show [py "workspace_id", py "path"].Nodup by decide, fun _ => ⟨by decide, by decide⟩, hr.crosses,
    fun _ => ⟨by decide, by decide⟩, hpath, trivial⟩

theorem readable_write (hr : Serves r w) (hpath : TextOk true path) {content : PyStr}
    (hcontent : TextOk true content) :
    Readable true r.floats
      (.obj [(py "workspace_id", .str r.workspaceId), (py "path", .str path), (py "content", .str content)]) :=
  ⟨show [py "workspace_id", py "path", py "content"].Nodup by decide, fun _ => ⟨by decide, by decide⟩,
    hr.crosses, fun _ => ⟨by decide, by decide⟩, hpath, fun _ => ⟨by decide, by decide⟩, hcontent, trivial⟩

theorem filePath_body (workspaceId path : PyStr) (rest : Dict) :
    filePath ((py "workspace_id", .str workspaceId) :: (py "path", .str path) :: rest)
      = if path = [] then none else some path := by
  unfold filePath
  rw [Dict.get?_cons, if_neg (by decide), Dict.get?_cons, if_pos rfl]

theorem receive_ok : r.receive (sendResult (.ok (.obj [(py "ok", .bool true)]))) = .ok [(py "ok", .bool true)] :=
  receive_sendResult rfl ⟨by decide, textOk_raw _, trivial, trivial⟩

/-- A read crosses, if what it returns can be encoded and so can the text of a missing file's
    error. -/
theorem readText_remote (hr : Serves r w) (hpath : TextOk true path) (hne : path ≠ []) (files : σ) :
    (∀ text, w.readText path files = .ok text → encodable text = true → r.readText path files = .ok text) ∧
      ∀ e, w.readText path files = .error e →
        (e.type = py "FileNotFoundError" → encodable e.message = true) →
        ∃ e', r.readText path files = .error e' ∧ Passed e e' := by
  have hpost : (r.post .read [(py "path", .str path)] files).1
      = r.receive (sendResult ((w.readText path files).map fun text => .obj [(py "content", .str text)])) := by
    rw [post_eq hr .read (readable_path hr hpath)]
    unfold workspacePost
    dsimp only
    rw [filePath_body, if_neg hne]
  unfold RemoteAPIWorkspace.readText
  rw [hpost]
  constructor
  · intro text hread hencode
    have hdata : (Json.obj [(py "content", .str text)]).encodable = true := by
      show (encodable (py "content") && encodable text && true) = true
      rw [hencode]
      rfl
    rw [hread]
    show (r.receive (sendResult (.ok (.obj [(py "content", .str text)])))).bind _ = _
    rw [receive_sendResult hdata ⟨by simp, textOk_raw _, textOk_raw _, trivial⟩]
    rfl
  · intro e hread hmessage
    obtain ⟨e', he', hpassed⟩ := receive_sendException (r := r) hmessage
    rw [hread]
    show ∃ e', (r.receive (sendException e)).bind _ = .error e' ∧ _
    rw [he']
    exact ⟨e', rfl, hpassed⟩

theorem writeText_remote (hr : Serves r w) (hpath : TextOk true path) (hne : path ≠ []) {text : PyStr}
    (htext : TextOk true text) (files : σ) :
    (∀ files', w.writeText path text files = (.ok (), files') → r.writeText path text files = (.ok (), files')) ∧
      ∀ e files', w.writeText path text files = (.error e, files') →
        ∃ e', r.writeText path text files = (.error e', files') := by
  have hpost : r.post .write [(py "path", .str path), (py "content", .str text)] files
      = (r.receive (sendResult ((w.writeText path text files).1.map fun _ => .obj [(py "ok", .bool true)])),
        (w.writeText path text files).2) := by
    rw [post_eq hr .write (readable_write hr hpath htext)]
    unfold workspacePost
    dsimp only
    rw [filePath_body, if_neg hne, Dict.get?_cons, if_neg (by decide), Dict.get?_cons, if_neg (by decide),
      Dict.get?_cons, if_pos rfl]
  unfold RemoteAPIWorkspace.writeText
  rw [hpost]
  constructor
  · intro files' hwrite
    rw [hwrite]
    show ((r.receive (sendResult (.ok (.obj [(py "ok", .bool true)])))).bind _, files') = _
    rw [receive_ok]
    rfl
  · intro e files' hwrite
    obtain ⟨e', he'⟩ := receive_error (r := r) e
    rw [hwrite]
    show ∃ e', ((r.receive (sendException e)).bind _, files') = (.error e', files')
    rw [he']
    exact ⟨e', rfl⟩

theorem deleteFile_remote (hr : Serves r w) (hpath : TextOk true path) (hne : path ≠ []) (files : σ) :
    (∀ files', w.deleteFile path files = (.ok (), files') → r.deleteFile path files = (.ok (), files')) ∧
      ∀ e files', w.deleteFile path files = (.error e, files') →
        ∃ e', r.deleteFile path files = (.error e', files') := by
  have hpost : r.post .delete [(py "path", .str path)] files
      = (r.receive (sendResult ((w.deleteFile path files).1.map fun _ => .obj [(py "ok", .bool true)])),
        (w.deleteFile path files).2) := by
    rw [post_eq hr .delete (readable_path hr hpath)]
    unfold workspacePost
    dsimp only
    rw [filePath_body, if_neg hne]
  unfold RemoteAPIWorkspace.deleteFile
  rw [hpost]
  constructor
  · intro files' hdelete
    rw [hdelete]
    show ((r.receive (sendResult (.ok (.obj [(py "ok", .bool true)])))).bind _, files') = _
    rw [receive_ok]
    rfl
  · intro e files' hdelete
    obtain ⟨e', he'⟩ := receive_error (r := r) e
    rw [hdelete]
    show ∃ e', ((r.receive (sendException e)).bind _, files') = (.error e', files')
    rw [he']
    exact ⟨e', rfl⟩

theorem listDirectory_remote (hr : Serves r w) (hpath : TextOk true path) (files : σ) (e : PyExc)
    (h : w.listDirectory path files = .error e) : ∃ e', r.listDirectory path files = .error e' := by
  obtain ⟨e', he'⟩ := receive_error (r := r) e
  have hpost : (r.post .listDirectory [(py "path", .str path)] files).1 = .error e' := by
    rw [post_eq hr .listDirectory (readable_path hr hpath)]
    unfold workspacePost
    dsimp only
    rw [Dict.get?_cons, if_neg (by decide), Dict.get?_cons, if_pos rfl, Option.getD_some]
    dsimp only
    rw [h]
    exact he'
  unfold RemoteAPIWorkspace.listDirectory
  rw [hpost]
  exact ⟨e', rfl⟩

/-- The server refuses an empty path. -/
theorem refused_remote (hr : Serves r w) (files : σ) :
    (∃ e, r.readText [] files = .error e ∧ e.type ≠ py "FileNotFoundError" ∧ e.type ≠ py "IsADirectoryError") ∧
      (∀ text, TextOk true text → ∃ e, r.writeText [] text files = (.error e, files)) ∧
      ∃ e, r.deleteFile [] files = (.error e, files) := by
  have hempty : TextOk true [] := fun _ => ⟨fun _ h => absurd h List.not_mem_nil, rfl⟩
  refine ⟨?_, fun text htext => ?_, ?_⟩
  · obtain ⟨e, he, hdirectory, hcode, -⟩ :=
      receive_sendError (r := r) (Nat.le_refl 400) (py "'path' must be a non-empty string")
    have hpost : (r.post .read [(py "path", .str [])] files).1 = .error e := by
      rw [post_eq hr .read (readable_path hr hempty)]
      unfold workspacePost
      dsimp only
      rw [filePath_body, if_pos rfl]
      exact he
    unfold RemoteAPIWorkspace.readText
    rw [hpost]
    exact ⟨e, rfl, fun h => absurd (hcode h) (by decide), hdirectory⟩
  · obtain ⟨e, he, -⟩ :=
      receive_sendError (r := r) (Nat.le_refl 400) (py "'path' and 'content' must be strings")
    have hpost : r.post .write [(py "path", .str []), (py "content", .str text)] files = (.error e, files) := by
      rw [post_eq hr .write (readable_write hr hempty htext)]
      unfold workspacePost
      dsimp only
      rw [filePath_body, if_pos rfl]
      dsimp only
      rw [he]
    unfold RemoteAPIWorkspace.writeText
    rw [hpost]
    exact ⟨e, rfl⟩
  · obtain ⟨e, he, -⟩ :=
      receive_sendError (r := r) (Nat.le_refl 400) (py "'path' must be a non-empty string")
    have hpost : r.post .delete [(py "path", .str [])] files = (.error e, files) := by
      rw [post_eq hr .delete (readable_path hr hempty)]
      unfold workspacePost
      dsimp only
      rw [filePath_body, if_pos rfl]
      dsimp only
      rw [he]
    unfold RemoteAPIWorkspace.deleteFile
    rw [hpost]
    exact ⟨e, rfl⟩

end Operations

-- ============================================================================
-- A local workspace behind the server
-- ============================================================================

section Local

variable {r : RemoteAPIWorkspace Node} {w : LocalWorkspace} {tree : Node} {path : PyStr}

/-- `LocalWorkspace(root_path)` was made: its root is canonical and a directory. -/
structure LocalWorkspace.Opened (w : LocalWorkspace) (tree : Node) : Prop where
  canonical : Linkless w.links w.root
  isDir : IsDirAt tree w.root

theorem resolve_nil (hopened : w.Opened tree) : w.resolve [] = .ok w.root := by
  have hnull : ¬ (([] : PyStr).contains 0 = true) := by decide
  unfold LocalWorkspace.resolve
  rw [realpath_joinPath_nil hopened.canonical, if_neg hnull, List.any_nil, if_neg Bool.false_ne_true]
  dsimp only
  rw [if_pos (List.isPrefixOf_iff_prefix.mpr List.prefix_rfl)]

theorem encodable_of_scalar {text : PyStr} (h : ∀ c ∈ text, IsScalar c) : encodable text = true := by
  refine List.all_eq_true.mpr fun c hc => ?_
  have hscalar := (h c hc).2
  simp only [Bool.not_eq_true', Bool.and_eq_false_iff, decide_eq_false_iff_not]
  omega

theorem textOk_of_scalar {text : PyStr} (h : ∀ c ∈ text, IsScalar c) : TextOk true text := by
  refine fun _ => ⟨fun c hc => (h c hc).1, ?_⟩
  induction text with
  | nil => rfl
  | cons c text ih =>
      have hrest := ih fun d hd => h d (List.mem_cons_of_mem _ hd)
      cases text with
      | nil => rfl
      | cons d text =>
          have hc := (h c (List.mem_cons_self ..)).2
          have hhigh : isHighSurrogate c = false := by
            unfold isHighSurrogate
            simp only [Bool.and_eq_false_iff, decide_eq_false_iff_not]
            omega
          rw [pairFree, hhigh, hrest]
          rfl

theorem resolve_error {e : PyExc} (h : w.resolve path = .error e) : e.type ≠ py "FileNotFoundError" := by
  have hnames : ∀ type ∈ [py "ValueError", py "UnicodeEncodeError", py "PathTraversalError"],
      type ≠ py "FileNotFoundError" := by decide
  unfold LocalWorkspace.resolve at h
  dsimp only at h
  split_ifs at h
  · cases h
    exact hnames (py "ValueError") (by simp)
  · cases h
    exact hnames (py "UnicodeEncodeError") (by simp)
  · cases h
    exact hnames (py "PathTraversalError") (by simp)

/-- What Python writes about a file that is not found can be encoded: it is the path's `repr`. -/
theorem encodable_notFound (target : Path) : encodable (notFound tree target).message = true := by
  have hosError : ∀ type errno text, encodable (natText errno) = true → encodable (py text) = true →
      encodable (osError type errno text target).message = true := by
    intro type errno text herrno htext
    show encodable
      (py "[Errno " ++ natText errno ++ py "] " ++ py text ++ py ": " ++ pyReprStr (pathText target)) = true
    rw [encodable_append, encodable_append, encodable_append, encodable_append, encodable_append,
      encodable_pyReprStr, herrno, htext]
    rfl
  unfold notFound
  split_ifs
  · exact hosError _ _ _ (by decide) (by decide)
  · exact hosError _ _ _ (by decide) (by decide)
  · exact hosError _ _ _ (by decide) (by decide)

theorem readText_missing {e : PyExc} (h : w.readText path tree = .error e)
    (hmissing : e.type = py "FileNotFoundError") :
    encodable e.message = true := by
  unfold LocalWorkspace.readText at h
  cases hresolve : w.resolve path with
  | error e' =>
      rw [hresolve] at h
      cases h
      exact absurd hmissing (resolve_error hresolve)
  | ok target =>
      rw [hresolve] at h
      dsimp only [bind, Except.bind] at h
      split at h
      · split at h
        · cases h
        · cases h
          exact absurd hmissing (show py "UnicodeDecodeError" ≠ py "FileNotFoundError" by decide)
      · cases h
        exact absurd hmissing (show py "IsADirectoryError" ≠ py "FileNotFoundError" by decide)
      · cases h
        exact encodable_notFound target

/-- The root itself is a directory for every operation. -/
theorem root_refused (hopened : w.Opened tree) :
    (∃ e, w.readText [] tree = .error e ∧ e.type = py "IsADirectoryError") ∧
      (∀ text, ∃ e, w.writeText [] text tree = (.error e, tree)) ∧
      ∃ e, w.deleteFile [] tree = (.error e, tree) := by
  have hresolve := resolve_nil hopened
  obtain ⟨listable, entries, hdir⟩ := hopened.isDir
  refine ⟨?_, fun text => ?_, ?_⟩
  · unfold LocalWorkspace.readText
    rw [hresolve]
    refine ⟨osError "IsADirectoryError" 21 "Is a directory" w.root, ?_, rfl⟩
    dsimp only [bind, Except.bind]
    rw [hdir]
  · unfold LocalWorkspace.writeText
    rw [hresolve]
    dsimp only
    rw [put_dir hopened.isDir]
    exact ⟨_, rfl⟩
  · unfold LocalWorkspace.deleteFile
    rw [hresolve]
    dsimp only
    rw [hdir]
    exact ⟨_, rfl⟩

/-- Whatever is written or deleted, the root stays a directory, and what is read are texts that
    cross. -/
theorem keeping_local (w : LocalWorkspace) : Keeping w.base (fun tree => IsDirAt tree w.root) (TextOk true) where
  write path text tree hdir := by
    show IsDirAt (w.writeText path text tree).2 w.root
    unfold LocalWorkspace.writeText
    split
    · exact hdir
    · split
      · exact hdir
      · rename_i hput
        split_ifs <;> exact isDirAt_put hput hdir
  delete path tree hdir := by
    show IsDirAt (w.deleteFile path tree).2 w.root
    unfold LocalWorkspace.deleteFile
    split
    · exact hdir
    · split
      · exact hdir
      · split
        · rename_i hremove
          exact isDirAt_remove hremove hdir
        · exact hdir
  read path tree text h := textOk_of_scalar (readText_scalar h)
  empty := fun _ => ⟨fun _ h => absurd h List.not_mem_nil, rfl⟩

/-- The remote workspace mirrors the local one at every path that crosses. -/
theorem mirrors_local (hr : Serves r w.base) (hopened : w.Opened tree) (hpath : TextOk true path) :
    Mirrors w.base r.base path tree := by
  have hlist := listDirectory_remote hr hpath tree
  by_cases hne : path = []
  · subst hne
    obtain ⟨⟨e, hread, htype⟩, hwrite, hdelete⟩ := root_refused hopened
    obtain ⟨⟨e', hread', hmissing, hdirectory⟩, hwrite', hdelete'⟩ := refused_remote hr tree
    have hnames : py "IsADirectoryError" ≠ py "FileNotFoundError" := by decide
    refine ⟨fun text h => ?_, fun e₁ h => ?_, fun text _ files' h => ?_, fun text htext e₁ files' h => ?_,
      fun files' h => ?_, fun e₁ files' h => ?_, hlist⟩
    · cases hread.symm.trans h
    · cases hread.symm.trans h
      exact ⟨e', hread', ⟨fun h => absurd h hmissing, fun h => absurd (htype.symm.trans h) hnames⟩, hdirectory⟩
    · obtain ⟨e₁, hwrite⟩ := hwrite text
      cases hwrite.symm.trans h
    · obtain ⟨e₂, hwrite⟩ := hwrite text
      cases hwrite.symm.trans h
      exact hwrite' text htext
    · obtain ⟨e₁, hdelete⟩ := hdelete
      cases hdelete.symm.trans h
    · obtain ⟨e₂, hdelete⟩ := hdelete
      cases hdelete.symm.trans h
      exact hdelete'
  · obtain ⟨hread, hreadError⟩ := readText_remote hr hpath hne tree
    obtain ⟨hdelete, hdeleteError⟩ := deleteFile_remote hr hpath hne tree
    exact ⟨fun text h => hread text h (encodable_of_scalar (readText_scalar h)),
      fun e h => hreadError e h (readText_missing h),
      fun text htext => (writeText_remote hr hpath hne htext tree).1,
      fun text htext => (writeText_remote hr hpath hne htext tree).2, hdelete, hdeleteError, hlist⟩

-- ============================================================================
-- Runs
-- ============================================================================

variable (similar : PyStr → PyStr → Bool)

/-- No text of the call has a surrogate pair in two characters, and it is no view of a
    directory that can be listed. -/
structure Crosses (w : LocalWorkspace) (t : FileTool Node) (s : ToolState Node) (call : ToolCall) : Prop where
  path : TextOk true call.path
  text : ∀ text, t.written similar call s.files = some text → TextOk true text
  noListing : ∀ viewRange, call.action = .view viewRange →
    ∀ entries, w.listDirectory call.path s.files ≠ .ok entries

variable {similar}

/-- Calls that cross succeed and fail over the remote workspace as they do over the local one,
    with the same outputs, and leave the same files. -/
theorem remote_like_local (hr : Serves r w.base) (hopened : w.Opened tree) (maxViewLines : Nat)
    {calls : List ToolCall}
    (h : Meets ((FileTool.on w.base maxViewLines).after similar)
      (Crosses similar w (.on w.base maxViewLines)) ⟨tree, []⟩ calls) :
    List.Forall₂ Answers ((FileTool.on w.base maxViewLines).answers similar ⟨tree, []⟩ calls)
        ((FileTool.on r.base maxViewLines).answers similar ⟨tree, []⟩ calls) ∧
      (run ((FileTool.on r.base maxViewLines).after similar) ⟨tree, []⟩ calls).files
        = (run ((FileTool.on w.base maxViewLines).after similar) ⟨tree, []⟩ calls).files := by
  have hstart : Sound (fun tree => IsDirAt tree w.root) (TextOk true) (⟨tree, []⟩ : ToolState Node) :=
    ⟨hopened.isDir, fun path previous hslot => by cases hslot⟩
  have hkeep : ∀ s call, Sound (fun tree => IsDirAt tree w.root) (TextOk true) s →
      Sound (fun tree => IsDirAt tree w.root) (TextOk true)
        ((FileTool.on w.base maxViewLines).after similar s call) :=
    fun s call hs => execute_sound (keeping_local w) rfl hs call
  have hstep : ∀ s call, Sound (fun tree => IsDirAt tree w.root) (TextOk true) s →
      Crosses similar w (.on w.base maxViewLines) s call →
      Agrees ((FileTool.on w.base maxViewLines).execute similar call s)
        ((FileTool.on r.base maxViewLines).execute similar call s) := by
    intro s call hs hcall
    have hmirrors : Mirrors w.base r.base call.path s.files :=
      mirrors_local hr ⟨hopened.canonical, hs.files⟩ hcall.path
    exact execute_agrees (t := .on w.base maxViewLines) hmirrors rfl hs.slots hcall.text hcall.noListing
  obtain ⟨hanswers, hstate⟩ := runs_agree hkeep hstep h hstart
  exact ⟨hanswers, congrArg ToolState.files hstate⟩

/-- A client of the workspace of one directory. -/
def remoteWorkspace : RemoteAPIWorkspace Node where
  workspaceId := py "default"
  floats := fun _ => py "1.5"
  workspaceFactory workspaceId :=
    if workspaceId = py "default" then .ok localWorkspace.base
    else .error ⟨py "WorkspaceError", py "unknown workspace"⟩

theorem serves_remoteWorkspace : Serves remoteWorkspace localWorkspace.base :=
  ⟨rfl, by decide, fun _ => ⟨by decide, by decide⟩⟩

theorem opened_localWorkspace : localWorkspace.Opened oneFile := ⟨linkless_nil oneFile, true, _, rfl⟩

theorem remote_like_local_edit :
    List.Forall₂ Answers
        ((FileTool.on localWorkspace.base 2000).answers neverSimilar ⟨oneFile, []⟩
          [replaceAt (py "a") "x" "y", ⟨py "a", .view none⟩, ⟨py "a", .undoEdit⟩])
        ((FileTool.on remoteWorkspace.base 2000).answers neverSimilar ⟨oneFile, []⟩
          [replaceAt (py "a") "x" "y", ⟨py "a", .view none⟩, ⟨py "a", .undoEdit⟩]) ∧
      (run ((FileTool.on remoteWorkspace.base 2000).after neverSimilar) ⟨oneFile, []⟩
          [replaceAt (py "a") "x" "y", ⟨py "a", .view none⟩, ⟨py "a", .undoEdit⟩]).files
        = (run ((FileTool.on localWorkspace.base 2000).after neverSimilar) ⟨oneFile, []⟩
          [replaceAt (py "a") "x" "y", ⟨py "a", .view none⟩, ⟨py "a", .undoEdit⟩]).files := by
  have hpath : TextOk true (py "a") := fun _ => ⟨by decide, by decide⟩
  refine remote_like_local serves_remoteWorkspace opened_localWorkspace 2000
    ⟨⟨hpath, fun text h => ?_, fun _ h => (nomatch h)⟩, ⟨hpath, fun _ h => (nomatch h), fun _ _ entries h => ?_⟩,
      ⟨hpath, fun _ h => (nomatch h), fun _ h => (nomatch h)⟩, trivial⟩
  · have hwritten : (FileTool.on localWorkspace.base 2000).written neverSimilar (replaceAt (py "a") "x" "y") oneFile
        = some (py "y") := by decide
    cases hwritten.symm.trans h
    exact fun _ => ⟨by decide, by decide⟩
  · cases h

/-- The root is listed locally and refused remotely. -/
theorem remote_view_directory :
    ((FileTool.on localWorkspace.base 2000).execute neverSimilar ⟨py ".", .view none⟩ ⟨oneFile, []⟩).1
        = .success (py "a") ∧
      ((FileTool.on remoteWorkspace.base 2000).execute neverSimilar ⟨py ".", .view none⟩ ⟨oneFile, []⟩).1.isSuccess
        = false := by
  refine ⟨by decide, ?_⟩
  have hpath : TextOk true (py ".") := fun _ => ⟨by decide, by decide⟩
  have hmirrors : Mirrors localWorkspace.base remoteWorkspace.base (py ".") oneFile :=
    mirrors_local serves_remoteWorkspace opened_localWorkspace hpath
  have hview : ((FileTool.on remoteWorkspace.base 2000).view (py ".") none oneFile).isSuccess = false :=
    view_directory_fails (t := .on localWorkspace.base 2000) (s := ⟨oneFile, []⟩) hmirrors
      (e := osError "IsADirectoryError" 21 "Is a directory" []) rfl rfl none
  unfold FileTool.execute
  rw [if_neg (show ¬ (isInternalSnapshotPath (py ".") = true) by decide)]
  unfold FileTool.handle
  dsimp only
  generalize (FileTool.on remoteWorkspace.base 2000).view (py ".") none oneFile = outcome at hview ⊢
  cases outcome with
  | success output => cases hview
  | error message => rfl
  | raised e => exact report_fails e

end Local

end Files
end KineticSdk
