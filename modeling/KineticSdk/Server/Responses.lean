/-
  KineticSdk.Server.Responses

  How many responses a request gets.

  `Sends k x` says that the handler code `x` sends `k` status lines, however it
  ends.  No request gets two, and `Unanswered` names the requests that get none:
  the four ways in which reading a body ends without a word, and the exceptions
  that no handler catches.  `responses_once_iff` says that there are no others.

  How much a request may have the handler read is at the end: a body is bounded
  above but not below, and a frame not at all.
-/

import KineticSdk.Lib.Wp
import KineticSdk.Server.Http
import KineticSdk.Server.WebSocket
import KineticSdk.Py.Repr
import Mathlib.Algebra.Group.Nat.Defs

namespace KineticSdk
namespace Server
namespace Http

open Py
open Lib (Wp)

-- ============================================================================
-- Counting
-- ============================================================================

/-- The code sends so many status lines, whether it returns or raises. -/
def Sends {α : Type} (k : Nat) (x : H α) : Prop :=
  ∀ io, Wp x (fun _ io' => io'.sent.length = io.sent.length + k)
    (fun _ io' => io'.sent.length = io.sent.length + k) io

section Rules

variable {α β : Type} {k : Nat}

theorem Sends.length {x : H α} (h : Sends k x) (io : Io) :
    (ioOf (x io)).sent.length = io.sent.length + k := by
  cases hrun : x io with
  | ok a io' => exact (h io).of_ok hrun
  | error e io' => exact (h io).of_error hrun

theorem sends_pure (a : α) : Sends 0 (pure a : H α) := fun _ => rfl

theorem sends_throw (e : Raised) : Sends 0 (throw e : H α) := fun _ => rfl

theorem sends_reply (reply : Reply) : Sends 1 (sendReply reply) := fun _ => List.length_append

theorem sends_lift (x : Except Raised α) : Sends 0 (lift x) := by
  cases x with
  | ok a => exact sends_pure a
  | error e => exact sends_throw e

/-- Code that goes on without sending anything more. -/
theorem Sends.then_none {x : H α} {f : α → H β} (hx : Sends k x) (hf : ∀ a, Sends 0 (f a)) :
    Sends k (x >>= f) := by
  intro io
  rw [Lib.wp_bind]
  refine (hx io).mono (fun a io' hio => ?_) (fun _ _ hio => hio)
  exact (hf a io').mono (fun _ io'' hio' => hio'.trans hio) (fun _ io'' hio' => hio'.trans hio)

/-- The payload of an error is encoded when its text can be. -/
theorem errorPayload_encodable (text : PyStr) : (errorPayload text).encodable = encodable text := by
  have hkey : encodable (py "error") = true := by decide
  show (encodable (py "error") && encodable text && true) = encodable text
  rw [hkey, Bool.true_and, Bool.and_true]

variable {payload : Json} {text : PyStr} (status : Nat) (headers : List (PyStr × PyStr))

theorem sends_json (h : payload.encodable = true) : Sends 1 (sendJson status payload headers) := by
  unfold sendJson
  rw [if_pos h]
  exact sends_reply _

theorem sendJson_raises (h : payload.encodable = false) :
    sendJson status payload headers = throw ⟨.valueError, encodeErrorText⟩ := by
  unfold sendJson
  rw [if_neg (by rw [h]; exact Bool.false_ne_true)]

/-- A payload that UTF-8 cannot encode is not sent. -/
theorem sends_json_none (h : payload.encodable = false) : Sends 0 (sendJson status payload headers) := by
  rw [sendJson_raises status headers h]
  exact sends_throw _

theorem sends_error (h : encodable text = true) : Sends 1 (sendJson status (errorPayload text) headers) :=
  sends_json status headers (by rw [errorPayload_encodable]; exact h)

theorem sends_error_none (h : encodable text = false) :
    Sends 0 (sendJson status (errorPayload text) headers) :=
  sends_json_none status headers (by rw [errorPayload_encodable]; exact h)

end Rules

-- ============================================================================
-- Workspaces
-- ============================================================================

/-- No handler of `_workspace` or `_workspace_post` turns the exception into a
    response: it is of another class, or its text cannot be encoded. -/
def Escapes (caught : List ExcClass) (e : Raised) : Prop := e.cls ∉ caught ∨ encodable e.text = false

/-- What the handler of `_workspace` catches. -/
def factoryCatches : List ExcClass := [.valueError, .workspaceError]

/-- What the handlers of `_workspace_post` catch. -/
def operationCatches : List ExcClass := [.fileNotFoundError, .osError, .valueError, .workspaceError]

/-- A body that a workspace endpoint does not answer. -/
inductive WorkspaceFails (s : HttpServer) (path : PyStr) (body : Py.Dict) : Prop where
  | factory {factory : PyStr → Except Raised Workspace} {id : PyStr} {e : Raised}
      (hfactory : s.workspaceFactory = some factory) (hid : workspaceId body = some id)
      (hraised : factory id = .error e) (hescapes : Escapes factoryCatches e)
  | operation {factory : PyStr → Except Raised Workspace} {id : PyStr} {workspace : Workspace}
      {op : Workspace → Except Raised Json} {e : Raised}
      (hfactory : s.workspaceFactory = some factory) (hid : workspaceId body = some id)
      (hreturned : factory id = .ok workspace) (hop : operation path body = .ok op)
      (hraised : op workspace = .error e) (hescapes : Escapes operationCatches e)

section Workspaces

variable {s : HttpServer} {path : PyStr} {body : Py.Dict}

/-- The texts of refused bodies are fixed. -/
theorem operation_message {message : PyStr} (h : operation path body = .error message) :
    encodable message = true := by
  unfold operation at h
  dsimp only at h
  split_ifs at h
  all_goals repeat' split at h
  all_goals first | (cases h; done) | (cases h; decide)

theorem answerRaised_sends {e : Raised} (h : ¬ Escapes operationCatches e) : Sends 1 (answerRaised e) := by
  have htext : encodable e.text = true := by
    by_contra hnot
    exact h (.inr (by simpa using hnot))
  have hcaught : e.cls ∈ operationCatches := by
    by_contra hnot
    exact h (.inl hnot)
  unfold answerRaised
  cases hcls : e.cls with
  | other =>
      rw [hcls] at hcaught
      exact absurd hcaught (by decide)
  | _ => exact sends_error _ [] htext

theorem answerRaised_none {e : Raised} (h : Escapes operationCatches e) : Sends 0 (answerRaised e) := by
  unfold answerRaised
  rcases h with hcls | htext
  · cases hc : e.cls with
    | other => exact sends_throw e
    | _ => exact absurd (by rw [hc]; decide) hcls
  · cases e.cls with
    | other => exact sends_throw e
    | _ => exact sends_error_none _ [] htext

/-- The `try` block of `_workspace_post`. -/
def attempt (op : Except PyStr (Workspace → Except Raised Json)) (workspace : Workspace) : H Unit :=
  match op with
  | .error message => sendJson 400 (errorPayload message)
  | .ok op => lift (op workspace) >>= fun payload => sendJson 200 payload

/-- What the block sends, or raises without having sent anything. -/
theorem tryCatch_sends {k : Nat} {x : H Unit} {handle : Raised → H Unit}
    (hx : ∀ io, Wp x (fun _ io' => io'.sent.length = io.sent.length + k)
      (fun e io' => io' = io ∧ Sends k (handle e)) io) : Sends k (tryCatch x handle) := by
  intro io
  rw [Lib.wp_tryCatch]
  refine (hx io).mono (fun _ _ hio => hio) ?_
  rintro e io' ⟨rfl, hhandle⟩
  exact hhandle _

theorem attempt_ok {workspace : Workspace} {op : Workspace → Except Raised Json} {payload : Json}
    (hop : operation path body = .ok op) (h : op workspace = .ok payload) :
    attempt (operation path body) workspace = sendJson 200 payload := by
  unfold attempt
  rw [hop]
  dsimp only
  rw [h]
  rfl

theorem attempt_error {workspace : Workspace} {op : Workspace → Except Raised Json} {e : Raised}
    (hop : operation path body = .ok op) (h : op workspace = .error e) :
    attempt (operation path body) workspace = throw e := by
  unfold attempt
  rw [hop]
  dsimp only
  rw [h]
  rfl

/-- A payload that cannot be encoded is answered like any other `ValueError`. -/
theorem attempt_sends {workspace : Workspace}
    (h : ∀ op e, operation path body = .ok op → op workspace = .error e → ¬ Escapes operationCatches e) :
    Sends 1 (tryCatch (attempt (operation path body) workspace) answerRaised) := by
  have hsend : ∀ (status : Nat) (payload : Json) (io : Io), payload.encodable = true →
      Wp (sendJson status payload) (fun _ io' => io'.sent.length = io.sent.length + 1)
        (fun e io' => io' = io ∧ Sends 1 (answerRaised e)) io := fun status payload io hp => by
    unfold sendJson
    rw [if_pos hp]
    exact List.length_append
  cases hop : operation path body with
  | error message =>
      refine tryCatch_sends fun io => hsend 400 _ io ?_
      rw [errorPayload_encodable]
      exact operation_message hop
  | ok op =>
      rw [← hop]
      cases hraised : op workspace with
      | error e =>
          rw [attempt_error hop hraised]
          exact tryCatch_sends fun io => ⟨rfl, answerRaised_sends (h op e hop hraised)⟩
      | ok payload =>
          rw [attempt_ok hop hraised]
          by_cases hp : payload.encodable = true
          · exact tryCatch_sends fun io => hsend 200 payload io hp
          · rw [sendJson_raises 200 [] (by simpa using hp)]
            refine tryCatch_sends fun io => ⟨rfl, answerRaised_sends ?_⟩
            rintro (hcls | htext)
            · exact hcls (by decide)
            · exact absurd htext (by decide)

theorem attempt_none {workspace : Workspace} {op : Workspace → Except Raised Json} {e : Raised}
    (hop : operation path body = .ok op) (hraised : op workspace = .error e)
    (h : Escapes operationCatches e) :
    Sends 0 (tryCatch (attempt (operation path body) workspace) answerRaised) := by
  rw [attempt_error hop hraised]
  exact tryCatch_sends fun io => ⟨rfl, answerRaised_none h⟩

/-- What `_workspace_post` does once `_workspace` has returned. -/
def withWorkspace (path : PyStr) (body : Py.Dict) : Option Workspace → H Unit
  | none => pure ()
  | some workspace => tryCatch (attempt (operation path body) workspace) answerRaised

theorem workspacePost_eq : workspacePost s path body = workspaceOf s body >>= withWorkspace path body := by
  unfold workspacePost withWorkspace
  congr 1

/-- Where no workspace is found, nothing follows the answer. -/
theorem unfound_sends {k status : Nat} {text : PyStr} (h : Sends k (sendJson status (errorPayload text))) :
    Sends k ((sendJson status (errorPayload text) >>= fun _ => pure none) >>= withWorkspace path body) := by
  intro io
  simp only [Lib.wp_bind, Lib.wp_pure]
  exact h io

theorem notFound_encodable (text : PyStr) :
    encodable (py "workspace not found: " ++ text) = encodable text := by
  have hfixed : encodable (py "workspace not found: ") = true := by decide
  rw [encodable_append, hfixed, Bool.true_and]

theorem workspacePost_sends (h : ¬ WorkspaceFails s path body) : Sends 1 (workspacePost s path body) := by
  rw [workspacePost_eq]
  unfold workspaceOf
  cases hfactory : s.workspaceFactory with
  | none => exact unfound_sends (sends_error 404 [] (by decide))
  | some factory =>
      cases hid : workspaceId body with
      | none => exact unfound_sends (sends_error 400 [] (by decide))
      | some id =>
          dsimp only
          cases hmade : factory id with
          | ok workspace =>
              exact attempt_sends fun op e hop hraised hescapes =>
                h (.operation hfactory hid hmade hop hraised hescapes)
          | error e =>
              have hcaught : ¬ Escapes factoryCatches e := fun hescapes =>
                h (.factory hfactory hid hmade hescapes)
              have hcls : e.cls = .valueError ∨ e.cls = .workspaceError := by
                by_contra hnot
                exact hcaught (.inl (by simpa [factoryCatches] using hnot))
              have htext : encodable e.text = true := by
                by_contra hnot
                exact hcaught (.inr (by simpa using hnot))
              dsimp only
              rw [if_pos hcls]
              exact unfound_sends (sends_error 404 [] (by rw [notFound_encodable]; exact htext))

theorem workspacePost_none (h : WorkspaceFails s path body) : Sends 0 (workspacePost s path body) := by
  rw [workspacePost_eq]
  cases h with
  | @factory factory id e hfactory hid hraised hescapes =>
      unfold workspaceOf
      simp only [hfactory, hid, hraised]
      by_cases hcls : e.cls = .valueError ∨ e.cls = .workspaceError
      · have htext : encodable e.text = false :=
          hescapes.resolve_left fun hnot => hnot (by simpa [factoryCatches] using hcls)
        rw [if_pos hcls]
        exact unfound_sends (sends_error_none 404 [] (by rw [notFound_encodable]; exact htext))
      · rw [if_neg hcls]
        exact fun io => rfl
  | @operation factory id workspace op e hfactory hid hreturned hop hraised hescapes =>
      unfold workspaceOf
      simp only [hfactory, hid, hreturned]
      exact attempt_none hop hraised hescapes

end Workspaces

-- ============================================================================
-- Runs
-- ============================================================================

section Runs

variable {s : HttpServer} {body : Py.Dict} {reply : RunArguments → RunRecord → Nat × Json}

theorem runsArguments_message {message : PyStr} (h : runsArguments body = .error message) :
    encodable message = true := by
  unfold runsArguments at h
  dsimp only at h
  repeat' split at h
  all_goals first | (cases h; done) | (cases h; decide)

theorem chatArguments_message {message : PyStr} (h : chatArguments body = .error message) :
    encodable message = true := by
  unfold chatArguments at h
  dsimp only at h
  repeat' split at h
  all_goals first | (cases h; done) | (cases h; decide)

theorem answerRun_sends {x : Except PyStr RunArguments}
    (hmessage : ∀ message, x = .error message → encodable message = true)
    (hrecord : ∀ args, x = .ok args → (reply args (s.runAgent args)).2.encodable = true) :
    Sends 1 (answerRun s reply x) := by
  unfold answerRun
  cases x with
  | error message => exact sends_error 400 [] (hmessage message rfl)
  | ok args => exact sends_json _ [] (hrecord args rfl)

theorem answerRun_none {args : RunArguments} (h : (reply args (s.runAgent args)).2.encodable = false) :
    Sends 0 (answerRun s reply (.ok args)) := sends_json_none _ [] h

end Runs

-- ============================================================================
-- Bodies
-- ============================================================================

/-- The bytes of a body. -/
def rawBody (length : Int) (rfile : List (Fin 256)) : List Nat :=
  if length ≠ 0 then readBytes length rfile else [123, 125]

/-- The body of a request is read, and this is what comes of it. -/
def BodyLoads (s : HttpServer) (r : Request) (result : Except LoadsError Json) : Prop :=
  ∃ length, lengthOf s.limits r = some length ∧ length ≤ maxBodyBytes ∧
    ¬ (length < 0 ∧ s.refuses length = true) ∧ loadBody s (rawBody length r.rfile) = result

section Bodies

variable {s : HttpServer} {r : Request} {f : Option Py.Dict → H Unit}

/-- What follows the loading of a body. -/
def withBody (result : Except LoadsError Json) : H (Option Py.Dict) :=
  match result with
  | .error .decode => do
      sendJson 400 (errorPayload (py "body must be JSON"))
      pure (some [])
  | .error e => throw (loadsRaised e)
  | .ok (.obj data) => pure (some data)
  | .ok _ => do
      sendJson 400 (errorPayload (py "body must be a JSON object"))
      pure (some [])

/-- A body that is read leaves what is sent to what comes of it. -/
theorem readBody_loads {k : Nat} {result : Except LoadsError Json} (h : BodyLoads s r result)
    (hsends : Sends k (withBody result >>= f)) : Sends k (readBody s r >>= f) := by
  obtain ⟨length, hlength, hle, hread, rfl⟩ := h
  unfold readBody
  rw [hlength]
  dsimp only
  rw [if_neg (by omega)]
  by_cases hzero : length ≠ 0
  · rw [if_pos hzero]
    unfold read
    rw [if_neg hread]
    have hraw : readBytes length r.rfile = rawBody length r.rfile := by
      unfold rawBody
      rw [if_pos hzero]
    intro io
    have hrest := hsends { io with asked := io.asked ++ [if length < 0 then .toEnd else .bytes length.toNat] }
    rw [hraw]
    exact hrest
  · rw [if_neg hzero]
    have hraw : rawBody length r.rfile = [123, 125] := by
      unfold rawBody
      rw [if_neg hzero]
    rw [hraw] at hsends
    exact hsends

/-- A body that is not read. -/
theorem readBody_unread (hbad : lengthOf s.limits r = none ∨
      ∃ n, lengthOf s.limits r = some n ∧ n < 0 ∧ s.refuses n = true)
    (hnone : Sends 0 (f none)) : Sends 0 (readBody s r >>= f) := by
  unfold readBody
  rcases hbad with hlength | ⟨n, hlength, hneg, hrefused⟩
  · rw [hlength]
    exact hnone
  · rw [hlength]
    dsimp only
    rw [if_neg (by omega), if_pos (by omega)]
    unfold read
    rw [if_pos ⟨hneg, hrefused⟩]
    exact fun io => rfl

/-- A body that is too large is turned down, and nothing follows. -/
theorem readBody_large {n : Int} (hlength : lengthOf s.limits r = some n) (hlarge : maxBodyBytes < n)
    (hempty : f (some []) = pure ()) : Sends 1 (readBody s r >>= f) := by
  unfold readBody
  rw [hlength]
  dsimp only
  rw [if_pos hlarge]
  intro io
  simp only [Lib.wp_bind, Lib.wp_pure, hempty]
  exact sends_error 413 [] (by decide) io

/-- A body that is no JSON object is turned down, and nothing follows. -/
theorem withBody_refused {result : Except LoadsError Json} (hempty : f (some []) = pure ())
    (h : result = .error .decode ∨ ∃ v, result = .ok v ∧ ∀ data, v ≠ .obj data) :
    Sends 1 (withBody result >>= f) := by
  have hanswer : ∀ text, encodable text = true →
      Sends 1 ((sendJson 400 (errorPayload text) >>= fun _ => pure (some [])) >>= f) := fun text htext io => by
    simp only [Lib.wp_bind, Lib.wp_pure, hempty]
    exact sends_error 400 [] htext io
  rcases h with rfl | ⟨v, rfl, hv⟩
  · exact hanswer _ (by decide)
  · cases v with
    | obj data => exact absurd rfl (hv data)
    | _ => exact hanswer _ (by decide)

end Bodies

-- ============================================================================
-- The requests without a response
-- ============================================================================

/-- The request gets as far as its body. -/
def TakesBody (s : HttpServer) (r : Request) : Prop :=
  authed s r = true ∧ (r.path ∈ [runsPath, chatPath] ∨ r.path ∈ workspacePaths)

/-- What goes wrong with a body, or behind it. -/
inductive PostFails (s : HttpServer) (r : Request) : Prop where
  /-- The length is no integer. -/
  | badLength (h : lengthOf s.limits r = none)
  /-- The length is negative, and reading so many bytes raises. -/
  | refusedRead {n : Int} (h : lengthOf s.limits r = some n) (hneg : n < 0) (hrefused : s.refuses n = true)
  /-- The text is beyond the bounds of the interpreter. -/
  | beyondLimits {e : LoadsError} (h : BodyLoads s r (.error e)) (he : e ≠ .decode)
  /-- The body is empty, or the empty object. -/
  | emptyObject (h : BodyLoads s r (.ok (.obj [])))
  | workspace {body : Py.Dict} (h : BodyLoads s r (.ok (.obj body))) (hpath : r.path ∈ workspacePaths)
      (hfails : WorkspaceFails s r.path body)
  /-- The reply holds a text that UTF-8 cannot encode. -/
  | chat {body : Py.Dict} {args : RunArguments} (h : BodyLoads s r (.ok (.obj body)))
      (hpath : r.path = chatPath) (hargs : chatArguments body = .ok args)
      (hreply : (chatReply (args.sessionId.getD []) (s.runAgent args)).2.encodable = false)
  | run {body : Py.Dict} {args : RunArguments} (h : BodyLoads s r (.ok (.obj body)))
      (hpath : r.path = runsPath) (hargs : runsArguments body = .ok args)
      (hreply : (runsReply (s.runAgent args)).2.encodable = false)

/-- What goes wrong with a `GET`. -/
inductive GetFails (s : HttpServer) (r : Request) : Prop where
  /-- The key of the upgrade is not ASCII. -/
  | upgrade {key : PyStr} (hpath : r.path = streamPath) (hkey : upgradeKey r = some key)
      (h : key.all (· < 128) = false)
  /-- The record holds a text that UTF-8 cannot encode. -/
  | record {record : Py.Dict} (hpath : r.path ≠ streamPath) (hruns : startsWith (py "/runs/") r.path = true)
      (hrecord : s.runs (lastSegment r.path) = some record) (h : (Json.obj record).encodable = false)

/-- The request gets no response. -/
def Unanswered (s : HttpServer) (r : Request) : Prop :=
  (r.method = .post ∧ TakesBody s r ∧ PostFails s r) ∨
    (r.method = .get ∧ authed s r = true ∧ GetFails s r)

section Routes

variable {s : HttpServer} {r : Request}

/-- What `_do_post` does with what `_read_body` returns. -/
def afterBody (s : HttpServer) (path : PyStr) : Option Py.Dict → H Unit
  | none | some [] => pure ()
  | some (item :: rest) => dispatch s path (item :: rest)

theorem doPost_body (h : TakesBody s r) : doPost s r = readBody s r >>= afterBody s r.path := by
  have hpath : ¬ (r.path ∉ [runsPath, chatPath] ∧ r.path ∉ workspacePaths) := fun hnot =>
    h.2.elim hnot.1 hnot.2
  unfold doPost
  rw [if_neg (fun hnot => hnot h.1), if_neg hpath]
  congr 1

theorem doPost_refused (h : ¬ TakesBody s r) : Sends 1 (doPost s r) := by
  unfold doPost
  by_cases hauth : authed s r = true
  · have hpath : r.path ∉ [runsPath, chatPath] ∧ r.path ∉ workspacePaths :=
      ⟨fun hmem => h ⟨hauth, .inl hmem⟩, fun hmem => h ⟨hauth, .inr hmem⟩⟩
    rw [if_neg (fun hnot => hnot hauth), if_pos hpath]
    exact sends_error 404 [] (by decide)
  · rw [if_pos hauth]
    exact sends_error 401 [] (by decide)

/-- The paths are told apart. -/
theorem dispatch_workspace {body : Py.Dict} (h : r.path ∈ workspacePaths) :
    dispatch s r.path body = workspacePost s r.path body := if_pos h

theorem dispatch_chat {body : Py.Dict} (h : r.path = chatPath) :
    dispatch s r.path body = openaiCompletion s body := by
  unfold dispatch
  rw [h, if_neg (by decide), if_pos rfl]

theorem dispatch_run {body : Py.Dict} (h : r.path = runsPath) :
    dispatch s r.path body = answerRun s (fun _ => runsReply) (runsArguments body) := by
  unfold dispatch
  rw [h, if_neg (by decide), if_neg (by decide)]

theorem dispatch_sends {body : Py.Dict} (htakes : TakesBody s r) (hbody : BodyLoads s r (.ok (.obj body)))
    (h : ¬ PostFails s r) : Sends 1 (dispatch s r.path body) := by
  by_cases hworkspace : r.path ∈ workspacePaths
  · rw [dispatch_workspace hworkspace]
    exact workspacePost_sends fun hfails => h (.workspace hbody hworkspace hfails)
  · have hpath : r.path = runsPath ∨ r.path = chatPath := by
      simpa using htakes.2.resolve_right hworkspace
    rcases hpath with hpath | hpath
    · rw [dispatch_run hpath]
      refine answerRun_sends (fun _ => runsArguments_message) fun args hargs => ?_
      by_contra hnot
      exact h (.run hbody hpath hargs (by simpa using hnot))
    · rw [dispatch_chat hpath]
      refine answerRun_sends (fun _ => chatArguments_message) fun args hargs => ?_
      by_contra hnot
      exact h (.chat hbody hpath hargs (by simpa using hnot))

theorem doPost_sends (h : ¬ (TakesBody s r ∧ PostFails s r)) : Sends 1 (doPost s r) := by
  by_cases htakes : TakesBody s r
  · have hfails : ¬ PostFails s r := fun hfails => h ⟨htakes, hfails⟩
    rw [doPost_body htakes]
    cases hlength : lengthOf s.limits r with
    | none => exact absurd (.badLength hlength) hfails
    | some n =>
        by_cases hlarge : maxBodyBytes < n
        · exact readBody_large hlength hlarge rfl
        · have hread : ¬ (n < 0 ∧ s.refuses n = true) := fun ⟨hneg, hrefused⟩ =>
            hfails (.refusedRead hlength hneg hrefused)
          have hloads : BodyLoads s r (loadBody s (rawBody n r.rfile)) :=
            ⟨n, hlength, Int.not_lt.mp hlarge, hread, rfl⟩
          refine readBody_loads hloads ?_
          cases hresult : loadBody s (rawBody n r.rfile) with
          | error e =>
              rw [hresult] at hloads
              cases e with
              | decode => exact withBody_refused rfl (.inl rfl)
              | _ => exact absurd (.beyondLimits hloads (by decide)) hfails
          | ok v =>
              rw [hresult] at hloads
              cases v with
              | obj body =>
                  cases body with
                  | nil => exact absurd (.emptyObject hloads) hfails
                  | cons item rest => exact dispatch_sends htakes hloads hfails
              | _ => exact withBody_refused rfl (.inr ⟨_, rfl, fun data heq => by cases heq⟩)
  · exact doPost_refused htakes

/-- A body that comes to nothing leaves nothing to be sent. -/
theorem doPost_object {body : Py.Dict} (htakes : TakesBody s r) (hbody : BodyLoads s r (.ok (.obj body)))
    (h : body ≠ [] → Sends 0 (dispatch s r.path body)) : Sends 0 (doPost s r) := by
  rw [doPost_body htakes]
  refine readBody_loads hbody ?_
  cases body with
  | nil => exact sends_pure ()
  | cons item rest => exact h (List.cons_ne_nil _ _)

theorem doPost_none (htakes : TakesBody s r) (h : PostFails s r) : Sends 0 (doPost s r) := by
  cases h with
  | badLength h =>
      rw [doPost_body htakes]
      exact readBody_unread (.inl h) (sends_pure ())
  | refusedRead h hneg hrefused =>
      rw [doPost_body htakes]
      exact readBody_unread (.inr ⟨_, h, hneg, hrefused⟩) (sends_pure ())
  | @beyondLimits e h he =>
      rw [doPost_body htakes]
      refine readBody_loads h ?_
      cases e with
      | decode => exact absurd rfl he
      | _ => exact fun io => rfl
  | emptyObject h => exact doPost_object htakes h fun hne => absurd rfl hne
  | workspace h hpath hfails =>
      refine doPost_object htakes h fun _ => ?_
      rw [dispatch_workspace hpath]
      exact workspacePost_none hfails
  | chat h hpath hargs hreply =>
      refine doPost_object htakes h fun _ => ?_
      rw [dispatch_chat hpath]
      unfold openaiCompletion
      rw [hargs]
      exact answerRun_none hreply
  | run h hpath hargs hreply =>
      refine doPost_object htakes h fun _ => ?_
      rw [dispatch_run hpath, hargs]
      exact answerRun_none hreply

theorem doGet_sends (h : ¬ (authed s r = true ∧ GetFails s r)) : Sends 1 (doGet s r) := by
  unfold doGet
  by_cases hhealth : r.path = py "/health"
  · rw [if_pos hhealth]
    exact sends_json _ _ rfl
  rw [if_neg hhealth]
  by_cases hauth : authed s r = true
  · have hfails : ¬ GetFails s r := fun hfails => h ⟨hauth, hfails⟩
    rw [if_neg (fun hnot => hnot hauth)]
    by_cases hstream : r.path = streamPath
    · rw [if_pos hstream]
      unfold websocketRun
      cases hkey : upgradeKey r with
      | none => exact sends_error _ _ (by decide)
      | some key =>
          have hascii : key.all (· < 128) = true := by
            by_contra hnot
            exact hfails (.upgrade hstream hkey (Bool.not_eq_true _ ▸ hnot))
          dsimp only
          rw [if_pos hascii]
          exact (sends_reply _).then_none fun _ => sends_lift _
    · rw [if_neg hstream]
      by_cases hruns : startsWith (py "/runs/") r.path = true
      · rw [if_pos hruns]
        cases hrecord : s.runs (lastSegment r.path) with
        | none => exact sends_error _ _ (by decide)
        | some record =>
            refine sends_json _ _ ?_
            by_contra hnot
            exact hfails (.record hstream hruns hrecord (by simpa using hnot))
      · rw [if_neg hruns]
        exact sends_error _ _ (by decide)
  · rw [if_pos hauth]
    exact sends_error _ _ (by decide)

theorem doGet_none (hauth : authed s r = true) (h : GetFails s r) : Sends 0 (doGet s r) := by
  unfold doGet
  cases h with
  | @upgrade key hpath hkey h =>
      rw [hpath, if_neg (by decide), if_neg (fun hnot => hnot hauth), if_pos rfl]
      unfold websocketRun
      rw [hkey]
      dsimp only
      rw [if_neg (by rw [h]; exact Bool.false_ne_true)]
      exact sends_throw _
  | @record record hpath hruns hrecord h =>
      have hhealth : r.path ≠ py "/health" := fun heq => by
        rw [heq] at hruns
        exact absurd hruns (by decide)
      rw [if_neg hhealth, if_neg (fun hnot => hnot hauth), if_neg hpath, if_pos hruns, hrecord]
      exact sends_json_none _ _ h

end Routes

-- ============================================================================
-- Every request
-- ============================================================================

theorem responses_length {s : HttpServer} {r : Request} {k : Nat} (h : Sends k (handleRequest s {} r)) :
    (responses s r).length = k := by
  have hlength := h.length {}
  rw [List.length_nil, Nat.zero_add] at hlength
  exact hlength

/-- A request that is admitted gets exactly one response unless it is one of
    `Unanswered`, which get none: for every method, path, header set and body, and
    whatever the agents and workspaces behind the server do. -/
theorem responses_once_iff (s : HttpServer) (r : Request) :
    (responses s r).length = 1 ↔ ¬ Unanswered s r := by
  have hdone : ∀ k, Sends k (handleRequest s {} r) → (responses s r).length = k := fun _ => responses_length
  unfold Unanswered
  cases hmethod : r.method with
  | get =>
      have hhandle : handleRequest s {} r = doGet s r := by
        unfold handleRequest
        rw [hmethod]
        rfl
      rw [hhandle] at hdone
      by_cases hfails : authed s r = true ∧ GetFails s r
      · rw [hdone 0 (doGet_none hfails.1 hfails.2)]
        exact iff_of_false (by decide) fun hnot => hnot (.inr ⟨rfl, hfails⟩)
      · rw [hdone 1 (doGet_sends hfails)]
        exact iff_of_true rfl fun hnot => hfails (hnot.resolve_left (fun h => nomatch h.1)).2
  | post =>
      have hhandle : handleRequest s {} r = doPost s r := by
        unfold handleRequest
        rw [hmethod]
        rfl
      rw [hhandle] at hdone
      by_cases hfails : TakesBody s r ∧ PostFails s r
      · rw [hdone 0 (doPost_none hfails.1 hfails.2)]
        exact iff_of_false (by decide) fun hnot => hnot (.inl ⟨rfl, hfails⟩)
      · rw [hdone 1 (doPost_sends hfails)]
        exact iff_of_true rfl fun hnot => hfails (hnot.resolve_right (fun h => nomatch h.1)).2
  | other =>
      have hhandle : handleRequest s {} r = sendReply ⟨501, none, []⟩ := by
        unfold handleRequest
        rw [hmethod]
      rw [hhandle] at hdone
      rw [hdone 1 (sends_reply _)]
      exact iff_of_true rfl fun hnot => hnot.elim (fun h => nomatch h.1) (fun h => nomatch h.1)

/-- A server without a token or workspaces, whose runs fail. -/
def bareServer : HttpServer where
  runs := fun _ => none
  runAgent := fun _ => ⟨py "1", .failed (py "no agent")⟩
  frames := fun _ => .ok ()
  floats := id
  refuses := fun n => n < -1
  toEnd := rfl

/-- A run is asked for without a body, with the body `"\x7b\x7d"`, and with a length
    that is no integer: nothing is answered. -/
theorem empty_body_unanswered :
    responses bareServer { method := .post, path := runsPath } = [] ∧
      responses bareServer
        { method := .post, path := runsPath, contentLength := some (py "2"), rfile := [123, 125] } = [] ∧
      responses bareServer { method := .post, path := runsPath, contentLength := some (py "two") } = [] := by
  decide +kernel

-- ============================================================================
-- How much is read
-- ============================================================================

/-- At most so many bytes are asked for. -/
def Ask.Within (bound : Nat) : Ask → Prop
  | .bytes n => n ≤ bound
  | .toEnd => False

/-- The length of the body is negative, and read to the end of the connection. -/
def ReadsToEnd (s : HttpServer) (r : Request) : Prop :=
  ∃ n, lengthOf s.limits r = some n ∧ n < 0 ∧ s.refuses n = false

/-- What comes of a body does not ask for more. -/
theorem withBody_asked (result : Except LoadsError Json) (io : Io) :
    (ioOf (withBody result io)).asked = io.asked := by
  have hsend : ∀ text, (ioOf ((sendJson 400 (errorPayload text) >>= fun _ => (pure (some []) :
      H (Option Py.Dict))) io)).asked = io.asked := fun text => by
    unfold sendJson
    split_ifs <;> rfl
  unfold withBody
  match result with
  | .error .decode => exact hsend _
  | .error .digits | .error .depth => rfl
  | .ok (.obj data) => rfl
  | .ok .null | .ok (.bool _) | .ok (.int _) | .ok (.float _) | .ok (.str _) | .ok (.arr _) => exact hsend _

/-- What `_read_body` asks the connection for. -/
theorem readBody_asked (s : HttpServer) (r : Request) :
    (ioOf (readBody s r {})).asked
      = match lengthOf s.limits r with
        | none => []
        | some n =>
            if maxBodyBytes < n ∨ n = 0 ∨ (n < 0 ∧ s.refuses n = true) then []
            else [if n < 0 then .toEnd else .bytes n.toNat] := by
  unfold readBody
  cases hlength : lengthOf s.limits r with
  | none => rfl
  | some n =>
      dsimp only
      by_cases hunread : maxBodyBytes < n ∨ n = 0 ∨ (n < 0 ∧ s.refuses n = true)
      · rw [if_pos hunread]
        rcases hunread with hlarge | rfl | hrefused
        · rw [if_pos hlarge]
          unfold sendJson
          split_ifs <;> rfl
        · rw [if_neg (by decide), if_neg (fun hne => hne rfl)]
          exact withBody_asked _ _
        · rw [if_neg (by omega), if_pos (by omega)]
          unfold read
          rw [if_pos hrefused]
          rfl
      · have hlarge : ¬ (maxBodyBytes : Int) < n := fun h => hunread (.inl h)
        have hzero : n ≠ 0 := fun h => hunread (.inr (.inl h))
        rw [if_neg hunread, if_neg hlarge, if_pos hzero]
        unfold read
        rw [if_neg fun h => hunread (.inr (.inr h))]
        exact withBody_asked _ _

/-- A request has at most the bound read, for its body and for a frame, exactly
    when its length is not read as "to the end" and no frame declares more in its
    eight bytes. -/
theorem request_size_bounded_iff (s : HttpServer) (r : Request) (stream : List (Fin 256)) :
    ((∀ ask ∈ (ioOf (readBody s r {})).asked, ask.Within maxBodyBytes) ↔ ¬ ReadsToEnd s r) ∧
      ((∀ n ∈ (wsReceive (stream.map Fin.val)).asked, n ≤ maxBodyBytes) ↔
        ¬ DeclaresMore maxBodyBytes stream) := by
  refine ⟨?_, wsReceive_asked_le_iff (by decide) stream⟩
  rw [readBody_asked]
  unfold ReadsToEnd
  cases hlength : lengthOf s.limits r with
  | none => exact iff_of_true (fun ask hask => nomatch hask) (by rintro ⟨n, heq, -⟩; cases heq)
  | some n =>
      dsimp only
      by_cases hunread : maxBodyBytes < n ∨ n = 0 ∨ (n < 0 ∧ s.refuses n = true)
      · rw [if_pos hunread]
        refine iff_of_true (fun ask hask => nomatch hask) ?_
        rintro ⟨m, heq, hneg, haccepted⟩
        obtain rfl : n = m := Option.some.inj heq
        rcases hunread with hlarge | hzero | ⟨-, hrefused⟩
        · omega
        · omega
        · rw [haccepted] at hrefused
          cases hrefused
      · rw [if_neg hunread]
        by_cases hneg : n < 0
        · have haccepted : s.refuses n = false := by
            by_contra hrefused
            exact hunread (.inr (.inr ⟨hneg, by simpa using hrefused⟩))
          rw [if_pos hneg]
          exact iff_of_false (fun hwithin => hwithin .toEnd (List.mem_singleton_self _))
            fun hnot => hnot ⟨n, rfl, hneg, haccepted⟩
        · rw [if_neg hneg]
          refine iff_of_true (fun ask hask => ?_) ?_
          · rw [List.mem_singleton.mp hask]
            show n.toNat ≤ maxBodyBytes
            omega
          · rintro ⟨m, heq, hneg', -⟩
            obtain rfl : n = m := Option.some.inj heq
            exact hneg hneg'

/-- With a length of -1 a body is read to the end of the connection, and a frame
    is asked for the four GiB it declares. -/
theorem unbounded_reads :
    (ioOf (readBody bareServer { method := .post, path := runsPath, contentLength := some (py "-1") } {})).asked
        = [.toEnd] ∧
      (wsReceive [0x81, 127, 0, 0, 0, 1, 0, 0, 0, 0]).asked = some (2 ^ 32) := by
  decide +kernel

end Http
end Server
end KineticSdk
