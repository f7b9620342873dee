/-
  KineticSdk.Files.Editing

  `FileTool` and `ApplyPatchTool` instances at work on one file, with one
  `FileLockRegistry` between them.

  A call reads the file, computes the new text, acquires the file's lease,
  writes, releases the lease and remembers what it read for `undo_edit`.  Each of
  these is a step of its own; thread `i` is client `i` of the registry, whose file
  operations are steps as well.  The names the calls have for the file may
  differ; a tool remembers under the name.
-/

import KineticSdk.Files.Execute
import KineticSdk.Files.FileTool
import KineticSdk.Subagent.FileLock

namespace KineticSdk
namespace Files

open Py

-- ============================================================================
-- Tools and calls
-- ============================================================================

/-- The class of a tool. -/
inductive ToolClass where
  | fileTool
  | applyPatchTool
deriving DecidableEq

/-- A tool with the registry. -/
structure Editor where
  kind : ToolClass
  /-- `_owner_id`; unbound without one. -/
  owner : Option PyStr
  lockTimeout : Int

/-- What a call asks for. -/
inductive Request where
  | strReplace (oldStr newStr : Option PyStr) (replaceAll : Bool)
  | insert (insertLine : Option Int) (newStr : Option PyStr)
  | undoEdit
  | applyPatch (patch : PyStr)
deriving DecidableEq

/-- The class that takes the request. -/
def Request.kind : Request → ToolClass
  | .applyPatch _ => .applyPatchTool
  | _ => .fileTool

/-- A call of a tool, and its name for the file. -/
structure Call where
  editor : Nat
  path : PyStr
  request : Request
deriving DecidableEq

/-- The call is about the one file: so are all sections of a patch. -/
def Call.onFile (c : Call) : Bool :=
  match c.request with
  | .applyPatch patch =>
      match parsePatch patch with
      | .ok patches => patches.all fun p => p.path = c.path
      | .error _ => true
  | _ => true

/-- `_undo` of all tools, by tool and path: what `undo_edit` would bring back,
    where nothing stands for a file that the tool created. -/
abbrev Memory := Nat × PyStr → Option (Option PyStr)

/-- The entry of a tool and path replaced, or removed. -/
def Memory.set (m : Memory) (key : Nat × PyStr) (entry : Option (Option PyStr)) : Memory :=
  fun k => if k = key then entry else m k

-- ============================================================================
-- What a call is up to
-- ============================================================================

/-- The operation under the lease. -/
inductive Change where
  | write (text : PyStr)
  | delete
deriving DecidableEq

/-- The exception of writing a text with lone surrogates. -/
def encodeError : PyExc := ⟨py "UnicodeEncodeError", py "surrogates not allowed"⟩

/-- `write_text` and `delete_file`: the file they leave and the error they raise.
    `open(target, "w")` empties the file before the text is encoded. -/
def Change.apply (file : Option PyStr) : Change → Option PyStr × Option PyExc
  | .write text => if encodable text then (some text, none) else (some [], some encodeError)
  | .delete =>
      match file with
      | some _ => (none, none)
      | none => (none, some ⟨py "FileNotFoundError", py "No such file or directory"⟩)

/-- What a call is to do once it has read the file. -/
structure Plan where
  change : Change
  /-- What the tool remembers for the path afterwards. -/
  memo : Option (Option PyStr)
  output : PyStr
deriving DecidableEq

/-- The texts of all sections of a patch applied one after another. -/
def applySections (path : PyStr) (patches : List FilePatch) (content : PyStr) : PatchM PyStr :=
  match patches.foldlM applyFilePatch content with
  | .ok text => .ok text
  | .error e => .error (aborted path (py ": " ++ e))

/-- `execute` up to the write, from what the tool remembers and the file. -/
def plan (similar : PyStr → PyStr → Bool) (path : PyStr) (request : Request)
    (remembered : Option (Option PyStr)) (file : Option PyStr) : Except PyStr Plan :=
  match request with
  | .strReplace (some oldStr) (some newStr) all =>
      match file with
      | none => .error (py "no such file: " ++ path)
      | some content => do
          let edit ← strReplace similar path content oldStr newStr all
          return ⟨.write edit.content, some (some content), edit.output⟩
  | .strReplace _ _ _ => .error (py "str_replace requires old_str and new_str")
  | .insert (some line) (some newStr) =>
      match file with
      | none => .error (py "no such file: " ++ path)
      | some content => do
          let edit ← insert path content line newStr
          return ⟨.write edit.content, some (some content), edit.output⟩
  | .insert _ _ => .error (py "insert requires insert_line and new_str")
  | .undoEdit =>
      match remembered with
      | none => .error (py "nothing to undo for " ++ path)
      | some none => .ok ⟨.delete, none, py "undid create of " ++ path⟩
      | some (some previous) =>
          -- a missing file counts as empty, and an undo can be undone
          .ok ⟨.write previous, some (some (file.getD [])),
            py "reverted " ++ path ++ py " to its previous content"⟩
  | .applyPatch patch =>
      match parsePatch patch with
      | .error e => .error (py "patch is empty or malformed: " ++ e)
      | .ok [] => .error (py "patch is empty or malformed")
      | .ok patches =>
          match file with
          | none => .error (aborted path (py " does not exist"))
          | some content => do
              let text ← applySections path patches content
              return ⟨.write text, some (some content), py "applied patch to 1 file(s)"⟩

/-- What a call comes to. -/
inductive Outcome where
  | success (output : PyStr)
  | error (message : PyStr)
  | raised (e : PyExc)
deriving DecidableEq

/-- The subclasses of `ValueError` that a call meets. -/
def valueErrors : List PyStr :=
  [py "ValueError", py "UnicodeEncodeError", py "UnicodeDecodeError", py "PathTraversalError"]

/-- What `execute` makes of an exception under the lease.  The rollback of a patch
    has nothing to undo: its one file was not written. -/
def report (kind : ToolClass) (e : PyExc) : Outcome :=
  match kind with
  | .applyPatchTool => .error (py "apply_patch failed mid-write, rolled back: " ++ e.message)
  | .fileTool =>
      if e.type = py "FileLockTimeoutError" then
        .error (py "file is locked for writing: " ++ e.message)
      else if valueErrors.contains e.type then .error (py "path rejected: " ++ e.message)
      else if e.type = py "FileLockOwnershipError" then .raised e
      else .error (py "filesystem error: " ++ e.message)

/-- What it makes of one while reading. -/
def reportRead (kind : ToolClass) (path : PyStr) (e : PyExc) : Outcome :=
  match kind with
  | .applyPatchTool => .error (aborted path (py ": " ++ e.message))
  | .fileTool => report .fileTool e

/-- A tool with a registry needs an owner. -/
def unboundError : ToolClass → PyExc
  | .fileTool => ⟨py "ValueError", py "FileTool with lock_registry is not bound to an agent; "
      ++ py "call file_tool.bind(agent) after constructing the agent"⟩
  | .applyPatchTool => ⟨py "ValueError",
      py "ApplyPatchTool with lock_registry is not bound to an agent; "
        ++ py "set an owner before applying patches"⟩

-- ============================================================================
-- Threads
-- ============================================================================

/-- A call that has read the file, with what it has read. -/
structure Job where
  call : Call
  remembered : Option (Option PyStr)
  seen : Option PyStr
  plan : Plan
deriving DecidableEq

/-- The entry of `_undo` the job is about. -/
def Job.key (job : Job) : Nat × PyStr := (job.call.editor, job.call.path)

/-- Where the call of a thread stands. -/
inductive Phase where
  | idle
  | reading (call : Call) (remembered : Option (Option PyStr))
  /-- About to call `acquire`. -/
  | locking (job : Job)
  | acquiring (job : Job)
  | writing (job : Job)
  /-- About to call `release`, after the write or its error. -/
  | releasing (job : Job) (error : Option PyExc)
  | leaving (job : Job) (error : Option PyExc)
  /-- About to update `_undo`. -/
  | noting (job : Job)
deriving DecidableEq

/-- The call of a thread that has read. -/
def Phase.job : Phase → Option Job
  | .locking job | .acquiring job | .writing job | .noting job => some job
  | .releasing job _ | .leaving job _ => some job
  | .idle | .reading _ _ => none

/-- The call of a thread that has written and is not over. -/
def Phase.pending : Phase → Option Job
  | .releasing job none | .leaving job none | .noting job => some job
  | _ => none

/-- The file, the tools' memory, the registry, the threads, and the calls that
    are over in their order. -/
structure Editing where
  file : Option PyStr
  memory : Memory
  lock : Subagent.State
  threads : List Phase
  done : List (Call × Outcome) := []

/-- What can happen. -/
inductive Event where
  | tick (d : Nat)
  /-- A thread calls a tool. -/
  | begin (i : Nat) (c : Call)
  /-- The next step of a thread's call. -/
  | act (i : Nat)
  /-- The next file operation of the registry in the thread's call. -/
  | lock (i : Nat)
  /-- A file operation of the registry raises. -/
  | lockFail (i : Nat)
  /-- The workspace raises while the thread reads or writes, and the file is left
      as it is or like this. -/
  | fail (i : Nat) (e : PyExc) (left : Option (Option PyStr))

namespace Editing

/-- The thread goes on. -/
def goto (s : Editing) (i : Nat) (p : Phase) : Editing := { s with threads := s.threads.set i p }

/-- The thread's call is over. -/
def finish (s : Editing) (i : Nat) (c : Call) (o : Outcome) : Editing :=
  { s with threads := s.threads.set i .idle, done := s.done ++ [(c, o)] }

/-- The registry after a step of its own. -/
def lockStep (s : Editing) (e : Subagent.Event) : Editing := { s with lock := s.lock.step e }

/-- What the thread's last call of the registry came to, once it is over. -/
def lockOutcome (s : Editing) (i : Nat) : Option Subagent.Outcome :=
  match s.lock.clients[i]? with
  | some client => if client.phase = .idle then client.last else none
  | none => none

/-- The thread calls the registry. -/
def callLock (s : Editing) (i : Nat) (c : Subagent.Call) (p : Phase) : Editing :=
  (s.lockStep (.call i c)).goto i p

variable (similar : PyStr → PyStr → Bool) (editors : List Editor)

/-- A thread calls a tool; `undo_edit` looks up what to bring back. -/
def begin (s : Editing) (i : Nat) (c : Call) : Editing :=
  match editors[c.editor]? with
  | some editor =>
      if s.threads[i]? = some .idle ∧ editor.kind = c.request.kind ∧ c.onFile = true then
        s.goto i (.reading c (s.memory (c.editor, c.path)))
      else s
  | none => s

/-- The next step of a thread's call. -/
def act (s : Editing) (i : Nat) : Editing :=
  match s.threads[i]? with
  | some (.reading c remembered) =>
      match plan similar c.path c.request remembered s.file with
      | .error message => s.finish i c (.error message)
      | .ok p => s.goto i (.locking ⟨c, remembered, s.file, p⟩)
  | some (.locking job) =>
      match editors[job.call.editor]? with
      | none => s
      | some editor =>
          match editor.owner with
          | none => s.finish i job.call (report editor.kind (unboundError editor.kind))
          | some owner =>
              s.callLock i (.acquire job.call.path owner (some editor.lockTimeout) none)
                (.acquiring job)
  | some (.acquiring job) =>
      match s.lockOutcome i with
      | some (.acquired _) => s.goto i (.writing job)
      | some (.raised e) => s.finish i job.call (report (job.call.request.kind) e)
      | _ => s
  | some (.writing job) =>
      { s with file := (job.plan.change.apply s.file).1 }.goto i
        (.releasing job (job.plan.change.apply s.file).2)
  | some (.releasing job error) =>
      match (editors[job.call.editor]?).bind Editor.owner with
      | some owner => s.callLock i (.release job.call.path owner) (.leaving job error)
      | none => s
  | some (.leaving job error) =>
      match s.lockOutcome i, error with
      | some .released, none => s.goto i (.noting job)
      | some .released, some e => s.finish i job.call (report (job.call.request.kind) e)
      | some (.raised e), _ => s.finish i job.call (report (job.call.request.kind) e)
      | _, _ => s
  | some (.noting job) =>
      -- `_undo.pop(path)` of an entry that is gone raises
      if job.plan.memo = none ∧ s.memory job.key = none then
        s.finish i job.call (.raised ⟨py "KeyError", pyReprStr job.call.path⟩)
      else
        { s with memory := s.memory.set job.key job.plan.memo }.finish i job.call
          (.success job.plan.output)
  | _ => s

/-- The workspace raises. -/
def fail (s : Editing) (i : Nat) (e : PyExc) (left : Option (Option PyStr)) : Editing :=
  match s.threads[i]? with
  | some (.reading c _) =>
      if e.type = py "FileNotFoundError" then s else s.finish i c (reportRead (c.request.kind) c.path e)
  | some (.writing job) => { s with file := left.getD s.file }.goto i (.releasing job (some e))
  | _ => s

/-- The state after an event. -/
def step (s : Editing) : Event → Editing
  | .tick d => s.lockStep (.tick d)
  | .begin i c => s.begin editors i c
  | .act i => s.act similar editors i
  | .lock i => s.lockStep (.act i)
  | .lockFail i => s.lockStep (.fail i)
  | .fail i e left => s.fail i e left

/-- The state after the events. -/
def run (s : Editing) (es : List Event) : Editing := Lib.Steps.run (step similar editors) s es

end Editing

/-- Idle threads at a file, and the registry they share. -/
def startEditing (file : Option PyStr) (memory : Memory) (content : Option Subagent.Content)
    (now : Int) (lease : Option Int) (threads : Nat) : Editing where
  file := file
  memory := memory
  lock := Subagent.start content now (List.replicate threads (0, lease))
  threads := List.replicate threads .idle

end Files
end KineticSdk
