/-
  KineticSdk.Files.Execute

  `ApplyPatchTool.execute`: the dry run over all targets, the writes and the
  rollback when one of them fails, and when this is all or nothing.

  What can go wrong outside the tool is given by the environment: how paths
  resolve, and for each locked write which of its three operations (acquire,
  write, release) raises.  A failing write may have touched its file.
-/

import KineticSdk.Files.Patch

namespace KineticSdk
namespace Files

open Py

-- ============================================================================
-- The workspace
-- ============================================================================

/-- The files of the workspace by canonical path. -/
abbrev FileMap := PyStr → Option PyStr

/-- The files after a write. -/
def FileMap.write (files : FileMap) (target text : PyStr) : FileMap :=
  fun t => if t = target then some text else files t

/-- What goes wrong at one locked write; `write` also says what the failed
    write left in the file, if it touched it. -/
structure Fault where
  acquire : Option PyStr := none
  write : Option (PyStr × Option PyStr) := none
  release : Option PyStr := none

/-- The lock registry of the tool and its owner. -/
inductive Locking where
  | unlocked
  | unbound
  | owned
deriving DecidableEq

/-- Everything outside the tool. -/
structure Env where
  resolve : PyStr → Except PyStr PyStr
  /-- The error reading an existing file raises, if any. -/
  readError : PyStr → Option PyStr
  locking : Locking
  /-- The fault at the write of a path. -/
  writes : PyStr → Fault
  /-- The fault at the rollback write of a path. -/
  rollbacks : PyStr → Fault

/-- `LocalWorkspace.read_text`, with `none` for a missing file. -/
def Env.readText (env : Env) (files : FileMap) (path : PyStr) : Except PyStr (Option PyStr) :=
  match env.resolve path with
  | .error e => .error e
  | .ok target =>
      match files target, env.readError path with
      | none, _ => .ok none
      | some _, some e => .error e
      | some text, none => .ok (some text)

/-- `LocalWorkspace.write_text`: the files it leaves and the error it raises. -/
def Env.writeText (env : Env) (f : Fault) (files : FileMap) (path text : PyStr) :
    FileMap × Option PyStr :=
  match env.resolve path, f.write with
  | .error e, _ => (files, some e)
  | .ok _, some (e, none) => (files, some e)
  | .ok target, some (e, some left) => (files.write target left, some e)
  | .ok target, none => (files.write target text, none)

/-- `_write_locked`.  An error of `release` replaces one of the write. -/
def Env.writeLocked (env : Env) (f : Fault) (files : FileMap) (path text : PyStr) :
    FileMap × Option PyStr :=
  match env.locking with
  | .unlocked => env.writeText f files path text
  | .unbound =>
      (files, some (py "ApplyPatchTool with lock_registry is not bound to an agent; " ++
        py "set an owner before applying patches"))
  | .owned =>
      match f.acquire with
      | some e => (files, some e)
      | none =>
          let (files', err) := env.writeText f files path text
          (files', f.release.or err)

-- ============================================================================
-- The dry run
-- ============================================================================

/-- The texts before and after, by path, in order of first appearance. -/
structure Prepared where
  originals : List (PyStr × PyStr) := []
  resolved : List (PyStr × PyStr) := []

/-- The error of an aborted call. -/
def aborted (path detail : PyStr) : PyStr := py "apply_patch aborted: " ++ path ++ detail

/-- The text a file patch applies to, and the originals read so far. -/
def Env.original (env : Env) (files : FileMap) (acc : Prepared) (path : PyStr) :
    PatchM (PyStr × List (PyStr × PyStr)) :=
  match env.resolve path with
  | .error e => .error (aborted path (py ": " ++ e))
  | .ok _ =>
      match Dict.get? acc.resolved path with
      | some text => .ok (text, acc.originals)
      | none =>
          match env.readText files path with
          | .error e => .error (aborted path (py ": " ++ e))
          | .ok none => .error (aborted path (py " does not exist"))
          | .ok (some text) => .ok (text, Dict.set acc.originals path text)

/-- One file patch of the dry run. -/
def Env.prepareOne (env : Env) (files : FileMap) (acc : Prepared) (p : FilePatch) :
    PatchM Prepared := do
  let (original, originals) ← env.original files acc p.path
  match applyFilePatch original p with
  | .error e => .error (aborted p.path (py ": " ++ e))
  | .ok text => .ok ⟨originals, Dict.set acc.resolved p.path text⟩

/-- Everything before the first write. -/
def Env.prepare (env : Env) (files : FileMap) (patch : PyStr) : PatchM Prepared :=
  match parsePatch patch with
  | .error e => .error (py "patch is empty or malformed: " ++ e)
  | .ok [] => .error (py "patch is empty or malformed")
  | .ok patches => patches.foldlM (env.prepareOne files) {}

-- ============================================================================
-- Writing and rolling back
-- ============================================================================

/-- The loop of writes: the files, the paths written and the error that ended
    the loop. -/
def Env.writeAll (env : Env) : List (PyStr × PyStr) → FileMap → List PyStr →
    FileMap × List PyStr × Option PyStr
  | [], files, written => (files, written, none)
  | (path, text) :: rest, files, written =>
      match env.writeLocked (env.writes path) files path text with
      | (files', some e) => (files', written, some e)
      | (files', none) => env.writeAll rest files' (written ++ [path])

/-- The rollback loop: the files and the rollback errors. -/
def Env.rollBack (env : Env) (originals : List (PyStr × PyStr)) :
    List PyStr → FileMap → FileMap × List PyStr
  | [], files => (files, [])
  | path :: rest, files =>
      let (files', err) := env.writeLocked (env.rollbacks path) files path
        ((Dict.get? originals path).getD [])
      let (files'', errs) := env.rollBack originals rest files'
      (files'', (err.map fun e => path ++ py ": " ++ e).toList ++ errs)

/-- The result of a call: the error or the paths written, the files, and the
    paths a rollback write was attempted for. -/
structure Execution where
  result : Except PyStr (List PyStr)
  files : FileMap
  rolledBack : List PyStr

/-- `ApplyPatchTool.execute`. -/
def Env.execute (env : Env) (files : FileMap) (patch : PyStr) : Execution :=
  match env.prepare files patch with
  | .error e => ⟨.error e, files, []⟩
  | .ok prep =>
      match env.writeAll prep.resolved files [] with
      | (files', written, none) => ⟨.ok written, files', []⟩
      | (files', written, some e) =>
          let (files'', errs) := env.rollBack prep.originals written.reverse files'
          let detail := py "apply_patch failed mid-write, rolled back: " ++ e
          let detail := if errs = [] then detail
            else detail ++ py " (rollback errors: " ++ join (py "; ") errs ++ py ")"
          ⟨.error detail, files'', written.reverse⟩

end Files
end KineticSdk
