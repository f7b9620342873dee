/-
  KineticSdk.Files.Tool

  `FileTool.execute` (`files/tool.py`) over any workspace, without a lock
  registry.

  A workspace is what the tool sees of it: four operations on a state, which a
  failing write may have changed as well.  Exceptions go by their class, since
  the tool tells some of them apart.
-/

import KineticSdk.Files.Editing
import KineticSdk.Py.Lines

namespace KineticSdk
namespace Files

open Py

variable {σ : Type}

-- ============================================================================
-- Workspaces
-- ============================================================================

/-- `WorkspaceBase`, less `run_command` and `list_files`. -/
structure WorkspaceBase (σ : Type) where
  readText : PyStr → σ → Except PyExc PyStr
  writeText : PyStr → PyStr → σ → Except PyExc Unit × σ
  deleteFile : PyStr → σ → Except PyExc Unit × σ
  listDirectory : PyStr → σ → Except PyExc (List PyStr)

/-- `".kinetic" in Path(path).parts`. -/
def isInternalSnapshotPath (path : PyStr) : Bool := (splitChar 47 path).contains (py ".kinetic")

-- ============================================================================
-- The tool
-- ============================================================================

/-- A `FileTool`; `snapshot` is the method of its snapshot store. -/
structure FileTool (σ : Type) where
  workspace : WorkspaceBase σ
  maxViewLines : Nat
  snapshot : Option (PyStr → PyStr → σ → Except PyExc Unit × σ)

/-- An action and its parameters. -/
inductive Action where
  | view (viewRange : Option (List Int))
  | create (fileText : Option PyStr)
  | strReplace (oldStr newStr : Option PyStr) (replaceAll : Bool)
  | insert (insertLine : Option Int) (newStr : Option PyStr)
  | undoEdit
deriving DecidableEq

/-- A call of `execute`. -/
structure ToolCall where
  path : PyStr
  action : Action
deriving DecidableEq

/-- The workspace, and `_undo`: the content to bring back by path, nothing for a
    file the tool created. -/
structure ToolState (σ : Type) where
  files : σ
  undo : List (PyStr × Option PyStr)

/-- The class of an exception. -/
def PyExc.isA (e : PyExc) (names : List String) : Bool := names.any fun name => e.type == py name

namespace FileTool

variable (similar : PyStr → PyStr → Bool) (t : FileTool σ)

/-- `_truncate_view_line`. -/
def truncateViewLine (line : PyStr) : PyStr :=
  if line.length ≤ 500 then line else line.take 500 ++ py "...(cut)"

/-- The lines of `_view`, from line `start`. -/
def numbered (start : Nat) (lines : List PyStr) : PyStr :=
  join (py "\n") ((lines.zipIdx start).map fun l => natText l.2 ++ py "\t" ++ truncateViewLine l.1)

/-- The part of `_view` for lines `start` to `stop`. -/
def viewSlice (lines : List PyStr) (start stop : Nat) : PyStr :=
  let all := (lines.take stop).drop (start - 1)
  let sliced := all.take t.maxViewLines
  if sliced.length < all.length then
    numbered start sliced ++ py "\n[... còn " ++ natText (all.length - sliced.length)
      ++ py " dòng nữa; dùng view_range=[" ++ natText (start + sliced.length) ++ py ", " ++ natText stop
      ++ py "] để xem tiếp ...]"
  else numbered start sliced

/-- `str(view_range)`. -/
def rangeText (viewRange : List Int) : PyStr := py "[" ++ join (py ", ") (viewRange.map intText) ++ py "]"

/-- The part of `_view` for a file. -/
def viewFile (content : PyStr) (viewRange : Option (List Int)) : Outcome :=
  let lines := bareLines content
  match viewRange with
  | none => .success (t.viewSlice lines 1 lines.length)
  | some [start, last] =>
      let stop := if last = -1 then (lines.length : Int) else last
      if start < 1 ∨ stop < start then .error (py "invalid view_range " ++ rangeText [start, last])
      else .success (t.viewSlice lines start.toNat stop.toNat)
  | some _ => .error (py "view_range must be [start, end]")

/-- `_view_directory`. -/
def viewDirectory (path : PyStr) (files : σ) : Outcome :=
  match t.workspace.listDirectory path files with
  | .error e =>
      if PyExc.isA e ["FileNotFoundError", "NotADirectoryError"] then
        .error (py "no such file or directory: " ++ path)
      else .raised e
  | .ok entries =>
      let shown := entries.filter fun entry => rstripWhile (· == 47) entry ≠ py ".kinetic"
      let text := join (py "\n") shown
      .success (if text = [] then py "(empty directory)" else text)

/-- `_view`. -/
def view (path : PyStr) (viewRange : Option (List Int)) (files : σ) : Outcome :=
  match t.workspace.readText path files with
  | .error e =>
      if PyExc.isA e ["FileNotFoundError", "IsADirectoryError"] then t.viewDirectory path files
      else .raised e
  | .ok content => t.viewFile content viewRange

/-- `_create`. -/
def create (path : PyStr) (fileText : Option PyStr) (s : ToolState σ) : Outcome × ToolState σ :=
  match fileText with
  | none => (.error (py "create requires file_text"), s)
  | some text =>
      match t.workspace.readText path s.files with
      | .ok _ => (.error (py "file already exists: " ++ path ++ py " (use str_replace to edit)"), s)
      | .error e =>
          if PyExc.isA e ["FileNotFoundError"] then
            match t.workspace.writeText path text s.files with
            | (.error e, files) => (.raised e, { s with files })
            | (.ok _, files) => (.success (py "created " ++ path), ⟨files, Dict.set s.undo path none⟩)
          else (.raised e, s)

/-- `_snapshot_and_write`. -/
def snapshotAndWrite (path previous updated : PyStr) (files : σ) : Except PyExc Unit × σ :=
  match t.snapshot with
  | none => t.workspace.writeText path updated files
  | some snapshot =>
      match snapshot path previous files with
      | (.error e, files) => (.error e, files)
      | (.ok _, files) => t.workspace.writeText path updated files

/-- What `_str_replace` and `_insert` share: the file is read, edited and written. -/
def edit (path : PyStr) (change : PyStr → Except PyStr Edit) (s : ToolState σ) : Outcome × ToolState σ :=
  match t.workspace.readText path s.files with
  | .error e =>
      if PyExc.isA e ["FileNotFoundError"] then (.error (py "no such file: " ++ path), s)
      else (.raised e, s)
  | .ok content =>
      match change content with
      | .error message => (.error message, s)
      | .ok edit =>
          match t.snapshotAndWrite path content edit.content s.files with
          | (.error e, files) => (.raised e, { s with files })
          | (.ok _, files) => (.success edit.output, ⟨files, Dict.set s.undo path (some content)⟩)

/-- `_undo_edit`. -/
def undoEdit (path : PyStr) (s : ToolState σ) : Outcome × ToolState σ :=
  match Dict.get? s.undo path with
  | none => (.error (py "nothing to undo for " ++ path), s)
  | some none =>
      match t.workspace.deleteFile path s.files with
      | (.error e, files) => (.raised e, { s with files })
      | (.ok _, files) => (.success (py "undid create of " ++ path), ⟨files, Dict.pop s.undo path⟩)
  | some (some previous) =>
      let current : Except PyExc PyStr :=
        match t.workspace.readText path s.files with
        | .ok current => .ok current
        | .error e => if PyExc.isA e ["FileNotFoundError"] then .ok [] else .error e
      match current with
      | .error e => (.raised e, s)
      | .ok current =>
          match t.workspace.writeText path previous s.files with
          | (.error e, files) => (.raised e, { s with files })
          | (.ok _, files) =>
              (.success (py "reverted " ++ path ++ py " to its previous content"),
                ⟨files, Dict.set s.undo path (some current)⟩)

/-- The handler of the action. -/
def handle (call : ToolCall) (s : ToolState σ) : Outcome × ToolState σ :=
  match call.action with
  | .view viewRange => (t.view call.path viewRange s.files, s)
  | .create fileText => t.create call.path fileText s
  | .strReplace (some oldStr) (some newStr) all =>
      t.edit call.path (fun content => strReplace similar call.path content oldStr newStr all) s
  | .strReplace _ _ _ => (.error (py "str_replace requires old_str and new_str"), s)
  | .insert (some line) (some newStr) =>
      t.edit call.path (fun content => Files.insert call.path content line newStr) s
  | .insert _ _ => (.error (py "insert requires insert_line and new_str"), s)
  | .undoEdit => t.undoEdit call.path s

/-- `execute`. -/
def execute (call : ToolCall) (s : ToolState σ) : Outcome × ToolState σ :=
  if isInternalSnapshotPath call.path then
    (.error (py "path is reserved for internal snapshot storage"), s)
  else
    match t.handle similar call s with
    | (.raised e, s) => (report .fileTool e, s)
    | (outcome, s) => (outcome, s)

end FileTool

end Files
end KineticSdk
