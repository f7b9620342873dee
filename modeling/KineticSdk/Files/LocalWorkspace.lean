/-
  KineticSdk.Files.LocalWorkspace

  `LocalWorkspace` (`workspace/manager.py`) on a file tree.

  Its operations make and delete files, never links; so the links its paths are
  resolved by are those of one tree.
-/

import KineticSdk.Files.Undo
import KineticSdk.Py.Os
import KineticSdk.Py.Utf8
import Mathlib.Data.List.Sort
import Mathlib.Data.List.Lex
import Mathlib.Data.Nat.Basic

namespace KineticSdk
namespace Files

open Py Py.Os

/-- A `LocalWorkspace`, and the tree with its links. -/
structure LocalWorkspace where
  root : Path
  links : Node

/-- The text of an absolute path. -/
def pathText (path : Path) : PyStr := py "/" ++ join (py "/") path

/-- An `OSError` of this class, with its number, about a path. -/
def osError (type : String) (errno : Nat) (text : String) (path : Path) : PyExc :=
  ⟨py type, py "[Errno " ++ natText errno ++ py "] " ++ py text ++ py ": " ++ pyReprStr (pathText path)⟩

/-- A part of the path is a link: it leads back to itself, or the path were resolved. -/
def loops (tree : Node) (path : Path) : Bool :=
  path.inits.any fun pre => match lstat tree pre with | some (.link _) => true | _ => false

/-- Why nothing is found at a path. -/
def notFound (tree : Node) (path : Path) : PyExc :=
  if loops tree path then osError "OSError" 40 "Too many levels of symbolic links" path
  else if path.inits.any fun pre => (fileAt tree pre).isSome then
    osError "NotADirectoryError" 20 "Not a directory" path
  else osError "FileNotFoundError" 2 "No such file or directory" path

/-- Why no file can be written at a path. -/
def blocked (tree : Node) (path : Path) : PyExc :=
  if loops tree path then osError "OSError" 40 "Too many levels of symbolic links" path
  else if (lstat tree path).isSome then osError "IsADirectoryError" 21 "Is a directory" path
  else if (fileAt tree path.dropLast).isSome then osError "FileExistsError" 17 "File exists" path.dropLast
  else osError "NotADirectoryError" 20 "Not a directory" path.dropLast

namespace LocalWorkspace

variable (w : LocalWorkspace)

/-- `resolve`. -/
def resolve (relativePath : PyStr) : Except PyExc Path :=
  if relativePath.contains 0 then .error ⟨py "ValueError", py "lstat: embedded null character in path"⟩
  else if relativePath.any fun c => 0xD800 ≤ c && c < 0xDC80 || 0xDCFF < c && c ≤ 0xDFFF then
    .error ⟨py "UnicodeEncodeError", py "surrogates not allowed"⟩
  else
    let candidate := (realpath w.links (joinPath w.root relativePath)).path
    if w.root.isPrefixOf candidate then .ok candidate
    else .error ⟨py "PathTraversalError", py "path " ++ pyReprStr relativePath
      ++ py " resolves outside the workspace root " ++ pyReprStr (pathText w.root)⟩

/-- `read_text`. -/
def readText (relativePath : PyStr) (tree : Node) : Except PyExc PyStr := do
  let target ← w.resolve relativePath
  match lstat tree target with
  | some (.file bytes) =>
      match utf8Decode bytes with
      | some text => .ok text
      | none => .error ⟨py "UnicodeDecodeError", py "invalid start byte"⟩
  | some (.dir _ _) => .error (osError "IsADirectoryError" 21 "Is a directory" target)
  | _ => .error (notFound tree target)

/-- `write_text`.  The file is empty before the text is encoded. -/
def writeText (relativePath content : PyStr) (tree : Node) : Except PyExc Unit × Node :=
  match w.resolve relativePath with
  | .error e => (.error e, tree)
  | .ok target =>
      match put tree target ((utf8Encode content).getD []) with
      | none => (.error (blocked tree target), tree)
      | some tree' =>
          if (utf8Encode content).isSome then (.ok (), tree')
          else (.error ⟨py "UnicodeEncodeError", py "surrogates not allowed"⟩, tree')

/-- `delete_file`. -/
def deleteFile (relativePath : PyStr) (tree : Node) : Except PyExc Unit × Node :=
  match w.resolve relativePath with
  | .error e => (.error e, tree)
  | .ok target =>
      match lstat tree target with
      | some (.dir _ _) => (.error ⟨py "IsADirectoryError", relativePath⟩, tree)
      | _ =>
          match remove tree target with
          | some tree' => (.ok (), tree')
          | none => (.error (notFound tree target), tree)

/-- `list_directory`. -/
def listDirectory (relativePath : PyStr) (tree : Node) : Except PyExc (List PyStr) := do
  let target ← w.resolve relativePath
  match lstat tree target with
  | some (.dir true entries) =>
      return (entries.map fun e => e.1 ++ if isDir tree (target ++ [e.1]) then py "/" else []).insertionSort
        (· ≤ ·)
  | some (.dir false _) => .error (osError "PermissionError" 13 "Permission denied" target)
  | _ => .error ⟨py "NotADirectoryError", relativePath⟩

/-- The workspace as the tools see it. -/
def base : WorkspaceBase Node := ⟨w.readText, w.writeText, w.deleteFile, w.listDirectory⟩

/-- The file a path names. -/
def fileOf (path : PyStr) : Option Path := (w.resolve path).toOption

end LocalWorkspace

/-- The text of a file. -/
def textAt (tree : Node) (path : Path) : Option PyStr := (fileAt tree path).bind utf8Decode

variable {w : LocalWorkspace}

theorem fileOf_eq_some {path : PyStr} {f : Path} : w.fileOf path = some f ↔ w.resolve path = .ok f := by
  unfold LocalWorkspace.fileOf
  cases w.resolve path with
  | error e => exact ⟨fun h => (nomatch h), fun h => (nomatch h)⟩
  | ok target => exact ⟨fun h => congrArg Except.ok (Option.some.inj h), fun h => congrArg some (Except.ok.inj h)⟩

/-- Reading gives the text of the file, and fails where there is none. -/
theorem readText_eq {path : PyStr} {f : Path} (hf : w.resolve path = .ok f) (tree : Node) :
    (w.readText path tree).toOption = textAt tree f := by
  unfold LocalWorkspace.readText textAt fileAt
  rw [hf]
  show Except.toOption (match lstat tree f with | some (.file bytes) => _ | some (.dir _ _) => _ | _ => _) = _
  cases lstat tree f with
  | none => rfl
  | some node =>
      cases node with
      | file bytes =>
          dsimp only [Option.bind_some]
          cases utf8Decode bytes <;> rfl
      | dir listable entries => rfl
      | link target => rfl

/-- A text that is read has no surrogates. -/
theorem readText_scalar {path text : PyStr} {tree : Node} (h : w.readText path tree = .ok text) :
    ∀ c ∈ text, IsScalar c := by
  unfold LocalWorkspace.readText at h
  cases hresolve : w.resolve path with
  | error e =>
      rw [hresolve] at h
      cases h
  | ok target =>
      rw [hresolve] at h
      change (match lstat tree target with | some (.file bytes) => _ | some (.dir _ _) => _ | _ => _) = _ at h
      split at h
      · split at h
        · rename_i hdecode
          cases h
          exact utf8Decode_scalar hdecode
        · cases h
      · cases h
      · cases h

theorem writeText_ok {path text : PyStr} {tree tree' : Node} (h : w.writeText path text tree = (.ok (), tree')) :
    ∃ f, w.resolve path = .ok f ∧ textAt tree' = Function.update (textAt tree) f (some text) := by
  unfold LocalWorkspace.writeText at h
  split at h
  · cases (Prod.mk.inj h).1
  · rename_i target htarget
    split at h
    · cases (Prod.mk.inj h).1
    · rename_i written hput
      split_ifs at h with hencode
      · obtain ⟨bytes, hbytes⟩ := Option.isSome_iff_exists.mp hencode
        rw [hbytes, Option.getD_some] at hput
        cases (Prod.mk.inj h).2
        refine ⟨target, htarget, funext fun g => ?_⟩
        unfold textAt
        rw [fileAt_put hput, Function.update_apply]
        split_ifs
        · exact utf8Decode_encode hbytes
        · rfl
      · cases (Prod.mk.inj h).1

theorem deleteFile_ok {path : PyStr} {tree tree' : Node} (h : w.deleteFile path tree = (.ok (), tree')) :
    ∃ f, w.resolve path = .ok f ∧ textAt tree' = Function.update (textAt tree) f none := by
  unfold LocalWorkspace.deleteFile at h
  split at h
  · cases (Prod.mk.inj h).1
  · rename_i target htarget
    split at h
    · cases (Prod.mk.inj h).1
    · split at h
      · rename_i removed hremove
        cases (Prod.mk.inj h).2
        refine ⟨target, htarget, funext fun g => ?_⟩
        unfold textAt
        rw [fileAt_remove hremove, Function.update_apply]
        split_ifs <;> rfl
      · cases (Prod.mk.inj h).1

/-- A tool on a local workspace works on the files of the tree. -/
theorem worksOn_local {t : FileTool Node} (hworkspace : t.workspace = w.base) (hsnapshot : t.snapshot = none) :
    WorksOn t w.fileOf textAt where
  read path files text h := by
    rw [hworkspace] at h
    change w.readText path files = .ok text at h
    cases hf : w.resolve path with
    | error e =>
        unfold LocalWorkspace.readText at h
        rw [hf] at h
        cases h
    | ok f =>
        refine ⟨f, fileOf_eq_some.mpr hf, ?_⟩
        rw [← readText_eq hf, h]
        rfl
  missing path files e h _ f hf := by
    rw [hworkspace] at h
    change w.readText path files = .error e at h
    rw [← readText_eq (fileOf_eq_some.mp hf), h]
    rfl
  write path text files files' h := by
    rw [hworkspace] at h
    obtain ⟨f, hf, hcontent⟩ := writeText_ok h
    exact ⟨f, fileOf_eq_some.mpr hf, hcontent⟩
  delete path files files' h := by
    rw [hworkspace] at h
    obtain ⟨f, hf, hcontent⟩ := deleteFile_ok h
    exact ⟨f, fileOf_eq_some.mpr hf, hcontent⟩
  snapshot snapshot h := by
    rw [hsnapshot] at h
    cases h

-- ============================================================================
-- Undo under one name, and under two
-- ============================================================================

/-- Calls under one name only name the last edit. -/
theorem namesLastEdit_of_same {σ F : Type} [DecidableEq F] {fileOf : PyStr → Option F} {s : Session σ}
    {call : ToolCall} (h : ∀ m ∈ s.log, m.call.path = call.path) : NamesLastEdit fileOf s call := by
  intro _ f _ last hlast
  have hmem : last ∈ s.log.filter (Made.edits fileOf f) := List.mem_of_getLast? hlast
  exact h last (List.mem_filter.mp hmem).1

/-- A directory with a file `a` that holds `x`. -/
def oneFile : Node := .dir true [(py "a", .file [120])]

/-- The workspace of that directory. -/
def localWorkspace : LocalWorkspace := ⟨[], oneFile⟩

/-- A file tool on it. -/
def localTool : FileTool Node := ⟨localWorkspace.base, 2000, none⟩

/-- An edit of the file, under a path. -/
def replaceAt (path : PyStr) (oldStr newStr : String) : ToolCall :=
  ⟨path, .strReplace (some (py oldStr)) (some (py newStr)) false⟩

/-- Any edit that finds its text is no fuzzy one. -/
def neverSimilar (_ _ : PyStr) : Bool := false

theorem undo_restores_twice :
    Lib.Guarded (RestoresLastEdit localWorkspace.fileOf textAt)
        (Lib.Steps.run (Session.step neverSimilar localTool) (Session.start oneFile)
          [replaceAt (py "a") "x" "y", ⟨py "a", .undoEdit⟩, ⟨py "a", .undoEdit⟩]).log ∧
      UndoesUndo localWorkspace.fileOf textAt
        (Lib.Steps.run (Session.step neverSimilar localTool) (Session.start oneFile)
          [replaceAt (py "a") "x" "y", ⟨py "a", .undoEdit⟩, ⟨py "a", .undoEdit⟩]).log := by
  have hw : WorksOn localTool localWorkspace.fileOf textAt := worksOn_local rfl rfl
  refine undo_restores hw oneFile ⟨⟨fun h => ?_, namesLastEdit_of_same (by decide)⟩,
    ⟨fun h => ?_, namesLastEdit_of_same (by decide)⟩, ⟨fun h => ?_, namesLastEdit_of_same (by decide)⟩, trivial⟩
  · exact absurd h (by decide)
  · exact absurd h (by decide)
  · exact absurd h (by decide)

/-- The file is edited under two names: an undo under the first name brings back what it was
    before the first edit. -/
theorem undo_other_name :
    (∀ m ∈ (Lib.Steps.run (Session.step neverSimilar localTool) (Session.start oneFile)
        [replaceAt (py "a") "x" "y", replaceAt (py "./a") "y" "z", ⟨py "a", .undoEdit⟩]).log,
      m.success = true) ∧
    ¬ Lib.Guarded (RestoresLastEdit localWorkspace.fileOf textAt)
        (Lib.Steps.run (Session.step neverSimilar localTool) (Session.start oneFile)
          [replaceAt (py "a") "x" "y", replaceAt (py "./a") "y" "z", ⟨py "a", .undoEdit⟩]).log := by
  refine ⟨by decide, fun h => ?_⟩
  obtain ⟨f, last, hfile, hlast, hafter⟩ := h _ _ [] rfl rfl rfl
  obtain rfl : [py "a"] = f := Option.some.inj (.trans (by decide) hfile)
  have hat := congrFun hafter [py "a"]
  rw [Function.update_self] at hat
  have hbefore : textAt last.before [py "a"] = some (py "y") := by
    cases hlast
    decide
  rw [hbefore] at hat
  revert hat
  decide

end Files
end KineticSdk
