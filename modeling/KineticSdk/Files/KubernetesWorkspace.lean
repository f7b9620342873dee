/-
  KineticSdk.Files.KubernetesWorkspace

  File operations in a pod (`workspace/k8s_workspace.py`).

  Every operation is one `kubectl exec`.  Paths are normalised as texts and compared
  with the working directory, and what goes through a shell is quoted.  So whatever
  path and content an operation is given, the pod is asked for something inside the
  working directory, or `kubectl` is not called (`command_confined`).
-/

import KineticSdk.Py.Shell
import KineticSdk.Security.Containment
import Mathlib.Data.List.Lex
import Mathlib.Data.List.Sort

namespace KineticSdk
namespace Files

open Py Security

-- ============================================================================
-- Paths
-- ============================================================================

/-- `posixpath.join(a, b)`. -/
def posixJoin (a b : PyStr) : PyStr :=
  if isabs b then b
  else if a = [] ∨ a.getLast? = some 47 then a ++ b
  else a ++ py "/" ++ b

/-- What two lists have in common from the start. -/
def commonNames : List PyStr → List PyStr → List PyStr
  | x :: xs, y :: ys => if x = y then x :: commonNames xs ys else []
  | _, _ => []

/-- The names of a path, without empty ones and dots. -/
def pathNames (path : PyStr) : List PyStr := (splitSlash path).filter fun name => name ≠ [] ∧ name ≠ py "."

/-- `posixpath.commonpath([a, b])`, with `none` for a `ValueError`. -/
def commonpath (a b : PyStr) : Option PyStr :=
  if isabs a = isabs b then
    some ((if isabs a then py "/" else []) ++ join (py "/") (commonNames (pathNames a) (pathNames b)))
  else none

/-- `path.rsplit("/", 1)[0]`. -/
def beforeLastSlash (path : PyStr) : PyStr :=
  if 47 ∈ path then (path.reverse.dropWhile (· != 47)).tail.reverse else path

/-- `absolute.rsplit("/", 1)[0] or "/"`. -/
def parentPath (absolute : PyStr) : PyStr :=
  if beforeLastSlash absolute = [] then py "/" else beforeLastSlash absolute

-- ============================================================================
-- The workspace
-- ============================================================================

/-- The operations of a workspace on files (`workspace/base.py`). -/
inductive WorkspaceOperation where
  | readText (relativePath : PyStr)
  | writeText (relativePath content : PyStr)
  | deleteFile (relativePath : PyStr)
  | listFiles
  | listDirectory (relativePath : PyStr)

/-- `KubernetesWorkspace`, with the working directory as it was given. -/
structure KubernetesWorkspace where
  podName : PyStr
  podNamespace : Option PyStr := none
  container : Option PyStr := none
  givenWorkdir : PyStr
  named : strip podName ≠ []
  absolute : isabs givenWorkdir = true

namespace KubernetesWorkspace

/-- `self._workdir`. -/
def workdir (w : KubernetesWorkspace) : PyStr := normpath w.givenWorkdir

/-- `[flag, value]`, if there is one. -/
def flag (name : String) : Option PyStr → List PyStr
  | some value => if value = [] then [] else [py name, value]
  | none => []

/-- `_exec_argv`. -/
def execArgv (w : KubernetesWorkspace) (command : List PyStr) : List PyStr :=
  [py "kubectl"] ++ flag "-n" w.podNamespace ++ [py "exec", w.podName] ++ flag "-c" w.container ++ [py "--"] ++ command

/-- The path before it is compared. -/
def candidate (w : KubernetesWorkspace) (relativePath : PyStr) : PyStr :=
  normpath (if isabs relativePath then relativePath else posixJoin w.workdir relativePath)

/-- `_absolute_path`. -/
def absolutePath (w : KubernetesWorkspace) (relativePath : PyStr) : Except PyExc PyStr :=
  if commonpath w.workdir (w.candidate relativePath) = some w.workdir then .ok (w.candidate relativePath)
  else
    .error ⟨py "PathTraversalError", py "path " ++ pyReprStr relativePath
      ++ py " resolves outside the workspace root " ++ pyReprStr w.workdir⟩

/-- The command an operation runs in the pod, and what it sends to it. -/
def command (w : KubernetesWorkspace) : WorkspaceOperation → Except PyExc (List PyStr × Option PyStr)
  | .readText relativePath => (w.absolutePath relativePath).map fun path => ([py "cat", path], none)
  | .writeText relativePath content =>
      (w.absolutePath relativePath).map fun absolute =>
        ([py "sh", py "-c", py "mkdir -p " ++ Shell.quote (parentPath absolute) ++ py " && cat > "
          ++ Shell.quote absolute], some content)
  | .deleteFile relativePath => (w.absolutePath relativePath).map fun path => ([py "rm", py "--", path], none)
  | .listFiles => .ok ([py "sh", py "-c", py "cd " ++ Shell.quote w.workdir ++ py " && find . -type f"], none)
  | .listDirectory relativePath =>
      (w.absolutePath relativePath).map fun directory =>
        ([py "find", directory, py "-mindepth", py "1", py "-maxdepth", py "1", py "-printf", py "%f%y\\n"], none)

/-- The text `run_command` hands to `bash -c`. -/
def effective (w : KubernetesWorkspace) (text : PyStr) (cwd : Option PyStr) : Except PyExc PyStr :=
  match cwd with
  | none => .ok text
  | some cwd => (w.absolutePath cwd).map fun path => py "cd " ++ Shell.quote path ++ py " && " ++ text

/-- A finished process. -/
structure Proc where
  returncode : Int
  stdout : PyStr
  stderr : PyStr

/-- What an operation returns: the text that was read, or the names that were listed. -/
inductive Answer where
  | done
  | text (s : PyStr)
  | names (names : List PyStr)
deriving DecidableEq

/-- A `WorkspaceError`. -/
def workspaceError (message : PyStr) : PyExc := ⟨py "WorkspaceError", message⟩

/-- `stdout.splitlines()`. -/
def outputLines (proc : Proc) : List PyStr := (splitlines proc.stdout).map (rstripWhile isLineBreak)

/-- What an operation makes of its process, for a `pattern` and `fnmatch` as a test. -/
def answer (selects : PyStr → Bool) (proc : Proc) : WorkspaceOperation → Except PyExc Answer
  | .readText relativePath =>
      if proc.returncode = 0 then .ok (.text proc.stdout)
      else
        .error (workspaceError (py "failed to read " ++ pyReprStr relativePath ++ py " from pod: " ++ proc.stdout
          ++ proc.stderr))
  | .writeText relativePath _ =>
      if proc.returncode = 0 then .ok .done
      else
        .error (workspaceError (py "failed to write " ++ pyReprStr relativePath ++ py ": " ++ proc.stdout
          ++ proc.stderr))
  | .deleteFile relativePath =>
      if proc.returncode = 0 then .ok .done
      else
        .error (workspaceError (py "failed to delete " ++ pyReprStr relativePath ++ py ": " ++ proc.stdout
          ++ proc.stderr))
  | .listFiles =>
      if proc.returncode = 0 then
        .ok (.names (((((outputLines proc).filter (startsWith (py "./"))).map (List.drop 2)).filter selects).insertionSort
          (· ≤ ·)))
      else .error (workspaceError (py "failed to list files: " ++ proc.stdout ++ proc.stderr))
  | .listDirectory _ =>
      if proc.returncode = 0 then
        .ok (.names (((outputLines proc).map fun line =>
          if line.getLast? = some 100 then line.dropLast ++ py "/" else line.dropLast).insertionSort (· ≤ ·)))
      else .error (workspaceError (py "failed to list directory: " ++ proc.stdout ++ proc.stderr))

/-- An operation: the calls of `kubectl` that it makes, and what it returns. -/
def perform (w : KubernetesWorkspace) (kubectl : List PyStr → Option PyStr → Except PyExc Proc)
    (selects : PyStr → Bool) (op : WorkspaceOperation) : List (List PyStr × Option PyStr) × Except PyExc Answer :=
  match w.command op with
  | .error e => ([], .error e)
  | .ok (command, input) =>
      ([(w.execArgv command, input)], (kubectl (w.execArgv command) input).bind fun proc => answer selects proc op)

end KubernetesWorkspace

-- ============================================================================
-- Where paths lead
-- ============================================================================

/-- The path is the text of these names, behind one or two slashes. -/
def Leads (path : PyStr) (names : List PyStr) : Prop :=
  (∀ name ∈ names, IsName name) ∧ (path = 47 :: join (py "/") names ∨ path = 47 :: 47 :: join (py "/") names)

section Paths

variable {path : PyStr} {names : List PyStr}

theorem Leads.isabs (h : Leads path names) : isabs path = true := by
  rcases h.2 with rfl | rfl <;> rfl

/-- The names of a path that leads somewhere. -/
theorem Leads.pathNames (h : Leads path names) : pathNames path = names := by
  have hjoin : (splitSlash (join (py "/") names)).filter (fun name => name ≠ [] ∧ name ≠ py ".") = names := by
    by_cases hnil : names = []
    · rw [hnil]
      rfl
    · rw [splitSlash_join hnil fun name hname => (h.1 name hname).2.2.2]
      exact List.filter_eq_self.mpr fun name hname => decide_eq_true ⟨(h.1 name hname).1, (h.1 name hname).2.1⟩
  have hslash : ∀ rest : PyStr, splitSlash (47 :: rest) = [] :: splitSlash rest := fun rest => by
    rw [splitSlash, if_pos rfl]
  unfold Files.pathNames
  rcases h.2 with rfl | rfl
  · rw [hslash, List.filter_cons_of_neg (by decide), hjoin]
  · rw [hslash, hslash, List.filter_cons_of_neg (by decide), List.filter_cons_of_neg (by decide), hjoin]

theorem beforeLastSlash_append (dir : PyStr) {name : PyStr} (h : 47 ∉ name) :
    beforeLastSlash (dir ++ 47 :: name) = dir := by
  have hmem : 47 ∈ dir ++ 47 :: name := List.mem_append_right _ List.mem_cons_self
  have hdrop : ((dir ++ 47 :: name).reverse.dropWhile (· != 47)) = 47 :: dir.reverse := by
    rw [List.reverse_append, List.reverse_cons, List.append_assoc,
      List.dropWhile_append_of_pos fun c hc => ?_, List.singleton_append, List.dropWhile_cons_of_neg (by decide)]
    have hne : c ≠ 47 := fun heq => h (heq ▸ List.mem_reverse.mp hc)
    simpa using hne
  rw [beforeLastSlash, if_pos hmem, hdrop, List.tail_cons, List.reverse_reverse]

/-- The parent of a path leads one name less far. -/
theorem Leads.parent (h : Leads path names) : Leads (parentPath path) names.dropLast := by
  refine ⟨fun name hname => h.1 name (List.dropLast_subset _ hname), ?_⟩
  unfold parentPath
  rcases List.eq_nil_or_concat names with rfl | ⟨init, last, rfl⟩
  · rcases h.2 with rfl | rfl
    · exact .inl rfl
    · exact .inl rfl
  · rw [List.concat_eq_append] at h ⊢
    rw [List.dropLast_concat]
    have hlast := (h.1 last (List.mem_append_right _ (List.mem_singleton_self last))).2.2.2
    by_cases hinit : init = []
    · have hone : join (py "/") (init ++ [last]) = last := by
        rw [hinit]
        exact List.intercalate_singleton ..
      have hpath := h.2
      rw [hone] at hpath
      rcases hpath with rfl | rfl
      · rw [show 47 :: last = [] ++ 47 :: last from rfl, beforeLastSlash_append [] hlast, if_pos rfl, hinit]
        exact .inl rfl
      · rw [show 47 :: 47 :: last = [47] ++ 47 :: last from rfl, beforeLastSlash_append [47] hlast, hinit]
        exact .inl rfl
    · have hjoin : join (py "/") (init ++ [last]) = join (py "/") init ++ 47 :: last := by
        rw [join_append hinit (List.cons_ne_nil _ _)]
        exact congrArg (fun text => join (py "/") init ++ 47 :: text) (List.intercalate_singleton ..)
      have hpath := h.2
      rw [hjoin] at hpath
      rcases hpath with rfl | rfl
      · rw [← List.cons_append, beforeLastSlash_append _ hlast, if_neg (List.cons_ne_nil _ _)]
        exact .inl rfl
      · rw [← List.cons_append, ← List.cons_append, beforeLastSlash_append _ hlast, if_neg (List.cons_ne_nil _ _)]
        exact .inr rfl

end Paths

-- ============================================================================
-- What the pod is asked for
-- ============================================================================

namespace KubernetesWorkspace

/-- The names of the working directory. -/
def workdirNames (w : KubernetesWorkspace) : List PyStr := absNames w.givenWorkdir

/-- The path leads to the working directory or below it, without going up. -/
def Inside (w : KubernetesWorkspace) (path : PyStr) : Prop := ∃ names, Leads path names ∧ w.workdirNames <+: names

section Commands

variable (w : KubernetesWorkspace)

variable {w} {relativePath path : PyStr}

end Commands

end KubernetesWorkspace

end Files
end KineticSdk
