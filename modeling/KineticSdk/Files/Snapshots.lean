/-
  KineticSdk.Files.Snapshots

  `GitSnapshotStore.snapshot` (`files/snapshots.py`) before the edits of a
  `FileTool`.

  The sidecar repository is a tree of its own beside the files, with the
  contents that are committed.  Git says which commits it refuses.
-/

import KineticSdk.Files.LocalWorkspace
import KineticSdk.Files.Mirror
import KineticSdk.Py.Regex

namespace KineticSdk
namespace Files

open Py Py.Os Lib.Steps

-- ============================================================================
-- The store
-- ============================================================================

/-- The sidecar repository: its work tree, and the content of each path at `HEAD`. -/
structure Repo where
  tree : Node
  committed : List (Path × List Nat)

/-- Git, as far as a snapshot can tell: what `add` or `commit` of a path says when it fails. -/
structure Git where
  refusal : Repo → Path → Option PyStr

/-- `DEFAULT_EXCLUDE_GLOBS`. -/
def defaultExcludeGlobs : List PyStr :=
  [py ".env", py ".env.*", py "*.pem", py "*.key", py "id_rsa*", py "*.p12", py "credentials*", py "secrets*"]

/-- A `GitSnapshotStore`. -/
structure GitSnapshotStore where
  workspace : LocalWorkspace
  git : Git
  excludeGlobs : List PyStr
  strict : Bool

/-- `Path(path).parts`, for a relative path. -/
def pathParts (path : PyStr) : List PyStr := (splitSlash path).filter fun part => part ≠ [] && part ≠ py "."

namespace GitSnapshotStore

variable (store : GitSnapshotStore)

/-- `_validate_path`. -/
def validatePath (path : PyStr) : Except PyExc Path :=
  if path = [] then .error ⟨py "ValueError", py "path must be a non-empty workspace-relative string"⟩
  else if isAbs path || (pathParts path).contains (py "..") || isInternalSnapshotPath path then
    .error ⟨py "ValueError", py "path must not address internal snapshot storage or escape the workspace"⟩
  else (store.workspace.resolve path).map fun resolved => resolved.drop store.workspace.root.length

/-- `_is_excluded`. -/
def isExcluded (relative : Path) : Bool :=
  let value := if relative = [] then py "." else join (py "/") relative
  store.excludeGlobs.any fun glob => Regex.fnmatch value glob || Regex.fnmatch (relative.getLastD []) glob

/-- `snapshot`, for a path with its content. -/
def snapshot (path content : PyStr) (repo : Repo) : Except PyExc Unit × Repo :=
  match store.validatePath path with
  | .error e => (.error e, repo)
  | .ok relative =>
      if store.isExcluded relative then (.ok (), repo)
      else
        match put repo.tree relative ((utf8Encode content).getD []) with
        | none => (.error (blocked repo.tree relative), repo)
        | some tree =>
            match utf8Encode content with
            | none => (.error ⟨py "UnicodeEncodeError", py "surrogates not allowed"⟩, { repo with tree })
            | some bytes =>
                match store.git.refusal ⟨tree, repo.committed⟩ relative with
                | some message =>
                    -- a snapshot that fails stops the edit only if the store is strict
                    (if store.strict then .error ⟨py "SnapshotStoreError", message⟩ else .ok (), { repo with tree })
                | none => (.ok (), ⟨tree, (relative, bytes) :: repo.committed⟩)

end GitSnapshotStore

/-- The operations of a workspace, beside a repository they do not touch. -/
def besides {σ κ : Type} (w : WorkspaceBase σ) : WorkspaceBase (σ × κ) where
  readText path files := w.readText path files.1
  writeText path text files := ((w.writeText path text files.1).1, (w.writeText path text files.1).2, files.2)
  deleteFile path files := ((w.deleteFile path files.1).1, (w.deleteFile path files.1).2, files.2)
  listDirectory path files := w.listDirectory path files.1

/-- The same tool with the store. -/
def GitSnapshotStore.tool (store : GitSnapshotStore) (maxViewLines : Nat) : FileTool (Node × Repo) where
  workspace := besides store.workspace.base
  maxViewLines := maxViewLines
  snapshot := some fun path content files =>
    ((store.snapshot path content files.2).1, files.1, (store.snapshot path content files.2).2)

-- ============================================================================
-- Forgetting the repository
-- ============================================================================

section Plain

variable {σ κ : Type}

/-- The state without what stands beside the files. -/
def ToolState.plain (s : ToolState (σ × κ)) : ToolState σ := ⟨s.files.1, s.undo⟩

/-- The second tool is the first with a snapshot method that leaves the files alone. -/
structure Adds (t : FileTool σ) (t' : FileTool (σ × κ))
    (snapshot : PyStr → PyStr → σ × κ → Except PyExc Unit × (σ × κ)) : Prop where
  without : t.snapshot = none
  workspace : t'.workspace = besides t.workspace
  maxViewLines : t'.maxViewLines = t.maxViewLines
  store : t'.snapshot = some snapshot
  apart : ∀ path content files, (snapshot path content files).2.1 = files.1

variable {similar : PyStr → PyStr → Bool} {t : FileTool σ} {t' : FileTool (σ × κ)}
  {snapshot : PyStr → PyStr → σ × κ → Except PyExc Unit × (σ × κ)} {s : ToolState (σ × κ)} {path : PyStr}

end Plain

-- ============================================================================
-- Snapshots that succeed
-- ============================================================================

/-- Git refuses to commit a path only if its content is the committed one, if it is ignored by
    the `.gitignore` files of the work tree, or if it lies under a name of git's own. -/
def Healthy (git : Git) (ignored : Node → Path → Bool) : Prop :=
  ∀ repo path, git.refusal repo path ≠ none →
    repo.committed.lookup path = fileAt repo.tree path ∨ ignored repo.tree path = true ∨ py ".git" ∈ path

/-- The file has a place in the sidecar: the snapshot is not the last one again, and the path is
    not ignored once it is written. -/
structure Fresh (ignored : Node → Path → Bool) (relative : Path) (bytes : List Nat) (repo : Repo) : Prop where
  placed : ∃ tree, put repo.tree relative bytes = some tree ∧ ignored tree relative = false
  changed : repo.committed.lookup relative ≠ some bytes
  notGit : py ".git" ∉ relative

variable {store : GitSnapshotStore} {ignored : Node → Path → Bool} {path content : PyStr} {repo : Repo}

/-- Git that commits whatever has changed. -/
def plainGit : Git where
  refusal repo path :=
    if repo.committed.lookup path = fileAt repo.tree path then some (py "nothing to commit, working tree clean")
    else none

/-- A strict store on the workspace of one file. -/
def localStore : GitSnapshotStore := ⟨localWorkspace, plainGit, defaultExcludeGlobs, true⟩

/-- A repository in which nothing is committed. -/
def emptyRepo : Repo := ⟨.dir true [], []⟩

end Files
end KineticSdk
