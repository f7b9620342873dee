/-
  KineticSdk.Py.Os

  A file tree with symbolic links, and what `os` and `os.path` make of it.

  A path is the list of its names from the root.  `realpath` follows the links
  of a path as CPython's does up to 3.12: it never fails, and where it meets a
  loop it gives up and appends the rest of the path as it stands.  `resolve` is
  the system's own way to a file, which fails there.  A path without links that
  leads to a file is where both end (`realpath_of_linkless`,
  `resolve_of_linkless`).
-/

import KineticSdk.Py.Str

namespace KineticSdk
namespace Py
namespace Os

-- ============================================================================
-- File trees
-- ============================================================================

/-- What stands under a name.  A directory that is not `listable` can be passed
    through by name but not read. -/
inductive Node where
  | file (bytes : List Nat)
  | dir (listable : Bool) (entries : List (PyStr × Node))
  | link (target : PyStr)

/-- The names of an absolute path. -/
abbrev Path := List PyStr

/-- `os.lstat`, for a path through directories only. -/
def lstat : Node → Path → Option Node
  | node, [] => some node
  | .dir _ entries, name :: path =>
      match Dict.get? entries name with
      | some node => lstat node path
      | none => none
  | _, _ :: _ => none

section
-- its equations are made once, before the proofs below
attribute [local simp] lstat
end

mutual

/-- The number of links in a tree. -/
def Node.links : Node → Nat
  | .file _ => 0
  | .dir _ entries => linksIn entries
  | .link _ => 1

/-- The number of links in a directory. -/
def linksIn : List (PyStr × Node) → Nat
  | [] => 0
  | (_, node) :: entries => node.links + linksIn entries

end

-- ============================================================================
-- Paths
-- ============================================================================

/-- `path.split("/")`. -/
def splitSlash (path : PyStr) : List PyStr := splitChar 47 path

/-- `path.startswith("/")`. -/
def isAbs (path : PyStr) : Bool := startsWith (py "/") path

/-- The names of `os.path.join(path, rest)`, not normalised. -/
def joinPath (path : Path) (rest : PyStr) : List PyStr :=
  if isAbs rest then splitSlash rest else path ++ splitSlash rest

/-- `os.path.normpath` of names behind an absolute path. -/
def normalise : Path → List PyStr → Path
  | path, [] => path
  | path, name :: rest =>
      if name = [] ∨ name = py "." then normalise path rest
      else if name = py ".." then normalise path.dropLast rest
      else normalise (path ++ [name]) rest

/-- `os.path.abspath(os.path.join(path, rest))` for a rest that is split already: one
    that starts with a slash is absolute. -/
def joinRest (path : Path) : List PyStr → Path
  | [] :: name :: rest => normalise [] (name :: rest)
  | rest => normalise path rest

/-- What `_joinrealpath` returns, with the links it has seen: one that is being
    resolved maps to `none`. -/
structure Resolved where
  path : Path
  ok : Bool
  seen : List (Path × Option Path)

/-- The loop of `_joinrealpath`, with the call for the target of a link. -/
def followNames (root : Node) (follow : Path → List PyStr → List (Path × Option Path) → Resolved) :
    Path → List PyStr → List (Path × Option Path) → Resolved
  | path, [], seen => ⟨path, true, seen⟩
  | path, name :: rest, seen =>
      if name = [] ∨ name = py "." then followNames root follow path rest seen
      else if name = py ".." then followNames root follow path.dropLast rest seen
      else
        let newPath := path ++ [name]
        match lstat root newPath with
        | some (.link target) =>
            match seen.lookup newPath with
            | some (some resolved) => followNames root follow resolved rest seen
            | some none => ⟨joinRest newPath rest, false, seen⟩
            | none =>
                let inner := follow (if isAbs target then [] else path) (splitSlash target)
                  ((newPath, none) :: seen)
                if inner.ok then
                  followNames root follow inner.path rest ((newPath, some inner.path) :: inner.seen)
                else ⟨joinRest inner.path rest, false, inner.seen⟩
        | _ => followNames root follow newPath rest seen

/-- `_joinrealpath`.  Calls nest at most once for each link. -/
def joinRealpath (root : Node) : Nat → Path → List PyStr → List (Path × Option Path) → Resolved
  | 0 => fun path rest seen => ⟨joinRest path rest, false, seen⟩
  | fuel + 1 => followNames root (joinRealpath root fuel)

/-- `os.path.realpath` of an absolute path, and whether all links were resolved. -/
def realpath (root : Node) (names : List PyStr) : Resolved :=
  joinRealpath root (root.links + 1) [] names []

/-- The loop of the system's path resolution, with the call for the target of a link. -/
def resolveNames (root : Node) (follow : Path → List PyStr → Option Path) :
    Path → List PyStr → Option Path
  | path, [] => some path
  | path, name :: rest =>
      match lstat root path with
      | some (.dir _ _) =>
          if name = [] ∨ name = py "." then resolveNames root follow path rest
          else if name = py ".." then resolveNames root follow path.dropLast rest
          else
            match lstat root (path ++ [name]) with
            | some (.link target) =>
                match follow (if isAbs target then [] else path) (splitSlash target) with
                | some path => resolveNames root follow path rest
                | none => none
            | some _ => resolveNames root follow (path ++ [name]) rest
            | none => none
      | _ => none

/-- The same with links nested to a depth. -/
def resolveIn (root : Node) : Nat → Path → List PyStr → Option Path
  | 0 => fun _ _ => none
  | fuel + 1 => resolveNames root (resolveIn root fuel)

/-- Where the system finds what a path names, without the limit it sets to the
    number of links. -/
def resolve (root : Node) (names : List PyStr) : Option Path := resolveIn root (root.links + 1) [] names

/-- `os.stat`. -/
def stat (root : Node) (names : List PyStr) : Option Node := (resolve root names).bind (lstat root)

/-- `os.path.isdir`. -/
def isDir (root : Node) (names : List PyStr) : Bool :=
  match stat root names with
  | some (.dir _ _) => true
  | _ => false

-- ============================================================================
-- Walking a tree
-- ============================================================================

mutual

/-- The files `os.walk` names under what stands at a path.  Links to directories are
    not followed, and a directory that cannot be read is passed over. -/
def walk (root : Node) : Path → Node → List Path
  | path, .dir true entries => walkIn root path entries
  | _, _ => []

/-- The files `os.walk` names for the entries of a directory. -/
def walkIn (root : Node) : Path → List (PyStr × Node) → List Path
  | _, [] => []
  | path, (name, .dir listable entries) :: rest =>
      walk root (path ++ [name]) (.dir listable entries) ++ walkIn root path rest
  | path, (name, .file _) :: rest => (path ++ [name]) :: walkIn root path rest
  | path, (name, .link _) :: rest =>
      if isDir root (path ++ [name]) then walkIn root path rest
      else (path ++ [name]) :: walkIn root path rest

end

/-- The directories passed on the way to a path can be read. -/
def Listable : Node → Path → Prop
  | .dir listable entries, name :: path =>
      listable = true ∧ ∀ node, Dict.get? entries name = some node → Listable node path
  | _, _ => True

theorem lstat_append (root : Node) (path rest : Path) :
    lstat root (path ++ rest) = (lstat root path).bind fun node => lstat node rest := by
  induction path generalizing root with
  | nil => cases rest <;> cases root <;> rfl
  | cons name path ih =>
      cases root with
      | file bytes => rfl
      | link target => rfl
      | dir listable entries =>
          rw [List.cons_append]
          cases hget : Dict.get? entries name with
          | none => simp only [lstat, hget, Option.bind_none]
          | some node => simp only [lstat, hget, ih]

-- ============================================================================
-- Paths without links
-- ============================================================================

/-- A name as it stands in a directory. -/
structure Plain (name : PyStr) : Prop where
  notEmpty : name ≠ []
  notDot : name ≠ py "."
  notParent : name ≠ py ".."
  noSlash : 47 ∉ name

instance (name : PyStr) : Decidable (Plain name) :=
  decidable_of_iff (name ≠ [] ∧ name ≠ py "." ∧ name ≠ py ".." ∧ 47 ∉ name)
    ⟨fun ⟨h₁, h₂, h₃, h₄⟩ => ⟨h₁, h₂, h₃, h₄⟩, fun ⟨h₁, h₂, h₃, h₄⟩ => ⟨h₁, h₂, h₃, h₄⟩⟩

theorem joinPath_noSlash {path : Path} (hplain : ∀ name ∈ path, Plain name) {rest : PyStr} :
    ∀ name ∈ joinPath path rest, 47 ∉ name := by
  intro name hname
  rw [joinPath] at hname
  by_cases habs : isAbs rest = true
  · rw [if_pos habs] at hname
    exact not_mem_of_mem_splitChar rest name hname
  · rw [if_neg habs] at hname
    rcases List.mem_append.mp hname with hname | hname
    · exact (hplain name hname).noSlash
    · exact not_mem_of_mem_splitChar rest name hname

/-- A path of plain names none of which is a link. -/
structure Linkless (root : Node) (path : Path) : Prop where
  plain : ∀ name ∈ path, Plain name
  noLink : ∀ pre name, pre ++ [name] <+: path → ∀ target, lstat root (pre ++ [name]) ≠ some (.link target)

section Linkless

variable {root : Node} {path rest : Path} {name : PyStr}

theorem linkless_nil (root : Node) : Linkless root [] := by
  refine ⟨fun name hname => absurd hname List.not_mem_nil, fun pre name hpre => ?_⟩
  have hlength := hpre.length_le
  rw [List.length_append] at hlength
  exact absurd hlength (Nat.not_succ_le_zero _)

theorem Linkless.of_prefix {path' : Path} (h : Linkless root path) (hpre : path' <+: path) :
    Linkless root path' :=
  ⟨fun name hname => h.plain name (hpre.subset hname),
    fun pre name hname => h.noLink pre name (hname.trans hpre)⟩

theorem Linkless.dropLast (h : Linkless root path) : Linkless root path.dropLast :=
  h.of_prefix (List.dropLast_prefix path)

theorem Linkless.snoc (h : Linkless root path) (hname : Plain name)
    (hlink : ∀ target, lstat root (path ++ [name]) ≠ some (.link target)) :
    Linkless root (path ++ [name]) := by
  refine ⟨fun n hn => ?_, fun pre n hpre => ?_⟩
  · rcases List.mem_append.mp hn with hn | hn
    · exact h.plain n hn
    · rw [List.mem_singleton.mp hn]
      exact hname
  · rcases List.prefix_concat_iff.mp hpre with heq | hpre
    · rw [heq]
      exact hlink
    · exact h.noLink pre n hpre

/-- The links that are resolved lead to paths without links. -/
def SeenLinkless (root : Node) (seen : List (Path × Option Path)) : Prop :=
  ∀ link target, (link, some target) ∈ seen → Linkless root target

theorem followNames_linkless {follow : Path → List PyStr → List (Path × Option Path) → Resolved}
    (hfollow : ∀ path rest seen, Linkless root path → (∀ name ∈ rest, 47 ∉ name) →
      SeenLinkless root seen → (follow path rest seen).ok = true →
      Linkless root (follow path rest seen).path ∧ SeenLinkless root (follow path rest seen).seen)
    (rest : List PyStr) (path : Path) (seen : List (Path × Option Path)) (hpath : Linkless root path)
    (hrest : ∀ name ∈ rest, 47 ∉ name) (hseen : SeenLinkless root seen)
    (hok : (followNames root follow path rest seen).ok = true) :
    Linkless root (followNames root follow path rest seen).path ∧
      SeenLinkless root (followNames root follow path rest seen).seen := by
  induction rest generalizing path seen with
  | nil => exact ⟨hpath, hseen⟩
  | cons name rest ih =>
      have hrest' : ∀ n ∈ rest, 47 ∉ n := fun n hn => hrest n (List.mem_cons_of_mem _ hn)
      unfold followNames at hok ⊢
      by_cases hdot : name = [] ∨ name = py "."
      · rw [if_pos hdot] at hok ⊢
        exact ih path seen hpath hrest' hseen hok
      rw [if_neg hdot] at hok ⊢
      by_cases hparent : name = py ".."
      · rw [if_pos hparent] at hok ⊢
        exact ih path.dropLast seen hpath.dropLast hrest' hseen hok
      rw [if_neg hparent] at hok ⊢
      have hplain : Plain name :=
        ⟨fun h => hdot (.inl h), fun h => hdot (.inr h), hparent, hrest name (List.mem_cons_self ..)⟩
      dsimp only at hok ⊢
      split at hok
      · rename_i target hlink
        split at hok
        · rename_i resolved hlookup
          obtain ⟨before, after, hsplit, -⟩ := List.lookup_eq_some_iff.mp hlookup
          have hmem : (path ++ [name], some resolved) ∈ seen := by
            rw [hsplit]
            exact List.mem_append_right _ (List.mem_cons_self ..)
          exact ih resolved seen (hseen _ _ hmem) hrest' hseen hok
        · cases hok
        · have hstart : Linkless root (if isAbs target then [] else path) := by
            split_ifs
            · exact linkless_nil root
            · exact hpath
          generalize (if isAbs target then [] else path) = start at hstart hok ⊢
          by_cases hinner : (follow start (splitSlash target) ((path ++ [name], none) :: seen)).ok = true
          case neg =>
            rw [if_neg hinner] at hok
            cases hok
          rw [if_pos hinner] at hok ⊢
          have hseen' : SeenLinkless root ((path ++ [name], none) :: seen) := by
            intro link t hmem
            rcases List.mem_cons.mp hmem with heq | hmem
            · cases heq
            · exact hseen link t hmem
          obtain ⟨hinnerPath, hinnerSeen⟩ :=
            hfollow _ _ _ hstart (not_mem_of_mem_splitChar target) hseen' hinner
          refine ih _ _ hinnerPath hrest' ?_ hok
          intro link t hmem
          rcases List.mem_cons.mp hmem with heq | hmem
          · cases heq
            exact hinnerPath
          · exact hinnerSeen link t hmem
      · rename_i hlink
        exact ih _ seen (hpath.snoc hplain hlink) hrest' hseen hok

theorem joinRealpath_linkless (fuel : Nat) :
    ∀ path rest seen, Linkless root path → (∀ name ∈ rest, 47 ∉ name) → SeenLinkless root seen →
      (joinRealpath root fuel path rest seen).ok = true →
      Linkless root (joinRealpath root fuel path rest seen).path ∧
        SeenLinkless root (joinRealpath root fuel path rest seen).seen := by
  induction fuel with
  | zero =>
      intro path rest seen _ _ _ hok
      cases hok
  | succ fuel ih =>
      intro path rest seen hpath hrest hseen hok
      exact followNames_linkless ih rest path seen hpath hrest hseen hok

/-- A path whose links could all be resolved has none left. -/
theorem realpath_linkless {names : List PyStr} (hnames : ∀ name ∈ names, 47 ∉ name)
    (hok : (realpath root names).ok = true) : Linkless root (realpath root names).path :=
  (joinRealpath_linkless _ [] names [] (linkless_nil root) hnames
    (fun _ _ hmem => absurd hmem List.not_mem_nil) hok).1

theorem followNames_of_linkless
    {follow : Path → List PyStr → List (Path × Option Path) → Resolved}
    (seen : List (Path × Option Path)) (h : Linkless root (path ++ rest)) :
    followNames root follow path rest seen = ⟨path ++ rest, true, seen⟩ := by
  induction rest generalizing path with
  | nil => rw [List.append_nil]; rfl
  | cons name rest ih =>
      have hplain := h.plain name (List.mem_append_right _ (List.mem_cons_self ..))
      have hsplit : path ++ name :: rest = (path ++ [name]) ++ rest := by rw [List.append_assoc]; rfl
      rw [hsplit] at h ⊢
      have hlink := h.noLink path name (List.prefix_append ..)
      unfold followNames
      rw [if_neg (not_or.mpr ⟨hplain.notEmpty, hplain.notDot⟩), if_neg hplain.notParent]
      dsimp only
      split
      · rename_i target heq
        exact absurd heq (hlink target)
      · exact ih h

/-- A path without links is the canonical one. -/
theorem realpath_of_linkless (h : Linkless root path) : realpath root path = ⟨path, true, []⟩ :=
  followNames_of_linkless [] h

/-- Nothing joined to a canonical path leaves it as it is. -/
theorem realpath_joinPath_nil (h : Linkless root path) : (realpath root (joinPath path [])).path = path := by
  have hgo : ∀ rest pre seen (follow : Path → List PyStr → List (Path × Option Path) → Resolved),
      Linkless root (pre ++ rest) → followNames root follow pre (rest ++ [[]]) seen = ⟨pre ++ rest, true, seen⟩ := by
    intro rest
    induction rest with
    | nil =>
        intro pre seen follow _
        rw [List.append_nil]
        rfl
    | cons name rest ih =>
        intro pre seen follow hlinkless
        have hplain := hlinkless.plain name (List.mem_append_right _ (List.mem_cons_self ..))
        have hsplit : pre ++ name :: rest = (pre ++ [name]) ++ rest := by rw [List.append_assoc]; rfl
        rw [hsplit] at hlinkless ⊢
        have hlink := hlinkless.noLink pre name (List.prefix_append ..)
        rw [List.cons_append, followNames, if_neg (not_or.mpr ⟨hplain.notEmpty, hplain.notDot⟩),
          if_neg hplain.notParent]
        dsimp only
        split
        · rename_i target heq
          exact absurd heq (hlink target)
        · exact ih _ seen follow hlinkless
  show (followNames root _ [] (path ++ [[]]) []).path = path
  rw [hgo path [] [] _ h, List.nil_append]

/-- What leads to something passes through directories. -/
theorem lstat_prefix {node : Node} (pre : Path) (h : lstat root (pre ++ name :: rest) = some node) :
    ∃ listable entries, lstat root pre = some (.dir listable entries) := by
  induction pre generalizing root with
  | nil =>
      cases root with
      | dir listable entries => exact ⟨listable, entries, rfl⟩
      | file bytes => cases h
      | link target => cases h
  | cons first pre ih =>
      cases root with
      | file bytes => cases h
      | link target => cases h
      | dir listable entries =>
          rw [List.cons_append] at h
          unfold lstat at h ⊢
          split at h
          · rename_i node' hnode
            exact ih h
          · cases h

theorem resolveNames_of_linkless {follow : Path → List PyStr → Option Path}
    (h : Linkless root (path ++ rest)) :
    (resolveNames root follow path rest).bind (lstat root) = lstat root (path ++ rest) := by
  induction rest generalizing path with
  | nil => rw [List.append_nil]; rfl
  | cons name rest ih =>
      have hplain := h.plain name (List.mem_append_right _ (List.mem_cons_self ..))
      have hnext : path ++ name :: rest = (path ++ [name]) ++ rest := by rw [List.append_assoc]; rfl
      unfold resolveNames
      split
      · rw [if_neg (not_or.mpr ⟨hplain.notEmpty, hplain.notDot⟩), if_neg hplain.notParent]
        rw [hnext] at h ⊢
        have hlink := h.noLink path name (List.prefix_append ..)
        split
        · rename_i target heq
          exact absurd heq (hlink target)
        · exact ih h
        · rename_i hnone
          rw [Option.bind_none]
          cases rest with
          | nil => rw [List.append_nil, hnone]
          | cons n rest =>
              cases hfound : lstat root (path ++ [name] ++ n :: rest) with
              | none => rfl
              | some node =>
                  obtain ⟨listable, entries, hdir⟩ := lstat_prefix _ hfound
                  rw [hnone] at hdir
                  cases hdir
      · rename_i hnotDir
        rw [Option.bind_none]
        cases hfound : lstat root (path ++ name :: rest) with
        | none => rfl
        | some node =>
            obtain ⟨listable, entries, hdir⟩ := lstat_prefix _ hfound
            exact absurd hdir (hnotDir listable entries)

/-- The system finds what stands at a path without links. -/
theorem stat_of_linkless (h : Linkless root path) : stat root path = lstat root path :=
  resolveNames_of_linkless h

end Linkless

theorem links_le_of_get? {entries : List (PyStr × Node)} {name : PyStr} {node : Node}
    (h : Dict.get? entries name = some node) : node.links ≤ linksIn entries := by
  induction entries with
  | nil => cases h
  | cons entry entries ih =>
      obtain ⟨n, other⟩ := entry
      rw [Dict.get?_cons] at h
      unfold linksIn
      by_cases hn : n = name
      · rw [if_pos hn] at h
        cases h
        exact Nat.le_add_right ..
      · rw [if_neg hn] at h
        exact Nat.le_trans (ih h) (Nat.le_add_left ..)

theorem links_pos {root : Node} {path : Path} {target : PyStr} (h : lstat root path = some (.link target)) :
    0 < root.links := by
  induction path generalizing root with
  | nil =>
      cases h
      exact Nat.one_pos
  | cons name path ih =>
      cases root with
      | file bytes => cases h
      | link target => cases h
      | dir listable entries =>
          unfold lstat at h
          split at h
          · rename_i node hnode
            exact Nat.lt_of_lt_of_le (ih h) (links_le_of_get? hnode)
          · cases h

/-- In a tree without links every path of plain names has none. -/
theorem linkless_of_links {root : Node} {path : Path} (h : root.links = 0) (hplain : ∀ name ∈ path, Plain name) :
    Linkless root path :=
  ⟨hplain, fun _ _ _ _ hlink => absurd (links_pos hlink) (by rw [h]; exact Nat.lt_irrefl 0)⟩

-- ============================================================================
-- Walking to a file
-- ============================================================================

theorem mem_walkIn {root node : Node} {path : Path} {entries : List (PyStr × Node)} {name : PyStr}
    (h : Dict.get? entries name = some node) {file : Path}
    (hdir : ∀ listable entries', node = .dir listable entries' → file ∈ walk root (path ++ [name]) node)
    (hfile : ∀ bytes, node = .file bytes → file = path ++ [name]) (hlink : ∀ target, node ≠ .link target) :
    file ∈ walkIn root path entries := by
  induction entries with
  | nil => cases h
  | cons entry entries ih =>
      obtain ⟨n, other⟩ := entry
      rw [Dict.get?_cons] at h
      by_cases hn : n = name
      · rw [if_pos hn] at h
        cases h
        cases node with
        | file bytes =>
            rw [hfile bytes rfl]
            unfold walkIn
            rw [hn]
            exact List.mem_cons_self ..
        | dir listable entries' =>
            unfold walkIn
            rw [hn]
            exact List.mem_append_left _ (hdir listable entries' rfl)
        | link target => exact absurd rfl (hlink target)
      · rw [if_neg hn] at h
        have hrest := ih h
        cases other with
        | file bytes =>
            unfold walkIn
            exact List.mem_cons_of_mem _ hrest
        | dir listable entries' =>
            unfold walkIn
            exact List.mem_append_right _ hrest
        | link target =>
            unfold walkIn
            split_ifs
            · exact hrest
            · exact List.mem_cons_of_mem _ hrest

/-- Walking names every file that can be reached through directories that can be
    read. -/
theorem mem_walk (root : Node) (path : Path) {node : Node} {rest : Path} {name : PyStr} {bytes : List Nat}
    (h : lstat node (name :: rest) = some (.file bytes)) (hlistable : Listable node (name :: rest)) :
    path ++ name :: rest ∈ walk root path node := by
  induction rest generalizing path node name with
  | nil =>
      cases node with
      | file _ => cases h
      | link _ => cases h
      | dir listable entries =>
          obtain ⟨rfl, -⟩ := hlistable
          unfold lstat at h
          split at h
          · rename_i node hnode
            cases h
            unfold walk
            exact mem_walkIn hnode (fun _ _ heq => by cases heq) (fun _ _ => rfl)
              fun target heq => by cases heq
          · cases h
  | cons next rest ih =>
      cases node with
      | file _ => cases h
      | link _ => cases h
      | dir listable entries =>
          obtain ⟨rfl, hbelow⟩ := hlistable
          unfold lstat at h
          split at h
          · rename_i node hnode
            have hin := ih (path ++ [name]) h (hbelow node hnode)
            rw [List.append_assoc] at hin
            unfold walk
            refine mem_walkIn hnode (fun _ _ _ => hin) (fun _ heq => ?_) fun target heq => ?_
            · rw [heq] at h
              cases h
            · rw [heq] at h
              cases h
          · cases h

-- ============================================================================
-- Changing a tree
-- ============================================================================

/-- A file written at a path without links, its directories made; `none` where something
    else stands in the way. -/
def put : Node → Path → List Nat → Option Node
  | .dir listable entries, [name], bytes =>
      match Dict.get? entries name with
      | some (.dir _ _) => none
      | some (.link _) => none
      | _ => some (.dir listable (Dict.set entries name (.file bytes)))
  | .dir listable entries, name :: rest, bytes => do
      let node ← put ((Dict.get? entries name).getD (.dir true [])) rest bytes
      return .dir listable (Dict.set entries name node)
  | _, _, _ => none

section
-- its equations are made once, before the proofs below
attribute [local simp] put
end

/-- The file at a path without links taken out. -/
def remove : Node → Path → Option Node
  | .dir listable entries, [name] =>
      match Dict.get? entries name with
      | some (.file _) => some (.dir listable (Dict.pop entries name))
      | _ => none
  | .dir listable entries, name :: rest => do
      let node ← remove (← Dict.get? entries name) rest
      return .dir listable (Dict.set entries name node)
  | _, _ => none

/-- The file at a path. -/
def fileAt (root : Node) (path : Path) : Option (List Nat) :=
  match lstat root path with
  | some (.file bytes) => some bytes
  | _ => none

theorem fileAt_cons (listable : Bool) (entries : List (PyStr × Node)) (name : PyStr) (path : Path) :
    fileAt (.dir listable entries) (name :: path)
      = (Dict.get? entries name).bind fun node => fileAt node path := by
  unfold fileAt
  rw [lstat]
  cases Dict.get? entries name <;> rfl

theorem fileAt_file (bytes : List Nat) (path : Path) :
    fileAt (.file bytes) path = if path = [] then some bytes else none := by
  cases path <;> rfl

theorem fileAt_empty (listable : Bool) (path : Path) : fileAt (.dir listable []) path = none := by
  cases path <;> rfl

/-- The files of a directory one entry of which is replaced. -/
theorem fileAt_set {entries : List (PyStr × Node)} {listable : Bool} {name : PyStr} {node : Node} {rest : Path}
    {new : Option (List Nat)} (h : ∀ path, fileAt node path = if path = rest then new
      else (Dict.get? entries name).bind fun node => fileAt node path) (other : Path) :
    fileAt (.dir listable (Dict.set entries name node)) other
      = if other = name :: rest then new else fileAt (.dir listable entries) other := by
  cases other with
  | nil => rfl
  | cons n path =>
      rw [fileAt_cons, fileAt_cons]
      by_cases hn : n = name
      · rw [hn, Dict.get?_set_self, Option.bind_some, h]
        by_cases hpath : path = rest
        · rw [if_pos hpath, if_pos (by rw [hpath])]
        · rw [if_neg hpath, if_neg fun heq => hpath (List.cons.inj heq).2]
      · rw [Dict.get?_set_of_ne _ _ (Ne.symm hn), if_neg fun heq => hn (List.cons.inj heq).1]

/-- Writing changes no other file. -/
theorem fileAt_put {tree tree' : Node} {path : Path} {bytes : List Nat} (h : put tree path bytes = some tree')
    (other : Path) : fileAt tree' other = if other = path then some bytes else fileAt tree other := by
  induction path generalizing tree tree' other with
  | nil => cases tree <;> cases h
  | cons name rest ih =>
      cases tree with
      | file bytes => cases h
      | link target => cases h
      | dir listable entries =>
          cases rest with
          | nil =>
              rw [put] at h
              split at h
              · cases h
              · cases h
              · rename_i hdir hlink
                cases h
                refine fileAt_set (fun path => ?_) other
                rw [fileAt_file]
                by_cases hpath : path = []
                · rw [if_pos hpath, if_pos hpath]
                · rw [if_neg hpath, if_neg hpath]
                  cases hget : Dict.get? entries name with
                  | none => rfl
                  | some node =>
                      cases node with
                      | file old => exact ((fileAt_file old path).trans (if_neg hpath)).symm
                      | dir listable entries => exact absurd hget (hdir listable entries)
                      | link target => exact absurd hget (hlink target)
          | cons next rest =>
              rw [put] at h
              · obtain ⟨node, hnode, h⟩ := Option.bind_eq_some_iff.mp h
                cases h
                refine fileAt_set (fun path => ?_) other
                rw [ih hnode path]
                refine if_congr Iff.rfl rfl ?_
                cases hget : Dict.get? entries name with
                | none => exact fileAt_empty true path
                | some child => rfl
              · exact fun h => nomatch h

theorem fileAt_pop {entries : List (PyStr × Node)} {listable : Bool} {name : PyStr} {bytes : List Nat}
    (h : Dict.get? entries name = some (.file bytes)) (other : Path) :
    fileAt (.dir listable (Dict.pop entries name)) other
      = if other = [name] then none else fileAt (.dir listable entries) other := by
  cases other with
  | nil => rfl
  | cons n path =>
      rw [fileAt_cons, fileAt_cons, Dict.get?_pop]
      by_cases hn : n = name
      · rw [if_pos hn, hn, h, Option.bind_none, Option.bind_some, fileAt_file]
        by_cases hpath : path = []
        · rw [if_pos (by rw [hpath])]
        · rw [if_neg hpath, ite_self]
      · rw [if_neg hn, if_neg fun heq => hn (List.cons.inj heq).1]

/-- Deleting changes no other file. -/
theorem fileAt_remove {tree tree' : Node} {path : Path} (h : remove tree path = some tree')
    (other : Path) : fileAt tree' other = if other = path then none else fileAt tree other := by
  induction path generalizing tree tree' other with
  | nil => cases tree <;> cases h
  | cons name rest ih =>
      cases tree with
      | file bytes => cases h
      | link target => cases h
      | dir listable entries =>
          cases rest with
          | nil =>
              rw [remove] at h
              split at h
              · rename_i bytes hfile
                cases h
                exact fileAt_pop hfile other
              · cases h
          | cons next rest =>
              rw [remove] at h
              · obtain ⟨child, hchild, h⟩ := Option.bind_eq_some_iff.mp h
                obtain ⟨node, hnode, h⟩ := Option.bind_eq_some_iff.mp h
                cases h
                refine fileAt_set (fun path => ?_) other
                rw [ih hnode path, hchild]
                rfl
              · exact fun h => nomatch h

-- ============================================================================
-- Directories stay
-- ============================================================================

/-- A directory stands at a path. -/
def IsDirAt (root : Node) (path : Path) : Prop := ∃ listable entries, lstat root path = some (.dir listable entries)

theorem isDirAt_cons {listable : Bool} {entries : List (PyStr × Node)} {name : PyStr} {path : Path} :
    IsDirAt (.dir listable entries) (name :: path)
      ↔ ∃ node, Dict.get? entries name = some node ∧ IsDirAt node path := by
  unfold IsDirAt
  rw [lstat]
  cases Dict.get? entries name with
  | none => exact ⟨fun ⟨_, _, h⟩ => (nomatch h), fun ⟨_, h, _⟩ => (nomatch h)⟩
  | some node => exact ⟨fun h => ⟨node, rfl, h⟩, fun ⟨_, heq, h⟩ => Option.some.inj heq ▸ h⟩

theorem not_isDirAt_file {bytes : List Nat} {path : Path} : ¬ IsDirAt (.file bytes) path := by
  rintro ⟨listable, entries, h⟩
  cases path <;> cases h

theorem isDirAt_set {entries : List (PyStr × Node)} {listable : Bool} {name : PyStr} {new : Node}
    (h : ∀ node path, Dict.get? entries name = some node → IsDirAt node path → IsDirAt new path) {other : Path}
    (hdir : IsDirAt (.dir listable entries) other) : IsDirAt (.dir listable (Dict.set entries name new)) other := by
  cases other with
  | nil => exact ⟨listable, _, rfl⟩
  | cons n path =>
      obtain ⟨node, hnode, hdir⟩ := isDirAt_cons.mp hdir
      by_cases hn : n = name
      · rw [hn] at hnode ⊢
        exact isDirAt_cons.mpr ⟨new, Dict.get?_set_self .., h node path hnode hdir⟩
      · exact isDirAt_cons.mpr ⟨node, (Dict.get?_set_of_ne _ _ (Ne.symm hn)).trans hnode, hdir⟩

/-- Writing removes no directory. -/
theorem isDirAt_put {tree tree' : Node} {path : Path} {bytes : List Nat} (h : put tree path bytes = some tree')
    {dir : Path} (hdir : IsDirAt tree dir) : IsDirAt tree' dir := by
  induction path generalizing tree tree' dir with
  | nil => cases tree <;> cases h
  | cons name rest ih =>
      cases tree with
      | file bytes => cases h
      | link target => cases h
      | dir listable entries =>
          cases rest with
          | nil =>
              rw [put] at h
              split at h
              · cases h
              · cases h
              · rename_i hnotDir hnotLink
                cases h
                refine isDirAt_set (fun node path hnode hdir => ?_) hdir
                cases node with
                | file old => exact absurd hdir not_isDirAt_file
                | dir listable entries => exact absurd hnode (hnotDir listable entries)
                | link target => exact absurd hnode (hnotLink target)
          | cons next rest =>
              rw [put] at h
              · obtain ⟨node, hnode, h⟩ := Option.bind_eq_some_iff.mp h
                cases h
                refine isDirAt_set (fun child path hchild hdir => ih hnode ?_) hdir
                rw [hchild]
                exact hdir
              · exact fun h => nomatch h

/-- Deleting a file removes no directory. -/
theorem isDirAt_remove {tree tree' : Node} {path : Path} (h : remove tree path = some tree') {dir : Path}
    (hdir : IsDirAt tree dir) : IsDirAt tree' dir := by
  induction path generalizing tree tree' dir with
  | nil => cases tree <;> cases h
  | cons name rest ih =>
      cases tree with
      | file bytes => cases h
      | link target => cases h
      | dir listable entries =>
          cases rest with
          | nil =>
              rw [remove] at h
              split at h
              · rename_i bytes hfile
                cases h
                cases dir with
                | nil => exact ⟨listable, _, rfl⟩
                | cons n path =>
                    obtain ⟨node, hnode, hdir⟩ := isDirAt_cons.mp hdir
                    refine isDirAt_cons.mpr ⟨node, ?_, hdir⟩
                    rw [Dict.get?_pop, if_neg, hnode]
                    rintro rfl
                    cases hfile.symm.trans hnode
                    exact not_isDirAt_file hdir
              · cases h
          | cons next rest =>
              rw [remove] at h
              · obtain ⟨child, hchild, h⟩ := Option.bind_eq_some_iff.mp h
                obtain ⟨node, hnode, h⟩ := Option.bind_eq_some_iff.mp h
                cases h
                refine isDirAt_set (fun child' path hchild' hdir => ih hnode ?_) hdir
                cases hchild.symm.trans hchild'
                exact hdir
              · exact fun h => nomatch h

/-- No file can be written where a directory stands. -/
theorem put_dir {tree : Node} {path : Path} (h : IsDirAt tree path) (bytes : List Nat) :
    put tree path bytes = none := by
  induction path generalizing tree with
  | nil => cases tree <;> rfl
  | cons name rest ih =>
      cases tree with
      | file bytes => rfl
      | link target => rfl
      | dir listable entries =>
          obtain ⟨node, hnode, hdir⟩ := isDirAt_cons.mp h
          cases rest with
          | nil =>
              obtain ⟨listable', entries', heq⟩ := hdir
              cases heq
              rw [put, hnode]
          | cons next rest =>
              rw [put, hnode, Option.getD_some, ih hdir]
              · rfl
              · exact fun h => nomatch h

end Os
end Py
end KineticSdk
