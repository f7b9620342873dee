/-
  KineticSdk.Py.MakeDirs

  `os.makedirs`, and what stays as it is when directories and files are made.

  Making directories and writing files leaves every link of a tree where it is
  (`sameLinks_makeDirs`, `sameLinks_put`), and `realpath` asks nothing else of
  the tree (`SameLinks.realpath_eq`).  Directories can be made as long as nothing
  but directories stands on the way (`makeDirs_isSome_iff`).
-/

import KineticSdk.Py.Os

namespace KineticSdk
namespace Py
namespace Os

/-- The directories of a path without links; `none` where something else stands in the
    way. -/
def makeDirs : Node → Path → Option Node
  | .dir listable entries, [] => some (.dir listable entries)
  | .dir listable entries, name :: rest => do
      let node ← makeDirs ((Dict.get? entries name).getD (.dir true [])) rest
      return .dir listable (Dict.set entries name node)
  | _, _ => none

section
-- its equations are made once, before the proofs below
attribute [local simp] makeDirs
end

/-- Nothing but directories stands on the way to a path, and at it. -/
def Clear (tree : Node) (path : Path) : Prop :=
  ∀ pre, pre <+: path → ∀ node, lstat tree pre = some node → ∃ listable entries, node = .dir listable entries

-- ============================================================================
-- Links stay
-- ============================================================================

/-- The link at a path. -/
def linkAt (root : Node) (path : Path) : Option PyStr :=
  match lstat root path with
  | some (.link target) => some target
  | _ => none

/-- Two trees have the same links. -/
structure SameLinks (a b : Node) : Prop where
  links : a.links = b.links
  linkAt : ∀ path, Os.linkAt a path = Os.linkAt b path

theorem linkAt_cons (listable : Bool) (entries : List (PyStr × Node)) (name : PyStr) (path : Path) :
    linkAt (.dir listable entries) (name :: path)
      = (Dict.get? entries name).bind fun node => linkAt node path := by
  rw [linkAt, lstat]
  cases Dict.get? entries name <;> rfl

theorem linkAt_file (bytes : List Nat) (path : Path) : linkAt (.file bytes) path = none := by
  cases path <;> rfl

theorem linkAt_empty (listable : Bool) (path : Path) : linkAt (.dir listable []) path = none := by
  cases path <;> rfl

theorem linkAt_eq_none {root : Node} {path : Path} :
    linkAt root path = none ↔ ∀ target, lstat root path ≠ some (.link target) := by
  rw [linkAt]
  split
  · rename_i target h
    exact ⟨fun h => (nomatch h), fun hno => absurd h (hno target)⟩
  · rename_i h
    exact ⟨fun _ target => h target, fun _ => rfl⟩

theorem SameLinks.refl (a : Node) : SameLinks a a := ⟨rfl, fun _ => rfl⟩

theorem SameLinks.trans {a b c : Node} (h : SameLinks a b) (h' : SameLinks b c) : SameLinks a c :=
  ⟨h.links.trans h'.links, fun path => (h.linkAt path).trans (h'.linkAt path)⟩

theorem linksIn_set {entries : List (PyStr × Node)} {name : PyStr} {new : Node}
    (h : ((Dict.get? entries name).getD (.dir true [])).links = new.links) :
    linksIn entries = linksIn (Dict.set entries name new) := by
  induction entries with
  | nil =>
      have hnew : 0 = new.links := h
      show 0 = new.links + 0
      omega
  | cons entry entries ih =>
      obtain ⟨n, node⟩ := entry
      rw [Dict.get?_cons] at h
      rw [Dict.set]
      by_cases hn : n = name
      · rw [if_pos hn] at h ⊢
        have hnew : node.links = new.links := h
        show node.links + linksIn entries = new.links + linksIn entries
        omega
      · rw [if_neg hn] at h ⊢
        have hrest := ih h
        show node.links + linksIn entries = node.links + linksIn (Dict.set entries name new)
        omega

theorem sameLinks_set {entries : List (PyStr × Node)} {listable : Bool} {name : PyStr} {new : Node}
    (h : SameLinks ((Dict.get? entries name).getD (.dir true [])) new) :
    SameLinks (.dir listable entries) (.dir listable (Dict.set entries name new)) := by
  refine ⟨linksIn_set h.links, fun path => ?_⟩
  cases path with
  | nil => rfl
  | cons n path =>
      rw [linkAt_cons, linkAt_cons]
      by_cases hn : name = n
      · rw [← hn, Dict.get?_set_self, Option.bind_some, ← h.linkAt]
        cases Dict.get? entries name with
        | none => exact (linkAt_empty true path).symm
        | some node => rfl
      · rw [Dict.get?_set_of_ne _ _ hn]

/-- Making directories leaves the links as they are. -/
theorem sameLinks_makeDirs {tree tree' : Node} {path : Path} (h : makeDirs tree path = some tree') :
    SameLinks tree tree' := by
  induction path generalizing tree tree' with
  | nil =>
      cases tree with
      | dir listable entries =>
          cases h
          exact .refl _
      | file bytes => cases h
      | link target => cases h
  | cons name rest ih =>
      cases tree with
      | dir listable entries =>
          obtain ⟨node, hnode, h⟩ := Option.bind_eq_some_iff.mp h
          cases h
          exact sameLinks_set (ih hnode)
      | file bytes => cases h
      | link target => cases h

/-- Writing a file leaves the links as they are. -/
theorem sameLinks_put {tree tree' : Node} {path : Path} {bytes : List Nat} (h : put tree path bytes = some tree') :
    SameLinks tree tree' := by
  induction path generalizing tree tree' with
  | nil => cases tree <;> cases h
  | cons name rest ih =>
      cases tree with
      | file bytes => cases h
      | link target => cases h
      | dir listable entries =>
          cases rest with
          | nil =>
              rw [put] at h
              split at h
              · cases h
              · cases h
              · rename_i hdir hlink
                cases h
                refine sameLinks_set ?_
                cases hget : Dict.get? entries name with
                | none => exact ⟨rfl, fun path => (linkAt_empty true path).trans (linkAt_file bytes path).symm⟩
                | some node =>
                    cases node with
                    | file old => exact ⟨rfl, fun path => (linkAt_file old path).trans (linkAt_file bytes path).symm⟩
                    | dir listable entries => exact absurd hget (hdir listable entries)
                    | link target => exact absurd hget (hlink target)
          | cons next rest =>
              rw [put] at h
              · obtain ⟨node, hnode, h⟩ := Option.bind_eq_some_iff.mp h
                cases h
                exact sameLinks_set (ih hnode)
              · exact List.cons_ne_nil next rest

section Realpath

variable {a b : Node}

theorem followNames_congr (h : ∀ path, linkAt a path = linkAt b path)
    (follow : Path → List PyStr → List (Path × Option Path) → Resolved) (rest : List PyStr) (path : Path)
    (seen : List (Path × Option Path)) :
    followNames a follow path rest seen = followNames b follow path rest seen := by
  induction rest generalizing path seen with
  | nil => rfl
  | cons name rest ih =>
      rw [followNames, followNames]
      refine if_congr Iff.rfl (ih path seen) (if_congr Iff.rfl (ih path.dropLast seen) ?_)
      have hlink := h (path ++ [name])
      rw [linkAt, linkAt] at hlink
      cases ha : linkAt a (path ++ [name]) with
      | none =>
          have hb := (h (path ++ [name])).symm.trans ha
          dsimp only
          split
          · rename_i target hsome
            exact absurd hsome (linkAt_eq_none.mp ha target)
          · split
            · rename_i target hsome
              exact absurd hsome (linkAt_eq_none.mp hb target)
            · exact ih _ seen
      | some target =>
          have hat : ∀ {root : Node}, linkAt root (path ++ [name]) = some target →
              lstat root (path ++ [name]) = some (.link target) := by
            intro root hroot
            rw [linkAt] at hroot
            split at hroot
            · rename_i hfound
              cases hroot
              exact hfound
            · cases hroot
          dsimp only
          rw [hat ha, hat ((h _).symm.trans ha)]
          dsimp only
          split
          · exact ih _ seen
          · rfl
          · exact if_congr Iff.rfl (ih ..) rfl

/-- Trees with the same links resolve every path alike. -/
theorem SameLinks.realpath_eq (h : SameLinks a b) (names : List PyStr) : realpath a names = realpath b names := by
  have hjoin : ∀ fuel, joinRealpath a fuel = joinRealpath b fuel := by
    intro fuel
    induction fuel with
    | zero => rfl
    | succ fuel ih =>
        funext path rest seen
        show followNames a (joinRealpath a fuel) path rest seen = followNames b (joinRealpath b fuel) path rest seen
        rw [ih]
        exact followNames_congr h.linkAt _ rest path seen
  rw [realpath, realpath, h.links, hjoin]

/-- What is joined to a resolved path is resolved from there. -/
theorem followNames_append {root : Node} {follow : Path → List PyStr → List (Path × Option Path) → Resolved}
    (rest more : List PyStr) (path : Path) (seen : List (Path × Option Path))
    (hok : (followNames root follow path rest seen).ok = true) :
    followNames root follow path (rest ++ more) seen
      = followNames root follow (followNames root follow path rest seen).path more
          (followNames root follow path rest seen).seen := by
  induction rest generalizing path seen with
  | nil => rfl
  | cons name rest ih =>
      rw [List.cons_append, followNames]
      rw [followNames] at hok
      conv => rhs; rw [followNames]
      by_cases hdot : name = [] ∨ name = py "."
      · rw [if_pos hdot] at hok ⊢
        rw [if_pos hdot]
        exact ih path seen hok
      rw [if_neg hdot] at hok ⊢
      rw [if_neg hdot]
      by_cases hparent : name = py ".."
      · rw [if_pos hparent] at hok ⊢
        rw [if_pos hparent]
        exact ih path.dropLast seen hok
      rw [if_neg hparent] at hok ⊢
      rw [if_neg hparent]
      dsimp only at hok ⊢
      split at hok
      · rename_i target hlink
        split at hok
        · rename_i resolved hlookup
          exact ih resolved seen hok
        · cases hok
        · generalize (if isAbs target then [] else path) = start at hok ⊢
          by_cases hinner : (follow start (splitSlash target) ((path ++ [name], none) :: seen)).ok = true
          · rw [if_pos hinner] at hok ⊢
            rw [if_pos hinner]
            exact ih _ _ hok
          · rw [if_neg hinner] at hok
            cases hok
      · exact ih _ seen hok

theorem realpath_append {root : Node} {names rest : List PyStr} (hok : (realpath root names).ok = true)
    (h : Linkless root ((realpath root names).path ++ rest)) :
    (realpath root (names ++ rest)).path = (realpath root names).path ++ rest
      ∧ (realpath root (names ++ rest)).ok = true := by
  have hsplit := @followNames_append root (joinRealpath root root.links) names rest [] [] hok
  have hrest := @followNames_of_linkless root _ rest (joinRealpath root root.links) (realpath root names).seen h
  have hwhole : realpath root (names ++ rest) = ⟨(realpath root names).path ++ rest, true, (realpath root names).seen⟩ :=
    hsplit.trans hrest
  rw [hwhole]
  exact ⟨rfl, rfl⟩

/-- A path of plain names. -/
def PlainPath (path : Path) : Prop := ∀ name ∈ path, Plain name

/-- The links that are resolved lead to paths of plain names. -/
def SeenPlain (seen : List (Path × Option Path)) : Prop := ∀ link target, (link, some target) ∈ seen → PlainPath target

theorem PlainPath.dropLast {path : Path} (h : PlainPath path) : PlainPath path.dropLast :=
  fun name hname => h name (List.dropLast_subset path hname)

theorem PlainPath.snoc {path : Path} {name : PyStr} (h : PlainPath path) (hname : Plain name) :
    PlainPath (path ++ [name]) := by
  intro n hn
  rcases List.mem_append.mp hn with hn | hn
  · exact h n hn
  · rw [List.mem_singleton.mp hn]
    exact hname

theorem normalise_plain (rest : List PyStr) (path : Path) (hpath : PlainPath path) (hrest : ∀ name ∈ rest, 47 ∉ name) :
    PlainPath (normalise path rest) := by
  induction rest generalizing path with
  | nil => exact hpath
  | cons name rest ih =>
      have hrest' : ∀ n ∈ rest, 47 ∉ n := fun n hn => hrest n (List.mem_cons_of_mem _ hn)
      rw [normalise]
      by_cases hdot : name = [] ∨ name = py "."
      · rw [if_pos hdot]
        exact ih path hpath hrest'
      rw [if_neg hdot]
      by_cases hparent : name = py ".."
      · rw [if_pos hparent]
        exact ih path.dropLast hpath.dropLast hrest'
      rw [if_neg hparent]
      exact ih _ (hpath.snoc ⟨fun h => hdot (.inl h), fun h => hdot (.inr h), hparent,
        hrest name (List.mem_cons_self ..)⟩) hrest'

theorem joinRest_plain {rest : List PyStr} {path : Path} (hpath : PlainPath path) (hrest : ∀ name ∈ rest, 47 ∉ name) :
    PlainPath (joinRest path rest) := by
  rw [joinRest.eq_def]
  split
  · exact normalise_plain _ [] (fun _ h => absurd h List.not_mem_nil) fun n hn => hrest n (List.mem_cons_of_mem _ hn)
  · exact normalise_plain _ path hpath hrest

theorem followNames_plain {root : Node} {follow : Path → List PyStr → List (Path × Option Path) → Resolved}
    (hfollow : ∀ path rest seen, PlainPath path → (∀ name ∈ rest, 47 ∉ name) → SeenPlain seen →
      PlainPath (follow path rest seen).path ∧ SeenPlain (follow path rest seen).seen)
    (rest : List PyStr) (path : Path) (seen : List (Path × Option Path)) (hpath : PlainPath path)
    (hrest : ∀ name ∈ rest, 47 ∉ name) (hseen : SeenPlain seen) :
    PlainPath (followNames root follow path rest seen).path ∧
      SeenPlain (followNames root follow path rest seen).seen := by
  induction rest generalizing path seen with
  | nil => exact ⟨hpath, hseen⟩
  | cons name rest ih =>
      have hrest' : ∀ n ∈ rest, 47 ∉ n := fun n hn => hrest n (List.mem_cons_of_mem _ hn)
      rw [followNames]
      by_cases hdot : name = [] ∨ name = py "."
      · rw [if_pos hdot]
        exact ih path seen hpath hrest' hseen
      rw [if_neg hdot]
      by_cases hparent : name = py ".."
      · rw [if_pos hparent]
        exact ih path.dropLast seen hpath.dropLast hrest' hseen
      rw [if_neg hparent]
      have hnew : PlainPath (path ++ [name]) := hpath.snoc
        ⟨fun h => hdot (.inl h), fun h => hdot (.inr h), hparent, hrest name (List.mem_cons_self ..)⟩
      dsimp only
      split
      · rename_i target hlink
        split
        · rename_i resolved hlookup
          obtain ⟨before, after, hsplit, -⟩ := List.lookup_eq_some_iff.mp hlookup
          have hmem : (path ++ [name], some resolved) ∈ seen := by
            rw [hsplit]
            exact List.mem_append_right _ (List.mem_cons_self ..)
          exact ih resolved seen (hseen _ _ hmem) hrest' hseen
        · exact ⟨joinRest_plain hnew hrest', hseen⟩
        · have hstart : PlainPath (if isAbs target then [] else path) := by
            split_ifs
            · exact fun _ h => absurd h List.not_mem_nil
            · exact hpath
          generalize (if isAbs target then [] else path) = start at hstart ⊢
          have hopen : SeenPlain ((path ++ [name], none) :: seen) := by
            intro link t hmem
            rcases List.mem_cons.mp hmem with heq | hmem
            · cases heq
            · exact hseen link t hmem
          obtain ⟨hinner, hinnerSeen⟩ := hfollow _ _ _ hstart (not_mem_of_mem_splitChar target) hopen
          split
          · refine ih _ _ hinner hrest' ?_
            intro link t hmem
            rcases List.mem_cons.mp hmem with heq | hmem
            · cases heq
              exact hinner
            · exact hinnerSeen link t hmem
          · exact ⟨joinRest_plain hinner hrest', hinnerSeen⟩
      · exact ih _ seen hnew hrest' hseen

/-- `realpath` gives a path of plain names, also where it gives up. -/
theorem realpath_plain (root : Node) {names : List PyStr} (hnames : ∀ name ∈ names, 47 ∉ name) :
    PlainPath (realpath root names).path := by
  have hjoin : ∀ fuel path rest seen, PlainPath path → (∀ name ∈ rest, 47 ∉ name) → SeenPlain seen →
      PlainPath (joinRealpath root fuel path rest seen).path ∧
        SeenPlain (joinRealpath root fuel path rest seen).seen := by
    intro fuel
    induction fuel with
    | zero => exact fun path rest seen hpath hrest hseen => ⟨joinRest_plain hpath hrest, hseen⟩
    | succ fuel ih => exact fun path rest seen => followNames_plain ih rest path seen
  exact (hjoin _ [] names [] (fun _ h => absurd h List.not_mem_nil) hnames
    fun _ _ h => absurd h List.not_mem_nil).1

end Realpath

-- ============================================================================
-- Where directories can be made
-- ============================================================================

theorem clear_cons {listable : Bool} {entries : List (PyStr × Node)} {name : PyStr} {rest : Path} :
    Clear (.dir listable entries) (name :: rest)
      ↔ Clear ((Dict.get? entries name).getD (.dir true [])) rest := by
  constructor
  · intro h pre hpre node hnode
    cases hget : Dict.get? entries name with
    | none =>
        rw [hget] at hnode
        cases pre with
        | nil => exact ⟨true, [], (Option.some.inj hnode).symm⟩
        | cons n pre => cases hnode
    | some child =>
        rw [hget] at hnode
        refine h (name :: pre) ((List.prefix_cons_inj name).mpr hpre) node ?_
        rw [lstat, hget]
        exact hnode
  · intro h pre hpre node hnode
    cases pre with
    | nil => exact ⟨listable, entries, (Option.some.inj hnode).symm⟩
    | cons n pre =>
        obtain ⟨rfl, hrest⟩ := List.cons_prefix_cons.mp hpre
        rw [lstat] at hnode
        split at hnode
        · rename_i child hget
          rw [hget] at h
          exact h pre hrest node hnode
        · cases hnode

/-- Directories can be made exactly where nothing else stands in the way. -/
theorem makeDirs_isSome_iff {tree : Node} {path : Path} : (makeDirs tree path).isSome = true ↔ Clear tree path := by
  induction path generalizing tree with
  | nil =>
      cases tree with
      | dir listable entries =>
          refine ⟨fun _ pre hpre node hnode => ?_, fun _ => rfl⟩
          rw [List.prefix_nil.mp hpre] at hnode
          exact ⟨listable, entries, (Option.some.inj hnode).symm⟩
      | file bytes =>
          refine ⟨fun h => (nomatch h), fun h => ?_⟩
          obtain ⟨_, _, heq⟩ := h [] (List.prefix_rfl) _ rfl
          cases heq
      | link target =>
          refine ⟨fun h => (nomatch h), fun h => ?_⟩
          obtain ⟨_, _, heq⟩ := h [] (List.prefix_rfl) _ rfl
          cases heq
  | cons name rest ih =>
      cases tree with
      | dir listable entries =>
          rw [clear_cons, ← ih, makeDirs]
          cases makeDirs ((Dict.get? entries name).getD (.dir true [])) rest <;> rfl
      | file bytes =>
          refine ⟨fun h => (nomatch h), fun h => ?_⟩
          obtain ⟨_, _, heq⟩ := h [] (List.nil_prefix) _ rfl
          cases heq
      | link target =>
          refine ⟨fun h => (nomatch h), fun h => ?_⟩
          obtain ⟨_, _, heq⟩ := h [] (List.nil_prefix) _ rfl
          cases heq

/-- Making directories makes and changes no file. -/
theorem fileAt_makeDirs {tree tree' : Node} {path : Path} (h : makeDirs tree path = some tree') (other : Path) :
    fileAt tree' other = fileAt tree other := by
  induction path generalizing tree tree' other with
  | nil =>
      cases tree with
      | dir listable entries =>
          cases h
          rfl
      | file bytes => cases h
      | link target => cases h
  | cons name rest ih =>
      cases tree with
      | dir listable entries =>
          obtain ⟨node, hnode, h⟩ := Option.bind_eq_some_iff.mp h
          cases h
          cases other with
          | nil => rfl
          | cons n path =>
              rw [fileAt_cons, fileAt_cons]
              by_cases hn : name = n
              · rw [← hn, Dict.get?_set_self, Option.bind_some, ih hnode]
                cases Dict.get? entries name with
                | none => exact fileAt_empty true path
                | some child => rfl
              · rw [Dict.get?_set_of_ne _ _ hn]
      | file bytes => cases h
      | link target => cases h

/-- Making directories removes none. -/
theorem isDirAt_makeDirs {tree tree' : Node} {path dir : Path} (h : makeDirs tree path = some tree')
    (hdir : IsDirAt tree dir) : IsDirAt tree' dir := by
  induction path generalizing tree tree' dir with
  | nil =>
      cases tree with
      | dir listable entries =>
          cases h
          exact hdir
      | file bytes => cases h
      | link target => cases h
  | cons name rest ih =>
      cases tree with
      | dir listable entries =>
          obtain ⟨node, hnode, h⟩ := Option.bind_eq_some_iff.mp h
          cases h
          refine isDirAt_set (fun child path hchild hdir => ih hnode ?_) hdir
          rw [hchild]
          exact hdir
      | file bytes => cases h
      | link target => cases h

/-- The directories made are there. -/
theorem isDirAt_of_makeDirs {tree tree' : Node} {path : Path} (h : makeDirs tree path = some tree') :
    IsDirAt tree' path := by
  induction path generalizing tree tree' with
  | nil =>
      cases tree with
      | dir listable entries =>
          cases h
          exact ⟨listable, entries, rfl⟩
      | file bytes => cases h
      | link target => cases h
  | cons name rest ih =>
      cases tree with
      | dir listable entries =>
          obtain ⟨node, hnode, h⟩ := Option.bind_eq_some_iff.mp h
          cases h
          exact isDirAt_cons.mpr ⟨node, Dict.get?_set_self .., ih hnode⟩
      | file bytes => cases h
      | link target => cases h

theorem put_snoc_isSome_iff {tree : Node} {dir : Path} {name : PyStr} {bytes : List Nat} :
    (put tree (dir ++ [name]) bytes).isSome = true
      ↔ Clear tree dir ∧ ∀ node, lstat tree (dir ++ [name]) = some node → ∃ old, node = .file old := by
  induction dir generalizing tree with
  | nil =>
      cases tree with
      | dir listable entries =>
          have hclear : Clear (.dir listable entries) [] := fun pre hpre node hnode => by
            rw [List.prefix_nil.mp hpre] at hnode
            exact ⟨listable, entries, (Option.some.inj hnode).symm⟩
          rw [List.nil_append, put, lstat]
          cases Dict.get? entries name with
          | none => exact ⟨fun _ => ⟨hclear, fun _ h => absurd h.symm (Option.some_ne_none _)⟩, fun _ => rfl⟩
          | some node =>
              cases node with
              | file old => exact ⟨fun _ => ⟨hclear, fun _ h => ⟨old, (Option.some.inj h).symm⟩⟩, fun _ => rfl⟩
              | dir listable entries =>
                  refine iff_of_false Bool.false_ne_true fun h => ?_
                  obtain ⟨old, heq⟩ := h.2 _ rfl
                  cases heq
              | link target =>
                  refine iff_of_false Bool.false_ne_true fun h => ?_
                  obtain ⟨old, heq⟩ := h.2 _ rfl
                  cases heq
      | file old =>
          refine iff_of_false Bool.false_ne_true fun h => ?_
          obtain ⟨listable, entries, heq⟩ := h.1 [] List.prefix_rfl _ rfl
          cases heq
      | link target =>
          refine iff_of_false Bool.false_ne_true fun h => ?_
          obtain ⟨listable, entries, heq⟩ := h.1 [] List.prefix_rfl _ rfl
          cases heq
  | cons first dir ih =>
      cases tree with
      | dir listable entries =>
          have hput : put (.dir listable entries) (first :: (dir ++ [name])) bytes
              = (put ((Dict.get? entries first).getD (.dir true [])) (dir ++ [name]) bytes).bind
                fun node => some (.dir listable (Dict.set entries first node)) := by
            rw [put]
            · rfl
            · exact List.append_ne_nil_of_right_ne_nil dir (List.cons_ne_nil name [])
          have hsome : ∀ (found : Option Node) (f : Node → Node),
              (found.bind fun node => some (f node)).isSome = found.isSome := by
            intro found f
            cases found <;> rfl
          have hlstat : ∀ node, lstat (.dir listable entries) (first :: (dir ++ [name])) = some node
              ↔ lstat ((Dict.get? entries first).getD (.dir true [])) (dir ++ [name]) = some node := by
            intro node
            rw [lstat]
            cases Dict.get? entries first with
            | none =>
                have hno : ¬ (none : Option Node) = some node := fun h => Option.some_ne_none node h.symm
                cases dir <;> exact iff_of_false hno hno
            | some child => exact Iff.rfl
          rw [List.cons_append, hput, hsome, ih, clear_cons]
          exact and_congr Iff.rfl (forall_congr' fun node => by rw [hlstat])
      | file old =>
          refine iff_of_false Bool.false_ne_true fun h => ?_
          obtain ⟨listable, entries, heq⟩ := h.1 [] List.nil_prefix _ rfl
          cases heq
      | link target =>
          refine iff_of_false Bool.false_ne_true fun h => ?_
          obtain ⟨listable, entries, heq⟩ := h.1 [] List.nil_prefix _ rfl
          cases heq

/-- A file can be written exactly where directories can be made above it and no
    directory or link stands at its own place. -/
theorem put_isSome_iff {tree : Node} {path : Path} {bytes : List Nat} :
    (put tree path bytes).isSome = true
      ↔ Clear tree path.dropLast ∧ ∀ node, lstat tree path = some node → ∃ old, node = .file old := by
  by_cases hne : path = []
  · rw [hne]
    refine ⟨fun h => absurd h (by cases tree <;> exact Bool.false_ne_true), fun ⟨hclear, hfile⟩ => ?_⟩
    obtain ⟨old, rfl⟩ := hfile tree (by cases tree <;> rfl)
    obtain ⟨_, _, heq⟩ := hclear [] List.prefix_rfl (.file old) rfl
    cases heq
  · have hsnoc := @put_snoc_isSome_iff tree path.dropLast (path.getLast hne) bytes
    rw [List.dropLast_append_getLast hne] at hsnoc
    exact hsnoc

theorem set_set (entries : List (PyStr × Node)) (name : PyStr) (old new : Node) :
    Dict.set (Dict.set entries name old) name new = Dict.set entries name new := by
  induction entries with
  | nil =>
      show Dict.set [(name, old)] name new = [(name, new)]
      rw [Dict.set, if_pos rfl]
  | cons entry entries ih =>
      obtain ⟨n, node⟩ := entry
      rw [Dict.set]
      by_cases hn : n = name
      · rw [if_pos hn, Dict.set, if_pos rfl, Dict.set, if_pos hn]
      · rw [if_neg hn, Dict.set, if_neg hn, ih, Dict.set, if_neg hn]

theorem put_snoc_makeDirs {tree tree' : Node} {dir : Path} (h : makeDirs tree dir = some tree') (name : PyStr)
    (bytes : List Nat) : put tree' (dir ++ [name]) bytes = put tree (dir ++ [name]) bytes := by
  induction dir generalizing tree tree' with
  | nil =>
      cases tree with
      | dir listable entries =>
          cases h
          rfl
      | file bytes => cases h
      | link target => cases h
  | cons first dir ih =>
      cases tree with
      | dir listable entries =>
          obtain ⟨node, hnode, h⟩ := Option.bind_eq_some_iff.mp h
          cases h
          have hne : dir ++ [name] ≠ [] := fun h => nomatch (List.append_eq_nil_iff.mp h).2
          rw [List.cons_append, put, put, Dict.get?_set_self, Option.getD_some, ih hnode]
          · exact congrArg _ (funext fun new => by rw [set_set])
          · exact hne
          · exact hne
      | file bytes => cases h
      | link target => cases h

/-- Writing makes the directories above the file itself. -/
theorem put_makeDirs {tree tree' : Node} {path : Path} (h : makeDirs tree path.dropLast = some tree')
    (bytes : List Nat) : put tree' path bytes = put tree path bytes := by
  by_cases hne : path = []
  · rw [hne]
    cases tree <;> cases tree' <;> rfl
  · have hsnoc := put_snoc_makeDirs h (path.getLast hne) bytes
    rw [List.dropLast_append_getLast hne] at hsnoc
    exact hsnoc

-- ============================================================================
-- A tree put in its place
-- ============================================================================

/-- A tree put where nothing stands, the directories above it made; `none` where something
    stands there or in the way. -/
def graft : Node → Path → Node → Option Node
  | .dir listable entries, [name], new =>
      match Dict.get? entries name with
      | some _ => none
      | none => some (.dir listable (Dict.set entries name new))
  | .dir listable entries, name :: rest, new => do
      let node ← graft ((Dict.get? entries name).getD (.dir true [])) rest new
      return .dir listable (Dict.set entries name node)
  | _, _, _ => none

section
-- its equations are made once, before the proofs below
attribute [local simp] graft
end

theorem graft_cons {listable : Bool} {entries : List (PyStr × Node)} {name : PyStr} {rest : Path} (hne : rest ≠ [])
    (new : Node) : graft (.dir listable entries) (name :: rest) new
      = (graft ((Dict.get? entries name).getD (.dir true [])) rest new).bind
        fun node => some (.dir listable (Dict.set entries name node)) := by
  rw [graft]
  · rfl
  · exact fun h => absurd h hne

/-- Only a directory has a place for a tree. -/
theorem graft_dir {tree tree' new : Node} {path : Path} (h : graft tree path new = some tree') :
    (∃ listable entries, tree = .dir listable entries) ∧ ∃ name rest, path = name :: rest := by
  cases path with
  | nil => cases tree <;> cases h
  | cons name rest =>
      cases tree with
      | file bytes => cases rest <;> cases h
      | link target => cases rest <;> cases h
      | dir listable entries => exact ⟨⟨listable, entries, rfl⟩, name, rest, rfl⟩

/-- What is put at a path stands there. -/
theorem lstat_graft {tree tree' new : Node} {path : Path} (h : graft tree path new = some tree') (rest : Path) :
    lstat tree' (path ++ rest) = lstat new rest := by
  induction path generalizing tree tree' with
  | nil =>
      obtain ⟨-, name, rest', heq⟩ := graft_dir h
      cases heq
  | cons name path ih =>
      obtain ⟨⟨listable, entries, rfl⟩, -⟩ := graft_dir h
      by_cases hpath : path = []
      · rw [hpath] at h ⊢
        rw [graft] at h
        split at h
        · cases h
        · cases h
          rw [List.singleton_append, lstat, Dict.get?_set_self]
      · rw [graft_cons hpath] at h
        obtain ⟨node, hnode, h⟩ := Option.bind_eq_some_iff.mp h
        cases h
        rw [List.cons_append, lstat, Dict.get?_set_self]
        exact ih hnode

/-- What stands on the way to it are directories. -/
theorem isDirAt_graft {tree tree' new : Node} {path : Path} (h : graft tree path new = some tree') {pre : Path}
    {name : PyStr} {rest : Path} (hpath : path = pre ++ name :: rest) : IsDirAt tree' pre := by
  induction path generalizing tree tree' pre with
  | nil => exact absurd hpath.symm (List.append_ne_nil_of_right_ne_nil _ (List.cons_ne_nil _ _))
  | cons first path ih =>
      obtain ⟨⟨listable, entries, rfl⟩, -⟩ := graft_dir h
      cases pre with
      | nil =>
          by_cases hne : path = []
          · rw [hne, graft] at h
            split at h
            · cases h
            · cases h
              exact ⟨listable, _, rfl⟩
          · rw [graft_cons hne] at h
            obtain ⟨node, -, h⟩ := Option.bind_eq_some_iff.mp h
            cases h
            exact ⟨listable, _, rfl⟩
      | cons n pre =>
          obtain ⟨rfl, hrest⟩ := List.cons.inj hpath
          replace hrest : path = pre ++ name :: rest := hrest
          subst hrest
          rw [graft_cons (List.append_ne_nil_of_right_ne_nil _ (List.cons_ne_nil _ _))] at h
          obtain ⟨node, hnode, h⟩ := Option.bind_eq_some_iff.mp h
          cases h
          exact isDirAt_cons.mpr ⟨node, Dict.get?_set_self .., ih hnode rfl⟩

/-- Nothing has stood there before. -/
theorem lstat_of_graft {tree tree' new : Node} {path : Path} (h : graft tree path new = some tree') :
    lstat tree path = none := by
  induction path generalizing tree tree' with
  | nil =>
      obtain ⟨-, name, rest, heq⟩ := graft_dir h
      cases heq
  | cons name path ih =>
      obtain ⟨⟨listable, entries, rfl⟩, -⟩ := graft_dir h
      rw [lstat]
      cases hget : Dict.get? entries name with
      | none => rfl
      | some child =>
          by_cases hpath : path = []
          · rw [hpath, graft, hget] at h
            cases h
          · rw [graft_cons hpath, hget] at h
            obtain ⟨node, hnode, -⟩ := Option.bind_eq_some_iff.mp h
            exact ih hnode

/-- Whether there is a place does not depend on the tree. -/
theorem graft_isSome_congr (tree : Node) (path : Path) (new new' : Node) :
    (graft tree path new).isSome = (graft tree path new').isSome := by
  induction path generalizing tree with
  | nil => cases tree <;> rfl
  | cons name path ih =>
      cases tree with
      | file bytes => cases path <;> rfl
      | link target => cases path <;> rfl
      | dir listable entries =>
          by_cases hpath : path = []
          · rw [hpath, graft, graft]
            cases Dict.get? entries name <;> rfl
          · have hbind : ∀ (x : Option Node) (f : Node → Node), (x.bind fun node => some (f node)).isSome = x.isSome := by
              intro x f
              cases x <;> rfl
            rw [graft_cons hpath, graft_cons hpath, hbind, hbind, ih]

/-- A tree without links that is put at a plain path is reached without links. -/
theorem linkless_graft {tree tree' new : Node} {path rest : Path} (h : graft tree path new = some tree')
    (hnew : new.links = 0) (hpath : PlainPath path) (hrest : PlainPath rest) : Linkless tree' (path ++ rest) := by
  refine ⟨fun n hn => ?_, fun pre n hpre target hlink => ?_⟩
  · rcases List.mem_append.mp hn with hn | hn
    · exact hpath n hn
    · exact hrest n hn
  · rcases List.prefix_or_prefix_of_prefix hpre (List.prefix_append path rest) with ⟨below, hbelow⟩ | ⟨below, hbelow⟩
    · cases below with
      | nil =>
          have hhere := lstat_graft h []
          rw [List.append_nil, ← hbelow, List.append_nil, hlink] at hhere
          exact absurd (links_pos hhere.symm) (by rw [hnew]; exact Nat.lt_irrefl 0)
      | cons next below =>
          obtain ⟨listable, entries, hdir⟩ := isDirAt_graft h hbelow.symm
          rw [hlink] at hdir
          cases hdir
    · rw [← hbelow, lstat_graft h] at hlink
      exact absurd (links_pos hlink) (by rw [hnew]; exact Nat.lt_irrefl 0)

end Os
end Py
end KineticSdk
