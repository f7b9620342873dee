/-
  KineticSdk.Codemap.Resolution

  The edges of the builder beside Python's own resolution of a from-import.

  Python starts from the directory of the importer, or from the root if its package is
  imported by name, and looks every part up in the tree.  The builder has names only.
  Where its base is Python's base the two agree, unless a file that Python would not
  find bears the name; the ways in which its base goes astray are spelled out in
  `Arrives`.
-/

import KineticSdk.Codemap.Builder

namespace KineticSdk
namespace Codemap

open Py

-- ============================================================================
-- Python's resolution
-- ============================================================================

/-- A name that a package or a module can have.  `__init__` is none: it would load the
    file of a package again, as another module than that of the map. -/
def Importable (name : PyStr) : Prop := name ≠ [] ∧ 46 ∉ name ∧ name ≠ initName

instance (name : PyStr) : Decidable (Importable name) := inferInstanceAs (Decidable (_ ∧ _ ∧ _))

/-- The file that is found from a directory: a package comes before a module, and a
    module before a directory without `__init__.py`. -/
def SourceTree.find (t : SourceTree) : List PyStr → List PyStr → Option (List PyStr × PyStr)
  | dir, [] => if t.isFile dir initFilename then some (dir, initFilename) else none
  | dir, part :: rest =>
      if Importable part then
        if t.isFile (dir ++ [part]) initFilename then t.find (dir ++ [part]) rest
        else if t.isFile dir (part ++ py ".py") then
          -- a module has no submodules
          if rest = [] then some (dir, part ++ py ".py") else none
        else t.find (dir ++ [part]) rest
      else none

/-- The module of the map that a dotted path from the root leads to. -/
def SourceTree.resolve (t : SourceTree) (parts : List PyStr) : Option PyStr :=
  (t.find [] parts).bind fun file => if t.walked file.1 then some (moduleName file.1 file.2) else none

/-- The package that an import starts from, and the parts behind it, from the root.
    Above the root there is no package, and only importable files have one. -/
def SourceTree.pythonBase (t : SourceTree) (f : SourceFile) (module : List ImportedName) (level : Nat) :
    Option (List PyStr) :=
  if level = 0 then
    match module with
    | [] => none
    | head :: rest =>
        if t.packageName = some head.val ∧ Importable head.val then some (rest.map Subtype.val) else none
  else if (∀ p ∈ t.packageName, Importable p) ∧ (∀ dir ∈ f.dirs, Importable dir) ∧
      (f.isPackage = true ∨ Importable (stem f.filename)) ∧ level - 1 ≤ f.dirs.length then
    some (f.dirs.take (f.dirs.length - (level - 1)) ++ module.map Subtype.val)
  else none

/-- The imported name is a module of the map below the base. -/
def SourceTree.Submodule (t : SourceTree) (base : List PyStr) (name : ImportedName) : Prop :=
  name.val ≠ py "*" ∧ (t.resolve (base ++ [name.val])).isSome = true

instance (t : SourceTree) (base : List PyStr) (name : ImportedName) : Decidable (t.Submodule base name) :=
  inferInstanceAs (Decidable (_ ∧ _))

/-- The module of the map that an imported name comes from: itself, or else the base. -/
def SourceTree.target (t : SourceTree) (f : SourceFile) (module : List ImportedName) (level : Nat)
    (name : ImportedName) : Option PyStr :=
  (t.pythonBase f module level).bind fun base =>
    if t.Submodule base name then t.resolve (base ++ [name.val]) else t.resolve base

/-- The builder's edge leads to the module that Python would resolve to, if that is in the map. -/
def FollowsPython (t : SourceTree) (f : SourceFile) (module : List ImportedName) (level : Nat)
    (name : ImportedName) : Prop :=
  ∀ target, t.target f module level name = some target → f.parses = true ∧ t.edge f module level name = target

-- ============================================================================
-- Where the builder arrives
-- ============================================================================

/-- No file that Python would not find has the name of a submodule. -/
def Unshadowed (t : SourceTree) (base : List PyStr) (name : ImportedName) : Prop :=
  t.Submodule base name ∨ name.val = py "*" ∨ dotted (base ++ [name.val]) ∉ t.knownModules

/-- The root's own `__init__`. -/
def SourceFile.isRootInit (f : SourceFile) : Bool := f.dirs = [] && f.isPackage

/-- The base begins with a directory named like the root's package, and the rest of it
    is a name of the map. -/
def Doubled (t : SourceTree) (base : List PyStr) : Prop :=
  t.packageName = base.head? ∧ base.tail ≠ [] ∧ dotted base.tail ∈ t.knownModules

instance (t : SourceTree) (base : List PyStr) : Decidable (Doubled t base) := inferInstanceAs (Decidable (_ ∧ _ ∧ _))

/-- The builder arrives at the module, by the kind of the import.  An absolute import
    needs a base that is in the map; a relative one of the root's own `__init__` reaches
    the root package only; one from elsewhere misses the root package, and a base that is
    `Doubled`.  Astray it arrives where the names repeat. -/
def Arrives (t : SourceTree) (f : SourceFile) (level : Nat) (base : List PyStr) (name : ImportedName) : Prop :=
  if level = 0 then
    if base ≠ [] ∧ dotted base ∈ t.knownModules then Unshadowed t base name
    else ∃ p, t.packageName = some p ∧ t.Submodule base name ∧ base ++ [name.val] = p :: base ∧
      dotted (p :: base ++ [name.val]) ∉ t.knownModules
  else if f.isRootInit then
    base = [] ∧ ¬ t.Submodule base name ∧ (name.val = py "*" ∨ dotted [initName, name.val] ∉ t.knownModules)
  else if base = [] then t.Submodule base name ∨ name.val = initName
  else if Doubled t base then ¬ t.Submodule base name ∧ name.val ≠ py "*" ∧ base.tail ++ [name.val] = base
  else Unshadowed t base name

-- ============================================================================
-- Dotted names
-- ============================================================================

/-- A part of a dotted name. -/
def Part (s : PyStr) : Prop := s ≠ [] ∧ 46 ∉ s

theorem Importable.part {s : PyStr} (h : Importable s) : Part s := ⟨h.1, h.2.1⟩

@[simp] theorem dotted_nil : dotted [] = [] := rfl

@[simp] theorem dotted_singleton (s : PyStr) : dotted [s] = s := by
  unfold dotted join
  rw [List.intercalate_singleton]

theorem dotted_cons (s : PyStr) {parts : List PyStr} (h : parts ≠ []) :
    dotted (s :: parts) = s ++ 46 :: dotted parts := by
  obtain ⟨next, rest, rfl⟩ := List.exists_cons_of_ne_nil h
  unfold dotted join
  rw [List.intercalate_cons_cons, List.append_assoc]
  rfl

theorem dotted_append_singleton {parts : List PyStr} (h : parts ≠ []) (s : PyStr) :
    dotted (parts ++ [s]) = dotted parts ++ 46 :: s := by
  induction parts with
  | nil => exact absurd rfl h
  | cons part parts ih =>
      by_cases hnil : parts = []
      · rw [hnil, List.singleton_append, dotted_cons part (List.cons_ne_nil _ _), dotted_singleton, dotted_singleton]
      · have hsnoc : parts ++ [s] ≠ [] := List.append_ne_nil_of_right_ne_nil _ (List.cons_ne_nil _ _)
        rw [List.cons_append, dotted_cons part hsnoc, ih hnil, dotted_cons part hnil, List.append_assoc,
          List.cons_append]

theorem dotted_ne_nil {parts : List PyStr} (h : parts ≠ []) (hparts : ∀ s ∈ parts, Part s) : dotted parts ≠ [] := by
  obtain ⟨part, rest, rfl⟩ := List.exists_cons_of_ne_nil h
  have hpart := (hparts part List.mem_cons_self).1
  by_cases hnil : rest = []
  · rw [hnil, dotted_singleton]
    exact hpart
  · rw [dotted_cons part hnil]
    exact List.append_ne_nil_of_left_ne_nil hpart _

theorem splitChar_dotted {parts : List PyStr} (h : parts ≠ []) (hparts : ∀ s ∈ parts, Part s) :
    splitChar 46 (dotted parts) = parts := splitChar_join h fun s hs => (hparts s hs).2

theorem dotted_injective {xs ys : List PyStr} (hx : xs ≠ []) (hxs : ∀ s ∈ xs, Part s) (hy : ys ≠ [])
    (hys : ∀ s ∈ ys, Part s) (h : dotted xs = dotted ys) : xs = ys := by
  rw [← splitChar_dotted hx hxs, h, splitChar_dotted hy hys]

theorem part_append_singleton {parts : List PyStr} {s : PyStr} (hparts : ∀ s ∈ parts, Part s) (h : Part s) :
    parts ++ [s] ≠ [] ∧ ∀ t ∈ parts ++ [s], Part t := by
  refine ⟨List.append_ne_nil_of_right_ne_nil _ (List.cons_ne_nil _ _), fun t ht => ?_⟩
  rcases List.mem_append.mp ht with ht | ht
  · exact hparts t ht
  · exact List.mem_singleton.mp ht ▸ h

theorem part_initName : Part initName := by
  unfold Part
  decide

theorem part_module (module : List ImportedName) : ∀ s ∈ module.map Subtype.val, Part s := by
  intro s hs
  obtain ⟨name, -, rfl⟩ := List.mem_map.mp hs
  exact name.property

-- ============================================================================
-- Names of the map
-- ============================================================================

theorem stem_append {name : PyStr} (h : name ≠ []) : stem (name ++ py ".py") = name := by
  have hpositive := List.length_pos_of_ne_nil h
  have hsuffix : (py ".py").length = 3 := by decide
  unfold stem
  rw [List.length_append, hsuffix, if_neg (by omega), Nat.add_sub_cancel, List.take_left]

theorem moduleName_init {dirs : List PyStr} (h : dirs ≠ []) (hdirs : ∀ s ∈ dirs, Part s) :
    moduleName dirs initFilename = dotted dirs := by
  have hstem : stem initFilename = initName := by decide
  unfold moduleName
  simp only [hstem, if_true]
  exact if_neg (dotted_ne_nil h hdirs)

theorem moduleName_root : moduleName [] initFilename = initName := by decide

theorem moduleName_of_stem {dirs : List PyStr} {filename : PyStr} (hstem : Importable (stem filename))
    (hdirs : ∀ s ∈ dirs, Part s) : moduleName dirs filename = dotted (dirs ++ [stem filename]) := by
  obtain ⟨hne, hparts⟩ := part_append_singleton hdirs hstem.part
  unfold moduleName
  simp only [hstem.2.2, if_false]
  exact if_neg (dotted_ne_nil hne hparts)

/-- What is found lies along the parts, as a package or as a module. -/
theorem find_some {t : SourceTree} {dir parts : List PyStr} {file : List PyStr × PyStr}
    (h : t.find dir parts = some file) :
    (∀ s ∈ parts, Importable s) ∧ t.isFile file.1 file.2 = true ∧
      (file = (dir ++ parts, initFilename) ∨
        ∃ above last, parts = above ++ [last] ∧ file = (dir ++ above, last ++ py ".py")) := by
  induction parts generalizing dir with
  | nil =>
      unfold SourceTree.find at h
      split_ifs at h with hfile
      cases h
      exact ⟨fun _ hs => absurd hs List.not_mem_nil, hfile, .inl (by rw [List.append_nil])⟩
  | cons part rest ih =>
      have hbelow : Importable part → t.find (dir ++ [part]) rest = some file →
          (∀ s ∈ part :: rest, Importable s) ∧ t.isFile file.1 file.2 = true ∧
            (file = (dir ++ part :: rest, initFilename) ∨
              ∃ above last, part :: rest = above ++ [last] ∧ file = (dir ++ above, last ++ py ".py")) := by
        intro hpart hfound
        obtain ⟨hrest, hfile, hplace⟩ := ih hfound
        refine ⟨List.forall_mem_cons.mpr ⟨hpart, hrest⟩, hfile, ?_⟩
        rcases hplace with rfl | ⟨above, last, rfl, rfl⟩
        · exact .inl (by rw [List.append_assoc, List.singleton_append])
        · exact .inr ⟨part :: above, last, rfl, by rw [List.append_assoc, List.singleton_append]⟩
      unfold SourceTree.find at h
      split_ifs at h with hpart hpackage hmodule hlast
      · exact hbelow hpart h
      · cases h
        refine ⟨List.forall_mem_cons.mpr ⟨hpart, ?_⟩, hmodule, .inr ⟨[], part, ?_, ?_⟩⟩
        · rw [hlast]
          exact fun _ hs => absurd hs List.not_mem_nil
        · rw [hlast]
          rfl
        · rw [List.append_nil]
      · exact hbelow hpart h

/-- The dotted name under which a module of the map is found, from the root. -/
def nameOf (parts : List PyStr) : List PyStr := if parts = [] then [initName] else parts

/-- A path that leads to a module of the map is that module's name. -/
theorem resolve_some {t : SourceTree} {parts : List PyStr} {name : PyStr} (h : t.resolve parts = some name) :
    (∀ s ∈ parts, Importable s) ∧ name = dotted (nameOf parts) ∧ name ∈ t.knownModules := by
  unfold SourceTree.resolve at h
  obtain ⟨file, hfind, hname⟩ := Option.bind_eq_some_iff.mp h
  split_ifs at hname with hwalked
  cases hname
  obtain ⟨hparts, hfile, hplace⟩ := find_some hfind
  refine ⟨hparts, ?_, ?_⟩
  · unfold nameOf
    rcases hplace with rfl | ⟨above, last, rfl, rfl⟩
    · split_ifs with hnil
      · rw [hnil]
        exact moduleName_root
      · exact moduleName_init hnil fun s hs => (hparts s hs).part
    · have hlast : Importable last := hparts last (List.mem_append_right _ List.mem_cons_self)
      have hstem : stem (last ++ py ".py") = last := stem_append hlast.1
      rw [if_neg (List.append_ne_nil_of_right_ne_nil _ (List.cons_ne_nil _ _))]
      have habove : ∀ s ∈ above, Part s := fun s hs => (hparts s (List.mem_append_left _ hs)).part
      have heq : moduleName above (last ++ py ".py") = dotted (above ++ [stem (last ++ py ".py")]) :=
        moduleName_of_stem (by rw [hstem]; exact hlast) habove
      rw [hstem] at heq
      exact heq
  · obtain ⟨f, hf, hsame⟩ := List.any_eq_true.mp hfile
    rw [Bool.and_eq_true, decide_eq_true_eq, decide_eq_true_eq] at hsame
    have hscanned : f ∈ t.scanned := by
      refine List.mem_filter.mpr ⟨hf, ?_⟩
      rw [hsame.1]
      exact hwalked
    unfold SourceTree.knownModules
    rw [← hsame.1, ← hsame.2]
    exact List.mem_map_of_mem hscanned

-- ============================================================================
-- The base of the builder
-- ============================================================================

/-- The parts the builder starts from, before it takes off the package's name. -/
def rawParts (t : SourceTree) (f : SourceFile) (level : Nat) (base : List PyStr) : List PyStr :=
  if level = 0 then t.packageName.toList ++ base else if f.isRootInit then initName :: base else base

/-- The parts the builder's base is made of. -/
def builderParts (t : SourceTree) (f : SourceFile) (level : Nat) (base : List PyStr) : List PyStr :=
  if Doubled t (rawParts t f level base) then (rawParts t f level base).tail else rawParts t f level base

theorem head_eq_of_prefix {p part rest : PyStr} (hp : 46 ∉ p) (hpart : 46 ∉ part)
    (h : p ++ [46] <+: part ++ 46 :: rest) : p = part := by
  obtain ⟨tail, htail⟩ := h
  rw [List.append_assoc, List.singleton_append] at htail
  have hsplit := congrArg (splitChar 46) htail
  rw [splitChar_append hp, splitChar_append hpart] at hsplit
  exact (List.cons.inj hsplit).1

theorem drop_head (part rest : PyStr) : (part ++ 46 :: rest).drop (part.length + 1) = rest := by
  rw [List.drop_append, List.drop_eq_nil_of_le (Nat.le_succ _), Nat.add_sub_cancel_left]
  rfl

/-- The package's name is taken off where the rest is a name of the map. -/
theorem canonicalModuleName_dotted {t : SourceTree} {parts : List PyStr} (hparts : ∀ s ∈ parts, Part s)
    (hpackage : ∀ p ∈ t.packageName, Part p) :
    canonicalModuleName (dotted parts) t.knownModules t.packageName
      = dotted (if Doubled t parts then parts.tail else parts) := by
  by_cases hdoubled : Doubled t parts
  · obtain ⟨hhead, htail, hknown⟩ := hdoubled
    cases parts with
    | nil => exact absurd rfl htail
    | cons part rest =>
        have hname : t.packageName = some part := hhead
        have hnil : rest ≠ [] := htail
        have hstarts : part ++ [46] <+: part ++ 46 :: dotted rest :=
          ⟨dotted rest, by rw [List.append_assoc, List.singleton_append]⟩
        rw [if_pos ⟨hhead, htail, hknown⟩, dotted_cons part hnil]
        unfold canonicalModuleName
        rw [hname]
        dsimp only
        rw [if_pos ⟨(hparts part List.mem_cons_self).1, hstarts⟩, drop_head]
        exact if_pos hknown
  · rw [if_neg hdoubled]
    unfold canonicalModuleName
    cases hname : t.packageName with
    | none => rfl
    | some p =>
        have hp := hpackage p hname
        dsimp only
        by_cases hstarts : p ≠ [] ∧ p ++ [46] <+: dotted parts
        case neg => exact if_neg hstarts
        rw [if_pos hstarts]
        cases parts with
        | nil =>
            rw [dotted_nil, List.prefix_nil] at hstarts
            exact absurd hstarts.2 (List.append_ne_nil_of_left_ne_nil hp.1 _)
        | cons part rest =>
            have hpart := hparts part List.mem_cons_self
            by_cases hnil : rest = []
            · rw [hnil, dotted_singleton] at hstarts
              exact absurd (hstarts.2.subset (List.mem_append_right _ List.mem_cons_self)) hpart.2
            · rw [dotted_cons part hnil] at hstarts ⊢
              obtain rfl := head_eq_of_prefix hp.2 hpart.2 hstarts.2
              rw [drop_head]
              exact if_neg fun hknown => hdoubled ⟨hname, hnil, hknown⟩

/-- What an import says of its base: the parts Python starts from are proper names. -/
theorem pythonBase_some {t : SourceTree} {f : SourceFile} {module : List ImportedName} {level : Nat}
    {base : List PyStr} (h : t.pythonBase f module level = some base) :
    (∀ p ∈ t.packageName, Importable p) ∧ (∀ s ∈ base, Part s) ∧
      (level = 0 → ∃ head rest, module = head :: rest ∧ t.packageName = some head.val ∧
        base = rest.map Subtype.val) ∧
      (level ≠ 0 → (∀ dir ∈ f.dirs, Importable dir) ∧ (f.isPackage = true ∨ Importable (stem f.filename)) ∧
        level - 1 ≤ f.dirs.length ∧
        base = f.dirs.take (f.dirs.length - (level - 1)) ++ module.map Subtype.val) := by
  unfold SourceTree.pythonBase at h
  by_cases hlevel : level = 0
  · rw [if_pos hlevel] at h
    cases module with
    | nil => cases h
    | cons head rest =>
        dsimp only at h
        split_ifs at h with hhead
        cases h
        refine ⟨fun p hp => ?_, part_module rest, fun _ => ⟨head, rest, rfl, hhead.1, rfl⟩, fun h => absurd hlevel h⟩
        rw [hhead.1] at hp
        exact Option.some.inj hp ▸ hhead.2
  · rw [if_neg hlevel] at h
    split_ifs at h with hplain
    cases h
    obtain ⟨hpackage, hdirs, hfile, hle⟩ := hplain
    refine ⟨hpackage, fun s hs => ?_, fun h => absurd h hlevel, fun _ => ⟨hdirs, hfile, hle, rfl⟩⟩
    rcases List.mem_append.mp hs with hs | hs
    · exact (hdirs s (List.mem_of_mem_take hs)).part
    · exact part_module module s hs

theorem moduleText_eq_nil_iff (module : List ImportedName) : moduleText module = [] ↔ module = [] := by
  constructor
  · intro h
    by_contra hne
    have hmap : module.map Subtype.val ≠ [] := fun hnil => hne (List.map_eq_nil_iff.mp hnil)
    exact dotted_ne_nil hmap (part_module module) h
  · rintro rfl
    rfl

theorem splitChar_moduleText {module : List ImportedName} (h : module ≠ []) :
    splitChar 46 (moduleText module) = module.map Subtype.val :=
  splitChar_dotted (fun hnil => h (List.map_eq_nil_iff.mp hnil)) (part_module module)

/-- `_relative_base` counts the dots off the package's parts. -/
theorem relativeBase_eq {name : PyStr} {module : List ImportedName} {level : Nat} {isPackage : Bool}
    {package : List PyStr}
    (hpackage : (if isPackage then splitChar 46 name else (splitChar 46 name).dropLast) = package)
    (hle : level - 1 ≤ package.length) :
    relativeBase name level (moduleText module) isPackage
      = dotted (package.take (package.length - (level - 1)) ++ module.map Subtype.val) := by
  unfold relativeBase
  simp only [hpackage]
  rw [if_neg (Nat.not_lt.mpr hle)]
  by_cases hmodule : module = []
  · rw [if_pos ((moduleText_eq_nil_iff module).mpr hmodule), hmodule, List.map_nil, List.append_nil]
  · rw [if_neg fun h => hmodule ((moduleText_eq_nil_iff module).mp h), splitChar_moduleText hmodule]

/-- The package of an importer, as the builder reads it off its name. -/
theorem package_of_moduleName {f : SourceFile} (hdirs : ∀ dir ∈ f.dirs, Importable dir)
    (hfile : f.isPackage = true ∨ Importable (stem f.filename)) :
    (if f.isPackage then splitChar 46 f.moduleName else (splitChar 46 f.moduleName).dropLast)
      = if f.isRootInit then [initName] else f.dirs := by
  have hparts : ∀ s ∈ f.dirs, Part s := fun s hs => (hdirs s hs).part
  unfold SourceFile.moduleName SourceFile.isRootInit
  cases hpackage : f.isPackage with
  | true =>
      have hfilename : f.filename = initFilename := of_decide_eq_true hpackage
      rw [if_pos rfl, hfilename, Bool.and_true]
      by_cases hroot : f.dirs = []
      · rw [hroot, moduleName_root]
        exact splitChar_of_not_mem part_initName.2
      · rw [moduleName_init hroot hparts, splitChar_dotted hroot hparts, if_neg fun h => hroot (of_decide_eq_true h)]
  | false =>
      have hstem : Importable (stem f.filename) := hfile.resolve_left (by rw [hpackage]; exact Bool.false_ne_true)
      obtain ⟨hne, hall⟩ := part_append_singleton hparts hstem.part
      rw [if_neg Bool.false_ne_true, Bool.and_false, if_neg Bool.false_ne_true, moduleName_of_stem hstem hparts,
        splitChar_dotted hne hall, List.dropLast_concat]

/-- The builder's base, from Python's. -/
theorem importBase_eq {t : SourceTree} {f : SourceFile} {module : List ImportedName} {level : Nat}
    {base : List PyStr} (h : t.pythonBase f module level = some base) :
    t.importBase f module level = dotted (builderParts t f level base) ∧
      ∀ s ∈ builderParts t f level base, Part s := by
  obtain ⟨hpackage, hbase, habsolute, hrelative⟩ := pythonBase_some h
  have hraw : (if level = 0 then moduleText module
        else relativeBase f.moduleName level (moduleText module) f.isPackage) = dotted (rawParts t f level base) ∧
      ∀ s ∈ rawParts t f level base, Part s := by
    unfold rawParts
    by_cases hlevel : level = 0
    · obtain ⟨head, rest, rfl, hname, rfl⟩ := habsolute hlevel
      rw [if_pos hlevel, if_pos hlevel, hname]
      exact ⟨rfl, part_module (head :: rest)⟩
    · obtain ⟨hdirs, hfile, hle, rfl⟩ := hrelative hlevel
      have hparent := package_of_moduleName hdirs hfile
      rw [if_neg hlevel, if_neg hlevel]
      by_cases hroot : f.isRootInit = true
      · rw [if_pos hroot] at hparent
        have hnil : f.dirs = [] := of_decide_eq_true (Bool.and_eq_true_iff.mp hroot).1
        rw [hnil, List.length_nil, Nat.le_zero] at hle
        rw [if_pos hroot, relativeBase_eq hparent (by rw [hle]; exact Nat.zero_le _), hle, hnil]
        exact ⟨rfl, List.forall_mem_cons.mpr ⟨part_initName, part_module module⟩⟩
      · rw [if_neg hroot] at hparent
        rw [if_neg hroot, relativeBase_eq hparent hle]
        exact ⟨rfl, hbase⟩
  unfold SourceTree.importBase builderParts
  simp only [hraw.1]
  refine ⟨canonicalModuleName_dotted hraw.2 fun p hp => (hpackage p hp).part, fun s hs => ?_⟩
  split_ifs at hs
  · exact hraw.2 s (List.mem_of_mem_tail hs)
  · exact hraw.2 s hs

-- ============================================================================
-- The edge
-- ============================================================================

/-- The parts of the edge for an imported name. -/
def landing (t : SourceTree) (parts : List PyStr) (name : PyStr) : List PyStr :=
  if parts = [] then [name]
  else if name ≠ py "*" ∧ dotted (parts ++ [name]) ∈ t.knownModules then parts ++ [name] else parts

theorem landing_part (t : SourceTree) {parts : List PyStr} (name : ImportedName) (h : ∀ s ∈ parts, Part s) :
    landing t parts name.val ≠ [] ∧ ∀ s ∈ landing t parts name.val, Part s := by
  unfold landing
  split_ifs with hnil hknown
  · exact ⟨List.cons_ne_nil _ _, fun s hs => List.mem_singleton.mp hs ▸ name.property⟩
  · exact part_append_singleton h name.property
  · exact ⟨hnil, h⟩

theorem edge_eq {t : SourceTree} {f : SourceFile} {module : List ImportedName} {level : Nat} {base : List PyStr}
    (h : t.pythonBase f module level = some base) (name : ImportedName) :
    t.edge f module level name = dotted (landing t (builderParts t f level base) name.val) := by
  obtain ⟨hbase, hparts⟩ := importBase_eq h
  unfold SourceTree.edge landing
  simp only [hbase]
  by_cases hnil : builderParts t f level base = []
  · rw [hnil, if_pos dotted_nil, if_pos rfl, dotted_singleton]
  · rw [if_neg (dotted_ne_nil hnil hparts), if_neg hnil]
    have hcandidate : dotted (builderParts t f level base) ++ [46] ++ name.val
        = dotted (builderParts t f level base ++ [name.val]) := by
      rw [dotted_append_singleton hnil, List.append_assoc, List.singleton_append]
    by_cases hstar : name.val = py "*"
    · rw [if_pos hstar, if_neg fun h => h.1 hstar]
    · rw [if_neg hstar, hcandidate]
      by_cases hknown : dotted (builderParts t f level base ++ [name.val]) ∈ t.knownModules
      · rw [if_pos hknown, if_pos ⟨hstar, hknown⟩]
      · rw [if_neg hknown, if_neg fun h => hknown h.2]

/-- The parts under which the target is found. -/
def targetParts (t : SourceTree) (base : List PyStr) (name : ImportedName) : List PyStr :=
  if t.Submodule base name then base ++ [name.val] else base

/-- An edge leads to the target exactly when their parts are the same. -/
theorem edge_eq_target_iff {t : SourceTree} {f : SourceFile} {module : List ImportedName} {level : Nat}
    {base : List PyStr} {name : ImportedName} {target : PyStr} (h : t.pythonBase f module level = some base)
    (htarget : t.resolve (targetParts t base name) = some target) :
    t.edge f module level name = target ↔
      landing t (builderParts t f level base) name.val = nameOf (targetParts t base name) := by
  obtain ⟨himportable, rfl, -⟩ := resolve_some htarget
  obtain ⟨hne, hparts⟩ := landing_part t name (importBase_eq h).2
  have hname : nameOf (targetParts t base name) ≠ [] ∧ ∀ s ∈ nameOf (targetParts t base name), Part s := by
    unfold nameOf
    split_ifs with hnil
    · exact ⟨List.cons_ne_nil _ _, fun s hs => List.mem_singleton.mp hs ▸ part_initName⟩
    · exact ⟨hnil, fun s hs => (himportable s hs).part⟩
  rw [edge_eq h]
  exact ⟨dotted_injective hne hparts hname.1 hname.2, fun heq => by rw [heq]⟩

/-- The builder's base is Python's: only another file of that name leads it astray. -/
theorem landing_kept {t : SourceTree} {base : List PyStr} {name : ImportedName} (hne : base ≠ [])
    (hresolve : (t.resolve (targetParts t base name)).isSome = true) :
    landing t base name.val = nameOf (targetParts t base name) ↔ Unshadowed t base name := by
  have happend : base ++ [name.val] ≠ [] := List.append_ne_nil_of_right_ne_nil _ (List.cons_ne_nil _ _)
  unfold landing Unshadowed targetParts at *
  rw [if_neg hne]
  by_cases hsub : t.Submodule base name
  · rw [if_pos hsub] at hresolve ⊢
    obtain ⟨target, htarget⟩ := Option.isSome_iff_exists.mp hresolve
    obtain ⟨-, hname, hknown⟩ := resolve_some htarget
    have hnameOf : nameOf (base ++ [name.val]) = base ++ [name.val] := if_neg happend
    rw [hnameOf] at hname ⊢
    rw [if_pos ⟨hsub.1, hname ▸ hknown⟩]
    exact iff_of_true rfl (.inl hsub)
  · have hnameOf : nameOf base = base := if_neg hne
    rw [if_neg hsub, hnameOf, or_iff_right hsub]
    by_cases hcandidate : name.val ≠ py "*" ∧ dotted (base ++ [name.val]) ∈ t.knownModules
    · rw [if_pos hcandidate]
      refine iff_of_false (fun h => ?_) fun h => h.elim hcandidate.1 fun h => h hcandidate.2
      have hlength := congrArg List.length h
      rw [List.length_append, List.length_singleton] at hlength
      omega
    · rw [if_neg hcandidate]
      refine iff_of_true rfl ?_
      rw [not_and_or, not_not] at hcandidate
      exact hcandidate

/-- A name in front of Python's base: it is right where the names repeat, or for the
    root package under that name. -/
theorem landing_prefixed {t : SourceTree} {base : List PyStr} {name : ImportedName} (head : PyStr) :
    landing t (head :: base) name.val = nameOf (targetParts t base name) ↔
      (t.Submodule base name ∧ base ++ [name.val] = head :: base ∧
          dotted (head :: base ++ [name.val]) ∉ t.knownModules) ∨
        (¬ t.Submodule base name ∧ base = [] ∧ head = initName ∧
          (name.val = py "*" ∨ dotted [head, name.val] ∉ t.knownModules)) := by
  have happend : base ++ [name.val] ≠ [] := List.append_ne_nil_of_right_ne_nil _ (List.cons_ne_nil _ _)
  have hlong : head :: base ++ [name.val] ≠ nameOf (targetParts t base name) := by
    intro h
    have hlength := congrArg List.length h
    unfold nameOf targetParts at hlength
    split_ifs at hlength <;> simp at hlength <;> omega
  unfold landing
  rw [if_neg (List.cons_ne_nil _ _)]
  by_cases hsub : t.Submodule base name
  · have hname : nameOf (targetParts t base name) = base ++ [name.val] := by
      unfold nameOf targetParts
      rw [if_pos hsub, if_neg happend]
    rw [or_iff_left fun h => h.1 hsub, and_iff_right hsub]
    by_cases hknown : dotted (head :: base ++ [name.val]) ∈ t.knownModules
    · rw [if_pos ⟨hsub.1, hknown⟩]
      exact iff_of_false hlong fun h => h.2 hknown
    · rw [if_neg fun h => hknown h.2, hname, and_iff_left hknown]
      exact eq_comm
  · have hname : nameOf (targetParts t base name) = if base = [] then [initName] else base := by
      unfold nameOf targetParts
      rw [if_neg hsub]
    rw [or_iff_right fun h => hsub h.1, and_iff_right hsub]
    by_cases hcandidate : name.val ≠ py "*" ∧ dotted (head :: base ++ [name.val]) ∈ t.knownModules
    · rw [if_pos hcandidate]
      refine iff_of_false hlong ?_
      rintro ⟨rfl, -, h⟩
      exact h.elim hcandidate.1 fun h => h hcandidate.2
    · rw [if_neg hcandidate, hname]
      rw [not_and_or, not_not] at hcandidate
      by_cases hnil : base = []
      · subst hnil
        rw [if_pos rfl, and_iff_right rfl]
        exact ⟨fun h => ⟨(List.cons.inj h).1, hcandidate⟩, fun h => by rw [h.1]⟩
      · rw [if_neg hnil]
        refine iff_of_false (fun h => ?_) fun h => hnil h.1
        have hlength := congrArg List.length h
        rw [List.length_cons] at hlength
        omega

/-- A name that is missing from Python's base. -/
theorem landing_shortened {t : SourceTree} {base : List PyStr} {name : ImportedName} (htail : base.tail ≠ [])
    (hresolve : (t.resolve (targetParts t base name)).isSome = true) :
    landing t base.tail name.val = nameOf (targetParts t base name) ↔
      ¬ t.Submodule base name ∧ name.val ≠ py "*" ∧ base.tail ++ [name.val] = base := by
  have hne : base ≠ [] := by
    rintro rfl
    exact htail rfl
  have hlength : base.tail.length + 1 = base.length := by
    have hpositive := List.length_pos_of_ne_nil hne
    rw [List.length_tail]
    omega
  have happend : base ++ [name.val] ≠ [] := List.append_ne_nil_of_right_ne_nil _ (List.cons_ne_nil _ _)
  unfold landing targetParts at *
  rw [if_neg htail]
  by_cases hsub : t.Submodule base name
  · have hnameOf : nameOf (base ++ [name.val]) = base ++ [name.val] := if_neg happend
    rw [if_pos hsub, hnameOf]
    refine iff_of_false (fun h => ?_) fun h => h.1 hsub
    have hsame := congrArg List.length h
    split_ifs at hsame <;> simp only [List.length_append, List.length_singleton] at hsame <;> omega
  · have hnameOf : nameOf base = base := if_neg hne
    rw [if_neg hsub] at hresolve ⊢
    rw [hnameOf, and_iff_right hsub]
    obtain ⟨target, htarget⟩ := Option.isSome_iff_exists.mp hresolve
    obtain ⟨-, hname, hknown⟩ := resolve_some htarget
    rw [hnameOf] at hname
    by_cases hcandidate : name.val ≠ py "*" ∧ dotted (base.tail ++ [name.val]) ∈ t.knownModules
    · rw [if_pos hcandidate, and_iff_right hcandidate.1]
    · rw [if_neg hcandidate]
      refine iff_of_false (fun h => ?_) fun h => hcandidate ⟨h.1, ?_⟩
      · have hsame := congrArg List.length h
        omega
      · rw [h.2, ← hname]
        exact hknown

/-- Where the target is in the map, the edge leads there exactly when the builder arrives. -/
theorem landing_iff_arrives {t : SourceTree} {f : SourceFile} {module : List ImportedName} {level : Nat}
    {base : List PyStr} {name : ImportedName} (h : t.pythonBase f module level = some base)
    (hresolve : (t.resolve (targetParts t base name)).isSome = true) :
    landing t (builderParts t f level base) name.val = nameOf (targetParts t base name) ↔
      Arrives t f level base name := by
  obtain ⟨hpackage, -, habsolute, -⟩ := pythonBase_some h
  have hinit : ∀ rest, ¬ Doubled t (initName :: rest) := fun rest hdoubled =>
    (hpackage initName hdoubled.1).2.2 rfl
  unfold Arrives builderParts rawParts
  by_cases hlevel : level = 0
  · obtain ⟨head, rest, -, hname, -⟩ := habsolute hlevel
    have hraw : t.packageName.toList ++ base = head.val :: base := by rw [hname]; rfl
    have hdoubled : Doubled t (head.val :: base) ↔ base ≠ [] ∧ dotted base ∈ t.knownModules := and_iff_right hname
    rw [if_pos hlevel, if_pos hlevel, hraw]
    by_cases hkept : base ≠ [] ∧ dotted base ∈ t.knownModules
    · rw [if_pos (hdoubled.mpr hkept), if_pos hkept]
      exact landing_kept hkept.1 hresolve
    · have hhead : head.val ≠ initName := (hpackage head.val hname).2.2
      rw [if_neg fun h => hkept (hdoubled.mp h), if_neg hkept, landing_prefixed, or_iff_left fun h => hhead h.2.2.1]
      constructor
      · exact fun h => ⟨head.val, hname, h⟩
      · rintro ⟨p, hp, h⟩
        obtain rfl : head.val = p := Option.some.inj (hname.symm.trans hp)
        exact h
  · rw [if_neg hlevel, if_neg hlevel]
    by_cases hroot : f.isRootInit = true
    · rw [if_pos hroot, if_pos hroot, if_neg (hinit base), landing_prefixed]
      have hrepeat : ¬ (t.Submodule base name ∧ base ++ [name.val] = initName :: base ∧
          dotted (initName :: base ++ [name.val]) ∉ t.knownModules) := by
        rintro ⟨hsub, heq, -⟩
        obtain ⟨target, htarget⟩ := Option.isSome_iff_exists.mp hsub.2
        exact ((resolve_some htarget).1 initName (heq ▸ List.mem_cons_self)).2.2 rfl
      rw [or_iff_right hrepeat]
      exact ⟨fun h => ⟨h.2.1, h.1, h.2.2.2⟩, fun h => ⟨h.2.1, h.1, rfl, h.2.2⟩⟩
    · rw [if_neg hroot, if_neg hroot]
      by_cases hnil : base = []
      · subst hnil
        rw [if_neg fun h : Doubled t [] => h.2.1 rfl, if_pos rfl]
        have hland : landing t [] name.val = [name.val] := if_pos rfl
        rw [hland]
        unfold nameOf targetParts
        by_cases hsub : t.Submodule [] name
        · rw [if_pos hsub, List.nil_append, if_neg (List.cons_ne_nil _ _)]
          exact iff_of_true rfl (.inl hsub)
        · rw [if_neg hsub, if_pos rfl, or_iff_right hsub]
          exact ⟨fun h => (List.cons.inj h).1, fun h => by rw [h]⟩
      · rw [if_neg hnil]
        by_cases hdoubled : Doubled t base
        · rw [if_pos hdoubled, if_pos hdoubled]
          exact landing_shortened hdoubled.2.1 hresolve
        · rw [if_neg hdoubled, if_neg hdoubled]
          exact landing_kept hnil hresolve

theorem target_eq {t : SourceTree} {f : SourceFile} {module : List ImportedName} {level : Nat} {base : List PyStr}
    (h : t.pythonBase f module level = some base) (name : ImportedName) :
    t.target f module level name = t.resolve (targetParts t base name) := by
  unfold SourceTree.target targetParts
  rw [h, Option.bind_some]
  split_ifs <;> rfl

theorem target_known {t : SourceTree} {f : SourceFile} {module : List ImportedName} {level : Nat}
    {name : ImportedName} {target : PyStr} (h : t.target f module level name = some target) : target ∈ t.knownModules := by
  obtain ⟨base, hbase, -⟩ := Option.bind_eq_some_iff.mp h
  rw [target_eq hbase] at h
  exact (resolve_some h).2.2

/-- For every file of every tree and every name of every from-import: the builder's edge
    leads to the module of the map that Python would resolve to exactly when there is
    none, or the file can be parsed and the builder arrives there. -/
theorem followsPython_iff (t : SourceTree) (f : SourceFile) (module : List ImportedName) (level : Nat)
    (name : ImportedName) :
    FollowsPython t f module level name ↔
      ∀ base, t.pythonBase f module level = some base → (t.target f module level name).isSome = true →
        f.parses = true ∧ Arrives t f level base name := by
  unfold FollowsPython
  cases hbase : t.pythonBase f module level with
  | none =>
      have hnone : t.target f module level name = none := by
        unfold SourceTree.target
        rw [hbase]
        rfl
      rw [hnone]
      exact iff_of_true (fun _ h => by cases h) fun _ h => by cases h
  | some base =>
      rw [target_eq hbase]
      cases hresolve : t.resolve (targetParts t base name) with
      | none => exact iff_of_true (fun _ h => by cases h) fun _ _ h => by cases h
      | some target =>
          have harrives : t.edge f module level name = target ↔ Arrives t f level base name :=
            (edge_eq_target_iff hbase hresolve).trans (landing_iff_arrives hbase (by rw [hresolve]; rfl))
          constructor
          · rintro h _ ⟨⟩ -
            exact ⟨(h target rfl).1, harrives.mp (h target rfl).2⟩
          · rintro h _ ⟨⟩
            exact ⟨(h base rfl rfl).1, harrives.mpr (h base rfl rfl).2⟩

/-- So in a tree whose from-imports all meet the condition, the map has an edge to every
    module of the map that a from-import of one of its files resolves to. -/
theorem map_follows_python {t : SourceTree}
    (h : ∀ f ∈ t.scanned, ∀ module names level, .importFrom module names level ∈ f.statements → ∀ name ∈ names,
      ∀ base, t.pythonBase f module level = some base → (t.target f module level name).isSome = true →
        f.parses = true ∧ Arrives t f level base name)
    {f : SourceFile} (hf : f ∈ t.scanned) {module names : List ImportedName} {level : Nat}
    (hstatement : .importFrom module names level ∈ f.statements) {name : ImportedName} (hname : name ∈ names)
    {target : PyStr} (htarget : t.target f module level name = some target) :
    (∃ node ∈ (buildCodebaseMap t).modules, node.moduleName = target) ∧
      ∃ node ∈ (buildCodebaseMap t).modules, node.path = f.path ∧ node.moduleName = f.moduleName ∧
        target ∈ node.imports := by
  have hfollows := (followsPython_iff t f module level name).mpr (h f hf module names level hstatement name hname)
  obtain ⟨hparses, hedge⟩ := hfollows target htarget
  refine ⟨mem_knownModules_iff.mp (target_known htarget), ?_⟩
  rw [← hedge]
  exact edge_mem_map hf hparses hstatement hname

-- ============================================================================
-- A package
-- ============================================================================

/-- A name without dots. -/
def importedName (s : String) (h : py s ≠ [] ∧ 46 ∉ py s) : ImportedName := ⟨py s, h⟩

/-- The `__init__.py` of a package `app`, with `from .core import Engine`. -/
def appInit : SourceFile where
  dirs := []
  filename := initFilename
  statements := [.importFrom [importedName "core" (by decide)] [importedName "Engine" (by decide)] 1]

/-- The package `app`, with a module `core`. -/
def appTree : SourceTree where
  rootPath := py "/src/app"
  rootName := py "app"
  files := [appInit, { dirs := [], filename := py "core.py" }]
  exclude := []

/-- Python finds the module `core` beside the `__init__`; the edge leads to a name that
    no module has. -/
theorem root_init_astray :
    (buildCodebaseMap appTree).importsOf (py "__init__") = [py "__init__.core"] ∧
      (buildCodebaseMap appTree).importersOf (py "core") = [] ∧
      appTree.target appInit [importedName "core" (by decide)] 1 (importedName "Engine" (by decide))
        = some (py "core") ∧
      ¬ FollowsPython appTree appInit [importedName "core" (by decide)] 1 (importedName "Engine" (by decide)) := by
  have htarget : appTree.target appInit [importedName "core" (by decide)] 1 (importedName "Engine" (by decide))
      = some (py "core") := by decide +kernel
  refine ⟨by decide +kernel, by decide +kernel, htarget, fun h => ?_⟩
  exact absurd (h (py "core") htarget).2 (by decide +kernel)

end Codemap
end KineticSdk
