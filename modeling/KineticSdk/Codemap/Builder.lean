/-
  KineticSdk.Codemap.Builder

  The import map of a directory tree (`codemap/builder.py`).

  The builder never runs the import system.  It names every file after its path
  below the scanned root, and turns the texts of the import statements into such
  names: dots of a relative import are counted off the importer's own name, and the
  name of the root's package is taken off an absolute one.
-/

import KineticSdk.Codemap.Models
import Mathlib.Data.List.Dedup

namespace KineticSdk
namespace Codemap

open Py

-- ============================================================================
-- Source files
-- ============================================================================

/-- What stands between the dots of an import: an identifier, or `*`. -/
abbrev ImportedName := { s : PyStr // s ≠ [] ∧ 46 ∉ s }

/-- The names of `import a.b, c`, and `from ..a.b import c, d` with its level. -/
inductive Statement where
  | importNames (names : List (List ImportedName))
  | importFrom (module : List ImportedName) (names : List ImportedName) (level : Nat)

/-- A file `*.py`, in its directory below the root. -/
structure SourceFile where
  dirs : List PyStr
  filename : PyStr
  /-- `read_text` as UTF-8 and `ast.parse` succeed. -/
  parses : Bool := true
  /-- The import statements, in the order of `ast.walk`. -/
  statements : List Statement := []
  /-- The names that `_defines` collects, sorted. -/
  defines : List PyStr := []

/-- A directory tree without links: its `*.py` files in the order of `os.walk`. -/
structure SourceTree where
  rootPath : PyStr
  rootName : PyStr
  files : List SourceFile
  exclude : List PyStr

/-- `".".join(parts)`. -/
def dotted (parts : List PyStr) : PyStr := join [46] parts

/-- `__init__`. -/
def initName : PyStr := py "__init__"

/-- `__init__.py`. -/
def initFilename : PyStr := py "__init__.py"

/-- `Path(filename).with_suffix("")`: a leading dot begins no suffix. -/
def stem (filename : PyStr) : PyStr :=
  if filename.length ≤ 3 then filename else filename.take (filename.length - 3)

/-- `is_package`. -/
def SourceFile.isPackage (f : SourceFile) : Bool := f.filename = initFilename

/-- `relative.as_posix()`. -/
def SourceFile.path (f : SourceFile) : PyStr := join (py "/") (f.dirs ++ [f.filename])

/-- `_module_name`, of a path given by its directories and its file. -/
def moduleName (dirs : List PyStr) (filename : PyStr) : PyStr :=
  let parts := dirs ++ [stem filename]
  let name := dotted (if stem filename = initName then dirs else parts)
  if name = [] then initName else name

/-- The name of a file in the map. -/
def SourceFile.moduleName (f : SourceFile) : PyStr := Codemap.moduleName f.dirs f.filename

/-- The directories that are walked to a file are not excluded. -/
def SourceTree.walked (t : SourceTree) (dirs : List PyStr) : Bool := dirs.all fun name => name ∉ t.exclude

/-- `files`. -/
def SourceTree.scanned (t : SourceTree) : List SourceFile := t.files.filter fun f => t.walked f.dirs

/-- `known_modules`. -/
def SourceTree.knownModules (t : SourceTree) : List PyStr := t.scanned.map SourceFile.moduleName

/-- `is_file`. -/
def SourceTree.isFile (t : SourceTree) (dirs : List PyStr) (filename : PyStr) : Bool :=
  t.files.any fun f => f.dirs = dirs && f.filename = filename

/-- `package_name`. -/
def SourceTree.packageName (t : SourceTree) : Option PyStr :=
  if t.isFile [] initFilename then some t.rootName else none

-- ============================================================================
-- Imports
-- ============================================================================

/-- `_relative_base`. -/
def relativeBase (moduleName : PyStr) (level : Nat) (module : PyStr) (isPackage : Bool) : PyStr :=
  let parts := splitChar 46 moduleName
  let package := if isPackage then parts else parts.dropLast
  let up := level - 1
  if up > package.length then List.replicate level 46 ++ module
  else
    let base := package.take (package.length - up)
    dotted (if module = [] then base else base ++ splitChar 46 module)

/-- `_canonical_module_name`. -/
def canonicalModuleName (name : PyStr) (known : List PyStr) (package : Option PyStr) : PyStr :=
  match package with
  | none => name
  | some p =>
      if p ≠ [] ∧ p ++ [46] <+: name then
        if name.drop (p.length + 1) ∈ known then name.drop (p.length + 1) else name
      else name

/-- The text of `node.module or ""`. -/
def moduleText (module : List ImportedName) : PyStr := dotted (module.map Subtype.val)

/-- The base of a from-import. -/
def SourceTree.importBase (t : SourceTree) (f : SourceFile) (module : List ImportedName) (level : Nat) : PyStr :=
  let base := if level = 0 then moduleText module else relativeBase f.moduleName level (moduleText module) f.isPackage
  canonicalModuleName base t.knownModules t.packageName

/-- What `_imports` adds for one imported name. -/
def SourceTree.edge (t : SourceTree) (f : SourceFile) (module : List ImportedName) (level : Nat)
    (name : ImportedName) : PyStr :=
  let base := t.importBase f module level
  if base = [] then name
  else if name.val = py "*" then base
  else
    let candidate := base ++ [46] ++ name.val
    if candidate ∈ t.knownModules then candidate else base

/-- What `_imports` adds for one statement. -/
def SourceTree.edges (t : SourceTree) (f : SourceFile) : Statement → List PyStr
  | .importNames names => names.map fun name => canonicalModuleName (moduleText name) t.knownModules t.packageName
  | .importFrom module names level => names.map (t.edge f module level)

/-- `_imports`, sorted. -/
def SourceTree.imports (t : SourceTree) (f : SourceFile) : List PyStr :=
  ((f.statements.flatMap (t.edges f)).dedup).insertionSort (· ≤ ·)

-- ============================================================================
-- The map
-- ============================================================================

/-- The node of a file. -/
def SourceTree.node (t : SourceTree) (f : SourceFile) : ModuleNode :=
  if f.parses then ⟨f.path, f.moduleName, t.imports f, f.defines⟩ else ⟨f.path, f.moduleName, [], []⟩

/-- `build_codebase_map`. -/
def buildCodebaseMap (t : SourceTree) : CodebaseMap where
  rootPath := t.rootPath
  modules := (t.scanned.map t.node).insertionSort fun a b => a.moduleName ≤ b.moduleName
  skipped := ((t.scanned.filter fun f => !f.parses).map SourceFile.path).insertionSort (· ≤ ·)

/-- The names of the map are the known modules. -/
theorem mem_knownModules_iff {t : SourceTree} {name : PyStr} :
    name ∈ t.knownModules ↔ ∃ node ∈ (buildCodebaseMap t).modules, node.moduleName = name := by
  have hname : ∀ f, (t.node f).moduleName = f.moduleName := fun f => by
    unfold SourceTree.node
    split_ifs <;> rfl
  unfold SourceTree.knownModules buildCodebaseMap
  simp only [List.mem_map, List.mem_insertionSort]
  constructor
  · rintro ⟨f, hf, rfl⟩
    exact ⟨t.node f, ⟨f, hf, rfl⟩, hname f⟩
  · rintro ⟨node, ⟨f, hf, rfl⟩, rfl⟩
    exact ⟨f, hf, (hname f).symm⟩

/-- The edge of an imported name is in the map, on the node of the importer. -/
theorem edge_mem_map {t : SourceTree} {f : SourceFile} (hf : f ∈ t.scanned) (hparses : f.parses = true)
    {module names : List ImportedName} {level : Nat} (hstatement : .importFrom module names level ∈ f.statements)
    {name : ImportedName} (hname : name ∈ names) :
    ∃ node ∈ (buildCodebaseMap t).modules, node.path = f.path ∧ node.moduleName = f.moduleName ∧
      t.edge f module level name ∈ node.imports := by
  have hnode : t.node f = ⟨f.path, f.moduleName, t.imports f, f.defines⟩ := if_pos hparses
  refine ⟨t.node f, ?_, by rw [hnode], by rw [hnode], ?_⟩
  · unfold buildCodebaseMap
    exact (List.mem_insertionSort _).mpr (List.mem_map_of_mem hf)
  · rw [hnode]
    unfold SourceTree.imports
    rw [List.mem_insertionSort, List.mem_dedup, List.mem_flatMap]
    exact ⟨_, hstatement, List.mem_map_of_mem hname⟩

end Codemap
end KineticSdk
