/-
  KineticSdk.Plugin.Loader

  `PluginLoader.load` (`plugin/loader.py`) and `scan_plugin` (`plugin/scanner.py`).

  The interpreter that imports modules and runs their code is an argument
  (`Interp`): what is in `sys.modules`, what the import system finds, and what
  running a file or calling a factory does to it.  A run keeps a log of its scan
  and of the files whose code was run, in order.
-/

import KineticSdk.Py.Repr
import KineticSdk.Skills.Vet

namespace KineticSdk
namespace Plugin

open Py Os Skills

-- ============================================================================
-- Manifests
-- ============================================================================

/-- `PluginSource`. -/
inductive Source where
  | entryPoint
  | directory
deriving DecidableEq

/-- The text of a source. -/
def Source.text : Source → PyStr
  | .entryPoint => py "entry_point"
  | .directory => py "directory"

/-- The part of an entry point before the colon. -/
def moduleText (entryPoint : PyStr) : PyStr := beforeChar 58 entryPoint

/-- `PluginManifest`, less what only the Docker loader reads.  `_ENTRY_POINT_RE` lets
    identifiers pass only, joined by dots. -/
structure PluginManifest where
  name : PyStr
  version : Option PyStr
  entryPoint : PyStr
  source : Source
  declaredCapabilities : List PyStr
  directory : Path := []
  identifiers : ∀ part ∈ splitChar 46 (moduleText entryPoint), Plain part

/-- `module_spec`. -/
def PluginManifest.moduleSpec (m : PluginManifest) : PyStr := moduleText m.entryPoint

/-- `module_spec.split(".")`. -/
def PluginManifest.parts (m : PluginManifest) : List PyStr := splitChar 46 m.moduleSpec

/-- `factory_name`. -/
def PluginManifest.factoryName (m : PluginManifest) : PyStr :=
  (m.entryPoint.dropWhile (· != 58)).drop 1

-- ============================================================================
-- The interpreter
-- ============================================================================

/-- What a finder returns: the file of a module, none for a namespace package, and
    where its submodules are searched, none for what is no package. -/
structure Spec where
  origin : Option Path
  locations : Option (List PyStr)

/-- What a factory returns. -/
inductive Produced where
  | manifest (m : PluginManifest)
  /-- A list, each item with its type's name and, for a `Tool`, its own name. -/
  | items (items : List (PyStr × Option PyStr))
  | other (typeName : PyStr)

/-- What comes of `getattr(module, factory_name, None)` and calling it. -/
inductive Called where
  | notCallable
  | raised (e : PyExc)
  | returned (produced : Produced)

/-- An interpreter with states `σ` and modules `μ`. -/
structure Interp (σ μ : Type) where
  /-- `sys.modules.get(name)`. -/
  loaded : σ → List PyStr → Option μ
  /-- The module's `__path__`. -/
  path : μ → Option (List PyStr)
  /-- The module's `__name__`. -/
  name : μ → PyStr
  /-- `PathFinder.find_spec(name, path)`. -/
  find : σ → List PyStr → Option (List PyStr) → Option Spec
  /-- A namespace package is put into `sys.modules`. -/
  register : σ → List PyStr → Spec → σ × μ
  /-- The code of a file is run as a module. -/
  exec : σ → List PyStr → Path → σ × Except PyExc μ
  /-- A factory is called. -/
  call : σ → μ → PyStr → σ × Called

section Import

variable {σ μ : Type}

/-- What an import leaves: the state, the files that were run, and the module. -/
structure Imported (σ μ : Type) where
  state : σ
  executed : List Path
  result : Except PyExc μ

/-- A `ModuleNotFoundError`. -/
def moduleNotFound (name : List PyStr) : PyExc :=
  ⟨py "ModuleNotFoundError", py "No module named " ++ pyReprStr (join [46] name)⟩

/-- A module that is not in `sys.modules` is found and run. -/
def findAndExec (I : Interp σ μ) (s : σ) (name : List PyStr) (path : Option (List PyStr)) :
    Imported σ μ :=
  match I.find s name path with
  | none => ⟨s, [], .error (moduleNotFound name)⟩
  | some spec =>
      match spec.origin with
      | none => ⟨(I.register s name spec).1, [], .ok (I.register s name spec).2⟩
      | some file => ⟨(I.exec s name file).1, [file], (I.exec s name file).2⟩

/-- `importlib.import_module`, for a name from its last part: parents are imported
    first, and their code may bring the module itself. -/
def importModule (I : Interp σ μ) : List PyStr → σ → Imported σ μ
  | [], s => ⟨s, [], .error (moduleNotFound [])⟩
  | part :: parents, s =>
      let name := (part :: parents).reverse
      match I.loaded s name with
      | some module => ⟨s, [], .ok module⟩
      | none =>
          if parents = [] then findAndExec I s name none
          else
            let outer := importModule I parents s
            match outer.result with
            | .error e => ⟨outer.state, outer.executed, .error e⟩
            | .ok parent =>
                match I.loaded outer.state name, I.path parent with
                | some module, _ => ⟨outer.state, outer.executed, .ok module⟩
                | none, none => ⟨outer.state, outer.executed, .error (moduleNotFound name)⟩
                | none, some path =>
                    let inner := findAndExec I outer.state name (some path)
                    ⟨inner.state, outer.executed ++ inner.executed, inner.result⟩

/-- `PluginLoadError(f"plugin {name!r}: ...")`. -/
def loadError (m : PluginManifest) (text : PyStr) : PyExc :=
  ⟨py "PluginLoadError", py "plugin " ++ pyReprStr m.name ++ py ": " ++ text⟩

/-- `__init__.py`. -/
def initFile : PyStr := py "__init__.py"

/-- The loop of `_import_directory_module` over the parts of the module's name. -/
def importParts (tree : Node) (I : Interp σ μ) (m : PluginManifest) :
    List PyStr → Path → List PyStr → σ → Imported σ μ
  | _, _, [], s => ⟨s, [], .error (moduleNotFound [])⟩
  | name, current, part :: rest, s =>
      let name := name ++ [part]
      let packageInit := current ++ [part, initFile]
      let moduleFile := current ++ [part ++ py ".py"]
      if isFile tree packageInit then
        let run := I.exec s name packageInit
        match run.2 with
        | .error e => ⟨run.1, [packageInit], .error e⟩
        | .ok module =>
            if rest = [] then ⟨run.1, [packageInit], .ok module⟩
            else
              let inner := importParts tree I m name (current ++ [part]) rest run.1
              ⟨inner.state, packageInit :: inner.executed, inner.result⟩
      else if isFile tree moduleFile then
        if rest = [] then ⟨(I.exec s name moduleFile).1, [moduleFile], (I.exec s name moduleFile).2⟩
        else
          ⟨s, [], .error (loadError m (pyReprStr part ++ py " in " ++ pyReprStr m.moduleSpec
            ++ py " is a module, not a package"))⟩
      else
        ⟨s, [], .error (loadError m (py "cannot locate module " ++ pyReprStr m.moduleSpec ++ py " under "
          ++ pathText m.directory))⟩

/-- `f"kinetic_plugin_{name.replace('-', '_')}"`. -/
def modulePrefix (m : PluginManifest) : PyStr :=
  py "kinetic_plugin_" ++ m.name.map fun c => if c = 45 then 95 else c

/-- `_import_module`. -/
def importManifest (tree : Node) (I : Interp σ μ) (m : PluginManifest) (s : σ) : Imported σ μ :=
  match m.source with
  | .directory => importParts tree I m [modulePrefix m] m.directory m.parts s
  | .entryPoint => importModule I m.parts.reverse s

-- ============================================================================
-- The scan
-- ============================================================================

/-- `path.name.endswith(".py")`, which is what the glob `*.py` asks for. -/
def isPy (name : PyStr) : Bool := (py ".py").isSuffixOf name

mutual

/-- `Path(path).rglob("*.py")`: links to directories are not followed, and directories
    that cannot be read are passed over. -/
def rglobPy : Path → Node → List Path
  | path, .dir true entries => rglobPyIn path entries
  | _, _ => []

/-- The same for the entries of a directory. -/
def rglobPyIn : Path → List (PyStr × Node) → List Path
  | _, [] => []
  | path, (name, node) :: rest =>
      (if isPy name then [path ++ [name]] else []) ++ rglobPy (path ++ [name]) node ++ rglobPyIn path rest

end

/-- The `*.py` files below a path, sorted. -/
def pythonFiles (tree : Node) (path : Path) : List Path :=
  match stat tree path with
  | some node => (rglobPy path node).insertionSort (· ≤ ·)
  | none => []

/-- `_find_spec_no_import`: the parts that are left, behind a name that was found. -/
def findSpecFrom (I : Interp σ μ) (s : σ) : List PyStr → Option Spec → List PyStr → Option Spec
  | _, spec, [] => spec
  | walked, spec, part :: rest =>
      match spec.bind Spec.locations with
      | none => none
      | some locations => findSpecFrom I s (walked ++ [part]) (I.find s (walked ++ [part]) (some locations)) rest

/-- `_find_spec_no_import`. -/
def findSpecNoImport (I : Interp σ μ) (s : σ) : List PyStr → Option Spec
  | [] => none
  | part :: rest => findSpecFrom I s [part] (I.find s [part] none) rest

/-- The file of the entry module, as `_locate_source_files` finds it. -/
def entryFile (tree : Node) (I : Interp σ μ) (s : σ) (m : PluginManifest) : Option Path :=
  ((findSpecNoImport I s m.parts).bind Spec.origin).filter fun origin => isFile tree origin

/-- `_locate_source_files`. -/
def locateSourceFiles (tree : Node) (I : Interp σ μ) (s : σ) (m : PluginManifest) :
    Except PyExc (List Path) :=
  match m.source with
  | .directory =>
      if pythonFiles tree m.directory = [] then
        .error (loadError m (py "no Python files found under " ++ pathText m.directory))
      else .ok (pythonFiles tree m.directory)
  | .entryPoint =>
      match entryFile tree I s m with
      | none =>
          .error (loadError m (py "cannot locate module " ++ pyReprStr m.moduleSpec
            ++ py " on sys.path without importing it"))
      | some origin =>
          if origin.getLast? = some initFile then .ok (pythonFiles tree origin.dropLast) else .ok [origin]

/-- `ScanResult`. -/
structure ScanResult where
  clean : Bool
  flags : List VetFlag
  filesScanned : List Path
deriving DecidableEq

/-- `StaticPluginScanner.scan_source`, of a text and its location. -/
abbrev Scanner := PyStr → PyStr → List VetFlag

/-- The flags of one file. -/
def scanFile (tree : Node) (scanSource : Scanner) (m : PluginManifest) (file : Path) :
    Except PyExc (List VetFlag) :=
  match readText tree file with
  | .ok source => .ok (scanSource source (pathText file))
  | .error .decode => .error ⟨py "UnicodeDecodeError", []⟩
  | .error _ => .error (loadError m (py "cannot read source file " ++ pathText file))

/-- `scan_plugin`. -/
def scanPlugin (tree : Node) (scanSource : Scanner) (I : Interp σ μ) (s : σ) (m : PluginManifest) :
    Except PyExc ScanResult := do
  let files ← locateSourceFiles tree I s m
  let flags ← files.mapM (scanFile tree scanSource m)
  return ⟨allClean flags.flatten, flags.flatten, files⟩

-- ============================================================================
-- Loading
-- ============================================================================

/-- What a run of `load` does, in order. -/
inductive Event where
  /-- A scan has come to a result. -/
  | scanned (result : ScanResult)
  /-- The code of a file is run to import its module. -/
  | executed (file : Path)
deriving DecidableEq

/-- What `load` leaves: its log, the state, and the names of the tools. -/
structure LoadRun (σ : Type) where
  log : List Event
  state : σ
  result : Except PyExc (List PyStr)

/-- `_call_factory`. -/
def callFactory (I : Interp σ μ) (m : PluginManifest) (module : μ) (s : σ) :
    σ × Except PyExc Produced :=
  match I.call s module m.factoryName with
  | (s, .notCallable) =>
      (s, .error (loadError m (pyReprStr m.factoryName ++ py " is not a callable in module "
        ++ pyReprStr (I.name module))))
  | (s, .raised e) => (s, .error e)
  | (s, .returned produced) => (s, .ok produced)

/-- The manifest a factory returns, as the loader takes it over. -/
def adopt (m produced : PluginManifest) : PluginManifest :=
  if produced.source ≠ m.source then
    { name := m.name
      version := if produced.version.getD [] = [] then m.version else produced.version
      entryPoint := produced.entryPoint
      source := m.source
      declaredCapabilities := m.declaredCapabilities
      directory := m.directory
      identifiers := produced.identifiers }
  else produced

/-- The module of a manifest is imported and its factory called. -/
def importAndCall (tree : Node) (I : Interp σ μ) (m : PluginManifest) (s : σ) :
    Imported σ Produced :=
  let imported := importManifest tree I m s
  match imported.result with
  | .error e => ⟨imported.state, imported.executed, .error e⟩
  | .ok module =>
      ⟨(callFactory I m module imported.state).1, imported.executed,
        (callFactory I m module imported.state).2⟩

/-- `_import_and_build`, with one more hop for a manifest. -/
def importAndBuild (tree : Node) (I : Interp σ μ) (m : PluginManifest) (s : σ) : Imported σ Produced :=
  let first := importAndCall tree I m s
  match first.result with
  | .ok (.manifest produced) =>
      let second := importAndCall tree I (adopt m produced) first.state
      ⟨second.state, first.executed ++ second.executed, second.result⟩
  | _ => first

/-- The names of the tools a factory has returned, or why it is refused. -/
def validateTools (m : PluginManifest) : Produced → Except PyExc (List PyStr)
  | .items items =>
      match items.find? fun item => item.2.isNone with
      | some item =>
          .error (loadError m (py "factory returned a non-Tool object (" ++ item.1
            ++ py "); every entry must be a kinetic_sdk.tool.base.Tool"))
      | none => .ok (items.filterMap Prod.snd)
  | .manifest _ =>
      .error (loadError m (py "factory " ++ pyReprStr m.entryPoint
        ++ py " returned PluginManifest, expected list[Tool]"))
  | .other typeName =>
      .error (loadError m (py "factory " ++ pyReprStr m.entryPoint ++ py " returned " ++ typeName
        ++ py ", expected list[Tool]"))

/-- The error of an import as `load` raises it. -/
def wrapError (m : PluginManifest) (e : PyExc) : PyExc :=
  if e.type = py "PluginLoadError" then e
  else
    ⟨py "PluginLoadError", py "plugin " ++ pyReprStr m.name
      ++ py " raised during import/factory execution: " ++ e.text⟩

/-- `PluginLoader.load`. -/
def load (tree : Node) (scanSource : Scanner) (I : Interp σ μ) (m : PluginManifest) (s : σ) : LoadRun σ :=
  if m.declaredCapabilities.filter (· ≠ py "tool") ≠ [] then
    ⟨[], s, .error (loadError m (py "capabilities "
      ++ pyRepr (.arr (((m.declaredCapabilities.filter (· ≠ py "tool")).insertionSort (· ≤ ·)).map .str))
      ++ py " are declared but not supported by this SDK version (only 'tool' is implemented)"))⟩
  else
    match scanPlugin tree scanSource I s m with
    | .error e => ⟨[], s, .error e⟩
    | .ok result =>
        if result.clean then
          let built := importAndBuild tree I m s
          ⟨.scanned result :: built.executed.map .executed, built.state,
            match built.result with
            | .error e => .error (wrapError m e)
            | .ok produced => validateTools m produced⟩
        else
          let categories :=
            ((result.flags.filter fun flag => flag.severity = .critical).map VetFlag.category).dedup
          ⟨[.scanned result], s, .error ⟨py "PluginVetError", py "plugin " ++ pyReprStr m.name
            ++ py " failed static scanning: critical findings in categories "
            ++ pyRepr (.arr ((categories.insertionSort (· ≤ ·)).map .str))
            ++ py " — the plugin was NOT imported. (A passing scan is a tripwire result, not a "
            ++ py "sandbox guarantee.)"⟩⟩

end Import

end Plugin
end KineticSdk
