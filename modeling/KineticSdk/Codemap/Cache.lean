/-
  KineticSdk.Codemap.Cache

  The cache of import maps (`codemap/cache.py`).

  The cache file holds a map with the times and sizes of the files it was built
  from, taken before the build.  `get_or_build` is a call of `Lib.Memo`: the stamp
  of a tree is the dictionary of its fingerprints, which tells as much as the files
  with their stamps (`fingerprints_agree_iff`), and a map is read back as it was
  written (`load_text`).
-/

import KineticSdk.Codemap.Builder
import KineticSdk.Lib.Memo
import KineticSdk.Lib.Traverse
import KineticSdk.Py.JsonCompact
import KineticSdk.Py.JsonFile
import KineticSdk.Py.Os
import KineticSdk.Security.Audit
import Mathlib.Data.Prod.Lex

namespace KineticSdk
namespace Codemap

open Py Lib.Memo Lib.Steps

-- ============================================================================
-- Maps as JSON
-- ============================================================================

/-- A `ValueError`. -/
def valueError (message : String) : PyExc := ⟨py "ValueError", py message⟩

/-- A list of strings as JSON. -/
def strings (xs : List PyStr) : Json := .arr (xs.map .str)

/-- A string in JSON. -/
def readString : Json → Option PyStr
  | .str s => some s
  | _ => none

/-- `isinstance(v, list) and all(isinstance(item, str) for item in v)`. -/
def readStrings : Json → Option (List PyStr)
  | .arr xs => xs.mapM readString
  | _ => none

/-- `isinstance(v, str) and v`. -/
def readName : Json → Option PyStr
  | .str s => if s = [] then none else some s
  | _ => none

/-- `ModuleNode.to_dict`. -/
def ModuleNode.toDict (node : ModuleNode) : Py.Dict :=
  [(py "path", .str node.path), (py "module_name", .str node.moduleName), (py "imports", strings node.imports),
    (py "defines", strings node.defines)]

/-- `ModuleNode.from_dict`. -/
def ModuleNode.fromDict (data : Py.Dict) : Except PyExc ModuleNode :=
  match readName (field data "path"), readName (field data "module_name") with
  | some path, some name =>
      match readStrings (field data "imports") with
      | none => .error (valueError "module imports must be a list of strings")
      | some imports =>
          match readStrings (field data "defines") with
          | none => .error (valueError "module defines must be a list of strings")
          | some defines => .ok ⟨path, name, imports, defines⟩
  | _, _ => .error (valueError "module path and module_name must be non-empty strings")

/-- `CodebaseMap.to_dict`. -/
def CodebaseMap.toDict (m : CodebaseMap) : Py.Dict :=
  [(py "root_path", .str m.rootPath), (py "modules", .arr (m.modules.map fun node => .obj node.toDict)),
    (py "skipped", strings m.skipped)]

/-- A dictionary in JSON. -/
def readDict : Json → Option Py.Dict
  | .obj d => some d
  | _ => none

/-- `isinstance(v, list) and all(isinstance(item, dict) for item in v)`. -/
def readDicts : Json → Option (List Py.Dict)
  | .arr xs => xs.mapM readDict
  | _ => none

/-- `CodebaseMap.from_dict`. -/
def CodebaseMap.fromDict (data : Py.Dict) : Except PyExc CodebaseMap :=
  match readName (field data "root_path") with
  | none => .error (valueError "codebase map root_path must be a non-empty string")
  | some root =>
      match readDicts (field data "modules") with
      | none => .error (valueError "codebase map modules must be a list of dicts")
      | some modules =>
          match readStrings ((Dict.get? data (py "skipped")).getD (.arr [])) with
          | none => .error (valueError "codebase map skipped must be a list of strings")
          | some skipped => (modules.mapM ModuleNode.fromDict).map fun nodes => ⟨root, nodes, skipped⟩

-- ============================================================================
-- Trees with stamps
-- ============================================================================

/-- `DEFAULT_EXCLUDE`. -/
def defaultExclude : List PyStr := [py ".venv", py "venv", py "node_modules", py "__pycache__", py ".git"]

/-- `st_mtime_ns` and `st_size`. -/
structure Stamp where
  mtimeNs : Int
  size : Nat
deriving DecidableEq

/-- A file `*.py` with what `stat` says of it, or `none` for an `OSError`. -/
structure StampedFile where
  file : SourceFile
  stamp : Option Stamp

/-- The names that lead to a file from the root. -/
def SourceFile.names (f : SourceFile) : List PyStr := f.dirs ++ [f.filename]

/-- The files `*.py` below a root, in the order in which `os.walk` lists them. -/
structure DiskTree where
  files : List StampedFile
  plain : ∀ f ∈ files, ∀ name ∈ f.file.names, Os.Plain name
  distinct : (files.map fun f => f.file.names).Nodup

/-- The directories that are walked. -/
def DiskTree.scanned (t : DiskTree) : List StampedFile :=
  t.files.filter fun f => f.file.dirs.all fun name => name ∉ defaultExclude

/-- The entry of a file in the fingerprints. -/
def StampedFile.fingerprint (f : StampedFile) : Option (PyStr × Json) :=
  f.stamp.map fun stamp => (f.file.path, .arr [.int stamp.mtimeNs, .int stamp.size])

/-- `_fingerprints`. -/
def DiskTree.fingerprints (t : DiskTree) : Py.Dict := Dict.ofPairs (t.scanned.filterMap StampedFile.fingerprint)

/-- The order in which the builder walks: the files of a directory before those below it. -/
def SourceFile.place (f : SourceFile) : List PyStr ×ₗ PyStr := toLex (f.dirs, f.filename)

-- ============================================================================
-- The cache
-- ============================================================================

/-- `CodebaseMapCache`, by the root it is for. -/
structure CodebaseMapCache where
  rootPath : PyStr
  rootName : PyStr
  notEmpty : rootPath ≠ []

/-- The tree as the builder walks it, with sorted names. -/
def CodebaseMapCache.source (c : CodebaseMapCache) (t : DiskTree) : SourceTree where
  rootPath := c.rootPath
  rootName := c.rootName
  files := (t.files.map StampedFile.file).insertionSort fun f g => f.place ≤ g.place
  exclude := defaultExclude

/-- `build_codebase_map(self._workspace.root_path)`. -/
def CodebaseMapCache.build (c : CodebaseMapCache) (t : DiskTree) : CodebaseMap := buildCodebaseMap (c.source t)

/-- The file at `self.path`.  Bytes that are not UTF-8 cannot be read either. -/
inductive Stored where
  | missing
  | unreadable
  | text (s : PyStr)
deriving DecidableEq

/-- `CODEMAP_SCHEMA_VERSION`. -/
def codemapSchemaVersion : Int := 1

/-- A list of two integers; booleans are integers. -/
def isFingerprint : Json → Bool
  | .arr [a, b] => isInt a && isInt b
  | _ => false
where
  isInt : Json → Bool
    | .int _ | .bool _ => true
    | _ => false

/-- `_load` on the payload it has read. -/
def loadPayload : Json → Option (CodebaseMap × Py.Dict)
  | .obj payload =>
      if pyEq (field payload "schema_version") (.int codemapSchemaVersion) then
        match field payload "codebase_map", field payload "fingerprints" with
        | .obj mapData, .obj fingerprints =>
            if fingerprints.all fun kv => isFingerprint kv.2 then
              (CodebaseMap.fromDict mapData).toOption.map fun m => (m, fingerprints)
            else none
        | _, _ => none
      else none
  | _ => none

/-- `_load`. -/
def load (fl : FloatRepr) : Stored → Option (CodebaseMap × Py.Dict)
  | .text s =>
      match loadText fl s with
      | .ok v => loadPayload v
      | .error _ => none
  | _ => none

/-- The payload of `_save`. -/
def payload (m : CodebaseMap) (fingerprints : Py.Dict) : Json :=
  .obj [(py "schema_version", .int codemapSchemaVersion), (py "codebase_map", .obj m.toDict),
    (py "fingerprints", .obj fingerprints)]

/-- `_save`: the new file replaces the old one when all of it is written.  A fault is
    what the system raises. -/
def save (fault : Option PyExc) (m : CodebaseMap) (fingerprints : Py.Dict) : Except PyExc Stored :=
  match fault with
  | some e => .error e
  | none =>
      match dumpText (payload m fingerprints) with
      | none => .error Security.unicodeEncodeError
      | some text => .ok (.text text)

/-- `get_or_build`, with the file after it. -/
def CodebaseMapCache.getOrBuild (c : CodebaseMapCache) (fl : FloatRepr) (t : DiskTree) (forceRebuild : Bool)
    (fault : Option PyExc) (stored : Stored) : Stored × Except PyExc CodebaseMap :=
  let fingerprints := t.fingerprints
  let rebuilt :=
    let codebaseMap := c.build t
    match save fault codebaseMap fingerprints with
    | .ok stored' => (stored', .ok codebaseMap)
    | .error e => (stored, .error e)
  match if forceRebuild then none else load fl stored with
  | some cached => if pyEq (.obj cached.2) (.obj fingerprints) then (stored, .ok cached.1) else rebuilt
  | none => rebuilt

-- ============================================================================
-- What is saved is loaded
-- ============================================================================

section RoundTrip

variable {fl : FloatRepr} {m : CodebaseMap} {fingerprints : Py.Dict}

theorem mapM_some_map {α β : Type} {f : β → Option α} {g : α → β} (h : ∀ x, f (g x) = some x) (xs : List α) :
    (xs.map g).mapM f = some xs := by
  induction xs with
  | nil => rfl
  | cons x xs ih =>
      rw [List.map_cons, List.mapM_cons, h, ih]
      rfl

theorem readStrings_strings (xs : List PyStr) : readStrings (strings xs) = some xs :=
  mapM_some_map (f := readString) (fun _ => rfl) xs

theorem readName_str {s : PyStr} (h : s ≠ []) : readName (.str s) = some s := if_neg h

/-- A node that `from_dict` accepts. -/
def ModuleNode.Named (node : ModuleNode) : Prop := node.path ≠ [] ∧ node.moduleName ≠ []

theorem ModuleNode.fromDict_toDict {node : ModuleNode} (h : node.Named) : fromDict node.toDict = .ok node := by
  have hpath : field node.toDict "path" = .str node.path := rfl
  have hname : field node.toDict "module_name" = .str node.moduleName := rfl
  have himports : field node.toDict "imports" = strings node.imports := rfl
  have hdefines : field node.toDict "defines" = strings node.defines := rfl
  unfold fromDict
  simp only [hpath, hname, himports, hdefines, readName_str h.1, readName_str h.2, readStrings_strings]

theorem CodebaseMap.fromDict_toDict (hroot : m.rootPath ≠ []) (hnodes : ∀ node ∈ m.modules, node.Named) :
    fromDict m.toDict = .ok m := by
  have hrootPath : field m.toDict "root_path" = .str m.rootPath := rfl
  have hmodules : readDicts (field m.toDict "modules") = some (m.modules.map ModuleNode.toDict) := by
    have hmap : m.modules.map (fun node => Json.obj node.toDict) = (m.modules.map ModuleNode.toDict).map .obj :=
      (List.map_map ..).symm
    show readDicts (.arr (m.modules.map fun node => Json.obj node.toDict)) = _
    rw [hmap]
    exact mapM_some_map (f := readDict) (fun _ => rfl) _
  have hskipped : readStrings ((Dict.get? m.toDict (py "skipped")).getD (.arr [])) = some m.skipped :=
    readStrings_strings m.skipped
  have hread : (m.modules.map ModuleNode.toDict).mapM ModuleNode.fromDict = .ok m.modules :=
    Lib.Traverse.mapM_map_ok_iff.mpr fun node hnode => ModuleNode.fromDict_toDict (hnodes node hnode)
  unfold fromDict
  simp only [hrootPath, hmodules, hskipped, readName_str hroot, hread]
  rfl

/-- Fingerprints as `_fingerprints` makes them: distinct paths, each with two numbers. -/
structure Fingerprints (d : Py.Dict) : Prop where
  distinct : (d.map Prod.fst).Nodup
  numbers : ∀ kv ∈ d, ∃ a b : Int, kv.2 = .arr [.int a, .int b]

theorem readable_strings (xs : List PyStr) : Readable false fl (strings xs) := by
  show ReadableList false fl (xs.map .str)
  induction xs with
  | nil => exact trivial
  | cons x xs ih => exact ⟨textOk_raw x, ih⟩

theorem readable_node (node : ModuleNode) : Readable false fl (.obj node.toDict) :=
  ⟨(by decide : [py "path", py "module_name", py "imports", py "defines"].Nodup), textOk_raw _, textOk_raw _,
    textOk_raw _, textOk_raw _, textOk_raw _, readable_strings _, textOk_raw _, readable_strings _, trivial⟩

theorem readable_map (m : CodebaseMap) : Readable false fl (.obj m.toDict) := by
  have hnodes : ∀ nodes : List ModuleNode, ReadableList false fl (nodes.map fun node => .obj node.toDict) := by
    intro nodes
    induction nodes with
    | nil => exact trivial
    | cons node nodes ih => exact ⟨readable_node node, ih⟩
  exact ⟨(by decide : [py "root_path", py "modules", py "skipped"].Nodup), textOk_raw _, textOk_raw _, textOk_raw _,
    hnodes m.modules, textOk_raw _, readable_strings _, trivial⟩

theorem Fingerprints.readable (h : Fingerprints fingerprints) : Readable false fl (.obj fingerprints) := by
  refine ⟨h.distinct, ?_⟩
  have hall : ∀ d : Py.Dict, (∀ kv ∈ d, ∃ a b : Int, kv.2 = .arr [.int a, .int b]) → ReadableFields false fl d := by
    intro d
    induction d with
    | nil => exact fun _ => trivial
    | cons kv d ih =>
        intro hd
        obtain ⟨k, v⟩ := kv
        obtain ⟨a, b, rfl⟩ : ∃ a b : Int, v = .arr [.int a, .int b] := hd (k, v) List.mem_cons_self
        exact ⟨textOk_raw k, ⟨trivial, trivial, trivial⟩, ih fun kv hkv => hd kv (List.mem_cons_of_mem _ hkv)⟩
  exact hall _ h.numbers

theorem readable_payload (m : CodebaseMap) (h : Fingerprints fingerprints) :
    Readable false fl (payload m fingerprints) :=
  ⟨(by decide : [py "schema_version", py "codebase_map", py "fingerprints"].Nodup), textOk_raw _, trivial,
    textOk_raw _, readable_map m, textOk_raw _, h.readable, trivial⟩

theorem loadPayload_payload (hroot : m.rootPath ≠ []) (hnodes : ∀ node ∈ m.modules, node.Named)
    (h : Fingerprints fingerprints) : loadPayload (payload m fingerprints) = some (m, fingerprints) := by
  have hall : (fingerprints.all fun kv => isFingerprint kv.2) = true := List.all_eq_true.mpr fun kv hkv => by
    obtain ⟨a, b, hv⟩ := h.numbers kv hkv
    rw [hv]
    rfl
  have hversion : pyEq (.int codemapSchemaVersion) (.int codemapSchemaVersion) = true := by decide
  show (if pyEq (.int codemapSchemaVersion) (.int codemapSchemaVersion) = true then
    if (fingerprints.all fun kv => isFingerprint kv.2) = true then
      (CodebaseMap.fromDict m.toDict).toOption.map fun m => (m, fingerprints)
    else none
    else none) = _
  rw [if_pos hversion, if_pos hall, CodebaseMap.fromDict_toDict hroot hnodes]
  rfl

/-- A map that was saved is loaded with its fingerprints. -/
theorem load_of_save (hroot : m.rootPath ≠ []) (hnodes : ∀ node ∈ m.modules, node.Named)
    (h : Fingerprints fingerprints) {fault : Option PyExc} {stored : Stored}
    (hsave : save fault m fingerprints = .ok stored) : load fl stored = some (m, fingerprints) := by
  unfold save at hsave
  cases fault with
  | some e => cases hsave
  | none =>
      by_cases hencodable : (payload m fingerprints).encodable = true
      · rw [show dumpText (payload m fingerprints) = some (dumps false (payload m fingerprints)) from
          if_pos hencodable] at hsave
        obtain rfl := Except.ok.inj hsave
        unfold load
        simp only [loadText_dumps (readable_payload m h), loadPayload_payload hroot hnodes h]
      · rw [show dumpText (payload m fingerprints) = none from if_neg hencodable] at hsave
        cases hsave

end RoundTrip

-- ============================================================================
-- Fingerprints
-- ============================================================================

section Stamps

variable {t t' : DiskTree}

theorem intText_injective {a b : Int} (h : intText a = intText b) : a = b := by
  have hread : ∀ n : Int, loads {} id (dumps false (.int n)) = .ok (.int n) := fun n =>
    loads_dumps (trivial : Readable false id (.int n))
  have htext : ∀ n : Int, dumps false (.int n) = intText n := fun _ => rfl
  have hsame : (.ok (.int a) : Except LoadsError Json) = .ok (.int b) := by
    rw [← hread a, ← hread b, htext, htext, h]
  exact Json.int.inj (Except.ok.inj hsame)

theorem pyEq_int_iff (a b : Int) : pyEq (.int a) (.int b) = true ↔ a = b := by
  have htext : pyEq (.int a) (.int b) = (some (intText b) == some (intText a)) := by
    unfold pyEq integral
    rfl
  rw [htext, beq_iff_eq]
  exact ⟨fun h => (intText_injective (Option.some.inj h)).symm, fun h => by rw [h]⟩

theorem pyEq_numbers_iff (a b c d : Int) :
    pyEq (.arr [.int a, .int b]) (.arr [.int c, .int d]) = true ↔ a = c ∧ b = d := by
  have hpairs : pyEq (.arr [.int a, .int b]) (.arr [.int c, .int d]) =
      (pyEq (.int a) (.int c) && (pyEq (.int b) (.int d) && true)) := by
    rw [pyEq, pyEqList, pyEqList, pyEqList]
  rw [hpairs, Bool.and_true, Bool.and_eq_true, pyEq_int_iff, pyEq_int_iff]

theorem pyEqFields_iff {e : Py.Dict} (he : Fingerprints e) {d : Py.Dict}
    (hd : ∀ kv ∈ d, ∃ a b : Int, kv.2 = .arr [.int a, .int b]) :
    pyEqFields d e = true ↔ ∀ kv ∈ d, kv ∈ e := by
  induction d with
  | nil => exact iff_of_true rfl fun kv hkv => absurd hkv List.not_mem_nil
  | cons kv d ih =>
      obtain ⟨k, v⟩ := kv
      obtain ⟨a, b, rfl⟩ : ∃ a b : Int, v = .arr [.int a, .int b] := hd (k, v) List.mem_cons_self
      have htail := ih fun kv hkv => hd kv (List.mem_cons_of_mem _ hkv)
      rw [pyEqFields, Bool.and_eq_true, htail, List.forall_mem_cons]
      refine and_congr_left fun _ => ?_
      cases hget : Dict.get? e k with
      | none =>
          refine iff_of_false Bool.false_ne_true fun hmem => ?_
          rw [Dict.get?_of_mem he.distinct hmem] at hget
          cases hget
      | some w =>
          obtain ⟨c, d', rfl⟩ : ∃ c d : Int, w = .arr [.int c, .int d] := he.numbers _ (Dict.mem_of_get? hget)
          dsimp only
          rw [pyEq_numbers_iff]
          constructor
          · rintro ⟨rfl, rfl⟩
            exact Dict.mem_of_get? hget
          · intro hmem
            rw [Dict.get?_of_mem he.distinct hmem] at hget
            simpa using hget

/-- Python's `==` of two fingerprints disregards their order only. -/
theorem pyEq_fingerprints_iff {d e : Py.Dict} (hd : Fingerprints d) (he : Fingerprints e) :
    pyEq (.obj d) (.obj e) = true ↔ d.Perm e := by
  rw [pyEq, Bool.and_eq_true, beq_iff_eq, pyEqFields_iff he hd.numbers]
  exact ⟨fun h => perm_of_sameItems hd.distinct h.1 h.2, fun h => ⟨h.length_eq, fun kv hkv => h.subset hkv⟩⟩

theorem ofPairs_eq {kvs : List (PyStr × Json)} (h : (kvs.map Prod.fst).Nodup) : Dict.ofPairs kvs = kvs := by
  have happend : ∀ (kvs d : Py.Dict), ((d ++ kvs).map Prod.fst).Nodup →
      kvs.foldl (fun d kv => Dict.set d kv.1 kv.2) d = d ++ kvs := by
    intro kvs
    induction kvs with
    | nil => exact fun d _ => (List.append_nil d).symm
    | cons kv kvs ih =>
        intro d hd
        have hnew : kv.1 ∉ d.map Prod.fst := fun hmem => by
          rw [List.map_append, List.map_cons] at hd
          exact (List.nodup_append.mp hd).2.2 _ hmem _ List.mem_cons_self rfl
        rw [List.foldl_cons, Dict.set_of_not_mem hnew, ih, List.append_assoc, List.singleton_append]
        rwa [List.append_assoc, List.singleton_append]
  exact happend kvs [] h

theorem SourceFile.names_ne_nil (f : SourceFile) : f.names ≠ [] :=
  List.append_ne_nil_of_right_ne_nil _ (List.cons_ne_nil _ _)

/-- The path of a file tells its names. -/
theorem splitChar_path {f : SourceFile} (h : ∀ name ∈ f.names, Os.Plain name) : splitChar 47 f.path = f.names :=
  splitChar_join f.names_ne_nil fun name hname => (h name hname).noSlash

theorem mem_files {f : StampedFile} (h : f ∈ t.scanned) : f ∈ t.files := List.mem_of_mem_filter h

/-- The items of the fingerprints, one for each file that can be looked at. -/
def DiskTree.items (t : DiskTree) : Py.Dict := t.scanned.filterMap StampedFile.fingerprint

theorem mem_items_iff {kv : PyStr × Json} :
    kv ∈ t.items ↔ ∃ f ∈ t.scanned, ∃ stamp, f.stamp = some stamp ∧
      kv = (f.file.path, .arr [.int stamp.mtimeNs, .int stamp.size]) := by
  unfold DiskTree.items StampedFile.fingerprint
  simp only [List.mem_filterMap, Option.map_eq_some_iff]
  exact ⟨fun ⟨f, hf, stamp, hstamp, heq⟩ => ⟨f, hf, stamp, hstamp, heq.symm⟩,
    fun ⟨f, hf, stamp, hstamp, heq⟩ => ⟨f, hf, stamp, hstamp, heq.symm⟩⟩

theorem distinct_scanned (t : DiskTree) : (t.scanned.map fun f => f.file.names).Nodup :=
  t.distinct.sublist (List.filter_sublist.map _)

theorem fingerprints_items (t : DiskTree) : Fingerprints t.items where
  distinct := by
    have hpaths : (t.scanned.map fun f => f.file.path).Nodup := by
      refine List.Nodup.of_map (splitChar 47) ?_
      rw [List.map_map]
      have hnames : t.scanned.map (splitChar 47 ∘ fun f => f.file.path) = t.scanned.map fun f => f.file.names :=
        List.map_congr_left fun f hf => splitChar_path (t.plain f (mem_files hf))
      rw [hnames]
      exact distinct_scanned t
    refine hpaths.sublist (Lib.Traverse.filterMap_map_sublist fun f kv hkv => ?_)
    obtain ⟨stamp, -, rfl⟩ := Option.map_eq_some_iff.mp hkv
    rfl
  numbers := fun kv hkv => by
    obtain ⟨f, -, stamp, -, rfl⟩ := mem_items_iff.mp hkv
    exact ⟨stamp.mtimeNs, stamp.size, rfl⟩

theorem fingerprints_eq (t : DiskTree) : t.fingerprints = t.items := ofPairs_eq (fingerprints_items t).distinct

/-- Fingerprints are equal exactly if they have the same items. -/
theorem fingerprints_agree_iff (t t' : DiskTree) :
    pyEq (.obj t.fingerprints) (.obj t'.fingerprints) = true ↔ t.items.Perm t'.items := by
  rw [fingerprints_eq, fingerprints_eq, pyEq_fingerprints_iff (fingerprints_items t) (fingerprints_items t')]

end Stamps

-- ============================================================================
-- What the map depends on
-- ============================================================================

/-- The map is made of the files that are scanned. -/
theorem buildCodebaseMap_congr {t t' : SourceTree} (hpath : t.rootPath = t'.rootPath) (hname : t.rootName = t'.rootName)
    (hscanned : t.scanned = t'.scanned) : buildCodebaseMap t = buildCodebaseMap t' := by
  have hfile : ∀ t : SourceTree, t.isFile [] initFilename =
      t.scanned.any fun f => f.dirs = [] && f.filename = initFilename := fun t => by
    -- the root itself is never excluded
    unfold SourceTree.isFile SourceTree.scanned
    rw [List.any_filter]
    refine congrArg t.files.any (funext fun f => ?_)
    by_cases hdirs : f.dirs = []
    · have hwalked : t.walked f.dirs = true := by
        rw [hdirs]
        rfl
      rw [hwalked, Bool.true_and]
    · rw [decide_eq_false hdirs, Bool.false_and, Bool.and_false]
  have hknown : t.knownModules = t'.knownModules := by
    unfold SourceTree.knownModules
    rw [hscanned]
  have hpackage : t.packageName = t'.packageName := by
    unfold SourceTree.packageName
    rw [hfile, hfile, hscanned, hname]
  have hedges : t.edges = t'.edges := by
    funext f statement
    cases statement with
    | importNames names => simp only [SourceTree.edges, hknown, hpackage]
    | importFrom module names level =>
        have hedge : t.edge f module level = t'.edge f module level := by
          funext name
          unfold SourceTree.edge SourceTree.importBase
          rw [hknown, hpackage]
        rw [SourceTree.edges, SourceTree.edges, hedge]
  have hnode : t.node = t'.node := by
    funext f
    unfold SourceTree.node SourceTree.imports
    rw [hedges]
  unfold buildCodebaseMap
  rw [hpath, hscanned, hnode]

theorem moduleName_ne_nil (dirs : List PyStr) (filename : PyStr) : moduleName dirs filename ≠ [] := by
  have hinit : initName ≠ [] := by decide
  unfold moduleName
  dsimp only
  split_ifs with hname hempty
  all_goals assumption

theorem buildCodebaseMap_named {t : SourceTree} (hplain : ∀ f ∈ t.files, ∀ name ∈ f.names, Os.Plain name) :
    ∀ node ∈ (buildCodebaseMap t).modules, node.Named := by
  intro node hnode
  unfold buildCodebaseMap at hnode
  obtain ⟨f, hf, rfl⟩ := List.mem_map.mp ((List.mem_insertionSort _).mp hnode)
  have hpath : f.path ≠ [] := fun hnil => by
    have hsplit := splitChar_path (hplain f (List.mem_of_mem_filter hf))
    rw [hnil] at hsplit
    -- the only name would be empty
    have hempty : ([] : PyStr) ∈ f.names := hsplit ▸ List.mem_singleton_self ([] : PyStr)
    exact (hplain f (List.mem_of_mem_filter hf) [] hempty).notEmpty rfl
  have hname : f.moduleName ≠ [] := moduleName_ne_nil f.dirs f.filename
  unfold SourceTree.node ModuleNode.Named
  split_ifs
  · exact ⟨hpath, hname⟩
  · exact ⟨hpath, hname⟩

section Source

variable (c : CodebaseMapCache) {t t' : DiskTree}

theorem mem_source_files {f : SourceFile} : f ∈ (c.source t).files ↔ ∃ g ∈ t.files, g.file = f := by
  unfold CodebaseMapCache.source
  rw [List.mem_insertionSort, List.mem_map]

theorem build_named (t : DiskTree) : ∀ node ∈ (c.build t).modules, node.Named := by
  refine buildCodebaseMap_named fun f hf => ?_
  obtain ⟨g, hg, rfl⟩ := (mem_source_files c).mp hf
  exact t.plain g hg

theorem scanned_perm (t : DiskTree) : (c.source t).scanned.Perm (t.scanned.map StampedFile.file) := by
  have hfilter : t.scanned.map StampedFile.file =
      (t.files.map StampedFile.file).filter fun f => f.dirs.all fun name => name ∉ defaultExclude := by
    rw [List.filter_map]
    rfl
  rw [hfilter]
  exact (List.perm_insertionSort ..).filter _

theorem scanned_sorted (t : DiskTree) : (c.source t).scanned.Pairwise fun f g => f.place ≤ g.place :=
  (List.pairwise_insertionSort ..).filter _

/-- The files that are scanned do not depend on the order in which they are listed. -/
theorem scanned_eq (h : (t.scanned.map StampedFile.file).Perm (t'.scanned.map StampedFile.file)) :
    (c.source t).scanned = (c.source t').scanned := by
  have hperm : (c.source t).scanned.Perm (c.source t').scanned :=
    (scanned_perm c t).trans (h.trans (scanned_perm c t').symm)
  refine hperm.eq_of_pairwise (fun f g hf hg hfg hgf => ?_) (scanned_sorted c t) (scanned_sorted c t')
  have hplace : (f.dirs, f.filename) = (g.dirs, g.filename) := toLex.injective (le_antisymm hfg hgf)
  have hnames : f.names = g.names := by
    unfold SourceFile.names
    rw [(Prod.mk.inj hplace).1, (Prod.mk.inj hplace).2]
  have hnodup : ((c.source t).scanned.map SourceFile.names).Nodup := by
    rw [((scanned_perm c t).map _).nodup_iff, List.map_map]
    exact distinct_scanned t
  exact List.inj_on_of_nodup_map hnodup hf (hperm.symm.subset hg) hnames

end Source

-- ============================================================================
-- The cache as a memo
-- ============================================================================

section Answers

variable (c : CodebaseMapCache) (fl : FloatRepr) {t t' : DiskTree}

/-- The cache file as a store of maps, under the fingerprints. -/
def CodebaseMapCache.memo : Cache DiskTree Py.Dict CodebaseMap Stored where
  stamp := DiskTree.fingerprints
  result := c.build
  agrees d e := pyEq (.obj d) (.obj e)
  load := load fl
  save m fingerprints := (save none m fingerprints).toOption
  equivalence :=
    { refl := fun t => (fingerprints_agree_iff t t).mpr (List.Perm.refl _)
      symm := fun {t t'} h => (fingerprints_agree_iff t' t).mpr ((fingerprints_agree_iff t t').mp h).symm
      trans := fun {t t' t''} h h' => (fingerprints_agree_iff t t'').mpr
        (((fingerprints_agree_iff t t').mp h).trans ((fingerprints_agree_iff t' t'').mp h')) }
  load_save := fun {t t' x} h => by
    cases hsave : save none (c.build t) t'.fingerprints with
    | error e =>
        rw [hsave] at h
        cases h
    | ok stored =>
        rw [hsave] at h
        obtain rfl : stored = x := Option.some.inj h
        rw [fingerprints_eq] at hsave ⊢
        exact load_of_save c.notEmpty (build_named c t) (fingerprints_items t') hsave

/-- A call of the cache is the whole call of the memo. -/
theorem getOrBuild_eq (t : DiskTree) (force : Bool) (fault : Option PyExc) (stored : Stored) :
    ((c.getOrBuild fl t force fault stored).1, (c.getOrBuild fl t force fault stored).2.toOption) =
      (c.memo fl).get t force fault.isNone stored := by
  have hsaved : ∀ {stored'}, save fault (c.build t) t.fingerprints = .ok stored' →
      (c.memo fl).rebuild t fault.isNone stored = (stored', some (c.build t)) := fun {stored'} h => by
    refine rebuild_saved ?_
    cases fault with
    | some e => cases h
    | none => exact congrArg Except.toOption h
  have hfailed : ∀ {e}, save fault (c.build t) t.fingerprints = .error e →
      (c.memo fl).rebuild t fault.isNone stored = (stored, none) := fun {e} h => by
    refine rebuild_failed ?_
    cases fault with
    | some e => rfl
    | none => exact congrArg Except.toOption h
  unfold CodebaseMapCache.getOrBuild
  by_cases hhit : ∃ m d, (if force then none else load fl stored) = some (m, d) ∧
      pyEq (.obj d) (.obj t.fingerprints) = true
  · obtain ⟨m, d, hload, hagrees⟩ := hhit
    simp only [hload, if_pos hagrees]
    exact (get_stored hload hagrees).symm
  · rw [get_rebuilt fun m d hload hagrees => hhit ⟨m, d, hload, hagrees⟩]
    rcases hload : (if force then none else load fl stored) with - | ⟨m, d⟩
    · rcases hsave : save fault (c.build t) t.fingerprints with e | stored'
      · simp only [hsave]
        exact (hfailed hsave).symm
      · simp only [hsave]
        exact (hsaved hsave).symm
    · have hagrees : ¬ pyEq (.obj d) (.obj t.fingerprints) = true := fun h => hhit ⟨m, d, hload, h⟩
      rcases hsave : save fault (c.build t) t.fingerprints with e | stored'
      · simp only [if_neg hagrees, hsave]
        exact (hfailed hsave).symm
      · simp only [if_neg hagrees, hsave]
        exact (hsaved hsave).symm

theorem getOrBuild_stored (t : DiskTree) (force : Bool) (fault : Option PyExc) (stored : Stored) :
    (c.getOrBuild fl t force fault stored).1 = ((c.memo fl).get t force fault.isNone stored).1 :=
  congrArg Prod.fst (getOrBuild_eq c fl t force fault stored)

theorem getOrBuild_answer (t : DiskTree) (force : Bool) (fault : Option PyExc) (stored : Stored) :
    (c.getOrBuild fl t force fault stored).2.toOption = ((c.memo fl).get t force fault.isNone stored).2 :=
  congrArg Prod.snd (getOrBuild_eq c fl t force fault stored)

theorem ok_of_toOption {r : Except PyExc CodebaseMap} {m : CodebaseMap} (h : r.toOption = some m) : r = .ok m := by
  cases r with
  | error e => cases h
  | ok m' => rw [show m' = m from Option.some.inj h]

/-- Contents of files by their names and stamps. -/
abbrev Versions := List PyStr → Stamp → SourceFile

/-- Every file can be looked at, and is the version that its stamp stands for. -/
def DiskTree.Follows (versions : Versions) (t : DiskTree) : Prop :=
  ∀ f ∈ t.files, ∃ stamp, f.stamp = some stamp ∧ f.file = versions f.file.names stamp

/-- Trees with the same fingerprints hold the same files. -/
theorem tellsApart (versions : Versions) : (c.memo fl).TellsApart (DiskTree.Follows versions) := by
  have hsub : ∀ {t t' : DiskTree}, t.Follows versions → t'.Follows versions → t.items.Perm t'.items →
      ∀ file ∈ t.scanned.map StampedFile.file, file ∈ t'.scanned.map StampedFile.file := by
    intro t t' ht ht' hperm file hfile
    obtain ⟨f, hf, rfl⟩ := List.mem_map.mp hfile
    obtain ⟨stamp, hstamp, hversion⟩ := ht f (mem_files hf)
    have hitem := hperm.subset (mem_items_iff.mpr ⟨f, hf, stamp, hstamp, rfl⟩)
    obtain ⟨f', hf', stamp', hstamp', heq⟩ := mem_items_iff.mp hitem
    obtain ⟨hpath, hnumbers⟩ := Prod.mk.inj heq
    have hnames : f.file.names = f'.file.names := by
      rw [← splitChar_path (t.plain f (mem_files hf)), hpath, splitChar_path (t'.plain f' (mem_files hf'))]
    have hsame : stamp = stamp' := by
      obtain ⟨hmtime, hrest⟩ := List.cons.inj (Json.arr.inj hnumbers)
      have hsize := Int.ofNat.inj (Json.int.inj (List.cons.inj hrest).1)
      have hmtime' := Json.int.inj hmtime
      cases stamp
      cases stamp'
      cases hmtime'
      cases hsize
      rfl
    obtain ⟨stamp'', hstamp'', hversion'⟩ := ht' f' (mem_files hf')
    obtain rfl : stamp' = stamp'' := Option.some.inj (hstamp'.symm.trans hstamp'')
    refine List.mem_map.mpr ⟨f', hf', ?_⟩
    rw [hversion, hversion', hnames, hsame]
  intro t t' ht ht' hagrees
  have hperm := (fingerprints_agree_iff t t').mp hagrees
  have hnodup : ∀ t : DiskTree, (t.scanned.map StampedFile.file).Nodup := fun t => by
    refine List.Nodup.of_map SourceFile.names ?_
    rw [List.map_map]
    exact distinct_scanned t
  have hfiles : (t.scanned.map StampedFile.file).Perm (t'.scanned.map StampedFile.file) :=
    (List.perm_ext_iff_of_nodup (hnodup t) (hnodup t')).mpr fun file =>
      ⟨hsub ht ht' hperm file, hsub ht' ht hperm.symm file⟩
  exact buildCodebaseMap_congr rfl rfl (scanned_eq c hfiles)

end Answers

-- ============================================================================
-- Runs
-- ============================================================================

/-- A tree with its cache file, and what the calls have answered on which tree. -/
structure World where
  tree : DiskTree
  stored : Stored
  answers : List (DiskTree × Except PyExc CodebaseMap) := []

/-- What happens to a cache that one caller uses.  Something else may write its file. -/
inductive CacheEvent where
  | edit (tree : DiskTree)
  | put (stored : Stored)
  | getOrBuild (forceRebuild : Bool) (fault : Option PyExc)

/-- One event. -/
def CodebaseMapCache.step (c : CodebaseMapCache) (fl : FloatRepr) (w : World) : CacheEvent → World
  | .edit tree => { w with tree := tree }
  | .put stored => { w with stored := stored }
  | .getOrBuild forceRebuild fault =>
      let r := c.getOrBuild fl w.tree forceRebuild fault w.stored
      { w with stored := r.1, answers := w.answers ++ [(w.tree, r.2)] }

/-- The trees hold the versions that their stamps stand for, and nothing else writes
    what passes for a cache. -/
def Sound (versions : Versions) (fl : FloatRepr) (_ : World) : CacheEvent → Prop
  | .edit tree => tree.Follows versions
  | .put stored => load fl stored = none
  | .getOrBuild _ _ => True

/-- An event that leaves the fingerprints and the file alone and forces no rebuild. -/
def Quiet (tree : DiskTree) : CacheEvent → Prop
  | .edit tree' => pyEq (.obj tree.fingerprints) (.obj tree'.fingerprints) = true
  | .put _ => False
  | .getOrBuild forceRebuild _ => forceRebuild = false

section Runs

variable (c : CodebaseMapCache) (fl : FloatRepr) {versions : Versions}

/-- The invariant: the file holds the map of a tree that follows the versions. -/
structure Valid (versions : Versions) (w : World) : Prop where
  tree : w.tree.Follows versions
  stored : (c.memo fl).Holds (DiskTree.Follows versions) w.stored
  answers : ∀ a ∈ w.answers, ∀ m, a.2 = .ok m → m = c.build a.1

variable {c fl}

theorem Valid.step {w : World} (h : Valid c fl versions w) {e : CacheEvent} (he : Sound versions fl w e) :
    Valid c fl versions (c.step fl w e) := by
  cases e with
  | edit tree => exact ⟨he, h.stored, h.answers⟩
  | put stored => exact ⟨h.tree, holds_of_load_none he, h.answers⟩
  | getOrBuild forceRebuild fault =>
      have hget := get_holds (tellsApart c fl versions) h.tree h.stored forceRebuild fault.isNone
      rw [← getOrBuild_stored, ← getOrBuild_answer] at hget
      refine ⟨h.tree, hget.1, fun a ha m hm => ?_⟩
      rcases List.mem_append.mp ha with ha | ha
      · exact h.answers a ha m hm
      · obtain rfl := List.mem_singleton.mp ha
        exact hget.2 m (congrArg Except.toOption hm)

theorem Valid.run {w : World} (h : Valid c fl versions w) {es : List CacheEvent}
    (hes : Meets (c.step fl) (Sound versions fl) w es) : Valid c fl versions (Lib.Steps.run (c.step fl) w es) :=
  hes.keeps (I := Valid c fl versions) (fun _ _ h he => h.step he) h

theorem valid_start {tree : DiskTree} {stored : Stored} (htree : tree.Follows versions)
    (hstored : load fl stored = none) : Valid c fl versions ⟨tree, stored, []⟩ :=
  ⟨htree, holds_of_load_none hstored, fun a ha => absurd ha List.not_mem_nil⟩

/-- What a call has returned the quiet calls after it return again, and read it only. -/
theorem quiet_run {w : World} (h : Valid c fl versions w) {tree : DiskTree} {m : CodebaseMap}
    {forceRebuild : Bool} {fault : Option PyExc} (hm : (c.getOrBuild fl tree forceRebuild fault w.stored).2 = .ok m)
    (answers : List (DiskTree × Except PyExc CodebaseMap)) {tree' : DiskTree}
    (htree' : pyEq (.obj tree.fingerprints) (.obj tree'.fingerprints) = true) {es : List CacheEvent}
    (hes : ∀ e ∈ es, Quiet tree e) :
    let stored := (c.getOrBuild fl tree forceRebuild fault w.stored).1
    (run (c.step fl) ⟨tree', stored, answers⟩ es).stored = stored ∧
      ∃ more, (run (c.step fl) ⟨tree', stored, answers⟩ es).answers = answers ++ more ∧ ∀ a ∈ more, a.2 = .ok m := by
  intro stored
  have hagain : ∀ {t : DiskTree} (fault' : Option PyExc),
      pyEq (.obj tree.fingerprints) (.obj t.fingerprints) = true →
        c.getOrBuild fl t false fault' stored = (stored, .ok m) := fun {t} fault' hagrees => by
    have hget := (getOrBuild_answer c fl tree forceRebuild fault w.stored).symm.trans (congrArg Except.toOption hm)
    have hread := get_again h.stored hget hagrees fault'.isNone
    rw [← getOrBuild_stored] at hread
    refine Prod.ext ?_ (ok_of_toOption ?_)
    · rw [getOrBuild_stored, hread]
    · rw [getOrBuild_answer, hread]
  induction es generalizing tree' answers with
  | nil => exact ⟨rfl, [], (List.append_nil _).symm, fun a ha => absurd ha List.not_mem_nil⟩
  | cons e es ih =>
      have hrest := fun e he => hes e (List.mem_cons_of_mem _ he)
      have he := hes e List.mem_cons_self
      rw [run_cons]
      cases e with
      | edit t => exact ih answers he hrest
      | put stored' => exact absurd he id
      | getOrBuild force fault' =>
          obtain rfl : force = false := he
          have hstep : c.step fl ⟨tree', stored, answers⟩ (.getOrBuild false fault') =
              ⟨tree', stored, answers ++ [(tree', .ok m)]⟩ := by
            unfold CodebaseMapCache.step
            simp only [hagain fault' htree']
          rw [hstep]
          obtain ⟨hstored, more, hmore, hall⟩ := ih (answers ++ [(tree', .ok m)]) htree' hrest
          refine ⟨hstored, (tree', .ok m) :: more, ?_, ?_⟩
          · rw [hmore, List.append_assoc, List.singleton_append]
          · exact List.forall_mem_cons.mpr ⟨rfl, hall⟩

end Runs

/-- In every run, whatever is edited, forced, lost or cannot be written, a call that
    returns has the map of the tree as it stands. -/
theorem answers_built (c : CodebaseMapCache) (fl : FloatRepr) (versions : Versions) (tree : DiskTree) (stored : Stored)
    (htree : tree.Follows versions) (hstored : load fl stored = none) (es : List CacheEvent)
    (hes : Meets (c.step fl) (Sound versions fl) ⟨tree, stored, []⟩ es) :
    ∀ a ∈ (run (c.step fl) ⟨tree, stored, []⟩ es).answers, ∀ m, a.2 = .ok m → m = c.build a.1 :=
  ((valid_start htree hstored).run hes).answers

/-- One file, and a cache for its root. -/
def oneFile : DiskTree where
  files := [⟨⟨[], py "a.py", true, [], []⟩, some ⟨1, 0⟩⟩]
  plain := by decide
  distinct := by decide

/-- The root of the tree. -/
def oneRoot : CodebaseMapCache := ⟨py "/r", py "r", by decide⟩

/-- The only version of the file. -/
def oneVersion : Versions := fun _ _ => ⟨[], py "a.py", true, [], []⟩

theorem oneFile_follows : oneFile.Follows oneVersion := by
  intro f hf
  obtain rfl := List.mem_singleton.mp hf
  exact ⟨⟨1, 0⟩, rfl, rfl⟩

/-- A full disk, then a call that saves, then one that finds the file damaged. -/
theorem answers_built_oneFile :
    let w := run (oneRoot.step id) ⟨oneFile, .missing, []⟩ [.getOrBuild false (some ⟨py "OSError", []⟩),
      .getOrBuild false none, .put .unreadable, .getOrBuild false none]
    ∀ a ∈ w.answers, ∀ m, a.2 = .ok m → m = oneRoot.build a.1 :=
  answers_built oneRoot id oneVersion oneFile .missing oneFile_follows rfl _ ⟨trivial, trivial, rfl, trivial, trivial⟩

/-- After any run, what a call returns is returned again by every call that finds the
    same fingerprints, in whatever order the files are listed, and the file is only read. -/
theorem calls_reuse (c : CodebaseMapCache) (fl : FloatRepr) (versions : Versions) (tree : DiskTree) (stored : Stored)
    (htree : tree.Follows versions) (hstored : load fl stored = none) (es : List CacheEvent)
    (hes : Meets (c.step fl) (Sound versions fl) ⟨tree, stored, []⟩ es) (forceRebuild : Bool) (fault : Option PyExc)
    (m : CodebaseMap) (quiet : List CacheEvent)
    (hm : (c.getOrBuild fl (run (c.step fl) ⟨tree, stored, []⟩ es).tree forceRebuild fault
      (run (c.step fl) ⟨tree, stored, []⟩ es).stored).2 = .ok m)
    (hquiet : ∀ e ∈ quiet, Quiet (run (c.step fl) ⟨tree, stored, []⟩ es).tree e) :
    let called := run (c.step fl) ⟨tree, stored, []⟩ (es ++ [.getOrBuild forceRebuild fault])
    (run (c.step fl) called quiet).stored = called.stored ∧
      ∃ more, (run (c.step fl) called quiet).answers = called.answers ++ more ∧ ∀ a ∈ more, a.2 = .ok m := by
  intro called
  have hvalid := (valid_start (c := c) htree hstored).run hes
  have hsame := (fingerprints_agree_iff (run (c.step fl) ⟨tree, stored, []⟩ es).tree _).mpr (List.Perm.refl _)
  have hcalled : called = c.step fl (run (c.step fl) ⟨tree, stored, []⟩ es) (.getOrBuild forceRebuild fault) :=
    run_append ..
  rw [hcalled]
  exact quiet_run hvalid hm _ hsame hquiet

/-- The file is looked at again, without a disk to write to. -/
theorem calls_reuse_oneFile :
    let called := run (oneRoot.step id) ⟨oneFile, .missing, []⟩ ([] ++ [.getOrBuild false none])
    (run (oneRoot.step id) called [.getOrBuild false (some ⟨py "OSError", []⟩)]).stored = called.stored ∧
      ∃ more, (run (oneRoot.step id) called [.getOrBuild false (some ⟨py "OSError", []⟩)]).answers
          = called.answers ++ more ∧
        ∀ a ∈ more, a.2 = .ok (oneRoot.build oneFile) := by
  refine calls_reuse oneRoot id oneVersion oneFile .missing oneFile_follows rfl [] trivial false none
    (oneRoot.build oneFile) [.getOrBuild false (some ⟨py "OSError", []⟩)] ?_ ?_
  · rfl
  · intro e he
    obtain rfl := List.mem_singleton.mp he
    exact rfl

/-- Callers among each other: whoever edits between the steps of a call, it answers with
    the map of a tree that stood while it ran, as long as no fingerprints come back
    after a change. -/
theorem concurrent_answers {C : Type} [DecidableEq C] (c : CodebaseMapCache) (fl : FloatRepr) (tree : DiskTree)
    (stored : Stored) (hstored : load fl stored = none) (es : List (Event C DiskTree Stored))
    (hes : Meets (c.memo fl).step (c.memo fl).Fresh (State.initial tree stored) es) :
    let s := run (c.memo fl).step (State.initial tree stored) es
    ∀ a ∈ s.answers, ∃ i t, a.began ≤ i ∧ i ≤ a.ended ∧ s.sources[i]? = some t ∧ a.result = c.build t :=
  fun _ ha => answers_current tree hstored hes ha

/-- Two callers; the second saves while the first has not looked yet. -/
theorem concurrent_answers_oneFile :
    let s := run (oneRoot.memo id).step (State.initial oneFile .missing)
      [.start true, .start false, .look false false, .build false, .save false true, .look true false]
    ∀ a ∈ s.answers, ∃ i t, a.began ≤ i ∧ i ≤ a.ended ∧ s.sources[i]? = some t ∧ a.result = oneRoot.build t :=
  concurrent_answers oneRoot id oneFile .missing rfl
    [.start true, .start false, .look false false, .build false, .save false true, .look true false]
    ⟨trivial, trivial, trivial, trivial, trivial, trivial, trivial⟩

end Codemap
end KineticSdk
