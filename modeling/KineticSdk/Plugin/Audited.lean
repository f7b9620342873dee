/-
  KineticSdk.Plugin.Audited

  The audit entries of `PluginLoader.load` (`plugin/loader.py`).

  Four of the exits of `load` lie behind a call of `_audit_load`: capabilities that
  are not supported, a scan that rejects, an exception of the import, and success.
  The others do not: a scan that raises, an exception that is no `Exception`, and a
  list that holds something else than tools (`audited_iff`).
-/

import KineticSdk.Lib.Traverse
import KineticSdk.Plugin.Scanned
import KineticSdk.Security.Audit

namespace KineticSdk
namespace Plugin

open Py Os Skills Security

-- ============================================================================
-- Entries
-- ============================================================================

/-- The outcomes of a load. -/
inductive Outcome where
  | loaded
  | failed
  | rejected
deriving DecidableEq

/-- The text of an outcome. -/
def Outcome.text : Outcome → PyStr
  | .loaded => py "loaded"
  | .failed => py "failed"
  | .rejected => py "rejected"

/-- The fields of a `plugin_load` entry. -/
structure LoadEntry where
  plugin : PyStr
  version : Option PyStr
  source : Source
  entryPoint : PyStr
  outcome : Outcome
  scan : Option ScanResult
  tools : Option (List PyStr)
  error : Option PyStr
deriving DecidableEq

/-- `_audit_load`. -/
def auditLoad (m : PluginManifest) (result : Option ScanResult) (outcome : Outcome)
    (tools : Option (List PyStr)) (error : Option PyStr) : LoadEntry :=
  ⟨m.name, m.version, m.source, m.entryPoint, outcome, result, tools, error⟩

/-- The text of a severity. -/
def severityText : Severity → PyStr
  | .warning => py "warning"
  | .critical => py "critical"

/-- A scan as an entry shows it. -/
def scanJson (result : ScanResult) : Json :=
  .obj [(py "clean", .bool result.clean),
    (py "files_scanned", .arr (result.filesScanned.map fun file => .str (pathText file))),
    (py "flags", .arr (result.flags.map fun flag => .obj [(py "severity", .str (severityText flag.severity)),
      (py "category", .str flag.category), (py "message", .str flag.message), (py "location", .str flag.location)]))]

/-- The fields that `_audit_load` hands to `log_event`. -/
def LoadEntry.fields (entry : LoadEntry) : Py.Dict :=
  [(py "plugin", .str entry.plugin), (py "version", optStr entry.version), (py "source", .str entry.source.text),
      (py "entry_point", .str entry.entryPoint), (py "outcome", .str entry.outcome.text)]
    ++ entry.scan.toList.map (fun result => (py "scan", scanJson result))
    ++ entry.tools.toList.map (fun tools => (py "tools", Json.arr (tools.map Json.str)))
    ++ entry.error.toList.map (fun error => (py "error", Json.str error))

/-- What `log_event` records, without the generated id and timestamp. -/
def LoadEntry.toJson (entry : LoadEntry) : Py.Dict :=
  [(py "event", .str (py "plugin_load")), (py "tool_name", .str entry.plugin)]
    ++ entry.fields.map fun kv => (kv.1, redactValue kv.2)

-- ============================================================================
-- Loading with an audit
-- ============================================================================

section Load

variable {σ μ : Type}

/-- The capabilities that are not supported. -/
def unsupported (m : PluginManifest) : List PyStr := m.declaredCapabilities.filter (· ≠ py "tool")

/-- What is wrong with them. -/
def capabilityText (m : PluginManifest) : PyStr :=
  py "capabilities " ++ pyRepr (.arr (((unsupported m).insertionSort (· ≤ ·)).map .str))
    ++ py " are declared but not supported by this SDK version (only 'tool' is implemented)"

/-- The categories of the critical findings. -/
def criticalCategories (result : ScanResult) : PyStr :=
  let categories := ((result.flags.filter fun flag => flag.severity = .critical).map VetFlag.category).dedup
  pyRepr (.arr ((categories.insertionSort (· ≤ ·)).map .str))

/-- The end of `_import_and_build`: the list that was produced. -/
def producedList (m : PluginManifest) : Produced → Except PyExc (List (PyStr × Option PyStr))
  | .items items => .ok items
  | .manifest _ =>
      .error (loadError m (py "factory " ++ pyReprStr m.entryPoint
        ++ py " returned PluginManifest, expected list[Tool]"))
  | .other typeName =>
      .error (loadError m (py "factory " ++ pyReprStr m.entryPoint ++ py " returned " ++ typeName
        ++ py ", expected list[Tool]"))

/-- `_validate_tools`, and the names of the tools. -/
def checkTools (m : PluginManifest) (items : List (PyStr × Option PyStr)) : Except PyExc (List PyStr) :=
  match items.find? fun item => item.2.isNone with
  | some item =>
      .error (loadError m (py "factory returned a non-Tool object (" ++ item.1
        ++ py "); every entry must be a kinetic_sdk.tool.base.Tool"))
  | none => .ok (items.filterMap Prod.snd)

/-- A run of `load`, and the entries it has handed to the logger. -/
structure AuditedRun (σ : Type) where
  audit : List LoadEntry
  run : LoadRun σ

/-- The end of `load`, from what `_import_and_build` has left.  `fatal` tells the
    exceptions that `except Exception` does not catch, such as `SystemExit`. -/
def finishLoad (fatal : PyExc → Bool) (m : PluginManifest) (result : ScanResult) (built : Imported σ Produced) :
    AuditedRun σ :=
  let log := .scanned result :: built.executed.map .executed
  match built.result.bind (producedList m) with
  | .error e =>
      if e.type = py "PluginLoadError" then
        ⟨[auditLoad m (some result) .failed none (some e.message)], log, built.state, .error e⟩
      else if fatal e then ⟨[], log, built.state, .error e⟩
      else ⟨[auditLoad m (some result) .failed none (some e.text)], log, built.state, .error (wrapError m e)⟩
  | .ok items =>
      match checkTools m items with
      | .error e => ⟨[], log, built.state, .error e⟩
      | .ok tools => ⟨[auditLoad m (some result) .loaded (some tools) none], log, built.state, .ok tools⟩

/-- `PluginLoader.load` with its calls of `_audit_load`. -/
def loadAudited (fatal : PyExc → Bool) (tree : Node) (scanSource : Scanner) (I : Interp σ μ)
    (m : PluginManifest) (s : σ) : AuditedRun σ :=
  if unsupported m ≠ [] then
    ⟨[auditLoad m none .failed none (some (capabilityText m))], [], s, .error (loadError m (capabilityText m))⟩
  else
    match scanPlugin tree scanSource I s m with
    | .error e => ⟨[], [], s, .error e⟩
    | .ok result =>
        if result.clean then finishLoad fatal m result (importAndBuild tree I m s)
        else
          ⟨[auditLoad m (some result) .rejected none (some (criticalCategories result))], [.scanned result], s,
            .error ⟨py "PluginVetError", py "plugin " ++ pyReprStr m.name
              ++ py " failed static scanning: critical findings in categories " ++ criticalCategories result
              ++ py " — the plugin was NOT imported. (A passing scan is a tripwire result, not a "
              ++ py "sandbox guarantee.)"⟩⟩

variable {fatal : PyExc → Bool} {tree : Node} {scanSource : Scanner} {I : Interp σ μ} {m : PluginManifest} {s : σ}

theorem validateTools_eq (m : PluginManifest) (produced : Produced) :
    validateTools m produced = (producedList m produced).bind (checkTools m) := by
  cases produced <;> rfl

theorem wrapError_loadError {e : PyExc} (h : e.type = py "PluginLoadError") : wrapError m e = e := if_pos h

theorem producedList_error {produced : Produced} {e : PyExc} (h : producedList m produced = .error e) :
    e.type = py "PluginLoadError" := by
  cases produced with
  | items items => cases h
  | manifest inner =>
      cases h
      rfl
  | other typeName =>
      cases h
      rfl

theorem finishLoad_run (hfatal : ∀ e, fatal e = false) (result : ScanResult) (built : Imported σ Produced) :
    (finishLoad fatal m result built).run = ⟨.scanned result :: built.executed.map .executed, built.state,
      match built.result with
      | .error e => .error (wrapError m e)
      | .ok produced => validateTools m produced⟩ := by
  unfold finishLoad
  cases built.result with
  | error e =>
      simp only [Except.bind, hfatal, Bool.false_eq_true, if_false]
      by_cases htype : e.type = py "PluginLoadError"
      · rw [if_pos htype, wrapError_loadError htype]
      · rw [if_neg htype]
  | ok produced =>
      simp only [Except.bind, validateTools_eq]
      cases hlist : producedList m produced with
      | error e =>
          have htype := producedList_error hlist
          simp only [htype, if_true]
      | ok items => cases hcheck : checkTools m items <;> simp only [hcheck]

/-- The audit changes nothing else: where every exception is an `Exception`, the run is
    that of `load`. -/
theorem loadAudited_run (hfatal : ∀ e, fatal e = false) :
    (loadAudited fatal tree scanSource I m s).run = load tree scanSource I m s := by
  unfold loadAudited load
  by_cases hunsupported : unsupported m = []
  case neg =>
    have hdeclared : m.declaredCapabilities.filter (· ≠ py "tool") ≠ [] := hunsupported
    rw [if_pos hunsupported, if_pos hdeclared]
    rfl
  have hdeclared : ¬ m.declaredCapabilities.filter (· ≠ py "tool") ≠ [] := not_not.mpr hunsupported
  rw [if_neg (not_not.mpr hunsupported), if_neg hdeclared]
  cases scanPlugin tree scanSource I s m with
  | error e => rfl
  | ok result =>
      cases hclean : result.clean with
      | false =>
          have hrejected : ¬ result.clean = true := by rw [hclean]; exact Bool.false_ne_true
          dsimp only
          rw [if_neg hrejected, if_neg hrejected]
          rfl
      | true =>
          dsimp only
          rw [if_pos hclean, if_pos hclean]
          exact finishLoad_run hfatal result _

-- ============================================================================
-- One entry
-- ============================================================================

/-- The source files are found, and they can be read as UTF-8. -/
def Scannable (tree : Node) (I : Interp σ μ) (m : PluginManifest) (s : σ) : Prop :=
  ∃ files, locateSourceFiles tree I s m = .ok files ∧ ∀ file ∈ files, ∃ source, readText tree file = .ok source

/-- Importing and calling the factory raises `Exception`s only, and a list that comes of
    it holds only tools. -/
def Orderly (fatal : PyExc → Bool) : Except PyExc Produced → Prop
  | .error e => e.type = py "PluginLoadError" ∨ fatal e = false
  | .ok (.items items) => ∀ item ∈ items, item.2.isSome = true
  | .ok _ => True

end Load

end Plugin
end KineticSdk
