/-
  KineticSdk.Codemap.Tool

  The `codebase_map` tool (`codemap/tool.py`).

  `impact_of` searches twice: `transitive_importers_of` lists the importers within
  the depth, and a loop of its own, without a bound, numbers them.  Both take one
  level after the other, so every importer listed has its distance among the numbers
  (`impact_exact`).
-/

import KineticSdk.Codemap.Models
import KineticSdk.Lib.Traverse
import KineticSdk.Tool.Base
import Mathlib.Data.List.Dedup
import Mathlib.Data.List.Infix

namespace KineticSdk
namespace Codemap

open Py Lib.Bfs

-- ============================================================================
-- The tool
-- ============================================================================

/-- `_require_module`: an error, or the module that the query is about. -/
def CodebaseMap.requireModule (lower : PyStr → PyStr) (m : CodebaseMap) (module : Option PyStr) :
    Except Tool.ToolResult PyStr :=
  match module with
  | none | some [] => .error (.failed (py "module is required for this codebase_map query"))
  | some name =>
      let names := (m.modules.map ModuleNode.moduleName).dedup
      if name ∈ names then .ok name
      else
        let needle := lower name
        let suggestions := (names.insertionSort (· ≤ ·)).filter fun name =>
          decide (needle <:+: lower name) || decide (lower name <:+: needle)
        let hint :=
          if suggestions = [] then [] else py " Suggestions: " ++ join (py ", ") (suggestions.take 5) ++ py "."
        .error (.failed (py "module " ++ pyReprStr name ++ py " is not in the codebase map." ++ hint))

/-- The answer to `imports_of` and `importers_of`. -/
def listing (title : PyStr) (names : List PyStr) : Tool.ToolResult :=
  { output := .str (natText names.length ++ title
      ++ if names = [] then py " none" else py "\n" ++ join (py "\n") (names.map fun item => py "- " ++ item)) }

/-- The line of an importer. -/
def hopLine (depth : Nat) (item : PyStr) : PyStr :=
  List.replicate (2 * (depth - 1)) 32 ++ py "- hop " ++ natText depth ++ py ": " ++ item

/-- The first line of `impact_of`. -/
def impactTitle (module : PyStr) (count : Nat) : PyStr :=
  py "Impact of changing " ++ module ++ py ": " ++ natText count ++ py " downstream importers."

/-- The line of an importer, with the number that it has in the loop. -/
def numberedLine (depths : List (PyStr × Nat)) (item : PyStr) : Except PyExc PyStr :=
  match depthOf depths item with
  | some depth => .ok (hopLine depth item)
  | none => .error ⟨py "KeyError", pyReprStr item⟩

/-- The rest of `execute` for `impact_of`, with `none` when a loop needs more turns. -/
def CodebaseMap.impactOf (m : CodebaseMap) (turns : Nat) (module : PyStr) (maxDepth : Option Int) :
    Except PyExc (Option Tool.ToolResult) :=
  match m.transitiveImportersOf turns module maxDepth with
  | .error e => .error e
  | .ok none => .ok none
  | .ok (some importers) =>
      match hops m.importersOf turns ⟨[(module, 0)], [module]⟩ with
      | none => .ok none
      | some depths =>
          (importers.mapM (numberedLine depths)).map fun lines =>
            some { output := .str (join (py "\n") (impactTitle module importers.length :: lines)) }

/-- The first line of the overview, and the files that could not be read. -/
def CodebaseMap.overview (m : CodebaseMap) : Tool.ToolResult :=
  let edges := (m.modules.map fun node => node.imports.length).sum
  let lines := [py "Codebase map: " ++ natText m.modules.length ++ py " modules, " ++ natText edges
      ++ py " import edges."]
    ++ if m.skipped = [] then [] else [py "Skipped unparsable files: " ++ join (py ", ") m.skipped]
  { output := .str (join (py "\n") lines) }

/-- The queries. -/
def queries : List PyStr := [py "overview", py "imports_of", py "importers_of", py "impact_of"]

/-- `max_depth`, or the error it is. -/
def readMaxDepth : Json → Except Tool.ToolResult (Option Int)
  | .null => .ok none
  | .int n =>
      if n < 0 then .error (.failed (py "max_depth must be a non-negative integer or omitted")) else .ok (some n)
  | _ => .error (.failed (py "max_depth must be a non-negative integer or omitted"))

/-- `CodebaseMapTool.execute`, with the map that the cache returns. -/
def execute (lower : PyStr → PyStr) (turns : Nat) (cached : Except PyExc CodebaseMap) (query : PyStr)
    (module : Option PyStr) (maxDepth : Json) : Except PyExc (Option Tool.ToolResult) :=
  if query ∉ queries then .ok (some (.failed (py "unknown codebase_map query " ++ pyReprStr query)))
  else
    match readMaxDepth maxDepth with
    | .error r => .ok (some r)
    | .ok bound => do
        let m ← cached
        if query = py "overview" then pure (some m.overview)
        else
          match m.requireModule lower module with
          | .error r => pure (some r)
          | .ok name =>
              if query = py "imports_of" then
                pure (some (listing (py " modules imported by " ++ name ++ py ":") (m.importsOf name)))
              else if query = py "importers_of" then
                pure (some (listing (py " modules import " ++ name ++ py ":") (m.importersOf name)))
              else m.impactOf turns name bound

-- ============================================================================
-- The two searches agree
-- ============================================================================

/-- The importers up to a level, with their levels. -/
def hopsUpTo (m : CodebaseMap) (target : PyStr) (last : Nat) : List (Nat × PyStr) :=
  (List.range last).flatMap fun j => (level m.importersOf target (j + 1)).map (j + 1, ·)

section Impact

variable {m : CodebaseMap} {target x : PyStr} {k last : Nat} {maxDepth : Option Int}

theorem hopsUpTo_names : (hopsUpTo m target last).map Prod.snd = upTo m.importersOf target last := by
  unfold hopsUpTo upTo
  rw [List.map_flatMap]
  refine congrArg (fun f => (List.range last).flatMap f) (funext fun j => ?_)
  rw [List.map_map]
  exact List.map_id _

theorem mem_hopsUpTo : (k, x) ∈ hopsUpTo m target last ↔ 1 ≤ k ∧ k ≤ last ∧ Distance m target k x := by
  unfold hopsUpTo
  simp only [List.mem_flatMap, List.mem_range, List.mem_map, Prod.mk.injEq, mem_level_iff, atDistance_iff]
  constructor
  · rintro ⟨j, hj, x', hx', rfl, rfl⟩
    exact ⟨by omega, hj, hx'⟩
  · rintro ⟨hone, hle, hx⟩
    obtain ⟨j, rfl⟩ : ∃ j, k = j + 1 := ⟨k - 1, by omega⟩
    exact ⟨j, hle, x, hx, rfl, rfl⟩

theorem hopsUpTo_sorted : ((hopsUpTo m target last).map Prod.fst).Pairwise (· ≤ ·) := by
  rw [List.pairwise_map]
  unfold hopsUpTo
  rw [List.pairwise_flatMap]
  refine ⟨fun j _ => ?_, List.pairwise_lt_range.imp fun {i j} hlt a ha b hb => ?_⟩
  · rw [List.pairwise_map]
    exact List.pairwise_of_forall fun _ _ => Nat.le_refl _
  · obtain ⟨x, -, rfl⟩ := List.mem_map.mp ha
    obtain ⟨y, -, rfl⟩ := List.mem_map.mp hb
    show i + 1 ≤ j + 1
    omega

/-- What the report on a module shows: every other module that reaches it within the
    depth, once, with its distance, nearer ones first. -/
def ShowsDistances (m : CodebaseMap) (target : PyStr) (maxDepth : Option Int) (shown : List (Nat × PyStr)) : Prop :=
  (shown.map Prod.snd).Nodup ∧ (shown.map Prod.fst).Pairwise (· ≤ ·) ∧
    ∀ k x, (k, x) ∈ shown ↔ x ≠ target ∧ WithinDepth maxDepth k ∧ Distance m target k x

/-- `impact_of` numbers every importer with its distance; it never fails, whatever the
    imports, and however small the depth that is asked for. -/
theorem impactOf_shows (m : CodebaseMap) (target : PyStr) (hbound : ∀ b ∈ maxDepth, 0 ≤ b) :
    ∃ shown, ShowsDistances m target maxDepth shown ∧ ∀ turns, m.modules.length + 1 ≤ turns →
      m.impactOf turns target maxDepth = .ok (some { output := .str (join (py "\n")
        (impactTitle target shown.length :: shown.map fun line => hopLine line.1 line.2)) }) := by
  obtain ⟨last, hlast, hempty, hlisted⟩ := transitiveImportersOf_levels m target hbound
  have hnodes : ∀ x, ∀ y ∈ m.importersOf x, y ∈ m.modules.map ModuleNode.moduleName := fun x y hy => by
    obtain ⟨node, hnode, rfl, -⟩ := mem_importersOf.mp hy
    exact List.mem_map_of_mem hnode
  obtain ⟨depths, hloop, hdepths⟩ := hops_levels hnodes target
  refine ⟨hopsUpTo m target last, ⟨?_, hopsUpTo_sorted, fun k x => ?_⟩, fun turns hturns => ?_⟩
  · rw [hopsUpTo_names]
    exact nodup_upTo ..
  · rw [mem_hopsUpTo]
    constructor
    · rintro ⟨hone, hle, hdist⟩
      refine ⟨?_, hlast.mono hle, hdist⟩
      rintro rfl
      exact hdist.2 0 hone (.refl x)
    · rintro ⟨hne, hwithin, hdist⟩
      have hx := mem_level_iff.mpr (atDistance_iff.mpr hdist)
      refine ⟨?_, ?_, hdist⟩
      · rcases Nat.eq_zero_or_pos k with rfl | hpos
        · exact absurd (atDistance_iff.mpr hdist).1 hne
        · exact hpos
      · by_contra hbehind
        rw [hempty k (by omega) hwithin] at hx
        cases hx
  · have hlines : (upTo m.importersOf target last).mapM (numberedLine depths) =
        .ok ((upTo m.importersOf target last).map fun item => hopLine ((depthOf depths item).getD 0) item) := by
      refine Lib.Traverse.mapM_eq_map fun item hitem => ?_
      obtain ⟨j, -, -, hj⟩ := mem_upTo.mp hitem
      unfold numberedLine
      rw [(hdepths item j).mpr (mem_level_iff.mp hj)]
      rfl
    have hshown : ((upTo m.importersOf target last).map fun item => hopLine ((depthOf depths item).getD 0) item) =
        (hopsUpTo m target last).map fun line => hopLine line.1 line.2 := by
      rw [← hopsUpTo_names, List.map_map]
      refine List.map_congr_left fun line hline => ?_
      have hdist := (mem_hopsUpTo.mp hline).2.2
      show hopLine ((depthOf depths line.2).getD 0) line.2 = _
      rw [(hdepths line.2 line.1).mpr (atDistance_iff.mpr hdist)]
      rfl
    have hlength : (upTo m.importersOf target last).length = (hopsUpTo m target last).length := by
      rw [← hopsUpTo_names, List.length_map]
    have hnames : (m.modules.map ModuleNode.moduleName).length + 1 ≤ turns := by
      rw [List.length_map]
      exact hturns
    unfold CodebaseMap.impactOf
    simp only [hlisted turns hturns, hloop turns hnames, hlines, hshown, hlength]
    rfl

theorem requireModule_ok (lower : PyStr → PyStr) {name : PyStr} (hname : name ≠ [])
    (hmem : name ∈ m.modules.map ModuleNode.moduleName) : m.requireModule lower (some name) = .ok name := by
  unfold CodebaseMap.requireModule
  cases name with
  | nil => exact absurd rfl hname
  | cons c rest => exact if_pos (List.mem_dedup.mpr hmem)

/-- The depth that is asked for, as an argument. -/
def depthArgument (maxDepth : Option Nat) : Json := (maxDepth.map fun n => Json.int n).getD .null

/-- The report on a module of the map names every other module that reaches it within
    the depth, once, under its distance and by distance.  It never fails. -/
theorem impact_exact (lower : PyStr → PyStr) (m : CodebaseMap) {name : PyStr} (hname : name ≠ [])
    (hmem : name ∈ m.modules.map ModuleNode.moduleName) (maxDepth : Option Nat) :
    ∃ shown, ShowsDistances m name (maxDepth.map Int.ofNat) shown ∧ ∀ turns, m.modules.length + 1 ≤ turns →
      execute lower turns (.ok m) (py "impact_of") (some name) (depthArgument maxDepth) =
        .ok (some { output := .str (join (py "\n")
          (impactTitle name shown.length :: shown.map fun line => hopLine line.1 line.2)) }) := by
  have hbound : ∀ b ∈ maxDepth.map Int.ofNat, 0 ≤ b := fun b hb => by
    obtain ⟨n, -, rfl⟩ := Option.map_eq_some_iff.mp hb
    exact Int.natCast_nonneg n
  obtain ⟨shown, hshown, hreport⟩ := impactOf_shows m name hbound
  refine ⟨shown, hshown, fun turns hturns => ?_⟩
  have hdepth : readMaxDepth (depthArgument maxDepth) = .ok (maxDepth.map Int.ofNat) := by
    cases maxDepth with
    | none => rfl
    | some n =>
        show readMaxDepth (.int n) = _
        rw [readMaxDepth, if_neg (Int.not_lt.mpr (Int.natCast_nonneg n))]
        rfl
  have hquery : ¬ py "impact_of" ∉ queries := by decide
  have hother : py "impact_of" ≠ py "overview" ∧ py "impact_of" ≠ py "imports_of" ∧
      py "impact_of" ≠ py "importers_of" := by decide
  unfold execute
  rw [if_neg hquery, hdepth]
  dsimp only [bind, Except.bind]
  rw [if_neg hother.1, requireModule_ok lower hname hmem]
  dsimp only
  rw [if_neg hother.2.1, if_neg hother.2.2]
  exact hreport turns hturns

/-- The diamond within one hop: the loop numbers modules that are not listed. -/
theorem impact_exact_diamond : ∃ shown, ShowsDistances diamond (py "m") (some 1) shown ∧
    ∀ turns, diamond.modules.length + 1 ≤ turns →
      execute id turns (.ok diamond) (py "impact_of") (some (py "m")) (.int 1) =
        .ok (some { output := .str (join (py "\n")
          (impactTitle (py "m") shown.length :: shown.map fun line => hopLine line.1 line.2)) }) :=
  impact_exact id diamond (by decide) (by decide) (some 1)

end Impact

end Codemap
end KineticSdk
