/-
  KineticSdk.Codemap.Models

  The import map of a codebase (`codemap/models.py`) and its reverse
  dependencies.

  `transitive_importers_of` is a breadth-first search over `importers_of`, which
  is computed anew for every module.  It finds each importer once, by its
  distance; inside a distance the order is that of discovery, which is the order
  of names only where the importers' own imports come in that order
  (`importers_exact_iff`).
-/

import KineticSdk.Lib.Bfs
import KineticSdk.Py.Repr
import Mathlib.Data.List.Lex
import Mathlib.Data.List.Sort

namespace KineticSdk
namespace Codemap

open Py Lib.Bfs

-- ============================================================================
-- The map
-- ============================================================================

/-- `ModuleNode`. -/
structure ModuleNode where
  path : PyStr
  moduleName : PyStr
  imports : List PyStr
  defines : List PyStr
deriving DecidableEq

/-- `CodebaseMap`. -/
structure CodebaseMap where
  rootPath : PyStr
  modules : List ModuleNode
  skipped : List PyStr := []
deriving DecidableEq

/-- `importers_of`. -/
def CodebaseMap.importersOf (m : CodebaseMap) (moduleName : PyStr) : List PyStr :=
  ((m.modules.filter fun node => moduleName ∈ node.imports).map ModuleNode.moduleName).insertionSort (· ≤ ·)

/-- `imports_of`: the last node of a name counts. -/
def CodebaseMap.importsOf (m : CodebaseMap) (moduleName : PyStr) : List PyStr :=
  ((m.modules.reverse.find? fun node => node.moduleName = moduleName).map ModuleNode.imports).getD []

/-- `transitive_importers_of`, with `none` when the loop needs more turns. -/
def CodebaseMap.transitiveImportersOf (m : CodebaseMap) (turns : Nat) (moduleName : PyStr)
    (maxDepth : Option Int) : Except PyExc (Option (List PyStr)) :=
  if maxDepth.any (· < 0) then .error ⟨py "ValueError", py "max_depth must be non-negative or None"⟩
  else
    .ok (search m.importersOf (maxDepth.map Int.toNat) turns ⟨[moduleName], [(moduleName, 0)], []⟩)

-- ============================================================================
-- Import paths
-- ============================================================================

/-- A module of the map imports a name. -/
def CodebaseMap.Imports (m : CodebaseMap) (x y : PyStr) : Prop :=
  ∃ node ∈ m.modules, node.moduleName = x ∧ y ∈ node.imports

/-- So many import edges lead from one name to another. -/
inductive ReachesIn (m : CodebaseMap) : Nat → PyStr → PyStr → Prop where
  | refl (x : PyStr) : ReachesIn m 0 x x
  | step {k : Nat} {x y z : PyStr} (h : m.Imports x y) (hrest : ReachesIn m k y z) : ReachesIn m (k + 1) x z

/-- `x` is so many import edges away from `target`, and no fewer. -/
def Distance (m : CodebaseMap) (target : PyStr) (k : Nat) (x : PyStr) : Prop :=
  ReachesIn m k x target ∧ ∀ j < k, ¬ ReachesIn m j x target

/-- A number of steps is within the depth that is asked for. -/
def WithinDepth (maxDepth : Option Int) (k : Nat) : Prop := ∀ bound ∈ maxDepth, (k : Int) ≤ bound

/-- The listing is exact: it ends, and holds without repetition the other modules
    that reach the target within the depth, by distance and then by name. -/
def ListsImporters (m : CodebaseMap) (target : PyStr) (maxDepth : Option Int) : Prop :=
  ∃ listed : List PyStr,
    (∀ turns, m.modules.length + 1 ≤ turns →
      m.transitiveImportersOf turns target maxDepth = .ok (some listed)) ∧
    listed.Nodup ∧
    (∀ x, x ∈ listed ↔ x ≠ target ∧ ∃ k, WithinDepth maxDepth k ∧ ReachesIn m k x target) ∧
    listed.Pairwise fun x y => ∀ j k, Distance m target j x → Distance m target k y → j < k ∨ (j = k ∧ x < y)

/-- Of two modules at one distance, the first by name has an import one step nearer
    that no such import of the second comes before. -/
def ImportsInOrder (m : CodebaseMap) (target : PyStr) (maxDepth : Option Int) : Prop :=
  ∀ k, WithinDepth maxDepth (k + 1) → ∀ x y, Distance m target (k + 1) x → Distance m target (k + 1) y →
    x < y → ∀ q, Distance m target k q → m.Imports y q → ∃ p, Distance m target k p ∧ m.Imports x p ∧ p ≤ q

section Exact

variable {m : CodebaseMap} {target x y : PyStr} {k : Nat} {maxDepth : Option Int}

theorem mem_importersOf : x ∈ m.importersOf y ↔ m.Imports x y := by
  unfold CodebaseMap.importersOf CodebaseMap.Imports
  rw [List.mem_insertionSort, List.mem_map]
  constructor
  · rintro ⟨node, hnode, rfl⟩
    obtain ⟨hmem, himports⟩ := List.mem_filter.mp hnode
    exact ⟨node, hmem, rfl, of_decide_eq_true himports⟩
  · rintro ⟨node, hmem, rfl, himports⟩
    exact ⟨node, List.mem_filter.mpr ⟨hmem, decide_eq_true himports⟩, rfl⟩

theorem importersOf_sorted (m : CodebaseMap) (name : PyStr) : (m.importersOf name).Pairwise (· ≤ ·) :=
  List.pairwise_insertionSort ..

/-- The search follows the import edges backwards. -/
theorem reach_iff : Reach m.importersOf target k x ↔ ReachesIn m k x target := by
  induction k generalizing x with
  | zero =>
      constructor
      · rintro rfl
        exact .refl x
      · intro h
        cases h
        rfl
  | succ k ih =>
      constructor
      · rintro ⟨y, hy, hx⟩
        exact .step (mem_importersOf.mp hx) (ih.mp hy)
      · intro h
        cases h with
        | step himports hrest => exact ⟨_, ih.mpr hrest, mem_importersOf.mpr himports⟩

theorem atDistance_iff : AtDistance m.importersOf target k x ↔ Distance m target k x := by
  unfold AtDistance Distance
  simp only [reach_iff]

theorem withinDepth_iff (hbound : ∀ b ∈ maxDepth, 0 ≤ b) :
    WithinDepth maxDepth k ↔ ∀ b ∈ maxDepth.map Int.toNat, k ≤ b := by
  unfold WithinDepth
  cases maxDepth with
  | none =>
      exact iff_of_true (fun _ h => absurd h (Option.not_mem_none _))
        fun _ h => absurd h (Option.not_mem_none _)
  | some b =>
      have hb := hbound b rfl
      constructor
      · rintro h _ ⟨⟩
        have hle := h b rfl
        omega
      · rintro h _ ⟨⟩
        have hle : k ≤ b.toNat := h _ rfl
        omega

variable (m target) in
/-- The listing holds the levels of the search. -/
theorem transitiveImportersOf_levels (hbound : ∀ b ∈ maxDepth, 0 ≤ b) :
    ∃ last, WithinDepth maxDepth last ∧
      (∀ k, last < k → WithinDepth maxDepth k → level m.importersOf target k = []) ∧
      ∀ turns, m.modules.length + 1 ≤ turns →
        m.transitiveImportersOf turns target maxDepth = .ok (some (upTo m.importersOf target last)) := by
  have hnodes : ∀ x, ∀ y ∈ m.importersOf x, y ∈ m.modules.map ModuleNode.moduleName := fun x y hy => by
    obtain ⟨node, hnode, rfl, -⟩ := mem_importersOf.mp hy
    exact List.mem_map_of_mem hnode
  obtain ⟨last, hlast, hempty, hsearch⟩ := search_levels hnodes target (maxDepth.map Int.toNat)
  refine ⟨last, (withinDepth_iff hbound).mpr hlast, fun k hk hwithin => ?_, fun turns hturns => ?_⟩
  · exact hempty k hk ((withinDepth_iff hbound).mp hwithin)
  · have hsign : ¬ maxDepth.any (· < 0) = true := by
      cases maxDepth with
      | none => exact Bool.false_ne_true
      | some b => simpa using hbound b rfl
    unfold CodebaseMap.transitiveImportersOf
    rw [if_neg hsign, hsearch turns (by rw [List.length_map]; exact hturns)]

theorem WithinDepth.mono {j : Nat} (h : WithinDepth maxDepth k) (hle : j ≤ k) : WithinDepth maxDepth j :=
  fun b hb => by
    have hk := h b hb
    omega

theorem level_distance (h : x ∈ level m.importersOf target k) : Distance m target k x :=
  atDistance_iff.mp (mem_level_iff.mp h)

/-- Whatever is in the levels up to the last is an importer within the depth. -/
theorem mem_levels_iff {last : Nat} (hlast : WithinDepth maxDepth last)
    (hempty : ∀ k, last < k → WithinDepth maxDepth k → level m.importersOf target k = []) :
    x ∈ upTo m.importersOf target last ↔
      x ≠ target ∧ ∃ k, WithinDepth maxDepth k ∧ ReachesIn m k x target := by
  rw [mem_upTo]
  constructor
  · rintro ⟨j, hone, hle, hx⟩
    have hdist := level_distance hx
    refine ⟨?_, j, hlast.mono hle, hdist.1⟩
    rintro rfl
    exact hdist.2 0 hone (.refl x)
  · rintro ⟨hne, k, hwithin, hreach⟩
    obtain ⟨j, hle, hdist⟩ := AtDistance.of_reach (reach_iff.mpr hreach)
    have hx := mem_level_iff.mpr hdist
    have hpos : 1 ≤ j := by
      rcases Nat.eq_zero_or_pos j with rfl | hpos
      · exact absurd hdist.1 hne
      · exact hpos
    refine ⟨j, hpos, ?_, hx⟩
    by_contra hbehind
    rw [hempty j (by omega) (hwithin.mono hle)] at hx
    cases hx

/-- The order by distance holds between levels, so the names decide inside them. -/
theorem upTo_ordered_iff (m : CodebaseMap) (target : PyStr) (last : Nat) :
    ((upTo m.importersOf target last).Pairwise fun x y =>
        ∀ j k, Distance m target j x → Distance m target k y → j < k ∨ (j = k ∧ x < y)) ↔
      ∀ k ≤ last, (level m.importersOf target k).Pairwise (· < ·) := by
  have hsame : ∀ {j k : Nat} {x : PyStr}, x ∈ level m.importersOf target k → Distance m target j x → j = k :=
    fun hx hdist => (atDistance_iff.mpr hdist).unique (mem_level_iff.mp hx)
  unfold upTo
  rw [List.pairwise_flatMap]
  constructor
  · rintro ⟨hinside, -⟩ k hk
    cases k with
    | zero => exact List.pairwise_singleton ..
    | succ k =>
        refine (hinside k (List.mem_range.mpr hk)).imp_of_mem fun {x y} hx hy hordered => ?_
        rcases hordered _ _ (level_distance hx) (level_distance hy) with hlt | ⟨-, hlt⟩
        · exact absurd hlt (Nat.lt_irrefl _)
        · exact hlt
  · intro hsorted
    refine ⟨fun k hk => ?_, ?_⟩
    · refine (hsorted (k + 1) (List.mem_range.mp hk)).imp_of_mem fun {x y} hx hy hlt i j hi hj => ?_
      exact .inr ⟨(hsame hx hi).trans (hsame hy hj).symm, hlt⟩
    · refine List.pairwise_lt_range.imp fun {j k} hlt x hx y hy i l hi hl => ?_
      rw [hsame hx hi, hsame hy hl]
      exact .inl (Nat.succ_lt_succ hlt)

/-- The listing is exact exactly when the depth is not negative and the imports of
    modules at one distance come in the order of their names.  What is listed, how
    often, and the order by distance never go wrong. -/
theorem importers_exact_iff (m : CodebaseMap) (target : PyStr) (maxDepth : Option Int) :
    ListsImporters m target maxDepth ↔
      (∀ b ∈ maxDepth, 0 ≤ b) ∧ ImportsInOrder m target maxDepth := by
  by_cases hbound : ∀ b ∈ maxDepth, 0 ≤ b
  · obtain ⟨last, hlast, hempty, hlisted⟩ := transitiveImportersOf_levels m target hbound
    have hsorted := levels_sorted_iff target (importersOf_sorted m) last
    -- behind the last level there is nothing to be ordered
    have hinOrder : ImportsInOrder m target maxDepth ↔ ∀ k < last, ∀ x y,
        AtDistance m.importersOf target (k + 1) x → AtDistance m.importersOf target (k + 1) y → x < y →
          ParentsBefore m.importersOf target k x y := by
      unfold ImportsInOrder ParentsBefore
      simp only [atDistance_iff, mem_importersOf]
      refine ⟨fun h k hk => h k (hlast.mono hk), fun h k hwithin x y hx => ?_⟩
      by_cases hk : k < last
      · exact h k hk x y hx
      · have hmem := mem_level_iff.mpr (atDistance_iff.mpr hx)
        rw [hempty (k + 1) (by omega) hwithin] at hmem
        cases hmem
    rw [hinOrder, ← hsorted, ← upTo_ordered_iff]
    constructor
    · rintro ⟨listed, hruns, -, -, hordered⟩
      have heq := (hlisted _ (Nat.le_refl _)).symm.trans (hruns _ (Nat.le_refl _))
      obtain rfl : upTo m.importersOf target last = listed := Option.some.inj (Except.ok.inj heq)
      exact ⟨hbound, hordered⟩
    · rintro ⟨-, hordered⟩
      exact ⟨_, hlisted, nodup_upTo .., fun x => mem_levels_iff hlast hempty, hordered⟩
  · refine iff_of_false ?_ fun h => hbound h.1
    rintro ⟨listed, hruns, -⟩
    have hsign : maxDepth.any (· < 0) = true := by
      cases maxDepth with
      | none => exact absurd (fun b hb => absurd hb (Option.not_mem_none b)) hbound
      | some b => simpa using hbound
    have hraise := hruns _ (Nat.le_refl _)
    unfold CodebaseMap.transitiveImportersOf at hraise
    rw [if_pos hsign] at hraise
    cases hraise

end Exact

/-- Two modules import `m`, and one module each of these. -/
def diamond : CodebaseMap where
  rootPath := py "/src"
  modules := [⟨py "a.py", py "a", [py "m"], []⟩, ⟨py "b.py", py "b", [py "m"], []⟩,
    ⟨py "c.py", py "c", [py "b"], []⟩, ⟨py "z.py", py "z", [py "a"], []⟩, ⟨py "m.py", py "m", [], []⟩]

/-- `z` is listed before `c`, at the same distance. -/
theorem diamond_not_by_name :
    diamond.transitiveImportersOf 6 (py "m") none = .ok (some [py "a", py "b", py "z", py "c"]) ∧
      ¬ ListsImporters diamond (py "m") none := by
  have hlisted : diamond.transitiveImportersOf 6 (py "m") none
      = .ok (some [py "a", py "b", py "z", py "c"]) := by decide +kernel
  refine ⟨hlisted, ?_⟩
  rintro ⟨listed, hruns, -, -, hordered⟩
  obtain rfl : [py "a", py "b", py "z", py "c"] = listed :=
    Option.some.inj (Except.ok.inj (hlisted.symm.trans (hruns 6 (by decide))))
  have hlevel : level diamond.importersOf (py "m") 2 = [py "z", py "c"] := by decide +kernel
  have hz : Distance diamond (py "m") 2 (py "z") := level_distance (hlevel ▸ List.mem_cons_self)
  have hc : Distance diamond (py "m") 2 (py "c") :=
    level_distance (hlevel ▸ List.mem_cons_of_mem _ List.mem_cons_self)
  have hlast := hordered.sublist (List.drop_sublist 2 [py "a", py "b", py "z", py "c"])
  rcases List.rel_of_pairwise_cons hlast List.mem_cons_self 2 2 hz hc with hlt | ⟨-, hname⟩
  · exact Nat.lt_irrefl 2 hlt
  · exact absurd hname (by decide)

end Codemap
end KineticSdk
