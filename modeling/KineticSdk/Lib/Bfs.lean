/-
  KineticSdk.Lib.Bfs

  Breadth-first search with a queue of nodes and their depths.

  The queue takes one level after the other (`search_level`): the nodes found
  from a level are the first occurrences of its successors that are new
  (`news`).  Level `k` holds exactly the nodes at distance `k` (`mem_level_iff`),
  so a search within finitely many nodes ends, with the levels one behind the
  other (`search_levels`).

  A loop that keeps a dictionary of depths in place of the pairs finds the same nodes
  under their distances (`hops_levels`).

  Inside a level the nodes stand by their first parents.  Where the successors
  of a node are sorted, every level is sorted exactly when the least parents
  come in the same order as their children (`levels_sorted_iff`).
-/

import Mathlib.Data.List.Basic
import Mathlib.Data.List.Nodup
import Mathlib.Data.List.Perm.Subperm
import Mathlib.Order.Defs.LinearOrder
import Mathlib.Algebra.GroupWithZero.Nat
import Mathlib.Order.Lattice

namespace KineticSdk
namespace Lib
namespace Bfs

variable {α : Type}

-- ============================================================================
-- Distances
-- ============================================================================

/-- The nodes that `k` edges lead to. -/
def Reach (succs : α → List α) (start : α) : Nat → α → Prop
  | 0, x => x = start
  | k + 1, x => ∃ y, Reach succs start k y ∧ x ∈ succs y

/-- The nodes at distance `k`. -/
def AtDistance (succs : α → List α) (start : α) (k : Nat) (x : α) : Prop :=
  Reach succs start k x ∧ ∀ j < k, ¬ Reach succs start j x

section Distances

variable {succs : α → List α} {start : α} {k j : Nat} {x : α}

theorem AtDistance.unique (h : AtDistance succs start k x) (h' : AtDistance succs start j x) : k = j := by
  rcases Nat.lt_trichotomy k j with hlt | heq | hlt
  · exact absurd h.1 (h'.2 k hlt)
  · exact heq
  · exact absurd h'.1 (h.2 j hlt)

/-- A node that can be reached has a distance. -/
theorem AtDistance.of_reach (h : Reach succs start k x) : ∃ j ≤ k, AtDistance succs start j x := by
  induction k using Nat.strongRecOn with
  | ind k ih =>
      by_cases hless : ∃ j < k, Reach succs start j x
      · obtain ⟨j, hj, hreach⟩ := hless
        obtain ⟨i, hi, hdist⟩ := ih j hj hreach
        exact ⟨i, by omega, hdist⟩
      · exact ⟨k, Nat.le_refl k, h, fun j hj hreach => hless ⟨j, hj, hreach⟩⟩

/-- A node behind the start is found from the level before its own. -/
theorem AtDistance.parent (h : AtDistance succs start (k + 1) x) : ∃ y, AtDistance succs start k y ∧ x ∈ succs y := by
  obtain ⟨⟨y, hy, hx⟩, hmin⟩ := h
  exact ⟨y, ⟨hy, fun j hj hreach => hmin (j + 1) (by omega) ⟨y, hreach, hx⟩⟩, hx⟩

end Distances

variable [DecidableEq α]

-- ============================================================================
-- The search
-- ============================================================================

/-- The nodes seen, the queue with the depths, and the nodes found. -/
structure Search (α : Type) where
  seen : List α
  queue : List (α × Nat)
  found : List α

/-- A successor of a node at some depth. -/
def visit (depth : Nat) (s : Search α) (y : α) : Search α :=
  if y ∈ s.seen then s else ⟨s.seen ++ [y], s.queue ++ [(y, depth + 1)], s.found ++ [y]⟩

/-- The loop; nodes at the bound are not expanded.  `none` when it needs more turns. -/
def search (succs : α → List α) (bound : Option Nat) : Nat → Search α → Option (List α)
  | _, ⟨_, [], found⟩ => some found
  | 0, _ => none
  | turns + 1, ⟨seen, (x, depth) :: queue, found⟩ =>
      if bound.any (· ≤ depth) then search succs bound turns ⟨seen, queue, found⟩
      else search succs bound turns ((succs x).foldl (visit depth) ⟨seen, queue, found⟩)

/-- The elements that are new, where they occur first. -/
def news (seen : List α) : List α → List α
  | [] => []
  | y :: ys => if y ∈ seen then news seen ys else y :: news (seen ++ [y]) ys

section
-- its equations are made once, before the proofs below
attribute [local simp] news
end

theorem mem_news {seen ys : List α} {x : α} : x ∈ news seen ys ↔ x ∈ ys ∧ x ∉ seen := by
  induction ys generalizing seen with
  | nil => simp [news]
  | cons y ys ih =>
      unfold news
      by_cases hy : y ∈ seen
      · rw [if_pos hy, ih, List.mem_cons]
        have hne : x ∉ seen → x ≠ y := fun hx heq => hx (heq ▸ hy)
        exact ⟨fun ⟨hmem, hx⟩ => ⟨.inr hmem, hx⟩, fun ⟨hmem, hx⟩ => ⟨hmem.resolve_left (hne hx), hx⟩⟩
      · rw [if_neg hy, List.mem_cons, ih, List.mem_cons, List.mem_append, List.mem_singleton]
        constructor
        · rintro (rfl | ⟨hmem, hx⟩)
          · exact ⟨.inl rfl, hy⟩
          · exact ⟨.inr hmem, fun h => hx (.inl h)⟩
        · rintro ⟨rfl | hmem, hx⟩
          · exact .inl rfl
          · by_cases heq : x = y
            · exact .inl heq
            · exact .inr ⟨hmem, fun h => h.elim hx heq⟩

theorem nodup_news (seen ys : List α) : (news seen ys).Nodup := by
  induction ys generalizing seen with
  | nil => exact List.nodup_nil
  | cons y ys ih =>
      unfold news
      split_ifs
      · exact ih seen
      · refine List.nodup_cons.mpr ⟨fun hmem => ?_, ih _⟩
        exact (mem_news.mp hmem).2 (List.mem_append_right _ (List.mem_singleton_self y))

theorem news_append (seen ys zs : List α) :
    news seen (ys ++ zs) = news seen ys ++ news (seen ++ news seen ys) zs := by
  induction ys generalizing seen with
  | nil => rw [news, List.nil_append, List.nil_append, List.append_nil]
  | cons y ys ih =>
      rw [List.cons_append, news, news]
      split_ifs
      · exact ih seen
      · simp only [ih, List.cons_append, List.append_assoc, List.nil_append]

theorem news_sublist (seen ys : List α) : (news seen ys).Sublist ys := by
  induction ys generalizing seen with
  | nil => exact List.Sublist.refl _
  | cons y ys ih =>
      unfold news
      split_ifs
      · exact (ih seen).cons y
      · exact (ih _).cons_cons y

/-- The successors of a node come to the end of the queue. -/
theorem foldl_visit (depth : Nat) (ys : List α) (s : Search α) :
    ys.foldl (visit depth) s
      = ⟨s.seen ++ news s.seen ys, s.queue ++ (news s.seen ys).map (·, depth + 1), s.found ++ news s.seen ys⟩ := by
  induction ys generalizing s with
  | nil => simp [news]
  | cons y ys ih =>
      rw [List.foldl_cons, ih, news]
      unfold visit
      split_ifs <;> simp

-- ============================================================================
-- Levels
-- ============================================================================

/-- What has been seen when a level is complete, and the level. -/
def levels (succs : α → List α) (start : α) : Nat → List α × List α
  | 0 => ([start], [start])
  | k + 1 =>
      let next := news (levels succs start k).1 ((levels succs start k).2.flatMap succs)
      ((levels succs start k).1 ++ next, next)

/-- The nodes of a level, in the order of the search. -/
def level (succs : α → List α) (start : α) (k : Nat) : List α := (levels succs start k).2

/-- The nodes of the levels `1` to `k`. -/
def upTo (succs : α → List α) (start : α) (k : Nat) : List α :=
  (List.range k).flatMap fun j => level succs start (j + 1)

section Levels

variable {succs : α → List α} {start : α} {k j : Nat} {x y : α}

theorem level_succ (succs : α → List α) (start : α) (k : Nat) :
    level succs start (k + 1)
      = news (levels succs start k).1 ((level succs start k).flatMap succs) := rfl

theorem upTo_succ (succs : α → List α) (start : α) (k : Nat) :
    upTo succs start (k + 1) = upTo succs start k ++ level succs start (k + 1) := by
  unfold upTo
  rw [List.range_succ, List.flatMap_append, List.flatMap_singleton]

theorem seen_eq (succs : α → List α) (start : α) (k : Nat) :
    (levels succs start k).1 = start :: upTo succs start k := by
  induction k with
  | zero => rfl
  | succ k ih =>
      rw [upTo_succ, ← List.cons_append, ← ih]
      rfl

theorem mem_upTo : x ∈ upTo succs start k ↔ ∃ j, 1 ≤ j ∧ j ≤ k ∧ x ∈ level succs start j := by
  unfold upTo
  rw [List.mem_flatMap]
  constructor
  · rintro ⟨j, hj, hx⟩
    exact ⟨j + 1, by omega, List.mem_range.mp hj, hx⟩
  · rintro ⟨j, hone, hle, hx⟩
    obtain ⟨i, rfl⟩ : ∃ i, j = i + 1 := ⟨j - 1, by omega⟩
    exact ⟨i, List.mem_range.mpr (by omega), hx⟩

/-- The level of a number holds the nodes at that distance. -/
theorem mem_level_iff : x ∈ level succs start k ↔ AtDistance succs start k x := by
  induction k using Nat.strongRecOn generalizing x with
  | ind k ih =>
      cases k with
      | zero =>
          show x ∈ [start] ↔ _
          rw [List.mem_singleton]
          exact ⟨fun heq => ⟨heq, fun j hj => absurd hj (Nat.not_lt_zero j)⟩, fun h => h.1⟩
      | succ k =>
          have hseen : x ∈ (levels succs start k).1 ↔ ∃ j ≤ k, AtDistance succs start j x := by
            rw [seen_eq, List.mem_cons, mem_upTo]
            constructor
            · rintro (rfl | ⟨j, -, hle, hx⟩)
              · exact ⟨0, Nat.zero_le k, rfl, fun j hj => absurd hj (Nat.not_lt_zero j)⟩
              · exact ⟨j, hle, (ih j (by omega)).mp hx⟩
            · rintro ⟨j, hle, hx⟩
              rcases Nat.eq_zero_or_pos j with rfl | hpos
              · exact .inl hx.1
              · exact .inr ⟨j, hpos, hle, (ih j (by omega)).mpr hx⟩
          rw [level_succ, mem_news, hseen, List.mem_flatMap]
          constructor
          · rintro ⟨⟨y, hy, hx⟩, hnew⟩
            have hreach : Reach succs start (k + 1) x := ⟨y, ((ih k (by omega)).mp hy).1, hx⟩
            obtain ⟨j, hle, hdist⟩ := AtDistance.of_reach hreach
            have hj : j = k + 1 := by
              by_contra hne
              exact hnew ⟨j, by omega, hdist⟩
            rw [hj] at hdist
            exact hdist
          · intro h
            obtain ⟨y, hy, hx⟩ := h.parent
            refine ⟨⟨y, (ih k (by omega)).mpr hy, hx⟩, ?_⟩
            rintro ⟨j, hle, hdist⟩
            have heq := hdist.unique h
            omega

theorem nodup_seen (succs : α → List α) (start : α) (k : Nat) : (levels succs start k).1.Nodup := by
  induction k with
  | zero => exact List.nodup_singleton start
  | succ k ih =>
      show ((levels succs start k).1 ++ level succs start (k + 1)).Nodup
      rw [level_succ]
      exact List.nodup_append.mpr ⟨ih, nodup_news .., fun a ha b hb heq => (mem_news.mp hb).2 (heq ▸ ha)⟩

theorem nodup_level (succs : α → List α) (start : α) (k : Nat) : (level succs start k).Nodup := by
  cases k with
  | zero => exact List.nodup_singleton start
  | succ k => exact nodup_news ..

theorem nodup_upTo (succs : α → List α) (start : α) (k : Nat) : (upTo succs start k).Nodup := by
  have h := nodup_seen succs start k
  rw [seen_eq] at h
  exact (List.nodup_cons.mp h).2

/-- Behind an empty level all are empty. -/
theorem level_nil (h : level succs start k = []) (hle : k ≤ j) : level succs start j = [] := by
  obtain ⟨d, rfl⟩ := Nat.exists_eq_add_of_le hle
  induction d with
  | zero => exact h
  | succ d ih =>
      rw [← Nat.add_assoc, level_succ, ih (Nat.le_add_right k d)]
      rfl

-- ============================================================================
-- The queue takes one level after the other
-- ============================================================================

variable {bound : Option Nat} {turns : Nat}

theorem search_done (succs : α → List α) (bound : Option Nat) (turns : Nat) (seen found : List α) :
    search succs bound turns ⟨seen, [], found⟩ = some found := by
  cases turns <;> rfl

variable (succs turns) in
/-- A level below the bound is replaced by the next. -/
theorem search_level {depth : Nat} (h : bound.any (· ≤ depth) = false) (xs : List α) (seen : List α)
    (queue : List (α × Nat)) (found : List α) :
    search succs bound (xs.length + turns) ⟨seen, xs.map (·, depth) ++ queue, found⟩
      = search succs bound turns
          ⟨seen ++ news seen (xs.flatMap succs), queue ++ (news seen (xs.flatMap succs)).map (·, depth + 1),
            found ++ news seen (xs.flatMap succs)⟩ := by
  induction xs generalizing seen queue found with
  | nil => simp [news]
  | cons x xs ih =>
      have hlength : (x :: xs).length + turns = (xs.length + turns) + 1 := by
        rw [List.length_cons]
        omega
      rw [hlength, List.map_cons, List.cons_append, search, if_neg (by rw [h]; exact Bool.false_ne_true),
        foldl_visit, List.append_assoc, ih, List.flatMap_cons, news_append]
      simp only [List.append_assoc, List.map_append]

/-- A level at the bound is dropped. -/
theorem search_bound {depth : Nat} (h : bound.any (· ≤ depth) = true) (xs : List α) (seen found : List α) :
    search succs bound (xs.length + turns) ⟨seen, xs.map (·, depth), found⟩ = some found := by
  induction xs with
  | nil => exact search_done ..
  | cons x xs ih =>
      have hlength : (x :: xs).length + turns = (xs.length + turns) + 1 := by
        rw [List.length_cons]
        omega
      rw [hlength, List.map_cons, search, if_pos h]
      exact ih

/-- How many nodes leave the queue before a level does. -/
def pops (succs : α → List α) (start : α) (k : Nat) : Nat :=
  ((List.range k).map fun j => (level succs start j).length).sum

theorem pops_succ (succs : α → List α) (start : α) (k : Nat) :
    pops succs start (k + 1) = pops succs start k + (level succs start k).length := by
  unfold pops
  rw [List.range_succ, List.map_append, List.sum_append]
  simp

theorem pops_eq (succs : α → List α) (start : α) (k : Nat) :
    pops succs start (k + 1) = (levels succs start k).1.length := by
  induction k with
  | zero => rfl
  | succ k ih =>
      rw [pops_succ, ih]
      exact List.length_append.symm

/-- After so many turns a whole level stands in the queue. -/
theorem search_upTo (hk : ∀ b ∈ bound, k ≤ b) (turns : Nat) :
    search succs bound (pops succs start k + turns) ⟨[start], [(start, 0)], []⟩
      = search succs bound turns
          ⟨(levels succs start k).1, (level succs start k).map (·, k), upTo succs start k⟩ := by
  induction k generalizing turns with
  | zero =>
      show search succs bound (0 + turns) _ = _
      rw [Nat.zero_add]
      rfl
  | succ k ih =>
      have hbelow : bound.any (· ≤ k) = false := by
        cases bound with
        | none => rfl
        | some b =>
            have hlt : k < b := hk b rfl
            simpa using hlt
      have hlevel := search_level succs turns hbelow (level succs start k)
        (levels succs start k).1 [] (upTo succs start k)
      rw [pops_succ, Nat.add_assoc, ih fun b hb => Nat.le_of_succ_le (hk b hb), upTo_succ, level_succ]
      rw [List.append_nil, List.nil_append] at hlevel
      exact hlevel

variable (start) in
/-- No more nodes are seen than there are. -/
theorem length_seen_le {nodes : List α} (hnodes : ∀ x, ∀ y ∈ succs x, y ∈ nodes) (k : Nat) :
    (levels succs start k).1.length ≤ nodes.length + 1 := by
  have hsub : (levels succs start k).1 ⊆ start :: nodes := by
    intro x hx
    rw [seen_eq, List.mem_cons, mem_upTo] at hx
    rcases hx with rfl | ⟨j, hone, -, hx⟩
    · exact List.mem_cons_self ..
    · obtain ⟨i, rfl⟩ : ∃ i, j = i + 1 := ⟨j - 1, by omega⟩
      obtain ⟨y, -, hxy⟩ := (mem_level_iff.mp hx).parent
      exact List.mem_cons_of_mem _ (hnodes y x hxy)
  exact (List.subperm_of_subset (nodup_seen succs start k) hsub).length_le

variable (start) in
theorem exists_level_nil {nodes : List α} (hnodes : ∀ x, ∀ y ∈ succs x, y ∈ nodes) :
    ∃ k, level succs start k = [] := by
  by_contra hnone
  have hgrow : ∀ k, k + 1 ≤ (levels succs start k).1.length := by
    intro k
    induction k with
    | zero => exact Nat.le_refl 1
    | succ k ih =>
        have hpos : 0 < (level succs start (k + 1)).length :=
          List.length_pos_iff.mpr fun hnil => hnone ⟨k + 1, hnil⟩
        have hlength : (levels succs start (k + 1)).1.length
            = (levels succs start k).1.length + (level succs start (k + 1)).length := List.length_append
        omega
  have hle := length_seen_le start hnodes (nodes.length + 1)
  have hge := hgrow (nodes.length + 1)
  omega

/-- Among finitely many nodes the search ends, with the levels up to the bound or
    to the last that is not empty. -/
theorem search_levels {nodes : List α} (hnodes : ∀ x, ∀ y ∈ succs x, y ∈ nodes) (start : α)
    (bound : Option Nat) :
    ∃ last, (∀ b ∈ bound, last ≤ b) ∧
      (∀ k, last < k → (∀ b ∈ bound, k ≤ b) → level succs start k = []) ∧
      ∀ turns, nodes.length + 1 ≤ turns →
        search succs bound turns ⟨[start], [(start, 0)], []⟩ = some (upTo succs start last) := by
  cases bound with
  | some b =>
      refine ⟨b, fun b' hb' => ?_, fun k hk hb => ?_, fun turns hturns => ?_⟩
      · obtain rfl := Option.some.inj hb'
        exact Nat.le_refl b
      · exact absurd (hb b rfl) (Nat.not_le.mpr hk)
      · have hpops := length_seen_le start hnodes b
        rw [← pops_eq, pops_succ] at hpops
        obtain ⟨rest, rfl⟩ : ∃ rest, turns = pops succs start b + ((level succs start b).length + rest) :=
          ⟨turns - (pops succs start b + (level succs start b).length), by omega⟩
        rw [search_upTo fun b' hb' => by obtain rfl := Option.some.inj hb'; exact Nat.le_refl b]
        exact search_bound (by simp) ..
  | none =>
      obtain ⟨k, hk⟩ := exists_level_nil start hnodes
      refine ⟨k, fun b hb => absurd hb (Option.not_mem_none b), fun j hj _ => level_nil hk (Nat.le_of_lt hj),
        fun turns hturns => ?_⟩
      cases k with
      | zero => cases hk
      | succ k =>
          have hpops := length_seen_le start hnodes k
          rw [← pops_eq] at hpops
          obtain ⟨rest, rfl⟩ : ∃ rest, turns = pops succs start (k + 1) + rest :=
            ⟨turns - pops succs start (k + 1), by omega⟩
          rw [search_upTo fun b hb => absurd hb (Option.not_mem_none b), hk]
          exact search_done ..

end Levels

-- ============================================================================
-- A dictionary of depths
-- ============================================================================

/-- The nodes found with their depths, in the order of the search, and the nodes to go
    on from. -/
structure Hops (α : Type) where
  depths : List (α × Nat)
  frontier : List α

/-- The depth under which a node stands. -/
def depthOf (depths : List (α × Nat)) (x : α) : Option Nat := (depths.find? fun p => p.1 = x).map Prod.snd

/-- A successor of a node of this depth. -/
def hop (depth : Nat) (s : Hops α) (y : α) : Hops α :=
  if (depthOf s.depths y).isSome then s else ⟨s.depths ++ [(y, depth + 1)], s.frontier ++ [y]⟩

/-- The loop; `none` when it needs more turns, or goes on from a node without a depth. -/
def hops (succs : α → List α) : Nat → Hops α → Option (List (α × Nat))
  | _, ⟨depths, []⟩ => some depths
  | 0, _ => none
  | turns + 1, ⟨depths, x :: frontier⟩ =>
      (depthOf depths x).bind fun depth => hops succs turns ((succs x).foldl (hop depth) ⟨depths, frontier⟩)

/-- The nodes up to a level, with their levels. -/
def numbered (succs : α → List α) (start : α) (k : Nat) : List (α × Nat) :=
  (List.range (k + 1)).flatMap fun j => (level succs start j).map (·, j)

section Depths

variable {succs : α → List α} {start x y : α} {k j : Nat} {depths : List (α × Nat)}

theorem depthOf_isSome_iff : (depthOf depths y).isSome = true ↔ y ∈ depths.map Prod.fst := by
  unfold depthOf
  rw [Option.isSome_map, List.find?_isSome, List.mem_map]
  simp only [decide_eq_true_eq]

theorem depthOf_append_left (h : depthOf depths x = some k) (more : List (α × Nat)) :
    depthOf (depths ++ more) x = some k := by
  unfold depthOf at h ⊢
  obtain ⟨p, hp, hk⟩ := Option.map_eq_some_iff.mp h
  rw [List.find?_append, hp, Option.some_or, Option.map_some, hk]

theorem depthOf_eq_some_iff (hnodup : (depths.map Prod.fst).Nodup) :
    depthOf depths x = some k ↔ (x, k) ∈ depths := by
  unfold depthOf
  constructor
  · intro h
    obtain ⟨p, hp, rfl⟩ := Option.map_eq_some_iff.mp h
    have hx : p.1 = x := by simpa using List.find?_some hp
    rw [← hx]
    exact List.mem_of_find?_eq_some hp
  · intro hmem
    cases hfind : depths.find? fun p => p.1 = x with
    | none => exact absurd (decide_eq_true rfl) (List.find?_eq_none.mp hfind _ hmem)
    | some p =>
        have hx : p.1 = x := by simpa using List.find?_some hfind
        have hp : p = (x, k) := List.inj_on_of_nodup_map hnodup (List.mem_of_find?_eq_some hfind) hmem hx
        rw [hp]
        rfl

theorem foldl_hop (depth : Nat) (ys : List α) (s : Hops α) :
    ys.foldl (hop depth) s
      = ⟨s.depths ++ (news (s.depths.map Prod.fst) ys).map (·, depth + 1),
          s.frontier ++ news (s.depths.map Prod.fst) ys⟩ := by
  induction ys generalizing s with
  | nil => simp [news]
  | cons y ys ih =>
      rw [List.foldl_cons, ih, news, hop]
      by_cases hy : y ∈ s.depths.map Prod.fst
      · rw [if_pos (depthOf_isSome_iff.mpr hy), if_pos hy]
      · rw [if_neg (fun h => hy (depthOf_isSome_iff.mp h)), if_neg hy]
        simp

variable (succs) in
/-- A level is replaced by the next, which is numbered one higher. -/
theorem hops_level (turns : Nat) (xs frontier : List α) (hxs : ∀ x ∈ xs, depthOf depths x = some k) :
    hops succs (xs.length + turns) ⟨depths, xs ++ frontier⟩
      = hops succs turns
          ⟨depths ++ (news (depths.map Prod.fst) (xs.flatMap succs)).map (·, k + 1),
            frontier ++ news (depths.map Prod.fst) (xs.flatMap succs)⟩ := by
  induction xs generalizing depths frontier with
  | nil => simp [news]
  | cons x xs ih =>
      have hlength : (x :: xs).length + turns = (xs.length + turns) + 1 := by
        rw [List.length_cons]
        omega
      have hlater : ∀ y ∈ xs, depthOf (depths ++ (news (depths.map Prod.fst) (succs x)).map (·, k + 1)) y = some k :=
        fun y hy => depthOf_append_left (hxs y (List.mem_cons_of_mem _ hy)) _
      have hkeys : (depths ++ (news (depths.map Prod.fst) (succs x)).map (·, k + 1)).map Prod.fst
          = depths.map Prod.fst ++ news (depths.map Prod.fst) (succs x) := by
        rw [List.map_append, List.map_map]
        exact congrArg _ (List.map_id _)
      rw [hlength, List.cons_append, hops, hxs x List.mem_cons_self, Option.bind_some, foldl_hop, List.append_assoc,
        ih _ hlater, hkeys, List.flatMap_cons, news_append]
      simp only [List.append_assoc, List.map_append]

theorem numbered_succ (succs : α → List α) (start : α) (k : Nat) :
    numbered succs start (k + 1) = numbered succs start k ++ (level succs start (k + 1)).map (·, k + 1) := by
  unfold numbered
  rw [List.range_succ, List.flatMap_append, List.flatMap_singleton]

theorem keys_numbered (succs : α → List α) (start : α) (k : Nat) :
    (numbered succs start k).map Prod.fst = (levels succs start k).1 := by
  induction k with
  | zero => rfl
  | succ k ih =>
      rw [numbered_succ, List.map_append, ih, List.map_map]
      exact congrArg _ (List.map_id _)

theorem mem_numbered : (x, j) ∈ numbered succs start k ↔ j ≤ k ∧ x ∈ level succs start j := by
  unfold numbered
  simp only [List.mem_flatMap, List.mem_range, List.mem_map, Prod.mk.injEq]
  constructor
  · rintro ⟨i, hi, x', hx', rfl, rfl⟩
    exact ⟨by omega, hx'⟩
  · rintro ⟨hj, hx⟩
    exact ⟨j, by omega, x, hx, rfl, rfl⟩

/-- The depth of a node is its distance. -/
theorem depthOf_numbered : depthOf (numbered succs start k) x = some j ↔ j ≤ k ∧ AtDistance succs start j x := by
  have hnodup : ((numbered succs start k).map Prod.fst).Nodup := by
    rw [keys_numbered]
    exact nodup_seen ..
  rw [depthOf_eq_some_iff hnodup, mem_numbered, mem_level_iff]

/-- After so many turns a whole level is on the frontier. -/
theorem hops_upTo (k turns : Nat) :
    hops succs (pops succs start k + turns) ⟨[(start, 0)], [start]⟩
      = hops succs turns ⟨numbered succs start k, level succs start k⟩ := by
  induction k generalizing turns with
  | zero =>
      show hops succs (0 + turns) _ = _
      rw [Nat.zero_add]
      rfl
  | succ k ih =>
      have hlevel := hops_level succs turns (level succs start k) []
        fun x hx => depthOf_numbered.mpr ⟨Nat.le_refl k, mem_level_iff.mp hx⟩
      rw [List.append_nil, List.nil_append, keys_numbered] at hlevel
      rw [pops_succ, Nat.add_assoc, ih, numbered_succ, level_succ]
      exact hlevel

/-- Among finitely many nodes the loop ends, with every node that is reached under its
    distance. -/
theorem hops_levels {nodes : List α} (hnodes : ∀ x, ∀ y ∈ succs x, y ∈ nodes) (start : α) :
    ∃ depths, (∀ turns, nodes.length + 1 ≤ turns → hops succs turns ⟨[(start, 0)], [start]⟩ = some depths) ∧
      ∀ x j, depthOf depths x = some j ↔ AtDistance succs start j x := by
  obtain ⟨k, hk⟩ := exists_level_nil start hnodes
  refine ⟨numbered succs start k, fun turns hturns => ?_, fun x j => ?_⟩
  · cases k with
    | zero => cases hk
    | succ k =>
        have hpops := length_seen_le start hnodes k
        rw [← pops_eq] at hpops
        obtain ⟨rest, rfl⟩ : ∃ rest, turns = pops succs start (k + 1) + rest :=
          ⟨turns - pops succs start (k + 1), by omega⟩
        rw [hops_upTo, hk]
        cases rest <;> rfl
  · rw [depthOf_numbered]
    refine and_iff_right_of_imp fun hdist => ?_
    -- behind the empty level there is nothing
    by_contra hbehind
    have hx := mem_level_iff.mpr hdist
    rw [level_nil hk (by omega)] at hx
    cases hx

end Depths

-- ============================================================================
-- The order inside a level
-- ============================================================================

/-- Whatever parent `y` has, `x` has one that is not behind it. -/
def ParentsBefore [LE α] (succs : α → List α) (start : α) (k : Nat) (x y : α) : Prop :=
  ∀ q, AtDistance succs start k q → y ∈ succs q → ∃ p, AtDistance succs start k p ∧ x ∈ succs p ∧ p ≤ q

section Order

variable [LinearOrder α] {succs : α → List α} {start : α} {k : Nat}

/-- New elements of a sorted list are strictly sorted. -/
theorem news_sorted {seen ys : List α} (h : ys.Pairwise (· ≤ ·)) : (news seen ys).Pairwise (· < ·) := by
  have hle := h.sublist (news_sublist seen ys)
  exact (hle.and (nodup_news seen ys)).imp fun ⟨hle, hne⟩ => lt_of_le_of_ne hle hne

/-- `x` has a parent that comes before every parent of `y`, but for their common one. -/
def FoundBefore (succs : α → List α) (xs : List α) (x y : α) : Prop :=
  ∃ p ∈ xs, x ∈ succs p ∧ ∀ q ∈ xs, y ∈ succs q → p < q ∨ (p = q ∧ x < y)

/-- The children of a sorted level come by their first parents, and then sorted. -/
theorem news_flatMap_sorted {xs : List α} (hxs : xs.Pairwise (· < ·))
    (hsuccs : ∀ p ∈ xs, (succs p).Pairwise (· ≤ ·)) (seen : List α) :
    (news seen (xs.flatMap succs)).Pairwise (FoundBefore succs xs) := by
  induction xs generalizing seen with
  | nil => exact List.Pairwise.nil
  | cons p xs ih =>
      obtain ⟨hp, hrest⟩ := List.pairwise_cons.mp hxs
      have hself := hsuccs p (List.mem_cons_self ..)
      rw [List.flatMap_cons, news_append, List.pairwise_append]
      refine ⟨?_, ?_, ?_⟩
      · -- both are children of the first parent
        refine (news_sorted hself).imp_of_mem fun {x y} hx hy hlt => ?_
        refine ⟨p, List.mem_cons_self .., (mem_news.mp hx).1, fun q hq _ => ?_⟩
        rcases List.mem_cons.mp hq with rfl | hq
        · exact .inr ⟨rfl, hlt⟩
        · exact .inl (hp q hq)
      · refine (ih hrest (fun q hq => hsuccs q (List.mem_cons_of_mem _ hq)) _).imp_of_mem
          fun {x y} hx hy ⟨p', hp', hchild, hbefore⟩ => ?_
        refine ⟨p', List.mem_cons_of_mem _ hp', hchild, fun q hq hyq => ?_⟩
        rcases List.mem_cons.mp hq with rfl | hq
        · -- a child of the first parent would have been found there
          have hnew := (mem_news.mp hy).2
          rw [List.mem_append, mem_news] at hnew
          exact absurd (.inr ⟨hyq, fun hseen => hnew (.inl hseen)⟩) hnew
        · exact hbefore q hq hyq
      · intro x hx y hy
        refine ⟨p, List.mem_cons_self .., (mem_news.mp hx).1, fun q hq hyq => ?_⟩
        rcases List.mem_cons.mp hq with rfl | hq
        · have hnew := (mem_news.mp hy).2
          rw [List.mem_append, mem_news] at hnew
          exact absurd (.inr ⟨hyq, fun hseen => hnew (.inl hseen)⟩) hnew
        · exact .inl (hp q hq)

/-- Behind a sorted level the next is sorted exactly when its parents are. -/
theorem level_sorted_iff (hsuccs : ∀ p, (succs p).Pairwise (· ≤ ·))
    (hlevel : (level succs start k).Pairwise (· < ·)) :
    (level succs start (k + 1)).Pairwise (· < ·) ↔
      ∀ x y, AtDistance succs start (k + 1) x → AtDistance succs start (k + 1) y → x < y →
        ParentsBefore succs start k x y := by
  have hparents : (level succs start (k + 1)).Pairwise (FoundBefore succs (level succs start k)) :=
    news_flatMap_sorted hlevel (fun p _ => hsuccs p) _
  constructor
  · intro hsorted x y hx hy hlt q hq hyq
    -- in a sorted level the smaller stands before
    have hordered := List.Pairwise.forall_of_forall_of_flip
      (R := fun x y => x < y → FoundBefore succs (level succs start k) x y)
      (fun x _ hself => absurd hself (lt_irrefl x)) (hparents.imp fun {x y} h (_ : x < y) => h)
      (hsorted.imp fun {x y} hlt (hgt : y < x) => absurd hgt (lt_asymm hlt))
    obtain ⟨p, hp, hxp, hfirst⟩ := hordered (mem_level_iff.mpr hx) (mem_level_iff.mpr hy) hlt
    refine ⟨p, mem_level_iff.mp hp, hxp, ?_⟩
    rcases hfirst q (mem_level_iff.mpr hq) hyq with hlt' | ⟨rfl, -⟩
    · exact le_of_lt hlt'
    · exact le_refl p
  · intro hbefore
    refine (hparents.and (nodup_level succs start (k + 1))).imp_of_mem
      fun {x y} hx hy ⟨⟨p, hp, hxp, hfirst⟩, hne⟩ => ?_
    by_contra hnot
    have hlt : y < x := lt_of_le_of_ne (not_lt.mp hnot) (Ne.symm hne)
    obtain ⟨p', hp', hyp', hle⟩ :=
      hbefore y x (mem_level_iff.mp hy) (mem_level_iff.mp hx) hlt p (mem_level_iff.mp hp) hxp
    rcases hfirst p' (mem_level_iff.mpr hp') hyp' with hlt' | ⟨-, hlt'⟩
    · exact absurd hle (not_le.mpr hlt')
    · exact hnot hlt'

variable (start) in
/-- So all levels are, from the start on. -/
theorem levels_sorted_iff (hsuccs : ∀ p, (succs p).Pairwise (· ≤ ·)) (last : Nat) :
    (∀ k ≤ last, (level succs start k).Pairwise (· < ·)) ↔
      ∀ k < last, ∀ x y, AtDistance succs start (k + 1) x → AtDistance succs start (k + 1) y → x < y →
        ParentsBefore succs start k x y := by
  constructor
  · intro h k hk
    exact (level_sorted_iff hsuccs (h k (Nat.le_of_lt hk))).mp (h (k + 1) hk)
  · intro h k hk
    induction k with
    | zero => exact List.pairwise_singleton ..
    | succ k ih => exact (level_sorted_iff hsuccs (ih (Nat.le_of_lt hk))).mpr (h k hk)

end Order

end Bfs
end Lib
end KineticSdk
