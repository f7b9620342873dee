/-
  KineticSdk.Lib.Preorder

  Depth-first search with one list of what is pending.

  `Visits seen xs out` is the recursive search: from each node of `xs` that has
  not been seen, all that its successors lead to is visited before the next
  one.  The loop of `walk` keeps one list instead of a stack of calls, with the
  successors of a node put in front of it.  It computes the recursive search
  (`walk_visits`), and over a finite graph it ends (`walk_ends`): each turn
  takes one from what is pending and the edges not yet followed.
-/

import Mathlib.Algebra.BigOperators.Group.Finset.Basic
import Mathlib.Logic.Relation

namespace KineticSdk
namespace Lib
namespace Preorder

variable {α ε : Type} (succs : α → Except ε (List α))

-- ============================================================================
-- The recursive search
-- ============================================================================

/-- Visiting `xs` in order, and each node before its successors, extends what
    was seen to `out`. -/
inductive Visits : List α → List α → List α → Prop
  | nil (seen : List α) : Visits seen [] seen
  | skip {seen xs out : List α} {x : α} (hx : x ∈ seen) (h : Visits seen xs out) :
      Visits seen (x :: xs) out
  | enter {seen xs ys mid out : List α} {x : α} (hx : x ∉ seen) (hy : succs x = .ok ys)
      (hmid : Visits (seen ++ [x]) ys mid) (h : Visits mid xs out) : Visits seen (x :: xs) out

/-- One node leads to the other. -/
def Edge (x y : α) : Prop := ∃ ys, succs x = .ok ys ∧ y ∈ ys

/-- One of the roots leads to the node, over any number of edges. -/
def Reachable (roots : List α) (x : α) : Prop :=
  ∃ r ∈ roots, Relation.ReflTransGen (Edge succs) r x

variable {succs}
variable {seen xs ys mid out out' : List α} {x : α}

theorem Visits.append (h : Visits succs seen xs mid) (h' : Visits succs mid ys out) :
    Visits succs seen (xs ++ ys) out := by
  induction h with
  | nil => exact h'
  | skip hx _ ih => exact .skip hx (ih h')
  | enter hx hy hmid _ _ ih => exact .enter hx hy hmid (ih h')

theorem Visits.split (h : Visits succs seen (xs ++ ys) out) :
    ∃ mid, Visits succs seen xs mid ∧ Visits succs mid ys out := by
  induction xs generalizing seen with
  | nil => exact ⟨seen, .nil seen, h⟩
  | cons x xs ih =>
      cases h with
      | skip hx h =>
          obtain ⟨mid, hfirst, hrest⟩ := ih h
          exact ⟨mid, .skip hx hfirst, hrest⟩
      | enter hx hy hmid h =>
          obtain ⟨mid, hfirst, hrest⟩ := ih h
          exact ⟨mid, .enter hx hy hmid hfirst, hrest⟩

/-- The order of a search is determined. -/
theorem Visits.unique (h : Visits succs seen xs out) (h' : Visits succs seen xs out') : out = out' := by
  induction h generalizing out' with
  | nil =>
      cases h' with
      | nil => rfl
  | skip hx _ ih =>
      cases h' with
      | skip _ h' => exact ih h'
      | enter hnot => exact absurd hx hnot
  | enter hx hy _ _ ihmid ih =>
      cases h' with
      | skip hin => exact absurd hin hx
      | enter _ hy' hmid' h' =>
          obtain rfl := Except.ok.inj (hy.symm.trans hy')
          obtain rfl := ihmid hmid'
          exact ih h'

theorem Visits.extends (h : Visits succs seen xs out) : seen <+: out := by
  induction h with
  | nil => exact List.prefix_refl _
  | skip _ _ ih => exact ih
  | enter _ _ _ _ ihmid ih => exact (List.prefix_append ..).trans (ihmid.trans ih)

/-- No node is visited twice. -/
theorem Visits.nodup (h : Visits succs seen xs out) (hseen : seen.Nodup) : out.Nodup := by
  induction h with
  | nil => exact hseen
  | skip _ _ ih => exact ih hseen
  | enter hx _ _ _ ihmid ih =>
      refine ih (ihmid (hseen.append (List.nodup_singleton _) ?_))
      exact List.disjoint_singleton.mpr hx

/-- Every node that was asked for is visited. -/
theorem Visits.covers (h : Visits succs seen xs out) : ∀ y ∈ xs, y ∈ out := by
  induction h with
  | nil => exact fun _ hy => absurd hy List.not_mem_nil
  | skip hx h ih =>
      intro y hy
      rcases List.mem_cons.mp hy with rfl | hy
      · exact h.extends.subset hx
      · exact ih y hy
  | enter hx _ hmid h _ ih =>
      intro y hy
      rcases List.mem_cons.mp hy with rfl | hy
      · exact h.extends.subset (hmid.extends.subset (List.mem_append_right _ (List.mem_singleton_self _)))
      · exact ih y hy

/-- With a node its successors are visited. -/
theorem Visits.closed (h : Visits succs seen xs out) :
    ∀ y ∈ out, y ∉ seen → ∀ z, Edge succs y z → z ∈ out := by
  induction h with
  | nil => exact fun _ hy hnot => absurd hy hnot
  | skip _ _ ih => exact ih
  | @enter seen xs ys mid out x hx hy hmid h ihmid ih =>
      intro y hyout hyseen z hz
      by_cases hymid : y ∈ mid
      · by_cases hyx : y = x
        · subst hyx
          obtain ⟨zs, hzs, hzin⟩ := hz
          obtain rfl := Except.ok.inj (hy.symm.trans hzs)
          exact h.extends.subset (hmid.covers z hzin)
        · have hnew : y ∉ seen ++ [x] := by
            simpa using ⟨hyseen, hyx⟩
          exact h.extends.subset (ihmid y hymid hnew z hz)
      · exact ih y hyout hymid z hz

/-- Only what is reachable is visited. -/
theorem Visits.sound (h : Visits succs seen xs out) : ∀ y ∈ out, y ∈ seen ∨ Reachable succs xs y := by
  have hmore : ∀ {x : α} {xs : List α} {y : α}, Reachable succs xs y → Reachable succs (x :: xs) y :=
    fun ⟨r, hr, hreach⟩ => ⟨r, List.mem_cons_of_mem _ hr, hreach⟩
  induction h with
  | nil => exact fun _ hy => .inl hy
  | skip _ _ ih => exact fun y hy => (ih y hy).imp_right hmore
  | @enter seen xs ys mid out x hx hy hmid h ihmid ih =>
      intro y hyout
      rcases ih y hyout with hymid | hreach
      · rcases ihmid y hymid with hyold | ⟨r, hr, hreach⟩
        · rcases List.mem_append.mp hyold with hyseen | hyx
          · exact .inl hyseen
          · exact .inr ⟨x, List.mem_cons_self, List.mem_singleton.mp hyx ▸ .refl⟩
        · exact .inr ⟨x, List.mem_cons_self, .head ⟨ys, hy, hr⟩ hreach⟩
      · exact .inr (hmore hreach)

/-- A search from the start visits exactly what is reachable. -/
theorem Visits.mem_iff (h : Visits succs [] xs out) (y : α) : y ∈ out ↔ Reachable succs xs y := by
  constructor
  · intro hy
    exact (h.sound y hy).resolve_left List.not_mem_nil
  · rintro ⟨r, hr, hreach⟩
    induction hreach with
    | refl => exact h.covers r hr
    | tail _ hedge ih => exact h.closed _ ih List.not_mem_nil _ hedge

/-- A search from the start visits its first root first. -/
theorem Visits.head (h : Visits succs [] (x :: xs) out) : out.head? = some x := by
  cases h with
  | skip hx => exact absurd hx List.not_mem_nil
  | enter _ _ hmid h =>
      obtain ⟨rest, rfl⟩ := hmid.extends.trans h.extends
      rfl

-- ============================================================================
-- The loop
-- ============================================================================

variable [DecidableEq α]

variable (succs) in
/-- The loop, for at most the given number of turns: the first pending node is
    taken, and if it is new its successors are put in front of the others. -/
def walk : Nat → List α → List α → Option (Except ε (List α))
  | _, [], seen => some (.ok seen)
  | 0, _ :: _, _ => none
  | turns + 1, x :: pending, seen =>
      if x ∈ seen then walk turns pending seen
      else
        match succs x with
        | .error e => some (.error e)
        | .ok ys => walk turns (ys ++ pending) (seen ++ [x])

theorem walk_nil (turns : Nat) (seen : List α) : walk succs turns [] seen = some (.ok seen) := by
  cases turns <;> rfl

/-- The loop computes the recursive search. -/
theorem walk_visits {turns : Nat} (h : walk succs turns xs seen = some (.ok out)) :
    Visits succs seen xs out := by
  induction turns generalizing xs seen with
  | zero =>
      cases xs with
      | nil =>
          obtain rfl : seen = out := by simpa [walk] using h
          exact .nil seen
      | cons x xs => simp [walk] at h
  | succ turns ih =>
      cases xs with
      | nil =>
          obtain rfl : seen = out := by simpa [walk] using h
          exact .nil seen
      | cons x xs =>
          rw [walk] at h
          by_cases hx : x ∈ seen
          · rw [if_pos hx] at h
            exact .skip hx (ih h)
          · rw [if_neg hx] at h
            cases hy : succs x with
            | error e => simp [hy] at h
            | ok ys =>
                rw [hy] at h
                obtain ⟨mid, hmid, hrest⟩ := (ih h).split
                exact .enter hx hy hmid hrest

/-- How many successors a node has. -/
def degree (succs : α → Except ε (List α)) (x : α) : Nat :=
  match succs x with
  | .ok ys => ys.length
  | .error _ => 0

/-- What is pending, and the edges of the nodes not yet seen. -/
def work (succs : α → Except ε (List α)) (nodes : Finset α) (pending seen : List α) : Nat :=
  pending.length + ∑ x ∈ nodes \ seen.toFinset, degree succs x

/-- Within a finite graph the loop ends, after as many turns as there is work. -/
theorem walk_ends {nodes : Finset α}
    (hnodes : ∀ x ∈ nodes, ∃ ys, succs x = .ok ys ∧ ∀ y ∈ ys, y ∈ nodes) {turns : Nat}
    (hxs : ∀ x ∈ xs, x ∈ nodes) (hturns : work succs nodes xs seen ≤ turns) :
    ∃ out, walk succs turns xs seen = some (.ok out) := by
  induction turns generalizing xs seen with
  | zero =>
      cases xs with
      | nil => exact ⟨seen, walk_nil 0 seen⟩
      | cons x xs =>
          rw [work, List.length_cons] at hturns
          omega
  | succ turns ih =>
      cases xs with
      | nil => exact ⟨seen, walk_nil _ seen⟩
      | cons x xs =>
          rw [walk]
          have hrest : ∀ y ∈ xs, y ∈ nodes := fun y hy => hxs y (List.mem_cons_of_mem _ hy)
          rw [work, List.length_cons] at hturns
          by_cases hx : x ∈ seen
          · rw [if_pos hx]
            refine ih hrest ?_
            rw [work]
            omega
          · obtain ⟨ys, hy, hysnodes⟩ := hnodes x (hxs x List.mem_cons_self)
            rw [if_neg hx, hy]
            refine ih (fun y hy' => ?_) ?_
            · exact (List.mem_append.mp hy').elim (hysnodes y) (hrest y)
            · -- the edges of the new node move to what is pending
              have hnew : x ∈ nodes \ seen.toFinset := by
                simpa using ⟨hxs x List.mem_cons_self, hx⟩
              have hsum := Finset.add_sum_erase _ (degree succs) hnew
              have hset : nodes \ (seen ++ [x]).toFinset = (nodes \ seen.toFinset).erase x := by
                ext y
                simp only [Finset.mem_sdiff, Finset.mem_erase, List.mem_toFinset, List.mem_append,
                  List.mem_singleton]
                tauto
              have hdegree : degree succs x = ys.length := by
                rw [degree, hy]
              rw [work, hset, List.length_append]
              omega

end Preorder
end Lib
end KineticSdk
