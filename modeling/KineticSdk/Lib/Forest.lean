/-
  KineticSdk.Lib.Forest

  Trees given by a list of nodes, each with the node it hangs from.

  Nodes are only added, under a node that is there (`Rooted.append`).  Some of
  them are open; `Nested` says that an open node hangs from an open one, which
  is the same for all ancestors (`Nested.ancestors`).  It is kept by opening a
  node under an open one and by closing one that has no open child.
-/

import Mathlib.Logic.Relation
import Mathlib.Data.List.Basic

namespace KineticSdk
namespace Lib
namespace Forest

variable {ι : Type} {edges : List (ι × Option ι)} {root node parent : ι}

/-- The second node hangs from the first one. -/
def ParentOf (edges : List (ι × Option ι)) (parent child : ι) : Prop := (child, some parent) ∈ edges

/-- Every parent is a node, and every node is reached from the root. -/
structure Rooted (edges : List (ι × Option ι)) (root : ι) : Prop where
  parents : ∀ parent child, ParentOf edges parent child → parent ∈ edges.map Prod.fst
  reached : ∀ node ∈ edges.map Prod.fst, Relation.ReflTransGen (ParentOf edges) root node

theorem rooted_single (root : ι) : Rooted [(root, none)] root := by
  refine ⟨fun parent child h => ?_, fun node hnode => ?_⟩
  · cases List.mem_singleton.mp h
  · rw [List.mem_singleton.mp hnode]

theorem parentOf_append {p c : ι} :
    ParentOf (edges ++ [(node, some parent)]) p c ↔
      ParentOf edges p c ∨ (p = parent ∧ c = node) := by
  unfold ParentOf
  rw [List.mem_append, List.mem_singleton, Prod.mk.injEq, Option.some.injEq, and_comm (a := c = node)]

theorem Rooted.append (h : Rooted edges root) (hparent : parent ∈ edges.map Prod.fst) :
    Rooted (edges ++ [(node, some parent)]) root := by
  have hgrow : ∀ p c, ParentOf edges p c → ParentOf (edges ++ [(node, some parent)]) p c :=
    fun p c hpc => parentOf_append.mpr (.inl hpc)
  refine ⟨fun p c hpc => ?_, fun n hn => ?_⟩
  · rw [List.map_append, List.mem_append]
    rcases parentOf_append.mp hpc with hpc | ⟨rfl, -⟩
    · exact .inl (h.parents p c hpc)
    · exact .inl hparent
  · rw [List.map_append, List.mem_append] at hn
    rcases hn with hn | hn
    · exact Relation.ReflTransGen.mono hgrow _ _ (h.reached n hn)
    · have hnode : n = node := List.mem_singleton.mp hn
      have hedge : ParentOf (edges ++ [(node, some parent)]) parent n :=
        parentOf_append.mpr (.inr ⟨rfl, hnode⟩)
      exact (Relation.ReflTransGen.mono hgrow _ _ (h.reached parent hparent)).tail hedge

-- ============================================================================
-- Open nodes
-- ============================================================================

variable {isOpen isOpen' : ι → Prop}

/-- What hangs from a closed node is closed. -/
def Nested (edges : List (ι × Option ι)) (isOpen : ι → Prop) : Prop :=
  ∀ parent child, ParentOf edges parent child → isOpen child → isOpen parent

/-- Nothing below a closed node is open. -/
theorem Nested.ancestors (h : Nested edges isOpen) {ancestor : ι}
    (hbelow : Relation.TransGen (ParentOf edges) ancestor node) (hopen : isOpen node) :
    isOpen ancestor := by
  induction hbelow with
  | single hedge => exact h _ _ hedge hopen
  | tail _ hedge ih => exact ih (h _ _ hedge hopen)

theorem Nested.append (h : Nested edges isOpen) (hparent : isOpen' parent)
    (hold : ∀ p c, ParentOf edges p c → isOpen' c → isOpen c)
    (hkept : ∀ p c, ParentOf edges p c → isOpen p → isOpen' p) :
    Nested (edges ++ [(node, some parent)]) isOpen' := by
  intro p c hpc hopen
  rcases parentOf_append.mp hpc with hpc | ⟨rfl, rfl⟩
  · exact hkept p c hpc (h p c hpc (hold p c hpc hopen))
  · exact hparent

/-- Closing a node without open children. -/
theorem Nested.close (h : Nested edges isOpen) {closed : ι}
    (hchildren : ∀ child, ParentOf edges closed child → ¬ isOpen child)
    (hsub : ∀ n, isOpen' n → isOpen n) (hkept : ∀ n, n ≠ closed → isOpen n → isOpen' n) :
    Nested edges isOpen' := by
  intro p c hpc hopen
  have hc := hsub c hopen
  refine hkept p (fun heq => ?_) (h p c hpc hc)
  rw [heq] at hpc
  exact hchildren c hpc hc

end Forest
end Lib
end KineticSdk
