/-
  KineticSdk.Lib.Ranking

  The first few of what passes a test, in the order of a key, highest first.

  `top` sorts everything, drops what does not pass, and cuts the rest.  Where no two
  elements have the same key, that is the one list that is in order, holds as many
  elements as it may, and leaves out nothing that ranks before an element it holds
  (`isTop_top`, `IsTop.unique`).
-/

import Mathlib.Data.List.Sort
import Mathlib.Data.List.Nodup
import Mathlib.Order.Lattice

namespace KineticSdk
namespace Lib
namespace Ranking

variable {α κ : Type} [LinearOrder κ] {key : α → κ} {passes : α → Bool} {limit : Nat} {xs ys zs : List α}

/-- Sorted by the key, highest first, then tested, then cut. -/
def top (key : α → κ) (passes : α → Bool) (limit : Nat) (xs : List α) : List α :=
  ((xs.insertionSort fun a b => key b ≤ key a).filter passes).take limit

/-- The elements that pass and rank highest, in their order. -/
structure IsTop (key : α → κ) (passes : α → Bool) (limit : Nat) (xs ys : List α) : Prop where
  ordered : ys.Pairwise fun a b => key b < key a
  passing : ∀ y ∈ ys, y ∈ xs ∧ passes y = true
  length : ys.length = min limit (xs.countP passes)
  highest : ∀ x ∈ xs, passes x = true → x ∉ ys → ∀ y ∈ ys, key x < key y

theorem isTop_top (hkey : (xs.map key).Nodup) : IsTop key passes limit xs (top key passes limit xs) := by
  have hperm : (xs.insertionSort fun a b => key b ≤ key a).Perm xs := List.perm_insertionSort ..
  have hsorted : ((xs.insertionSort fun a b => key b ≤ key a).filter passes).Pairwise fun a b => key b < key a := by
    have hweak : (xs.insertionSort fun a b => key b ≤ key a).Pairwise fun a b => key b ≤ key a :=
      List.pairwise_insertionSort ..
    have hdistinct : (xs.insertionSort fun a b => key b ≤ key a).Pairwise fun a b => key a ≠ key b :=
      List.pairwise_map.mp ((hperm.map key).nodup_iff.mpr hkey)
    exact ((hweak.and hdistinct).imp fun h => lt_of_le_of_ne h.1 (Ne.symm h.2)).filter _
  refine ⟨hsorted.sublist (List.take_sublist ..), fun y hy => ?_, ?_, fun x hx hpass hout y hy => ?_⟩
  · obtain ⟨hmem, hpass⟩ := List.mem_filter.mp (List.mem_of_mem_take hy)
    exact ⟨hperm.subset hmem, hpass⟩
  · unfold top
    rw [List.length_take, ← List.countP_eq_length_filter, hperm.countP_eq]
  · -- what is cut off stands behind what is kept
    have hmem : x ∈ (xs.insertionSort fun a b => key b ≤ key a).filter passes :=
      List.mem_filter.mpr ⟨hperm.symm.subset hx, hpass⟩
    rw [← List.take_append_drop limit (List.filter passes _), List.pairwise_append] at hsorted
    rw [← List.take_append_drop limit (List.filter passes _), List.mem_append] at hmem
    exact hsorted.2.2 y hy x (hmem.resolve_left hout)

/-- Two such lists have the same elements. -/
theorem IsTop.subset (hys : IsTop key passes limit xs ys) (hzs : IsTop key passes limit xs zs) : ys ⊆ zs := by
  intro y hy
  by_contra hout
  -- then all of `zs` ranks before `y` and is in `ys`, which is too long
  obtain ⟨hmem, hpass⟩ := hys.passing y hy
  have hsub : zs ⊆ ys := fun z hz => by
    by_contra hmissing
    have hlt := hzs.highest y hmem hpass hout z hz
    exact lt_asymm hlt (hys.highest z (hzs.passing z hz).1 (hzs.passing z hz).2 hmissing y hy)
  have hnodup : zs.Nodup := hzs.ordered.imp fun h heq => absurd (heq ▸ h) (lt_irrefl _)
  have hlength : (y :: zs).length ≤ ys.length :=
    (List.subperm_of_subset (List.nodup_cons.mpr ⟨hout, hnodup⟩) (List.cons_subset.mpr ⟨hy, hsub⟩)).length_le
  rw [List.length_cons, hys.length, hzs.length] at hlength
  exact absurd hlength (Nat.not_succ_le_self _)

/-- There is one such list. -/
theorem IsTop.unique (hys : IsTop key passes limit xs ys) (hzs : IsTop key passes limit xs zs) : ys = zs := by
  have hnodup : ∀ {l : List α}, l.Pairwise (fun a b => key b < key a) → l.Nodup := fun h =>
    h.imp fun h heq => absurd (heq ▸ h) (lt_irrefl _)
  have hperm : ys.Perm zs := (List.perm_ext_iff_of_nodup (hnodup hys.ordered) (hnodup hzs.ordered)).mpr fun y =>
    ⟨fun hy => hys.subset hzs hy, fun hy => hzs.subset hys hy⟩
  exact hperm.eq_of_pairwise (fun a b _ _ hab hba => absurd hab (lt_asymm hba)) hys.ordered hzs.ordered

/-- The order of what is chosen from does not matter. -/
theorem IsTop.of_perm {xs' : List α} (h : IsTop key passes limit xs ys) (hperm : xs.Perm xs') :
    IsTop key passes limit xs' ys where
  ordered := h.ordered
  passing := fun y hy => ⟨hperm.subset (h.passing y hy).1, (h.passing y hy).2⟩
  length := by rw [h.length, hperm.countP_eq]
  highest := fun x hx => h.highest x (hperm.symm.subset hx)

end Ranking
end Lib
end KineticSdk
