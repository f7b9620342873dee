/-
  KineticSdk.Lib.Traverse

  A list whose elements are taken one after the other by a function that can fail
  (`List.mapM` in `Except`).

  It succeeds with the results beside the elements (`mapM_ok_iff`); the other rules
  come from that.  Where a function drops the elements it has no result for
  (`List.filterMap`), what the results say of the rest is a sublist.
-/

import Mathlib.Data.List.Forall2

namespace KineticSdk
namespace Lib
namespace Traverse

variable {ε α β γ : Type} {f : α → Except ε β} {xs : List α} {ys : List β}

/-- The results stand beside the elements. -/
theorem mapM_ok_iff : xs.mapM f = .ok ys ↔ List.Forall₂ (fun x y => f x = .ok y) xs ys := by
  induction xs generalizing ys with
  | nil =>
      constructor
      · intro h
        cases h
        exact .nil
      · intro h
        cases h
        rfl
  | cons x xs ih =>
      rw [List.mapM_cons, List.forall₂_cons_left_iff]
      constructor
      · intro h
        cases hx : f x with
        | error e =>
            rw [hx] at h
            cases h
        | ok y =>
            rw [hx] at h
            cases hxs : xs.mapM f with
            | error e =>
                rw [hxs] at h
                cases h
            | ok rest =>
                rw [hxs] at h
                cases h
                exact ⟨y, rest, rfl, ih.mp hxs, rfl⟩
      · rintro ⟨y, rest, hx, hrest, rfl⟩
        rw [hx, ih.mpr hrest]
        rfl

theorem mapM_eq_map {g : α → β} (h : ∀ x ∈ xs, f x = .ok (g x)) : xs.mapM f = .ok (xs.map g) :=
  mapM_ok_iff.mpr (List.forall₂_map_right_iff.mpr (List.forall₂_same.mpr h))

/-- A function that undoes another gives the list back. -/
theorem mapM_map_ok_iff {g : β → α} : (ys.map g).mapM f = .ok ys ↔ ∀ y ∈ ys, f (g y) = .ok y := by
  rw [mapM_ok_iff, List.forall₂_map_left_iff, List.forall₂_same]

theorem mapM_congr {g : α → Except ε β} (h : ∀ x ∈ xs, f x = g x) : xs.mapM f = xs.mapM g := by
  induction xs with
  | nil => rfl
  | cons x xs ih =>
      rw [List.mapM_cons, List.mapM_cons, h x List.mem_cons_self, ih fun y hy => h y (List.mem_cons_of_mem x hy)]

theorem mapM_mem (h : xs.mapM f = .ok ys) {x : α} (hx : x ∈ xs) : ∃ y ∈ ys, f x = .ok y := by
  have hbeside := mapM_ok_iff.mp h
  clear h
  induction hbeside with
  | nil => cases hx
  | cons hfirst hrest ih =>
      rcases List.mem_cons.mp hx with rfl | hx
      · exact ⟨_, List.mem_cons_self, hfirst⟩
      · obtain ⟨y, hy, hfy⟩ := ih hx
        exact ⟨y, List.mem_cons_of_mem _ hy, hfy⟩

/-- What a result says of its element, the results say of the elements. -/
theorem mapM_map_eq {g : α → γ} {k : β → γ} (hk : ∀ {x y}, f x = .ok y → k y = g x) (h : xs.mapM f = .ok ys) :
    ys.map k = xs.map g := by
  have hbeside := mapM_ok_iff.mp h
  clear h
  induction hbeside with
  | nil => rfl
  | cons hfirst hrest ih => rw [List.map_cons, List.map_cons, hk hfirst, ih]

/-- What the results of a partial function say of their elements, in the same order. -/
theorem filterMap_map_sublist {g : α → Option β} {h : α → γ} {k : β → γ}
    (hk : ∀ x y, g x = some y → k y = h x) : ((xs.filterMap g).map k).Sublist (xs.map h) := by
  induction xs with
  | nil => exact List.Sublist.refl _
  | cons x xs ih =>
      cases hg : g x with
      | none =>
          rw [List.filterMap_cons_none hg, List.map_cons]
          exact ih.cons _
      | some y =>
          rw [List.filterMap_cons_some hg, List.map_cons, List.map_cons, hk x y hg]
          exact ih.cons_cons _

end Traverse
end Lib
end KineticSdk
