/-
  KineticSdk.Lib.Slots

  A list as a table of slots, of which a step replaces or adds one.
-/

import Mathlib.Data.List.Perm.Basic

namespace KineticSdk
namespace Lib
namespace Slots

variable {α β : Type} {xs : List α} {i j : Nat} {x y : α}

theorem getElem?_set_cases (h : (xs.set i x)[j]? = some y) :
    (j = i ∧ y = x) ∨ (j ≠ i ∧ xs[j]? = some y) := by
  rw [List.getElem?_set] at h
  by_cases hij : i = j
  · rw [if_pos hij] at h
    split_ifs at h
    exact .inl ⟨hij.symm, (Option.some.inj h).symm⟩
  · rw [if_neg hij] at h
    exact .inr ⟨fun hji => hij hji.symm, h⟩

theorem mem_set_cases (h : y ∈ xs.set i x) : y = x ∨ ∃ j : Nat, j ≠ i ∧ xs[j]? = some y := by
  obtain ⟨j, hj⟩ := List.mem_iff_getElem?.mp h
  rcases getElem?_set_cases hj with ⟨-, rfl⟩ | ⟨hne, hj⟩
  · exact .inl rfl
  · exact .inr ⟨j, hne, hj⟩

theorem getElem?_snoc_cases (h : (xs ++ [x])[j]? = some y) :
    (j = xs.length ∧ y = x) ∨ xs[j]? = some y := by
  rw [List.getElem?_append] at h
  split_ifs at h with hlt
  · exact .inr h
  · have hlen := (List.getElem?_eq_some_iff.mp h).1
    rw [List.length_singleton] at hlen
    have hj : j = xs.length := by omega
    rw [hj, Nat.sub_self] at h
    exact .inl ⟨hj, (Option.some.inj h).symm⟩

/-- What the slots show, before and after one of them is set: each side lacks what
    the other's slot shows. -/
theorem filterMap_set_perm (f : α → Option β) (h : xs[i]? = some x) (y : α) :
    ((xs.set i y).filterMap f ++ (f x).toList).Perm (xs.filterMap f ++ (f y).toList) := by
  obtain ⟨hlt, hx⟩ := List.getElem?_eq_some_iff.mp h
  have hset := (List.set_perm_cons_eraseIdx hlt y).filterMap f
  have hself := (List.getElem_cons_eraseIdx_perm hlt).symm.filterMap f
  rw [hx] at hself
  have hcons : ∀ a : α, ((a :: xs.eraseIdx i).filterMap f).Perm
      ((xs.eraseIdx i).filterMap f ++ (f a).toList) := by
    intro a
    cases ha : f a with
    | none => simp [ha]
    | some b =>
        rw [List.filterMap_cons_some ha]
        exact (List.perm_append_singleton b _).symm
  calc (xs.set i y).filterMap f ++ (f x).toList
      |>.Perm ((xs.eraseIdx i).filterMap f ++ (f y).toList ++ (f x).toList) :=
        (hset.trans (hcons y)).append_right _
    _ |>.Perm ((xs.eraseIdx i).filterMap f ++ (f x).toList ++ (f y).toList) := by
        rw [List.append_assoc, List.append_assoc]
        exact List.perm_append_comm.append_left _
    _ |>.Perm (xs.filterMap f ++ (f y).toList) := (hself.trans (hcons x)).symm.append_right _

end Slots
end Lib
end KineticSdk
