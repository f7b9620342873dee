/-
  KineticSdk.Lib.Window

  Sliding windows over a list of times.

  `recent w now ts` are the times that are less than `w` old.  Where every time
  came when fewer than `n` were recent (`Spaced`), no `n + 1` of them lie within
  a window of length `w` (`Spaced.countP_le`), whichever end the window leaves
  out.
-/

import Mathlib.Algebra.Order.Group.Basic
import Mathlib.Data.List.Basic

namespace KineticSdk
namespace Lib
namespace Window

variable {T : Type} [AddCommGroup T] [LinearOrder T] {w now later t : T} {n : Nat} {ts : List T}

/-- The times that are less than `w` old. -/
def recent (w now : T) (ts : List T) : List T := ts.filter fun x => now - w < x

theorem mem_recent {x : T} : x ∈ recent w now ts ↔ x ∈ ts ∧ now - w < x := by
  unfold recent
  rw [List.mem_filter, decide_eq_true_iff]

theorem recent_append (w now : T) (ts us : List T) :
    recent w now (ts ++ us) = recent w now ts ++ recent w now us := List.filter_append ..

/-- Of sorted times the old ones stand in front. -/
theorem dropWhile_eq_recent (h : ts.Pairwise (· ≤ ·)) :
    ts.dropWhile (fun x => x ≤ now - w) = recent w now ts := by
  induction ts with
  | nil => rfl
  | cons t ts ih =>
      obtain ⟨hle, hts⟩ := List.pairwise_cons.mp h
      by_cases ht : t ≤ now - w
      · have hold : ¬ now - w < t := not_lt.mpr ht
        rw [List.dropWhile_cons_of_pos (by simpa using ht), ih hts]
        simp [recent, hold]
      · have hall : ∀ x ∈ t :: ts, now - w < x := by
          intro x hx
          rcases List.mem_cons.mp hx with rfl | hx
          · exact not_le.mp ht
          · exact lt_of_lt_of_le (not_le.mp ht) (hle x hx)
        rw [List.dropWhile_cons_of_neg (by simpa using ht)]
        exact (List.filter_eq_self.mpr fun x hx => decide_eq_true (hall x hx)).symm

/-- Every time came when fewer than `n` were recent. -/
inductive Spaced (w : T) (n : Nat) : List T → Prop where
  | nil : Spaced w n []
  | snoc {ts : List T} {t : T} (h : Spaced w n ts) (ht : (recent w t ts).length < n) :
      Spaced w n (ts ++ [t])

variable [IsOrderedAddMonoid T]

theorem recent_recent (h : now ≤ later) : recent w later (recent w now ts) = recent w later ts := by
  unfold recent
  rw [List.filter_filter]
  refine List.filter_congr fun x _ => ?_
  have hle : now - w ≤ later - w := sub_le_sub_right h w
  have hlt : later - w < x → now - w < x := fun hx => lt_of_le_of_lt hle hx
  simpa using hlt

/-- A window of length `w`, one end of it left out, holds at most `n` times. -/
theorem Spaced.countP_le {p : T → Bool} (h : Spaced w n ts)
    (hp : ∀ x y, p x = true → p y = true → y < x + w) : ts.countP p ≤ n := by
  induction h with
  | nil => exact Nat.zero_le n
  | @snoc ts t _ ht ih =>
      rw [List.countP_append, List.countP_singleton]
      by_cases hpt : p t = true
      · have hle : ts.countP p ≤ (recent w t ts).length := by
          unfold recent
          rw [← List.countP_eq_length_filter]
          refine List.countP_mono_left fun x _ hx => ?_
          exact decide_eq_true (sub_lt_iff_lt_add.mpr (hp x t hx hpt))
        rw [if_pos hpt]
        omega
      · rw [if_neg hpt]
        exact ih

end Window
end Lib
end KineticSdk
