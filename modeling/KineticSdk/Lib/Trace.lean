/-
  KineticSdk.Lib.Trace

  Safety properties of a trace in which every action must be allowed by the
  actions before it.

  `Guarded G t` says that `G` holds between each action of `t` and everything
  in front of it.  Traces are built by appending, and guarding them part by
  part is enough.
-/

import Mathlib.Data.List.Induction

namespace KineticSdk
namespace Lib

variable {α : Type _}

/-- Every action of the trace is allowed by the actions before it. -/
def Guarded (G : List α → α → Prop) (t : List α) : Prop :=
  ∀ pre a post, t = pre ++ a :: post → G pre a

namespace Guarded

variable {G : List α → α → Prop}

theorem nil : Guarded G [] := by
  intro pre a post h
  simp at h

/-- An action no history can forbid. -/
theorem of_forall {t : List α} (h : ∀ a ∈ t, ∀ pre, G pre a) : Guarded G t := by
  intro pre a post ht
  exact h a (by simp [ht]) pre

theorem append {t u : List α} (ht : Guarded G t) (hu : Guarded (fun pre a => G (t ++ pre) a) u) :
    Guarded G (t ++ u) := by
  intro pre a post h
  rcases List.append_eq_append_iff.mp h with ⟨mid, rfl, hu'⟩ | ⟨mid, rfl, ha⟩
  · exact hu mid a post hu'
  · cases mid with
    | nil =>
        simp only [List.nil_append] at ha
        have hfront := hu [] a post ha.symm
        simpa using hfront
    | cons b mid =>
        obtain ⟨rfl, -⟩ : a = b ∧ post = mid ++ u := by simpa using ha
        exact ht pre a mid rfl

theorem mono {G' : List α → α → Prop} {t : List α} (ht : Guarded G t)
    (h : ∀ pre a, G pre a → G' pre a) : Guarded G' t :=
  fun pre a post ht' => h pre a (ht pre a post ht')

theorem of_append {t u : List α} (h : Guarded G (t ++ u)) : Guarded G t := by
  intro pre a post ht
  exact h pre a (post ++ u) (by simp [ht])

/-- Two guards that agree wherever the first has held so far guard the same
    traces. -/
theorem congr {G' : List α → α → Prop} {t : List α}
    (h : ∀ pre a post, t = pre ++ a :: post → Guarded G pre → (G pre a ↔ G' pre a)) :
    Guarded G t ↔ Guarded G' t := by
  constructor
  · intro ht pre a post hsplit
    exact (h pre a post hsplit (of_append (hsplit ▸ ht))).mp (ht pre a post hsplit)
  · intro ht pre
    -- the guards agree at `pre` once `G` is known in front of it
    induction hlen : pre.length using Nat.strongRecOn generalizing pre with
    | _ n ih =>
        intro a post hsplit
        refine (h pre a post hsplit ?_).mpr (ht pre a post hsplit)
        intro pre' b post' hpre
        refine ih pre'.length ?_ pre' rfl b (post' ++ a :: post) (by simp [hsplit, hpre])
        rw [← hlen, hpre, List.length_append, List.length_cons]
        omega

theorem snoc_iff {t : List α} {a : α} : Guarded G (t ++ [a]) ↔ Guarded G t ∧ G t a := by
  constructor
  · exact fun h => ⟨of_append h, h t a [] rfl⟩
  · rintro ⟨ht, ha⟩
    refine append ht ?_
    intro pre b post h
    rcases List.cons_eq_append_iff.mp h with ⟨rfl, hb⟩ | ⟨pre', rfl, hb⟩
    · obtain ⟨rfl, -⟩ := List.cons.inj hb
      simpa using ha
    · simp at hb

/-- Guarding what remains of a trace after a selection. -/
theorem filterMap_iff {β : Type _} (f : α → Option β) {G : List β → β → Prop} {t : List α} :
    Guarded G (t.filterMap f) ↔
      Guarded (fun pre a => ∀ b, f a = some b → G (pre.filterMap f) b) t := by
  induction t using List.reverseRecOn with
  | nil => simp [nil]
  | append_singleton t a ih =>
      rw [List.filterMap_append, snoc_iff]
      cases hf : f a with
      | none => simp [hf, ih]
      | some b => simp [hf, snoc_iff, ih]

/-- A trace is checked front to back. -/
theorem cons_iff {G : List α → α → Prop} {a : α} {t : List α} :
    Guarded G (a :: t) ↔ G [] a ∧ Guarded (fun pre => G (a :: pre)) t := by
  constructor
  · intro h
    exact ⟨h [] a t rfl, fun pre b post ht => h (a :: pre) b post (by rw [ht]; rfl)⟩
  · rintro ⟨ha, ht⟩
    exact append (t := [a]) (snoc_iff.mpr ⟨nil, ha⟩) ht

/-- Guards that can be decided make traces decidable. -/
instance decidable : (G : List α → α → Prop) → [∀ pre a, Decidable (G pre a)] → (t : List α) →
    Decidable (Guarded G t)
  | _, _, [] => isTrue nil
  | G, _, a :: t =>
      have := decidable (fun pre => G (a :: pre)) t
      decidable_of_iff (G [] a ∧ Guarded (fun pre => G (a :: pre)) t) cons_iff.symm

end Guarded

end Lib
end KineticSdk
