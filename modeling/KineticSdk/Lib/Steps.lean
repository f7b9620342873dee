/-
  KineticSdk.Lib.Steps

  Systems that take one step for each event.

  `Meets step C s es` says that every event of a run meets the condition `C` in
  the state it happens in.  An invariant that such steps keep holds in every
  state the run reaches (`Meets.keeps`); `Always step P s es` says that `P` holds
  in every state of the run.
-/

import Mathlib.Data.List.Induction

namespace KineticSdk
namespace Lib
namespace Steps

variable {S E : Type} {step : S → E → S} {C : S → E → Prop} {s : S} {es fs : List E}

/-- The state after the events. -/
def run (step : S → E → S) (s : S) (es : List E) : S := es.foldl step s

@[simp] theorem run_nil (step : S → E → S) (s : S) : run step s [] = s := rfl

@[simp] theorem run_cons (step : S → E → S) (s : S) (e : E) (es : List E) :
    run step s (e :: es) = run step (step s e) es := rfl

theorem run_append (step : S → E → S) (s : S) (es fs : List E) :
    run step s (es ++ fs) = run step (run step s es) fs := List.foldl_append

/-- Every event meets the condition in the state it happens in. -/
def Meets (step : S → E → S) (C : S → E → Prop) : S → List E → Prop
  | _, [] => True
  | s, e :: es => C s e ∧ Meets step C (step s e) es

instance decidableMeets [∀ s e, Decidable (C s e)] : (s : S) → (es : List E) →
    Decidable (Meets step C s es)
  | _, [] => isTrue trivial
  | s, e :: es =>
      have := decidableMeets (step s e) es
      inferInstanceAs (Decidable (C s e ∧ Meets step C (step s e) es))

/-- An invariant of the steps that meet the condition is one of the runs. -/
theorem Meets.keeps {I : S → Prop} (h : Meets step C s es)
    (hstep : ∀ s e, I s → C s e → I (step s e)) (hs : I s) : I (run step s es) := by
  induction es generalizing s with
  | nil => exact hs
  | cons e es ih => exact ih h.2 (hstep s e hs h.1)

theorem Meets.mono {C' : S → E → Prop} (h : Meets step C s es) (hC : ∀ s e, C s e → C' s e) :
    Meets step C' s es := by
  induction es generalizing s with
  | nil => exact trivial
  | cons e es ih => exact ⟨hC s e h.1, ih h.2⟩

/-- A condition on the events alone. -/
theorem meets_of_forall {C : E → Prop} (h : ∀ e ∈ es, C e) (s : S) : Meets step (fun _ e => C e) s es := by
  induction es generalizing s with
  | nil => exact trivial
  | cons e es ih => exact ⟨h e List.mem_cons_self, ih (fun e' he => h e' (List.mem_cons_of_mem _ he)) (step s e)⟩

/-- The property holds in every state the run passes. -/
def Always (step : S → E → S) (P : S → Prop) : S → List E → Prop
  | s, [] => P s
  | s, e :: es => P s ∧ Always step P (step s e) es

/-- What an invariant of the steps that meet the condition implies holds all along
    the runs. -/
theorem Meets.always {I P : S → Prop} (h : Meets step C s es)
    (hkeep : ∀ s e, I s → C s e → I (step s e)) (hIP : ∀ s, I s → P s) (hs : I s) :
    Always step P s es := by
  induction es generalizing s with
  | nil => exact hIP s hs
  | cons e es ih => exact ⟨hIP s hs, ih h.2 (hkeep s e hs h.1)⟩

/-- A property holds all along a run exactly when every event meets the condition
    that keeps it and that it needs. -/
theorem always_iff_meets {I P : S → Prop} (hkeep : ∀ s e, I s → C s e → I (step s e))
    (hneed : ∀ s e, I s → P (step s e) → C s e) (hIP : ∀ s, I s → P s) (hs : I s) (es : List E) :
    Always step P s es ↔ Meets step C s es := by
  refine ⟨fun h => ?_, fun h => h.always hkeep hIP hs⟩
  induction es generalizing s with
  | nil => exact trivial
  | cons e es ih =>
      have hnext : P (step s e) := by
        cases es with
        | nil => exact h.2
        | cons f fs => exact h.2.1
      have hC := hneed s e hs hnext
      exact ⟨hC, ih (hkeep s e hs hC) h.2⟩

/-- An invariant of all steps is one of all runs. -/
theorem run_keeps {I : S → Prop} (hstep : ∀ s e, I s → I (step s e)) (hs : I s) (es : List E) :
    I (run step s es) := by
  induction es generalizing s with
  | nil => exact hs
  | cons e es ih => exact ih (hstep s e hs)

end Steps
end Lib
end KineticSdk
