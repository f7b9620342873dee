/-
  KineticSdk.Lib.Wp

  Weakest preconditions for computations with a state and exceptions.

  `EStateM ε σ` is the monad of a program whose exceptions leave the state as
  it was when they were raised.  `Wp x Q E s` says what running `x` in `s`
  establishes: `Q` of the value and the final state when it returns, `E` of
  the exception and the state when it throws.  The rules below push `Wp`
  through a program one statement at a time; a caller uses a callee's
  specification through `Wp.mono`.

  `Keeps I J x` is the invariant form: started in `I`, code that returns is in
  `I` again, and code that throws leaves `J`.
-/

import Mathlib.Logic.Basic

namespace KineticSdk
namespace Lib

variable {ε σ α β : Type}

/-- What running `x` in `s` establishes. -/
def Wp (x : EStateM ε σ α) (Q : α → σ → Prop) (E : ε → σ → Prop) (s : σ) : Prop :=
  match x s with
  | .ok a s' => Q a s'
  | .error e s' => E e s'

-- ============================================================================
-- The rules
-- ============================================================================

section Rules

variable {Q : α → σ → Prop} {E : ε → σ → Prop} {s : σ}

@[simp] theorem wp_pure (a : α) : Wp (pure a : EStateM ε σ α) Q E s ↔ Q a s := Iff.rfl

@[simp] theorem wp_throw (e : ε) : Wp (throw e : EStateM ε σ α) Q E s ↔ E e s := Iff.rfl

@[simp] theorem wp_get {Q : σ → σ → Prop} : Wp (get : EStateM ε σ σ) Q E s ↔ Q s s := Iff.rfl

@[simp] theorem wp_modify {Q : PUnit → σ → Prop} (f : σ → σ) :
    Wp (modify f : EStateM ε σ PUnit) Q E s ↔ Q ⟨⟩ (f s) := Iff.rfl

@[simp] theorem wp_modifyGet (f : σ → α × σ) :
    Wp (modifyGet f : EStateM ε σ α) Q E s ↔ Q (f s).1 (f s).2 := Iff.rfl

@[simp] theorem wp_bind {Q : β → σ → Prop} (x : EStateM ε σ α) (f : α → EStateM ε σ β) :
    Wp (x >>= f) Q E s ↔ Wp x (fun a s' => Wp (f a) Q E s') E s := by
  have hb : (x >>= f) s = match x s with
      | .ok a s' => f a s'
      | .error e s' => .error e s' := rfl
  unfold Wp
  rw [hb]
  cases x s <;> rfl

@[simp] theorem wp_map {Q : β → σ → Prop} (f : α → β) (x : EStateM ε σ α) :
    Wp (f <$> x) Q E s ↔ Wp x (fun a s' => Q (f a) s') E s := by
  have hm : (f <$> x) s = match x s with
      | .ok a s' => .ok (f a) s'
      | .error e s' => .error e s' := rfl
  unfold Wp
  rw [hm]
  cases x s <;> rfl

@[simp] theorem wp_tryCatch (x : EStateM ε σ α) (handle : ε → EStateM ε σ α) :
    Wp (tryCatch x handle) Q E s ↔ Wp x Q (fun e s' => Wp (handle e) Q E s') s := by
  have ht : (tryCatch x handle : EStateM ε σ α) s = match x s with
      | .ok a s' => .ok a s'
      | .error e s' => handle e s' := by
    show EStateM.tryCatch x handle s = _
    unfold EStateM.tryCatch
    cases x s <;> rfl
  unfold Wp
  rw [ht]
  cases x s <;> rfl

theorem wp_ite {c : Prop} [Decidable c] (x y : EStateM ε σ α) :
    Wp (if c then x else y) Q E s ↔ (c → Wp x Q E s) ∧ (¬ c → Wp y Q E s) := by
  by_cases h : c <;> simp [h]

end Rules

-- ============================================================================
-- Using a specification
-- ============================================================================

theorem Wp.mono {x : EStateM ε σ α} {Q Q' : α → σ → Prop} {E E' : ε → σ → Prop} {s : σ}
    (h : Wp x Q E s) (hQ : ∀ a s', Q a s' → Q' a s') (hE : ∀ e s', E e s' → E' e s') :
    Wp x Q' E' s := by
  unfold Wp at h ⊢
  cases hx : x s with
  | ok a s' =>
      rw [hx] at h
      exact hQ a s' h
  | error e s' =>
      rw [hx] at h
      exact hE e s' h

theorem Wp.and {x : EStateM ε σ α} {Q Q' : α → σ → Prop} {E E' : ε → σ → Prop} {s : σ}
    (h : Wp x Q E s) (h' : Wp x Q' E' s) :
    Wp x (fun a s' => Q a s' ∧ Q' a s') (fun e s' => E e s' ∧ E' e s') s := by
  unfold Wp at h h' ⊢
  cases hx : x s with
  | ok a s' =>
      rw [hx] at h h'
      exact ⟨h, h'⟩
  | error e s' =>
      rw [hx] at h h'
      exact ⟨h, h'⟩

theorem Wp.of_ok {x : EStateM ε σ α} {Q : α → σ → Prop} {E : ε → σ → Prop} {s s' : σ} {a : α}
    (h : Wp x Q E s) (hx : x s = .ok a s') : Q a s' := by
  unfold Wp at h
  rwa [hx] at h

theorem Wp.of_error {x : EStateM ε σ α} {Q : α → σ → Prop} {E : ε → σ → Prop} {s s' : σ} {e : ε}
    (h : Wp x Q E s) (hx : x s = .error e s') : E e s' := by
  unfold Wp at h
  rwa [hx] at h

theorem wp_of_ok {x : EStateM ε σ α} {Q : α → σ → Prop} {E : ε → σ → Prop} {s s' : σ} {a : α}
    (hx : x s = .ok a s') (h : Q a s') : Wp x Q E s := by
  unfold Wp
  rwa [hx]

-- ============================================================================
-- Invariants
-- ============================================================================

/-- `x` keeps `I` when it returns, and leaves `J` behind when it throws. -/
def Keeps (I J : σ → Prop) (x : EStateM ε σ α) : Prop :=
  ∀ s, I s → Wp x (fun _ s' => I s') (fun _ s' => J s') s

namespace Keeps

variable {I J : σ → Prop}

theorem pure (a : α) : Keeps I J (pure a : EStateM ε σ α) := fun _ h => h

theorem get : Keeps I J (get : EStateM ε σ σ) := fun _ h => h

theorem throw (h : ∀ s, I s → J s) (e : ε) : Keeps I J (throw e : EStateM ε σ α) := h

theorem modify {f : σ → σ} (h : ∀ s, I s → I (f s)) :
    Keeps I J (modify f : EStateM ε σ PUnit) := h

theorem bind {x : EStateM ε σ α} {f : α → EStateM ε σ β} (hx : Keeps I J x)
    (hf : ∀ a, Keeps I J (f a)) : Keeps I J (x >>= f) := by
  intro s h
  rw [wp_bind]
  exact (hx s h).mono (fun a s' h' => hf a s' h') (fun _ _ h' => h')

theorem ite {c : Prop} [Decidable c] {x y : EStateM ε σ α} (hx : Keeps I J x)
    (hy : Keeps I J y) : Keeps I J (if c then x else y) := by
  by_cases h : c
  · rwa [if_pos h]
  · rwa [if_neg h]

end Keeps

-- ============================================================================
-- Exceptions without a state
-- ============================================================================

/-- A computation that returns has returned all the way. -/
theorem bind_ok {x : Except ε α} {f : α → Except ε β} {b : β} (h : x >>= f = .ok b) :
    ∃ a, x = .ok a ∧ f a = .ok b := by
  cases x with
  | error e => cases h
  | ok a => exact ⟨a, rfl, h⟩

end Lib
end KineticSdk
