/-
  KineticSdk.Lib.Appends

  What a computation appends to a log in its state.

  `Appends log x G E` says that `x` only ever appends to the log, that `G` holds
  of its value and what it appended when it returns, and `E` of what it
  appended when it throws.  Nothing else of the state is spoken of, so the
  rules compose by concatenation alone.
-/

import KineticSdk.Lib.Wp
import Mathlib.Data.List.Basic

namespace KineticSdk
namespace Lib

variable {ε σ τ α β : Type}

/-- What `x` appends to the log, when it returns and when it throws. -/
def Appends (log : σ → List τ) (x : EStateM ε σ α) (G : α → List τ → Prop)
    (E : List τ → Prop) : Prop :=
  ∀ s, Wp x (fun a s' => ∃ as, log s' = log s ++ as ∧ G a as)
    (fun _ s' => ∃ as, log s' = log s ++ as ∧ E as) s

namespace Appends

variable {log : σ → List τ} {G : α → List τ → Prop} {E : List τ → Prop}

theorem pure {a : α} (h : G a []) : Appends log (pure a : EStateM ε σ α) G E :=
  fun s => ⟨[], (List.append_nil (log s)).symm, h⟩

theorem throw {e : ε} (h : E []) : Appends log (throw e : EStateM ε σ α) G E :=
  fun s => ⟨[], (List.append_nil (log s)).symm, h⟩

theorem mono {x : EStateM ε σ α} {G' : α → List τ → Prop} {E' : List τ → Prop}
    (hx : Appends log x G E) (hG : ∀ a as, G a as → G' a as) (hE : ∀ as, E as → E' as) :
    Appends log x G' E' := by
  intro s
  apply (hx s).mono
  · rintro a s' ⟨as, hlog, ha⟩
    exact ⟨as, hlog, hG a as ha⟩
  · rintro _ s' ⟨as, hlog, he⟩
    exact ⟨as, hlog, hE as he⟩

/-- What the second computation appends comes behind what the first did. -/
theorem bind {x : EStateM ε σ α} {f : α → EStateM ε σ β} {G' : β → List τ → Prop}
    {E' : List τ → Prop} (hx : Appends log x G E)
    (hf : ∀ a as, G a as →
      Appends log (f a) (fun b bs => G' b (as ++ bs)) (fun bs => E' (as ++ bs)))
    (hE : ∀ as, E as → E' as) : Appends log (x >>= f) G' E' := by
  intro s
  rw [wp_bind]
  apply (hx s).mono
  · rintro a s₁ ⟨as, hlog, ha⟩
    apply (hf a as ha s₁).mono
    · rintro b s₂ ⟨bs, hlog', hb⟩
      exact ⟨as ++ bs, by rw [hlog', hlog, List.append_assoc], hb⟩
    · rintro _ s₂ ⟨bs, hlog', hb⟩
      exact ⟨as ++ bs, by rw [hlog', hlog, List.append_assoc], hb⟩
  · rintro _ s₁ ⟨as, hlog, he⟩
    exact ⟨as, hlog, hE as he⟩

/-- The next step of code that first appends an entry. -/
theorem after_write {f : σ → σ} {a : τ} {g : PUnit → EStateM ε σ α}
    (hf : ∀ s, log (f s) = log s ++ [a])
    (hg : Appends log (g ⟨⟩) (fun b as => G b (a :: as)) fun as => E (a :: as)) :
    Appends log (modify f >>= g) G E := by
  intro s
  rw [wp_bind, wp_modify]
  apply (hg (f s)).mono
  · rintro b s' ⟨as, hlog, hb⟩
    exact ⟨a :: as, by rw [hlog, hf, List.append_assoc, List.singleton_append], hb⟩
  · rintro _ s' ⟨as, hlog, he⟩
    exact ⟨a :: as, by rw [hlog, hf, List.append_assoc, List.singleton_append], he⟩

/-- The next step of code that first changes something else. -/
theorem after_silent {f : σ → σ} {g : PUnit → EStateM ε σ α} (hf : ∀ s, log (f s) = log s)
    (hg : Appends log (g ⟨⟩) G E) : Appends log (modify f >>= g) G E := by
  intro s
  rw [wp_bind, wp_modify]
  have hnext := hg (f s)
  rwa [hf s] at hnext

theorem map {x : EStateM ε σ α} {f : α → β} {G : β → List τ → Prop}
    (hx : Appends log x (fun a => G (f a)) E) : Appends log (f <$> x) G E := by
  intro s
  rw [wp_map]
  exact hx s

theorem ite {c : Prop} [Decidable c] {x y : EStateM ε σ α} (hx : c → Appends log x G E)
    (hy : ¬ c → Appends log y G E) : Appends log (if c then x else y) G E := by
  by_cases h : c
  · rw [if_pos h]
    exact hx h
  · rw [if_neg h]
    exact hy h

/-- What a handler appends comes behind what was appended before the throw. -/
theorem tryCatch {x : EStateM ε σ α} {handle : ε → EStateM ε σ α} {E' : List τ → Prop}
    (hx : Appends log x G E')
    (hh : ∀ e as, E' as →
      Appends log (handle e) (fun a bs => G a (as ++ bs)) (fun bs => E (as ++ bs))) :
    Appends log (tryCatch x handle) G E := by
  intro s
  rw [wp_tryCatch]
  apply (hx s).mono
  · exact fun _ _ h => h
  · rintro e s₁ ⟨as, hlog, he⟩
    apply (hh e as he s₁).mono
    · rintro a s₂ ⟨bs, hlog', hb⟩
      exact ⟨as ++ bs, by rw [hlog', hlog, List.append_assoc], hb⟩
    · rintro _ s₂ ⟨bs, hlog', hb⟩
      exact ⟨as ++ bs, by rw [hlog', hlog, List.append_assoc], hb⟩

end Appends

end Lib
end KineticSdk
