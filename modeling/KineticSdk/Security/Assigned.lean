/-
  KineticSdk.Security.Assigned

  What `redact_secrets` makes of a secret behind its label.

  Three rules can take the value: the keyword rule a long run of token
  characters, the environment rule whatever is assigned with `=`, and the short
  rule four to nineteen characters.  The rules before them only rewrite the value
  (`sub_assigned`), but that may change how long it is when the short rule comes.
-/

import KineticSdk.Py.Greedy
import KineticSdk.Security.Redact

namespace KineticSdk
namespace Security

open Py Py.Regex

-- ============================================================================
-- Secrets behind labels
-- ============================================================================

/-- A character of a value: no whitespace and no quote. -/
def ValueChar (c : Nat) : Prop := isSpace c = false ∧ c ≠ 34 ∧ c ≠ 39

/-- A text that holds an assigned value. -/
def IsValue (v : PyStr) : Prop := v ≠ [] ∧ ∀ c ∈ v, ValueChar c

/-- A label, a separator, spaces and a value. -/
def assigned (label : PyStr) (sep n : Nat) (v : PyStr) : PyStr := label ++ sep :: (List.replicate n 32 ++ v)

/-- No match of the pattern begins in the label, at the `=` or in the spaces. -/
structure BeginsLater (re : Regex) : Prop where
  password : ∀ rest, Passes re none (py "password") (61 :: rest)
  secret : ∀ rest, Passes re none (py "secret") (61 :: rest)
  equals : ∀ prev rest, matchAt re prev (61 :: rest) = none
  space : ∀ prev rest, matchAt re prev (32 :: rest) = none

/-- What a rule puts is made of characters of a value. -/
structure PutsValue (repl : Match → PyStr) : Prop where
  chars : ∀ m : Match, (∀ n, ∀ x ∈ m.group n, ValueChar x) → ∀ x ∈ repl m, ValueChar x
  nonempty : ∀ m, repl m ≠ []

/-- What a replacement makes of a value is a value. -/
theorem isValue_subLoop {re : Regex} {repl : Match → PyStr} (hputs : PutsValue repl) {v : PyStr} (hv : IsValue v)
    (prev : Option Nat) : IsValue (subLoop re repl prev 0 v) := by
  refine ⟨?_, forall_mem_subLoop hputs.chars v _ 0 hv.2⟩
  obtain ⟨c, cs, rfl⟩ := List.exists_cons_of_ne_nil hv.1
  rw [subLoop]
  split
  · next m _ =>
      split
      · exact List.cons_ne_nil _ _
      · exact List.append_ne_nil_of_left_ne_nil (hputs.nonempty m) _
  · exact List.cons_ne_nil _ _

theorem assigned_eq (label : PyStr) (sep n : Nat) (v : PyStr) :
    assigned label sep n v = (label ++ sep :: List.replicate n 32) ++ v := by
  rw [List.append_assoc]
  rfl

/-- A rule without a match before the value only rewrites the value. -/
theorem sub_passed {re : Regex} {repl : Match → PyStr} (hputs : PutsValue repl) {label v : PyStr} {sep n : Nat}
    (hpasses : Passes re none (label ++ sep :: List.replicate n 32) v) (hv : IsValue v) :
    ∃ w, IsValue w ∧ re.sub repl (assigned label sep n v) = assigned label sep n w := by
  refine ⟨_, @isValue_subLoop re repl hputs v hv (lastOf none (label ++ sep :: List.replicate n 32)), ?_⟩
  rw [assigned_eq, assigned_eq]
  exact subLoop_skip repl hpasses

theorem BeginsLater.sub {re : Regex} {repl : Match → PyStr} (hre : BeginsLater re) (hputs : PutsValue repl)
    {label v : PyStr} (hlabel : label = py "password" ∨ label = py "secret") (n : Nat) (hv : IsValue v) :
    ∃ w, IsValue w ∧ re.sub repl (assigned label 61 n v) = assigned label 61 n w := by
  have hfirst : ∀ rest, Passes re none label (61 :: rest) := by
    rcases hlabel with rfl | rfl
    · exact hre.password
    · exact hre.secret
  have hspaces : ∀ c ∈ (List.replicate n 32 : PyStr), ∀ prev rest, matchAt re prev (c :: rest) = none := by
    intro c hc
    rw [List.eq_of_mem_replicate hc]
    exact hre.space
  have htail : Passes re (lastOf none label) (61 :: List.replicate n 32) v :=
    ⟨hre.equals _ _, passes_of_noStart hspaces _ _⟩
  exact sub_passed hputs (passes_append (hfirst _) htail) hv

end Security
end KineticSdk
