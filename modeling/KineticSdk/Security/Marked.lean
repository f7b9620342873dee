/-
  KineticSdk.Security.Marked

  Redaction leaves a mark: what it changes has a `[` in it afterwards.

  Each of the ten substitutions puts `[REDACTED]` for what it takes away, so a
  text comes out as it was or with a mark, and the marks of the earlier ones do
  not get lost.
-/

import KineticSdk.Security.Redact
import Mathlib.Data.List.Infix

namespace KineticSdk
namespace Security

open Py Py.Regex

/-- A replacement loop changes nothing or leaves what every replacement holds. -/
theorem subLoop_keeps_or_shows (re : Regex) {repl : Match → PyStr} {shown : PyStr}
    (hshown : ∀ m, shown <:+: repl m) (prev : Option Nat) (text : PyStr) :
    subLoop re repl prev 0 text = text ∨ shown <:+: subLoop re repl prev 0 text := by
  induction text generalizing prev with
  | nil => exact .inl rfl
  | cons c cs ih =>
      have hkeep : c :: subLoop re repl (some c) 0 cs = c :: cs ∨
          shown <:+: c :: subLoop re repl (some c) 0 cs :=
        (ih (some c)).imp (congrArg (List.cons c)) List.infix_cons
      rw [subLoop]
      cases hm : matchAt re prev (c :: cs) with
      | none => exact hkeep
      | some m =>
          dsimp only
          by_cases hlen : m.length = 0
          · rw [if_pos hlen]
            exact hkeep
          · rw [if_neg hlen]
            exact .inr ((hshown m).trans (List.infix_append' [] _ _))

/-- A text in which a replacement does not show is the text it got. -/
theorem sub_unmarked (re : Regex) {repl : Match → PyStr} {shown : PyStr}
    (hshown : ∀ m, shown <:+: repl m) {text : PyStr} (h : ¬ shown <:+: re.sub repl text) :
    re.sub repl text = text ∧ ¬ shown <:+: text := by
  have heq : re.sub repl text = text := (subLoop_keeps_or_shows re hshown none text).resolve_right h
  rw [heq] at h
  exact ⟨heq, h⟩

theorem redactSecrets_unmarked {text : PyStr} (h : ¬ redacted <:+: redactSecrets text) :
    redactSecrets text = text := by
  have hall : ∀ _ : Match, redacted <:+: redacted := fun _ => List.infix_refl _
  unfold redactSecrets at h ⊢
  dsimp only at h ⊢
  -- from the last pattern back to the first
  obtain ⟨hjson, h⟩ := sub_unmarked jsonSecretValueRe (fun m => ⟨_, _, rfl⟩) h
  obtain ⟨hshort, h⟩ := sub_unmarked shortAssignedSecretRe (fun m => ⟨_, _, rfl⟩) h
  obtain ⟨henv, h⟩ := sub_unmarked envSecretRe (fun m => ⟨_, [], List.append_nil _⟩) h
  obtain ⟨hkeyword, h⟩ := sub_unmarked keywordTokenRe (fun m => ⟨_, _, rfl⟩) h
  obtain ⟨hurl, h⟩ := sub_unmarked urlCredentialRe (fun m => ⟨_, _, rfl⟩) h
  obtain ⟨hknown, h⟩ := sub_unmarked knownTokenRe hall h
  obtain ⟨hgoogle, h⟩ := sub_unmarked googleApiKeyRe hall h
  obtain ⟨hslack, h⟩ := sub_unmarked slackTokenRe hall h
  obtain ⟨hjwt, h⟩ := sub_unmarked bearerJwtRe hall h
  obtain ⟨hpem, -⟩ := sub_unmarked pemKeyRe hall h
  rw [hjson, hshort, henv, hkeyword, hurl, hknown, hgoogle, hslack, hjwt, hpem]

/-- The first character of the mark. -/
def mark : Nat := 91

/-- A text comes out of the redaction as it was, or with a mark. -/
theorem redactSecrets_marked (s : PyStr) : redactSecrets s = s ∨ mark ∈ redactSecrets s := by
  by_cases h : redacted <:+: redactSecrets s
  · exact .inr (h.subset (by decide))
  · exact .inl (redactSecrets_unmarked h)

/-- Only a text itself is redacted to a text without a mark. -/
theorem redactSecrets_eq_iff {s t : PyStr} (ht : mark ∉ t) (hself : redactSecrets t = t) :
    redactSecrets s = t ↔ s = t := by
  constructor
  · intro h
    rcases redactSecrets_marked s with hsame | hmark
    · exact hsame.symm.trans h
    · exact absurd (h ▸ hmark) ht
  · rintro rfl
    exact hself

/-- Redaction empties no text. -/
theorem redactSecrets_eq_nil_iff (s : PyStr) : redactSecrets s = [] ↔ s = [] :=
  redactSecrets_eq_iff List.not_mem_nil rfl

-- ============================================================================
-- Values
-- ============================================================================

theorem isEmpty_redactFields (kvs : Dict) : (redactFields kvs).isEmpty = kvs.isEmpty := by
  rcases kvs with _ | ⟨⟨k, v⟩, kvs⟩
  · rfl
  · cases v <;> rfl

/-- Redaction keeps whether a value counts as true. -/
theorem truthy_redactValue (v : Json) : (redactValue v).truthy = v.truthy := by
  cases v with
  | str s =>
      show (redactSecrets s != []) = (s != [])
      rw [Bool.eq_iff_iff, bne_iff_ne, bne_iff_ne, ne_eq, ne_eq, redactSecrets_eq_nil_iff]
  | arr xs => cases xs <;> rfl
  | obj kvs => exact congrArg (! ·) (isEmpty_redactFields kvs)
  | _ => rfl

/-- A value under a key that does not name a secret is redacted as it is anywhere else. -/
theorem get?_redactFields {key : PyStr} (hkey : sensitiveKey key = false) (kvs : Dict) :
    Dict.get? (redactFields kvs) key = (Dict.get? kvs key).map redactValue := by
  induction kvs with
  | nil => rfl
  | cons kv kvs ih =>
      obtain ⟨k, v⟩ := kv
      have hvalue : ∃ w, redactFields ((k, v) :: kvs) = (k, w) :: redactFields kvs ∧
          (k = key → w = redactValue v) := by
        cases v with
        | str s =>
            refine ⟨_, rfl, fun heq => ?_⟩
            rw [heq, hkey]
            rfl
        | _ => exact ⟨_, rfl, fun _ => rfl⟩
      obtain ⟨w, hcons, hw⟩ := hvalue
      rw [hcons, Dict.get?_cons, Dict.get?_cons, ih]
      by_cases heq : k = key
      · rw [if_pos heq, if_pos heq, hw heq]
        rfl
      · rw [if_neg heq, if_neg heq]

end Security
end KineticSdk
