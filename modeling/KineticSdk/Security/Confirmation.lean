/-
  KineticSdk.Security.Confirmation

  Which literal patterns an `AllowListPolicy` recognises in a tool's input.

  The patterns are matched against the printed input, in which quotes and
  control characters are escaped.  A quote in front of a pattern is found all
  the same, behind the backslash of its escape; a quote further on is not, and
  a control character never is.
-/

import KineticSdk.Py.JsonAscii
import Mathlib.Data.List.Infix
import KineticSdk.Security.Policy

namespace KineticSdk
namespace Security

open Py

-- ============================================================================
-- Literal patterns
-- ============================================================================

/-- The characters that are special in a regular expression. -/
def metachars : PyStr := py ".^$*+?\x7b\x7d[]\\|()"

/-- A pattern without them. -/
def Literal (p : PyStr) : Prop := ∀ c ∈ p, c ∉ metachars

instance (p : PyStr) : Decidable (Literal p) := inferInstanceAs (Decidable (∀ c ∈ p, c ∉ metachars))

/-- `re.search` of a literal pattern looks for its text. -/
def Matching.SearchesLiterals (m : Matching) : Prop :=
  ∀ p text, Literal p → m.search p text = some (hasInfix p text)

theorem hasInfix_iff (sub s : PyStr) : hasInfix sub s = true ↔ sub <:+: s := by
  unfold hasInfix
  rw [List.any_eq_true]
  constructor
  · rintro ⟨t, ht, hstart⟩
    exact (List.isPrefixOf_iff_prefix.mp hstart).isInfix.trans ((List.mem_tails t s).mp ht).isInfix
  · rintro ⟨u, v, rfl⟩
    refine ⟨sub ++ v, (List.mem_tails _ _).mpr ⟨u, (List.append_assoc u sub v).symm⟩, ?_⟩
    exact List.isPrefixOf_iff_prefix.mpr (List.prefix_append sub v)

mutual

/-- The string values in a tool input, at any depth; keys are none. -/
def stringValues : Json → List PyStr
  | .str s => [s]
  | .arr xs => stringValuesList xs
  | .obj kvs => stringValuesFields kvs
  | _ => []

/-- `stringValues` on the elements of a list. -/
def stringValuesList : List Json → List PyStr
  | [] => []
  | x :: xs => stringValues x ++ stringValuesList xs

/-- `stringValues` on the items of a dict. -/
def stringValuesFields : Dict → List PyStr
  | [] => []
  | (_, v) :: kvs => stringValues v ++ stringValuesFields kvs

end

-- ============================================================================
-- A value in the printed input
-- ============================================================================

mutual

/-- Every string value is printed, quotes and all. -/
theorem infix_dumps {s : PyStr} : (v : Json) → s ∈ stringValues v → dumpsStr false s <:+: dumps false v
  | .null, h | .bool true, h | .bool false, h | .int _, h | .float _, h => absurd h List.not_mem_nil
  | .str t, h => by
      rw [List.mem_singleton.mp (show s ∈ [t] from h)]
      exact List.infix_refl _
  | .arr xs, h => List.infix_append_of_infix_left (List.infix_append_of_infix_right (infix_dumpsList xs h))
  | .obj kvs, h => List.infix_append_of_infix_left (List.infix_append_of_infix_right (infix_dumpsFields kvs h))

theorem infix_dumpsList {s : PyStr} : (xs : List Json) → s ∈ stringValuesList xs →
    dumpsStr false s <:+: dumpsList false xs
  | [], h => absurd h List.not_mem_nil
  | [x], h => by
      have hx : s ∈ stringValues x ++ [] := h
      rw [List.append_nil] at hx
      exact infix_dumps x hx
  | x :: y :: xs, h => by
      rcases List.mem_append.mp h with hx | hxs
      · exact List.infix_append_of_infix_left (List.infix_append_of_infix_left (infix_dumps x hx))
      · exact List.infix_append_of_infix_right (infix_dumpsList (y :: xs) hxs)

theorem infix_dumpsFields {s : PyStr} : (kvs : Dict) → s ∈ stringValuesFields kvs →
    dumpsStr false s <:+: dumpsFields false kvs
  | [], h => absurd h List.not_mem_nil
  | [(k, v)], h => by
      have hv : s ∈ stringValues v ++ [] := h
      rw [List.append_nil] at hv
      exact List.infix_append_of_infix_right (infix_dumps v hv)
  | (k, v) :: kv :: kvs, h => by
      rcases List.mem_append.mp h with hv | hkvs
      · exact List.infix_append_of_infix_left (List.infix_append_of_infix_left
          (List.infix_append_of_infix_right (infix_dumps v hv)))
      · exact List.infix_append_of_infix_right (infix_dumpsFields (kv :: kvs) hkvs)

end

/-- The characters of a pattern that are printed as they are: all but quotes and control
    characters. -/
def Shown (p : PyStr) : Prop := ∀ c ∈ p, 32 ≤ c ∧ c ≠ 34

theorem escape_shown {p : PyStr} (hliteral : Literal p) (hshown : Shown p) :
    p.flatMap (escapeChar false) = p := by
  induction p with
  | nil => rfl
  | cons c p ih =>
      have hc := hshown c (List.mem_cons_self ..)
      have hbackslash : c ≠ 92 := by
        rintro rfl
        exact hliteral 92 (List.mem_cons_self ..) (by decide)
      have hself : escapeChar false c = [c] := by
        unfold escapeChar
        rw [if_neg hc.2, if_neg hbackslash, if_neg (by omega), if_neg (by omega), if_neg (by omega),
          if_neg (by omega), if_neg (by omega), if_neg (by omega), Bool.false_and, if_neg Bool.false_ne_true]
      rw [List.flatMap_cons, hself, ih (fun d hd => hliteral d (List.mem_cons_of_mem _ hd))
        fun d hd => hshown d (List.mem_cons_of_mem _ hd)]
      rfl

/-- The pattern has no control character, and no quote but in front. -/
def Recognised (p : PyStr) : Prop := (∀ c ∈ p, 32 ≤ c) ∧ 34 ∉ p.tail

instance (p : PyStr) : Decidable (Recognised p) := inferInstanceAs (Decidable (_ ∧ _))

/-- The escapes of such a pattern end in the pattern. -/
theorem suffix_escape {p : PyStr} (hliteral : Literal p) (hp : Recognised p) :
    p <:+ p.flatMap (escapeChar false) := by
  cases p with
  | nil => exact List.nil_suffix
  | cons c q =>
      have hq : q.flatMap (escapeChar false) = q := escape_shown
        (fun d hd => hliteral d (List.mem_cons_of_mem _ hd))
        fun d hd => ⟨hp.1 d (List.mem_cons_of_mem _ hd), fun heq => hp.2 (heq ▸ hd)⟩
      by_cases hquote : c = 34
      · subst hquote
        have hescape : escapeChar false 34 = [92, 34] := by decide
        rw [List.flatMap_cons, hq, hescape]
        exact List.suffix_cons 92 (34 :: q)
      · have hself := escape_shown hliteral fun d hd => by
          rcases List.mem_cons.mp hd with rfl | hd
          · exact ⟨hp.1 d (List.mem_cons_self ..), hquote⟩
          · exact ⟨hp.1 d (List.mem_cons_of_mem _ hd), fun heq => hp.2 (heq ▸ hd)⟩
        exact ⟨[], hself.symm⟩

theorem infix_printed {p s : PyStr} (hliteral : Literal p) (hp : Recognised p) (h : p <:+: s) :
    p <:+: dumpsStr false s := by
  obtain ⟨u, v, rfl⟩ := h
  have hmiddle := (suffix_escape hliteral hp).isInfix
  unfold dumpsStr
  rw [List.flatMap_append, List.flatMap_append]
  exact List.infix_append_of_infix_left (List.infix_append_of_infix_right
    (List.infix_append_of_infix_left (List.infix_append_of_infix_right hmiddle)))

/-- Where a tool's patterns match, the decision asks for a confirmation. -/
theorem checkAllowList_confirms {m : Matching} {alwaysAllow : List PyStr} {patterns : List (PyStr × List PyStr)}
    {toolName : PyStr} {toolInput : Json} (hallowed : toolName ∈ alwaysAllow) :
    (checkAllowList m alwaysAllow patterns toolName toolInput).requiresConfirmation = true ↔
      ∃ pattern ∈ (Dict.get? patterns toolName).getD [],
        matchesPattern m pattern (dumps false toolInput) = true := by
  have hcontains : alwaysAllow.contains toolName = true := List.contains_iff_mem.mpr hallowed
  unfold checkAllowList
  rw [hcontains, Bool.not_true, if_neg Bool.false_ne_true, ← List.find?_isSome, firstMatch]
  cases ((Dict.get? patterns toolName).getD []).find? fun pattern =>
    matchesPattern m pattern (dumps false toolInput) with
  | none => exact iff_of_false Bool.false_ne_true Bool.false_ne_true
  | some pattern => exact iff_of_true rfl rfl

-- ============================================================================
-- Inputs that hide a pattern
-- ============================================================================

/-- The characters in front of a quote in the input below: special ones all of them. -/
def beforeQuote : PyStr := py "\x7b[\\"

/-- Every quote of the text stands behind one of them. -/
def QuotesBehind : Nat → PyStr → Prop
  | _, [] => True
  | prev, c :: cs => (c = 34 → prev ∈ beforeQuote) ∧ QuotesBehind c cs

theorem QuotesBehind.append {a t : PyStr} (ha : 34 ∉ a) (ht : ∀ prev, QuotesBehind prev t) (prev : Nat) :
    QuotesBehind prev (a ++ t) := by
  induction a generalizing prev with
  | nil => exact ht prev
  | cons c a ih =>
      exact ⟨fun heq => absurd (heq ▸ List.mem_cons_self ..) ha,
        ih (fun hmem => ha (List.mem_cons_of_mem _ hmem)) c⟩

theorem notMem_escape {c : Nat} (hc : c ≠ 34) : 34 ∉ escapeChar false c := by
  have hdigit : ∀ n, 34 ≠ hexDigit (n % 16) := by
    intro n
    have hlt : n % 16 < 16 := Nat.mod_lt _ (by omega)
    unfold hexDigit
    split_ifs <;> omega
  unfold escapeChar
  rw [if_neg hc, Bool.false_and, if_neg (c := false = true) Bool.false_ne_true]
  split_ifs with h1 h2 h3 h4 h5 h6 h7 <;> first | decide | skip
  · have hbackslash : py "\\u" = [92, 117] := by decide
    unfold uEscape
    rw [hbackslash]
    simp only [List.cons_append, List.nil_append, List.mem_cons, List.not_mem_nil, or_false, not_or]
    exact ⟨by decide, by decide, hdigit _, hdigit _, hdigit _, hdigit _⟩
  · rw [List.mem_singleton]
    exact hc.symm

/-- The quotes inside a printed text stand behind backslashes. -/
theorem QuotesBehind.escape (s : PyStr) {t : PyStr} (ht : ∀ prev, QuotesBehind prev t) (prev : Nat) :
    QuotesBehind prev (s.flatMap (escapeChar false) ++ t) := by
  induction s generalizing prev with
  | nil => exact ht prev
  | cons c s ih =>
      rw [List.flatMap_cons, List.append_assoc]
      by_cases hc : c = 34
      · subst hc
        have hescape : escapeChar false 34 = [92, 34] := by decide
        rw [hescape]
        exact ⟨fun heq => absurd heq (by decide), fun _ => by decide, ih 34⟩
      · exact QuotesBehind.append (notMem_escape hc) ih prev

theorem QuotesBehind.of_part {prev x : Nat} {t : PyStr} (ht : QuotesBehind prev t)
    (h : [x, 34] <:+: t) : x ∈ beforeQuote := by
  induction t generalizing prev with
  | nil => exact absurd (List.infix_nil.mp h) (List.cons_ne_nil _ _)
  | cons c t ih =>
      rcases List.infix_cons_iff.mp h with hstart | hlater
      · obtain ⟨rfl, hnext⟩ := List.cons_prefix_cons.mp hstart
        cases t with
        | nil => exact absurd (List.prefix_nil.mp hnext) (List.cons_ne_nil _ _)
        | cons d t => exact ht.2.1 (List.cons_prefix_cons.mp hnext).1.symm
      · exact ih ht.2 hlater

/-- The pattern in a list, behind a brace and in front of one. -/
def hidden (p : PyStr) : Json := .obj [(py "\x7b", .arr [.str (123 :: (p ++ [123]))])]

theorem stringValues_hidden (p : PyStr) : ∃ s ∈ stringValues (hidden p), p <:+: s :=
  ⟨_, List.mem_cons_self .., [123], [123], rfl⟩

theorem quotesBehind_hidden (p : PyStr) : QuotesBehind 0 (dumps false (hidden p)) := by
  have hshape : dumps false (hidden p)
      = 123 :: 34 :: 123 :: 34 :: 58 :: 32 :: 91 :: 34 :: 123 ::
        (p.flatMap (escapeChar false) ++ [123, 34, 93, 125]) := by
    have hbrace : escapeChar false 123 = [123] := by decide
    have hopen : py "\x7b" = [123] := by decide
    have hkey : dumpsStr false (py "\x7b") = [34, 123, 34] := by decide
    show py "\x7b" ++ (dumpsStr false (py "\x7b") ++ py ": "
      ++ (py "[" ++ dumpsStr false (123 :: (p ++ [123])) ++ py "]")) ++ py "\x7d" = _
    have hvalue : dumpsStr false (123 :: (p ++ [123]))
        = 34 :: 123 :: (p.flatMap (escapeChar false) ++ [123, 34]) := by
      show [34] ++ (123 :: (p ++ [123])).flatMap (escapeChar false) ++ [34] = _
      rw [List.flatMap_cons, List.flatMap_append, List.flatMap_singleton, hbrace]
      simp
    have hrest : py ": " = [58, 32] ∧ py "[" = [91] ∧ py "]" = [93] ∧ py "\x7d" = [125] := by decide
    rw [hkey, hopen, hvalue, hrest.1, hrest.2.1, hrest.2.2.1, hrest.2.2.2]
    simp
  rw [hshape]
  have hend : ∀ prev, QuotesBehind prev [123, 34, 93, 125] := fun prev =>
    ⟨fun heq => absurd heq (by decide), fun _ => by decide, fun heq => absurd heq (by decide),
      fun heq => absurd heq (by decide), trivial⟩
  have hbody := QuotesBehind.escape p hend 123
  refine ⟨fun heq => absurd heq (by decide), fun _ => by decide, fun heq => absurd heq (by decide),
    fun _ => by decide, fun heq => absurd heq (by decide), fun heq => absurd heq (by decide),
    fun heq => absurd heq (by decide), fun _ => by decide, fun heq => absurd heq (by decide), hbody⟩

/-- A pattern that has a control character, or a quote further on, is hidden there. -/
theorem not_infix_hidden {p : PyStr} (hliteral : Literal p) (hp : ¬ Recognised p) :
    ¬ p <:+: dumps false (hidden p) := by
  intro h
  by_cases hcontrol : ∀ c ∈ p, 32 ≤ c
  · have hquote : 34 ∈ p.tail := by
      by_contra hnone
      exact hp ⟨hcontrol, hnone⟩
    obtain ⟨d, q, rfl⟩ : ∃ d q, p = d :: q := by
      cases p with
      | nil => exact absurd hquote List.not_mem_nil
      | cons d q => exact ⟨d, q, rfl⟩
    obtain ⟨r, r', hsplit⟩ := List.append_of_mem (show 34 ∈ q from hquote)
    -- the character in front of the quote is one of the pattern
    obtain ⟨x, hx⟩ : ∃ x, (d :: r).getLast? = some x := ⟨_, List.getLast?_eq_some_getLast (List.cons_ne_nil _ _)⟩
    obtain ⟨front, hfront⟩ := List.getLast?_eq_some_iff.mp hx
    have hpair : [x, 34] <:+: d :: q := by
      refine ⟨front, r', ?_⟩
      rw [hsplit, ← List.cons_append, hfront, List.append_assoc, List.append_assoc]
      rfl
    have hmem := (quotesBehind_hidden (d :: q)).of_part (hpair.trans h)
    have hsub : ∀ y ∈ beforeQuote, y ∈ metachars := by decide
    exact hliteral x (hpair.subset (List.mem_cons_self ..)) (hsub x hmem)
  · have hread : Readable false (fun _ => []) (hidden p) :=
      ⟨List.nodup_singleton _, textOk_raw _, ⟨textOk_raw _, trivial⟩, trivial⟩
    exact hcontrol fun c hc => le_of_mem_dumps hread (h.subset hc)

/-- A literal pattern is recognised in every input that has it in a value exactly when it
    has no control character, and no quote but in front. -/
theorem confirms_literal_iff {m : Matching} (hm : m.SearchesLiterals) {p : PyStr} (hliteral : Literal p) :
    (∀ alwaysAllow patterns toolName toolInput, toolName ∈ alwaysAllow →
        p ∈ (Dict.get? patterns toolName).getD [] → (∃ s ∈ stringValues toolInput, p <:+: s) →
        (checkAllowList m alwaysAllow patterns toolName toolInput).requiresConfirmation = true) ↔
      Recognised p := by
  have hmatches : ∀ text, matchesPattern m p text = true ↔ p <:+: text := by
    intro text
    rw [matchesPattern, hm p text hliteral, Option.getD_some, hasInfix_iff]
  constructor
  · intro h
    by_contra hhidden
    have hconfirms := h [py "terminal"] [(py "terminal", [p])] (py "terminal") (hidden p)
      (List.mem_cons_self ..) (List.mem_cons_self ..) (stringValues_hidden p)
    obtain ⟨pattern, hpattern, hfound⟩ := (checkAllowList_confirms (List.mem_cons_self ..)).mp hconfirms
    obtain rfl : pattern = p := List.mem_singleton.mp hpattern
    exact not_infix_hidden hliteral hhidden ((hmatches _).mp hfound)
  · rintro hp alwaysAllow patterns toolName toolInput hallowed hpattern ⟨s, hs, hinfix⟩
    refine (checkAllowList_confirms hallowed).mpr ⟨p, hpattern, (hmatches _).mpr ?_⟩
    exact (infix_printed hliteral hp hinfix).trans (infix_dumps toolInput hs)

/-- The engine, as far as it is asked here. -/
def literalMatching : Matching where
  search := fun p text => some (hasInfix p text)
  hostname := fun _ => .ok none

theorem rm_rf_confirmed :
    (checkAllowList literalMatching [py "terminal"] [(py "terminal", [py "rm -rf"])] (py "terminal")
      (.obj [(py "args", .arr [.str (py "sudo rm -rf /")])])).requiresConfirmation = true :=
  (confirms_literal_iff (m := literalMatching) (fun _ _ _ => rfl) (p := py "rm -rf") (by decide)).mpr
    (by decide) _ _ _ _ (by decide) (by decide) ⟨py "sudo rm -rf /", by decide, by decide⟩

/-- A pattern with a quote in it is in the command and is not recognised. -/
theorem quoted_command_unconfirmed :
    Literal (py "rm -rf \"/\"") ∧
      py "rm -rf \"/\"" ∈ stringValues (.obj [(py "command", .str (py "rm -rf \"/\""))]) ∧
      (checkAllowList literalMatching [py "terminal"] [(py "terminal", [py "rm -rf \"/\""])] (py "terminal")
        (.obj [(py "command", .str (py "rm -rf \"/\""))])).requiresConfirmation = false := by
  decide +kernel

end Security
end KineticSdk
