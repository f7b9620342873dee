/-
  KineticSdk.Py.Members

  Where the text `"word": true` stands in a printed value.

  Its second quote cannot be one inside a literal, where a backslash stands in
  front of it, and not one that opens a literal, where a separator does.  It
  closes a key, so the value printed behind it is `true`, and the key is the
  word, or ends in a quote and the word (`infix_dumps_iff`).
-/

import KineticSdk.Py.Quoted

namespace KineticSdk
namespace Py

variable {fl : FloatRepr} {word : PyStr}

/-- `"word": true`, as `json.dumps` prints a member. -/
def memberText (word : PyStr) : PyStr := py "\"" ++ word ++ py "\": true"

mutual

/-- Some dict in the value has `true` under the word, or under a key that ends in
    a quote and the word. -/
def hasTrue (word : PyStr) : Json → Bool
  | .arr xs => hasTrueList word xs
  | .obj kvs => hasTrueFields word kvs
  | _ => false

/-- `hasTrue` of one of the elements. -/
def hasTrueList (word : PyStr) : List Json → Bool
  | [] => false
  | x :: xs => hasTrue word x || hasTrueList word xs

/-- A member that is `true` under such a key, or `hasTrue` of one of the values. -/
def hasTrueFields (word : PyStr) : Dict → Bool
  | [] => false
  | (k, v) :: kvs =>
      (v == .bool true && (k == word || (34 :: word).isSuffixOf k)) || hasTrue word v
        || hasTrueFields word kvs

end

-- ============================================================================
-- One literal
-- ============================================================================

/-- Only an escaped quote has a quote in it. -/
theorem escapeChar_quote (c : Nat) :
    (escapeChar false c = [c] ∧ c ≠ 34 ∧ c ≠ 92) ∨ (c = 34 ∧ escapeChar false c = [92, 34]) ∨
      ((∃ code, escapeChar false c = 92 :: code ∧ 34 ∉ code) ∧ rawChar c = false ∧ c ≠ 34) := by
  by_cases hquote : c = 34
  · subst hquote
    exact .inr (.inl ⟨rfl, by decide⟩)
  rcases escapeChar_cases false c with hraw | ⟨code, hcode, -, hraw⟩
  · exact .inl hraw
  · refine .inr (.inr ⟨⟨code, hcode, fun hmem => ?_⟩, hraw, hquote⟩)
    have hin : 34 ∈ escapeChar false c := hcode ▸ List.mem_cons_of_mem _ hmem
    have hhex : ∀ n, 34 ≠ hexDigit (n % 16) := by
      intro n
      have hlt : n % 16 < 16 := Nat.mod_lt _ (by omega)
      rw [hexDigit]
      split <;> omega
    have hescape : ∀ n, 34 ∉ uEscape n := by
      intro n
      have hbackslash : py "\\u" = [92, 117] := by decide
      rw [uEscape, hbackslash, List.cons_append]
      simp only [List.cons_append, List.nil_append, List.mem_cons, List.not_mem_nil, or_false, not_or]
      exact ⟨by omega, by omega, hhex _, hhex _, hhex _, hhex _⟩
    generalize hs : escapeChar false c = s at hin
    rw [escapeChar, if_neg hquote] at hs
    split_ifs at hs with h1 h2 h3 h4 h5 h6 h7 h8 <;> subst hs <;> revert hin
    · decide
    · decide
    · decide
    · decide
    · decide
    · decide
    · exact fun hin => hescape c hin
    · simp at h8
    · simp at h8
    · exact fun hin => hquote (List.mem_singleton.mp hin).symm

/-- What begins with a quote does not begin in a text without one. -/
theorem infix_skip {p a t : PyStr} (ha : 34 ∉ a) : 34 :: p <:+: a ++ t ↔ 34 :: p <:+: t := by
  induction a with
  | nil => exact Iff.rfl
  | cons c a ih =>
      have hc : 34 ≠ c := fun heq => ha (heq ▸ List.mem_cons_self)
      rw [List.cons_append, List.infix_cons_iff, List.cons_prefix_cons,
        ih fun hmem => ha (List.mem_cons_of_mem _ hmem)]
      exact ⟨fun h => h.resolve_left fun h => hc h.1, .inr⟩

/-- A word that a key can be or end in. -/
structure Word (word : PyStr) : Prop where
  letters : ∀ c ∈ word, isLetter c = true
  nonempty : word ≠ []

theorem Word.raw (h : Word word) : ∀ c ∈ word, rawChar c = true := by
  intro c hc
  have hletter := h.letters c hc
  simp only [isLetter, Bool.or_eq_true, Bool.and_eq_true, decide_eq_true_eq] at hletter
  simp only [rawChar, Bool.and_eq_true, decide_eq_true_eq, bne_iff_ne]
  omega

/-- A word does not begin at a separator. -/
theorem Word.not_start (h : Word word) {c : Nat} (hc : isLetter c = false) (rest t : PyStr) :
    ¬ word ++ rest <+: c :: t := by
  intro hstart
  cases word with
  | nil => exact h.nonempty rfl
  | cons d word =>
      obtain ⟨rfl, -⟩ := List.cons_prefix_cons.mp hstart
      exact Bool.noConfusion ((h.letters d List.mem_cons_self).symm.trans hc)

variable (hword : Word word)

include hword

/-- The quoted word and what is behind it, from within a literal on. -/
theorem infix_literal {s rest t : PyStr} :
    34 :: (word ++ 34 :: rest) <:+: literal false s ++ 34 :: t ↔
      (34 :: word <:+ s ∧ rest <+: t) ∨ 34 :: (word ++ 34 :: rest) <:+: 34 :: t := by
  induction s with
  | nil =>
      have hempty : ¬ 34 :: word <:+ [] := fun h => List.cons_ne_nil _ _ (List.suffix_nil.mp h)
      show _ <:+: 34 :: t ↔ _
      tauto
  | cons c s ih =>
      rw [List.suffix_cons_iff, or_and_right, or_assoc, ← ih, literal_cons]
      rcases escapeChar_quote c with ⟨hc, hquote, -⟩ | ⟨rfl, hc⟩ | ⟨⟨code, hc, hcode⟩, -, hquote⟩
      · rw [hc, List.append_assoc, infix_skip (by simpa using hquote.symm)]
        exact ⟨.inr, fun h => h.resolve_left fun h => hquote (List.cons.inj h.1).1.symm⟩
      · have hstart : word ++ 34 :: rest <+: literal false s ++ 34 :: t ↔ word = s ∧ rest <+: t :=
          prefix_literal hword.raw
        rw [hc, List.append_assoc]
        show _ <:+: [92] ++ (34 :: (literal false s ++ 34 :: t)) ↔ _
        rw [infix_skip (by decide), List.infix_cons_iff, List.cons_prefix_cons, hstart, List.cons.injEq]
        tauto
      · rw [hc, List.append_assoc, infix_skip (by simpa using hcode)]
        exact ⟨.inr, fun h => h.resolve_left fun h => hquote (List.cons.inj h.1).1.symm⟩

/-- The quoted word and what is behind it, from a printed string on. -/
theorem infix_dumpsStr {s rest t : PyStr} (ht : ¬ word ++ 34 :: rest <+: t) :
    34 :: (word ++ 34 :: rest) <:+: dumpsStr false s ++ t ↔
      ((s = word ∨ 34 :: word <:+ s) ∧ rest <+: t) ∨ 34 :: (word ++ 34 :: rest) <:+: t := by
  have hclose : 34 :: (word ++ 34 :: rest) <:+: 34 :: t ↔ 34 :: (word ++ 34 :: rest) <:+: t := by
    rw [List.infix_cons_iff, List.cons_prefix_cons]
    tauto
  have hstart : word ++ 34 :: rest <+: literal false s ++ 34 :: t ↔ word = s ∧ rest <+: t :=
    prefix_literal hword.raw
  rw [dumpsStr_append, List.infix_cons_iff, List.cons_prefix_cons, hstart, infix_literal hword, hclose]
  have hcomm : word = s ↔ s = word := eq_comm
  tauto

omit hword in
theorem memberText_eq (word : PyStr) : memberText word = 34 :: (word ++ 34 :: py ": true") := by
  show (34 :: word) ++ py "\": true" = _
  rw [List.cons_append]
  rfl

theorem not_start_of_delimited {t : PyStr} (ht : Delimited t) (rest : PyStr) :
    ¬ word ++ rest <+: t := by
  rcases ht with rfl | ⟨c, cs, rfl, hc⟩
  · intro h
    exact hword.nonempty (List.append_eq_nil_iff.mp (List.prefix_nil.mp h)).1
  · exact hword.not_start (by rcases hc with rfl | rfl | rfl <;> decide) rest cs

/-- A string that is no key. -/
theorem infix_text {s t : PyStr} (ht : Delimited t) :
    memberText word <:+: dumpsStr false s ++ t ↔ memberText word <:+: t := by
  have hcolon : ¬ py ": true" <+: t := by
    rcases ht with rfl | ⟨c, cs, rfl, hc⟩
    · exact fun h => absurd (List.prefix_nil.mp h) (by decide)
    · intro h
      obtain ⟨hhead, -⟩ : 58 = c ∧ _ := List.cons_prefix_cons.mp h
      omega
  rw [memberText_eq, infix_dumpsStr hword (not_start_of_delimited hword ht _)]
  exact ⟨fun h => h.resolve_left fun h => hcolon h.2, .inr⟩

omit hword in
/-- Only the value `true` is printed with `true` in front. -/
theorem true_prefix_iff {v : Json} (hv : Readable false fl v) {t : PyStr} (ht : Delimited t) :
    py "true" <+: dumps false v ++ t ↔ v = .bool true := by
  have hhead : ∀ {c : Nat} {cs : PyStr}, c ≠ 116 → ¬ py "true" <+: c :: cs := fun hc h =>
    hc (List.cons_prefix_cons.mp h).1.symm
  cases v with
  | null => exact iff_of_false (hhead (c := 110) (by decide)) (by simp)
  | bool b =>
      cases b with
      | true => exact iff_of_true (List.prefix_append _ _) rfl
      | false => exact iff_of_false (hhead (c := 102) (by decide)) (by simp)
  | int n =>
      obtain ⟨c, cs, hcons, hc⟩ := intText_head n
      have hne : c ≠ 116 := by
        rintro rfl
        exact absurd hc (by decide)
      refine iff_of_false ?_ (by simp)
      show ¬ _ <+: intText n ++ t
      rw [hcons]
      exact hhead hne
  | float r =>
      have hgap : 116 ∉ dumpsFloat r ∨ dumpsFloat r = py "Infinity" ∨ dumpsFloat r = py "-Infinity" := by
        rw [dumpsFloat]
        split_ifs with hnan hinf hminus
        · exact .inl (by decide)
        · exact .inr (.inl rfl)
        · exact .inr (.inr rfl)
        · rcases hv with hr | hr | hr | ⟨-, hchars, -⟩
          · exact absurd hr hnan
          · exact absurd hr hinf
          · exact absurd hr hminus
          · exact .inl fun hmem => absurd (hchars 116 hmem) (by decide)
      refine iff_of_false ?_ (by simp)
      show ¬ _ <+: dumpsFloat r ++ t
      rcases hgap with hmem | htext | htext
      · cases htext : dumpsFloat r with
        | nil =>
            rcases ht with rfl | ⟨c, cs, rfl, hc⟩
            · exact fun h => absurd (List.prefix_nil.mp h) (by decide)
            · exact hhead (by omega)
        | cons c cs =>
            refine hhead fun heq => hmem ?_
            rw [htext, heq]
            exact List.mem_cons_self
      · rw [htext]
        exact hhead (c := 73) (by decide)
      · rw [htext]
        exact hhead (c := 45) (by decide)
  | str s => exact iff_of_false (hhead (c := 34) (by decide)) (by simp)
  | arr xs => exact iff_of_false (hhead (c := 91) (by decide)) (by simp)
  | obj kvs => exact iff_of_false (hhead (c := 123) (by decide)) (by simp)

/-- A key with its value: `b` is where the text stands in the value. -/
theorem infix_member {k : PyStr} {v : Json} (hv : Readable false fl v) {t : PyStr} (ht : Delimited t) :
    memberText word <:+: dumpsStr false k ++ (py ": " ++ (dumps false v ++ t)) ↔
      (v = .bool true ∧ (k = word ∨ 34 :: word <:+ k)) ∨ memberText word <:+: dumps false v ++ t := by
  have hcolon : ∀ s, py ": " ++ s = 58 :: 32 :: s := fun _ => rfl
  have hrest : py ": true" <+: py ": " ++ (dumps false v ++ t) ↔ v = .bool true := by
    rw [← true_prefix_iff hv ht]
    show 58 :: 32 :: py "true" <+: 58 :: 32 :: _ ↔ _
    rw [List.cons_prefix_cons, List.cons_prefix_cons]
    tauto
  have hskip : memberText word <:+: py ": " ++ (dumps false v ++ t) ↔
      memberText word <:+: dumps false v ++ t := by
    rw [memberText_eq]
    exact infix_skip (by decide)
  have hnot : ¬ word ++ 34 :: py ": true" <+: py ": " ++ (dumps false v ++ t) :=
    hword.not_start (c := 58) (by decide) _ _
  have hkey := infix_dumpsStr hword (s := k) hnot
  rw [← memberText_eq, hrest, hskip] at hkey
  rw [hkey]
  tauto

-- ============================================================================
-- Values
-- ============================================================================

mutual

/-- The text stands in a printed value, or in what is behind it. -/
theorem infix_dumps_append : (v : Json) → Readable false fl v → {t : PyStr} → Delimited t →
    (memberText word <:+: dumps false v ++ t ↔ hasTrue word v = true ∨ memberText word <:+: t)
  | .null, _, t, _ | .bool true, _, t, _ | .bool false, _, t, _ => by
      rw [memberText_eq, dumps, infix_skip (by decide)]
      simp [hasTrue]
  | .int n, _, t, _ => by
      have hquote : 34 ∉ intText n := fun hmem =>
        absurd (isNumberChar_intText n 34 hmem) (by decide)
      rw [memberText_eq, dumps, infix_skip hquote]
      simp [hasTrue]
  | .float r, hv, t, _ => by
      have hquote : 34 ∉ dumpsFloat r := (gap_float hv).notMem rfl
      rw [memberText_eq, dumps, infix_skip hquote]
      simp [hasTrue]
  | .str s, _, t, ht => by
      rw [dumps, infix_text hword ht]
      simp [hasTrue]
  | .arr xs, hv, t, _ => by
      have hxs := infix_dumpsList_append xs hv (delimited_rbrack t)
      have hend : memberText word <:+: py "]" ++ t ↔ memberText word <:+: t := by
        rw [memberText_eq]
        exact infix_skip (by decide)
      have htext : dumps false (.arr xs) ++ t = py "[" ++ (dumpsList false xs ++ (py "]" ++ t)) := by
        rw [dumps, List.append_assoc, List.append_assoc]
      rw [hend] at hxs
      rw [hasTrue, htext, ← hxs, memberText_eq]
      exact infix_skip (by decide)
  | .obj kvs, hv, t, _ => by
      have hkvs := infix_dumpsFields_append kvs hv.2 (delimited_rbrace t)
      have hend : memberText word <:+: py "\x7d" ++ t ↔ memberText word <:+: t := by
        rw [memberText_eq]
        exact infix_skip (by decide)
      have htext : dumps false (.obj kvs) ++ t =
          py "\x7b" ++ (dumpsFields false kvs ++ (py "\x7d" ++ t)) := by
        rw [dumps, List.append_assoc, List.append_assoc]
      rw [hend] at hkvs
      rw [hasTrue, htext, ← hkvs, memberText_eq]
      exact infix_skip (by decide)

theorem infix_dumpsList_append : (xs : List Json) → ReadableList false fl xs → {t : PyStr} →
    Delimited t →
    (memberText word <:+: dumpsList false xs ++ t ↔
      hasTrueList word xs = true ∨ memberText word <:+: t)
  | [], _, t, _ => by
      rw [dumpsList, List.nil_append, hasTrueList]
      simp
  | [x], hxs, t, ht => by
      rw [dumpsList, infix_dumps_append x hxs.1 ht, hasTrueList, hasTrueList, Bool.or_false]
  | x :: y :: xs, hxs, t, ht => by
      have hx := infix_dumps_append x hxs.1 (delimited_comma (dumpsList false (y :: xs) ++ t))
      have htail := infix_dumpsList_append (y :: xs) hxs.2 ht
      have hcomma : memberText word <:+: py ", " ++ (dumpsList false (y :: xs) ++ t) ↔
          memberText word <:+: dumpsList false (y :: xs) ++ t := by
        rw [memberText_eq]
        exact infix_skip (by decide)
      have htext : dumpsList false (x :: y :: xs) ++ t =
          dumps false x ++ (py ", " ++ (dumpsList false (y :: xs) ++ t)) := by
        rw [dumpsList, List.append_assoc, List.append_assoc]
        exact fun h => List.cons_ne_nil _ _ h
      have htrue : hasTrueList word (x :: y :: xs) = (hasTrue word x || hasTrueList word (y :: xs)) := rfl
      rw [htext, hx, hcomma, htail, htrue, Bool.or_eq_true, or_assoc]

theorem infix_dumpsFields_append : (kvs : Dict) → ReadableFields false fl kvs → {t : PyStr} →
    Delimited t →
    (memberText word <:+: dumpsFields false kvs ++ t ↔
      hasTrueFields word kvs = true ∨ memberText word <:+: t)
  | [], _, t, _ => by
      rw [dumpsFields, List.nil_append, hasTrueFields]
      simp
  | [(k, v)], hkvs, t, ht => by
      have hmember := infix_member hword (k := k) hkvs.2.1 ht
      rw [infix_dumps_append v hkvs.2.1 ht] at hmember
      rw [dumpsFields, List.append_assoc, List.append_assoc, hmember, hasTrueFields, hasTrueFields]
      simp [or_assoc]
  | (k, v) :: kv :: kvs, hkvs, t, ht => by
      have hdelim := delimited_comma (dumpsFields false (kv :: kvs) ++ t)
      have hmember := infix_member hword (k := k) hkvs.2.1 hdelim
      have htail := infix_dumpsFields_append (kv :: kvs) hkvs.2.2 ht
      have hcomma : memberText word <:+: py ", " ++ (dumpsFields false (kv :: kvs) ++ t) ↔
          memberText word <:+: dumpsFields false (kv :: kvs) ++ t := by
        rw [memberText_eq]
        exact infix_skip (by decide)
      rw [infix_dumps_append v hkvs.2.1 hdelim, hcomma, htail] at hmember
      have htext : dumpsFields false ((k, v) :: kv :: kvs) ++ t = dumpsStr false k ++ (py ": " ++
          (dumps false v ++ (py ", " ++ (dumpsFields false (kv :: kvs) ++ t)))) := by
        rw [dumpsFields, List.append_assoc, List.append_assoc, List.append_assoc, List.append_assoc]
        exact fun h => List.cons_ne_nil _ _ h
      have htrue : hasTrueFields word ((k, v) :: kv :: kvs) =
          ((v == .bool true && (k == word || (34 :: word).isSuffixOf k)) || hasTrue word v
            || hasTrueFields word (kv :: kvs)) := rfl
      rw [htext, hmember, htrue]
      simp [or_assoc]

end

/-- The text stands in a printed value exactly if some dict in it has `true`
    under the word, or under a key that ends in a quote and the word. -/
theorem infix_dumps_iff {v : Json} (hv : Readable false fl v) :
    memberText word <:+: dumps false v ↔ hasTrue word v = true := by
  have h := infix_dumps_append hword v hv (.inl rfl : Delimited [])
  rw [List.append_nil] at h
  rw [h, memberText_eq]
  simp

end Py
end KineticSdk
