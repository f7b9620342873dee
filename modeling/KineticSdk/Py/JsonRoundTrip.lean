/-
  KineticSdk.Py.JsonRoundTrip

  `json.loads` reads back what `json.dumps` has written.

  The tokens of a printed value (`tokens`) link the two: printing and cutting
  gives them (`lex_dumps`), and reading them gives the value (`read_tokens`).
  With `ensure_ascii` the halves of a surrogate pair that stand next to each
  other in a text come back as one character, so such texts are excluded.
-/

import KineticSdk.Py.Dict
import KineticSdk.Py.JsonParse

namespace KineticSdk
namespace Py

-- ============================================================================
-- Digits
-- ============================================================================

theorem natText_of_lt {n : Nat} (h : n < 10) : natText n = [48 + n] := by
  have hall : ∀ n < 10, natText n = [48 + n] := by decide
  exact hall n h

theorem natText_of_ge {n : Nat} (h : 10 ≤ n) : natText n = natText (n / 10) ++ [48 + n % 10] := by
  have hlast : [(n % 10).digitChar].map Char.toNat = [48 + n % 10] := by
    have hsmall := natText_of_lt (show n % 10 < 10 by omega)
    rwa [natText, Nat.toDigits_of_lt_base (by omega)] at hsmall
  rw [natText, Nat.toDigits_of_base_le (by omega) h, List.map_append, hlast, natText]

theorem natText_ne_nil (n : Nat) : natText n ≠ [] := by
  unfold natText
  simp [Nat.toDigits_ne_nil]

theorem isDigitChar_natText (n : Nat) : ∀ c ∈ natText n, isDigitChar c = true := by
  induction n using Nat.strongRecOn with
  | ind n ih =>
      by_cases h : n < 10
      · rw [natText_of_lt h]
        intro c hc
        rw [List.mem_singleton.mp hc]
        simp only [isDigitChar, Bool.and_eq_true, decide_eq_true_eq]
        omega
      · rw [natText_of_ge (by omega)]
        intro c hc
        rcases List.mem_append.mp hc with hc | hc
        · exact ih (n / 10) (by omega) c hc
        · rw [List.mem_singleton.mp hc]
          simp only [isDigitChar, Bool.and_eq_true, decide_eq_true_eq]
          omega

theorem digitsValue_append (ds es : PyStr) :
    digitsValue (ds ++ es) = es.foldl (fun n d => 10 * n + (d - 48)) (digitsValue ds) :=
  List.foldl_append

/-- Digits denote the number they were printed from. -/
theorem digitsValue_natText (n : Nat) : digitsValue (natText n) = n := by
  induction n using Nat.strongRecOn with
  | ind n ih =>
      by_cases h : n < 10
      · rw [natText_of_lt h]
        simp [digitsValue]
      · rw [natText_of_ge (by omega), digitsValue_append, ih (n / 10) (by omega)]
        simp only [List.foldl_cons, List.foldl_nil]
        omega

/-- Only zero is printed with a leading zero. -/
theorem natText_zero_head {n : Nat} {rest : PyStr} (h : natText n = 48 :: rest) :
    rest = [] := by
  induction n using Nat.strongRecOn generalizing rest with
  | ind n ih =>
      by_cases hn : n < 10
      · rw [natText_of_lt hn] at h
        exact (List.cons.inj h).2.symm
      · rw [natText_of_ge (by omega)] at h
        cases hfront : natText (n / 10) with
        | nil => exact absurd hfront (natText_ne_nil _)
        | cons c cs =>
            rw [hfront, List.cons_append] at h
            obtain ⟨rfl, -⟩ := List.cons.inj h
            have hcs := ih (n / 10) (by omega) hfront
            -- the front is the text of zero, but `n / 10` is not zero
            have hvalue := digitsValue_natText (n / 10)
            rw [hfront, hcs] at hvalue
            simp only [digitsValue, List.foldl_cons, List.foldl_nil] at hvalue
            omega

-- ============================================================================
-- Numbers
-- ============================================================================

theorem takeWhile_of_forall {p : Nat → Bool} {s : PyStr} (h : ∀ c ∈ s, p c = true) :
    s.takeWhile p = s ∧ s.dropWhile p = [] := by
  induction s with
  | nil => exact ⟨rfl, rfl⟩
  | cons c s ih =>
      have hc := h c (List.mem_cons_self ..)
      obtain ⟨htake, hdrop⟩ := ih fun d hd => h d (List.mem_cons_of_mem c hd)
      simp [hc, htake, hdrop]

/-- The whole of a printed natural number is its integer part. -/
theorem scanInt_natText (n : Nat) : scanInt (natText n) = some (natText n, []) := by
  obtain ⟨htake, hdrop⟩ := takeWhile_of_forall (isDigitChar_natText n)
  unfold scanInt
  split
  · rename_i rest h
    have hrest := natText_zero_head h
    rw [h, hrest]
  · rw [htake, hdrop, if_neg (natText_ne_nil n)]

theorem digit_ne_minus {c : Nat} (h : isDigitChar c = true) : c ≠ 45 := by
  rintro rfl
  revert h
  decide

/-- The token of an integer. -/
theorem numberTokens_intText (n : Int) :
    numberTokens (intText n) = [.number (decide (n < 0)) (natText n.natAbs) []] := by
  have hscan : scanNumber (intText n) = some (decide (n < 0), natText n.natAbs, [], []) := by
    cases n with
    | ofNat n =>
        have hsign : ∀ rest, natText n ≠ 45 :: rest := by
          intro rest h
          exact digit_ne_minus (isDigitChar_natText n 45 (by rw [h]; exact List.mem_cons_self ..)) rfl
        have hneg : decide (Int.ofNat n < 0) = false := by simp
        unfold scanNumber intText
        rw [hneg]
        split
        rename_i neg s h
        split at h
        · rename_i rest hrest
          exact absurd hrest (hsign rest)
        · cases h
          rw [scanInt_natText]
          rfl
    | negSucc n =>
        have hneg : decide (Int.negSucc n < 0) = true := by simp [Int.negSucc_lt_zero]
        have htext : intText (.negSucc n) = 45 :: natText (n + 1) := rfl
        unfold scanNumber
        rw [htext, hneg]
        show (scanInt (natText (n + 1))).map _ = _
        rw [scanInt_natText]
        rfl
  rw [numberTokens, hscan]

theorem isNumberChar_intText (n : Int) : ∀ c ∈ intText n, isNumberChar c = true := by
  have hnat : ∀ n, ∀ c ∈ natText n, isNumberChar c = true := by
    intro n c hc
    simp [isNumberChar, isDigitChar_natText n c hc]
  cases n with
  | ofNat n => exact hnat n
  | negSucc n =>
      intro c hc
      rcases List.mem_cons.mp (show c ∈ 45 :: natText (n + 1) from hc) with rfl | hc
      · decide
      · exact hnat (n + 1) c hc

/-- The value of the token of an integer. -/
theorem numberValue_int (fl : FloatRepr) (n : Int) :
    numberValue {} fl (decide (n < 0)) (natText n.natAbs) [] = .ok (.int n) := by
  have hvalue := digitsValue_natText n.natAbs
  unfold numberValue
  rw [if_pos rfl, hvalue]
  cases n with
  | ofNat n =>
      have hneg : decide (Int.ofNat n < 0) = false := by simp
      rw [hneg]
      rfl
  | negSucc n =>
      have hneg : decide (Int.negSucc n < 0) = true := by simp [Int.negSucc_lt_zero]
      rw [hneg]
      simp only [Option.any_none, Bool.false_eq_true, ↓reduceIte, Except.ok.injEq, Json.int.injEq]
      omega

/-- The text of a float in a value: one that JSON has a word for, or the text of
    a number that is read back to itself. -/
def IsFloat (fl : FloatRepr) (r : PyStr) : Prop :=
  r = py "nan" ∨ r = py "inf" ∨ r = py "-inf" ∨
    (fl r = r ∧ (∀ c ∈ r, isNumberChar c = true) ∧
      ∃ neg digits tail, scanNumber r = some (neg, digits, tail, []) ∧ tail ≠ [])

/-- What is scanned is the text. -/
theorem scanInt_text {s digits rest : PyStr} (h : scanInt s = some (digits, rest)) :
    s = digits ++ rest := by
  unfold scanInt at h
  split at h
  · cases h
    rfl
  · split at h
    · cases h
    · cases h
      exact (List.takeWhile_append_dropWhile ..).symm

theorem scanFrac_text (s : PyStr) : (scanFrac s).1 ++ (scanFrac s).2 = s := by
  unfold scanFrac
  split
  · split
    · rfl
    · rw [List.cons_append, List.takeWhile_append_dropWhile]
  · rfl

theorem scanSign_text (s : PyStr) : (scanSign s).1 ++ (scanSign s).2 = s := by
  unfold scanSign
  split <;> rfl

theorem scanExp_text (s : PyStr) : (scanExp s).1 ++ (scanExp s).2 = s := by
  cases s with
  | nil => rfl
  | cons e rest =>
      unfold scanExp
      simp only
      split
      · show e :: ((scanSign rest).1 ++ (scanSign rest).2.takeWhile isDigitChar) ++
            (scanSign rest).2.dropWhile isDigitChar = e :: rest
        rw [List.cons_append, List.append_assoc, List.takeWhile_append_dropWhile, scanSign_text]
      · rfl

theorem scanNumber_text {s digits tail rest : PyStr} {neg : Bool}
    (h : scanNumber s = some (neg, digits, tail, rest)) :
    s = (if neg then [45] else []) ++ digits ++ tail ++ rest := by
  have hbody : ∀ t, (scanInt t).map (fun r => (r.1, (scanFrac r.2).1 ++ (scanExp (scanFrac r.2).2).1,
      (scanExp (scanFrac r.2).2).2)) = some (digits, tail, rest) → t = digits ++ tail ++ rest := by
    intro t ht
    obtain ⟨⟨ds, left⟩, hint, heq⟩ := Option.map_eq_some_iff.mp ht
    simp only [Prod.mk.injEq] at heq
    obtain ⟨rfl, rfl, rfl⟩ := heq
    rw [scanInt_text hint, List.append_assoc, List.append_assoc, scanExp_text, scanFrac_text]
  unfold scanNumber at h
  split at h
  rename_i neg' t hsign
  have hparts : neg' = neg ∧ (scanInt t).map (fun r => (r.1,
      (scanFrac r.2).1 ++ (scanExp (scanFrac r.2).2).1, (scanExp (scanFrac r.2).2).2)) =
        some (digits, tail, rest) := by
    obtain ⟨⟨ds, left⟩, hint, heq⟩ := Option.map_eq_some_iff.mp h
    simp only [Prod.mk.injEq] at heq
    obtain ⟨rfl, rfl, rfl, rfl⟩ := heq
    rw [hint]
    exact ⟨rfl, rfl⟩
  obtain ⟨rfl, ht⟩ := hparts
  split at hsign
  · cases hsign
    rw [hbody t ht]
    rfl
  · cases hsign
    rw [hbody s ht]
    rfl

/-- The text of a number that is a float is one token. -/
theorem numberTokens_float {r digits tail : PyStr} {neg : Bool}
    (h : scanNumber r = some (neg, digits, tail, [])) :
    numberTokens r = [.number neg digits tail] := by
  rw [numberTokens, h]

/-- The token of a float is read back to the float. -/
theorem numberValue_float {lim : Limits} {fl : FloatRepr} {r digits tail : PyStr} {neg : Bool}
    (h : scanNumber r = some (neg, digits, tail, [])) (htail : tail ≠ []) (hr : fl r = r) :
    numberValue lim fl neg digits tail = .ok (.float r) := by
  have htext := scanNumber_text h
  rw [List.append_nil] at htext
  rw [numberValue, if_neg htail, ← htext, hr]

-- ============================================================================
-- Strings
-- ============================================================================

/-- The characters a printed character is read as. -/
def unitsOf (ensureAscii : Bool) (c : Nat) : List (Bool × Nat) :=
  if c = 34 ∨ c = 92 ∨ c = 10 ∨ c = 13 ∨ c = 9 ∨ c = 12 ∨ c = 8 then [(false, c)]
  else if c < 32 then [(true, c)]
  else if ensureAscii && 127 ≤ c then
    if c < 0x10000 then [(true, c)]
    else [(true, 0xD800 + (c - 0x10000) / 1024), (true, 0xDC00 + (c - 0x10000) % 1024)]
  else [(false, c)]

/-- The halves of no surrogate pair stand next to each other. -/
def pairFree : PyStr → Bool
  | h :: l :: rest => !(isHighSurrogate h && isLowSurrogate l) && pairFree (l :: rest)
  | _ => true

/-- The text comes back from `json.dumps` with this setting. -/
def TextOk (ensureAscii : Bool) (s : PyStr) : Prop :=
  ensureAscii = true → (∀ c ∈ s, c < 0x110000) ∧ pairFree s = true

theorem hexValue_hexDigit {n : Nat} (h : n < 16) : hexValue (hexDigit n) = some n := by
  have hall : ∀ n < 16, hexValue (hexDigit n) = some n := by decide
  exact hall n h

/-- A `\uXXXX` escape is read as the unit it was printed from. -/
theorem lex_uEscape {n : Nat} (h : n < 0x10000) (us : List (Bool × Nat)) (rest : PyStr) :
    lexFrom (.string us) (uEscape n ++ rest) = lexFrom (.string (us ++ [(true, n)])) rest := by
  have h3 := hexValue_hexDigit (show n / 4096 % 16 < 16 by omega)
  have h2 := hexValue_hexDigit (show n / 256 % 16 < 16 by omega)
  have h1 := hexValue_hexDigit (show n / 16 % 16 < 16 by omega)
  have h0 := hexValue_hexDigit (show n % 16 < 16 by omega)
  have hn : (((0 * 16 + n / 4096 % 16) * 16 + n / 256 % 16) * 16 + n / 16 % 16) * 16 + n % 16 = n := by
    omega
  show lexFrom (.string us) (92 :: 117 :: hexDigit (n / 4096 % 16) :: hexDigit (n / 256 % 16)
    :: hexDigit (n / 16 % 16) :: hexDigit (n % 16) :: rest) = _
  simp only [lexFrom, Lexer.step, h3, h2, h1, h0, hn, List.nil_append, ↓reduceIte,
    Nat.reduceEqDiff, Nat.reduceAdd]

/-- A printed character is read as its units. -/
theorem lex_escapeChar {ensureAscii : Bool} {c : Nat} (hc : ensureAscii = true → c < 0x110000)
    (us : List (Bool × Nat)) (rest : PyStr) :
    lexFrom (.string us) (escapeChar ensureAscii c ++ rest) =
      lexFrom (.string (us ++ unitsOf ensureAscii c)) rest := by
  by_cases hshort : c = 34 ∨ c = 92 ∨ c = 10 ∨ c = 13 ∨ c = 9 ∨ c = 12 ∨ c = 8
  · have hunits : unitsOf ensureAscii c = [(false, c)] := if_pos hshort
    rw [hunits]
    rcases hshort with rfl | rfl | rfl | rfl | rfl | rfl | rfl <;> rfl
  · have hchar : escapeChar ensureAscii c =
        if c < 32 then uEscape c
        else if ensureAscii && 127 ≤ c then
          if c < 0x10000 then uEscape c
          else uEscape (0xD800 + (c - 0x10000) / 1024) ++ uEscape (0xDC00 + (c - 0x10000) % 1024)
        else [c] := by
      simp only [not_or] at hshort
      obtain ⟨h1, h2, h3, h4, h5, h6, h7⟩ := hshort
      simp only [escapeChar, h1, h2, h3, h4, h5, h6, h7, ↓reduceIte]
    have hquote : c ≠ 34 := fun h => hshort (.inl h)
    have hslash : c ≠ 92 := fun h => hshort (.inr (.inl h))
    rw [hchar, unitsOf, if_neg hshort]
    by_cases hlow : c < 32
    · rw [if_pos hlow, if_pos hlow]
      exact lex_uEscape (by omega) us rest
    · rw [if_neg hlow, if_neg hlow]
      by_cases hascii : (ensureAscii && decide (127 ≤ c)) = true
      · rw [if_pos hascii, if_pos hascii]
        by_cases hbmp : c < 0x10000
        · rw [if_pos hbmp, if_pos hbmp]
          exact lex_uEscape hbmp us rest
        · -- a surrogate pair
          have hbound := hc (by simp only [Bool.and_eq_true] at hascii; exact hascii.1)
          rw [if_neg hbmp, if_neg hbmp, List.append_assoc, lex_uEscape (by omega),
            lex_uEscape (by omega), List.append_assoc]
          rfl
      · rw [if_neg hascii, if_neg hascii]
        simp only [List.cons_append, List.nil_append, lexFrom, Lexer.step, hquote, hslash, hlow,
          ↓reduceIte]

/-- A printed string literal is one token. -/
theorem lex_string {ensureAscii : Bool} {s : PyStr}
    (hs : ensureAscii = true → ∀ c ∈ s, c < 0x110000) (us : List (Bool × Nat)) (rest : PyStr) :
    lexFrom (.string us) (s.flatMap (escapeChar ensureAscii) ++ 34 :: rest) =
      .str (joinPairs (us ++ s.flatMap (unitsOf ensureAscii))) :: lexFrom .between rest := by
  induction s generalizing us with
  | nil => simp [lexFrom, Lexer.step]
  | cons c s ih =>
      have hc : ensureAscii = true → c < 0x110000 := fun h => hs h c (List.mem_cons_self ..)
      have hrest := fun h d hd => hs h d (List.mem_cons_of_mem c hd)
      rw [List.flatMap_cons, List.flatMap_cons, List.append_assoc, lex_escapeChar hc, ih hrest,
        List.append_assoc]

@[simp] theorem joinPairs_raw (c : Nat) (us : List (Bool × Nat)) :
    joinPairs ((false, c) :: us) = c :: joinPairs us := by
  rw [joinPairs.eq_2]
  intro h l rest heq
  cases heq

theorem joinPairs_unpaired {c : Nat} {us : List (Bool × Nat)}
    (h : isHighSurrogate c = true → ∀ l rest, us = (true, l) :: rest → isLowSurrogate l = false) :
    joinPairs ((true, c) :: us) = c :: joinPairs us := by
  rcases us with _ | ⟨⟨b, l⟩, rest⟩
  · rfl
  · cases b with
    | false => rfl
    | true =>
        have hno : (isHighSurrogate c && isLowSurrogate l) = false := by
          cases hc : isHighSurrogate c with
          | false => rfl
          | true => rw [h hc l rest rfl]; rfl
        rw [joinPairs, hno]
        rfl

/-- A pair of units is one character. -/
theorem joinPairs_pair {c : Nat} (hlow : 0x10000 ≤ c) (hhigh : c < 0x110000)
    (us : List (Bool × Nat)) :
    joinPairs ((true, 0xD800 + (c - 0x10000) / 1024) :: (true, 0xDC00 + (c - 0x10000) % 1024) :: us) =
      c :: joinPairs us := by
  have h : (isHighSurrogate (0xD800 + (c - 0x10000) / 1024) &&
      isLowSurrogate (0xDC00 + (c - 0x10000) % 1024)) = true := by
    simp only [isHighSurrogate, isLowSurrogate, Bool.and_eq_true, decide_eq_true_eq]
    omega
  have hc : 0x10000 + (0xD800 + (c - 0x10000) / 1024 - 0xD800) * 1024 +
      (0xDC00 + (c - 0x10000) % 1024 - 0xDC00) = c := by omega
  rw [joinPairs, if_pos h, hc]

/-- Only a lone second half is printed as one. -/
theorem head_unitsOf {ensureAscii : Bool} {d l : Nat} {s : PyStr} {rest : List (Bool × Nat)}
    (hd : d < 0x110000) (h : unitsOf ensureAscii d ++ s.flatMap (unitsOf ensureAscii) = (true, l) :: rest)
    (hl : isLowSurrogate l = true) : d = l := by
  simp only [isLowSurrogate, Bool.and_eq_true, decide_eq_true_eq] at hl
  unfold unitsOf at h
  split at h
  · cases h
  · split at h
    · cases h
      rfl
    · split at h
      · split at h
        · cases h
          rfl
        · simp only [List.cons_append, List.cons.injEq, Prod.mk.injEq, true_and] at h
          omega
      · cases h

/-- A character is printed raw, as one escape, or as a pair of them. -/
theorem unitsOf_cases (ensureAscii : Bool) (c : Nat) :
    unitsOf ensureAscii c = [(false, c)] ∨
      (unitsOf ensureAscii c = [(true, c)] ∧ (isHighSurrogate c = true → ensureAscii = true)) ∨
      (ensureAscii = true ∧ 0x10000 ≤ c ∧ unitsOf ensureAscii c =
        [(true, 0xD800 + (c - 0x10000) / 1024), (true, 0xDC00 + (c - 0x10000) % 1024)]) := by
  unfold unitsOf
  by_cases hshort : c = 34 ∨ c = 92 ∨ c = 10 ∨ c = 13 ∨ c = 9 ∨ c = 12 ∨ c = 8
  · exact .inl (if_pos hshort)
  · rw [if_neg hshort]
    by_cases hlow : c < 32
    · rw [if_pos hlow]
      refine .inr (.inl ⟨rfl, fun hhigh => ?_⟩)
      simp only [isHighSurrogate, Bool.and_eq_true, decide_eq_true_eq] at hhigh
      omega
    · rw [if_neg hlow]
      by_cases hascii : (ensureAscii && decide (127 ≤ c)) = true
      · have hset : ensureAscii = true := by
          simp only [Bool.and_eq_true] at hascii
          exact hascii.1
        rw [if_pos hascii]
        by_cases hbmp : c < 0x10000
        · rw [if_pos hbmp]
          exact .inr (.inl ⟨rfl, fun _ => hset⟩)
        · rw [if_neg hbmp]
          exact .inr (.inr ⟨hset, by omega, rfl⟩)
      · rw [if_neg hascii]
        exact .inl rfl

theorem TextOk.tail {ensureAscii : Bool} {c : Nat} {s : PyStr} (h : TextOk ensureAscii (c :: s)) :
    TextOk ensureAscii s := by
  intro hascii
  obtain ⟨hbound, hfree⟩ := h hascii
  refine ⟨fun d hd => hbound d (List.mem_cons_of_mem c hd), ?_⟩
  cases s with
  | nil => rfl
  | cons d s =>
      simp only [pairFree, Bool.and_eq_true] at hfree
      exact hfree.2

/-- After a first half no second half is printed. -/
theorem TextOk.unpaired {ensureAscii : Bool} {c : Nat} {s : PyStr}
    (h : TextOk ensureAscii (c :: s)) (hset : ensureAscii = true)
    (hhigh : isHighSurrogate c = true) {l : Nat} {rest : List (Bool × Nat)}
    (hnext : s.flatMap (unitsOf ensureAscii) = (true, l) :: rest) : isLowSurrogate l = false := by
  obtain ⟨hbound, hfree⟩ := h hset
  cases s with
  | nil => cases hnext
  | cons d s =>
      by_contra hl
      have hl' : isLowSurrogate l = true := by simpa using hl
      rw [List.flatMap_cons] at hnext
      have hd := head_unitsOf (hbound d (by simp)) hnext hl'
      simp only [pairFree, hd, hhigh, hl', Bool.and_self, Bool.not_true, Bool.false_and,
        Bool.false_eq_true] at hfree

/-- A text that can come back does. -/
theorem joinPairs_units {ensureAscii : Bool} {s : PyStr} (h : TextOk ensureAscii s) :
    joinPairs (s.flatMap (unitsOf ensureAscii)) = s := by
  induction s with
  | nil => rfl
  | cons c s ih =>
      have hjoin := ih h.tail
      rw [List.flatMap_cons]
      rcases unitsOf_cases ensureAscii c with hraw | ⟨hone, hset⟩ | ⟨hset, hlow, hpair⟩
      · rw [hraw, List.singleton_append, joinPairs_raw, hjoin]
      · rw [hone, List.singleton_append, joinPairs_unpaired, hjoin]
        exact fun hhigh l rest hnext => h.unpaired (hset hhigh) hhigh hnext
      · have hbound := (h hset).1 c (List.mem_cons_self ..)
        rw [hpair]
        show joinPairs (_ :: _ :: s.flatMap (unitsOf ensureAscii)) = _
        rw [joinPairs_pair hlow hbound, hjoin]

/-- A printed string literal is its text. -/
theorem lex_dumpsStr {ensureAscii : Bool} {s : PyStr} (h : TextOk ensureAscii s) (rest : PyStr) :
    lexFrom .between (dumpsStr ensureAscii s ++ rest) = .str s :: lexFrom .between rest := by
  have htext : dumpsStr ensureAscii s ++ rest =
      34 :: (s.flatMap (escapeChar ensureAscii) ++ 34 :: rest) := by
    show (34 :: s.flatMap (escapeChar ensureAscii) ++ [34]) ++ rest = _
    simp
  rw [htext]
  show lexFrom (.string []) _ = _
  rw [lex_string (fun hset => (h hset).1), List.nil_append, joinPairs_units h]

-- ============================================================================
-- The tokens of a value
-- ============================================================================

/-- The token of a float. -/
def floatTokens (r : PyStr) : List Token :=
  if r = py "nan" then [.word (py "NaN")]
  else if r = py "inf" then [.word (py "Infinity")]
  else if r = py "-inf" then [.word (py "-Infinity")]
  else numberTokens r

mutual

/-- The tokens a value is printed as. -/
def tokens : Json → List Token
  | .null => [.word (py "null")]
  | .bool true => [.word (py "true")]
  | .bool false => [.word (py "false")]
  | .int n => [.number (decide (n < 0)) (natText n.natAbs) []]
  | .float r => floatTokens r
  | .str s => [.str s]
  | .arr xs => .lbrack :: (tokensList xs ++ [.rbrack])
  | .obj kvs => .lbrace :: (tokensFields kvs ++ [.rbrace])

/-- The tokens of the elements of an array. -/
def tokensList : List Json → List Token
  | [] => []
  | [x] => tokens x
  | x :: xs => tokens x ++ .comma :: tokensList xs

/-- The tokens of the members of an object. -/
def tokensFields : Dict → List Token
  | [] => []
  | [(k, v)] => .str k :: .colon :: tokens v
  | (k, v) :: kvs => .str k :: .colon :: (tokens v ++ .comma :: tokensFields kvs)

end

mutual

/-- The value comes back from `json.dumps` with this setting: its texts do, its
    floats are floats, and no dict has a key twice. -/
def Readable (ensureAscii : Bool) (fl : FloatRepr) : Json → Prop
  | .float r => IsFloat fl r
  | .str s => TextOk ensureAscii s
  | .arr xs => ReadableList ensureAscii fl xs
  | .obj kvs => (kvs.map Prod.fst).Nodup ∧ ReadableFields ensureAscii fl kvs
  | _ => True

/-- `Readable` on the elements of a list. -/
def ReadableList (ensureAscii : Bool) (fl : FloatRepr) : List Json → Prop
  | [] => True
  | x :: xs => Readable ensureAscii fl x ∧ ReadableList ensureAscii fl xs

/-- `Readable` on the items of a dict. -/
def ReadableFields (ensureAscii : Bool) (fl : FloatRepr) : Dict → Prop
  | [] => True
  | (k, v) :: kvs => TextOk ensureAscii k ∧ Readable ensureAscii fl v ∧
      ReadableFields ensureAscii fl kvs

end

/-- What can follow a value in a printed text. -/
def Delimited (rest : PyStr) : Prop :=
  rest = [] ∨ ∃ c cs, rest = c :: cs ∧ (c = 44 ∨ c = 93 ∨ c = 125)

/-- A run of number characters ends at a delimiter. -/
theorem lex_number {text : PyStr} (htext : ∀ c ∈ text, isNumberChar c = true) {rest : PyStr}
    (hrest : Delimited rest) (read : PyStr) :
    lexFrom (.number read) (text ++ rest) = numberTokens (read ++ text) ++ lexFrom .between rest := by
  induction text generalizing read with
  | nil =>
      rw [List.nil_append, List.append_nil]
      rcases hrest with rfl | ⟨c, cs, rfl, rfl | rfl | rfl⟩
      · simp [lexFrom, Lexer.finish]
      all_goals
        simp [lexFrom, Lexer.step, isNumberChar, isDigitChar, isLetter]
  | cons c text ih =>
      have hc := htext c (List.mem_cons_self ..)
      have hlater := ih (fun d hd => htext d (List.mem_cons_of_mem c hd)) (read ++ [c])
      rw [List.append_assoc] at hlater
      simpa [lexFrom, Lexer.step, hc] using hlater

/-- A printed number is its token. -/
theorem lex_numberText {c : Nat} {text : PyStr} (hc : isDigitChar c = true ∨ c = 45)
    (htext : ∀ d ∈ c :: text, isNumberChar d = true) {rest : PyStr} (hrest : Delimited rest) :
    lexFrom .between (c :: text ++ rest) = numberTokens (c :: text) ++ lexFrom .between rest := by
  have hstart : Lexer.start c = ([], .number [c]) := by
    have hrange : (48 ≤ c ∧ c ≤ 57) ∨ c = 45 := by simpa [isDigitChar] using hc
    unfold Lexer.start isJsonSpace
    have h1 : ¬ c = 32 ∧ ¬ c = 9 ∧ ¬ c = 10 ∧ ¬ c = 13 ∧ ¬ c = 91 ∧ ¬ c = 93 ∧ ¬ c = 123 ∧
        ¬ c = 125 ∧ ¬ c = 58 ∧ ¬ c = 44 ∧ ¬ c = 34 := by omega
    have hstarts : (isDigitChar c || decide (c = 45)) = true := by simpa using hc
    simp [h1, hstarts]
  have hlater := lex_number (fun d hd => htext d (List.mem_cons_of_mem c hd)) hrest [c]
  show (Lexer.start c).1 ++ lexFrom (Lexer.start c).2 (text ++ rest) = _
  rw [hstart]
  exact hlater

/-- A word ends at a delimiter. -/
theorem lex_word {text : PyStr} (htext : ∀ c ∈ text, isLetter c = true) {rest : PyStr}
    (hrest : Delimited rest) (read : PyStr) :
    lexFrom (.word read) (text ++ rest) = .word (read ++ text) :: lexFrom .between rest := by
  induction text generalizing read with
  | nil =>
      rw [List.nil_append, List.append_nil]
      rcases hrest with rfl | ⟨c, cs, rfl, rfl | rfl | rfl⟩
      · simp [lexFrom, Lexer.finish]
      all_goals
        simp [lexFrom, Lexer.step, isLetter]
  | cons c text ih =>
      have hc := htext c (List.mem_cons_self ..)
      have hlater := ih (fun d hd => htext d (List.mem_cons_of_mem c hd)) (read ++ [c])
      rw [List.append_assoc] at hlater
      simpa [lexFrom, Lexer.step, hc] using hlater

theorem scanInt_digits {s digits rest : PyStr} (h : scanInt s = some (digits, rest)) :
    ∃ c cs, digits = c :: cs ∧ isDigitChar c = true := by
  unfold scanInt at h
  split at h
  · cases h
    exact ⟨48, [], rfl, by decide⟩
  · split at h
    · cases h
    · rename_i hne
      cases h
      obtain ⟨c, cs, hcons⟩ := List.exists_cons_of_ne_nil hne
      have hall : (s.takeWhile isDigitChar).all isDigitChar = true := List.all_takeWhile
      rw [hcons, List.all_cons, Bool.and_eq_true] at hall
      exact ⟨c, cs, hcons, hall.1⟩

/-- A number begins with a digit or a minus sign. -/
theorem scanNumber_head {s digits tail rest : PyStr} {neg : Bool}
    (h : scanNumber s = some (neg, digits, tail, rest)) :
    ∃ c cs, s = c :: cs ∧ (isDigitChar c = true ∨ c = 45) := by
  have hint : ∀ t, (scanInt t).map (fun r => (neg, r.1, (scanFrac r.2).1 ++
      (scanExp (scanFrac r.2).2).1, (scanExp (scanFrac r.2).2).2)) = some (neg, digits, tail, rest) →
      ∃ c cs, t = c :: cs ∧ isDigitChar c = true := by
    intro t ht
    obtain ⟨⟨ds, left⟩, hscan, -⟩ := Option.map_eq_some_iff.mp ht
    obtain ⟨c, cs, rfl, hc⟩ := scanInt_digits hscan
    exact ⟨c, cs ++ left, scanInt_text hscan, hc⟩
  unfold scanNumber at h
  split at h
  rename_i neg' t hsign
  split at hsign
  · rename_i left
    exact ⟨45, left, rfl, .inr rfl⟩
  · cases hsign
    have hneg : neg = false := by
      obtain ⟨r, -, heq⟩ := Option.map_eq_some_iff.mp h
      cases heq
      rfl
    subst hneg
    obtain ⟨c, cs, rfl, hc⟩ := hint s h
    exact ⟨c, cs, rfl, .inl hc⟩

/-- A printed integer begins with a digit or a minus sign. -/
theorem intText_head (n : Int) :
    ∃ c cs, intText n = c :: cs ∧ (isDigitChar c = true ∨ c = 45) := by
  cases n with
  | ofNat n =>
      obtain ⟨c, cs, hcons⟩ := List.exists_cons_of_ne_nil (natText_ne_nil n)
      have hmem : c ∈ natText n := by rw [hcons]; exact List.mem_cons_self ..
      exact ⟨c, cs, hcons, .inl (isDigitChar_natText n c hmem)⟩
  | negSucc n => exact ⟨45, natText (n + 1), rfl, .inr rfl⟩

-- ============================================================================
-- Cutting a printed value
-- ============================================================================

/-- A letter begins a word. -/
theorem lex_letters {c : Nat} {text : PyStr} (htext : ∀ d ∈ c :: text, isLetter d = true)
    {rest : PyStr} (hrest : Delimited rest) :
    lexFrom .between (c :: text ++ rest) = .word (c :: text) :: lexFrom .between rest := by
  have hc := htext c (List.mem_cons_self ..)
  have hstart : Lexer.start c = ([], .word [c]) := by
    have hrange : (65 ≤ c ∧ c ≤ 90) ∨ (97 ≤ c ∧ c ≤ 122) := by simpa [isLetter] using hc
    have h1 : ¬ c = 32 ∧ ¬ c = 9 ∧ ¬ c = 10 ∧ ¬ c = 13 ∧ ¬ c = 91 ∧ ¬ c = 93 ∧ ¬ c = 123 ∧
        ¬ c = 125 ∧ ¬ c = 58 ∧ ¬ c = 44 ∧ ¬ c = 34 ∧ ¬ c = 45 := by omega
    have hdigit : isDigitChar c = false := by
      simp only [isDigitChar, Bool.and_eq_false_iff, decide_eq_false_iff_not]
      omega
    simp [Lexer.start, isJsonSpace, h1, hdigit, hc]
  show (Lexer.start c).1 ++ lexFrom (Lexer.start c).2 (text ++ rest) = _
  rw [hstart]
  exact lex_word (fun d hd => htext d (List.mem_cons_of_mem c hd)) hrest [c]

theorem not_isNumberChar_word : isNumberChar 110 = false ∧ isNumberChar 105 = false := by decide

/-- A printed float is its tokens. -/
theorem lex_dumpsFloat {fl : FloatRepr} {r : PyStr} (h : IsFloat fl r) {rest : PyStr}
    (hrest : Delimited rest) :
    lexFrom .between (dumpsFloat r ++ rest) = floatTokens r ++ lexFrom .between rest := by
  rcases h with rfl | rfl | rfl | ⟨-, hchars, neg, digits, tail, hscan, -⟩
  · exact lex_letters (by decide) hrest
  · exact lex_letters (by decide) hrest
  · have hword : ∀ d ∈ py "nfinity", isLetter d = true := by decide
    exact lex_word hword hrest [45, 73]
  · -- a number: none of the words
    have hword : r ≠ py "nan" ∧ r ≠ py "inf" ∧ r ≠ py "-inf" := by
      obtain ⟨hn, hi⟩ := not_isNumberChar_word
      refine ⟨?_, ?_, ?_⟩
      · intro hr
        have := hchars 110 (by rw [hr]; decide)
        rw [hn] at this
        cases this
      · intro hr
        have := hchars 105 (by rw [hr]; decide)
        rw [hi] at this
        cases this
      · intro hr
        have := hchars 105 (by rw [hr]; decide)
        rw [hi] at this
        cases this
    obtain ⟨hnan, hinf, hminus⟩ := hword
    obtain ⟨c, cs, rfl, hc⟩ := scanNumber_head hscan
    rw [dumpsFloat, if_neg hnan, if_neg hinf, if_neg hminus, floatTokens, if_neg hnan, if_neg hinf,
      if_neg hminus]
    exact lex_numberText hc hchars hrest

/-- A separator is its comma. -/
theorem lex_separator (rest : PyStr) :
    lexFrom .between (py ", " ++ rest) = .comma :: lexFrom .between rest := rfl

/-- A key's colon. -/
theorem lex_colon (rest : PyStr) :
    lexFrom .between (py ": " ++ rest) = .colon :: lexFrom .between rest := rfl

theorem delimited_comma (rest : PyStr) : Delimited (py ", " ++ rest) :=
  .inr ⟨44, 32 :: rest, rfl, .inl rfl⟩

theorem delimited_rbrack (rest : PyStr) : Delimited (py "]" ++ rest) :=
  .inr ⟨93, rest, rfl, .inr (.inl rfl)⟩

theorem delimited_rbrace (rest : PyStr) : Delimited (py "\x7d" ++ rest) :=
  .inr ⟨125, rest, rfl, .inr (.inr rfl)⟩

mutual

/-- A printed value is its tokens. -/
theorem lex_dumps {ensureAscii : Bool} {fl : FloatRepr} :
    (v : Json) → Readable ensureAscii fl v → {rest : PyStr} → Delimited rest →
      lexFrom .between (dumps ensureAscii v ++ rest) = tokens v ++ lexFrom .between rest
  | .null, _, _, hrest => lex_letters (by decide) hrest
  | .bool true, _, _, hrest => lex_letters (by decide) hrest
  | .bool false, _, _, hrest => lex_letters (by decide) hrest
  | .int n, _, rest, hrest => by
      obtain ⟨c, cs, hcons, hc⟩ := intText_head n
      have hchars := isNumberChar_intText n
      have htokens := numberTokens_intText n
      rw [hcons] at hchars htokens
      show lexFrom .between (intText n ++ rest) = _
      rw [hcons, lex_numberText hc hchars hrest, htokens]
      rfl
  | .float r, h, _, hrest => lex_dumpsFloat h hrest
  | .str s, h, rest, _ => lex_dumpsStr h rest
  | .arr xs, h, rest, hrest => by
      have hxs := lex_dumpsList xs h (delimited_rbrack rest)
      have htext : dumps ensureAscii (.arr xs) ++ rest =
          91 :: (dumpsList ensureAscii xs ++ (py "]" ++ rest)) := by
        show (91 :: dumpsList ensureAscii xs ++ py "]") ++ rest = _
        rw [List.append_assoc, List.cons_append]
      rw [htext]
      show .lbrack :: lexFrom .between _ = .lbrack :: (tokensList xs ++ [.rbrack]) ++ _
      rw [hxs, List.cons_append, List.append_assoc]
      rfl
  | .obj kvs, h, rest, hrest => by
      have hkvs := lex_dumpsFields kvs h.2 (delimited_rbrace rest)
      have htext : dumps ensureAscii (.obj kvs) ++ rest =
          123 :: (dumpsFields ensureAscii kvs ++ (py "\x7d" ++ rest)) := by
        show (123 :: dumpsFields ensureAscii kvs ++ py "\x7d") ++ rest = _
        rw [List.append_assoc, List.cons_append]
      rw [htext]
      show .lbrace :: lexFrom .between _ = .lbrace :: (tokensFields kvs ++ [.rbrace]) ++ _
      rw [hkvs, List.cons_append, List.append_assoc]
      rfl

theorem lex_dumpsList {ensureAscii : Bool} {fl : FloatRepr} :
    (xs : List Json) → ReadableList ensureAscii fl xs → {rest : PyStr} → Delimited rest →
      lexFrom .between (dumpsList ensureAscii xs ++ rest) = tokensList xs ++ lexFrom .between rest
  | [], _, _, _ => rfl
  | [x], h, _, hrest => lex_dumps x h.1 hrest
  | x :: y :: xs, h, rest, hrest => by
      have hx := lex_dumps x h.1 (delimited_comma (dumpsList ensureAscii (y :: xs) ++ rest))
      have hxs := lex_dumpsList (y :: xs) h.2 hrest
      show lexFrom .between ((dumps ensureAscii x ++ py ", " ++ dumpsList ensureAscii (y :: xs)) ++ rest)
        = (tokens x ++ .comma :: tokensList (y :: xs)) ++ _
      rw [List.append_assoc, List.append_assoc, hx, lex_separator, hxs, List.append_assoc]
      rfl

theorem lex_dumpsFields {ensureAscii : Bool} {fl : FloatRepr} :
    (kvs : Dict) → ReadableFields ensureAscii fl kvs → {rest : PyStr} → Delimited rest →
      lexFrom .between (dumpsFields ensureAscii kvs ++ rest) =
        tokensFields kvs ++ lexFrom .between rest
  | [], _, _, _ => rfl
  | [(k, v)], h, rest, hrest => by
      have hk := lex_dumpsStr h.1 (py ": " ++ (dumps ensureAscii v ++ rest))
      have hv := lex_dumps v h.2.1 hrest
      show lexFrom .between ((dumpsStr ensureAscii k ++ py ": " ++ dumps ensureAscii v) ++ rest)
        = (.str k :: .colon :: tokens v) ++ _
      rw [List.append_assoc, List.append_assoc, hk, lex_colon, hv]
      rfl
  | (k, v) :: kv :: kvs, h, rest, hrest => by
      have hk := lex_dumpsStr h.1 (py ": " ++ (dumps ensureAscii v ++ (py ", " ++
        (dumpsFields ensureAscii (kv :: kvs) ++ rest))))
      have hv := lex_dumps v h.2.1 (delimited_comma (dumpsFields ensureAscii (kv :: kvs) ++ rest))
      have hkvs := lex_dumpsFields (kv :: kvs) h.2.2 hrest
      show lexFrom .between ((dumpsStr ensureAscii k ++ py ": " ++ dumps ensureAscii v ++ py ", " ++
          dumpsFields ensureAscii (kv :: kvs)) ++ rest)
        = (.str k :: .colon :: (tokens v ++ .comma :: tokensFields (kv :: kvs))) ++ _
      rw [List.append_assoc, List.append_assoc, List.append_assoc, List.append_assoc, hk, lex_colon,
        hv, lex_separator, hkvs]
      simp only [List.cons_append, List.append_assoc]

end

-- ============================================================================
-- Reading the tokens of a value
-- ============================================================================

/-- The tokens take the reader from one place to the other. -/
def Reads (fl : FloatRepr) (r : Reader) (ts : List Token) (r' : Reader) : Prop :=
  ts.foldlM (Reader.step {} fl) r = .ok r'

theorem Reads.nil (fl : FloatRepr) (r : Reader) : Reads fl r [] r := rfl

theorem Reads.cons {fl : FloatRepr} {r r₁ r' : Reader} {t : Token} {ts : List Token}
    (ht : Reader.step {} fl r t = .ok r₁) (hts : Reads fl r₁ ts r') : Reads fl r (t :: ts) r' := by
  unfold Reads
  rw [List.foldlM_cons, ht]
  exact hts

theorem Reads.append {fl : FloatRepr} {r r₁ r' : Reader} {ts us : List Token}
    (hts : Reads fl r ts r₁) (hus : Reads fl r₁ us r') : Reads fl r (ts ++ us) r' := by
  unfold Reads at hts ⊢
  rw [List.foldlM_append, hts]
  exact hus

theorem Reads.one {fl : FloatRepr} {r r' : Reader} {t : Token}
    (ht : Reader.step {} fl r t = .ok r') : Reads fl r [t] r' :=
  Reads.cons ht (Reads.nil fl r')

/-- The tokens of a float are one, and it has its value. -/
theorem floatTokens_cases {fl : FloatRepr} {r : PyStr} (h : IsFloat fl r) :
    ∃ t, floatTokens r = [t] ∧ t ≠ .rbrack ∧ ∀ stack,
      Reader.beginValue {} fl stack t = .ok (Reader.complete stack (.float r)) := by
  rcases h with rfl | rfl | rfl | ⟨hfl, hchars, neg, digits, tail, hscan, htail⟩
  · exact ⟨.word (py "NaN"), by decide, by decide, fun _ => rfl⟩
  · exact ⟨.word (py "Infinity"), by decide, by decide, fun _ => rfl⟩
  · exact ⟨.word (py "-Infinity"), by decide, by decide, fun _ => rfl⟩
  · by_cases hnan : r = py "nan"
    · exact ⟨.word (py "NaN"), by rw [hnan]; decide, by decide, fun _ => by rw [hnan]; rfl⟩
    · by_cases hinf : r = py "inf"
      · exact ⟨.word (py "Infinity"), by rw [hinf]; decide, by decide, fun _ => by rw [hinf]; rfl⟩
      · by_cases hminus : r = py "-inf"
        · exact ⟨.word (py "-Infinity"), by rw [hminus]; decide, by decide,
            fun _ => by rw [hminus]; rfl⟩
        · refine ⟨.number neg digits tail, ?_, Token.noConfusion, fun stack => ?_⟩
          · rw [floatTokens, if_neg hnan, if_neg hinf, if_neg hminus]
            exact numberTokens_float hscan
          · show (numberValue {} fl neg digits tail).map _ = _
            rw [numberValue_float hscan htail hfl]
            rfl

/-- No value begins with the end of an array. -/
theorem tokens_head {ensureAscii : Bool} {fl : FloatRepr} {v : Json} (h : Readable ensureAscii fl v) :
    ∃ t ts, tokens v = t :: ts ∧ t ≠ .rbrack := by
  cases v with
  | null => exact ⟨_, [], rfl, Token.noConfusion⟩
  | bool b => cases b <;> exact ⟨_, [], rfl, Token.noConfusion⟩
  | int n => exact ⟨_, [], rfl, Token.noConfusion⟩
  | float r =>
      obtain ⟨t, ht, hne, -⟩ := floatTokens_cases h
      exact ⟨t, [], ht, hne⟩
  | str s => exact ⟨_, [], rfl, Token.noConfusion⟩
  | arr xs => exact ⟨_, _, rfl, Token.noConfusion⟩
  | obj kvs => exact ⟨_, _, rfl, Token.noConfusion⟩

theorem tokensList_head {ensureAscii : Bool} {fl : FloatRepr} {x : Json} {xs : List Json}
    (h : ReadableList ensureAscii fl (x :: xs)) :
    ∃ t ts, tokensList (x :: xs) = t :: ts ∧ t ≠ .rbrack := by
  obtain ⟨t, ts, ht, hne⟩ := tokens_head h.1
  cases xs with
  | nil => exact ⟨t, ts, ht, hne⟩
  | cons y xs =>
      refine ⟨t, ts ++ .comma :: tokensList (y :: xs), ?_, hne⟩
      show tokens x ++ .comma :: tokensList (y :: xs) = _
      rw [ht, List.cons_append]

/-- An array just opened takes its first element as any other. -/
theorem Reads.first {fl : FloatRepr} {stack : List Open} {t : Token} {ts : List Token} {r' : Reader}
    (hne : t ≠ .rbrack) (h : Reads fl ⟨stack, .value⟩ (t :: ts) r') :
    Reads fl ⟨stack, .firstValue⟩ (t :: ts) r' := by
  have hstep : Reader.step {} fl ⟨stack, .firstValue⟩ t = Reader.step {} fl ⟨stack, .value⟩ t := by
    show (if t = .rbrack then _ else _) = _
    rw [if_neg hne]
    rfl
  unfold Reads at h ⊢
  rw [List.foldlM_cons] at h ⊢
  rw [hstep]
  exact h

mutual

/-- Reading the tokens of a value gives the value. -/
theorem read_tokens {ensureAscii : Bool} {fl : FloatRepr} :
    (v : Json) → Readable ensureAscii fl v → (stack : List Open) →
      Reads fl ⟨stack, .value⟩ (tokens v) (Reader.complete stack v)
  | .null, _, _ => Reads.one rfl
  | .bool true, _, _ => Reads.one rfl
  | .bool false, _, _ => Reads.one rfl
  | .int n, _, stack => by
      refine Reads.one ?_
      show (numberValue {} fl (decide (n < 0)) (natText n.natAbs) []).map (Reader.complete stack) = _
      rw [numberValue_int]
      rfl
  | .float r, h, stack => by
      obtain ⟨t, ht, -, hvalue⟩ := floatTokens_cases h
      show Reads fl _ (floatTokens r) _
      rw [ht]
      exact Reads.one (hvalue stack)
  | .str s, _, _ => Reads.one rfl
  | .arr [], _, _ => Reads.cons rfl (Reads.one rfl)
  | .arr (x :: xs), h, stack => by
      have hxs := read_tokensList (x :: xs) h (List.cons_ne_nil _ _) [] stack
      obtain ⟨t, ts, ht, hne⟩ := tokensList_head h
      rw [ht] at hxs
      have hend : Reads fl ⟨.elements ([] ++ x :: xs) :: stack, .more⟩ [.rbrack]
          (Reader.complete stack (.arr (x :: xs))) := Reads.one rfl
      have hfirst := (Reads.first hne hxs).append hend
      rw [← ht] at hfirst
      exact Reads.cons rfl hfirst
  | .obj [], _, _ => Reads.cons rfl (Reads.one rfl)
  | .obj ((k, v) :: kvs), h, stack => by
      have hkvs := read_tokensFields ((k, v) :: kvs) h.2 (List.cons_ne_nil _ _) [] h.1 stack .firstKey
        (.inl rfl)
      exact Reads.cons rfl (hkvs.append (Reads.one rfl))

theorem read_tokensList {ensureAscii : Bool} {fl : FloatRepr} :
    (xs : List Json) → ReadableList ensureAscii fl xs → xs ≠ [] →
      (acc : List Json) → (stack : List Open) →
        Reads fl ⟨.elements acc :: stack, .value⟩ (tokensList xs)
          ⟨.elements (acc ++ xs) :: stack, .more⟩
  | [], _, hne, _, _ => absurd rfl hne
  | [x], h, _, acc, stack => read_tokens x h.1 (.elements acc :: stack)
  | x :: y :: xs, h, _, acc, stack => by
      have hx := read_tokens x h.1 (.elements acc :: stack)
      have hxs := read_tokensList (y :: xs) h.2 (List.cons_ne_nil _ _) (acc ++ [x]) stack
      rw [List.append_assoc] at hxs
      exact hx.append (Reads.cons rfl hxs)

theorem read_tokensFields {ensureAscii : Bool} {fl : FloatRepr} :
    (kvs : Dict) → ReadableFields ensureAscii fl kvs → kvs ≠ [] →
      (acc : Dict) → ((acc ++ kvs).map Prod.fst).Nodup → (stack : List Open) →
        (want : Want) → (want = .firstKey ∨ want = .key) →
          Reads fl ⟨.members acc :: stack, want⟩ (tokensFields kvs)
            ⟨.members (acc ++ kvs) :: stack, .more⟩
  | [], _, hne, _, _, _, _, _ => absurd rfl hne
  | [(k, v)], h, _, acc, hnodup, stack, want, hwant => by
      have hv := read_tokens v h.2.1 (.member acc k :: stack)
      have hk : k ∉ acc.map Prod.fst := by
        rw [List.map_append, List.nodup_append] at hnodup
        exact fun hmem => hnodup.2.2 k hmem k (List.mem_cons_self ..) rfl
      have hdone : Reader.complete (.member acc k :: stack) v =
          ⟨.members (acc ++ [(k, v)]) :: stack, .more⟩ := by
        show Reader.mk _ _ = _
        rw [Dict.set_of_not_mem hk]
      rw [hdone] at hv
      rcases hwant with rfl | rfl
      · exact Reads.cons rfl (Reads.cons rfl hv)
      · exact Reads.cons rfl (Reads.cons rfl hv)
  | (k, v) :: kv :: kvs, h, _, acc, hnodup, stack, want, hwant => by
      have hv := read_tokens v h.2.1 (.member acc k :: stack)
      have hk : k ∉ acc.map Prod.fst := by
        rw [List.map_append, List.nodup_append] at hnodup
        exact fun hmem => hnodup.2.2 k hmem k (List.mem_cons_self ..) rfl
      have hdone : Reader.complete (.member acc k :: stack) v =
          ⟨.members (acc ++ [(k, v)]) :: stack, .more⟩ := by
        show Reader.mk _ _ = _
        rw [Dict.set_of_not_mem hk]
      have happend : acc ++ [(k, v)] ++ kv :: kvs = acc ++ (k, v) :: kv :: kvs := by simp
      have hkvs := read_tokensFields (kv :: kvs) h.2.2 (List.cons_ne_nil _ _) (acc ++ [(k, v)])
        (by rw [happend]; exact hnodup) stack .key (.inr rfl)
      rw [hdone] at hv
      rw [happend] at hkvs
      have htail := hv.append (Reads.cons (t := .comma) rfl hkvs)
      rcases hwant with rfl | rfl
      · exact Reads.cons rfl (Reads.cons rfl htail)
      · exact Reads.cons rfl (Reads.cons rfl htail)

end

/-- `json.loads(json.dumps(v)) = v`, where texts and floats allow it. -/
theorem loads_dumps {ensureAscii : Bool} {fl : FloatRepr} {v : Json}
    (h : Readable ensureAscii fl v) : loads {} fl (dumps ensureAscii v) = .ok v := by
  have hlex := lex_dumps v h (.inl rfl : Delimited [])
  rw [List.append_nil] at hlex
  have hend : lexFrom .between [] = [] := rfl
  rw [hend, List.append_nil] at hlex
  have hread : (tokens v).foldlM (Reader.step {} fl) {} = .ok (Reader.complete [] v) :=
    read_tokens v h []
  unfold loads readTokens
  rw [hlex, hread]
  rfl

end Py
end KineticSdk
