/-
  KineticSdk.Py.Quoted

  A printed JSON value, taken apart at its texts.

  Between two texts stands a gap: brackets, separators and numbers, and none of
  the characters a tag or an escape is made of.  So what is searched for in the
  printed value is found inside one text, or across a gap and the quotes around
  it.
-/

import KineticSdk.Py.JsonAscii

namespace KineticSdk
namespace Py

variable {fl : FloatRepr}

-- ============================================================================
-- Searching across a separator
-- ============================================================================

/-- What has no `x` in it and begins before an `x` ends before it. -/
theorem prefix_before {p a b : PyStr} {x : Nat} (hx : x ∉ p) : p <+: a ++ x :: b ↔ p <+: a := by
  induction p generalizing a with
  | nil => simp only [List.nil_prefix]
  | cons d p ih =>
      have hp : x ∉ p := fun hmem => hx (List.mem_cons_of_mem _ hmem)
      cases a with
      | nil =>
          have hne : d ≠ x := fun heq => hx (heq ▸ List.mem_cons_self ..)
          rw [List.nil_append, List.cons_prefix_cons, List.prefix_nil]
          exact ⟨fun h => absurd h.1 hne, fun h => absurd h (List.cons_ne_nil _ _)⟩
      | cons c a => rw [List.cons_append, List.cons_prefix_cons, List.cons_prefix_cons, ih hp]

/-- What has no `x` in it stands before an `x` or behind it. -/
theorem infix_around {p a b : PyStr} {x : Nat} (hp : p ≠ []) (hx : x ∉ p) :
    p <:+: a ++ x :: b ↔ p <:+: a ∨ p <:+: b := by
  induction a with
  | nil =>
      have hstart : ¬ p <+: x :: b := fun h =>
        hp (List.prefix_nil.mp ((prefix_before (a := []) hx).mp h))
      rw [List.nil_append, List.infix_cons_iff, List.infix_nil]
      tauto
  | cons c a ih =>
      rw [List.cons_append, List.infix_cons_iff, ih, List.infix_cons_iff, ← List.cons_append,
        prefix_before hx, or_assoc]

theorem prefix_of_notMem {p a b : PyStr} {x : Nat} (ha : x ∉ a) :
    p ++ [x] <+: a ++ x :: b → x ∉ p → p = a := by
  intro h hp
  induction p generalizing a with
  | nil =>
      cases a with
      | nil => rfl
      | cons c a =>
          obtain ⟨rfl, -⟩ := List.cons_prefix_cons.mp h
          exact absurd (List.mem_cons_self ..) ha
  | cons d p ih =>
      cases a with
      | nil =>
          obtain ⟨rfl, -⟩ := List.cons_prefix_cons.mp h
          exact absurd (List.mem_cons_self ..) hp
      | cons c a =>
          obtain ⟨rfl, hrest⟩ := List.cons_prefix_cons.mp h
          rw [ih (fun hmem => ha (List.mem_cons_of_mem _ hmem)) hrest
            fun hmem => hp (List.mem_cons_of_mem _ hmem)]

-- ============================================================================
-- Texts and gaps
-- ============================================================================

/-- A character that stands between two texts of a printed value: no quote, no
    backslash, and none of `<`, `=` and `>`. -/
def gapChar (c : Nat) : Bool := c != 34 && c != 60 && c != 61 && c != 62 && c != 92

/-- What stands between two texts. -/
def Gap (g : PyStr) : Prop := ∀ c ∈ g, gapChar c = true

instance (g : PyStr) : Decidable (Gap g) := inferInstanceAs (Decidable (∀ c ∈ g, gapChar c = true))

/-- The texts in the order in which they are printed, with gaps between them. -/
inductive Quoted (ensureAscii : Bool) : List PyStr → PyStr → Prop
  | gap {g : PyStr} (hg : Gap g) : Quoted ensureAscii [] g
  | text {g : PyStr} (hg : Gap g) (s : PyStr) {ss : List PyStr} {t : PyStr}
      (ht : Quoted ensureAscii ss t) : Quoted ensureAscii (s :: ss) (g ++ (dumpsStr ensureAscii s ++ t))

variable {ensureAscii : Bool}

theorem Gap.append {g g' : PyStr} (hg : Gap g) (hg' : Gap g') : Gap (g ++ g') := by
  intro c hc
  rcases List.mem_append.mp hc with h | h
  · exact hg c h
  · exact hg' c h

theorem Gap.notMem {g : PyStr} (hg : Gap g) {c : Nat} (hc : gapChar c = false) : c ∉ g := fun hmem =>
  Bool.noConfusion ((hg c hmem).symm.trans hc)

theorem gap_number {s : PyStr} (hs : ∀ c ∈ s, isNumberChar c = true) : Gap s := by
  intro c hc
  have hnum := hs c hc
  simp only [isNumberChar, isDigitChar, Bool.or_eq_true, Bool.and_eq_true, decide_eq_true_eq,
    beq_iff_eq] at hnum
  simp only [gapChar, Bool.and_eq_true, bne_iff_ne]
  omega

theorem gap_float {r : PyStr} (hr : IsFloat fl r) : Gap (dumpsFloat r) := by
  unfold dumpsFloat
  split_ifs with hnan hinf hminus
  · decide
  · decide
  · decide
  · rcases hr with hr | hr | hr | ⟨-, hchars, -⟩
    · exact absurd hr hnan
    · exact absurd hr hinf
    · exact absurd hr hminus
    · exact gap_number hchars

theorem Quoted.append {ss ss' : List PyStr} {t t' : PyStr} (h : Quoted ensureAscii ss t)
    (h' : Quoted ensureAscii ss' t') : Quoted ensureAscii (ss ++ ss') (t ++ t') := by
  induction h with
  | @gap g hg =>
      cases h' with
      | gap hg' => exact .gap (hg.append hg')
      | text hg' s ht =>
          rw [← List.append_assoc]
          exact .text (hg.append hg') s ht
  | @text g hg s ss t ht ih =>
      rw [List.append_assoc, List.append_assoc]
      exact .text hg s ih

theorem quoted_dumpsStr (s : PyStr) : Quoted ensureAscii [s] (dumpsStr ensureAscii s) := by
  have h : Quoted ensureAscii [s] ([] ++ (dumpsStr ensureAscii s ++ [])) :=
    .text (by decide) s (.gap (by decide))
  rwa [List.nil_append, List.append_nil] at h

/-- A gap in front. -/
theorem Quoted.after {g t : PyStr} {ss : List PyStr} (hg : Gap g) (h : Quoted ensureAscii ss t) :
    Quoted ensureAscii ss (g ++ t) := (Quoted.gap hg).append h

/-- A gap at the end. -/
theorem Quoted.before {g t : PyStr} {ss : List PyStr} (h : Quoted ensureAscii ss t) (hg : Gap g) :
    Quoted ensureAscii ss (t ++ g) := by
  have happend := h.append (Quoted.gap hg)
  rwa [List.append_nil] at happend

mutual

/-- A printed value is its texts with gaps between them. -/
theorem quoted_dumps : (v : Json) → Readable false fl v →
    Quoted ensureAscii v.texts (dumps ensureAscii v)
  | .null, _ => .gap (show Gap (py "null") by decide)
  | .bool true, _ => .gap (show Gap (py "true") by decide)
  | .bool false, _ => .gap (show Gap (py "false") by decide)
  | .int n, _ => .gap (gap_number (isNumberChar_intText n))
  | .float _, hv => .gap (gap_float hv)
  | .str s, _ => quoted_dumpsStr s
  | .arr xs, hv => ((quoted_dumpsList xs hv).after (show Gap (py "[") by decide)).before
      (show Gap (py "]") by decide)
  | .obj kvs, hv => ((quoted_dumpsFields kvs hv.2).after (show Gap (py "\x7b") by decide)).before
      (show Gap (py "\x7d") by decide)

theorem quoted_dumpsList : (xs : List Json) → ReadableList false fl xs →
    Quoted ensureAscii (Json.textsList xs) (dumpsList ensureAscii xs)
  | [], _ => .gap (g := []) (by decide)
  | [x], hxs => by
      show Quoted ensureAscii (x.texts ++ []) _
      rw [List.append_nil]
      exact quoted_dumps x hxs.1
  | x :: y :: xs, hxs =>
      ((quoted_dumps x hxs.1).before (show Gap (py ", ") by decide)).append
        (quoted_dumpsList (y :: xs) hxs.2)

theorem quoted_dumpsFields : (kvs : Dict) → ReadableFields false fl kvs →
    Quoted ensureAscii (Json.textsFields kvs) (dumpsFields ensureAscii kvs)
  | [], _ => .gap (g := []) (by decide)
  | [(k, v)], hkvs => by
      show Quoted ensureAscii (k :: (v.texts ++ [])) _
      rw [List.append_nil]
      exact ((quoted_dumpsStr k).before (show Gap (py ": ") by decide)).append
        (quoted_dumps v hkvs.2.1)
  | (k, v) :: kv :: kvs, hkvs => by
      have hfirst := ((@quoted_dumpsStr ensureAscii k).before
        (show Gap (py ": ") by decide)).append
          ((quoted_dumps v hkvs.2.1).before (show Gap (py ", ") by decide))
      have hall := hfirst.append (quoted_dumpsFields (kv :: kvs) hkvs.2.2)
      rw [← List.append_assoc] at hall
      exact hall

end

-- ============================================================================
-- Searching a printed value
-- ============================================================================

/-- A character that a text literal shows as it is. -/
def rawChar (c : Nat) : Bool := decide (32 ≤ c) && decide (c < 127) && c != 34 && c != 92

/-- A text of such characters that begins with `<`. -/
structure Marker (p : PyStr) : Prop where
  starts : p.head? = some 60
  raw : ∀ c ∈ p, rawChar c = true

theorem uEscape_code (n : Nat) : ∃ code, uEscape n = 92 :: code ∧ 60 ∉ code := by
  have hdigit : ∀ m, 60 ≠ hexDigit (m % 16) := by
    intro m
    have hlt : m % 16 < 16 := Nat.mod_lt _ (by omega)
    unfold hexDigit
    split_ifs <;> omega
  have hbackslash : py "\\u" = [92, 117] := by decide
  unfold uEscape
  rw [hbackslash, List.cons_append]
  refine ⟨_, rfl, ?_⟩
  simp only [List.cons_append, List.nil_append, List.mem_cons, List.not_mem_nil, or_false, not_or]
  exact ⟨by omega, hdigit _, hdigit _, hdigit _, hdigit _⟩

theorem not_rawChar {c : Nat} (hc : c < 32 ∨ 127 ≤ c ∨ c = 34 ∨ c = 92) : rawChar c = false := by
  rw [Bool.eq_false_iff]
  simp only [rawChar, ne_eq, Bool.and_eq_true, decide_eq_true_eq, bne_iff_ne]
  omega

/-- A character is printed as it is or as an escape. -/
theorem escapeChar_cases (ensureAscii : Bool) (c : Nat) :
    (escapeChar ensureAscii c = [c] ∧ c ≠ 34 ∧ c ≠ 92) ∨
      ∃ code, escapeChar ensureAscii c = 92 :: code ∧ 60 ∉ code ∧ rawChar c = false := by
  have hshort : ∀ {s : PyStr} {d : Nat}, s = [92, d] → d ≠ 60 → c < 32 ∨ c = 34 ∨ c = 92 →
      ∃ code, s = 92 :: code ∧ 60 ∉ code ∧ rawChar c = false := by
    intro s d hs hd hc
    refine ⟨[d], hs, ?_, not_rawChar (by omega)⟩
    rw [List.mem_singleton]
    exact hd.symm
  generalize hs : escapeChar ensureAscii c = s
  unfold escapeChar at hs
  split_ifs at hs with h1 h2 h3 h4 h5 h6 h7 h8 h9 h10 <;> subst hs
  · exact .inr (hshort (d := 34) (by decide) (by decide) (by omega))
  · exact .inr (hshort (d := 92) (by decide) (by decide) (by omega))
  · exact .inr (hshort (d := 110) (by decide) (by decide) (by omega))
  · exact .inr (hshort (d := 114) (by decide) (by decide) (by omega))
  · exact .inr (hshort (d := 116) (by decide) (by decide) (by omega))
  · exact .inr (hshort (d := 102) (by decide) (by decide) (by omega))
  · exact .inr (hshort (d := 98) (by decide) (by decide) (by omega))
  · obtain ⟨code, hcode, hmem⟩ := uEscape_code c
    exact .inr ⟨code, hcode, hmem, not_rawChar (by omega)⟩
  · obtain ⟨code, hcode, hmem⟩ := uEscape_code c
    rw [Bool.and_eq_true, decide_eq_true_eq] at h9
    exact .inr ⟨code, hcode, hmem, not_rawChar (by omega)⟩
  · obtain ⟨code, hcode, hmem⟩ := uEscape_code (0xD800 + (c - 0x10000) / 1024)
    obtain ⟨code', hcode', hmem'⟩ := uEscape_code (0xDC00 + (c - 0x10000) % 1024)
    rw [Bool.and_eq_true, decide_eq_true_eq] at h9
    refine .inr ⟨code ++ 92 :: code', by rw [hcode, hcode', List.cons_append], ?_, not_rawChar (by omega)⟩
    rw [List.mem_append, List.mem_cons, not_or, not_or]
    exact ⟨hmem, by decide, hmem'⟩
  · exact .inl ⟨rfl, h1, h2⟩

/-- The inside of a text literal. -/
def literal (ensureAscii : Bool) (s : PyStr) : PyStr := s.flatMap (escapeChar ensureAscii)

theorem dumpsStr_append (s t : PyStr) :
    dumpsStr ensureAscii s ++ t = 34 :: (literal ensureAscii s ++ 34 :: t) := by
  show (34 :: literal ensureAscii s) ++ [34] ++ t = _
  rw [List.append_assoc, List.cons_append, List.singleton_append]

theorem literal_cons (c : Nat) (s : PyStr) :
    literal ensureAscii (c :: s) = escapeChar ensureAscii c ++ literal ensureAscii s := rfl

theorem prefix_literal {p : PyStr} (hp : ∀ c ∈ p, rawChar c = true) {s rest t : PyStr} :
    p ++ 34 :: rest <+: literal ensureAscii s ++ 34 :: t ↔ p = s ∧ rest <+: t := by
  induction p generalizing s with
  | nil =>
      cases s with
      | nil =>
          show 34 :: rest <+: 34 :: t ↔ _
          rw [List.cons_prefix_cons]
          tauto
      | cons c s =>
          have hne : ([] : PyStr) ≠ c :: s := (List.cons_ne_nil _ _).symm
          rcases escapeChar_cases ensureAscii c with ⟨hc, hquote, -⟩ | ⟨code, hc, -, -⟩
          · rw [literal_cons, hc, List.nil_append, List.cons_append, List.cons_append,
              List.cons_prefix_cons]
            exact ⟨fun h => absurd h.1.symm hquote, fun h => absurd h.1 hne⟩
          · rw [literal_cons, hc, List.nil_append, List.cons_append, List.cons_append,
              List.cons_prefix_cons]
            exact ⟨fun h => absurd h.1 (by decide), fun h => absurd h.1 hne⟩
  | cons d p ih =>
      have hd := hp d (List.mem_cons_self ..)
      have hstep := fun {s : PyStr} => @ih (fun c hc => hp c (List.mem_cons_of_mem _ hc)) s
      cases s with
      | nil =>
          have hne : d ≠ 34 := by
            rintro rfl
            revert hd
            decide
          show d :: (p ++ 34 :: rest) <+: 34 :: t ↔ _
          rw [List.cons_prefix_cons]
          exact ⟨fun h => absurd h.1 hne, fun h => absurd h.1 (List.cons_ne_nil _ _)⟩
      | cons c s =>
          rcases escapeChar_cases ensureAscii c with ⟨hc, -, -⟩ | ⟨code, hc, -, hraw⟩
          · rw [literal_cons, hc, List.cons_append, List.singleton_append, List.cons_append,
              List.cons_prefix_cons, hstep, List.cons.injEq, and_assoc]
          · rw [literal_cons, hc, List.cons_append, List.cons_append, List.cons_append,
              List.cons_prefix_cons, List.cons.injEq]
            constructor
            · rintro ⟨rfl, -⟩
              exact absurd hd (by decide)
            · rintro ⟨⟨rfl, -⟩, -⟩
              exact Bool.noConfusion (hd.symm.trans hraw)

theorem prefix_literal_iff {p : PyStr} (hp : ∀ c ∈ p, rawChar c = true) {s : PyStr} :
    p <+: literal ensureAscii s ↔ p <+: s := by
  induction p generalizing s with
  | nil => simp only [List.nil_prefix]
  | cons d p ih =>
      have hd := hp d (List.mem_cons_self ..)
      have hstep := fun {s : PyStr} => @ih (fun c hc => hp c (List.mem_cons_of_mem _ hc)) s
      cases s with
      | nil => exact Iff.rfl
      | cons c s =>
          rcases escapeChar_cases ensureAscii c with ⟨hc, -, -⟩ | ⟨code, hc, -, hraw⟩
          · rw [literal_cons, hc, List.cons_append, List.nil_append, List.cons_prefix_cons, hstep,
              List.cons_prefix_cons]
          · rw [literal_cons, hc, List.cons_append, List.cons_prefix_cons, List.cons_prefix_cons]
            constructor
            · rintro ⟨rfl, -⟩
              exact absurd hd (by decide)
            · rintro ⟨rfl, -⟩
              exact Bool.noConfusion (hd.symm.trans hraw)

variable {p : PyStr}

theorem Marker.not_nil (hp : Marker p) : p ≠ [] := by
  rintro rfl
  exact absurd hp.starts (by decide)

/-- A marker does not begin at another character than `<`. -/
theorem Marker.not_prefix (hp : Marker p) {c : Nat} (hc : 60 ≠ c) (rest t : PyStr) :
    ¬ p ++ rest <+: c :: t := by
  intro h
  cases p with
  | nil => exact hp.not_nil rfl
  | cons d p => exact hc ((Option.some.inj hp.starts).symm.trans (List.cons_prefix_cons.mp h).1)

theorem Marker.skip (hp : Marker p) {a : PyStr} (ha : 60 ∉ a) (rest t : PyStr) :
    p ++ rest <:+: a ++ t ↔ p ++ rest <:+: t := by
  induction a with
  | nil => exact Iff.rfl
  | cons c a ih =>
      have hc : 60 ≠ c := fun heq => ha (heq ▸ List.mem_cons_self ..)
      rw [List.cons_append, List.infix_cons_iff, ih fun hmem => ha (List.mem_cons_of_mem _ hmem)]
      exact ⟨fun h => h.resolve_left (hp.not_prefix hc rest _), .inr⟩

/-- A marker with a quote behind it: at the end of this literal, or further on. -/
theorem Marker.infix_quote (hp : Marker p) {s rest t : PyStr} :
    p ++ 34 :: rest <:+: literal ensureAscii s ++ 34 :: t ↔
      (p <:+ s ∧ rest <+: t) ∨ p ++ 34 :: rest <:+: t := by
  induction s with
  | nil =>
      have hempty : ¬ p <:+ [] := fun h => hp.not_nil (List.suffix_nil.mp h)
      show p ++ 34 :: rest <:+: [34] ++ t ↔ _
      rw [hp.skip (by decide)]
      tauto
  | cons c s ih =>
      rw [List.suffix_cons_iff, or_and_right, or_assoc, ← ih, ← prefix_literal hp.raw]
      rcases escapeChar_cases ensureAscii c with ⟨hc, -, -⟩ | ⟨code, hc, hcode, hraw⟩
      · rw [literal_cons, hc, List.append_assoc, List.singleton_append, List.infix_cons_iff]
      · have hmem : 60 ∉ 92 :: code := by
          rw [List.mem_cons, not_or]
          exact ⟨by decide, hcode⟩
        rw [literal_cons, hc, List.append_assoc, hp.skip hmem, List.cons_append]
        exact ⟨.inr, fun h => h.resolve_left (hp.not_prefix (by decide) _ _)⟩

theorem Marker.infix_literal (hp : Marker p) {s : PyStr} :
    p <:+: literal ensureAscii s ↔ p <:+: s := by
  induction s with
  | nil => exact Iff.rfl
  | cons c s ih =>
      rw [List.infix_cons_iff, ← ih, ← @prefix_literal_iff ensureAscii p hp.raw]
      rcases escapeChar_cases ensureAscii c with ⟨hc, -, -⟩ | ⟨code, hc, hcode, hraw⟩
      · rw [literal_cons, hc, List.singleton_append, List.infix_cons_iff]
      · have hmem : 60 ∉ 92 :: code := by
          rw [List.mem_cons, not_or]
          exact ⟨by decide, hcode⟩
        have hskip := hp.skip hmem [] (literal ensureAscii s)
        have hstart := hp.not_prefix (c := 92) (by decide) [] (code ++ literal ensureAscii s)
        rw [List.append_nil] at hskip hstart
        rw [literal_cons, hc, hskip, List.cons_append]
        exact ⟨.inr, fun h => h.resolve_left hstart⟩

/-- A marker stands in a printed value exactly when it stands in one of the texts. -/
theorem Quoted.infix_iff (hp : Marker p) {ss : List PyStr} {t : PyStr} (h : Quoted ensureAscii ss t) :
    p <:+: t ↔ ∃ s ∈ ss, p <:+: s := by
  have hquote : 34 ∉ p := fun hmem => Bool.noConfusion (hp.raw 34 hmem)
  have hgap : ∀ {g}, Gap g → ¬ p <:+: g := by
    intro g hg hin
    exact hg.notMem rfl (hin.subset (List.mem_of_mem_head? hp.starts))
  induction h with
  | gap hg => exact ⟨fun h => absurd h (hgap hg), fun ⟨s, hs, _⟩ => absurd hs List.not_mem_nil⟩
  | @text g hg s ss t ht ih =>
      rw [dumpsStr_append, infix_around hp.not_nil hquote, infix_around hp.not_nil hquote,
        hp.infix_literal, List.exists_mem_cons_iff]
      exact ⟨fun h => (h.resolve_left (hgap hg)).imp_right ih.mp, fun h => .inr (h.imp_right ih.mpr)⟩

/-- The quotes behind a marker that ends a text reach up to the next text. -/
theorem Quoted.quotes_iff {ss : List PyStr} {t : PyStr} (h : Quoted ensureAscii ss t) :
    (∃ between, 34 ∉ between ∧ between ++ [34, 62] <+: t) ↔ ∃ b ∈ ss.head?, b.head? = some 62 := by
  cases h with
  | gap hg =>
      constructor
      · rintro ⟨between, -, hstart⟩
        have hmem : 34 ∈ between ++ [34, 62] := List.mem_append_right _ (List.mem_cons_self ..)
        exact absurd (hstart.subset hmem) (hg.notMem rfl)
      · rintro ⟨b, hb, -⟩
        exact absurd hb (Option.not_mem_none b)
  | @text g hg s ss t ht =>
      have hquote : 34 ∉ g := hg.notMem rfl
      rw [dumpsStr_append]
      constructor
      · rintro ⟨between, hbetween, hstart⟩
        have hsame : between = g := by
          have hshort : between ++ [34] <+: between ++ [34, 62] := by
            rw [List.prefix_append_right_inj]
            exact ⟨[62], rfl⟩
          exact prefix_of_notMem hquote (hshort.trans hstart) hbetween
        subst hsame
        rw [List.prefix_append_right_inj, List.cons_prefix_cons] at hstart
        refine ⟨s, rfl, ?_⟩
        cases s with
        | nil => exact absurd (List.cons_prefix_cons.mp hstart.2).1 (by decide)
        | cons c s =>
            rw [literal_cons] at hstart
            rcases escapeChar_cases ensureAscii c with ⟨hc, -, -⟩ | ⟨code, hc, -, -⟩
            · rw [hc] at hstart
              exact congrArg some (List.cons_prefix_cons.mp hstart.2).1.symm
            · rw [hc] at hstart
              exact absurd (List.cons_prefix_cons.mp hstart.2).1 (by decide)
      · rintro ⟨b, hb, hhead⟩
        obtain rfl : s = b := Option.some.inj hb
        refine ⟨g, hquote, ?_⟩
        rw [List.prefix_append_right_inj, List.cons_prefix_cons]
        obtain ⟨s', rfl⟩ : ∃ s', s = 62 :: s' := List.head?_eq_some_iff.mp hhead
        refine ⟨rfl, ?_⟩
        rw [literal_cons, (escapeChar_cases ensureAscii 62).resolve_right (by
          rintro ⟨code, -, -, hraw⟩
          exact absurd hraw (by decide)) |>.1]
        exact List.cons_prefix_cons.mpr ⟨rfl, List.nil_prefix⟩

/-- A marker, a quote, something without a quote, a quote and `>`: one text ends in the
    marker, and the next one begins with `>`. -/
theorem Quoted.infix_quotes_iff {ss : List PyStr} {t : PyStr} (h : Quoted ensureAscii ss t)
    (hp : Marker p) :
    (∃ between, 34 ∉ between ∧ p ++ 34 :: (between ++ [34, 62]) <:+: t) ↔
      ∃ a b, [a, b] <:+: ss ∧ p <:+ a ∧ b.head? = some 62 := by
  induction h with
  | gap hg =>
      constructor
      · rintro ⟨between, -, hin⟩
        have hmem : 34 ∈ p ++ 34 :: (between ++ [34, 62]) :=
          List.mem_append_right _ (List.mem_cons_self ..)
        exact absurd (hin.subset hmem) (hg.notMem rfl)
      · rintro ⟨a, b, hin, -⟩
        exact absurd (List.infix_nil.mp hin) (List.cons_ne_nil _ _)
  | @text g hg s ss t ht ih =>
      have hlead : 60 ∉ g ++ [34] := by
        rw [List.mem_append, not_or]
        exact ⟨hg.notMem rfl, by decide⟩
      have hsplit : ∀ between, p ++ 34 :: (between ++ [34, 62]) <:+: g ++ (dumpsStr ensureAscii s ++ t) ↔
          (p <:+ s ∧ between ++ [34, 62] <+: t) ∨ p ++ 34 :: (between ++ [34, 62]) <:+: t := by
        intro between
        have hskip := hp.skip hlead (34 :: (between ++ [34, 62])) (literal ensureAscii s ++ 34 :: t)
        rw [List.append_assoc g, List.singleton_append] at hskip
        rw [dumpsStr_append, ← hp.infix_quote]
        exact hskip
      have hpairs : ∀ a b, [a, b] <:+: s :: ss ↔ (a = s ∧ b ∈ ss.head?) ∨ [a, b] <:+: ss := by
        intro a b
        rw [List.infix_cons_iff, List.cons_prefix_cons, List.singleton_prefix_iff_head?_eq_some,
          Option.mem_def]
      have hnext := ht.quotes_iff
      constructor
      · rintro ⟨between, hbetween, hin⟩
        rcases (hsplit between).mp hin with ⟨hsuffix, hstart⟩ | hlater
        · obtain ⟨b, hb, hhead⟩ := hnext.mp ⟨between, hbetween, hstart⟩
          exact ⟨s, b, (hpairs s b).mpr (.inl ⟨rfl, hb⟩), hsuffix, hhead⟩
        · obtain ⟨a, b, hab, hrest⟩ := ih.mp ⟨between, hbetween, hlater⟩
          exact ⟨a, b, (hpairs a b).mpr (.inr hab), hrest⟩
      · rintro ⟨a, b, hab, hsuffix, hhead⟩
        rcases (hpairs a b).mp hab with ⟨rfl, hb⟩ | hlater
        · obtain ⟨between, hbetween, hstart⟩ := hnext.mpr ⟨b, hb, hhead⟩
          exact ⟨between, hbetween, (hsplit between).mpr (.inl ⟨hsuffix, hstart⟩)⟩
        · obtain ⟨between, hbetween, hin⟩ := ih.mpr ⟨a, b, hlater, hsuffix, hhead⟩
          exact ⟨between, hbetween, (hsplit between).mpr (.inr hin)⟩

end Py
end KineticSdk
