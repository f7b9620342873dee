/-
  KineticSdk.Py.JsonValid

  What `json.loads` returns can be written and read again.

  Reading keeps an invariant (`Reader.Valid`): the parts of every array and
  object still open are readable, and no object has a key twice.  For the
  numbers this rests on one law of floats (`FloatRepr.Lawful`): the `repr` of
  the float of a text is the `repr` of a float.  What is read from an ASCII
  text can also be written as ASCII, since no surrogate pair is left in it.
-/

import KineticSdk.Py.JsonRoundTrip
import Mathlib.Algebra.Group.Nat.Defs

namespace KineticSdk
namespace Py

/-- `repr(float(text))` is the text of a float, for every text that is a number. -/
def FloatRepr.Lawful (fl : FloatRepr) : Prop :=
  ∀ s digits tail rest neg, scanNumber s = some (neg, digits, tail, rest) → tail ≠ [] →
    IsFloat fl (fl ((if neg then [45] else []) ++ digits ++ tail))

-- floats that are all 1.5
theorem isFloat_half : IsFloat (fun _ => py "1.5") (py "1.5") :=
  .inr (.inr (.inr ⟨rfl, by decide, false, py "1", py ".5", by decide, by decide⟩))

theorem lawful_half : FloatRepr.Lawful fun _ => py "1.5" := fun _ _ _ _ _ _ _ => isFloat_half

-- ============================================================================
-- Strings
-- ============================================================================

/-- The characters of a literal in an ASCII text: what stands there as it is is
    no half of a surrogate pair, and an escape has four digits. -/
def UnitsOk (ensureAscii : Bool) (us : List (Bool × Nat)) : Prop :=
  ensureAscii = true → ∀ u ∈ us, if u.1 then u.2 < 0x10000 else u.2 < 0xD800

theorem UnitsOk.nil (ensureAscii : Bool) : UnitsOk ensureAscii [] := fun _ u hu => (by cases hu)

theorem UnitsOk.snoc {ensureAscii : Bool} {us : List (Bool × Nat)} {u : Bool × Nat}
    (hus : UnitsOk ensureAscii us)
    (hu : ensureAscii = true → if u.1 then u.2 < 0x10000 else u.2 < 0xD800) :
    UnitsOk ensureAscii (us ++ [u]) := by
  intro hset u' hu'
  rcases List.mem_append.mp hu' with h | h
  · exact hus hset u' h
  · rw [List.mem_singleton.mp h]
    exact hu hset

/-- The first character of a joined text is the first of its units, or stands
    for a whole pair. -/
theorem joinPairs_head {u : Bool × Nat} {us : List (Bool × Nat)} {c : Nat} {s : PyStr}
    (h : joinPairs (u :: us) = c :: s) : c = u.2 ∨ 0x10000 ≤ c := by
  obtain ⟨b, d⟩ := u
  cases b with
  | false =>
      rw [joinPairs_raw] at h
      exact .inl (List.cons.inj h).1.symm
  | true =>
      cases us with
      | nil => exact .inl (List.cons.inj h).1.symm
      | cons u' us =>
          obtain ⟨b', l⟩ := u'
          cases b' with
          | false => exact .inl (List.cons.inj h).1.symm
          | true =>
              unfold joinPairs at h
              split_ifs at h
              · have hc := (List.cons.inj h).1
                exact .inr (by omega)
              · exact .inl (List.cons.inj h).1.symm

theorem pairFree_cons {c : Nat} {s : PyStr} (hs : pairFree s = true)
    (hc : ∀ l rest, s = l :: rest → isHighSurrogate c = true → isLowSurrogate l = false) :
    pairFree (c :: s) = true := by
  cases s with
  | nil => rfl
  | cons l rest =>
      have hnot : (isHighSurrogate c && isLowSurrogate l) = false := by
        cases hhigh : isHighSurrogate c with
        | false => rfl
        | true => rw [hc l rest rfl hhigh]; rfl
      show (!(isHighSurrogate c && isLowSurrogate l) && pairFree (l :: rest)) = true
      rw [hnot, hs]
      rfl

theorem isHighSurrogate_bounds {c : Nat} (h : isHighSurrogate c = true) : 0xD800 ≤ c ∧ c ≤ 0xDBFF := by
  simpa [isHighSurrogate] using h

theorem isLowSurrogate_bounds {c : Nat} (h : isLowSurrogate c = true) : 0xDC00 ≤ c ∧ c ≤ 0xDFFF := by
  simpa [isLowSurrogate] using h

/-- A literal in an ASCII text has no surrogate pair left. -/
theorem textOk_joinPairs {us : List (Bool × Nat)}
    (hus : ∀ u ∈ us, if u.1 then u.2 < 0x10000 else u.2 < 0xD800) :
    (∀ c ∈ joinPairs us, c < 0x110000) ∧ pairFree (joinPairs us) = true := by
  induction us using joinPairs.induct with
  | case1 h l rest hpair ih =>
      obtain ⟨hbound, hfree⟩ := ih fun u hu =>
        hus u (List.mem_cons_of_mem _ (List.mem_cons_of_mem _ hu))
      rw [Bool.and_eq_true] at hpair
      have hhigh := isHighSurrogate_bounds hpair.1
      have hlow := isLowSurrogate_bounds hpair.2
      have hjoin : joinPairs ((true, h) :: (true, l) :: rest) =
          (0x10000 + (h - 0xD800) * 1024 + (l - 0xDC00)) :: joinPairs rest := by
        rw [joinPairs, hpair.1, hpair.2]
        rfl
      rw [hjoin]
      have hc : 0x10000 ≤ 0x10000 + (h - 0xD800) * 1024 + (l - 0xDC00) ∧
          0x10000 + (h - 0xD800) * 1024 + (l - 0xDC00) < 0x110000 := by omega
      generalize 0x10000 + (h - 0xD800) * 1024 + (l - 0xDC00) = c at hc
      refine ⟨fun d hd => ?_, pairFree_cons hfree fun l' rest' _ hh => ?_⟩
      · rcases List.mem_cons.mp hd with rfl | hd
        · exact hc.2
        · exact hbound d hd
      · have := isHighSurrogate_bounds hh
        omega
  | case2 h l rest hpair ih =>
      obtain ⟨hbound, hfree⟩ := ih fun u hu => hus u (List.mem_cons_of_mem _ hu)
      have hh := hus (true, h) (List.mem_cons_self ..)
      simp only [↓reduceIte] at hh
      have hjoin : joinPairs ((true, h) :: (true, l) :: rest) = h :: joinPairs ((true, l) :: rest) := by
        rw [joinPairs, if_neg hpair]
      rw [hjoin]
      refine ⟨fun c hc => ?_, pairFree_cons hfree fun l' rest' hnext hhigh => ?_⟩
      · rcases List.mem_cons.mp hc with rfl | hc
        · omega
        · exact hbound c hc
      · rw [hhigh, Bool.true_and, Bool.not_eq_true] at hpair
        rcases joinPairs_head hnext with heq | hbig
        · rw [heq]
          exact hpair
        · cases hlow : isLowSurrogate l' with
          | false => rfl
          | true =>
              have := isLowSurrogate_bounds hlow
              omega
  | case3 b c rest hnot ih =>
      obtain ⟨hbound, hfree⟩ := ih fun u hu => hus u (List.mem_cons_of_mem _ hu)
      have hc := hus (b, c) (List.mem_cons_self ..)
      have hjoin : joinPairs ((b, c) :: rest) = c :: joinPairs rest := by
        rw [joinPairs]
        exact hnot
      rw [hjoin]
      refine ⟨fun d hd => ?_, pairFree_cons hfree fun l' rest' hnext hhigh => ?_⟩
      · rcases List.mem_cons.mp hd with rfl | hd
        · split_ifs at hc <;> omega
        · exact hbound d hd
      · have hb := isHighSurrogate_bounds hhigh
        cases b with
        | false =>
            have hlt : c < 0xD800 := hc
            omega
        | true =>
            cases rest with
            | nil => cases hnext
            | cons u rest =>
                obtain ⟨b', l⟩ := u
                cases b' with
                | true => exact absurd hnot (by simp)
                | false =>
                    have hl : l < 0xD800 := hus (false, l) (by simp)
                    rw [joinPairs_raw] at hnext
                    rw [← (List.cons.inj hnext).1]
                    cases hlow : isLowSurrogate l with
                    | false => rfl
                    | true =>
                        have := isLowSurrogate_bounds hlow
                        omega
  | case4 => exact ⟨fun c hc => (by cases hc), rfl⟩


-- ============================================================================
-- Tokens
-- ============================================================================

variable {ensureAscii : Bool}

/-- A number token is part of a number's text, and a string token comes back. -/
def Token.Scanned (ensureAscii : Bool) : Token → Prop
  | .number neg digits tail => ∃ s rest, scanNumber s = some (neg, digits, tail, rest)
  | .str s => TextOk ensureAscii s
  | _ => True

/-- The literal being read is in order. -/
def Lexer.Plain (ensureAscii : Bool) : Lexer → Prop
  | .string units | .escape units => UnitsOk ensureAscii units
  | .unicode units value digits => UnitsOk ensureAscii units ∧ digits ≤ 3 ∧ value < 16 ^ digits
  | _ => True

theorem numberTokens_scanned (s : PyStr) : ∀ t ∈ numberTokens s, t.Scanned ensureAscii := by
  intro t ht
  unfold numberTokens at ht
  split at ht
  · rw [List.mem_singleton.mp ht]
    trivial
  · rename_i neg digits tail hscan
    rw [List.mem_singleton.mp ht]
    exact ⟨s, [], hscan⟩
  · rename_i neg digits tail c rest hscan
    rcases List.mem_cons.mp ht with rfl | ht
    · exact ⟨s, c :: rest, hscan⟩
    · rw [List.mem_singleton.mp ht]
      trivial

theorem start_scanned (c : Nat) : ∀ t ∈ (Lexer.start c).1, t.Scanned ensureAscii := by
  unfold Lexer.start
  intro t ht
  split_ifs at ht <;> simp only [List.not_mem_nil, List.mem_singleton] at ht <;>
    (subst ht; trivial)

theorem start_plain (c : Nat) : (Lexer.start c).2.Plain ensureAscii := by
  unfold Lexer.start
  split_ifs <;> first | exact UnitsOk.nil ensureAscii | trivial

theorem hexValue_lt {c d : Nat} (h : hexValue c = some d) : d < 16 := by
  simp only [hexValue, Bool.and_eq_true, decide_eq_true_eq] at h
  split_ifs at h <;> (cases h; omega)

theorem shortEscape_lt {c d : Nat} (h : shortEscape c = some d) : d < 0xD800 := by
  unfold shortEscape at h
  split_ifs at h <;> (cases h; omega)

theorem escape_scanned {units : List (Bool × Nat)} (hus : UnitsOk ensureAscii units) (c : Nat) :
    (∀ t ∈ ((Lexer.escape units).step c).1, t.Scanned ensureAscii) ∧
      ((Lexer.escape units).step c).2.Plain ensureAscii := by
  simp only [Lexer.step]
  split_ifs with hu
  · have hzero : (0 : Nat) < 16 ^ 0 := by omega
    exact ⟨fun t ht => (by cases ht), hus, Nat.zero_le 3, hzero⟩
  · cases hshort : shortEscape c with
    | none => exact ⟨fun t ht => by rw [List.mem_singleton.mp ht]; trivial, trivial⟩
    | some d => exact ⟨fun t ht => (by cases ht), hus.snoc fun _ => shortEscape_lt hshort⟩

theorem unicode_scanned {units : List (Bool × Nat)} {value digits : Nat}
    (hus : UnitsOk ensureAscii units) (hdigits : digits ≤ 3) (hvalue : value < 16 ^ digits) (c : Nat) :
    (∀ t ∈ ((Lexer.unicode units value digits).step c).1, t.Scanned ensureAscii) ∧
      ((Lexer.unicode units value digits).step c).2.Plain ensureAscii := by
  simp only [Lexer.step]
  cases hhex : hexValue c with
  | none => exact ⟨fun t ht => by rw [List.mem_singleton.mp ht]; trivial, trivial⟩
  | some d =>
      have hd := hexValue_lt hhex
      have hnext : value * 16 + d < 16 ^ (digits + 1) := by
        rw [Nat.pow_succ]
        omega
      simp only
      split_ifs with hlast
      · refine ⟨fun t ht => (by cases ht), hus.snoc fun _ => ?_⟩
        rw [hlast] at hnext
        exact hnext
      · exact ⟨fun t ht => (by cases ht), hus, by omega, hnext⟩

/-- One character keeps the literal in order, and ends tokens that are. -/
theorem step_scanned {st : Lexer} (hst : st.Plain ensureAscii) {c : Nat}
    (hc : ensureAscii = true → c < 128) :
    (∀ t ∈ (st.step c).1, t.Scanned ensureAscii) ∧ (st.step c).2.Plain ensureAscii := by
  have hstart : (∀ t ∈ (Lexer.start c).1, t.Scanned ensureAscii) ∧
      (Lexer.start c).2.Plain ensureAscii := ⟨start_scanned c, start_plain c⟩
  cases st with
  | between => exact hstart
  | number text =>
      simp only [Lexer.step]
      split_ifs
      · exact ⟨fun t ht => (by cases ht), trivial⟩
      · exact ⟨fun t ht => (by cases ht), trivial⟩
      · refine ⟨fun t ht => ?_, hstart.2⟩
        rcases List.mem_append.mp ht with ht | ht
        · exact numberTokens_scanned text t ht
        · exact hstart.1 t ht
  | word text =>
      simp only [Lexer.step]
      split_ifs
      · exact ⟨fun t ht => (by cases ht), trivial⟩
      · refine ⟨fun t ht => ?_, hstart.2⟩
        rcases List.mem_cons.mp ht with rfl | ht
        · trivial
        · exact hstart.1 t ht
  | string units =>
      simp only [Lexer.step]
      split_ifs
      · refine ⟨fun t ht => ?_, trivial⟩
        rw [List.mem_singleton.mp ht]
        exact fun hset => textOk_joinPairs (hst hset)
      · exact ⟨fun t ht => (by cases ht), hst⟩
      · exact ⟨fun t ht => by rw [List.mem_singleton.mp ht]; trivial, trivial⟩
      · refine ⟨fun t ht => (by cases ht), hst.snoc fun hset => ?_⟩
        have hlow := hc hset
        show c < 0xD800
        omega
  | escape units => exact escape_scanned hst c
  | «unicode» units value digits => exact unicode_scanned hst.1 hst.2.1 hst.2.2 c
  | dead => exact ⟨fun t ht => (by cases ht), trivial⟩

theorem finish_scanned (st : Lexer) : ∀ t ∈ st.finish, t.Scanned ensureAscii := by
  intro t ht
  cases st with
  | between => cases ht
  | dead => cases ht
  | number text => exact numberTokens_scanned text t ht
  | word text => rw [List.mem_singleton.mp ht]; trivial
  | string units => rw [List.mem_singleton.mp ht]; trivial
  | escape units => rw [List.mem_singleton.mp ht]; trivial
  | «unicode» units value digits => rw [List.mem_singleton.mp ht]; trivial

/-- The tokens of a text are in order. -/
theorem lexFrom_scanned {st : Lexer} (hst : st.Plain ensureAscii) {s : PyStr}
    (hs : ensureAscii = true → ∀ c ∈ s, c < 128) : ∀ t ∈ lexFrom st s, t.Scanned ensureAscii := by
  induction s generalizing st with
  | nil => exact finish_scanned st
  | cons c cs ih =>
      intro t ht
      have hstep := step_scanned hst fun hset => hs hset c (List.mem_cons_self ..)
      rcases List.mem_append.mp (show t ∈ (st.step c).1 ++ lexFrom (st.step c).2 cs from ht) with ht | ht
      · exact hstep.1 t ht
      · exact ih hstep.2 (fun hset d hd => hs hset d (List.mem_cons_of_mem c hd)) t ht

-- ============================================================================
-- Values
-- ============================================================================

variable {fl : FloatRepr}

theorem textOk_raw (s : PyStr) : TextOk false s := fun h => Bool.noConfusion h

theorem readableList_append {xs : List Json} {v : Json} (hxs : ReadableList ensureAscii fl xs)
    (hv : Readable ensureAscii fl v) : ReadableList ensureAscii fl (xs ++ [v]) := by
  induction xs with
  | nil => exact ⟨hv, trivial⟩
  | cons x xs ih => exact ⟨hxs.1, ih hxs.2⟩

theorem readableFields_set {kvs : Dict} {k : PyStr} {v : Json} (hkvs : ReadableFields ensureAscii fl kvs)
    (hk : TextOk ensureAscii k) (hv : Readable ensureAscii fl v) : ReadableFields ensureAscii fl (Dict.set kvs k v) := by
  induction kvs with
  | nil => exact ⟨hk, hv, trivial⟩
  | cons kv kvs ih =>
      obtain ⟨k', w⟩ := kv
      unfold Dict.set
      split_ifs
      · exact ⟨hk, hv, hkvs.2.2⟩
      · exact ⟨hkvs.1, hkvs.2.1, ih hkvs.2.2⟩

/-- What has been read of an array or object can be written and read again. -/
def Open.Valid (ensureAscii : Bool) (fl : FloatRepr) : Open → Prop
  | .elements xs => ReadableList ensureAscii fl xs
  | .members kvs => (kvs.map Prod.fst).Nodup ∧ ReadableFields ensureAscii fl kvs
  | .member kvs key =>
      (kvs.map Prod.fst).Nodup ∧ ReadableFields ensureAscii fl kvs ∧ TextOk ensureAscii key

/-- Everything read so far can be written and read again. -/
structure Reader.Valid (ensureAscii : Bool) (fl : FloatRepr) (r : Reader) : Prop where
  stack : ∀ o ∈ r.stack, o.Valid ensureAscii fl
  done : ∀ v, r.want = .done v → Readable ensureAscii fl v

theorem complete_valid {stack : List Open} {v : Json} (hstack : ∀ o ∈ stack, o.Valid ensureAscii fl)
    (hv : Readable ensureAscii fl v) : (Reader.complete stack v).Valid ensureAscii fl := by
  cases stack with
  | nil =>
      refine ⟨fun o ho => (by cases ho), fun w hw => ?_⟩
      cases hw
      exact hv
  | cons o stack =>
      have ho := hstack o (List.mem_cons_self ..)
      have hrest := fun p hp => hstack p (List.mem_cons_of_mem o hp)
      cases o with
      | elements xs =>
          refine ⟨fun p hp => ?_, fun w hw => by cases hw⟩
          rcases List.mem_cons.mp hp with rfl | hp
          · exact readableList_append ho hv
          · exact hrest p hp
      | members kvs => exact ⟨hstack, fun w hw => by cases hw⟩
      | member kvs key =>
          refine ⟨fun p hp => ?_, fun w hw => by cases hw⟩
          rcases List.mem_cons.mp hp with rfl | hp
          · exact ⟨Dict.nodup_set ho.1 key v, readableFields_set ho.2.1 ho.2.2 hv⟩
          · exact hrest p hp

theorem numberValue_readable (hfl : fl.Lawful) {lim : Limits} {neg : Bool} {digits tail : PyStr}
    (ht : (Token.number neg digits tail).Scanned ensureAscii) {v : Json}
    (h : numberValue lim fl neg digits tail = .ok v) : Readable ensureAscii fl v := by
  obtain ⟨s, rest, hscan⟩ := ht
  unfold numberValue at h
  by_cases htail : tail = []
  · rw [if_pos htail] at h
    split at h
    · cases h
    · cases h
      trivial
  · rw [if_neg htail] at h
    cases h
    exact hfl s digits tail rest neg hscan htail

theorem wordValue_readable {s : PyStr} {v : Json} (h : wordValue s = .ok v) :
    Readable ensureAscii fl v := by
  unfold wordValue at h
  split_ifs at h <;> cases h
  · trivial
  · trivial
  · trivial
  · exact .inl rfl
  · exact .inr (.inl rfl)
  · exact .inr (.inr (.inl rfl))

theorem push_valid {lim : Limits} {stack : List Open} {o : Open} {want : Want} {r : Reader}
    (hstack : ∀ o ∈ stack, o.Valid ensureAscii fl) (ho : o.Valid ensureAscii fl) (hwant : ∀ v, want ≠ .done v)
    (h : Reader.push lim stack o want = .ok r) : r.Valid ensureAscii fl := by
  unfold Reader.push at h
  split_ifs at h
  · cases h
    refine ⟨fun p hp => ?_, fun v hv => absurd hv (hwant v)⟩
    rcases List.mem_cons.mp hp with rfl | hp
    · exact ho
    · exact hstack p hp

theorem beginValue_valid (hfl : fl.Lawful) {lim : Limits} {stack : List Open} {t : Token}
    {r : Reader} (hstack : ∀ o ∈ stack, o.Valid ensureAscii fl) (ht : t.Scanned ensureAscii)
    (h : Reader.beginValue lim fl stack t = .ok r) : r.Valid ensureAscii fl := by
  cases t with
  | str s =>
      cases h
      exact complete_valid hstack ht
  | number neg digits tail =>
      cases hv : numberValue lim fl neg digits tail with
      | error e => rw [Reader.beginValue, hv] at h; cases h
      | ok v =>
          rw [Reader.beginValue, hv] at h
          cases h
          exact complete_valid hstack (numberValue_readable hfl ht hv)
  | word s =>
      cases hv : wordValue s with
      | error e => rw [Reader.beginValue, hv] at h; cases h
      | ok v =>
          rw [Reader.beginValue, hv] at h
          cases h
          exact complete_valid hstack (wordValue_readable hv)
  | lbrack =>
      have hopen : Open.Valid ensureAscii fl (.elements []) := trivial
      exact push_valid hstack hopen (fun v hv => by cases hv) h
  | lbrace =>
      have hopen : Open.Valid ensureAscii fl (.members []) := ⟨List.nodup_nil, trivial⟩
      exact push_valid hstack hopen (fun v hv => by cases hv) h
  | rbrack => cases h
  | rbrace => cases h
  | colon => cases h
  | comma => cases h
  | bad => cases h

theorem key_valid {stack : List Open} {t : Token} {r : Reader}
    (hstack : ∀ o ∈ stack, o.Valid ensureAscii fl) (ht : t.Scanned ensureAscii) (h : Reader.key stack t = .ok r) : r.Valid ensureAscii fl := by
  unfold Reader.key at h
  split at h
  · split at h
    · rename_i s _ kvs stack
      cases h
      refine ⟨fun p hp => ?_, fun v hv => by cases hv⟩
      rcases List.mem_cons.mp hp with rfl | hp
      · have hkvs := hstack (.members kvs) (List.mem_cons_self ..)
        exact ⟨hkvs.1, hkvs.2, ht⟩
      · exact hstack p (List.mem_cons_of_mem _ hp)
    · cases h
  · cases h

theorem afterValue_valid {stack : List Open} {t : Token} {r : Reader}
    (hstack : ∀ o ∈ stack, o.Valid ensureAscii fl) (h : Reader.afterValue stack t = .ok r) : r.Valid ensureAscii fl := by
  unfold Reader.afterValue at h
  split at h
  · split at h
    · cases h
      exact ⟨hstack, fun v hv => by cases hv⟩
    · cases h
      exact ⟨hstack, fun v hv => by cases hv⟩
    · cases h
  · split at h
    · rename_i xs stack
      cases h
      have hxs := hstack (.elements xs) (List.mem_cons_self ..)
      exact complete_valid (fun p hp => hstack p (List.mem_cons_of_mem _ hp)) hxs
    · cases h
  · split at h
    · rename_i kvs stack
      cases h
      have hkvs := hstack (.members kvs) (List.mem_cons_self ..)
      exact complete_valid (fun p hp => hstack p (List.mem_cons_of_mem _ hp)) hkvs
    · cases h
  · cases h

/-- One token keeps the invariant. -/
theorem step_valid (hfl : fl.Lawful) {lim : Limits} {r r' : Reader} {t : Token} (hr : r.Valid ensureAscii fl)
    (ht : t.Scanned ensureAscii) (h : Reader.step lim fl r t = .ok r') : r'.Valid ensureAscii fl := by
  obtain ⟨stack, want⟩ := r
  cases want with
  | value => exact beginValue_valid hfl hr.stack ht h
  | firstValue =>
      simp only [Reader.step] at h
      split_ifs at h
      · exact afterValue_valid hr.stack h
      · exact beginValue_valid hfl hr.stack ht h
  | firstKey =>
      simp only [Reader.step] at h
      split_ifs at h
      · exact afterValue_valid hr.stack h
      · exact key_valid hr.stack ht h
  | key => exact key_valid hr.stack ht h
  | colon =>
      simp only [Reader.step] at h
      split_ifs at h
      · cases h
        exact ⟨hr.stack, fun v hv => by cases hv⟩
  | more => exact afterValue_valid hr.stack h
  | done v => cases h

theorem steps_valid (hfl : fl.Lawful) {lim : Limits} {r r' : Reader} {ts : List Token}
    (hr : r.Valid ensureAscii fl) (hts : ∀ t ∈ ts, t.Scanned ensureAscii)
    (h : ts.foldlM (Reader.step lim fl) r = .ok r') : r'.Valid ensureAscii fl := by
  induction ts generalizing r with
  | nil =>
      cases h
      exact hr
  | cons t ts ih =>
      rw [List.foldlM_cons] at h
      cases hstep : Reader.step lim fl r t with
      | error e => rw [hstep] at h; cases h
      | ok r₁ =>
          rw [hstep] at h
          have hr₁ := step_valid hfl hr (hts t (List.mem_cons_self ..)) hstep
          exact ih hr₁ (fun u hu => hts u (List.mem_cons_of_mem t hu)) h

/-- What has been read can be written and read again, and what has been read
    from an ASCII text can be written as ASCII. -/
theorem loads_readable_of (hfl : fl.Lawful) {lim : Limits} {s : PyStr}
    (hs : ensureAscii = true → ∀ c ∈ s, c < 128) {v : Json} (h : loads lim fl s = .ok v) :
    Readable ensureAscii fl v := by
  unfold loads readTokens at h
  cases hread : (lexFrom .between s).foldlM (Reader.step lim fl) {} with
  | error e => rw [hread] at h; cases h
  | ok r =>
      have hstart : Reader.Valid ensureAscii fl {} := ⟨fun o ho => (by cases ho), fun v hv => by cases hv⟩
      have hplain : Lexer.between.Plain ensureAscii := trivial
      have hr := steps_valid hfl hstart (lexFrom_scanned hplain hs) hread
      rw [hread] at h
      have hfinish : r.finish = .ok v := h
      unfold Reader.finish at hfinish
      split at hfinish
      · rename_i hw
        cases hfinish
        exact hr.done v hw
      · cases hfinish

/-- What has been read can be written and read again. -/
theorem loads_readable (hfl : fl.Lawful) {lim : Limits} {s : PyStr} {v : Json}
    (h : loads lim fl s = .ok v) : Readable false fl v :=
  loads_readable_of hfl (fun hset => Bool.noConfusion hset) h

-- ============================================================================
-- The interpreter's bounds
-- ============================================================================

/-- A bound is hit, or makes no difference. -/
def Bounded {α : Type} (bounded unbounded : Except LoadsError α) : Prop :=
  bounded = .error .digits ∨ bounded = .error .depth ∨ unbounded = bounded

theorem Bounded.refl {α : Type} (x : Except LoadsError α) : Bounded x x := .inr (.inr rfl)

theorem Bounded.bind {α β : Type} {x x' : Except LoadsError α} {f f' : α → Except LoadsError β}
    (hx : Bounded x x') (hf : ∀ a, Bounded (f a) (f' a)) : Bounded (x >>= f) (x' >>= f') := by
  rcases hx with rfl | rfl | rfl
  · exact .inl rfl
  · exact .inr (.inl rfl)
  · cases x' with
    | error e => exact Bounded.refl _
    | ok a => exact hf a

theorem Bounded.map {α β : Type} {x x' : Except LoadsError α} (hx : Bounded x x') (f : α → β) :
    Bounded (x.map f) (x'.map f) := by
  rcases hx with rfl | rfl | rfl
  · exact .inl rfl
  · exact .inr (.inl rfl)
  · exact Bounded.refl _

end Py
end KineticSdk
