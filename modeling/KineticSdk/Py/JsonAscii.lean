/-
  KineticSdk.Py.JsonAscii

  `json.dumps` as it is called without `ensure_ascii=False`.

  The text is ASCII (`ascii_dumps`): a character beyond is written as one
  `\uXXXX` escape or as two, for the halves of a surrogate pair.  So two
  characters that are such halves come back as one, and a value comes back
  exactly when none of its texts has them next to each other.
-/

import KineticSdk.Py.JsonValid

namespace KineticSdk
namespace Py

variable {fl : FloatRepr}

-- ============================================================================
-- The texts of a value
-- ============================================================================

namespace Json

mutual

/-- The texts in a value, keys included. -/
def texts : Json → List PyStr
  | .str s => [s]
  | .arr xs => textsList xs
  | .obj kvs => textsFields kvs
  | _ => []

/-- The texts in the elements of a list. -/
def textsList : List Json → List PyStr
  | [] => []
  | x :: xs => x.texts ++ textsList xs

/-- The texts in the items of a dict. -/
def textsFields : Dict → List PyStr
  | [] => []
  | (k, v) :: kvs => k :: (v.texts ++ textsFields kvs)

end

end Json

/-- A Python string holds code points. -/
def CodePoints (s : PyStr) : Prop := ∀ c ∈ s, c < 0x110000

mutual

/-- Coming back as ASCII asks more of the texts only. -/
theorem readable_ascii_iff : (v : Json) →
    (Readable true fl v ↔ Readable false fl v ∧ ∀ s ∈ v.texts, TextOk true s)
  | .null => by simp [Readable, Json.texts]
  | .bool b => by simp [Readable, Json.texts]
  | .int n => by simp [Readable, Json.texts]
  | .float r => by simp [Readable, Json.texts]
  | .str s => by simp [Readable, Json.texts, textOk_raw]
  | .arr xs => readableList_ascii_iff xs
  | .obj kvs => by
      have hkvs := readableFields_ascii_iff kvs
      show _ ∧ _ ↔ (_ ∧ _) ∧ ∀ s ∈ Json.textsFields kvs, TextOk true s
      rw [hkvs, and_assoc]

theorem readableList_ascii_iff : (xs : List Json) →
    (ReadableList true fl xs ↔ ReadableList false fl xs ∧ ∀ s ∈ Json.textsList xs, TextOk true s)
  | [] => by simp [ReadableList, Json.textsList]
  | x :: xs => by
      have hx := readable_ascii_iff x
      have hxs := readableList_ascii_iff xs
      show Readable true fl x ∧ ReadableList true fl xs ↔
        (Readable false fl x ∧ ReadableList false fl xs) ∧
          ∀ s ∈ x.texts ++ Json.textsList xs, TextOk true s
      rw [hx, hxs, List.forall_mem_append]
      tauto

theorem readableFields_ascii_iff : (kvs : Dict) →
    (ReadableFields true fl kvs ↔
      ReadableFields false fl kvs ∧ ∀ s ∈ Json.textsFields kvs, TextOk true s)
  | [] => by simp [ReadableFields, Json.textsFields]
  | (k, v) :: kvs => by
      have hv := readable_ascii_iff v
      have hkvs := readableFields_ascii_iff kvs
      have hk := textOk_raw k
      show TextOk true k ∧ Readable true fl v ∧ ReadableFields true fl kvs ↔
        (TextOk false k ∧ Readable false fl v ∧ ReadableFields false fl kvs) ∧
          ∀ s ∈ k :: (v.texts ++ Json.textsFields kvs), TextOk true s
      rw [hv, hkvs, List.forall_mem_cons, List.forall_mem_append]
      tauto

end

-- ============================================================================
-- The characters of a printed value
-- ============================================================================

/-- A property of the printable ASCII characters and, where texts are not
    escaped, of every character that is no control character. -/
structure Printed (ensureAscii : Bool) (P : Nat → Prop) : Prop where
  ascii : ∀ c, 32 ≤ c → c < 128 → P c
  raw : ensureAscii = false → ∀ c, 32 ≤ c → P c

namespace Printed

variable {ensureAscii : Bool} {P : Nat → Prop}

theorem append {s t : PyStr} (hs : ∀ c ∈ s, P c) (ht : ∀ c ∈ t, P c) : ∀ c ∈ s ++ t, P c := by
  intro c hc
  rcases List.mem_append.mp hc with h | h
  · exact hs c h
  · exact ht c h

/-- The property holds of a text of printable ASCII characters. -/
theorem lit (h : Printed ensureAscii P) {s : PyStr}
    (hs : (s.all fun c => 32 ≤ c && c < 128) = true) : ∀ c ∈ s, P c := by
  intro c hc
  have hrange := List.all_eq_true.mp hs c hc
  simp only [Bool.and_eq_true, decide_eq_true_eq] at hrange
  exact h.ascii c hrange.1 hrange.2

theorem number (h : Printed ensureAscii P) {s : PyStr} (hs : ∀ c ∈ s, isNumberChar c = true) :
    ∀ c ∈ s, P c := by
  intro c hc
  have hnum := hs c hc
  simp only [isNumberChar, isDigitChar, Bool.or_eq_true, Bool.and_eq_true, decide_eq_true_eq,
    beq_iff_eq] at hnum
  exact h.ascii c (by omega) (by omega)

theorem uEscape (h : Printed ensureAscii P) (n : Nat) : ∀ c ∈ uEscape n, P c := by
  have hdigit : ∀ m < 16, P (hexDigit m) := by
    intro m hm
    refine h.ascii _ ?_ ?_ <;> (unfold hexDigit; split_ifs <;> omega)
  have hbackslash : py "\\u" = [92, 117] := by decide
  intro c hc
  unfold Py.uEscape at hc
  rw [hbackslash] at hc
  simp only [List.cons_append, List.nil_append, List.mem_cons, List.not_mem_nil, or_false] at hc
  rcases hc with rfl | rfl | rfl | rfl | rfl | rfl
  · exact h.ascii 92 (by omega) (by omega)
  · exact h.ascii 117 (by omega) (by omega)
  all_goals exact hdigit _ (Nat.mod_lt _ (by omega))

theorem escapeChar (h : Printed ensureAscii P) (c : Nat) : ∀ d ∈ escapeChar ensureAscii c, P d := by
  have hescape := h.uEscape c
  have hpair := append (h.uEscape (0xD800 + (c - 0x10000) / 1024))
    (h.uEscape (0xDC00 + (c - 0x10000) % 1024))
  unfold Py.escapeChar
  split_ifs with h1 h2 h3 h4 h5 h6 h7 h8 h9 h10 <;> first | assumption | skip
  case neg =>
    -- a printable character stands for itself
    intro d hd
    rw [List.mem_singleton.mp hd]
    cases ensureAscii with
    | false => exact h.raw rfl c (by omega)
    | true =>
        simp only [Bool.true_and, decide_eq_true_eq] at h9
        exact h.ascii c (by omega) (by omega)
  all_goals exact h.lit (by decide)

theorem dumpsStr (h : Printed ensureAscii P) (s : PyStr) : ∀ c ∈ dumpsStr ensureAscii s, P c := by
  have hquote : ∀ c ∈ py "\"", P c := h.lit (by decide)
  have hbody : ∀ c ∈ s.flatMap (Py.escapeChar ensureAscii), P c := by
    intro d hd
    obtain ⟨c, -, hc⟩ := List.mem_flatMap.mp hd
    exact h.escapeChar c d hc
  exact append (append hquote hbody) hquote

theorem dumpsFloat (h : Printed ensureAscii P) {r : PyStr} (hr : IsFloat fl r) :
    ∀ c ∈ dumpsFloat r, P c := by
  unfold Py.dumpsFloat
  split_ifs with hnan hinf hminus
  · exact h.lit (by decide)
  · exact h.lit (by decide)
  · exact h.lit (by decide)
  · rcases hr with hr | hr | hr | ⟨-, hchars, -⟩
    · exact absurd hr hnan
    · exact absurd hr hinf
    · exact absurd hr hminus
    · exact h.number hchars

mutual

/-- The property holds of every character that `json.dumps` writes. -/
theorem dumps (h : Printed ensureAscii P) :
    (v : Json) → Readable false fl v → ∀ c ∈ dumps ensureAscii v, P c
  | .null, _ => h.lit (s := py "null") (by decide)
  | .bool true, _ => h.lit (s := py "true") (by decide)
  | .bool false, _ => h.lit (s := py "false") (by decide)
  | .int n, _ => h.number (isNumberChar_intText n)
  | .float _, hv => h.dumpsFloat hv
  | .str s, _ => h.dumpsStr s
  | .arr xs, hv => by
      have hopen : ∀ c ∈ py "[", P c := h.lit (by decide)
      have hclose : ∀ c ∈ py "]", P c := h.lit (by decide)
      exact append (append hopen (dumpsList h xs hv)) hclose
  | .obj kvs, hv => by
      have hopen : ∀ c ∈ py "\x7b", P c := h.lit (by decide)
      have hclose : ∀ c ∈ py "\x7d", P c := h.lit (by decide)
      exact append (append hopen (dumpsFields h kvs hv.2)) hclose

theorem dumpsList (h : Printed ensureAscii P) :
    (xs : List Json) → ReadableList false fl xs → ∀ c ∈ dumpsList ensureAscii xs, P c
  | [], _ => fun c hc => (by cases hc)
  | [x], hxs => dumps h x hxs.1
  | x :: y :: xs, hxs => by
      have hcomma : ∀ c ∈ py ", ", P c := h.lit (by decide)
      exact append (append (dumps h x hxs.1) hcomma) (dumpsList h (y :: xs) hxs.2)

theorem dumpsFields (h : Printed ensureAscii P) :
    (kvs : Dict) → ReadableFields false fl kvs → ∀ c ∈ dumpsFields ensureAscii kvs, P c
  | [], _ => fun c hc => (by cases hc)
  | [(k, v)], hkvs => by
      have hcolon : ∀ c ∈ py ": ", P c := h.lit (by decide)
      exact append (append (h.dumpsStr k) hcolon) (dumps h v hkvs.2.1)
  | (k, v) :: kv :: kvs, hkvs => by
      have hcolon : ∀ c ∈ py ": ", P c := h.lit (by decide)
      have hcomma : ∀ c ∈ py ", ", P c := h.lit (by decide)
      have hfirst := append (append (h.dumpsStr k) hcolon) (dumps h v hkvs.2.1)
      exact append (append hfirst hcomma) (dumpsFields h (kv :: kvs) hkvs.2.2)

end

end Printed

/-- A text of ASCII characters. -/
def Ascii (s : PyStr) : Prop := ∀ c ∈ s, c < 128

/-- `json.dumps` writes ASCII. -/
theorem ascii_dumps (v : Json) (hv : Readable false fl v) : Ascii (dumps true v) :=
  Printed.dumps ⟨fun _ _ h => h, fun h => Bool.noConfusion h⟩ v hv

/-- Neither setting writes a control character. -/
theorem le_of_mem_dumps {ensureAscii : Bool} {v : Json} (hv : Readable false fl v) {c : Nat}
    (hc : c ∈ dumps ensureAscii v) : 32 ≤ c :=
  Printed.dumps (P := fun c => 32 ≤ c) ⟨fun _ h _ => h, fun _ _ h => h⟩ v hv c hc

/-- A value comes back from `json.dumps` exactly when none of its texts has the
    halves of a surrogate pair next to each other. -/
theorem loads_dumps_ascii_iff (hfl : fl.Lawful) {v : Json} (hv : Readable false fl v)
    (hchars : ∀ s ∈ v.texts, CodePoints s) :
    loads {} fl (dumps true v) = .ok v ↔ ∀ s ∈ v.texts, pairFree s = true := by
  constructor
  · intro h s hs
    have hread : Readable true fl v := loads_readable_of hfl (fun _ => ascii_dumps v hv) h
    exact ((readable_ascii_iff v).mp hread |>.2 s hs rfl).2
  · intro h
    exact loads_dumps ((readable_ascii_iff v).mpr ⟨hv, fun s hs _ => ⟨hchars s hs, h s hs⟩⟩)

end Py
end KineticSdk
