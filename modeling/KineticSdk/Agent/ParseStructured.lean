/-
  KineticSdk.Agent.ParseStructured

  `parse_structured` (`agent/structured.py`).

  A printed array or object is found behind any prose without brackets and
  quotes, whatever follows it (`parseStructured_prose`).  Of an answer that is
  cut off the outermost value is never complete; but the scan goes on behind its
  first bracket, and there it returns the first inner value that is
  (`readsWhole_iff`).
-/

import KineticSdk.Py.RawDecode
import KineticSdk.Py.Str
import Mathlib.Data.List.Infix

namespace KineticSdk
namespace Agent

open Py

-- ============================================================================
-- Parsing
-- ============================================================================

/-- The scan for a `{` or `[` from which a value can be decoded. -/
def scanValue (lim : Limits) (fl : FloatRepr) : PyStr → Except LoadsError (Option Json)
  | [] => .ok none
  | c :: rest =>
      if Opens c then
        match rawDecode lim fl (c :: rest) with
        | .ok v => .ok (some v)
        | .error .decode => scanValue lim fl rest
        | .error e => .error e
      else scanValue lim fl rest

/-- `parse_structured`: `none` for a failure. -/
def parseStructured (lim : Limits) (fl : FloatRepr) (text : PyStr) : Except LoadsError (Option Json) :=
  let stripped := strip text
  if stripped = [] then .ok none
  else
    match loads lim fl stripped with
    | .ok v => .ok (some v)
    | .error .decode => scanValue lim fl stripped
    | .error e => .error e

section Scan

variable {fl : FloatRepr}

theorem scanValue_skip {pre : PyStr} (h : ∀ c ∈ pre, ¬ Opens c) (s : PyStr) :
    scanValue {} fl (pre ++ s) = scanValue {} fl s := by
  induction pre with
  | nil => rfl
  | cons c pre ih =>
      rw [List.cons_append, scanValue, if_neg (h c (List.mem_cons_self ..))]
      exact ih fun d hd => h d (List.mem_cons_of_mem _ hd)

theorem scanValue_found {c : Nat} {s : PyStr} {w : Json} (hc : Opens c) (h : rawDecode {} fl (c :: s) = .ok w) :
    scanValue {} fl (c :: s) = .ok (some w) := by
  rw [scanValue, if_pos hc, h]

theorem scanValue_next {c : Nat} {s : PyStr} (hc : Opens c) (h : ¬ ∃ w, rawDecode {} fl (c :: s) = .ok w) :
    scanValue {} fl (c :: s) = scanValue {} fl s := by
  rw [scanValue, if_pos hc]
  cases hdecode : rawDecode {} fl (c :: s) with
  | ok w => exact absurd ⟨w, hdecode⟩ h
  | error e =>
      rw [rawDecode_error hdecode]

/-- The scan fails exactly where no bracket begins a value. -/
theorem scanValue_none_iff {s : PyStr} : scanValue {} fl s = .ok none ↔
    ∀ c t, Opens c → c :: t <:+ s → ¬ ∃ w, rawDecode {} fl (c :: t) = .ok w := by
  induction s with
  | nil =>
      refine ⟨fun _ c t _ hends => ?_, fun _ => rfl⟩
      cases List.suffix_nil.mp hends
  | cons d s ih =>
      have hrest : (∀ c t, Opens c → c :: t <:+ d :: s → ¬ ∃ w, rawDecode {} fl (c :: t) = .ok w) ↔
          (Opens d → ¬ ∃ w, rawDecode {} fl (d :: s) = .ok w) ∧ scanValue {} fl s = .ok none := by
        rw [ih]
        constructor
        · exact fun h => ⟨fun hd => h d s hd List.suffix_rfl, fun c t hc hends => h c t hc (hends.trans (List.suffix_cons d s))⟩
        · rintro ⟨hfirst, hlater⟩ c t hc hends
          rcases List.suffix_cons_iff.mp hends with heq | hends
          · cases heq
            exact hfirst hc
          · exact hlater c t hc hends
      rw [hrest]
      by_cases hd : Opens d
      · by_cases hfound : ∃ w, rawDecode {} fl (d :: s) = .ok w
        · obtain ⟨w, hw⟩ := hfound
          rw [scanValue_found hd hw]
          exact ⟨fun h => (nomatch h), fun h => absurd ⟨w, hw⟩ (h.1 hd)⟩
        · rw [scanValue_next hd hfound]
          exact ⟨fun h => ⟨fun _ => hfound, h⟩, fun h => h.2⟩
      · rw [scanValue, if_neg hd]
        exact ⟨fun h => ⟨fun hd' => absurd hd' hd, h⟩, fun h => h.2⟩

end Scan

-- ============================================================================
-- Prose in front of a value
-- ============================================================================

/-- A character that begins neither an array, an object nor a string. -/
def Prose (c : Nat) : Prop := ¬ Opens c ∧ c ≠ 34

instance (c : Nat) : Decidable (Prose c) := inferInstanceAs (Decidable (_ ∧ _))

section Parse

variable {fl : FloatRepr} {ensureAscii : Bool} {v : Json}

theorem isSpace_of_isJsonSpace {c : Nat} (h : isSpace c = false) : isJsonSpace c = false := by
  cases hjson : isJsonSpace c with
  | false => rfl
  | true =>
      have hcases : c = 32 ∨ c = 9 ∨ c = 10 ∨ c = 13 := by simpa [isJsonSpace, or_assoc] using hjson
      rcases hcases with rfl | rfl | rfl | rfl <;> cases h

theorem not_isSpace_opens {c : Nat} (h : Opens c) : isSpace c = false := by
  rcases h with rfl | rfl <;> rfl

/-- Stripping a text does not reach into what begins and ends without a space. -/
theorem strip_around (pre : PyStr) {c d : Nat} (body : PyStr) (suf : PyStr) (hc : isSpace c = false)
    (hd : isSpace d = false) :
    strip (pre ++ (c :: (body ++ [d])) ++ suf)
      = pre.dropWhile isSpace ++ (c :: (body ++ [d])) ++ rstripWhile isSpace suf := by
  have hsplit : pre ++ (c :: (body ++ [d])) ++ suf = pre ++ c :: (body ++ d :: suf) := by
    simp only [List.append_assoc, List.cons_append, List.nil_append]
  have hjoin : pre.dropWhile isSpace ++ c :: (body ++ d :: suf)
      = (pre.dropWhile isSpace ++ c :: body) ++ d :: suf := by
    simp only [List.append_assoc, List.cons_append]
  rw [strip, hsplit, dropWhile_append_of_neg pre hc, hjoin, rstripWhile_append_last _ hd]
  simp only [List.append_assoc, List.cons_append, List.nil_append]

theorem parseStructured_of_decode {text : PyStr} (hne : strip text ≠ []) (h : ∀ w, loads {} fl (strip text) ≠ .ok w) :
    parseStructured {} fl text = scanValue {} fl (strip text) := by
  rw [parseStructured, if_neg hne]
  cases hloads : loads {} fl (strip text) with
  | ok w => exact absurd hloads (h w)
  | error e => rw [loads_error hloads]

/-- A printed array or object is found behind prose, whatever follows it. -/
theorem parseStructured_prose (hv : v.isContainer = true) (h : Readable ensureAscii fl v) {pre : PyStr}
    (hpre : ∀ c ∈ pre, Prose c) (suf : PyStr) :
    parseStructured {} fl (pre ++ dumps ensureAscii v ++ suf) = .ok (some v) := by
  have hcloses := closes_dumps hv h
  obtain ⟨c, body, d, htext, hc, hd⟩ := dumps_container ensureAscii hv
  have hdspace : isSpace d = false := by rcases hd with rfl | rfl <;> rfl
  have hstrip := strip_around pre body suf (not_isSpace_opens hc) hdspace
  have hne : strip (pre ++ (c :: (body ++ [d])) ++ suf) ≠ [] := by
    rw [hstrip, List.append_assoc]
    exact List.append_ne_nil_of_right_ne_nil _ (List.cons_ne_nil _ _)
  rw [htext] at hcloses ⊢
  have hfound : scanValue {} fl (strip (pre ++ (c :: (body ++ [d])) ++ suf)) = .ok (some v) := by
    rw [hstrip, List.append_assoc, scanValue_skip fun e he => (hpre e (List.dropWhile_subset _ he)).1]
    exact scanValue_found hc (hcloses.rawDecode _)
  cases hprose : pre.dropWhile isSpace with
  | nil =>
      rcases hcloses.loads_append (rstripWhile isSpace suf) with ⟨-, hloads⟩ | hloads
      · rw [parseStructured, if_neg hne, hstrip, hprose, List.nil_append, hloads]
      · rw [parseStructured_of_decode hne fun w => ?_, hfound]
        rw [hstrip, hprose, List.nil_append, hloads]
        exact fun h => nomatch h
  | cons e es =>
      have hmem : ∀ f ∈ e :: es, Prose f := fun f hf => hpre f (List.dropWhile_subset _ (hprose ▸ hf))
      have hspace : isSpace e = false := by
        have hhead := List.head?_dropWhile_not isSpace pre
        rw [hprose] at hhead
        simpa using hhead
      rw [parseStructured_of_decode hne fun w => ?_, hfound]
      have hwhole : strip (pre ++ (c :: (body ++ [d])) ++ suf)
          = e :: (es ++ c :: ((body ++ [d]) ++ rstripWhile isSpace suf)) := by
        rw [hstrip, hprose]
        simp only [List.append_assoc, List.cons_append]
      rw [hwhole]
      exact not_loads_prose (hmem e (List.mem_cons_self ..)).1 (fun hquote => (hmem 34 hquote).2 rfl)
        (isSpace_of_isJsonSpace hspace) hc _

-- ============================================================================
-- Answers that are cut off
-- ============================================================================

theorem rstripWhile_starts (p : Nat → Bool) (s : PyStr) : rstripWhile p s <+: s := by
  have hends : s.reverse.dropWhile p <:+ s.reverse := List.dropWhile_suffix p
  rw [rstripWhile]
  have hreverse := List.reverse_prefix.mpr hends
  rw [List.reverse_reverse] at hreverse
  exact hreverse

/-- A bracket behind the first character begins an array or object that is complete. -/
def HoldsValue (fl : FloatRepr) (s : PyStr) : Prop :=
  ∃ c t, Opens c ∧ c :: t <:+ s.tail ∧ ∃ u, u <+: t ∧ ∃ w, loads {} fl (c :: u) = .ok w

/-- A printed array or object that is cut off is not taken for whole, and parsing fails
    exactly where no array or object inside it is complete. -/
theorem parseStructured_cut (hv : v.isContainer = true) (h : Readable ensureAscii fl v) {cut : PyStr} (hcut : cut ≠ [])
    (hstarts : cut <+: dumps ensureAscii v) (hproper : cut ≠ dumps ensureAscii v) :
    parseStructured {} fl cut = .ok none ↔ ¬ HoldsValue fl (strip cut) := by
  have hcloses := closes_dumps hv h
  obtain ⟨c, body, d, htext, hc, hd⟩ := dumps_container ensureAscii hv
  have hlast : ∀ e, (dumps ensureAscii v).getLast? = some e → isJsonSpace e = false := by
    intro e he
    rw [htext, ← List.cons_append, List.getLast?_concat] at he
    cases he
    rcases hd with rfl | rfl <;> rfl
  obtain ⟨first, rest, rfl⟩ := List.exists_cons_of_ne_nil hcut
  have hfirst : first = c := by
    obtain ⟨x, hx⟩ := hstarts
    rw [htext] at hx
    exact (List.cons.inj hx).1
  rw [hfirst] at hstarts hproper ⊢
  have hspace := not_isSpace_opens hc
  have hstrip : strip (c :: rest) = c :: rstripWhile isSpace rest := by
    rw [strip, List.dropWhile_cons_of_neg (by rw [hspace]; exact Bool.false_ne_true)]
    exact rstripWhile_append_last [] hspace rest
  have hkept : c :: rstripWhile isSpace rest <+: c :: rest :=
    (List.prefix_cons_inj c).mpr (rstripWhile_starts isSpace rest)
  -- neither the whole nor its first bracket gives a value
  have hnone : ¬ ∃ w, rawDecode {} fl (c :: rstripWhile isSpace rest) = .ok w := by
    rintro ⟨w, hw⟩
    obtain ⟨t, ht, hcloses'⟩ := closes_of_rawDecode hc hw
    have hbefore : c :: t <+: c :: rest := ((List.prefix_cons_inj c).mpr ht).trans hkept
    have heq := hcloses.eq_of_prefix hcloses' (hbefore.trans hstarts) hlast
    rw [heq] at hbefore
    exact hproper (hstarts.eq_of_length_le hbefore.length_le)
  have hloads : ∀ w, loads {} fl (c :: rstripWhile isSpace rest) ≠ .ok w := fun w hw =>
    hnone ((rawDecode_ok_iff hc).mpr ⟨_, List.prefix_rfl, w, hw⟩)
  rw [parseStructured_of_decode (by rw [hstrip]; exact List.cons_ne_nil _ _) (by rw [hstrip]; exact hloads), hstrip,
    scanValue_next hc hnone, scanValue_none_iff]
  constructor
  · rintro hnothing ⟨e, t, he, hends, hvalue⟩
    exact hnothing e t he hends ((rawDecode_ok_iff he).mpr hvalue)
  · rintro hnothing e t he hends hvalue
    exact hnothing ⟨e, t, he, hends, (rawDecode_ok_iff he).mp hvalue⟩

end Parse

/-- An array or object that comes back from `json.dumps`. -/
structure JsonAnswer (fl : FloatRepr) where
  value : Json
  container : value.isContainer = true
  readable : Readable true fl value

/-- The answer is found whole between a prose prefix and any suffix, and a part of it that is cut
    off is no answer. -/
def ReadsWhole {fl : FloatRepr} (answer : JsonAnswer fl) (pre suf cut : PyStr) : Prop :=
  ((∀ c ∈ pre, Prose c) → parseStructured {} fl (pre ++ dumps true answer.value ++ suf) = .ok (some answer.value)) ∧
    (cut ≠ [] → cut <+: dumps true answer.value → cut ≠ dumps true answer.value →
      parseStructured {} fl cut = .ok none)

/-- Answers are always found whole; of one that is cut off nothing is returned exactly when
    no array or object inside the part that is left is complete. -/
theorem readsWhole_iff {fl : FloatRepr} (answer : JsonAnswer fl) (pre suf cut : PyStr) :
    ReadsWhole answer pre suf cut ↔
      (cut ≠ [] → cut <+: dumps true answer.value → cut ≠ dumps true answer.value → ¬ HoldsValue fl (strip cut)) := by
  constructor
  · intro h hcut hstarts hproper
    exact (parseStructured_cut answer.container answer.readable hcut hstarts hproper).mp (h.2 hcut hstarts hproper)
  · intro h
    refine ⟨fun hpre => parseStructured_prose answer.container answer.readable hpre suf, fun hcut hstarts hproper => ?_⟩
    exact (parseStructured_cut answer.container answer.readable hcut hstarts hproper).mpr (h hcut hstarts hproper)

/-- Of `{"a": [1]}` without its last brace the inner array is returned. -/
theorem cut_answer_read :
    ¬ ReadsWhole (⟨.obj [(py "a", .arr [.int 1])], rfl, by decide, fun _ => by decide, ⟨trivial, trivial⟩, trivial⟩ :
      JsonAnswer id) [] [] (py "\x7b\"a\": [1]") := by
  intro h
  have hfail := h.2 (by decide) (by decide) (by decide)
  have hread : parseStructured {} id (py "\x7b\"a\": [1]") = .ok (some (.arr [.int 1])) := by decide +kernel
  rw [hread] at hfail
  cases hfail

end Agent
end KineticSdk
