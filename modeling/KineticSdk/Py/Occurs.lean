/-
  KineticSdk.Py.Occurs

  The offsets at which a needle stands in a text, against what `str.count` and
  `str.replace` see of them.

  Both skip a match they have found.  `str.count` finds two occurrences that lie
  apart, but of overlapping ones only the first.
-/

import KineticSdk.Py.Search

namespace KineticSdk
namespace Py

/-- The needle stands at this offset of the text. -/
def OccursAt (needle text : PyStr) (i : Nat) : Prop := i ≤ text.length ∧ needle <+: text.drop i

instance (needle text : PyStr) (i : Nat) : Decidable (OccursAt needle text i) :=
  inferInstanceAs (Decidable (_ ∧ _))

/-- Behind an occurrence of the needle stands the rest of another one: the needle ends in
    its own first `b` characters, and goes on in the text. -/
def GoesOn (needle rest : PyStr) : Prop :=
  ∃ b, 0 < b ∧ b < needle.length ∧ needle.drop (needle.length - b) = needle.take b ∧
    needle.drop b <+: rest

variable {needle new text : PyStr}

-- ============================================================================
-- Counting
-- ============================================================================

theorem startsWith_iff {p s : PyStr} : startsWith p s = true ↔ p <+: s := List.isPrefixOf_iff_prefix

theorem countFrom_skip (needle : PyStr) (k : Nat) (s : PyStr) :
    countFrom needle k s = countFrom needle 0 (s.drop k) := by
  induction s generalizing k with
  | nil => rw [List.drop_nil]; rfl
  | cons c cs ih =>
      cases k with
      | zero => rfl
      | succ k => exact ih k

theorem countFrom_of_startsWith (hne : needle ≠ []) {s : PyStr} (h : needle <+: s) :
    countFrom needle 0 s = 1 + countFrom needle 0 (s.drop needle.length) := by
  cases needle with
  | nil => exact absurd rfl hne
  | cons a needle =>
      cases s with
      | nil => exact absurd (List.prefix_nil.mp h) hne
      | cons c cs =>
          rw [countFrom, if_pos (startsWith_iff.mpr h), countFrom_skip]
          rfl

theorem countFrom_of_absent {c : Nat} {cs : PyStr} (h : ¬ needle <+: c :: cs) :
    countFrom needle 0 (c :: cs) = countFrom needle 0 cs := by
  rw [countFrom, if_neg fun hstart => h (startsWith_iff.mp hstart)]

/-- What is cut off in front loses no more than one match, if it is no longer than the
    needle, and never gains one. -/
theorem countFrom_drop (hne : needle ≠ []) {n : Nat} {s : PyStr} (hn : s.length ≤ n) :
    (∀ j, countFrom needle 0 (s.drop j) ≤ countFrom needle 0 s) ∧
      ∀ j ≤ needle.length, countFrom needle 0 s ≤ 1 + countFrom needle 0 (s.drop j) := by
  induction n generalizing s with
  | zero =>
      have hnil : s = [] := List.length_eq_zero_iff.mp (by omega)
      subst hnil
      exact ⟨fun j => Nat.le_of_eq (by rw [List.drop_nil]), fun j _ => by rw [List.drop_nil]; omega⟩
  | succ n ih =>
      cases s with
      | nil =>
          exact ⟨fun j => Nat.le_of_eq (by rw [List.drop_nil]), fun j _ => by rw [List.drop_nil]; omega⟩
      | cons c cs =>
          rw [List.length_cons] at hn
          have hcs : cs.length ≤ n := by omega
          obtain ⟨hmono, hless⟩ := ih hcs
          have hlength := List.length_pos_of_ne_nil hne
          suffices hstep : ∀ j, countFrom needle 0 (cs.drop j) ≤ countFrom needle 0 (c :: cs) ∧
              (j < needle.length → countFrom needle 0 (c :: cs) ≤ 1 + countFrom needle 0 (cs.drop j)) by
            refine ⟨fun j => ?_, fun j hj => ?_⟩
            · cases j with
              | zero => exact Nat.le_refl _
              | succ j => exact (hstep j).1
            · cases j with
              | zero => exact Nat.le_add_left _ _
              | succ j => exact (hstep j).2 (by omega)
          intro j
          by_cases hp : needle <+: c :: cs
          · obtain ⟨m, hm⟩ : ∃ m, needle.length = m + 1 := ⟨needle.length - 1, by omega⟩
            rw [countFrom_of_startsWith hne hp, hm, List.drop_succ_cons]
            refine ⟨Nat.le_trans (hmono j) (hless m (by omega)), fun hj => ?_⟩
            -- the match reaches at least as far as the cut
            have hrest : (cs.drop j).length ≤ n := by rw [List.length_drop]; omega
            have hcut := (ih hrest).1 (m - j)
            rw [List.drop_drop, show j + (m - j) = m by omega] at hcut
            omega
          · rw [countFrom_of_absent hp]
            exact ⟨hmono j, fun hj => hless j (by omega)⟩

theorem OccursAt.countFrom_pos (hne : needle ≠ []) {i : Nat} (h : OccursAt needle text i) :
    1 + countFrom needle 0 (text.drop (i + needle.length)) ≤ countFrom needle 0 text := by
  have hmono := (countFrom_drop hne (Nat.le_refl text.length)).1 i
  rw [countFrom_of_startsWith hne h.2, List.drop_drop] at hmono
  exact hmono

/-- Two occurrences that lie apart are counted. -/
theorem two_le_countFrom (hne : needle ≠ []) {i j : Nat} (hi : OccursAt needle text i)
    (hj : OccursAt needle text j) (hapart : i + needle.length ≤ j) : 2 ≤ countFrom needle 0 text := by
  have hfirst := hi.countFrom_pos hne
  have hmono := (countFrom_drop hne (Nat.le_refl (text.drop (i + needle.length)).length)).1
    (j - (i + needle.length))
  rw [List.drop_drop, show i + needle.length + (j - (i + needle.length)) = j by omega,
    countFrom_of_startsWith hne hj.2] at hmono
  omega

-- ============================================================================
-- Occurrences
-- ============================================================================

theorem OccursAt.split {i : Nat} (h : OccursAt needle text i) :
    text = text.take i ++ needle ++ text.drop (i + needle.length) := by
  obtain ⟨rest, hrest⟩ := h.2
  have hdrop : text.drop (i + needle.length) = rest := by
    rw [← List.drop_drop, ← hrest, List.drop_left]
  rw [hdrop, List.append_assoc, hrest, List.take_append_drop]

theorem occursAt_append (pre rest : PyStr) : OccursAt needle (pre ++ needle ++ rest) pre.length := by
  refine ⟨?_, ?_⟩
  · rw [List.append_assoc, List.length_append]
    exact Nat.le_add_right _ _
  · rw [List.append_assoc, List.drop_left]
    exact List.prefix_append needle rest

/-- Two occurrences that overlap: the first one goes on with the rest of the second. -/
theorem OccursAt.goesOn {i j : Nat} (hi : OccursAt needle text i) (hj : OccursAt needle text j)
    (hlt : i < j) (hoverlap : j < i + needle.length) :
    GoesOn needle (text.drop (i + needle.length)) := by
  obtain ⟨rest, hrest⟩ := hi.2
  obtain ⟨rest', hrest'⟩ := hj.2
  have hdrop : text.drop (i + needle.length) = rest := by
    rw [← List.drop_drop, ← hrest, List.drop_left]
  have hback : needle.drop (j - i) ++ rest = needle ++ rest' := by
    rw [hrest', ← List.drop_append_of_le_length (by omega), hrest, List.drop_drop,
      show i + (j - i) = j by omega]
  have hlength : (needle.drop (j - i)).length = i + needle.length - j := by
    rw [List.length_drop]
    omega
  refine ⟨i + needle.length - j, by omega, by omega, ?_, ?_⟩
  · have htake := congrArg (List.take (i + needle.length - j)) hback
    rw [List.take_left' hlength, List.take_append_of_le_length (by omega)] at htake
    rw [← htake]
    congr 1
    omega
  · have hcut := congrArg (List.drop (i + needle.length - j)) hback
    rw [List.drop_left' hlength, List.drop_append_of_le_length (by omega)] at hcut
    rw [hdrop, hcut]
    exact List.prefix_append _ _

/-- An occurrence that goes on is followed by another one. -/
theorem GoesOn.occursAt (pre : PyStr) {rest : PyStr} (h : GoesOn needle rest) :
    ∃ j, pre.length < j ∧ OccursAt needle (pre ++ needle ++ rest) j := by
  obtain ⟨b, hpos, hlt, hborder, tail, rfl⟩ := h
  refine ⟨pre.length + (needle.length - b), by omega, ?_, ?_⟩
  · rw [List.length_append, List.length_append]
    omega
  · rw [List.append_assoc, List.drop_append, List.drop_eq_nil_of_le (by omega), List.nil_append,
      show pre.length + (needle.length - b) - pre.length = needle.length - b by omega,
      List.drop_append_of_le_length (by omega), hborder, ← List.append_assoc, List.take_append_drop]
    exact List.prefix_append _ _

-- ============================================================================
-- Replacing
-- ============================================================================

theorem replaceFrom_zero (needle new : PyStr) (k : Nat) (s : PyStr) :
    replaceFrom needle new 0 k s = s.drop k := by
  induction s generalizing k with
  | nil => rw [List.drop_nil]; rfl
  | cons c cs ih =>
      cases k with
      | zero => rfl
      | succ k => exact ih k

/-- A text with a match is cut at the first one, which is replaced. -/
theorem replaceFrom_one (hne : needle ≠ []) {s : PyStr} (h : countFrom needle 0 s ≠ 0) :
    ∃ pre rest, s = pre ++ needle ++ rest ∧ replaceFrom needle new 1 0 s = pre ++ new ++ rest := by
  induction s with
  | nil => exact absurd rfl h
  | cons c cs ih =>
      by_cases hp : needle <+: c :: cs
      · obtain ⟨rest, hrest⟩ := hp
        refine ⟨[], rest, hrest.symm, ?_⟩
        rw [replaceFrom, if_neg Nat.one_ne_zero, if_pos (startsWith_iff.mpr ⟨rest, hrest⟩), replaceFrom_zero]
        have hdrop : cs.drop (needle.length - 1) = rest := by
          obtain ⟨a, needle, rfl⟩ := List.exists_cons_of_ne_nil hne
          rw [List.cons_append] at hrest
          rw [← (List.cons.inj hrest).2]
          exact List.drop_left
        rw [hdrop, List.nil_append]
      · rw [countFrom_of_absent hp] at h
        obtain ⟨pre, rest, hs, hreplace⟩ := ih h
        refine ⟨c :: pre, rest, by rw [hs]; rfl, ?_⟩
        rw [replaceFrom, if_neg Nat.one_ne_zero, if_neg fun hstart => hp (startsWith_iff.mp hstart), hreplace]
        rfl

/-- Of a needle that is counted once, one occurrence is replaced. -/
theorem replace_of_count (h : count needle text = 1) :
    ∃ pre rest, text = pre ++ needle ++ rest ∧ replace needle new 1 text = pre ++ new ++ rest := by
  unfold count at h
  unfold replace
  by_cases hnil : needle = []
  · rw [if_pos hnil] at h
    have htext : text = [] := List.length_eq_zero_iff.mp (by omega)
    rw [if_pos hnil, htext, hnil]
    exact ⟨[], [], rfl, (List.append_nil new).symm⟩
  · rw [if_neg hnil] at h
    rw [if_neg hnil]
    exact replaceFrom_one hnil (by omega)

theorem count_ne_zero_iff : count needle text ≠ 0 ↔ ∃ i, OccursAt needle text i := by
  unfold count
  by_cases hnil : needle = []
  · rw [if_pos hnil, hnil]
    exact iff_of_true (Nat.succ_ne_zero _) ⟨0, Nat.zero_le _, List.nil_prefix⟩
  · rw [if_neg hnil]
    constructor
    · intro h
      obtain ⟨pre, rest, rfl, _⟩ := @replaceFrom_one needle [] hnil text h
      exact ⟨pre.length, occursAt_append pre rest⟩
    · rintro ⟨i, hi⟩
      have hpos := hi.countFrom_pos hnil
      omega

theorem lt_of_count {i j : Nat} (h : count needle text = 1) (hi : OccursAt needle text i)
    (hj : OccursAt needle text j) : j < i + needle.length ∨ i = j := by
  unfold count at h
  by_cases hnil : needle = []
  · rw [if_pos hnil] at h
    have h1 := hi.1
    have h2 := hj.1
    omega
  · rw [if_neg hnil] at h
    rcases Nat.lt_or_ge j (i + needle.length) with hlt | hge
    · exact .inl hlt
    · have htwo := two_le_countFrom hnil hi hj hge
      omega

/-- A needle that is counted once stands at one offset exactly if no occurrence goes on. -/
theorem unique_iff_not_goesOn (h : count needle text = 1) :
    (∀ i j, OccursAt needle text i → OccursAt needle text j → i = j) ↔
      ∀ pre rest, text = pre ++ needle ++ rest → ¬ GoesOn needle rest := by
  constructor
  · rintro hunique pre rest rfl hon
    obtain ⟨j, hlt, hj⟩ := hon.occursAt pre
    exact absurd (hunique _ _ (occursAt_append pre rest) hj) (by omega)
  · intro hnone
    have hle : ∀ i j, OccursAt needle text i → OccursAt needle text j → j ≤ i := by
      intro i j hi hj
      rcases Nat.lt_or_ge i j with hlt | hge
      · rcases lt_of_count h hi hj with hoverlap | heq
        · exact absurd (hi.goesOn hj hlt hoverlap) (hnone _ _ hi.split)
        · exact Nat.le_of_eq heq.symm
      · exact hge
    exact fun i j hi hj => Nat.le_antisymm (hle j i hj hi) (hle i j hi hj)

end Py
end KineticSdk
