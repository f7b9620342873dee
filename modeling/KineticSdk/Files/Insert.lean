/-
  KineticSdk.Files.Insert

  The lines of a file after `_insert` (`files/tool.py`).

  The new text is given the newlines of the file first and an end after that,
  and is put between two lines of the file.  It stands apart from them unless
  the line before it has no end, or two halves of a `\r\n` meet.
-/

import KineticSdk.Files.FileTool
import KineticSdk.Py.Lines

namespace KineticSdk
namespace Files

open Py

variable {path content newStr : PyStr} {k : Nat}

-- ============================================================================
-- Whole lines
-- ============================================================================

/-- The file up to the line to insert after. -/
def before (content : PyStr) (k : Nat) : PyStr := ((splitlines content).take k).flatten

/-- The file behind the line to insert after. -/
def behind (content : PyStr) (k : Nat) : PyStr := ((splitlines content).drop k).flatten

/-- A file with line endings, all of them `\r\n`. -/
def CrLfFile (content : PyStr) : Prop := contains (py "\r\n") content = true ∧ crlfEnds content = true

instance (content : PyStr) : Decidable (CrLfFile content) := inferInstanceAs (Decidable (_ ∧ _))

/-- The lines of the new text stand between the first `k` lines of the file and the
    others, and a file with `\r\n` only still is one. -/
structure AddsLines (content : PyStr) (k : Nat) (newStr result : PyStr) : Prop where
  lines : bareLines result = (bareLines content).take k ++ bareLines newStr ++ (bareLines content).drop k
  ends : CrLfFile content → crlfEnds result = true

/-- The line before the new text has no end. -/
def Joins (content : PyStr) (k : Nat) : Prop := OpenEnd (before content k)

/-- The new text begins with the other half of the `\r` before it, or the file goes on
    with that of its last `\r`; a file with a `\r\n` has its newlines put in first. -/
def MergesBefore (content : PyStr) (k : Nat) (newStr : PyStr) : Prop :=
  contains (py "\r\n") content = false ∧ SplitCrLf (before content k) newStr

def MergesBehind (content : PyStr) (k : Nat) (newStr : PyStr) : Prop :=
  contains (py "\r\n") content = false ∧ SplitCrLf newStr (behind content k)

/-- The new text ends in a line break that is neither `\r` nor `\n`: another end is put
    behind it. -/
def EndsTwice (newStr : PyStr) : Prop :=
  ∃ c, newStr.getLast? = some c ∧ isLineBreak c = true ∧ isCrLf c = false

/-- The lines come out whole: the new text stands apart and is ended once, or its first
    line is empty and lost and its last end makes up for it. -/
def StandsApart (content : PyStr) (k : Nat) (newStr : PyStr) : Prop :=
  ¬ MergesBehind content k newStr ∧
    ((¬ Joins content k ∧ ¬ MergesBefore content k newStr ∧ ¬ EndsTwice newStr) ∨
      ((Joins content k ∨ MergesBefore content k newStr) ∧ EndsTwice newStr ∧
        ∀ line ∈ bareLines newStr, line = []))

/-- The new text is ended, and by `\r` and `\n` only. -/
def EndsPlainly (newStr : PyStr) : Prop :=
  endsWithNewline newStr = true ∧ ∀ c ∈ newStr, isLineBreak c = true → isCrLf c = true

-- ============================================================================
-- The text that is inserted
-- ============================================================================

theorem preserveNewlineStyle_eq (value reference : PyStr) :
    preserveNewlineStyle value reference
      = if contains (py "\r\n") reference then toCrLf value else value := by
  unfold preserveNewlineStyle
  rw [replaceAll_newlines, replaceAll_universalNewlines]

/-- The end `_insert` puts behind the last line. -/
def lastEnd (text : PyStr) : PyStr := if endsWithNewline text then [] else [10]

/-- The new text as it goes into the file: with the newlines of the file and an end. -/
def insertion (newStr content : PyStr) : PyStr :=
  preserveNewlineStyle newStr content ++ lastEnd (preserveNewlineStyle newStr content)

theorem insertedLines_flatten {text : PyStr} (h : text ≠ []) :
    (insertedLines text).flatten = text ++ lastEnd text := by
  unfold insertedLines lastEnd
  dsimp only
  by_cases hend : endsWithNewline text = true
  · rw [if_pos hend, if_pos hend, splitlines_flatten_self, List.append_nil]
  · rw [if_neg hend, if_neg hend]
    have hne := splitlines_ne_nil h
    have hlast : ((splitlines text).getLast?.map (· ++ [10])).toList = [(splitlines text).getLast hne ++ [10]] := by
      rw [List.getLast?_eq_some_getLast hne]
      rfl
    have hsplit := congrArg List.flatten (List.dropLast_append_getLast hne)
    rw [List.flatten_append, List.flatten_singleton, splitlines_flatten_self] at hsplit
    rw [hlast, List.flatten_append, List.flatten_singleton, ← List.append_assoc, hsplit]

theorem bareLines_preserve (value reference : PyStr) :
    bareLines (preserveNewlineStyle value reference) = bareLines value := by
  rw [preserveNewlineStyle_eq]
  split_ifs
  · exact bareLines_toCrLf value
  · rfl

theorem head?_toCrLf_ne (s : PyStr) : (toCrLf s).head? ≠ some 10 := by
  fun_cases toCrLf s with
  | case1 => exact fun h => nomatch h
  | case2 s => exact fun h => absurd (Option.some.inj h) (by decide)
  | case3 c s _ _ => exact fun h => absurd (Option.some.inj h) (by decide)
  | case4 c s _ hc => exact fun h => hc (.inr (Option.some.inj h))

theorem toCrLf_ne_nil {s : PyStr} (h : s ≠ []) : toCrLf s ≠ [] := by
  fun_cases toCrLf s with
  | case1 => exact absurd rfl h
  | case2 s => exact List.cons_ne_nil _ _
  | case3 c s _ _ => exact List.cons_ne_nil _ _
  | case4 c s _ _ => exact List.cons_ne_nil _ _

theorem getLast?_toCrLf (s : PyStr) :
    (toCrLf s).getLast? = s.getLast?.map fun c => if c = 13 then 10 else c := by
  fun_induction toCrLf s with
  | case1 => rfl
  | case2 s ih =>
      by_cases hs : s = []
      · rw [hs]
        rfl
      · rw [List.getLast?_cons_of_ne_nil (List.cons_ne_nil _ _),
          List.getLast?_cons_of_ne_nil (toCrLf_ne_nil hs), ih,
          List.getLast?_cons_of_ne_nil (List.cons_ne_nil _ _), List.getLast?_cons_of_ne_nil hs]
  | case3 c s hmatch hc ih =>
      by_cases hs : s = []
      · rw [hs]
        rcases hc with rfl | rfl <;> rfl
      · rw [List.getLast?_cons_of_ne_nil (List.cons_ne_nil _ _),
          List.getLast?_cons_of_ne_nil (toCrLf_ne_nil hs), ih, List.getLast?_cons_of_ne_nil hs]
  | case4 c s hmatch hc ih =>
      by_cases hs : s = []
      · rw [hs]
        show some c = some (if c = 13 then 10 else c)
        rw [if_neg fun h => hc (.inl h)]
      · rw [List.getLast?_cons_of_ne_nil (toCrLf_ne_nil hs), ih, List.getLast?_cons_of_ne_nil hs]

theorem getLast?_toCrLf_ne (s : PyStr) : (toCrLf s).getLast? ≠ some 13 := by
  rw [getLast?_toCrLf]
  intro h
  obtain ⟨c, _, h13⟩ := Option.map_eq_some_iff.mp h
  split_ifs at h13 with hc
  · cases h13
  · exact hc h13

/-- The last character after the newlines are put in, up to `\r` for `\n`. -/
theorem getLast?_preserve (value reference : PyStr) :
    (preserveNewlineStyle value reference).getLast?
      = value.getLast?.map fun c =>
          if contains (py "\r\n") reference = true ∧ c = 13 then 10 else c := by
  rw [preserveNewlineStyle_eq]
  by_cases hcrlf : contains (py "\r\n") reference = true
  · rw [if_pos hcrlf, getLast?_toCrLf]
    refine congrArg (value.getLast?.map ·) (funext fun c => ?_)
    rw [hcrlf]
    simp
  · rw [if_neg hcrlf]
    cases value.getLast? <;> simp [hcrlf]

theorem preserve_ne_nil (h : newStr ≠ []) (reference : PyStr) : preserveNewlineStyle newStr reference ≠ [] := by
  rw [preserveNewlineStyle_eq]
  split_ifs
  · exact toCrLf_ne_nil h
  · exact h

theorem endsWithNewline_preserve (value reference : PyStr) :
    endsWithNewline (preserveNewlineStyle value reference) = endsWithNewline value := by
  unfold endsWithNewline
  rw [getLast?_preserve]
  cases value.getLast? with
  | none => rfl
  | some c =>
      rw [Option.map_some]
      by_cases hc : contains (py "\r\n") reference = true ∧ c = 13
      · rw [if_pos hc, hc.2]
        rfl
      · rw [if_neg hc]

theorem endsTwice_preserve (value reference : PyStr) :
    EndsTwice (preserveNewlineStyle value reference) ↔ EndsTwice value := by
  unfold EndsTwice
  rw [getLast?_preserve]
  constructor
  · rintro ⟨c, hc, hbreak, hplain⟩
    obtain ⟨d, hd, rfl⟩ := Option.map_eq_some_iff.mp hc
    split_ifs at hbreak hplain with h
    · cases hplain
    · exact ⟨d, hd, hbreak, hplain⟩
  · rintro ⟨c, hc, hbreak, hplain⟩
    refine ⟨c, ?_, hbreak, hplain⟩
    have h13 : c ≠ 13 := by
      rintro rfl
      cases hplain
    rw [hc, Option.map_some, if_neg fun h => h13 h.2]

/-- A text that ends in another break is ended again. -/
theorem bareLines_endsTwice {text : PyStr} (h : EndsTwice text) :
    bareLines (text ++ lastEnd text) = bareLines text ++ [[]] := by
  obtain ⟨c, hlast, hbreak, hplain⟩ := h
  have hend : lastEnd text = [10] := by
    unfold lastEnd endsWithNewline
    rw [hlast, Option.map_some, Option.getD_some, hplain]
    rfl
  rw [hend, bareLines_append]
  · rfl
  · rintro ⟨d, hd, hopen⟩
    rw [hlast] at hd
    cases hd
    rw [hbreak] at hopen
    cases hopen
  · rintro ⟨h13, _⟩
    rw [hlast] at h13
    cases h13
    cases hplain

theorem bareLines_endsOnce {text : PyStr} (hne : text ≠ []) (h : ¬ EndsTwice text) :
    bareLines (text ++ lastEnd text) = bareLines text := by
  unfold lastEnd
  by_cases hend : endsWithNewline text = true
  · rw [if_pos hend, List.append_nil]
  · rw [if_neg hend]
    cases hlast : text.getLast? with
    | none => exact absurd (List.getLast?_eq_none_iff.mp hlast) hne
    | some c =>
        have hplain : isCrLf c = false := by
          unfold endsWithNewline at hend
          rw [hlast] at hend
          simpa using hend
        have hopen : OpenEnd text := ⟨c, hlast, by
          cases hbreak : isLineBreak c with
          | false => rfl
          | true => exact absurd ⟨c, hlast, hbreak, hplain⟩ h⟩
        obtain ⟨ls, last, l, rest, htext, hten, hboth⟩ := bareLines_append_open hopen (List.cons_ne_nil 10 [])
        cases hten
        rw [hboth, htext, List.append_nil]
        rfl

/-- The inserted text ends its last line. -/
theorem not_openEnd_lastEnd {text : PyStr} (hne : text ≠ []) : ¬ OpenEnd (text ++ lastEnd text) := by
  unfold lastEnd
  rintro ⟨c, hlast, hopen⟩
  by_cases hend : endsWithNewline text = true
  · rw [if_pos hend, List.append_nil] at hlast
    unfold endsWithNewline at hend
    rw [hlast, Option.map_some, Option.getD_some] at hend
    have hplain : c = 13 ∨ c = 10 := by simpa [isCrLf] using hend
    rcases hplain with rfl | rfl <;> exact absurd hopen (by decide)
  · rw [if_neg hend, List.getLast?_append] at hlast
    cases hlast
    exact absurd hopen (by decide)

-- ============================================================================
-- Between two lines
-- ============================================================================

theorem bareLines_apart_iff {a x : PyStr} {wanted : List PyStr} (h : ¬ (OpenEnd a ∨ SplitCrLf a x)) :
    bareLines (a ++ x) = bareLines a ++ wanted ↔ bareLines x = wanted := by
  rw [not_or] at h
  rw [bareLines_append h.1 h.2, List.append_cancel_left_eq]

/-- Before a text that does not stand apart, its first line is lost. -/
theorem bareLines_joined_iff {a x : PyStr} {wanted : List PyStr} (hx : x ≠ [])
    (h : OpenEnd a ∨ SplitCrLf a x) :
    bareLines (a ++ x) = bareLines a ++ wanted ↔ bareLines x = [] :: wanted := by
  rcases h with hopen | ⟨h13, h10⟩
  · obtain ⟨ls, last, l, rest, ha, hlines, hboth⟩ := bareLines_append_open hopen hx
    rw [hboth, ha, hlines, List.append_assoc, List.append_cancel_left_eq, List.singleton_append,
      List.cons.injEq, List.cons.injEq, List.append_right_eq_self]
  · obtain ⟨rest, rfl⟩ := List.head?_eq_some_iff.mp h10
    rw [bareLines_append_lf h13, List.append_cancel_left_eq,
      bareLines_break rfl fun h => absurd h.1 (by decide), List.cons.injEq, and_iff_right rfl]

theorem cons_eq_concat_iff (ls : List PyStr) : ls ++ [[]] = [] :: ls ↔ ∀ l ∈ ls, l = [] := by
  induction ls with
  | nil => exact ⟨fun _ _ h => absurd h List.not_mem_nil, fun _ => rfl⟩
  | cons l ls ih =>
      rw [List.cons_append, List.cons.injEq, List.forall_mem_cons]
      refine and_congr_right fun hl => ?_
      rw [hl, ih]

theorem splitCrLf_before_insertion (hne : newStr ≠ []) (content a : PyStr) :
    SplitCrLf a (insertion newStr content) ↔
      contains (py "\r\n") content = false ∧ SplitCrLf a newStr := by
  have hhead : (insertion newStr content).head? = (preserveNewlineStyle newStr content).head? := by
    obtain ⟨c, cs, hcons⟩ := List.exists_cons_of_ne_nil (preserve_ne_nil hne content)
    unfold insertion
    rw [hcons]
    rfl
  unfold SplitCrLf
  rw [hhead, preserveNewlineStyle_eq]
  cases contains (py "\r\n") content with
  | true => exact ⟨fun h => absurd h.2 (head?_toCrLf_ne newStr), fun h => (nomatch h.1)⟩
  | false => exact ⟨fun h => ⟨rfl, h⟩, fun h => h.2⟩

/-- The lines at the seam before the new text. -/
theorem lines_before_iff (hne : newStr ≠ []) :
    bareLines (before content k ++ insertion newStr content)
      = (bareLines content).take k ++ bareLines newStr ↔
      (¬ Joins content k ∧ ¬ MergesBefore content k newStr ∧ ¬ EndsTwice newStr) ∨
        ((Joins content k ∨ MergesBefore content k newStr) ∧ EndsTwice newStr ∧
          ∀ line ∈ bareLines newStr, line = []) := by
  unfold insertion
  generalize hnew : preserveNewlineStyle newStr content = new
  have hnew_ne : new ≠ [] := hnew ▸ preserve_ne_nil hne content
  have hlines : bareLines new = bareLines newStr := hnew ▸ bareLines_preserve newStr content
  have htwice : EndsTwice new ↔ EndsTwice newStr := hnew ▸ endsTwice_preserve newStr content
  have hmerges : SplitCrLf (before content k) (new ++ lastEnd new) ↔ MergesBefore content k newStr :=
    hnew ▸ splitCrLf_before_insertion hne content _
  have htake : (bareLines content).take k = bareLines (before content k) := (bareLines_take content k).symm
  rw [htake]
  have hended : (¬ EndsTwice newStr ∧ bareLines (new ++ lastEnd new) = bareLines newStr) ∨
      (EndsTwice newStr ∧ bareLines (new ++ lastEnd new) = bareLines newStr ++ [[]]) := by
    by_cases h : EndsTwice new
    · exact .inr ⟨htwice.mp h, hlines ▸ bareLines_endsTwice h⟩
    · exact .inl ⟨fun hnewStr => h (htwice.mpr hnewStr), hlines ▸ bareLines_endsOnce hnew_ne h⟩
  by_cases hjoined : Joins content k ∨ MergesBefore content k newStr
  · have hseam : OpenEnd (before content k) ∨ SplitCrLf (before content k) (new ++ lastEnd new) :=
      hjoined.imp_right hmerges.mpr
    rw [bareLines_joined_iff (List.append_ne_nil_of_left_ne_nil hnew_ne _) hseam]
    rcases hended with ⟨honce, heq⟩ | ⟨htwice, heq⟩
    · rw [heq]
      refine iff_of_false (fun h => ?_) ?_
      · exact absurd (congrArg List.length h) (by rw [List.length_cons]; omega)
      · rintro (⟨hjoins, hmerges, _⟩ | ⟨_, htwice, _⟩)
        · exact hjoined.elim hjoins hmerges
        · exact honce htwice
    · rw [heq, cons_eq_concat_iff]
      refine ⟨fun h => .inr ⟨hjoined, htwice, h⟩, ?_⟩
      rintro (⟨_, _, honce⟩ | ⟨_, _, h⟩)
      · exact absurd htwice honce
      · exact h
  · have hseam : ¬ (OpenEnd (before content k) ∨ SplitCrLf (before content k) (new ++ lastEnd new)) :=
      fun h => hjoined (h.imp_right hmerges.mp)
    rw [bareLines_apart_iff hseam]
    obtain ⟨hjoins, hmerges⟩ := not_or.mp hjoined
    rcases hended with ⟨honce, heq⟩ | ⟨htwice, heq⟩
    · exact iff_of_true heq (.inl ⟨hjoins, hmerges, honce⟩)
    · rw [heq]
      refine iff_of_false (fun h => ?_) ?_
      · exact absurd (congrArg List.length h) (by rw [List.length_append, List.length_singleton]; omega)
      · rintro (⟨_, _, honce⟩ | ⟨hjoined, _⟩)
        · exact honce htwice
        · exact hjoined.elim hjoins hmerges

theorem getLast?_insertion (newStr content : PyStr) :
    (insertion newStr content).getLast? = some 13 ↔
      contains (py "\r\n") content = false ∧ newStr.getLast? = some 13 := by
  unfold insertion lastEnd
  rw [endsWithNewline_preserve]
  constructor
  · intro h
    by_cases hend : endsWithNewline newStr = true
    · rw [if_pos hend, List.append_nil, getLast?_preserve] at h
      obtain ⟨c, hc, h13⟩ := Option.map_eq_some_iff.mp h
      split_ifs at h13 with hcrlf
      · cases h13
      · subst h13
        exact ⟨by simpa using hcrlf, hc⟩
    · rw [if_neg hend, List.getLast?_append] at h
      cases h
  · rintro ⟨hcrlf, hlast⟩
    have hend : endsWithNewline newStr = true := by
      unfold endsWithNewline
      rw [hlast]
      rfl
    rw [if_pos hend, List.append_nil, getLast?_preserve, hlast, hcrlf]
    rfl

theorem insertion_ne_nil (hne : newStr ≠ []) (content : PyStr) : insertion newStr content ≠ [] :=
  List.append_ne_nil_of_left_ne_nil (preserve_ne_nil hne content) _

theorem splitCrLf_append {a x t : PyStr} (hx : x ≠ []) : SplitCrLf (a ++ x) t ↔ SplitCrLf x t := by
  unfold SplitCrLf
  rw [List.getLast?_append_of_ne_nil _ hx]

theorem openEnd_append {a x : PyStr} (hx : x ≠ []) : OpenEnd (a ++ x) ↔ OpenEnd x := by
  unfold OpenEnd
  rw [List.getLast?_append_of_ne_nil _ hx]

theorem splitCrLf_insertion (newStr content t : PyStr) :
    SplitCrLf (insertion newStr content) t ↔
      contains (py "\r\n") content = false ∧ SplitCrLf newStr t := by
  unfold SplitCrLf
  rw [getLast?_insertion, and_assoc]

theorem not_openEnd_insertion (hne : newStr ≠ []) (content : PyStr) : ¬ OpenEnd (insertion newStr content) :=
  not_openEnd_lastEnd (preserve_ne_nil hne content)

/-- A line of the file is lost behind the new text exactly if a `\r\n` is made there. -/
theorem lines_behind_iff (hne : newStr ≠ []) :
    bareLines (before content k ++ insertion newStr content ++ behind content k)
      = (bareLines content).take k ++ bareLines newStr ++ (bareLines content).drop k ↔
      StandsApart content k newStr := by
  have hx := insertion_ne_nil hne content
  have hclosed := not_openEnd_insertion hne content
  have hdrop : (bareLines content).drop k = bareLines (behind content k) := (bareLines_drop content k).symm
  by_cases hmerges : MergesBehind content k newStr
  · refine iff_of_false (fun h => ?_) (fun h => h.1 hmerges)
    obtain ⟨hcrlf, h13, h10⟩ := hmerges
    obtain ⟨rest, hrest⟩ := List.head?_eq_some_iff.mp h10
    have hcut := betweenLines_splitlines content k
    -- what is lost is the empty line before the second half
    have hapart : ¬ (OpenEnd (before content k) ∨ SplitCrLf (before content k) (insertion newStr content)) := by
      rintro (hopen | hsplit)
      · have hnil : behind content k = [] := hcut.2 hopen
        rw [hrest] at hnil
        cases hnil
      · exact hcut.1 ⟨hsplit.1, h10⟩
    rw [not_or] at hapart
    have honce : bareLines (insertion newStr content) = bareLines newStr := by
      have hplain : ¬ EndsTwice newStr := by
        rintro ⟨c, hc, _, hplain⟩
        rw [h13] at hc
        cases hc
        cases hplain
      unfold insertion
      rw [bareLines_endsOnce (preserve_ne_nil hne content) fun h => hplain ((endsTwice_preserve _ _).mp h),
        bareLines_preserve]
    have hlast : (before content k ++ insertion newStr content).getLast? = some 13 := by
      rw [List.getLast?_append_of_ne_nil _ hx, getLast?_insertion]
      exact ⟨hcrlf, h13⟩
    have htake : (bareLines content).take k = bareLines (before content k) := (bareLines_take content k).symm
    rw [hdrop, htake, hrest, bareLines_append_lf hlast, bareLines_append hapart.1 hapart.2, honce,
      bareLines_break rfl fun h => absurd h.1 (by decide), List.append_cancel_left_eq] at h
    exact absurd (congrArg List.length h) (by rw [List.length_cons]; omega)
  · have hseam : ¬ SplitCrLf (before content k ++ insertion newStr content) (behind content k) := by
      rw [splitCrLf_append hx, splitCrLf_insertion]
      exact hmerges
    rw [bareLines_append (fun h => hclosed ((openEnd_append hx).mp h)) hseam, hdrop,
      List.append_cancel_right_eq, lines_before_iff hne]
    exact (and_iff_right hmerges).symm

-- ============================================================================
-- The ends of the lines
-- ============================================================================

theorem isCrLf_iff {c : Nat} : isCrLf c = true ↔ c = 13 ∨ c = 10 := by
  unfold isCrLf
  rw [Bool.or_eq_true, beq_iff_eq, beq_iff_eq]

theorem crlfEnds_insertion_iff (hcrlf : contains (py "\r\n") content = true) (newStr : PyStr) :
    crlfEnds (insertion newStr content) = true ↔ EndsPlainly newStr := by
  unfold insertion lastEnd EndsPlainly
  rw [endsWithNewline_preserve, preserveNewlineStyle_eq, if_pos hcrlf]
  have hends := crlfEnds_toCrLf newStr
  by_cases hend : endsWithNewline newStr = true
  · rw [if_pos hend, List.append_nil, hends, and_iff_right hend]
    exact forall₂_congr fun c _ => by rw [isCrLf_iff]
  · rw [if_neg hend]
    refine iff_of_false (fun h => ?_) fun h => hend h.1
    rw [crlfEnds_append fun h => ?_, Bool.and_eq_true] at h
    · cases h.2
    · exact getLast?_toCrLf_ne newStr h.1

theorem before_append_behind (content : PyStr) (k : Nat) : before content k ++ behind content k = content := by
  unfold before behind
  rw [← List.flatten_append, List.take_append_drop, splitlines_flatten_self]

/-- In a file with `\r\n` only, no other end comes in exactly if the new text is ended,
    and by plain newlines. -/
theorem crlfEnds_iff (hfile : CrLfFile content) (hne : newStr ≠ []) :
    crlfEnds (before content k ++ insertion newStr content ++ behind content k) = true ↔
      EndsPlainly newStr := by
  obtain ⟨hcrlf, hends⟩ := hfile
  have hcut : BetweenLines (before content k) (behind content k) := betweenLines_splitlines content k
  rw [← before_append_behind content k, crlfEnds_append hcut.1, Bool.and_eq_true] at hends
  have hbefore : ¬ SplitCrLf (before content k) (insertion newStr content) := by
    rw [splitCrLf_before_insertion hne, hcrlf]
    exact fun h => (nomatch h.1)
  have hbehind : ¬ SplitCrLf (before content k ++ insertion newStr content) (behind content k) := by
    rw [splitCrLf_append (insertion_ne_nil hne content), splitCrLf_insertion, hcrlf]
    exact fun h => (nomatch h.1)
  rw [crlfEnds_append hbehind, crlfEnds_append hbefore, hends.1, hends.2, Bool.true_and, Bool.and_true,
    crlfEnds_insertion_iff hcrlf]

-- ============================================================================
-- The insertion
-- ============================================================================

theorem insert_content (path : PyStr) (hk : k ≤ (splitlines content).length) (hne : newStr ≠ []) :
    ∃ output, insert path content k newStr
      = .ok ⟨before content k ++ insertion newStr content ++ behind content k, output⟩ := by
  unfold insert
  dsimp only
  rw [if_neg (by omega), Int.toNat_natCast, List.flatten_append, List.flatten_append,
    insertedLines_flatten (preserve_ne_nil hne content)]
  exact ⟨_, rfl⟩

/-- `_insert` adds whole lines exactly if the new text stands apart from the lines around
    it, and in a file with `\r\n` only is ended, by plain newlines. -/
theorem insert_addsLines_iff (path content newStr : PyStr) {k : Nat}
    (hk : k ≤ (splitlines content).length) (hne : newStr ≠ []) :
    (∃ edit, insert path content k newStr = .ok edit ∧ AddsLines content k newStr edit.content) ↔
      StandsApart content k newStr ∧ (CrLfFile content → EndsPlainly newStr) := by
  obtain ⟨output, hedit⟩ := insert_content path hk hne
  constructor
  · rintro ⟨edit, heq, hadds⟩
    rw [hedit] at heq
    cases heq
    exact ⟨(lines_behind_iff hne).mp hadds.lines, fun hfile => (crlfEnds_iff hfile hne).mp (hadds.ends hfile)⟩
  · rintro ⟨hapart, hplain⟩
    exact ⟨_, hedit, (lines_behind_iff hne).mpr hapart, fun hfile => (crlfEnds_iff hfile hne).mpr (hplain hfile)⟩

theorem insert_addsLines_two :
    (∃ edit, insert (py "f") (py "a\r\nb\r\n") 1 (py "x\n") = .ok edit ∧
        AddsLines (py "a\r\nb\r\n") 1 (py "x\n") edit.content) ↔
      StandsApart (py "a\r\nb\r\n") 1 (py "x\n") ∧
        (CrLfFile (py "a\r\nb\r\n") → EndsPlainly (py "x\n")) :=
  insert_addsLines_iff (py "f") (py "a\r\nb\r\n") (py "x\n") (by decide) (by decide)

/-- Behind a last line without an end, the new line joins it; and a line without an end
    gets a lone `\n` in a file with `\r\n` only. -/
theorem insert_joins_lines :
    (∃ edit, insert (py "f") (py "a") 1 (py "b") = .ok edit ∧ edit.content = py "ab\n" ∧
        ¬ AddsLines (py "a") 1 (py "b") edit.content) ∧
      (∃ edit, insert (py "f") (py "a\r\n") 1 (py "b") = .ok edit ∧ edit.content = py "a\r\nb\n" ∧
        ¬ AddsLines (py "a\r\n") 1 (py "b") edit.content) := by
  refine ⟨⟨_, rfl, by decide, fun h => ?_⟩, ⟨_, rfl, by decide, fun h => ?_⟩⟩
  · exact absurd h.lines (by decide)
  · exact absurd (h.ends (by decide)) (by decide)

end Files
end KineticSdk
