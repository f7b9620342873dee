/-
  KineticSdk.Py.Lines

  The lines of a text without their ends (`s.splitlines()`), and how they
  follow the text through a cut between two lines, through a seam and through a
  change of newlines.
-/

import KineticSdk.Py.JsonFile
import KineticSdk.Py.Search

namespace KineticSdk
namespace Py

/-- `s.splitlines()`. -/
def bareLines : PyStr → List PyStr
  | [] => []
  | 13 :: 10 :: rest => [] :: bareLines rest
  | c :: cs => if isLineBreak c then [] :: bareLines cs else consLine c (bareLines cs)

/-- The text ends in a line that is not ended. -/
def OpenEnd (s : PyStr) : Prop := ∃ c, s.getLast? = some c ∧ isLineBreak c = false

/-- Between the two texts stands a `\r\n`. -/
def SplitCrLf (s t : PyStr) : Prop := s.getLast? = some 13 ∧ t.head? = some 10

/-- Every end of a line is a `\r\n`. -/
def crlfEnds : PyStr → Bool
  | [] => true
  | 13 :: 10 :: rest => crlfEnds rest
  | c :: cs => !isLineBreak c && crlfEnds cs

example : bareLines (py "a\r\n\nb\r") = [py "a", [], py "b"] ∧ crlfEnds (py "a\r\nb") = true
    ∧ crlfEnds (py "a\r\nb\n") = false := by decide

-- ============================================================================
-- One character
-- ============================================================================

theorem bareLines_crlf (s : PyStr) : bareLines (13 :: 10 :: s) = [] :: bareLines s := rfl

theorem bareLines_break {c : Nat} (hc : isLineBreak c = true) {s : PyStr}
    (h : ¬ (c = 13 ∧ s.head? = some 10)) : bareLines (c :: s) = [] :: bareLines s := by
  rw [bareLines.eq_3, if_pos hc]
  rintro rest rfl rfl
  exact h ⟨rfl, rfl⟩

theorem bareLines_char {c : Nat} (hc : isLineBreak c = false) (s : PyStr) :
    bareLines (c :: s) = consLine c (bareLines s) := by
  rw [bareLines.eq_3, hc]
  · rfl
  · rintro rest rfl
    exact absurd hc (by decide)

theorem bareLines_ne_nil {s : PyStr} (h : s ≠ []) : bareLines s ≠ [] := by
  fun_cases bareLines s with
  | case1 => exact absurd rfl h
  | case2 rest => exact List.cons_ne_nil _ _
  | case3 c cs _ hc => exact List.cons_ne_nil _ _
  | case4 c cs _ hc => cases bareLines cs <;> exact List.cons_ne_nil _ _

theorem consLine_append {c : Nat} {ls : List PyStr} (h : ls ≠ []) (rest : List PyStr) :
    consLine c (ls ++ rest) = consLine c ls ++ rest := by
  cases ls with
  | nil => exact absurd rfl h
  | cons l ls => rfl

theorem take_consLine {c : Nat} {ls : List PyStr} (h : ls ≠ []) (k : Nat) :
    (consLine c ls).take (k + 1) = consLine c (ls.take (k + 1)) := by
  cases ls with
  | nil => exact absurd rfl h
  | cons l ls => rfl

theorem drop_consLine {c : Nat} {ls : List PyStr} (h : ls ≠ []) (k : Nat) :
    (consLine c ls).drop (k + 1) = ls.drop (k + 1) := by
  cases ls with
  | nil => exact absurd rfl h
  | cons l ls => rfl

theorem flatten_consLine (c : Nat) (ls : List PyStr) : (consLine c ls).flatten = c :: ls.flatten := by
  cases ls <;> rfl

theorem splitlines_ne_nil {s : PyStr} (h : s ≠ []) : splitlines s ≠ [] := by
  intro hnil
  have hflat := splitlines_flatten_self s
  rw [hnil] at hflat
  exact h hflat.symm

-- ============================================================================
-- A cut between two lines
-- ============================================================================

/-- The first lines of a text begin as it does. -/
theorem head?_take_splitlines (s : PyStr) (k : Nat) :
    ((splitlines s).take k).flatten = [] ∨ ((splitlines s).take k).flatten.head? = s.head? := by
  have hsplit : ((splitlines s).take k).flatten ++ ((splitlines s).drop k).flatten = s := by
    rw [← List.flatten_append, List.take_append_drop, splitlines_flatten_self]
  cases htake : ((splitlines s).take k).flatten with
  | nil => exact .inl rfl
  | cons c cs =>
      rw [htake] at hsplit
      rw [← hsplit]
      exact .inr rfl

/-- After a break that is no half of a `\r\n`, no first lines complete one. -/
theorem take_not_crlf {c : Nat} {s : PyStr} (h : ∀ rest, c = 13 → s = 10 :: rest → False) (k : Nat) :
    ¬ (c = 13 ∧ ((splitlines s).take k).flatten.head? = some 10) := by
  rintro ⟨hc, hhead⟩
  rcases head?_take_splitlines s k with hnil | heq
  · rw [hnil] at hhead
    cases hhead
  · rw [heq] at hhead
    obtain ⟨rest, rfl⟩ := List.head?_eq_some_iff.mp hhead
    exact h rest hc rfl

theorem bareLines_take (s : PyStr) (k : Nat) :
    bareLines ((splitlines s).take k).flatten = (bareLines s).take k := by
  fun_induction splitlines s generalizing k with
  | case1 => cases k <;> rfl
  | case2 rest ih =>
      cases k with
      | zero => rfl
      | succ k =>
        rw [List.take_succ_cons, List.flatten_cons, bareLines_crlf, List.take_succ_cons, ← ih]
        rfl
  | case3 c cs hseam hc ih =>
      cases k with
      | zero => rfl
      | succ k =>
        rw [List.take_succ_cons, List.flatten_cons, List.singleton_append,
          bareLines_break hc (take_not_crlf hseam k), bareLines.eq_3 _ _ hseam, if_pos hc,
          List.take_succ_cons, ih]
  | case4 c cs hseam hc ih =>
      have hopen : isLineBreak c = false := by simpa using hc
      cases k with
      | zero => rfl
      | succ k =>
        rw [bareLines_char hopen]
        by_cases hcs : cs = []
        · rw [hcs]
          cases k <;> exact bareLines_char hopen []
        · rw [take_consLine (splitlines_ne_nil hcs), flatten_consLine, bareLines_char hopen,
            take_consLine (bareLines_ne_nil hcs), ih]

theorem bareLines_drop (s : PyStr) (k : Nat) :
    bareLines ((splitlines s).drop k).flatten = (bareLines s).drop k := by
  fun_induction splitlines s generalizing k with
  | case1 => cases k <;> rfl
  | case2 rest ih =>
      cases k with
      | zero => rw [List.drop_zero, List.drop_zero, List.flatten_cons, splitlines_flatten_self]; rfl
      | succ k => rw [List.drop_succ_cons, ih]; rfl
  | case3 c cs hseam hc ih =>
      cases k with
      | zero => rw [List.drop_zero, List.drop_zero, List.flatten_cons, splitlines_flatten_self]; rfl
      | succ k => rw [List.drop_succ_cons, ih, bareLines.eq_3 _ _ hseam, if_pos hc, List.drop_succ_cons]
  | case4 c cs hseam hc ih =>
      have hopen : isLineBreak c = false := by simpa using hc
      cases k with
      | zero => rw [List.drop_zero, List.drop_zero, flatten_consLine, splitlines_flatten_self]
      | succ k =>
        rw [bareLines_char hopen]
        by_cases hcs : cs = []
        · rw [hcs]
          cases k <;> rfl
        · rw [drop_consLine (splitlines_ne_nil hcs), drop_consLine (bareLines_ne_nil hcs), ih]

-- ============================================================================
-- Seams
-- ============================================================================

theorem openEnd_cons {c : Nat} {s : PyStr} (h : s ≠ []) : OpenEnd (c :: s) ↔ OpenEnd s := by
  unfold OpenEnd
  rw [List.getLast?_cons_of_ne_nil h]

theorem splitCrLf_cons {c : Nat} {s : PyStr} (h : s ≠ []) (t : PyStr) :
    SplitCrLf (c :: s) t ↔ SplitCrLf s t := by
  unfold SplitCrLf
  rw [List.getLast?_cons_of_ne_nil h]

theorem not_openEnd_nil : ¬ OpenEnd [] := fun ⟨_, h, _⟩ => nomatch h

theorem not_splitCrLf_nil (t : PyStr) : ¬ SplitCrLf [] t := fun h => nomatch h.1

theorem openEnd_singleton {c : Nat} : OpenEnd [c] ↔ isLineBreak c = false := by
  constructor
  · rintro ⟨d, hd, h⟩
    cases hd
    exact h
  · exact fun h => ⟨c, rfl, h⟩

/-- The lines of a text that ends in a break follow each other through the seam. -/
theorem bareLines_append {s t : PyStr} (hopen : ¬ OpenEnd s) (hseam : ¬ SplitCrLf s t) :
    bareLines (s ++ t) = bareLines s ++ bareLines t := by
  fun_induction bareLines s with
  | case1 => rfl
  | case2 rest ih =>
      rw [List.cons_append, List.cons_append, bareLines_crlf]
      by_cases hrest : rest = []
      · rw [hrest]
        rfl
      · rw [openEnd_cons (List.cons_ne_nil _ _), openEnd_cons hrest] at hopen
        rw [splitCrLf_cons (List.cons_ne_nil _ _), splitCrLf_cons hrest] at hseam
        rw [ih hopen hseam]
        rfl
  | case3 c cs hmatch hc ih =>
      by_cases hcs : cs = []
      · subst hcs
        exact bareLines_break hc fun h => hseam ⟨by rw [h.1]; rfl, h.2⟩
      · rw [openEnd_cons hcs] at hopen
        rw [splitCrLf_cons hcs] at hseam
        rw [List.cons_append, bareLines_break hc, ih hopen hseam]
        · rfl
        · rintro ⟨h13, h10⟩
          obtain ⟨d, cs, rfl⟩ := List.exists_cons_of_ne_nil hcs
          cases h10
          exact hmatch cs h13 rfl
  | case4 c cs hmatch hc ih =>
      have hchar : isLineBreak c = false := by simpa using hc
      have hcs : cs ≠ [] := by
        rintro rfl
        exact hopen (openEnd_singleton.mpr hchar)
      rw [openEnd_cons hcs] at hopen
      rw [splitCrLf_cons hcs] at hseam
      rw [List.cons_append, bareLines_char hchar, ih hopen hseam, consLine_append (bareLines_ne_nil hcs)]

/-- The other half of a `\r\n` ends no line of its own. -/
theorem bareLines_append_lf {s : PyStr} (h : s.getLast? = some 13) (t : PyStr) :
    bareLines (s ++ 10 :: t) = bareLines s ++ bareLines t := by
  fun_induction bareLines s with
  | case1 => cases h
  | case2 rest ih =>
      rw [List.getLast?_cons_of_ne_nil (List.cons_ne_nil _ _)] at h
      by_cases hrest : rest = []
      · subst hrest
        cases h
      · rw [List.getLast?_cons_of_ne_nil hrest] at h
        rw [List.cons_append, List.cons_append, bareLines_crlf, ih h]
        rfl
  | case3 c cs hmatch hc ih =>
      by_cases hcs : cs = []
      · subst hcs
        cases h
        rfl
      · rw [List.getLast?_cons_of_ne_nil hcs] at h
        rw [List.cons_append, bareLines_break hc, ih h]
        · rfl
        · rintro ⟨h13, h10⟩
          obtain ⟨d, cs, rfl⟩ := List.exists_cons_of_ne_nil hcs
          cases h10
          exact hmatch cs h13 rfl
  | case4 c cs hmatch hc ih =>
      have hchar : isLineBreak c = false := by simpa using hc
      have hcs : cs ≠ [] := by
        rintro rfl
        cases h
        exact absurd hchar (by decide)
      rw [List.getLast?_cons_of_ne_nil hcs] at h
      rw [List.cons_append, bareLines_char hchar, ih h, consLine_append (bareLines_ne_nil hcs)]

/-- After a line that is not ended, the first line goes on with it. -/
theorem bareLines_append_open {s : PyStr} (h : OpenEnd s) {t : PyStr} (ht : t ≠ []) :
    ∃ ls last l rest, bareLines s = ls ++ [last] ∧ bareLines t = l :: rest ∧
      bareLines (s ++ t) = ls ++ (last ++ l) :: rest := by
  obtain ⟨l, rest, hlines⟩ := List.exists_cons_of_ne_nil (bareLines_ne_nil ht)
  suffices ∃ ls last, bareLines s = ls ++ [last] ∧ bareLines (s ++ t) = ls ++ (last ++ l) :: rest by
    obtain ⟨ls, last, hs, hst⟩ := this
    exact ⟨ls, last, l, rest, hs, hlines, hst⟩
  fun_induction bareLines s with
  | case1 => exact absurd h not_openEnd_nil
  | case2 rest' ih =>
      rw [openEnd_cons (List.cons_ne_nil _ _)] at h
      have hrest : rest' ≠ [] := by
        rintro rfl
        exact absurd (openEnd_singleton.mp h) (by decide)
      rw [openEnd_cons hrest] at h
      obtain ⟨ls, last, hs, hst⟩ := ih h
      exact ⟨[] :: ls, last, congrArg _ hs, congrArg _ hst⟩
  | case3 c cs hmatch hc ih =>
      have hcs : cs ≠ [] := by
        rintro rfl
        exact absurd hc (by simp [openEnd_singleton.mp h])
      rw [openEnd_cons hcs] at h
      obtain ⟨ls, last, hs, hst⟩ := ih h
      refine ⟨[] :: ls, last, congrArg _ hs, ?_⟩
      rw [List.cons_append, bareLines_break hc, hst]
      · rfl
      · rintro ⟨h13, h10⟩
        obtain ⟨d, cs, rfl⟩ := List.exists_cons_of_ne_nil hcs
        cases h10
        exact hmatch cs h13 rfl
  | case4 c cs hmatch hc ih =>
      have hchar : isLineBreak c = false := by simpa using hc
      rw [List.cons_append, bareLines_char hchar]
      by_cases hcs : cs = []
      · subst hcs
        refine ⟨[], [c], rfl, ?_⟩
        rw [List.nil_append, hlines]
        rfl
      · rw [openEnd_cons hcs] at h
        obtain ⟨ls, last, hs, hst⟩ := ih h
        rw [hs, hst]
        cases ls with
        | nil => exact ⟨[], c :: last, rfl, rfl⟩
        | cons l' ls => exact ⟨(c :: l') :: ls, last, rfl, rfl⟩

theorem nil_not_mem_splitlines (s : PyStr) : [] ∉ splitlines s := by
  fun_induction splitlines s with
  | case1 => exact List.not_mem_nil
  | case2 rest ih => exact fun h => (List.mem_cons.mp h).elim (List.cons_ne_nil _ _).symm ih
  | case3 c cs _ hc ih => exact fun h => (List.mem_cons.mp h).elim (List.cons_ne_nil _ _).symm ih
  | case4 c cs _ hc ih =>
      cases hcs : splitlines cs with
      | nil => exact fun h => List.cons_ne_nil _ _ (List.mem_singleton.mp h).symm
      | cons l ls =>
          rw [hcs] at ih
          exact fun h => (List.mem_cons.mp h).elim (List.cons_ne_nil _ _).symm
            fun h => ih (List.mem_cons_of_mem _ h)

/-- A text is cut after a line that is ended, and not through a `\r\n`. -/
def BetweenLines (s t : PyStr) : Prop := ¬ SplitCrLf s t ∧ (OpenEnd s → t = [])

theorem BetweenLines.nil (t : PyStr) : BetweenLines [] t :=
  ⟨not_splitCrLf_nil t, fun h => absurd h not_openEnd_nil⟩

theorem BetweenLines.cons {c : Nat} {s t : PyStr} (h : BetweenLines s t)
    (hfirst : s = [] → ¬ (c = 13 ∧ t.head? = some 10) ∧ (isLineBreak c = false → t = [])) :
    BetweenLines (c :: s) t := by
  by_cases hs : s = []
  · subst hs
    obtain ⟨hseam, hopen⟩ := hfirst rfl
    exact ⟨fun h => hseam ⟨Option.some.inj h.1, h.2⟩, fun h => hopen (openEnd_singleton.mp h)⟩
  · unfold BetweenLines
    rw [splitCrLf_cons hs, openEnd_cons hs]
    exact h

/-- The first lines are ended where lines follow, and not in half a `\r\n`. -/
theorem betweenLines_splitlines (s : PyStr) (k : Nat) :
    BetweenLines ((splitlines s).take k).flatten ((splitlines s).drop k).flatten := by
  fun_induction splitlines s generalizing k with
  | case1 => cases k <;> exact .nil _
  | case2 rest ih =>
      cases k with
      | zero => exact .nil _
      | succ k =>
        rw [List.take_succ_cons, List.drop_succ_cons, List.flatten_cons]
        refine ((ih k).cons fun _ => ⟨fun h => absurd h.1 (by decide), fun h => ?_⟩).cons fun h => absurd h (List.cons_ne_nil _ _)
        exact absurd h (by decide)
  | case3 c cs hmatch hc ih =>
      cases k with
      | zero => exact .nil _
      | succ k =>
        rw [List.take_succ_cons, List.drop_succ_cons, List.flatten_cons]
        refine (ih k).cons fun hnil => ⟨?_, fun h => ?_⟩
        · have hrest : ((splitlines cs).drop k).flatten = cs := by
            have hsplit := splitlines_flatten_self cs
            rwa [← List.take_append_drop k (splitlines cs), List.flatten_append, hnil] at hsplit
          rw [hrest]
          rintro ⟨h13, h10⟩
          obtain ⟨rest, rfl⟩ := List.head?_eq_some_iff.mp h10
          exact hmatch rest h13 rfl
        · rw [hc] at h
          cases h
  | case4 c cs hmatch hc ih =>
      have hchar : isLineBreak c = false := by simpa using hc
      cases k with
      | zero => exact .nil _
      | succ k =>
        by_cases hcs : cs = []
        · subst hcs
          have hend : ([] : PyStr).head? ≠ some 10 := by decide
          cases k <;> exact (BetweenLines.nil []).cons fun _ => ⟨fun h => hend h.2, fun _ => rfl⟩
        · have hne := splitlines_ne_nil hcs
          rw [take_consLine hne, drop_consLine hne, flatten_consLine]
          refine (ih (k + 1)).cons fun hnil => ?_
          obtain ⟨l, ls, hls⟩ := List.exists_cons_of_ne_nil hne
          rw [hls, List.take_succ_cons, List.flatten_cons] at hnil
          refine absurd ?_ (nil_not_mem_splitlines cs)
          rw [hls, (List.append_eq_nil_iff.mp hnil).1]
          exact List.mem_cons_self ..

-- ============================================================================
-- Lines with their ends
-- ============================================================================

/-- A line with its end. -/
def Ended (line : PyStr) : Prop :=
  ∃ body c, NoBreak body ∧ isLineBreak c = true ∧ (line = body ++ [c] ∨ line = body ++ [13, 10])

/-- Lines with their ends, the last one possibly without. -/
inductive LineList : List PyStr → Prop
  | nil : LineList []
  | last {line : PyStr} (h : NoBreak line) : LineList [line]
  | cons {line : PyStr} {lines : List PyStr} (h : Ended line) (hs : LineList lines) : LineList (line :: lines)

theorem NoBreak.cons {c : Nat} {s : PyStr} (hc : isLineBreak c = false) (hs : NoBreak s) : NoBreak (c :: s) := by
  intro d hd
  rcases List.mem_cons.mp hd with rfl | hd
  · exact hc
  · exact hs d hd

theorem noBreak_nil : NoBreak [] := fun _ h => absurd h List.not_mem_nil

theorem lineList_splitlines (s : PyStr) : LineList (splitlines s) := by
  fun_induction splitlines s with
  | case1 => exact .nil
  | case2 rest ih => exact .cons ⟨[], 13, noBreak_nil, rfl, .inr rfl⟩ ih
  | case3 c cs _ hc ih => exact .cons ⟨[], c, noBreak_nil, hc, .inl rfl⟩ ih
  | case4 c cs _ hc ih =>
      have hchar : isLineBreak c = false := by simpa using hc
      generalize splitlines cs = lines at ih ⊢
      cases ih with
      | nil => exact .last (NoBreak.cons hchar noBreak_nil)
      | last h => exact .last (NoBreak.cons hchar h)
      | cons h hs =>
          obtain ⟨body, d, hbody, hd, hline⟩ := h
          refine .cons ⟨c :: body, d, NoBreak.cons hchar hbody, hd, ?_⟩ hs
          exact hline.imp (congrArg (c :: ·)) (congrArg (c :: ·))

theorem NoBreak.dropWhile {s : PyStr} (h : NoBreak s) (p : Nat → Bool) : NoBreak (s.dropWhile p) :=
  fun c hc => h c ((List.dropWhile_sublist p).subset hc)

theorem splitlines_append_break {body : PyStr} (hbody : NoBreak body) {c : Nat} (hc : isLineBreak c = true)
    {rest : PyStr} (hseam : ∀ tail, c = 13 → rest = 10 :: tail → False) :
    splitlines (body ++ c :: rest) = (body ++ [c]) :: splitlines rest := by
  induction body with
  | nil =>
      show splitlines (c :: rest) = [c] :: splitlines rest
      rw [splitlines.eq_3 _ _ hseam, if_pos hc]
  | cons d body ih =>
      have hrest : NoBreak body := fun x hx => hbody x (List.mem_cons_of_mem _ hx)
      rw [List.cons_append, splitlines_cons_of_not_break (hbody d (List.mem_cons_self ..)), ih hrest]
      rfl

-- ============================================================================
-- Newlines
-- ============================================================================

/-- A lone `\r` or `\n` or a `\r\n` as `\r\n`. -/
def toCrLf : PyStr → PyStr
  | [] => []
  | 13 :: 10 :: s => 13 :: 10 :: toCrLf s
  | c :: s => if c = 13 ∨ c = 10 then 13 :: 10 :: toCrLf s else c :: toCrLf s

theorem replaceFrom_char (a : Nat) (new : PyStr) {s : PyStr} {n : Nat} (hn : s.length ≤ n) :
    replaceFrom [a] new n 0 s = s.flatMap fun c => if c = a then new else [c] := by
  induction s generalizing n with
  | nil => rfl
  | cons c s ih =>
      rw [List.length_cons] at hn
      have hpos : n ≠ 0 := by omega
      have hstart : startsWith [a] (c :: s) = true ↔ c = a := by
        show (a == c && true) = true ↔ _
        rw [Bool.and_true, beq_iff_eq, eq_comm]
      rw [replaceFrom, if_neg hpos, List.flatMap_cons]
      by_cases hc : c = a
      · rw [if_pos (hstart.mpr hc), if_pos hc]
        exact congrArg (new ++ ·) (ih (by omega))
      · rw [if_neg (fun h => hc (hstart.mp h)), if_neg hc, ih (by omega)]
        rfl

theorem replaceAll_char (a : Nat) (new s : PyStr) :
    replaceAll [a] new s = s.flatMap fun c => if c = a then new else [c] := by
  unfold replaceAll replace
  rw [if_neg (List.cons_ne_nil _ _)]
  exact replaceFrom_char a new (Nat.le_succ _)

/-- `value.replace("\r\n", "\n").replace("\r", "\n")`. -/
theorem replaceAll_newlines (s : PyStr) :
    replaceAll (py "\r") (py "\n") (replaceAll (py "\r\n") (py "\n") s) = universalNewlines s := by
  have hloop : ∀ {n : Nat}, s.length ≤ n →
      (replaceFrom [13, 10] [10] n 0 s).flatMap (fun c => if c = 13 then [10] else [c])
        = universalNewlines s := by
    fun_induction universalNewlines s with
    | case1 => exact fun _ => rfl
    | case2 s ih =>
        intro n hn
        rw [List.length_cons, List.length_cons] at hn
        rw [replaceFrom, if_neg (by omega), if_pos (by rfl), List.flatMap_append]
        exact congrArg (10 :: ·) (ih (by omega))
    | case3 c s hmatch ih =>
        intro n hn
        rw [List.length_cons] at hn
        have hstart : ¬ startsWith [13, 10] (c :: s) = true := by
          cases s with
          | nil =>
              show ¬ (13 == c && false) = true
              rw [Bool.and_false]
              exact Bool.false_ne_true
          | cons d s =>
              show ¬ (13 == c && (10 == d && true)) = true
              rw [Bool.and_true, Bool.and_eq_true, beq_iff_eq, beq_iff_eq]
              rintro ⟨rfl, rfl⟩
              exact hmatch s rfl rfl
        rw [replaceFrom, if_neg (by omega), if_neg hstart, List.flatMap_cons, ih (by omega)]
        split_ifs <;> rfl
  show replaceAll [13] [10] (replaceFrom [13, 10] [10] (s.length + 1) 0 s) = _
  rw [replaceAll_char]
  exact hloop (Nat.le_succ _)

theorem replaceAll_universalNewlines (s : PyStr) :
    replaceAll (py "\n") (py "\r\n") (universalNewlines s) = toCrLf s := by
  show replaceAll [10] [13, 10] _ = _
  rw [replaceAll_char]
  fun_induction universalNewlines s with
  | case1 => rfl
  | case2 s ih =>
      rw [List.flatMap_cons, ih]
      rfl
  | case3 c s hmatch ih =>
      rw [List.flatMap_cons, ih, toCrLf.eq_3 _ _ hmatch]
      by_cases h13 : c = 13
      · rw [if_pos h13, if_pos rfl, if_pos (.inl h13)]
        rfl
      · rw [if_neg h13]
        by_cases h10 : c = 10
        · rw [if_pos h10, if_pos (.inr h10)]
          rfl
        · rw [if_neg h10, if_neg (fun h => h.elim h13 h10)]
          rfl

theorem bareLines_toCrLf (s : PyStr) : bareLines (toCrLf s) = bareLines s := by
  fun_induction toCrLf s with
  | case1 => rfl
  | case2 s ih => rw [bareLines_crlf, bareLines_crlf, ih]
  | case3 c s hmatch hc ih =>
      have hbreak : isLineBreak c = true := by rcases hc with rfl | rfl <;> rfl
      rw [bareLines_crlf, ih, bareLines.eq_3 _ _ hmatch, if_pos hbreak]
  | case4 c s hmatch hc ih =>
      rw [bareLines.eq_3 _ _ hmatch, ← ih]
      exact bareLines.eq_3 _ _ fun rest h => absurd (.inl h) hc

theorem crlfEnds_cons {c : Nat} {s : PyStr} (h : ¬ (c = 13 ∧ s.head? = some 10)) :
    crlfEnds (c :: s) = (!isLineBreak c && crlfEnds s) := by
  rw [crlfEnds.eq_3]
  rintro rest rfl rfl
  exact h ⟨rfl, rfl⟩

theorem crlfEnds_toCrLf (s : PyStr) :
    crlfEnds (toCrLf s) = true ↔ ∀ c ∈ s, isLineBreak c = true → c = 13 ∨ c = 10 := by
  fun_induction toCrLf s with
  | case1 => exact ⟨fun _ _ h => absurd h List.not_mem_nil, fun _ => rfl⟩
  | case2 s ih =>
      show crlfEnds (toCrLf s) = true ↔ _
      rw [ih, List.forall_mem_cons, List.forall_mem_cons]
      exact ⟨fun h => ⟨fun _ => .inl rfl, fun _ => .inr rfl, h⟩, fun h => h.2.2⟩
  | case3 c s hmatch hc ih =>
      show crlfEnds (toCrLf s) = true ↔ _
      rw [ih, List.forall_mem_cons]
      exact ⟨fun h => ⟨fun _ => hc, h⟩, fun h => h.2⟩
  | case4 c s hmatch hc ih =>
      rw [crlfEnds_cons fun h => hc (.inl h.1), List.forall_mem_cons, Bool.and_eq_true, ih,
        Bool.not_eq_true']
      refine and_congr_left fun _ => ⟨fun h hbreak => ?_, fun h => ?_⟩
      · rw [h] at hbreak
        cases hbreak
      · cases hbreak : isLineBreak c with
        | false => rfl
        | true => exact absurd (h hbreak) hc

theorem crlfEnds_append {s t : PyStr} (hseam : ¬ SplitCrLf s t) :
    crlfEnds (s ++ t) = (crlfEnds s && crlfEnds t) := by
  fun_induction crlfEnds s with
  | case1 => rfl
  | case2 rest ih =>
      show crlfEnds (rest ++ t) = _
      by_cases hrest : rest = []
      · rw [hrest]
        rfl
      · rw [splitCrLf_cons (List.cons_ne_nil _ _), splitCrLf_cons hrest] at hseam
        exact ih hseam
  | case3 c cs hmatch ih =>
      by_cases hcs : cs = []
      · subst hcs
        rw [List.singleton_append, crlfEnds_cons fun h => hseam ⟨by rw [h.1]; rfl, h.2⟩]
        show _ = (!isLineBreak c && true && _)
        rw [Bool.and_true]
      · rw [splitCrLf_cons hcs] at hseam
        rw [List.cons_append, crlfEnds_cons, ih hseam, Bool.and_assoc]
        rintro ⟨h13, h10⟩
        obtain ⟨d, cs, rfl⟩ := List.exists_cons_of_ne_nil hcs
        cases h10
        exact hmatch cs h13 rfl

end Py
end KineticSdk
