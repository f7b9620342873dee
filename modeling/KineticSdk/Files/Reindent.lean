/-
  KineticSdk.Files.Reindent

  How `_reindent_fuzzy_replacement` (`files/tool.py`) nests the lines it moves.

  A line indented like the old line in its place gets the indentation matched
  there, any other one a multiple of the least matched indentation, one for
  every four spaces.  The text is compared with its result by the widths of the
  indentation of the lines that are not blank.
-/

import KineticSdk.Files.StrReplace

namespace KineticSdk
namespace Files

open Py

-- ============================================================================
-- Nesting
-- ============================================================================

/-- `bool(line.strip())`. -/
def notBlank (line : PyStr) : Bool := line.any fun c => !isSpace c

/-- The width of the indentation of a line, if it is not blank. -/
def width? (line : PyStr) : List Nat := if notBlank line then [(indent line).length] else []

/-- The widths of the indentation of the lines that are not blank. -/
def widths (text : PyStr) : List Nat := (splitlines text).flatMap width?

/-- Line by line, equal indentation stays equal, and deeper indentation deeper. -/
def KeepsNesting (new result : PyStr) : Prop :=
  (widths result).length = (widths new).length ∧
    ∀ a ∈ (widths new).zip (widths result), ∀ b ∈ (widths new).zip (widths result),
      (a.1 = b.1 → a.2 = b.2) ∧ (a.1 < b.1 → a.2 < b.2)

/-- A line of `new_str`, with the indentation of the line of `old_str` in its place and
    that of the matched line there. -/
structure PlacedLine where
  old : PyStr
  new : PyStr
  target : PyStr

/-- The lines of `new_str` that are not blank, in their places. -/
def placed (oldStr newStr matched : PyStr) : List PlacedLine :=
  (((splitlines oldStr).zip ((splitlines newStr).zip (splitlines matched))).map fun l =>
    ⟨indent l.1, l.2.1, indent l.2.2⟩).filter fun l => notBlank l.new

/-- The indentation the line has in `new_str`. -/
def PlacedLine.width (l : PlacedLine) : Nat := (indent l.new).length

/-- The line is indented like the old line in its place. -/
def PlacedLine.Own (l : PlacedLine) : Prop := indent l.new ≠ [] ∧ indent l.new = l.old

instance (l : PlacedLine) : Decidable l.Own := inferInstanceAs (Decidable (_ ∧ _))

/-- What stands for four spaces in the matched text: a tab, or its least indentation. -/
def depthUnit (matched : PyStr) : Nat :=
  let targets := (splitlines matched).map indent
  if targets.any (·.contains 9) then 1
  else (((targets.filter (· ≠ [])).map List.length).min?).getD 0

/-- The matched lines nest as the lines of `new_str` do that stand in their places, and the
    depth of the other lines fits in between them. -/
structure DepthsAgree (oldStr newStr matched : PyStr) : Prop where
  /-- what is not indented stays in front of what is -/
  front : ∀ a ∈ placed oldStr newStr matched, ∀ b ∈ placed oldStr newStr matched, a.width = 0 →
    b.width ≠ 0 → if b.Own then b.target ≠ [] else 4 ≤ b.width
  own : ∀ a ∈ placed oldStr newStr matched, ∀ b ∈ placed oldStr newStr matched, a.Own → b.Own →
    (a.width = b.width → a.target.length = b.target.length) ∧
      (a.width < b.width → a.target.length < b.target.length)
  /-- two of the other lines are told apart by their multiples of four spaces -/
  other : ∀ a ∈ placed oldStr newStr matched, ∀ b ∈ placed oldStr newStr matched, ¬ a.Own → ¬ b.Own →
    a.width ≠ 0 → a.width < b.width → a.width / 4 < b.width / 4
  mixed : ∀ a ∈ placed oldStr newStr matched, ∀ b ∈ placed oldStr newStr matched, a.Own → ¬ b.Own →
    b.width ≠ 0 →
    (a.width = b.width → a.target.length = depthUnit matched * (b.width / 4)) ∧
      (a.width < b.width → a.target.length < depthUnit matched * (b.width / 4)) ∧
      (b.width < a.width → depthUnit matched * (b.width / 4) < a.target.length)

-- ============================================================================
-- Widths
-- ============================================================================

theorem isSpace_of_isLineBreak {c : Nat} (h : isLineBreak c = true) : isSpace c = true := by
  simp only [isLineBreak, isSpace, inRanges, List.any_cons, List.any_nil, Bool.or_eq_true, Bool.and_eq_true,
    decide_eq_true_eq, Bool.or_false] at h ⊢
  omega

theorem isBlank_of_isLineBreak {c : Nat} (h : isLineBreak c = true) : isBlank c = false := by
  have hne : c ≠ 32 ∧ c ≠ 9 := by
    constructor <;> rintro rfl <;> exact absurd h (by decide)
  unfold isBlank
  rw [Bool.or_eq_false_iff, beq_eq_false_iff_ne, beq_eq_false_iff_ne]
  exact hne

theorem isSpace_of_isBlank {c : Nat} (h : isBlank c = true) : isSpace c = true := by
  unfold isBlank at h
  rw [Bool.or_eq_true, beq_iff_eq, beq_iff_eq] at h
  rcases h with rfl | rfl <;> rfl

theorem indent_append {c : Nat} (hc : isBlank c = false) (body rest : PyStr) :
    indent (body ++ c :: rest) = indent body := by
  unfold indent
  induction body with
  | nil => rw [List.nil_append, List.takeWhile_cons_of_neg (by rw [hc]; exact Bool.false_ne_true)]; rfl
  | cons d body ih => rw [List.cons_append, List.takeWhile_cons, List.takeWhile_cons, ih]

theorem notBlank_append_break {c : Nat} (hc : isLineBreak c = true) (body : PyStr) :
    notBlank (body ++ [c]) = notBlank body := by
  unfold notBlank
  rw [List.any_append, List.any_cons, isSpace_of_isLineBreak hc]
  exact Bool.or_false _

theorem width?_append_break {c : Nat} (hc : isLineBreak c = true) (body : PyStr) :
    width? (body ++ [c]) = width? body := by
  unfold width?
  rw [notBlank_append_break hc, indent_append (isBlank_of_isLineBreak hc)]

theorem width?_append_crlf (body : PyStr) : width? (body ++ [13, 10]) = width? body := by
  rw [List.append_cons, width?_append_break rfl, width?_append_break rfl]

theorem widths_noBreak {s : PyStr} (h : NoBreak s) : widths s = width? s := by
  by_cases hs : s = []
  · rw [hs]
    rfl
  · unfold widths
    rw [splitlines_of_noBreak h hs, List.flatMap_singleton]

/-- The widths behind an ended line; a `\r\n` that comes about is blank on its own. -/
theorem widths_break {body : PyStr} (hbody : NoBreak body) {c : Nat} (hc : isLineBreak c = true)
    (rest : PyStr) : widths (body ++ c :: rest) = width? body ++ widths rest := by
  unfold widths
  by_cases hseam : ∃ tail, c = 13 ∧ rest = 10 :: tail
  · obtain ⟨tail, rfl, rfl⟩ := hseam
    rw [splitlines_append_crlf hbody, List.flatMap_cons, width?_append_crlf]
    rfl
  · rw [splitlines_append_break hbody hc fun tail h13 h10 => hseam ⟨tail, h13, h10⟩, List.flatMap_cons,
      width?_append_break hc]

theorem widths_flatten {lines : List PyStr} (h : LineList lines) :
    widths lines.flatten = lines.flatMap width? := by
  induction h with
  | nil => rfl
  | last h =>
      rw [List.flatten_singleton, List.flatMap_singleton]
      exact widths_noBreak h
  | cons h hs ih =>
      obtain ⟨body, c, hbody, hc, rfl | rfl⟩ := h
      · rw [List.flatten_cons, List.append_assoc, List.singleton_append, widths_break hbody hc, ih,
          List.flatMap_cons, width?_append_break hc]
      · have hlf : ∀ rest, widths (10 :: rest) = widths rest := fun rest => widths_break noBreak_nil rfl rest
        rw [List.flatten_cons, List.append_assoc, List.cons_append, List.singleton_append,
          widths_break hbody rfl, hlf, ih, List.flatMap_cons, width?_append_crlf]

-- ============================================================================
-- Reindented lines
-- ============================================================================

theorem noBreak_of_isBlank {blanks : PyStr} (h : ∀ c ∈ blanks, isBlank c = true) : NoBreak blanks := by
  intro c hc
  cases hbreak : isLineBreak c with
  | false => rfl
  | true =>
      have hblank := h c hc
      rw [isBlank_of_isLineBreak hbreak] at hblank
      cases hblank

theorem reindented_ended {line line' : PyStr} (h : Ended line) (hr : Reindented line line') : Ended line' := by
  obtain ⟨body, c, hbody, hc, hline⟩ := h
  obtain ⟨blanks, hblanks, rfl⟩ := hr
  refine ⟨blanks ++ body.dropWhile isBlank, c,
    (noBreak_of_isBlank hblanks).append (hbody.dropWhile isBlank), hc, ?_⟩
  rcases hline with rfl | rfl
  · rw [dropWhile_append_of_neg body (isBlank_of_isLineBreak hc), List.append_assoc]
    exact .inl rfl
  · rw [dropWhile_append_of_neg body rfl]
    exact .inr (List.append_assoc ..).symm

theorem reindented_lines {lines lines' : List PyStr} (h : LineList lines)
    (hr : List.Forall₂ Reindented lines lines') : LineList lines' := by
  induction h generalizing lines' with
  | nil =>
      cases hr
      exact .nil
  | last h =>
      cases hr with
      | cons hline hnil =>
          cases hnil
          obtain ⟨blanks, hblanks, rfl⟩ := hline
          exact .last ((noBreak_of_isBlank hblanks).append (h.dropWhile isBlank))
  | cons h hs ih =>
      cases hr with
      | cons hline hlines => exact .cons (reindented_ended h hline) (ih hlines)

theorem indent_dropWhile (line : PyStr) : indent (line.dropWhile isBlank) = [] := by
  unfold indent
  induction line with
  | nil => rfl
  | cons c line ih =>
      cases hc : isBlank c with
      | true => rw [List.dropWhile_cons_of_pos hc, ih]
      | false =>
          have hneg : ¬ isBlank c = true := by rw [hc]; exact Bool.false_ne_true
          rw [List.dropWhile_cons_of_neg hneg, List.takeWhile_cons_of_neg hneg]

/-- A line with other blanks in front is as wide as these. -/
theorem width?_reindented {blanks : PyStr} (h : ∀ c ∈ blanks, isBlank c = true) (line : PyStr) :
    width? (blanks ++ line.dropWhile isBlank) = if notBlank line then [blanks.length] else [] := by
  have hnone : ∀ s : PyStr, (∀ c ∈ s, isBlank c = true) → notBlank s = false := by
    intro s hs
    unfold notBlank
    rw [List.any_eq_false]
    intro c hc
    rw [isSpace_of_isBlank (hs c hc)]
    exact Bool.false_ne_true
  have hblank : ∀ a b : PyStr, notBlank (a ++ b) = (notBlank a || notBlank b) := fun a b => List.any_append
  have hline : notBlank (blanks ++ line.dropWhile isBlank) = notBlank line := by
    have hsplit : indent line ++ line.dropWhile isBlank = line := List.takeWhile_append_dropWhile
    rw [← congrArg notBlank hsplit, hblank, hblank, hnone blanks h, hnone _ isBlank_of_mem_indent]
  have hindent : indent (blanks ++ line.dropWhile isBlank) = blanks := by
    have hrest := indent_dropWhile line
    unfold indent at hrest ⊢
    rw [List.takeWhile_append_of_pos h, hrest, List.append_nil]
  unfold width?
  rw [hline, hindent]

-- ============================================================================
-- The width of a line that was moved
-- ============================================================================

/-- The width the line has in the result. -/
def PlacedLine.moved (matched : PyStr) (l : PlacedLine) : Nat :=
  if indent l.new = [] then 0
  else if l.Own then l.target.length
  else depthUnit matched * (l.width / 4)

theorem expandtabsFrom_spaces {size col : Nat} {s : PyStr} (h : ∀ c ∈ s, c = 32) : expandtabsFrom size col s = s := by
  induction s generalizing col with
  | nil => rfl
  | cons c s ih =>
      rw [expandtabsFrom, h c (List.mem_cons_self ..), if_neg (by decide), if_neg (by decide),
        ih fun d hd => h d (List.mem_cons_of_mem _ hd)]

theorem reindentLine_width {old new target line matched : PyStr} (hspaces : ∀ c ∈ indent new, c = 32)
    (h : reindentLine (((splitlines matched).map indent).any (·.contains 9)) ((splitlines matched).map indent)
      old new (indent target) = some line) :
    width? line = if notBlank new then [PlacedLine.moved matched ⟨indent old, new, indent target⟩] else [] := by
  have hwidth : ∀ (n c : Nat), isBlank c = true →
      width? (List.replicate n c ++ new.dropWhile isBlank) = if notBlank new then [n] else [] := by
    intro n c hc
    rw [width?_reindented fun d hd => by rw [List.eq_of_mem_replicate hd]; exact hc, List.length_replicate]
  unfold reindentLine at h
  dsimp only at h
  rw [drop_indent] at h
  unfold PlacedLine.moved
  dsimp only
  by_cases hnone : indent new = []
  · rw [if_pos hnone] at h ⊢
    cases h
    unfold width?
    rw [hnone]
    rfl
  · rw [if_neg hnone] at h ⊢
    by_cases hown : indent new = indent old
    · have hOwn : PlacedLine.Own ⟨indent old, new, indent target⟩ := ⟨hnone, hown⟩
      rw [if_pos hown] at h
      rw [if_pos hOwn]
      cases h
      exact width?_reindented isBlank_of_mem_indent new
    · have hOwn : ¬ PlacedLine.Own ⟨indent old, new, indent target⟩ := fun h => hown h.2
      rw [if_neg hown] at h
      rw [if_neg hOwn]
      unfold PlacedLine.width depthUnit
      dsimp only
      by_cases htabs : ((splitlines matched).map indent).any (·.contains 9) = true
      · rw [if_pos htabs] at h ⊢
        cases h
        unfold expandtabs
        rw [expandtabsFrom_spaces hspaces, Nat.one_mul]
        exact hwidth _ _ rfl
      · rw [if_neg htabs] at h ⊢
        split at h
        · rename_i width hmin
          split_ifs at h with hzero
          cases h
          rw [hmin, Option.getD_some]
          exact hwidth _ _ rfl
        · cases h

theorem flatMap_ite {α β : Type} (p : α → Bool) (f : α → β) (l : List α) :
    l.flatMap (fun a => if p a then [f a] else []) = (l.filter p).map f := by
  induction l with
  | nil => rfl
  | cons a l ih =>
      rw [List.flatMap_cons, ih]
      cases hp : p a with
      | true => rw [List.filter_cons_of_pos hp]; rfl
      | false => rw [List.filter_cons_of_neg (by rw [hp]; exact Bool.false_ne_true)]; rfl

theorem flatMap_of_forall₂ {α β γ : Type} {R : α → β → Prop} {f : α → List γ} {g : β → List γ} {l : List α}
    {l' : List β} (h : List.Forall₂ R l l') (hfg : ∀ a ∈ l, ∀ b, R a b → g b = f a) :
    l'.flatMap g = l.flatMap f := by
  induction h with
  | nil => rfl
  | cons hab _ ih =>
      rw [List.flatMap_cons, List.flatMap_cons, hfg _ (List.mem_cons_self ..) _ hab,
        ih fun a ha => hfg a (List.mem_cons_of_mem _ ha)]

/-- The two lists of widths, line by line. -/
theorem widths_eq {oldStr newStr matched text : PyStr}
    (hspaces : ∀ line ∈ splitlines newStr, ∀ c ∈ indent line, c = 32)
    (hnew : (splitlines newStr).length = (splitlines oldStr).length)
    (hmatched : (splitlines matched).length = (splitlines oldStr).length)
    (h : reindentLines (((splitlines matched).map indent).any (·.contains 9)) ((splitlines matched).map indent)
      (splitlines oldStr) (splitlines newStr) ((splitlines matched).map indent) = some text) :
    widths newStr = (placed oldStr newStr matched).map PlacedLine.width ∧
      widths text = (placed oldStr newStr matched).map (PlacedLine.moved matched) := by
  obtain ⟨lines, rfl, hlines⟩ := reindentLines_some h
  have hzip := zip_new hnew hmatched
  have hreindented : List.Forall₂ Reindented (splitlines newStr) lines := by
    rw [← hzip, List.forall₂_map_left_iff]
    exact hlines.imp fun _ _ hline => reindentLine_some hline
  have hplaced : ∀ f : PlacedLine → Nat, (placed oldStr newStr matched).map f
      = ((splitlines oldStr).zip ((splitlines newStr).zip (splitlines matched))).flatMap fun l =>
          if notBlank l.2.1 then [f ⟨indent l.1, l.2.1, indent l.2.2⟩] else [] := by
    intro f
    unfold placed
    rw [flatMap_ite, List.filter_map, List.map_map]
    rfl
  rw [hplaced, hplaced]
  constructor
  · unfold widths
    conv_lhs => rw [← hzip]
    rw [List.flatMap_map]
    rfl
  · rw [widths_flatten (reindented_lines (lineList_splitlines newStr) hreindented)]
    refine flatMap_of_forall₂ hlines fun l hl line hline => ?_
    have hmem : l.2.1 ∈ splitlines newStr := by
      rw [← hzip]
      exact List.mem_map_of_mem hl
    exact reindentLine_width (hspaces _ hmem) hline

-- ============================================================================
-- Agreement
-- ============================================================================

/-- A pair of widths before and after, kept in order. -/
theorem keepsNesting_iff {new result : PyStr} {ls : List PlacedLine} {f g : PlacedLine → Nat}
    (hnew : widths new = ls.map f) (hresult : widths result = ls.map g) :
    KeepsNesting new result ↔ ∀ a ∈ ls, ∀ b ∈ ls, (f a = f b → g a = g b) ∧ (f a < f b → g a < g b) := by
  unfold KeepsNesting
  rw [hnew, hresult, List.length_map, List.length_map, and_iff_right rfl, List.zip_map', List.forall_mem_map]
  exact forall₂_congr fun a _ => List.forall_mem_map

theorem depthUnit_pos {matched : PyStr} (h : ¬ ((splitlines matched).map indent).all (· = []) = true) :
    0 < depthUnit matched := by
  unfold depthUnit
  dsimp only
  split_ifs with htabs
  · exact Nat.one_pos
  · obtain ⟨target, hmem, hne⟩ : ∃ t ∈ (splitlines matched).map indent, t ≠ [] := by
      simpa [List.all_eq_true] using h
    have hfilter : target.length ∈ (((splitlines matched).map indent).filter (· ≠ [])).map List.length :=
      List.mem_map_of_mem (List.mem_filter.mpr ⟨hmem, by simpa using hne⟩)
    cases hmin : ((((splitlines matched).map indent).filter (· ≠ [])).map List.length).min? with
    | none =>
        rw [List.min?_eq_none_iff.mp hmin] at hfilter
        cases hfilter
    | some width =>
        obtain ⟨t, ht, rfl⟩ := List.mem_map.mp (List.min?_mem hmin)
        have hne : t ≠ [] := by simpa using (List.mem_filter.mp ht).2
        exact List.length_pos_of_ne_nil hne

theorem PlacedLine.width_eq_zero {l : PlacedLine} : l.width = 0 ↔ indent l.new = [] := List.length_eq_zero_iff

theorem PlacedLine.Own.width_ne_zero {l : PlacedLine} (h : l.Own) : l.width ≠ 0 :=
  fun hzero => h.1 (PlacedLine.width_eq_zero.mp hzero)

theorem PlacedLine.moved_flat {matched : PyStr} {l : PlacedLine} (h : l.width = 0) : l.moved matched = 0 :=
  if_pos (PlacedLine.width_eq_zero.mp h)

theorem PlacedLine.moved_own {matched : PyStr} {l : PlacedLine} (h : l.Own) : l.moved matched = l.target.length := by
  unfold PlacedLine.moved
  rw [if_neg h.1, if_pos h]

theorem PlacedLine.moved_other {matched : PyStr} {l : PlacedLine} (hwidth : l.width ≠ 0) (h : ¬ l.Own) :
    l.moved matched = depthUnit matched * (l.width / 4) := by
  unfold PlacedLine.moved
  rw [if_neg fun hnil => hwidth (PlacedLine.width_eq_zero.mpr hnil), if_neg h]

/-- Widths are kept in order exactly if the depths agree, rule by rule. -/
theorem depthsAgree_iff {oldStr newStr matched : PyStr} (hunit : 0 < depthUnit matched) :
    (∀ a ∈ placed oldStr newStr matched, ∀ b ∈ placed oldStr newStr matched,
        (a.width = b.width → a.moved matched = b.moved matched) ∧
          (a.width < b.width → a.moved matched < b.moved matched)) ↔
      DepthsAgree oldStr newStr matched := by
  constructor
  · intro h
    constructor
    · intro a ha b hb hzero hwidth
      have hlt := (h a ha b hb).2 (by omega)
      rw [PlacedLine.moved_flat hzero] at hlt
      by_cases hown : b.Own
      · rw [if_pos hown]
        rw [PlacedLine.moved_own hown] at hlt
        exact List.ne_nil_of_length_pos hlt
      · rw [if_neg hown]
        rw [PlacedLine.moved_other hwidth hown] at hlt
        have hdiv : 0 < b.width / 4 := Nat.pos_of_mul_pos_left hlt
        omega
    · intro a ha b hb hown hown'
      have hpair := h a ha b hb
      rwa [PlacedLine.moved_own hown, PlacedLine.moved_own hown'] at hpair
    · intro a ha b hb hown hown' hwidth hlt
      have hpair := (h a ha b hb).2 hlt
      rw [PlacedLine.moved_other hwidth hown, PlacedLine.moved_other (by omega) hown'] at hpair
      exact Nat.lt_of_mul_lt_mul_left hpair
    · intro a ha b hb hown hown' hwidth
      have hpair := h a ha b hb
      have hback := h b hb a ha
      rw [PlacedLine.moved_own hown, PlacedLine.moved_other hwidth hown'] at hpair hback
      exact ⟨hpair.1, hpair.2, hback.2⟩
  · intro h a ha b hb
    by_cases hza : a.width = 0
    · rw [PlacedLine.moved_flat hza]
      refine ⟨fun heq => (PlacedLine.moved_flat (heq.symm.trans hza)).symm, fun hlt => ?_⟩
      have hwidth : b.width ≠ 0 := by omega
      have hfront := h.front a ha b hb hza hwidth
      by_cases hown : b.Own
      · rw [if_pos hown] at hfront
        rw [PlacedLine.moved_own hown]
        exact List.length_pos_of_ne_nil hfront
      · rw [if_neg hown] at hfront
        rw [PlacedLine.moved_other hwidth hown]
        exact Nat.mul_pos hunit (by omega)
    · by_cases hzb : b.width = 0
      · exact ⟨fun heq => absurd (heq.trans hzb) hza, fun hlt => by omega⟩
      · by_cases hown : a.Own <;> by_cases hown' : b.Own
        · rw [PlacedLine.moved_own hown, PlacedLine.moved_own hown']
          exact h.own a ha b hb hown hown'
        · rw [PlacedLine.moved_own hown, PlacedLine.moved_other hzb hown']
          have hmixed := h.mixed a ha b hb hown hown' hzb
          exact ⟨hmixed.1, hmixed.2.1⟩
        · rw [PlacedLine.moved_other hza hown, PlacedLine.moved_own hown']
          have hmixed := h.mixed b hb a ha hown' hown hza
          exact ⟨fun heq => (hmixed.1 heq.symm).symm, hmixed.2.2⟩
        · rw [PlacedLine.moved_other hza hown, PlacedLine.moved_other hzb hown']
          refine ⟨fun heq => by rw [heq], fun hlt => ?_⟩
          exact Nat.mul_lt_mul_of_pos_left (h.other a ha b hb hown hown' hza hlt) hunit

theorem keepsNesting_self (text : PyStr) : KeepsNesting text text := by
  refine ⟨rfl, fun a ha b hb => ?_⟩
  have hsame : ∀ (l : List Nat), ∀ p ∈ l.zip l, p.1 = p.2 := by
    intro l p hp
    have hzip : (l.map id).zip (l.map id) = l.map fun n => (n, n) := List.zip_map'
    rw [List.map_id] at hzip
    rw [hzip] at hp
    obtain ⟨n, _, rfl⟩ := List.mem_map.mp hp
    rfl
  rw [hsame _ a ha, hsame _ b hb]
  exact ⟨id, id⟩

/-- Where nothing is indented there is nothing to agree on. -/
theorem depthsAgree_of_flat {oldStr newStr matched : PyStr}
    (h : ∀ line ∈ splitlines newStr, indent line = []) : DepthsAgree oldStr newStr matched := by
  have hflat : ∀ l ∈ placed oldStr newStr matched, l.width = 0 := by
    intro l hl
    obtain ⟨x, hx, rfl⟩ := List.mem_map.mp (List.mem_filter.mp hl).1
    exact PlacedLine.width_eq_zero.mpr (h _ (List.of_mem_zip (List.of_mem_zip hx).2).1)
  constructor
  · exact fun a _ b hb _ hwidth => absurd (hflat b hb) hwidth
  · exact fun a ha b _ hown _ => absurd (hflat a ha) hown.width_ne_zero
  · exact fun a ha b _ _ _ hwidth => absurd (hflat a ha) hwidth
  · exact fun a _ b hb _ _ hwidth => absurd (hflat b hb) hwidth

/-- Reindenting keeps the nesting of the text exactly if the depths of its lines agree. -/
theorem reindent_keepsNesting_iff {oldStr newStr matched text : PyStr}
    (hspaces : ∀ line ∈ splitlines newStr, ∀ c ∈ indent line, c = 32)
    (h : reindentFuzzyReplacement oldStr newStr matched = some text) :
    KeepsNesting newStr text ↔ DepthsAgree oldStr newStr matched := by
  unfold reindentFuzzyReplacement at h
  dsimp only at h
  split_ifs at h with hempty hflat hnone hmixed hlength
  · cases h
    refine iff_of_true (keepsNesting_self newStr) (depthsAgree_of_flat fun line hline => ?_)
    rw [hempty] at hline
    cases hline
  · cases h
    refine iff_of_true (keepsNesting_self newStr) (depthsAgree_of_flat fun line hline => ?_)
    simpa using List.all_eq_true.mp hnone line hline
  · rw [not_or, not_not, not_not] at hlength
    obtain ⟨hnew, hresult⟩ := widths_eq hspaces hlength.1 hlength.2 h
    rw [keepsNesting_iff hnew hresult]
    exact depthsAgree_iff (depthUnit_pos hflat)

theorem reindent_keepsNesting_block :
    KeepsNesting (py "    a\n        b\n") (py "\ta\n\t\tb\n") ↔
      DepthsAgree (py "    a\n    b\n") (py "    a\n        b\n") (py "\ta\n\tb\n") :=
  reindent_keepsNesting_iff (by decide) (by decide)

/-- Under indentation by four spaces throughout, a line moved out by one level stands
    where the line in front of it does. -/
theorem reindent_flattens :
    reindentFuzzyReplacement (py "        a\n        b\n") (py "        a\n    b\n") (py "    a\n    b\n")
        = some (py "    a\n    b\n") ∧
      ¬ KeepsNesting (py "        a\n    b\n") (py "    a\n    b\n") := by
  refine ⟨by decide, fun h => ?_⟩
  have hdeeper := (h.2 (4, 4) (by decide) (8, 4) (by decide)).2 (by decide)
  exact absurd hdeeper (by decide)

end Files
end KineticSdk
