/-
  KineticSdk.Files.StrReplace

  The places `_str_replace` (`files/tool.py`) matches, against the one it edits.

  A place is a pair of offsets for an exact match, and of line numbers for a
  fuzzy one.  A fuzzy strategy wins with exactly one place; an exact match is
  taken for unique when `str.count` is 1, which overlapping places escape.
-/

import KineticSdk.Files.Insert
import KineticSdk.Py.Occurs

namespace KineticSdk
namespace Files

open Py

-- ============================================================================
-- Rules and places
-- ============================================================================

/-- The rules of `_str_replace`. -/
inductive Rule where
  | exact
  | fuzzy (strategy : Strategy)
deriving DecidableEq

/-- The lines of a text as the fuzzy strategies compare them. -/
def bodies (text : PyStr) : List PyStr := (splitlines text).map rstripNewline

/-- From line `p.1` to line `p.2` stand the lines of `old_str`, after a transformation. -/
def BlockAt (transform : PyStr → PyStr) (content oldStr : PyStr) (p : Nat × Nat) : Prop :=
  p.2 + 1 = p.1 + (bodies oldStr).length ∧ p.2 < (bodies content).length ∧
    (slice (bodies content) p.1 (bodies oldStr).length).map transform = (bodies oldStr).map transform

/-- Lines `p.1` and `p.2` are the ends of `old_str`, and the block between them is close to it
    in length and in content. -/
def AnchorsAt (similar : PyStr → PyStr → Bool) (content oldStr : PyStr) (p : Nat × Nat) : Prop :=
  3 ≤ (bodies oldStr).length ∧ p.1 < p.2 ∧ p.2 < (bodies content).length ∧
    (bodies content)[p.1]? = (bodies oldStr).head? ∧ (bodies content)[p.2]? = (bodies oldStr).getLast? ∧
    (((p.2 + 1 - p.1 : Nat) : Int) - (bodies oldStr).length).natAbs ≤ max 2 ((bodies oldStr).length / 5) ∧
    similar (join (py "\n") (bodies oldStr))
      (join (py "\n") (slice (bodies content) p.1 (p.2 + 1 - p.1))) = true

section

variable (similar : PyStr → PyStr → Bool) (content oldStr : PyStr)

/-- The rule matches `old_str` at this place. -/
def Rule.MatchesAt : Rule → Nat × Nat → Prop
  | .exact, p => OccursAt oldStr content p.1 ∧ p.2 = p.1 + oldStr.length
  | .fuzzy .lineWhitespaceTrimmed, p => BlockAt stripSpaces content oldStr p
  | .fuzzy .indentationNormalized, p => BlockAt normaliseIndentation content oldStr p
  | .fuzzy .anchoredBlock, p => AnchorsAt similar content oldStr p
  | .fuzzy .anchoredBlockRejected, _ => False

/-- The rule that decides: an exact match goes before the strategies. -/
def Rule.Wins : Rule → Prop
  | .exact => ∃ i, OccursAt oldStr content i
  | .fuzzy strategy =>
      (∀ i, ¬ OccursAt oldStr content i) ∧ (fuzzyFindDetails similar content oldStr).1 = some strategy

/-- The text from line `p.1` to line `p.2`, with the end of the last line if `old_str` has one. -/
def linesSpan (p : Nat × Nat) : Span :=
  let last := (splitlines content).getD p.2 []
  (((splitlines content).take p.1).flatten.length,
    ((splitlines content).take p.2).flatten.length
      + (if endsWithNewline oldStr then last else rstripNewline last).length)

/-- The span of a place. -/
def Rule.span : Rule → Nat × Nat → Span
  | .exact, p => p
  | .fuzzy _, p => linesSpan content oldStr p

end

/-- A line with other blanks in front. -/
def Reindented (line line' : PyStr) : Prop :=
  ∃ blanks, (∀ c ∈ blanks, isBlank c = true) ∧ line' = blanks ++ line.dropWhile isBlank

/-- A text whose lines have other blanks in front. -/
def SameButBlanks (text text' : PyStr) : Prop :=
  ∃ lines, List.Forall₂ Reindented (splitlines text) lines ∧ text' = lines.flatten

/-- What a rule puts in: `new_str` up to its newlines, and under the indentation strategy
    up to the blanks its lines begin with. -/
def Rule.Writes (rule : Rule) (newStr text : PyStr) : Prop :=
  ∃ new, universalNewlines new = universalNewlines newStr ∧
    if rule = .fuzzy .indentationNormalized then SameButBlanks new text else text = new

/-- The winning rule matches at one place only, and that place is edited. -/
def EditsOnePlace (similar : PyStr → PyStr → Bool) (content oldStr newStr result : PyStr) : Prop :=
  ∃ (rule : Rule) (p : Nat × Nat) (text : PyStr), rule.Wins similar content oldStr ∧
    rule.MatchesAt similar content oldStr p ∧
    (∀ q, rule.MatchesAt similar content oldStr q → q = p) ∧
    rule.Writes newStr text ∧
    result = content.take (rule.span content oldStr p).1 ++ text ++ content.drop (rule.span content oldStr p).2

-- ============================================================================
-- Lines and spans
-- ============================================================================

variable {similar : PyStr → PyStr → Bool} {content oldStr newStr : PyStr}

theorem spansFrom_bodies (offset : Nat) (lines : List PyStr) :
    (spansFrom offset lines).map LineSpan.body = lines.map rstripNewline := by
  induction lines generalizing offset with
  | nil => rfl
  | cons line lines ih => rw [spansFrom, List.map_cons, List.map_cons, ih]

theorem getElem?_spansFrom (offset : Nat) (lines : List PyStr) (i : Nat) :
    (spansFrom offset lines)[i]? = lines[i]?.map fun line =>
      ⟨rstripNewline line, offset + (lines.take i).flatten.length,
        offset + (lines.take i).flatten.length + (rstripNewline line).length,
        offset + (lines.take i).flatten.length + line.length⟩ := by
  induction lines generalizing offset i with
  | nil => rfl
  | cons line lines ih =>
      cases i with
      | zero => rfl
      | succ i =>
        rw [spansFrom, List.getElem?_cons_succ, List.getElem?_cons_succ, ih, List.take_succ_cons,
          List.flatten_cons, List.length_append, Nat.add_assoc]

theorem lineContents_bodies (text : PyStr) : (lineContentsAndSpans text).map LineSpan.body = bodies text :=
  spansFrom_bodies 0 _

theorem length_lineContents (text : PyStr) : (lineContentsAndSpans text).length = (bodies text).length := by
  rw [← lineContents_bodies, List.length_map]

theorem getElem?_lineContents (text : PyStr) (i : Nat) :
    (lineContentsAndSpans text)[i]? = (splitlines text)[i]?.map fun line =>
      ⟨rstripNewline line, ((splitlines text).take i).flatten.length,
        ((splitlines text).take i).flatten.length + (rstripNewline line).length,
        ((splitlines text).take i).flatten.length + line.length⟩ := by
  have h := getElem?_spansFrom 0 (splitlines text) i
  simp only [Nat.zero_add] at h
  exact h

/-- The ends of a block of lines, and their span. -/
theorem block_ends (content oldStr : PyStr) {first last : Nat} (hle : first ≤ last)
    (hlast : last < (bodies content).length) :
    ∃ f l, (((lineContentsAndSpans content).drop first).take (last + 1 - first)).head? = some f ∧
      (((lineContentsAndSpans content).drop first).take (last + 1 - first)).getLast? = some l ∧
      blockSpan (endsWithNewline oldStr) f l = linesSpan content oldStr (first, last) := by
  have hlength : (bodies content).length = (splitlines content).length := List.length_map _
  have hline : ∀ i ≤ last, ∃ line, (splitlines content)[i]? = some line := fun i hi =>
    ⟨_, List.getElem?_eq_getElem (by omega)⟩
  obtain ⟨firstLine, hfirst⟩ := hline first hle
  obtain ⟨lastLine, hlastLine⟩ := hline last (Nat.le_refl _)
  have hf := getElem?_lineContents content first
  have hl := getElem?_lineContents content last
  rw [hfirst, Option.map_some] at hf
  rw [hlastLine, Option.map_some] at hl
  have hhead : (((lineContentsAndSpans content).drop first).take (last + 1 - first)).head?
      = (lineContentsAndSpans content)[first]? := by
    rw [List.head?_take, if_neg (by omega), List.head?_drop]
  have hlast : (((lineContentsAndSpans content).drop first).take (last + 1 - first)).getLast?
      = (lineContentsAndSpans content)[last]? := by
    rw [List.getLast?_take, if_neg (by omega), List.getElem?_drop,
      show first + (last + 1 - first - 1) = last by omega, hl, Option.some_or]
  refine ⟨_, _, hhead.trans hf, hlast.trans hl, ?_⟩
  unfold blockSpan linesSpan
  rw [List.getD_eq_getElem?_getD, hlastLine]
  dsimp only [Option.getD_some]
  split_ifs <;> rfl

-- ============================================================================
-- One place
-- ============================================================================

/-- A search with one answer has it from one candidate. -/
theorem filterMap_eq_singleton {α β : Type} {f : α → Option β} {l : List α} {b : β}
    (h : l.filterMap f = [b]) : ∃ a ∈ l, f a = some b ∧ ∀ a' ∈ l, f a' ≠ none → a' = a := by
  induction l with
  | nil => cases h
  | cons x l ih =>
      cases hx : f x with
      | none =>
          rw [List.filterMap_cons_none hx] at h
          obtain ⟨a, ha, hfa, hunique⟩ := ih h
          refine ⟨a, List.mem_cons_of_mem _ ha, hfa, fun a' ha' hne => ?_⟩
          rcases List.mem_cons.mp ha' with rfl | ha'
          · exact absurd hx hne
          · exact hunique a' ha' hne
      | some y =>
          rw [List.filterMap_cons_some hx] at h
          obtain ⟨rfl, hnone⟩ := List.cons.inj h
          refine ⟨x, List.mem_cons_self .., hx, fun a' ha' hne => ?_⟩
          rcases List.mem_cons.mp ha' with rfl | ha'
          · rfl
          · exact absurd (List.filterMap_eq_nil_iff.mp hnone a' ha') hne

/-- The one answer of `contiguous_matches` is the span of the one place its block stands at. -/
theorem contiguousMatches_one {transform : PyStr → PyStr} (hold : bodies oldStr ≠ []) {span : Span}
    (h : contiguousMatches (lineContentsAndSpans content) (bodies oldStr) (endsWithNewline oldStr)
      transform = [span]) :
    ∃ p, BlockAt transform content oldStr p ∧
      (∀ q, BlockAt transform content oldStr q → q = p) ∧ span = linesSpan content oldStr p := by
  have hpos := List.length_pos_of_ne_nil hold
  unfold contiguousMatches at h
  dsimp only at h
  rw [List.length_map, length_lineContents] at h
  have hblock : ∀ start, (((lineContentsAndSpans content).drop start).take (bodies oldStr).length).map
      (fun line => transform line.body) = (slice (bodies content) start (bodies oldStr).length).map transform := by
    intro start
    unfold slice
    rw [← lineContents_bodies content, ← List.map_drop, ← List.map_take, List.map_map]
    rfl
  obtain ⟨start, hmem, hstart, hunique⟩ := filterMap_eq_singleton h
  have hlt := List.mem_range.mp hmem
  rw [hblock] at hstart
  split_ifs at hstart with heq
  obtain ⟨f, l, hf, hl, hspan⟩ := block_ends content oldStr
    (show start ≤ start + (bodies oldStr).length - 1 by omega)
    (show start + (bodies oldStr).length - 1 < (bodies content).length by omega)
  rw [show start + (bodies oldStr).length - 1 + 1 - start = (bodies oldStr).length by omega] at hf hl
  rw [hf, hl] at hstart
  refine ⟨(start, start + (bodies oldStr).length - 1), ⟨?_, ?_, heq⟩, ?_, ?_⟩
  · show start + (bodies oldStr).length - 1 + 1 = start + (bodies oldStr).length
    omega
  · show start + (bodies oldStr).length - 1 < (bodies content).length
    omega
  · rintro ⟨first, last⟩ ⟨hlen, hlast, heq'⟩
    dsimp only at hlen hlast heq'
    have hfirst : first = start := by
      refine hunique first (List.mem_range.mpr (by omega)) ?_
      rw [hblock, if_pos heq']
      obtain ⟨f, l, hf, hl, _⟩ := block_ends content oldStr
        (show first ≤ last by omega) hlast
      rw [show last + 1 - first = (bodies oldStr).length by omega] at hf hl
      rw [hf, hl]
      exact Option.some_ne_none _
    rw [hfirst, Prod.mk.injEq]
    omega
  · exact (Option.some.inj hstart).symm.trans hspan

theorem mem_anchors_iff {p : Nat × Nat} :
    p ∈ anchors (lineContentsAndSpans content) (bodies oldStr) ↔
      p.1 < p.2 ∧ p.2 < (bodies content).length ∧ (bodies content)[p.1]? = (bodies oldStr).head? ∧
        (bodies content)[p.2]? = (bodies oldStr).getLast? := by
  have hbody : ∀ i : Nat, (lineContentsAndSpans content)[i]?.map LineSpan.body = (bodies content)[i]? := by
    intro i
    rw [← lineContents_bodies, List.getElem?_map]
  obtain ⟨first, last⟩ := p
  unfold anchors
  rw [List.mem_flatMap, length_lineContents]
  constructor
  · rintro ⟨i, _, hmem⟩
    split_ifs at hmem with hfirst
    · obtain ⟨j, hj, heq⟩ := List.mem_map.mp hmem
      cases heq
      obtain ⟨hrange, hends⟩ := List.mem_filter.mp hj
      rw [Bool.and_eq_true, decide_eq_true_eq, decide_eq_true_eq, hbody] at hends
      exact ⟨hends.1, List.mem_range.mp hrange, hbody _ ▸ hfirst, hends.2⟩
    · cases hmem
  · rintro ⟨hlt, hlen, hfirst, hlast⟩
    dsimp only at hlt hlen hfirst hlast
    refine ⟨first, List.mem_range.mpr (by omega), ?_⟩
    rw [if_pos ((hbody first).trans hfirst)]
    refine List.mem_map.mpr ⟨last, List.mem_filter.mpr ⟨List.mem_range.mpr hlen, ?_⟩, rfl⟩
    rw [Bool.and_eq_true, decide_eq_true_eq, decide_eq_true_eq, hbody]
    exact ⟨hlt, hlast⟩

/-- What becomes of a pair of anchors: the span of its lines if they are close to the wanted ones. -/
theorem anchoredBlock_eq {p : Nat × Nat} (hlt : p.1 < p.2) (hlen : p.2 < (bodies content).length) :
    anchoredBlock similar (lineContentsAndSpans content) (bodies oldStr) (endsWithNewline oldStr) p
      = if (((p.2 + 1 - p.1 : Nat) : Int) - (bodies oldStr).length).natAbs ≤ max 2 ((bodies oldStr).length / 5) ∧
          similar (join (py "\n") (bodies oldStr))
            (join (py "\n") (slice (bodies content) p.1 (p.2 + 1 - p.1))) = true
        then some (linesSpan content oldStr p) else none := by
  obtain ⟨first, last⟩ := p
  dsimp only at hlt hlen
  obtain ⟨f, l, hf, hl, hspan⟩ := block_ends content oldStr (Nat.le_of_lt hlt) hlen
  have hlength : (((lineContentsAndSpans content).drop first).take (last + 1 - first)).length
      = last + 1 - first := by
    rw [List.length_take, List.length_drop, length_lineContents]
    omega
  have hblock : (((lineContentsAndSpans content).drop first).take (last + 1 - first)).map LineSpan.body
      = slice (bodies content) first (last + 1 - first) := by
    unfold slice
    rw [← lineContents_bodies content, ← List.map_drop, ← List.map_take]
  unfold anchoredBlock
  dsimp only
  rw [hlength, hblock, hf, hl]
  dsimp only
  rw [hspan]
  by_cases hclose : (((last + 1 - first : Nat) : Int) - (bodies oldStr).length).natAbs
      ≤ max 2 ((bodies oldStr).length / 5)
  · rw [if_neg (by omega)]
    cases hsim : similar (join (py "\n") (bodies oldStr))
        (join (py "\n") (slice (bodies content) first (last + 1 - first))) with
    | true => rw [if_neg (by decide), if_pos ⟨hclose, rfl⟩]
    | false => rw [if_pos (by decide), if_neg (fun h => Bool.false_ne_true h.2)]
  · rw [if_pos (by omega), if_neg (fun h => hclose h.1)]

/-- The third strategy wins with the span of the one place its anchors are close at. -/
theorem anchoredMatches_one {strategy : Option Strategy} {span : Span}
    (h : anchoredMatches similar (lineContentsAndSpans content) (bodies oldStr) (endsWithNewline oldStr)
      = (strategy, [span])) :
    strategy = some .anchoredBlock ∧
      ∃ p, AnchorsAt similar content oldStr p ∧
        (∀ q, AnchorsAt similar content oldStr q → q = p) ∧ span = linesSpan content oldStr p := by
  unfold anchoredMatches at h
  dsimp only at h
  split_ifs at h with hshort hone hnone
  · cases (Prod.mk.inj h).2
  · obtain ⟨hstrategy, hfound⟩ := Prod.mk.inj h
    rw [List.filterMap_map] at hfound
    obtain ⟨p, hmem, hp, hunique⟩ := filterMap_eq_singleton hfound
    obtain ⟨hlt, hlen, hfirst, hlast⟩ := mem_anchors_iff.mp hmem
    dsimp only [Function.comp_apply, id] at hp hunique
    rw [anchoredBlock_eq hlt hlen] at hp
    split_ifs at hp with hclose
    refine ⟨hstrategy.symm, p, ⟨by omega, hlt, hlen, hfirst, hlast, hclose.1, hclose.2⟩, ?_, (Option.some.inj hp).symm⟩
    rintro q ⟨_, hltq, hlenq, hfirstq, hlastq, hcloseq, hsimq⟩
    refine hunique q (mem_anchors_iff.mpr ⟨hltq, hlenq, hfirstq, hlastq⟩) ?_
    rw [anchoredBlock_eq hltq hlenq, if_pos ⟨hcloseq, hsimq⟩]
    exact Option.some_ne_none _
  · cases (Prod.mk.inj h).2
  · refine absurd ?_ hone
    rw [(Prod.mk.inj h).2]
    rfl

/-- A fuzzy strategy wins with the span of the one place it matches. -/
theorem fuzzyFindDetails_one {strategy : Option Strategy} {span : Span}
    (h : fuzzyFindDetails similar content oldStr = (strategy, [span])) :
    ∃ s p, strategy = some s ∧ (Rule.fuzzy s).MatchesAt similar content oldStr p ∧
      (∀ q, (Rule.fuzzy s).MatchesAt similar content oldStr q → q = p) ∧
      span = linesSpan content oldStr p := by
  unfold fuzzyFindDetails at h
  dsimp only at h
  rw [lineContents_bodies] at h
  split_ifs at h with hempty htrimmed hnormalized
  · cases (Prod.mk.inj h).2
  · rw [Bool.or_eq_true, decide_eq_true_eq, decide_eq_true_eq, not_or] at hempty
    obtain ⟨hstrategy, hfound⟩ := Prod.mk.inj h
    obtain ⟨p, hp, hunique, hspan⟩ := contiguousMatches_one hempty.2 hfound
    exact ⟨_, p, hstrategy.symm, hp, hunique, hspan⟩
  · rw [Bool.or_eq_true, decide_eq_true_eq, decide_eq_true_eq, not_or] at hempty
    obtain ⟨hstrategy, hfound⟩ := Prod.mk.inj h
    obtain ⟨p, hp, hunique, hspan⟩ := contiguousMatches_one hempty.2 hfound
    exact ⟨_, p, hstrategy.symm, hp, hunique, hspan⟩
  · obtain ⟨hstrategy, p, hp, hunique, hspan⟩ := anchoredMatches_one h
    exact ⟨_, p, hstrategy, hp, hunique, hspan⟩

-- ============================================================================
-- What is put in
-- ============================================================================

theorem universalNewlines_toCrLf (s : PyStr) : universalNewlines (toCrLf s) = universalNewlines s := by
  fun_induction toCrLf s with
  | case1 => rfl
  | case2 s ih => rw [universalNewlines, universalNewlines, ih]
  | case3 c s hmatch hc ih =>
      rw [universalNewlines, ih, universalNewlines.eq_3 _ _ hmatch]
      rcases hc with rfl | rfl <;> rfl
  | case4 c s hmatch hc ih =>
      rw [universalNewlines.eq_3 _ _ hmatch, universalNewlines.eq_3 _ _ fun rest h => absurd (.inl h) hc, ih]

theorem universalNewlines_preserve (value reference : PyStr) :
    universalNewlines (preserveNewlineStyle value reference) = universalNewlines value := by
  rw [preserveNewlineStyle_eq]
  split_ifs
  · exact universalNewlines_toCrLf value
  · rfl

theorem isBlank_of_mem_indent {line : PyStr} : ∀ c ∈ indent line, isBlank c = true := by
  intro c hc
  exact List.all_eq_true.mp (List.all_takeWhile) c hc

theorem drop_indent (line : PyStr) : line.drop (indent line).length = line.dropWhile isBlank := by
  have h : (line.takeWhile isBlank ++ line.dropWhile isBlank).drop (line.takeWhile isBlank).length
      = line.dropWhile isBlank := List.drop_left
  rwa [List.takeWhile_append_dropWhile] at h

theorem Reindented.refl (line : PyStr) : Reindented line line :=
  ⟨indent line, isBlank_of_mem_indent, List.takeWhile_append_dropWhile.symm⟩

theorem SameButBlanks.refl (text : PyStr) : SameButBlanks text text :=
  ⟨splitlines text, List.forall₂_same.mpr fun line _ => .refl line, (splitlines_flatten_self text).symm⟩

theorem reindentLine_some {usesTabs : Bool} {targets : List PyStr} {old new matched line : PyStr}
    (h : reindentLine usesTabs targets old new (indent matched) = some line) : Reindented new line := by
  have hreplicate : ∀ n c, isBlank c = true → ∀ d ∈ List.replicate n c, isBlank d = true := by
    intro n c hc d hd
    rw [List.eq_of_mem_replicate hd]
    exact hc
  unfold reindentLine at h
  dsimp only at h
  rw [drop_indent] at h
  split_ifs at h with hnone hown htabs
  · cases h
    exact .refl new
  · cases h
    exact ⟨indent matched, isBlank_of_mem_indent, rfl⟩
  · cases h
    exact ⟨_, hreplicate _ _ rfl, rfl⟩
  · split at h
    · split_ifs at h
      cases h
      exact ⟨_, hreplicate _ _ rfl, rfl⟩
    · cases h

/-- The lines of the loop, each with the line of `old_str` and the matched one in its place. -/
theorem reindentLines_some {usesTabs : Bool} {targets olds news matched : List PyStr} {text : PyStr}
    (h : reindentLines usesTabs targets olds news (matched.map indent) = some text) :
    ∃ lines, text = lines.flatten ∧
      List.Forall₂ (fun l line => reindentLine usesTabs targets l.1 l.2.1 (indent l.2.2) = some line)
        (olds.zip (news.zip matched)) lines := by
  induction olds generalizing news matched text with
  | nil =>
      cases h
      exact ⟨[], rfl, .nil⟩
  | cons old olds ih =>
      cases news with
      | nil =>
          cases h
          exact ⟨[], rfl, .nil⟩
      | cons new news =>
          cases matched with
          | nil =>
              cases h
              exact ⟨[], rfl, .nil⟩
          | cons target matched =>
              rw [List.map_cons, reindentLines] at h
              obtain ⟨line, hline, h⟩ := Option.bind_eq_some_iff.mp h
              obtain ⟨rest, hrest, h⟩ := Option.bind_eq_some_iff.mp h
              cases h
              obtain ⟨lines, rfl, hlines⟩ := ih hrest
              exact ⟨line :: lines, rfl, .cons hline hlines⟩

theorem zip_new {olds news matched : List PyStr} (hnews : news.length = olds.length)
    (hmatched : matched.length = olds.length) : (olds.zip (news.zip matched)).map (fun l => l.2.1) = news := by
  have hsnd : (olds.zip (news.zip matched)).map Prod.snd = news.zip matched :=
    List.map_snd_zip (by rw [List.length_zip]; omega)
  have hfst : (news.zip matched).map Prod.fst = news := List.map_fst_zip (by omega)
  calc (olds.zip (news.zip matched)).map (fun l => l.2.1)
      = ((olds.zip (news.zip matched)).map Prod.snd).map Prod.fst := by rw [List.map_map]; rfl
    _ = news := by rw [hsnd, hfst]

/-- Reindenting changes the blanks lines begin with, and nothing else. -/
theorem reindentFuzzyReplacement_some {matched text : PyStr}
    (h : reindentFuzzyReplacement oldStr newStr matched = some text) : SameButBlanks newStr text := by
  unfold reindentFuzzyReplacement at h
  dsimp only at h
  split_ifs at h with hempty hflat hnone hmixed hlength
  · cases h
    exact .refl newStr
  · cases h
    exact .refl newStr
  · rw [not_or, not_not, not_not] at hlength
    obtain ⟨lines, htext, hlines⟩ := reindentLines_some h
    refine ⟨lines, ?_, htext⟩
    rw [← zip_new hlength.1 hlength.2, List.forall₂_map_left_iff]
    exact hlines.imp fun _ _ hline => reindentLine_some hline

-- ============================================================================
-- The edit
-- ============================================================================

theorem fuzzyReplacement_writes {strategy : Strategy} {span : Span} {text : PyStr}
    (h : fuzzyReplacement (some strategy) content oldStr newStr span = .ok text) :
    (Rule.fuzzy strategy).Writes newStr text := by
  refine ⟨preserveNewlineStyle newStr content, universalNewlines_preserve newStr content, ?_⟩
  unfold fuzzyReplacement at h
  dsimp only at h
  by_cases hind : strategy = .indentationNormalized
  · rw [if_pos (by rw [hind])] at h ⊢
    split at h
    · rename_i text' htext
      cases h
      exact reindentFuzzyReplacement_some htext
    · cases h
  · rw [if_neg fun heq => hind (Option.some.inj heq)] at h
    rw [if_neg fun heq => hind (Rule.fuzzy.inj heq)]
    cases h
    rfl

/-- An edit by a fuzzy strategy edits its one place. -/
theorem fuzzyReplace_editsOnePlace {path : PyStr} {edit : Edit}
    (hnone : ∀ i, ¬ OccursAt oldStr content i)
    (h : fuzzyReplace similar path content oldStr newStr false = .ok edit) :
    EditsOnePlace similar content oldStr newStr edit.content := by
  unfold fuzzyReplace at h
  split at h
  · cases h
  · cases h
  · cases h
  · rename_i strategy span hspan
    obtain ⟨s, p, rfl, hp, hunique, rfl⟩ := fuzzyFindDetails_one hspan
    rw [if_neg Bool.false_ne_true] at h
    cases hwrite : fuzzyReplacement (some s) content oldStr newStr (linesSpan content oldStr p) with
    | error e =>
        rw [hwrite] at h
        cases h
    | ok text =>
        rw [hwrite] at h
        cases h
        exact ⟨.fuzzy s, p, text, ⟨hnone, by rw [hspan]⟩, hp, hunique, fuzzyReplacement_writes hwrite, rfl⟩

theorem strReplace_cases {path : PyStr} {edit : Edit}
    (h : strReplace similar path content oldStr newStr false = .ok edit) :
    (count oldStr content = 1 ∧
      edit.content = replace oldStr (preserveNewlineStyle newStr content) 1 content) ∨
      (count oldStr content = 0 ∧ fuzzyReplace similar path content oldStr newStr false = .ok edit) := by
  unfold strReplace at h
  dsimp only at h
  by_cases hmany : 1 < count oldStr content
  · rw [if_pos (by rw [decide_eq_true hmany]; rfl)] at h
    cases h
  · rw [if_neg (by rw [decide_eq_false hmany]; exact Bool.false_ne_true)] at h
    by_cases hzero : count oldStr content = 0
    · rw [if_neg (not_not.mpr hzero)] at h
      exact .inr ⟨hzero, h⟩
    · rw [if_pos hzero, if_neg Bool.false_ne_true] at h
      cases h
      exact .inl ⟨by omega, rfl⟩

/-- A replacement edits one place that its rule matches nowhere else exactly if no
    occurrence of `old_str` goes on with the rest of another one. -/
theorem strReplace_editsOnePlace_iff {path : PyStr} {edit : Edit}
    (h : strReplace similar path content oldStr newStr false = .ok edit) :
    EditsOnePlace similar content oldStr newStr edit.content ↔
      ∀ pre rest, content = pre ++ oldStr ++ rest → ¬ GoesOn oldStr rest := by
  rcases strReplace_cases h with ⟨hone, hcontent⟩ | ⟨hzero, hfuzzy⟩
  · rw [← unique_iff_not_goesOn hone]
    constructor
    · rintro ⟨rule, p, text, hwins, hp, hunique, _⟩ i j hi hj
      cases rule with
      | exact =>
          have heq : (i, i + oldStr.length) = (j, j + oldStr.length) :=
            (hunique _ ⟨hi, rfl⟩).trans (hunique _ ⟨hj, rfl⟩).symm
          exact (Prod.mk.inj heq).1
      | fuzzy strategy => exact absurd hi (hwins.1 i)
    · intro hunique
      obtain ⟨pre, rest, hsplit, hreplace⟩ := @replace_of_count oldStr (preserveNewlineStyle newStr content) content hone
      have hpre : OccursAt oldStr content pre.length := by
        rw [hsplit]
        exact occursAt_append pre rest
      refine ⟨.exact, (pre.length, pre.length + oldStr.length), preserveNewlineStyle newStr content,
        ⟨_, hpre⟩, ⟨hpre, rfl⟩, ?_, ⟨_, universalNewlines_preserve newStr content, ?_⟩, ?_⟩
      · rintro ⟨i, stop⟩ ⟨hi, hstop⟩
        dsimp only at hi hstop
        rw [hstop, hunique i pre.length hi hpre]
      · rw [if_neg fun h => nomatch h]
      · show edit.content = content.take pre.length ++ _ ++ content.drop (pre.length + oldStr.length)
        have htake : content.take pre.length = pre := by
          rw [hsplit, List.append_assoc, List.take_left]
        have hdrop : content.drop (pre.length + oldStr.length) = rest := by
          rw [hsplit, ← List.length_append, List.drop_left]
        rw [hcontent, hreplace, htake, hdrop]
  · have hnone : ∀ i, ¬ OccursAt oldStr content i := by
      intro i hi
      exact count_ne_zero_iff.mpr ⟨i, hi⟩ hzero
    refine iff_of_true (fuzzyReplace_editsOnePlace hnone hfuzzy) ?_
    rintro pre rest rfl
    exact absurd (occursAt_append pre rest) (hnone _)

theorem strReplace_editsOnePlace_word :
    EditsOnePlace (fun _ _ => false) (py "a = 1\n") (py "1") (py "2") (py "a = 2\n") ↔
      ∀ pre rest, py "a = 1\n" = pre ++ py "1" ++ rest → ¬ GoesOn (py "1") rest :=
  strReplace_editsOnePlace_iff (show strReplace (fun _ _ => false) (py "f") (py "a = 1\n") (py "1") (py "2") false
    = .ok ⟨py "a = 2\n", py "edited f (1 replacement(s))"⟩ by decide)

/-- `aa` stands in `aaa` at two offsets, and is replaced at the first one as if it were the
    only one. -/
theorem strReplace_overlapping :
    ∃ edit, strReplace (fun _ _ => false) (py "f") (py "aaa") (py "aa") (py "b") false = .ok edit ∧
      edit.content = py "ba" ∧
      ¬ EditsOnePlace (fun _ _ => false) (py "aaa") (py "aa") (py "b") edit.content := by
  refine ⟨_, rfl, by decide, ?_⟩
  rintro ⟨rule, p, text, hwins, hp, hunique, _⟩
  cases rule with
  | exact =>
      have h0 := hunique (0, 2) ⟨by decide, rfl⟩
      have h1 := hunique (1, 3) ⟨by decide, rfl⟩
      exact absurd (h0.trans h1.symm) (by decide)
  | fuzzy strategy => exact hwins.1 0 (by decide)

end Files
end KineticSdk
