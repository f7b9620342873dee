/-
  KineticSdk.Context.Compressor

  What `ToolOutputCompressor.compress` returns.

  A line that matches a pattern is kept whole, or dropped where it does not fit,
  and the two omission markers are counted in: the result is bounded and made of
  lines.  A text none of whose lines match is cut by `_head_tail`, whose marker
  comes on top of the limit.
-/

import KineticSdk.Context.Manager
import Mathlib.Data.List.GetD

namespace KineticSdk
namespace Context

open Py

-- ============================================================================
-- Cutting the middle
-- ============================================================================

theorem lastChars_length {n : Nat} {text : PyStr} (hpos : 0 < n) (hle : n ≤ text.length) :
    (lastChars n text).length = n := by
  unfold lastChars
  rw [if_neg (by omega), List.length_drop]
  omega

/-- The marker of `_head_tail` comes on top of the limit. -/
theorem headTail_length {text : PyStr} {limit : Nat} (hpos : 0 < limit) (hlong : limit < text.length) :
    (headTail text limit).length = limit + (truncationMarker ((text.length : Int) - limit)).length := by
  have htail : 0 < limit - limit * 2 / 3 := by omega
  have hsum : ((text.length : Int) - ↑(limit * 2 / 3) - ↑(limit - limit * 2 / 3)) = (text.length : Int) - limit := by
    omega
  unfold headTail
  dsimp only
  rw [List.length_append, List.length_append, List.length_take, lastChars_length htail (by omega), hsum]
  omega

theorem truncationMarker_pos (n : Int) : 0 < (truncationMarker n).length := by
  unfold truncationMarker
  rw [List.length_append, List.length_append]
  have hhead : 0 < (py "\n[... ").length := by decide
  omega

namespace ToolOutputCompressor

variable (c : ToolOutputCompressor) {text : PyStr} {limit : Nat}

-- ============================================================================
-- Texts made of lines
-- ============================================================================

/-- The line matches a pattern. -/
def Matches (line : PyStr) : Prop := ∃ p ∈ c.preservePatterns, p line = true

/-- Some line of the text matches a pattern. -/
def SomeMatch (text : PyStr) : Prop := ∃ line ∈ splitlines text, c.Matches line

/-- The text put together from omission markers, which stand for `none`, and lines. -/
def ofPieces (pieces : List (Option PyStr)) : PyStr := (pieces.map (·.getD marker)).flatten

/-- The output is put together from omission markers and whole lines of the text, in
    their order. -/
def MadeOfLines (text out : PyStr) : Prop :=
  ∃ pieces : List (Option PyStr), out = ofPieces pieces ∧ (pieces.filterMap id).Sublist (splitlines text)

theorem filterMap_some (lines : List PyStr) : (lines.map some).filterMap id = lines := by
  rw [List.filterMap_map]
  exact List.filterMap_some

theorem ofPieces_some (lines : List PyStr) : ofPieces (lines.map some) = lines.flatten := by
  unfold ofPieces
  rw [List.map_map]
  exact congrArg List.flatten (List.map_id lines)

theorem ofPieces_append (xs ys : List (Option PyStr)) : ofPieces (xs ++ ys) = ofPieces xs ++ ofPieces ys := by
  unfold ofPieces
  rw [List.map_append, List.flatten_append]

/-- The text between two markers. -/
theorem madeOfLines_marked {lines : List PyStr} (h : lines.Sublist (splitlines text)) :
    MadeOfLines text (marker ++ lines.flatten ++ marker) := by
  refine ⟨none :: lines.map some ++ [none], ?_, ?_⟩
  · rw [ofPieces_append, ← List.singleton_append, ofPieces_append, ofPieces_some]
    rfl
  · rw [List.cons_append, List.filterMap_cons_none rfl, List.filterMap_append, filterMap_some,
      List.filterMap_cons_none rfl, List.filterMap_nil, List.append_nil]
    exact h

theorem madeOfLines_self (text : PyStr) : MadeOfLines text text := by
  refine ⟨(splitlines text).map some, ?_, ?_⟩
  · rw [ofPieces_some, splitlines_flatten_self]
  · rw [filterMap_some]

-- ============================================================================
-- Filling up to the limit
-- ============================================================================

/-- Filling keeps the text below the limit, with room for the last marker, and adds
    whole lines only. -/
theorem fitLines_spec (lines : List PyStr) {out : PyStr} (hroom : out.length + marker.length ≤ limit) :
    ∃ kept : List PyStr, kept.Sublist lines ∧
      lines.foldl (fun out line =>
        if limit < out.length + line.length + marker.length then out else out ++ line) out
          = out ++ kept.flatten ∧
      (out ++ kept.flatten).length + marker.length ≤ limit := by
  induction lines generalizing out with
  | nil => exact ⟨[], List.Sublist.refl _, by simp, by simpa using hroom⟩
  | cons line lines ih =>
      rw [List.foldl_cons]
      by_cases hfits : limit < out.length + line.length + marker.length
      · rw [if_pos hfits]
        obtain ⟨kept, hsub, heq, hlen⟩ := ih hroom
        exact ⟨kept, hsub.cons _, heq, hlen⟩
      · rw [if_neg hfits]
        have hnext : (out ++ line).length + marker.length ≤ limit := by rw [List.length_append]; omega
        obtain ⟨kept, hsub, heq, hlen⟩ := ih hnext
        refine ⟨line :: kept, hsub.cons_cons _, ?_, ?_⟩
        · rw [heq, List.flatten_cons, List.append_assoc]
        · rw [List.flatten_cons, ← List.append_assoc]
          exact hlen

-- ============================================================================
-- The four exits
-- ============================================================================

theorem getD_mem_range {lines : List PyStr} {i : Nat} (h : i < lines.length) : lines.getD i [] ∈ lines := by
  rw [List.getD_eq_getElem _ _ h]
  exact List.getElem_mem h

theorem important_eq_nil_iff :
    ((List.range (splitlines text).length).filter fun i =>
        c.preservePatterns.any fun p => p ((splitlines text).getD i [])) = [] ↔ ¬ c.SomeMatch text := by
  rw [List.filter_eq_nil_iff]
  constructor
  · rintro h ⟨line, hline, p, hp, hmatch⟩
    obtain ⟨i, hi, rfl⟩ := List.getElem_of_mem hline
    refine h i (List.mem_range.mpr hi) (List.any_eq_true.mpr ⟨p, hp, ?_⟩)
    rw [List.getD_eq_getElem _ _ hi]
    exact hmatch
  · intro h i hi hany
    obtain ⟨p, hp, hmatch⟩ := List.any_eq_true.mp hany
    exact h ⟨_, getD_mem_range (List.mem_range.mp hi), p, hp, hmatch⟩

/-- Lines chosen by their indices are lines in their order. -/
theorem selected_sublist (lines : List PyStr) (p : Nat → Bool) :
    (((List.range lines.length).filter p).map (lines.getD · [])).Sublist lines := by
  have hall : (List.range lines.length).map (lines.getD · []) = lines := by
    refine List.ext_getElem (by rw [List.length_map, List.length_range]) fun i h₁ h₂ => ?_
    rw [List.getElem_map, List.getElem_range, List.getD_eq_getElem _ _ h₂]
  have hsub := (List.filter_sublist (p := p) (l := List.range lines.length)).map (lines.getD · [])
  rw [hall] at hsub
  exact hsub

theorem compress_of_short (h : text.length ≤ limit) : c.compress text limit = text := by
  unfold compress
  exact if_pos h

theorem compress_of_no_match (hlong : limit < text.length) (h : ¬ c.SomeMatch text) :
    c.compress text limit = headTail text limit := by
  unfold compress
  rw [if_neg (by omega)]
  exact if_pos ((important_eq_nil_iff c).mpr h)

/-- Where a line matches, the result is bounded and made of lines. -/
theorem compress_of_match (hlimit : 100 ≤ limit) (h : c.SomeMatch text) :
    (c.compress text limit).length ≤ limit ∧ MadeOfLines text (c.compress text limit) := by
  have hmarker : marker.length + marker.length ≤ limit := by
    have hlen : marker.length + marker.length ≤ 100 := by decide
    omega
  by_cases hshort : text.length ≤ limit
  · rw [compress_of_short c hshort]
    exact ⟨hshort, madeOfLines_self text⟩
  unfold compress
  rw [if_neg hshort]
  dsimp only
  rw [if_neg fun hnil => (important_eq_nil_iff c).mp hnil h]
  generalize hselected : ((List.range (splitlines text).length).filter _).map _ = selected
  have hsub : selected.Sublist (splitlines text) := by
    rw [← hselected]
    exact selected_sublist _ _
  split_ifs with hall hfits
  · exact ⟨hall, madeOfLines_marked hsub⟩
  · obtain ⟨kept, hkept, heq, -⟩ := fitLines_spec selected hmarker
    unfold fitLines at hfits ⊢
    refine ⟨by rw [List.length_append]; exact hfits, ?_⟩
    rw [heq]
    exact madeOfLines_marked (hkept.trans hsub)
  · obtain ⟨kept, -, heq, hlen⟩ := fitLines_spec selected hmarker
    unfold fitLines at hfits
    rw [heq] at hfits
    exact absurd hlen hfits

/-- The compressor returns at most `limit` characters, and whole lines where some line
    matches, exactly for the texts that are short or have a matching line. -/
theorem compress_bounded_iff (hlimit : 100 ≤ limit) :
    ((c.compress text limit).length ≤ limit ∧
        (c.SomeMatch text → MadeOfLines text (c.compress text limit))) ↔
      text.length ≤ limit ∨ c.SomeMatch text := by
  constructor
  · rintro ⟨hbound, -⟩
    by_contra hnot
    obtain ⟨hlong, hmatch⟩ := not_or.mp hnot
    rw [compress_of_no_match c (by omega) hmatch, headTail_length (by omega) (by omega)] at hbound
    have hmarker := truncationMarker_pos ((text.length : Int) - limit)
    omega
  · rintro (hshort | hmatch)
    · rw [compress_of_short c hshort]
      exact ⟨hshort, fun _ => madeOfLines_self text⟩
    · obtain ⟨hbound, hmade⟩ := compress_of_match c hlimit hmatch
      exact ⟨hbound, fun _ => hmade⟩

/-- A compressor that keeps lines with a colon. -/
def keepColons : ToolOutputCompressor where
  preservePatterns := [fun line => line.contains 58]

/-- A long text with a line that is worth keeping. -/
def errorLog : PyStr := List.replicate 100 97 ++ py "\nError: x\n"

theorem compress_bounded_errorLog :
    (keepColons.compress errorLog 100).length ≤ 100 ∧
      (keepColons.SomeMatch errorLog → MadeOfLines errorLog (keepColons.compress errorLog 100)) :=
  (compress_bounded_iff keepColons (by decide)).mpr
    (.inr ⟨py "Error: x\n", by decide +kernel, _, List.mem_cons_self .., by decide⟩)

/-- A long text without a matching line comes out longer than the limit. -/
theorem compress_exceeds_limit :
    ¬ ((keepColons.compress (List.replicate 101 97) 100).length ≤ 100 ∧
      (keepColons.SomeMatch (List.replicate 101 97) →
        MadeOfLines (List.replicate 101 97) (keepColons.compress (List.replicate 101 97) 100))) := by
  rintro ⟨hbound, -⟩
  revert hbound
  decide +kernel

end ToolOutputCompressor

end Context
end KineticSdk
