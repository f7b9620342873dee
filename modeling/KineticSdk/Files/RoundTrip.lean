/-
  KineticSdk.Files.RoundTrip

  Parsing and applying a rendered diff.

  The parser is followed line by line through the rendered hunks: a header
  opens a hunk, every hunk line is stored with its tag, and at the next header
  the counts agree.  The one line that breaks this is a deleted line starting
  with `-- `, which the parser takes for the header of the next file.
-/

import KineticSdk.Files.Diff

namespace KineticSdk
namespace Files

open Py

-- ============================================================================
-- Numbers and headers
-- ============================================================================

/-- The numbers the header of a hunk stands for. -/
def DiffHunk.header (h : DiffHunk) (o n : Nat) : HunkHeader :=
  ⟨rangeStart o h.old.length, h.old.length, rangeStart n h.new.length, h.new.length⟩

/-- The hunk being read after one more of its lines. -/
def OpenHunk.push (cur : OpenHunk) (op : Op) : OpenHunk :=
  { cur with
    lines := cur.lines ++ [op.tag :: op.line]
    oldSeen := cur.oldSeen + op.old.length
    newSeen := cur.newSeen + op.new.length }

theorem fileNewline_cases (old : PyStr) : fileNewline old = [10] ∨ fileNewline old = [13, 10] := by
  unfold fileNewline
  split
  · exact Or.inr rfl
  · exact Or.inl rfl

theorem getLast?_of_noBreak {l : PyStr} (h : NoBreak l) : l.getLast? ≠ some 10 := by
  intro hl
  have : isLineBreak 10 = false := h 10 (List.mem_of_getLast? hl)
  revert this
  decide

/-- A regular line ends in the file's newline, or it has no line end at all. -/
theorem RegularLine.cases {old l : PyStr} (h : RegularLine (fileNewline old) l) :
    (l.getLast? = some 10 ∧ ∃ body, NoBreak body ∧ l = body ++ fileNewline old) ∨
      (l.getLast? ≠ some 10 ∧ NoBreak l) := by
  obtain ⟨hb, hl | hl⟩ := h
  · refine Or.inl ⟨?_, rstripNewline l, hb, hl⟩
    rw [hl]
    rcases fileNewline_cases old with hn | hn
    · rw [hn]; simp
    · rw [hn]; simp
  · right
    rw [← hl] at hb
    exact ⟨getLast?_of_noBreak hb, hb⟩

section Hunks

variable {old path : PyStr} {patches : List FilePatch} {hunks : List Hunk}

/-- The hunk the parser makes of a rendered one. -/
def DiffHunk.parsed (h : DiffHunk) (o n : Nat) : Hunk :=
  ⟨rangeStart o h.old.length, h.old.length, rangeStart n h.new.length, h.new.length,
    h.ops.map fun op => op.tag :: op.line⟩

/-- The parser has read `hunks` and expects the next hunk or the end: the
    last hunk may still be open, with its counts complete. -/
def Ready (patches : List FilePatch) (path : PyStr) (hunks : List Hunk) (p : Parser) : Prop :=
  p = .hunks patches path hunks ∨
    ∃ hs cur, p = .body patches path hs cur ∧ endHunk hs cur = .ok hunks

end Hunks

-- ============================================================================
-- File headers
-- ============================================================================

section RoundTrip

variable {d : UnifiedDiff} {old new : PyStr}

theorem Ready.finish {path : PyStr} {hunks : List Hunk} {p : Parser}
    (hp : Ready [] path hunks p) (hne : hunks ≠ []) : p.finish = .ok [⟨path, hunks⟩] := by
  have hend : endFile [] path hunks = .ok [⟨path, hunks⟩] := by
    unfold endFile
    rw [if_neg hne]
    rfl
  rcases hp with rfl | ⟨hs, cur, rfl, hclose⟩
  · exact hend
  · show (do endFile [] path (← endHunk hs cur)) = _
    rw [hclose]
    exact hend

end RoundTrip

end Files
end KineticSdk
