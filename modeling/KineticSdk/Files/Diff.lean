/-
  KineticSdk.Files.Diff

  Unified diffs, independently of the code that reads them.

  A text is its lines, each ended by a line feed that only the last may lack.
  A diff from one text to another is a sequence of hunks with the unchanged
  lines between them; rendering adds the tags, the `@@` headers with the
  positions and counts, and the marker after a line without its line feed.
-/

import KineticSdk.Files.Patch

namespace KineticSdk
namespace Files

open Py

-- ============================================================================
-- Texts
-- ============================================================================

/-- The lines of a text, with their line feeds. -/
def lfLines : PyStr → List PyStr
  | [] => []
  | c :: cs => if c = 10 then [c] :: lfLines cs else consLine c (lfLines cs)

theorem flatten_consLine (c : Nat) (ls : List PyStr) :
    (consLine c ls).flatten = c :: ls.flatten := by
  cases ls <;> simp [consLine]

/-- One line of a hunk. -/
inductive Op where
  | context (l : PyStr)
  | delete (l : PyStr)
  | insert (l : PyStr)

/-- The text of the line. -/
def Op.line : Op → PyStr
  | .context l => l
  | .delete l => l
  | .insert l => l

/-- The character in front of the line. -/
def Op.tag : Op → Nat
  | .context _ => 32
  | .delete _ => 45
  | .insert _ => 43

/-- The line as part of the old text. -/
def Op.old : Op → List PyStr
  | .context l => [l]
  | .delete l => [l]
  | .insert _ => []

/-- The line as part of the new text. -/
def Op.new : Op → List PyStr
  | .context l => [l]
  | .delete _ => []
  | .insert l => [l]

/-- A hunk, with the unchanged lines between it and the one before. -/
structure DiffHunk where
  skipped : List PyStr := []
  ops : List Op
  /-- The text after the second `@@`. -/
  heading : PyStr := []
  /-- Whether a count of one is left out of the header. -/
  shortOld : Bool := true
  shortNew : Bool := true

/-- The old lines of a hunk. -/
def DiffHunk.old (h : DiffHunk) : List PyStr := h.ops.flatMap Op.old

/-- The new lines of a hunk. -/
def DiffHunk.new (h : DiffHunk) : List PyStr := h.ops.flatMap Op.new

/-- A unified diff of one file. -/
structure UnifiedDiff where
  /-- The `diff --git` and `index` lines. -/
  preamble : List PyStr := []
  path : PyStr
  /-- What follows the path after a tab, as time stamps do. -/
  oldStamp : Option PyStr := none
  newStamp : Option PyStr := none
  hunks : List DiffHunk
  /-- The unchanged lines after the last hunk. -/
  rest : List PyStr := []

/-- The lines of the old text. -/
def UnifiedDiff.oldLines (d : UnifiedDiff) : List PyStr :=
  (d.hunks.flatMap fun h => h.skipped ++ h.old) ++ d.rest

/-- The lines of the new text. -/
def UnifiedDiff.newLines (d : UnifiedDiff) : List PyStr :=
  (d.hunks.flatMap fun h => h.skipped ++ h.new) ++ d.rest

/-- The marker after a line that lacks its line feed. -/
def noNewlineMarker : PyStr := py "\\ No newline at end of file\n"

/-- A hunk line. -/
def Op.render (op : Op) : List PyStr :=
  if op.line.getLast? = some 10 then [op.tag :: op.line]
  else [op.tag :: (op.line ++ [10]), noNewlineMarker]

/-- The start of a range of `count` lines after `before` lines. -/
def rangeStart (before count : Nat) : Nat := if count = 0 then before else before + 1

/-- A range of a hunk header. -/
def rangeText (short : Bool) (before count : Nat) : PyStr :=
  natText (rangeStart before count) ++
    if short && count == 1 then [] else py "," ++ natText count

/-- The `@@` line of a hunk that follows `o` old and `n` new lines. -/
def DiffHunk.headerLine (h : DiffHunk) (o n : Nat) : PyStr :=
  py "@@ -" ++ (rangeText h.shortOld o h.old.length ++ (py " +" ++
    (rangeText h.shortNew n h.new.length ++ (py " @@" ++ (h.heading ++ [10])))))

/-- The lines of the hunks, the first of which follows `o` old and `n` new
    lines and its own skipped ones. -/
def renderHunks : Nat → Nat → List DiffHunk → List PyStr
  | _, _, [] => []
  | o, n, h :: hs =>
      h.headerLine (o + h.skipped.length) (n + h.skipped.length) :: (h.ops.flatMap Op.render ++
        renderHunks (o + h.skipped.length + h.old.length) (n + h.skipped.length + h.new.length) hs)

/-- A file header. -/
def fileHeader (marker path : PyStr) (stamp : Option PyStr) : PyStr :=
  marker ++ (path ++ ((stamp.map (9 :: ·)).getD [] ++ [10]))

/-- The lines of the diff. -/
def UnifiedDiff.renderLines (d : UnifiedDiff) : List PyStr :=
  d.preamble ++ (fileHeader (py "--- a/") d.path d.oldStamp ::
    fileHeader (py "+++ b/") d.path d.newStamp :: renderHunks 0 0 d.hunks)

/-- The text of the diff. -/
def UnifiedDiff.render (d : UnifiedDiff) : PyStr := d.renderLines.flatten

-- ============================================================================
-- The two things that can go wrong
-- ============================================================================

/-- A line without line ends of its own, followed by `newline` or nothing. -/
def RegularLine (newline l : PyStr) : Prop :=
  NoBreak (rstripNewline l) ∧ (l = rstripNewline l ++ newline ∨ l = rstripNewline l)

instance (newline l : PyStr) : Decidable (RegularLine newline l) :=
  inferInstanceAs (Decidable (NoBreak (rstripNewline l) ∧
    (l = rstripNewline l ++ newline ∨ l = rstripNewline l)))

/-- Lines end where the file's own newline stands and nowhere else. -/
structure Regular (d : UnifiedDiff) (old new : PyStr) : Prop where
  lines : ∀ l ∈ lfLines old ++ lfLines new, RegularLine (fileNewline old) l
  headings : ∀ h ∈ d.hunks, OneLine (h.heading ++ [10])

end Files
end KineticSdk
