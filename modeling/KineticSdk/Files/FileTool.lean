/-
  KineticSdk.Files.FileTool

  The edits of `FileTool` (`files/tool.py`): what `str_replace` and `insert`
  make of the text of a file.

  `str_replace` prefers exact matches and falls back to one of three fuzzy
  strategies.  The last of them compares blocks by
  `difflib.SequenceMatcher(None, a, b).ratio()`; `similar a b` stands for a
  ratio of at least 0.6.
-/

import KineticSdk.Files.Patch
import KineticSdk.Py.Search

namespace KineticSdk
namespace Files

open Py

-- ============================================================================
-- Lines
-- ============================================================================

/-- A line without its end, and the offsets of its start, of the end of its body
    and of its own end. -/
structure LineSpan where
  body : PyStr
  start : Nat
  bodyEnd : Nat
  stop : Nat
deriving DecidableEq

/-- `_line_contents_and_spans`, from this offset. -/
def spansFrom (offset : Nat) : List PyStr → List LineSpan
  | [] => []
  | line :: lines =>
      ⟨rstripNewline line, offset, offset + (rstripNewline line).length, offset + line.length⟩
        :: spansFrom (offset + line.length) lines

/-- `_line_contents_and_spans`. -/
def lineContentsAndSpans (text : PyStr) : List LineSpan := spansFrom 0 (splitlines text)

/-- A space or a tab. -/
def isBlank (c : Nat) : Bool := c == 32 || c == 9

/-- `line[: len(line) - len(line.lstrip(" \t"))]`. -/
def indent (line : PyStr) : PyStr := line.takeWhile isBlank

/-- `_normalise_indentation`. -/
def normaliseIndentation (line : PyStr) : PyStr :=
  (if indent line = [] then [] else [32]) ++ line.dropWhile isBlank

/-- `line.strip(" ")`. -/
def stripSpaces (line : PyStr) : PyStr := rstripWhile (· == 32) (line.dropWhile (· == 32))

/-- `_preserve_newline_style`. -/
def preserveNewlineStyle (value reference : PyStr) : PyStr :=
  if contains (py "\r\n") reference then
    replaceAll (py "\n") (py "\r\n") (replaceAll (py "\r") (py "\n")
      (replaceAll (py "\r\n") (py "\n") value))
  else value

/-- `text.endswith(("\n", "\r"))`. -/
def endsWithNewline (text : PyStr) : Bool := (text.getLast?.map isCrLf).getD false

-- ============================================================================
-- Fuzzy matches
-- ============================================================================

/-- The strategies of `_fuzzy_find_details`; the last one is the report that all
    candidates of the third were rejected. -/
inductive Strategy where
  | lineWhitespaceTrimmed
  | indentationNormalized
  | anchoredBlock
  | anchoredBlockRejected
deriving DecidableEq

/-- The name of a strategy. -/
def Strategy.name : Strategy → PyStr
  | .lineWhitespaceTrimmed => py "line_whitespace_trimmed"
  | .indentationNormalized => py "indentation_normalized"
  | .anchoredBlock => py "anchored_block"
  | .anchoredBlockRejected => py "anchored_block_rejected"

/-- A half-open range of offsets. -/
abbrev Span := Nat × Nat

/-- The span of the lines from `first` to `last`. -/
def blockSpan (includeFinalNewline : Bool) (first last : LineSpan) : Span :=
  (first.start, if includeFinalNewline then last.stop else last.bodyEnd)

/-- `contiguous_matches`: the blocks whose transformed lines are the wanted ones. -/
def contiguousMatches (contentLines : List LineSpan) (oldBodies : List PyStr)
    (includeFinalNewline : Bool) (transform : PyStr → PyStr) : List Span :=
  let wanted := oldBodies.map transform
  (List.range (contentLines.length + 1 - wanted.length)).filterMap fun start =>
    let block := (contentLines.drop start).take wanted.length
    if block.map (fun line => transform line.body) = wanted then
      match block.head?, block.getLast? with
      | some first, some last => some (blockSpan includeFinalNewline first last)
      | _, _ => none
    else none

/-- The pairs of a line and a later one that are the ends of the wanted block. -/
def anchors (contentLines : List LineSpan) (oldBodies : List PyStr) : List (Nat × Nat) :=
  (List.range contentLines.length).flatMap fun first =>
    if contentLines[first]?.map LineSpan.body = oldBodies.head? then
      ((List.range contentLines.length).filter fun last =>
          first < last && contentLines[last]?.map LineSpan.body = oldBodies.getLast?).map
        fun last => (first, last)
    else []

section

variable (similar : PyStr → PyStr → Bool)

/-- What becomes of a pair of anchors: the span of a block close to the wanted one,
    in length and in content, or nothing. -/
def anchoredBlock (contentLines : List LineSpan) (oldBodies : List PyStr)
    (includeFinalNewline : Bool) (pair : Nat × Nat) : Option Span :=
  let block := (contentLines.drop pair.1).take (pair.2 + 1 - pair.1)
  let allowed := max 2 (oldBodies.length / 5)
  if allowed < ((block.length : Int) - oldBodies.length).natAbs then none
  else if !similar (join (py "\n") oldBodies) (join (py "\n") (block.map LineSpan.body)) then none
  else
    match block.head?, block.getLast? with
    | some first, some last => some (blockSpan includeFinalNewline first last)
    | _, _ => none

/-- The third strategy. -/
def anchoredMatches (contentLines : List LineSpan) (oldBodies : List PyStr)
    (includeFinalNewline : Bool) : Option Strategy × List Span :=
  if oldBodies.length < 3 then (none, [])
  else
    let verdicts := (anchors contentLines oldBodies).map
      (anchoredBlock similar contentLines oldBodies includeFinalNewline)
    let found := verdicts.filterMap id
    if found.length = 1 then (some .anchoredBlock, found)
    else if verdicts.contains none && found.isEmpty then (some .anchoredBlockRejected, [])
    else (none, found)

/-- `_fuzzy_find_details`. -/
def fuzzyFindDetails (content oldStr : PyStr) : Option Strategy × List Span :=
  let contentLines := lineContentsAndSpans content
  let oldBodies := (lineContentsAndSpans oldStr).map LineSpan.body
  let includeFinalNewline := endsWithNewline oldStr
  if contentLines = [] || oldBodies = [] then (none, [])
  else
    let trimmed := contiguousMatches contentLines oldBodies includeFinalNewline stripSpaces
    let normalized := contiguousMatches contentLines oldBodies includeFinalNewline
      normaliseIndentation
    if trimmed.length = 1 then (some .lineWhitespaceTrimmed, trimmed)
    else if normalized.length = 1 then (some .indentationNormalized, normalized)
    else anchoredMatches similar contentLines oldBodies includeFinalNewline

end

-- ============================================================================
-- Indentation of the replacement
-- ============================================================================

/-- One line of the replacement under the indentation of the matched lines. -/
def reindentLine (usesTabs : Bool) (targetIndents : List PyStr) (oldLine newLine target : PyStr) :
    Option PyStr :=
  let newIndent := indent newLine
  let rest := newLine.drop newIndent.length
  if newIndent = [] then some newLine
  else if newIndent = indent oldLine then some (target ++ rest)
  else if usesTabs then
    some (List.replicate ((expandtabs 4 newIndent).length / 4) 9 ++ rest)
  else
    match ((targetIndents.filter (· ≠ [])).map List.length).min? with
    | some width =>
        if width = 0 then none
        else some (List.replicate (width * (newIndent.length / 4)) 32 ++ rest)
    | none => none

/-- The loop of `_reindent_fuzzy_replacement`. -/
def reindentLines (usesTabs : Bool) (targetIndents : List PyStr) :
    List PyStr → List PyStr → List PyStr → Option PyStr
  | old :: olds, new :: news, target :: targets => do
      let line ← reindentLine usesTabs targetIndents old new target
      let lines ← reindentLines usesTabs targetIndents olds news targets
      return line ++ lines
  | _, _, _ => some []

/-- `_reindent_fuzzy_replacement`; `none` when no indentation can be inferred. -/
def reindentFuzzyReplacement (oldStr newStr matched : PyStr) : Option PyStr :=
  let oldLines := splitlines oldStr
  let newLines := splitlines newStr
  let matchedLines := splitlines matched
  let targetIndents := matchedLines.map indent
  let usesTabs := targetIndents.any (·.contains 9)
  if newLines = [] then some newStr
  else if targetIndents.all (· = []) then
    if newLines.all (indent · = []) then some newStr else none
  else if usesTabs && targetIndents.any (·.contains 32) then none
  else if newLines.length ≠ oldLines.length ∨ matchedLines.length ≠ oldLines.length then none
  else reindentLines usesTabs targetIndents oldLines newLines targetIndents

-- ============================================================================
-- The edits
-- ============================================================================

/-- The text an edit leaves, and its report. -/
structure Edit where
  content : PyStr
  output : PyStr
deriving DecidableEq

/-- The numbers of the first and the last line of a span. -/
def lineNumbers (content : PyStr) (span : Span) : Nat × Nat :=
  ((content.take span.1).count 10 + 1,
    (content.take span.2).count 10
      + if span.1 < span.2 && (content.take span.2).getLast? = some 10 then 0 else 1)

/-- The replacement for a fuzzy match. -/
def fuzzyReplacement (strategy : Option Strategy) (content oldStr newStr : PyStr) (span : Span) :
    Except PyStr PyStr :=
  let replacement := preserveNewlineStyle newStr content
  if strategy = some .indentationNormalized then
    match reindentFuzzyReplacement oldStr replacement
        ((content.drop span.1).take (span.2 - span.1)) with
    | some text => .ok text
    | none => .error (py "indentation_normalized fuzzy match rejected because replacement "
        ++ py "indentation could not be inferred safely")
  else .ok replacement

/-- The part of `_str_replace` for an `old_str` that does not occur. -/
def fuzzyReplace (similar : PyStr → PyStr → Bool) (path content oldStr newStr : PyStr)
    (all : Bool) : Except PyStr Edit :=
  match fuzzyFindDetails similar content oldStr with
  | (some .anchoredBlockRejected, _) =>
      .error (py "anchored_block fuzzy match rejected because the matched block "
        ++ py "is too different in size or middle content; use a more exact old_str")
  | (_, []) => .error (py "old_str not found in the file")
  | (_, _ :: _ :: rest) =>
      .error (py "old_str fuzzy-matches " ++ natText (rest.length + 2)
        ++ py " times; it must match exactly once")
  | (strategy, [span]) =>
      if all then
        .error (py "replace_all=True only supports exact matches; narrow old_str "
          ++ py "or disable replace_all to use fuzzy matching")
      else do
        let replacement ← fuzzyReplacement strategy content oldStr newStr span
        let lines := lineNumbers content span
        return ⟨content.take span.1 ++ replacement ++ content.drop span.2,
          py "edited " ++ path ++ py " (1 replacement, fuzzy="
            ++ (strategy.map Strategy.name).getD (py "None") ++ py ", lines " ++ natText lines.1
            ++ py "-" ++ natText lines.2 ++ py ")"⟩

/-- `_str_replace` on the text of the file. -/
def strReplace (similar : PyStr → PyStr → Bool) (path content oldStr newStr : PyStr)
    (all : Bool) : Except PyStr Edit :=
  let occurrences := count oldStr content
  if 1 < occurrences && !all then
    .error (py "old_str matches " ++ natText occurrences
      ++ py " times; pass replace_all=True to "
      ++ py "replace all of them, or narrow old_str to match exactly once")
  else if occurrences ≠ 0 then
    let n := if all then occurrences else 1
    .ok ⟨replace oldStr (preserveNewlineStyle newStr content) n content,
      py "edited " ++ path ++ py " (" ++ natText n ++ py " replacement(s))"⟩
  else fuzzyReplace similar path content oldStr newStr all

/-- The lines an insertion adds: the last one is ended. -/
def insertedLines (text : PyStr) : List PyStr :=
  let lines := splitlines text
  if endsWithNewline text then lines
  else lines.dropLast ++ (lines.getLast?.map (· ++ [10])).toList

/-- `_insert` on the text of the file. -/
def insert (path content : PyStr) (insertLine : Int) (newStr : PyStr) : Except PyStr Edit :=
  let lines := splitlines content
  if insertLine < 0 ∨ (lines.length : Int) < insertLine then
    .error (py "insert_line " ++ intText insertLine ++ py " out of range 0.."
      ++ natText lines.length)
  else
    let k := insertLine.toNat
    .ok ⟨(lines.take k ++ insertedLines (preserveNewlineStyle newStr content)
        ++ lines.drop k).flatten,
      py "inserted into " ++ path ++ py " after line " ++ intText insertLine⟩

end Files
end KineticSdk
