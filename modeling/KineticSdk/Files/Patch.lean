/-
  KineticSdk.Files.Patch

  `ApplyPatchTool` (`files/patch.py`): reading a unified diff, applying it to
  a text, and writing the results to the workspace with rollback.

  `_parse_patch` is three nested loops over one index.  Here it is one pass
  over the lines whose state says which loop is running; a line that ends an
  inner loop is handed to the loop around it, as in the source.
-/

import KineticSdk.Py.JsonText
import KineticSdk.Py.Str

namespace KineticSdk
namespace Files

open Py

-- ============================================================================
-- Patches
-- ============================================================================

/-- `_Hunk`. -/
structure Hunk where
  oldStart : Nat
  oldCount : Nat
  newStart : Nat
  newCount : Nat
  lines : List PyStr
deriving DecidableEq

/-- `_FilePatch`. -/
structure FilePatch where
  path : PyStr
  hunks : List Hunk
deriving DecidableEq

/-- A `PatchApplyError` with its message, or a value. -/
abbrev PatchM := Except PyStr

/-- One of `\r` and `\n`. -/
def isCrLf (c : Nat) : Bool := c == 13 || c == 10

/-- `line.rstrip("\r\n")`. -/
def rstripNewline (line : PyStr) : PyStr := rstripWhile isCrLf line

/-- `_parse_path`, for the header text after its four-character marker. -/
def parsePath (header : PyStr) : PatchM PyStr :=
  let value := strip (beforeChar 9 (header.drop 4))
  let value := if startsWith (py "a/") value || startsWith (py "b/") value then value.drop 2
    else value
  if value = [] || value = py "/dev/null" then
    .error (py "patches must modify existing workspace files")
  else .ok value

-- ============================================================================
-- Hunk headers
-- ============================================================================

/-- `int(text)` for a run of decimal digits. -/
def intOfDigits (ds : List Nat) : Nat := ds.foldl (fun n d => 10 * n + d) 0

/-- The longest run of decimal digits in front, by their values. -/
def takeDigits : PyStr → List Nat × PyStr
  | [] => ([], [])
  | c :: cs =>
      match digitValue c with
      | some d => (d :: (takeDigits cs).1, (takeDigits cs).2)
      | none => ([], c :: cs)

/-- What is left after a literal, if the text starts with it. -/
def afterLit (lit s : PyStr) : Option PyStr :=
  if startsWith lit s then some (s.drop lit.length) else none

/-- `\d+`. -/
def number (s : PyStr) : Option (Nat × PyStr) :=
  match takeDigits s with
  | ([], _) => none
  | (ds, rest) => some (intOfDigits ds, rest)

/-- `(?:,\d+)?`, with a missing count read as 1. -/
def optCount (s : PyStr) : Nat × PyStr :=
  match (afterLit (py ",") s).bind number with
  | some r => r
  | none => (1, s)

/-- The numbers of a hunk header. -/
structure HunkHeader where
  oldStart : Nat
  oldCount : Nat
  newStart : Nat
  newCount : Nat

/-- `_HUNK_HEADER.match`. -/
def hunkHeader (line : PyStr) : Option HunkHeader := do
  let rest ← afterLit (py "@@ -") line
  let (oldStart, rest) ← number rest
  let (oldCount, rest) := optCount rest
  let rest ← afterLit (py " +") rest
  let (newStart, rest) ← number rest
  let (newCount, rest) := optCount rest
  let _ ← afterLit (py " @@") rest
  return ⟨oldStart, oldCount, newStart, newCount⟩

-- ============================================================================
-- Reading a patch
-- ============================================================================

/-- The hunk being read. -/
structure OpenHunk where
  header : HunkHeader
  lines : List PyStr := []
  oldSeen : Nat := 0
  newSeen : Nat := 0

/-- The loop that reads the next line. -/
inductive Parser where
  /-- The loop over files. -/
  | files (patches : List FilePatch)
  /-- Between the `---` and the `+++` header. -/
  | newHeader (patches : List FilePatch) (oldPath : PyStr)
  /-- The loop over the hunks of one file. -/
  | hunks (patches : List FilePatch) (path : PyStr) (hunks : List Hunk)
  /-- The loop over the lines of one hunk. -/
  | body (patches : List FilePatch) (path : PyStr) (hunks : List Hunk) (cur : OpenHunk)

/-- The end of the loop over the lines of a hunk. -/
def endHunk (hunks : List Hunk) (cur : OpenHunk) : PatchM (List Hunk) :=
  if cur.oldSeen ≠ cur.header.oldCount ∨ cur.newSeen ≠ cur.header.newCount then
    .error (py "hunk line counts do not match its header")
  else
    .ok (hunks ++ [⟨cur.header.oldStart, cur.header.oldCount, cur.header.newStart,
      cur.header.newCount, cur.lines⟩])

/-- The end of the loop over the hunks of a file. -/
def endFile (patches : List FilePatch) (path : PyStr) (hunks : List Hunk) :
    PatchM (List FilePatch) :=
  if hunks = [] then .error (py "no hunks for " ++ path) else .ok (patches ++ [⟨path, hunks⟩])

/-- A line read by the loop over files; `n` is its number. -/
def fileLine (n : Nat) (patches : List FilePatch) (line : PyStr) : PatchM Parser :=
  if [py "diff --git ", py "index ", py "new file mode ", py "deleted file mode "].any
      fun p => startsWith p line then
    .ok (.files patches)
  else if !startsWith (py "--- ") line then
    .error (py "expected --- file header at line " ++ natText n)
  else do
    let oldPath ← parsePath line
    return .newHeader patches oldPath

/-- The line after a `---` header. -/
def newHeaderLine (patches : List FilePatch) (oldPath line : PyStr) : PatchM Parser :=
  if !startsWith (py "+++ ") line then .error (py "missing +++ file header")
  else do
    let newPath ← parsePath line
    if oldPath ≠ newPath then .error (py "renames are not supported")
    else return .hunks patches newPath []

/-- A line read by the loop over the hunks of a file. -/
def hunksLine (n : Nat) (patches : List FilePatch) (path : PyStr) (hunks : List Hunk)
    (line : PyStr) : PatchM Parser :=
  if startsWith (py "--- ") line then do
    fileLine n (← endFile patches path hunks) line
  else
    match hunkHeader (rstripNewline line) with
    | some header => .ok (.body patches path hunks { header := header })
    | none =>
        if [py "diff --git ", py "index "].any fun p => startsWith p line then do
          fileLine n (← endFile patches path hunks) line
        else .error (py "expected @@ hunk header at line " ++ natText n)

/-- `hunk_lines[-1] = hunk_lines[-1].rstrip("\r\n")`. -/
def stripLast (lines : List PyStr) : List PyStr :=
  lines.dropLast ++ (lines.getLast?.map rstripNewline).toList

/-- A line read by the loop over the lines of a hunk. -/
def bodyLine (n : Nat) (patches : List FilePatch) (path : PyStr) (hunks : List Hunk)
    (cur : OpenHunk) (line : PyStr) : PatchM Parser :=
  if startsWith (py "--- ") line || startsWith (py "diff --git ") line then do
    hunksLine n patches path (← endHunk hunks cur) line
  else if startsWith (py "\\ No newline at end of file") line then
    if cur.lines = [] then .error (py "newline marker has no preceding hunk line")
    else .ok (.body patches path hunks { cur with lines := stripLast cur.lines })
  else if [py " ", py "+", py "-"].any fun p => startsWith p line then
    .ok (.body patches path hunks
      { cur with
        lines := cur.lines ++ [line]
        oldSeen := cur.oldSeen + if startsWith (py "+") line then 0 else 1
        newSeen := cur.newSeen + if startsWith (py "-") line then 0 else 1 })
  else do
    hunksLine n patches path (← endHunk hunks cur) line

/-- One line of the patch. -/
def Parser.step (p : Parser) (numbered : PyStr × Nat) : PatchM Parser :=
  let (line, n) := numbered
  match p with
  | .files patches => fileLine n patches line
  | .newHeader patches oldPath => newHeaderLine patches oldPath line
  | .hunks patches path hs => hunksLine n patches path hs line
  | .body patches path hs cur => bodyLine n patches path hs cur line

/-- The end of the text. -/
def Parser.finish : Parser → PatchM (List FilePatch)
  | .files patches => .ok patches
  | .newHeader _ _ => .error (py "missing +++ file header")
  | .hunks patches path hs => endFile patches path hs
  | .body patches path hs cur => do endFile patches path (← endHunk hs cur)

/-- `_parse_patch`. -/
def parsePatch (patch : PyStr) : PatchM (List FilePatch) :=
  if strip patch = [] then .error (py "no patch content")
  else do
    let p ← ((splitlines patch).zipIdx 1).foldlM Parser.step (.files [])
    p.finish

-- ============================================================================
-- Applying a patch to a text
-- ============================================================================

/-- `needle in text`. -/
def contains (needle : PyStr) : PyStr → Bool
  | [] => needle.isEmpty
  | c :: cs => startsWith needle (c :: cs) || contains needle cs

/-- The newline the file uses. -/
def fileNewline (original : PyStr) : PyStr :=
  if contains (py "\r\n") original then py "\r\n" else py "\n"

/-- The closure `file_newline`. -/
def withNewline (newline line : PyStr) : PyStr :=
  rstripNewline line ++ if (line.getLast?.map isCrLf).getD false then newline else []

/-- The lines a hunk expects in the file. -/
def Hunk.expected (newline : PyStr) (h : Hunk) : List PyStr :=
  (h.lines.filter fun l => startsWith (py " ") l || startsWith (py "-") l).map
    fun l => withNewline newline (l.drop 1)

/-- The lines a hunk puts in their place. -/
def Hunk.replacement (newline : PyStr) (h : Hunk) : List PyStr :=
  (h.lines.filter fun l => startsWith (py " ") l || startsWith (py "+") l).map
    fun l => withNewline newline (l.drop 1)

/-- The lines of `[start, start + count)`. -/
def slice (lines : List PyStr) (start count : Nat) : List PyStr := (lines.drop start).take count

/-- The places within 20 lines of `start` where `expected` stands. -/
def candidates (lines expected : List PyStr) (start : Nat) : List Nat :=
  let lower := start - 20
  let upper := min ((lines.length : Int) - expected.length) (start + 20)
  (List.range (upper + 1 - lower).toNat).map (lower + ·) |>.filter
    fun c => slice lines c expected.length = expected

/-- Where a hunk applies. -/
def locate (lines expected : List PyStr) (start : Nat) : PatchM Nat :=
  if slice lines start expected.length = expected then .ok start
  else
    match candidates lines expected start with
    | [c] => .ok c
    | [] => .error (py "hunk context does not match the file within 20 lines")
    | _ => .error (py "hunk context matches multiple nearby locations")

/-- One hunk of `_apply_file_patch`: the new lines and the new offset. -/
def applyHunk (newline : PyStr) (state : List PyStr × Int) (h : Hunk) :
    PatchM (List PyStr × Int) :=
  let (lines, offset) := state
  let oldIndex : Int := if h.oldCount = 0 then h.oldStart else (h.oldStart : Int) - 1
  let start := oldIndex + offset
  if start < 0 ∨ (lines.length : Int) < start then
    .error (py "hunk position is outside the file")
  else do
    let expected := h.expected newline
    let replacement := h.replacement newline
    let start ← locate lines expected start.toNat
    return (lines.take start ++ replacement ++ lines.drop (start + expected.length),
      offset + ((start : Int) - oldIndex - offset) + replacement.length - expected.length)

/-- `_apply_file_patch`. -/
def applyFilePatch (original : PyStr) (p : FilePatch) : PatchM PyStr := do
  let (lines, _) ← p.hunks.foldlM (applyHunk (fileNewline original)) (splitlines original, 0)
  return lines.flatten

end Files
end KineticSdk
