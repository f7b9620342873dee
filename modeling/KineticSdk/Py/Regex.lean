/-
  KineticSdk.Py.Regex

  A backtracking matcher for the regular expressions of Python's `re`.

  A pattern is run in continuation-passing style: alternatives are tried in
  order and a repetition is greedy, so the first success is the match `re`
  reports.  A repetition that consumes nothing stops, which is also what makes
  the number of rounds bounded by the text that is left.

  `sub` replaces the leftmost non-overlapping matches.  It is meant for
  patterns that match no empty text and skips empty matches.
-/

import KineticSdk.Py.Json
import KineticSdk.Py.Unicode

namespace KineticSdk
namespace Py

/-- A regular expression.  `chr` is one character of a class, `group` a
    capturing group, `wordB` the assertion `\b`. -/
inductive Regex where
  | eps
  | chr (p : Nat → Bool)
  | seq (a b : Regex)
  | alt (a b : Regex)
  | star (a : Regex)
  | group (n : Nat) (a : Regex)
  | wordB

namespace Regex

/-- A position in the text: the character before it, the text after it and the
    groups captured on the way. -/
structure Cursor where
  prev : Option Nat
  rest : PyStr
  groups : List (Nat × PyStr)

/-- `\b`: exactly one side of the position is a word character. -/
def Cursor.atWordBoundary (c : Cursor) : Bool :=
  (c.prev.map isWord).getD false != (c.rest.head?.map isWord).getD false

/-- Greedy repetition of a matcher, at most `fuel` rounds. -/
def starK {β : Type} (m : Cursor → (Cursor → Option β) → Option β) :
    Nat → Cursor → (Cursor → Option β) → Option β
  | 0, c, k => k c
  | fuel + 1, c, k =>
      match m c fun c' => if c'.rest.length < c.rest.length then starK m fuel c' k else none with
      | some r => some r
      | none => k c

/-- Match `re` at the cursor and hand every way to do so, in order, to `k`
    until one succeeds. -/
def matchK {β : Type} : Regex → Cursor → (Cursor → Option β) → Option β
  | .eps, c, k => k c
  | .chr p, c, k =>
      match c.rest with
      | [] => none
      | x :: xs => if p x then k { c with prev := some x, rest := xs } else none
  | .seq a b, c, k => matchK a c fun c' => matchK b c' k
  | .alt a b, c, k =>
      match matchK a c k with
      | some r => some r
      | none => matchK b c k
  | .star a, c, k => starK (matchK a) (c.rest.length + 1) c k
  | .group n a, c, k =>
      matchK a c fun c' =>
        k { c' with groups := (n, c.rest.take (c.rest.length - c'.rest.length)) :: c'.groups }
  | .wordB, c, k => if c.atWordBoundary then k c else none

section
-- its equations are made once, before the proofs below
attribute [local simp] matchK
end

/-- A match: its length and its groups. -/
structure Match where
  length : Nat
  groups : List (Nat × PyStr)

/-- The match starting exactly here, if any. -/
def matchAt (re : Regex) (prev : Option Nat) (text : PyStr) : Option Match :=
  matchK re ⟨prev, text, []⟩ fun c => some ⟨text.length - c.rest.length, c.groups⟩

/-- `m.group(n)`; a group that took no part is empty. -/
def Match.group (m : Match) (n : Nat) : PyStr :=
  ((m.groups.find? fun g => g.1 == n).map Prod.snd).getD []

/-- The replacement loop: `skip` characters of the last match are still to be
    passed over. -/
def subLoop (re : Regex) (repl : Match → PyStr) : Option Nat → Nat → PyStr → PyStr
  | _, _, [] => []
  | _, skip + 1, c :: cs => subLoop re repl (some c) skip cs
  | prev, 0, c :: cs =>
      match matchAt re prev (c :: cs) with
      | some m =>
          if m.length = 0 then c :: subLoop re repl (some c) 0 cs
          else repl m ++ subLoop re repl (some c) (m.length - 1) cs
      | none => c :: subLoop re repl (some c) 0 cs

/-- `re.sub(repl, text)`. -/
def sub (re : Regex) (repl : Match → PyStr) (text : PyStr) : PyStr :=
  subLoop re repl none 0 text

/-- `re.search(text) is not None`. -/
def search (re : Regex) : Option Nat → PyStr → Bool
  | prev, [] => (matchAt re prev []).isSome
  | prev, c :: cs => (matchAt re prev (c :: cs)).isSome || search re (some c) cs

-- ============================================================================
-- Building patterns
-- ============================================================================

/-- Concatenation. -/
def cat : List Regex → Regex
  | [] => .eps
  | [r] => r
  | r :: rs => .seq r (cat rs)

/-- Alternatives, in order. -/
def alts : List Regex → Regex
  | [] => .chr fun _ => false
  | [r] => r
  | r :: rs => .alt r (alts rs)

/-- A literal text. -/
def lit (s : String) : Regex := cat ((py s).map fun c => .chr (· == c))

/-- `x` matches the ASCII character `c` when case is ignored: besides the two
    cases, the dotted and dotless `i`, the long `s` and the Kelvin sign fold to
    ASCII letters. -/
def eqIgnoreCase (c x : Nat) : Bool :=
  let lower := if 65 ≤ c && c ≤ 90 then c + 32 else c
  if 97 ≤ lower && lower ≤ 122 then
    x == lower || x + 32 == lower || (lower == 105 && (x == 0x130 || x == 0x131)) ||
      (lower == 107 && x == 0x212A) || (lower == 115 && x == 0x17F)
  else x == c

/-- A literal text under `(?i)`. -/
def litI (s : String) : Regex := cat ((py s).map fun c => .chr (eqIgnoreCase c))

/-- One of the listed characters. -/
def oneOf (s : String) : Nat → Bool := fun x => (py s).contains x

/-- `r?`. -/
def opt (r : Regex) : Regex := .alt r .eps

/-- `r+`. -/
def plus (r : Regex) : Regex := .seq r (.star r)

/-- `r{n}`. -/
def times : Nat → Regex → Regex
  | 0, _ => .eps
  | n + 1, r => .seq r (times n r)

/-- `r{n,}`. -/
def atLeast (n : Nat) (r : Regex) : Regex := .seq (times n r) (.star r)

/-- At most `n` times, greedily. -/
def upTo : Nat → Regex → Regex
  | 0, _ => .eps
  | n + 1, r => opt (.seq r (upTo n r))

/-- `r{n,m}`. -/
def between (n m : Nat) (r : Regex) : Regex := .seq (times n r) (upTo (m - n) r)

/-- `[A-Za-z0-9]`. -/
def asciiAlnum (x : Nat) : Bool :=
  (48 ≤ x && x ≤ 57) || (65 ≤ x && x ≤ 90) || (97 ≤ x && x ≤ 122)

/-- `[A-Z]`. -/
def asciiUpper (x : Nat) : Bool := 65 ≤ x && x ≤ 90

/-- The non-ASCII characters that match `[A-Za-z]` when case is ignored. -/
def foldsToAscii (x : Nat) : Bool := [0x130, 0x131, 0x17F, 0x212A].contains x

-- ============================================================================
-- Shell patterns
-- ============================================================================

/-- `re.fullmatch(text) is not None`. -/
def fullmatch (re : Regex) (text : PyStr) : Bool :=
  (matchK re ⟨none, text, []⟩ fun c => if c.rest = [] then some () else none).isSome

/-- The characters between the brackets of a shell pattern, as ranges. -/
def bracketRanges : PyStr → List (Nat × Nat)
  | lo :: 45 :: hi :: rest => (lo, hi) :: bracketRanges rest
  | c :: rest => (c, c) :: bracketRanges rest
  | [] => []

/-- What follows `[` in a shell pattern: whether the set is negated, what it holds and the rest,
    if it is closed.  A bracket that comes first does not close it. -/
def bracket (pattern : PyStr) : Option (Bool × PyStr × PyStr) :=
  let (negated, body) := match pattern with
    | 33 :: body => (true, body)
    | body => (false, body)
  let (first, body) := match body with
    | 93 :: body => ([93], body)
    | body => ([], body)
  match body.span (· ≠ 93) with
  | (inside, _ :: rest) => some (negated, first ++ inside, rest)
  | (_, []) => none

/-- `fnmatch.translate`, piece by piece. -/
def translatePieces : Nat → PyStr → List Regex
  | 0, _ | _ + 1, [] => []
  | fuel + 1, 42 :: rest => .star (.chr fun _ => true) :: translatePieces fuel rest
  | fuel + 1, 63 :: rest => .chr (fun _ => true) :: translatePieces fuel rest
  | fuel + 1, c :: rest =>
      match if c = 91 then bracket rest else none with
      | some (negated, inside, rest) =>
          .chr (fun x => ((bracketRanges inside).any fun r => r.1 ≤ x && x ≤ r.2) != negated)
            :: translatePieces fuel rest
      | none => .chr (· == c) :: translatePieces fuel rest

/-- `fnmatch.fnmatch(text, pattern)`, where file names distinguish case. -/
def fnmatch (text pattern : PyStr) : Bool := fullmatch (cat (translatePieces pattern.length pattern)) text

example : fnmatch (py "keys/a.pem") (py "*.pem") = true ∧ fnmatch (py "b1") (py "[!a-c]?") = false := by decide

end Regex
end Py
end KineticSdk
