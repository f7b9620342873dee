/-
  KineticSdk.Py.Search

  Substrings: `str.count`, `str.replace` and `str.expandtabs`.

  A match is followed by characters to skip, so that both searches are one pass
  over the text.
-/

import KineticSdk.Py.Str

namespace KineticSdk
namespace Py

/-- The matches of a non-empty needle, `skip` characters from here. -/
def countFrom (needle : PyStr) (skip : Nat) : PyStr → Nat
  | [] => 0
  | c :: cs =>
      match skip with
      | skip + 1 => countFrom needle skip cs
      | 0 =>
          if startsWith needle (c :: cs) then 1 + countFrom needle (needle.length - 1) cs
          else countFrom needle 0 cs

/-- `text.count(needle)`. -/
def count (needle text : PyStr) : Nat :=
  if needle = [] then text.length + 1 else countFrom needle 0 text

/-- At most `n` matches of a non-empty needle replaced, `skip` characters from
    here. -/
def replaceFrom (needle new : PyStr) (n skip : Nat) : PyStr → PyStr
  | [] => []
  | c :: cs =>
      match skip with
      | skip + 1 => replaceFrom needle new n skip cs
      | 0 =>
          if n = 0 then c :: cs
          else if startsWith needle (c :: cs) then
            new ++ replaceFrom needle new (n - 1) (needle.length - 1) cs
          else c :: replaceFrom needle new n 0 cs

/-- The text put before each of the first `n` characters, and at the end. -/
def replaceEmpty (new : PyStr) (n : Nat) : PyStr → PyStr
  | [] => if n = 0 then [] else new
  | c :: cs => if n = 0 then c :: cs else new ++ c :: replaceEmpty new (n - 1) cs

/-- `text.replace(needle, new, n)`. -/
def replace (needle new : PyStr) (n : Nat) (text : PyStr) : PyStr :=
  if needle = [] then replaceEmpty new n text else replaceFrom needle new n 0 text

/-- `text.replace(needle, new)`. -/
def replaceAll (needle new text : PyStr) : PyStr := replace needle new (text.length + 1) text

/-- `text.expandtabs(size)`, from this column. -/
def expandtabsFrom (size col : Nat) : PyStr → PyStr
  | [] => []
  | c :: cs =>
      if c = 9 then
        List.replicate (size - col % size) 32 ++ expandtabsFrom size (col + (size - col % size)) cs
      else if c = 10 || c = 13 then c :: expandtabsFrom size 0 cs
      else c :: expandtabsFrom size (col + 1) cs

/-- `text.expandtabs(size)`. -/
def expandtabs (size : Nat) (text : PyStr) : PyStr := expandtabsFrom size 0 text

example : count (py "aa") (py "aaaaa") = 2 ∧ count [] (py "ab") = 3
    ∧ replace (py "aa") (py "b") 1 (py "aaaaa") = py "baaa"
    ∧ replace [] (py "-") 2 (py "ab") = py "-a-b"
    ∧ expandtabs 4 (py "a\tb") = py "a   b" := by decide

end Py
end KineticSdk
