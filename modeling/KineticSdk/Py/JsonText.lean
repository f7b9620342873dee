/-
  KineticSdk.Py.JsonText

  `json.dumps` for JSON values: the default separators and the two settings of
  `ensure_ascii` the library uses.
-/

import KineticSdk.Py.Json

namespace KineticSdk
namespace Py

/-- The decimal text of a natural number. -/
def natText (n : Nat) : PyStr := (Nat.toDigits 10 n).map Char.toNat

/-- The number that digits denote. -/
def digitsValue (ds : PyStr) : Nat := ds.foldl (fun n d => 10 * n + (d - 48)) 0

/-- `str(n)` for an integer. -/
def intText : Int → PyStr
  | .ofNat n => natText n
  | .negSucc n => py "-" ++ natText (n + 1)

/-- One lower-case hexadecimal digit. -/
def hexDigit (n : Nat) : Nat := if n < 10 then 48 + n else 87 + n

/-- The escape `\uXXXX` of a 16-bit unit. -/
def uEscape (n : Nat) : PyStr :=
  py "\\u" ++ [hexDigit (n / 4096 % 16), hexDigit (n / 256 % 16), hexDigit (n / 16 % 16),
    hexDigit (n % 16)]

/-- One character of a JSON string literal. -/
def escapeChar (ensureAscii : Bool) (c : Nat) : PyStr :=
  if c = 34 then py "\\\""
  else if c = 92 then py "\\\\"
  else if c = 10 then py "\\n"
  else if c = 13 then py "\\r"
  else if c = 9 then py "\\t"
  else if c = 12 then py "\\f"
  else if c = 8 then py "\\b"
  else if c < 32 then uEscape c
  else if ensureAscii && 127 ≤ c then
    if c < 0x10000 then uEscape c
    else uEscape (0xD800 + (c - 0x10000) / 1024) ++ uEscape (0xDC00 + (c - 0x10000) % 1024)
  else [c]

/-- A JSON string literal. -/
def dumpsStr (ensureAscii : Bool) (s : PyStr) : PyStr :=
  py "\"" ++ s.flatMap (escapeChar ensureAscii) ++ py "\""

/-- A float as JSON prints it. -/
def dumpsFloat (r : PyStr) : PyStr :=
  if r = py "nan" then py "NaN"
  else if r = py "inf" then py "Infinity"
  else if r = py "-inf" then py "-Infinity"
  else r

mutual

/-- `json.dumps(v, ensure_ascii=...)`. -/
def dumps (ensureAscii : Bool) : Json → PyStr
  | .null => py "null"
  | .bool true => py "true"
  | .bool false => py "false"
  | .int n => intText n
  | .float r => dumpsFloat r
  | .str s => dumpsStr ensureAscii s
  | .arr xs => py "[" ++ dumpsList ensureAscii xs ++ py "]"
  | .obj kvs => py "\x7b" ++ dumpsFields ensureAscii kvs ++ py "\x7d"

/-- The elements of an array, separated. -/
def dumpsList (ensureAscii : Bool) : List Json → PyStr
  | [] => []
  | [x] => dumps ensureAscii x
  | x :: xs => dumps ensureAscii x ++ py ", " ++ dumpsList ensureAscii xs

/-- The members of an object, separated. -/
def dumpsFields (ensureAscii : Bool) : Dict → PyStr
  | [] => []
  | [(k, v)] => dumpsStr ensureAscii k ++ py ": " ++ dumps ensureAscii v
  | (k, v) :: kvs =>
      dumpsStr ensureAscii k ++ py ": " ++ dumps ensureAscii v ++ py ", "
        ++ dumpsFields ensureAscii kvs

end

example : dumps false (.obj [(py "a", .arr [.int (-12), .null]), (py "b", .str (py "\"\n"))])
    = py "\x7b\"a\": [-12, null], \"b\": \"\\\"\\n\"\x7d" := by decide

end Py
end KineticSdk
