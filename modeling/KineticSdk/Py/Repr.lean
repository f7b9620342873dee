/-
  KineticSdk.Py.Repr

  `repr` and `==` of JSON values, and `dict(v)` for a value that need not be a
  dictionary.
-/

import KineticSdk.Py.JsonText
import KineticSdk.Py.Str
import Mathlib.Algebra.Group.Nat.Defs

namespace KineticSdk
namespace Py

-- ============================================================================
-- repr
-- ============================================================================

/-- The lower-case hexadecimal text of `n`, padded to `width` digits. -/
def hexText : Nat → Nat → PyStr
  | 0, _ => []
  | width + 1, n => hexText width (n / 16) ++ [hexDigit (n % 16)]

/-- One character of a string's `repr` under the chosen quote. -/
def reprChar (quote c : Nat) : PyStr :=
  if c = quote || c = 92 then [92, c]
  else if c = 9 then py "\\t"
  else if c = 10 then py "\\n"
  else if c = 13 then py "\\r"
  else if isPrintable c then [c]
  else if c < 0x100 then py "\\x" ++ hexText 2 c
  else if c < 0x10000 then py "\\u" ++ hexText 4 c
  else py "\\U" ++ hexText 8 c

/-- `repr(s)`: double quotes only for a text with single quotes and no double ones. -/
def pyReprStr (s : PyStr) : PyStr :=
  let quote := if s.contains 39 && !s.contains 34 then 34 else 39
  quote :: s.flatMap (reprChar quote) ++ [quote]

theorem encodable_append (s t : PyStr) : encodable (s ++ t) = (encodable s && encodable t) := List.all_append ..

theorem encodable_hexText (width n : Nat) : encodable (hexText width n) = true := by
  induction width generalizing n with
  | zero => rfl
  | succ width ih =>
      have hdigit : hexDigit (n % 16) < 0xD800 := by
        have hmod := Nat.mod_lt n (by decide : 0 < 16)
        unfold hexDigit
        split_ifs <;> omega
      rw [hexText, encodable_append, ih]
      simp only [encodable, List.all_cons, List.all_nil, Bool.true_and, Bool.and_true, Bool.not_eq_true',
        Bool.and_eq_false_iff, decide_eq_false_iff_not]
      omega

theorem encodable_reprChar {quote : Nat} (hquote : quote < 0xD800) (c : Nat) :
    encodable (reprChar quote c) = true := by
  unfold reprChar
  split_ifs with h1 h2 h3 h4 hprint h5 h6
  · simp only [Bool.or_eq_true, decide_eq_true_eq] at h1
    simp only [encodable, List.all_cons, List.all_nil, Bool.and_true, Bool.and_eq_true, Bool.not_eq_true',
      Bool.and_eq_false_iff, decide_eq_false_iff_not]
    omega
  · rfl
  · rfl
  · rfl
  · have hc := not_surrogate_of_isPrintable hprint
    simp only [encodable, List.all_cons, List.all_nil, Bool.and_true, Bool.not_eq_true', Bool.and_eq_false_iff,
      decide_eq_false_iff_not]
    omega
  · rw [encodable_append, encodable_hexText]
    rfl
  · rw [encodable_append, encodable_hexText]
    rfl
  · rw [encodable_append, encodable_hexText]
    rfl

/-- `repr` of a text can be encoded. -/
theorem encodable_pyReprStr (s : PyStr) : encodable (pyReprStr s) = true := by
  have hgo : ∀ quote < 0xD800, encodable (quote :: s.flatMap (reprChar quote) ++ [quote]) = true := by
    intro quote hquote
    have hend : encodable [quote] = true := by
      simp only [encodable, List.all_cons, List.all_nil, Bool.and_true, Bool.not_eq_true', Bool.and_eq_false_iff,
        decide_eq_false_iff_not]
      omega
    have hbody : encodable (s.flatMap (reprChar quote)) = true := by
      unfold encodable
      rw [List.all_flatMap]
      exact List.all_eq_true.mpr fun c _ => encodable_reprChar hquote c
    have hsplit : quote :: s.flatMap (reprChar quote) ++ [quote]
        = [quote] ++ s.flatMap (reprChar quote) ++ [quote] := rfl
    rw [hsplit, encodable_append, encodable_append, hend, hbody]
    rfl
  unfold pyReprStr
  dsimp only
  split_ifs
  · exact hgo 34 (by decide)
  · exact hgo 39 (by decide)

mutual

/-- `repr(v)`. -/
def pyRepr : Json → PyStr
  | .null => py "None"
  | .bool true => py "True"
  | .bool false => py "False"
  | .int n => intText n
  | .float r => r
  | .str s => pyReprStr s
  | .arr xs => py "[" ++ pyReprList xs ++ py "]"
  | .obj kvs => py "\x7b" ++ pyReprFields kvs ++ py "\x7d"

/-- The elements of a list, separated. -/
def pyReprList : List Json → PyStr
  | [] => []
  | [x] => pyRepr x
  | x :: xs => pyRepr x ++ py ", " ++ pyReprList xs

/-- The items of a dict, separated. -/
def pyReprFields : Dict → PyStr
  | [] => []
  | [(k, v)] => pyReprStr k ++ py ": " ++ pyRepr v
  | (k, v) :: kvs => pyReprStr k ++ py ": " ++ pyRepr v ++ py ", " ++ pyReprFields kvs

end

section
-- its equations are made once, before the proofs below
attribute [local simp] pyRepr
end

/-- `str(v)`. -/
def strOf : Json → PyStr
  | .str s => s
  | v => pyRepr v

example : pyRepr (.obj [(py "it's", .arr [.bool true, .str (py "a\nb")])])
    = py "\x7b\"it's\": [True, 'a\\nb']\x7d" := by decide +kernel

-- ============================================================================
-- Equality
-- ============================================================================

/-- The double next to a natural number, in a tie the even one. -/
def roundDouble (n : Nat) : Nat :=
  let unit := 2 ^ (n.log2 - 52)
  if unit < 2 * (n % unit) || (unit == 2 * (n % unit) && n / unit % 2 == 1) then
    (n / unit + 1) * unit
  else n / unit * unit

/-- The integer that a `repr` without sign and with a positive exponent stands for. -/
def scientific (mantissa exponent : PyStr) : Nat :=
  let fraction := (mantissa.dropWhile (· != 46)).drop 1
  roundDouble (digitsValue (mantissa.takeWhile (· != 46) ++ fraction)
    * 10 ^ (digitsValue exponent - fraction.length))

/-- A number as an integer, when it is one: booleans count, a float whose `repr`
    ends in `.0` equals the integer in front, and one whose `repr` has a
    positive exponent is too large for a fraction. -/
def integral : Json → Option PyStr
  | .bool b => some (if b then py "1" else py "0")
  | .int n => some (intText n)
  | .float r =>
      if r = py "-0.0" then some (py "0")
      else if startsWith (py "0.") r.reverse then some (r.take (r.length - 2))
      else
        match r.dropWhile (· != 101) with
        | 101 :: 43 :: exponent =>
            match r.takeWhile (· != 101) with
            | 45 :: mantissa => some (py "-" ++ natText (scientific mantissa exponent))
            | mantissa => some (natText (scientific mantissa exponent))
        | _ => none
  | _ => none

mutual

/-- `a == b`: numbers compare by value, dictionaries without regard to order. -/
def pyEq : Json → Json → Bool
  | .null, .null => true
  | .str a, .str b => a == b
  | .arr xs, .arr ys => pyEqList xs ys
  | .obj kvs, .obj kws => kvs.length == kws.length && pyEqFields kvs kws
  | .float a, .float b => a != py "nan" && (a == b || (integral (.float a)).any
      fun t => integral (.float b) == some t)
  | a, b => (integral a).any fun t => integral b == some t

/-- Elementwise equality of two lists. -/
def pyEqList : List Json → List Json → Bool
  | [], [] => true
  | x :: xs, y :: ys => pyEq x y && pyEqList xs ys
  | _, _ => false

/-- Every item of the first dict is in the second. -/
def pyEqFields : Dict → Dict → Bool
  | [], _ => true
  | (k, v) :: kvs, kws =>
      (match Dict.get? kws k with
        | some w => pyEq v w
        | none => false) && pyEqFields kvs kws

end

section
-- its equations are made once, before the proofs below
attribute [local simp] pyEq
end

/-- `v in xs`. -/
def pyIn (v : Json) (xs : List Json) : Bool := xs.any (pyEq v)

-- the double next to 1e23 is smaller
example : pyIn (.float (py "1e+16")) [.int 10000000000000000] = true ∧
    pyEq (.float (py "1e+23")) (.int 100000000000000000000000) = false ∧
    pyEq (.float (py "1e+23")) (.int 99999999999999991611392) = true := by decide +kernel

-- ============================================================================
-- dict(v)
-- ============================================================================

/-- An exception of the source language: its class and its message. -/
structure PyExc where
  type : PyStr
  message : PyStr
deriving DecidableEq

/-- `f"{type(exc).__name__}: {exc}"`. -/
def PyExc.text (e : PyExc) : PyStr := e.type ++ py ": " ++ e.message

/-- `type(v).__name__`. -/
def typeName : Json → PyStr
  | .null => py "NoneType"
  | .bool _ => py "bool"
  | .int _ => py "int"
  | .float _ => py "float"
  | .str _ => py "str"
  | .arr _ => py "list"
  | .obj _ => py "dict"

/-- `list(v)`: the values iteration gives. -/
def elements : Json → Option (List Json)
  | .str s => some (s.map fun c => .str [c])
  | .arr xs => some xs
  | .obj kvs => some (kvs.map fun kv => .str kv.1)
  | _ => none

/-- A value that can be a key. -/
def hashable : Json → Bool
  | .arr _ => false
  | .obj _ => false
  | _ => true

/-- One element of the sequence given to `dict`, as a key and a value. -/
def pairOf (i : Nat) (x : Json) : Except PyExc (Json × Json) :=
  match elements x with
  | none => .error ⟨py "TypeError", py "cannot convert dictionary update sequence element #"
      ++ natText i ++ py " to a sequence"⟩
  | some [k, v] =>
      if hashable k then .ok (k, v)
      else .error ⟨py "TypeError", py "unhashable type: '" ++ typeName k ++ py "'"⟩
  | some xs => .error ⟨py "ValueError", py "dictionary update sequence element #" ++ natText i
      ++ py " has length " ++ natText xs.length ++ py "; 2 is required"⟩

/-- The pairs of a sequence given to `dict`. -/
def pairsOf (i : Nat) : List Json → Except PyExc (List (Json × Json))
  | [] => .ok []
  | x :: xs => do
      let kv ← pairOf i x
      let kvs ← pairsOf (i + 1) xs
      pure (kv :: kvs)

/-- A dictionary key as `json.dumps` writes it. -/
def keyText : Json → PyStr
  | .str s => s
  | v => dumps true v

/-- The pairs as keyword arguments; only texts are keywords. -/
def kwargsOf : List (Json × Json) → Except PyExc Dict
  | [] => .ok []
  | (.str k, v) :: kvs => do
      let d ← kwargsOf kvs
      pure ((k, v) :: d)
  | _ :: _ => .error ⟨py "TypeError", py "keywords must be strings"⟩

/-- Inserting pairs one after the other. -/
def Dict.ofPairs (kvs : List (PyStr × Json)) : Dict :=
  kvs.foldl (fun d kv => Dict.set d kv.1 kv.2) []

/-- The pairs `dict(v)` is built from, when `v` is not a dictionary. -/
def dictPairs (v : Json) : Except PyExc (List (Json × Json)) :=
  match elements v with
  | none => .error ⟨py "TypeError", py "'" ++ typeName v ++ py "' object is not iterable"⟩
  | some xs => pairsOf 0 xs

/-- `dict(v)`, with its keys as JSON writes them. -/
def toDict (v : Json) : Except PyExc Dict :=
  match v with
  | .obj kvs => .ok kvs
  | v => do
      let kvs ← dictPairs v
      pure (Dict.ofPairs (kvs.map fun kv => (keyText kv.1, kv.2)))

/-- `f(**dict(v))`: the keyword arguments, when they are any. -/
def toKwargs (v : Json) : Except PyExc Dict :=
  match v with
  | .obj kvs => .ok kvs
  | v => do
      let kvs ← dictPairs v
      let d ← kwargsOf kvs
      pure (Dict.ofPairs d)

@[simp] theorem toDict_obj (kvs : Dict) : toDict (.obj kvs) = .ok kvs := rfl

@[simp] theorem toKwargs_obj (kvs : Dict) : toKwargs (.obj kvs) = .ok kvs := rfl

-- a list of pairs is as good as a dictionary
example : toKwargs (.arr [.arr [.str (py "path"), .str (py "/etc")]])
    = .ok [(py "path", .str (py "/etc"))] := by decide +kernel

end Py
end KineticSdk
