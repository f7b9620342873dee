/-
  KineticSdk.Py.JsonParse

  `json.loads`, as two machines that read one symbol after the other: the first
  cuts a text into tokens, the second builds the value from them.

  A token that is no JSON ends the list of tokens, so the second machine meets
  the errors of a text in their order.  Besides its `JSONDecodeError` reading
  can fail on an integer with more digits than `int()` takes, and on nesting
  deeper than the interpreter's stack; both bounds are parameters.  What
  `repr(float(text))` is for the text of a number is a parameter, too.
-/

import KineticSdk.Py.JsonText

namespace KineticSdk
namespace Py

-- ============================================================================
-- Tokens
-- ============================================================================

/-- The parts a JSON text is made of. -/
inductive Token where
  | lbrack
  | rbrack
  | lbrace
  | rbrace
  | colon
  | comma
  | str (s : PyStr)
  /-- An integer part, and what follows it up to the end of the number. -/
  | number (neg : Bool) (digits tail : PyStr)
  | word (s : PyStr)
  /-- No JSON from here on. -/
  | bad
deriving DecidableEq

/-- An ASCII digit. -/
def isDigitChar (c : Nat) : Bool := 48 ≤ c && c ≤ 57

/-- A character that can stand in a number. -/
def isNumberChar (c : Nat) : Bool :=
  isDigitChar c || c == 43 || c == 45 || c == 46 || c == 69 || c == 101

/-- An ASCII letter. -/
def isLetter (c : Nat) : Bool := (65 ≤ c && c ≤ 90) || (97 ≤ c && c ≤ 122)

/-- JSON white space. -/
def isJsonSpace (c : Nat) : Bool := c == 32 || c == 9 || c == 10 || c == 13

/-- The integer part of a number, and what is left. -/
def scanInt (s : PyStr) : Option (PyStr × PyStr) :=
  match s with
  | 48 :: rest => some ([48], rest)
  | s => if s.takeWhile isDigitChar = [] then none
      else some (s.takeWhile isDigitChar, s.dropWhile isDigitChar)

/-- `(\.\d+)?`, and what is left. -/
def scanFrac (s : PyStr) : PyStr × PyStr :=
  match s with
  | 46 :: rest => if rest.takeWhile isDigitChar = [] then ([], 46 :: rest)
      else (46 :: rest.takeWhile isDigitChar, rest.dropWhile isDigitChar)
  | s => ([], s)

/-- An optional sign. -/
def scanSign (s : PyStr) : PyStr × PyStr :=
  match s with
  | 43 :: rest => ([43], rest)
  | 45 :: rest => ([45], rest)
  | s => ([], s)

/-- `([eE][-+]?\d+)?`, and what is left. -/
def scanExp (s : PyStr) : PyStr × PyStr :=
  match s with
  | e :: rest =>
      if (e = 69 || e = 101) && !((scanSign rest).2.takeWhile isDigitChar).isEmpty then
        (e :: (scanSign rest).1 ++ (scanSign rest).2.takeWhile isDigitChar,
          (scanSign rest).2.dropWhile isDigitChar)
      else ([], e :: rest)
  | [] => ([], [])

/-- The longest number in front: its sign, its integer part and the rest of it,
    and what is left. -/
def scanNumber (s : PyStr) : Option (Bool × PyStr × PyStr × PyStr) :=
  let (neg, s) := match s with
    | 45 :: rest => (true, rest)
    | s => (false, s)
  (scanInt s).map fun (digits, rest) =>
    (neg, digits, (scanFrac rest).1 ++ (scanExp (scanFrac rest).2).1, (scanExp (scanFrac rest).2).2)

/-- The tokens of a run of number characters. -/
def numberTokens (s : PyStr) : List Token :=
  match scanNumber s with
  | none => [.bad]
  | some (neg, digits, tail, []) => [.number neg digits tail]
  | some (neg, digits, tail, _ :: _) => [.number neg digits tail, .bad]

-- ============================================================================
-- Strings
-- ============================================================================

/-- The first half of a surrogate pair. -/
def isHighSurrogate (c : Nat) : Bool := 0xD800 ≤ c && c ≤ 0xDBFF

/-- The second half of a surrogate pair. -/
def isLowSurrogate (c : Nat) : Bool := 0xDC00 ≤ c && c ≤ 0xDFFF

/-- The characters of a string literal, with those written `\uXXXX` marked: two
    of them that are the halves of a surrogate pair are one character. -/
def joinPairs : List (Bool × Nat) → PyStr
  | (true, h) :: (true, l) :: rest =>
      if isHighSurrogate h && isLowSurrogate l then
        (0x10000 + (h - 0xD800) * 1024 + (l - 0xDC00)) :: joinPairs rest
      else h :: joinPairs ((true, l) :: rest)
  | (_, c) :: rest => c :: joinPairs rest
  | [] => []

/-- The value of a hexadecimal digit. -/
def hexValue (c : Nat) : Option Nat :=
  if 48 ≤ c && c ≤ 57 then some (c - 48)
  else if 97 ≤ c && c ≤ 102 then some (c - 87)
  else if 65 ≤ c && c ≤ 70 then some (c - 55)
  else none

/-- The character after a backslash, for the escapes of one character. -/
def shortEscape (c : Nat) : Option Nat :=
  if c = 34 then some 34
  else if c = 92 then some 92
  else if c = 47 then some 47
  else if c = 98 then some 8
  else if c = 102 then some 12
  else if c = 110 then some 10
  else if c = 114 then some 13
  else if c = 116 then some 9
  else none

-- ============================================================================
-- The tokens of a text
-- ============================================================================

/-- Inside which token the next character stands. -/
inductive Lexer where
  | between
  | number (text : PyStr)
  | word (text : PyStr)
  | string (units : List (Bool × Nat))
  | escape (units : List (Bool × Nat))
  | unicode (units : List (Bool × Nat)) (value digits : Nat)
  | dead

/-- A character between tokens. -/
def Lexer.start (c : Nat) : List Token × Lexer :=
  if isJsonSpace c then ([], .between)
  else if c = 91 then ([.lbrack], .between)
  else if c = 93 then ([.rbrack], .between)
  else if c = 123 then ([.lbrace], .between)
  else if c = 125 then ([.rbrace], .between)
  else if c = 58 then ([.colon], .between)
  else if c = 44 then ([.comma], .between)
  else if c = 34 then ([], .string [])
  else if isDigitChar c || c = 45 then ([], .number [c])
  else if isLetter c then ([], .word [c])
  else ([.bad], .dead)

/-- The tokens that begin before a character, and where it stands after it. -/
def Lexer.step (st : Lexer) (c : Nat) : List Token × Lexer :=
  match st with
  | .between => Lexer.start c
  | .number text =>
      if isNumberChar c then ([], .number (text ++ [c]))
      else if text = [45] && isLetter c then ([], .word (text ++ [c]))
      else (numberTokens text ++ (Lexer.start c).1, (Lexer.start c).2)
  | .word text =>
      if isLetter c then ([], .word (text ++ [c]))
      else (.word text :: (Lexer.start c).1, (Lexer.start c).2)
  | .string units =>
      if c = 34 then ([.str (joinPairs units)], .between)
      else if c = 92 then ([], .escape units)
      else if c < 32 then ([.bad], .dead)
      else ([], .string (units ++ [(false, c)]))
  | .escape units =>
      if c = 117 then ([], .unicode units 0 0)
      else
        match shortEscape c with
        | some d => ([], .string (units ++ [(false, d)]))
        | none => ([.bad], .dead)
  | .unicode units value digits =>
      match hexValue c with
      | none => ([.bad], .dead)
      | some d =>
          if digits = 3 then ([], .string (units ++ [(true, value * 16 + d)]))
          else ([], .unicode units (value * 16 + d) (digits + 1))
  | .dead => ([], .dead)

/-- The tokens that end with the text. -/
def Lexer.finish : Lexer → List Token
  | .between | .dead => []
  | .number text => numberTokens text
  | .word text => [.word text]
  | .string _ | .escape _ | .unicode .. => [.bad]

/-- The tokens of a text. -/
def lexFrom : Lexer → PyStr → List Token
  | st, [] => st.finish
  | st, c :: cs => (st.step c).1 ++ lexFrom (st.step c).2 cs

-- ============================================================================
-- Values
-- ============================================================================

/-- How reading a text fails. -/
inductive LoadsError where
  /-- `JSONDecodeError`. -/
  | decode
  /-- `ValueError`: more digits than `int()` takes. -/
  | digits
  /-- `RecursionError`. -/
  | depth
deriving DecidableEq

/-- The interpreter's bounds, if it has any. -/
structure Limits where
  digits : Option Nat := none
  depth : Option Nat := none

/-- `repr(float(text))` for the text of a number. -/
abbrev FloatRepr := PyStr → PyStr

/-- The value of a number token. -/
def numberValue (lim : Limits) (fl : FloatRepr) (neg : Bool) (digits tail : PyStr) :
    Except LoadsError Json :=
  if tail = [] then
    if lim.digits.any (· < digits.length) then .error .digits
    else .ok (.int (if neg then -(digitsValue digits : Int) else digitsValue digits))
  else .ok (.float (fl ((if neg then [45] else []) ++ digits ++ tail)))

/-- The value of a word. -/
def wordValue (s : PyStr) : Except LoadsError Json :=
  if s = py "null" then .ok .null
  else if s = py "true" then .ok (.bool true)
  else if s = py "false" then .ok (.bool false)
  else if s = py "NaN" then .ok (.float (py "nan"))
  else if s = py "Infinity" then .ok (.float (py "inf"))
  else if s = py "-Infinity" then .ok (.float (py "-inf"))
  else .error .decode

/-- An open array or object, with what has been read of it. -/
inductive Open where
  | elements (xs : List Json)
  | members (kvs : Dict)
  /-- An object whose next member has its key. -/
  | member (kvs : Dict) (key : PyStr)

/-- What may come next. -/
inductive Want where
  | value
  /-- A value, or the end of the array just opened. -/
  | firstValue
  /-- A key, or the end of the object just opened. -/
  | firstKey
  | key
  | colon
  /-- A comma or the end of the innermost array or object. -/
  | more
  | done (v : Json)

/-- The open arrays and objects, innermost first, and what may come next. -/
structure Reader where
  stack : List Open := []
  want : Want := .value

/-- A value is complete. -/
def Reader.complete (stack : List Open) (v : Json) : Reader :=
  match stack with
  | [] => ⟨[], .done v⟩
  | .elements xs :: stack => ⟨.elements (xs ++ [v]) :: stack, .more⟩
  | .member kvs key :: stack => ⟨.members (Dict.set kvs key v) :: stack, .more⟩
  | .members kvs :: stack => ⟨.members kvs :: stack, .more⟩

/-- An array or object is opened. -/
def Reader.push (lim : Limits) (stack : List Open) (o : Open) (want : Want) :
    Except LoadsError Reader :=
  if lim.depth.any (· ≤ stack.length) then .error .depth else .ok ⟨o :: stack, want⟩

/-- The first token of a value. -/
def Reader.beginValue (lim : Limits) (fl : FloatRepr) (stack : List Open) :
    Token → Except LoadsError Reader
  | .str s => .ok (Reader.complete stack (.str s))
  | .number neg digits tail => (numberValue lim fl neg digits tail).map (Reader.complete stack)
  | .word s => (wordValue s).map (Reader.complete stack)
  | .lbrack => Reader.push lim stack (.elements []) .firstValue
  | .lbrace => Reader.push lim stack (.members []) .firstKey
  | _ => .error .decode

/-- A token of an object where a key may stand. -/
def Reader.key (stack : List Open) : Token → Except LoadsError Reader
  | .str s =>
      match stack with
      | .members kvs :: stack => .ok ⟨.member kvs s :: stack, .colon⟩
      | _ => .error .decode
  | _ => .error .decode

/-- A token after a value. -/
def Reader.afterValue (stack : List Open) : Token → Except LoadsError Reader
  | .comma =>
      match stack with
      | .elements _ :: _ => .ok ⟨stack, .value⟩
      | .members _ :: _ => .ok ⟨stack, .key⟩
      | _ => .error .decode
  | .rbrack =>
      match stack with
      | .elements xs :: stack => .ok (Reader.complete stack (.arr xs))
      | _ => .error .decode
  | .rbrace =>
      match stack with
      | .members kvs :: stack => .ok (Reader.complete stack (.obj kvs))
      | _ => .error .decode
  | _ => .error .decode

/-- One token. -/
def Reader.step (lim : Limits) (fl : FloatRepr) (r : Reader) (t : Token) :
    Except LoadsError Reader :=
  match r.want with
  | .value => Reader.beginValue lim fl r.stack t
  | .firstValue =>
      if t = .rbrack then Reader.afterValue r.stack t else Reader.beginValue lim fl r.stack t
  | .firstKey => if t = .rbrace then Reader.afterValue r.stack t else Reader.key r.stack t
  | .key => Reader.key r.stack t
  | .colon => if t = .colon then .ok ⟨r.stack, .value⟩ else .error .decode
  | .more => Reader.afterValue r.stack t
  | .done _ => .error .decode

/-- The end of the text. -/
def Reader.finish (r : Reader) : Except LoadsError Json :=
  match r.want with
  | .done v => .ok v
  | _ => .error .decode

/-- The value of the tokens, read from where the reader stands. -/
def readTokens (lim : Limits) (fl : FloatRepr) (r : Reader) (ts : List Token) :
    Except LoadsError Json := do
  (← ts.foldlM (Reader.step lim fl) r).finish

/-- `json.loads`. -/
def loads (lim : Limits) (fl : FloatRepr) (s : PyStr) : Except LoadsError Json :=
  readTokens lim fl {} (lexFrom .between s)

example : loads {} id (py " \x7b\"a\": [1, -2.5, \"\\ud83d\\ude00\\n\"], \"b\": null, \"a\": true\x7d") =
    .ok (.obj [(py "a", .bool true), (py "b", .null)]) := by
  decide +kernel

example : loads { digits := some 3 } id (py "[1234, oops") = .error .digits := by decide +kernel

end Py
end KineticSdk
