/-
  KineticSdk.Tool.Validation

  The JSON-Schema subset tool inputs are checked against
  (`tool/validation.py`).  A schema is the JSON value a tool declares; a
  keyword of an unexpected shape is read as absent.
-/

import Mathlib.Data.List.Lex
import Mathlib.Data.Nat.Basic
import Mathlib.Data.List.Sort
import KineticSdk.Tool.Base

namespace KineticSdk
namespace Tool

open Py

-- ============================================================================
-- Reading a schema
-- ============================================================================

/-- `schema.get(key)` of a schema that is a dictionary. -/
def keyword (schema : Json) (key : String) : Option Json :=
  match schema with
  | .obj kvs => Dict.get? kvs (py key)
  | _ => none

/-- `not isinstance(schema, dict) or not schema`. -/
def isEmptySchema : Json → Bool
  | .obj [] => true
  | .obj _ => false
  | _ => true

/-- `schema.get("properties") or {}`. -/
def properties (schema : Json) : Dict :=
  match keyword schema "properties" with
  | some (.obj kvs) => kvs
  | _ => []

/-- The texts under `required`. -/
def required (schema : Json) : List PyStr :=
  match keyword schema "required" with
  | some (.arr xs) => xs.filterMap fun
      | .str s => some s
      | _ => none
  | _ => []

/-- `_json_type`. -/
def jsonType : Json → PyStr
  | .null => py "null"
  | .bool _ => py "boolean"
  | .int _ => py "number"
  | .float _ => py "number"
  | .str _ => py "string"
  | .arr _ => py "array"
  | .obj _ => py "object"

/-- `_type_matches` for one type keyword; an unknown keyword rejects nothing. -/
def typeMatchesOne (value : Json) (expected : PyStr) : Bool :=
  if expected = py "string" then jsonType value = py "string"
  else if expected = py "boolean" then jsonType value = py "boolean"
  else if expected = py "integer" then
    match value with
    | .int _ => true
    | _ => false
  else if expected = py "number" then jsonType value = py "number"
  else if expected = py "array" then jsonType value = py "array"
  else if expected = py "object" then jsonType value = py "object"
  else if expected = py "null" then jsonType value = py "null"
  else true

/-- `_type_matches`. -/
def typeMatches (value : Json) : Json → Bool
  | .arr expected => expected.any fun
      | .str e => typeMatchesOne value e
      | _ => true
  | .str e => typeMatchesOne value e
  | _ => true

/-- `_describe`. -/
def describe : Json → PyStr
  | .arr expected => join (py " | ") (expected.map strOf)
  | expected => strOf expected

-- ============================================================================
-- Checking values
-- ============================================================================

mutual

/-- `_validate_value`. -/
def validateValue (schema : Json) (path : PyStr) (value : Json) : List PyStr :=
  if isEmptySchema schema then []
  else if (match keyword schema "enum" with
      | some (.arr xs) => !pyIn value xs
      | _ => false) then
    [path ++ py ": " ++ pyRepr value ++ py " not in enum "
      ++ pyRepr ((keyword schema "enum").getD .null)]
  else
    match keyword schema "type" with
    | none => []
    | some .null => []
    | some expected =>
        if !typeMatches value expected then
          [path ++ py ": expected " ++ describe expected ++ py ", got " ++ jsonType value]
        else
          match value with
          | .obj kvs =>
              if expected = .str (py "object") then
                ((required schema).filter fun req => (Dict.get? kvs req).isNone).map
                    (fun req => path ++ py "." ++ req ++ py ": missing required property")
                  ++ validateFields (properties schema)
                    (keyword schema "additionalProperties" = some (.bool false)) path kvs
              else []
          | .arr xs =>
              if expected = .str (py "array") then
                match keyword schema "items" with
                | some items => if isEmptySchema items then [] else validateItems items path 0 xs
                | none => []
              else []
          | _ => []

/-- The declared properties of a nested object; an undeclared one is a problem
    only where the schema closes the object. -/
def validateFields (props : Dict) (closed : Bool) (path : PyStr) : Dict → List PyStr
  | [] => []
  | (key, item) :: kvs =>
      (match Dict.get? props key with
        | some schema => validateValue schema (path ++ py "." ++ key) item
        | none => if closed then [path ++ py "." ++ key ++ py ": unexpected property"] else [])
        ++ validateFields props closed path kvs

/-- The elements of an array. -/
def validateItems (items : Json) (path : PyStr) (i : Nat) : List Json → List PyStr
  | [] => []
  | x :: xs =>
      validateValue items (path ++ py "[" ++ natText i ++ py "]") x
        ++ validateItems items path (i + 1) xs

end

section
-- its equations are made once, before the proofs below
attribute [local simp] validateValue
end

/-- One argument of a call against the declared properties: undeclared ones
    are rejected as soon as anything is declared. -/
def validateParam (props : Dict) (additional : Option Json) (key : PyStr) (value : Json) :
    List PyStr :=
  match Dict.get? props key with
  | some schema => validateValue schema key value
  | none =>
      if !props.isEmpty && additional != some (.bool true) then
        [py "unexpected parameter " ++ pyReprStr key ++ py " (declared: "
          ++ pyRepr (.arr (((props.map fun kv => kv.1).insertionSort (· ≤ ·)).map .str)) ++ py ")"]
      else []

/-- `validate_tool_input`. -/
def validateToolInput (schema : Json) (params : Json) : List PyStr :=
  if isEmptySchema schema then []
  else if (keyword schema "type").getD (.str (py "object")) ≠ .str (py "object") then []
  else
    match params with
    | .obj kvs =>
        ((required schema).filter fun name => (Dict.get? kvs name).isNone).map
            (fun name => py "missing required parameter " ++ pyReprStr name)
          ++ kvs.flatMap fun kv =>
            validateParam (properties schema) (keyword schema "additionalProperties") kv.1 kv.2
    | _ => [py "expected an object of arguments, got " ++ jsonType params]

/-- A schema whose root describes an object. -/
def objectRoot (schema : Json) : Bool :=
  !isEmptySchema schema
    && (keyword schema "type").getD (.str (py "object")) = .str (py "object")

/-- Under an object schema only objects pass. -/
theorem isObj_of_validateToolInput {schema params : Json} (hroot : objectRoot schema = true)
    (h : validateToolInput schema params = []) : params.isObj = true := by
  simp only [objectRoot, Bool.and_eq_true, Bool.not_eq_true', decide_eq_true_eq] at hroot
  unfold validateToolInput at h
  rw [if_neg (by simp [hroot.1]), if_neg (by simp [hroot.2])] at h
  cases params with
  | obj kvs => rfl
  | _ => simp at h

example : validateToolInput
    (.obj [(py "type", .str (py "object")),
      (py "properties", .obj [(py "n", .obj [(py "type", .str (py "integer"))])]),
      (py "required", .arr [.str (py "n")])])
    (.obj [(py "n", .bool true), (py "x", .null)])
    = [py "n: expected integer, got boolean",
       py "unexpected parameter 'x' (declared: ['n'])"] := by decide +kernel

end Tool
end KineticSdk
