/-
  KineticSdk.Tool.Conformance

  What JSON Schema says of a value, and when `validate_value` says the same.

  `conforms` is the meaning of the keywords: each of them constrains the values
  of its kind, whatever the others say, a number with an integral value is an
  integer, and a boolean is no number.  The check goes a shorter way: it looks
  at the value itself, and from there into properties only under the type
  `object` and into items only under the type `array`.
-/

import KineticSdk.Tool.Validation

namespace KineticSdk
namespace Tool

open Py

-- ============================================================================
-- Equality of JSON values
-- ============================================================================

mutual

/-- Equality of JSON values: numbers by value, objects without regard to order,
    and booleans only equal to booleans. -/
def jsonEq : Json → Json → Bool
  | .bool a, .bool b => a == b
  | .bool _, _ => false
  | _, .bool _ => false
  | .arr xs, .arr ys => jsonEqList xs ys
  | .obj kvs, .obj kws => kvs.length == kws.length && jsonEqFields kvs kws
  | a, b => pyEq a b

/-- Elementwise equality of two arrays. -/
def jsonEqList : List Json → List Json → Bool
  | [], [] => true
  | x :: xs, y :: ys => jsonEq x y && jsonEqList xs ys
  | _, _ => false

/-- Every member of the first object is in the second. -/
def jsonEqFields : Dict → Dict → Bool
  | [], _ => true
  | (k, v) :: kvs, kws =>
      (match Dict.get? kws k with
        | some w => jsonEq v w
        | none => false) && jsonEqFields kvs kws

end

section
-- its equations are made once, before the proofs below
attribute [local simp] jsonEq
end

/-- The value is one of these. -/
def jsonIn (v : Json) (xs : List Json) : Bool := xs.any (jsonEq v)

mutual

/-- Python finds values equal that are. -/
theorem pyEq_of_jsonEq : (a b : Json) → jsonEq a b = true → pyEq a b = true
  | .null, b, h => by cases b <;> exact h
  | .int n, b, h => by cases b <;> first | exact h | cases h
  | .float r, b, h => by cases b <;> first | exact h | cases h
  | .str s, b, h => by cases b <;> exact h
  | .bool a, b, h => by
      cases b with
      | bool b =>
          have hab : a = b := by simpa [jsonEq] using h
          rw [hab]
          cases b <;> decide
      | _ => cases h
  | .arr xs, b, h => by
      cases b with
      | arr ys => exact pyEqList_of_jsonEqList xs ys h
      | bool b => cases h
      | _ => exact h
  | .obj kvs, b, h => by
      cases b with
      | obj kws =>
          have hand : (kvs.length == kws.length && jsonEqFields kvs kws) = true := h
          rw [Bool.and_eq_true] at hand
          show (kvs.length == kws.length && pyEqFields kvs kws) = true
          rw [Bool.and_eq_true]
          exact ⟨hand.1, pyEqFields_of_jsonEqFields kvs kws hand.2⟩
      | bool b => cases h
      | _ => exact h

theorem pyEqList_of_jsonEqList : (xs ys : List Json) → jsonEqList xs ys = true →
    pyEqList xs ys = true
  | [], [], _ => rfl
  | x :: xs, y :: ys, h => by
      have hand : (jsonEq x y && jsonEqList xs ys) = true := h
      rw [Bool.and_eq_true] at hand
      show (pyEq x y && pyEqList xs ys) = true
      rw [pyEq_of_jsonEq x y hand.1, pyEqList_of_jsonEqList xs ys hand.2]
      rfl
  | [], y :: ys, h => by cases h
  | x :: xs, [], h => by cases h

theorem pyEqFields_of_jsonEqFields : (kvs kws : Dict) → jsonEqFields kvs kws = true →
    pyEqFields kvs kws = true
  | [], _, _ => rfl
  | (k, v) :: kvs, kws, h => by
      unfold jsonEqFields at h
      unfold pyEqFields
      rw [Bool.and_eq_true] at h
      rw [pyEqFields_of_jsonEqFields kvs kws h.2, Bool.and_true]
      cases hget : Dict.get? kws k with
      | none =>
          rw [hget] at h
          exact h.1
      | some w =>
          rw [hget] at h
          exact pyEq_of_jsonEq v w h.1

end

theorem pyIn_of_jsonIn {v : Json} {xs : List Json} (h : jsonIn v xs = true) : pyIn v xs = true := by
  unfold jsonIn at h
  unfold pyIn
  obtain ⟨x, hx, heq⟩ := List.any_eq_true.mp h
  exact List.any_eq_true.mpr ⟨x, hx, pyEq_of_jsonEq v x heq⟩

-- ============================================================================
-- Conformance
-- ============================================================================

/-- The values under `enum`. -/
def enumMembers (schema : Json) : Option (List Json) :=
  match keyword schema "enum" with
  | some (.arr xs) => some xs
  | _ => none

/-- The type or the types a schema names. -/
def typeKeyword (schema : Json) : Option Json :=
  match keyword schema "type" with
  | some .null => none
  | expected => expected

/-- The schema of the items of an array. -/
def itemSchema (schema : Json) : Json := (keyword schema "items").getD .null

/-- The types of JSON Schema. -/
def typeNames : List PyStr :=
  [py "object", py "array", py "string", py "number", py "integer", py "boolean", py "null"]

/-- A number whose value is an integer. -/
def isInteger : Json → Bool
  | .int _ => true
  | .float r => (integral (.float r)).isSome
  | _ => false

/-- The value is of the type; what is no type constrains nothing. -/
def instanceOf (value : Json) (name : PyStr) : Bool :=
  !typeNames.contains name || jsonType value = name || (name = py "integer" && isInteger value)

/-- The value is of one of the types. -/
def instanceOfAny (value : Json) : Json → Bool
  | .arr names => names.any fun
      | .str name => instanceOf value name
      | _ => true
  | .str name => instanceOf value name
  | _ => true

mutual

/-- The value conforms to the schema. -/
def conforms (schema value : Json) : Bool :=
  (enumMembers schema).all (jsonIn value) && (typeKeyword schema).all (instanceOfAny value) &&
    match value with
    | .obj kvs =>
        (required schema).all (fun name => (Dict.get? kvs name).isSome)
          && conformsFields (properties schema) (keyword schema "additionalProperties") kvs
    | .arr xs => conformsItems (itemSchema schema) xs
    | _ => true

/-- The members of an object: what is not declared is subject to
    `additionalProperties`. -/
def conformsFields (props : Dict) (additional : Option Json) : Dict → Bool
  | [] => true
  | (key, item) :: kvs =>
      (match Dict.get? props key with
        | some schema => conforms schema item
        | none =>
            match additional with
            | some (.bool allowed) => allowed
            | some schema => conforms schema item
            | none => true)
        && conformsFields props additional kvs

/-- The elements of an array. -/
def conformsItems (items : Json) : List Json → Bool
  | [] => true
  | x :: xs => conforms items x && conformsItems items xs

end

section
-- its equations are made once, before the proofs below
attribute [local simp] conforms
end

/-- The keywords for objects and arrays. -/
def structural (schema : Json) : Json → Bool
  | .obj kvs =>
      (required schema).all (fun name => (Dict.get? kvs name).isSome)
        && conformsFields (properties schema) (keyword schema "additionalProperties") kvs
  | .arr xs => conformsItems (itemSchema schema) xs
  | _ => true

theorem conforms_eq (schema value : Json) :
    conforms schema value = ((enumMembers schema).all (jsonIn value) &&
      (typeKeyword schema).all (instanceOfAny value) && structural schema value) := by
  unfold conforms
  cases value <;> rfl

-- ============================================================================
-- What the check looks at
-- ============================================================================

mutual

/-- The check comes to a place of this kind: it goes from an object into its
    declared properties only under the type `object`, and from an array into its
    items only under the type `array`. -/
def reaches (kind : Json → Json → Bool) (schema value : Json) : Bool :=
  kind schema value ||
    match value with
    | .obj kvs =>
        decide (typeKeyword schema = some (.str (py "object")))
          && reachesFields kind (properties schema) kvs
    | .arr xs =>
        decide (typeKeyword schema = some (.str (py "array")))
          && reachesItems kind (itemSchema schema) xs
    | _ => false

/-- `reaches` in the members of an object. -/
def reachesFields (kind : Json → Json → Bool) (props : Dict) : Dict → Bool
  | [] => false
  | (key, item) :: kvs =>
      (match Dict.get? props key with
        | some schema => reaches kind schema item
        | none => false) || reachesFields kind props kvs

/-- `reaches` in the elements of an array. -/
def reachesItems (kind : Json → Json → Bool) (items : Json) : List Json → Bool
  | [] => false
  | x :: xs => reaches kind items x || reachesItems kind items xs

end

/-- The schema forbids members it does not declare. -/
def closed (schema : Json) : Bool := keyword schema "additionalProperties" = some (.bool false)

/-- A required member is missing, or one is there that the schema forbids. -/
def badMembers (schema : Json) : Json → Bool
  | .obj kvs =>
      decide (typeKeyword schema = some (.str (py "object"))) &&
        ((required schema).any (fun name => (Dict.get? kvs name).isNone) ||
          closed schema && kvs.any fun kv => (Dict.get? (properties schema) kv.1).isNone)
  | _ => false

/-- A violation the check notices: not even Python finds the value in the enum,
    it is of none of the types, or its members are not those of its schema. -/
def caughtAt (schema value : Json) : Bool :=
  (enumMembers schema).any (fun xs => !pyIn value xs)
    || (typeKeyword schema).any (fun expected => !instanceOfAny value expected)
    || badMembers schema value

/-- No violation, but the check finds one: an integral float where the schema
    has an integer. -/
def mistakenAt (schema value : Json) : Bool :=
  (typeKeyword schema).any fun expected =>
    instanceOfAny value expected && !typeMatches value expected

/-- The members that are not declared conform to a schema given for them. -/
def undeclaredConform (props : Dict) (additional : Option Json) (kvs : Dict) : Bool :=
  kvs.all fun kv =>
    match Dict.get? props kv.1, additional with
    | none, some (.bool _) => true
    | none, some schema => conforms schema kv.2
    | _, _ => true

/-- A violation the check does not notice: a value Python finds in the enum, as
    it does `True` in `[1]`; members or elements the check does not go into; or
    undeclared members under a schema of their own. -/
def overlookedAt (schema value : Json) : Bool :=
  (enumMembers schema).any (fun xs => pyIn value xs && !jsonIn value xs) ||
    match value with
    | .obj kvs =>
        if typeKeyword schema = some (.str (py "object")) then
          !undeclaredConform (properties schema) (keyword schema "additionalProperties") kvs
        else !structural schema (.obj kvs)
    | .arr xs =>
        !decide (typeKeyword schema = some (.str (py "array"))) && !structural schema (.arr xs)
    | _ => false

-- ============================================================================
-- Empty schemas
-- ============================================================================

theorem keyword_of_empty {schema : Json} (h : isEmptySchema schema = true) (key : String) :
    keyword schema key = none := by
  cases schema with
  | obj kvs =>
      cases kvs with
      | nil => rfl
      | cons kv kvs => simp [isEmptySchema] at h
  | _ => rfl

theorem enumMembers_of_empty {schema : Json} (h : isEmptySchema schema = true) :
    enumMembers schema = none := by
  simp only [enumMembers, keyword_of_empty h]

theorem typeKeyword_of_empty {schema : Json} (h : isEmptySchema schema = true) :
    typeKeyword schema = none := by
  simp only [typeKeyword, keyword_of_empty h]

theorem validateValue_of_empty {schema : Json} (h : isEmptySchema schema = true) (path : PyStr)
    (value : Json) : validateValue schema path value = [] := by
  unfold validateValue
  exact if_pos h

theorem validateItems_of_empty {items : Json} (h : isEmptySchema items = true) (path : PyStr) :
    ∀ (i : Nat) (xs : List Json), validateItems items path i xs = []
  | _, [] => rfl
  | i, x :: xs => by
      have hx := validateValue_of_empty h (path ++ py "[" ++ natText i ++ py "]") x
      have hxs := validateItems_of_empty h path (i + 1) xs
      simp only [validateItems, hx, hxs, List.append_nil]

-- ============================================================================
-- What the check objects to
-- ============================================================================

/-- The check finds something wrong at this place. -/
def objectedAt (schema value : Json) : Bool :=
  (enumMembers schema).any (fun xs => !pyIn value xs)
    || (typeKeyword schema).any (fun expected => !typeMatches value expected)
    || badMembers schema value

/-- A value not in the enum is reported. -/
theorem validateValue_of_enum {schema value : Json} (path : PyStr)
    (h : (enumMembers schema).any (fun xs => !pyIn value xs) = true) :
    validateValue schema path value ≠ [] := by
  have hempty : isEmptySchema schema ≠ true := by
    intro hempty
    rw [enumMembers_of_empty hempty] at h
    cases h
  unfold enumMembers at h
  unfold validateValue
  rw [if_neg hempty]
  cases hkey : keyword schema "enum" with
  | none =>
      rw [hkey] at h
      cases h
  | some members =>
      rw [hkey] at h
      cases members with
      | arr xs =>
          have hin : (!pyIn value xs) = true := h
          simp only [hin, if_true]
          exact List.cons_ne_nil _ _
      | _ => cases h

/-- The elements are checked whatever the schema of items: an empty one accepts
    them all. -/
theorem items_eq (schema : Json) (path : PyStr) (xs : List Json) :
    (match keyword schema "items" with
      | some items => if isEmptySchema items then [] else validateItems items path 0 xs
      | none => []) = validateItems (itemSchema schema) path 0 xs := by
  unfold itemSchema
  cases keyword schema "items" with
  | none => exact (validateItems_of_empty rfl path 0 xs).symm
  | some items =>
      by_cases hempty : isEmptySchema items = true
      · have hitems := validateItems_of_empty hempty path 0 xs
        simp only [hempty, if_true, Option.getD_some, hitems]
      · simp only [hempty, Option.getD_some]
        rfl

/-- What the check finds in a value of the enum: nothing without a type, else
    the wrong type or what is wrong under the type. -/
theorem validateValue_of_member {schema value : Json} (path : PyStr)
    (h : (enumMembers schema).any (fun xs => !pyIn value xs) = false) :
    validateValue schema path value = match typeKeyword schema with
      | none => []
      | some expected =>
          if !typeMatches value expected then
            [path ++ py ": expected " ++ describe expected ++ py ", got " ++ jsonType value]
          else
            match value with
            | .obj kvs =>
                if expected = .str (py "object") then
                  ((required schema).filter fun req => (Dict.get? kvs req).isNone).map
                      (fun req => path ++ py "." ++ req ++ py ": missing required property")
                    ++ validateFields (properties schema) (closed schema) path kvs
                else []
            | .arr xs =>
                if expected = .str (py "array") then validateItems (itemSchema schema) path 0 xs
                else []
            | _ => [] := by
  by_cases hempty : isEmptySchema schema = true
  · rw [validateValue_of_empty hempty, typeKeyword_of_empty hempty]
  have henum : (match keyword schema "enum" with
      | some (.arr xs) => !pyIn value xs
      | _ => false) = false := by
    unfold enumMembers at h
    cases hkey : keyword schema "enum" with
    | none => rfl
    | some members =>
        rw [hkey] at h
        cases members <;> exact h
  unfold validateValue typeKeyword
  rw [if_neg hempty]
  refine (if_neg (by rw [Bool.not_eq_true]; exact henum)).trans ?_
  cases hkey : keyword schema "type" with
  | none => rfl
  | some expected =>
      have hitems := items_eq schema path
      cases value with
      | arr xs =>
          have hxs := hitems xs
          cases expected <;> simp only [← hxs] <;> rfl
      | _ => cases expected <;> rfl

/-- One level of the check: the enum, the type, and what is under them. -/
theorem validateValue_nil_iff (schema : Json) (path : PyStr) (value : Json) :
    validateValue schema path value = [] ↔
      (enumMembers schema).any (fun xs => !pyIn value xs) = false ∧
      (typeKeyword schema).any (fun expected => !typeMatches value expected) = false ∧
      match value with
      | .obj kvs => typeKeyword schema = some (.str (py "object")) →
          (required schema).any (fun name => (Dict.get? kvs name).isNone) = false ∧
            validateFields (properties schema) (closed schema) path kvs = []
      | .arr xs => typeKeyword schema = some (.str (py "array")) →
          validateItems (itemSchema schema) path 0 xs = []
      | _ => True := by
  cases henum : (enumMembers schema).any (fun xs => !pyIn value xs) with
  | true =>
      have hne := validateValue_of_enum path henum
      simp [hne]
  | false =>
      rw [validateValue_of_member path henum]
      cases htype : typeKeyword schema with
      | none => cases value <;> simp
      | some expected =>
          cases hmatch : typeMatches value expected with
          | false => simp [hmatch]
          | true =>
              cases value with
              | obj kvs =>
                  by_cases hobj : expected = .str (py "object")
                  · subst hobj
                    simp [hmatch]
                  · simp [hobj, hmatch]
              | arr xs =>
                  by_cases harr : expected = .str (py "array")
                  · subst harr
                    simp [hmatch]
                  · simp [harr, hmatch]
              | _ => simp [hmatch]

/-- The check finds nothing in an object exactly when each declared member
    passes and, in a closed one, each member is declared. -/
theorem validateFields_cons_nil_iff (props : Dict) (shut : Bool) (path key : PyStr) (item : Json)
    (kvs : Dict) :
    validateFields props shut path ((key, item) :: kvs) = [] ↔
      (∀ schema, Dict.get? props key = some schema →
        validateValue schema (path ++ py "." ++ key) item = []) ∧
      (shut && (Dict.get? props key).isNone) = false ∧ validateFields props shut path kvs = [] := by
  simp only [validateFields, List.append_eq_nil_iff]
  cases Dict.get? props key with
  | none => cases shut <;> simp
  | some schema => simp

mutual

/-- The check finds nothing exactly when it comes to no place it objects to. -/
theorem validateValue_nil (schema : Json) (path : PyStr) : (value : Json) →
    (validateValue schema path value = [] ↔ reaches objectedAt schema value = false)
  | .null | .bool _ | .int _ | .float _ | .str _ => by
      rw [validateValue_nil_iff]
      simp [reaches, objectedAt, badMembers]
  | .arr xs => by
      have hitems := validateItems_nil (itemSchema schema) path 0 xs
      rw [validateValue_nil_iff, reaches]
      by_cases harr : typeKeyword schema = some (.str (py "array")) <;>
        simp [harr, hitems, objectedAt, badMembers, and_assoc]
  | .obj kvs => by
      have hfields := validateFields_nil (properties schema) (closed schema) path kvs
      rw [validateValue_nil_iff, reaches]
      by_cases hobj : typeKeyword schema = some (.str (py "object")) <;>
        simp [hobj, hfields, objectedAt, badMembers, and_assoc]

theorem validateFields_nil (props : Dict) (shut : Bool) (path : PyStr) : (kvs : Dict) →
    (validateFields props shut path kvs = [] ↔
      (shut && kvs.any fun kv => (Dict.get? props kv.1).isNone) = false
        ∧ reachesFields objectedAt props kvs = false)
  | [] => by simp [validateFields, reachesFields]
  | (key, item) :: kvs => by
      have hitem := fun schema => validateValue_nil schema (path ++ py "." ++ key) item
      have hkvs := validateFields_nil props shut path kvs
      rw [validateFields_cons_nil_iff, hkvs, reachesFields]
      cases hget : Dict.get? props key with
      | none => cases shut <;> simp [hget]
      | some schema =>
          have hschema := hitem schema
          simp only [Option.some.injEq, forall_eq', hschema, List.any_cons, hget,
            Option.isNone_some, Bool.false_or, Bool.and_false, Bool.or_eq_false_iff, true_and]
          exact and_left_comm

theorem validateItems_nil (items : Json) (path : PyStr) : (i : Nat) → (xs : List Json) →
    (validateItems items path i xs = [] ↔ reachesItems objectedAt items xs = false)
  | _, [] => by simp [validateItems, reachesItems]
  | i, x :: xs => by
      have hx := validateValue_nil items (path ++ py "[" ++ natText i ++ py "]") x
      have hxs := validateItems_nil items path (i + 1) xs
      simp only [validateItems, reachesItems, List.append_eq_nil_iff, hx, hxs, Bool.or_eq_false_iff]

end

-- ============================================================================
-- What does not conform
-- ============================================================================

/-- The value violates the schema at this place. -/
def violatedAt (schema value : Json) : Bool := caughtAt schema value || overlookedAt schema value

/-- A value outside the enum is one Python does not find there, or one it takes
    for another. -/
theorem all_jsonIn (value : Json) (members : Option (List Json)) :
    members.all (jsonIn value) = !(members.any (fun xs => !pyIn value xs)
      || members.any (fun xs => pyIn value xs && !jsonIn value xs)) := by
  cases members with
  | none => rfl
  | some xs =>
      have hin := @pyIn_of_jsonIn value xs
      simp only [Option.all_some, Option.any_some]
      cases hjson : jsonIn value xs with
      | true => simp [hin hjson]
      | false => cases pyIn value xs <;> rfl

/-- One level of conformance: the enum, the type, and the keywords for objects
    and arrays. -/
theorem conforms_true_iff (schema value : Json) :
    conforms schema value = true ↔
      (enumMembers schema).any (fun xs => !pyIn value xs) = false ∧
      (typeKeyword schema).any (fun expected => !instanceOfAny value expected) = false ∧
      (enumMembers schema).any (fun xs => pyIn value xs && !jsonIn value xs) = false ∧
      structural schema value = true := by
  have htype : (typeKeyword schema).all (instanceOfAny value)
      = !(typeKeyword schema).any (fun expected => !instanceOfAny value expected) := by
    cases typeKeyword schema <;> simp
  rw [conforms_eq, all_jsonIn, htype]
  simp only [Bool.and_eq_true, Bool.not_eq_true', Bool.or_eq_false_iff]
  tauto

theorem conformsFields_cons (props : Dict) (additional : Option Json) (key : PyStr) (item : Json)
    (kvs : Dict) :
    conformsFields props additional ((key, item) :: kvs) =
      ((Dict.get? props key).all (conforms · item)
        && !(decide (additional = some (.bool false)) && (Dict.get? props key).isNone)
        && undeclaredConform props additional [(key, item)]
        && conformsFields props additional kvs) := by
  simp only [conformsFields, undeclaredConform]
  cases hget : Dict.get? props key with
  | some schema => simp [hget]
  | none =>
      cases additional with
      | none => simp
      | some schema =>
          cases schema with
          | bool allowed => cases allowed <;> simp [hget]
          | _ => simp [hget]

mutual

/-- A value conforms exactly when the check comes to no place where it violates
    the schema. -/
theorem conforms_iff (schema : Json) : (value : Json) →
    (conforms schema value = true ↔ reaches violatedAt schema value = false)
  | .null | .bool _ | .int _ | .float _ | .str _ => by
      rw [conforms_true_iff]
      simp only [reaches, violatedAt, caughtAt, overlookedAt, badMembers, structural,
        Bool.or_eq_false_iff]
      tauto
  | .arr xs => by
      have hitems := conformsItems_iff (itemSchema schema) xs
      rw [conforms_true_iff, reaches]
      simp only [violatedAt, caughtAt, overlookedAt, badMembers, Bool.or_eq_false_iff]
      by_cases harr : typeKeyword schema = some (.str (py "array"))
      · simp only [harr, structural, hitems, decide_true, Bool.not_true, Bool.false_and,
          Bool.true_and]
        tauto
      · simp only [harr, decide_false, Bool.not_false, Bool.false_and, Bool.true_and,
          Bool.not_eq_false']
        tauto
  | .obj kvs => by
      have hfields := conformsFields_iff (properties schema)
        (keyword schema "additionalProperties") kvs
      rw [conforms_true_iff, reaches]
      simp only [violatedAt, caughtAt, overlookedAt, badMembers, Bool.or_eq_false_iff]
      by_cases hobj : typeKeyword schema = some (.str (py "object"))
      · have hrequired : (required schema).all (fun name => (Dict.get? kvs name).isSome)
            = !(required schema).any (fun name => (Dict.get? kvs name).isNone) := by
          simp [List.all_eq_not_any_not]
        simp only [hobj, structural, hfields, hrequired, closed, decide_true, if_true,
          Bool.true_and, Bool.and_eq_true, Bool.or_eq_false_iff, Bool.not_eq_true',
          Bool.not_eq_false']
        tauto
      · simp only [hobj, decide_false, if_false, Bool.false_and, Bool.not_eq_false']
        tauto

theorem conformsFields_iff (props : Dict) (additional : Option Json) : (kvs : Dict) →
    (conformsFields props additional kvs = true ↔
      (decide (additional = some (.bool false))
          && kvs.any fun kv => (Dict.get? props kv.1).isNone) = false
        ∧ undeclaredConform props additional kvs = true
        ∧ reachesFields violatedAt props kvs = false)
  | [] => by simp [conformsFields, undeclaredConform, reachesFields]
  | (key, item) :: kvs => by
      have hitem := fun schema => conforms_iff schema item
      have hkvs := conformsFields_iff props additional kvs
      have hcons : undeclaredConform props additional ((key, item) :: kvs)
          = (undeclaredConform props additional [(key, item)]
            && undeclaredConform props additional kvs) := by
        simp [undeclaredConform]
      rw [conformsFields_cons, Bool.and_eq_true, hkvs, hcons, reachesFields]
      cases hget : Dict.get? props key with
      | none =>
          cases decide (additional = some (.bool false)) <;> simp [hget, and_assoc]
      | some schema =>
          have hschema := hitem schema
          simp only [List.any_cons, hget, Option.isNone_some, Option.all_some, Bool.and_false,
            Bool.not_false, Bool.and_true, Bool.false_or, Bool.and_eq_true, Bool.or_eq_false_iff,
            hschema]
          tauto

theorem conformsItems_iff (items : Json) : (xs : List Json) →
    (conformsItems items xs = true ↔ reachesItems violatedAt items xs = false)
  | [] => by simp [conformsItems, reachesItems]
  | x :: xs => by
      have hx := conforms_iff items x
      have hxs := conformsItems_iff items xs
      rw [conformsItems, reachesItems, Bool.and_eq_true, Bool.or_eq_false_iff, hx, hxs]

end

-- ============================================================================
-- When the check decides conformance
-- ============================================================================

theorem instanceOf_of_typeMatchesOne {value : Json} {name : PyStr}
    (h : typeMatchesOne value name = true) : instanceOf value name = true := by
  unfold instanceOf
  by_cases htype : jsonType value = name
  · simp [htype]
  have hint : name = py "integer" → isInteger value = true := by
    intro hname
    rw [hname] at h
    cases value <;> first | rfl | cases h
  have hnames : name ∈ typeNames → name = py "integer" := by
    intro hmem
    simp only [typeNames, List.mem_cons, List.not_mem_nil, or_false] at hmem
    obtain hname | hname | hname | hname | hname | hname | hname := hmem <;>
      first
        | exact hname
        | (rw [hname] at h htype; exact absurd (of_decide_eq_true h) htype)
  by_cases hmem : name ∈ typeNames
  · have hname := hnames hmem
    simp [hname, hint hname]
  · simp [hmem]

theorem instanceOfAny_of_typeMatches {value expected : Json}
    (h : typeMatches value expected = true) : instanceOfAny value expected = true := by
  cases expected with
  | str name => exact instanceOf_of_typeMatchesOne h
  | arr names =>
      obtain ⟨name, hmem, hname⟩ := List.any_eq_true.mp h
      refine List.any_eq_true.mpr ⟨name, hmem, ?_⟩
      cases name with
      | str name => exact instanceOf_of_typeMatchesOne hname
      | _ => rfl
  | _ => rfl

/-- What the check objects to is a violation or a mistake. -/
theorem objectedAt_eq (schema value : Json) :
    objectedAt schema value = (caughtAt schema value || mistakenAt schema value) := by
  unfold objectedAt caughtAt mistakenAt
  cases typeKeyword schema with
  | none => simp
  | some expected =>
      have hmatch := @instanceOfAny_of_typeMatches value expected
      simp only [Option.any_some]
      cases htype : typeMatches value expected with
      | true => simp [hmatch htype]
      | false =>
          cases instanceOfAny value expected <;> simp

mutual

/-- The check comes to a place of one of two kinds if it comes to one of either. -/
theorem reaches_or (kind other : Json → Json → Bool) (schema : Json) : (value : Json) →
    reaches (fun s v => kind s v || other s v) schema value
      = (reaches kind schema value || reaches other schema value)
  | .null | .bool _ | .int _ | .float _ | .str _ => by simp [reaches]
  | .arr xs => by
      have hitems := reachesItems_or kind other (itemSchema schema) xs
      simp only [reaches, hitems, Bool.and_or_distrib_left]
      ac_rfl
  | .obj kvs => by
      have hfields := reachesFields_or kind other (properties schema) kvs
      simp only [reaches, hfields, Bool.and_or_distrib_left]
      ac_rfl

theorem reachesFields_or (kind other : Json → Json → Bool) (props : Dict) : (kvs : Dict) →
    reachesFields (fun s v => kind s v || other s v) props kvs
      = (reachesFields kind props kvs || reachesFields other props kvs)
  | [] => by simp [reachesFields]
  | (key, item) :: kvs => by
      have hitem := fun schema => reaches_or kind other schema item
      have hkvs := reachesFields_or kind other props kvs
      simp only [reachesFields, hkvs]
      cases Dict.get? props key with
      | none => simp
      | some schema =>
          simp only [hitem schema]
          ac_rfl

theorem reachesItems_or (kind other : Json → Json → Bool) (items : Json) : (xs : List Json) →
    reachesItems (fun s v => kind s v || other s v) items xs
      = (reachesItems kind items xs || reachesItems other items xs)
  | [] => by simp [reachesItems]
  | x :: xs => by
      have hx := reaches_or kind other items x
      have hxs := reachesItems_or kind other items xs
      simp only [reachesItems, hx, hxs]
      ac_rfl

end

/-- The check decides conformance exactly when it comes to a violation it
    notices, or else comes both to a violation it overlooks and to an integral
    float it takes for no integer, or to neither. -/
theorem validation_decides (schema : Json) (path : PyStr) (value : Json) :
    (validateValue schema path value = [] ↔ conforms schema value = true) ↔
      (reaches caughtAt schema value = true
        ∨ reaches mistakenAt schema value = reaches overlookedAt schema value) := by
  have hobjected : reaches objectedAt schema value
      = (reaches caughtAt schema value || reaches mistakenAt schema value) := by
    have hkind : objectedAt = fun s v => caughtAt s v || mistakenAt s v := by
      funext s v
      exact objectedAt_eq s v
    rw [hkind, reaches_or]
  have hviolated : reaches violatedAt schema value
      = (reaches caughtAt schema value || reaches overlookedAt schema value) :=
    reaches_or caughtAt overlookedAt schema value
  rw [validateValue_nil, conforms_iff, hobjected, hviolated]
  cases reaches caughtAt schema value <;> cases reaches mistakenAt schema value <;>
    cases reaches overlookedAt schema value <;> simp

/-- `True` passes for the `1` of an enum, an object under two types needs none of
    its required properties, and `1.0` is no integer. -/
theorem check_is_not_conformance :
    (validateValue (.obj [(py "enum", .arr [.int 1])]) (py "$") (.bool true) = []
      ∧ conforms (.obj [(py "enum", .arr [.int 1])]) (.bool true) = false) ∧
    (validateValue (.obj [(py "type", .arr [.str (py "object"), .str (py "null")]),
          (py "required", .arr [.str (py "id")])]) (py "$") (.obj []) = []
      ∧ conforms (.obj [(py "type", .arr [.str (py "object"), .str (py "null")]),
          (py "required", .arr [.str (py "id")])]) (.obj []) = false) ∧
    validateValue (.obj [(py "type", .str (py "integer"))]) (py "$") (.float (py "1.0")) ≠ []
      ∧ conforms (.obj [(py "type", .str (py "integer"))]) (.float (py "1.0")) = true := by
  decide +kernel

end Tool
end KineticSdk
