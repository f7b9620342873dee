/-
  KineticSdk.Py.Json

  Python strings and JSON values.

  A `str` is the list of its code points.  Lone surrogates are code points
  like any other: `json.loads` produces them, and only encoding a text to
  UTF-8 rejects them.

  A `dict` with string keys is its list of items in insertion order, so
  `get?` and `set` follow the dictionary operations the library performs:
  `set` keeps the position of a key that is already there.
-/

import Mathlib.Data.List.Basic

namespace KineticSdk
namespace Py

-- ============================================================================
-- Strings
-- ============================================================================

/-- A Python `str`, by its code points. -/
abbrev PyStr := List Nat

instance : LawfulBEq PyStr := inferInstance

/-- The Python string with the text of a Lean literal. -/
def py (s : String) : PyStr := s.toList.map Char.toNat

/-- `s.startswith(p)`. -/
def startsWith (p s : PyStr) : Bool := p.isPrefixOf s

/-- Encoding to UTF-8 succeeds: no code point is a lone surrogate. -/
def encodable (s : PyStr) : Bool := s.all fun c => !(0xD800 ≤ c && c ≤ 0xDFFF)

-- ============================================================================
-- JSON values
-- ============================================================================

/-- A JSON value as `json.loads` returns it.  A float is given by its `repr`,
    which is injective on floats and is also what `json.dumps` prints. -/
inductive Json where
  | null
  | bool (b : Bool)
  | int (n : Int)
  | float (repr : PyStr)
  | str (s : PyStr)
  | arr (xs : List Json)
  | obj (kvs : List (PyStr × Json))
deriving Inhabited

/-- A `dict` with string keys, in insertion order. -/
abbrev Dict := List (PyStr × Json)

namespace Json

mutual

/-- Structural equality of JSON values. -/
def beq : Json → Json → Bool
  | .null, .null => true
  | .bool a, .bool b => a == b
  | .int a, .int b => a == b
  | .float a, .float b => a == b
  | .str a, .str b => a == b
  | .arr xs, .arr ys => beqList xs ys
  | .obj kvs, .obj kws => beqFields kvs kws
  | _, _ => false

/-- `beq` on lists of values. -/
def beqList : List Json → List Json → Bool
  | [], [] => true
  | x :: xs, y :: ys => x.beq y && beqList xs ys
  | _, _ => false

/-- `beq` on the items of two dicts. -/
def beqFields : Dict → Dict → Bool
  | [], [] => true
  | (k, v) :: kvs, (k', w) :: kws => k == k' && v.beq w && beqFields kvs kws
  | _, _ => false

end

mutual

theorem beq_iff : (a b : Json) → (a.beq b = true ↔ a = b)
  | .null, b => by cases b <;> simp [beq]
  | .bool x, b => by cases b <;> simp [beq]
  | .int x, b => by cases b <;> simp [beq]
  | .float x, b => by cases b <;> simp [beq]
  | .str x, b => by cases b <;> simp [beq]
  | .arr xs, b => by cases b <;> simp [beq, beqList_iff xs]
  | .obj kvs, b => by cases b <;> simp [beq, beqFields_iff kvs]

theorem beqList_iff : (xs ys : List Json) → (beqList xs ys = true ↔ xs = ys)
  | [], ys => by cases ys <;> simp [beqList]
  | x :: xs, ys => by
      cases ys with
      | nil => simp [beqList]
      | cons y ys => simp [beqList, beq_iff x, beqList_iff xs]

theorem beqFields_iff : (kvs kws : Dict) → (beqFields kvs kws = true ↔ kvs = kws)
  | [], kws => by cases kws <;> simp [beqFields]
  | (k, v) :: kvs, kws => by
      cases kws with
      | nil => simp [beqFields]
      | cons p kws =>
          obtain ⟨k', w⟩ := p
          simp [beqFields, beq_iff v, beqFields_iff kvs]

end

instance : DecidableEq Json := fun a b => decidable_of_iff _ (beq_iff a b)

/-- `bool(v)`: the empty and the zero values are false. -/
def truthy : Json → Bool
  | .null => false
  | .bool b => b
  | .int n => n != 0
  | .float r => r != py "0.0" && r != py "-0.0"
  | .str s => s != []
  | .arr xs => !xs.isEmpty
  | .obj kvs => !kvs.isEmpty

mutual

/-- Writing `json.dumps(v, ensure_ascii=False)` to a UTF-8 file succeeds: every
    text in it, keys included, can be encoded. -/
def encodable : Json → Bool
  | .str s => Py.encodable s
  | .arr xs => encodableList xs
  | .obj kvs => encodableFields kvs
  | _ => true

/-- `encodable` on the elements of a list. -/
def encodableList : List Json → Bool
  | [] => true
  | x :: xs => x.encodable && encodableList xs

/-- `encodable` on the items of a dict. -/
def encodableFields : Dict → Bool
  | [] => true
  | (k, v) :: kvs => Py.encodable k && v.encodable && encodableFields kvs

end

theorem encodableList_iff (xs : List Json) :
    encodableList xs = true ↔ ∀ x ∈ xs, x.encodable = true := by
  induction xs with
  | nil => simp [encodableList]
  | cons x xs ih => simp [encodableList, ih]

theorem encodableList_append (xs ys : List Json) :
    encodableList (xs ++ ys) = (encodableList xs && encodableList ys) := by
  induction xs with
  | nil => rfl
  | cons x xs ih => rw [List.cons_append, encodableList, encodableList, ih, Bool.and_assoc]

/-- `isinstance(v, dict)`. -/
def isObj : Json → Bool
  | .obj _ => true
  | _ => false

end Json

-- ============================================================================
-- Dictionaries
-- ============================================================================

namespace Dict

variable {β : Type _}

/-- `d.get(k)`, with `none` for a missing key. -/
def get? (d : List (PyStr × β)) (k : PyStr) : Option β :=
  (d.find? fun kv => kv.1 == k).map Prod.snd

/-- `d[k] = v`: in place when the key is there, else at the end. -/
def set : List (PyStr × β) → PyStr → β → List (PyStr × β)
  | [], k, v => [(k, v)]
  | (k', w) :: d, k, v => if k' = k then (k, v) :: d else (k', w) :: set d k v

/-- `d.pop(k, None)`. -/
def pop (d : List (PyStr × β)) (k : PyStr) : List (PyStr × β) := d.filter fun kv => kv.1 ≠ k

@[simp] theorem get?_nil (k : PyStr) : get? ([] : List (PyStr × β)) k = none := rfl

theorem get?_cons (k k' : PyStr) (v : β) (d : List (PyStr × β)) :
    get? ((k', v) :: d) k = if k' = k then some v else get? d k := by
  by_cases h : k' = k
  · simp [get?, h]
  · have h' : (k' == k) = false := by simpa using h
    simp [get?, h, h']

theorem get?_set_self (d : List (PyStr × β)) (k : PyStr) (v : β) :
    get? (set d k v) k = some v := by
  induction d with
  | nil => simp [set, get?_cons]
  | cons p d ih =>
      obtain ⟨k', w⟩ := p
      by_cases h : k' = k
      · simp [set, h, get?_cons]
      · simp [set, h, get?_cons, ih]

theorem get?_set_of_ne (d : List (PyStr × β)) {k k' : PyStr} (v : β) (h : k ≠ k') :
    get? (set d k v) k' = get? d k' := by
  induction d with
  | nil => simp [set, get?_cons, h]
  | cons p d ih =>
      obtain ⟨k₀, w⟩ := p
      by_cases h₀ : k₀ = k
      · subst h₀
        simp [set, get?_cons, h]
      · simp [set, h₀, get?_cons, ih]

theorem get?_pop (d : List (PyStr × β)) (k k' : PyStr) :
    get? (pop d k) k' = if k' = k then none else get? d k' := by
  induction d with
  | nil => simp [pop]
  | cons p d ih =>
      obtain ⟨k₀, w⟩ := p
      by_cases h₀ : k₀ = k
      · have hpop : pop ((k₀, w) :: d) k = pop d k := by simp [pop, h₀]
        rw [hpop, ih, get?_cons, h₀]
        by_cases hk : k' = k
        · simp [hk]
        · rw [if_neg hk, if_neg hk, if_neg (fun h => hk h.symm)]
      · have hpop : pop ((k₀, w) :: d) k = (k₀, w) :: pop d k := by simp [pop, h₀]
        rw [hpop, get?_cons, ih, get?_cons]
        by_cases hk : k₀ = k'
        · rw [if_pos hk, if_pos hk, if_neg (hk ▸ h₀)]
        · rw [if_neg hk, if_neg hk]

end Dict

end Py
end KineticSdk
