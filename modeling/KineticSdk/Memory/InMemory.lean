/-
  KineticSdk.Memory.InMemory

  Memory entries (`memory/provider.py`) and the process-local store
  (`memory/inmemory.py`).

  The calendar is given by a `Calendar`: its points in time, and what
  `datetime` and `timedelta` do with them.  An entry keeps its times as texts.
-/

import KineticSdk.Py.JsonRoundTrip
import KineticSdk.Py.Repr
import KineticSdk.Py.Search

namespace KineticSdk
namespace Memory

open Py

-- ============================================================================
-- Entries
-- ============================================================================

/-- `MemoryTier`. -/
inductive MemoryTier where
  | working
  | episodic
  | persistent
deriving DecidableEq

/-- The value of the enumeration. -/
def MemoryTier.value : MemoryTier → PyStr
  | .working => py "working"
  | .episodic => py "episodic"
  | .persistent => py "persistent"

/-- `MemorySource`. -/
inductive MemorySource where
  | «unknown»
  | userInput
  | toolResult
  | llmInference
deriving DecidableEq

/-- The value of the enumeration. -/
def MemorySource.value : MemorySource → PyStr
  | .unknown => py "unknown"
  | .userInput => py "user_input"
  | .toolResult => py "tool_result"
  | .llmInference => py "llm_inference"

/-- `MemoryEntry`. -/
structure MemoryEntry where
  id : PyStr
  text : PyStr
  metadata : Py.Dict
  createdAt : PyStr
  tier : MemoryTier
  source : MemorySource
  expiresAt : Option PyStr
deriving DecidableEq

-- ============================================================================
-- Time and scope
-- ============================================================================

/-- `datetime` and `timedelta`, as far as the store uses them. -/
structure Calendar where
  Time : Type
  Seconds : Type
  isoformat : Time → PyStr
  /-- With `none` for a `ValueError`. -/
  fromisoformat : PyStr → Option Time
  /-- A time without a zone is taken in UTC. -/
  inUtc : Time → Time
  le : Time → Time → Bool
  /-- A number that is not negative, and no boolean. -/
  isDuration : Seconds → Bool
  plus : Time → Seconds → Except PyExc Time

/-- A `MemoryError`. -/
def memoryError (message : PyStr) : PyExc := ⟨py "MemoryError", message⟩

/-- `expiry_iso`. -/
def expiryIso (cal : Calendar) (ttl : Option cal.Seconds) (createdAt : PyStr) :
    Except PyExc (Option PyStr) :=
  match ttl with
  | none => .ok none
  | some ttl =>
      if cal.isDuration ttl then
        match cal.fromisoformat createdAt with
        | none => .error ⟨py "ValueError", py "Invalid isoformat string: " ++ pyReprStr createdAt⟩
        | some t => (cal.plus t ttl).map fun t' => some (cal.isoformat t')
      else .error (memoryError (py "ttl_seconds must be a non-negative number or None"))

/-- `is_expired`. -/
def isExpired (cal : Calendar) (now : cal.Time) (entry : MemoryEntry) : Bool :=
  match entry.expiresAt with
  | none => false
  | some text =>
      match cal.fromisoformat (replaceAll (py "Z") (py "+00:00") text) with
      | none => true
      | some t => cal.le (cal.inUtc t) now

/-- `matches_scope`. -/
def matchesScope (entry : MemoryEntry) (scope : Option (List (PyStr × PyStr))) : Bool :=
  match scope with
  | none => true
  | some items => items.all fun (key, value) =>
      pyEq ((Dict.get? entry.metadata key).getD .null) (.str value)

-- ============================================================================
-- The store
-- ============================================================================

/-- A dictionary of JSON values: distinct keys, and floats that are floats. -/
structure JsonObject (fl : FloatRepr) where
  fields : Py.Dict
  valid : Readable false fl (.obj fields)

/-- The arguments of `add`, and what it draws: an id and the time. -/
structure Add (cal : Calendar) (fl : FloatRepr) where
  text : PyStr
  metadata : JsonObject fl
  tier : MemoryTier := .persistent
  source : MemorySource := .unknown
  ttl : Option cal.Seconds := none
  /-- `uuid.uuid4().hex`. -/
  uuid : PyStr
  now : cal.Time

/-- The entry `add` makes, or the exception it raises. -/
def Add.entry {cal : Calendar} {fl : FloatRepr} (a : Add cal fl) : Except PyExc MemoryEntry :=
  if strip a.text = [] then .error (memoryError (py "memory text must be a non-empty string"))
  else
    let createdAt := cal.isoformat a.now
    (expiryIso cal a.ttl createdAt).map fun expiresAt =>
      ⟨a.uuid, a.text, a.metadata.fields, createdAt, a.tier, a.source, expiresAt⟩

/-- `InMemoryMemory.add`. -/
def add {cal : Calendar} {fl : FloatRepr} (entries : List MemoryEntry) (a : Add cal fl) :
    Except PyExc (List MemoryEntry) :=
  a.entry.map fun entry => entries ++ [entry]

/-- `InMemoryMemory.all` without a scope, expired entries included. -/
def all (entries : List MemoryEntry) (tiers : Option (List MemoryTier)) : List MemoryEntry :=
  entries.filter fun entry => tiers.all fun ts => entry.tier ∈ ts

/-- `InMemoryMemory.clear`. -/
def clear (entries : List MemoryEntry) (scope : Option (List (PyStr × PyStr)))
    (tiers : Option (List MemoryTier)) : List MemoryEntry :=
  entries.filter fun entry =>
    !((tiers.all fun ts => entry.tier ∈ ts) && matchesScope entry scope)

/-- `InMemoryMemory.delete`: the entries after it, and whether it deleted any. -/
def delete (entries : List MemoryEntry) (entryId : PyStr) : List MemoryEntry × Bool :=
  let kept := entries.filter fun entry => entry.id ≠ entryId
  (kept, kept.length != entries.length)

/-- `InMemoryMemory.purge_expired`: the entries after it, and how many it dropped. -/
def purgeExpired (cal : Calendar) (now : cal.Time) (entries : List MemoryEntry) :
    List MemoryEntry × Nat :=
  let kept := entries.filter fun entry => !isExpired cal now entry
  (kept, entries.length - kept.length)

/-- A filter that drops nothing changes nothing. -/
theorem filter_eq_self_of_length {p : MemoryEntry → Bool} {entries : List MemoryEntry}
    (h : (entries.filter p).length = entries.length) : entries.filter p = entries :=
  List.filter_sublist.eq_of_length h

theorem delete_unchanged {entries : List MemoryEntry} {entryId : PyStr}
    (h : (delete entries entryId).2 = false) : (delete entries entryId).1 = entries := by
  have hlength : (delete entries entryId).1.length = entries.length := by
    simpa [delete] using h
  exact filter_eq_self_of_length hlength

theorem purgeExpired_unchanged {cal : Calendar} {now : cal.Time} {entries : List MemoryEntry}
    (h : (purgeExpired cal now entries).2 = 0) : (purgeExpired cal now entries).1 = entries := by
  have hle : (purgeExpired cal now entries).1.length ≤ entries.length := List.length_filter_le ..
  have hzero : entries.length - (purgeExpired cal now entries).1.length = 0 := h
  have hlength : (purgeExpired cal now entries).1.length = entries.length := by omega
  exact filter_eq_self_of_length hlength

end Memory
end KineticSdk
