/-
  KineticSdk.Memory.Failing

  Calls of `JsonFileMemory.add` that raise (`memory/json_file.py`): the metadata
  holds a value that JSON has no text for, or the disk fails.

  The entry is appended before the file is written, and nothing takes it out
  again.  The file itself is replaced as a whole and stays as it was.  An entry
  that cannot be written makes every later call raise too (`stuck_run`).
-/

import KineticSdk.Lib.Traverse
import KineticSdk.Memory.JsonFile

namespace KineticSdk
namespace Memory

open Py Security

variable {cal : Calendar} {fl : FloatRepr}

-- ============================================================================
-- Entries with any metadata
-- ============================================================================

/-- An entry in memory.  `refused` are the keys of its metadata whose values are no
    JSON data, each with what `asdict` or `json.dump` raises on the value. -/
structure Held where
  entry : MemoryEntry
  refused : List (PyStr × PyExc) := []

/-- The arguments of `add`, with `none` for one of another type, and what it draws. -/
structure Write (cal : Calendar) (fl : FloatRepr) where
  text : Option PyStr
  /-- The JSON data of `dict(metadata or {})`, or what that raises. -/
  metadata : Except PyExc (JsonObject fl)
  refused : List (PyStr × PyExc) := []
  tier : Option MemoryTier := some .persistent
  source : Option MemorySource := some .unknown
  ttl : Option cal.Seconds := none
  uuid : PyStr
  now : cal.Time

/-- The entry that `InMemoryMemory.add` makes, or the exception it raises. -/
def Write.held (w : Write cal fl) : Except PyExc Held :=
  if w.text.all (strip · = []) then .error (memoryError (py "memory text must be a non-empty string"))
  else
    match w.tier, w.source with
    | some tier, some source =>
        let createdAt := cal.isoformat w.now
        w.metadata.bind fun metadata =>
          (expiryIso cal w.ttl createdAt).map fun expiresAt =>
            ⟨⟨w.uuid, w.text.getD [], metadata.fields, createdAt, tier, source, expiresAt⟩, w.refused⟩
    | _, _ => .error (memoryError (py "tier and source must be MemoryTier and MemorySource values"))

-- ============================================================================
-- The store
-- ============================================================================

/-- What the disk answers during one `_persist`: an exception of `mkdir` or
    `mkstemp`, and one of writing the temporary file or of `os.replace`. -/
structure Disk where
  opening : Option PyExc := none
  replacing : Option PyExc := none

/-- `JsonFileMemory`, with the text of its file. -/
structure FileMemory where
  entries : List Held := []
  file : Option PyStr := none

/-- The entries as `asdict` and `json.dump` take them, or what the first refused value raises. -/
def plain (entries : List Held) : Except PyExc (List MemoryEntry) :=
  entries.mapM fun h =>
    match h.refused with
    | [] => .ok h.entry
    | (_, e) :: _ => .error e

/-- `_persist`.  A temporary file is written and replaces the file as a whole. -/
def FileMemory.persist (m : FileMemory) (d : Disk) : FileMemory × Except PyExc Unit :=
  match d.opening with
  | some e => (m, .error e)
  | none =>
      match plain m.entries with
      | .error e => (m, .error e)
      | .ok entries =>
          match dumpText (payload entries), d.replacing with
          | none, _ => (m, .error unicodeEncodeError)
          | some _, some e => (m, .error e)
          | some text, none => ({ m with file := some text }, .ok ())

/-- `add`.  The entry is there before the file is written. -/
def FileMemory.add (m : FileMemory) (d : Disk) (w : Write cal fl) : FileMemory × Except PyExc Unit :=
  match w.held with
  | .error e => (m, .error e)
  | .ok h => ({ m with entries := m.entries ++ [h] } : FileMemory).persist d

-- ============================================================================
-- A call that changes nothing
-- ============================================================================

/-- The file can hold the entry. -/
def Held.Writes (h : Held) : Prop := h.refused = [] ∧ (asdict h.entry).encodable = true

/-- The disk does its work. -/
def Disk.Works (d : Disk) : Prop := d.opening = none ∧ d.replacing = none

/-- A later call with good metadata on a working disk succeeds, and the file holds
    what the memory held before and the new entry. -/
def LaterAddsPersist (cal : Calendar) (fl : FloatRepr) (before : List Held) (m : FileMemory) : Prop :=
  ∀ (w : Write cal fl) h, w.held = .ok h → h.Writes →
    m.add {} w = (⟨before ++ [h], some (dumps false (payload ((before ++ [h]).map Held.entry)))⟩, .ok ())

/-- When the call raises, memory and file are as before, and if all that was in memory
    can be written, so is whatever is added later. -/
def FailsCleanly (m : FileMemory) (d : Disk) (w : Write cal fl) : Prop :=
  ∀ e, (m.add d w).2 = .error e →
    (m.add d w).1.entries = m.entries ∧ (m.add d w).1.file = m.file ∧
      ((∀ h ∈ m.entries, h.Writes) → LaterAddsPersist cal fl m.entries (m.add d w).1)

/-- The disk works, and the file can hold what is in memory and the entry. -/
def Persistable (m : FileMemory) (d : Disk) (h : Held) : Prop :=
  d.Works ∧ (∀ x ∈ m.entries, x.Writes) ∧ h.Writes

theorem plain_of_writes {entries : List Held} (h : ∀ x ∈ entries, x.Writes) :
    plain entries = .ok (entries.map Held.entry) :=
  Lib.Traverse.mapM_eq_map fun x hx => by rw [(h x hx).1]

/-- The entries that are taken have no value that is refused. -/
theorem plain_ok {entries : List Held} {es : List MemoryEntry} (h : plain entries = .ok es) :
    es = entries.map Held.entry ∧ ∀ x ∈ entries, x.refused = [] := by
  have hbeside := Lib.Traverse.mapM_ok_iff.mp h
  clear h
  induction hbeside with
  | nil => exact ⟨rfl, fun _ hx => absurd hx List.not_mem_nil⟩
  | @cons x e entries es hx _ ih =>
      obtain ⟨rfl, hrest⟩ := ih
      cases hrefused : x.refused with
      | nil =>
          rw [hrefused] at hx
          cases hx
          exact ⟨rfl, List.forall_mem_cons.mpr ⟨hrefused, hrest⟩⟩
      | cons kv kvs =>
          rw [hrefused] at hx
          cases hx

/-- Writing succeeds exactly when the disk works and every entry can be written. -/
theorem persist_ok_iff (m : FileMemory) (d : Disk) :
    (m.persist d).2 = .ok () ↔ d.Works ∧ ∀ h ∈ m.entries, h.Writes := by
  unfold FileMemory.persist Disk.Works
  cases hopening : d.opening with
  | some e => simp
  | none =>
      cases hplain : plain m.entries with
      | error e =>
          refine iff_of_false (fun h => by cases h) fun h => ?_
          rw [plain_of_writes h.2] at hplain
          cases hplain
      | ok es =>
          obtain ⟨rfl, hrefused⟩ := plain_ok hplain
          have hwrites : (∀ h ∈ m.entries, h.Writes) ↔ (payload (m.entries.map Held.entry)).encodable = true := by
            rw [payload_encodable_iff, List.forall_mem_map]
            exact ⟨fun h x hx => (h x hx).2, fun h x hx => ⟨hrefused x hx, h x hx⟩⟩
          rw [hwrites]
          cases hencodable : (payload (m.entries.map Held.entry)).encodable with
          | false =>
              have hdump : dumpText (payload (m.entries.map Held.entry)) = none :=
                if_neg (Bool.not_eq_true _ ▸ hencodable)
              simp [hdump]
          | true =>
              have hdump : dumpText (payload (m.entries.map Held.entry)) = some _ := if_pos hencodable
              cases hreplacing : d.replacing <;> simp [hdump]

/-- The entries stay, and a file that is not replaced stays. -/
theorem persist_entries (m : FileMemory) (d : Disk) : (m.persist d).1.entries = m.entries := by
  unfold FileMemory.persist
  split
  · rfl
  · split
    · rfl
    · split <;> rfl

theorem persist_error_file {m : FileMemory} {d : Disk} {e : PyExc} (h : (m.persist d).2 = .error e) :
    (m.persist d).1.file = m.file := by
  unfold FileMemory.persist at h ⊢
  split
  · rfl
  · split
    · rfl
    · split
      · rfl
      · rfl
      · simp_all

theorem persist_works {m : FileMemory} (h : ∀ x ∈ m.entries, x.Writes) :
    m.persist {} = ({ m with file := some (dumps false (payload (m.entries.map Held.entry))) }, .ok ()) := by
  have hencodable : (payload (m.entries.map Held.entry)).encodable = true :=
    payload_encodable_iff.mpr (List.forall_mem_map.mpr fun x hx => (h x hx).2)
  have hdump : dumpText (payload (m.entries.map Held.entry))
      = some (dumps false (payload (m.entries.map Held.entry))) := if_pos hencodable
  unfold FileMemory.persist
  simp only [plain_of_writes h, hdump]

/-- A memory that can be written keeps whatever can be written. -/
theorem laterAddsPersist {m : FileMemory} (h : ∀ x ∈ m.entries, x.Writes) :
    LaterAddsPersist cal fl m.entries m := by
  intro w x hheld hx
  have hall : ∀ y ∈ m.entries ++ [x], y.Writes := by
    intro y hy
    rcases List.mem_append.mp hy with hy | hy
    · exact h y hy
    · exact List.mem_singleton.mp hy ▸ hx
  unfold FileMemory.add
  rw [hheld]
  exact persist_works (m := ⟨m.entries ++ [x], m.file⟩) hall

/-- A call that raises changes nothing exactly when the entry was not even made, and
    it does not raise exactly when the disk works and the file can hold all there is.
    An exception of writing leaves the entry behind. -/
theorem failing_add_clean_iff (m : FileMemory) (d : Disk) (w : Write cal fl) :
    FailsCleanly m d w ↔ ∀ h, w.held = .ok h → Persistable m d h := by
  cases hheld : w.held with
  | error e =>
      refine iff_of_true ?_ fun h hok => by cases hok
      have hadd : m.add d w = (m, .error e) := by
        unfold FileMemory.add
        rw [hheld]
      intro e' _
      rw [hadd]
      exact ⟨rfl, rfl, laterAddsPersist⟩
  | ok h =>
      have hadd : m.add d w = FileMemory.persist ⟨m.entries ++ [h], m.file⟩ d := by
        unfold FileMemory.add
        rw [hheld]
      have hpersistable : Persistable m d h ↔ (m.add d w).2 = .ok () := by
        rw [hadd, persist_ok_iff, List.forall_mem_append, List.forall_mem_singleton]
        exact Iff.rfl
      constructor
      · intro hclean x hx
        obtain rfl : h = x := Except.ok.inj hx
        refine hpersistable.mpr ?_
        cases hresult : (m.add d w).2 with
        | ok _ => rfl
        | error e =>
            have hsame := (hclean e hresult).1
            rw [hadd, persist_entries] at hsame
            have hlength := congrArg List.length hsame
            rw [List.length_append, List.length_singleton] at hlength
            omega
      · intro hall e hraise
        rw [hpersistable.mp (hall h rfl)] at hraise
        cases hraise

-- ============================================================================
-- What is left behind
-- ============================================================================

/-- An entry that cannot be written stays, and no call gets past it. -/
theorem stuck_step {m : FileMemory} {x : Held} (hx : x ∈ m.entries) (hstuck : ¬ x.Writes) (d : Disk)
    (w : Write cal fl) :
    x ∈ (m.add d w).1.entries ∧ (m.add d w).1.file = m.file ∧ (m.add d w).2 ≠ .ok () := by
  unfold FileMemory.add
  cases w.held with
  | error e => exact ⟨hx, rfl, fun h => by cases h⟩
  | ok h =>
      have hmem : x ∈ m.entries ++ [h] := List.mem_append_left _ hx
      have hraises : (FileMemory.persist ⟨m.entries ++ [h], m.file⟩ d).2 ≠ .ok () :=
        fun hok => hstuck (((persist_ok_iff _ d).mp hok).2 x hmem)
      refine ⟨(persist_entries _ d).symm ▸ hmem, ?_, hraises⟩
      cases hresult : (FileMemory.persist ⟨m.entries ++ [h], m.file⟩ d).2 with
      | ok _ => exact absurd hresult hraises
      | error e => exact persist_error_file hresult

/-- From then on no run of `add` calls writes the file. -/
theorem stuck_run {m : FileMemory} {x : Held} (hx : x ∈ m.entries) (hstuck : ¬ x.Writes)
    (calls : List (Disk × Write cal fl)) :
    (Lib.Steps.run (fun m c => (m.add c.1 c.2).1) m calls).file = m.file := by
  induction calls generalizing m with
  | nil => rfl
  | cons c calls ih =>
      obtain ⟨hstays, hfile, -⟩ := stuck_step hx hstuck c.1 c.2
      exact (ih hstays).trans hfile

/-- `add(text, metadata)`, with a value in the metadata that is no JSON data. -/
def addOpaque (text : PyStr) (refused : List (PyStr × PyExc)) : Write frozen id where
  text := some text
  metadata := .ok ⟨[], readable_empty⟩
  refused := refused
  uuid := py "0f"
  now := ()

/-- What `json.dump` raises on a `datetime`. -/
def notSerializable : PyExc := ⟨py "TypeError", py "Object of type datetime is not JSON serializable"⟩

/-- A `datetime` in the metadata: the call raises, the entry stays, and the next call
    with good metadata raises the same. -/
theorem opaque_metadata_stays :
    let failed := FileMemory.add {} {} (addOpaque (py "note") [(py "at", notSerializable)])
    failed.2 = .error notSerializable ∧ failed.1.entries ≠ [] ∧
      (failed.1.add {} (addOpaque (py "more") [])).2 = .error notSerializable ∧
      ¬ FailsCleanly {} {} (addOpaque (py "note") [(py "at", notSerializable)]) := by
  refine ⟨rfl, List.cons_ne_nil _ _, rfl, fun hclean => ?_⟩
  have hsame := (hclean notSerializable rfl).1
  exact absurd hsame (List.cons_ne_nil _ _)

end Memory
end KineticSdk
