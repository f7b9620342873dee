/-
  KineticSdk.Memory.JsonFile

  `JsonFileMemory` (`memory/json_file.py`) beside an `InMemoryMemory` that
  receives the same calls.

  The file holds the printed entries, or does not exist when there are none.
  That is so after every call as long as every entry can be written
  (`Synced.step`), and then opening the file again gives the same entries.
-/

import KineticSdk.Lib.Steps
import KineticSdk.Lib.Traverse
import KineticSdk.Memory.InMemory
import KineticSdk.Py.JsonFile
import KineticSdk.Security.Audit

namespace KineticSdk
namespace Memory

open Py Security

-- ============================================================================
-- Entries in the file
-- ============================================================================

/-- `asdict(entry)`. -/
def asdict (e : MemoryEntry) : Json :=
  .obj [(py "id", .str e.id), (py "text", .str e.text), (py "metadata", .obj e.metadata),
    (py "created_at", .str e.createdAt), (py "tier", .str e.tier.value),
    (py "source", .str e.source.value), (py "expires_at", optStr e.expiresAt)]

/-- `SCHEMA_VERSION`. -/
def schemaVersion : Int := 2

/-- The payload of `_persist`. -/
def payload (entries : List MemoryEntry) : Json :=
  .obj [(py "schema_version", .int schemaVersion), (py "entries", .arr (entries.map asdict))]

/-- `_enum_or_default(MemoryTier, v, MemoryTier.PERSISTENT)`. -/
def tierOrDefault (v : Json) : MemoryTier :=
  ([MemoryTier.working, .episodic, .persistent].find? fun t => v == .str t.value).getD .persistent

/-- `_enum_or_default(MemorySource, v, MemorySource.UNKNOWN)`. -/
def sourceOrDefault (v : Json) : MemorySource :=
  ([MemorySource.unknown, .userInput, .toolResult, .llmInference].find?
    fun s => v == .str s.value).getD .unknown

/-- `_optional_string`. -/
def optionalString : Json → Option PyStr
  | .str s => some s
  | _ => none

/-- `str(item.get(key, ""))`. -/
def textField (item : Py.Dict) (key : String) : PyStr :=
  strOf ((Dict.get? item (py key)).getD (.str []))

/-- `dict(item.get("metadata") or {})`. -/
def loadMetadata (item : Py.Dict) : Except PyExc Py.Dict :=
  if (field item "metadata").truthy then toDict (field item "metadata") else .ok []

/-- One item of the file. -/
def loadItem : Json → Except PyExc MemoryEntry
  | .obj item =>
      (loadMetadata item).map fun metadata =>
        { id := textField item "id"
          text := textField item "text"
          metadata := metadata
          createdAt := textField item "created_at"
          tier := tierOrDefault (field item "tier")
          source := sourceOrDefault (field item "source")
          expiresAt := optionalString (field item "expires_at") }
  | _ => .error (memoryError (py "not an entry"))

/-- What `_load` makes of the payload it has read. -/
def loadPayload : Json → Except PyExc (List MemoryEntry)
  | .obj payload =>
      match Dict.get? payload (py "entries") with
      | none => .error (memoryError (py "Cannot load memory: not a memory file"))
      | some entries =>
          let version := field payload "schema_version"
          if hashable version then
            if pyIn version [.int 1, .int schemaVersion] then
              match entries with
              | .arr items => (items.filter Json.isObj).mapM loadItem
              | _ => .error (memoryError (py "Cannot load memory: entries not a list"))
            else
              .error (memoryError (py "Cannot load memory: schema version " ++ pyRepr version
                ++ py " is not supported (expected 1 or " ++ intText schemaVersion ++ py ")"))
          else .error ⟨py "TypeError", py "unhashable type: '" ++ typeName version ++ py "'"⟩
  | _ => .error (memoryError (py "Cannot load memory: not a memory file"))

/-- `_load`: the entries of a memory that is opened on a file. -/
def load (fl : FloatRepr) : Option PyStr → Except PyExc (List MemoryEntry)
  | none => .ok []
  | some text =>
      match loadText fl text with
      | .ok v => loadPayload v
      | .error _ => .error (memoryError (py "Cannot load memory: invalid JSON"))

-- ============================================================================
-- The store
-- ============================================================================

/-- `JsonFileMemory`, with the text of its file. -/
structure JsonFileMemory where
  entries : List MemoryEntry := []
  file : Option PyStr := none

namespace JsonFileMemory

/-- `_persist`. -/
def persist (m : JsonFileMemory) : JsonFileMemory × Except PyExc Unit :=
  match dumpText (payload m.entries) with
  | some text => ({ m with file := some text }, .ok ())
  | none => (m, .error unicodeEncodeError)

/-- `_persist_or_remove_if_empty`. -/
def persistOrRemoveIfEmpty (m : JsonFileMemory) : JsonFileMemory × Except PyExc Unit :=
  if all m.entries none ≠ [] then m.persist else ({ m with file := none }, .ok ())

/-- `add`.  The entry is there before the file is written. -/
def add {cal : Calendar} {fl : FloatRepr} (m : JsonFileMemory) (a : Add cal fl) :
    JsonFileMemory × Except PyExc Unit :=
  match Memory.add m.entries a with
  | .ok entries => ({ m with entries := entries } : JsonFileMemory).persist
  | .error e => (m, .error e)

/-- `clear`. -/
def clear (m : JsonFileMemory) (scope : Option (List (PyStr × PyStr)))
    (tiers : Option (List MemoryTier)) : JsonFileMemory × Except PyExc Unit :=
  ({ m with entries := Memory.clear m.entries scope tiers } : JsonFileMemory).persistOrRemoveIfEmpty

/-- `delete`. -/
def delete (m : JsonFileMemory) (entryId : PyStr) : JsonFileMemory × Except PyExc Unit :=
  let (entries, deleted) := Memory.delete m.entries entryId
  let m : JsonFileMemory := { m with entries := entries }
  if deleted then m.persistOrRemoveIfEmpty else (m, .ok ())

/-- `purge_expired`. -/
def purgeExpired (cal : Calendar) (now : cal.Time) (m : JsonFileMemory) :
    JsonFileMemory × Except PyExc Unit :=
  let (entries, purged) := Memory.purgeExpired cal now m.entries
  let m : JsonFileMemory := { m with entries := entries }
  if purged ≠ 0 then m.persistOrRemoveIfEmpty else (m, .ok ())

end JsonFileMemory

-- ============================================================================
-- Two memories
-- ============================================================================

/-- A call of either memory, or the file is closed and opened again. -/
inductive Event (cal : Calendar) (fl : FloatRepr) where
  | add (a : Add cal fl)
  | clear (scope : Option (List (PyStr × PyStr))) (tiers : Option (List MemoryTier))
  | delete (entryId : PyStr)
  | purgeExpired (now : cal.Time)
  | reopen

/-- A file memory, unless opening it has raised, and an in-memory one. -/
structure Twins where
  memory : Except PyExc JsonFileMemory := .ok {}
  twin : List MemoryEntry := []

/-- A call of the file memory. -/
def onFile {cal : Calendar} {fl : FloatRepr} (m : JsonFileMemory) :
    Event cal fl → Except PyExc JsonFileMemory
  | .add a => .ok (m.add a).1
  | .clear scope tiers => .ok (m.clear scope tiers).1
  | .delete entryId => .ok (m.delete entryId).1
  | .purgeExpired now => .ok (m.purgeExpired cal now).1
  | .reopen => (load fl m.file).map fun entries => { m with entries := entries }

/-- The same call of the in-memory one; a call that raises changes nothing. -/
def onTwin {cal : Calendar} {fl : FloatRepr} (entries : List MemoryEntry) :
    Event cal fl → List MemoryEntry
  | .add a =>
      match add entries a with
      | .ok entries' => entries'
      | .error _ => entries
  | .clear scope tiers => clear entries scope tiers
  | .delete entryId => (delete entries entryId).1
  | .purgeExpired now => (purgeExpired cal now entries).1
  | .reopen => entries

/-- One call of both. -/
def step {cal : Calendar} {fl : FloatRepr} (s : Twins) (e : Event cal fl) : Twins :=
  ⟨s.memory.bind fun m => onFile m e, onTwin s.twin e⟩

/-- Both hold the same entries. -/
def Agree (s : Twins) : Prop := ∃ m, s.memory = .ok m ∧ m.entries = s.twin

/-- An entry that is added can be written: UTF-8 can encode its texts. -/
def Writable {cal : Calendar} {fl : FloatRepr} (_ : Twins) : Event cal fl → Prop
  | .add a => ∀ entry, a.entry = .ok entry → (asdict entry).encodable = true
  | _ => True

-- ============================================================================
-- What is written is read
-- ============================================================================

/-- An entry that the file gives back. -/
structure Kept (fl : FloatRepr) (e : MemoryEntry) : Prop where
  encodable : (asdict e).encodable = true
  metadata : Readable false fl (.obj e.metadata)

theorem tierOrDefault_value (t : MemoryTier) : tierOrDefault (.str t.value) = t := by
  cases t <;> decide

theorem sourceOrDefault_value (s : MemorySource) : sourceOrDefault (.str s.value) = s := by
  cases s <;> decide

theorem optionalString_optStr (s : Option PyStr) : optionalString (optStr s) = s := by
  cases s <;> rfl

theorem loadItem_asdict (e : MemoryEntry) : loadItem (asdict e) = .ok e := by
  obtain ⟨id, text, metadata, createdAt, tier, source, expiresAt⟩ := e
  have hmetadata : loadMetadata [(py "id", .str id), (py "text", .str text),
      (py "metadata", .obj metadata), (py "created_at", .str createdAt),
      (py "tier", .str tier.value), (py "source", .str source.value),
      (py "expires_at", optStr expiresAt)] = .ok metadata := by
    show (if (Json.obj metadata).truthy = true then toDict (.obj metadata) else .ok []) = _
    cases metadata with
    | nil => rfl
    | cons kv kvs => rfl
  show (loadMetadata _).map _ = _
  rw [hmetadata]
  show Except.ok (MemoryEntry.mk id text metadata createdAt (tierOrDefault (.str tier.value))
    (sourceOrDefault (.str source.value)) (optionalString (optStr expiresAt))) = _
  rw [tierOrDefault_value, sourceOrDefault_value, optionalString_optStr]

theorem loadItems_asdict (entries : List MemoryEntry) :
    ((entries.map asdict).filter Json.isObj).mapM loadItem = .ok entries := by
  have hobj : (entries.map asdict).filter Json.isObj = entries.map asdict :=
    List.filter_eq_self.mpr fun v hv => by
      obtain ⟨e, -, rfl⟩ := List.mem_map.mp hv
      rfl
  rw [hobj]
  exact Lib.Traverse.mapM_map_ok_iff.mpr fun e _ => loadItem_asdict e

theorem loadPayload_payload (entries : List MemoryEntry) : loadPayload (payload entries) = .ok entries := by
  have hentries : Dict.get? [(py "schema_version", Json.int schemaVersion),
      (py "entries", .arr (entries.map asdict))] (py "entries") = some (.arr (entries.map asdict)) := rfl
  have hfield : field [(py "schema_version", Json.int schemaVersion),
      (py "entries", .arr (entries.map asdict))] "schema_version" = .int schemaVersion := rfl
  have hversion : pyIn (.int schemaVersion) [.int 1, .int schemaVersion] = true := by decide
  have hhash : hashable (.int schemaVersion) = true := rfl
  unfold payload loadPayload
  simp only [hentries, hfield, hversion, hhash, if_true]
  exact loadItems_asdict entries

theorem readable_asdict {fl : FloatRepr} {e : MemoryEntry} (h : Kept fl e) :
    Readable false fl (asdict e) := by
  have hkeys : [py "id", py "text", py "metadata", py "created_at", py "tier", py "source",
      py "expires_at"].Nodup := by decide
  have hexpires : Readable false fl (optStr e.expiresAt) := by
    cases e.expiresAt with
    | none => exact trivial
    | some s => exact textOk_raw s
  exact ⟨hkeys, textOk_raw _, textOk_raw _, textOk_raw _, textOk_raw _, textOk_raw _, h.metadata,
    textOk_raw _, textOk_raw _, textOk_raw _, textOk_raw _, textOk_raw _, textOk_raw _,
    textOk_raw _, hexpires, trivial⟩

theorem readable_payload {fl : FloatRepr} {entries : List MemoryEntry} (h : ∀ e ∈ entries, Kept fl e) :
    Readable false fl (payload entries) := by
  have hkeys : [py "schema_version", py "entries"].Nodup := by decide
  have hlist : ReadableList false fl (entries.map asdict) := by
    induction entries with
    | nil => exact trivial
    | cons e entries ih =>
        exact ⟨readable_asdict (h e (List.mem_cons_self ..)),
          ih fun x hx => h x (List.mem_cons_of_mem _ hx)⟩
  exact ⟨hkeys, textOk_raw _, trivial, textOk_raw _, hlist, trivial⟩

theorem payload_encodable_iff {entries : List MemoryEntry} :
    (payload entries).encodable = true ↔ ∀ e ∈ entries, (asdict e).encodable = true := by
  have hkeys : Py.encodable (py "schema_version") = true ∧ Py.encodable (py "entries") = true := by
    decide
  have hlist : (payload entries).encodable = Json.encodableList (entries.map asdict) := by
    show (Py.encodable (py "schema_version") && true && (Py.encodable (py "entries")
      && Json.encodableList (entries.map asdict) && true)) = _
    rw [hkeys.1, hkeys.2, Bool.true_and, Bool.true_and, Bool.true_and, Bool.and_true]
  rw [hlist, Json.encodableList_iff]
  exact List.forall_mem_map

theorem encodable_payload {fl : FloatRepr} {entries : List MemoryEntry} (h : ∀ e ∈ entries, Kept fl e) :
    (payload entries).encodable = true := payload_encodable_iff.mpr fun e he => (h e he).encodable

-- ============================================================================
-- In step
-- ============================================================================

/-- The file that holds the entries. -/
def fileOf (entries : List MemoryEntry) : Option PyStr :=
  if entries = [] then none else some (dumps false (payload entries))

/-- The file memory holds the entries of the other one, and so does its file. -/
structure Synced (fl : FloatRepr) (s : Twins) : Prop where
  memory : s.memory = .ok ⟨s.twin, fileOf s.twin⟩
  kept : ∀ e ∈ s.twin, Kept fl e

theorem Synced.agree {fl : FloatRepr} {s : Twins} (h : Synced fl s) : Agree s := ⟨_, h.memory, rfl⟩

theorem load_fileOf {fl : FloatRepr} {entries : List MemoryEntry} (h : ∀ e ∈ entries, Kept fl e) :
    load fl (fileOf entries) = .ok entries := by
  unfold fileOf
  split_ifs with hnil
  · rw [hnil]
    rfl
  · unfold load
    simp only [loadText_dumps (readable_payload h)]
    exact loadPayload_payload entries

theorem persist_eq {fl : FloatRepr} {entries : List MemoryEntry} (h : ∀ e ∈ entries, Kept fl e)
    (file : Option PyStr) :
    (JsonFileMemory.persist ⟨entries, file⟩).1 = ⟨entries, some (dumps false (payload entries))⟩ := by
  have hdump : dumpText (payload entries) = some (dumps false (payload entries)) :=
    if_pos (encodable_payload h)
  unfold JsonFileMemory.persist
  simp only [hdump]

theorem persistOrRemoveIfEmpty_eq {fl : FloatRepr} {entries : List MemoryEntry}
    (h : ∀ e ∈ entries, Kept fl e) (file : Option PyStr) :
    (JsonFileMemory.persistOrRemoveIfEmpty ⟨entries, file⟩).1 = ⟨entries, fileOf entries⟩ := by
  have hall : all entries none = entries := List.filter_eq_self.mpr fun _ _ => rfl
  unfold JsonFileMemory.persistOrRemoveIfEmpty fileOf
  simp only [hall, ne_eq, ite_not]
  split_ifs with hnil
  · rfl
  · exact persist_eq h file

theorem Synced.add {cal : Calendar} {fl : FloatRepr} {s : Twins} (h : Synced fl s) (a : Add cal fl)
    (hw : ∀ entry, a.entry = .ok entry → (asdict entry).encodable = true) :
    Synced fl (Memory.step s (.add a)) := by
  cases hentry : a.entry with
  | error e =>
      have hadd : Memory.add s.twin a = .error e := by
        unfold Memory.add
        rw [hentry]
        rfl
      have hstep : Memory.step s (.add a) = s := by
        unfold Memory.step onFile onTwin JsonFileMemory.add
        rw [h.memory]
        simp only [Except.bind, hadd]
        rw [← h.memory]
      rw [hstep]
      exact h
  | ok entry =>
      have hadd : Memory.add s.twin a = .ok (s.twin ++ [entry]) := by
        unfold Memory.add
        rw [hentry]
        rfl
      have hmetadata : entry.metadata = a.metadata.fields := by
        unfold Add.entry at hentry
        split_ifs at hentry
        simp only at hentry
        cases hexpiry : expiryIso cal a.ttl (cal.isoformat a.now) with
        | error e =>
            rw [hexpiry] at hentry
            cases hentry
        | ok expiresAt =>
            rw [hexpiry] at hentry
            cases hentry
            rfl
      have hkept : ∀ e ∈ s.twin ++ [entry], Kept fl e := by
        intro e he
        rcases List.mem_append.mp he with he | he
        · exact h.kept e he
        · rw [List.mem_singleton.mp he]
          refine ⟨hw entry hentry, ?_⟩
          rw [hmetadata]
          exact a.metadata.valid
      have hfile : fileOf (s.twin ++ [entry]) = some (dumps false (payload (s.twin ++ [entry]))) :=
        if_neg (by simp)
      refine ⟨?_, ?_⟩
      · unfold Memory.step onFile onTwin JsonFileMemory.add
        rw [h.memory]
        simp only [Except.bind, hadd, persist_eq hkept, hfile]
      · unfold Memory.step onTwin
        simp only [hadd]
        exact hkept

theorem Kept.filter {fl : FloatRepr} {entries : List MemoryEntry} (h : ∀ e ∈ entries, Kept fl e)
    (p : MemoryEntry → Bool) : ∀ e ∈ entries.filter p, Kept fl e :=
  fun e he => h e (List.mem_of_mem_filter he)

/-- Both memories stay in step. -/
theorem Synced.step {cal : Calendar} {fl : FloatRepr} {s : Twins} {e : Event cal fl}
    (h : Synced fl s) (hw : Writable s e) : Synced fl (Memory.step s e) := by
  cases e with
  | add a => exact h.add a hw
  | clear scope tiers =>
      have hkept : ∀ e ∈ Memory.clear s.twin scope tiers, Kept fl e := Kept.filter h.kept _
      refine ⟨?_, hkept⟩
      unfold Memory.step onFile onTwin JsonFileMemory.clear
      rw [h.memory]
      simp only [Except.bind, persistOrRemoveIfEmpty_eq hkept]
  | delete entryId =>
      have hkept : ∀ e ∈ (Memory.delete s.twin entryId).1, Kept fl e := Kept.filter h.kept _
      refine ⟨?_, hkept⟩
      unfold Memory.step onFile onTwin JsonFileMemory.delete
      rw [h.memory]
      simp only [Except.bind]
      split_ifs with hdeleted
      · rw [persistOrRemoveIfEmpty_eq hkept]
      · rw [Bool.not_eq_true] at hdeleted
        rw [delete_unchanged hdeleted]
  | purgeExpired now =>
      have hkept : ∀ e ∈ (Memory.purgeExpired cal now s.twin).1, Kept fl e := Kept.filter h.kept _
      refine ⟨?_, hkept⟩
      unfold Memory.step onFile onTwin JsonFileMemory.purgeExpired
      rw [h.memory]
      simp only [Except.bind]
      split_ifs with hpurged
      · rw [persistOrRemoveIfEmpty_eq hkept]
      · rw [purgeExpired_unchanged (not_not.mp hpurged)]
  | reopen =>
      refine ⟨?_, h.kept⟩
      unfold Memory.step onFile onTwin
      rw [h.memory]
      simp only [Except.bind, load_fileOf h.kept]
      rfl

/-- In every run whose added entries can be written, the two memories hold the
    same entries after every call and every reopening. -/
theorem memories_agree (cal : Calendar) (fl : FloatRepr) (es : List (Event cal fl))
    (h : Lib.Steps.Meets step Writable {} es) : Lib.Steps.Always step Agree {} es :=
  h.always (I := Synced fl) (fun _ _ hs hw => hs.step hw) (fun _ hs => hs.agree)
    ⟨rfl, fun e he => by cases he⟩

/-- A calendar on which the time stands still. -/
def frozen : Calendar where
  Time := Unit
  Seconds := Unit
  isoformat := fun _ => py "1970-01-01T00:00:00+00:00"
  fromisoformat := fun _ => some ()
  inUtc := id
  le := fun _ _ => true
  isDuration := fun _ => true
  plus := fun t _ => .ok t

theorem readable_empty : Readable false id (.obj []) := ⟨List.nodup_nil, trivial⟩

/-- `add(text)`. -/
def addText (text : PyStr) : Add frozen id where
  text := text
  metadata := ⟨[], readable_empty⟩
  uuid := py "0f"
  now := ()

theorem memories_agree_on_note :
    Lib.Steps.Meets step Writable {} [.add (addText (py "note")), .reopen, .delete (py "0f")] ∧
      Lib.Steps.Always step Agree {} [.add (addText (py "note")), .reopen, .delete (py "0f")] := by
  have hmeets : Lib.Steps.Meets step Writable {}
      [.add (addText (py "note")), .reopen, .delete (py "0f")] := by
    refine ⟨?_, trivial, trivial, trivial⟩
    intro entry hentry
    cases hentry
    decide
  exact ⟨hmeets, memories_agree frozen id _ hmeets⟩

/-- A text with half of a surrogate pair is added to both memories; writing the
    file raises, and the file memory has lost the entry when it is opened again. -/
theorem lone_surrogate_lost :
    ¬ Agree (Lib.Steps.run step {} [.add (addText [0xD800]), .reopen]) ∧
      (JsonFileMemory.add {} (addText [0xD800])).2 = .error unicodeEncodeError ∧
      (Lib.Steps.run step {} [.add (addText [0xD800]), .reopen]).twin.map MemoryEntry.text
        = [[0xD800]] := by
  refine ⟨?_, rfl, rfl⟩
  rintro ⟨m, hm, hsame⟩
  have hempty : (Lib.Steps.run step {} [.add (addText [0xD800]), .reopen]).memory = .ok {} := rfl
  rw [hempty] at hm
  cases hm
  have hlength := congrArg List.length hsame
  exact absurd hlength (by decide)

end Memory
end KineticSdk
