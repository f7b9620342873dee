/-
  KineticSdk.Conversation.Store

  `JsonFileConversationStore` (`conversation/store.py`).

  The file holds one JSON value, replaced as a whole by every save that gets
  through.  Unlike the replay store, `save` gives `json.dump` no `default`: a
  summary object in the metadata is no JSON value and makes it raise.
-/

import KineticSdk.Replay.RoundTrip

namespace KineticSdk
namespace Conversation

open Py Security Replay

-- ============================================================================
-- The store
-- ============================================================================

/-- `JsonFileConversationStore`. -/
structure JsonFileConversationStore where
  path : PyStr

/-- `SCHEMA_VERSION`. -/
def schemaVersion : Int := 1

/-- What `json.dump` raises on a summary object. -/
def notSerializable : PyExc :=
  ⟨py "TypeError", py "Object of type StructuredSummary is not JSON serializable"⟩

/-- The first thing in the metadata that cannot be written. -/
def metadataError : List (PyStr × MetaValue) → Option PyExc
  | [] => none
  | (key, value) :: rest =>
      if encodable key then
        match value with
        | .summary _ => some notSerializable
        | .json v => if v.encodable then metadataError rest else some unicodeEncodeError
      else some unicodeEncodeError

/-- The exception of `json.dump`, which writes the fields in order. -/
def dumpError (s : ConversationState) : Option PyExc :=
  if (optStr s.systemPrompt).encodable && Json.encodableList (s.messages.map .obj) then
    metadataError s.metadata
  else some unicodeEncodeError

/-- What `save` writes. -/
def savedPayload (s : ConversationState) : Json :=
  .obj [(py "schema_version", .int schemaVersion), (py "state", .obj (stateToDict s))]

/-- `save`: the file after it, and whether it raised. -/
def JsonFileConversationStore.save (_ : JsonFileConversationStore) (file : Option Json)
    (s : ConversationState) : Option Json × Except PyExc Unit :=
  match dumpError s with
  | some e => (file, .error e)
  | none => (some (savedPayload s), .ok ())

/-- `ConversationStoreError`. -/
def JsonFileConversationStore.cannotLoad (store : JsonFileConversationStore) (problem : PyStr) :
    PyExc :=
  ⟨py "ConversationStoreError", py "Cannot load conversation from " ++ store.path ++ py ": "
    ++ problem⟩

/-- `version == SCHEMA_VERSION`, for any JSON value. -/
def isSchemaVersion : Json → Bool
  | .int n => n = schemaVersion
  | .bool b => b
  | .float r => r = py "1.0"
  | _ => false

/-- `load`. -/
def JsonFileConversationStore.load (store : JsonFileConversationStore) (file : Option Json) :
    Except PyExc (Option ConversationState) :=
  match file with
  | none => .ok none
  | some (.obj payload) =>
      match Dict.get? payload (py "state") with
      | none => .error (store.cannotLoad (py "not a conversation file"))
      | some state =>
          let version := (Dict.get? payload (py "schema_version")).getD .null
          if isSchemaVersion version then
            match state with
            | .obj data =>
                match stateFromDict data with
                | .ok s => .ok (some s)
                | .error e => .error (store.cannotLoad e.message)
            | _ => .error (store.cannotLoad (py "state payload must be a dict"))
          else
            .error (store.cannotLoad (py "schema version " ++ pyRepr version
              ++ py " is not supported (expected " ++ intText schemaVersion ++ py ")"))
  | some _ => .error (store.cannotLoad (py "not a conversation file"))

-- ============================================================================
-- The round trip
-- ============================================================================

/-- Saving the state over any file succeeds, and loading gives it back. -/
def Faithful (store : JsonFileConversationStore) (s : ConversationState) : Prop :=
  ∀ file, (store.save file s).2 = .ok () ∧ store.load (store.save file s).1 = .ok (some s)

/-- Every text of the state can be encoded. -/
def ValidText (s : ConversationState) : Prop := Json.encodableFields (stateToDict s) = true

theorem metadataError_eq_none {md : List (PyStr × MetaValue)}
    (hplain : ∀ kv ∈ md, ∃ v, kv.2 = .json v)
    (hvalid : Json.encodableFields (md.map fun kv => (kv.1, metaToJson kv.2)) = true) :
    metadataError md = none := by
  induction md with
  | nil => rfl
  | cons kv md ih =>
      obtain ⟨key, value⟩ := kv
      obtain ⟨v, rfl⟩ : ∃ v, value = .json v := hplain _ (List.mem_cons_self ..)
      simp only [List.map_cons, metaToJson, Json.encodableFields, Bool.and_eq_true] at hvalid
      rw [metadataError, if_pos hvalid.1.1, if_pos hvalid.1.2]
      exact ih (fun kv hkv => hplain kv (List.mem_cons_of_mem _ hkv)) hvalid.2

theorem plain_of_metadataError {md : List (PyStr × MetaValue)} (h : metadataError md = none) :
    ∀ kv ∈ md, ∃ v, kv.2 = .json v := by
  induction md with
  | nil => simp
  | cons kv md ih =>
      obtain ⟨key, value⟩ := kv
      cases value with
      | summary found =>
          rw [metadataError] at h
          split at h <;> cases h
      | json v =>
          rw [metadataError] at h
          split at h
          · split at h
            · exact List.forall_mem_cons.mpr ⟨⟨v, rfl⟩, ih h⟩
            · cases h
          · cases h

/-- A state of valid texts survives the store exactly if no summary object is
    in its metadata. -/
theorem faithful_iff (store : JsonFileConversationStore) {s : ConversationState}
    (hvalid : ValidText s) : Faithful store s ↔ plainMetadata s := by
  obtain ⟨hprompt, hmessages, hmeta⟩ := (encodable_stateToDict_iff s).mp hvalid
  have hlist : Json.encodableList (s.messages.map .obj) = true := by
    rw [Json.encodableList_iff]
    simpa [Json.encodable] using hmessages
  have hdump : dumpError s = metadataError s.metadata := by
    rw [dumpError, hprompt, hlist]
    rfl
  have hload : store.load (some (savedPayload s)) = .ok (some (rebuildConv s)) := by
    have hread : store.load (some (savedPayload s)) =
        match stateFromDict (stateToDict s) with
        | .ok s => .ok (some s)
        | .error e => .error (store.cannotLoad e.message) := rfl
    rw [hread, stateFromDict_stateToDict]
  constructor
  · intro h
    have hsaved := (h none).1
    unfold JsonFileConversationStore.save at hsaved
    rw [hdump] at hsaved
    cases herror : metadataError s.metadata with
    | none => exact plain_of_metadataError herror
    | some e =>
        rw [herror] at hsaved
        cases hsaved
  · intro hplain file
    unfold JsonFileConversationStore.save
    rw [hdump, metadataError_eq_none hplain hmeta]
    exact ⟨rfl, hload.trans (by rw [(rebuildConv_eq_self_iff s).mpr hplain])⟩

end Conversation
end KineticSdk
