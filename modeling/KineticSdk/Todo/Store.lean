/-
  KineticSdk.Todo.Store

  The todo list of an agent (`todo/models.py`) and where it is kept
  (`todo/store.py`).

  A `TodoItem` cannot be built with a blank id or content: its constructor
  raises.  A file store writes its list to a temporary file that replaces the
  store's own, so a save that raises leaves the old text.
-/

import KineticSdk.Lib.Traverse
import KineticSdk.Py.JsonFile
import KineticSdk.Security.Audit

namespace KineticSdk
namespace Todo

open Py

-- ============================================================================
-- Items
-- ============================================================================

/-- `TODO_STATUSES`. -/
inductive Status where
  | pending
  | inProgress
  | completed
deriving DecidableEq

/-- The text of a status. -/
def Status.text : Status → PyStr
  | .pending => py "pending"
  | .inProgress => py "in_progress"
  | .completed => py "completed"

/-- `sorted(TODO_STATUSES)`, as a message shows it. -/
def sortedStatuses : PyStr := py "['completed', 'in_progress', 'pending']"

/-- A text that is not blank. -/
abbrev NonBlank := { s : PyStr // strip s ≠ [] }

/-- `isinstance(v, str) and v.strip()`. -/
def nonBlank : Json → Option NonBlank
  | .str s => if h : strip s ≠ [] then some ⟨s, h⟩ else none
  | _ => none

/-- `isinstance(v, str) and v in TODO_STATUSES`. -/
def readStatus (v : Json) : Option Status :=
  [Status.pending, .inProgress, .completed].find? fun s => v == .str s.text

/-- `TodoItem`. -/
structure TodoItem where
  id : NonBlank
  content : NonBlank
  status : Status
deriving DecidableEq

/-- `TodoItem.to_dict`. -/
def TodoItem.toDict (item : TodoItem) : Json :=
  .obj [(py "id", .str item.id), (py "content", .str item.content),
    (py "status", .str item.status.text)]

/-- A `ValueError`. -/
def valueError (message : PyStr) : PyExc := ⟨py "ValueError", message⟩

/-- `TodoItem.from_dict`. -/
def TodoItem.fromDict : Json → Except PyExc TodoItem
  | .obj data =>
      match nonBlank (field data "id"), nonBlank (field data "content"),
        readStatus (field data "status") with
      | none, _, _ => .error (valueError (py "todo item id must be a non-empty string"))
      | _, none, _ => .error (valueError (py "todo item content must be a non-empty string"))
      | _, _, none => .error (valueError (py "todo item status must be one of " ++ sortedStatuses))
      | some id, some content, some status => .ok ⟨id, content, status⟩
  | _ => .error (valueError (py "todo item must be a dict"))

/-- `TodoList`. -/
structure TodoList where
  items : List TodoItem
deriving DecidableEq

/-- `TodoList.to_dict`. -/
def TodoList.toDict (l : TodoList) : Json :=
  .obj [(py "items", .arr (l.items.map TodoItem.toDict))]

/-- `TodoList.from_dict`. -/
def TodoList.fromDict : Json → Except PyExc TodoList
  | .obj data =>
      match field data "items" with
      | .arr items => do
          let parsed ← (items.filter Json.isObj).mapM TodoItem.fromDict
          if parsed.length ≠ items.length then
            .error (valueError (py "each todo item must be a dict"))
          else return ⟨parsed⟩
      | _ => .error (valueError (py "todo list items must be a list"))
  | _ => .error (valueError (py "todo list must be a dict"))

-- ============================================================================
-- Stores
-- ============================================================================

/-- `TODO_SCHEMA_VERSION`. -/
def schemaVersion : Int := 1

/-- A store, with the text of its file or its list. -/
inductive TodoStore where
  /-- `JsonFileTodoStore`. -/
  | jsonFile (path : PyStr) (text : Option PyStr)
  /-- `InMemoryTodoStore`. -/
  | inMemory (todoList : Option TodoList)
deriving DecidableEq

/-- The payload of a file store. -/
def payload (l : TodoList) : Json :=
  .obj [(py "schema_version", .int schemaVersion), (py "todos", l.toDict)]

/-- `save`: the store after it, and whether it raised; `fault` is what the file
    system raises. -/
def TodoStore.save (fault : Option PyExc) (store : TodoStore) (l : TodoList) :
    TodoStore × Except PyExc Unit :=
  match store with
  | .jsonFile path text =>
      match fault, dumpText (payload l) with
      | some e, _ => (.jsonFile path text, .error e)
      | none, none => (.jsonFile path text, .error Security.unicodeEncodeError)
      | none, some text' => (.jsonFile path (some text'), .ok ())
  | .inMemory old =>
      match TodoList.fromDict l.toDict with
      | .ok copy => (.inMemory (some copy), .ok ())
      | .error e => (.inMemory old, .error e)

/-- `TodoStoreError`. -/
def cannotLoad (path problem : PyStr) : PyExc :=
  ⟨py "TodoStoreError", py "Cannot load todos from " ++ path ++ py ": " ++ problem⟩

/-- What `JsonFileTodoStore.load` makes of the payload it has read. -/
def loadPayload (path : PyStr) : Json → Except PyExc TodoList
  | .obj payload =>
      match Dict.get? payload (py "todos") with
      | none => .error (cannotLoad path (py "not a todo file"))
      | some todos =>
          let version := field payload "schema_version"
          if pyEq version (.int schemaVersion) then
            if todos.isObj then
              match TodoList.fromDict todos with
              | .ok l => .ok l
              | .error e => .error (cannotLoad path e.message)
            else .error (cannotLoad path (py "todos must be a dict"))
          else
            .error (cannotLoad path (py "schema version " ++ pyRepr version
              ++ py " is not supported (expected " ++ intText schemaVersion ++ py ")"))
  | _ => .error (cannotLoad path (py "not a todo file"))

/-- `load`, with `none` where no list exists yet. -/
def TodoStore.load (fl : FloatRepr) : TodoStore → Except PyExc (Option TodoList)
  | .jsonFile _ none => .ok none
  | .jsonFile path (some text) =>
      match loadText fl text with
      | .ok v => (loadPayload path v).map some
      | .error _ => .error (cannotLoad path (py "invalid JSON"))
  | .inMemory none => .ok none
  | .inMemory (some l) => (TodoList.fromDict l.toDict).map some

-- ============================================================================
-- What is saved is loaded
-- ============================================================================

theorem nonBlank_str (s : NonBlank) : nonBlank (.str s) = some s := dif_pos s.property

theorem readStatus_text (s : Status) : readStatus (.str s.text) = some s := by
  cases s <;> decide

theorem TodoItem.fromDict_toDict (item : TodoItem) : TodoItem.fromDict item.toDict = .ok item := by
  have hid : field [(py "id", .str item.id), (py "content", .str item.content),
      (py "status", .str item.status.text)] "id" = .str item.id := rfl
  have hcontent : field [(py "id", .str item.id), (py "content", .str item.content),
      (py "status", .str item.status.text)] "content" = .str item.content := rfl
  have hstatus : field [(py "id", .str item.id), (py "content", .str item.content),
      (py "status", .str item.status.text)] "status" = .str item.status.text := rfl
  unfold TodoItem.toDict TodoItem.fromDict
  simp only [hid, hcontent, hstatus, nonBlank_str, readStatus_text]

theorem TodoList.fromDict_toDict (l : TodoList) : TodoList.fromDict l.toDict = .ok l := by
  have hobj : (l.items.map TodoItem.toDict).filter Json.isObj = l.items.map TodoItem.toDict :=
    List.filter_eq_self.mpr fun v hv => by
      obtain ⟨item, -, rfl⟩ := List.mem_map.mp hv
      rfl
  have hparsed : (l.items.map TodoItem.toDict).mapM TodoItem.fromDict = .ok l.items :=
    Lib.Traverse.mapM_map_ok_iff.mpr fun item _ => item.fromDict_toDict
  have hitems : field [(py "items", .arr (l.items.map TodoItem.toDict))] "items"
      = .arr (l.items.map TodoItem.toDict) := rfl
  unfold TodoList.toDict TodoList.fromDict
  simp only [hitems, hobj, hparsed, List.length_map]
  exact if_neg fun hne => hne rfl

theorem readable_payload (fl : FloatRepr) (l : TodoList) : Readable false fl (payload l) := by
  have hitem : ∀ item : TodoItem, Readable false fl item.toDict := fun item =>
    ⟨(by decide : [py "id", py "content", py "status"].Nodup), textOk_raw _, textOk_raw _,
      textOk_raw _, textOk_raw _, textOk_raw _, textOk_raw _, trivial⟩
  have hitems : ∀ items : List TodoItem, ReadableList false fl (items.map TodoItem.toDict) := by
    intro items
    induction items with
    | nil => exact trivial
    | cons item items ih => exact ⟨hitem item, ih⟩
  have hlist : Readable false fl l.toDict :=
    ⟨(by decide : [py "items"].Nodup), textOk_raw _, hitems l.items, trivial⟩
  exact ⟨(by decide : [py "schema_version", py "todos"].Nodup), textOk_raw _, trivial, textOk_raw _,
    hlist, trivial⟩

theorem loadPayload_payload (path : PyStr) (l : TodoList) : loadPayload path (payload l) = .ok l := by
  have htodos : Dict.get? [(py "schema_version", .int schemaVersion), (py "todos", l.toDict)]
      (py "todos") = some l.toDict := rfl
  have hversion : pyEq (field [(py "schema_version", .int schemaVersion), (py "todos", l.toDict)]
      "schema_version") (.int schemaVersion) = true := by
    show pyEq (.int 1) (.int 1) = true
    decide
  unfold payload loadPayload
  simp only [htodos, hversion, if_true, TodoList.fromDict_toDict]
  rfl

/-- A save that returns has stored the list; one that raises has changed nothing. -/
theorem TodoStore.save_cases (fl : FloatRepr) (fault : Option PyExc) (store : TodoStore) (l : TodoList) :
    (∃ store', store.save fault l = (store', .ok ()) ∧ store'.load fl = .ok (some l)) ∨
      ∃ e, store.save fault l = (store, .error e) := by
  cases store with
  | jsonFile path text =>
      cases fault with
      | some e => exact .inr ⟨e, rfl⟩
      | none =>
          by_cases henc : (payload l).encodable = true
          · have hdump : dumpText (payload l) = some (dumps false (payload l)) := if_pos henc
            refine .inl ⟨.jsonFile path (some (dumps false (payload l))), ?_, ?_⟩
            · unfold TodoStore.save
              simp only [hdump]
            · unfold TodoStore.load
              simp only [loadText_dumps (readable_payload fl l), loadPayload_payload]
              rfl
          · have hdump : dumpText (payload l) = none := if_neg henc
            refine .inr ⟨Security.unicodeEncodeError, ?_⟩
            unfold TodoStore.save
            simp only [hdump]
  | inMemory old =>
      refine .inl ⟨.inMemory (some l), ?_, ?_⟩
      · unfold TodoStore.save
        simp only [TodoList.fromDict_toDict]
      · unfold TodoStore.load
        simp only [TodoList.fromDict_toDict]
        rfl

end Todo
end KineticSdk
