/-
  KineticSdk.Todo.Tool

  `TodoWriteTool` and `TodoReadTool` (`todo/tool.py`), and what every sequence
  of writes keeps.

  A write checks every item, then the list as a whole, and then saves it.  The
  checks are those of `WellFormed` (`accept_wellFormed`), and a save that
  returns is loaded as it was saved (`TodoStore.save_cases`).
-/

import KineticSdk.Lib.Steps
import KineticSdk.Todo.Store
import KineticSdk.Tool.Base
import Mathlib.Data.List.Dedup

namespace KineticSdk
namespace Todo

open Py Tool

-- ============================================================================
-- Writing
-- ============================================================================

/-- `_STATUS_MARKERS`. -/
def Status.marker : Status → PyStr
  | .completed => py "[x]"
  | .inProgress => py "[~]"
  | .pending => py "[ ]"

/-- `_render`. -/
def render (l : TodoList) : PyStr :=
  join (py "\n") (l.items.map fun item =>
    item.status.marker ++ py " " ++ item.id ++ py ". " ++ item.content)

/-- What is wrong with the item at a position. -/
def itemError (position : Nat) (problem : PyStr) : PyStr :=
  py "todo at position " ++ natText position ++ problem

/-- The body of the loop over the items. -/
def readItem (position : Nat) : Json → Except PyStr TodoItem
  | .obj raw =>
      let itemId := (Dict.get? raw (py "id")).getD (.str (natText position))
      match nonBlank (field raw "content"), readStatus (field raw "status"), nonBlank itemId with
      | none, _, _ => .error (itemError position (py " content must be a non-empty string"))
      | _, none, _ => .error (itemError position (py " status must be one of " ++ sortedStatuses))
      | _, _, none => .error (itemError position (py " id must be a non-empty string"))
      | some content, some status, some id => .ok ⟨id, content, status⟩
  | _ => .error (itemError position (py " must be an object"))

/-- The loop over the items. -/
def readItems (position : Nat) : List Json → Except PyStr (List TodoItem)
  | [] => .ok []
  | raw :: todos => do
      let item ← readItem position raw
      let items ← readItems (position + 1) todos
      return item :: items

/-- The ids of a list of items. -/
def ids (items : List TodoItem) : List PyStr := items.map fun item => item.id

/-- The checks on the list as a whole. -/
def listError (items : List TodoItem) : Option PyStr :=
  let inProgressCount := items.countP fun item => item.status = .inProgress
  let allCompleted := !items.isEmpty && items.all fun item => item.status = .completed
  let allPending := !items.isEmpty && items.all fun item => item.status = .pending
  if (ids items).dedup.length ≠ items.length then some (py "todo ids must be unique")
  else if !items.isEmpty && !allCompleted && !allPending && inProgressCount != 1 then
    some (py "exactly one todo must be in_progress unless the list is empty, all completed, or all pending")
  else none

/-- `execute`, up to the save. -/
def accept : Json → Except PyStr TodoList
  | .arr todos =>
      match readItems 1 todos with
      | .error e => .error e
      | .ok items =>
          match listError items with
          | some e => .error e
          | none => .ok ⟨items⟩
  | _ => .error (py "todos must be a list")

/-- `TodoWriteTool.execute(**args)`: the store after it, and the result. -/
def execute (fault : Option PyExc) (store : TodoStore) (args : Py.Dict) :
    TodoStore × Except PyExc ToolResult :=
  match Dict.get? args (py "todos") with
  | none => (store, .error ⟨py "TypeError",
      py "TodoWriteTool.execute() missing 1 required positional argument: 'todos'"⟩)
  | some todos =>
      match accept todos with
      | .error e => (store, .ok (.failed e))
      | .ok l =>
          match store.save fault l with
          | (store', .error e) => (store', .ok (.failed (py "could not save todos: " ++ e.message)))
          | (store', .ok ()) => (store', .ok { output := .str (render l) })

/-- `TodoReadTool.execute`. -/
def read (fl : FloatRepr) (store : TodoStore) : ToolResult :=
  match store.load fl with
  | .error e => .failed (py "could not load todos: " ++ e.message)
  | .ok none => { output := .str (py "No todos yet.") }
  | .ok (some l) =>
      if l.items = [] then { output := .str (py "No todos yet.") }
      else { output := .str (render l) }

-- ============================================================================
-- Well-formed lists
-- ============================================================================

/-- What the tool promises of the list. -/
structure WellFormed (l : TodoList) : Prop where
  distinct : (ids l.items).Nodup
  named : ∀ item ∈ l.items, item.id.val ≠ [] ∧ item.content.val ≠ []
  progress : l.items = [] ∨ (∀ item ∈ l.items, item.status = .completed) ∨
    (∀ item ∈ l.items, item.status = .pending) ∨
    l.items.countP (fun item => item.status = .inProgress) = 1

theorem NonBlank.ne_nil (s : NonBlank) : s.val ≠ [] := by
  intro hnil
  apply s.property
  rw [hnil]
  rfl

theorem nodup_of_length_dedup {xs : List PyStr} (h : xs.dedup.length = xs.length) : xs.Nodup := by
  have hself : xs.dedup = xs := (List.dedup_sublist xs).eq_of_length h
  rw [← hself]
  exact List.nodup_dedup xs

theorem wellFormed_of_listError {items : List TodoItem} (h : listError items = none) :
    WellFormed ⟨items⟩ := by
  unfold listError at h
  simp only at h
  split_ifs at h with hids hprogress
  have hlength : (ids items).dedup.length = (ids items).length := by
    rw [not_not.mp hids, ids, List.length_map]
  refine ⟨nodup_of_length_dedup hlength, fun item _ => ⟨item.id.ne_nil, item.content.ne_nil⟩, ?_⟩
  by_cases hnil : items = []
  · exact .inl hnil
  have hempty : items.isEmpty = false := by
    rw [← Bool.not_eq_true, List.isEmpty_iff]
    exact hnil
  right
  by_cases hcompleted : (items.all fun item => item.status = .completed) = true
  · left
    simpa using hcompleted
  · right
    by_cases hpending : (items.all fun item => item.status = .pending) = true
    · left
      simpa using hpending
    · right
      rw [Bool.not_eq_true] at hcompleted hpending
      rw [hempty, hcompleted, hpending] at hprogress
      simpa using hprogress

theorem accept_wellFormed {todos : Json} {l : TodoList} (h : accept todos = .ok l) : WellFormed l := by
  cases todos with
  | arr todos =>
      cases hitems : readItems 1 todos with
      | error e =>
          simp only [accept, hitems] at h
          cases h
      | ok items =>
          cases hlist : listError items with
          | some e =>
              simp only [accept, hitems, hlist] at h
              cases h
          | none =>
              simp only [accept, hitems, hlist] at h
              cases h
              exact wellFormed_of_listError hlist
  | _ => cases h

-- ============================================================================
-- Sequences of calls
-- ============================================================================

/-- A call of the write tool. -/
structure Call where
  args : Py.Dict
  /-- What the file system raises when the list is saved. -/
  fault : Option PyExc := none

/-- The call returned, and not with an error. -/
def succeeded : Except PyExc ToolResult → Bool
  | .ok r => r.error.isNone
  | .error _ => false

/-- The list a call asks for. -/
def Call.list (c : Call) : Option TodoList :=
  (Dict.get? c.args (py "todos")).bind fun todos => (accept todos).toOption

/-- A store, and the list that was last saved in it. -/
structure Session where
  store : TodoStore
  saved : Option TodoList := none

/-- One call. -/
def Session.step (s : Session) (c : Call) : Session :=
  let (store, result) := execute c.fault s.store c.args
  ⟨store, if succeeded result then c.list else s.saved⟩

/-- The kinds of stores. -/
inductive Kind where
  | jsonFile (path : PyStr)
  | inMemory

/-- A store in which nothing has been saved. -/
def Kind.empty : Kind → TodoStore
  | .jsonFile path => .jsonFile path none
  | .inMemory => .inMemory none

/-- The calls made on an empty store. -/
def session (kind : Kind) (calls : List Call) : Session :=
  Lib.Steps.run Session.step ⟨kind.empty, none⟩ calls

/-- What one call does: it is turned down and changes nothing, or the list it
    asks for is well-formed, saved and loaded again. -/
theorem execute_cases (fl : FloatRepr) (store : TodoStore) (c : Call) :
    ((execute c.fault store c.args).1 = store ∧ succeeded (execute c.fault store c.args).2 = false) ∨
      ∃ l, c.list = some l ∧ WellFormed l ∧ succeeded (execute c.fault store c.args).2 = true ∧
        (execute c.fault store c.args).1.load fl = .ok (some l) := by
  cases htodos : Dict.get? c.args (py "todos") with
  | none =>
      left
      unfold execute
      simp only [htodos]
      exact ⟨trivial, rfl⟩
  | some todos =>
      cases haccept : accept todos with
      | error e =>
          left
          unfold execute
          simp only [htodos, haccept]
          exact ⟨trivial, rfl⟩
      | ok l =>
          rcases store.save_cases fl c.fault l with ⟨store', hsave, hload⟩ | ⟨e, hsave⟩
          · refine .inr ⟨l, ?_, accept_wellFormed haccept, ?_, ?_⟩
            · unfold Call.list
              simp only [htodos, Option.bind_some, haccept]
              rfl
            · unfold execute
              simp only [htodos, haccept, hsave]
              rfl
            · unfold execute
              simp only [htodos, haccept, hsave]
              exact hload
          · left
            unfold execute
            simp only [htodos, haccept, hsave]
            exact ⟨trivial, rfl⟩

/-- The store loads what was last saved, and that is well-formed. -/
structure Stored (fl : FloatRepr) (s : Session) : Prop where
  load : s.store.load fl = .ok s.saved
  wellFormed : ∀ l ∈ s.saved, WellFormed l

theorem Stored.step {fl : FloatRepr} {s : Session} (h : Stored fl s) (c : Call) :
    Stored fl (s.step c) := by
  unfold Session.step
  generalize hexec : execute c.fault s.store c.args = r
  obtain ⟨store, result⟩ := r
  have hcases := execute_cases fl s.store c
  rw [hexec] at hcases
  rcases hcases with ⟨hstore, hfail⟩ | ⟨l, hlist, hwell, hok, hload⟩
  · have hstore' : store = s.store := hstore
    have hfail' : succeeded result = false := hfail
    simp only [hstore', hfail', Bool.false_eq_true, if_false]
    exact h
  · have hok' : succeeded result = true := hok
    simp only [hok', hlist, if_true]
    refine ⟨hload, ?_⟩
    rintro l' ⟨⟩
    exact hwell

theorem stored_empty (fl : FloatRepr) (kind : Kind) : Stored fl ⟨kind.empty, none⟩ where
  load := by cases kind <;> rfl
  wellFormed := by
    rintro l ⟨⟩

theorem stored_session (fl : FloatRepr) (kind : Kind) (calls : List Call) :
    Stored fl (session kind calls) :=
  Lib.Steps.run_keeps (fun _ c h => h.step c) (stored_empty fl kind) calls

/-- After any sequence of calls with any arguments, on either kind of store:
    `load` gives the list last saved, that list is well-formed, and a call that
    does not succeed leaves the store as it is. -/
theorem writes_keep_list_wellFormed (fl : FloatRepr) (kind : Kind) (calls : List Call) :
    (session kind calls).store.load fl = .ok (session kind calls).saved ∧
      (∀ l ∈ (session kind calls).saved, WellFormed l) ∧
      ∀ c : Call, succeeded (execute c.fault (session kind calls).store c.args).2 = false →
        (execute c.fault (session kind calls).store c.args).1 = (session kind calls).store := by
  have hstored := stored_session fl kind calls
  refine ⟨hstored.load, hstored.wellFormed, fun c hfail => ?_⟩
  rcases execute_cases fl (session kind calls).store c with ⟨hstore, -⟩ | ⟨l, -, -, hok, -⟩
  · exact hstore
  · rw [hok] at hfail
    cases hfail

-- a third call with two items in progress is turned down
example :
    let todo := fun content status =>
      Json.obj [(py "content", .str (py content)), (py "status", .str (py status))]
    let call := fun todos => ({ args := [(py "todos", .arr todos)] } : Call)
    (session (.jsonFile (py "t.json"))
      [call [todo "a" "pending"], call [todo "a" "completed", todo "b" "in_progress"],
        call [todo "a" "in_progress", todo "b" "in_progress"]]).saved.map render
      = some (py "[x] 1. a\n[~] 2. b") := by
  decide +kernel

/-- Reading after any sequence of calls shows the list last saved. -/
theorem read_session (fl : FloatRepr) (kind : Kind) (calls : List Call) :
    read fl (session kind calls).store =
      match (session kind calls).saved with
      | none => { output := .str (py "No todos yet.") }
      | some l =>
          if l.items = [] then { output := .str (py "No todos yet.") }
          else { output := .str (render l) } := by
  unfold read
  rw [(stored_session fl kind calls).load]
  cases (session kind calls).saved <;> rfl

end Todo
end KineticSdk
