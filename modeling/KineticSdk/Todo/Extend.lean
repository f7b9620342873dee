/-
  KineticSdk.Todo.Extend

  Extending a stored plan (`todo/tool.py`): its items are sent again with their
  ids, in any order, and new items without an id stand between them.

  A new item is named after its position, and a stored id is the position of an
  earlier time.  The two kinds of ids do not mix where no new item stands at a
  position that a stored item is still named after (`extend_iff`).
-/

import KineticSdk.Todo.Tool
import Mathlib.Data.List.Forall2

namespace KineticSdk
namespace Todo

open Py Tool

-- ============================================================================
-- Edits
-- ============================================================================

/-- The fields of an item, where it is an object. -/
def fields : Json → Py.Dict
  | .obj raw => raw
  | _ => []

/-- The id an item is sent with. -/
def sentId (raw : Json) : Option PyStr :=
  match Dict.get? (fields raw) (py "id") with
  | some (.str id) => some id
  | _ => none

/-- The status an item is sent with. -/
def sentStatus (raw : Json) : Option Status := readStatus (field (fields raw) "status")

/-- A stored item is sent again, with some status. -/
structure Resends (item : TodoItem) (raw : Json) : Prop where
  object : raw.isObj = true
  id : Dict.get? (fields raw) (py "id") = some (.str item.id)
  content : field (fields raw) "content" = .str item.content
  status : (sentStatus raw).isSome = true

/-- A new item, without an id. -/
structure IsNew (raw : Json) : Prop where
  object : raw.isObj = true
  id : Dict.get? (fields raw) (py "id") = none
  content : (nonBlank (field (fields raw) "content")).isSome = true
  status : (sentStatus raw).isSome = true

/-- The rule on the statuses of a list. -/
def StatusRule (statuses : List Status) : Prop :=
  statuses = [] ∨ (∀ s ∈ statuses, s = .completed) ∨ (∀ s ∈ statuses, s = .pending) ∨
    statuses.countP (fun s => s = .inProgress) = 1

/-- The items of a list are sent again, each at most once, with new items anywhere. -/
structure EditOf (l : TodoList) (raws : List Json) : Prop where
  known : ∀ raw ∈ raws, IsNew raw ∨ ∃ item ∈ l.items, Resends item raw
  once : raws.Pairwise fun raw raw' => ∀ id ∈ sentId raw, id ∉ sentId raw'
  progress : StatusRule (raws.filterMap sentStatus)

/-- An item is stored as it was sent, under the id it was sent with. -/
structure StoredAs (raw : Json) (item : TodoItem) : Prop where
  id : ∀ id ∈ sentId raw, item.id.val = id
  content : field (fields raw) "content" = .str item.content
  status : sentStatus raw = some item.status

/-- The call is accepted, and the store loads the items in the order they were sent. -/
def TakesEdit (fl : FloatRepr) (store : TodoStore) (fault : Option PyExc) (raws : List Json) : Prop :=
  succeeded (execute fault store [(py "todos", .arr raws)]).2 = true ∧
    ∃ l, (execute fault store [(py "todos", .arr raws)]).1.load fl = .ok (some l) ∧
      List.Forall₂ StoredAs raws l.items

/-- No new item stands at a position that a re-sent item is named after. -/
def PositionsFree (raws : List Json) : Prop :=
  ∀ raw ∈ raws.zipIdx 1, sentId raw.1 = none → ∀ other ∈ raws, natText raw.2 ∉ sentId other

/-- A text that UTF-8 can encode, if it is one. -/
def Encodes (v : Json) : Prop := ∀ s, v = .str s → Py.encodable s = true

/-- The store can save: a file store needs a disk that works and texts it can encode. -/
def Savable (store : TodoStore) (fault : Option PyExc) (raws : List Json) : Prop :=
  match store with
  | .jsonFile _ _ => fault = none ∧
      ∀ raw ∈ raws, (∀ id ∈ sentId raw, Py.encodable id = true) ∧ Encodes (field (fields raw) "content")
  | .inMemory _ => True

-- ============================================================================
-- Ids
-- ============================================================================

/-- The id an item has at a position. -/
def idAt (raw : Json × Nat) : PyStr := (sentId raw.1).getD (natText raw.2)

theorem natText_injective {m n : Nat} (h : natText m = natText n) : m = n := by
  rw [← digitsValue_natText m, h, digitsValue_natText]

theorem isSpace_of_digit {c : Nat} (h : isDigitChar c = true) : isSpace c = false := by
  have hall : ∀ c < 58, 48 ≤ c → isSpace c = false := by decide
  have hrange : 48 ≤ c ∧ c ≤ 57 := by simpa [isDigitChar] using h
  exact hall c (by omega) hrange.1

theorem strip_natText (n : Nat) : strip (natText n) ≠ [] := by
  cases h : natText n with
  | nil => exact absurd h (natText_ne_nil n)
  | cons c cs =>
      have hmem : c ∈ natText n := h ▸ List.mem_cons_self
      exact h ▸ strip_ne_nil hmem (isSpace_of_digit (isDigitChar_natText n c hmem))

/-- The positions of a list differ. -/
theorem zipIdx_positions (raws : List Json) (n : Nat) :
    (raws.zipIdx n).Pairwise fun x y => x.2 < y.2 := by
  have hmap : (raws.zipIdx n).map Prod.snd = List.range' n raws.length := by simp
  have hsorted : ((raws.zipIdx n).map Prod.snd).Pairwise (· < ·) := hmap ▸ List.pairwise_lt_range'
  exact List.pairwise_map.mp hsorted

theorem zipIdx_once {raws : List Json} {R : Json → Json → Prop} (h : raws.Pairwise R) (n : Nat) :
    (raws.zipIdx n).Pairwise fun x y => R x.1 y.1 := by
  have hmap : (raws.zipIdx n).map Prod.fst = raws := by simp
  exact List.pairwise_map.mp (hmap.symm ▸ h)

theorem mem_of_mem_zipIdx {raws : List Json} {n : Nat} {x : Json × Nat} (h : x ∈ raws.zipIdx n) :
    x.1 ∈ raws := by
  have hmap : (raws.zipIdx n).map Prod.fst = raws := by simp
  exact hmap ▸ List.mem_map_of_mem h

/-- The ids are distinct exactly when no position of a new item is the id of another. -/
theorem nodup_idAt_iff {raws : List Json}
    (honce : raws.Pairwise fun raw raw' => ∀ id ∈ sentId raw, id ∉ sentId raw') :
    ((raws.zipIdx 1).map idAt).Nodup ↔ PositionsFree raws := by
  constructor
  · rintro hnodup x hx hnew other hother hid
    have hmap : (raws.zipIdx 1).map Prod.fst = raws := by simp
    obtain ⟨y, hy, rfl⟩ := List.mem_map.mp (hmap.symm ▸ hother)
    have hsame : idAt x = idAt y := by
      unfold idAt
      rw [hnew, hid]
      rfl
    obtain rfl := List.inj_on_of_nodup_map hnodup hx hy hsame
    rw [hnew] at hid
    cases hid
  · intro hfree
    have hpairs := (zipIdx_once honce 1).and (zipIdx_positions raws 1)
    refine List.pairwise_map.mpr (hpairs.imp_of_mem fun {x y} hx hy hxy hsame => ?_)
    obtain ⟨hdistinct, hpositions⟩ := hxy
    unfold idAt at hsame
    cases hidx : sentId x.1 with
    | some a =>
        cases hidy : sentId y.1 with
        | some b =>
            rw [hidx, hidy] at hsame
            obtain rfl : a = b := hsame
            exact hdistinct a hidx hidy
        | none =>
            rw [hidx, hidy] at hsame
            obtain rfl : a = natText y.2 := hsame
            exact hfree y hy hidy x.1 (mem_of_mem_zipIdx hx) hidx
    | none =>
        cases hidy : sentId y.1 with
        | some b =>
            rw [hidx, hidy] at hsame
            obtain rfl : natText x.2 = b := hsame
            exact hfree x hx hidx y.1 (mem_of_mem_zipIdx hy) hidy
        | none =>
            rw [hidx, hidy] at hsame
            have hposition := natText_injective hsame
            omega

-- ============================================================================
-- Reading an edit
-- ============================================================================

/-- What an item becomes at its position. -/
structure Becomes (raw : Json × Nat) (item : TodoItem) : Prop extends StoredAs raw.1 item where
  idAt : item.id.val = idAt raw

theorem nonBlank_eq {v : Json} {s : NonBlank} (h : nonBlank v = some s) : v = .str s := by
  cases v with
  | str t =>
      have hread : (if ht : strip t ≠ [] then some (⟨t, ht⟩ : NonBlank) else none) = some s := h
      split_ifs at hread
      cases hread
      rfl
  | _ => cases h

theorem readItem_new {raw : Json} (h : IsNew raw) (position : Nat) :
    ∃ item, readItem position raw = .ok item ∧ Becomes (raw, position) item := by
  obtain ⟨hobject, hid, hcontent, hstatus⟩ := h
  cases raw with
  | obj raw =>
      have hsent : sentId (.obj raw) = none := by
        unfold sentId
        rw [hid]
      obtain ⟨content, hread⟩ := Option.isSome_iff_exists.mp hcontent
      obtain ⟨status, hreadStatus⟩ := Option.isSome_iff_exists.mp hstatus
      have hname : nonBlank ((Dict.get? raw (py "id")).getD (.str (natText position)))
          = some ⟨natText position, strip_natText position⟩ := by
        have hid' : Dict.get? raw (py "id") = none := hid
        rw [hid']
        exact nonBlank_str ⟨_, strip_natText position⟩
      have hcontent' : field raw "content" = .str content := nonBlank_eq hread
      refine ⟨⟨⟨natText position, strip_natText position⟩, content, status⟩, ?_, ⟨?_, hcontent', hreadStatus⟩, ?_⟩
      · have hread' : nonBlank (field raw "content") = some content := hread
        have hreadStatus' : readStatus (field raw "status") = some status := hreadStatus
        unfold readItem
        simp only [hread', hreadStatus', hname]
      · intro id hid'
        rw [hsent] at hid'
        cases hid'
      · unfold Todo.idAt
        rw [hsent]
        rfl
  | _ => cases hobject

theorem readItem_resent {raw : Json} {item : TodoItem} (h : Resends item raw) (position : Nat) :
    ∃ item, readItem position raw = .ok item ∧ Becomes (raw, position) item := by
  obtain ⟨hobject, hid, hcontent, hstatus⟩ := h
  cases raw with
  | obj raw =>
      have hid' : Dict.get? raw (py "id") = some (.str item.id) := hid
      have hcontent' : field raw "content" = .str item.content := hcontent
      have hsent : sentId (.obj raw) = some item.id.val := by
        unfold sentId
        rw [hid]
      obtain ⟨status, hreadStatus⟩ := Option.isSome_iff_exists.mp hstatus
      refine ⟨⟨item.id, item.content, status⟩, ?_, ⟨?_, hcontent', hreadStatus⟩, ?_⟩
      · have hreadStatus' : readStatus (field raw "status") = some status := hreadStatus
        unfold readItem
        simp only [hid', hcontent', Option.getD_some, nonBlank_str, hreadStatus']
      · intro id hsame
        exact Option.some.inj (hsent.symm.trans hsame)
      · unfold Todo.idAt
        rw [hsent]
        rfl
  | _ => cases hobject

/-- Every item of an edit is read, under the id it has at its position. -/
theorem readItems_edit {raws : List Json} (h : ∀ raw ∈ raws, IsNew raw ∨ ∃ item, Resends item raw) (position : Nat) :
    ∃ items, readItems position raws = .ok items ∧ List.Forall₂ Becomes (raws.zipIdx position) items := by
  induction raws generalizing position with
  | nil => exact ⟨[], rfl, .nil⟩
  | cons raw raws ih =>
      have hitem : ∃ item, readItem position raw = .ok item ∧ Becomes (raw, position) item := by
        rcases h raw List.mem_cons_self with hnew | ⟨item, hresent⟩
        · exact readItem_new hnew position
        · exact readItem_resent hresent position
      obtain ⟨item, hread, hbecomes⟩ := hitem
      obtain ⟨items, hreads, hall⟩ := ih (fun r hr => h r (List.mem_cons_of_mem _ hr)) (position + 1)
      refine ⟨item :: items, ?_, ?_⟩
      · unfold readItems
        rw [hread, hreads]
        rfl
      · rw [List.zipIdx_cons]
        exact .cons hbecomes hall

theorem ids_eq {raws : List (Json × Nat)} {items : List TodoItem} (h : List.Forall₂ Becomes raws items) :
    ids items = raws.map idAt := by
  induction h with
  | nil => rfl
  | cons hbecomes hrest ih =>
      unfold ids at ih ⊢
      rw [List.map_cons, List.map_cons, ih, hbecomes.idAt]

theorem statuses_eq {raws : List Json} {items : List TodoItem} (h : List.Forall₂ StoredAs raws items) :
    raws.filterMap sentStatus = items.map TodoItem.status := by
  induction h with
  | nil => rfl
  | cons hstored hrest ih => rw [List.filterMap_cons_some hstored.status, List.map_cons, ih]

theorem storedAs_of_becomes {raws : List Json} {position : Nat} {items : List TodoItem}
    (h : List.Forall₂ Becomes (raws.zipIdx position) items) : List.Forall₂ StoredAs raws items := by
  have hmap : (raws.zipIdx position).map Prod.fst = raws := by simp
  rw [← hmap]
  exact List.forall₂_map_left_iff.mpr (h.imp fun _ _ hbecomes => hbecomes.toStoredAs)

/-- The checks on a list are those on its ids and its statuses. -/
theorem listError_eq_none_iff (items : List TodoItem) :
    listError items = none ↔ (ids items).Nodup ∧ StatusRule (items.map TodoItem.status) := by
  have hlength : (ids items).length = items.length := List.length_map _
  have hnodup : (ids items).dedup.length = items.length ↔ (ids items).Nodup := by
    rw [← hlength]
    exact ⟨nodup_of_length_dedup, fun h => by rw [h.dedup]⟩
  constructor
  · intro h
    obtain ⟨hdistinct, -, hprogress⟩ := wellFormed_of_listError h
    refine ⟨hdistinct, ?_⟩
    unfold StatusRule
    rw [List.map_eq_nil_iff, List.forall_mem_map, List.forall_mem_map, List.countP_map]
    exact hprogress
  · rintro ⟨hdistinct, hrule⟩
    unfold listError
    simp only [hnodup.mpr hdistinct, ne_eq, not_true_eq_false, if_false]
    refine if_neg fun hbad => ?_
    unfold StatusRule at hrule
    rw [List.map_eq_nil_iff, List.forall_mem_map, List.forall_mem_map, List.countP_map] at hrule
    rcases hrule with rfl | hcompleted | hpending | hone
    · cases hbad
    · have hall : (items.all fun item => item.status = .completed) = true := by simpa using hcompleted
      cases hempty : items.isEmpty <;> simp [hall, hempty] at hbad
    · have hall : (items.all fun item => item.status = .pending) = true := by simpa using hpending
      cases hempty : items.isEmpty <;> simp [hall, hempty] at hbad
    · have hcount : items.countP (fun item => item.status = .inProgress) = 1 := hone
      simp [hcount] at hbad

-- ============================================================================
-- Saving an edit
-- ============================================================================

theorem payload_encodable_iff (items : List TodoItem) :
    (payload ⟨items⟩).encodable = true ↔
      ∀ item ∈ items, Py.encodable item.id.val = true ∧ Py.encodable item.content.val = true := by
  have hkeys : Py.encodable (py "schema_version") = true ∧ Py.encodable (py "todos") = true ∧
      Py.encodable (py "items") = true := by decide
  have hlist : (payload ⟨items⟩).encodable = Json.encodableList (items.map TodoItem.toDict) := by
    show (Py.encodable (py "schema_version") && true && (Py.encodable (py "todos")
      && (Py.encodable (py "items") && Json.encodableList (items.map TodoItem.toDict) && true) && true)) = _
    rw [hkeys.1, hkeys.2.1, hkeys.2.2]
    simp only [Bool.true_and, Bool.and_true]
  have hitem : ∀ item : TodoItem, item.toDict.encodable = true ↔
      Py.encodable item.id.val = true ∧ Py.encodable item.content.val = true := by
    intro item
    have hnames : Py.encodable (py "id") = true ∧ Py.encodable (py "content") = true ∧
        Py.encodable (py "status") = true := by decide
    have hstatus : Py.encodable item.status.text = true := by cases item.status <;> decide
    show (Py.encodable (py "id") && Py.encodable item.id.val && (Py.encodable (py "content")
      && Py.encodable item.content.val && (Py.encodable (py "status")
        && Py.encodable item.status.text && true))) = true ↔ _
    rw [hnames.1, hnames.2.1, hnames.2.2, hstatus]
    simp only [Bool.true_and, Bool.and_true, Bool.and_eq_true]
  rw [hlist, Json.encodableList_iff, List.forall_mem_map]
  exact forall₂_congr fun item _ => hitem item

theorem save_ok_iff (fault : Option PyExc) (store : TodoStore) (items : List TodoItem) :
    (store.save fault ⟨items⟩).2 = .ok () ↔ match store with
      | .jsonFile _ _ => fault = none ∧ (payload ⟨items⟩).encodable = true
      | .inMemory _ => True := by
  cases store with
  | jsonFile path text =>
      cases fault with
      | some e => exact iff_of_false (fun h => by cases h) fun h => by cases h.1
      | none =>
          cases hencodable : (payload ⟨items⟩).encodable with
          | false =>
              have hdump : dumpText (payload ⟨items⟩) = none := if_neg (Bool.not_eq_true _ ▸ hencodable)
              simp [TodoStore.save, hdump]
          | true =>
              have hdump : dumpText (payload ⟨items⟩) = some _ := if_pos hencodable
              simp [TodoStore.save, hdump]
  | inMemory old => simp [TodoStore.save, TodoList.fromDict_toDict]

theorem encodable_natText (n : Nat) : Py.encodable (natText n) = true := by
  refine List.all_eq_true.mpr fun c hc => ?_
  have hdigit : 48 ≤ c ∧ c ≤ 57 := by simpa [isDigitChar] using isDigitChar_natText n c hc
  have hsmall : ¬ 0xD800 ≤ c := by omega
  simp [hsmall]

/-- The texts of an item are those that were sent, or a number. -/
theorem encodes_item_iff {raw : Json × Nat} {item : TodoItem} (h : Becomes raw item) :
    (Py.encodable item.id.val = true ∧ Py.encodable item.content.val = true) ↔
      (∀ id ∈ sentId raw.1, Py.encodable id = true) ∧ Encodes (field (fields raw.1) "content") := by
  refine and_congr ?_ ?_
  · rw [h.idAt]
    unfold idAt
    cases hid : sentId raw.1 with
    | none => exact iff_of_true (encodable_natText raw.2) fun id hmem => by cases hmem
    | some id =>
        constructor
        · rintro hencodable _ ⟨⟩
          exact hencodable
        · exact fun hall => hall id rfl
  · unfold Encodes
    rw [h.content]
    constructor
    · rintro hencodable s ⟨⟩
      exact hencodable
    · exact fun hall => hall _ rfl

theorem encodes_iff {raws : List Json} {position : Nat} {items : List TodoItem}
    (h : List.Forall₂ Becomes (raws.zipIdx position) items) :
    (∀ item ∈ items, Py.encodable item.id.val = true ∧ Py.encodable item.content.val = true) ↔
      ∀ raw ∈ raws, (∀ id ∈ sentId raw, Py.encodable id = true) ∧ Encodes (field (fields raw) "content") := by
  induction raws generalizing position items with
  | nil =>
      cases h
      exact iff_of_true (fun _ hitem => absurd hitem List.not_mem_nil) fun _ hraw => absurd hraw List.not_mem_nil
  | cons raw raws ih =>
      rw [List.zipIdx_cons] at h
      obtain _ | ⟨hbecomes, hrest⟩ := h
      rw [List.forall_mem_cons, List.forall_mem_cons, ih hrest]
      exact and_congr (encodes_item_iff hbecomes) Iff.rfl

theorem savable_iff {store : TodoStore} {fault : Option PyExc} {raws : List Json} {items : List TodoItem}
    (h : List.Forall₂ Becomes (raws.zipIdx 1) items) :
    (store.save fault ⟨items⟩).2 = .ok () ↔ Savable store fault raws := by
  rw [save_ok_iff]
  cases store with
  | jsonFile path text => exact and_congr Iff.rfl ((payload_encodable_iff items).trans (encodes_iff h))
  | inMemory old => exact Iff.rfl

/-- An edit of a stored list goes through exactly when no new item stands at a position
    that a re-sent item is named after, and the store can save. -/
theorem extend_iff (fl : FloatRepr) (kind : Kind) (calls : List Call) (fault : Option PyExc) (raws : List Json)
    (hedit : ∃ l ∈ (session kind calls).saved, EditOf l raws) :
    TakesEdit fl (session kind calls).store fault raws ↔
      PositionsFree raws ∧ Savable (session kind calls).store fault raws := by
  obtain ⟨l, -, hknown, honce, hprogress⟩ := hedit
  have hreadable : ∀ raw ∈ raws, IsNew raw ∨ ∃ item, Resends item raw := fun raw hraw =>
    (hknown raw hraw).imp id fun ⟨item, _, hresent⟩ => ⟨item, hresent⟩
  obtain ⟨items, hread, hbecomes⟩ := readItems_edit hreadable 1
  have hstored := storedAs_of_becomes hbecomes
  have hchecks : listError items = none ↔ PositionsFree raws := by
    rw [listError_eq_none_iff, ids_eq hbecomes, nodup_idAt_iff honce, ← statuses_eq hstored]
    exact and_iff_left hprogress
  have hargs : Dict.get? [(py "todos", Json.arr raws)] (py "todos") = some (.arr raws) := rfl
  unfold TakesEdit execute accept
  simp only [hargs, hread]
  generalize (session kind calls).store = store
  cases hlist : listError items with
  | some e =>
      refine iff_of_false (fun h => absurd h.1 Bool.false_ne_true) fun h => ?_
      rw [hchecks.mpr h.1] at hlist
      cases hlist
  | none =>
      have hfree := hchecks.mp hlist
      rw [and_iff_right hfree, ← savable_iff hbecomes]
      rcases store.save_cases fl fault ⟨items⟩ with ⟨store', hsave, hload⟩ | ⟨e, hsave⟩
      · simp only [hsave]
        exact iff_of_true ⟨rfl, _, hload, hstored⟩ trivial
      · simp only [hsave]
        exact iff_of_false (fun h => absurd h.1 Bool.false_ne_true) fun h => by cases h

-- ============================================================================
-- Two plans
-- ============================================================================

/-- A raw item, with an id or without. -/
def rawItem (id : Option String) (content : String) (status : Status) : Json :=
  .obj ((id.toList.map fun id => (py "id", .str (py id))) ++
    [(py "content", .str (py content)), (py "status", .str status.text)])

/-- A plan of two new items. -/
def plan : List Call :=
  [{ args := [(py "todos", .arr [rawItem none "inspect" .pending, rawItem none "fix" .pending])] }]

/-- The list that is stored then. -/
def planned : TodoList :=
  ⟨[⟨⟨py "1", by decide⟩, ⟨py "inspect", by decide⟩, .pending⟩,
    ⟨⟨py "2", by decide⟩, ⟨py "fix", by decide⟩, .pending⟩]⟩

theorem plan_saved : (session .inMemory plan).saved = some planned := by decide +kernel

theorem plan_store : (session .inMemory plan).store = .inMemory (some planned) := by decide +kernel

/-- A new item at the end of the plan. -/
def appended : List Json :=
  [rawItem (some "1") "inspect" .completed, rawItem (some "2") "fix" .inProgress, rawItem none "test" .pending]

theorem editOf_appended : EditOf planned appended where
  known := by
    intro raw hraw
    obtain rfl | rfl | rfl : raw = _ ∨ raw = _ ∨ raw = _ := by simpa [appended] using hraw
    · exact .inr ⟨_, List.mem_cons_self, by decide, by decide, by decide, by decide⟩
    · exact .inr ⟨_, List.mem_cons_of_mem _ List.mem_cons_self, by decide, by decide, by decide, by decide⟩
    · exact .inl ⟨by decide, by decide, by decide, by decide⟩
  once := by decide
  progress := .inr (.inr (.inr (by decide)))

theorem extend_iff_appended : TakesEdit id (session .inMemory plan).store none appended :=
  (extend_iff id .inMemory plan none appended ⟨planned, plan_saved, editOf_appended⟩).mpr
    ⟨by unfold PositionsFree; decide, by rw [plan_store]; exact trivial⟩

/-- The first item is dropped and a new one added behind the second. -/
def shifted : List Json := [rawItem (some "2") "fix" .pending, rawItem none "test" .pending]

theorem editOf_shifted : EditOf planned shifted where
  known := by
    intro raw hraw
    obtain rfl | rfl : raw = _ ∨ raw = _ := by simpa [shifted] using hraw
    · exact .inr ⟨_, List.mem_cons_of_mem _ List.mem_cons_self, by decide, by decide, by decide, by decide⟩
    · exact .inl ⟨by decide, by decide, by decide, by decide⟩
  once := by decide
  progress := .inr (.inr (.inl (by decide)))

/-- The new item is named after its position, which is the id of the other one. -/
theorem shifted_turned_down :
    (∃ l ∈ (session .inMemory plan).saved, EditOf l shifted) ∧
      (execute none (session .inMemory plan).store [(py "todos", .arr shifted)]).2
        = .ok (.failed (py "todo ids must be unique")) ∧
      ¬ TakesEdit id (session .inMemory plan).store none shifted := by
  have hresult : (execute none (session .inMemory plan).store [(py "todos", .arr shifted)]).2
      = .ok (.failed (py "todo ids must be unique")) := by rfl
  refine ⟨⟨planned, plan_saved, editOf_shifted⟩, hresult, fun h => ?_⟩
  have hsucceeded := h.1
  rw [hresult] at hsucceeded
  exact absurd hsucceeded (by decide)

end Todo
end KineticSdk
