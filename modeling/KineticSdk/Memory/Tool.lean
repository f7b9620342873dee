/-
  KineticSdk.Memory.Tool

  The tools an agent manages its memory with (`memory/tool.py`).

  The arguments of `memory_forget` and `memory_inspect` are any JSON values.  However
  they are called, a persistent entry goes only by its own id, unless the agent clears
  everything (`persistent_kept`).
-/

import KineticSdk.Memory.JsonFile
import KineticSdk.Memory.Vector
import KineticSdk.Tool.Base

namespace KineticSdk
namespace Memory

open Py Lib.Steps Tool

-- ============================================================================
-- Arguments
-- ============================================================================

/-- `MemoryTier(value)`. -/
def tierOf (v : Json) : Option MemoryTier :=
  [MemoryTier.working, .episodic, .persistent].find? fun t => v == .str t.value

/-- `_parse_tiers`, for tiers that are given. -/
def parseTiers (values : Json) : Option (List MemoryTier) :=
  match elements values with
  | none => none
  | some vs => vs.mapM tierOf

/-- A dictionary of strings. -/
def stringItems : Py.Dict → Option (List (PyStr × PyStr))
  | [] => some []
  | (key, .str value) :: items => (stringItems items).map fun rest => (key, value) :: rest
  | _ :: _ => none

/-- `_valid_scope`, with the scope it is; only dictionaries have `items`. -/
def validScope (scope : Json) : Except PyExc (Option (List (PyStr × PyStr))) :=
  if scope.truthy then
    match scope with
    | .obj items => .ok (stringItems items)
    | v => .error ⟨py "AttributeError", py "'" ++ typeName v ++ py "' object has no attribute 'items'"⟩
  else .ok none

-- ============================================================================
-- The tools
-- ============================================================================

/-- `MAX_LIMIT`. -/
def maxLimit : Int := 20

/-- `limit if isinstance(limit, int) and limit > 0 else self.default_limit`, capped. -/
def searchCap (defaultLimit : Int) (limit : Json) : Int :=
  let cap :=
    match limit with
    | .int n => if 0 < n then n else defaultLimit
    | .bool true => 1
    | _ => defaultLimit
  min cap maxLimit

/-- A call of one of the three tools, with what it draws from outside. -/
inductive ToolCall (cal : Calendar) where
  /-- `memory`: `store` draws an id and the time, `search` and `list` the time. -/
  | memory (action text query : PyStr) (limit : Json) (uuid : PyStr) (now : cal.Time)
  | inspect (tiers scope includeExpired : Json) (now : cal.Time)
  | forget (id scope tiers : Json)

/-- The entries as the tools show them. -/
def memories (entries : List MemoryEntry) : ToolResult :=
  { output := .obj [(py "memories", .arr (entries.map asdict)), (py "count", .int entries.length)] }

section Tools

variable {cal : Calendar} (fl : FloatRepr) (lower : PyStr → PyStr) (defaultLimit : Int)

/-- The arguments of `provider.add(text, source=MemorySource.LLM_INFERENCE)`. -/
def inferred (text uuid : PyStr) (now : cal.Time) : Add cal fl where
  text := text
  metadata := ⟨[], List.nodup_nil, trivial⟩
  source := .llmInference
  uuid := uuid
  now := now

/-- `MemoryTool.execute`, with the entries after it. -/
def executeMemory (entries : List MemoryEntry) (action text query : PyStr) (limit : Json) (uuid : PyStr)
    (now : cal.Time) : List MemoryEntry × Except PyExc ToolResult :=
  if action = py "store" then
    if strip text = [] then (entries, .ok (.failed (py "'store' requires a non-empty 'text'")))
    else
      match add entries (inferred fl text uuid now) with
      | .error e => (entries, .error e)
      | .ok entries' => (entries', .ok { output := .obj [(py "id", .str uuid), (py "stored", .bool true)] })
  else if action = py "search" then
    if strip query = [] then (entries, .ok (.failed (py "'search' requires a non-empty 'query'")))
    else (entries, .ok (memories (search lower entries query (searchCap defaultLimit limit) { now := now : Filters cal })))
  else if action = py "list" then (entries, .ok (memories (allMatching entries { now := now : Filters cal })))
  else if action = py "clear" then (clear entries none none, .ok { output := .obj [(py "cleared", .bool true)] })
  else (entries, .ok (.failed (py "unknown action: " ++ pyReprStr action)))

/-- The tiers of a call, or the error that stops it. -/
def givenTiers (tiers : Json) : Except ToolResult (Option (List MemoryTier)) :=
  if tiers = .null then .ok none
  else
    match parseTiers tiers with
    | none => .error (.failed (py "tiers must contain valid memory tier names"))
    | some ts => .ok (some ts)

/-- `MemoryInspectTool.execute`. -/
def executeInspect (entries : List MemoryEntry) (tiers scope includeExpired : Json) (now : cal.Time) :
    Except PyExc ToolResult :=
  match givenTiers tiers with
  | .error r => .ok r
  | .ok ts =>
      if scope = .null then .ok (memories (allMatching entries ⟨ts, none, includeExpired.truthy, now⟩))
      else
        (validScope scope).map fun items =>
          match items with
          | none => .failed (py "scope must be an object with string keys and values")
          | some items => memories (allMatching entries ⟨ts, some items, includeExpired.truthy, now⟩)

/-- The end of `MemoryForgetTool.execute`, for a valid scope. -/
def forgetScope (entries : List MemoryEntry) (items : List (PyStr × PyStr)) (scope : Json)
    (tiers : Option (List MemoryTier)) : List MemoryEntry × ToolResult :=
  match tiers with
  | some ts =>
      if .persistent ∈ ts then
        (entries, .failed (py "refusing to delete persistent memory by scope; delete a specific id instead"))
      else
        let before := (entries.filter fun e => decide (e.tier ∈ ts) && matchesScope e (some items)).length
        (clear entries (some items) (some ts), { output := .obj [(py "deleted", .int before), (py "scope", scope)] })
  | none => (entries, .failed (py "refusing to delete persistent memory by scope; delete a specific id instead"))

/-- `MemoryForgetTool.execute`, with the entries after it. -/
def executeForget (entries : List MemoryEntry) (id scope tiers : Json) : List MemoryEntry × Except PyExc ToolResult :=
  if id.truthy then
    let kept := entries.filter fun e => !pyEq (.str e.id) id
    (kept, .ok { output := .obj [(py "deleted", .bool (kept.length != entries.length)), (py "id", id)] })
  else
    match givenTiers tiers with
    | .error r => (entries, .ok r)
    | .ok ts =>
        match validScope scope with
        | .error e => (entries, .error e)
        | .ok none =>
            (entries, .ok (.failed (py "forgetting by scope requires a non-empty string-valued scope")))
        | .ok (some items) => ((forgetScope entries items scope ts).1, .ok (forgetScope entries items scope ts).2)

/-- One call. -/
def toolStep (entries : List MemoryEntry) : ToolCall cal → List MemoryEntry
  | .memory action text query limit uuid now =>
      (executeMemory fl lower defaultLimit entries action text query limit uuid now).1
  | .inspect _ _ _ _ => entries
  | .forget id scope tiers => (executeForget entries id scope tiers).1

-- ============================================================================
-- Persistent entries
-- ============================================================================

/-- The call clears everything. -/
def ToolCall.clears : ToolCall cal → Prop
  | .memory action _ _ _ _ _ => action = py "clear"
  | _ => False

/-- The call forgets an entry by its id. -/
def ToolCall.names (entryId : PyStr) : ToolCall cal → Prop
  | .forget id _ _ => id = .str entryId
  | _ => False

variable {fl lower defaultLimit} {entries : List MemoryEntry} {e : MemoryEntry}

theorem forgetScope_keeps (he : e ∈ entries) (htier : e.tier = .persistent) (items : List (PyStr × PyStr))
    (scope : Json) (tiers : Option (List MemoryTier)) : e ∈ (forgetScope entries items scope tiers).1 := by
  unfold forgetScope
  cases tiers with
  | none => exact he
  | some ts =>
      dsimp only
      by_cases hpersistent : MemoryTier.persistent ∈ ts
      · rw [if_pos hpersistent]
        exact he
      · rw [if_neg hpersistent]
        refine List.mem_filter.mpr ⟨he, ?_⟩
        rw [Option.all_some, htier, decide_eq_false hpersistent]
        rfl

theorem pyEq_str_iff (s : PyStr) (v : Json) : pyEq (.str s) v = true ↔ v = .str s := by
  cases v with
  | str t =>
      rw [pyEq, beq_iff_eq, Json.str.injEq]
      exact eq_comm
  | null | bool | int | float | arr | obj => simp [pyEq, integral]

theorem executeForget_keeps (he : e ∈ entries) (htier : e.tier = .persistent) (id scope tiers : Json)
    (hid : id ≠ .str e.id) : e ∈ (executeForget entries id scope tiers).1 := by
  unfold executeForget
  by_cases htruthy : id.truthy = true
  · rw [if_pos htruthy]
    refine List.mem_filter.mpr ⟨he, ?_⟩
    have hother : pyEq (.str e.id) id = false := Bool.eq_false_iff.mpr fun h => hid ((pyEq_str_iff e.id id).mp h)
    rw [hother]
    rfl
  · rw [if_neg htruthy]
    rcases givenTiers tiers with r | ts
    · exact he
    · dsimp only
      rcases validScope scope with err | items
      · exact he
      · cases items with
        | none => exact he
        | some items => exact forgetScope_keeps he htier items scope ts

theorem executeMemory_keeps (he : e ∈ entries) (action text query : PyStr) (limit : Json) (uuid : PyStr)
    (now : cal.Time) (haction : action ≠ py "clear") :
    e ∈ (executeMemory fl lower defaultLimit entries action text query limit uuid now).1 := by
  unfold executeMemory
  rw [if_neg haction]
  split_ifs
  · exact he
  · cases hadd : add entries (inferred fl text uuid now) with
    | error err => exact he
    | ok entries' =>
        unfold add at hadd
        obtain ⟨entry, -, rfl⟩ : ∃ entry, (inferred fl text uuid now).entry = .ok entry ∧ entries ++ [entry] = entries' := by
          cases hentry : (inferred fl text uuid now).entry with
          | error err =>
              rw [hentry] at hadd
              cases hadd
          | ok entry =>
              rw [hentry] at hadd
              exact ⟨entry, rfl, Except.ok.inj hadd⟩
        exact List.mem_append_left _ he
  · exact he
  · exact he
  · exact he
  · exact he

/-- One call drops a persistent entry only by its id, or with everything. -/
theorem toolStep_keeps (he : e ∈ entries) (htier : e.tier = .persistent) (call : ToolCall cal)
    (hclear : ¬ call.clears) (hname : ¬ call.names e.id) : e ∈ toolStep fl lower defaultLimit entries call := by
  cases call with
  | memory action text query limit uuid now => exact executeMemory_keeps he action text query limit uuid now hclear
  | inspect tiers scope includeExpired now => exact he
  | forget id scope tiers => exact executeForget_keeps he htier id scope tiers hname

/-- Whatever arguments the tools are called with, a persistent entry is there after any
    run of calls, unless one of them forgot it by its id or cleared everything. -/
theorem persistent_kept (fl : FloatRepr) (lower : PyStr → PyStr) (defaultLimit : Int) (entries : List MemoryEntry)
    (calls : List (ToolCall cal)) (e : MemoryEntry) (he : e ∈ entries) (htier : e.tier = .persistent) :
    e ∈ run (toolStep fl lower defaultLimit) entries calls ∨ ∃ call ∈ calls, call.clears ∨ call.names e.id := by
  by_cases hgone : ∃ call ∈ calls, call.clears ∨ call.names e.id
  · exact .inr hgone
  · refine .inl ?_
    induction calls generalizing entries with
    | nil => exact he
    | cons call calls ih =>
        have hcall : ¬ call.clears ∧ ¬ call.names e.id :=
          not_or.mp fun h => hgone ⟨call, List.mem_cons_self, h⟩
        refine ih _ (toolStep_keeps he htier call hcall.1 hcall.2) fun h => ?_
        obtain ⟨later, hmem, hlater⟩ := h
        exact hgone ⟨later, List.mem_cons_of_mem _ hmem, hlater⟩

end Tools

/-- A persistent entry. -/
def lesson : MemoryEntry := ⟨py "a1", py "use tabs", [(py "project", .str (py "x"))], [], .persistent, .unknown, none⟩

/-- It survives a scope that it is in, and the id of another. -/
theorem persistent_kept_lesson :
    let calls : List (ToolCall frozen) :=
      [.forget .null (.obj [(py "project", .str (py "x"))]) (.arr [.str (py "working"), .str (py "persistent")]),
        .forget (.str (py "a2")) .null .null, .memory (py "list") [] [] .null [] ()]
    lesson ∈ run (toolStep id id 5) [lesson] calls ∨ ∃ call ∈ calls, call.clears ∨ call.names lesson.id :=
  persistent_kept id id 5 [lesson] _ lesson (List.mem_singleton_self lesson) rfl

end Memory
end KineticSdk
