/-
  KineticSdk.Server.Runs

  The table of runs of `AgentServer` (`server/app.py`, `_run_agent`).

  A call enters its run into the table, runs its agent, and enters the run
  again when the agent is done; the two entries are one step each, since the
  server's lock is held for them, and between them any other call may take its
  own.  A call keeps its record in a variable, and the table refers to that
  record by the number of the call.
-/

import KineticSdk.Lib.Slots
import KineticSdk.Lib.Steps
import KineticSdk.Py.Dict

namespace KineticSdk
namespace Server
namespace Runs

open Py

-- ============================================================================
-- Calls and their records
-- ============================================================================

/-- What the agent's run came to. -/
inductive Outcome where
  | completed (final : PyStr) (structuredOutput usage : Json)
  | failed (error : PyStr)

/-- `RunRecord(run_id=run_id, status="running", final="")`. -/
def newRecord (runId : PyStr) : Py.Dict :=
  [(py "run_id", .str runId), (py "status", .str (py "running")), (py "final", .str [])]

/-- `record.update(...)`. -/
def Outcome.update (record : Py.Dict) : Outcome → Py.Dict
  | .completed final structuredOutput usage =>
      let record := Dict.set record (py "status") (.str (py "completed"))
      let record := Dict.set record (py "final") (.str final)
      Dict.set (Dict.set record (py "structured_output") structuredOutput) (py "usage") usage
  | .failed error =>
      Dict.set (Dict.set record (py "status") (.str (py "error"))) (py "error") (.str error)

/-- How far a call of `_run_agent` has come. -/
inductive Stage where
  /-- Its run is entered, the agent runs. -/
  | running
  /-- The record is updated, the second entry is still to come. -/
  | updated
  | returned
deriving DecidableEq

/-- A call of `_run_agent`. -/
structure Call where
  runId : PyStr
  record : Py.Dict
  stage : Stage := .running

-- ============================================================================
-- The table
-- ============================================================================

/-- `max_runs`; the constructor refuses any other number. -/
structure Bound where
  maxRuns : Nat
  positive : 0 < maxRuns

/-- The runs of `AgentServer`. -/
structure RunTable where
  /-- `_runs`: the record of a run, by the number of its call. -/
  runs : List (PyStr × Nat) := []
  /-- `_run_order`. -/
  order : List PyStr := []
  calls : List Call := []

/-- The loop `while len(self._run_order) >= self._max_runs`. -/
def evict (b : Bound) (runs : List (PyStr × Nat)) : List PyStr → List (PyStr × Nat) × List PyStr
  | [] => (runs, [])
  | runId :: order =>
      if b.maxRuns ≤ order.length + 1 then evict b (Dict.pop runs runId) order
      else (runs, runId :: order)

/-- The first entry of a run. -/
def RunTable.enter (b : Bound) (t : RunTable) (runId : PyStr) : RunTable :=
  let (runs, order) := evict b t.runs t.order
  { runs := Dict.set runs runId t.calls.length
    order := order ++ [runId]
    calls := t.calls ++ [{ runId := runId, record := newRecord runId }] }

/-- A call goes on. -/
def RunTable.goto (t : RunTable) (i : Nat) (c : Call) (stage : Stage) : RunTable :=
  { t with calls := t.calls.set i { c with stage := stage } }

/-- What can happen next. -/
inductive Event where
  /-- A call enters its run. -/
  | start (runId : PyStr)
  /-- The agent of a call is done. -/
  | update (i : Nat) (outcome : Outcome)
  /-- A call enters its run again. -/
  | finish (i : Nat)

/-- One step of the server.  `uuid4` gives no id twice. -/
def step (b : Bound) (t : RunTable) : Event → RunTable
  | .start runId => if runId ∈ t.calls.map Call.runId then t else t.enter b runId
  | .update i outcome =>
      match t.calls[i]? with
      | some c =>
          if c.stage = .running then
            t.goto i { c with record := outcome.update c.record } .updated
          else t
      | none => t
  | .finish i =>
      match t.calls[i]? with
      | some c =>
          if c.stage = .updated then
            ({ t with runs := Dict.set t.runs c.runId i } : RunTable).goto i c .returned
          else t
      | none => t

-- ============================================================================
-- Bounded and consistent
-- ============================================================================

/-- At most `max_runs` entries, and the keys are the ids of the queue, each once. -/
structure Consistent (b : Bound) (t : RunTable) : Prop where
  bounded : t.runs.length ≤ b.maxRuns
  keys : ∀ runId, runId ∈ t.runs.map Prod.fst ↔ runId ∈ t.order
  distinct : (t.runs.map Prod.fst).Nodup
  once : t.order.Nodup

/-- A run that is entered again is still in the queue. -/
def Kept (t : RunTable) : Event → Prop
  | .start _ | .update .. => True
  | .finish i => ∀ c ∈ t.calls[i]?, c.stage = .updated → c.runId ∈ t.order

instance (t : RunTable) (e : Event) : Decidable (Kept t e) := by
  cases e <;> unfold Kept <;> infer_instance

/-- The keys of the table are the queue itself, and every id of it is that of a call. -/
structure Aligned (b : Bound) (t : RunTable) : Prop where
  keys : t.runs.map Prod.fst = t.order
  once : t.order.Nodup
  bounded : t.order.length ≤ b.maxRuns
  known : ∀ runId ∈ t.order, runId ∈ t.calls.map Call.runId

theorem Aligned.consistent {b : Bound} {t : RunTable} (h : Aligned b t) : Consistent b t where
  bounded := by
    have hlen : t.runs.length = t.order.length := by rw [← h.keys, List.length_map]
    rw [hlen]
    exact h.bounded
  keys runId := by rw [h.keys]
  distinct := by
    rw [h.keys]
    exact h.once
  once := h.once

-- ============================================================================
-- What a step does to the table
-- ============================================================================

/-- Eviction takes runs off the front of the queue and of the table alike, and
    leaves room for one. -/
theorem evict_spec (b : Bound) {runs : List (PyStr × Nat)} {order : List PyStr}
    (hkeys : runs.map Prod.fst = order) (honce : order.Nodup) :
    (evict b runs order).1.map Prod.fst = (evict b runs order).2 ∧
      (evict b runs order).2 <:+ order ∧ (evict b runs order).2.length < b.maxRuns := by
  induction order generalizing runs with
  | nil => exact ⟨hkeys, List.suffix_refl _, b.positive⟩
  | cons runId order ih =>
      obtain ⟨hfresh, hrest⟩ := List.nodup_cons.mp honce
      unfold evict
      split_ifs with hfull
      · have hpop : (Dict.pop runs runId).map Prod.fst = order := by
          rw [Dict.keys_pop, hkeys, List.filter_cons_of_neg (by simp)]
          exact List.filter_eq_self.mpr fun x hx => by
            have hne : x ≠ runId := fun heq => hfresh (heq ▸ hx)
            simpa using hne
        obtain ⟨h₁, h₂, h₃⟩ := ih hpop hrest
        exact ⟨h₁, h₂.trans (List.suffix_cons runId order), h₃⟩
      · refine ⟨hkeys, List.suffix_refl _, ?_⟩
        rw [List.length_cons]
        omega

theorem Aligned.enter {b : Bound} {t : RunTable} (h : Aligned b t) {runId : PyStr}
    (hnew : runId ∉ t.calls.map Call.runId) : Aligned b (t.enter b runId) := by
  obtain ⟨hkeys, hsuffix, hroom⟩ := evict_spec b h.keys h.once
  unfold RunTable.enter
  generalize hev : evict b t.runs t.order = r at hkeys hsuffix hroom ⊢
  obtain ⟨runs, order⟩ := r
  have hfresh : runId ∉ order := fun hmem => hnew (h.known runId (hsuffix.subset hmem))
  refine ⟨?_, ?_, ?_, ?_⟩
  · show (Dict.set runs runId t.calls.length).map Prod.fst = order ++ [runId]
    rw [Dict.keys_set_of_not_mem (by rw [hkeys]; exact hfresh), hkeys]
  · have hdistinct : order.Nodup := h.once.sublist hsuffix.sublist
    exact List.nodup_append.mpr ⟨hdistinct, List.nodup_singleton runId, fun x hx y hy heq =>
      hfresh (by rw [← List.mem_singleton.mp hy, ← heq]; exact hx)⟩
  · show (order ++ [runId]).length ≤ b.maxRuns
    rw [List.length_append, List.length_singleton]
    exact hroom
  · intro x hx
    show x ∈ (t.calls ++ [_]).map Call.runId
    rw [List.map_append, List.mem_append]
    rcases List.mem_append.mp hx with hx | hx
    · exact .inl (h.known x (hsuffix.subset hx))
    · exact .inr hx

/-- A call that goes on keeps its id. -/
theorem map_runId_goto {t : RunTable} {i : Nat} {c c' : Call} (hc : t.calls[i]? = some c)
    (hid : c'.runId = c.runId) (stage : Stage) :
    (t.goto i c' stage).calls.map Call.runId = t.calls.map Call.runId := by
  have hget : (t.calls.map Call.runId)[i]? = some c.runId := by rw [List.getElem?_map, hc]; rfl
  show (t.calls.set i { c' with stage := stage }).map Call.runId = _
  rw [List.map_set]
  show (t.calls.map Call.runId).set i c'.runId = _
  rw [hid]
  obtain ⟨hlt, hval⟩ := List.getElem?_eq_some_iff.mp hget
  rw [← hval]
  exact List.set_getElem_self hlt

theorem Aligned.goto {b : Bound} {t : RunTable} (h : Aligned b t) {i : Nat} {c c' : Call}
    (hc : t.calls[i]? = some c) (hid : c'.runId = c.runId) (stage : Stage) :
    Aligned b (t.goto i c' stage) where
  keys := h.keys
  once := h.once
  bounded := h.bounded
  known x hx := by
    rw [map_runId_goto hc hid stage]
    exact h.known x hx

theorem Aligned.step {b : Bound} {t : RunTable} (h : Aligned b t) {e : Event} (hkept : Kept t e) :
    Aligned b (step b t e) := by
  cases e with
  | start runId =>
      show Aligned b (if runId ∈ t.calls.map Call.runId then t else t.enter b runId)
      split_ifs with hused
      · exact h
      · exact h.enter hused
  | update i outcome =>
      cases hc : t.calls[i]? with
      | none =>
          simp only [Runs.step, hc]
          exact h
      | some c =>
          simp only [Runs.step, hc]
          split_ifs
          · exact h.goto hc (by rfl) .updated
          · exact h
  | finish i =>
      cases hc : t.calls[i]? with
      | none =>
          simp only [Runs.step, hc]
          exact h
      | some c =>
          simp only [Runs.step, hc]
          split_ifs with hstage
          · have hin : c.runId ∈ t.runs.map Prod.fst := by
              rw [h.keys]
              exact hkept c hc hstage
            have hset : Aligned b { t with runs := Dict.set t.runs c.runId i } :=
              ⟨(Dict.keys_set_of_mem hin i).trans h.keys, h.once, h.bounded, h.known⟩
            exact hset.goto hc rfl .returned
          · exact h

/-- Entering a run that has been evicted leaves a key the queue does not have. -/
theorem kept_of_consistent {b : Bound} {t : RunTable} {e : Event}
    (h : Consistent b (step b t e)) : Kept t e := by
  cases e with
  | start runId => trivial
  | update i outcome => trivial
  | finish i =>
      intro c hc hstage
      have hstep : step b t (.finish i)
          = ({ t with runs := Dict.set t.runs c.runId i } : RunTable).goto i c .returned := by
        unfold Runs.step
        simp only [Option.mem_def.mp hc, hstage, if_true]
      rw [hstep] at h
      exact (h.keys c.runId).mp (Dict.mem_keys_set_self t.runs c.runId i)

theorem aligned_empty (b : Bound) : Aligned b {} where
  keys := rfl
  once := List.nodup_nil
  bounded := Nat.zero_le _
  known x hx := by cases hx

/-- In every interleaving of the calls' steps, the table is bounded and agrees
    with the queue all along exactly when no run is entered again after its
    eviction. -/
theorem table_consistent_iff (b : Bound) (es : List Event) :
    Lib.Steps.Always (step b) (Consistent b) {} es ↔ Lib.Steps.Meets (step b) Kept {} es :=
  Lib.Steps.always_iff_meets (fun _ _ h hkept => h.step hkept)
    (fun _ _ _ hnext => kept_of_consistent hnext) (fun _ h => h.consistent) (aligned_empty b) es

/-- A server that keeps one run; the second call evicts the first, which then
    ends. -/
def evictedRun : List Event :=
  [.start (py "a"), .start (py "b"), .update 0 (.failed (py "E: x")), .finish 0]

/-- The table then has two entries, the queue one. -/
theorem evicted_run_returns :
    ¬ Consistent ⟨1, by decide⟩ (Lib.Steps.run (step ⟨1, by decide⟩) {} evictedRun) ∧
      (Lib.Steps.run (step ⟨1, by decide⟩) {} evictedRun).runs.map Prod.fst = [py "b", py "a"] ∧
      (Lib.Steps.run (step ⟨1, by decide⟩) {} evictedRun).order = [py "b"] := by
  refine ⟨fun h => ?_, by decide, by decide⟩
  have hbound : 2 ≤ 1 := h.bounded
  exact absurd hbound (by decide)

end Runs
end Server
end KineticSdk
