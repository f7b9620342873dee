/-
  KineticSdk.Subagent.Delegation

  Trees of agents and what their tool calls cost (`subagent/budget.py`,
  `subagent/delegation.py`, `subagent/pool.py` and `DelegateTool.bind`).

  A client is a provider's client with the wrappers around it.  In a turn every
  guard on the way charges the calls of the response, the innermost first, one
  call after the other; between two charges other agents go on.  A stream hands
  over its calls with its one `done` event, so its guards charge the same.

  `ledger` is for observation: every charge, in the order they were made.
-/

import Mathlib.Data.List.Sort
import KineticSdk.Lib.Steps
import KineticSdk.Py.Repr
import KineticSdk.Tool.Base

namespace KineticSdk
namespace Delegation

open Py Tool

-- ============================================================================
-- The budget
-- ============================================================================

/-- `d[k] = d.get(k, 0) + 1`. -/
def bump (d : List (PyStr × Nat)) (k : PyStr) : List (PyStr × Nat) :=
  Dict.set d k ((Dict.get? d k).getD 0 + 1)

/-- `SpawnBudget`. -/
structure SpawnBudget where
  max : Nat
  used : Nat := 0
  perAgent : List (PyStr × Nat) := []
deriving DecidableEq

/-- `record_tool_call`. -/
def SpawnBudget.recordToolCall (b : SpawnBudget) (agentId toolName : PyStr) :
    Except PyExc SpawnBudget :=
  if b.max ≤ b.used then
    .error ⟨py "BudgetExceededError",
      py "Spawn budget exhausted: " ++ natText b.used ++ py "/" ++ natText b.max
        ++ py " tool calls used across the sub-agent tree when agent " ++ pyReprStr agentId
        ++ py " requested " ++ pyReprStr toolName⟩
  else .ok { b with used := b.used + 1, perAgent := bump b.perAgent agentId }

/-- The calls of an agent, as `calls_by_agent` has them. -/
def SpawnBudget.callsBy (b : SpawnBudget) (agentId : PyStr) : Nat :=
  (Dict.get? b.perAgent agentId).getD 0

-- ============================================================================
-- Circuit breakers
-- ============================================================================

mutual

/-- A value as `json.dumps(…, sort_keys=True)` goes through it. -/
def sortKeys : Json → Json
  | .arr xs => .arr (sortKeysList xs)
  | .obj kvs => .obj ((sortKeysFields kvs).insertionSort fun a b => a.1 ≤ b.1)
  | v => v

/-- `sortKeys` on the elements of a list. -/
def sortKeysList : List Json → List Json
  | [] => []
  | x :: xs => sortKeys x :: sortKeysList xs

/-- `sortKeys` on the items of a dict. -/
def sortKeysFields : Dict → Dict
  | [] => []
  | (k, v) :: kvs => (k, sortKeys v) :: sortKeysFields kvs

end

/-- `_stable_serialise`. -/
def stableSerialise (arguments : Json) : PyStr := dumps true (sortKeys arguments)

/-- `RepetitionCircuitBreaker`. -/
structure RepetitionCircuitBreaker where
  max : Nat
  lastKey : Option (PyStr × PyStr) := none
  count : Nat := 0
deriving DecidableEq

/-- What `record` leaves behind, whether it raises or not. -/
def RepetitionCircuitBreaker.noted (b : RepetitionCircuitBreaker) (toolName : PyStr)
    (arguments : Json) : RepetitionCircuitBreaker :=
  let key := (toolName, stableSerialise arguments)
  if some key = b.lastKey then { b with count := b.count + 1 }
  else { b with lastKey := some key, count := 1 }

/-- `record`. -/
def RepetitionCircuitBreaker.record (b : RepetitionCircuitBreaker) (toolName : PyStr)
    (arguments : Json) : RepetitionCircuitBreaker × Except PyExc Unit :=
  let b := b.noted toolName arguments
  (b, if b.max < b.count then
    .error ⟨py "RepetitionLimitError",
      py "Repetition limit exceeded: tool " ++ pyReprStr toolName
        ++ py " called with identical arguments " ++ natText b.count
        ++ py " times in a row (limit " ++ natText b.max ++ py ")"⟩
    else .ok ())

-- ============================================================================
-- Clients
-- ============================================================================

/-- What a `_GuardedLLMClient` charges, its breaker by its number. -/
structure Guard where
  agentId : PyStr
  breaker : Nat
deriving DecidableEq

/-- A client with its wrappers. -/
inductive LLMClient where
  | provider (n : Nat) (model : Option PyStr)
  /-- `_GuardedLLMClient`. -/
  | guarded (inner : LLMClient) (guard : Guard)
  /-- `_SerializedLLMClient`. -/
  | serialized (inner : LLMClient)
deriving DecidableEq

/-- `getattr(client, "model", None)`. -/
def LLMClient.model : LLMClient → Option PyStr
  | .provider _ m => m
  | .guarded inner _ | .serialized inner => some (inner.model.getD (py "unknown"))

/-- The guards a response passes, in the order in which it does. -/
def LLMClient.guards : LLMClient → List Guard
  | .provider _ _ => []
  | .guarded inner g => inner.guards ++ [g]
  | .serialized inner => inner.guards

/-- `SubagentSpec`, as far as spawning reads it. -/
structure SubagentSpec where
  name : PyStr
  model : Option PyStr := none
deriving DecidableEq

/-- The parent's client without its guard. -/
def LLMClient.unguarded : LLMClient → LLMClient
  | .guarded inner _ => inner
  | c => c

/-- The client that `spawn_subagent` puts a guard around; `factory` is what
    `llm_factory` returns, when there is one. -/
def baseLlm (parent : LLMClient) (override : Option LLMClient) (spec : SubagentSpec)
    (factory : Option LLMClient) : Except PyExc LLMClient :=
  let base := (override.getD parent).unguarded
  let requestedModel := if spec.model.getD [] = [] then base.model else spec.model
  match factory with
  | some client =>
      if requestedModel = none then
        .error ⟨py "SubagentError", py "Sub-agent " ++ pyReprStr spec.name
          ++ py " cannot use llm_factory because the parent client has no model name"⟩
      else .ok client
  | none =>
      match spec.model with
      | none => .ok base
      | some m =>
          if some m = base.model then .ok base
          else .error ⟨py "SubagentError", py "Sub-agent " ++ pyReprStr spec.name
            ++ py " requests model " ++ pyReprStr m
            ++ py ", which differs from the parent's model; pass llm_factory to build a client for it"
            ++ py " (or leave spec.model=None to inherit)"⟩

-- ============================================================================
-- Trees
-- ============================================================================

/-- A tool call charged by a guard. -/
structure Charge where
  guard : Guard
  call : ToolCall
deriving DecidableEq

/-- A turn of an agent: the guard made for the agent, the guards its response
    passes, the calls in the response, and how many charges have been made. -/
structure Turn where
  streaming : Bool
  guard : Option Guard
  guards : List Guard
  calls : List ToolCall
  charged : Nat := 0
deriving DecidableEq

/-- The loops of the guards. -/
def Turn.plan (t : Turn) : List Charge := t.guards.flatMap fun g => t.calls.map (Charge.mk g)

/-- The charges made so far. -/
def Turn.charges (t : Turn) : List Charge := t.plan.take t.charged

/-- How a turn ends. -/
inductive Outcome where
  | returned
  | budgetExceeded
  | repetitionLimit
deriving DecidableEq

/-- An agent of the tree. -/
structure Agent where
  llm : LLMClient
  /-- The guard made for it. -/
  guard : Option Guard := none
  past : List (Turn × Outcome) := []
  current : Option Turn := none
deriving DecidableEq

/-- The charges for an agent's turns, in order. -/
def Agent.charges (a : Agent) : List Charge :=
  (a.past.flatMap fun t => t.1.charges) ++ a.current.toList.flatMap Turn.charges

/-- A call of `run_all` whose workers are being spawned. -/
structure Pool where
  parent : Nat
  override : Option LLMClient
  hasFactory : Bool
deriving DecidableEq

/-- A tree of agents with its shared budget. -/
structure Tree where
  budget : SpawnBudget
  breakers : List RepetitionCircuitBreaker := []
  agents : List Agent := []
  pools : List Pool := []
  ledger : List Charge := []
deriving DecidableEq

namespace Tree

/-- The ids given to agents so far. -/
def ids (s : Tree) : List PyStr := s.agents.filterMap fun a => a.guard.map Guard.agentId

/-- `DelegateTool.bind` with `charge_root_tool_calls`. -/
def bind (s : Tree) (i : Nat) (a : Agent) (repeats : Nat) : Tree :=
  match a.llm with
  | .guarded _ _ => s
  | llm =>
      let guard : Guard := ⟨py "root", s.breakers.length⟩
      { s with
        breakers := s.breakers ++ [{ max := repeats }]
        agents := s.agents.set i { a with llm := .guarded llm guard, guard := some guard } }

/-- `spawn_subagent`. -/
def spawn (s : Tree) (parent : LLMClient) (override : Option LLMClient) (spec : SubagentSpec)
    (agentId : PyStr) (repeats : Nat) (factory : Option LLMClient) : Tree :=
  match baseLlm parent override spec factory with
  | .error _ => s
  | .ok base =>
      let guard : Guard := ⟨agentId, s.breakers.length⟩
      { s with
        breakers := s.breakers ++ [{ max := repeats }]
        agents := s.agents ++ [{ llm := .guarded base guard, guard := some guard }] }

/-- The beginning of `run_all`. -/
def runAll (s : Tree) (i : Nat) (a : Agent) (maxConcurrency : Nat) (hasFactory : Bool) : Tree :=
  let override := if hasFactory = false ∧ 1 < maxConcurrency then some (.serialized a.llm) else none
  { s with pools := s.pools ++ [⟨i, override, hasFactory⟩] }

/-- One charge of a turn, or its end when there is none left. -/
def advance (s : Tree) (i : Nat) (a : Agent) (t : Turn) : Tree :=
  let stop (t : Turn) (o : Outcome) : Agent := { a with past := a.past ++ [(t, o)], current := none }
  match t.plan[t.charged]? with
  | none => { s with agents := s.agents.set i (stop t .returned) }
  | some c =>
      match s.budget.recordToolCall c.guard.agentId c.call.name with
      | .error _ => { s with agents := s.agents.set i (stop t .budgetExceeded) }
      | .ok budget =>
          match s.breakers[c.guard.breaker]? with
          | none => s
          | some breaker =>
              let (breaker, result) := breaker.record c.call.name c.call.arguments
              let t := { t with charged := t.charged + 1 }
              let a := match result with
                | .ok _ => { a with current := some t }
                | .error _ => stop t .repetitionLimit
              { s with
                budget := budget
                breakers := s.breakers.set c.guard.breaker breaker
                agents := s.agents.set i a
                ledger := s.ledger ++ [c] }

end Tree

-- ============================================================================
-- Steps
-- ============================================================================

/-- What can happen next. -/
inductive Event where
  | bind (i repeats : Nat)
  | spawn (i : Nat) (spec : SubagentSpec) (agentId : PyStr) (repeats : Nat) (factory : Option LLMClient)
  | runAll (i maxConcurrency : Nat) (hasFactory : Bool)
  /-- A worker of a pool is spawned. -/
  | worker (p : Nat) (spec : SubagentSpec) (agentId : PyStr) (factory : Option LLMClient)
  /-- A response arrives, or the `done` event of a stream. -/
  | turn (i : Nat) (streaming : Bool) (calls : List ToolCall)
  | advance (i : Nat)
deriving DecidableEq

/-- `DEFAULT_MAX_CONSECUTIVE_REPEATS`. -/
def defaultMaxConsecutiveRepeats : Nat := 20

/-- One step of the tree.  A `uuid4` is an id never given before. -/
def step (s : Tree) : Event → Tree
  | .bind i repeats =>
      match s.agents[i]? with
      | some a => s.bind i a repeats
      | none => s
  | .spawn i spec agentId repeats factory =>
      match s.agents[i]? with
      | some a =>
          if agentId = py "root" ∨ agentId ∈ s.ids then s
          else s.spawn a.llm none spec agentId repeats factory
      | none => s
  | .runAll i maxConcurrency hasFactory =>
      match s.agents[i]? with
      | some a => s.runAll i a maxConcurrency hasFactory
      | none => s
  | .worker p spec agentId factory =>
      match s.pools[p]? with
      | some pool =>
          match s.agents[pool.parent]? with
          | some a =>
              if agentId = py "root" ∨ agentId ∈ s.ids then s
              else s.spawn a.llm pool.override spec agentId defaultMaxConsecutiveRepeats
                (if pool.hasFactory then factory else none)
          | none => s
      | none => s
  | .turn i streaming calls =>
      match s.agents[i]? with
      | some a =>
          if a.current = none then
            let t : Turn := ⟨streaming, a.guard, a.llm.guards, calls, 0⟩
            { s with agents := s.agents.set i { a with current := some t } }
          else s
      | none => s
  | .advance i =>
      match s.agents[i]? with
      | some a =>
          match a.current with
          | some t => s.advance i a t
          | none => s
      | none => s

/-- A tree that is a root only. -/
def Tree.start (max : Nat) (model : Option PyStr) : Tree :=
  { budget := { max := max }, agents := [{ llm := .provider 0 model }] }

-- the guard of a parent is not stacked
example : (Lib.Steps.run step (Tree.start 5 (some (py "m")))
    [.bind 0 20, .spawn 0 ⟨py "a", none⟩ (py "1") 20 none, .spawn 1 ⟨py "b", none⟩ (py "2") 20 none]).agents.map
      (fun a => a.llm.guards) = [[⟨py "root", 0⟩], [⟨py "1", 1⟩], [⟨py "2", 2⟩]] := by
  decide

end Delegation
end KineticSdk
