/-
  KineticSdk.Agent.State

  The state of an agent and the components it is given
  (`agent/agent.py`, `agent/async_agent.py`, `hooks/`).

  Agent code runs in `M σ`: it reads and writes an `AgentState`, and a Python
  exception leaves the state as it was when it was raised.  What the agent
  asks of the outside (hooks, tools, the clock, another thread's `cancel()`)
  goes through `ask`, which lets the world answer.

  The state carries a trace of the actions that matter to a caller: what was
  checked, audited, confirmed and executed, and which histories were sent to
  the model or persisted.  The agent only ever appends to it.
-/

import KineticSdk.Replay.Checkpoint
import KineticSdk.Tool.Validation
import KineticSdk.Lib.Wp

namespace KineticSdk
namespace Agent

open Py Tool Security Conversation Replay

-- ============================================================================
-- Components
-- ============================================================================

/-- `LLMResponse`, as far as the agent loop reads it. -/
structure LLMResponse where
  content : PyStr := []
  toolCalls : List ToolCall := []

/-- `HookPoint`. -/
inductive HookPoint where
  | beforeRun
  | afterRun
  | beforeLlmCall
  | afterLlmCall
  | beforeToolCall
  | afterToolCall
  | onPermissionCheck
  | onError
deriving DecidableEq

/-- `HookContext`: the fields each point populates. -/
inductive HookContext where
  | beforeRun (userMessage : Option PyStr)
  | afterRun (finalText : PyStr)
  | beforeLlmCall (iteration : Nat) (userMessage : Option PyStr)
  | afterLlmCall (iteration : Nat) (response : LLMResponse)
  | beforeToolCall (toolName : PyStr) (toolInput : Json)
  | afterToolCall (toolName : PyStr) (toolInput : Json) (result : ToolResult)
  | onPermissionCheck (toolName : PyStr) (toolInput : Json) (decision : PermissionDecision)
  | onError (error : PyStr)

/-- `HookContext.point`. -/
def HookContext.point : HookContext → HookPoint
  | .beforeRun _ => .beforeRun
  | .afterRun _ => .afterRun
  | .beforeLlmCall _ _ => .beforeLlmCall
  | .afterLlmCall _ _ => .afterLlmCall
  | .beforeToolCall _ _ => .beforeToolCall
  | .afterToolCall _ _ _ => .afterToolCall
  | .onPermissionCheck _ _ _ => .onPermissionCheck
  | .onError _ => .onError

/-- `HookResult`. -/
structure HookResult where
  shouldContinue : Bool := true
  modifiedContext : Option Dict := none

/-- The replacement input of a hook, when it gives a dictionary. -/
def HookResult.toolInput (r : HookResult) : Option Json :=
  match r.modifiedContext.bind fun d => Dict.get? d (py "tool_input") with
  | some (.obj kvs) => some (.obj kvs)
  | _ => none

/-- What calling a hook comes to: it raises, observes, or returns a result. -/
inductive HookOutcome where
  | raised
  | observed
  | result (r : HookResult)

/-- A hook. -/
abbrev Hook (σ : Type) := HookContext → Act σ HookOutcome

/-- `HookRegistry`: the hooks of each point, in registration order. -/
abbrev HookRegistry (σ : Type) := HookPoint → List (Hook σ)

/-- `HookRegistry.trigger`: every hook runs, and only results are collected. -/
def triggerAll {σ : Type} (ctx : HookContext) : List (Hook σ) → Act σ (List HookResult)
  | [] => fun w => ([], w)
  | hook :: hooks => fun w =>
      let (outcome, w) := hook ctx w
      let (results, w) := triggerAll ctx hooks w
      match outcome with
      | .result r => (r :: results, w)
      | _ => (results, w)

/-- `StuckDetector`. -/
structure StuckDetector where
  windowSize : Nat := 6
  repeatThreshold : Nat := 3

/-- The two agent classes. -/
inductive AgentKind where
  | sync
  | async
deriving DecidableEq

/-- What an agent is constructed with, as far as tool calls go.  The digests
    are SHA-256 values, only ever compared or passed on. -/
structure Env (σ : Type) where
  kind : AgentKind := .sync
  tools : List (Tool σ)
  permissionPolicy : PyStr → Json → Act σ (Except PyExc PermissionDecision)
  auditLogger : AuditLogger := .inMemory
  hooks : Option (HookRegistry σ) := none
  checkpointManager : Bool := false
  validateToolInputs : Bool := true
  parallelToolExecution : Bool := false
  toolTimeout : Option PyStr := none
  maxTransientRetries : Int := 2
  injectionGuard : Bool := true
  stuckDetector : Option StuckDetector := none
  idempotencyKey : PyStr → Json → PyStr → PyStr
  digest : Json → PyStr
  /-- Another thread has called `cancel()` since the last look. -/
  cancelRequested : Act σ Bool
  /-- The wait for the named tool's result expires. -/
  timedOut : PyStr → Act σ Bool
  /-- How many executions have returned, and their slots with them, since the last submission. -/
  slotsReleased : Act σ Nat
  /-- `time.monotonic()`, in seconds. -/
  monotonic : Act σ Int

/-- `_tools.get(name)`. -/
def Env.findTool {σ : Type} (env : Env σ) (name : PyStr) : Option (Tool σ) :=
  env.tools.find? fun t => t.name = name

-- ============================================================================
-- The state
-- ============================================================================

/-- What a caller can observe of a run. -/
inductive Action where
  /-- The policy decided on a call. -/
  | checked (id name : PyStr) (arguments : Json) (decision : PermissionDecision)
  /-- The call and its decision went to the audit log. -/
  | audited (id name : PyStr) (arguments : Json) (decision : PermissionDecision)
  /-- A hook confirmed the call. -/
  | confirmed (id name : PyStr) (arguments : Json)
  /-- The hooks declined the call. -/
  | declined (id name : PyStr) (arguments : Json)
  /-- A human approved the pending call. -/
  | approved (id name : PyStr) (arguments : Json)
  /-- `tool.execute` was invoked for a call: its first attempt is number 0. -/
  | executed (id : PyStr) (attempt : Nat) (name : PyStr) (kwargs : Dict)
  /-- The history was sent to the model. -/
  | llmCall (messages : List Message)
  /-- The conversation was persisted. -/
  | persisted (conv : ConversationState)
  /-- A compaction stored structured findings in the metadata. -/
  | summarized (found : StructuredSummary)
  /-- The model answered without tool calls. -/
  | proposed (text : PyStr)
  /-- The verifier decided on an answer; a verifier that raises accepts. -/
  | verdict (answer : PyStr) (accepted : Bool)
  /-- `agent.cancelled`, or `agent.error` with the reason of a stop. -/
  | stopped (reason : PyStr)
  /-- `agent.budget_exceeded`. -/
  | budgetExceeded (message : PyStr)
  /-- The classifier's mode for a run, `none` when it raised, and whether MAX
      was sticky by then. -/
  | classified (answer : Option AgentMode) (sticky : Bool)
  /-- The messages accepted from other threads when a pass starts. -/
  | accepted (texts : List PyStr)
  /-- `agent.message_injected`. -/
  | injected (text : PyStr)
  /-- The messages accepted by the time the inbox was found empty. -/
  | drained (texts : List PyStr)
  /-- `agent.turn_started`, under the cap the loop compares to. -/
  | turnStarted (iteration : Nat) (mode : AgentMode) (maxIterations : Int)
  /-- `agent.escalated`. -/
  | escalated
  /-- A final answer went back to the model for a correction
      (`agent.structured_output_retry`, `agent.verification_retry`). -/
  | structuredRetry
deriving DecidableEq

/-- The state of an agent. -/
structure AgentState (σ : Type) where
  conv : ConversationState
  runtime : Runtime
  runId : PyStr
  store : ReplayStore := none
  resuming : Bool := false
  world : σ
  cancelled : Bool := false
  circuitBreakers : List (PyStr × (Int × Option Int)) := []
  /-- Execution slots that have not been given back. -/
  held : Nat := 0
  window : List (PyStr × PyStr × PyStr) := []
  stopReason : Option PyStr := none
  plan : Option PyStr := none
  /-- `structured_output`; `None` is the JSON null. -/
  structuredOutput : Json := .null
  trace : List Action := []

/-- What leaves a computation early. -/
inductive Exc where
  /-- `PendingConfirmationError`. -/
  | pendingConfirmation (call : ToolCall) (arguments : Json) (decision : PermissionDecision)
      (checkpointId : PyStr)
  /-- Any other exception. -/
  | raised (e : PyExc)

/-- Agent code. -/
abbrev M (σ : Type) := EStateM Exc (AgentState σ)

section Primitives

variable {σ α : Type}

/-- Ask an external component. -/
def ask (act : Act σ α) : M σ α :=
  modifyGet fun s => ((act s.world).1, { s with world := (act s.world).2 })

/-- Append to the trace. -/
def note (a : Action) : M σ PUnit := modify fun s => { s with trace := s.trace ++ [a] }

/-- Raise a Python exception. -/
def raise (e : PyExc) : M σ α := throw (.raised e)

/-- Return the value or raise the exception. -/
def lift : Except PyExc α → M σ α
  | .ok a => pure a
  | .error e => raise e

/-- `_cancel_event.is_set()`: once set, the event stays set. -/
def isCancelled (env : Env σ) : M σ Bool := do
  if (← get).cancelled then pure true
  else
    let b ← ask env.cancelRequested
    modify fun s => { s with cancelled := b }
    pure b

/-- `_trigger_hooks`. -/
def triggerHooks (env : Env σ) (ctx : HookContext) : M σ (List HookResult) :=
  match env.hooks with
  | none => pure []
  | some registry => ask (triggerAll ctx (registry ctx.point))

/-- Hand an entry to the audit logger. -/
def log (env : Env σ) (entry : AuditEntry) : M σ Unit := lift (env.auditLogger.record entry)

end Primitives

end Agent
end KineticSdk
