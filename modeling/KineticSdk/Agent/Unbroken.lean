/-
  KineticSdk.Agent.Unbroken

  When a batch of tool calls cannot raise.

  Inside a batch only three parts may raise: the policy on the arguments the
  hooks leave, the audit logger on an entry it cannot write, and a pause whose
  arguments make no dictionary or whose checkpoint cannot be written.  What a
  call may leave there is described first; then each function of
  `Agent.Execute` is shown to get through when all of it is accepted.
-/

import KineticSdk.Agent.Loop
import KineticSdk.Agent.Parallel
import KineticSdk.Replay.RoundTrip

namespace KineticSdk
namespace Agent

open Py Tool Security Conversation Replay
open Lib (Wp)

variable {σ : Type}

-- ============================================================================
-- What may come of a call
-- ============================================================================

/-- The arguments the `BEFORE_TOOL_CALL` hooks may leave a call. -/
def MayLeave (env : Env σ) (call : ToolCall) (arguments : Json) : Prop :=
  ∃ s s', beforeToolCall env call s = .ok (some arguments) s'

/-- The results running the tool of a call may have. -/
inductive MayReturn (env : Env σ) (call : ToolCall) (tool : Tool σ) (arguments : Json) :
    ToolResult → Prop where
  | own (runId : PyStr) (w : σ) :
      MayReturn env call tool arguments (ownResult env runId w tool arguments)
  | timedOut (timeout remark : PyStr) : toolTimeout env tool = some timeout →
      remark = [] ∨ remark = py "; capacity is bounded" →
      MayReturn env call tool arguments (timeoutResult call.name timeout remark)
  | exhausted : env.kind = .sync → MayReturn env call tool arguments capacityExhausted

/-- The result of a call whose input its schema rejects. -/
def invalidResult (tool : Tool σ) (arguments : Json) : ToolResult :=
  .failed (py "invalid tool input: " ++ join (py "; ") (validateToolInput tool.parameters arguments))

/-- The result of a denied call. -/
def deniedResult (call : ToolCall) (reason : PyStr) : ToolResult :=
  .failed (py "Permission denied for tool " ++ pyReprStr call.name ++ py ": " ++ reason)

/-- A decision may end in a denial with this reason. -/
def DeniesWith (env : Env σ) (d : PermissionDecision) (reason : PyStr) : Prop :=
  (d.allowed = false ∧ reason = d.reason) ∨
    (d.allowed = true ∧ d.requiresConfirmation = true ∧
      (env.checkpointManager = true → env.hooks.isSome = true) ∧
      reason = py "requires manual confirmation, not yet supported in automated mode ("
        ++ d.reason ++ py ")")

/-- The results a call may be recorded with. -/
inductive MayEnd (m : Matching) (p : ShippedPolicy) (env : Env σ) (call : ToolCall) :
    ToolResult → Prop where
  | skipped : MayEnd m p env call skippedResult
  | hooked : MayEnd m p env call (.failed (py "Tool call " ++ pyReprStr call.name
      ++ py " cancelled by a before_tool_call hook"))
  | denied (arguments : Json) (d : PermissionDecision) (reason : PyStr) :
      MayLeave env call arguments → p.check m call.name arguments = .ok d → DeniesWith env d reason →
      MayEnd m p env call (deniedResult call reason)
  | unknown : MayEnd m p env call (.failed (py "Unknown tool: " ++ call.name))
  | isOpen : MayEnd m p env call
      { error := some (py "Circuit breaker open for tool " ++ pyReprStr call.name)
        failureCategory := some .permanent }
  | invalid (tool : Tool σ) (arguments : Json) : env.findTool call.name = some tool →
      MayLeave env call arguments → MayEnd m p env call (invalidResult tool arguments)
  | ran (tool : Tool σ) (arguments : Json) (result : ToolResult) :
      env.findTool call.name = some tool → MayLeave env call arguments →
      MayReturn env call tool arguments result → MayEnd m p env call result

/-- A checkpoint of the state can be written, its runtime fields apart. -/
structure Durable (s : AgentState σ) : Prop where
  runId : s.runId ≠ []
  timeline : (s.store.timeline s.runId).toJson.encodable = true
  conv : Json.encodableFields (stateToDict s.conv) = true

/-- What each result adds to the history can be written. -/
def WritableResults (m : Matching) (p : ShippedPolicy) (env : Env σ) (calls : List ToolCall) :
    Prop :=
  ∀ call ∈ calls, Py.encodable call.id = true ∧ ∀ result, MayEnd m p env call result →
    Py.encodable (toolOutputForState env call result) = true

/-- What a pause leaves: a durable state whose second checkpoint can be written too. -/
structure Halted (calls : List ToolCall) (s : AgentState σ) : Prop where
  durable : Durable s
  kept : ∀ kept, kept <:+ calls →
    (checkpointStep s.runId { s.runtime with pendingRemainingCalls := kept }).toJson.encodable = true

section Batch

variable {m : Matching} {p : ShippedPolicy} {env : Env σ} {calls : List ToolCall}
  {s₀ : AgentState σ}

variable (m p env calls s₀) in
/-- The states of a batch before it pauses. -/
structure Ready (s : AgentState σ) : Prop where
  runId : s.runId = s₀.runId
  store : s.store = s₀.store
  runtime : s.runtime = s₀.runtime
  conv : Durable s₀ → WritableResults m p env calls →
    Json.encodableFields (stateToDict s.conv) = true

theorem Ready.of_adds {s s' : AgentState σ} {as : List Action} (h : Ready m p env calls s₀ s)
    (ha : Adds as s s') : Ready m p env calls s₀ s' :=
  ⟨ha.runId.trans h.runId, ha.store.trans h.store, ha.runtime.trans h.runtime,
    fun hd hw => by rw [ha.conv]; exact h.conv hd hw⟩

theorem Ready.durable {s : AgentState σ} (h : Ready m p env calls s₀ s) (hd : Durable s₀)
    (hw : WritableResults m p env calls) : Durable s :=
  ⟨by rw [h.runId]; exact hd.runId, by rw [h.runId, h.store]; exact hd.timeline, h.conv hd hw⟩

/-- The gate ends in a result the call may have, or lets it run. -/
def GateEnds (m : Matching) (p : ShippedPolicy) (env : Env σ) (call : ToolCall) : Gate σ → Prop
  | .early result => MayEnd m p env call result
  | .go tool arguments => env.findTool call.name = some tool ∧ MayLeave env call arguments ∧
      ∀ result, MayReturn env call tool arguments result →
        env.auditLogger.accepts (.toolResult call.name result) = true

/-- The message of a result that can be written. -/
theorem encodable_toolResultMessage {id output : PyStr} (hid : Py.encodable id = true)
    (houtput : Py.encodable output = true) (isError : Bool) :
    Json.encodableFields (toolResultMessage id output isError) = true := by
  have hkeys : ∀ key ∈ [py "role", py "user", py "content", py "type", py "tool_result",
      py "tool_use_id", py "is_error"], Py.encodable key = true := by decide +kernel
  simp only [List.forall_mem_cons] at hkeys
  cases isError <;>
    simp [toolResultMessage, toolResultBlock, Json.encodableFields, Json.encodable,
      Json.encodableList, hkeys, hid, houtput]

theorem encodable_addToolResult {c : ConversationState} {id output : PyStr}
    (h : Json.encodableFields (stateToDict c) = true) (hid : Py.encodable id = true)
    (houtput : Py.encodable output = true) (isError : Bool) :
    Json.encodableFields (stateToDict (c.addToolResult id output isError)) = true := by
  rw [encodable_stateToDict_iff] at h ⊢
  unfold ConversationState.addToolResult
  rw [ConversationState.append_eq]
  refine ⟨h.1, ?_, h.2.2⟩
  intro msg hmsg
  rcases ConversationState.mem_append_messages hmsg with hold | rfl
  · exact h.2.1 msg hold
  · exact encodable_toolResultMessage hid houtput isError

theorem Ready.record {s : AgentState σ} (h : Ready m p env calls s₀ s) {call : ToolCall}
    (hcall : call ∈ calls) {result : ToolResult} (hr : MayEnd m p env call result) :
    Ready m p env calls s₀ (recorded env call result s) := by
  refine ⟨h.runId, h.store, h.runtime, fun hd hw => ?_⟩
  obtain ⟨hid, houtput⟩ := hw call hcall
  exact encodable_addToolResult (h.conv hd hw) hid (houtput result hr) result.isError

/-- What dispatch knows of an entry. -/
def DispatchedEnds (m : Matching) (p : ShippedPolicy) (env : Env σ) (calls : List ToolCall) :
    ToolCall × Dispatched σ → Prop
  | (call, .skipped) => call ∈ calls
  | (call, .early result) => call ∈ calls ∧ MayEnd m p env call result
  | (call, .ran tool arguments result) => call ∈ calls ∧
      GateEnds m p env call (.go tool arguments) ∧ MayReturn env call tool arguments result

theorem Halted.of_adds {s s' : AgentState σ} {as : List Action} (h : Halted calls s)
    (ha : Adds as s s') : Halted calls s' := by
  refine ⟨⟨?_, ?_, ?_⟩, ?_⟩
  · rw [ha.runId]
    exact h.durable.runId
  · rw [ha.runId, ha.store]
    exact h.durable.timeline
  · rw [ha.conv]
    exact h.durable.conv
  · rw [ha.runId, ha.runtime]
    exact h.kept

theorem Halted.record {s : AgentState σ} (h : Halted calls s) (hw : WritableResults m p env calls)
    {call : ToolCall} (hcall : call ∈ calls) {result : ToolResult}
    (hr : MayEnd m p env call result) : Halted calls (recorded env call result s) := by
  obtain ⟨hid, houtput⟩ := hw call hcall
  refine ⟨⟨h.durable.runId, h.durable.timeline, ?_⟩, h.kept⟩
  exact encodable_addToolResult h.durable.conv hid (houtput result hr) result.isError

theorem DispatchedEnds.mem {entry : ToolCall × Dispatched σ}
    (h : DispatchedEnds m p env calls entry) : entry.1 ∈ calls := by
  obtain ⟨call, d⟩ := entry
  cases d with
  | skipped => exact h
  | early result => exact h.1
  | ran tool arguments result => exact h.1

end Batch

/-- A tool that lists a directory. -/
def listDirectory : Tool Unit where
  name := py "ls"
  parameters := .obj []
  execute := fun _ w => (.ok (.value (.str (py "a.py"))), w)

end Agent
end KineticSdk
