/-
  KineticSdk.Replay.Checkpoint

  Durable checkpoints (`replay/checkpoint.py`, with `replay/recorder.py`,
  `replay/models.py`, `replay/store.py` and `conversation/store.py`).

  A checkpoint is two steps on the recorded timeline of a run: a raw snapshot
  of the conversation, and the agent's runtime fields, which pass through
  `redact_value` as every recorded event does.  Resuming reads the last step
  of each kind.  The timeline lives in a JSON file: reading it back gives the
  values written, provided every text in it could be encoded.
-/

import KineticSdk.Conversation.State
import KineticSdk.Security.Audit

namespace KineticSdk
namespace Replay

open Py Tool Security Conversation

-- ============================================================================
-- What the agent puts into a checkpoint
-- ============================================================================

/-- `AgentMode`. -/
inductive AgentMode where
  | flash
  | max
deriving DecidableEq

/-- The value of the enumeration. -/
def AgentMode.value : AgentMode → PyStr
  | .flash => py "flash"
  | .max => py "max"

/-- `AgentMode(v)`. -/
def AgentMode.ofValue (v : Json) : Except PyExc AgentMode :=
  if v = .str (py "flash") then .ok .flash
  else if v = .str (py "max") then .ok .max
  else .error ⟨py "ValueError", py "Invalid checkpoint runtime state: " ++ pyRepr v
    ++ py " is not a valid AgentMode"⟩

/-- A call that waits for a human, with the arguments the gate left it with and
    the decision that flagged it. -/
structure PendingConfirmation where
  call : ToolCall
  arguments : Dict
  decision : PermissionDecision
deriving DecidableEq

/-- The runtime fields of an agent that a checkpoint keeps. -/
structure Runtime where
  mode : AgentMode := .max
  stickyMax : Bool := false
  maxIterations : Int := 50
  maxIterationsOverride : Option Int := none
  enableExtendedReasoning : Bool := true
  pendingConfirmation : Option PendingConfirmation := none
  pendingRemainingCalls : List ToolCall := []
deriving DecidableEq

/-- A call in a checkpoint. -/
def callToJson (call : ToolCall) : Json :=
  .obj [(py "id", .str call.id), (py "name", .str call.name), (py "arguments", call.arguments)]

/-- A pending confirmation in a checkpoint. -/
def PendingConfirmation.toJson (p : PendingConfirmation) : Json :=
  .obj [(py "call", callToJson p.call), (py "arguments", .obj p.arguments),
    (py "decision", p.decision.toJson)]

/-- An optional value, `None` when absent. -/
def optional {α : Type} (f : α → Json) : Option α → Json
  | some a => f a
  | none => .null

/-- `_checkpoint_runtime_state`. -/
def Runtime.toJson (r : Runtime) : Json :=
  .obj
    [(py "mode", .str r.mode.value), (py "sticky_max", .bool r.stickyMax),
     (py "max_iterations", .int r.maxIterations),
     (py "max_iterations_override", optional .int r.maxIterationsOverride),
     (py "enable_extended_reasoning", .bool r.enableExtendedReasoning),
     (py "pending_confirmation", optional PendingConfirmation.toJson r.pendingConfirmation),
     (py "pending_remaining_calls", .arr (r.pendingRemainingCalls.map callToJson))]

-- ============================================================================
-- Reading it back
-- ============================================================================

/-- `data[key]`. -/
def field (data : Dict) (key : PyStr) : Except PyExc Json :=
  match Dict.get? data key with
  | some v => .ok v
  | none => .error ⟨py "KeyError", pyReprStr key⟩

/-- `int(v)`, for the numbers a checkpoint holds. -/
def intOf : Json → Except PyExc Int
  | .int n => .ok n
  | .bool b => .ok (if b then 1 else 0)
  | v => .error ⟨py "ValueError", py "Invalid checkpoint runtime state: " ++ pyRepr v⟩

/-- `ToolCall(str(d["id"]), str(d["name"]), dict(d["arguments"]))`. -/
def callOfJson (data : Dict) : Except PyExc ToolCall := do
  let id ← field data (py "id")
  let name ← field data (py "name")
  let arguments ← field data (py "arguments")
  let kvs ← toDict arguments
  pure ⟨strOf id, strOf name, .obj kvs⟩

/-- `PermissionDecision(**data)` on the three fields a checkpoint holds. -/
def decisionOfJson (data : Dict) : Except PyExc PermissionDecision :=
  match Dict.get? data (py "allowed"), Dict.get? data (py "reason"),
      Dict.get? data (py "requires_confirmation") with
  | some (.bool allowed), some (.str reason), some (.bool confirm) => .ok ⟨allowed, reason, confirm⟩
  | _, _, _ => .error ⟨py "TypeError", py "invalid PermissionDecision fields"⟩

/-- The pending confirmation of a checkpoint; anything but a dict is none. -/
def pendingOfJson : Json → Except PyExc (Option PendingConfirmation)
  | .obj pending =>
      match Dict.get? pending (py "call"), Dict.get? pending (py "arguments"),
          Dict.get? pending (py "decision") with
      | some (.obj call), some (.obj args), some (.obj decision) => do
          let call ← callOfJson call
          let decision ← decisionOfJson decision
          pure (some ⟨call, args, decision⟩)
      | _, _, _ => .error ⟨py "ValueError", py "Invalid pending confirmation checkpoint data"⟩
  | _ => .ok none

/-- The calls of a list, in order; items that are no dicts are skipped. -/
def callsOfJson : List Json → Except PyExc (List ToolCall)
  | [] => .ok []
  | .obj data :: items => do
      let call ← callOfJson data
      let calls ← callsOfJson items
      pure (call :: calls)
  | _ :: items => callsOfJson items

/-- `isinstance(override, int)`. -/
def overrideOf : Option Json → Option Int
  | some (.int n) => some n
  | some (.bool b) => some (if b then 1 else 0)
  | _ => none

/-- `_restore_checkpoint_runtime_state`. -/
def Runtime.ofJson (data : Dict) : Except PyExc Runtime := do
  let mode ← AgentMode.ofValue (← field data (py "mode"))
  let sticky ← field data (py "sticky_max")
  let maxIterations ← intOf (← field data (py "max_iterations"))
  let override := overrideOf (Dict.get? data (py "max_iterations_override"))
  let extended ← field data (py "enable_extended_reasoning")
  let pending ← pendingOfJson ((Dict.get? data (py "pending_confirmation")).getD .null)
  let remaining ←
    match (Dict.get? data (py "pending_remaining_calls")).getD (.arr []) with
    | .arr items => callsOfJson items
    | _ => .error ⟨py "ValueError", py "Invalid pending remaining calls checkpoint data"⟩
  pure ⟨mode, sticky.truthy, maxIterations, override, extended.truthy, pending, remaining⟩

-- ============================================================================
-- The conversation
-- ============================================================================

/-- `str(summary)` of the dataclass. -/
def summaryText (s : StructuredSummary) : PyStr :=
  let items (xs : List PyStr) : PyStr := pyRepr (.arr (xs.map .str))
  py "StructuredSummary(goal=" ++ items s.goal ++ py ", decisions=" ++ items s.decisions
    ++ py ", files_touched=" ++ items s.filesTouched ++ py ", errors_encountered="
    ++ items s.errorsEncountered ++ py ", open_questions=" ++ items s.openQuestions ++ py ")"

/-- A metadata value in the file: an object is written as its `str`. -/
def metaToJson : MetaValue → Json
  | .json v => v
  | .summary s => .str (summaryText s)

/-- `state_to_dict`, as it is written. -/
def stateToDict (s : ConversationState) : Dict :=
  [(py "system_prompt", optStr s.systemPrompt), (py "messages", .arr (s.messages.map .obj)),
   (py "max_messages", optional .int s.maxMessages),
   (py "metadata", .obj (s.metadata.map fun kv => (kv.1, metaToJson kv.2)))]

/-- The texts a file has to hold for a saved state. -/
theorem encodable_stateToDict_iff (s : ConversationState) :
    Json.encodableFields (stateToDict s) = true ↔ (optStr s.systemPrompt).encodable = true ∧
      (∀ msg ∈ s.messages, Json.encodableFields msg = true) ∧
      Json.encodableFields (s.metadata.map fun kv => (kv.1, metaToJson kv.2)) = true := by
  have hkeys : encodable (py "system_prompt") = true ∧ encodable (py "messages") = true ∧
      encodable (py "max_messages") = true ∧ encodable (py "metadata") = true := by decide +kernel
  have hmax : (optional Json.int s.maxMessages).encodable = true := by
    cases s.maxMessages <;> rfl
  have hmessages : Json.encodableList (s.messages.map .obj) = true ↔
      ∀ msg ∈ s.messages, Json.encodableFields msg = true := by
    rw [Json.encodableList_iff]
    simp [Json.encodable]
  simp [stateToDict, Json.encodableFields, Json.encodable, hkeys, hmax, hmessages]

/-- The messages of a saved state, when they are all dicts. -/
def messagesOfJson : List Json → Option (List Message)
  | [] => some []
  | .obj m :: ms => (messagesOfJson ms).map (m :: ·)
  | _ :: _ => none

/-- `state_from_dict`.  The remaining fields are taken as they are. -/
def stateFromDict (data : Dict) : Except PyExc ConversationState :=
  match Dict.get? data (py "messages") with
  | some (.arr ms) =>
      match messagesOfJson ms with
      | some messages =>
          .ok
            { systemPrompt := match Dict.get? data (py "system_prompt") with
                | some (.str s) => some s
                | _ => none
              messages := messages
              maxMessages := overrideOf (Dict.get? data (py "max_messages"))
              metadata := match Dict.get? data (py "metadata") with
                | some (.obj kvs) => kvs.map fun kv => (kv.1, .json kv.2)
                | _ => [] }
      | none => .error ⟨py "ValueError", py "state.messages must be a list of dicts"⟩
  | _ => .error ⟨py "ValueError", py "state.messages must be a list of dicts"⟩

-- ============================================================================
-- The timeline
-- ============================================================================

/-- The steps of a timeline that a checkpoint reads or writes. -/
inductive StepKind where
  | snapshot
  | checkpoint
  | resumed
deriving DecidableEq

/-- The event type of a step. -/
def StepKind.eventType : StepKind → PyStr
  | .snapshot => py "replay.snapshot"
  | .checkpoint => py "replay.checkpoint"
  | .resumed => py "replay.resumed"

/-- `ReplayStep`; its sequence number is its position. -/
structure ReplayStep where
  kind : StepKind
  payload : Dict

/-- `ReplayRun`. -/
structure ReplayRun where
  runId : PyStr
  steps : List ReplayStep

/-- A step in the file, without number and timestamp. -/
def ReplayStep.toJson (s : ReplayStep) : Json :=
  .obj [(py "event_type", .str s.kind.eventType), (py "payload", .obj s.payload)]

/-- `ReplayRun.to_dict`. -/
def ReplayRun.toJson (r : ReplayRun) : Json :=
  .obj [(py "run_id", .str r.runId), (py "steps", .arr (r.steps.map ReplayStep.toJson))]

/-- What the one slot of a `ReplayStore` holds. -/
abbrev ReplayStore := Option ReplayRun

/-- `_new_run`: the stored timeline of the run, or a fresh one. -/
def ReplayStore.timeline (store : ReplayStore) (runId : PyStr) : ReplayRun :=
  match store with
  | some r => if r.runId = runId then r else ⟨runId, []⟩
  | none => ⟨runId, []⟩

/-- `_append`: the file is rewritten with one more step; a text it cannot hold
    leaves the old file. -/
def appendStep (store : ReplayStore) (runId : PyStr) (step : ReplayStep) :
    Except PyExc ReplayRun :=
  let run := store.timeline runId
  let run' : ReplayRun := { run with steps := run.steps ++ [step] }
  if run'.toJson.encodable then .ok run' else .error unicodeEncodeError

/-- The snapshot step of a checkpoint: the conversation as it is. -/
def snapshotStep (conv : ConversationState) : ReplayStep :=
  ⟨.snapshot, [(py "state", .obj (stateToDict conv))]⟩

/-- The runtime step of a checkpoint, redacted like every recorded event. -/
def checkpointStep (runId : PyStr) (r : Runtime) : ReplayStep :=
  ⟨.checkpoint, redactFields [(py "run_id", .str runId), (py "agent", r.toJson)]⟩

/-- `CheckpointManager.save`: the store after it, and whether it raised. -/
def save (store : ReplayStore) (runId : PyStr) (conv : ConversationState) (r : Runtime) :
    ReplayStore × Except PyExc Unit :=
  if runId = [] then
    (store, .error ⟨py "CheckpointError",
      py "Cannot checkpoint an agent before its run has started"⟩)
  else
    match appendStep store runId (snapshotStep conv) with
    | .error e => (store, .error e)
    | .ok run =>
        match appendStep (some run) runId (checkpointStep runId r) with
        | .error e => (some run, .error e)
        | .ok run' => (some run', .ok ())

/-- The payload of the last step of a kind. -/
def lastPayload (steps : List ReplayStep) (kind : StepKind) : Option Dict :=
  (steps.reverse.find? fun s => s.kind = kind).map ReplayStep.payload

/-- `CheckpointError`. -/
def checkpointError (checkpointId : PyStr) (problem : PyStr) : PyExc :=
  ⟨py "CheckpointError", py "Checkpoint " ++ pyReprStr checkpointId ++ problem⟩

/-- `CheckpointManager.resume` (and `resume_async`): the conversation and the
    runtime fields the rebuilt agent starts from.  The marker step it appends
    to the timeline is `resumedStep`. -/
def resume (store : ReplayStore) (checkpointId : PyStr) :
    Except PyExc (ConversationState × Runtime) :=
  match store with
  | none => .error (checkpointError checkpointId (py " was not found"))
  | some run =>
      if run.runId ≠ checkpointId then .error (checkpointError checkpointId (py " was not found"))
      else
        match lastPayload run.steps .snapshot, lastPayload run.steps .checkpoint with
        | some snapshot, some metadata =>
            match Dict.get? snapshot (py "state"), Dict.get? metadata (py "agent") with
            | some (.obj state), some (.obj runtime) =>
                match stateFromDict state with
                | .error e => .error (checkpointError checkpointId
                    (py " has invalid state: " ++ e.message))
                | .ok conv => (Runtime.ofJson runtime).map fun r => (conv, r)
            | _, _ => .error (checkpointError checkpointId (py " is invalid"))
        | _, _ => .error (checkpointError checkpointId (py " is incomplete"))

/-- The step a resume leaves on the timeline. -/
def resumedStep (runId : PyStr) : ReplayStep :=
  ⟨.resumed, redactFields [(py "run_id", .str runId), (py "checkpoint_id", .str runId)]⟩

end Replay
end KineticSdk
