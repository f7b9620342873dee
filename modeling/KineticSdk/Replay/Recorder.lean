/-
  KineticSdk.Replay.Recorder

  The replay recorder and its file (`replay/recorder.py`, `replay/models.py`,
  `replay/store.py`).

  A recorder keeps the run it is recording in memory, appends steps to it and
  writes the whole run to the file each time.  What it appends for a raw
  snapshot shares the message list and the metadata of the live conversation,
  so a payload in memory (`Payload`) becomes a value only when the file is
  written.  Several recorders may write one file; each starts from the file
  only when it has no run of that id in memory.
-/

import KineticSdk.Replay.Checkpoint
import Mathlib.Logic.Function.Basic

namespace KineticSdk
namespace Replay

open Py Security Conversation

-- ============================================================================
-- Payloads
-- ============================================================================

/-- The conversations that exist, by identity. -/
abbrev Heap := Nat → ConversationState

/-- A payload in memory: values of its own, or a snapshot that refers to the
    containers of a conversation and holds its two immutable fields. -/
inductive Payload where
  | own (value : Dict)
  | live (conv : Nat) (systemPrompt : Option PyStr) (maxMessages : Option Int)

/-- What is written for a payload, given the conversations at that moment. -/
def Payload.render (heap : Heap) : Payload → Dict
  | .own value => value
  | .live conv systemPrompt maxMessages =>
      [(py "state", .obj (stateToDict
        { heap conv with systemPrompt := systemPrompt, maxMessages := maxMessages }))]

/-- One metadata entry after `redact_value`, as it is written: an object that is
    no container passes through. -/
def redactMeta (kv : PyStr × MetaValue) : Dict :=
  match kv.2 with
  | .json v => redactFields [(kv.1, v)]
  | .summary s => [(kv.1, .str (summaryText s))]

/-- `redact_value(state_to_dict(state))`, as it is written. -/
def redactState (c : ConversationState) : Dict :=
  redactFields
    [(py "system_prompt", optStr c.systemPrompt), (py "messages", .arr (c.messages.map .obj)),
     (py "max_messages", optional .int c.maxMessages)]
  ++ [(py "metadata", .obj (c.metadata.flatMap redactMeta))]

-- ============================================================================
-- Runs
-- ============================================================================

/-- `ReplayStep`, over the payloads of a run in memory or of one in the file. -/
structure TimelineStep (P : Type) where
  sequence : Nat
  timestamp : PyStr
  eventType : PyStr
  payload : P

/-- `ReplayRun`. -/
structure Timeline (P : Type) where
  runId : PyStr
  steps : List (TimelineStep P) := []
  parentRunId : Option PyStr := none
  forkSequence : Option Int := none

/-- The same step with another payload. -/
def TimelineStep.map {P Q : Type} (f : P → Q) (s : TimelineStep P) : TimelineStep Q :=
  ⟨s.sequence, s.timestamp, s.eventType, f s.payload⟩

/-- The same run with other payloads. -/
def Timeline.map {P Q : Type} (f : P → Q) (t : Timeline P) : Timeline Q :=
  ⟨t.runId, t.steps.map (TimelineStep.map f), t.parentRunId, t.forkSequence⟩

/-- `_append`, in memory: the step is numbered by its position. -/
def Timeline.append {P : Type} (t : Timeline P) (now eventType : PyStr) (payload : P) :
    Timeline P :=
  { t with steps := t.steps ++ [⟨t.steps.length, now, eventType, payload⟩] }

/-- `ReplayStep.to_dict`. -/
def TimelineStep.toJson (s : TimelineStep Dict) : Json :=
  .obj [(py "sequence", .int s.sequence), (py "timestamp", .str s.timestamp),
    (py "event_type", .str s.eventType), (py "payload", .obj s.payload)]

/-- An optional field of a dict: left out when `None`. -/
def optionalField {α : Type} (key : PyStr) (f : α → Json) : Option α → Dict
  | some a => [(key, f a)]
  | none => []

/-- `ReplayRun.to_dict`. -/
def Timeline.toJson (t : Timeline Dict) : Json :=
  .obj ([(py "run_id", .str t.runId), (py "steps", .arr (t.steps.map TimelineStep.toJson))]
    ++ optionalField (py "parent_run_id") .str t.parentRunId
    ++ optionalField (py "fork_sequence") .int t.forkSequence)

/-- What `ReplayRun.from_dict` objects to in a run that was written. -/
def Timeline.problem (t : Timeline Dict) : Option PyStr :=
  if t.runId = [] then some (py "run_id must be a non-empty string")
  else if t.parentRunId = some [] then
    some (py "parent_run_id must be a non-empty string when supplied")
  else if t.forkSequence.any (· < 0) then
    some (py "fork_sequence must be a non-negative int when supplied")
  else if t.steps.map TimelineStep.sequence ≠ List.range t.steps.length then
    some (py "step sequences must start at zero and be contiguous")
  else none

/-- What the file of a `JsonFileReplayStore` holds, if it exists. -/
abbrev ReplayFile := Option (Timeline Dict)

/-- `load`. -/
def load (path : PyStr) (file : ReplayFile) : Except PyExc ReplayFile :=
  match file.bind Timeline.problem with
  | none => .ok file
  | some problem =>
      .error ⟨py "ReplayStoreError", py "Cannot load replay from " ++ path ++ py ": " ++ problem⟩

-- ============================================================================
-- The recorder
-- ============================================================================

/-- `Event`. -/
structure Event where
  type : PyStr
  payload : Dict

theorem none_paired : (none : Option PyStr).isNone = (none : Option Int).isNone := rfl

/-- `ReplayRecorder`, as constructed: a parent and a fork point come together. -/
structure ReplayRecorder where
  captureRawSnapshots : Bool := false
  captureReasoning : Bool := false
  parentRunId : Option PyStr := none
  forkSequence : Option Int := none
  paired : parentRunId.isNone = forkSequence.isNone := by first | exact none_paired | rfl

/-- The run an event belongs to; `handle` skips an event without one. -/
def ReplayRecorder.runOf (r : ReplayRecorder) (event : Event) : Option PyStr :=
  if event.type = py "agent.reasoning_trace" && !r.captureReasoning then none
  else
    match Dict.get? event.payload (py "run_id") with
    | some (.str runId) => if runId = [] then none else some runId
    | _ => none

/-- The payload of a snapshot. -/
def ReplayRecorder.capture (r : ReplayRecorder) (heap : Heap) (conv : Nat) : Payload :=
  if r.captureRawSnapshots then .live conv (heap conv).systemPrompt (heap conv).maxMessages
  else .own [(py "state", .obj (redactState (heap conv)))]

/-- The type of a snapshot step. -/
def snapshotType : PyStr := py "replay.snapshot"

/-- `_new_run`. -/
def ReplayRecorder.newRun (r : ReplayRecorder) (path : PyStr) (file : ReplayFile) (runId : PyStr) :
    Except PyExc (Timeline Payload) :=
  match load path file with
  | .error e => .error e
  | .ok (some t) =>
      if t.runId = runId then .ok (t.map .own)
      else .ok ⟨runId, [], r.parentRunId, r.forkSequence⟩
  | .ok none => .ok ⟨runId, [], r.parentRunId, r.forkSequence⟩

/-- `self._run`, switched to the run if it is another or none. -/
def ReplayRecorder.switchTo (r : ReplayRecorder) (path : PyStr) (file : ReplayFile)
    (current : Option (Timeline Payload)) (runId : PyStr) : Except PyExc (Timeline Payload) :=
  match current with
  | some t => if t.runId = runId then .ok t else r.newRun path file runId
  | none => r.newRun path file runId

-- ============================================================================
-- Recorders over one file
-- ============================================================================

section System

variable {ι : Type} [DecidableEq ι]

/-- The recorders that exist and the file they write. -/
structure Setup (ι : Type) where
  path : PyStr
  recorder : ι → ReplayRecorder

/-- What the calls change: the file, and the run each recorder has in memory. -/
structure Recording (ι : Type) where
  file : ReplayFile
  current : ι → Option (Timeline Payload)

/-- The two calls of a recorder. -/
inductive Request where
  | handle (event : Event)
  | snapshot (conv : Nat) (runId : Option PyStr)

/-- A call of a recorder, with the conversations and the time at that moment. -/
structure Call (ι : Type) where
  recorder : ι
  request : Request
  heap : Heap
  now : PyStr

/-- What is recorded about a step besides its number. -/
structure Entry where
  timestamp : PyStr
  eventType : PyStr
  payload : Payload

/-- The run and the entry a call records; a call that is skipped has none. -/
def Call.records (setup : Setup ι) (c : Call ι) : Option (PyStr × Entry) :=
  let r := setup.recorder c.recorder
  match c.request with
  | .handle event =>
      (r.runOf event).map fun runId =>
        (runId, ⟨c.now, event.type, .own (redactFields event.payload)⟩)
  | .snapshot conv runId =>
      runId.map fun runId => (runId, ⟨c.now, snapshotType, r.capture c.heap conv⟩)

/-- Append an entry to the recorder's run and write the file.  When the text
    cannot be encoded the file stays as it was, the run in memory does not. -/
def Recording.record (setup : Setup ι) (w : Recording ι) (i : ι) (heap : Heap) (runId : PyStr)
    (e : Entry) : Except PyExc Unit × Recording ι :=
  match (setup.recorder i).switchTo setup.path w.file (w.current i) runId with
  | .error err => (.error err, w)
  | .ok run =>
      let run := run.append e.timestamp e.eventType e.payload
      let written := run.map (Payload.render heap)
      let current := Function.update w.current i (some run)
      if written.toJson.encodable then (.ok (), ⟨some written, current⟩)
      else (.error unicodeEncodeError, ⟨w.file, current⟩)

/-- `handle` and `snapshot`: whether the call raised, and what it leaves. -/
def Recording.call (setup : Setup ι) (w : Recording ι) (c : Call ι) :
    Except PyExc Unit × Recording ι :=
  match c.records setup with
  | none => (.ok (), w)
  | some (runId, e) => w.record setup c.recorder c.heap runId e

/-- The calls one after the other, whatever they raise. -/
def Recording.run (setup : Setup ι) (w : Recording ι) (cs : List (Call ι)) : Recording ι :=
  cs.foldl (fun w c => (w.call setup c).2) w

/-- Recorders that have recorded nothing yet. -/
def Recording.start (file : ReplayFile) : Recording ι := ⟨file, fun _ => none⟩

end System

end Replay
end KineticSdk
