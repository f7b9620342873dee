/-
  KineticSdk.Observability.Tracer

  `Tracer` (`observability/tracer.py`): nested run, turn, tool, retry and
  compaction spans built from lifecycle events.

  The seven dictionaries of the source are all keyed by the run id.  Here they
  are one map from run ids to the entries a run has in each of them, `none`
  where the dictionary has no such key.  A span is one object shared by `_spans`
  and `_by_id`; the object is kept in `spans`, and `byId` holds the keys.
-/

import KineticSdk.Py.Dict
import KineticSdk.Security.Redact

namespace KineticSdk
namespace Observability

open Py

-- ============================================================================
-- Spans
-- ============================================================================

/-- The kinds of spans. -/
inductive Kind where
  | run
  | turn
  | toolCall
  | retry
  | compaction
deriving DecidableEq

/-- `TraceSpan`, with times in nanoseconds.  Ids stand for the fresh ones that
    `uuid.uuid4` gives, numbered in the order in which it gives them. -/
structure TraceSpan where
  spanId : Nat
  parentSpanId : Option Nat
  kind : Kind
  name : PyStr
  startTime : Nat
  endTime : Option Nat := none
  attributes : Dict

/-- The span has no end time. -/
def TraceSpan.isOpen (span : TraceSpan) : Bool := span.endTime.isNone

/-- What the tracer keeps for one run, with the number of ids given out and of
    clock readings so far. -/
structure RunState where
  spans : Option (List TraceSpan) := none
  byId : Option (List Nat) := none
  openStack : Option (List Nat) := none
  runSpan : Option Nat := none
  turnSpan : Option Nat := none
  toolSpans : Option (List (PyStr × Nat)) := none
  retrySpans : Option (List (PyStr × Nat)) := none
  issued : Nat
  reads : Nat

/-- The methods of the tracer for one run: a `KeyError` names the missing key and
    leaves what was changed before. -/
abbrev TracerM := EStateM PyStr RunState

-- ============================================================================
-- Opening and closing spans
-- ============================================================================

section Methods

variable (clock : Nat → Nat)

/-- `uuid.uuid4()`. -/
def uuid4 : TracerM Nat := modifyGet fun s => (s.issued, { s with issued := s.issued + 1 })

/-- `time.monotonic()`: the next reading of the clock. -/
def monotonic : TracerM Nat := modifyGet fun s => (clock s.reads, { s with reads := s.reads + 1 })

/-- `self._map[run_id]`. -/
def entry {α : Type} (runId : PyStr) (entries : RunState → Option α) : TracerM α := do
  match entries (← get) with
  | some a => pure a
  | none => throw runId

/-- `_new_span`. -/
def newSpan (parentSpanId : Option Nat) (kind : Kind) (name : PyStr) (payload : Dict) :
    TracerM TraceSpan := do
  let spanId ← uuid4
  let startTime ← monotonic clock
  return ⟨spanId, parentSpanId, kind, name, startTime, none, Security.redactFields payload⟩

/-- `_append`. -/
def append (runId : PyStr) (parentSpanId : Nat) (kind : Kind) (name : PyStr) (payload : Dict) :
    TracerM TraceSpan := do
  let span ← newSpan clock (some parentSpanId) kind name payload
  let spans ← entry runId RunState.spans
  modify fun s => { s with spans := some (spans ++ [span]) }
  let byId ← entry runId RunState.byId
  modify fun s => { s with byId := some (byId ++ [span.spanId]) }
  let openStack ← entry runId RunState.openStack
  modify fun s => { s with openStack := some (openStack ++ [span.spanId]) }
  return span

/-- `self._by_id.get(run_id, {}).get(span_id)`. -/
def RunState.record (s : RunState) (spanId : Nat) : Option TraceSpan :=
  if spanId ∈ s.byId.getD [] then (s.spans.getD []).find? fun span => span.spanId = spanId else none

/-- Assigning to the `end_time` of the span with an id. -/
def endSpan (spanId time : Nat) (spans : List TraceSpan) : List TraceSpan :=
  spans.map fun span => if span.spanId = spanId then { span with endTime := some time } else span

/-- `_close`. -/
def close (s : RunState) (spanId : Nat) : RunState :=
  match s.record spanId with
  | none => s
  | some span =>
      if span.isOpen then
        { s with
          reads := s.reads + 1
          spans := s.spans.map (endSpan spanId (max (clock s.reads) (span.startTime + 1)))
          openStack := s.openStack.map fun stack => stack.erase spanId }
      else s

/-- `_close` where the id is there. -/
def closeSome (s : RunState) : Option Nat → RunState
  | none => s
  | some spanId => close clock s spanId

/-- `_finish_all`.  The loop goes through the stack backwards by position while
    `_close` takes the span just visited out, so it visits each once. -/
def finishAll (s : RunState) : RunState :=
  let s := (s.openStack.getD []).reverse.foldl (close clock) s
  { s with turnSpan := none, toolSpans := none, retrySpans := none }

-- ============================================================================
-- Lifecycle events
-- ============================================================================

/-- `_start_run`. -/
def startRun (payload : Dict) : TracerM Unit := do
  if (← get).runSpan.isSome then modify (finishAll clock)
  let span ← newSpan clock none .run (py "kinetic.run") payload
  modify fun s =>
    { s with
      spans := some [span]
      byId := some [span.spanId]
      openStack := some [span.spanId]
      runSpan := some span.spanId
      toolSpans := some []
      retrySpans := some [] }

/-- `_start_turn`. -/
def startTurn (runId : PyStr) (payload : Dict) : TracerM Unit := do
  match (← get).runSpan with
  | none => pure ()
  | some root =>
      let current := (← get).turnSpan
      modify fun s => closeSome clock { s with turnSpan := none } current
      let span ← append clock runId root .turn (py "kinetic.turn") payload
      modify fun s => { s with turnSpan := some span.spanId }

/-- The `id` of a payload, if it is a string. -/
def callId (payload : Dict) : Option PyStr :=
  match field payload "id" with
  | .str callId => some callId
  | _ => none

/-- `_start_tool`. -/
def startTool (runId : PyStr) (payload : Dict) : TracerM Unit := do
  match (← get).runSpan, callId payload with
  | some root, some callId =>
      if callId = [] then pure ()
      else
        let parent := (← get).turnSpan.getD root
        let span ← append clock runId parent .toolCall (py "kinetic.tool_call") payload
        let tools ← entry runId RunState.toolSpans
        modify fun s => { s with toolSpans := some (Dict.set tools callId span.spanId) }
  | _, _ => pure ()

/-- `_start_retry`. -/
def startRetry (runId : PyStr) (payload : Dict) : TracerM Unit := do
  match callId payload with
  | none => pure ()
  | some callId =>
      match Dict.get? ((← get).toolSpans.getD []) callId with
      | none => pure ()
      | some tool =>
          let retries ← entry runId RunState.retrySpans
          modify fun s => closeSome clock s (Dict.get? retries callId)
          let span ← append clock runId tool .retry (py "kinetic.tool_retry") payload
          modify fun s => { s with retrySpans := some (Dict.set retries callId span.spanId) }

/-- `_finish_tool`. -/
def finishTool (payload : Dict) : TracerM Unit := do
  match callId payload with
  | none => pure ()
  | some callId =>
      modify fun s =>
        closeSome clock { s with retrySpans := s.retrySpans.map fun retries => Dict.pop retries callId }
          (Dict.get? (s.retrySpans.getD []) callId)
      modify fun s =>
        closeSome clock { s with toolSpans := s.toolSpans.map fun tools => Dict.pop tools callId }
          (Dict.get? (s.toolSpans.getD []) callId)

/-- `_record_compaction`. -/
def recordCompaction (runId : PyStr) (payload : Dict) : TracerM Unit := do
  match (← get).runSpan with
  | none => pure ()
  | some root =>
      let parent := (← get).turnSpan.getD root
      let span ← append clock runId parent .compaction (py "kinetic.compaction") payload
      modify fun s => close clock s span.spanId

-- ============================================================================
-- The event handler
-- ============================================================================

/-- `Event`, with a payload that is `None` read as an empty one. -/
structure Event where
  type : PyStr
  payload : Dict

/-- `_TERMINAL_EVENTS`. -/
def terminalEvents : List PyStr := [py "agent.run_finished", py "agent.error", py "agent.cancelled"]

/-- The dispatch of `handle` on the event's type. -/
def dispatch (runId : PyStr) (e : Event) : TracerM Unit :=
  if e.type = py "agent.run_started" then startRun clock e.payload
  else if e.type = py "agent.turn_started" then startTurn clock runId e.payload
  else if e.type = py "agent.tool_call_started" then startTool clock runId e.payload
  else if e.type = py "agent.tool_retry" then startRetry clock runId e.payload
  else if e.type = py "agent.tool_call_finished" then finishTool clock e.payload
  else if e.type = py "context.compacted" then recordCompaction clock runId e.payload
  else if e.type ∈ terminalEvents then modify (finishAll clock)
  else pure ()

/-- The run id of an event, if it is a string that is not empty. -/
def Event.runId (e : Event) : Option PyStr :=
  match field e.payload "run_id" with
  | .str runId => if runId = [] then none else some runId
  | _ => none

/-- `Tracer`.  The counters of a run's entry are those of the tracer. -/
structure Tracer where
  runs : PyStr → RunState := fun _ => { issued := 0, reads := 0 }
  issued : Nat := 0
  reads : Nat := 0

/-- The entries of a run. -/
def Tracer.state (t : Tracer) (runId : PyStr) : RunState :=
  { t.runs runId with issued := t.issued, reads := t.reads }

/-- The tracer with other entries for a run. -/
def Tracer.put (t : Tracer) (runId : PyStr) (s : RunState) : Tracer :=
  { runs := Function.update t.runs runId s, issued := s.issued, reads := s.reads }

/-- `handle`: the tracer it leaves, and the `KeyError` if one is raised. -/
def handle (t : Tracer) (e : Event) : Tracer × Option PyStr :=
  match e.runId with
  | none => (t, none)
  | some runId =>
      match dispatch clock runId e (t.state runId) with
      | .ok _ s => (t.put runId s, none)
      | .error key s => (t.put runId s, some key)

end Methods

end Observability
end KineticSdk
