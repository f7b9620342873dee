/-
  KineticSdk.Llm.Response

  Reading the turn of a model, from one message (`_parse_response`) and from a
  stream of chunks (`chat_stream`).

  A message is given by the parts that are read: its text, its tool calls with
  their argument strings and its finish reason.  Usage and the raw response are
  left out.  A string of arguments that is no JSON is kept as it is; the other
  errors of `json.loads` are raised.
-/

import Mathlib.Data.List.Sort
import KineticSdk.Py.JsonParse
import KineticSdk.Tool.Base

namespace KineticSdk
namespace Llm

open Py Tool

-- ============================================================================
-- Responses
-- ============================================================================

/-- `LLMResponse`. -/
structure LLMResponse where
  content : PyStr := []
  toolCalls : List ToolCall := []
  stopReason : Option PyStr := none
deriving DecidableEq

/-- A tool call as the provider sends it. -/
structure ProviderCall where
  id : PyStr
  name : PyStr
  arguments : PyStr
deriving DecidableEq

/-- `choices[0]` of a provider's response. -/
structure ProviderMessage where
  content : Option PyStr := none
  toolCalls : List ProviderCall := []
  finishReason : Option PyStr := none
deriving DecidableEq

/-- The stop reasons that are renamed. -/
def stopReasons : List (PyStr × PyStr) :=
  [(py "stop", py "end_turn"), (py "length", py "max_tokens"), (py "tool_calls", py "tool_use"),
    (py "function_call", py "tool_use"), (py "content_filter", py "end_turn")]

/-- `_map_stop_reason`, of a reason that is there. -/
def mapStopReason (finish : PyStr) : PyStr := (Dict.get? stopReasons finish).getD finish

/-- `json.loads(raw_args)`, with a text that is no JSON kept under `_raw`. -/
def loadArguments (lim : Limits) (fl : FloatRepr) (raw : PyStr) : Except LoadsError Json :=
  match loads lim fl raw with
  | .error .decode => .ok (.obj [(py "_raw", .str raw)])
  | x => x

/-- A tool call of a whole message. -/
def parseCall (lim : Limits) (fl : FloatRepr) (c : ProviderCall) : Except LoadsError ToolCall := do
  let arguments ← loadArguments lim fl c.arguments
  pure { id := c.id, name := c.name, arguments := arguments }

/-- `_parse_response`. -/
def parseResponse (lim : Limits) (fl : FloatRepr) (m : ProviderMessage) :
    Except LoadsError LLMResponse := do
  let toolCalls ← m.toolCalls.mapM (parseCall lim fl)
  pure {
    content := m.content.getD []
    toolCalls := toolCalls
    stopReason := m.finishReason.map mapStopReason }

-- ============================================================================
-- Streams
-- ============================================================================

/-- The `function` of a fragment. -/
structure FunctionDelta where
  name : Option PyStr := none
  arguments : Option PyStr := none
deriving DecidableEq

/-- A fragment of a tool call. -/
structure CallDelta where
  index : Option Int := none
  id : Option PyStr := none
  function : Option FunctionDelta := none
deriving DecidableEq

/-- `choices[0]` of a chunk. -/
structure Choice where
  content : Option PyStr := none
  toolCalls : List CallDelta := []
  finishReason : Option PyStr := none
deriving DecidableEq

/-- What has been gathered of one tool call. -/
structure Slot where
  id : PyStr := []
  name : PyStr := []
  args : List PyStr := []
deriving DecidableEq

/-- What the loop of `chat_stream` has gathered. -/
structure Gathered where
  textBuf : List PyStr := []
  toolFragments : List (Int × Slot) := []
  stopReason : Option PyStr := none

/-- `tool_fragments.setdefault(index, {…})`, and what is done to the slot. -/
def updateSlot (i : Int) (f : Slot → Slot) : List (Int × Slot) → List (Int × Slot)
  | [] => [(i, f {})]
  | (j, s) :: slots => if j = i then (j, f s) :: slots else (j, s) :: updateSlot i f slots

/-- A fragment added to its slot; only what is not empty is taken. -/
def Slot.add (s : Slot) (id : Option PyStr) (fn : FunctionDelta) : Slot where
  id := if id.getD [] = [] then s.id else id.getD []
  name := if fn.name.getD [] = [] then s.name else fn.name.getD []
  args := if fn.arguments.getD [] = [] then s.args else s.args ++ [fn.arguments.getD []]

/-- One fragment of the loop. -/
def addDelta (slots : List (Int × Slot)) (d : CallDelta) : List (Int × Slot) :=
  match d.function with
  | none => slots
  | some fn => updateSlot (d.index.getD 0) (fun s => s.add d.id fn) slots

/-- One chunk of the loop; a chunk without choices is skipped. -/
def gatherChunk (g : Gathered) : Option Choice → Gathered
  | none => g
  | some c =>
      { textBuf := if c.content.getD [] = [] then g.textBuf else g.textBuf ++ [c.content.getD []]
        toolFragments := c.toolCalls.foldl addDelta g.toolFragments
        stopReason := if c.finishReason.getD [] = [] then g.stopReason
          else some (mapStopReason (c.finishReason.getD [])) }

/-- `_tool_call_from_fragments`: no text at all is no arguments. -/
def toolCallFromFragments (lim : Limits) (fl : FloatRepr) (s : Slot) :
    Except LoadsError ToolCall := do
  let arguments ← if s.args.flatten = [] then pure (.obj []) else loadArguments lim fl s.args.flatten
  pure { id := s.id, name := s.name, arguments := arguments }

/-- `sorted(tool_fragments.items())`. -/
def sortSlots (slots : List (Int × Slot)) : List (Int × Slot) :=
  slots.insertionSort fun a b => a.1 ≤ b.1

/-- The response in the `done` event of `chat_stream`. -/
def doneResponse (lim : Limits) (fl : FloatRepr) (stream : List (Option Choice)) :
    Except LoadsError LLMResponse := do
  let g := stream.foldl gatherChunk {}
  let toolCalls ← (sortSlots g.toolFragments).mapM fun p => toolCallFromFragments lim fl p.2
  pure { content := g.textBuf.flatten, toolCalls := toolCalls, stopReason := g.stopReason }

-- fragments of two calls, interleaved
example : doneResponse {} id
    [some ⟨some (py "a"), [⟨some 1, some (py "y"), some ⟨some (py "g"), some (py "[")⟩⟩], none⟩, none,
      some ⟨none, [⟨some 0, some (py "x"), some ⟨some (py "f"), some (py "\x7b\x7d")⟩⟩,
        ⟨some 1, none, some ⟨none, some (py "1]")⟩⟩], some (py "tool_calls")⟩] =
    .ok ⟨py "a", [⟨py "x", py "f", .obj []⟩, ⟨py "y", py "g", .arr [.int 1]⟩], some (py "tool_use")⟩ := by
  decide +kernel

end Llm
end KineticSdk
