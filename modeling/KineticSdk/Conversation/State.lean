/-
  KineticSdk.Conversation.State

  The conversation history (`conversation/state.py`) and what the rest of the
  library reads off a message (`_message_tool_use_ids` and
  `_message_tool_result_ids` of `context/manager.py`).

  A message is the dictionary the source keeps: `role`, `content` (a string or
  a list of typed blocks) and whatever else a producer put there.  Ids are
  JSON values, since the readers take any truthy `id`.
-/

import KineticSdk.Py.Json
import KineticSdk.Lib.Turns

namespace KineticSdk
namespace Conversation

open Py
open Lib (TurnView)

/-- A message of the history. -/
abbrev Message := Dict

-- ============================================================================
-- Reading a message
-- ============================================================================

/-- The id under `key` of a block of the given type, when it is truthy. -/
def blockId (type key : PyStr) : Json → Option Json
  | .obj block =>
      if Dict.get? block (py "type") = some (.str type) then
        (Dict.get? block key).filter Json.truthy
      else none
  | _ => none

/-- The blocks of a message whose content is a list. -/
def contentBlocks (msg : Message) : List Json :=
  match Dict.get? msg (py "content") with
  | some (.arr blocks) => blocks
  | _ => []

/-- `_message_tool_use_ids`. -/
def messageToolUseIds (msg : Message) : List Json :=
  (contentBlocks msg).filterMap (blockId (py "tool_use") (py "id"))

/-- `_message_tool_result_ids`. -/
def messageToolResultIds (msg : Message) : List Json :=
  (contentBlocks msg).filterMap (blockId (py "tool_result") (py "tool_use_id"))

/-- `msg.get("role") == "assistant"`. -/
def isAssistant (msg : Message) : Bool :=
  Dict.get? msg (py "role") = some (.str (py "assistant"))

/-- A history as a log of tool requests and tool results: assistant messages
    open the turns. -/
def toolView : TurnView Message Json where
  opens := isAssistant
  requests := messageToolUseIds
  answers := messageToolResultIds

-- ============================================================================
-- Building messages
-- ============================================================================

/-- The message a user turn appends. -/
def userMessage (content : PyStr) : Message :=
  [(py "role", .str (py "user")), (py "content", .str content)]

/-- The message of a multimodal user turn. -/
def imageMessage (text imageBase64 mediaType : PyStr) : Message :=
  [(py "role", .str (py "user")),
   (py "content", .arr
     [.obj [(py "type", .str (py "text")), (py "text", .str text)],
      .obj [(py "type", .str (py "image")),
            (py "source", .obj [(py "type", .str (py "base64")),
              (py "media_type", .str mediaType), (py "data", .str imageBase64)])]])]

/-- The message an assistant turn appends. -/
def assistantMessage (content : Json) : Message :=
  [(py "role", .str (py "assistant")), (py "content", content)]

/-- The `tool_result` block; `is_error` is only present when set. -/
def toolResultBlock (toolCallId output : PyStr) (isError : Bool) : Dict :=
  [(py "type", .str (py "tool_result")), (py "tool_use_id", .str toolCallId),
   (py "content", .str output)] ++ if isError then [(py "is_error", .bool true)] else []

/-- The message answering one tool call. -/
def toolResultMessage (toolCallId output : PyStr) (isError : Bool) : Message :=
  [(py "role", .str (py "user")),
   (py "content", .arr [.obj (toolResultBlock toolCallId output isError)])]

@[simp] theorem isAssistant_userMessage (c : PyStr) : isAssistant (userMessage c) = false := rfl

@[simp] theorem toolUseIds_userMessage (c : PyStr) : messageToolUseIds (userMessage c) = [] := rfl

@[simp] theorem toolResultIds_userMessage (c : PyStr) :
    messageToolResultIds (userMessage c) = [] := rfl

@[simp] theorem isAssistant_assistantMessage (c : Json) :
    isAssistant (assistantMessage c) = true := rfl

@[simp] theorem isAssistant_toolResultMessage (i o : PyStr) (e : Bool) :
    isAssistant (toolResultMessage i o e) = false := rfl

@[simp] theorem toolUseIds_toolResultMessage (i o : PyStr) (e : Bool) :
    messageToolUseIds (toolResultMessage i o e) = [] := rfl

/-- The ids a block carries: an empty id counts as none. -/
def carriedIds (i : PyStr) : List Json := if i = [] then [] else [.str i]

theorem carriedIds_of_ne {i : PyStr} (hi : i ≠ []) : carriedIds i = [.str i] := if_neg hi

theorem toList_filter_truthy (i : PyStr) :
    ((some (Json.str i)).filter Json.truthy).toList = carriedIds i := by
  cases i <;> rfl

/-- A tool result answers the id it was made for. -/
theorem toolResultIds_toolResultMessage (i o : PyStr) (e : Bool) :
    messageToolResultIds (toolResultMessage i o e) = carriedIds i := by
  have hid : blockId (py "tool_result") (py "tool_use_id")
      (.obj (toolResultBlock i o e)) = (some (.str i)).filter Json.truthy := rfl
  show List.filterMap _ [_] = _
  rw [← toList_filter_truthy, List.filterMap_cons, hid]
  cases (some (Json.str i)).filter Json.truthy <;> rfl

-- ============================================================================
-- The conversation state
-- ============================================================================

/-- `StructuredSummary`: the findings kept across compaction rounds. -/
structure StructuredSummary where
  goal : List PyStr := []
  decisions : List PyStr := []
  filesTouched : List PyStr := []
  errorsEncountered : List PyStr := []
  openQuestions : List PyStr := []
deriving DecidableEq

/-- A metadata value: JSON, or the summary object compaction stores as it is. -/
inductive MetaValue where
  | json (v : Json)
  | summary (s : StructuredSummary)
deriving DecidableEq

/-- `ConversationState`. -/
structure ConversationState where
  systemPrompt : Option PyStr := none
  messages : List Message := []
  maxMessages : Option Int := none
  metadata : List (PyStr × MetaValue) := []
deriving DecidableEq

namespace ConversationState

/-- The loop of `_enforce_cap`: drop the oldest message while the history is
    longer than the cap and than one message. -/
def dropOldest (cap : Int) : List Message → List Message
  | m :: m' :: ms =>
      if cap < ((m :: m' :: ms).length : Int) then dropOldest cap (m' :: ms) else m :: m' :: ms
  | ms => ms

/-- `_enforce_cap`. -/
def enforceCap (s : ConversationState) : ConversationState :=
  match s.maxMessages with
  | none => s
  | some cap => { s with messages := dropOldest cap s.messages }

/-- Append one message, then enforce the cap. -/
def append (s : ConversationState) (msg : Message) : ConversationState :=
  enforceCap { s with messages := s.messages ++ [msg] }

/-- `add_user_message`. -/
def addUserMessage (s : ConversationState) (content : PyStr) : ConversationState :=
  s.append (userMessage content)

/-- `add_user_message_with_image`. -/
def addUserMessageWithImage (s : ConversationState) (text imageBase64 mediaType : PyStr) :
    ConversationState :=
  s.append (imageMessage text imageBase64 mediaType)

/-- `add_assistant`. -/
def addAssistant (s : ConversationState) (content : Json) : ConversationState :=
  s.append (assistantMessage content)

/-- `add_tool_result`, for the string outputs the agent passes. -/
def addToolResult (s : ConversationState) (toolCallId output : PyStr) (isError : Bool) :
    ConversationState :=
  s.append (toolResultMessage toolCallId output isError)

/-- `for_llm`. -/
def forLlm (s : ConversationState) : Option PyStr × List Message :=
  (s.systemPrompt, s.messages)

/-- Without a cap an append is just that. -/
theorem append_uncapped {s : ConversationState} (h : s.maxMessages = none) (msg : Message) :
    s.append msg = { s with messages := s.messages ++ [msg] } := by
  simp [append, enforceCap, h]

/-- `_enforce_cap` keeps the newest `max(cap, 1)` messages. -/
theorem dropOldest_eq_drop (cap : Int) (ms : List Message) :
    dropOldest cap ms = ms.drop (ms.length - max cap.toNat 1) := by
  induction ms with
  | nil => simp [dropOldest]
  | cons m ms ih =>
      cases ms with
      | nil =>
          have hz : [m].length - max cap.toNat 1 = 0 := by
            simp only [List.length_singleton]
            omega
          rw [hz]
          rfl
      | cons m' ms =>
          rw [dropOldest]
          by_cases h : cap < ((m :: m' :: ms).length : Int)
          · rw [if_pos h, ih]
            have hlen : (m :: m' :: ms).length - max cap.toNat 1
                = ((m' :: ms).length - max cap.toNat 1) + 1 := by
              simp only [List.length_cons] at h ⊢
              omega
            rw [hlen, List.drop_succ_cons]
          · rw [if_neg h]
            have hz : (m :: m' :: ms).length - max cap.toNat 1 = 0 := by
              simp only [List.length_cons] at h ⊢
              omega
            rw [hz, List.drop_zero]

/-- An append leaves the end of the longer history. -/
theorem append_suffix (s : ConversationState) (msg : Message) :
    (s.append msg).messages <:+ s.messages ++ [msg] := by
  unfold append enforceCap
  cases s.maxMessages with
  | none => exact List.suffix_refl _
  | some cap =>
      dsimp only
      rw [dropOldest_eq_drop]
      exact List.drop_suffix ..

/-- What an append leaves was there before, or is the new message. -/
theorem mem_append_messages {s : ConversationState} {msg msg' : Message}
    (h : msg' ∈ (s.append msg).messages) : msg' ∈ s.messages ∨ msg' = msg := by
  have hmem : msg' ∈ s.messages ++ [msg] := (append_suffix s msg).subset h
  simpa using hmem

/-- An append changes nothing but the messages. -/
theorem append_eq (s : ConversationState) (msg : Message) :
    s.append msg = { s with messages := (s.append msg).messages } := by
  unfold append enforceCap
  cases s.maxMessages <;> rfl

end ConversationState
end Conversation
end KineticSdk
