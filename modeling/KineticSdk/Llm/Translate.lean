/-
  KineticSdk.Llm.Translate

  The history as the provider gets it (`_translate_messages`): tool calls move
  from content blocks to `tool_calls`, tool results from user turns to messages
  of their own, images to data URLs.

  A message is the dictionary the history holds.  Content the agent never
  writes can make the translation raise; the errors are Python's.
-/

import KineticSdk.Conversation.State
import KineticSdk.Llm.Response
import KineticSdk.Py.Repr

namespace KineticSdk
namespace Llm

open Py Conversation

-- ============================================================================
-- Reading blocks
-- ============================================================================

/-- `d.get(key, default)`. -/
def getOr (d : Dict) (key : PyStr) (default : Json) : Json := (Dict.get? d key).getD default

/-- `block.get("type") == type`, of a block that is a dict. -/
def hasType (block : Dict) (type : PyStr) : Bool := Dict.get? block (py "type") = some (.str type)

/-- The first item of a list that is no text, with its position. -/
def firstNonText : Nat → List Json → Option (Nat × Json)
  | _, [] => none
  | i, .str _ :: xs => firstNonText (i + 1) xs
  | i, x :: _ => some (i, x)

/-- The text of a value that is one. -/
def textOf : Json → PyStr
  | .str s => s
  | _ => []

/-- `"".join(parts)`. -/
def joinTexts (parts : List Json) : Except PyExc PyStr :=
  match firstNonText 0 parts with
  | some (i, x) => .error ⟨py "TypeError",
      py "sequence item " ++ natText i ++ py ": expected str instance, " ++ typeName x ++ py " found"⟩
  | none => .ok (parts.flatMap textOf)

/-- What `_flatten_text` takes of a block. -/
def flatPart : Json → Option Json
  | .obj block => if hasType block (py "text") then some (getOr block (py "text") (.str [])) else none
  | .str s => some (.str s)
  | _ => none

/-- `_flatten_text`. -/
def flattenText (blocks : List Json) : Except PyExc PyStr := joinTexts (blocks.filterMap flatPart)

-- ============================================================================
-- Assistant turns
-- ============================================================================

/-- The text part of a block of an assistant turn. -/
def textPart : Json → Option Json
  | .obj block => if hasType block (py "text") then some (getOr block (py "text") (.str [])) else none
  | _ => none

/-- The tool call of a block of an assistant turn. -/
def callPart : Json → Option Json
  | .obj block =>
      if hasType block (py "tool_use") then
        some (.obj
          [(py "id", getOr block (py "id") (.str [])), (py "type", .str (py "function")),
            (py "function", .obj
              [(py "name", getOr block (py "name") (.str [])),
                (py "arguments", .str (dumps true (getOr block (py "input") (.obj []))))])])
      else none
  | _ => none

/-- The message of an assistant turn with these blocks. -/
def assistantWire (blocks : List Json) : Except PyExc Dict := do
  let text ← joinTexts (blocks.filterMap textPart)
  let msg : Dict := [(py "role", .str (py "assistant")),
    (py "content", if text = [] then .null else .str text)]
  let toolCalls := blocks.filterMap callPart
  pure (if toolCalls = [] then msg else msg ++ [(py "tool_calls", .arr toolCalls)])

/-- `_translate_assistant`.  Iterating a dict gives its keys, which are no
    blocks. -/
def translateAssistant (content : Json) : Except PyExc Dict :=
  match content with
  | .str s => .ok [(py "role", .str (py "assistant")), (py "content", .str s)]
  | .arr blocks => assistantWire blocks
  | .obj _ => assistantWire []
  | v =>
      if v.truthy then
        .error ⟨py "TypeError", py "'" ++ typeName v ++ py "' object is not iterable"⟩
      else assistantWire []

-- ============================================================================
-- User turns
-- ============================================================================

/-- A block of `_translate_content_blocks`. -/
def translateContentBlock : Json → Except PyExc Json
  | .obj block =>
      if hasType block (py "image") then
        let source : Dict := match getOr block (py "source") (.obj []) with
          | .obj source => source
          | _ => []
        let mediaType := getOr source (py "media_type") (.str (py "image/png"))
        let data := getOr source (py "data") (.str [])
        .ok (.obj [(py "type", .str (py "image_url")),
          (py "image_url", .obj [(py "url",
            .str (py "data:" ++ strOf mediaType ++ py ";base64," ++ strOf data))])])
      else .ok (.obj block)
  | v => .error ⟨py "AttributeError", py "'" ++ typeName v ++ py "' object has no attribute 'get'"⟩

/-- `_translate_content_blocks`. -/
def translateContentBlocks (content : List Json) : Except PyExc (List Json) :=
  content.mapM translateContentBlock

/-- A block that is a tool result. -/
def isToolResult : Json → Bool
  | .obj block => hasType block (py "tool_result")
  | _ => false

/-- The message of a tool result. -/
def toolWire : Json → Option Dict
  | .obj block =>
      if hasType block (py "tool_result") then
        some [(py "role", .str (py "tool")),
          (py "tool_call_id", getOr block (py "tool_use_id") (.str [])),
          (py "content", getOr block (py "content") (.str []))]
      else none
  | _ => none

/-- A user turn whose content is a list: its tool results first, as messages of
    their own. -/
def translateUserBlocks (content : List Json) : Except PyExc (List Dict) := do
  let toolResults := content.filterMap toolWire
  if toolResults = [] then
    let blocks ← translateContentBlocks content
    pure [[(py "role", .str (py "user")), (py "content", .arr blocks)]]
  else
    let extras := content.filter fun b => !isToolResult b
    if extras = [] then pure toolResults
    else
      let text ← flattenText extras
      pure (toolResults ++ [[(py "role", .str (py "user")), (py "content", .str text)]])

-- ============================================================================
-- The history
-- ============================================================================

/-- A message that is neither an assistant turn nor a user turn with blocks. -/
def translateOther (role content : Json) : Except PyExc (List Dict) :=
  match content with
  | .arr blocks => do
      let text ← flattenText blocks
      pure [[(py "role", role), (py "content", .str text)]]
  | v => .ok [[(py "role", role), (py "content", v)]]

/-- One message of `_translate_messages`. -/
def translateMessage (msg : Message) : Except PyExc (List Dict) :=
  let role := getOr msg (py "role") .null
  let content := getOr msg (py "content") .null
  if role = .str (py "assistant") then (translateAssistant content).map fun m => [m]
  else
    match content with
    | .arr blocks =>
        if role = .str (py "user") then translateUserBlocks blocks else translateOther role content
    | _ => translateOther role content

/-- The system prompt's message. -/
def systemWire (system : Option PyStr) : List Dict :=
  if system.getD [] = [] then []
  else [[(py "role", .str (py "system")), (py "content", .str (system.getD []))]]

/-- `_translate_messages`. -/
def translateMessages (messages : List Message) (system : Option PyStr) : Except PyExc (List Dict) := do
  let out ← messages.mapM translateMessage
  pure (systemWire system ++ out.flatten)

-- a result and a text in one turn
example : translateMessages
    [[(py "role", .str (py "user")), (py "content", .arr [.str (py "and"), .obj
      [(py "type", .str (py "tool_result")), (py "tool_use_id", .str (py "1"))]])]] (some (py "be brief")) =
    .ok [[(py "role", .str (py "system")), (py "content", .str (py "be brief"))],
      [(py "role", .str (py "tool")), (py "tool_call_id", .str (py "1")), (py "content", .str [])],
      [(py "role", .str (py "user")), (py "content", .str (py "and"))]] := by
  decide +kernel

end Llm
end KineticSdk
