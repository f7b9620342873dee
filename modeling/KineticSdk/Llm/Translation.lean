/-
  KineticSdk.Llm.Translation

  The translated history is the history.

  A history is what its turns wrote (`history`), and each turn is translated by
  itself (`translate_turn`).  So the three properties of the translation are
  facts of one turn that carry over to a list of them: tool messages follow the
  calls they answer (`Answered`), every text and image is there, and an
  assistant message reads back as the turn it was made from.  Only the last one
  can fail, since arguments are written with `json.dumps` and read again.
-/

import KineticSdk.Agent.Loop
import KineticSdk.Lib.Traverse
import KineticSdk.Llm.Translate
import KineticSdk.Py.JsonAscii

namespace KineticSdk
namespace Llm

open Py Conversation Tool

-- ============================================================================
-- Histories
-- ============================================================================

/-- What a tool call returned. -/
structure Answer where
  output : PyStr
  isError : Bool

/-- A turn of a well-paired history; every tool call has its answer. -/
inductive Turn where
  | user (text : PyStr)
  | image (text imageBase64 mediaType : PyStr)
  | model (content : PyStr) (calls : List (ToolCall × Answer))

/-- The messages a turn appends. -/
def Turn.messages : Turn → List Message
  | .user text => [userMessage text]
  | .image text imageBase64 mediaType => [imageMessage text imageBase64 mediaType]
  | .model content calls =>
      assistantMessage (Agent.assistantContent ⟨content, calls.map Prod.fst⟩) ::
        calls.map fun c => toolResultMessage c.1.id c.2.output c.2.isError

/-- The history the turns make. -/
def history (turns : List Turn) : List Message := turns.flatMap Turn.messages

/-- The response a turn stored. -/
def Turn.response : Turn → Option Agent.LLMResponse
  | .model content calls => some ⟨content, calls.map Prod.fst⟩
  | _ => none

/-- The arguments of the tool calls of a turn. -/
def Turn.arguments : Turn → List Json
  | .model _ calls => calls.map fun c => c.1.arguments
  | _ => []

/-- Arguments are JSON that `json.loads` can return, over Python's characters. -/
def Turn.WellFormed (fl : FloatRepr) (t : Turn) : Prop :=
  ∀ v ∈ t.arguments, Readable false fl v ∧ ∀ s ∈ v.texts, CodePoints s

/-- A text that is said, with the role that says it. -/
def line (role : String) (text : PyStr) : List (PyStr × PyStr) :=
  if text = [] then [] else [(py role, text)]

/-- The texts of a turn. -/
def Turn.lines : Turn → List (PyStr × PyStr)
  | .user text => line "user" text
  | .image text _ _ => line "user" text
  | .model content calls => line "assistant" content ++ calls.flatMap fun c => line "tool" c.2.output

/-- The images of a turn, as data URLs. -/
def Turn.images : Turn → List PyStr
  | .image _ imageBase64 mediaType => [py "data:" ++ mediaType ++ py ";base64," ++ imageBase64]
  | _ => []

-- ============================================================================
-- Reading a translated history
-- ============================================================================

/-- A message with the result of a tool call. -/
def isTool (m : Dict) : Bool := Dict.get? m (py "role") = some (.str (py "tool"))

/-- The id of a tool call of a message. -/
def callId : Json → Json
  | .obj call => getOr call (py "id") .null
  | _ => .null

/-- The ids of the tool calls of a message, in order. -/
def toolCallIds (m : Dict) : List Json :=
  match Dict.get? m (py "tool_calls") with
  | some (.arr calls) => calls.map callId
  | _ => []

/-- The call a tool message answers. -/
def answeredId (m : Dict) : Json := getOr m (py "tool_call_id") .null

/-- Directly after a message come the tool messages for its tool calls, one for
    each id in order, and no others. -/
def Answered : List Dict → Prop
  | [] => True
  | m :: ms =>
      (isTool m = false → (ms.takeWhile isTool).map answeredId = toolCallIds m) ∧ Answered ms

/-- The texts of a block of a message. -/
def blockTexts : Json → List PyStr
  | .obj block => if hasType block (py "text") then [textOf (getOr block (py "text") .null)] else []
  | _ => []

/-- The texts of a message with their role. -/
def messageLines (m : Dict) : List (PyStr × PyStr) :=
  let texts := match getOr m (py "content") .null with
    | .str s => [s]
    | .arr blocks => blocks.flatMap blockTexts
    | _ => []
  (texts.filter (· ≠ [])).map fun s => (textOf (getOr m (py "role") .null), s)

/-- The URL of a block that is an image. -/
def blockImages : Json → List PyStr
  | .obj block =>
      match Dict.get? block (py "image_url") with
      | some (.obj image) => [textOf (getOr image (py "url") .null)]
      | _ => []
  | _ => []

/-- The images of a message. -/
def messageImages (m : Dict) : List PyStr :=
  match getOr m (py "content") .null with
  | .arr blocks => blocks.flatMap blockImages
  | _ => []

/-- A tool call of a message, by the attributes `_parse_response` reads. -/
def providerCall : Json → Option ProviderCall
  | .obj call =>
      match Dict.get? call (py "function") with
      | some (.obj fn) =>
          some ⟨textOf (getOr call (py "id") .null), textOf (getOr fn (py "name") .null),
            textOf (getOr fn (py "arguments") .null)⟩
      | _ => none
  | _ => none

/-- A message as a provider would send it. -/
def asProvider (m : Dict) : ProviderMessage where
  content := match Dict.get? m (py "content") with
    | some (.str s) => some s
    | _ => none
  toolCalls := match Dict.get? m (py "tool_calls") with
    | some (.arr calls) => calls.filterMap providerCall
    | _ => []

/-- A message read with `_parse_response`. -/
def readBack (fl : FloatRepr) (m : Dict) : Except LoadsError Agent.LLMResponse :=
  (parseResponse {} fl (asProvider m)).map fun r => ⟨r.content, r.toolCalls⟩

/-- The messages say what the turns say. -/
structure Preserved (fl : FloatRepr) (system : Option PyStr) (turns : List Turn)
    (out : List Dict) : Prop where
  /-- No tool message comes first. -/
  start : out.takeWhile isTool = []
  answered : Answered out
  texts : out.flatMap messageLines = line "system" (system.getD []) ++ turns.flatMap Turn.lines
  images : out.flatMap messageImages = turns.flatMap Turn.images
  readBack : (out.filter isAssistant).map (readBack fl) = (turns.filterMap Turn.response).map .ok

-- ============================================================================
-- The translation of a turn
-- ============================================================================

/-- A tool call of a translated message. -/
def callWire (call : ToolCall) : Json :=
  .obj [(py "id", .str call.id), (py "type", .str (py "function")),
    (py "function", .obj [(py "name", .str call.name),
      (py "arguments", .str (dumps true call.arguments))])]

/-- The translated message of a model's turn: without content and calls the
    history keeps a string. -/
def modelWire (content : PyStr) (calls : List ToolCall) : Dict :=
  [(py "role", .str (py "assistant")),
    (py "content", if content = [] ∧ calls ≠ [] then .null else .str content)]
    ++ if calls = [] then [] else [(py "tool_calls", .arr (calls.map callWire))]

/-- The message of an answer. -/
def answerWire (c : ToolCall × Answer) : Dict :=
  [(py "role", .str (py "tool")), (py "tool_call_id", .str c.1.id), (py "content", .str c.2.output)]

/-- The translated messages of a turn. -/
def Turn.wire : Turn → List Dict
  | .user text => [userMessage text]
  | .image text imageBase64 mediaType =>
      [[(py "role", .str (py "user")), (py "content", .arr
        [.obj [(py "type", .str (py "text")), (py "text", .str text)],
          .obj [(py "type", .str (py "image_url")), (py "image_url", .obj [(py "url",
            .str (py "data:" ++ mediaType ++ py ";base64," ++ imageBase64))])]])]]
  | .model content calls => modelWire content (calls.map Prod.fst) :: calls.map answerWire

/-- The blocks of a model's turn. -/
def textBlocks (content : PyStr) : List Json :=
  if content = [] then [] else [.obj [(py "type", .str (py "text")), (py "text", .str content)]]

theorem assistantContent_eq (content : PyStr) (calls : List ToolCall) :
    Agent.assistantContent ⟨content, calls⟩ =
      if content = [] ∧ calls = [] then .str content
      else .arr (textBlocks content ++ calls.map Agent.toolUseBlock) := by
  unfold Agent.assistantContent textBlocks
  cases content <;> cases calls <;> rfl

theorem callPart_toolUseBlock (call : ToolCall) :
    callPart (Agent.toolUseBlock call) = some (callWire call) := rfl

theorem textPart_toolUseBlock (call : ToolCall) : textPart (Agent.toolUseBlock call) = none := rfl

theorem filterMap_callPart (content : PyStr) (calls : List ToolCall) :
    (textBlocks content ++ calls.map Agent.toolUseBlock).filterMap callPart = calls.map callWire := by
  have htext : (textBlocks content).filterMap callPart = [] := by
    unfold textBlocks
    split_ifs <;> rfl
  rw [List.filterMap_append, htext, List.nil_append, List.filterMap_map]
  have hfun : callPart ∘ Agent.toolUseBlock = fun call => some (callWire call) :=
    funext callPart_toolUseBlock
  rw [hfun, List.filterMap_eq_map']

theorem filterMap_textPart (content : PyStr) (calls : List ToolCall) :
    (textBlocks content ++ calls.map Agent.toolUseBlock).filterMap textPart =
      if content = [] then [] else [.str content] := by
  have hcalls : (calls.map Agent.toolUseBlock).filterMap textPart = [] := by
    rw [List.filterMap_map]
    exact List.filterMap_eq_nil_iff.mpr fun call _ => textPart_toolUseBlock call
  rw [List.filterMap_append, hcalls, List.append_nil]
  unfold textBlocks
  split_ifs <;> rfl

/-- A model's turn is translated to one message. -/
theorem translateAssistant_model (content : PyStr) (calls : List ToolCall) :
    translateAssistant (Agent.assistantContent ⟨content, calls⟩) = .ok (modelWire content calls) := by
  rw [assistantContent_eq]
  by_cases hempty : content = [] ∧ calls = []
  · rw [if_pos hempty, hempty.1, hempty.2]
    rfl
  · rw [if_neg hempty]
    show assistantWire _ = _
    unfold assistantWire
    have hjoin : joinTexts (if content = [] then [] else [.str content]) = .ok content := by
      cases content with
      | nil => rfl
      | cons c cs =>
          rw [if_neg (List.cons_ne_nil c cs)]
          show Except.ok ([Json.str (c :: cs)].flatMap textOf) = _
          rw [List.flatMap_singleton]
          rfl
    rw [filterMap_textPart, filterMap_callPart, hjoin]
    unfold modelWire
    cases content <;> cases calls <;> first | rfl | exact absurd ⟨rfl, rfl⟩ hempty

theorem translateMessage_answer (c : ToolCall × Answer) :
    translateMessage (toolResultMessage c.1.id c.2.output c.2.isError) = .ok [answerWire c] := by
  obtain ⟨call, output, isError⟩ := c
  cases isError <;> rfl

/-- The messages of a turn, each with its translation. -/
theorem translate_turn (t : Turn) :
    ∃ outs, t.messages.mapM translateMessage = .ok outs ∧ outs.flatten = t.wire := by
  cases t with
  | user text => exact ⟨[[userMessage text]], rfl, rfl⟩
  | image text imageBase64 mediaType => exact ⟨[Turn.wire (.image text imageBase64 mediaType)], rfl, rfl⟩
  | model content calls =>
      have hmodel : translateMessage
          (assistantMessage (Agent.assistantContent ⟨content, calls.map Prod.fst⟩)) =
            .ok [modelWire content (calls.map Prod.fst)] := by
        have hwire := translateAssistant_model content (calls.map Prod.fst)
        show (translateAssistant (Agent.assistantContent ⟨content, calls.map Prod.fst⟩)).map _ = _
        rw [hwire]
        rfl
      have hanswers : (calls.map fun c => toolResultMessage c.1.id c.2.output c.2.isError).mapM
          translateMessage = .ok (calls.map fun c => [answerWire c]) := by
        rw [List.mapM_map]
        exact Lib.Traverse.mapM_eq_map fun c _ => translateMessage_answer c
      refine ⟨[modelWire content (calls.map Prod.fst)] :: calls.map fun c => [answerWire c], ?_, ?_⟩
      · show List.mapM translateMessage (_ :: _) = _
        rw [List.mapM_cons, hmodel, hanswers]
        rfl
      · show [modelWire content (calls.map Prod.fst)] ++ (calls.map fun c => [answerWire c]).flatten = _
        rw [← List.flatMap_def, ← List.map_eq_flatMap]
        rfl

/-- A history is translated turn by turn. -/
theorem translate_history (turns : List Turn) :
    ∃ outs, (history turns).mapM translateMessage = .ok outs ∧
      outs.flatten = turns.flatMap Turn.wire := by
  induction turns with
  | nil => exact ⟨[], rfl, rfl⟩
  | cons t turns ih =>
      obtain ⟨outs, hturns, hwires⟩ := ih
      obtain ⟨out, hturn, hwire⟩ := translate_turn t
      refine ⟨out ++ outs, ?_, ?_⟩
      · show (t.messages ++ history turns).mapM translateMessage = _
        rw [List.mapM_append, hturn, hturns]
        rfl
      · rw [List.flatten_append, hwire, hwires, List.flatMap_cons]

theorem translateMessages_history (turns : List Turn) (system : Option PyStr) :
    translateMessages (history turns) system = .ok (systemWire system ++ turns.flatMap Turn.wire) := by
  obtain ⟨outs, hturns, hwires⟩ := translate_history turns
  unfold translateMessages
  rw [hturns, ← hwires]
  rfl

-- ============================================================================
-- Calls and their answers
-- ============================================================================

theorem takeWhile_append_of_start {p : Dict → Bool} {ys : List Dict} (hys : ys.takeWhile p = [])
    (xs : List Dict) : (xs ++ ys).takeWhile p = xs.takeWhile p := by
  induction xs with
  | nil => exact hys
  | cons x xs ih =>
      rw [List.cons_append, List.takeWhile_cons, List.takeWhile_cons, ih]

/-- A list of messages that no tool message starts can follow another. -/
theorem Answered.append {xs ys : List Dict} (hxs : Answered xs) (hys : Answered ys)
    (hstart : ys.takeWhile isTool = []) : Answered (xs ++ ys) := by
  induction xs with
  | nil => exact hys
  | cons x xs ih =>
      refine ⟨fun hx => ?_, ih hxs.2⟩
      show ((xs ++ ys).takeWhile isTool).map answeredId = _
      rw [takeWhile_append_of_start hstart]
      exact hxs.1 hx

theorem takeWhile_answers (cs : List (ToolCall × Answer)) :
    (cs.map answerWire).takeWhile isTool = cs.map answerWire := by
  induction cs with
  | nil => rfl
  | cons c cs ih =>
      show answerWire c :: (cs.map answerWire).takeWhile isTool = _
      rw [ih]
      rfl

theorem answered_answers (cs : List (ToolCall × Answer)) : Answered (cs.map answerWire) := by
  induction cs with
  | nil => trivial
  | cons c cs ih => exact ⟨fun hnot => (by cases hnot), ih⟩

theorem toolCallIds_modelWire (content : PyStr) (calls : List ToolCall) :
    toolCallIds (modelWire content calls) = calls.map fun c => .str c.id := by
  cases calls with
  | nil => rfl
  | cons c calls =>
      show ((c :: calls).map callWire).map callId = _
      rw [List.map_map]
      rfl

/-- No turn is translated to a tool message first. -/
theorem start_wire (t : Turn) : t.wire.takeWhile isTool = [] := by
  cases t <;> rfl

theorem answered_wire (t : Turn) : Answered t.wire := by
  cases t with
  | user text => exact ⟨fun _ => rfl, trivial⟩
  | image text imageBase64 mediaType => exact ⟨fun _ => rfl, trivial⟩
  | model content calls =>
      refine ⟨fun _ => ?_, answered_answers calls⟩
      rw [takeWhile_answers, toolCallIds_modelWire, List.map_map, List.map_map]
      rfl

theorem start_wires (turns : List Turn) : (turns.flatMap Turn.wire).takeWhile isTool = [] := by
  induction turns with
  | nil => rfl
  | cons t turns ih => rw [List.flatMap_cons, takeWhile_append_of_start ih, start_wire]

theorem answered_wires (turns : List Turn) : Answered (turns.flatMap Turn.wire) := by
  induction turns with
  | nil => trivial
  | cons t turns ih =>
      rw [List.flatMap_cons]
      exact (answered_wire t).append ih (start_wires turns)

-- ============================================================================
-- Texts and images
-- ============================================================================

theorem line_eq (role : String) (text : PyStr) :
    ([text].filter (· ≠ [])).map (fun s => (py role, s)) = line role text := by
  unfold line
  cases text <;> rfl

theorem messageLines_modelWire (content : PyStr) (calls : List ToolCall) :
    messageLines (modelWire content calls) = line "assistant" content := by
  rw [← line_eq]
  cases content <;> cases calls <;> rfl

theorem lines_wire (t : Turn) : t.wire.flatMap messageLines = t.lines := by
  cases t with
  | user text => rw [Turn.lines, ← line_eq]; exact List.flatMap_singleton ..
  | image text imageBase64 mediaType =>
      rw [Turn.lines, ← line_eq]
      exact List.flatMap_singleton ..
  | model content calls =>
      show messageLines _ ++ (calls.map answerWire).flatMap messageLines = _
      rw [messageLines_modelWire, List.flatMap_map]
      have hanswer : ∀ c, messageLines (answerWire c) = line "tool" c.2.output := by
        intro c
        rw [← line_eq]
        rfl
      simp only [hanswer]
      rfl

theorem images_wire (t : Turn) : t.wire.flatMap messageImages = t.images := by
  cases t with
  | user text => rfl
  | image text imageBase64 mediaType => rfl
  | model content calls =>
      have hmodel : messageImages (modelWire content (calls.map Prod.fst)) = [] := by
        cases content <;> cases calls <;> rfl
      show messageImages _ ++ (calls.map answerWire).flatMap messageImages = _
      rw [hmodel, List.nil_append, List.flatMap_map]
      exact List.flatMap_eq_nil_iff.mpr fun c _ => rfl

theorem flatMap_wires {β : Type} {f : Dict → List β} {g : Turn → List β}
    (h : ∀ t : Turn, t.wire.flatMap f = g t) (turns : List Turn) :
    (turns.flatMap Turn.wire).flatMap f = turns.flatMap g := by
  rw [List.flatMap_assoc]
  simp only [h]

-- ============================================================================
-- Reading back
-- ============================================================================

/-- The call as a provider would send it. -/
def asCall (call : ToolCall) : ProviderCall := ⟨call.id, call.name, dumps true call.arguments⟩

theorem asProvider_modelWire (content : PyStr) (calls : List ToolCall) :
    (asProvider (modelWire content calls)).content.getD [] = content ∧
      (asProvider (modelWire content calls)).toolCalls = calls.map asCall := by
  constructor
  · cases content <;> cases calls <;> rfl
  · cases calls with
    | nil => rfl
    | cons c calls =>
        show ((c :: calls).map callWire).filterMap providerCall = _
        rw [List.filterMap_map]
        have hfun : providerCall ∘ callWire = fun call => some (asCall call) := rfl
        rw [hfun, List.filterMap_eq_map']

theorem length_escapeChar (ensureAscii : Bool) (c : Nat) :
    1 ≤ (escapeChar ensureAscii c).length := by
  unfold escapeChar
  split_ifs <;> first | decide | exact Nat.le_add_left ..

theorem length_dumpsStr (ensureAscii : Bool) (s : PyStr) :
    s.length ≤ (dumpsStr ensureAscii s).length := by
  have hbody : s.length ≤ (s.flatMap (escapeChar ensureAscii)).length := by
    induction s with
    | nil => exact Nat.le_refl 0
    | cons c s ih =>
        have hc := length_escapeChar ensureAscii c
        rw [List.flatMap_cons, List.length_append, List.length_cons]
        omega
  unfold dumpsStr
  rw [List.length_append, List.length_append]
  omega

/-- Arguments that are no JSON are never kept as themselves. -/
theorem raw_ne (v : Json) : v ≠ .obj [(py "_raw", .str (dumps true v))] := by
  intro h
  have hlen := length_dumpsStr true (dumps true v)
  have htext : dumps true v = py "\x7b" ++ (dumpsStr true (py "_raw") ++ py ": "
      ++ dumpsStr true (dumps true v)) ++ py "\x7d" := congrArg (dumps true) h
  have hcount := congrArg List.length htext
  have hbrace : (py "\x7b").length = 1 := by decide
  simp only [List.length_append, hbrace] at hcount
  omega

/-- The arguments of a parsed call are JSON that `json.loads` can return. -/
theorem parseCall_readable {fl : FloatRepr} (hfl : fl.Lawful) {lim : Limits} {c : ProviderCall}
    {call : ToolCall} (h : parseCall lim fl c = .ok call) : Readable false fl call.arguments := by
  unfold parseCall loadArguments at h
  cases hload : loads lim fl c.arguments with
  | ok v =>
      rw [hload] at h
      cases h
      exact loads_readable hfl hload
  | error e =>
      rw [hload] at h
      cases e with
      | decode =>
          cases h
          exact ⟨List.nodup_singleton _, textOk_raw _, textOk_raw _, trivial⟩
      | digits => cases h
      | depth => cases h

/-- A tool call comes back exactly when its arguments do. -/
theorem parseCall_asCall {fl : FloatRepr} (call : ToolCall) :
    parseCall {} fl (asCall call) = .ok call ↔
      loads {} fl (dumps true call.arguments) = .ok call.arguments := by
  have hparse : parseCall {} fl (asCall call) =
      (loadArguments {} fl (dumps true call.arguments)).map fun v => ⟨call.id, call.name, v⟩ := by
    unfold parseCall asCall
    cases loadArguments {} fl (dumps true call.arguments) <;> rfl
  rw [hparse]
  unfold loadArguments
  cases hload : loads {} fl (dumps true call.arguments) with
  | ok v =>
      show Except.ok (ToolCall.mk call.id call.name v) = .ok call ↔ _
      rw [Except.ok.injEq, Except.ok.injEq, ToolCall.mk.injEq]
      simp
  | error e =>
      cases e with
      | decode =>
          refine ⟨fun h => ?_, fun h => by cases h⟩
          have hcall : ToolCall.mk call.id call.name
              (.obj [(py "_raw", .str (dumps true call.arguments))]) = call := Except.ok.inj h
          exact absurd (congrArg ToolCall.arguments hcall).symm (raw_ne call.arguments)
      | digits => exact ⟨fun h => (by cases h), fun h => by cases h⟩
      | depth => exact ⟨fun h => (by cases h), fun h => by cases h⟩

/-- A model's turn reads back exactly when the arguments of its calls do. -/
theorem readBack_modelWire {fl : FloatRepr} (content : PyStr) (calls : List ToolCall) :
    readBack fl (modelWire content calls) = .ok ⟨content, calls⟩ ↔
      ∀ c ∈ calls, loads {} fl (dumps true c.arguments) = .ok c.arguments := by
  obtain ⟨hcontent, hcalls⟩ := asProvider_modelWire content calls
  have hback : readBack fl (modelWire content calls) =
      ((calls.map asCall).mapM (parseCall {} fl)).map fun cs => ⟨content, cs⟩ := by
    unfold readBack parseResponse
    rw [hcontent, hcalls]
    cases (calls.map asCall).mapM (parseCall {} fl) <;> rfl
  have hiff : ((calls.map asCall).mapM (parseCall {} fl)).map
      (fun cs => Agent.LLMResponse.mk content cs) = .ok ⟨content, calls⟩ ↔
        (calls.map asCall).mapM (parseCall {} fl) = .ok calls := by
    cases (calls.map asCall).mapM (parseCall {} fl) with
    | error e => exact ⟨fun h => (by cases h), fun h => by cases h⟩
    | ok cs =>
        show Except.ok (Agent.LLMResponse.mk content cs) = _ ↔ _
        rw [Except.ok.injEq, Except.ok.injEq, Agent.LLMResponse.mk.injEq, and_iff_right rfl]
  rw [hback, hiff, Lib.Traverse.mapM_map_ok_iff]
  exact forall₂_congr fun c _ => parseCall_asCall c

theorem assistants_answers (cs : List (ToolCall × Answer)) :
    (cs.map answerWire).filter isAssistant = [] := by
  induction cs with
  | nil => rfl
  | cons c cs ih => exact ih

/-- The messages of the assistant are the model's turns. -/
theorem readBack_wires {fl : FloatRepr} (turns : List Turn) :
    ((turns.flatMap Turn.wire).filter isAssistant).map (readBack fl) =
        (turns.filterMap Turn.response).map .ok ↔
      ∀ t ∈ turns, ∀ v ∈ t.arguments, loads {} fl (dumps true v) = .ok v := by
  induction turns with
  | nil => exact ⟨fun _ t ht => (by cases ht), fun _ => rfl⟩
  | cons t turns ih =>
      rw [List.flatMap_cons, List.filter_append, List.map_append, List.forall_mem_cons, ← ih]
      cases t with
      | user text =>
          have hnone : ∀ v ∈ (Turn.user text).arguments, loads {} fl (dumps true v) = .ok v :=
            fun v hv => (by cases hv)
          exact (and_iff_right hnone).symm
      | image text imageBase64 mediaType =>
          have hnone : ∀ v ∈ (Turn.image text imageBase64 mediaType).arguments,
              loads {} fl (dumps true v) = .ok v := fun v hv => (by cases hv)
          exact (and_iff_right hnone).symm
      | model content calls =>
          have hone : (Turn.wire (.model content calls)).filter isAssistant =
              [modelWire content (calls.map Prod.fst)] := by
            show modelWire content (calls.map Prod.fst) :: (calls.map answerWire).filter isAssistant = _
            rw [assistants_answers]
          have hargs : (∀ v ∈ (Turn.model content calls).arguments,
              loads {} fl (dumps true v) = .ok v) ↔
                readBack fl (modelWire content (calls.map Prod.fst)) =
                  .ok ⟨content, calls.map Prod.fst⟩ := by
            rw [readBack_modelWire]
            show (∀ v ∈ calls.map (fun c => c.1.arguments), _) ↔ _
            rw [List.forall_mem_map, List.forall_mem_map]
          rw [hone, hargs]
          show readBack fl (modelWire content (calls.map Prod.fst)) :: _ = .ok _ :: _ ↔ _
          rw [List.cons.injEq]
          rfl

-- ============================================================================
-- The whole history
-- ============================================================================

/-- The translation pairs every call with its answer and keeps what is said. -/
theorem translation_paired (system : Option PyStr) (turns : List Turn) :
    (systemWire system ++ turns.flatMap Turn.wire).takeWhile isTool = [] ∧
      Answered (systemWire system ++ turns.flatMap Turn.wire) ∧
      (systemWire system ++ turns.flatMap Turn.wire).flatMap messageLines =
        line "system" (system.getD []) ++ turns.flatMap Turn.lines ∧
      (systemWire system ++ turns.flatMap Turn.wire).flatMap messageImages =
        turns.flatMap Turn.images := by
  have hstart := start_wires turns
  have hanswered := answered_wires turns
  have hlines := flatMap_wires lines_wire turns
  have himages := flatMap_wires images_wire turns
  rw [List.flatMap_append, List.flatMap_append, hlines, himages]
  unfold systemWire
  cases hsystem : system.getD [] with
  | nil => exact ⟨hstart, hanswered, rfl, rfl⟩
  | cons c cs =>
      rw [if_neg (List.cons_ne_nil c cs)]
      refine ⟨rfl, ⟨fun _ => ?_, hanswered⟩, ?_, rfl⟩
      · show ((turns.flatMap Turn.wire).takeWhile isTool).map answeredId = _
        rw [hstart]
        rfl
      · rw [← line_eq]
        rfl

/-- The translated history says what the history says exactly when no text of
    the arguments has the halves of a surrogate pair next to each other. -/
theorem translation_preserves {fl : FloatRepr} (hfl : fl.Lawful) (system : Option PyStr)
    {turns : List Turn} (hturns : ∀ t ∈ turns, t.WellFormed fl) :
    (∃ out, translateMessages (history turns) system = .ok out ∧ Preserved fl system turns out) ↔
      ∀ t ∈ turns, ∀ v ∈ t.arguments, ∀ s ∈ v.texts, pairFree s = true := by
  have hsystem : (systemWire system).filter isAssistant = [] := by
    unfold systemWire
    split_ifs <;> rfl
  have hback : ((systemWire system ++ turns.flatMap Turn.wire).filter isAssistant).map (readBack fl) =
      (turns.filterMap Turn.response).map .ok ↔
        ∀ t ∈ turns, ∀ v ∈ t.arguments, ∀ s ∈ v.texts, pairFree s = true := by
    rw [List.filter_append, hsystem, List.nil_append, readBack_wires]
    refine forall₂_congr fun t ht => forall₂_congr fun v hv => ?_
    obtain ⟨hread, hchars⟩ := hturns t ht v hv
    exact loads_dumps_ascii_iff hfl hread hchars
  rw [translateMessages_history]
  constructor
  · rintro ⟨out, hout, hpreserved⟩
    cases hout
    exact hback.mp hpreserved.readBack
  · intro h
    obtain ⟨hstart, hanswered, htexts, himages⟩ := translation_paired system turns
    exact ⟨_, rfl, hstart, hanswered, htexts, himages, hback.mpr h⟩

/-- A call whose text came in two parts: an escape, and a character of its own. -/
def splitCall : ToolCall :=
  ⟨py "1", py "say", .obj [(py "t", .str [0xD83D, 0xDE00])]⟩

/-- The two characters of the stored text are one character for the provider. -/
theorem split_pair_joined :
    parseResponse {} id { toolCalls := [⟨py "1", py "say",
        py "\x7b\"t\": \"\\ud83d" ++ [0xDE00] ++ py "\"\x7d"⟩] } = .ok ⟨[], [splitCall], none⟩ ∧
      ¬ ∃ out, translateMessages (history [.model [] [(splitCall, ⟨py "said", false⟩)]]) none = .ok out ∧
        Preserved id none [.model [] [(splitCall, ⟨py "said", false⟩)]] out := by
  refine ⟨by decide +kernel, ?_⟩
  rintro ⟨out, hout, hpreserved⟩
  rw [translateMessages_history] at hout
  cases hout
  have hall := (readBack_wires _).mp hpreserved.readBack
  have hload := hall _ (List.mem_singleton.mpr rfl) splitCall.arguments (List.mem_singleton.mpr rfl)
  revert hload
  decide +kernel

/-- A call whose text is one character, with the words around it. -/
def smileCall : ToolCall :=
  ⟨py "1", py "say", .obj [(py "t", .str [0x1F600]), (py "n", .float (py "1.5"))]⟩

/-- The turns of a short talk. -/
def talk : List Turn :=
  [.image (py "look") (py "iVBOR") (py "image/png"), .model (py "a smile") [(smileCall, ⟨py "said", true⟩)],
    .model (py "done") []]

theorem translation_preserves_talk :
    ∃ out, translateMessages (history talk) (some (py "be brief")) = .ok out ∧
      Preserved (fun _ => py "1.5") (some (py "be brief")) talk out := by
  have hargs : ∀ t ∈ talk, ∀ v ∈ t.arguments, v = smileCall.arguments := by
    simp [talk, Turn.arguments]
  have hwf : ∀ t ∈ talk, t.WellFormed fun _ => py "1.5" := by
    intro t ht v hv
    rw [hargs t ht v hv]
    have hkeys : [py "t", py "n"].Nodup := by decide
    refine ⟨⟨hkeys, textOk_raw _, textOk_raw _, textOk_raw _, isFloat_half, trivial⟩, ?_⟩
    unfold CodePoints
    decide
  refine (translation_preserves lawful_half _ hwf).mpr fun t ht v hv => ?_
  rw [hargs t ht v hv]
  decide

end Llm
end KineticSdk
