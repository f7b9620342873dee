/-
  KineticSdk.Context.Manager

  Context-window compaction (`context/manager.py`): the token estimate, the
  truncation of oversized tool results, the choice of the protected tail and
  the two managers that replace the span before it.

  Fractions of the context window are rationals.  A regular expression of the
  compressor is the predicate "it matches somewhere in this line".
-/

import KineticSdk.Py.JsonText
import KineticSdk.Py.Str
import KineticSdk.Conversation.State
import KineticSdk.Security.Redact
import Mathlib.Algebra.GroupWithZero.Nat
import Mathlib.Algebra.Ring.Int.Defs

namespace KineticSdk
namespace Context

open Py Conversation Security

-- ============================================================================
-- Configuration
-- ============================================================================

/-- `ContextBudget`: the share of the window each section may take. -/
structure ContextBudget where
  systemPrompt : Rat
  history : Rat
  toolOutput : Rat
  memory : Rat
  plan : Rat
  nonneg : 0 ≤ systemPrompt ∧ 0 ≤ history ∧ 0 ≤ toolOutput ∧ 0 ≤ memory ∧ 0 ≤ plan
  sum_le_one : systemPrompt + history + toolOutput + memory + plan ≤ 1

/-- `ToolOutputCompressor`. -/
structure ToolOutputCompressor where
  preservePatterns : List (PyStr → Bool)

/-- The parameters `SimpleTruncateContextManager` accepts. -/
structure TruncateConfig where
  keepLastToolResults : Nat
  safetyThreshold : Rat
  charsPerToken : Nat
  tokenCounter : Option (PyStr → Int)
  maxToolResultChars : Option Nat
  budget : Option ContextBudget
  toolOutputCompressor : Option ToolOutputCompressor
  tailTokenBudget : Option Rat
  threshold_range : 0 < safetyThreshold ∧ safetyThreshold ≤ 1
  chars_pos : 1 ≤ charsPerToken
  max_chars_ge : ∀ m ∈ maxToolResultChars, 100 ≤ m
  tail_range : ∀ t ∈ tailTokenBudget, 0 < t ∧ t ≤ 1

theorem no_max_chars : ∀ m ∈ (none : Option Nat), 100 ≤ m := by simp

theorem no_tail_budget : ∀ t ∈ (none : Option Rat), 0 < t ∧ t ≤ 1 := by simp

-- ============================================================================
-- Sizes
-- ============================================================================

/-- `estimate_tokens`. -/
def estimateTokens (text : PyStr) (charsPerToken : Nat) : Int :=
  max 1 (text.length / charsPerToken : Nat)

/-- `_stringify_content`, of a content that may be missing. -/
def stringifyContent : Option Json → PyStr
  | some (.str s) => s
  | some v => dumps false v
  | none => py "null"

/-- `_count_tokens`. -/
def TruncateConfig.countTokens (cfg : TruncateConfig) (text : PyStr) : Int :=
  match cfg.tokenCounter with
  | some counter => counter text
  | none => estimateTokens text cfg.charsPerToken

/-- The tokens of one message. -/
def TruncateConfig.messageTokens (cfg : TruncateConfig) (msg : Message) : Int :=
  cfg.countTokens (stringifyContent (Dict.get? msg (py "content")))

/-- `estimate_state_tokens`. -/
def TruncateConfig.estimateStateTokens (cfg : TruncateConfig) (s : ConversationState) : Int :=
  (match s.systemPrompt with
    | some prompt => if prompt = [] then 0 else cfg.countTokens prompt
    | none => 0) + (s.messages.map cfg.messageTokens).sum

/-- `_message_has_tool_result`. -/
def messageHasToolResult (msg : Message) : Bool := messageToolResultIds msg != []

/-- `_message_has_tool_content`. -/
def messageHasToolContent (msg : Message) : Bool :=
  messageToolUseIds msg != [] || messageToolResultIds msg != []

-- ============================================================================
-- Budget sections
-- ============================================================================

/-- The texts `_budget_sections` collects. -/
structure BudgetSections where
  systemPrompt : PyStr
  history : PyStr
  toolOutput : PyStr
  memory : PyStr
  plan : PyStr

/-- A block of type `tool_result`. -/
def isToolResultBlock : Json → Bool
  | .obj b => Dict.get? b (py "type") = some (.str (py "tool_result"))
  | _ => false

/-- One message's contribution to the sections. -/
def BudgetSections.addMessage (b : BudgetSections) (msg : Message) : BudgetSections :=
  match Dict.get? msg (py "content") with
  | some (.str content) =>
      if startsWith (py "[Recalled memories]") content then { b with memory := b.memory ++ content }
      else { b with history := b.history ++ content }
  | some (.arr blocks) =>
      let toolBlocks := blocks.filter isToolResultBlock
      let otherBlocks := blocks.filter fun x => !toolBlocks.contains x
      { b with
        toolOutput := b.toolOutput ++ dumps false (.arr toolBlocks)
        history := b.history ++ dumps false (.arr otherBlocks) }
  | content => { b with history := b.history ++ stringifyContent content }

/-- `metadata.get("plan", "")` as a text. -/
def planText (s : ConversationState) : PyStr :=
  match Dict.get? s.metadata (py "plan") with
  | some (.json v) => stringifyContent (some v)
  | _ => []

/-- `_budget_sections`. -/
def budgetSections (s : ConversationState) : BudgetSections :=
  s.messages.foldl BudgetSections.addMessage
    { systemPrompt := s.systemPrompt.getD [], history := [], toolOutput := [], memory := [],
      plan := planText s }

/-- `should_compact` for a positive limit. -/
def TruncateConfig.shouldCompact (cfg : TruncateConfig) (s : ConversationState) (limit : Int) :
    Bool :=
  match cfg.budget with
  | some b =>
      let secs := budgetSections s
      [(secs.systemPrompt, b.systemPrompt), (secs.history, b.history),
        (secs.toolOutput, b.toolOutput), (secs.memory, b.memory), (secs.plan, b.plan)].any
        fun sec => decide ((limit : Rat) * sec.2 ≤ (cfg.countTokens sec.1 : Rat))
  | none => decide ((limit : Rat) * cfg.safetyThreshold ≤ (cfg.estimateStateTokens s : Rat))

-- ============================================================================
-- Cutting oversized tool results
-- ============================================================================

/-- The text of `TRUNCATION_MARKER` for `n` omitted characters. -/
def truncationMarker (n : Int) : PyStr :=
  py "\n[... " ++ intText n ++ py " ký tự ở giữa đã được cắt bớt ...]\n"

/-- `text[-n:]`; a zero count is the whole text. -/
def lastChars (n : Nat) (text : PyStr) : PyStr :=
  if n = 0 then text else text.drop (text.length - n)

/-- `_head_tail`. -/
def headTail (text : PyStr) (limit : Nat) : PyStr :=
  let head := limit * 2 / 3
  let tail := limit - head
  text.take head ++ truncationMarker ((text.length : Int) - head - tail) ++ lastChars tail text

namespace ToolOutputCompressor

/-- A line that is not blank. -/
def nonBlank (line : PyStr) : Bool := strip line != []

/-- The first line of the region around line `i`. -/
def regionStart (lines : List PyStr) : Nat → Nat
  | 0 => 0
  | i + 1 => if nonBlank (lines.getD i []) then regionStart lines i else i + 1

/-- The last line of the region around line `i`, `fuel` lines at most further. -/
def regionEnd (lines : List PyStr) : Nat → Nat → Nat
  | 0, i => i
  | fuel + 1, i =>
      if i + 1 < lines.length && nonBlank (lines.getD (i + 1) []) then regionEnd lines fuel (i + 1)
      else i

/-- The omission marker. -/
def marker : PyStr := py "[... verbose tool output omitted ...]\n"

/-- The indices of the lines worth keeping. -/
def keptLines (c : ToolOutputCompressor) (lines : List PyStr) (important : List Nat) : List Nat :=
  important ++ important.flatMap fun i =>
    if c.preservePatterns.tail.any fun p => p (lines.getD i []) then
      [regionStart lines i, regionEnd lines lines.length i]
    else []

/-- As many whole lines as fit, in order. -/
def fitLines (limit : Nat) (selected : List PyStr) : PyStr :=
  selected.foldl (fun out line =>
    if limit < out.length + line.length + marker.length then out else out ++ line) marker

/-- `ToolOutputCompressor.compress`. -/
def compress (c : ToolOutputCompressor) (text : PyStr) (limit : Nat) : PyStr :=
  if text.length ≤ limit then text
  else
    let lines := splitlines text
    let important := (List.range lines.length).filter fun i =>
      c.preservePatterns.any fun p => p (lines.getD i [])
    if important = [] then headTail text limit
    else
      let keep := c.keptLines lines important
      let selected := ((List.range lines.length).filter (keep.contains ·)).map (lines.getD · [])
      let result := marker ++ selected.flatten ++ marker
      if result.length ≤ limit then result
      else
        let out := fitLines limit selected
        if out.length + marker.length ≤ limit then out ++ marker else out.take limit

end ToolOutputCompressor

/-- The text of a `tool_result` block whose content is a string. -/
def toolResultText : Json → Option PyStr
  | .obj b =>
      if Dict.get? b (py "type") = some (.str (py "tool_result")) then
        match Dict.get? b (py "content") with
        | some (.str s) => some s
        | _ => none
      else none
  | _ => none

/-- `compress` of the configured compressor, or `_head_tail`. -/
def TruncateConfig.shorten (cfg : TruncateConfig) (text : PyStr) (limit : Nat) : PyStr :=
  match cfg.toolOutputCompressor with
  | some c => c.compress text limit
  | none => headTail text limit

/-- `{**block, "content": ..., "_compaction": ...}`. -/
def replaceText (block : Dict) (text compressed : PyStr) : Dict :=
  Dict.set (Dict.set block (py "content") (.str compressed)) (py "_compaction")
    (.obj [(py "kind", .str (py "truncated")),
      (py "omitted_chars", .int ((text.length : Int) - compressed.length))])

/-- `_truncate_block`, under an explicit limit. -/
def TruncateConfig.truncateBlock (cfg : TruncateConfig) (limit : Nat) : Json → Json
  | .obj block =>
      match toolResultText (.obj block) with
      | some text =>
          if text.length ≤ limit then .obj block
          else .obj (replaceText block text (cfg.shorten text limit))
      | none => .obj block
  | b => b

/-- A `tool_result` block longer than `limit`. -/
def oversized (limit : Nat) (b : Json) : Bool :=
  match toolResultText b with
  | some text => limit < text.length
  | none => false

/-- One message of `_truncate_oversized_tool_results`. -/
def TruncateConfig.truncateMessage (cfg : TruncateConfig) (limit : Nat) (msg : Message) : Message :=
  if (contentBlocks msg).any (oversized limit) then
    Dict.set msg (py "content") (.arr ((contentBlocks msg).map (cfg.truncateBlock limit)))
  else msg

/-- `_truncate_oversized_tool_results`. -/
def TruncateConfig.truncateOversizedToolResults (cfg : TruncateConfig) (messages : List Message) :
    List Message :=
  match cfg.maxToolResultChars with
  | none => messages
  | some limit => messages.map (cfg.truncateMessage limit)

-- ============================================================================
-- Bringing tool output under its budget
-- ============================================================================

/-- Message index, block index and text of every tool result. -/
def toolResultTexts (messages : List Message) : List (Nat × Nat × PyStr) :=
  messages.zipIdx.flatMap fun m =>
    (contentBlocks m.1).zipIdx.filterMap fun b => (toolResultText b.1).map fun t => (m.2, b.2, t)

/-- Replace block `bi` of a message. -/
def setBlock (msg : Message) (bi : Nat) (b : Json) : Message :=
  Dict.set msg (py "content") (.arr ((contentBlocks msg).set bi b))

/-- The reduction loop: oldest results first, until `allowed` is met. -/
def TruncateConfig.reduceLoop (cfg : TruncateConfig) (allowed : Int) :
    List (Nat × Nat × PyStr) → Int → List Message → List Message
  | [], _, out => out
  | (mi, bi, text) :: rest, remaining, out =>
      if remaining ≤ allowed then out
      else
        let target := max 100 ((text.length : Int) - (remaining - allowed))
        if (text.length : Int) ≤ target then cfg.reduceLoop allowed rest remaining out
        else
          let msg := out.getD mi []
          let b := cfg.truncateBlock target.toNat ((contentBlocks msg).getD bi .null)
          let kept := ((toolResultText b).getD []).length
          cfg.reduceLoop allowed rest (remaining - ((text.length : Int) - kept))
            (out.set mi (setBlock msg bi b))

/-- `_compact_tool_output_to_budget`. -/
def TruncateConfig.compactToolOutputToBudget (cfg : TruncateConfig) (b : ContextBudget)
    (limit : Int) (messages : List Message) : List Message :=
  let allowed := max 100 ((limit : Rat) * b.toolOutput * cfg.charsPerToken).floor
  let texts := toolResultTexts messages
  let total : Int := (texts.map fun t => (t.2.2.length : Int)).sum
  if total ≤ allowed then messages else cfg.reduceLoop allowed texts total messages

-- ============================================================================
-- The protected tail
-- ============================================================================

/-- The loop of `_expand_to_group_boundary`: move `start` back until every
    result of the tail has its `tool_use` in the tail. -/
def expandLoop (messages : List Message) : Nat → List Json → List Json → Nat
  | 0, _, _ => 0
  | start + 1, needed, provided =>
      if needed.all provided.contains then start + 1
      else
        let msg := messages.getD start []
        expandLoop messages start (messageToolResultIds msg ++ needed)
          (messageToolUseIds msg ++ provided)

/-- `_expand_to_group_boundary`. -/
def expandToGroupBoundary (messages : List Message) (start : Nat) : Nat :=
  expandLoop messages start ((messages.drop start).flatMap messageToolResultIds)
    ((messages.drop start).flatMap messageToolUseIds)

/-- The newest results whose cost fits, newest first; `taken` were selected. -/
def TruncateConfig.selectByCost (cfg : TruncateConfig) (messages : List Message) (allowed : Rat) :
    List Nat → List Nat → Int → List Nat
  | [], taken, _ => taken
  | index :: rest, taken, total =>
      if cfg.keepLastToolResults ≤ taken.length then taken
      else
        let cost := cfg.messageTokens (messages.getD index [])
        if allowed < ((total + cost : Int) : Rat) then taken
        else cfg.selectByCost messages allowed rest (taken ++ [index]) (total + cost)

/-- The index the tail is anchored at. -/
def TruncateConfig.anchor (cfg : TruncateConfig) (contextLimit : Option Int)
    (messages : List Message) : Nat :=
  let n := messages.length
  let toolResultIdx := (List.range n).filter fun i => messageHasToolResult (messages.getD i [])
  match cfg.tailTokenBudget, contextLimit with
  | some share, some limit =>
      let selected := cfg.selectByCost messages ((limit : Rat) * share) toolResultIdx.reverse [] 0
      selected.getLast?.getD (n - 1)
  | _, _ =>
      if cfg.keepLastToolResults ≤ toolResultIdx.length then
        toolResultIdx.getD (toolResultIdx.length - cfg.keepLastToolResults) 0
      else toolResultIdx.head?.getD (n - 1)

/-- `_tail_start`. -/
def TruncateConfig.tailStart (cfg : TruncateConfig) (contextLimit : Option Int)
    (messages : List Message) : Nat :=
  if cfg.keepLastToolResults = 0 then messages.length
  else
    expandToGroupBoundary messages
      (min (cfg.anchor contextLimit messages - 1) (messages.length - 1))

-- ============================================================================
-- Compaction
-- ============================================================================

/-- What `compact` decides before it builds the new history. -/
inductive Plan where
  | reduced (messages : List Message)
  | keep
  | cut (headEnd tailStart : Nat)

/-- `head_end`: the first message is kept when it carries no tool blocks. -/
def headEnd (messages : List Message) (tailStart : Nat) : Nat :=
  if 0 < tailStart && !messageHasToolContent (messages.getD 0 []) then 1 else 0

/-- The choice of the span to elide. -/
def TruncateConfig.cutPlan (cfg : TruncateConfig) (contextLimit : Option Int)
    (messages : List Message) : Plan :=
  if messages.length ≤ 2 then .keep
  else
    let tailStart := cfg.tailStart contextLimit messages
    let headEnd := headEnd messages tailStart
    if tailStart ≤ headEnd then .keep else .cut headEnd tailStart

/-- The decisions of `SimpleTruncateContextManager.compact`. -/
def TruncateConfig.plan (cfg : TruncateConfig) (contextLimit : Option Int)
    (messages : List Message) : Plan :=
  match cfg.budget, contextLimit with
  | some b, some limit =>
      let reduced := cfg.compactToolOutputToBudget b limit messages
      if reduced ≠ messages then .reduced reduced else cfg.cutPlan contextLimit messages
  | _, _ => cfg.cutPlan contextLimit messages

/-- The new history, given the message that replaces an elided span. -/
def TruncateConfig.compactMessages (cfg : TruncateConfig) (contextLimit : Option Int)
    (elidedMessage : List Message → Nat → Message) (messages : List Message) : List Message :=
  match cfg.plan contextLimit messages with
  | .reduced ms => ms
  | .keep => cfg.truncateOversizedToolResults messages
  | .cut h t =>
      cfg.truncateOversizedToolResults
        (messages.take h ++ elidedMessage ((messages.take t).drop h) (t - h) :: messages.drop t)

/-- The placeholder of `SimpleTruncateContextManager._elided_message`. -/
def placeholderMessage (removed : Nat) : Message :=
  [(py "role", .str (py "user")),
   (py "content", .str (py "[" ++ natText removed ++ py " tin nhắn trước đó đã được rút gọn]")),
   (py "_compaction", .obj [(py "kind", .str (py "truncated")),
     (py "source_message_count", .int removed)])]

/-- `SimpleTruncateContextManager.compact`. -/
def TruncateConfig.compact (cfg : TruncateConfig) (contextLimit : Option Int)
    (s : ConversationState) : ConversationState :=
  { s with messages :=
      cfg.compactMessages contextLimit (fun _ removed => placeholderMessage removed) s.messages }

-- ============================================================================
-- Summaries
-- ============================================================================

namespace StructuredSummary

open Conversation (StructuredSummary)

/-- The five fields in `_FIELDS` order. -/
def fields (s : StructuredSummary) : List (List PyStr) :=
  [s.goal, s.decisions, s.filesTouched, s.errorsEncountered, s.openQuestions]

/-- A summary from its fields. -/
def ofFields : List (List PyStr) → StructuredSummary
  | [g, d, f, e, q] => ⟨g, d, f, e, q⟩
  | _ => {}

/-- `to_prompt`. -/
def toPrompt (s : StructuredSummary) : PyStr :=
  let labels := [py "Mục tiêu và yêu cầu gốc", py "Quyết định", py "Tệp đã chạm",
    py "Lỗi gặp phải", py "Câu hỏi còn mở"]
  let line := fun (label : PyStr) (items : List PyStr) =>
    let body := join (py "; ") items
    label ++ py ": " ++ if body = [] then py "Không có" else body
  py "Tóm tắt luỹ tiến:\n" ++ join (py "\n") (List.zipWith line labels (fields s))

/-- Drop the oldest item of the first longest field. -/
def dropOldestItem (fs : List (List PyStr)) : List (List PyStr) :=
  let longest := (fs.map List.length).foldl max 0
  match fs.findIdx? fun f => f.length == longest with
  | some i => fs.set i ((fs.getD i []).drop 1)
  | none => fs

/-- The loop of `limited`; it stops when the prompt fits or nothing is left. -/
def limitLoop (maxChars : Nat) : Nat → List (List PyStr) → List (List PyStr)
  | 0, fs => fs
  | fuel + 1, fs =>
      if (toPrompt (ofFields fs)).length ≤ maxChars || fs.all List.isEmpty then fs
      else limitLoop maxChars fuel (dropOldestItem fs)

/-- `limited`. -/
def limited (s : StructuredSummary) (maxChars maxItemsPerField : Nat) : StructuredSummary :=
  let fs := (fields s).map fun f => f.drop (f.length - maxItemsPerField)
  ofFields (limitLoop maxChars ((fs.map List.length).sum + 1) fs)

/-- The strings of a JSON list of strings. -/
def stringList : Json → Option (List PyStr)
  | .arr xs => xs.mapM fun x => match x with
      | .str s => some s
      | _ => none
  | _ => none

/-- `from_value`, of a metadata value. -/
def fromValue : MetaValue → Option StructuredSummary
  | .summary s => some s
  | .json (.obj d) =>
      ([py "goal", py "decisions", py "files_touched", py "errors_encountered",
          py "open_questions"].mapM fun name =>
        stringList ((Dict.get? d name).getD (.arr []))).map ofFields
  | .json _ => none

end StructuredSummary

/-- What a plain summarizer does with the span: it raises, or returns a value
    that is or is not a string. -/
inductive SummaryOutcome where
  | raised
  | nonString
  | text (s : PyStr)

/-- The summarizer of a `SummarizingContextManager`.  A progressive one gets
    the previous findings and returns new ones, or raises. -/
inductive Summarizer where
  | plain (summarize : List Message → SummaryOutcome)
  | progressive
      (summarize : List Message → Option StructuredSummary → Option StructuredSummary)

/-- The parameters `SummarizingContextManager` adds. -/
structure SummarizingConfig extends TruncateConfig where
  summarizer : Option Summarizer
  maxSummaryChars : Nat
  maxStructuredChars : Nat
  maxItemsPerField : Nat
  summary_chars_pos : 1 ≤ maxSummaryChars
  structured_chars_pos : 1 ≤ maxStructuredChars
  items_pos : 1 ≤ maxItemsPerField

namespace SummarizingConfig

/-- `_summarize`: the summary text (empty on failure) and the findings to
    store, if any. -/
def summarize (cfg : SummarizingConfig) (previous : Option StructuredSummary)
    (messages : List Message) : PyStr × Option StructuredSummary :=
  let redacted := messages.map redactFields
  match cfg.summarizer with
  | none => ([], none)
  | some (.plain f) =>
      match f redacted with
      | .raised => ([], none)
      | .nonString => ([], none)
      | .text s =>
          let summary := join (py " ") (splitWords [] s)
          if cfg.maxSummaryChars < summary.length then
            (rstripWhile isSpace (summary.take cfg.maxSummaryChars) ++ py "…", none)
          else (summary, none)
  | some (.progressive f) =>
      match f redacted previous with
      | none => ([], none)
      | some structured =>
          let result := StructuredSummary.limited structured cfg.maxStructuredChars
            cfg.maxItemsPerField
          (StructuredSummary.toPrompt result, some result)

/-- The message that carries a summary, or the placeholder for an empty one. -/
def summaryMessage (summary : PyStr) (removed : Nat) : Message :=
  if summary = [] then placeholderMessage removed
  else
    [(py "role", .str (py "user")),
     (py "content", .str (py "[" ++ natText removed ++ py " tin nhắn trước đó đã được tóm tắt: "
       ++ summary ++ py "]")),
     (py "_compaction", .obj [(py "kind", .str (py "summary")),
       (py "source_message_count", .int removed)])]

/-- `_progressive_previous`: the findings stored by the round before. -/
def previousSummary (s : ConversationState) : Option StructuredSummary :=
  (Dict.get? s.metadata (py "structured_summary")).bind StructuredSummary.fromValue

/-- `SummarizingContextManager._elided_message`. -/
def elidedMessage (cfg : SummarizingConfig) (s : ConversationState) (elided : List Message)
    (removed : Nat) : Message :=
  summaryMessage (cfg.summarize (previousSummary s) elided).1 removed

/-- `_progressive_result`: the findings of this round, when a span is elided. -/
def progressiveResult (cfg : SummarizingConfig) (contextLimit : Option Int)
    (s : ConversationState) : Option StructuredSummary :=
  match cfg.plan contextLimit s.messages with
  | .cut h t => (cfg.summarize (previousSummary s) ((s.messages.take t).drop h)).2
  | _ => none

/-- `SummarizingContextManager.compact`. -/
def compact (cfg : SummarizingConfig) (contextLimit : Option Int) (s : ConversationState) :
    ConversationState :=
  { s with
    messages := cfg.compactMessages contextLimit (cfg.elidedMessage s) s.messages
    metadata := match cfg.progressiveResult contextLimit s with
      | some found => Dict.set s.metadata (py "structured_summary") (.summary found)
      | none => s.metadata }

end SummarizingConfig

/-- The context managers of the library. -/
inductive ContextManager where
  | noop
  | truncate (cfg : TruncateConfig)
  | summarizing (cfg : SummarizingConfig)

/-- `should_compact` for a positive limit. -/
def ContextManager.shouldCompact (cm : ContextManager) (s : ConversationState) (limit : Int) :
    Bool :=
  match cm with
  | .noop => false
  | .truncate cfg => cfg.shouldCompact s limit
  | .summarizing cfg => cfg.shouldCompact s limit

/-- `_progressive_result`: the findings a compaction stores, if any. -/
def ContextManager.progressiveResult (cm : ContextManager) (contextLimit : Option Int)
    (s : ConversationState) : Option StructuredSummary :=
  match cm with
  | .summarizing cfg => cfg.progressiveResult contextLimit s
  | _ => none

/-- `compact`; `contextLimit` is the limit `should_compact` saw last. -/
def ContextManager.compact (cm : ContextManager) (contextLimit : Option Int)
    (s : ConversationState) : ConversationState :=
  match cm with
  | .noop => s
  | .truncate cfg => cfg.compact contextLimit s
  | .summarizing cfg => cfg.compact contextLimit s

end Context
end KineticSdk
