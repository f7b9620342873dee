/-
  KineticSdk.Agent.Loop

  The agent loop (`Agent.run` and `_run_loop` of `agent/agent.py`).

  A run classifies the task, then takes turns: compact the history, ask the
  model, execute the tool calls it requests or check its final answer.  One
  pass through the loop body is `turn`; `runLoop` repeats it.  Events and the
  pause gate, which block and notify but change nothing, are left out.
-/

import KineticSdk.Agent.Execute
import KineticSdk.Context.Manager

namespace KineticSdk
namespace Agent

open Py Tool Security Conversation Replay Context

-- ============================================================================
-- Components of the loop
-- ============================================================================

/-- What a stream of the model comes to. -/
inductive StreamOutcome where
  | notImplemented
  | raised (e : PyExc)
  | finished (final : Option LLMResponse)

/-- What asking the answer verifier comes to. -/
inductive VerifierOutcome where
  | raised
  | invalid
  | verdict (accepted : Bool) (feedback : PyStr)

/-- What an agent is constructed with beyond the tool-call components.  The
    context manager is asked for at each compaction, with whatever its
    summarizer would answer at that moment. -/
structure LoopEnv (σ : Type) extends Env σ where
  chat : Option PyStr → List Message → Act σ (Except PyExc LLMResponse)
  chatStream : Option PyStr → List Message → Act σ StreamOutcome
  /-- The mode the classifier picks; `none` when it raises. -/
  classifier : PyStr → Act σ (Option AgentMode)
  contextManager : Act σ ContextManager
  modelContextLimit : Int := 128000
  /-- The rendered plan; `none` when the planner raises or returns no plan. -/
  planner : Option (PyStr → Act σ (Option PyStr)) := none
  answerVerifier : Option (PyStr → PyStr → Option PyStr → Act σ VerifierOutcome) := none
  maxVerificationRetries : Int := 1
  verificationRequired : Bool := false
  /-- The texts memory recalls for a query; `none` when it raises. -/
  memory : Option (PyStr → Act σ (Option (List PyStr))) := none
  /-- Storing the exchange and clearing working memory at the end of a run. -/
  remember : PyStr → PyStr → Act σ Unit := fun _ _ w => ((), w)
  /-- The stop text of an exhausted run budget. -/
  budgetStop : Act σ (Option PyStr)
  recordUsage : LLMResponse → Act σ Unit
  /-- Taking messages until the inbox is found empty. -/
  inbox : Act σ (List PyStr)
  /-- The messages other threads have handed in so far, for observation only. -/
  accepted : σ → List PyStr := fun _ => []
  newRunId : Act σ PyStr
  /-- `parse_structured`: the JSON value in a text. -/
  parseStructured : PyStr → Option Json

variable {σ : Type}

/-- The arguments of a run. -/
structure RunArgs where
  userMessage : Option PyStr := none
  stream : Bool := false
  outputSchema : Option Json := none
  structuredRetries : Option Int := none
  verify : Option Bool := none

-- ============================================================================
-- Routing
-- ============================================================================

/-- `MODE_MAX_ITERATIONS`. -/
def modeMaxIterations : AgentMode → Int
  | .flash => 5
  | .max => 50

/-- `FLASH_ESCALATION_THRESHOLD`. -/
def flashEscalationThreshold : Nat := 3

/-- `_apply_mode`. -/
def applyMode (mode : AgentMode) (r : Runtime) : Runtime :=
  { r with
    mode := mode
    enableExtendedReasoning := decide (mode = .max)
    maxIterations := r.maxIterationsOverride.getD (modeMaxIterations mode) }

/-- `_classify_and_route` on the answer of the classifier: once MAX, always MAX. -/
def route (answer : Option AgentMode) (r : Runtime) : Runtime :=
  match answer with
  | none => applyMode .max r
  | some .flash => if r.stickyMax then applyMode .max r else applyMode .flash r
  | some .max => applyMode .max { r with stickyMax := true }

/-- `escalate` from FLASH. -/
def escalated (r : Runtime) : Runtime :=
  { r with
    mode := .max
    enableExtendedReasoning := true
    stickyMax := true
    maxIterations := if r.maxIterationsOverride.isNone then modeMaxIterations .max
      else r.maxIterations }

/-- `_maybe_escalate`. -/
def maybeEscalate (iteration : Nat) (triggeredByError alreadyEscalated : Bool) : M σ Bool := do
  let r := (← get).runtime
  if alreadyEscalated || r.mode ≠ .flash then pure alreadyEscalated
  else if (iteration = 0 && triggeredByError) || flashEscalationThreshold ≤ iteration + 1 then
    modify fun s => { s with runtime := escalated s.runtime }
    note .escalated
    pure true
  else pure false

-- ============================================================================
-- The parts of a turn
-- ============================================================================

/-- Append a user message to the conversation. -/
def addUser (text : PyStr) : M σ PUnit :=
  modify fun s => { s with conv := s.conv.addUserMessage text }

/-- `_first_user_message`: the most recent plain user text. -/
def firstUserMessage (s : AgentState σ) : Option PyStr :=
  s.conv.messages.reverse.findSome? fun msg : Message =>
    if Dict.get? msg (py "role") = some (.str (py "user")) then
      match Dict.get? msg (py "content") with
      | some (.str text) => some text
      | _ => none
    else none

/-- `text or default`. -/
def nonEmptyOr (text : Option PyStr) (default : PyStr) : PyStr :=
  match text with
  | some (c :: cs) => c :: cs
  | _ => default

/-- Note the findings a compaction stores. -/
def noteSummary : Option StructuredSummary → M σ PUnit
  | some found => note (.summarized found)
  | none => pure ⟨⟩

/-- `manager.compact(state)`, with the limit `should_compact` saw. -/
def compactContext (manager : ContextManager) (limit : Int) : M σ PUnit := do
  noteSummary (manager.progressiveResult (some limit) (← get).conv)
  modify fun s => { s with conv := manager.compact (some limit) s.conv }

/-- `_maybe_compact_context`. -/
def maybeCompactContext (env : LoopEnv σ) : M σ PUnit := do
  match ← ask env.contextManager with
  | .noop => pure ⟨⟩
  | manager =>
      if env.modelContextLimit ≤ 0 then
        raise ⟨py "ValueError", py "model_context_limit must be positive"⟩
      else if manager.shouldCompact (← get).conv env.modelContextLimit then
        compactContext manager env.modelContextLimit
      else pure ⟨⟩

/-- The texts hooks append to the system prompt. -/
def HookResult.systemPrompt (r : HookResult) : Option PyStr :=
  match r.modifiedContext.bind fun d => Dict.get? d (py "system_prompt") with
  | some (.str text) => if strip text = [] then none else some text
  | _ => none

/-- `_system_prompt_append`. -/
def systemPromptAppend (plan : Option PyStr) (results : List HookResult) : Option PyStr :=
  let additions := plan.toList ++ results.filterMap HookResult.systemPrompt
  let text := join (py "\n\n") additions
  if text = [] then none else some text

/-- The system prompt of one request. -/
def requestSystem (base append : Option PyStr) : Option PyStr :=
  match append, base with
  | some a, some (c :: cs) => some (c :: cs ++ py "\n\n" ++ a)
  | some a, _ => some a
  | none, b => b

/-- `llm.chat`. -/
def chat (env : LoopEnv σ) (system : Option PyStr) (messages : List Message) :
    M σ LLMResponse := do
  lift (← ask (env.chat system messages))

/-- `llm.chat_stream`, falling back to `chat` where it is not implemented.  A
    stream without an end is an empty answer. -/
def chatStream (env : LoopEnv σ) (system : Option PyStr) (messages : List Message) :
    M σ LLMResponse := do
  match ← ask (env.chatStream system messages) with
  | .notImplemented => chat env system messages
  | .raised e => raise e
  | .finished final => pure (final.getD {})

/-- The model's answer, streamed or not. -/
def reply (env : LoopEnv σ) (stream : Bool) (system : Option PyStr) (messages : List Message) :
    M σ LLMResponse :=
  if stream then chatStream env system messages else chat env system messages

/-- `_call_llm`. -/
def callLlm (env : LoopEnv σ) (stream : Bool) (append : Option PyStr) : M σ LLMResponse := do
  let (base, messages) := (← get).conv.forLlm
  note (.llmCall messages)
  let response ← reply env stream (requestSystem base append) messages
  ask (env.recordUsage response)
  pure response

/-- A `tool_use` block. -/
def toolUseBlock (call : ToolCall) : Json :=
  .obj [(py "type", .str (py "tool_use")), (py "id", .str call.id), (py "name", .str call.name),
    (py "input", call.arguments)]

/-- `_assistant_content`. -/
def assistantContent (response : LLMResponse) : Json :=
  let text : List Json :=
    if response.content = [] then []
    else [.obj [(py "type", .str (py "text")), (py "text", .str response.content)]]
  let blocks := text ++ response.toolCalls.map toolUseBlock
  if blocks.isEmpty then .str response.content else .arr blocks

/-- Take over a message of another thread. -/
def inject (s : AgentState σ) (text : PyStr) : AgentState σ :=
  { s with conv := s.conv.addUserMessage text, trace := s.trace ++ [.injected text] }

/-- `_drain_inbox`. -/
def drainInbox (env : LoopEnv σ) : M σ PUnit := do
  let messages ← ask env.inbox
  modify fun s => messages.foldl inject s
  note (.drained (env.accepted (← get).world))

-- ============================================================================
-- Final answers
-- ============================================================================

/-- `_verification_problems` on the evidence, a dictionary when there is any. -/
def verificationProblems : Option Dict → List PyStr
  | none => [py "missing verification evidence"]
  | some data =>
      let given (key : String) : Bool := ((Dict.get? data (py key)).getD .null).truthy
      let results : Dict := match Dict.get? data (py "test_results") with
        | some (.obj kvs) => kvs
        | _ => []
      let passing := [py "passed", py "pass", py "ok", py "success", py "green"]
      (if given "changed_files" then [] else [py "changed_files is empty"])
        ++ (if given "commands_run" then [] else [py "commands_run is empty"])
        ++ (if results.any fun kv => passing.contains (lowerKey (strOf kv.2)) then []
          else [py "no successful test result"])

/-- `verification_schema`. -/
def verificationSchema : Json :=
  let texts : Json := .obj [(py "type", .str (py "array")),
    (py "items", .obj [(py "type", .str (py "string"))])]
  .obj [(py "type", .str (py "object")),
    (py "properties", .obj [(py "changed_files", texts), (py "commands_run", texts),
      (py "test_results", .obj [(py "type", .str (py "object")),
        (py "additionalProperties", .obj [(py "type", .str (py "string"))])]),
      (py "remaining_risks", texts)]),
    (py "required", .arr [.str (py "changed_files"), .str (py "commands_run"),
      .str (py "test_results")]),
    (py "additionalProperties", .bool false)]

/-- `schema_instruction`. -/
def schemaInstruction (schema : Json) : PyStr :=
  py "Your final answer MUST be a single JSON value matching this JSON Schema:\n"
    ++ dumps false schema
    ++ py "\nReply with ONLY the JSON — no prose, no markdown fences."

/-- `check_final_answer`. -/
def checkFinalAnswer (env : LoopEnv σ) (schema : Json) (text : PyStr) : Except (List PyStr) Json :=
  match env.parseStructured text with
  | none => .error [py "final answer is not valid JSON"]
  | some value =>
      match validateValue schema (py "$") value with
      | [] => .ok value
      | problems => .error problems

/-- The variables of the loop. -/
structure LoopVars where
  finalText : PyStr := []
  iteration : Nat := 0
  escalated : Bool := false
  retriesLeft : Int
  verificationRetriesLeft : Int
  rejectedAnswer : Option (PyStr × PyStr) := none
  evidence : Option Dict := none

/-- One pass through the loop body: the run is over, or it goes on. -/
inductive Step where
  | finished (text : PyStr)
  | next (v : LoopVars)

/-- `_check_structured`: the evidence it keeps and whether to ask again. -/
def checkStructured (env : LoopEnv σ) (verify : Bool) (schema : Json) (v : LoopVars)
    (text : PyStr) : M σ (Option Dict × Bool) := do
  match checkFinalAnswer env schema text with
  | .ok value =>
      modify fun s => { s with structuredOutput := value }
      let evidence := match value with
        | .obj kvs => if verify then some kvs else v.evidence
        | _ => v.evidence
      let problems := verificationProblems evidence
      if verify && !problems.isEmpty && 0 < v.retriesLeft then
        addUser (py "Your final answer does not prove the task is complete. Problems: "
          ++ join (py "; ") problems ++ py ". Reply with ONLY a corrected JSON object.")
        note .structuredRetry
        pure (evidence, true)
      else pure (evidence, false)
  | .error problems =>
      if 0 < v.retriesLeft then
        addUser (py "Your previous reply did not satisfy the required JSON schema. Problems: "
          ++ join (py "; ") problems ++ py ". Reply with ONLY the corrected JSON value.")
        note .structuredRetry
        pure (v.evidence, true)
      else pure (v.evidence, false)

/-- A verifier that raises accepts, an invalid verdict rejects. -/
def VerifierOutcome.decision : VerifierOutcome → Bool × PyStr
  | .raised => (true, [])
  | .invalid => (false, py "Verifier returned an invalid verdict.")
  | .verdict accepted feedback => (accepted, feedback)

/-- `_verify_final_answer`. -/
def verifyFinalAnswer (verify : PyStr → PyStr → Option PyStr → Act σ VerifierOutcome)
    (answer : PyStr) : M σ (Bool × PyStr) := do
  let s ← get
  let task := nonEmptyOr (firstUserMessage s) (py "Continue the current task")
  let verdict := (← ask (verify task answer s.plan)).decision
  note (.verdict answer verdict.1)
  pure verdict

/-- `_raise_answer_not_verified`. -/
def raiseAnswerNotVerified {α : Type} : M σ α :=
  raise ⟨py "AnswerNotVerifiedError",
    py "The final answer was rejected by the answer verifier."⟩

/-- The verdict on a final answer; without a verifier every answer is accepted. -/
def verdictOn (env : LoopEnv σ) (text : PyStr) : M σ (Bool × PyStr) :=
  match env.answerVerifier with
  | none => pure (true, [])
  | some verify => verifyFinalAnswer verify text

/-- The verifier's part of a final answer. -/
def acceptAnswer (env : LoopEnv σ) (v : LoopVars) (text : PyStr) : M σ Step := do
  let verdict ← verdictOn env text
  if verdict.1 then
    persistState
    pure (.finished text)
  else if v.verificationRetriesLeft ≤ 0 then raiseAnswerNotVerified
  else
    addUser (py "The proposed final answer was not verified. Correct it using "
      ++ py "the available evidence. Verifier feedback: "
      ++ (if verdict.2 = [] then py "No details provided." else verdict.2))
    let escalated ← maybeEscalate v.iteration true v.escalated
    pure (.next { v with
      iteration := v.iteration + 1
      escalated := escalated
      rejectedAnswer := some (text, verdict.2)
      verificationRetriesLeft := v.verificationRetriesLeft - 1 })

/-- The branch of the loop for a response without tool calls. -/
def finalAnswer (env : LoopEnv σ) (verify : Bool) (schema : Option Json) (v : LoopVars)
    (text : PyStr) : M σ Step := do
  note (.proposed text)
  let v := { v with finalText := text }
  match schema with
  | none => acceptAnswer env v text
  | some schema =>
      let checked ← checkStructured env verify schema v text
      let v := { v with evidence := checked.1 }
      if checked.2 then
        pure (.next { v with retriesLeft := v.retriesLeft - 1, iteration := v.iteration + 1 })
      else acceptAnswer env v text

-- ============================================================================
-- The loop
-- ============================================================================

/-- Leave the loop before an answer was accepted. -/
def stop (reason : PyStr) (v : LoopVars) : M σ Step := do
  note (.stopped reason)
  pure (.finished v.finalText)

/-- The branch of the loop for a response with tool calls. -/
def toolTurn (env : LoopEnv σ) (v : LoopVars) (calls : List ToolCall) : M σ Step := do
  let anyError ← executeToolCalls env.toEnv calls
  persistState
  match (← get).stopReason with
  | some reason => stop reason v
  | none =>
    drainInbox env
    if ← isCancelled env.toEnv then stop (py "cancelled") v
    else
      let escalated ← maybeEscalate v.iteration anyError v.escalated
      pure (.next { v with iteration := v.iteration + 1, escalated := escalated })

/-- Ask the model and act on its response. -/
def modelTurn (env : LoopEnv σ) (stream verify : Bool) (schema : Option Json) (v : LoopVars)
    (hookResults : List HookResult) : M σ Step := do
  let response ← callLlm env stream (systemPromptAppend (← get).plan hookResults)
  let _ ← triggerHooks env.toEnv (.afterLlmCall v.iteration response)
  modify fun s => { s with conv := s.conv.addAssistant (assistantContent response) }
  if response.toolCalls.isEmpty then finalAnswer env verify schema v response.content
  else toolTurn env v response.toolCalls

/-- The body of the loop. -/
def turn (env : LoopEnv σ) (stream verify : Bool) (schema : Option Json) (v : LoopVars) :
    M σ Step := do
  if ← isCancelled env.toEnv then stop (py "cancelled") v
  else
    let r := (← get).runtime
    note (.accepted (env.accepted (← get).world))
    note (.turnStarted v.iteration r.mode r.maxIterations)
    maybeCompactContext env
    let hookResults ← triggerHooks env.toEnv
      (.beforeLlmCall v.iteration (firstUserMessage (← get)))
    if ← isCancelled env.toEnv then stop (py "cancelled") v
    else
      match ← ask env.budgetStop with
      | some message => do
          note (.budgetExceeded message)
          pure (.finished message)
      | none => modelTurn env stream verify schema v hookResults

/-- `_run_loop`, for at most `fuel` passes; `none` when the fuel runs out. -/
def runLoop (env : LoopEnv σ) (stream verify : Bool) (schema : Option Json) :
    Nat → LoopVars → M σ (Option PyStr)
  | 0, _ => pure none
  | fuel + 1, v => do
      if (v.iteration : Int) < (← get).runtime.maxIterations then
        match ← turn env stream verify schema v with
        | .finished text => pure (some text)
        | .next v => runLoop env stream verify schema fuel v
      else
        match v.rejectedAnswer with
        | some _ => raiseAnswerNotVerified
        | none => do
            note (.stopped (py "max_iterations"))
            pure (some v.finalText)

/-- Passes that are enough: escalation never raises the cap above both its
    start and the cap of MAX. -/
def loopFuel (maxIterations : Int) : Nat := max maxIterations.toNat 50 + 1

/-- `_recall_memory`: what memory recalls goes in front of the user's turn. -/
def recallMemory (env : LoopEnv σ) (userMessage : Option PyStr) : M σ PUnit := do
  match env.memory, userMessage with
  | some lookup, some query =>
      match ← ask (lookup query) with
      | some (text :: texts) =>
          addUser (py "[Recalled memories]\n"
            ++ join (py "\n") ((text :: texts).map fun t => py "- " ++ t))
      | _ => pure ⟨⟩
  | _, _ => pure ⟨⟩

/-- The user turn of a run, with the instruction of its output schema. -/
def composeUser (userMessage : Option PyStr) (schema : Option Json) : Option PyStr :=
  match schema with
  | some schema => some (userMessage.getD [] ++ py "\n\n" ++ schemaInstruction schema)
  | none => userMessage

/-- Append the user turn of a run, when it has one. -/
def addUserTurn (userMessage : Option PyStr) (schema : Option Json) : M σ PUnit :=
  match composeUser userMessage schema with
  | some text => addUser text
  | none => pure ⟨⟩

/-- `_create_plan`. -/
def createPlan (env : LoopEnv σ) (task : PyStr) : M σ (Option PyStr) :=
  match env.planner with
  | none => pure none
  | some create => ask (create task)

/-- The metadata entry of a plan. -/
def planned (plan : Option PyStr) (c : ConversationState) : ConversationState :=
  { c with
    metadata := match plan with
      | some p => Dict.set c.metadata (py "plan") (.json (.str p))
      | none => c.metadata.filter fun kv => kv.1 != py "plan" }

/-- The plan and its metadata entry. -/
def setPlan (plan : Option PyStr) (s : AgentState σ) : AgentState σ :=
  { s with plan := plan, conv := planned plan s.conv }

/-- What a run that does not resume a checkpoint does before its loop. -/
def startRun (env : LoopEnv σ) (userMessage : Option PyStr) : M σ PUnit := do
  let runId ← ask env.newRunId
  modify fun s => { s with cancelled := false, stopReason := none, runId := runId }
  let _ ← triggerHooks env.toEnv (.beforeRun userMessage)
  let recent := firstUserMessage (← get)
  let answer ← ask (env.classifier ((userMessage.or recent).getD []))
  note (.classified answer (← get).runtime.stickyMax)
  modify fun s => { s with runtime := route answer s.runtime }
  let plan ← createPlan env
    (nonEmptyOr userMessage (nonEmptyOr recent (py "Continue the current task")))
  modify (setPlan plan)

/-- The loop of a run; an exception that is no pause is shown to the hooks. -/
def guardedLoop (env : LoopEnv σ) (args : RunArgs) (verify : Bool) (schema : Option Json) :
    M σ (Option PyStr) := do
  let vars : LoopVars :=
    { retriesLeft := args.structuredRetries.getD 2
      verificationRetriesLeft := env.maxVerificationRetries }
  let cap := (← get).runtime.maxIterations
  tryCatch (runLoop env args.stream verify schema (loopFuel cap) vars) fun
    | .pendingConfirmation call arguments decision id =>
        throw (.pendingConfirmation call arguments decision id)
    | .raised e => do
        let _ ← triggerHooks env.toEnv (.onError e.text)
        throw (.raised e)

/-- `Agent.run`. -/
def run (env : LoopEnv σ) (args : RunArgs) : M σ (Option PyStr) := do
  let s ← get
  modify fun s => { s with structuredOutput := .null }
  let resuming := s.resuming && args.userMessage.isNone
  let verify := args.verify.getD env.verificationRequired
  let schema := if verify && args.outputSchema.isNone then some verificationSchema
    else args.outputSchema
  if resuming && s.runtime.pendingConfirmation.isSome then
    raise ⟨py "RuntimeError",
      py "Resolve the pending confirmation before continuing this checkpoint"⟩
  else
    recallMemory env args.userMessage
    addUserTurn args.userMessage schema
    if !resuming then startRun env args.userMessage
    let final ← guardedLoop env args verify schema
    modify fun s => { s with resuming := false }
    let _ ← triggerHooks env.toEnv (.afterRun (final.getD []))
    ask (env.remember (args.userMessage.getD []) (final.getD []))
    pure final

end Agent
end KineticSdk
