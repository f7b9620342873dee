/-
  KineticSdk.Agent.Pairing

  Tool pairing over a whole run.

  Between turns the history is well paired and its call ids are distinct
  (`Healthy`).  A turn with tool calls appends the assistant message and, as
  `Agent.Batch` shows, one result per call in call order, so it leaves a
  healthy history again; compaction, corrections and injected messages do as
  well.  The model is called and the state persisted only between turns.
-/

import KineticSdk.Agent.Rules
import KineticSdk.Agent.Batch
import KineticSdk.Context.Pairing

namespace KineticSdk
namespace Agent

open Py Tool Security Conversation Replay Context
open Lib (Wp Keeps TurnView)
open Lib.TurnView (WellPaired scan_append turns_single)

variable {σ : Type}

-- ============================================================================
-- Healthy histories
-- ============================================================================

/-- A well-paired history whose turns are old ones, or answered in the order of
    their calls. -/
structure PairedFrom (h₀ h : List Message) : Prop where
  wellPaired : toolView.WellPaired h
  inOrder : ∀ t ∈ toolView.turns h, t ∈ toolView.turns h₀ ∨ t.answers = t.requests

/-- The conversation between two turns. -/
structure Healthy (h₀ : List Message) (c : ConversationState) : Prop where
  uncapped : c.maxMessages = none
  paired : PairedFrom h₀ c.messages
  distinct : (c.messages.flatMap messageToolUseIds).Nodup

/-- The ids of a response: given, distinct and new to the history. -/
def FreshIds (messages : List Message) (calls : List ToolCall) : Prop :=
  (calls.map ToolCall.id).Nodup ∧
    ∀ call ∈ calls, call.id ≠ [] ∧ Json.str call.id ∉ messages.flatMap messageToolUseIds

theorem PairedFrom.append {h₀ h ms : List Message} (h' : PairedFrom h₀ h)
    (hw : toolView.WellPaired ms) (ht : ∀ t ∈ toolView.turns ms, t.answers = t.requests) :
    PairedFrom h₀ (h ++ ms) := by
  refine ⟨h'.wellPaired.append hw, ?_⟩
  intro t htm
  rw [(scan_append hw.lead_nil).2] at htm
  rcases List.mem_append.mp htm with htm | htm
  · exact h'.inOrder t htm
  · exact Or.inr (ht t htm)

/-- A message that neither asks nor answers keeps a history healthy. -/
theorem Healthy.append_plain {h₀ : List Message} {c : ConversationState} {msg : Message}
    (h : Healthy h₀ c) (hr : messageToolUseIds msg = []) (ha : messageToolResultIds msg = []) :
    Healthy h₀ (c.append msg) := by
  rw [ConversationState.append_uncapped h.uncapped]
  refine ⟨h.uncapped, ?_, ?_⟩
  · exact h.paired.append (WellPaired.single hr ha) (turns_single hr)
  · show ((c.messages ++ [msg]).flatMap messageToolUseIds).Nodup
    rw [List.flatMap_append, List.flatMap_cons, hr]
    simpa using h.distinct

theorem Healthy.addUserMessage {h₀ : List Message} {c : ConversationState} (h : Healthy h₀ c)
    (text : PyStr) : Healthy h₀ (c.addUserMessage text) :=
  h.append_plain (toolUseIds_userMessage text) (toolResultIds_userMessage text)

theorem Healthy.compact {h₀ : List Message} {c : ConversationState} (h : Healthy h₀ c)
    (manager : ContextManager) (limit : Option Int) : Healthy h₀ (manager.compact limit c) := by
  have hc := compacts_contextManager manager limit h.paired.wellPaired h.distinct
  refine ⟨?_, ⟨hc.wellPaired, ?_⟩, hc.requests.nodup h.distinct⟩
  · cases manager with
    | noop => exact h.uncapped
    | truncate cfg => exact h.uncapped
    | summarizing cfg => exact h.uncapped
  · intro t ht
    rcases hc.turns t ht with ht | ht
    · exact h.paired.inOrder t ht
    · exact Or.inr ht

-- ============================================================================
-- A turn with its results
-- ============================================================================

theorem filterMap_toolUse (calls : List ToolCall) :
    (calls.map toolUseBlock).filterMap (blockId (py "tool_use") (py "id"))
      = calls.flatMap fun call => carriedIds call.id := by
  induction calls with
  | nil => rfl
  | cons call calls ih =>
      have hblock : blockId (py "tool_use") (py "id") (toolUseBlock call)
          = (some (Json.str call.id)).filter Json.truthy := rfl
      rw [List.map_cons, List.filterMap_cons, hblock, List.flatMap_cons, ← ih,
        ← toList_filter_truthy]
      cases (some (Json.str call.id)).filter Json.truthy <;> rfl

theorem flatMap_carriedIds {α : Type} (id : α → PyStr) {xs : List α} (h : ∀ x ∈ xs, id x ≠ []) :
    xs.flatMap (fun x => carriedIds (id x)) = xs.map fun x => Json.str (id x) := by
  induction xs with
  | nil => rfl
  | cons x xs ih =>
      rw [List.flatMap_cons, List.map_cons, carriedIds_of_ne (h x (List.mem_cons_self ..)),
        ih fun y hy => h y (List.mem_cons_of_mem _ hy)]
      rfl

theorem filterMap_toolUse_results (calls : List ToolCall) :
    (calls.map toolUseBlock).filterMap (blockId (py "tool_result") (py "tool_use_id")) = [] := by
  induction calls with
  | nil => rfl
  | cons call calls ih =>
      have hblock : blockId (py "tool_result") (py "tool_use_id") (toolUseBlock call) = none := rfl
      rw [List.map_cons, List.filterMap_cons, hblock, ih]

/-- The text block in front of the calls. -/
def textBlocks (content : PyStr) : List Json :=
  if content = [] then [] else [.obj [(py "type", .str (py "text")), (py "text", .str content)]]

theorem contentBlocks_assistant (response : LLMResponse) :
    contentBlocks (assistantMessage (assistantContent response))
      = textBlocks response.content ++ response.toolCalls.map toolUseBlock := by
  have hcontent : assistantContent response =
      if (textBlocks response.content ++ response.toolCalls.map toolUseBlock).isEmpty
      then .str response.content
      else .arr (textBlocks response.content ++ response.toolCalls.map toolUseBlock) := rfl
  rw [hcontent]
  cases hb : textBlocks response.content ++ response.toolCalls.map toolUseBlock with
  | nil => rfl
  | cons b bs => rfl

theorem textBlocks_ids (content type key : PyStr) (h : type ≠ py "text") :
    (textBlocks content).filterMap (blockId type key) = [] := by
  unfold textBlocks
  split
  · rfl
  · have hblock : blockId type key
        (.obj [(py "type", .str (py "text")), (py "text", .str content)]) = none := by
      have hget : Dict.get? [(py "type", Json.str (py "text")), (py "text", .str content)]
          (py "type") = some (.str (py "text")) := rfl
      unfold blockId
      dsimp only
      rw [hget, if_neg]
      intro heq
      exact h (Json.str.inj (Option.some.inj heq)).symm
    rw [List.filterMap_cons, hblock]
    rfl

/-- A turn requests the ids of its calls. -/
theorem requests_assistant (response : LLMResponse) :
    messageToolUseIds (assistantMessage (assistantContent response))
      = response.toolCalls.flatMap fun call => carriedIds call.id := by
  unfold messageToolUseIds
  rw [contentBlocks_assistant, List.filterMap_append, textBlocks_ids _ _ _ (by decide),
    filterMap_toolUse]
  rfl

theorem toolUseIds_assistant (response : LLMResponse)
    (h : ∀ call ∈ response.toolCalls, call.id ≠ []) :
    messageToolUseIds (assistantMessage (assistantContent response))
      = response.toolCalls.map fun call => Json.str call.id := by
  rw [requests_assistant, flatMap_carriedIds ToolCall.id h]

theorem toolResultIds_assistant (response : LLMResponse) :
    messageToolResultIds (assistantMessage (assistantContent response)) = [] := by
  unfold messageToolResultIds
  rw [contentBlocks_assistant, List.filterMap_append, textBlocks_ids _ _ _ (by decide),
    filterMap_toolUse_results]
  rfl

theorem answered_uncapped (env : Env σ) {c : ConversationState} (h : c.maxMessages = none)
    (rs : List (ToolCall × ToolResult)) :
    (answered env c rs).maxMessages = none ∧
      (answered env c rs).messages = c.messages ++ rs.map (resultMessage env) := by
  induction rs generalizing c with
  | nil => exact ⟨h, by simp [answered]⟩
  | cons r rs ih =>
      have hadd : addResult env c r = { c with messages := c.messages ++ [resultMessage env r] } :=
        ConversationState.append_uncapped h _
      have hstep := ih (c := addResult env c r) (by rw [hadd]; exact h)
      have hcons : answered env c (r :: rs) = answered env (addResult env c r) rs := rfl
      rw [hcons]
      refine ⟨hstep.1, ?_⟩
      rw [hstep.2, hadd]
      simp

/-- The results of a batch answer the ids of their calls. -/
theorem answers_results (env : Env σ) (rs : List (ToolCall × ToolResult)) :
    (rs.map (resultMessage env)).flatMap messageToolResultIds
      = rs.flatMap fun r => carriedIds r.1.id := by
  rw [List.flatMap_map]
  exact congrArg (fun f => rs.flatMap f)
    (funext fun r => toolResultIds_toolResultMessage r.1.id _ _)

theorem toolResultIds_results (env : Env σ) {rs : List (ToolCall × ToolResult)}
    (h : ∀ r ∈ rs, r.1.id ≠ []) :
    (rs.map (resultMessage env)).flatMap messageToolResultIds
      = rs.map fun r => Json.str r.1.id := by
  rw [answers_results]
  exact flatMap_carriedIds (fun r : ToolCall × ToolResult => r.1.id) h

/-- The assistant message of a turn and its results make a complete turn. -/
theorem Healthy.turn {h₀ : List Message} {c : ConversationState} (h : Healthy h₀ c) (env : Env σ)
    (response : LLMResponse) (hfresh : FreshIds c.messages response.toolCalls)
    {rs : List (ToolCall × ToolResult)} (hrs : rs.map Prod.fst = response.toolCalls) :
    Healthy h₀ (answered env (c.addAssistant (assistantContent response)) rs) := by
  obtain ⟨hnd, hids⟩ := hfresh
  have hadd : c.addAssistant (assistantContent response) =
      { c with messages := c.messages ++ [assistantMessage (assistantContent response)] } :=
    ConversationState.append_uncapped h.uncapped _
  have huncapped : (c.addAssistant (assistantContent response)).maxMessages = none := by
    rw [hadd]
    exact h.uncapped
  obtain ⟨hmax, hmessages⟩ := answered_uncapped env huncapped rs
  have hreq := toolUseIds_assistant response fun call hcall => (hids call hcall).1
  have hall : (rs.map (resultMessage env)).flatMap messageToolResultIds
      = response.toolCalls.map fun call => Json.str call.id := by
    have hmem : ∀ r ∈ rs, r.1.id ≠ [] := fun r hr =>
      (hids r.1 (by rw [← hrs]; exact List.mem_map_of_mem hr)).1
    rw [toolResultIds_results env hmem, ← hrs, List.map_map]
    rfl
  have hplain : ∀ x ∈ rs.map (resultMessage env),
      toolView.opens x = false ∧ toolView.requests x = [] := by
    intro x hx
    obtain ⟨r, -, rfl⟩ := List.mem_map.mp hx
    exact ⟨rfl, rfl⟩
  obtain ⟨hw, hturns⟩ := WellPaired.turn (v := toolView)
    (m := assistantMessage (assistantContent response))
    (isAssistant_assistantMessage (assistantContent response))
    (toolResultIds_assistant response) hplain (hall.trans hreq.symm)
  have heq : (answered env (c.addAssistant (assistantContent response)) rs).messages
      = c.messages ++ assistantMessage (assistantContent response)
        :: rs.map (resultMessage env) := by
    rw [hmessages, hadd]
    simp
  refine ⟨hmax, ?_, ?_⟩
  · rw [heq]
    apply h.paired.append hw
    intro t ht
    rw [hturns] at ht
    obtain rfl : t = ⟨_, _⟩ := List.mem_singleton.mp ht
    rfl
  · have hnone : (rs.map (resultMessage env)).flatMap messageToolUseIds = [] :=
      List.flatMap_eq_nil_iff.mpr fun x hx => (hplain x hx).2
    rw [heq, List.flatMap_append, List.flatMap_cons, hreq, hnone, List.append_nil]
    refine List.nodup_append.mpr ⟨h.distinct, ?_, ?_⟩
    · have hinj : Function.Injective fun call : PyStr => Json.str call := fun a b hab => by
        simpa using hab
      have := hnd.map hinj
      rwa [List.map_map] at this
    · rintro a ha b hb rfl
      obtain ⟨call, hcall, rfl⟩ := List.mem_map.mp hb
      exact (hids call hcall).2 ha

-- ============================================================================
-- The invariant of the loop
-- ============================================================================

/-- What the model gets and what is persisted is well paired. -/
def BoundaryOk (h₀ : List Message) : Action → Prop
  | .llmCall h => PairedFrom h₀ h
  | .persisted c => PairedFrom h₀ c.messages
  | _ => True

/-- Since the trace `t₀` every boundary was well paired. -/
def SoFar (h₀ : List Message) (t₀ : List Action) (s : AgentState σ) : Prop :=
  ∃ as, s.trace = t₀ ++ as ∧ ∀ a ∈ as, BoundaryOk h₀ a

/-- The same of a trace. -/
def BoundariesOk (h₀ : List Message) (t₀ t : List Action) : Prop :=
  ∃ as, t = t₀ ++ as ∧ ∀ a ∈ as, BoundaryOk h₀ a

theorem BoundariesOk.grow {h₀ : List Message} {t₀ t bs : List Action} (h : BoundariesOk h₀ t₀ t)
    (hb : ∀ a ∈ bs, BoundaryOk h₀ a) : BoundariesOk h₀ t₀ (t ++ bs) := by
  obtain ⟨as, rfl, hok⟩ := h
  refine ⟨as ++ bs, List.append_assoc .., ?_⟩
  intro a ha
  rcases List.mem_append.mp ha with ha | ha
  · exact hok a ha
  · exact hb a ha

theorem BoundariesOk.note {h₀ : List Message} {t₀ t : List Action} (h : BoundariesOk h₀ t₀ t)
    {a : Action} (ha : BoundaryOk h₀ a) : BoundariesOk h₀ t₀ (t ++ [a]) :=
  h.grow (by simpa using ha)

/-- The invariant between turns. -/
structure Between (h₀ : List Message) (t₀ : List Action) (c : ConversationState)
    (t : List Action) : Prop where
  healthy : Healthy h₀ c
  soFar : BoundariesOk h₀ t₀ t

/-- The actions inside a batch are no boundaries. -/
theorem boundaryOk_of_acts {env : Env σ} {calls : List ToolCall} {as : List Action}
    (h : Acts env calls as) (h₀ : List Message) : ∀ a ∈ as, BoundaryOk h₀ a := by
  intro a ha
  obtain ⟨pre, post, rfl⟩ := List.append_of_mem ha
  have hact := h.guarded pre a post rfl
  cases a with
  | llmCall => exact hact.elim
  | persisted => exact hact.elim
  | _ => trivial

/-- The model answers with fresh ids. -/
structure FreshResponses (env : LoopEnv σ) : Prop where
  chat : ∀ system messages w response,
    (env.chat system messages w).1 = .ok response → FreshIds messages response.toolCalls
  stream : ∀ system messages w response,
    (env.chatStream system messages w).1 = .finished (some response) →
      FreshIds messages response.toolCalls

theorem FreshResponses.responds {env : LoopEnv σ} (h : FreshResponses env) :
    Responds env fun messages response => FreshIds messages response.toolCalls :=
  ⟨h.chat, h.stream, fun _ => ⟨List.nodup_nil, by simp⟩⟩

/-- The invariant holds between turns when ids are fresh, and an exception
    leaves every boundary so far well paired. -/
theorem turnRule_between (env : LoopEnv σ) (h₀ : List Message) (t₀ : List Action) :
    TurnRule env (fun messages response => FreshIds messages response.toolCalls) (Between h₀ t₀)
      (fun _ t => BoundariesOk h₀ t₀ t) where
  left := fun _ _ h => h.soFar
  user := fun _ _ text h => ⟨h.healthy.addUserMessage text, h.soFar⟩
  note := by
    intro c t a ha h
    refine ⟨h.healthy, h.soFar.note ?_⟩
    cases a <;> first | exact ha.elim | trivial
  asked := fun _ _ h => ⟨h.healthy, h.soFar.note h.healthy.paired⟩
  persist := fun _ _ h => ⟨h.healthy, h.soFar.note h.healthy.paired⟩
  compact := by
    intro c t manager limit h
    refine ⟨h.healthy.compact manager limit, h.soFar.grow ?_⟩
    intro a ha
    obtain ⟨found, -, rfl⟩ := List.mem_map.mp ha
    trivial
  plan := fun _ _ _ h => ⟨⟨h.healthy.uncapped, h.healthy.paired, h.healthy.distinct⟩, h.soFar⟩
  answer := by
    intro c t response h _ hnil
    refine ⟨h.healthy.append_plain ?_ (toolResultIds_assistant response), h.soFar⟩
    rw [toolUseIds_assistant response (by simp [hnil]), hnil]
    rfl
  tools := fun _ _ response _ _ h hfresh _ hrs hacts =>
    ⟨h.healthy.turn env.toEnv response hfresh hrs, h.soFar.grow (boundaryOk_of_acts hacts h₀)⟩
  broken := fun _ _ _ _ _ h _ _ _ hacts => h.soFar.grow (boundaryOk_of_acts hacts h₀)

-- ============================================================================
-- The whole run
-- ============================================================================

/-- A run keeps the history well paired, with results in the order of their
    calls, wherever the model or a store gets to see it and when it returns,
    whatever the model asks for under fresh ids and whatever hooks, policy,
    tools, verifier, other threads and the clock do. -/
theorem run_keeps_pairing {env : LoopEnv σ} (hfresh : FreshResponses env) (args : RunArgs)
    (s : AgentState σ) (huncapped : s.conv.maxMessages = none)
    (hpaired : toolView.WellPaired s.conv.messages)
    (hdistinct : (s.conv.messages.flatMap messageToolUseIds).Nodup) :
    Wp (run env args)
      (fun final s' => final.isSome = true ∧ PairedFrom s.conv.messages s'.conv.messages ∧
        SoFar s.conv.messages s.trace s')
      (fun _ s' => SoFar s.conv.messages s.trace s') s := by
  have h : Between s.conv.messages s.trace s.conv s.trace := by
    refine ⟨⟨huncapped, ⟨hpaired, fun t ht => Or.inl ht⟩, hdistinct⟩, [], ?_, by simp⟩
    exact (List.append_nil _).symm
  apply ((turnRule_between env s.conv.messages s.trace).run hfresh.responds args h).mono
  · rintro final s' ⟨hsome, h'⟩
    exact ⟨hsome, h'.healthy.paired, h'.soFar⟩
  · exact fun _ _ h' => h'

/-- A tool that lists files. -/
def listFiles : Tool Unit where
  name := py "ls"
  parameters := .obj []
  execute := fun _ w => (.ok (.value (.str (py "a.py"))), w)

/-- A model that asks for the files once and then answers. -/
def askForFiles (messages : List Message) : LLMResponse :=
  if Json.str (py "t1") ∈ messages.flatMap messageToolUseIds then { content := py "done" }
  else { toolCalls := [⟨py "t1", py "ls", .obj []⟩] }

/-- An agent with that tool and that model. -/
def listingAgent : LoopEnv Unit where
  tools := [listFiles]
  permissionPolicy := fun _ _ w => (.ok ⟨true, py "ok", false⟩, w)
  idempotencyKey := fun _ _ _ => []
  digest := fun _ => []
  cancelRequested := fun w => (false, w)
  timedOut := fun _ w => (false, w)
  slotsReleased := fun w => (0, w)
  monotonic := fun w => (0, w)
  chat := fun _ messages w => (.ok (askForFiles messages), w)
  chatStream := fun _ _ w => (.notImplemented, w)
  classifier := fun _ w => (some .flash, w)
  contextManager := fun w => (.noop, w)
  budgetStop := fun w => (none, w)
  recordUsage := fun _ w => ((), w)
  inbox := fun w => ([], w)
  newRunId := fun w => (py "run", w)
  parseStructured := fun _ => none

theorem freshIds_askForFiles (messages : List Message) :
    FreshIds messages (askForFiles messages).toolCalls := by
  unfold askForFiles
  split
  · exact ⟨List.nodup_nil, by simp⟩
  · rename_i hnew
    refine ⟨List.nodup_singleton _, ?_⟩
    intro call hcall
    obtain rfl := List.mem_singleton.mp hcall
    exact ⟨by decide +kernel, hnew⟩

theorem freshResponses_listingAgent : FreshResponses listingAgent := by
  constructor
  · intro system messages w response h
    obtain rfl : askForFiles messages = response := Except.ok.inj h
    exact freshIds_askForFiles messages
  · intro system messages w response h
    cases h

/-- A fresh conversation. -/
def freshState : AgentState Unit where
  conv := {}
  runtime := {}
  runId := []
  world := ()

-- a statement about a run is never settled by evaluating it
attribute [local irreducible] run

/-- A run with one tool turn. -/
theorem listingAgent_keeps_pairing :
    Wp (run listingAgent { userMessage := some (py "go") })
      (fun final s' => final.isSome = true ∧
        PairedFrom freshState.conv.messages s'.conv.messages ∧
        SoFar freshState.conv.messages freshState.trace s')
      (fun _ s' => SoFar freshState.conv.messages freshState.trace s') freshState :=
  run_keeps_pairing freshResponses_listingAgent { userMessage := some (py "go") } freshState
    rfl WellPaired.nil List.nodup_nil

end Agent
end KineticSdk
