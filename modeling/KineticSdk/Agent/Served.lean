/-
  KineticSdk.Agent.Served

  Whether the model is ever asked with a tool call that has no result.

  A run keeps every call of the history answered, whatever ids the model gives
  and whatever the cap on the history, from the moment it starts to every
  boundary it reaches.  An exception out of a batch leaves calls open, and
  only a resumed agent checks for them before it goes on.
-/

import KineticSdk.Agent.Pairing

namespace KineticSdk
namespace Agent

open Py Tool Security Conversation Replay Context
open Lib (Wp Keeps TurnView)
open Lib.TurnView (Served served_of_no_requests served_turn)

variable {σ : Type}

-- ============================================================================
-- Histories
-- ============================================================================

/-- Every call of the conversation has its result. -/
abbrev AllServed (c : ConversationState) : Prop := toolView.Served c.messages

/-- Appending messages one by one leaves the end of all of them. -/
theorem foldl_append_suffix (msgs : List Message) (c : ConversationState) :
    (msgs.foldl ConversationState.append c).messages <:+ c.messages ++ msgs := by
  induction msgs generalizing c with
  | nil => simp
  | cons msg msgs ih =>
      have hfirst : (c.append msg).messages <:+ c.messages ++ [msg] := c.append_suffix msg
      obtain ⟨cut, hcut⟩ := hfirst
      refine (ih (c.append msg)).trans ⟨cut, ?_⟩
      rw [← List.append_assoc, hcut, List.append_assoc]
      rfl

theorem AllServed.append_of_no_requests {c : ConversationState} (h : AllServed c) {msg : Message}
    (hmsg : messageToolUseIds msg = []) : AllServed (c.append msg) := by
  obtain ⟨cut, hcut⟩ := c.append_suffix msg
  have hnone : ∀ m ∈ [msg], toolView.requests m = [] := by
    intro m hm
    rw [List.mem_singleton.mp hm]
    exact hmsg
  have hall : toolView.Served (c.messages ++ [msg]) := Served.append h (served_of_no_requests hnone)
  rw [← hcut] at hall
  exact hall.suffix

theorem AllServed.addUserMessage {c : ConversationState} (h : AllServed c) (text : PyStr) :
    AllServed (c.addUserMessage text) := h.append_of_no_requests (toolUseIds_userMessage text)

theorem answered_eq_foldl (env : Env σ) (c : ConversationState)
    (rs : List (ToolCall × ToolResult)) :
    answered env c rs = (rs.map (resultMessage env)).foldl ConversationState.append c := by
  unfold answered
  rw [List.foldl_map]
  rfl

/-- A turn with a result for each of its calls. -/
theorem AllServed.turn {c : ConversationState} (h : AllServed c) (env : Env σ)
    (response : LLMResponse) {rs : List (ToolCall × ToolResult)}
    (hrs : rs.map Prod.fst = response.toolCalls) :
    AllServed (answered env (c.addAssistant (assistantContent response)) rs) := by
  have hanswers : (rs.map (resultMessage env)).flatMap messageToolResultIds
      = messageToolUseIds (assistantMessage (assistantContent response)) := by
    rw [answers_results, requests_assistant, ← hrs, List.flatMap_map]
  have hturn : toolView.Served
      (assistantMessage (assistantContent response) :: rs.map (resultMessage env)) := by
    refine served_turn (isAssistant_assistantMessage (assistantContent response)) ?_ hanswers
    intro x hx
    obtain ⟨r, -, rfl⟩ := List.mem_map.mp hx
    rfl
  have hsuffix := foldl_append_suffix
    (assistantMessage (assistantContent response) :: rs.map (resultMessage env)) c
  obtain ⟨cut, hcut⟩ := hsuffix
  have hall := Served.append h hturn
  rw [← hcut] at hall
  rw [answered_eq_foldl]
  exact hall.suffix

-- ============================================================================
-- Runs
-- ============================================================================

/-- What the model gets and what is persisted. -/
def SeesServed : Action → Prop
  | .llmCall h => toolView.Served h
  | .persisted c => AllServed c
  | _ => True

/-- Whatever was sent or persisted had its results. -/
def BoundariesServed (t : List Action) : Prop := ∀ a ∈ t, SeesServed a

theorem BoundariesServed.grow {t as : List Action} (h : BoundariesServed t)
    (has : ∀ a ∈ as, SeesServed a) : BoundariesServed (t ++ as) := by
  intro a ha
  rcases List.mem_append.mp ha with ha | ha
  · exact h a ha
  · exact has a ha

theorem BoundariesServed.note {t : List Action} (h : BoundariesServed t) {a : Action}
    (ha : SeesServed a) : BoundariesServed (t ++ [a]) := h.grow (by simpa using ha)

theorem seesServed_of_acts {env : Env σ} {calls : List ToolCall} {as : List Action}
    (h : Acts env calls as) : ∀ a ∈ as, SeesServed a := by
  intro a ha
  have hcall := callNote_of_acts h a ha
  cases a <;> first | exact hcall.elim | trivial

/-- Between two turns every call has its result. -/
structure ServedBetween (c : ConversationState) (t : List Action) : Prop where
  served : AllServed c
  soFar : BoundariesServed t

theorem turnRule_served (env : LoopEnv σ) :
    TurnRule env (fun _ _ => True) ServedBetween (fun _ t => BoundariesServed t) where
  left := fun _ _ h => h.soFar
  user := fun _ _ text h => ⟨h.served.addUserMessage text, h.soFar⟩
  note := by
    intro c t a ha h
    refine ⟨h.served, h.soFar.note ?_⟩
    cases a <;> first | exact ha.elim | trivial
  asked := fun _ _ h => ⟨h.served, h.soFar.note h.served⟩
  persist := fun _ _ h => ⟨h.served, h.soFar.note h.served⟩
  compact := by
    intro c t manager limit h
    refine ⟨served_contextManager manager limit h.served, h.soFar.grow ?_⟩
    intro a ha
    obtain ⟨found, -, rfl⟩ := List.mem_map.mp ha
    trivial
  plan := fun _ _ _ h => ⟨h.served, h.soFar⟩
  answer := by
    intro c t response h _ hnil
    have hnone : messageToolUseIds (assistantMessage (assistantContent response)) = [] := by
      rw [requests_assistant, hnil]
      rfl
    exact ⟨h.served.append_of_no_requests hnone, h.soFar⟩
  tools := fun _ _ response _ _ h _ _ hrs hacts =>
    ⟨h.served.turn env.toEnv response hrs, h.soFar.grow (seesServed_of_acts hacts)⟩
  broken := fun _ _ _ _ _ h _ _ _ hacts => h.soFar.grow (seesServed_of_acts hacts)

/-- A run on an answered history asks the model with answered histories only,
    and leaves one if it returns. -/
theorem run_served (env : LoopEnv σ) (args : RunArgs) {s : AgentState σ}
    (h : ServedBetween s.conv s.trace) :
    Wp (run env args) (fun _ s' => ServedBetween s'.conv s'.trace)
      (fun _ s' => BoundariesServed s'.trace) s := by
  apply ((turnRule_served env).run (responds_anything env) args h).mono
  · exact fun _ _ h' => h'.2
  · exact fun _ _ h' => h'

-- ============================================================================
-- One run after the other
-- ============================================================================

/-- Calls of `run` one after the other, under whatever components.  A run that
    raised is only followed by another one if it left no call open. -/
inductive Calling (s₀ : AgentState σ) : AgentState σ → Prop where
  | start : Calling s₀ s₀
  | returned {s s' : AgentState σ} (env : LoopEnv σ) (args : RunArgs) {final : Option PyStr} :
      Calling s₀ s → run env args s = .ok final s' → Calling s₀ s'
  | raised {s s' : AgentState σ} (env : LoopEnv σ) (args : RunArgs) {e : Exc} :
      Calling s₀ s → run env args s = .error e s' → AllServed s'.conv → Calling s₀ s'

theorem calling_served {s₀ s : AgentState σ} (h₀ : ServedBetween s₀.conv s₀.trace)
    (h : Calling s₀ s) : ServedBetween s.conv s.trace := by
  induction h with
  | start => exact h₀
  | returned env args _ hrun ih =>
      have hwp := run_served env args ih
      unfold Wp at hwp
      rwa [hrun] at hwp
  | raised env args _ hrun hserved ih =>
      have hwp := run_served env args ih
      unfold Wp at hwp
      rw [hrun] at hwp
      exact ⟨hserved, hwp⟩

/-- The model was asked with answered histories only. -/
def AskedServed (t : List Action) : Prop :=
  ∀ messages, .llmCall messages ∈ t → toolView.Served messages

/-- In any sequence of runs the model is asked with answered histories only, if
    no run is called after one that raised and left a call open. -/
theorem calls_see_served {s₀ s : AgentState σ} (hstart : s₀.trace = [])
    (h₀ : AllServed s₀.conv) (h : Calling s₀ s) (env : LoopEnv σ) (args : RunArgs) :
    AskedServed (stateAfter (run env args) s).trace := by
  have hs : ServedBetween s.conv s.trace := by
    refine calling_served ⟨h₀, ?_⟩ h
    rw [hstart]
    exact fun a ha => absurd ha List.not_mem_nil
  have hall : BoundariesServed (stateAfter (run env args) s).trace := by
    apply Wp.stateAfter (I := fun s' => BoundariesServed s'.trace)
    exact (run_served env args hs).mono (fun _ _ h' => h'.soFar) fun _ _ h' => h'
  exact fun messages hm => hall _ hm

/-- An agent whose policy has a human confirm every call. -/
def cautiousAgent : LoopEnv Unit :=
  { listingAgent with
    permissionPolicy := fun _ _ w => (.ok ⟨true, py "confirm", true⟩, w)
    checkpointManager := true }

/-- The agent after a run that pauses at the call of a tool. -/
def pausedAgent : AgentState Unit :=
  stateAfter (run cautiousAgent { userMessage := some (py "go") }) freshState

/-- Whether the run goes on to ask the model with an open call. -/
def asksUnserved (t : List Action) : Bool :=
  t.any fun
    | .llmCall messages => !decide (toolView.Served messages)
    | _ => false

-- a statement about a run is never settled by evaluating it
attribute [local irreducible] run

/-- The next run asks the model with the call that still waits for a human. -/
theorem next_run_forgets_pause :
    ¬ AskedServed
      (stateAfter (run cautiousAgent { userMessage := some (py "more") }) pausedAgent).trace := by
  have hasks : asksUnserved
      (stateAfter (run cautiousAgent { userMessage := some (py "more") }) pausedAgent).trace
      = true := by
    decide +kernel
  intro hall
  obtain ⟨a, ha, hopen⟩ := List.any_eq_true.mp hasks
  cases a with
  | llmCall messages =>
      have hserved := hall messages ha
      simp [hserved] at hopen
  | _ => cases hopen

/-- The theorem for the first run of an agent that needs no confirmation. -/
theorem listingAgent_sees_served :
    AskedServed
      (stateAfter (run listingAgent { userMessage := some (py "go") }) freshState).trace := by
  have hempty : AllServed freshState.conv := by
    unfold AllServed
    decide
  exact calls_see_served rfl hempty .start listingAgent { userMessage := some (py "go") }

end Agent
end KineticSdk
