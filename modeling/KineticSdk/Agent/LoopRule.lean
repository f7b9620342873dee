/-
  KineticSdk.Agent.LoopRule

  One rule for everything that is proved along the loop.

  `LoopRule` lists what has to be shown of an assertion `H` about the start of
  a pass and an assertion `I` about what goes on inside it: one condition for
  each update the loop makes.  The rule is proved once, by walking through the
  loop; it gives `Q` of the text a run ends with, and `J` where an exception
  leaves it.  `wp_run` adds what goes on around the loop.
-/

import KineticSdk.Agent.World

namespace KineticSdk
namespace Agent

open Py Tool Security Conversation Replay Context
open Lib (Wp Keeps)

variable {σ α : Type}

-- ============================================================================
-- The updates of the loop
-- ============================================================================

/-- The state with one more action in its trace. -/
def noted (a : Action) (s : AgentState σ) : AgentState σ := { s with trace := s.trace ++ [a] }

/-- The state after a compaction. -/
def compacted (manager : ContextManager) (limit : Int) (s : AgentState σ) : AgentState σ :=
  { s with
    conv := manager.compact (some limit) s.conv
    trace := s.trace
      ++ (manager.progressiveResult (some limit) s.conv).toList.map Action.summarized }

/-- The state after the messages of the inbox have been taken over. -/
def drained (env : LoopEnv σ) (s : AgentState σ) : AgentState σ :=
  { s with
    conv := (env.inbox s.world).1.foldl ConversationState.addUserMessage s.conv
    world := (env.inbox s.world).2
    trace := s.trace ++ ((env.inbox s.world).1.map Action.injected
      ++ [.drained (env.accepted (env.inbox s.world).2)]) }

/-- Whether `_maybe_escalate` escalates at the end of a pass. -/
def escalates (byError : Bool) (v : LoopVars) (s : AgentState σ) : Bool :=
  !v.escalated && s.runtime.mode = .flash &&
    ((v.iteration = 0 && byError) || flashEscalationThreshold ≤ v.iteration + 1)

/-- The state after `_maybe_escalate`. -/
def afterEscalation (byError : Bool) (v : LoopVars) (s : AgentState σ) : AgentState σ :=
  if escalates byError v s then noted .escalated { s with runtime := escalated s.runtime } else s

/-- The variables after a pass that consulted `_maybe_escalate`. -/
def nextPass (byError : Bool) (v : LoopVars) (s : AgentState σ) : LoopVars :=
  { v with iteration := v.iteration + 1, escalated := v.escalated || escalates byError v s }

/-- The evidence the loop keeps of an answer. -/
def evidenceOf (env : LoopEnv σ) (verify : Bool) (schema : Option Json) (v : LoopVars)
    (text : PyStr) : Option Dict :=
  match schema.map fun schema => checkFinalAnswer env schema text with
  | some (.ok (.obj kvs)) => if verify then some kvs else v.evidence
  | _ => v.evidence

/-- What an answer leaves in `structured_output`. -/
def outputOf (env : LoopEnv σ) (schema : Option Json) (s : AgentState σ) (text : PyStr) : Json :=
  match schema.map fun schema => checkFinalAnswer env schema text with
  | some (.ok value) => value
  | _ => s.structuredOutput

/-- The state after the model put an answer forward and its schema was checked. -/
def putForward (env : LoopEnv σ) (schema : Option Json) (text : PyStr) (s : AgentState σ) :
    AgentState σ :=
  { noted (.proposed text) s with structuredOutput := outputOf env schema s text }

/-- The state after an answer went back to the model for its schema. -/
def sentBack (text : PyStr) (s : AgentState σ) : AgentState σ :=
  noted .structuredRetry { s with conv := s.conv.addUserMessage text }

/-- Messages were appended. -/
def Grown (c c' : ConversationState) : Prop :=
  ∃ msgs : List Message, c' = msgs.foldl ConversationState.append c

theorem Grown.append {c c' : ConversationState} (h : Grown c c') (msg : Message) :
    Grown c (c'.append msg) := by
  obtain ⟨msgs, rfl⟩ := h
  exact ⟨msgs ++ [msg], by rw [List.foldl_append]; rfl⟩

-- ============================================================================
-- The conditions
-- ============================================================================

/-- What is known of the responses of the model, whatever it is asked. -/
structure Responds (env : LoopEnv σ) (R : List Message → LLMResponse → Prop) : Prop where
  chat : ∀ system messages w response,
    (env.chat system messages w).1 = .ok response → R messages response
  stream : ∀ system messages w response,
    (env.chatStream system messages w).1 = .finished (some response) → R messages response
  empty : ∀ messages, R messages {}

theorem responds_anything (env : LoopEnv σ) : Responds env fun _ _ => True :=
  ⟨fun _ _ _ _ _ => trivial, fun _ _ _ _ _ => trivial, fun _ => trivial⟩

/-- The conditions of the rule: `H` holds at the start of a pass, `I` inside
    it, `T` after its tool calls, `A` once an answer is put forward, `Q` of the
    text a run ends with and `J` where an exception leaves it.  Between two looks the world moves along
    `ρ`. -/
structure LoopRule (env : LoopEnv σ) (ρ : σ → σ → Prop) (R : List Message → LLMResponse → Prop)
    (verify : Bool) (schema : Option Json) (H I T A : LoopVars → AgentState σ → Prop)
    (Q : PyStr → AgentState σ → Prop) (J : AgentState σ → Prop) : Prop where
  quietHead : ∀ v s s', H v s → Adds [] s s' → Moved ρ s s' → H v s'
  quiet : ∀ v s s', I v s → Adds [] s s' → Moved ρ s s' → I v s'
  left : ∀ v s, I v s → J s
  /-- At the start of a pass. -/
  exhausted : ∀ v s, H v s → v.rejectedAnswer = none →
    Q v.finalText (noted (.stopped (py "max_iterations")) s)
  unverified : ∀ v s, H v s → v.rejectedAnswer ≠ none → J s
  cancelled : ∀ v s, H v s → Q v.finalText (noted (.stopped (py "cancelled")) s)
  started : ∀ v s, H v s → (v.iteration : Int) < s.runtime.maxIterations →
    I v (noted (.turnStarted v.iteration s.runtime.mode s.runtime.maxIterations)
      (noted (.accepted (env.accepted s.world)) s))
  /-- Before the model is asked. -/
  compact : ∀ v s manager limit, I v s → (∃ w, (env.contextManager w).1 = manager) →
    I v (compacted manager limit s)
  stop : ∀ v s reason, I v s → Q v.finalText (noted (.stopped reason) s)
  outOfBudget : ∀ v s message, I v s → Q message (noted (.budgetExceeded message) s)
  asked : ∀ v s, I v s → I v (noted (.llmCall s.conv.messages) s)
  /-- After a final answer. -/
  answer : ∀ v s response, I v s → R s.conv.messages response → response.toolCalls = [] →
    A { v with
        finalText := response.content
        evidence := evidenceOf env verify schema v response.content }
      (putForward env schema response.content
        { s with conv := s.conv.addAssistant (assistantContent response) })
  quietAnswer : ∀ v s s', A v s → Adds [] s s' → Moved ρ s s' → A v s'
  retry : ∀ v s text, A v s → schema ≠ none → 0 < v.retriesLeft →
    H { v with retriesLeft := v.retriesLeft - 1, iteration := v.iteration + 1 } (sentBack text s)
  unasked : ∀ v s, A v s → env.answerVerifier = none →
    Q v.finalText (noted (.persisted s.conv) s)
  accepted : ∀ v s, A v s → env.answerVerifier ≠ none →
    Q v.finalText (noted (.persisted s.conv) (noted (.verdict v.finalText true) s))
  rejected : ∀ v s, A v s → env.answerVerifier ≠ none →
    J (noted (.verdict v.finalText false) s)
  corrected : ∀ v s text feedback, A v s → env.answerVerifier ≠ none →
    let s₁ : AgentState σ :=
      { noted (.verdict v.finalText false) s with conv := s.conv.addUserMessage text }
    H { nextPass true v s₁ with
        rejectedAnswer := some (v.finalText, feedback)
        verificationRetriesLeft := v.verificationRetriesLeft - 1 } (afterEscalation true v s₁)
  /-- After tool calls. -/
  tools : ∀ v s s' response rs as, I v s → R s.conv.messages response →
    response.toolCalls ≠ [] → rs.map Prod.fst = response.toolCalls →
    Progress env.toEnv rs as { s with conv := s.conv.addAssistant (assistantContent response) } s' →
    Moved ρ s s' → T v s'
  broken : ∀ v s s' response as, I v s → R s.conv.messages response → response.toolCalls ≠ [] →
    Grown (s.conv.addAssistant (assistantContent response)) s'.conv →
    s'.trace = s.trace ++ as → Acts env.toEnv response.toolCalls as →
    Moved ρ s s' → J s'
  stuck : ∀ v s reason, T v s →
    Q v.finalText (noted (.stopped reason) (noted (.persisted s.conv) s))
  drain : ∀ v s, T v s → I v (drained env (noted (.persisted s.conv) s))
  next : ∀ v s byError, I v s → H (nextPass byError v s) (afterEscalation byError v s)

-- ============================================================================
-- Specifications of the parts
-- ============================================================================

/-- `n` bounds the iteration cap, also when an escalation raises it. -/
def Capped (n : Nat) (s : AgentState σ) : Prop := s.runtime.maxIterations.toNat ≤ n ∧ 50 ≤ n

/-- Escalation raises the cap at most to the cap of MAX. -/
theorem escalated_cap (r : Runtime) {n : Nat} (h : r.maxIterations.toNat ≤ n ∧ 50 ≤ n) :
    (escalated r).maxIterations.toNat ≤ n := by
  unfold escalated
  dsimp only
  split
  · have : (modeMaxIterations .max).toNat = 50 := rfl
    omega
  · exact h.1

theorem Capped.afterEscalation {n : Nat} {s : AgentState σ} (h : Capped n s) (byError : Bool)
    (v : LoopVars) : Capped n (afterEscalation byError v s) := by
  unfold Agent.afterEscalation
  split
  · exact ⟨escalated_cap s.runtime h, h.2⟩
  · exact h

theorem maybeEscalate_spec (byError : Bool) (v : LoopVars) (s : AgentState σ) :
    Wp (maybeEscalate v.iteration byError v.escalated)
      (fun esc s' => esc = (v.escalated || escalates byError v s) ∧
        s' = afterEscalation byError v s)
      (fun _ _ => False) s := by
  unfold maybeEscalate
  rw [Lib.wp_bind, Lib.wp_get, Lib.wp_ite, Lib.wp_ite]
  refine ⟨fun hskip => ?_, fun hflash => ⟨fun hcond => ?_, fun hcond => ?_⟩⟩
  · have hno : escalates byError v s = false := by
      unfold escalates
      rcases Bool.or_eq_true _ _ |>.mp hskip with he | he
      · simp [he]
      · have hmode : s.runtime.mode ≠ .flash := by simpa using he
        simp [hmode]
    unfold afterEscalation
    rw [hno]
    exact ⟨(Bool.or_false _).symm, rfl⟩
  · have hyes : escalates byError v s = true := by
      unfold escalates
      simp only [Bool.or_eq_true, decide_eq_true_eq, not_or, ne_eq, Bool.not_eq_true,
        Decidable.not_not] at hflash
      rw [hflash.1, hflash.2]
      simpa using hcond
    unfold afterEscalation
    rw [hyes]
    exact ⟨(Bool.or_true _).symm, rfl⟩
  · have hno : escalates byError v s = false := by
      unfold escalates
      simp only [Bool.not_eq_true] at hcond
      rw [hcond, Bool.and_false]
    have halready : v.escalated = false := by
      simp only [Bool.or_eq_true, not_or, Bool.not_eq_true] at hflash
      exact hflash.1
    unfold afterEscalation
    rw [hno, halready]
    exact ⟨rfl, rfl⟩

/-- What the check of an answer leaves, and that asking again uses up a retry. -/
theorem checkStructured_spec (env : LoopEnv σ) (verify : Bool) (schema : Json) (v : LoopVars)
    (text : PyStr) (s : AgentState σ) :
    Wp (checkStructured env verify schema v text)
      (fun checked s' => checked.1 = evidenceOf env verify (some schema) v text ∧
        let s₁ : AgentState σ := { s with structuredOutput := outputOf env (some schema) s text }
        if checked.2 then 0 < v.retriesLeft ∧ ∃ again, s' = sentBack again s₁ else s' = s₁)
      (fun _ _ => False) s := by
  unfold checkStructured evidenceOf outputOf
  rw [Option.map_some]
  cases checkFinalAnswer env schema text with
  | error problems =>
      dsimp only
      rw [Lib.wp_ite]
      refine ⟨fun hleft => ?_, fun _ => ⟨rfl, rfl⟩⟩
      rw [Lib.wp_bind, addUser, Lib.wp_modify, Lib.wp_bind, note, Lib.wp_modify, Lib.wp_pure]
      exact ⟨rfl, hleft, _, rfl⟩
  | ok value =>
      dsimp only
      rw [Lib.wp_bind, Lib.wp_modify, Lib.wp_ite]
      refine ⟨fun hproblems => ?_, fun _ => ⟨?_, rfl⟩⟩
      · have hleft := (Bool.and_eq_true _ _ ▸ hproblems).2
        rw [Lib.wp_bind, addUser, Lib.wp_modify, Lib.wp_bind, note, Lib.wp_modify, Lib.wp_pure]
        refine ⟨?_, of_decide_eq_true hleft, _, rfl⟩
        cases value <;> rfl
      · cases value <;> rfl

theorem foldl_inject (texts : List PyStr) (s : AgentState σ) :
    texts.foldl inject s =
      { s with
        conv := texts.foldl ConversationState.addUserMessage s.conv
        trace := s.trace ++ texts.map Action.injected } := by
  induction texts generalizing s with
  | nil => simp
  | cons text texts ih =>
      rw [List.foldl_cons, ih, List.foldl_cons, List.map_cons]
      simp [inject]

theorem drainInbox_spec (env : LoopEnv σ) (s : AgentState σ) :
    Wp (drainInbox env) (fun _ s' => s' = drained env s) (fun _ _ => False) s := by
  unfold drainInbox
  rw [Lib.wp_bind, ask, Lib.wp_modifyGet, Lib.wp_bind, Lib.wp_modify, Lib.wp_bind, Lib.wp_get,
    note, Lib.wp_modify, foldl_inject]
  unfold drained
  simp

theorem quiet_chat (env : LoopEnv σ) (system : Option PyStr) (messages : List Message) :
    Quiet silent True (chat env system messages) :=
  (Quiet.of_still (still_ask _)).bind fun _ => quiet_lift _

theorem quiet_reply (env : LoopEnv σ) (stream : Bool) (system : Option PyStr)
    (messages : List Message) : Quiet silent True (reply env stream system messages) := by
  refine Quiet.ite ?_ (quiet_chat env system messages)
  refine (Quiet.of_still (still_ask _)).bind fun outcome => ?_
  cases outcome with
  | notImplemented => exact quiet_chat env system messages
  | raised e => exact quiet_lift (.error e)
  | finished final => exact Quiet.pure _

/-- What the model answers is what is known of its responses. -/
theorem reply_responds {env : LoopEnv σ} {R : List Message → LLMResponse → Prop}
    (hR : Responds env R) (stream : Bool) (system : Option PyStr) (messages : List Message)
    (s : AgentState σ) :
    Wp (reply env stream system messages) (fun response _ => R messages response)
      (fun _ _ => True) s := by
  have hchat : ∀ s, Wp (chat env system messages) (fun response _ => R messages response)
      (fun _ _ => True) s := by
    intro s
    unfold chat
    rw [Lib.wp_bind]
    show Wp (lift (env.chat system messages s.world).1) _ _ _
    cases hr : (env.chat system messages s.world).1 with
    | ok response => exact hR.chat system messages s.world response hr
    | error e => exact trivial
  unfold reply
  rw [Lib.wp_ite]
  refine ⟨fun _ => ?_, fun _ => hchat s⟩
  unfold chatStream
  rw [Lib.wp_bind, ask, Lib.wp_modifyGet]
  dsimp only
  cases hr : (env.chatStream system messages s.world).1 with
  | notImplemented => exact hchat _
  | raised e => exact trivial
  | finished final =>
      cases final with
      | some response => exact hR.stream system messages s.world response hr
      | none => exact hR.empty messages

/-- A batch appends messages, however it ends. -/
theorem grown_executeToolCalls (env : Env σ) (calls : List ToolCall) (s : AgentState σ) :
    Wp (executeToolCalls env calls) (fun _ s' => Grown s.conv s'.conv)
      (fun _ s' => Grown s.conv s'.conv) s :=
  keepsCore_executeToolCalls (P := fun c _ => Grown s.conv c) (fun _ _ msg h => h.append msg)
    ⟨fun _ _ _ h => h, fun _ _ _ h => h⟩ env calls s ⟨[], rfl⟩

-- ============================================================================
-- The walk
-- ============================================================================

namespace LoopRule

variable {env : LoopEnv σ} {ρ : σ → σ → Prop} {R : List Message → LLMResponse → Prop}
  {verify : Bool} {schema : Option Json} {H I T A : LoopVars → AgentState σ → Prop}
  {Q : PyStr → AgentState σ → Prop} {J : AgentState σ → Prop}

/-- Inside a pass, with a bound on the iteration cap. -/
structure Inside (I : LoopVars → AgentState σ → Prop) (n : Nat) (v : LoopVars)
    (s : AgentState σ) : Prop where
  holds : I v s
  cap : Capped n s

/-- After a pass the run is over, or the next pass can start. -/
def Passed (H : LoopVars → AgentState σ → Prop) (Q : PyStr → AgentState σ → Prop) (n : Nat)
    (v : LoopVars) : Step → AgentState σ → Prop
  | .finished text, s => Q text s
  | .next v', s => H v' s ∧ Capped n s ∧ v'.iteration = v.iteration + 1

variable (hL : LoopRule env ρ R verify schema H I T A Q J) (hρ : env.Moves ρ)

include hL

theorem keeps_of_quiet {n : Nat} {v : LoopVars} {r : Prop} {x : M σ α} (hx : Quiet silent r x)
    (hdrift : Drifts ρ x) : Keeps (Inside I n v) J x := by
  intro s h
  apply ((hx s).and (hdrift s)).mono
  · rintro _ s' ⟨h', hw⟩
    refine ⟨hL.quiet v s s' h.holds h'.adds hw, ?_⟩
    unfold Capped
    rw [h'.adds.runtime]
    exact h.cap
  · rintro _ s' ⟨⟨-, -, h'⟩, hw⟩
    exact hL.left v s' (hL.quiet v s s' h.holds h'.adds hw)

theorem keeps_compactContext {n : Nat} {v : LoopVars} {manager : ContextManager}
    (hmanager : ∃ w, (env.contextManager w).1 = manager) (limit : Int) :
    Keeps (Inside I n v) J (compactContext manager limit : M σ PUnit) := by
  intro s h
  have hcompact := hL.compact v s manager limit h.holds hmanager
  unfold compacted at hcompact
  unfold compactContext
  rw [Lib.wp_bind, Lib.wp_get, Lib.wp_bind]
  cases hfound : manager.progressiveResult (some limit) s.conv with
  | none =>
      rw [hfound] at hcompact
      refine ⟨?_, h.cap⟩
      simpa using hcompact
  | some found =>
      rw [hfound] at hcompact
      exact ⟨hcompact, h.cap⟩

include hρ

theorem keeps_maybeCompactContext {n : Nat} {v : LoopVars} :
    Keeps (Inside I n v) J (maybeCompactContext env) := by
  intro s h
  have hmanaged : ∀ manager, (∃ w, (env.contextManager w).1 = manager) → Keeps (Inside I n v) J
      (if env.modelContextLimit ≤ 0 then
          raise ⟨py "ValueError", py "model_context_limit must be positive"⟩
        else do
          if manager.shouldCompact (← get).conv env.modelContextLimit then
            compactContext manager env.modelContextLimit
          else pure ⟨⟩ : M σ PUnit) := by
    intro manager hmanager
    refine Keeps.ite (fun s h => hL.left v s h.holds) (Keeps.get.bind fun s => ?_)
    exact Keeps.ite (hL.keeps_compactContext hmanager _) (Keeps.pure _)
  have hasked := hL.keeps_of_quiet (still_ask env.contextManager) (Drifts.ask hρ.manager) s h
  unfold maybeCompactContext
  rw [Lib.wp_bind, ask, Lib.wp_modifyGet]
  dsimp only
  cases hmanager : (env.contextManager s.world).1 with
  | noop => exact Keeps.pure _ _ hasked
  | truncate cfg => exact hmanaged _ ⟨s.world, hmanager⟩ _ hasked
  | summarizing cfg => exact hmanaged _ ⟨s.world, hmanager⟩ _ hasked

omit hρ in
/-- Leaving the loop inside a pass. -/
theorem wp_stop {n : Nat} {v : LoopVars} (reason : PyStr) {s : AgentState σ}
    (h : Inside I n v s) :
    Wp (Agent.stop reason v) (Passed H Q n v) (fun _ s' => J s') s :=
  hL.stop v s reason h.holds

omit hρ in
/-- The end of a pass that consults `_maybe_escalate`. -/
theorem wp_next {n : Nat} {v : LoopVars} (byError : Bool) {s : AgentState σ}
    (h : Inside I n v s) :
    Wp (do
        let escalated ← maybeEscalate v.iteration byError v.escalated
        pure (.next { v with iteration := v.iteration + 1, escalated := escalated }))
      (Passed H Q n v) (fun _ s' => J s') s := by
  rw [Lib.wp_bind]
  apply (maybeEscalate_spec byError v s).mono
  · rintro _ _ ⟨rfl, rfl⟩
    exact ⟨hL.next v s byError h.holds, h.cap.afterEscalation byError v, rfl⟩
  · exact fun _ _ h' => h'.elim

theorem wp_toolTurn {n : Nat} {v : LoopVars} (response : LLMResponse)
    (hcalls : response.toolCalls ≠ []) {s : AgentState σ} (h : Inside I n v s)
    (hresponse : R s.conv.messages response) :
    Wp (toolTurn env v response.toolCalls) (Passed H Q n v) (fun _ s' => J s')
      { s with conv := s.conv.addAssistant (assistantContent response) } := by
  have hbatch := ((ends_executeToolCalls env.toEnv response.toolCalls
    { s with conv := s.conv.addAssistant (assistantContent response) }).and
    (grown_executeToolCalls env.toEnv response.toolCalls _)).and
    (drifts_executeToolCalls hρ.toMoves response.toolCalls _)
  unfold toolTurn
  rw [Lib.wp_bind]
  apply hbatch.mono
  · -- the whole batch was answered
    rintro anyError s₁ ⟨⟨⟨rs, as, hrs, -, hp⟩, -⟩, hw⟩
    have h₁ : Inside T n v s₁ := by
      refine ⟨hL.tools v s s₁ response rs as h.holds hresponse hcalls hrs hp
        ⟨hw.world, hw.resuming, hw.runId, hw.course⟩, ?_⟩
      unfold Capped
      rw [hp.runtime]
      exact h.cap
    rw [Lib.wp_bind]
    show Wp _ _ _ (noted (.persisted s₁.conv) s₁)
    rw [Lib.wp_bind, Lib.wp_get]
    cases (noted (.persisted s₁.conv) s₁).stopReason with
    | some reason => exact hL.stuck v s₁ reason h₁.holds
    | none =>
        rw [Lib.wp_bind]
        apply (drainInbox_spec env (noted (.persisted s₁.conv) s₁)).mono
        · rintro _ _ rfl
          have h₃ : Inside I n v (drained env (noted (.persisted s₁.conv) s₁)) :=
            ⟨hL.drain v s₁ h₁.holds, h₁.cap⟩
          rw [Lib.wp_bind]
          apply (hL.keeps_of_quiet (still_isCancelled env.toEnv) (drifts_isCancelled hρ.toMoves)
            _ h₃).mono
          · intro cancelled s₄ h₄
            rw [Lib.wp_ite]
            exact ⟨fun _ => hL.wp_stop _ h₄, fun _ => hL.wp_next anyError h₄⟩
          · exact fun _ _ h₄ => h₄
        · exact fun _ _ h' => h'.elim
  · -- a pause or an exception leaves the run
    rintro e s₁ ⟨⟨h₁, hgrown⟩, hw⟩
    cases e with
    | raised exc =>
        obtain ⟨as, htrace, hacts⟩ := h₁
        exact hL.broken v s s₁ response as h.holds hresponse hcalls hgrown htrace
          hacts ⟨hw.world, hw.resuming, hw.runId, hw.course⟩
    | pendingConfirmation call arguments decision id =>
        obtain ⟨done, rest, kept, rs, as, kvs, s₂, hsplit, hrs, hp, -, -, -, -, htrace, -⟩ := h₁
        have hacts : Acts env.toEnv response.toolCalls as := by
          rw [hsplit, ← hrs]
          exact hp.acts.weaken (List.sublist_append_left ..)
        exact hL.broken v s s₁ response as h.holds hresponse hcalls hgrown
          (htrace.trans hp.trace) hacts ⟨hw.world, hw.resuming, hw.runId, hw.course⟩

theorem wp_acceptAnswer {n : Nat} {v : LoopVars} (text : PyStr) (htext : v.finalText = text)
    {s : AgentState σ} (h : Inside A n v s) :
    Wp (acceptAnswer env v text) (Passed H Q n v) (fun _ s' => J s') s := by
  subst htext
  unfold acceptAnswer verdictOn
  cases hverifier : env.answerVerifier with
  | none =>
      rw [Lib.wp_bind]
      exact hL.unasked v s h.holds hverifier
  | some verify =>
      have hsome : env.answerVerifier ≠ none := by simp [hverifier]
      dsimp only
      unfold verifyFinalAnswer
      rw [Lib.wp_bind, Lib.wp_bind, Lib.wp_get, Lib.wp_bind]
      apply ((still_ask _ s).and
        (Drifts.ask (hρ.verifier verify hverifier _ v.finalText s.plan) s)).mono
      · rintro outcome s₁ ⟨hadds, hw⟩
        have h₁ : Inside A n v s₁ := by
          refine ⟨hL.quietAnswer v s s₁ h.holds hadds.adds hw, ?_⟩
          unfold Capped
          rw [hadds.adds.runtime]
          exact h.cap
        rw [Lib.wp_bind, note, Lib.wp_modify, Lib.wp_pure]
        generalize outcome.decision = verdict
        obtain ⟨accepted, feedback⟩ := verdict
        cases accepted with
        | true =>
            rw [if_pos rfl, Lib.wp_bind]
            exact hL.accepted v s₁ h₁.holds hsome
        | false =>
            rw [if_neg Bool.false_ne_true, Lib.wp_ite]
            refine ⟨fun _ => hL.rejected v s₁ h₁.holds hsome, fun _ => ?_⟩
            rw [Lib.wp_bind, addUser, Lib.wp_modify, Lib.wp_bind]
            apply (maybeEscalate_spec true v _).mono
            · rintro _ _ ⟨rfl, rfl⟩
              refine ⟨hL.corrected v s₁ _ feedback h₁.holds hsome, ?_, rfl⟩
              apply Capped.afterEscalation
              exact h₁.cap
            · exact fun _ _ h' => h'.elim
      · exact fun _ _ h' => h'.1.1.elim

theorem wp_finalAnswer {n : Nat} {v : LoopVars} (response : LLMResponse)
    (hcalls : response.toolCalls = []) {s : AgentState σ} (h : Inside I n v s)
    (hresponse : R s.conv.messages response) :
    Wp (finalAnswer env verify schema v response.content) (Passed H Q n v) (fun _ s' => J s')
      { s with conv := s.conv.addAssistant (assistantContent response) } := by
  have hanswer := hL.answer v s response h.holds hresponse hcalls
  unfold finalAnswer
  rw [Lib.wp_bind, note, Lib.wp_modify]
  cases schema with
  | none => exact hL.wp_acceptAnswer hρ response.content rfl ⟨hanswer, h.cap⟩
  | some sc =>
      dsimp only
      rw [Lib.wp_bind]
      apply (checkStructured_spec env verify sc { v with finalText := response.content }
        response.content _).mono
      · rintro ⟨evidence, again⟩ s₁ ⟨hevidence, hs₁⟩
        have hkept : evidence = evidenceOf env verify (some sc) v response.content := hevidence
        subst hkept
        cases again with
        | true =>
            obtain ⟨hleft, text, rfl⟩ := hs₁
            exact ⟨hL.retry _ _ text hanswer (by simp) hleft, h.cap, rfl⟩
        | false =>
            subst hs₁
            exact hL.wp_acceptAnswer hρ response.content rfl ⟨hanswer, h.cap⟩
      · exact fun _ _ h' => h'.elim

theorem wp_modelTurn (hR : Responds env R) {n : Nat} {v : LoopVars} (stream : Bool)
    (hookResults : List HookResult) {s : AgentState σ} (h : Inside I n v s) :
    Wp (modelTurn env stream verify schema v hookResults) (Passed H Q n v) (fun _ s' => J s') s := by
  unfold modelTurn callLlm
  rw [Lib.wp_bind, Lib.wp_get, Lib.wp_bind, Lib.wp_bind, Lib.wp_get, Lib.wp_bind]
  show Wp _ _ _ (noted (.llmCall s.conv.messages) s)
  have h₁ : Inside I n v (noted (.llmCall s.conv.messages) s) := ⟨hL.asked v s h.holds, h.cap⟩
  have hmessages : (noted (.llmCall s.conv.messages) s).conv = s.conv := rfl
  generalize noted (.llmCall s.conv.messages) s = s₁ at h₁ hmessages
  simp only [Lib.wp_bind, Lib.wp_pure, ConversationState.forLlm]
  have hquiet := quiet_reply env stream
    (requestSystem s.conv.systemPrompt (systemPromptAppend s.plan hookResults)) s.conv.messages
  have hdrift := drifts_reply hρ stream
    (requestSystem s.conv.systemPrompt (systemPromptAppend s.plan hookResults)) s.conv.messages
  apply (((hL.keeps_of_quiet hquiet hdrift s₁ h₁).and (hquiet s₁)).and
    (reply_responds hR stream _ s.conv.messages s₁)).mono
  · rintro response s₂ ⟨⟨h₂, hadds⟩, hresponse⟩
    have hconv₂ : s₂.conv = s.conv := hadds.adds.conv.trans hmessages
    apply ((hL.keeps_of_quiet (still_ask _) (Drifts.ask (hρ.usage response)) s₂ h₂).and
      (still_ask (env.recordUsage response) s₂)).mono
    · rintro _ s₃ ⟨h₃, hadds₃⟩
      have hconv₃ : s₃.conv = s.conv := hadds₃.adds.conv.trans hconv₂
      apply ((hL.keeps_of_quiet (still_triggerHooks env.toEnv _) (drifts_triggerHooks hρ.toMoves _)
        s₃ h₃).and (still_triggerHooks env.toEnv _ s₃)).mono
      · rintro _ s₄ ⟨h₄, hadds₄⟩
        have hconv₄ : s₄.conv = s.conv := hadds₄.adds.conv.trans hconv₃
        rw [← hconv₄] at hresponse
        rw [Lib.wp_modify, Lib.wp_ite]
        refine ⟨fun hnone => ?_, fun hsome => ?_⟩
        · exact hL.wp_finalAnswer hρ response (List.isEmpty_iff.mp hnone) h₄ hresponse
        · refine hL.wp_toolTurn hρ response (fun hnil => hsome ?_) h₄ hresponse
          rw [hnil]
          rfl
      · exact fun _ _ h' => h'.1
    · exact fun _ _ h' => h'.1
  · exact fun _ _ h' => h'.1.1

theorem wp_turn (hR : Responds env R) {n : Nat} {v : LoopVars} (stream : Bool)
    {s : AgentState σ} (h : H v s) (hlt : (v.iteration : Int) < s.runtime.maxIterations)
    (hcap : Capped n s) :
    Wp (turn env stream verify schema v) (Passed H Q n v) (fun _ s' => J s') s := by
  unfold turn
  rw [Lib.wp_bind]
  apply ((still_isCancelled env.toEnv s).and (drifts_isCancelled hρ.toMoves s)).mono
  · rintro stop s₁ ⟨hadds, hw⟩
    have h₁ : H v s₁ := hL.quietHead v s s₁ h hadds.adds hw
    have hruntime : s₁.runtime = s.runtime := hadds.adds.runtime
    rw [Lib.wp_ite]
    refine ⟨fun _ => hL.cancelled v s₁ h₁, fun _ => ?_⟩
    rw [Lib.wp_bind, Lib.wp_get, Lib.wp_bind]
    rw [Lib.wp_get, Lib.wp_bind, note, Lib.wp_modify, Lib.wp_bind]
    show Wp _ _ _ (noted (.turnStarted v.iteration s₁.runtime.mode s₁.runtime.maxIterations)
      (noted (.accepted (env.accepted s₁.world)) s₁))
    have h₂ : Inside I n v
        (noted (.turnStarted v.iteration s₁.runtime.mode s₁.runtime.maxIterations)
          (noted (.accepted (env.accepted s₁.world)) s₁)) := by
      refine ⟨hL.started v s₁ h₁ (by rw [hruntime]; exact hlt), ?_⟩
      show s₁.runtime.maxIterations.toNat ≤ n ∧ 50 ≤ n
      rw [hruntime]
      exact hcap
    rw [Lib.wp_bind]
    apply (hL.keeps_maybeCompactContext hρ _ h₂).mono
    · intro _ s₃ h₃
      rw [Lib.wp_bind, Lib.wp_get, Lib.wp_bind]
      apply (hL.keeps_of_quiet (still_triggerHooks env.toEnv _) (drifts_triggerHooks hρ.toMoves _)
        s₃ h₃).mono
      · intro hookResults s₄ h₄
        rw [Lib.wp_bind]
        apply (hL.keeps_of_quiet (still_isCancelled env.toEnv) (drifts_isCancelled hρ.toMoves)
          s₄ h₄).mono
        · intro stop s₅ h₅
          rw [Lib.wp_ite]
          refine ⟨fun _ => hL.wp_stop _ h₅, fun _ => ?_⟩
          rw [Lib.wp_bind]
          apply (hL.keeps_of_quiet (still_ask _) (Drifts.ask hρ.budget) s₅ h₅).mono
          · intro budget s₆ h₆
            cases budget with
            | some message => exact hL.outOfBudget v s₆ message h₆.holds
            | none => exact hL.wp_modelTurn hρ hR stream hookResults h₆
          · exact fun _ _ h' => h'
        · exact fun _ _ h' => h'
      · exact fun _ _ h' => h'
    · exact fun _ _ h' => h'
  · exact fun _ _ h' => h'.1.1.elim

/-- The loop, with fuel that is enough: it ends with a text and `Q` of it, or
    an exception leaves `J`. -/
theorem runLoop (hR : Responds env R) (stream : Bool) {n : Nat} (fuel : Nat) (v : LoopVars)
    (hfuel : n + 1 ≤ v.iteration + fuel) {s : AgentState σ} (h : H v s) (hcap : Capped n s)
    (hv : v.iteration ≤ n) :
    Wp (Agent.runLoop env stream verify schema fuel v)
      (fun final s' => ∃ text, final = some text ∧ Q text s') (fun _ s' => J s') s := by
  induction fuel generalizing v s with
  | zero => omega
  | succ fuel ih =>
      unfold Agent.runLoop
      rw [Lib.wp_bind, Lib.wp_get, Lib.wp_ite]
      refine ⟨fun hlt => ?_, fun _ => ?_⟩
      · rw [Lib.wp_bind]
        apply (hL.wp_turn hρ hR stream h hlt hcap).mono
        · intro st s₁ h₁
          cases st with
          | finished text => exact ⟨text, rfl, h₁⟩
          | next v' =>
              obtain ⟨hhead, hcap', hiter⟩ := h₁
              have hbelow := hcap.1
              exact ih v' (by omega) hhead hcap' (by omega)
        · exact fun _ _ h' => h'
      · cases hrejected : v.rejectedAnswer with
        | some answer => exact hL.unverified v s h (by simp [hrejected])
        | none => exact ⟨_, rfl, hL.exhausted v s h hrejected⟩

end LoopRule

end Agent
end KineticSdk
