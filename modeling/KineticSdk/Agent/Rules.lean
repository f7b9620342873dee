/-
  KineticSdk.Agent.Rules

  Rules for what holds along a run.

  `run` wraps the loop in code that is the same whatever is proved about the
  loop: what goes before it appends the user's turn and starts the run, and
  what goes after it shows the answer to the hooks and to memory.  `RunRule`
  adds one condition for each of these steps to the conditions on the loop.

  `TurnRule` is for properties of the conversation and the trace that hold
  between two turns.  `RunInvariant` is for those that every single update
  keeps; they hold after any number of runs and confirmations.
-/

import KineticSdk.Agent.LoopRule
import Mathlib.Data.List.Induction

namespace KineticSdk
namespace Agent

open Py Tool Security Conversation Replay Context
open Lib (Wp Keeps)

variable {σ : Type}

-- ============================================================================
-- What a computation leaves
-- ============================================================================

/-- The state a computation leaves, however it ends. -/
def stateAfter {α : Type} (x : M σ α) (s : AgentState σ) : AgentState σ :=
  match x s with
  | .ok _ s' => s'
  | .error _ s' => s'

theorem Wp.stateAfter {α : Type} {x : M σ α} {I : AgentState σ → Prop} {s : AgentState σ}
    (h : Wp x (fun _ s' => I s') (fun _ s' => I s') s) : I (stateAfter x s) := by
  unfold Wp at h
  unfold Agent.stateAfter
  cases hx : x s <;> rw [hx] at h <;> exact h

-- ============================================================================
-- Around the loop
-- ============================================================================

/-- Whether a run asks for evidence in its answer. -/
def verifies (env : LoopEnv σ) (args : RunArgs) : Bool := args.verify.getD env.verificationRequired

/-- The schema a run checks its answer against. -/
def schemaOf (env : LoopEnv σ) (args : RunArgs) : Option Json :=
  if verifies env args && args.outputSchema.isNone then some verificationSchema
  else args.outputSchema

/-- The variables a run enters its loop with. -/
def startVars (env : LoopEnv σ) (args : RunArgs) : LoopVars :=
  { retriesLeft := args.structuredRetries.getD 2
    verificationRetriesLeft := env.maxVerificationRetries }

/-- The conditions of the rule: `B` holds until the run has its id, `F` until
    it is routed and `C` from there to the loop, the others as in `LoopRule`.
    A run that resumes a checkpoint gets no id and is not routed. -/
structure RunRule (env : LoopEnv σ) (ρ : σ → σ → Prop) (R : List Message → LLMResponse → Prop)
    (args : RunArgs) (resuming : Bool) (B F C : AgentState σ → Prop)
    (H I T A : LoopVars → AgentState σ → Prop)
    (Q : PyStr → AgentState σ → Prop) (J : AgentState σ → Prop) : Prop where
  quiet : ∀ s s', B s → Adds [] s s' → Moved ρ s s' → B s'
  left : ∀ s, B s → J s
  failed : ∀ s s', J s → Adds [] s s' → Moved ρ s s' → J s'
  user : ∀ s text, B s → B { s with conv := s.conv.addUserMessage text }
  fresh : ∀ s runId, B s → F { s with cancelled := false, stopReason := none, runId := runId }
  quietFresh : ∀ s s', F s → Adds [] s s' → Moved ρ s s' → F s'
  routed : ∀ s answer, F s →
    C { noted (.classified answer s.runtime.stickyMax) s with runtime := route answer s.runtime }
  resumed : resuming = true → ∀ s, B s → C s
  quietReady : ∀ s s', C s → Adds [] s s' → Moved ρ s s' → C s'
  plan : ∀ s plan, C s → C (setPlan plan s)
  enter : ∀ s, C s → H (startVars env args) s
  loop : LoopRule env ρ R (verifies env args) (schemaOf env args) H I T A Q J

namespace RunRule

variable {env : LoopEnv σ} {ρ : σ → σ → Prop} {R : List Message → LLMResponse → Prop}
  {args : RunArgs} {resuming : Bool} {B F C : AgentState σ → Prop}
  {H I T A : LoopVars → AgentState σ → Prop}
  {Q : PyStr → AgentState σ → Prop} {J : AgentState σ → Prop} {α : Type}

/-- What a run leaves when it returns: the loop has ended with the text, and
    what came after it is hidden from every caller. -/
def Ended (ρ : σ → σ → Prop) (Q : PyStr → AgentState σ → Prop) (final : Option PyStr)
    (s : AgentState σ) : Prop :=
  ∃ text s₁, final = some text ∧ Q text s₁ ∧ Adds [] s₁ s ∧ ρ s₁.world s.world ∧
    s.resuming = false

theorem keeps_of_still {X : AgentState σ → Prop} {x : M σ α}
    (hquiet : ∀ s s', X s → Adds [] s s' → Moved ρ s s' → X s') (hx : Still x)
    (hdrift : Drifts ρ x) : Keeps X J x := by
  intro s h
  apply ((hx s).and (hdrift s)).mono
  · exact fun _ s' h' => hquiet s s' h h'.1.adds h'.2
  · exact fun _ _ h' => h'.1.1.elim

variable (hB : RunRule env ρ R args resuming B F C H I T A Q J)

include hB

theorem keeps_of_quiet {r : Prop} {x : M σ α} (hx : Quiet silent r x) (hdrift : Drifts ρ x) :
    Keeps B J x := by
  intro s h
  apply ((hx s).and (hdrift s)).mono
  · exact fun _ s' h' => hB.quiet s s' h h'.1.adds h'.2
  · exact fun _ s' h' => hB.left s' (hB.quiet s s' h h'.1.2.2.adds h'.2)

theorem keeps_addUser (text : PyStr) : Keeps B J (addUser text : M σ PUnit) :=
  fun s h => hB.user s text h

theorem keeps_addUserTurn (userMessage : Option PyStr) (schema : Option Json) :
    Keeps B J (addUserTurn userMessage schema : M σ PUnit) := by
  unfold addUserTurn
  cases composeUser userMessage schema with
  | none => exact Keeps.pure _
  | some text => exact hB.keeps_addUser text

variable (hρ : env.Moves ρ)

include hρ

theorem keeps_recallMemory (userMessage : Option PyStr) :
    Keeps B J (recallMemory env userMessage) := by
  unfold recallMemory
  cases hmemory : env.memory with
  | none => exact Keeps.pure _
  | some lookup =>
      cases userMessage with
      | none => exact Keeps.pure _
      | some query =>
          refine (hB.keeps_of_quiet (still_ask _)
            (Drifts.ask (hρ.memory lookup hmemory query))).bind fun recalled => ?_
          split
          · exact hB.keeps_addUser _
          · exact Keeps.pure _

theorem keeps_createPlan (task : PyStr) : Keeps C J (createPlan env task) := by
  unfold createPlan
  cases hplanner : env.planner with
  | none => exact Keeps.pure _
  | some create =>
      exact keeps_of_still hB.quietReady (still_ask (create task))
        (Drifts.ask (hρ.planner create hplanner task))

/-- A run that does not resume a checkpoint is routed before its loop. -/
theorem wp_startRun (userMessage : Option PyStr) {s : AgentState σ} (h : B s) :
    Wp (startRun env userMessage) (fun _ s' => C s') (fun _ s' => J s') s := by
  have hfresh : ∀ {α : Type} {x : M σ α}, Still x → Drifts ρ x → Keeps F J x :=
    fun hx hdrift => keeps_of_still hB.quietFresh hx hdrift
  unfold startRun
  rw [Lib.wp_bind]
  apply (keeps_of_still (J := J) hB.quiet (still_ask _) (Drifts.ask hρ.runId) s h).mono
  · intro runId s₁ h₁
    rw [Lib.wp_bind, Lib.wp_modify, Lib.wp_bind]
    apply (hfresh (still_triggerHooks _ _) (drifts_triggerHooks hρ.toMoves _) _
      (hB.fresh s₁ runId h₁)).mono
    · intro _ s₂ h₂
      rw [Lib.wp_bind, Lib.wp_get, Lib.wp_bind]
      apply (hfresh (still_ask _) (Drifts.ask (hρ.classifier _)) s₂ h₂).mono
      · intro answer s₃ h₃
        rw [Lib.wp_bind, Lib.wp_get, Lib.wp_bind, note, Lib.wp_modify, Lib.wp_bind, Lib.wp_modify,
          Lib.wp_bind]
        apply (hB.keeps_createPlan hρ _ _ (hB.routed s₃ answer h₃)).mono
        · exact fun plan s₄ h₄ => hB.plan s₄ plan h₄
        · exact fun _ _ h' => h'
      · exact fun _ _ h' => h'
    · exact fun _ _ h' => h'
  · exact fun _ _ h' => h'

/-- The guard around the loop only shows an exception to the hooks. -/
theorem wp_guardedLoop (hR : Responds env R) {s : AgentState σ} (h : C s) :
    Wp (guardedLoop env args (verifies env args) (schemaOf env args))
      (fun final s' => ∃ text, final = some text ∧ Q text s') (fun _ s' => J s') s := by
  have hfuel : max s.runtime.maxIterations.toNat 50 + 1
      ≤ (startVars env args).iteration + loopFuel s.runtime.maxIterations := by
    show _ ≤ 0 + loopFuel _
    unfold loopFuel
    omega
  unfold guardedLoop
  rw [Lib.wp_bind, Lib.wp_get, Lib.wp_tryCatch]
  apply (hB.loop.runLoop hρ hR args.stream _ (startVars env args) hfuel (hB.enter s h)
    ⟨le_max_left .., le_max_right ..⟩ (Nat.zero_le _)).mono
  · exact fun _ _ h₁ => h₁
  · intro e s₁ h₁
    cases e with
    | pendingConfirmation call arguments decision id => exact h₁
    | raised exc =>
        simp only [Lib.wp_bind]
        apply ((still_triggerHooks env.toEnv (.onError exc.text) s₁).and
          (drifts_triggerHooks hρ.toMoves (.onError exc.text) s₁)).mono
        · exact fun _ s₂ h₂ => hB.failed s₁ s₂ h₁ h₂.1.adds h₂.2
        · exact fun _ _ h' => h'.1.1.elim

omit hB in
/-- What comes after the loop. -/
theorem wp_afterLoop {text : PyStr} {s : AgentState σ} (h : Q text s) :
    Wp (do
        modify fun s => { s with resuming := false }
        let _ ← triggerHooks env.toEnv (.afterRun ((some text).getD []))
        ask (env.remember (args.userMessage.getD []) ((some text).getD []))
        pure (some text) : M σ (Option PyStr)) (Ended ρ Q) (fun _ s' => J s') s := by
  rw [Lib.wp_bind, Lib.wp_modify, Lib.wp_bind]
  apply ((still_triggerHooks env.toEnv _ _).and (drifts_triggerHooks hρ.toMoves _ _)).mono
  · rintro _ s₁ ⟨h₁, hw₁⟩
    rw [Lib.wp_bind]
    apply ((still_ask _ s₁).and (Drifts.ask (hρ.remember _ _) s₁)).mono
    · rintro _ s₂ ⟨h₂, hw₂⟩
      have ha := h₁.adds.trans h₂.adds
      have hw := Moved.trans hρ.toMoves hw₁ hw₂
      exact ⟨text, s, rfl, h, ⟨ha.conv, ha.runtime, ha.store, ha.runId, ha.output, ha.trace⟩,
        hw.world, hw.resuming⟩
    · exact fun _ _ h' => h'.1.1.elim
  · exact fun _ _ h' => h'.1.1.elim

/-- A run that returns has ended its loop with `Q`; one that raises leaves `J`. -/
theorem run (hR : Responds env R) {s : AgentState σ}
    (hresuming : (s.resuming && args.userMessage.isNone) = resuming)
    (h : B { s with structuredOutput := .null }) :
    Wp (Agent.run env args) (Ended ρ Q) (fun _ s' => J s') s := by
  unfold Agent.run
  rw [Lib.wp_bind, Lib.wp_get, Lib.wp_bind, Lib.wp_modify, Lib.wp_ite]
  refine ⟨fun _ => hB.left _ h, fun _ => ?_⟩
  rw [hresuming]
  generalize ({ s with structuredOutput := .null } : AgentState σ) = s₀ at h
  rw [Lib.wp_bind]
  apply (hB.keeps_recallMemory hρ args.userMessage s₀ h).mono
  · intro _ s₁ h₁
    rw [Lib.wp_bind]
    apply (hB.keeps_addUserTurn args.userMessage _ s₁ h₁).mono
    · intro _ s₂ h₂
      have hrest : ∀ s₃, C s₃ → Wp (do
          let final ← guardedLoop env args (verifies env args) (schemaOf env args)
          modify fun s => { s with resuming := false }
          let _ ← triggerHooks env.toEnv (.afterRun (final.getD []))
          ask (env.remember (args.userMessage.getD []) (final.getD []))
          pure final) (Ended ρ Q) (fun _ s' => J s') s₃ := by
        intro s₃ h₃
        rw [Lib.wp_bind]
        apply (hB.wp_guardedLoop hρ hR h₃).mono
        · rintro _ s₄ ⟨text, rfl, h₄⟩
          exact wp_afterLoop hρ h₄
        · exact fun _ _ h₄ => h₄
      rw [Lib.wp_ite]
      refine ⟨fun _ => ?_, fun hresume => ?_⟩
      · rw [Lib.wp_bind]
        apply (hB.wp_startRun hρ args.userMessage h₂).mono
        · exact fun _ s₃ h₃ => hrest s₃ h₃
        · exact fun _ _ h₃ => h₃
      · exact hrest s₂ (hB.resumed (by simpa using hresume) s₂ h₂)
    · exact fun _ _ h₂ => h₂
  · exact fun _ _ h₁ => h₁

end RunRule

-- ============================================================================
-- Properties that hold between turns
-- ============================================================================

/-- The actions the loop itself notes, without those that speak of the
    conversation. -/
def LoopNote : Action → Prop
  | .classified .. | .accepted _ | .injected _ | .drained _ | .turnStarted .. | .escalated
  | .structuredRetry | .proposed _ | .verdict .. | .stopped _ | .budgetExceeded _ => True
  | _ => False

/-- The actions inside a batch and around a confirmation. -/
def CallNote : Action → Prop
  | .checked .. | .audited .. | .confirmed .. | .declined .. | .approved .. | .executed .. => True
  | _ => False

/-- The actions of a batch are actions inside a batch. -/
theorem callNote_of_acts {env : Env σ} {calls : List ToolCall} {as : List Action}
    (has : Acts env calls as) : ∀ a ∈ as, CallNote a := by
  intro a ha
  obtain ⟨pre, post, rfl⟩ := List.append_of_mem ha
  have hact := has.guarded pre a post rfl
  cases a <;> first | exact hact.elim | trivial

/-- A property `K` of the conversation and the trace that holds between two
    turns, and `J` of what an exception leaves. -/
structure TurnRule (env : LoopEnv σ) (R : List Message → LLMResponse → Prop)
    (K J : ConversationState → List Action → Prop) : Prop where
  left : ∀ c t, K c t → J c t
  user : ∀ c t text, K c t → K (c.addUserMessage text) t
  note : ∀ c t a, LoopNote a → K c t → K c (t ++ [a])
  asked : ∀ c t, K c t → K c (t ++ [.llmCall c.messages])
  persist : ∀ c t, K c t → K c (t ++ [.persisted c])
  compact : ∀ c t (manager : ContextManager) limit, K c t →
    K (manager.compact limit c) (t ++ (manager.progressiveResult limit c).toList.map .summarized)
  plan : ∀ c t plan, K c t → K (planned plan c) t
  answer : ∀ c t response, K c t → R c.messages response → response.toolCalls = [] →
    K (c.addAssistant (assistantContent response)) t
  tools : ∀ c t response rs as, K c t → R c.messages response → response.toolCalls ≠ [] →
    rs.map Prod.fst = response.toolCalls → Acts env.toEnv response.toolCalls as →
    K (answered env.toEnv (c.addAssistant (assistantContent response)) rs) (t ++ as)
  broken : ∀ c c' t response as, K c t → R c.messages response → response.toolCalls ≠ [] →
    Grown (c.addAssistant (assistantContent response)) c' →
    Acts env.toEnv response.toolCalls as → J c' (t ++ as)

namespace TurnRule

variable {env : LoopEnv σ} {R : List Message → LLMResponse → Prop}
  {K J : ConversationState → List Action → Prop}

/-- The assertion about a state. -/
abbrev At (K : ConversationState → List Action → Prop) (s : AgentState σ) : Prop :=
  K s.conv s.trace

theorem at_of_adds {s s' : AgentState σ} (h : At K s) (ha : Adds [] s s') : At K s' := by
  show K s'.conv s'.trace
  rwa [ha.conv, ha.trace, List.append_nil]

variable (hK : TurnRule env R K J)

include hK

/-- Only `_maybe_escalate` notes an escalation. -/
theorem afterEscalation {s : AgentState σ} (byError : Bool) (v : LoopVars) (h : At K s) :
    At K (Agent.afterEscalation byError v s) := by
  unfold Agent.afterEscalation
  split
  · exact hK.note s.conv s.trace .escalated trivial h
  · exact h

/-- Messages of other threads, and the note that there are no more. -/
theorem drained (texts waiting : List PyStr) {c : ConversationState} {t : List Action}
    (h : K c t) : K (texts.foldl ConversationState.addUserMessage c)
      (t ++ (texts.map Action.injected ++ [.drained waiting])) := by
  induction texts generalizing c t with
  | nil => exact hK.note c t (.drained waiting) trivial h
  | cons text texts ih =>
      have hstep := ih (hK.note _ t (.injected text) trivial (hK.user c t text h))
      rw [List.append_assoc] at hstep
      exact hstep

theorem loopRule (verify : Bool) (schema : Option Json) :
    LoopRule env (fun _ _ => True) R verify schema (fun _ => At K) (fun _ => At K) (fun _ => At K)
      (fun _ => At K) (fun _ => At K) (At J) where
  quietHead := fun _ _ _ h ha _ => at_of_adds h ha
  quiet := fun _ _ _ h ha _ => at_of_adds h ha
  quietAnswer := fun _ _ _ h ha _ => at_of_adds h ha
  left := fun _ s h => hK.left s.conv s.trace h
  exhausted := fun _ s h _ => hK.note s.conv s.trace _ trivial h
  unverified := fun _ s h _ => hK.left s.conv s.trace h
  cancelled := fun _ s h => hK.note s.conv s.trace _ trivial h
  started := fun v s h _ => hK.note s.conv _
    (.turnStarted v.iteration s.runtime.mode s.runtime.maxIterations) trivial
    (hK.note s.conv s.trace (.accepted (env.accepted s.world)) trivial h)
  compact := fun _ s manager limit h _ => hK.compact s.conv s.trace manager (some limit) h
  stop := fun _ s _ h => hK.note s.conv s.trace _ trivial h
  outOfBudget := fun _ s _ h => hK.note s.conv s.trace _ trivial h
  asked := fun _ s h => hK.asked s.conv s.trace h
  answer := fun _ s response h hresponse hnil =>
    hK.note _ s.trace (.proposed response.content) trivial
      (hK.answer s.conv s.trace response h hresponse hnil)
  retry := fun _ s text h _ _ =>
    hK.note _ s.trace .structuredRetry trivial (hK.user s.conv s.trace text h)
  unasked := fun _ s h _ => hK.persist s.conv s.trace h
  accepted := fun v s h _ =>
    hK.persist s.conv _ (hK.note s.conv s.trace (.verdict v.finalText true) trivial h)
  rejected := fun v s h _ =>
    hK.left s.conv _ (hK.note s.conv s.trace (.verdict v.finalText false) trivial h)
  corrected := fun v s text _ h _ => hK.afterEscalation true v
    (hK.user s.conv _ text (hK.note s.conv s.trace (.verdict v.finalText false) trivial h))
  tools := by
    intro v s s' response rs as h hresponse hcalls hrs hp _
    show K s'.conv s'.trace
    rw [hp.conv, hp.trace]
    exact hK.tools s.conv s.trace response rs as h hresponse hcalls hrs (hrs ▸ hp.acts)
  broken := by
    intro v s s' response as h hresponse hcalls hgrown htrace hacts _
    show J s'.conv s'.trace
    rw [htrace]
    exact hK.broken s.conv s'.conv s.trace response as h hresponse hcalls hgrown hacts
  stuck := fun _ s reason h =>
    hK.note s.conv _ (.stopped reason) trivial (hK.persist s.conv s.trace h)
  drain := by
    intro v s h
    have hpersisted : K s.conv (s.trace ++ [.persisted s.conv]) := hK.persist s.conv s.trace h
    exact hK.drained (env.inbox s.world).1 (env.accepted (env.inbox s.world).2) hpersisted
  next := fun v _ byError h => hK.afterEscalation byError v h

theorem runRule (args : RunArgs) (resuming : Bool) :
    RunRule env (fun _ _ => True) R args resuming (At K) (At K) (At K) (fun _ => At K)
      (fun _ => At K) (fun _ => At K) (fun _ => At K) (fun _ => At K) (At J) where
  quiet := fun _ _ h ha _ => at_of_adds h ha
  quietFresh := fun _ _ h ha _ => at_of_adds h ha
  left := fun s h => hK.left s.conv s.trace h
  failed := fun _ _ h ha _ => at_of_adds h ha
  user := fun s text h => hK.user s.conv s.trace text h
  fresh := fun _ _ h => h
  routed := fun s answer h =>
    hK.note s.conv s.trace (.classified answer s.runtime.stickyMax) trivial h
  resumed := fun _ _ h => h
  quietReady := fun _ _ h ha _ => at_of_adds h ha
  plan := fun s plan h => hK.plan s.conv s.trace plan h
  enter := fun _ h => h
  loop := hK.loopRule _ _

/-- What holds between turns holds after a run that returns. -/
theorem run (hR : Responds env R) (args : RunArgs) {s : AgentState σ} (h : At K s) :
    Wp (Agent.run env args) (fun final s' => final.isSome = true ∧ At K s') (fun _ s' => At J s') s := by
  apply ((hK.runRule args _).run env.moves_anywhere hR rfl (s := s) h).mono
  · rintro _ s' ⟨text, s₁, rfl, h₁, ha, -⟩
    exact ⟨rfl, at_of_adds h₁ ha⟩
  · exact fun _ _ h' => h'

end TurnRule

-- ============================================================================
-- Invariants of the conversation and the trace
-- ============================================================================

/-- A property of the conversation and the trace that every update keeps. -/
structure RunInvariant (K : ConversationState → List Action → Prop) : Prop where
  append : ∀ c t msg, K c t → K (c.append msg) t
  note : ∀ c t a, LoopNote a ∨ CallNote a → K c t → K c (t ++ [a])
  asked : ∀ c t, K c t → K c (t ++ [.llmCall c.messages])
  persist : ∀ c t, K c t → K c (t ++ [.persisted c])
  compact : ∀ c t (manager : ContextManager) limit, K c t →
    K (manager.compact limit c) (t ++ (manager.progressiveResult limit c).toList.map .summarized)
  plan : ∀ c t plan, K c t → K (planned plan c) t

namespace RunInvariant

open TurnRule (At)

variable {K : ConversationState → List Action → Prop} {α : Type}

/-- The code keeps the invariant, also when it raises. -/
abbrev Keeping (K : ConversationState → List Action → Prop) (x : M σ α) : Prop :=
  Keeps (At K) (At K) x

theorem of_quiet {r : Prop} {x : M σ α} (hx : Quiet silent r x) : Keeping K x := by
  intro s h
  apply (hx s).mono
  · intro _ s' h'
    have hadds := h'.adds
    show K s'.conv s'.trace
    rwa [hadds.conv, hadds.trace, List.append_nil]
  · rintro e s' ⟨-, -, h'⟩
    have hadds := h'.adds
    show K s'.conv s'.trace
    rwa [hadds.conv, hadds.trace, List.append_nil]

/-- An update that touches neither the conversation nor the trace. -/
theorem of_modify {f : AgentState σ → AgentState σ} (hc : ∀ s, (f s).conv = s.conv)
    (ht : ∀ s, (f s).trace = s.trace) : Keeping K (modify f : M σ PUnit) := by
  intro s h
  show K (f s).conv (f s).trace
  rwa [hc, ht]

theorem of_raise (e : PyExc) : Keeping K (raise e : M σ α) := fun _ h => h

variable (hK : RunInvariant K)

include hK

theorem notes {c : ConversationState} {t as : List Action} (has : ∀ a ∈ as, CallNote a)
    (h : K c t) : K c (t ++ as) := by
  induction as using List.reverseRecOn with
  | nil => simpa using h
  | append_singleton as a ih =>
      rw [← List.append_assoc]
      have ha : CallNote a := has a (by simp)
      exact hK.note c (t ++ as) a (.inr ha) (ih fun b hb => has b (by simp [hb]))

theorem noting {a : Action} (ha : LoopNote a ∨ CallNote a) : Keeping K (Agent.note a : M σ PUnit) :=
  fun s h => hK.note s.conv s.trace a ha h

theorem persistState : Keeping K (Agent.persistState : M σ PUnit) :=
  fun s h => hK.persist s.conv s.trace h

theorem batch (env : Env σ) (calls : List ToolCall) : Keeping K (executeToolCalls env calls) := by
  intro s h
  have hconv : Wp (executeToolCalls env calls) (fun _ s' => K s'.conv s.trace)
      (fun _ s' => K s'.conv s.trace) s :=
    keepsCore_executeToolCalls (P := fun c _ => K c s.trace)
      (fun c _ msg hc => hK.append c s.trace msg hc) ⟨fun _ _ _ hc => hc, fun _ _ _ hc => hc⟩
      env calls s h
  apply (hconv.and (ends_executeToolCalls env calls s)).mono
  · rintro b s' ⟨hc, rs, as, -, -, hp⟩
    show K s'.conv s'.trace
    rw [hp.trace]
    exact hK.notes (callNote_of_acts hp.acts) hc
  · rintro e s' ⟨hc, hends⟩
    show K s'.conv s'.trace
    cases e with
    | raised exc =>
        obtain ⟨as, htrace, has⟩ := hends
        rw [htrace]
        exact hK.notes (callNote_of_acts has) hc
    | pendingConfirmation call arguments decision id =>
        obtain ⟨done, rest, kept, rs, as, kvs, s₁, -, -, hp, -, -, -, -, htrace, -⟩ := hends
        rw [htrace, hp.trace]
        exact hK.notes (callNote_of_acts hp.acts) hc

/-- What every update keeps holds between turns, and anywhere else. -/
theorem turnRule (env : LoopEnv σ) : TurnRule env (fun _ _ => True) K K where
  left := fun _ _ h => h
  user := fun c t _ h => hK.append c t _ h
  note := fun c t a ha h => hK.note c t a (.inl ha) h
  asked := hK.asked
  persist := hK.persist
  compact := hK.compact
  plan := hK.plan
  answer := fun c t _ h _ _ => hK.append c t _ h
  tools := by
    intro c t response rs as h _ _ _ hacts
    refine hK.notes (callNote_of_acts hacts) ?_
    exact List.foldlRecOn (motive := fun c => K c t) _ _ (hK.append c t _ h)
      fun c hc r _ => hK.append c t _ hc
  broken := by
    rintro c _ t response as h _ _ ⟨msgs, rfl⟩ hacts
    refine hK.notes (callNote_of_acts hacts) ?_
    exact List.foldlRecOn (motive := fun c => K c t) _ _ (hK.append c t _ h)
      fun c hc msg _ => hK.append c t msg hc

/-- A run keeps the invariant, however it ends. -/
theorem run (env : LoopEnv σ) (args : RunArgs) : Keeping K (Agent.run env args) := by
  intro s h
  apply ((hK.turnRule env).run (responds_anything env) args h).mono
  · exact fun _ _ h' => h'.2
  · exact fun _ _ h' => h'

/-- Resolving a confirmation keeps it as well. -/
theorem resolvePendingConfirmation (env : Env σ) (approved : Bool) :
    Keeping K (Agent.resolvePendingConfirmation env approved) := by
  have hrun : ∀ (call : ToolCall) tool arguments, Keeping K (runCall env call tool arguments) := by
    intro call tool arguments s h
    apply (quiet_runCall env call tool arguments s).mono
    · rintro _ s' ⟨as, has, hp⟩
      show K s'.conv s'.trace
      rw [has.conv, has.trace]
      refine hK.notes (fun a ha => ?_) h
      obtain ⟨_, _, -, -, rfl⟩ := hp a ha
      trivial
    · rintro e s' ⟨-, -, as, has, hp⟩
      show K s'.conv s'.trace
      rw [has.conv, has.trace]
      refine hK.notes (fun a ha => ?_) h
      obtain ⟨_, _, -, -, rfl⟩ := hp a ha
      trivial
  refine Keeps.get.bind fun s => ?_
  cases s.runtime.pendingConfirmation with
  | none => exact of_raise _
  | some p =>
      refine Keeps.bind (of_modify (fun _ => rfl) fun _ => rfl) fun _ => ?_
      refine Keeps.bind (Keeps.ite ?_ (of_quiet (quiet_denyCall env p.call _ _))) fun result => ?_
      · refine Keeps.bind (hK.noting (a := .approved ..) (.inr trivial)) fun _ => ?_
        cases env.findTool p.call.name with
        | none => exact Keeps.pure _
        | some tool => exact hrun p.call tool _
      · refine (of_quiet (still_emitToolCallFinished env p.call result)).bind fun _ => ?_
        refine Keeps.bind (Keeps.modify fun s h => hK.append s.conv s.trace _ h) fun _ => ?_
        refine Keeps.get.bind fun s => ?_
        refine Keeps.bind (of_modify (fun _ => rfl) fun _ => rfl) fun _ => ?_
        exact Keeps.ite (Keeps.bind (hK.batch env _) fun _ => hK.persistState) hK.persistState

end RunInvariant

end Agent
end KineticSdk
