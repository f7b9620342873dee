/-
  KineticSdk.Agent.World

  How the world moves while the agent runs.

  The agent never looks into the world: it changes only when a component is
  asked.  A relation that every component keeps to, such as "time goes on" or
  "messages arrive", is therefore kept by all agent code that asks them.  The
  inbox is left out: taking messages out of it is a step of its own.
-/

import KineticSdk.Agent.Loop
import KineticSdk.Agent.Batch

namespace KineticSdk
namespace Agent

open Py Tool Security Conversation Replay
open Lib (Wp)

variable {σ α β : Type} {ρ : σ → σ → Prop}

-- ============================================================================
-- Components
-- ============================================================================

/-- Asking the component moves the world along `ρ`. -/
def ActMoves (ρ : σ → σ → Prop) (act : Act σ α) : Prop := ∀ w, ρ w (act w).2

/-- The components that tool calls ask move the world along `ρ`. -/
structure Env.Moves (env : Env σ) (ρ : σ → σ → Prop) : Prop where
  refl : ∀ w, ρ w w
  trans : ∀ w₁ w₂ w₃, ρ w₁ w₂ → ρ w₂ w₃ → ρ w₁ w₃
  tool : ∀ tool name, env.findTool name = some tool → ∀ kwargs, ActMoves ρ (tool.execute kwargs)
  policy : ∀ name input, ActMoves ρ (env.permissionPolicy name input)
  hook : ∀ registry, env.hooks = some registry → ∀ ctx, ∀ hook ∈ registry ctx.point,
    ActMoves ρ (hook ctx)
  cancel : ActMoves ρ env.cancelRequested
  timedOut : ∀ name, ActMoves ρ (env.timedOut name)
  slots : ActMoves ρ env.slotsReleased
  clock : ActMoves ρ env.monotonic

/-- So do the components of the loop. -/
structure LoopEnv.Moves (env : LoopEnv σ) (ρ : σ → σ → Prop) : Prop extends env.toEnv.Moves ρ where
  chat : ∀ system messages, ActMoves ρ (env.chat system messages)
  stream : ∀ system messages, ActMoves ρ (env.chatStream system messages)
  classifier : ∀ task, ActMoves ρ (env.classifier task)
  manager : ActMoves ρ env.contextManager
  planner : ∀ create, env.planner = some create → ∀ task, ActMoves ρ (create task)
  verifier : ∀ verify, env.answerVerifier = some verify → ∀ task answer plan,
    ActMoves ρ (verify task answer plan)
  memory : ∀ lookup, env.memory = some lookup → ∀ query, ActMoves ρ (lookup query)
  remember : ∀ query text, ActMoves ρ (env.remember query text)
  budget : ActMoves ρ env.budgetStop
  usage : ∀ response, ActMoves ρ (env.recordUsage response)
  runId : ActMoves ρ env.newRunId

/-- Every world follows every other. -/
theorem actMoves_anywhere {α : Type} (act : Act σ α) : ActMoves (fun _ _ => True) act :=
  fun _ => trivial

theorem Env.moves_anywhere (env : Env σ) : env.Moves fun _ _ => True := by
  constructor <;> intros <;> first | exact actMoves_anywhere _ | trivial

theorem LoopEnv.moves_anywhere (env : LoopEnv σ) : env.Moves fun _ _ => True := by
  constructor
  case toMoves => exact env.toEnv.moves_anywhere
  all_goals intros; exact actMoves_anywhere _

-- ============================================================================
-- Code
-- ============================================================================

/-- The runtime fields are the same, up to those of a pause. -/
structure SameCourse (r r' : Runtime) : Prop where
  mode : r'.mode = r.mode
  stickyMax : r'.stickyMax = r.stickyMax
  maxIterations : r'.maxIterations = r.maxIterations
  override : r'.maxIterationsOverride = r.maxIterationsOverride

theorem SameCourse.refl (r : Runtime) : SameCourse r r := ⟨rfl, rfl, rfl, rfl⟩

theorem SameCourse.of_eq {r r' : Runtime} (h : r' = r) : SameCourse r r' := h ▸ refl r

theorem SameCourse.trans {r r' r'' : Runtime} (h₁ : SameCourse r r') (h₂ : SameCourse r' r'') :
    SameCourse r r'' :=
  ⟨h₂.mode.trans h₁.mode, h₂.stickyMax.trans h₁.stickyMax,
    h₂.maxIterations.trans h₁.maxIterations, h₂.override.trans h₁.override⟩

/-- The world has moved along `ρ`, and the agent is in the same run, on the
    same course, resuming a checkpoint as before. -/
structure Moved (ρ : σ → σ → Prop) (s s' : AgentState σ) : Prop where
  world : ρ s.world s'.world
  resuming : s'.resuming = s.resuming
  runId : s'.runId = s.runId
  course : SameCourse s.runtime s'.runtime

/-- The code moves the world along `ρ`, also when it raises. -/
def Drifts (ρ : σ → σ → Prop) (x : M σ α) : Prop :=
  ∀ s, Wp x (fun _ s' => Moved ρ s s') (fun _ s' => Moved ρ s s') s

section Code

variable {env : Env σ} (h : env.Moves ρ)

include h

theorem Moved.refl (s : AgentState σ) : Moved ρ s s := ⟨h.refl s.world, rfl, rfl, .refl s.runtime⟩

theorem Moved.trans {s s' s'' : AgentState σ} (h₁ : Moved ρ s s') (h₂ : Moved ρ s' s'') :
    Moved ρ s s'' :=
  ⟨h.trans _ _ _ h₁.world h₂.world, h₂.resuming.trans h₁.resuming, h₂.runId.trans h₁.runId,
    h₁.course.trans h₂.course⟩

namespace Drifts

theorem pure (a : α) : Drifts ρ (pure a : M σ α) := fun s => Moved.refl h s

theorem get : Drifts ρ (get : M σ (AgentState σ)) := fun s => Moved.refl h s

theorem throw (e : Exc) : Drifts ρ (throw e : M σ α) := fun s => Moved.refl h s

theorem modify {f : AgentState σ → AgentState σ}
    (hf : ∀ s, Moved (fun w w' => w' = w) s (f s)) : Drifts ρ (modify f : M σ PUnit) := by
  intro s
  refine ⟨?_, (hf s).resuming, (hf s).runId, (hf s).course⟩
  show ρ s.world (f s).world
  rw [(hf s).world]
  exact h.refl s.world

theorem lift (x : Except PyExc α) : Drifts ρ (lift x : M σ α) := by
  cases x with
  | ok a => exact pure h a
  | error e => exact throw h _

theorem bind {x : M σ α} {f : α → M σ β} (hx : Drifts ρ x) (hf : ∀ a, Drifts ρ (f a)) :
    Drifts ρ (x >>= f) := by
  intro s
  rw [Lib.wp_bind]
  apply (hx s).mono
  · intro a s₁ h₁
    apply (hf a s₁).mono
    · exact fun _ s₂ h₂ => Moved.trans h h₁ h₂
    · exact fun _ s₂ h₂ => Moved.trans h h₁ h₂
  · exact fun _ _ h₁ => h₁

omit h in
theorem map {x : M σ α} (f : α → β) (hx : Drifts ρ x) : Drifts ρ (f <$> x) := by
  intro s
  rw [Lib.wp_map]
  exact hx s

omit h in
theorem ite {c : Prop} [Decidable c] {x y : M σ α} (hx : Drifts ρ x) (hy : Drifts ρ y) :
    Drifts ρ (if c then x else y) := by
  by_cases hc : c
  · rwa [if_pos hc]
  · rwa [if_neg hc]

omit h in
theorem ask {act : Act σ α} (hact : ActMoves ρ act) : Drifts ρ (ask act) :=
  fun s => ⟨hact s.world, rfl, rfl, .refl s.runtime⟩

/-- A handler that only tidies up before the exception goes on. -/
theorem onPendingConfirmation {x : M σ α} {onPause : M σ PUnit} (hx : Drifts ρ x)
    (hpause : Drifts ρ onPause) : Drifts ρ (onPendingConfirmation x onPause) := by
  intro s
  show Wp (tryCatch _ _) _ _ _
  rw [Lib.wp_tryCatch]
  apply (hx s).mono
  · exact fun _ _ h₁ => h₁
  · intro e s₁ h₁
    cases e with
    | raised exc => exact h₁
    | pendingConfirmation call arguments decision id =>
        rw [Lib.wp_bind]
        apply (hpause s₁).mono
        · exact fun _ s₂ h₂ => Moved.trans h h₁ h₂
        · exact fun _ s₂ h₂ => Moved.trans h h₁ h₂

end Drifts

open Drifts (bind modify ite)

-- ============================================================================
-- Tool calls
-- ============================================================================

theorem actMoves_triggerAll (ctx : HookContext) (hooks : List (Hook σ))
    (hall : ∀ hook ∈ hooks, ActMoves ρ (hook ctx)) : ActMoves ρ (triggerAll ctx hooks) := by
  induction hooks with
  | nil => exact fun w => h.refl w
  | cons hook hooks ih =>
      intro w
      have hfirst : ρ w (hook ctx w).2 := hall hook (List.mem_cons_self ..) w
      have hrest := ih (fun x hx => hall x (List.mem_cons_of_mem _ hx)) (hook ctx w).2
      have hboth := h.trans _ _ _ hfirst hrest
      unfold triggerAll
      cases hout : (hook ctx w).1 <;> simpa [hout] using hboth

theorem drifts_note (a : Action) : Drifts ρ (note a : M σ PUnit) := modify h fun _ => ⟨rfl, rfl, rfl, .of_eq rfl⟩

theorem drifts_triggerHooks (ctx : HookContext) : Drifts ρ (triggerHooks env ctx) := by
  unfold triggerHooks
  cases hreg : env.hooks with
  | none => exact Drifts.pure h _
  | some registry => exact Drifts.ask (actMoves_triggerAll h ctx _ (h.hook registry hreg ctx))

theorem drifts_isCancelled : Drifts ρ (isCancelled env) := by
  refine bind h (Drifts.get h) fun s => ite (Drifts.pure h _) ?_
  exact bind h (Drifts.ask h.cancel) fun b => bind h (modify h fun _ => ⟨rfl, rfl, rfl, .of_eq rfl⟩) fun _ =>
    Drifts.pure h _

theorem drifts_log (entry : AuditEntry) : Drifts ρ (log env entry) := Drifts.lift h _

theorem drifts_emitToolCallFinished (call : ToolCall) (result : ToolResult) :
    Drifts ρ (emitToolCallFinished env call result) := by
  unfold emitToolCallFinished
  cases env.stuckDetector with
  | none => exact Drifts.pure h _
  | some d => exact modify h fun _ => ⟨rfl, rfl, rfl, .of_eq rfl⟩

theorem drifts_recordResult (call : ToolCall) (result : ToolResult) :
    Drifts ρ (recordResult env call result : M σ PUnit) := modify h fun _ => ⟨rfl, rfl, rfl, .of_eq rfl⟩

theorem drifts_invokeTool (call : ToolCall) (attempt : Nat) {tool : Tool σ}
    (htool : ∀ kwargs, ActMoves ρ (tool.execute kwargs)) (arguments : Json) :
    Drifts ρ (invokeTool env call attempt tool arguments) := by
  unfold invokeTool
  cases toKwargs arguments with
  | error e => exact Drifts.pure h _
  | ok kwargs =>
      refine bind h (Drifts.get h) fun s => bind h (drifts_note h _) fun _ => ?_
      refine bind h (Drifts.ask (htool _)) fun returned => ?_
      cases returned with
      | error e => exact Drifts.pure h _
      | ok returned => cases returned <;> exact Drifts.pure h _

theorem drifts_acquireSlot : Drifts ρ (acquireSlot env) := by
  refine bind h (Drifts.ask h.slots) fun released => bind h (modify h fun _ => ⟨rfl, rfl, rfl, .of_eq rfl⟩) fun _ => ?_
  refine bind h (Drifts.get h) fun s => ite ?_ (Drifts.pure h _)
  exact bind h (modify h fun _ => ⟨rfl, rfl, rfl, .of_eq rfl⟩) fun _ => Drifts.pure h _

theorem drifts_invokeWithin (call : ToolCall) (attempt : Nat) {tool : Tool σ}
    (htool : ∀ kwargs, ActMoves ρ (tool.execute kwargs)) (arguments : Json)
    (name timeout remark : PyStr) :
    Drifts ρ (invokeWithin env call attempt tool arguments name timeout remark) := by
  refine bind h (drifts_invokeTool h call attempt htool arguments) fun result => ?_
  exact bind h (Drifts.ask (h.timedOut name)) fun _ => ite (Drifts.pure h _) (Drifts.pure h _)

theorem drifts_runTool (call : ToolCall) (attempt : Nat) {tool : Tool σ}
    (htool : ∀ kwargs, ActMoves ρ (tool.execute kwargs)) (arguments : Json) :
    Drifts ρ (runTool env call attempt tool arguments) := by
  unfold runTool
  cases toolTimeout env tool with
  | none => exact drifts_invokeTool h call attempt htool arguments
  | some timeout =>
      cases env.kind with
      | async => exact drifts_invokeWithin h call attempt htool arguments _ _ _
      | sync =>
          refine bind h (drifts_acquireSlot h) fun free => ite ?_ (Drifts.pure h _)
          exact drifts_invokeWithin h call attempt htool arguments _ _ _

theorem drifts_retryLoop (call : ToolCall) {tool : Tool σ}
    (htool : ∀ kwargs, ActMoves ρ (tool.execute kwargs)) (arguments : Json) (left attempt : Nat)
    (result : ToolResult) :
    Drifts ρ (retryLoop env call tool arguments left attempt result) := by
  induction left generalizing attempt result with
  | zero => exact Drifts.pure h _
  | succ left ih =>
      refine ite ?_ (Drifts.pure h _)
      refine bind h (drifts_isCancelled h) fun stop => ite (Drifts.pure h _) ?_
      exact bind h (drifts_runTool h call attempt htool arguments) fun result => ih _ result

theorem drifts_circuitIsOpen (tool : Tool σ) : Drifts ρ (circuitIsOpen env tool) := by
  unfold circuitIsOpen
  cases breakerThreshold tool with
  | none => exact Drifts.pure h _
  | some threshold =>
      refine bind h (Drifts.get h) fun s => ?_
      cases ((Dict.get? s.circuitBreakers tool.name).getD (0, none)).2 with
      | none => exact Drifts.pure h _
      | some deadline =>
          refine bind h (Drifts.ask h.clock) fun now => ite (Drifts.pure h _) ?_
          exact bind h (modify h fun _ => ⟨rfl, rfl, rfl, .of_eq rfl⟩) fun _ => Drifts.pure h _

theorem drifts_recordCircuitResult (name : PyStr) (tool : Tool σ) (result : ToolResult) :
    Drifts ρ (recordCircuitResult env name tool result) := by
  unfold recordCircuitResult
  cases breakerThreshold tool with
  | none => exact Drifts.pure h _
  | some threshold =>
      refine ite (modify h fun _ => ⟨rfl, rfl, rfl, .of_eq rfl⟩) (bind h (Drifts.get h) fun s => ?_)
      refine bind h (ite ?_ (Drifts.pure h _)) fun deadline => modify h fun _ => ⟨rfl, rfl, rfl, .of_eq rfl⟩
      exact Drifts.map _ (Drifts.ask h.clock)

theorem drifts_finalizeCall (call : ToolCall) (tool : Tool σ) (arguments : Json)
    (result : ToolResult) : Drifts ρ (finalizeCall env call tool arguments result) := by
  refine bind h (drifts_log h _) fun _ => bind h (drifts_recordCircuitResult h _ tool result) ?_
  exact fun _ => bind h (drifts_triggerHooks h _) fun _ => Drifts.pure h _

theorem drifts_denyCall (call : ToolCall) (reason : PyStr) (toolInput : Json) :
    Drifts ρ (denyCall env call reason toolInput) :=
  bind h (drifts_log h _) fun _ => Drifts.pure h _

theorem drifts_runCall (call : ToolCall) {tool : Tool σ}
    (htool : ∀ kwargs, ActMoves ρ (tool.execute kwargs)) (arguments : Json) :
    Drifts ρ (runCall env call tool arguments) := by
  refine bind h (drifts_runTool h call 0 htool arguments) fun result => ?_
  refine bind h (drifts_retryLoop h call htool arguments _ 1 result) fun result => ?_
  exact bind h (drifts_finalizeCall h call tool arguments result) fun _ => Drifts.pure h _

-- ============================================================================
-- The gate
-- ============================================================================

theorem drifts_saveCheckpoint : Drifts ρ (saveCheckpoint : M σ PUnit) := by
  intro s
  show Wp (lift (Replay.save s.store s.runId s.conv s.runtime).2) _ _
    { s with store := (Replay.save s.store s.runId s.conv s.runtime).1 }
  apply (Drifts.lift h _ _).mono
  · exact fun _ s' h' => ⟨h'.world, h'.resuming, h'.runId, h'.course⟩
  · exact fun _ s' h' => ⟨h'.world, h'.resuming, h'.runId, h'.course⟩

theorem drifts_keepRemaining (kept : List ToolCall) :
    Drifts ρ (keepRemaining kept : M σ PUnit) :=
  bind h (modify h fun _ => ⟨rfl, rfl, rfl, ⟨rfl, rfl, rfl, rfl⟩⟩) fun _ => drifts_saveCheckpoint h

theorem drifts_pause (call : ToolCall) (arguments : Json) (decision : PermissionDecision) :
    Drifts ρ (pause call arguments decision : M σ (Gate σ)) := by
  refine bind h (Drifts.lift h _) fun kvs => ?_
  refine bind h (modify h fun _ => ⟨rfl, rfl, rfl, ⟨rfl, rfl, rfl, rfl⟩⟩) fun _ => ?_
  exact bind h (drifts_saveCheckpoint h) fun _ => bind h (Drifts.get h) fun _ => Drifts.throw h _

theorem drifts_checkTool (call : ToolCall) (arguments : Json) :
    Drifts ρ (checkTool env call arguments) := by
  unfold checkTool
  cases env.findTool call.name with
  | none => exact Drifts.pure h _
  | some tool =>
      refine bind h (drifts_circuitIsOpen h tool) fun isOpen => ite (Drifts.pure h _) ?_
      exact ite (bind h (drifts_log h _) fun _ => Drifts.pure h _) (Drifts.pure h _)

theorem drifts_prepareCall (call : ToolCall) : Drifts ρ (prepareCall env call) := by
  have hbefore : Drifts ρ (beforeToolCall env call) :=
    bind h (drifts_triggerHooks h _) fun _ => ite (Drifts.pure h _) (Drifts.pure h _)
  have hconfirm : ∀ arguments d, Drifts ρ (confirmationStatus env call arguments d) := by
    intro arguments d
    refine bind h (drifts_triggerHooks h _) fun results => ite ?_ ?_
    · exact bind h (drifts_note h _) fun _ => Drifts.pure h _
    · exact ite (Drifts.pure h _) (bind h (drifts_note h _) fun _ => Drifts.pure h _)
  have hdeny : ∀ reason arguments,
      Drifts ρ (Gate.early <$> denyCall env call reason arguments : M σ (Gate σ)) :=
    fun reason arguments => Drifts.map _ (drifts_denyCall h call reason arguments)
  refine bind h hbefore fun left => ?_
  cases left with
  | none => exact Drifts.pure h _
  | some arguments =>
      refine bind h (Drifts.ask (h.policy _ _)) fun answer => ?_
      refine bind h (Drifts.lift h _) fun d => bind h (drifts_note h _) fun _ => ?_
      refine bind h (drifts_log h _) fun _ => bind h (drifts_note h _) fun _ => ?_
      refine ite (hdeny _ _) (bind h (hconfirm arguments d) fun c => ?_)
      refine ite (drifts_pause h call arguments d) (ite (hdeny _ _) ?_)
      exact drifts_checkTool h call arguments

/-- The rest of the code may use what is known of the value. -/
theorem Drifts.bind_of {x : M σ α} {f : α → M σ β} {P : α → Prop} (hx : Drifts ρ x)
    (hP : ∀ s, Wp x (fun a _ => P a) (fun _ _ => True) s) (hf : ∀ a, P a → Drifts ρ (f a)) :
    Drifts ρ (x >>= f) := by
  intro s
  rw [Lib.wp_bind]
  apply ((hx s).and (hP s)).mono
  · rintro a s₁ ⟨h₁, ha⟩
    apply (hf a ha s₁).mono
    · exact fun _ s₂ h₂ => Moved.trans h h₁ h₂
    · exact fun _ s₂ h₂ => Moved.trans h h₁ h₂
  · exact fun _ _ h₁ => h₁.1

-- ============================================================================
-- Batches
-- ============================================================================

theorem drifts_executeOne (call : ToolCall) : Drifts ρ (executeOne env call) := by
  -- a tool the gate lets through is one of the agent's
  have hgo : ∀ s, Wp (prepareCall env call)
      (fun g _ => ∀ tool arguments, g = .go tool arguments → env.findTool call.name = some tool)
      (fun _ _ => True) s := by
    intro s
    apply (prepareCall_spec env call s).mono
    · rintro g _ ⟨as, -, -, hok⟩ tool arguments heq
      exact (hok tool arguments heq).1
    · exact fun _ _ _ => trivial
  refine Drifts.bind_of h (drifts_prepareCall h call) hgo fun g hg => ?_
  cases g with
  | early result => exact Drifts.pure h _
  | go tool arguments => exact drifts_runCall h call (h.tool tool _ (hg tool arguments rfl)) _

theorem drifts_executeSequential (anyError : Bool) (calls : List ToolCall) :
    Drifts ρ (executeSequential env anyError calls) := by
  induction calls generalizing anyError with
  | nil => exact Drifts.pure h _
  | cons call rest ih =>
      refine bind h (drifts_isCancelled h) fun stop => ite ?_ ?_
      · exact bind h (drifts_recordResult h call _) fun _ => ih true
      · refine bind h (Drifts.onPendingConfirmation h (drifts_executeOne h call)
          (drifts_keepRemaining h _)) fun result => ?_
        refine bind h (drifts_emitToolCallFinished h call result) fun _ => ?_
        exact bind h (drifts_recordResult h call result) fun _ => ih _

theorem drifts_runGated (call : ToolCall) {tool : Tool σ}
    (htool : ∀ kwargs, ActMoves ρ (tool.execute kwargs)) (arguments : Json) :
    Drifts ρ (runGated env call tool arguments) := by
  unfold runGated
  cases env.kind with
  | async => exact drifts_runTool h call 0 htool arguments
  | sync =>
      refine bind h (drifts_acquireSlot h) fun free => ite ?_ (Drifts.pure h _)
      cases toolTimeout env tool with
      | none => exact drifts_invokeTool h call 0 htool arguments
      | some timeout => exact drifts_invokeWithin h call 0 htool arguments _ _ _

theorem drifts_dispatch {as : List Action} {gated : List (ToolCall × Gated σ)}
    (hok : ∀ entry ∈ gated, GatedOk env as entry) : Drifts ρ (dispatch env gated) := by
  induction gated with
  | nil => exact Drifts.pure h _
  | cons entry gated ih =>
      have ih := ih fun e he => hok e (List.mem_cons_of_mem _ he)
      obtain ⟨call, g⟩ := entry
      cases g with
      | skipped => exact bind h ih fun _ => Drifts.pure h _
      | early result => exact bind h ih fun _ => Drifts.pure h _
      | go tool arguments =>
          have hadm : Admitted env as call tool arguments := hok _ (List.mem_cons_self ..) _ _ rfl
          refine bind h (drifts_runGated h call (h.tool tool _ hadm.1) arguments) fun result => ?_
          exact bind h ih fun _ => Drifts.pure h _

theorem drifts_recordAll {as : List Action} (anyError : Bool)
    {ds : List (ToolCall × Dispatched σ)} (hok : ∀ entry ∈ ds, DispatchedOk env as entry) :
    Drifts ρ (recordAll env anyError ds) := by
  induction ds generalizing anyError with
  | nil => exact Drifts.pure h _
  | cons entry ds ih =>
      have ih := fun b => ih b fun e he => hok e (List.mem_cons_of_mem _ he)
      obtain ⟨call, d⟩ := entry
      have hsettle : Drifts ρ (settle env call d) := by
        cases d with
        | skipped => exact Drifts.pure h _
        | early result =>
            exact bind h (drifts_emitToolCallFinished h call result) fun _ => Drifts.pure h _
        | ran tool arguments result =>
            have hadm : Admitted env as call tool arguments :=
              hok _ (List.mem_cons_self ..) _ _ _ rfl
            refine bind h (drifts_retryLoop h call (h.tool tool _ hadm.1) arguments _ 1 result)
              fun result => bind h (drifts_finalizeCall h call tool arguments result) fun _ => ?_
            exact bind h (drifts_emitToolCallFinished h call result) fun _ => Drifts.pure h _
      refine bind h hsettle fun result => ?_
      exact bind h (drifts_recordResult h call result) fun _ => ih _

theorem drifts_dispatchAndRecord {as : List Action} {gated : List (ToolCall × Gated σ)}
    (hok : ∀ entry ∈ gated, GatedOk env as entry) : Drifts ρ (dispatchAndRecord env gated) := by
  have hall : ∀ s, Wp (dispatch env gated) (fun ds _ => ∀ entry ∈ ds, DispatchedOk env as entry)
      (fun _ _ => True) s := by
    intro s
    apply (dispatch_spec env as gated hok s).mono
    · exact fun _ _ hds => hds.2.1
    · exact fun _ _ _ => trivial
  exact Drifts.bind_of h (drifts_dispatch h hok) hall fun ds hds => drifts_recordAll h false hds

theorem drifts_gateAll {as : List Action} {gated : List (ToolCall × Gated σ)}
    (hok : ∀ entry ∈ gated, GatedOk env as entry) (calls : List ToolCall) :
    Drifts ρ (gateAll env gated calls) := by
  induction calls generalizing gated as with
  | nil => exact Drifts.pure h _
  | cons call rest ih =>
      have hnext : ∀ (g : Gated σ) bs, GatedOk env bs (call, g) →
          Drifts ρ (gateAll env (gated ++ [(call, g)]) rest) := by
        intro g bs hg
        have hgrown : ∀ entry ∈ gated ++ [(call, g)], GatedOk env (as ++ bs) entry := by
          intro entry he tool arguments heq
          rcases List.mem_append.mp he with he | he
          · exact (hok entry he tool arguments heq).mono (by simp +contextual)
          · obtain rfl := List.mem_singleton.mp he
            exact (hg tool arguments heq).mono (by simp +contextual)
        exact ih hgrown
      have hgate : Drifts ρ (gateOne env call) := by
        refine bind h (drifts_prepareCall h call) fun g => ?_
        cases g with
        | early result => exact Drifts.pure h _
        | go tool arguments => exact Drifts.pure h _
      have hpause : Drifts ρ (do
          let _ ← dispatchAndRecord env gated
          keepRemaining (call :: rest) : M σ PUnit) :=
        bind h (drifts_dispatchAndRecord h hok) fun _ => drifts_keepRemaining h _
      have hone : ∀ s, Wp (onPendingConfirmation (gateOne env call) (do
          let _ ← dispatchAndRecord env gated
          keepRemaining (call :: rest)))
          (fun g _ => ∃ bs, GatedOk env bs (call, g)) (fun _ _ => True) s := by
        intro s
        show Wp (tryCatch _ _) _ _ _
        rw [Lib.wp_tryCatch]
        apply (gateOne_spec env call s).mono
        · rintro g _ ⟨bs, -, -, hg⟩
          exact ⟨bs, hg⟩
        · intro e s₁ _
          cases e with
          | raised exc => trivial
          | pendingConfirmation c arguments decision id =>
              rw [Lib.wp_bind]
              exact (hpause s₁).mono (fun _ _ _ => trivial) fun _ _ _ => trivial
      refine bind h (drifts_isCancelled h) fun stop => ite ?_ ?_
      · exact hnext .skipped [] (by simp [GatedOk])
      · refine Drifts.bind_of h (Drifts.onPendingConfirmation h hgate hpause) hone fun g hg => ?_
        obtain ⟨bs, hg⟩ := hg
        exact hnext g bs hg

/-- A batch moves the world along `ρ`, however it ends. -/
theorem drifts_executeToolCalls (calls : List ToolCall) :
    Drifts ρ (executeToolCalls env calls) := by
  unfold executeToolCalls
  split
  · have hgated : ∀ s, Wp (gateAll env [] calls)
        (fun gated _ => ∃ as, ∀ entry ∈ gated, GatedOk env as entry) (fun _ _ => True) s := by
      intro s
      apply (gateAll_spec env [] calls [] s s (Adds.refl s) (Acts.nil env) (by simp)).mono
      · rintro gated _ ⟨-, as, -, -, hok⟩
        exact ⟨as, hok⟩
      · exact fun _ _ _ => trivial
    have hnone : ∀ entry ∈ ([] : List (ToolCall × Gated σ)), GatedOk env [] entry := by simp
    refine Drifts.bind_of h (drifts_gateAll h hnone calls) hgated ?_
    exact fun gated ⟨as, hok⟩ => drifts_dispatchAndRecord h hok
  · exact drifts_executeSequential h false calls

/-- So does resolving a confirmation. -/
theorem drifts_resolvePendingConfirmation (approved : Bool) :
    Drifts ρ (resolvePendingConfirmation env approved) := by
  have hpersist : Drifts ρ (persistState : M σ PUnit) :=
    modify h fun _ => ⟨rfl, rfl, rfl, .of_eq rfl⟩
  have hverdict : ∀ p, Drifts ρ (resolveVerdict env approved p) := by
    intro p
    refine ite ?_ (drifts_denyCall h p.call _ _)
    refine bind h (drifts_note h _) fun _ => ?_
    cases hfind : env.findTool p.call.name with
    | none => exact Drifts.pure h _
    | some tool => exact drifts_runCall h p.call (h.tool tool _ hfind) _
  refine bind h (Drifts.get h) fun s => ?_
  cases s.runtime.pendingConfirmation with
  | none => exact Drifts.throw h _
  | some p =>
      refine bind h (modify h fun _ => ⟨rfl, rfl, rfl, ⟨rfl, rfl, rfl, rfl⟩⟩) fun _ => ?_
      refine bind h (hverdict p) fun result => ?_
      refine bind h (drifts_emitToolCallFinished h p.call result) fun _ => ?_
      refine bind h (drifts_recordResult h p.call result) fun _ => bind h (Drifts.get h) fun s => ?_
      refine bind h (modify h fun _ => ⟨rfl, rfl, rfl, ⟨rfl, rfl, rfl, rfl⟩⟩) fun _ => ?_
      exact ite (bind h (drifts_executeToolCalls h _) fun _ => hpersist) hpersist

end Code

-- ============================================================================
-- The components of the loop
-- ============================================================================

section Loop

variable {env : LoopEnv σ} (h : env.Moves ρ)

include h

theorem drifts_chat (system : Option PyStr) (messages : List Message) :
    Drifts ρ (chat env system messages) :=
  Drifts.bind h.toMoves (Drifts.ask (h.chat system messages)) fun _ => Drifts.lift h.toMoves _

theorem drifts_reply (stream : Bool) (system : Option PyStr) (messages : List Message) :
    Drifts ρ (reply env stream system messages) := by
  refine Drifts.ite ?_ (drifts_chat h system messages)
  refine Drifts.bind h.toMoves (Drifts.ask (h.stream system messages)) fun outcome => ?_
  cases outcome with
  | notImplemented => exact drifts_chat h system messages
  | raised e => exact Drifts.throw h.toMoves _
  | finished final => exact Drifts.pure h.toMoves _

end Loop

end Agent
end KineticSdk
