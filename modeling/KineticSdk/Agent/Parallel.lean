/-
  KineticSdk.Agent.Parallel

  When a parallel batch agrees with a sequential one.

  With gating and tool results that depend on the call alone, both ways come
  down to one pass over a list of outcomes (`tally`): refused audit entries
  stop it, every other outcome is appended.  The two lists differ only where
  the synchronous agent had no slot left for a call, so they agree under every
  schedule exactly when there are slots enough, or the calls beyond them fail
  with the very text that a missing slot produces.
-/

import KineticSdk.Agent.Batch

namespace KineticSdk
namespace Agent

open Py Tool Security Conversation Replay
open Lib (Wp)

variable {σ α β : Type}

-- ============================================================================
-- What gating and recording leave alone
-- ============================================================================

/-- Neither the conversation nor the run, the slots or the cancel flag have
    changed. -/
structure Calm (s s' : AgentState σ) : Prop where
  conv : s'.conv = s.conv
  runId : s'.runId = s.runId
  held : s'.held = s.held
  cancelled : s'.cancelled = s.cancelled

theorem Calm.refl (s : AgentState σ) : Calm s s := ⟨rfl, rfl, rfl, rfl⟩

theorem Calm.trans {s s' s'' : AgentState σ} (h : Calm s s') (h' : Calm s' s'') : Calm s s'' :=
  ⟨h'.conv.trans h.conv, h'.runId.trans h.runId, h'.held.trans h.held,
    h'.cancelled.trans h.cancelled⟩

/-- `x` stays calm however it ends. -/
def Calmly (x : M σ α) : Prop := ∀ s, Wp x (fun _ s' => Calm s s') (fun _ s' => Calm s s') s

namespace Calmly

theorem pure (a : α) : Calmly (pure a : M σ α) := fun s => Calm.refl s

theorem throw (e : Exc) : Calmly (throw e : M σ α) := fun s => Calm.refl s

theorem get : Calmly (get : M σ (AgentState σ)) := fun s => Calm.refl s

theorem modify {f : AgentState σ → AgentState σ} (h : ∀ s, Calm s (f s)) :
    Calmly (modify f : M σ PUnit) := h

theorem bind {x : M σ α} {f : α → M σ β} (hx : Calmly x) (hf : ∀ a, Calmly (f a)) :
    Calmly (x >>= f) := by
  intro s
  rw [Lib.wp_bind]
  apply (hx s).mono
  · intro a s' h
    apply (hf a s').mono
    · exact fun _ _ h' => h.trans h'
    · exact fun _ _ h' => h.trans h'
  · exact fun _ _ h => h

theorem map {x : M σ α} (f : α → β) (hx : Calmly x) : Calmly (f <$> x) := by
  intro s
  rw [Lib.wp_map]
  exact hx s

theorem ite {c : Prop} [Decidable c] {x y : M σ α} (hx : Calmly x) (hy : Calmly y) :
    Calmly (if c then x else y) := by
  by_cases h : c
  · rwa [if_pos h]
  · rwa [if_neg h]

end Calmly

/-- Code that never raises and stays calm. -/
theorem Calmly.of_still {x : M σ α} (hx : Calmly x) (hstill : Still x) (s : AgentState σ) :
    Wp x (fun _ s' => Calm s s') (fun _ _ => False) s := by
  apply ((hx s).and (hstill s)).mono
  · exact fun _ _ h => h.1
  · exact fun _ _ h => h.2.1

theorem calmly_ask (act : Act σ α) : Calmly (ask act) := fun _ => ⟨rfl, rfl, rfl, rfl⟩

theorem calmly_note (a : Action) : Calmly (note a : M σ PUnit) :=
  Calmly.modify fun _ => ⟨rfl, rfl, rfl, rfl⟩

theorem calmly_lift (x : Except PyExc α) : Calmly (lift x : M σ α) := by
  cases x with
  | ok a => exact Calmly.pure a
  | error e => exact Calmly.throw _

theorem calmly_triggerHooks (env : Env σ) (ctx : HookContext) :
    Calmly (triggerHooks env ctx) := by
  unfold triggerHooks
  cases env.hooks with
  | none => exact Calmly.pure _
  | some registry => exact calmly_ask _

theorem calmly_denyCall (env : Env σ) (call : ToolCall) (reason : PyStr) (toolInput : Json) :
    Calmly (denyCall env call reason toolInput) :=
  (calmly_lift _).bind fun _ => Calmly.pure _

theorem calmly_circuitIsOpen (env : Env σ) (tool : Tool σ) : Calmly (circuitIsOpen env tool) := by
  unfold circuitIsOpen
  cases breakerThreshold tool with
  | none => exact Calmly.pure _
  | some threshold =>
      refine Calmly.get.bind fun s => ?_
      cases ((Dict.get? s.circuitBreakers tool.name).getD (0, none)).2 with
      | none => exact Calmly.pure _
      | some deadline =>
          refine (calmly_ask _).bind fun now => Calmly.ite (Calmly.pure _) ?_
          refine Calmly.bind (Calmly.modify ?_) fun _ => Calmly.pure _
          exact fun _ => ⟨rfl, rfl, rfl, rfl⟩

theorem calmly_checkTool (env : Env σ) (call : ToolCall) (arguments : Json) :
    Calmly (checkTool env call arguments) := by
  unfold checkTool
  cases env.findTool call.name with
  | none => exact Calmly.pure _
  | some tool =>
      refine (calmly_circuitIsOpen env tool).bind fun isOpen => ?_
      refine Calmly.ite (Calmly.pure _) (Calmly.ite ?_ (Calmly.pure _))
      exact (calmly_lift _).bind fun _ => Calmly.pure _

theorem calmly_saveCheckpoint : Calmly (saveCheckpoint : M σ PUnit) := by
  intro s
  apply (saveCheckpoint_spec s).mono
  · rintro _ s' ⟨hs', -⟩
    rw [hs']
    exact ⟨rfl, rfl, rfl, rfl⟩
  · rintro e s' ⟨-, hs'⟩
    rw [hs']
    exact ⟨rfl, rfl, rfl, rfl⟩

theorem calmly_pause (call : ToolCall) (arguments : Json) (decision : PermissionDecision) :
    Calmly (pause call arguments decision : M σ (Gate σ)) := by
  refine (calmly_lift _).bind fun kvs => Calmly.bind (Calmly.modify ?_) fun _ => ?_
  · exact fun _ => ⟨rfl, rfl, rfl, rfl⟩
  · exact calmly_saveCheckpoint.bind fun _ => Calmly.get.bind fun _ => Calmly.throw _

theorem calmly_confirmationStatus (env : Env σ) (call : ToolCall) (arguments : Json)
    (decision : PermissionDecision) : Calmly (confirmationStatus env call arguments decision) := by
  refine (calmly_triggerHooks env _).bind fun results => Calmly.ite ?_ (Calmly.ite ?_ ?_)
  · exact (calmly_note _).bind fun _ => Calmly.pure _
  · exact Calmly.pure _
  · exact (calmly_note _).bind fun _ => Calmly.pure _

theorem calmly_prepareCall (env : Env σ) (call : ToolCall) : Calmly (prepareCall env call) := by
  refine Calmly.bind ((calmly_triggerHooks env _).bind fun _ =>
    Calmly.ite (Calmly.pure _) (Calmly.pure _)) fun outcome => ?_
  cases outcome with
  | none => exact Calmly.pure _
  | some arguments =>
      refine (calmly_ask _).bind fun answer => (calmly_lift _).bind fun decision => ?_
      refine (calmly_note _).bind fun _ => (calmly_lift _).bind fun _ => ?_
      refine (calmly_note _).bind fun _ => Calmly.ite ?_ ?_
      · exact (calmly_denyCall env call _ arguments).map _
      refine (calmly_confirmationStatus env call arguments decision).bind fun confirmation => ?_
      refine Calmly.ite (calmly_pause call arguments decision) (Calmly.ite ?_ ?_)
      · exact (calmly_denyCall env call _ arguments).map _
      · exact calmly_checkTool env call arguments

theorem calmly_emitToolCallFinished (env : Env σ) (call : ToolCall) (result : ToolResult) :
    Calmly (emitToolCallFinished env call result) := by
  unfold emitToolCallFinished
  cases env.stuckDetector with
  | none => exact Calmly.pure _
  | some d => exact Calmly.modify fun _ => ⟨rfl, rfl, rfl, rfl⟩

-- ============================================================================
-- Batches whose outcomes depend on the calls alone
-- ============================================================================

/-- What invoking a tool returns, in a given run and world. -/
def ownResult (env : Env σ) (runId : PyStr) (w : σ) (tool : Tool σ) (arguments : Json) :
    ToolResult :=
  match toKwargs arguments with
  | .error e => .failed e.text
  | .ok kwargs =>
      let withKey :=
        if tool.acceptsIdempotencyKey && tool.needsIdempotencyKey then
          Dict.set kwargs (py "idempotency_key")
            (.str (env.idempotencyKey tool.name arguments runId))
        else kwargs
      match (tool.execute withKey w).1 with
      | .ok (.result r) => r
      | .ok (.value v) => { output := v }
      | .error e => .failed e.text

/-- A tool without timeout and circuit breaker whose answer depends on its
    arguments only. -/
structure PlainTool (env : Env σ) (tool : Tool σ) : Prop where
  noTimeout : toolTimeout env tool = none
  noBreaker : breakerThreshold tool = none
  answers : ∀ kwargs w w', (tool.execute kwargs w).1 = (tool.execute kwargs w').1

/-- The premises: nobody cancels, what the gate says is a function `gate` of the
    call, and the tools it lets through are plain. -/
structure Steady (env : Env σ) (gate : ToolCall → Gate σ) (calls : List ToolCall) : Prop where
  uncancelled : ∀ w, (env.cancelRequested w).1 = false
  gated : ∀ call ∈ calls, ∀ s, ∃ s', prepareCall env call s = .ok (gate call) s'
  plain : ∀ call ∈ calls, ∀ tool arguments, gate call = .go tool arguments → PlainTool env tool

section Steady

variable {env : Env σ} {gate : ToolCall → Gate σ} {calls : List ToolCall}

theorem Steady.tail {call : ToolCall} (h : Steady env gate (call :: calls)) :
    Steady env gate calls :=
  ⟨h.uncancelled, fun c hc => h.gated c (List.mem_cons_of_mem _ hc),
    fun c hc => h.plain c (List.mem_cons_of_mem _ hc)⟩

theorem Steady.isCancelled_spec (h : Steady env gate calls) {s : AgentState σ}
    (hs : s.cancelled = false) :
    Wp (isCancelled env) (fun stop s' => stop = false ∧ Calm s s') (fun _ _ => False) s := by
  unfold isCancelled
  rw [Lib.wp_bind, Lib.wp_get, hs, if_neg (by simp), Lib.wp_bind, ask, Lib.wp_modifyGet,
    Lib.wp_bind, Lib.wp_modify]
  have hno := h.uncancelled s.world
  exact ⟨hno, rfl, rfl, rfl, by rw [hs, hno]⟩

theorem Steady.prepareCall_spec (h : Steady env gate calls) {call : ToolCall}
    (hcall : call ∈ calls) (s : AgentState σ) :
    Wp (prepareCall env call) (fun g s' => g = gate call ∧ Calm s s') (fun _ _ => False) s := by
  obtain ⟨s', hs'⟩ := h.gated call hcall s
  have hcalm := calmly_prepareCall env call s
  unfold Wp at hcalm ⊢
  rw [hs'] at hcalm ⊢
  exact ⟨rfl, hcalm⟩

end Steady

theorem invokeTool_value {env : Env σ} {tool : Tool σ} (h : PlainTool env tool) (call : ToolCall)
    (attempt : Nat) (arguments : Json) (w : σ) (s : AgentState σ) :
    Wp (invokeTool env call attempt tool arguments)
      (fun r s' => r = ownResult env s.runId w tool arguments ∧ Calm s s')
      (fun _ _ => False) s := by
  unfold invokeTool ownResult
  cases toKwargs arguments with
  | error e => exact ⟨rfl, Calm.refl s⟩
  | ok kwargs =>
      dsimp only
      rw [Lib.wp_bind, Lib.wp_get, Lib.wp_bind, note, Lib.wp_modify, Lib.wp_bind]
      show Wp (match (tool.execute _ s.world).1 with
        | .ok (.result r) => pure r
        | .ok (.value v) => pure { output := v }
        | .error e => pure (.failed e.text)) _ _ _
      rw [h.answers _ s.world w]
      split
      · exact ⟨rfl, rfl, rfl, rfl, rfl⟩
      · exact ⟨rfl, rfl, rfl, rfl, rfl⟩
      · exact ⟨rfl, rfl, rfl, rfl, rfl⟩

theorem runTool_value {env : Env σ} {tool : Tool σ} (h : PlainTool env tool) (call : ToolCall)
    (attempt : Nat) (arguments : Json) (w : σ) (s : AgentState σ) :
    Wp (runTool env call attempt tool arguments)
      (fun r s' => r = ownResult env s.runId w tool arguments ∧ Calm s s')
      (fun _ _ => False) s := by
  unfold runTool
  rw [h.noTimeout]
  exact invokeTool_value h call attempt arguments w s

theorem retry_value {env : Env σ} {gate : ToolCall → Gate σ} {calls : List ToolCall}
    (hsteady : Steady env gate calls) {tool : Tool σ} (h : PlainTool env tool) (call : ToolCall)
    (arguments : Json) (w : σ) (result : ToolResult) {s : AgentState σ}
    (hs : s.cancelled = false)
    (hresult : result = ownResult env s.runId w tool arguments ∨
      result.failureCategory ≠ some .transient) :
    Wp (retryTransientTool env call tool arguments result)
      (fun r s' => r = result ∧ Calm s s') (fun _ _ => False) s := by
  unfold retryTransientTool
  generalize (maxTransientRetries env tool).toNat = left
  generalize 1 = attempt
  induction left generalizing attempt s with
  | zero => exact ⟨rfl, Calm.refl s⟩
  | succ left ih =>
      unfold retryLoop
      rw [Lib.wp_ite]
      refine ⟨fun hretry => ?_, fun _ => ⟨rfl, Calm.refl s⟩⟩
      -- only the tool's own result is ever transient, and it comes back the same
      have hown : result = ownResult env s.runId w tool arguments := by
        rcases hresult with hown | hpermanent
        · exact hown
        · simp [hpermanent] at hretry
      rw [Lib.wp_bind]
      apply (hsteady.isCancelled_spec hs).mono
      · rintro stop s₁ ⟨rfl, h₁⟩
        rw [if_neg (by simp), Lib.wp_bind]
        apply (runTool_value h call attempt arguments w s₁).mono
        · rintro r s₂ ⟨hr, h₂⟩
          have h₂ := h₁.trans h₂
          rw [h₁.runId, ← hown] at hr
          subst hr
          apply (ih (h₂.cancelled.trans hs) (by rw [h₂.runId]; exact hresult) (attempt + 1)).mono
          · exact fun _ s₃ h₃ => ⟨h₃.1, h₂.trans h₃.2⟩
          · exact fun _ _ h' => h'
        · exact fun _ _ h' => h'
      · exact fun _ _ h' => h'

theorem finalize_value {env : Env σ} {tool : Tool σ} (h : PlainTool env tool) (call : ToolCall)
    (arguments : Json) (result : ToolResult) (s : AgentState σ) :
    Wp (finalizeCall env call tool arguments result)
      (fun _ s' => env.auditLogger.accepts (.toolResult call.name result) = true ∧ Calm s s')
      (fun e s' => (∃ exc, e = .raised exc) ∧
        env.auditLogger.accepts (.toolResult call.name result) = false ∧ Calm s s') s := by
  unfold finalizeCall log AuditLogger.record recordCircuitResult
  rw [Lib.wp_bind, h.noBreaker]
  cases haccepts : env.auditLogger.accepts (.toolResult call.name result) with
  | false => exact ⟨⟨_, rfl⟩, rfl, Calm.refl s⟩
  | true =>
      simp only [if_true, lift, Lib.wp_pure, Lib.wp_bind]
      apply ((calmly_triggerHooks env _).of_still (still_triggerHooks env _) s).mono
      · exact fun _ s' h' => ⟨trivial, h'⟩
      · exact fun _ _ h' => h'.elim

-- ============================================================================
-- One pass over the outcomes
-- ============================================================================

/-- What a batch made of a call: short-circuited by the gate, or executed. -/
structure Outcome where
  call : ToolCall
  executed : Bool
  result : ToolResult

/-- Record outcomes in order, up to the first executed one whose audit entry is
    refused. -/
def tally (env : Env σ) : Bool → ConversationState → List Outcome →
    Option Bool × ConversationState
  | anyError, c, [] => (some anyError, c)
  | anyError, c, o :: os =>
      if o.executed && !env.auditLogger.accepts (.toolResult o.call.name o.result) then (none, c)
      else tally env (anyError || o.result.isError) (addResult env c (o.call, o.result)) os

/-- The outcome the gate and the tools give a call. -/
def ownOutcome (env : Env σ) (runId : PyStr) (w : σ) (gate : ToolCall → Gate σ)
    (call : ToolCall) : Outcome :=
  match gate call with
  | .early result => ⟨call, false, result⟩
  | .go tool arguments => ⟨call, true, ownResult env runId w tool arguments⟩

/-- Running `x` ends with this value (none when it raises) and conversation. -/
def Yields (x : M σ Bool) (target : Option Bool × ConversationState) (s : AgentState σ) : Prop :=
  Wp x (fun b s' => (some b, s'.conv) = target) (fun _ s' => (none, s'.conv) = target) s

theorem yields_executeSequential {env : Env σ} {gate : ToolCall → Gate σ} {calls : List ToolCall}
    (h : Steady env gate calls) (w : σ) (anyError : Bool) {s : AgentState σ}
    (hs : s.cancelled = false) :
    Yields (executeSequential env anyError calls)
      (tally env anyError s.conv (calls.map (ownOutcome env s.runId w gate))) s := by
  induction calls generalizing anyError s with
  | nil => exact rfl
  | cons call calls ih =>
      unfold Yields executeSequential
      rw [Lib.wp_bind]
      apply (h.isCancelled_spec hs).mono
      · rintro stop s₁ ⟨rfl, h₁⟩
        rw [if_neg (by simp), Lib.wp_bind]
        show Wp (tryCatch _ _) _ _ _
        rw [Lib.wp_tryCatch]
        unfold executeOne
        rw [Lib.wp_bind]
        apply (h.prepareCall_spec (List.mem_cons_self ..) s₁).mono
        · rintro g s₂ ⟨rfl, h₂⟩
          have h₂ := h₁.trans h₂
          -- recording a result and going on with the rest
          have hrest : ∀ result s₃, Calm s s₃ →
              Wp (emitToolCallFinished env call result >>= fun _ =>
                  recordResult env call result >>= fun _ =>
                    executeSequential env (anyError || result.isError) calls)
                (fun b s' => (some b, s'.conv) = tally env (anyError || result.isError)
                  (addResult env s.conv (call, result))
                  (calls.map (ownOutcome env s.runId w gate)))
                (fun _ s' => (none, s'.conv) = tally env (anyError || result.isError)
                  (addResult env s.conv (call, result))
                  (calls.map (ownOutcome env s.runId w gate))) s₃ := by
            intro result s₃ h₃
            rw [Lib.wp_bind]
            apply ((calmly_emitToolCallFinished env call result).of_still
              (still_emitToolCallFinished env call result) s₃).mono
            · intro _ s₄ h₄
              have h₄ := h₃.trans h₄
              have hstep := ih h.tail (anyError || result.isError)
                (s := recorded env call result s₄) (h₄.cancelled.trans hs)
              show Wp (executeSequential env (anyError || result.isError) calls) _ _
                (recorded env call result s₄)
              have hconv : (recorded env call result s₄).conv
                  = addResult env s.conv (call, result) := by
                show s₄.conv.addToolResult _ _ _ = _
                rw [h₄.conv]
                rfl
              have hrun : (recorded env call result s₄).runId = s.runId := h₄.runId
              rw [Yields, hconv, hrun] at hstep
              exact hstep
            · exact fun _ _ h' => h'.elim
          cases hgate : gate call with
          | early result =>
              have hout : ownOutcome env s.runId w gate call = ⟨call, false, result⟩ := by
                rw [ownOutcome, hgate]
              rw [List.map_cons, hout, tally, if_neg (by simp)]
              exact hrest result s₂ h₂
          | go tool arguments =>
              have hplain := h.plain call (List.mem_cons_self ..) tool arguments hgate
              have hout : ownOutcome env s.runId w gate call
                  = ⟨call, true, ownResult env s.runId w tool arguments⟩ := by
                rw [ownOutcome, hgate]
              rw [List.map_cons, hout, tally]
              unfold runCall
              simp only [Lib.wp_bind, Bool.true_and, Bool.not_eq_true']
              apply (runTool_value hplain call 0 arguments w s₂).mono
              · rintro r s₃ ⟨hr, h₃⟩
                have h₃ := h₂.trans h₃
                rw [h₂.runId] at hr
                apply (retry_value h hplain call arguments w r (h₃.cancelled.trans hs)
                  (Or.inl (by rw [h₃.runId]; exact hr))).mono
                · rintro r' s₄ ⟨hr', h₄⟩
                  have h₄ := h₃.trans h₄
                  obtain rfl := hr'.trans hr
                  apply (finalize_value hplain call arguments _ s₄).mono
                  · rintro _ s₅ ⟨haccepts, h₅⟩
                    rw [if_neg (by simp [haccepts])]
                    have hdone := hrest (ownResult env s.runId w tool arguments) s₅ (h₄.trans h₅)
                    simp only [Lib.wp_bind] at hdone
                    exact hdone
                  · rintro e s₅ ⟨⟨exc, rfl⟩, hrefused, h₅⟩
                    show (none, s₅.conv) = _
                    rw [if_pos hrefused, (h₄.trans h₅).conv]
                · exact fun _ _ h' => h'.elim
              · exact fun _ _ h' => h'.elim
        · exact fun _ _ h' => h'.elim
      · exact fun _ _ h' => h'.elim

-- ============================================================================
-- Gating, dispatching and recording
-- ============================================================================

/-- What the gate loop keeps of the gate's answer. -/
def gatedOf : Gate σ → Gated σ
  | .early result => .early result
  | .go tool arguments => .go tool arguments

theorem gateAll_value {env : Env σ} {gate : ToolCall → Gate σ} {calls : List ToolCall}
    (h : Steady env gate calls) (gated : List (ToolCall × Gated σ)) {s : AgentState σ}
    (hs : s.cancelled = false) :
    Wp (gateAll env gated calls)
      (fun gated' s' => gated' = gated ++ calls.map (fun call => (call, gatedOf (gate call))) ∧
        Calm s s')
      (fun _ _ => False) s := by
  induction calls generalizing gated s with
  | nil => exact ⟨by simp, Calm.refl s⟩
  | cons call calls ih =>
      unfold gateAll
      rw [Lib.wp_bind]
      apply (h.isCancelled_spec hs).mono
      · rintro stop s₁ ⟨rfl, h₁⟩
        rw [if_neg (by simp), Lib.wp_bind]
        show Wp (tryCatch _ _) _ _ _
        rw [Lib.wp_tryCatch]
        unfold gateOne
        rw [Lib.wp_bind]
        apply (h.prepareCall_spec (List.mem_cons_self ..) s₁).mono
        · rintro g s₂ ⟨rfl, h₂⟩
          have h₂ := h₁.trans h₂
          have hnext : Wp (gateAll env (gated ++ [(call, gatedOf (gate call))]) calls)
              (fun gated' s' => gated' = gated
                ++ (call :: calls).map (fun call => (call, gatedOf (gate call))) ∧ Calm s s')
              (fun _ _ => False) s₂ := by
            apply (ih h.tail (gated ++ [(call, gatedOf (gate call))])
              (h₂.cancelled.trans hs)).mono
            · rintro gated' s₃ ⟨rfl, h₃⟩
              exact ⟨by simp, h₂.trans h₃⟩
            · exact fun _ _ h' => h'
          cases hgate : gate call with
          | early result =>
              rw [hgate] at hnext
              exact hnext
          | go tool arguments =>
              rw [hgate] at hnext
              exact hnext
        · exact fun _ _ h' => h'.elim
      · exact fun _ _ h' => h'

/-- The outcome of a dispatched call, before retries. -/
def dispatchedOutcome : ToolCall × Dispatched σ → Outcome
  | (call, .skipped) => ⟨call, false, skippedResult⟩
  | (call, .early result) => ⟨call, false, result⟩
  | (call, .ran _ _ result) => ⟨call, true, result⟩

/-- What dispatching makes of the calls' own outcomes when at least `free`
    slots are free: a call without a slot ends as exhausted.  With `never`, no
    slot comes back in between. -/
inductive Dispatches (never : Prop) : Nat → List Outcome → List Outcome → Prop where
  | nil {free : Nat} : Dispatches never free [] []
  | early {free : Nat} {call : ToolCall} {result : ToolResult} {os os' : List Outcome} :
      Dispatches never free os os' →
      Dispatches never free (⟨call, false, result⟩ :: os) (⟨call, false, result⟩ :: os')
  | run {free free' : Nat} {call : ToolCall} {result : ToolResult} {os os' : List Outcome} :
      free ≤ free' + 1 → (never → free = free' + 1) → Dispatches never free' os os' →
      Dispatches never free (⟨call, true, result⟩ :: os) (⟨call, true, result⟩ :: os')
  | full {call : ToolCall} {result : ToolResult} {os os' : List Outcome} :
      Dispatches never 0 os os' →
      Dispatches never 0 (⟨call, true, result⟩ :: os) (⟨call, true, capacityExhausted⟩ :: os')

/-- A dispatched call that recording can settle. -/
def Settleable (env : Env σ) (runId : PyStr) (w : σ) (entry : ToolCall × Dispatched σ) : Prop :=
  ∀ tool arguments result, entry.2 = .ran tool arguments result → PlainTool env tool ∧
    (result = ownResult env runId w tool arguments ∨ result = capacityExhausted)

/-- Slots known to be free. -/
def SlotsFree (env : Env σ) (never : Prop) (free : Nat) (s : AgentState σ) : Prop :=
  (env.kind = .async ∨ free ≤ toolSlots - s.held) ∧
    (never → env.kind = .sync ∧ free = toolSlots - s.held ∧ ∀ w, (env.slotsReleased w).1 = 0)

theorem runGated_value {env : Env σ} {tool : Tool σ} (h : PlainTool env tool) (call : ToolCall)
    (arguments : Json) (w : σ) {never : Prop} {free : Nat} {s : AgentState σ}
    (hfree : SlotsFree env never free s) :
    Wp (runGated env call tool arguments)
      (fun r s' => s'.conv = s.conv ∧ s'.runId = s.runId ∧ s'.cancelled = s.cancelled ∧
        ((r = ownResult env s.runId w tool arguments ∧ ∃ free', free ≤ free' + 1 ∧
            (never → free = free' + 1) ∧ SlotsFree env never free' s') ∨
          (r = capacityExhausted ∧ free = 0 ∧ SlotsFree env never 0 s')))
      (fun _ _ => False) s := by
  unfold runGated
  cases hkind : env.kind with
  | async =>
      apply (runTool_value h call 0 arguments w s).mono
      · rintro r s' ⟨hr, hcalm⟩
        refine ⟨hcalm.conv, hcalm.runId, hcalm.cancelled, Or.inl ⟨hr, free, by omega, ?_⟩⟩
        refine ⟨fun hnever => ?_, Or.inl hkind, fun hnever => ?_⟩
        · have := (hfree.2 hnever).1
          rw [hkind] at this
          cases this
        · have := (hfree.2 hnever).1
          rw [hkind] at this
          cases this
      · exact fun _ _ h' => h'
  | sync =>
      have hle : free ≤ toolSlots - s.held := by
        rcases hfree.1 with hasync | hle
        · rw [hkind] at hasync
          cases hasync
        · exact hle
      have hrel : never → free = toolSlots - s.held ∧ (env.slotsReleased s.world).1 = 0 :=
        fun hnever => ⟨(hfree.2 hnever).2.1, (hfree.2 hnever).2.2 s.world⟩
      have hzero : never → ∀ w, (env.slotsReleased w).1 = 0 := fun hnever => (hfree.2 hnever).2.2
      dsimp only
      unfold acquireSlot
      rw [Lib.wp_bind, Lib.wp_bind, ask, Lib.wp_modifyGet, Lib.wp_bind, Lib.wp_modify,
        Lib.wp_bind, Lib.wp_get, Lib.wp_ite]
      refine ⟨fun hslot => ?_, fun hfull => ?_⟩
      · rw [Lib.wp_bind, Lib.wp_modify, Lib.wp_pure, if_pos rfl, h.noTimeout]
        apply (invokeTool_value h call 0 arguments w _).mono
        · rintro r s' ⟨hr, hcalm⟩
          refine ⟨hcalm.conv, hcalm.runId, hcalm.cancelled, Or.inl ⟨hr, toolSlots - s'.held, ?_⟩⟩
          have hheld : s'.held = s.held - (env.slotsReleased s.world).1 + 1 := hcalm.held
          have hslot : s.held - (env.slotsReleased s.world).1 < toolSlots := hslot
          refine ⟨by omega, ?_, Or.inr (Nat.le_refl _), fun hnever => ⟨hkind, rfl, hzero hnever⟩⟩
          intro hnever
          have := hrel hnever
          omega
        · exact fun _ _ h' => h'
      · rw [Lib.wp_pure, if_neg (by simp)]
        have hfull : ¬ s.held - (env.slotsReleased s.world).1 < toolSlots := hfull
        refine ⟨rfl, rfl, rfl, Or.inr ⟨rfl, by omega, Or.inr (Nat.zero_le _), ?_⟩⟩
        intro hnever
        refine ⟨hkind, ?_, hzero hnever⟩
        show 0 = toolSlots - (s.held - (env.slotsReleased s.world).1)
        omega

theorem dispatch_value {env : Env σ} {gate : ToolCall → Gate σ} {calls : List ToolCall}
    (h : Steady env gate calls) (w : σ) {never : Prop} {free : Nat} {s : AgentState σ}
    (hfree : SlotsFree env never free s) :
    Wp (dispatch env (calls.map fun call => (call, gatedOf (gate call))))
      (fun ds s' => s'.conv = s.conv ∧ s'.runId = s.runId ∧ s'.cancelled = s.cancelled ∧
        (∀ entry ∈ ds, Settleable env s.runId w entry) ∧
        Dispatches never free (calls.map (ownOutcome env s.runId w gate))
          (ds.map dispatchedOutcome))
      (fun _ _ => False) s := by
  induction calls generalizing free s with
  | nil => exact ⟨rfl, rfl, rfl, by simp, .nil⟩
  | cons call calls ih =>
      rw [List.map_cons, List.map_cons]
      cases hgate : gate call with
      | early result =>
          have hout : ownOutcome env s.runId w gate call = ⟨call, false, result⟩ := by
            rw [ownOutcome, hgate]
          show Wp (dispatch env _ >>= _) _ _ _
          rw [Lib.wp_bind]
          apply (ih h.tail hfree).mono
          · rintro ds s' ⟨hconv, hrun, hcancelled, hsettle, hds⟩
            refine ⟨hconv, hrun, hcancelled, ?_, ?_⟩
            · intro entry hentry
              rcases List.mem_cons.mp hentry with rfl | hentry
              · intro tool arguments r heq
                cases heq
              · exact hsettle entry hentry
            · rw [hout]
              exact .early hds
          · exact fun _ _ h' => h'
      | go tool arguments =>
          have hplain := h.plain call (List.mem_cons_self ..) tool arguments hgate
          have hout : ownOutcome env s.runId w gate call
              = ⟨call, true, ownResult env s.runId w tool arguments⟩ := by
            rw [ownOutcome, hgate]
          show Wp (runGated env call tool arguments >>= _) _ _ _
          rw [Lib.wp_bind]
          apply (runGated_value hplain call arguments w hfree).mono
          · rintro r s₁ ⟨hconv₁, hrun₁, hcancelled₁, hr⟩
            -- the rest of the batch, from whatever slots are left
            have hrest : ∀ free', SlotsFree env never free' s₁ →
                (r = ownResult env s.runId w tool arguments ∨ r = capacityExhausted) →
                (∀ os', Dispatches never free' (calls.map (ownOutcome env s.runId w gate)) os' →
                  Dispatches never free (ownOutcome env s.runId w gate call
                    :: calls.map (ownOutcome env s.runId w gate)) (⟨call, true, r⟩ :: os')) →
                Wp (dispatch env (calls.map fun call => (call, gatedOf (gate call))) >>=
                    fun rest => pure ((call, .ran tool arguments r) :: rest))
                  (fun ds s' => s'.conv = s.conv ∧ s'.runId = s.runId ∧
                    s'.cancelled = s.cancelled ∧
                    (∀ entry ∈ ds, Settleable env s.runId w entry) ∧
                    Dispatches never free (ownOutcome env s.runId w gate call
                      :: calls.map (ownOutcome env s.runId w gate)) (ds.map dispatchedOutcome))
                  (fun _ _ => False) s₁ := by
              intro free' hfree' hresult hstep
              rw [Lib.wp_bind]
              apply (ih h.tail hfree').mono
              · rintro ds s' ⟨hconv, hrun, hcancelled, hsettle, hds⟩
                rw [hrun₁] at hsettle hds
                refine ⟨hconv.trans hconv₁, hrun.trans hrun₁, hcancelled.trans hcancelled₁, ?_,
                  hstep _ hds⟩
                intro entry hentry
                rcases List.mem_cons.mp hentry with rfl | hentry
                · intro tool' arguments' r' heq
                  obtain ⟨rfl, rfl, rfl⟩ := Dispatched.ran.inj heq
                  exact ⟨hplain, hresult⟩
                · exact hsettle entry hentry
              · exact fun _ _ h' => h'
            rcases hr with ⟨rfl, free', hle, hnever, hfree'⟩ | ⟨rfl, rfl, hfree'⟩
            · exact hrest free' hfree' (Or.inl rfl) fun os' hos' => by
                rw [hout]
                exact .run hle hnever hos'
            · exact hrest 0 hfree' (Or.inr rfl) fun os' hos' => by
                rw [hout]
                exact .full hos'
          · exact fun _ _ h' => h'

theorem yields_recordAll {env : Env σ} {gate : ToolCall → Gate σ} {calls : List ToolCall}
    (h : Steady env gate calls) (w : σ) (anyError : Bool) (ds : List (ToolCall × Dispatched σ))
    {s : AgentState σ} (hs : s.cancelled = false)
    (hds : ∀ entry ∈ ds, Settleable env s.runId w entry) :
    Yields (recordAll env anyError ds)
      (tally env anyError s.conv (ds.map dispatchedOutcome)) s := by
  induction ds generalizing anyError s with
  | nil => exact rfl
  | cons entry ds ih =>
      obtain ⟨call, d⟩ := entry
      -- recording a result and going on with the rest
      have hrest : ∀ result s₁, Calm s s₁ →
          Wp (recordResult env call result >>= fun _ =>
              recordAll env (anyError || result.isError) ds)
            (fun b s' => (some b, s'.conv) = tally env (anyError || result.isError)
              (addResult env s.conv (call, result)) (ds.map dispatchedOutcome))
            (fun _ s' => (none, s'.conv) = tally env (anyError || result.isError)
              (addResult env s.conv (call, result)) (ds.map dispatchedOutcome)) s₁ := by
        intro result s₁ h₁
        have hconv : (recorded env call result s₁).conv = addResult env s.conv (call, result) := by
          show s₁.conv.addToolResult _ _ _ = _
          rw [h₁.conv]
          rfl
        have hrun : (recorded env call result s₁).runId = s.runId := h₁.runId
        have hcancelled : (recorded env call result s₁).cancelled = false :=
          h₁.cancelled.trans hs
        have hstep := ih (anyError || result.isError) hcancelled
          (by rw [hrun]; exact fun e he => hds e (List.mem_cons_of_mem _ he))
        rw [Yields, hconv] at hstep
        exact hstep
      have hemit : ∀ result s₁, Calm s s₁ →
          Wp (emitToolCallFinished env call result) (fun _ s' => Calm s s') (fun _ _ => False)
            s₁ := by
        intro result s₁ h₁
        apply ((calmly_emitToolCallFinished env call result).of_still
          (still_emitToolCallFinished env call result) s₁).mono
        · exact fun _ _ h' => h₁.trans h'
        · exact fun _ _ h' => h'
      unfold Yields recordAll
      rw [List.map_cons]
      cases d with
      | skipped => exact hrest skippedResult s (Calm.refl s)
      | early result =>
          unfold settle
          rw [Lib.wp_bind, Lib.wp_bind]
          apply (hemit result s (Calm.refl s)).mono
          · exact fun _ s₁ h₁ => hrest result s₁ h₁
          · exact fun _ _ h' => h'.elim
      | ran tool arguments result =>
          obtain ⟨hplain, hresult⟩ := hds _ (List.mem_cons_self ..) tool arguments result rfl
          have hretry : result = ownResult env s.runId w tool arguments ∨
              result.failureCategory ≠ some .transient := by
            rcases hresult with hown | rfl
            · exact Or.inl hown
            · exact Or.inr (by simp [capacityExhausted, ToolResult.failed])
          have htally : tally env anyError s.conv
              (dispatchedOutcome (call, .ran tool arguments result) :: ds.map dispatchedOutcome)
              = if !env.auditLogger.accepts (.toolResult call.name result) then (none, s.conv)
                else tally env (anyError || result.isError) (addResult env s.conv (call, result))
                  (ds.map dispatchedOutcome) := rfl
          rw [htally]
          unfold settle
          simp only [Lib.wp_bind]
          apply (retry_value h hplain call arguments w result hs hretry).mono
          · rintro r s₁ ⟨rfl, h₁⟩
            apply (finalize_value hplain call arguments r s₁).mono
            · rintro _ s₂ ⟨haccepts, h₂⟩
              rw [if_neg (by simp [haccepts])]
              apply (hemit r s₂ (h₁.trans h₂)).mono
              · intro _ s₃ h₃
                have hdone := hrest r s₃ h₃
                rw [Lib.wp_bind] at hdone
                exact hdone
              · exact fun _ _ h' => h'.elim
            · rintro e s₂ ⟨-, hrefused, h₂⟩
              rw [if_pos (by simp [hrefused]), (h₁.trans h₂).conv]
          · exact fun _ _ h' => h'.elim

theorem yields_executeParallel {env : Env σ} {gate : ToolCall → Gate σ} {calls : List ToolCall}
    (h : Steady env gate calls) (w : σ) {never : Prop} {free : Nat} {s : AgentState σ}
    (hs : s.cancelled = false) (hfree : SlotsFree env never free s) :
    ∃ os, Dispatches never free (calls.map (ownOutcome env s.runId w gate)) os ∧
      Yields (executeParallel env calls) (tally env false s.conv os) s := by
  -- where the computation goes, so that its outcomes can be named
  have hrun : Wp (executeParallel env calls)
      (fun b s' => ∃ os, Dispatches never free (calls.map (ownOutcome env s.runId w gate)) os ∧
        (some b, s'.conv) = tally env false s.conv os)
      (fun _ s' => ∃ os, Dispatches never free (calls.map (ownOutcome env s.runId w gate)) os ∧
        (none, s'.conv) = tally env false s.conv os) s := by
    unfold executeParallel
    rw [Lib.wp_bind]
    apply (gateAll_value h [] hs).mono
    · rintro gated s₁ ⟨rfl, h₁⟩
      rw [List.nil_append]
      unfold dispatchAndRecord
      rw [Lib.wp_bind]
      have hfree₁ : SlotsFree env never free s₁ := by
        unfold SlotsFree
        rw [h₁.held]
        exact hfree
      apply (dispatch_value h w hfree₁).mono
      · rintro ds s₂ ⟨hconv, hrun, hcancelled, hsettle, hds⟩
        have hs₂ : s₂.cancelled = false := hcancelled.trans (h₁.cancelled.trans hs)
        rw [← hrun] at hsettle
        rw [h₁.runId] at hds
        have hrec := yields_recordAll h w false ds hs₂ hsettle
        rw [hconv, h₁.conv] at hrec
        apply Wp.mono hrec
        · exact fun b s' h' => ⟨_, hds, h'⟩
        · exact fun e s' h' => ⟨_, hds, h'⟩
      · exact fun _ _ h' => h'.elim
    · exact fun _ _ h' => h'.elim
  unfold Yields Wp at *
  cases hx : executeParallel env calls s with
  | ok b s' =>
      rw [hx] at hrun
      obtain ⟨os, hos, heq⟩ := hrun
      exact ⟨os, hos, heq⟩
  | error e s' =>
      rw [hx] at hrun
      obtain ⟨os, hos, heq⟩ := hrun
      exact ⟨os, hos, heq⟩

-- ============================================================================
-- When the outcomes agree
-- ============================================================================

/-- The audit logger takes the entry of a result. -/
def Logged (env : Env σ) (call : ToolCall) (result : ToolResult) : Prop :=
  env.auditLogger.accepts (.toolResult call.name result) = true

/-- A result that reads like that of a call without a slot. -/
def LikeExhausted (env : Env σ) (call : ToolCall) (result : ToolResult) : Prop :=
  toolOutputForState env call result = toolOutputForState env call capacityExhausted ∧
    result.isError = true

/-- There are slots for the executed calls, up to the first whose audit entry is
    refused; a call beyond the slots reads as if it had none anyway. -/
def Fits (env : Env σ) : Nat → List Outcome → Prop
  | _, [] => True
  | free, ⟨_, false, _⟩ :: os => Fits env free os
  | 0, ⟨call, true, result⟩ :: os => Logged env call capacityExhausted →
      Logged env call result ∧ LikeExhausted env call result ∧ Fits env 0 os
  | free + 1, ⟨call, true, result⟩ :: os => Logged env call result → Fits env free os

theorem logged_exhausted {env : Env σ} {call : ToolCall} {result : ToolResult}
    (h : Logged env call result) : Logged env call capacityExhausted := by
  unfold Logged AuditLogger.accepts at *
  cases hlogger : env.auditLogger with
  | inMemory => rfl
  | jsonLines =>
      rw [hlogger] at h
      have hname : Py.encodable call.name = true := by
        simp only [AuditEntry.toJson, Json.encodable, Json.encodableFields, Bool.and_eq_true] at h
        exact h.2.1.2
      have hrest : (Json.obj [(py "is_error", .bool capacityExhausted.isError),
          (py "output", redactValue capacityExhausted.output),
          (py "error", redactValue (optStr capacityExhausted.error))]).encodable = true := by
        decide
      have hkeys : (Py.encodable (py "event") && Py.encodable (py "tool_result")
          && Py.encodable (py "tool_name") && Py.encodable (py "result")) = true := by
        decide
      simp only [Bool.and_eq_true] at hkeys
      obtain ⟨⟨⟨hevent, htype⟩, htool⟩, hres⟩ := hkeys
      show Json.encodableFields _ = true
      simp only [Json.encodableFields, Bool.and_eq_true]
      exact ⟨⟨hevent, htype⟩, ⟨htool, hname⟩, ⟨hres, hrest⟩, trivial⟩

theorem Fits.succ {env : Env σ} {free : Nat} {os : List Outcome} (h : Fits env free os) :
    Fits env (free + 1) os := by
  induction os generalizing free with
  | nil => trivial
  | cons o os ih =>
      obtain ⟨call, executed, result⟩ := o
      cases executed with
      | false => exact ih (show Fits env free os from h)
      | true =>
          cases free with
          | zero => exact fun hlog => (h (logged_exhausted hlog)).2.2
          | succ free => exact fun hlog => ih (show Fits env free os from h hlog)

theorem Fits.mono {env : Env σ} {free free' : Nat} {os : List Outcome} (h : Fits env free os)
    (hle : free ≤ free') : Fits env free' os := by
  induction hle with
  | refl => exact h
  | step _ ih => exact ih.succ

/-- Slots for all are slots enough. -/
theorem fits_of_length (env : Env σ) {free : Nat} {os : List Outcome} (h : os.length ≤ free) :
    Fits env free os := by
  induction os generalizing free with
  | nil => trivial
  | cons o os ih =>
      obtain ⟨call, executed, result⟩ := o
      rw [List.length_cons] at h
      cases executed with
      | false =>
          show Fits env free os
          exact ih (by omega)
      | true =>
          cases free with
          | zero => omega
          | succ free =>
              intro _
              exact ih (by omega)

theorem tally_executed (env : Env σ) (anyError : Bool) (c : ConversationState) (call : ToolCall)
    (result : ToolResult) (os : List Outcome) :
    (Logged env call result → tally env anyError c (⟨call, true, result⟩ :: os)
      = tally env (anyError || result.isError) (addResult env c (call, result)) os) ∧
    (¬ Logged env call result → tally env anyError c (⟨call, true, result⟩ :: os) = (none, c)) := by
  constructor
  · intro hlog
    rw [tally, if_neg]
    rw [Logged] at hlog
    simp [hlog]
  · intro hrefused
    rw [tally, if_pos]
    rw [Logged, Bool.not_eq_true] at hrefused
    simp [hrefused]

theorem addResult_likeExhausted {env : Env σ} {call : ToolCall} {result : ToolResult}
    (h : LikeExhausted env call result) (c : ConversationState) :
    addResult env c (call, result) = addResult env c (call, capacityExhausted) := by
  have herr : capacityExhausted.isError = true := by decide
  unfold addResult
  rw [h.1, h.2, herr]

/-- Where the slots fit, dispatching changes nothing. -/
theorem tally_eq_of_fits {env : Env σ} {never : Prop} {free : Nat} {os os' : List Outcome}
    (h : Dispatches never free os os') (hfits : Fits env free os) (anyError : Bool)
    (c : ConversationState) : tally env anyError c os = tally env anyError c os' := by
  induction h generalizing anyError c with
  | nil => rfl
  | early _ ih => exact ih hfits _ _
  | @run free free' call result os os' hle _ _ ih =>
      by_cases hlog : Logged env call result
      · rw [(tally_executed env anyError c call result os).1 hlog,
          (tally_executed env anyError c call result os').1 hlog]
        apply ih
        cases free with
        | zero => exact (hfits (logged_exhausted hlog)).2.2.mono (Nat.zero_le _)
        | succ free => exact (hfits hlog).mono (by omega)
      · rw [(tally_executed env anyError c call result os).2 hlog,
          (tally_executed env anyError c call result os').2 hlog]
  | @full call result os os' _ ih =>
      by_cases hlog : Logged env call capacityExhausted
      · obtain ⟨hown, hlike, hrest⟩ := hfits hlog
        have herr : capacityExhausted.isError = true := by decide
        rw [(tally_executed env anyError c call result os).1 hown,
          (tally_executed env anyError c call capacityExhausted os').1 hlog,
          addResult_likeExhausted hlike, hlike.2, herr]
        exact ih hrest _ _
      · rw [(tally_executed env anyError c call result os).2 fun h => hlog (logged_exhausted h),
          (tally_executed env anyError c call capacityExhausted os').2 hlog]

/-- Without a cap a tally only appends. -/
theorem prefix_tally (env : Env σ) (anyError : Bool) {c : ConversationState}
    (h : c.maxMessages = none) (os : List Outcome) :
    c.messages <+: (tally env anyError c os).2.messages := by
  induction os generalizing anyError c with
  | nil => exact List.prefix_refl _
  | cons o os ih =>
      rw [tally]
      split
      · exact List.prefix_refl _
      · have hadd : addResult env c (o.call, o.result)
            = { c with messages := c.messages ++ [resultMessage env (o.call, o.result)] } :=
          ConversationState.append_uncapped h _
        refine List.IsPrefix.trans ?_ (ih _ (by rw [hadd]; exact h))
        rw [hadd]
        exact List.prefix_append ..

theorem resultMessage_inj {env : Env σ} {call : ToolCall} {r r' : ToolResult}
    (h : resultMessage env (call, r) = resultMessage env (call, r')) :
    toolOutputForState env call r = toolOutputForState env call r' ∧ r.isError = r'.isError := by
  have hblock : toolOutputForState env call r = toolOutputForState env call r' ∧
      (if r.isError = true then [(py "is_error", Json.bool true)] else [])
        = if r'.isError = true then [(py "is_error", Json.bool true)] else [] := by
    unfold resultMessage toolResultMessage toolResultBlock at h
    simpa using h
  refine ⟨hblock.1, ?_⟩
  have hflag := hblock.2
  cases hr : r.isError <;> cases hr' : r'.isError <;> simp [hr, hr'] at hflag ⊢

/-- Where dispatching changes nothing of what an empty history gets, and no slot
    came back, the slots fit. -/
theorem fits_of_tally_eq {env : Env σ} {free : Nat} {os os' : List Outcome}
    (h : Dispatches True free os os') {anyError : Bool} {c : ConversationState}
    (hc : c.maxMessages = none)
    (heq : (tally env anyError c os).2.messages = (tally env anyError c os').2.messages) :
    Fits env free os := by
  induction h generalizing anyError c with
  | nil => trivial
  | @early free call result os os' _ ih =>
      refine ih (c := addResult env c (call, result)) ?_ heq
      rw [show addResult env c (call, result) = _ from ConversationState.append_uncapped hc _]
      exact hc
  | @run free free' call result os os' _ hnever _ ih =>
      obtain rfl := hnever trivial
      intro hlog
      rw [(tally_executed env anyError c call result os).1 hlog,
        (tally_executed env anyError c call result os').1 hlog] at heq
      refine ih (c := addResult env c (call, result)) ?_ heq
      rw [show addResult env c (call, result) = _ from ConversationState.append_uncapped hc _]
      exact hc
  | @full call result os os' _ ih =>
      intro hlog
      have hadd : ∀ r, addResult env c (call, r)
          = { c with messages := c.messages ++ [resultMessage env (call, r)] } :=
        fun r => ConversationState.append_uncapped hc _
      have hcap : ∀ r, (addResult env c (call, r)).maxMessages = none := by
        intro r
        rw [hadd]
        exact hc
      have hmessages : ∀ r, (addResult env c (call, r)).messages
          = c.messages ++ [resultMessage env (call, r)] := fun r => by rw [hadd]
      rw [(tally_executed env anyError c call capacityExhausted os').1 hlog] at heq
      have hfront := prefix_tally env (anyError || capacityExhausted.isError)
        (hcap capacityExhausted) os'
      by_cases hown : Logged env call result
      · rw [(tally_executed env anyError c call result os).1 hown] at heq
        have hfront' := prefix_tally env (anyError || result.isError) (hcap result) os
        rw [heq] at hfront'
        -- both histories go on with the result of this call
        have hmsg : c.messages ++ [resultMessage env (call, result)]
            = c.messages ++ [resultMessage env (call, capacityExhausted)] := by
          rw [hmessages] at hfront hfront'
          exact List.prefix_of_prefix_length_le hfront' hfront (by simp) |>.eq_of_length (by simp)
        obtain ⟨hout, herr⟩ := resultMessage_inj (List.cons.inj (List.append_cancel_left hmsg)).1
        have hexh : capacityExhausted.isError = true := by decide
        have hlike : LikeExhausted env call result := ⟨hout, herr.trans hexh⟩
        rw [herr, addResult_likeExhausted hlike] at heq
        exact ⟨hown, hlike, ih (hcap capacityExhausted) heq⟩
      · rw [(tally_executed env anyError c call result os).2 hown] at heq
        rw [← heq, hmessages] at hfront
        have hlen : (c.messages ++ [_]).length ≤ c.messages.length := hfront.length_le
        rw [List.length_append, List.length_singleton] at hlen
        omega

/-- What a caller sees of a batch: whether a call failed (none when the batch
    raised), and the messages. -/
def batchOutcome : EStateM.Result Exc (AgentState σ) Bool → Option Bool × List Message
  | .ok b s => (some b, s.conv.messages)
  | .error _ s => (none, s.conv.messages)

theorem Yields.batchOutcome {x : M σ Bool} {target : Option Bool × ConversationState}
    {s : AgentState σ} (h : Yields x target s) :
    batchOutcome (x s) = (target.1, target.2.messages) := by
  unfold Yields Wp at h
  cases hx : x s with
  | ok b s' =>
      rw [hx] at h
      rw [← h]
      rfl
  | error e s' =>
      rw [hx] at h
      rw [← h]
      rfl

/-- The environment with parallel execution on or off, and slots that come back
    as `schedule` says. -/
def Env.scheduled (env : Env σ) (parallel : Bool) (schedule : Act σ Nat) : Env σ :=
  { env with parallelToolExecution := parallel, slotsReleased := schedule }

theorem Steady.scheduled {env : Env σ} {gate : ToolCall → Gate σ} {calls : List ToolCall}
    (h : Steady env gate calls) (parallel : Bool) (schedule : Act σ Nat) :
    Steady (env.scheduled parallel schedule) gate calls :=
  ⟨h.uncancelled, h.gated, fun call hcall tool arguments hgate =>
    ⟨(h.plain call hcall tool arguments hgate).noTimeout,
      (h.plain call hcall tool arguments hgate).noBreaker,
      (h.plain call hcall tool arguments hgate).answers⟩⟩

theorem tally_scheduled (env : Env σ) (parallel : Bool) (schedule : Act σ Nat) (anyError : Bool)
    (c : ConversationState) (os : List Outcome) :
    tally (env.scheduled parallel schedule) anyError c os = tally env anyError c os := by
  induction os generalizing anyError c with
  | nil => rfl
  | cons o os ih =>
      rw [tally, tally]
      split
      · rw [if_pos (by assumption)]
      · rw [if_neg (by assumption), ih]
        rfl

/-- The batch runs the same in parallel and one call after the other, from any
    conversation and whenever slots come back. -/
def ParallelAgrees (env : Env σ) (calls : List ToolCall) (s : AgentState σ) : Prop :=
  ∀ (schedule : Act σ Nat) (conv : ConversationState),
    batchOutcome (executeToolCalls (env.scheduled true schedule) calls { s with conv := conv })
      = batchOutcome
          (executeToolCalls (env.scheduled false schedule) calls { s with conv := conv })

section Agreement

variable {env : Env σ} {gate : ToolCall → Gate σ} {calls : List ToolCall}

theorem batchOutcome_sequential (h : Steady env gate calls) (schedule : Act σ Nat)
    (parallel : Bool) {s : AgentState σ} (hs : s.cancelled = false) :
    batchOutcome (executeSequential (env.scheduled parallel schedule) false calls s)
      = ((tally env false s.conv (calls.map (ownOutcome env s.runId s.world gate))).1,
        (tally env false s.conv (calls.map (ownOutcome env s.runId s.world gate))).2.messages) := by
  have hy := yields_executeSequential (h.scheduled parallel schedule) s.world false hs
  rw [tally_scheduled] at hy
  exact hy.batchOutcome

theorem executeToolCalls_sequential (schedule : Act σ Nat) :
    executeToolCalls (env.scheduled false schedule) calls
      = executeSequential (env.scheduled false schedule) false calls := rfl

theorem executeToolCalls_parallel (schedule : Act σ Nat) (h : 1 < calls.length) :
    executeToolCalls (env.scheduled true schedule) calls
      = executeParallel (env.scheduled true schedule) calls := by
  unfold executeToolCalls
  rw [if_pos]
  simp [Env.scheduled, h]

/-- One call alone is never run side by side. -/
theorem parallelAgrees_of_single (h : Steady env gate calls) {s : AgentState σ}
    (hs : s.cancelled = false) (hlen : ¬ 1 < calls.length) : ParallelAgrees env calls s := by
  intro schedule conv
  have hs' : ({ s with conv := conv } : AgentState σ).cancelled = false := hs
  have hseq : executeToolCalls (env.scheduled true schedule) calls
      = executeSequential (env.scheduled true schedule) false calls := by
    unfold executeToolCalls
    rw [if_neg]
    simp [hlen]
  rw [hseq, executeToolCalls_sequential, batchOutcome_sequential h schedule true hs',
    batchOutcome_sequential h schedule false hs']

theorem parallelAgrees_of_fits (h : Steady env gate calls) {s : AgentState σ}
    (hs : s.cancelled = false) {free : Nat}
    (hfree : env.kind = .async ∨ free ≤ toolSlots - s.held)
    (hfits : Fits env free (calls.map (ownOutcome env s.runId s.world gate))) :
    ParallelAgrees env calls s := by
  by_cases hlen : 1 < calls.length
  · intro schedule conv
    have hs' : ({ s with conv := conv } : AgentState σ).cancelled = false := hs
    have hslots : SlotsFree (env.scheduled true schedule) False free { s with conv := conv } :=
      ⟨hfree, False.elim⟩
    obtain ⟨os, hos, hy⟩ :=
      yields_executeParallel (h.scheduled true schedule) s.world hs' hslots
    rw [tally_scheduled] at hy
    rw [executeToolCalls_sequential, batchOutcome_sequential h schedule false hs',
      executeToolCalls_parallel schedule hlen, hy.batchOutcome]
    have heq : tally env false conv (calls.map (ownOutcome env s.runId s.world gate))
        = tally env false conv os := tally_eq_of_fits hos hfits false conv
    exact congrArg (fun t => (t.1, t.2.messages)) heq.symm
  · exact parallelAgrees_of_single h hs hlen

/-- A parallel batch agrees with the sequential one under every schedule if and
    only if the agent is asynchronous, there is one call at most, or the slots
    that are free at the start fit the calls. -/
theorem parallel_agrees_iff (h : Steady env gate calls) (s : AgentState σ)
    (hs : s.cancelled = false) :
    ParallelAgrees env calls s ↔ env.kind = .async ∨ calls.length ≤ 1 ∨
      Fits env (toolSlots - s.held) (calls.map (ownOutcome env s.runId s.world gate)) := by
  constructor
  · intro hagree
    by_cases hkind : env.kind = .async
    · exact Or.inl hkind
    by_cases hlen : 1 < calls.length
    · -- the schedule that never gives a slot back, on an empty conversation
      right
      right
      have hsync : env.kind = .sync := by
        cases hk : env.kind with
        | sync => rfl
        | async => exact absurd hk hkind
      have hs' : ({ s with conv := {} } : AgentState σ).cancelled = false := hs
      have hslots : SlotsFree (env.scheduled true fun w => (0, w)) True (toolSlots - s.held)
          { s with conv := {} } := by
        refine ⟨Or.inr (Nat.le_refl _), fun _ => ⟨hsync, rfl, fun _ => rfl⟩⟩
      obtain ⟨os, hos, hy⟩ :=
        yields_executeParallel (h.scheduled true fun w => (0, w)) s.world hs' hslots
      rw [tally_scheduled] at hy
      have heq := hagree (fun w => (0, w)) {}
      rw [executeToolCalls_sequential, batchOutcome_sequential h (fun w => (0, w)) false hs',
        executeToolCalls_parallel _ hlen, hy.batchOutcome] at heq
      exact fits_of_tally_eq hos rfl (Prod.mk.inj heq).2.symm
    · exact Or.inr (Or.inl (by omega))
  · rintro (hasync | hlen | hfits)
    · exact parallelAgrees_of_fits h hs (Or.inl hasync)
        (fits_of_length env (Nat.le_of_eq (List.length_map ..)))
    · exact parallelAgrees_of_single h hs (by omega)
    · exact parallelAgrees_of_fits h hs (Or.inr (Nat.le_refl _)) hfits

end Agreement

/-- A tool that answers with its arguments. -/
def echoTool : Tool Unit where
  name := py "echo"
  parameters := .obj []
  execute := fun kwargs w => (.ok (.value (.obj kwargs)), w)

/-- A synchronous agent with that tool, whose policy allows everything. -/
def echoAgent : Env Unit where
  tools := [echoTool]
  permissionPolicy := fun _ _ w => (.ok ⟨true, py "ok", false⟩, w)
  validateToolInputs := false
  idempotencyKey := fun _ _ _ => []
  digest := fun _ => []
  cancelRequested := fun w => (false, w)
  timedOut := fun _ w => (false, w)
  slotsReleased := fun w => (0, w)
  monotonic := fun w => (0, w)

/-- A batch of that many calls. -/
def echoCalls (n : Nat) : List ToolCall :=
  (List.range n).map fun i => ⟨[97 + i], py "echo", .obj []⟩

/-- The gate lets every call through. -/
def echoGate (call : ToolCall) : Gate Unit := .go echoTool call.arguments

/-- The agent before the batch. -/
def beforeEcho : AgentState Unit where
  conv := {}
  runtime := {}
  runId := []
  world := ()

theorem steady_echo (n : Nat) : Steady echoAgent echoGate (echoCalls n) := by
  refine ⟨fun _ => rfl, ?_, ?_⟩
  · intro call hcall s
    obtain ⟨i, -, rfl⟩ := List.mem_map.mp hcall
    exact ⟨_, rfl⟩
  · intro call hcall tool arguments hgate
    obtain ⟨rfl, -⟩ := Gate.go.inj hgate
    exact ⟨rfl, rfl, fun _ _ _ => rfl⟩

/-- Two calls and eight free slots. -/
theorem two_echoes_agree : ParallelAgrees echoAgent (echoCalls 2) beforeEcho :=
  (parallel_agrees_iff (steady_echo 2) beforeEcho rfl).mpr
    (Or.inr (Or.inr (fits_of_length echoAgent (by decide))))

/-- Nine calls and eight slots: unless one comes back in time, the ninth call
    fails in parallel and succeeds in sequence. -/
theorem nine_echoes_disagree : ¬ ParallelAgrees echoAgent (echoCalls 9) beforeEcho := by
  intro hagree
  have heq := hagree (fun w => (0, w)) {}
  revert heq
  decide +kernel

end Agent
end KineticSdk
