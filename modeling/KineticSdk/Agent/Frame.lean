/-
  KineticSdk.Agent.Frame

  What the steps of a tool call leave alone.

  Hooks, policies, loggers, clocks, circuit breakers and tools never touch the
  conversation, the runtime fields or the checkpoint store; all they add to the
  trace are the actions of their own call.  `Quiet p x` says this of agent code
  `x`, with `p` the actions it may add; it is closed under sequencing, so one
  line per statement of the source is enough.
-/

import KineticSdk.Agent.Execute

namespace KineticSdk
namespace Agent

open Py Tool Security Conversation Replay
open Lib (Wp)

variable {σ α β : Type}

-- ============================================================================
-- Frames
-- ============================================================================

/-- The state changed at most in its trace, by `as`, and in what no caller
    reads. -/
structure Adds (as : List Action) (s s' : AgentState σ) : Prop where
  conv : s'.conv = s.conv
  runtime : s'.runtime = s.runtime
  store : s'.store = s.store
  runId : s'.runId = s.runId
  output : s'.structuredOutput = s.structuredOutput
  trace : s'.trace = s.trace ++ as

theorem Adds.refl (s : AgentState σ) : Adds [] s s := ⟨rfl, rfl, rfl, rfl, rfl, by simp⟩

theorem Adds.trans {as bs : List Action} {s s' s'' : AgentState σ} (h : Adds as s s')
    (h' : Adds bs s' s'') : Adds (as ++ bs) s s'' where
  conv := h'.conv.trans h.conv
  runtime := h'.runtime.trans h.runtime
  store := h'.store.trans h.store
  runId := h'.runId.trans h.runId
  output := h'.output.trans h.output
  trace := by rw [h'.trace, h.trace, List.append_assoc]

theorem Adds.note (s : AgentState σ) (a : Action) :
    Adds [a] s { s with trace := s.trace ++ [a] } := ⟨rfl, rfl, rfl, rfl, rfl, rfl⟩

/-- The same, with actions that satisfy `p`. -/
def Extends (p : Action → Prop) (s s' : AgentState σ) : Prop :=
  ∃ as, Adds as s s' ∧ ∀ a ∈ as, p a

theorem Extends.refl (p : Action → Prop) (s : AgentState σ) : Extends p s s :=
  ⟨[], Adds.refl s, by simp⟩

theorem Extends.trans {p : Action → Prop} {s s' s'' : AgentState σ} (h : Extends p s s')
    (h' : Extends p s' s'') : Extends p s s'' := by
  obtain ⟨as, has, hp⟩ := h
  obtain ⟨bs, hbs, hq⟩ := h'
  refine ⟨as ++ bs, has.trans hbs, ?_⟩
  intro a ha
  rcases List.mem_append.mp ha with ha | ha
  · exact hp a ha
  · exact hq a ha

theorem Extends.mono {p q : Action → Prop} {s s' : AgentState σ} (h : Extends p s s')
    (hpq : ∀ a, p a → q a) : Extends q s s' := by
  obtain ⟨as, has, hp⟩ := h
  exact ⟨as, has, fun a ha => hpq a (hp a ha)⟩

/-- No action at all. -/
def silent : Action → Prop := fun _ => False

theorem Extends.adds {s s' : AgentState σ} (h : Extends silent s s') : Adds [] s s' := by
  obtain ⟨as, has, hp⟩ := h
  obtain rfl : as = [] := List.eq_nil_iff_forall_not_mem.mpr fun a ha => hp a ha
  exact has

/-- `x` stays within the frame.  It raises only where `r` allows it, and then
    not a pause. -/
def Quiet (p : Action → Prop) (r : Prop) (x : M σ α) : Prop :=
  ∀ s, Wp x (fun _ s' => Extends p s s')
    (fun e s' => r ∧ (∃ exc, e = .raised exc) ∧ Extends p s s') s

/-- `x` does nothing a caller could tell, and never raises. -/
abbrev Still (x : M σ α) : Prop := Quiet silent False x

namespace Quiet

variable {p q : Action → Prop} {r r' : Prop}

theorem pure (a : α) : Quiet p r (pure a : M σ α) := fun s => Extends.refl p s

theorem get : Quiet p r (get : M σ (AgentState σ)) := fun s => Extends.refl p s

theorem modify {f : AgentState σ → AgentState σ} (h : ∀ s, Adds [] s (f s)) :
    Quiet p r (modify f : M σ PUnit) := fun s => ⟨[], h s, by simp⟩

theorem bind {x : M σ α} {f : α → M σ β} (hx : Quiet p r x) (hf : ∀ a, Quiet p r (f a)) :
    Quiet p r (x >>= f) := by
  intro s
  rw [Lib.wp_bind]
  apply (hx s).mono
  · intro a s' h
    apply (hf a s').mono
    · exact fun _ _ h' => h.trans h'
    · exact fun _ _ h' => ⟨h'.1, h'.2.1, h.trans h'.2.2⟩
  · exact fun _ _ h => h

theorem map {x : M σ α} (f : α → β) (hx : Quiet p r x) : Quiet p r (f <$> x) := by
  intro s
  rw [Lib.wp_map]
  exact hx s

theorem mono {x : M σ α} (hx : Quiet p r x) (h : ∀ a, p a → q a) (hr : r → r') :
    Quiet q r' x := by
  intro s
  apply (hx s).mono
  · exact fun _ _ h' => h'.mono h
  · exact fun _ _ h' => ⟨hr h'.1, h'.2.1, h'.2.2.mono h⟩

theorem of_still {x : M σ α} (hx : Still x) : Quiet p r x :=
  hx.mono (fun _ h => h.elim) False.elim

theorem of_silent {x : M σ α} (hx : Quiet silent r x) : Quiet p r x :=
  hx.mono (fun _ h => h.elim) id

theorem ite {c : Prop} [Decidable c] {x y : M σ α} (hx : Quiet p r x) (hy : Quiet p r y) :
    Quiet p r (if c then x else y) := by
  by_cases h : c
  · rwa [if_pos h]
  · rwa [if_neg h]

end Quiet

-- ============================================================================
-- The components
-- ============================================================================

section Components

variable {p : Action → Prop}

theorem still_ask (act : Act σ α) : Still (ask act) :=
  fun s => ⟨[], ⟨rfl, rfl, rfl, rfl, rfl, by simp⟩, by simp⟩

theorem quiet_lift (x : Except PyExc α) : Quiet silent True (lift x : M σ α) := by
  cases x with
  | ok a => exact Quiet.pure a
  | error e => exact fun s => ⟨trivial, ⟨e, rfl⟩, Extends.refl silent s⟩

theorem still_isCancelled (env : Env σ) : Still (isCancelled env) := by
  refine Quiet.get.bind fun s => Quiet.ite (Quiet.pure _) ?_
  refine (still_ask _).bind fun b => Quiet.bind ?_ fun _ => Quiet.pure b
  exact Quiet.modify fun s => ⟨rfl, rfl, rfl, rfl, rfl, by simp⟩

theorem still_triggerHooks (env : Env σ) (ctx : HookContext) : Still (triggerHooks env ctx) := by
  unfold triggerHooks
  cases env.hooks with
  | none => exact Quiet.pure _
  | some registry => exact still_ask _

theorem quiet_log (env : Env σ) (entry : AuditEntry) : Quiet silent True (log env entry) :=
  quiet_lift _

theorem still_emitToolCallFinished (env : Env σ) (call : ToolCall) (result : ToolResult) :
    Still (emitToolCallFinished env call result) := by
  unfold emitToolCallFinished
  cases env.stuckDetector with
  | none => exact Quiet.pure _
  | some d => exact Quiet.modify fun s => ⟨rfl, rfl, rfl, rfl, rfl, by simp⟩

theorem still_acquireSlot (env : Env σ) : Still (acquireSlot env) := by
  refine (still_ask _).bind fun released => Quiet.bind ?_ fun _ => Quiet.get.bind fun s => ?_
  · exact Quiet.modify fun s => ⟨rfl, rfl, rfl, rfl, rfl, by simp⟩
  · refine Quiet.ite (Quiet.bind ?_ fun _ => Quiet.pure _) (Quiet.pure _)
    exact Quiet.modify fun s => ⟨rfl, rfl, rfl, rfl, rfl, by simp⟩

theorem still_circuitIsOpen (env : Env σ) (tool : Tool σ) : Still (circuitIsOpen env tool) := by
  unfold circuitIsOpen
  cases breakerThreshold tool with
  | none => exact Quiet.pure _
  | some threshold =>
      refine Quiet.get.bind fun s => ?_
      cases ((Dict.get? s.circuitBreakers tool.name).getD (0, none)).2 with
      | none => exact Quiet.pure _
      | some deadline =>
          refine (still_ask _).bind fun now => Quiet.ite (Quiet.pure _) ?_
          refine Quiet.bind ?_ fun _ => Quiet.pure _
          exact Quiet.modify fun s => ⟨rfl, rfl, rfl, rfl, rfl, by simp⟩

theorem still_recordCircuitResult (env : Env σ) (name : PyStr) (tool : Tool σ)
    (result : ToolResult) : Still (recordCircuitResult env name tool result) := by
  unfold recordCircuitResult
  cases breakerThreshold tool with
  | none => exact Quiet.pure _
  | some threshold =>
      refine Quiet.ite (Quiet.modify fun s => ⟨rfl, rfl, rfl, rfl, rfl, by simp⟩) ?_
      refine Quiet.get.bind fun s => Quiet.bind ?_ fun deadline => ?_
      · exact Quiet.ite ((still_ask _).map _) (Quiet.pure _)
      · exact Quiet.modify fun s => ⟨rfl, rfl, rfl, rfl, rfl, by simp⟩

theorem quiet_denyCall (env : Env σ) (call : ToolCall) (reason : PyStr) (toolInput : Json) :
    Quiet silent True (denyCall env call reason toolInput) :=
  (quiet_log env _).bind fun _ => Quiet.pure _

theorem still_beforeToolCall (env : Env σ) (call : ToolCall) : Still (beforeToolCall env call) :=
  (still_triggerHooks env _).bind fun _ => Quiet.ite (Quiet.pure _) (Quiet.pure _)

theorem quiet_checkTool (env : Env σ) (call : ToolCall) (arguments : Json) :
    Quiet silent True (checkTool env call arguments) := by
  unfold checkTool
  cases env.findTool call.name with
  | none => exact Quiet.pure _
  | some tool =>
      refine (Quiet.of_still (still_circuitIsOpen env tool)).bind fun isOpen => ?_
      refine Quiet.ite (Quiet.pure _) (Quiet.ite ?_ (Quiet.pure _))
      exact (quiet_log env _).bind fun _ => Quiet.pure _

theorem quiet_finalizeCall (env : Env σ) (call : ToolCall) (tool : Tool σ) (arguments : Json)
    (result : ToolResult) : Quiet silent True (finalizeCall env call tool arguments result) := by
  refine (quiet_log env _).bind fun _ => ?_
  refine (Quiet.of_still (still_recordCircuitResult env _ tool result)).bind fun _ => ?_
  exact (Quiet.of_still (still_triggerHooks env _)).bind fun _ => Quiet.pure _

end Components

-- ============================================================================
-- Running a tool
-- ============================================================================

/-- The tool was invoked for a call, on arguments that came out of `arguments`,
    at attempt `first` or later. -/
def RunsOn (call : ToolCall) (name : PyStr) (arguments : Json) (first : Nat) (a : Action) : Prop :=
  ∃ attempt kwargs, first ≤ attempt ∧ toKwargs arguments = .ok kwargs ∧
    a = .executed call.id attempt name kwargs

/-- The attempts a computation adds: at most one. -/
def OneAttempt (call : ToolCall) (attempt : Nat) (tool : Tool σ) (arguments : Json) (x : M σ α) :
    Prop :=
  ∀ s, Wp x (fun _ s' => ∃ as, Adds as s s' ∧ as.length ≤ 1 ∧
      ∀ a ∈ as, ∃ kwargs, toKwargs arguments = .ok kwargs ∧
        a = .executed call.id attempt tool.name kwargs) (fun _ _ => False) s

theorem OneAttempt.pure (call : ToolCall) (attempt : Nat) (tool : Tool σ) (arguments : Json)
    (a : α) : OneAttempt call attempt tool arguments (pure a : M σ α) :=
  fun s => ⟨[], Adds.refl s, by simp, by simp⟩

theorem OneAttempt.after_still {call : ToolCall} {attempt : Nat} {tool : Tool σ}
    {arguments : Json} {x : M σ α} {f : α → M σ β} (hx : Still x)
    (hf : ∀ a, OneAttempt call attempt tool arguments (f a)) :
    OneAttempt call attempt tool arguments (x >>= f) := by
  intro s
  rw [Lib.wp_bind]
  apply (hx s).mono
  · intro a s' h
    apply (hf a s').mono
    · rintro b s'' ⟨as, has, hlen, hrun⟩
      exact ⟨as, by simpa using h.adds.trans has, hlen, hrun⟩
    · exact fun _ _ h' => h'
  · exact fun _ _ h => h.1

theorem OneAttempt.before_still {call : ToolCall} {attempt : Nat} {tool : Tool σ}
    {arguments : Json} {x : M σ α} {f : α → M σ β} (hx : OneAttempt call attempt tool arguments x)
    (hf : ∀ a, Still (f a)) : OneAttempt call attempt tool arguments (x >>= f) := by
  intro s
  rw [Lib.wp_bind]
  apply (hx s).mono
  · rintro a s' ⟨as, has, hlen, hrun⟩
    apply (hf a s').mono
    · intro b s'' h
      exact ⟨as, by simpa using has.trans h.adds, hlen, hrun⟩
    · exact fun _ _ h' => h'.1
  · exact fun _ _ h => h

theorem oneAttempt_invokeTool (env : Env σ) (call : ToolCall) (attempt : Nat) (tool : Tool σ)
    (arguments : Json) :
    OneAttempt call attempt tool arguments (invokeTool env call attempt tool arguments) := by
  unfold invokeTool
  cases hkw : toKwargs arguments with
  | error e => exact OneAttempt.pure call attempt tool arguments _
  | ok kwargs =>
      refine OneAttempt.after_still Quiet.get fun s => ?_
      refine OneAttempt.before_still ?_ fun _ => (still_ask _).bind fun returned => ?_
      · exact fun s => ⟨[.executed call.id attempt tool.name kwargs], ⟨rfl, rfl, rfl, rfl, rfl, rfl⟩,
          by simp, by simp [hkw]⟩
      · cases returned with
        | error e => exact Quiet.pure _
        | ok returned => cases returned <;> exact Quiet.pure _

theorem oneAttempt_invokeWithin (env : Env σ) (call : ToolCall) (attempt : Nat) (tool : Tool σ)
    (arguments : Json) (name timeout remark : PyStr) :
    OneAttempt call attempt tool arguments
      (invokeWithin env call attempt tool arguments name timeout remark) := by
  refine (oneAttempt_invokeTool env call attempt tool arguments).before_still fun result => ?_
  exact (still_ask _).bind fun expired => Quiet.ite (Quiet.pure _) (Quiet.pure _)

theorem oneAttempt_runTool (env : Env σ) (call : ToolCall) (attempt : Nat) (tool : Tool σ)
    (arguments : Json) :
    OneAttempt call attempt tool arguments (runTool env call attempt tool arguments) := by
  unfold runTool
  cases toolTimeout env tool with
  | none => exact oneAttempt_invokeTool env call attempt tool arguments
  | some timeout =>
      cases env.kind with
      | async => exact oneAttempt_invokeWithin env call attempt tool arguments _ timeout _
      | sync =>
          refine OneAttempt.after_still (still_acquireSlot env) fun free => ?_
          cases free with
          | true => exact oneAttempt_invokeWithin env call attempt tool arguments _ timeout _
          | false => exact OneAttempt.pure call attempt tool arguments _

theorem oneAttempt_runGated (env : Env σ) (call : ToolCall) (tool : Tool σ) (arguments : Json) :
    OneAttempt call 0 tool arguments (runGated env call tool arguments) := by
  unfold runGated
  cases env.kind with
  | async => exact oneAttempt_runTool env call 0 tool arguments
  | sync =>
      refine OneAttempt.after_still (still_acquireSlot env) fun free => ?_
      cases free with
      | false => exact OneAttempt.pure call 0 tool arguments _
      | true =>
          cases toolTimeout env tool with
          | none => exact oneAttempt_invokeTool env call 0 tool arguments
          | some timeout => exact oneAttempt_invokeWithin env call 0 tool arguments _ timeout _

/-- An attempt is a run from that attempt on. -/
theorem OneAttempt.quiet {call : ToolCall} {attempt : Nat} {tool : Tool σ} {arguments : Json}
    {x : M σ α} {first : Nat} (hx : OneAttempt call attempt tool arguments x)
    (h : first ≤ attempt) : Quiet (RunsOn call tool.name arguments first) False x := by
  intro s
  apply (hx s).mono
  · rintro a s' ⟨as, has, -, hrun⟩
    refine ⟨as, has, ?_⟩
    intro act hact
    obtain ⟨kwargs, hkw, rfl⟩ := hrun act hact
    exact ⟨attempt, kwargs, h, hkw, rfl⟩
  · exact fun _ _ h => h.elim

theorem quiet_retryLoop (env : Env σ) (call : ToolCall) (tool : Tool σ) (arguments : Json)
    (left attempt : Nat) (result : ToolResult) {first : Nat} (h : first ≤ attempt) :
    Quiet (RunsOn call tool.name arguments first) False
      (retryLoop env call tool arguments left attempt result) := by
  induction left generalizing attempt result with
  | zero => exact Quiet.pure _
  | succ left ih =>
      unfold retryLoop
      refine Quiet.ite ?_ (Quiet.pure _)
      refine (Quiet.of_still (still_isCancelled env)).bind fun stop => ?_
      refine Quiet.ite (Quiet.pure _) ?_
      refine ((oneAttempt_runTool env call attempt tool arguments).quiet h).bind fun result => ?_
      exact ih (attempt + 1) result (by omega)

/-- Retries are attempts after the first. -/
theorem quiet_retryTransientTool (env : Env σ) (call : ToolCall) (tool : Tool σ)
    (arguments : Json) (result : ToolResult) :
    Quiet (RunsOn call tool.name arguments 1) False
      (retryTransientTool env call tool arguments result) :=
  quiet_retryLoop env call tool arguments _ 1 result (by omega)

end Agent
end KineticSdk
