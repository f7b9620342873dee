/-
  KineticSdk.Agent.Batch

  What executing a batch of tool calls does, whatever hooks, policy, tools and
  cancellation do: sequentially or side by side, it appends one result per
  call in call order, or it pauses at a call with the calls in front of it
  answered, or an exception leaves it.

  `Progress` records how far a batch has come: which results were appended and
  which actions were taken.  Steps compose with `Progress.trans`, so the loops
  are one induction each.
-/

import KineticSdk.Agent.Gate
import KineticSdk.Lib.Trace

namespace KineticSdk
namespace Agent

open Py Tool Security Conversation Replay
open Lib (Wp Keeps Guarded)

variable {σ : Type}

-- ============================================================================
-- The actions of a batch
-- ============================================================================

/-- The calls a trace executes for the first time, in order. -/
def firstRuns (as : List Action) : List PyStr :=
  as.filterMap fun
    | .executed id 0 _ _ => some id
    | _ => none

theorem firstRuns_append (as bs : List Action) :
    firstRuns (as ++ bs) = firstRuns as ++ firstRuns bs := List.filterMap_append ..

/-- Inside a batch nothing goes to the model or to a store, no answer is given,
    and whatever executes was vouched for with arguments that unpack to its
    own. -/
def ActOk (env : Env σ) (calls : List ToolCall) (before : List Action) : Action → Prop
  | .executed id _ name kwargs => ∃ call ∈ calls, call.id = id ∧ call.name = name ∧
      ∃ arguments, toKwargs arguments = .ok kwargs ∧
        (arguments = call.arguments ∨ arguments.isObj = true) ∧
        Vouched env before id name arguments
  | .checked .. => True
  | .audited .. => True
  | .confirmed .. => True
  | .declined .. => True
  | .approved .. => True
  | _ => False

theorem ActOk.mono {env : Env σ} {calls calls' : List ToolCall} {as bs : List Action} {a : Action}
    (h : ActOk env calls as a) (hcalls : ∀ c ∈ calls, c ∈ calls') (hsub : ∀ a ∈ as, a ∈ bs) :
    ActOk env calls' bs a := by
  cases a with
  | executed id attempt name kwargs =>
      obtain ⟨call, hcall, hid, hname, arguments, hkw, heff, hv⟩ := h
      exact ⟨call, hcalls call hcall, hid, hname, arguments, hkw, heff, hv.mono hsub⟩
  | _ => exact h

/-- The actions taken for the given calls. -/
structure Acts (env : Env σ) (calls : List ToolCall) (as : List Action) : Prop where
  guarded : Guarded (ActOk env calls) as
  once : (firstRuns as).Sublist (calls.map ToolCall.id)

theorem Acts.nil (env : Env σ) : Acts env [] [] := ⟨Guarded.nil, by simp [firstRuns]⟩

theorem Acts.append {env : Env σ} {calls calls' : List ToolCall} {as bs : List Action}
    (h : Acts env calls as) (h' : Acts env calls' bs) : Acts env (calls ++ calls') (as ++ bs) := by
  refine ⟨Guarded.append ?_ ?_, ?_⟩
  · exact h.guarded.mono fun pre a ha => ha.mono (by simp +contextual) (fun _ hx => hx)
  · exact h'.guarded.mono fun pre a ha => ha.mono (by simp +contextual) (by simp +contextual)
  · rw [firstRuns_append, List.map_append]
    exact h.once.append h'.once

theorem Acts.weaken {env : Env σ} {calls calls' : List ToolCall} {as : List Action}
    (h : Acts env calls as) (hsub : calls.Sublist calls') : Acts env calls' as := by
  refine ⟨h.guarded.mono fun pre a ha => ha.mono (fun c hc => hsub.subset hc) fun _ hx => hx, ?_⟩
  exact h.once.trans (hsub.map _)

/-- Gating a call executes nothing. -/
theorem acts_of_gate (env : Env σ) {call : ToolCall} {as : List Action}
    (h : ∀ a ∈ as, GateAction call a) : Acts env [] as := by
  constructor
  · apply Guarded.of_forall
    intro a ha pre
    have hg := h a ha
    cases a <;> first | exact hg.elim | trivial
  · have hnone : firstRuns as = [] := by
      apply List.filterMap_eq_nil_iff.mpr
      intro a ha
      have hg := h a ha
      cases a <;> first | exact hg.elim | rfl
    rw [hnone]
    exact List.nil_sublist _

theorem firstRuns_of_retries {call : ToolCall} {name : PyStr} {arguments : Json}
    {as : List Action} (h : ∀ a ∈ as, RunsOn call name arguments 1 a) : firstRuns as = [] := by
  apply List.filterMap_eq_nil_iff.mpr
  intro a ha
  obtain ⟨attempt, kwargs, hfirst, -, rfl⟩ := h a ha
  cases attempt with
  | zero => omega
  | succ n => rfl

theorem firstRuns_of_attempt {call : ToolCall} {name : PyStr} {arguments : Json}
    {as : List Action} (hlen : as.length ≤ 1) (h : ∀ a ∈ as, RunsOn call name arguments 0 a) :
    (firstRuns as).Sublist [call.id] := by
  cases as with
  | nil => exact List.nil_sublist _
  | cons a as =>
      obtain rfl : as = [] := List.eq_nil_of_length_eq_zero (by simpa using hlen)
      obtain ⟨attempt, kwargs, -, -, rfl⟩ := h a (List.mem_cons_self ..)
      cases attempt with
      | zero => exact List.Sublist.refl _
      | succ n => exact List.nil_sublist _

/-- Executions of a call that the actions `as` vouch for. -/
theorem guarded_runs {env : Env σ} {call : ToolCall} {arguments : Json} {first : Nat}
    {as bs : List Action} (heff : arguments = call.arguments ∨ arguments.isObj = true)
    (hv : Vouched env as call.id call.name arguments)
    (h : ∀ a ∈ bs, RunsOn call call.name arguments first a) :
    Guarded (fun pre a => ActOk env [call] (as ++ pre) a) bs := by
  apply Guarded.of_forall
  intro a ha pre
  obtain ⟨attempt, kwargs, -, hkw, rfl⟩ := h a ha
  exact ⟨call, by simp, rfl, rfl, arguments, hkw, heff, hv.mono (by simp +contextual)⟩

theorem findTool_name {env : Env σ} {name : PyStr} {tool : Tool σ}
    (h : env.findTool name = some tool) : tool.name = name := by
  have := List.find?_some h
  simpa using this

-- ============================================================================
-- Progress
-- ============================================================================

/-- The message of one recorded result. -/
def resultMessage (env : Env σ) (r : ToolCall × ToolResult) : Message :=
  toolResultMessage r.1.id (toolOutputForState env r.1 r.2) r.2.isError

/-- One result in the history. -/
def addResult (env : Env σ) (c : ConversationState) (r : ToolCall × ToolResult) :
    ConversationState :=
  c.addToolResult r.1.id (toolOutputForState env r.1 r.2) r.2.isError

/-- The results of a batch in the history, in order. -/
def answered (env : Env σ) (c : ConversationState) (rs : List (ToolCall × ToolResult)) :
    ConversationState :=
  rs.foldl (addResult env) c

/-- The results `rs` were appended and the actions `as` taken; nothing else a
    caller reads has changed. -/
structure Progress (env : Env σ) (rs : List (ToolCall × ToolResult)) (as : List Action)
    (s s' : AgentState σ) : Prop where
  conv : s'.conv = answered env s.conv rs
  runtime : s'.runtime = s.runtime
  store : s'.store = s.store
  runId : s'.runId = s.runId
  output : s'.structuredOutput = s.structuredOutput
  trace : s'.trace = s.trace ++ as
  acts : Acts env (rs.map Prod.fst) as

namespace Progress

variable {env : Env σ} {rs rs' : List (ToolCall × ToolResult)} {as bs : List Action}
  {s s' s'' : AgentState σ}

theorem refl (env : Env σ) (s : AgentState σ) : Progress env [] [] s s :=
  ⟨rfl, rfl, rfl, rfl, rfl, by simp, Acts.nil env⟩

theorem trans (h : Progress env rs as s s') (h' : Progress env rs' bs s' s'') :
    Progress env (rs ++ rs') (as ++ bs) s s'' where
  conv := by rw [h'.conv, h.conv, answered, answered, answered, List.foldl_append]
  runtime := h'.runtime.trans h.runtime
  store := h'.store.trans h.store
  runId := h'.runId.trans h.runId
  output := h'.output.trans h.output
  trace := by rw [h'.trace, h.trace, List.append_assoc]
  acts := by
    rw [List.map_append]
    exact h.acts.append h'.acts

theorem of_adds (h : Adds as s s') (hacts : Acts env [] as) : Progress env [] as s s' :=
  ⟨h.conv, h.runtime, h.store, h.runId, h.output, h.trace, hacts⟩

/-- Recording the result of a call, with the actions that led to it. -/
theorem record {call : ToolCall} {result : ToolResult} (h : Adds as s s')
    (hacts : Acts env [call] as) :
    Progress env [(call, result)] as s (recorded env call result s') where
  conv := by
    show s'.conv.addToolResult _ _ _ = _
    rw [h.conv]
    rfl
  runtime := h.runtime
  store := h.store
  runId := h.runId
  output := h.output
  trace := h.trace
  acts := hacts

end Progress

/-- The whole batch was answered. -/
def BatchDone (env : Env σ) (calls : List ToolCall) (s : AgentState σ) (anyError : Bool)
    (s' : AgentState σ) : Prop :=
  ∃ rs as, rs.map Prod.fst = calls ∧ anyError = rs.any (fun r => r.2.isError) ∧
    Progress env rs as s s'

/-- The batch stopped at a call that needs a human: the calls in front of it
    are answered, and the checkpoint holds this very state. -/
def BatchPaused (env : Env σ) (calls : List ToolCall) (s : AgentState σ) (call : ToolCall)
    (arguments : Json) (decision : PermissionDecision) (s' : AgentState σ) : Prop :=
  ∃ done rest kept rs as kvs s₁, calls = done ++ call :: rest ∧ rs.map Prod.fst = done ∧
    Progress env rs as s s₁ ∧ Cleared call arguments decision as ∧
    toDict arguments = .ok kvs ∧ (kept = call :: rest ∨ kept = rest) ∧
    s'.conv = s₁.conv ∧ s'.trace = s₁.trace ∧ s'.runId = s₁.runId ∧
    s'.runtime = { s.runtime with
      pendingConfirmation := some ⟨call, kvs, decision⟩, pendingRemainingCalls := kept } ∧
    ∃ store, Replay.save store s'.runId s'.conv s'.runtime = (s'.store, .ok ())

/-- The batch was left by an exception: its actions are still in order. -/
def BatchRaised (env : Env σ) (calls : List ToolCall) (s s' : AgentState σ) : Prop :=
  ∃ as, s'.trace = s.trace ++ as ∧ Acts env calls as

/-- The three ways a batch that started in `s` can end, with the errors seen so
    far. -/
def Ends (env : Env σ) (calls : List ToolCall) (s : AgentState σ) (anyError : Bool) (x : M σ Bool)
    (s₁ : AgentState σ) : Prop :=
  Wp x (fun b s' => ∃ b', b = (anyError || b') ∧ BatchDone env calls s b' s')
    (OnExc (BatchRaised env calls s) (BatchPaused env calls s)) s₁

/-- Progress made before the rest of a batch counts for the whole. -/
theorem Ends.after {env : Env σ} {rs : List (ToolCall × ToolResult)} {as : List Action}
    {calls : List ToolCall} {anyError : Bool} {s s₁ : AgentState σ} {x : M σ Bool}
    (h : Progress env rs as s s₁)
    (hx : Ends env calls s₁ (anyError || rs.any fun r => r.2.isError) x s₁) :
    Ends env (rs.map Prod.fst ++ calls) s anyError x s₁ := by
  apply Wp.mono hx
  · rintro b s' ⟨b', rfl, rs', as', rfl, rfl, hp⟩
    refine ⟨_, Bool.or_assoc .., rs ++ rs', as ++ as', by simp, ?_, h.trans hp⟩
    rw [List.any_append]
  · intro e s' hs'
    cases e with
    | raised exc =>
        obtain ⟨as', htrace, hacts⟩ := hs'
        exact ⟨as ++ as', by rw [htrace, h.trace, List.append_assoc], h.acts.append hacts⟩
    | pendingConfirmation call arguments decision id =>
        obtain ⟨done, rest, kept, rs', as', kvs, s₂, rfl, rfl, hp, hc, hkvs, hkept, hconv, htrace,
          hrun, hruntime, hstore⟩ := hs'
        refine ⟨rs.map Prod.fst ++ rs'.map Prod.fst, rest, kept, rs ++ rs', as ++ as', kvs, s₂,
          by simp, by simp, h.trans hp, ?_, hkvs, hkept, hconv, htrace, hrun, ?_, hstore⟩
        · exact ⟨hc.effective, hc.allowed, List.mem_append_right _ hc.checked,
            List.mem_append_right _ hc.audited⟩
        · rw [hruntime, h.runtime]

theorem Ends.cons {env : Env σ} {call : ToolCall} {result : ToolResult} {as : List Action}
    {calls : List ToolCall} {anyError : Bool} {s s₁ : AgentState σ} {x : M σ Bool}
    (h : Progress env [(call, result)] as s s₁)
    (hx : Ends env calls s₁ (anyError || result.isError) x s₁) :
    Ends env (call :: calls) s anyError x s₁ := by
  apply Ends.after h
  simpa using hx

-- ============================================================================
-- One call after the other
-- ============================================================================

/-- Running a call adds its executions, at most one of them a first one. -/
theorem runCall_spec (env : Env σ) (call : ToolCall) (tool : Tool σ) (arguments : Json)
    (s : AgentState σ) :
    Wp (runCall env call tool arguments)
      (fun _ s' => ∃ bs, Adds bs s s' ∧ (∀ a ∈ bs, RunsOn call tool.name arguments 0 a) ∧
        (firstRuns bs).Sublist [call.id])
      (fun e s' => (∃ exc, e = .raised exc) ∧ ∃ bs, Adds bs s s' ∧
        (∀ a ∈ bs, RunsOn call tool.name arguments 0 a) ∧ (firstRuns bs).Sublist [call.id]) s := by
  unfold runCall
  simp only [Lib.wp_bind]
  apply (oneAttempt_runTool env call 0 tool arguments s).mono
  · rintro r s₁ ⟨bs, hbs, hlen, hrun⟩
    have hrun : ∀ a ∈ bs, RunsOn call tool.name arguments 0 a := by
      intro a ha
      obtain ⟨kwargs, hkw, rfl⟩ := hrun a ha
      exact ⟨0, kwargs, by omega, hkw, rfl⟩
    apply (quiet_retryTransientTool env call tool arguments r s₁).mono
    · rintro r' s₂ ⟨cs, hcs, hretry⟩
      have hall : ∀ a ∈ bs ++ cs, RunsOn call tool.name arguments 0 a := by
        intro a ha
        rcases List.mem_append.mp ha with ha | ha
        · exact hrun a ha
        · obtain ⟨attempt, kwargs, -, hkw, rfl⟩ := hretry a ha
          exact ⟨attempt, kwargs, by omega, hkw, rfl⟩
      have honce : (firstRuns (bs ++ cs)).Sublist [call.id] := by
        rw [firstRuns_append, firstRuns_of_retries hretry, List.append_nil]
        exact firstRuns_of_attempt hlen hrun
      apply (quiet_finalizeCall env call tool arguments r' s₂).mono
      · intro _ s₃ h₃
        exact ⟨bs ++ cs, by simpa using (hbs.trans hcs).trans h₃.adds, hall, honce⟩
      · rintro e s₃ ⟨-, he, h₃⟩
        exact ⟨he, bs ++ cs, by simpa using (hbs.trans hcs).trans h₃.adds, hall, honce⟩
    · exact fun _ _ h => h.1.elim
  · exact fun _ _ h => h.elim

theorem executeOne_spec (env : Env σ) (call : ToolCall) (s : AgentState σ) :
    Wp (executeOne env call) (fun _ s' => ∃ as, Adds as s s' ∧ Acts env [call] as)
      (OnExc (BatchRaised env [call] s) (GatePaused s call)) s := by
  unfold executeOne
  rw [Lib.wp_bind]
  apply (prepareCall_spec env call s).mono
  · rintro g s₁ ⟨as, has, hgate, hok⟩
    have hacts : Acts env [] as := acts_of_gate env hgate
    cases g with
    | early result => exact ⟨as, has, hacts.weaken (List.nil_sublist _)⟩
    | go tool arguments =>
        obtain ⟨htool, heff, hv⟩ := hok tool arguments rfl
        have hname := findTool_name htool
        have hboth : ∀ bs, (∀ a ∈ bs, RunsOn call tool.name arguments 0 a) →
            (firstRuns bs).Sublist [call.id] → Acts env [call] (as ++ bs) := by
          intro bs hrun honce
          rw [hname] at hrun
          refine ⟨Guarded.append ?_ (guarded_runs heff hv hrun), ?_⟩
          · exact (hacts.weaken (List.nil_sublist [call])).guarded
          · rw [firstRuns_append]
            exact hacts.once.append honce
        apply (runCall_spec env call tool arguments s₁).mono
        · rintro r s₂ ⟨bs, hbs, hrun, honce⟩
          exact ⟨as ++ bs, has.trans hbs, hboth bs hrun honce⟩
        · rintro e s₂ ⟨⟨exc, rfl⟩, bs, hbs, hrun, honce⟩
          exact ⟨as ++ bs, (has.trans hbs).trace, hboth bs hrun honce⟩
  · intro e s' h
    cases e with
    | raised exc =>
        obtain ⟨as, htrace, hgate⟩ := h
        exact ⟨as, htrace, (acts_of_gate env hgate).weaken (List.nil_sublist _)⟩
    | pendingConfirmation c a d id => exact h

/-- Keeping the calls still to finish refreshes the checkpoint. -/
theorem keepRemaining_spec (remaining : List ToolCall) (s : AgentState σ) :
    Wp (keepRemaining remaining)
      (fun _ s' => s'.conv = s.conv ∧ s'.trace = s.trace ∧ s'.runId = s.runId ∧
        s'.runtime = { s.runtime with pendingRemainingCalls := remaining } ∧
        Replay.save s.store s'.runId s'.conv s'.runtime = (s'.store, .ok ()))
      (fun e s' => (∃ exc, e = .raised exc) ∧ s'.trace = s.trace) s := by
  unfold keepRemaining
  rw [Lib.wp_bind, Lib.wp_modify]
  apply (saveCheckpoint_spec _).mono
  · rintro _ s' ⟨hs', hsave⟩
    rw [hs']
    exact ⟨rfl, rfl, rfl, rfl, hsave⟩
  · rintro e s' ⟨he, hs'⟩
    rw [hs']
    exact ⟨he, rfl⟩

/-- A pause at a call, once the rest of the batch has been kept with it. -/
theorem batchPaused_of_gate {env : Env σ} {call : ToolCall} {rest kept : List ToolCall}
    {s s₁ : AgentState σ} {rs : List (ToolCall × ToolResult)} {as : List Action}
    {c : ToolCall} {arguments : Json} {decision : PermissionDecision} (hc : c = call)
    (hp : Progress env rs as s s₁) (hcleared : Cleared call arguments decision as) {kvs : Dict}
    (hkvs : toDict arguments = .ok kvs) (hkept : kept = call :: rest ∨ kept = rest)
    {s₂ : AgentState σ} (hpaused : Paused ⟨call, kvs, decision⟩ s₁ s₂) :
    Wp (keepRemaining kept)
      (fun _ s' => BatchPaused env (rs.map Prod.fst ++ call :: rest) s c arguments decision s')
      (fun e s' => (∃ exc, e = .raised exc) ∧ BatchRaised env (rs.map Prod.fst) s s') s₂ := by
  apply (keepRemaining_spec kept s₂).mono
  · rintro _ s' ⟨hconv, htrace, hrun, hruntime, hsave⟩
    subst hc
    refine ⟨rs.map Prod.fst, rest, kept, rs, as, kvs, s₁, rfl, rfl, hp, hcleared, hkvs, hkept,
      hconv.trans hpaused.conv, htrace.trans hpaused.trace, hrun.trans hpaused.runId, ?_,
      s₂.store, hsave⟩
    rw [hruntime, hpaused.runtime, hp.runtime]
  · rintro e s' ⟨he, htrace⟩
    exact ⟨he, as, by rw [htrace, hpaused.trace, hp.trace], hp.acts⟩

theorem ends_executeSequential (env : Env σ) (anyError : Bool) (calls : List ToolCall)
    (s : AgentState σ) : Ends env calls s anyError (executeSequential env anyError calls) s := by
  induction calls generalizing anyError s with
  | nil => exact ⟨false, by simp, [], [], rfl, rfl, Progress.refl env s⟩
  | cons call rest ih =>
      unfold Ends executeSequential
      rw [Lib.wp_bind]
      apply (still_isCancelled env s).mono
      · intro stop s₁ h₁
        rw [Lib.wp_ite]
        refine ⟨fun _ => ?_, fun _ => ?_⟩
        · -- cancelled: the call is answered without being executed
          have hp : Progress env [(call, skippedResult)] [] s (recorded env call skippedResult s₁) :=
            Progress.record h₁.adds ((Acts.nil env).weaken (List.nil_sublist _))
          have herr : (anyError || skippedResult.isError) = true := Bool.or_true anyError
          show Ends env (call :: rest) s anyError (executeSequential env true rest)
            (recorded env call skippedResult s₁)
          apply Ends.cons hp
          rw [herr]
          exact ih true _
        · rw [Lib.wp_bind]
          show Wp (tryCatch _ _) _ _ _
          rw [Lib.wp_tryCatch]
          apply (executeOne_spec env call s₁).mono
          · -- executed, or answered by the gate
            rintro result s₂ ⟨as, has, hacts⟩
            rw [Lib.wp_bind]
            apply (still_emitToolCallFinished env call result s₂).mono
            · intro _ s₃ h₃
              have hadds : Adds as s s₃ := by simpa using (h₁.adds.trans has).trans h₃.adds
              show Ends env (call :: rest) s anyError
                (executeSequential env (anyError || result.isError) rest) (recorded env call result s₃)
              exact Ends.cons (Progress.record hadds hacts) (ih (anyError || result.isError) _)
            · exact fun _ _ h => h.1.elim
          · intro e s₂ h₂
            cases e with
            | raised exc =>
                obtain ⟨as, htrace, hacts⟩ := h₂
                refine ⟨as, ?_, hacts.weaken (by simp)⟩
                rw [htrace, h₁.adds.trace, List.append_nil]
            | pendingConfirmation c a d id =>
                obtain ⟨hc, as, s₀, has, hgate, hcleared, kvs, hkvs, hpaused, -⟩ := h₂
                have hp : Progress env [] as s s₀ :=
                  Progress.of_adds (by simpa using h₁.adds.trans has) (acts_of_gate env hgate)
                have hkept : suffixAt env call rest = call :: rest ∨
                    suffixAt env call rest = rest := by
                  unfold suffixAt
                  cases env.kind with
                  | sync => exact Or.inl rfl
                  | async => exact Or.inr rfl
                rw [Lib.wp_bind]
                apply (batchPaused_of_gate hc hp hcleared hkvs hkept hpaused).mono
                · exact fun _ _ h => h
                · rintro e s' ⟨⟨exc, rfl⟩, as', htrace, hacts⟩
                  exact ⟨as', htrace, hacts.weaken (List.nil_sublist _)⟩
      · exact fun _ _ h => h.1.elim

-- ============================================================================
-- Side by side
-- ============================================================================

/-- The gate vouched for the tool and arguments of a call. -/
def Admitted (env : Env σ) (as : List Action) (call : ToolCall) (tool : Tool σ)
    (arguments : Json) : Prop :=
  env.findTool call.name = some tool ∧ (arguments = call.arguments ∨ arguments.isObj = true) ∧
    Vouched env as call.id call.name arguments

/-- What the gate loop knows of a call. -/
def GatedOk (env : Env σ) (as : List Action) (entry : ToolCall × Gated σ) : Prop :=
  ∀ tool arguments, entry.2 = .go tool arguments → Admitted env as entry.1 tool arguments

/-- What dispatch knows of a call. -/
def DispatchedOk (env : Env σ) (as : List Action) (entry : ToolCall × Dispatched σ) : Prop :=
  ∀ tool arguments result, entry.2 = .ran tool arguments result →
    Admitted env as entry.1 tool arguments

theorem Admitted.mono {env : Env σ} {as bs : List Action} {call : ToolCall} {tool : Tool σ}
    {arguments : Json} (h : Admitted env as call tool arguments) (hsub : ∀ a ∈ as, a ∈ bs) :
    Admitted env bs call tool arguments :=
  ⟨h.1, h.2.1, h.2.2.mono hsub⟩

/-- Actions `bs` for the given calls, after the actions `as` that vouch for
    them, with `ids` the calls that may be executed for the first time. -/
structure Late (env : Env σ) (as : List Action) (calls : List ToolCall) (ids : List PyStr)
    (bs : List Action) : Prop where
  guarded : Guarded (fun pre a => ActOk env calls (as ++ pre) a) bs
  once : (firstRuns bs).Sublist ids

theorem Late.nil (env : Env σ) (as : List Action) (calls : List ToolCall) (ids : List PyStr) :
    Late env as calls ids [] := ⟨Guarded.nil, List.nil_sublist _⟩

theorem Late.append {env : Env σ} {as bs cs : List Action} {calls calls' : List ToolCall}
    {ids ids' : List PyStr} (h : Late env as calls ids bs) (h' : Late env as calls' ids' cs) :
    Late env as (calls ++ calls') (ids ++ ids') (bs ++ cs) := by
  refine ⟨Guarded.append ?_ ?_, ?_⟩
  · exact h.guarded.mono fun pre a ha => ha.mono (by simp +contextual) (fun _ hx => hx)
  · refine h'.guarded.mono fun pre a ha => ha.mono (by simp +contextual) ?_
    intro x hx
    rcases List.mem_append.mp hx with hx | hx
    · exact List.mem_append_left _ hx
    · exact List.mem_append_right _ (List.mem_append_right _ hx)
  · rw [firstRuns_append]
    exact h.once.append h'.once

theorem Late.weaken {env : Env σ} {as bs : List Action} {calls calls' : List ToolCall}
    {ids ids' : List PyStr} (h : Late env as calls ids bs) (hcalls : ∀ c ∈ calls, c ∈ calls')
    (hids : ids.Sublist ids') : Late env as calls' ids' bs :=
  ⟨h.guarded.mono fun _ _ ha => ha.mono hcalls fun _ hx => hx, h.once.trans hids⟩

/-- Gate actions first, then what they vouch for. -/
theorem Late.acts {env : Env σ} {as bs : List Action} {calls : List ToolCall}
    (h : Late env as calls (calls.map ToolCall.id) bs) (has : Acts env [] as) :
    Acts env calls (as ++ bs) := by
  refine ⟨Guarded.append (has.weaken (List.nil_sublist _)).guarded h.guarded, ?_⟩
  rw [firstRuns_append]
  exact has.once.append h.once

/-- Executions of an admitted call. -/
theorem late_runs {env : Env σ} {as bs : List Action} {call : ToolCall} {tool : Tool σ}
    {arguments : Json} {first : Nat} {ids : List PyStr}
    (h : Admitted env as call tool arguments)
    (hrun : ∀ a ∈ bs, RunsOn call tool.name arguments first a)
    (honce : (firstRuns bs).Sublist ids) : Late env as [call] ids bs := by
  rw [findTool_name h.1] at hrun
  exact ⟨guarded_runs h.2.1 h.2.2 hrun, honce⟩

theorem dispatch_spec (env : Env σ) (as : List Action) (gated : List (ToolCall × Gated σ))
    (h : ∀ entry ∈ gated, GatedOk env as entry) (s : AgentState σ) :
    Wp (dispatch env gated)
      (fun ds s' => ds.map Prod.fst = gated.map Prod.fst ∧
        (∀ entry ∈ ds, DispatchedOk env as entry) ∧
        ∃ bs, Adds bs s s' ∧
          Late env as (gated.map Prod.fst) (gated.map fun entry => entry.1.id) bs)
      (fun _ _ => False) s := by
  induction gated generalizing s with
  | nil => exact ⟨rfl, by simp, [], Adds.refl s, Late.nil env as _ _⟩
  | cons entry gated ih =>
      have ih := ih fun e he => h e (List.mem_cons_of_mem _ he)
      -- a call that is not run contributes nothing
      have hquiet : ∀ (call : ToolCall) (d : Dispatched σ), DispatchedOk env as (call, d) →
          Wp (dispatch env gated >>= fun rest => pure ((call, d) :: rest))
            (fun ds s' => ds.map Prod.fst = call :: gated.map Prod.fst ∧
              (∀ entry ∈ ds, DispatchedOk env as entry) ∧
              ∃ bs, Adds bs s s' ∧ Late env as (call :: gated.map Prod.fst)
                (call.id :: gated.map fun entry => entry.1.id) bs)
            (fun _ _ => False) s := by
        intro call d hd
        rw [Lib.wp_bind]
        apply (ih s).mono
        · rintro ds s' ⟨hmap, hok, bs, hbs, hlate⟩
          refine ⟨by rw [List.map_cons, hmap], ?_, bs, hbs,
            hlate.weaken (by simp +contextual) (List.sublist_cons_self ..)⟩
          intro entry he
          rcases List.mem_cons.mp he with rfl | he
          · exact hd
          · exact hok entry he
        · exact fun _ _ h => h
      obtain ⟨call, g⟩ := entry
      cases g with
      | skipped => exact hquiet call .skipped (by simp [DispatchedOk])
      | early result => exact hquiet call (.early result) (by simp [DispatchedOk])
      | go tool arguments =>
          have hadm : Admitted env as call tool arguments := h _ (List.mem_cons_self ..) _ _ rfl
          unfold dispatch
          rw [Lib.wp_bind]
          apply (oneAttempt_runGated env call tool arguments s).mono
          · rintro result s₁ ⟨bs, hbs, hlen, hrun⟩
            have hrun : ∀ a ∈ bs, RunsOn call tool.name arguments 0 a := by
              intro a ha
              obtain ⟨kwargs, hkw, rfl⟩ := hrun a ha
              exact ⟨0, kwargs, by omega, hkw, rfl⟩
            have hcall := late_runs hadm hrun (firstRuns_of_attempt hlen hrun)
            rw [Lib.wp_bind]
            apply (ih s₁).mono
            · rintro ds s' ⟨hmap, hok, cs, hcs, hlate⟩
              refine ⟨by rw [List.map_cons, hmap]; rfl, ?_, bs ++ cs, hbs.trans hcs,
                hcall.append hlate⟩
              intro entry he
              rcases List.mem_cons.mp he with rfl | he
              · intro tool' arguments' result' heq
                obtain ⟨rfl, rfl, rfl⟩ := Dispatched.ran.inj heq
                exact hadm
              · exact hok entry he
            · exact fun _ _ h => h
          · exact fun _ _ h => h

/-- Settling a call adds its retries. -/
theorem settle_spec (env : Env σ) (as : List Action) (call : ToolCall) (d : Dispatched σ)
    (h : DispatchedOk env as (call, d)) (s : AgentState σ) :
    Wp (settle env call d) (fun _ s' => ∃ bs, Adds bs s s' ∧ Late env as [call] [] bs)
      (fun e s' => (∃ exc, e = .raised exc) ∧ ∃ bs, Adds bs s s' ∧ Late env as [call] [] bs)
      s := by
  cases d with
  | skipped => exact ⟨[], Adds.refl s, Late.nil env as _ _⟩
  | early result =>
      unfold settle
      rw [Lib.wp_bind]
      apply (still_emitToolCallFinished env call result s).mono
      · exact fun _ s' h' => ⟨[], h'.adds, Late.nil env as _ _⟩
      · exact fun _ _ h' => h'.1.elim
  | ran tool arguments result =>
      have hadm := h tool arguments result rfl
      unfold settle
      simp only [Lib.wp_bind]
      apply (quiet_retryTransientTool env call tool arguments result s).mono
      · rintro result' s₁ ⟨bs, hbs, hretry⟩
        have hnone : (firstRuns bs).Sublist [] := by rw [firstRuns_of_retries hretry]
        have hlate := late_runs hadm hretry hnone
        apply (quiet_finalizeCall env call tool arguments result' s₁).mono
        · intro _ s₂ h₂
          apply (still_emitToolCallFinished env call result' s₂).mono
          · exact fun _ s₃ h₃ => ⟨bs, by simpa using (hbs.trans h₂.adds).trans h₃.adds, hlate⟩
          · exact fun _ _ h' => h'.1.elim
        · rintro e s₂ ⟨-, he, h₂⟩
          exact ⟨he, bs, by simpa using hbs.trans h₂.adds, hlate⟩
      · exact fun _ _ h' => h'.1.elim

/-- The results `rs` were appended and the actions `bs` taken. -/
structure Answers (env : Env σ) (rs : List (ToolCall × ToolResult)) (bs : List Action)
    (s s' : AgentState σ) : Prop where
  conv : s'.conv = answered env s.conv rs
  runtime : s'.runtime = s.runtime
  store : s'.store = s.store
  runId : s'.runId = s.runId
  output : s'.structuredOutput = s.structuredOutput
  trace : s'.trace = s.trace ++ bs

theorem recordAll_spec (env : Env σ) (as : List Action) (anyError : Bool)
    (ds : List (ToolCall × Dispatched σ)) (h : ∀ entry ∈ ds, DispatchedOk env as entry)
    (s : AgentState σ) :
    Wp (recordAll env anyError ds)
      (fun b s' => ∃ rs bs, rs.map Prod.fst = ds.map Prod.fst ∧
        b = (anyError || rs.any fun r => r.2.isError) ∧ Answers env rs bs s s' ∧
        Late env as (ds.map Prod.fst) [] bs)
      (fun e s' => (∃ exc, e = .raised exc) ∧ s'.store = s.store ∧
        ∃ bs, s'.trace = s.trace ++ bs ∧ Late env as (ds.map Prod.fst) [] bs) s := by
  induction ds generalizing anyError s with
  | nil =>
      exact ⟨[], [], rfl, by simp, ⟨rfl, rfl, rfl, rfl, rfl, by simp⟩, Late.nil env as _ _⟩
  | cons entry ds ih =>
      obtain ⟨call, d⟩ := entry
      unfold recordAll
      rw [Lib.wp_bind]
      apply (settle_spec env as call d (h _ (List.mem_cons_self ..)) s).mono
      · rintro result s₁ ⟨bs, hbs, hlate⟩
        show Wp (recordAll env (anyError || result.isError) ds) _ _ (recorded env call result s₁)
        apply (ih _ (fun e he => h e (List.mem_cons_of_mem _ he)) _).mono
        · rintro b s' ⟨rs, cs, hmap, hb, hans, hlate'⟩
          refine ⟨(call, result) :: rs, bs ++ cs, by simp [hmap], ?_, ?_, hlate.append hlate'⟩
          · rw [hb, List.any_cons, Bool.or_assoc]
          · refine ⟨?_, hans.runtime.trans hbs.runtime, hans.store.trans hbs.store,
              hans.runId.trans hbs.runId, hans.output.trans hbs.output, ?_⟩
            · rw [hans.conv, answered, answered, List.foldl_cons]
              show List.foldl _ (s₁.conv.addToolResult _ _ _) rs = _
              rw [hbs.conv]
              rfl
            · rw [hans.trace]
              show s₁.trace ++ cs = _
              rw [hbs.trace, List.append_assoc]
        · rintro e s' ⟨he, hstore, cs, htrace, hlate'⟩
          refine ⟨he, hstore.trans hbs.store, bs ++ cs, ?_, hlate.append hlate'⟩
          rw [htrace]
          show s₁.trace ++ cs = _
          rw [hbs.trace, List.append_assoc]
      · rintro e s₁ ⟨he, bs, hbs, hlate⟩
        exact ⟨he, hbs.store, bs, hbs.trace,
          hlate.weaken (by simp +contextual) (List.Sublist.refl _)⟩

theorem dispatchAndRecord_spec (env : Env σ) (as : List Action)
    (gated : List (ToolCall × Gated σ)) (h : ∀ entry ∈ gated, GatedOk env as entry)
    (s : AgentState σ) :
    Wp (dispatchAndRecord env gated)
      (fun b s' => ∃ rs bs, rs.map Prod.fst = gated.map Prod.fst ∧
        b = (rs.any fun r => r.2.isError) ∧ Answers env rs bs s s' ∧
        Late env as (gated.map Prod.fst) (gated.map fun entry => entry.1.id) bs)
      (fun e s' => (∃ exc, e = .raised exc) ∧ s'.store = s.store ∧
        ∃ bs, s'.trace = s.trace ++ bs ∧
          Late env as (gated.map Prod.fst) (gated.map fun entry => entry.1.id) bs) s := by
  unfold dispatchAndRecord
  rw [Lib.wp_bind]
  apply (dispatch_spec env as gated h s).mono
  · rintro ds s₁ ⟨hmap, hok, bs, hbs, hlate⟩
    have hboth : ∀ cs, Late env as (ds.map Prod.fst) [] cs →
        Late env as (gated.map Prod.fst) (gated.map fun entry => entry.1.id) (bs ++ cs) := by
      intro cs hcs
      rw [hmap] at hcs
      exact (hlate.append hcs).weaken (by simp) (by simp)
    apply (recordAll_spec env as false ds hok s₁).mono
    · rintro b s' ⟨rs, cs, hrs, hb, hans, hcs⟩
      refine ⟨rs, bs ++ cs, hrs.trans hmap, by simpa using hb, ?_, hboth cs hcs⟩
      refine ⟨by rw [hans.conv, hbs.conv], hans.runtime.trans hbs.runtime,
        hans.store.trans hbs.store, hans.runId.trans hbs.runId, hans.output.trans hbs.output, ?_⟩
      rw [hans.trace, hbs.trace, List.append_assoc]
    · rintro e s' ⟨he, hstore, cs, htrace, hcs⟩
      exact ⟨he, hstore.trans hbs.store, bs ++ cs, by rw [htrace, hbs.trace, List.append_assoc],
        hboth cs hcs⟩
  · exact fun _ _ h => h.elim

theorem gateOne_spec (env : Env σ) (call : ToolCall) (s : AgentState σ) :
    Wp (gateOne env call)
      (fun g s' => ∃ as, Adds as s s' ∧ (∀ a ∈ as, GateAction call a) ∧ GatedOk env as (call, g))
      (OnExc (GateTrace s call) (GatePaused s call)) s := by
  unfold gateOne
  rw [Lib.wp_bind]
  apply (prepareCall_spec env call s).mono
  · rintro g s' ⟨as, has, hgate, hok⟩
    cases g with
    | early result => exact ⟨as, has, hgate, by simp [GatedOk]⟩
    | go tool arguments =>
        refine ⟨as, has, hgate, ?_⟩
        intro tool' arguments' heq
        obtain ⟨rfl, rfl⟩ := Gated.go.inj heq
        exact hok tool arguments rfl
  · exact fun _ _ h => h

/-- A pause of a parallel batch first answers the calls gated in front of it. -/
theorem pause_after_dispatch {env : Env σ} {gated : List (ToolCall × Gated σ)} {call : ToolCall}
    {rest : List ToolCall} {as : List Action} {s s₀ s₂ : AgentState σ} {c : ToolCall}
    {arguments : Json} {decision : PermissionDecision} {kvs : Dict} (hc : c = call)
    (has : Adds as s s₀) (hacts : Acts env [] as) (hok : ∀ entry ∈ gated, GatedOk env as entry)
    (hcleared : Cleared call arguments decision as) (hkvs : toDict arguments = .ok kvs)
    (hpaused : Paused ⟨call, kvs, decision⟩ s₀ s₂) :
    Wp (dispatchAndRecord env gated >>= fun _ => keepRemaining (call :: rest))
      (fun _ s' => BatchPaused env (gated.map Prod.fst ++ call :: rest) s c arguments decision s')
      (fun e s' => (∃ exc, e = .raised exc) ∧ BatchRaised env (gated.map Prod.fst) s s') s₂ := by
  have htrace : s₂.trace = s.trace ++ as := hpaused.trace.trans has.trace
  have hids : (gated.map fun entry => entry.1.id) = (gated.map Prod.fst).map ToolCall.id := by
    simp [Function.comp_def]
  rw [Lib.wp_bind]
  apply (dispatchAndRecord_spec env as gated hok s₂).mono
  · rintro b s₃ ⟨rs, bs, hmap, -, hans, hlate⟩
    rw [hids] at hlate
    rw [← hmap] at hlate ⊢
    have hp : Progress env rs (as ++ bs) s
        { s₃ with
          runtime := s.runtime, store := s.store, structuredOutput := s.structuredOutput } := by
      refine ⟨?_, rfl, rfl, ?_, rfl, ?_, hlate.acts hacts⟩
      · show s₃.conv = _
        rw [hans.conv, hpaused.conv, has.conv]
      · show s₃.runId = _
        rw [hans.runId, hpaused.runId, has.runId]
      · show s₃.trace = _
        rw [hans.trace, htrace, List.append_assoc]
    have hcleared' : Cleared call arguments decision (as ++ bs) :=
      ⟨hcleared.effective, hcleared.allowed, List.mem_append_left _ hcleared.checked,
        List.mem_append_left _ hcleared.audited⟩
    have hpaused' : Paused ⟨call, kvs, decision⟩
        { s₃ with
          runtime := s.runtime, store := s.store, structuredOutput := s.structuredOutput } s₃ := by
      refine ⟨rfl, ?_, rfl, rfl⟩
      rw [hans.runtime, hpaused.runtime, has.runtime]
    exact batchPaused_of_gate hc hp hcleared' hkvs (Or.inl rfl) hpaused'
  · rintro e s' ⟨he, -, bs, htr, hlate⟩
    rw [hids] at hlate
    exact ⟨he, as ++ bs, by rw [htr, htrace, List.append_assoc], hlate.acts hacts⟩

theorem gateAll_spec (env : Env σ) (gated : List (ToolCall × Gated σ)) (rest : List ToolCall)
    (as : List Action) (s s₁ : AgentState σ) (has : Adds as s s₁) (hacts : Acts env [] as)
    (hok : ∀ entry ∈ gated, GatedOk env as entry) :
    Wp (gateAll env gated rest)
      (fun gated' s' => gated'.map Prod.fst = gated.map Prod.fst ++ rest ∧
        ∃ as', Adds as' s s' ∧ Acts env [] as' ∧ ∀ entry ∈ gated', GatedOk env as' entry)
      (OnExc (BatchRaised env (gated.map Prod.fst ++ rest) s)
        (BatchPaused env (gated.map Prod.fst ++ rest) s)) s₁ := by
  induction rest generalizing gated as s₁ with
  | nil => exact ⟨by simp, as, has, hacts, hok⟩
  | cons call rest ih =>
      -- one more call gated, with the actions `bs`
      have hnext : ∀ (g : Gated σ) (bs : List Action) (s₂ : AgentState σ), Adds bs s₁ s₂ →
          Acts env [] bs → GatedOk env bs (call, g) →
          Wp (gateAll env (gated ++ [(call, g)]) rest)
            (fun gated' s' => gated'.map Prod.fst = gated.map Prod.fst ++ call :: rest ∧
              ∃ as', Adds as' s s' ∧ Acts env [] as' ∧ ∀ entry ∈ gated', GatedOk env as' entry)
            (OnExc (BatchRaised env (gated.map Prod.fst ++ call :: rest) s)
              (BatchPaused env (gated.map Prod.fst ++ call :: rest) s)) s₂ := by
        intro g bs s₂ hbs hbacts hg
        have hok' : ∀ entry ∈ gated ++ [(call, g)], GatedOk env (as ++ bs) entry := by
          intro entry he tool arguments heq
          rcases List.mem_append.mp he with he | he
          · exact (hok entry he tool arguments heq).mono (by simp +contextual)
          · obtain rfl := List.mem_singleton.mp he
            exact (hg tool arguments heq).mono (by simp +contextual)
        have hstep := ih (gated ++ [(call, g)]) (as ++ bs) s₂ (has.trans hbs)
          (by simpa using hacts.append hbacts) hok'
        simpa using hstep
      unfold gateAll
      rw [Lib.wp_bind]
      apply (still_isCancelled env s₁).mono
      · intro stop s₂ h₂
        rw [Lib.wp_ite]
        refine ⟨fun _ => ?_, fun _ => ?_⟩
        · exact hnext .skipped [] s₂ h₂.adds (Acts.nil env) (by simp [GatedOk])
        · rw [Lib.wp_bind]
          show Wp (tryCatch _ _) _ _ _
          rw [Lib.wp_tryCatch]
          apply (gateOne_spec env call s₂).mono
          · rintro g s₃ ⟨bs, hbs, hgate, hg⟩
            have hadds : Adds bs s₁ s₃ := by simpa using h₂.adds.trans hbs
            exact hnext g bs s₃ hadds (acts_of_gate env hgate) hg
          · intro e s₃ h₃
            cases e with
            | raised exc =>
                obtain ⟨bs, htrace, hgate⟩ := h₃
                have hall : Acts env [] (as ++ bs) := by
                  simpa using hacts.append (acts_of_gate env hgate)
                refine ⟨as ++ bs, ?_, hall.weaken (List.nil_sublist _)⟩
                rw [htrace, h₂.adds.trace, has.trace]
                simp
            | pendingConfirmation c a d id =>
                obtain ⟨hc, bs, s₀, hbs, hgate, hcleared, kvs, hkvs, hpaused, -⟩ := h₃
                have hadds : Adds (as ++ bs) s s₀ := by
                  simpa using has.trans (h₂.adds.trans hbs)
                have hall : Acts env [] (as ++ bs) := by
                  simpa using hacts.append (acts_of_gate env hgate)
                have hok' : ∀ entry ∈ gated, GatedOk env (as ++ bs) entry :=
                  fun entry he tool arguments heq =>
                    (hok entry he tool arguments heq).mono (by simp +contextual)
                have hcleared' : Cleared call a d (as ++ bs) :=
                  ⟨hcleared.effective, hcleared.allowed, List.mem_append_right _ hcleared.checked,
                    List.mem_append_right _ hcleared.audited⟩
                rw [Lib.wp_bind]
                apply (pause_after_dispatch hc hadds hall hok' hcleared' hkvs hpaused).mono
                · exact fun _ _ h => h
                · rintro e s' ⟨⟨exc, rfl⟩, cs, htrace, hcs⟩
                  exact ⟨cs, htrace, hcs.weaken (List.sublist_append_left ..)⟩
      · exact fun _ _ h => h.1.elim

theorem ends_executeParallel (env : Env σ) (calls : List ToolCall) (s : AgentState σ) :
    Ends env calls s false (executeParallel env calls) s := by
  unfold Ends executeParallel
  rw [Lib.wp_bind]
  apply (gateAll_spec env [] calls [] s s (Adds.refl s) (Acts.nil env) (by simp)).mono
  · rintro gated s₁ ⟨hmap, as, has, hacts, hok⟩
    rw [List.map_nil, List.nil_append] at hmap
    have hids : (gated.map fun entry => entry.1.id) = calls.map ToolCall.id := by
      rw [← hmap]
      simp [Function.comp_def]
    apply (dispatchAndRecord_spec env as gated hok s₁).mono
    · rintro b s' ⟨rs, bs, hrs, hb, hans, hlate⟩
      rw [hmap] at hrs hlate
      rw [hids] at hlate
      refine ⟨b, rfl, rs, as ++ bs, hrs, hb, ?_⟩
      refine ⟨by rw [hans.conv, has.conv], hans.runtime.trans has.runtime,
        hans.store.trans has.store, hans.runId.trans has.runId, hans.output.trans has.output, ?_,
        ?_⟩
      · rw [hans.trace, has.trace, List.append_assoc]
      · rw [hrs]
        exact hlate.acts hacts
    · rintro e s' ⟨⟨exc, rfl⟩, -, bs, htrace, hlate⟩
      rw [hmap, hids] at hlate
      exact ⟨as ++ bs, by rw [htrace, has.trace, List.append_assoc], hlate.acts hacts⟩
  · exact fun _ _ h => h

/-- Every batch, sequential or parallel, ends in one of the three ways. -/
theorem ends_executeToolCalls (env : Env σ) (calls : List ToolCall) (s : AgentState σ) :
    Wp (executeToolCalls env calls) (BatchDone env calls s)
      (OnExc (BatchRaised env calls s) (BatchPaused env calls s)) s := by
  have hends : Ends env calls s false (executeToolCalls env calls) s := by
    unfold executeToolCalls
    split
    · exact ends_executeParallel env calls s
    · exact ends_executeSequential env false calls s
  apply Wp.mono hends
  · rintro b s' ⟨b', rfl, hdone⟩
    simpa using hdone
  · exact fun _ _ h => h

-- ============================================================================
-- The conversation and the runtime fields in a batch
-- ============================================================================

section Batch

variable {P : ConversationState → Runtime → Prop} {α : Type}

/-- The code keeps a property of the conversation and the runtime fields, also
    when it raises. -/
abbrev KeepsCore (P : ConversationState → Runtime → Prop) (x : M σ α) : Prop :=
  Keeps (fun s => P s.conv s.runtime) (fun s => P s.conv s.runtime) x

/-- The property does not look at a pause. -/
structure Pausable (P : ConversationState → Runtime → Prop) : Prop where
  pending : ∀ c r p, P c r → P c { r with pendingConfirmation := p }
  remaining : ∀ c r calls, P c r → P c { r with pendingRemainingCalls := calls }

theorem keepsCore_of_quiet {p : Action → Prop} {r : Prop} {x : M σ α} (hx : Quiet p r x) :
    KeepsCore P x := by
  intro s h
  apply (hx s).mono
  · rintro _ s' ⟨as, has, -⟩
    rwa [has.conv, has.runtime]
  · rintro e s' ⟨-, -, as, has, -⟩
    rwa [has.conv, has.runtime]

theorem keepsCore_saveCheckpoint : KeepsCore P (saveCheckpoint : M σ PUnit) := by
  intro s h
  apply (saveCheckpoint_spec s).mono
  · rintro _ s' ⟨hs', -⟩
    rw [hs']
    exact h
  · rintro _ s' ⟨-, hs'⟩
    rw [hs']
    exact h

theorem keepsCore_onPendingConfirmation {x : M σ α} {onPause : M σ PUnit} (hx : KeepsCore P x)
    (hpause : KeepsCore P onPause) : KeepsCore P (onPendingConfirmation x onPause) := by
  intro s h
  show Wp (tryCatch _ _) _ _ _
  rw [Lib.wp_tryCatch]
  apply (hx s h).mono
  · exact fun _ _ h' => h'
  · intro e s' h'
    cases e with
    | raised exc => exact h'
    | pendingConfirmation call arguments decision id =>
        rw [Lib.wp_bind]
        exact (hpause s' h').mono (fun _ _ h'' => h'') fun _ _ h'' => h''

section Pause

variable (hr : Pausable P)

include hr

theorem keepsCore_pause (call : ToolCall) (arguments : Json) (d : PermissionDecision) :
    KeepsCore P (pause call arguments d : M σ (Gate σ)) := by
  refine (keepsCore_of_quiet (quiet_lift _)).bind fun kvs => Keeps.bind ?_ fun _ => ?_
  · exact Keeps.modify fun s h => hr.pending s.conv s.runtime _ h
  · exact keepsCore_saveCheckpoint.bind fun _ => Keeps.get.bind fun _ => Keeps.throw (fun _ h => h) _

theorem keepsCore_prepareCall (env : Env σ) (call : ToolCall) :
    KeepsCore P (prepareCall env call) := by
  have hconfirm : ∀ arguments d, KeepsCore P (confirmationStatus env call arguments d) := by
    intro arguments d
    refine (keepsCore_of_quiet (still_triggerHooks env _)).bind fun results => Keeps.ite ?_ ?_
    · exact Keeps.bind (Keeps.modify fun _ h => h) fun _ => Keeps.pure _
    · refine Keeps.ite (Keeps.pure _) ?_
      exact Keeps.bind (Keeps.modify fun _ h => h) fun _ => Keeps.pure _
  have hdeny : ∀ reason arguments,
      KeepsCore P (Gate.early <$> denyCall env call reason arguments : M σ (Gate σ)) :=
    fun reason arguments => keepsCore_of_quiet ((quiet_denyCall env call reason arguments).map _)
  refine (keepsCore_of_quiet (still_beforeToolCall env call)).bind fun left => ?_
  cases left with
  | none => exact Keeps.pure _
  | some arguments =>
      refine (keepsCore_of_quiet (still_ask _)).bind fun answer => ?_
      refine (keepsCore_of_quiet (quiet_lift _)).bind fun d => ?_
      refine Keeps.bind (Keeps.modify fun _ h => h) fun _ => ?_
      refine (keepsCore_of_quiet (quiet_log env _)).bind fun _ => ?_
      refine Keeps.bind (Keeps.modify fun _ h => h) fun _ => Keeps.ite (hdeny _ _) ?_
      refine (hconfirm arguments d).bind fun c => Keeps.ite (keepsCore_pause hr call arguments d) ?_
      exact Keeps.ite (hdeny _ _) (keepsCore_of_quiet (quiet_checkTool env call arguments))

theorem keepsCore_keepRemaining (kept : List ToolCall) :
    KeepsCore P (keepRemaining kept : M σ PUnit) :=
  Keeps.bind (Keeps.modify fun s h => hr.remaining s.conv s.runtime kept h) fun _ =>
    keepsCore_saveCheckpoint

end Pause

theorem quiet_runCall (env : Env σ) (call : ToolCall) (tool : Tool σ) (arguments : Json) :
    Quiet (RunsOn call tool.name arguments 0) True (runCall env call tool arguments) := by
  have hfirst := (oneAttempt_runTool env call 0 tool arguments).quiet (Nat.zero_le 0)
  refine (hfirst.mono (fun _ h => h) False.elim).bind fun result => ?_
  have hretry := quiet_retryLoop env call tool arguments (maxTransientRetries env tool).toNat 1
    result (Nat.zero_le 1)
  refine (hretry.mono (fun _ h => h) False.elim).bind fun result => ?_
  exact (quiet_finalizeCall env call tool arguments result).of_silent.bind fun _ => Quiet.pure _

variable (hP : ∀ c r msg, P c r → P (c.append msg) r)

include hP

theorem keepsCore_recordResult (env : Env σ) (call : ToolCall) (result : ToolResult) :
    KeepsCore P (recordResult env call result : M σ PUnit) :=
  Keeps.modify fun s h => hP s.conv s.runtime _ h

variable (hr : Pausable P)

include hr

theorem keepsCore_executeSequential (env : Env σ) (anyError : Bool) (calls : List ToolCall) :
    KeepsCore P (executeSequential env anyError calls) := by
  induction calls generalizing anyError with
  | nil => exact Keeps.pure _
  | cons call rest ih =>
      refine (keepsCore_of_quiet (still_isCancelled env)).bind fun stop => Keeps.ite ?_ ?_
      · exact (keepsCore_recordResult hP env call _).bind fun _ => ih true
      · have hone : KeepsCore P (executeOne env call) := by
          refine (keepsCore_prepareCall hr env call).bind fun g => ?_
          cases g with
          | early result => exact Keeps.pure _
          | go tool arguments => exact keepsCore_of_quiet (quiet_runCall env call tool arguments)
        refine (keepsCore_onPendingConfirmation hone (keepsCore_keepRemaining hr _)).bind fun result => ?_
        refine (keepsCore_of_quiet (still_emitToolCallFinished env call result)).bind fun _ => ?_
        exact (keepsCore_recordResult hP env call result).bind fun _ => ih _

omit hr in
theorem keepsCore_dispatchAndRecord (env : Env σ) (gated : List (ToolCall × Gated σ)) :
    KeepsCore P (dispatchAndRecord env gated) := by
  have hdispatch : ∀ gated : List (ToolCall × Gated σ), KeepsCore P (dispatch env gated) := by
    intro gated
    induction gated with
    | nil => exact Keeps.pure _
    | cons entry gated ih =>
        obtain ⟨call, g⟩ := entry
        cases g with
        | skipped => exact ih.bind fun _ => Keeps.pure _
        | early result => exact ih.bind fun _ => Keeps.pure _
        | go tool arguments =>
            have hrun := (oneAttempt_runGated env call tool arguments).quiet (Nat.zero_le 0)
            exact (keepsCore_of_quiet hrun).bind fun _ => ih.bind fun _ => Keeps.pure _
  have hrecord : ∀ (ds : List (ToolCall × Dispatched σ)) anyError,
      KeepsCore P (recordAll env anyError ds) := by
    intro ds
    induction ds with
    | nil => exact fun _ => Keeps.pure _
    | cons entry ds ih =>
        obtain ⟨call, d⟩ := entry
        intro anyError
        have hsettle : KeepsCore P (settle env call d) := by
          cases d with
          | skipped => exact Keeps.pure _
          | early result =>
              exact (keepsCore_of_quiet (still_emitToolCallFinished env call result)).bind
                fun _ => Keeps.pure _
          | ran tool arguments result =>
              refine (keepsCore_of_quiet (quiet_retryTransientTool env call tool arguments
                result)).bind fun result => ?_
              refine (keepsCore_of_quiet (quiet_finalizeCall env call tool arguments
                result)).bind fun _ => ?_
              exact (keepsCore_of_quiet (still_emitToolCallFinished env call result)).bind
                fun _ => Keeps.pure _
        refine hsettle.bind fun result => ?_
        exact (keepsCore_recordResult hP env call result).bind fun _ => ih _
  exact (hdispatch gated).bind fun ds => hrecord ds false

theorem keepsCore_gateAll (env : Env σ) (gated : List (ToolCall × Gated σ))
    (calls : List ToolCall) : KeepsCore P (gateAll env gated calls) := by
  induction calls generalizing gated with
  | nil => exact Keeps.pure _
  | cons call rest ih =>
      refine (keepsCore_of_quiet (still_isCancelled env)).bind fun stop => Keeps.ite (ih _) ?_
      have hgate : KeepsCore P (gateOne env call) := by
        refine (keepsCore_prepareCall hr env call).bind fun g => ?_
        cases g with
        | early result => exact Keeps.pure _
        | go tool arguments => exact Keeps.pure _
      refine Keeps.bind (keepsCore_onPendingConfirmation hgate ?_) fun g => ih _
      exact (keepsCore_dispatchAndRecord hP env gated).bind fun _ => keepsCore_keepRemaining hr _

/-- A batch changes the conversation by appending messages only, and of the
    runtime fields those of a pause. -/
theorem keepsCore_executeToolCalls (env : Env σ) (calls : List ToolCall) :
    KeepsCore P (executeToolCalls env calls) := by
  unfold executeToolCalls
  split
  · exact (keepsCore_gateAll hP hr env [] calls).bind fun gated =>
      keepsCore_dispatchAndRecord hP env gated
  · exact keepsCore_executeSequential hP hr env false calls

end Batch

end Agent
end KineticSdk
