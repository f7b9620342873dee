/-
  KineticSdk.Agent.Session

  A batch of tool calls over any number of pauses.

  A batch is started once.  Each pause leaves a checkpoint, from which a new
  agent is rebuilt with the human's verdict; it settles the pending call and
  goes on with the calls behind it, which may pause again.  The two results
  are about every session: whatever executes was let through by the gate, and
  a session that comes to its end has answered every call once, in order.
-/

import KineticSdk.Agent.Resume

namespace KineticSdk
namespace Agent

open Py Tool Security Conversation Replay
open Lib (Wp Guarded)

variable {σ : Type}

-- ============================================================================
-- Sessions
-- ============================================================================

/-- How a step of a session ended. -/
inductive Phase where
  | done
  | paused
  | raised
deriving DecidableEq

/-- Running `x` from `s` ends in the given way and state. -/
inductive Lands {α : Type} (x : M σ α) (s : AgentState σ) : Phase → AgentState σ → Prop where
  | done {a : α} {s' : AgentState σ} : x s = .ok a s' → Lands x s .done s'
  | paused {call : ToolCall} {arguments : Json} {decision : PermissionDecision} {id : PyStr}
      {s' : AgentState σ} :
      x s = .error (.pendingConfirmation call arguments decision id) s' → Lands x s .paused s'
  | raised {e : PyExc} {s' : AgentState σ} : x s = .error (.raised e) s' → Lands x s .raised s'

/-- The states a batch can reach: right after it was started, or after a paused
    state that satisfies `ok` was resumed with a verdict. -/
inductive Session (env : Env σ) (calls : List ToolCall) (start : AgentState σ)
    (ok : AgentState σ → Prop) : Phase → AgentState σ → Prop where
  | started {phase : Phase} {s : AgentState σ} :
      Lands (executeToolCalls env calls) start phase s → Session env calls start ok phase s
  | resumed {phase : Phase} {s s₁ s₂ : AgentState σ} (approved : Bool) (world : σ) :
      Session env calls start ok .paused s → ok s →
      resumeAgent s.store s.runId world s.trace = .ok s₁ →
      Lands (resolvePendingConfirmation env approved) s₁ phase s₂ →
      Session env calls start ok phase s₂

-- ============================================================================
-- The verdict
-- ============================================================================

/-- The actions of a verdict on `p`: none when it was declined; else the
    approval, then the executions with the pending arguments. -/
def Resolved (env : Env σ) (p : PendingConfirmation) (bs : List Action) : Prop :=
  bs = [] ∨ ∃ runs, bs = .approved p.call.id p.call.name (.obj p.arguments) :: runs ∧
    (∀ a ∈ runs, RunsOn p.call p.call.name (.obj p.arguments) 0 a ∧
      (env.findTool p.call.name).isSome = true) ∧
    (firstRuns runs).Sublist [p.call.id]

theorem resolveVerdict_spec (env : Env σ) (approved : Bool) (p : PendingConfirmation)
    (s : AgentState σ) :
    Wp (resolveVerdict env approved p) (fun _ s' => ∃ bs, Adds bs s s' ∧ Resolved env p bs)
      (fun e s' => (∃ exc, e = .raised exc) ∧ ∃ bs, Adds bs s s' ∧ Resolved env p bs) s := by
  unfold resolveVerdict
  rw [Lib.wp_ite]
  refine ⟨fun _ => ?_, fun _ => ?_⟩
  · have hnote := Adds.note s (.approved p.call.id p.call.name (.obj p.arguments))
    rw [Lib.wp_bind, note, Lib.wp_modify]
    cases htool : env.findTool p.call.name with
    | none => exact ⟨_, hnote, Or.inr ⟨[], rfl, by simp, List.nil_sublist _⟩⟩
    | some tool =>
        have hname := findTool_name htool
        have hresolved : ∀ runs, (∀ a ∈ runs, RunsOn p.call tool.name (.obj p.arguments) 0 a) →
            (firstRuns runs).Sublist [p.call.id] →
            Resolved env p (.approved p.call.id p.call.name (.obj p.arguments) :: runs) := by
          intro runs hruns honce
          rw [hname] at hruns
          exact Or.inr ⟨runs, rfl, fun a ha => ⟨hruns a ha, by rw [htool]; rfl⟩, honce⟩
        apply (runCall_spec env p.call tool (.obj p.arguments) _).mono
        · rintro _ s' ⟨runs, hadds, hruns, honce⟩
          exact ⟨_, hnote.trans hadds, hresolved runs hruns honce⟩
        · rintro e s' ⟨he, runs, hadds, hruns, honce⟩
          exact ⟨he, _, hnote.trans hadds, hresolved runs hruns honce⟩
  · apply (quiet_denyCall env p.call _ _ s).mono
    · exact fun _ s' h => ⟨[], h.adds, Or.inl rfl⟩
    · exact fun e s' h => ⟨h.2.1, [], h.2.2.adds, Or.inl rfl⟩

theorem trailingCalls_subset (call : ToolCall) (calls : List ToolCall) :
    trailingCalls call calls ⊆ calls := by
  cases calls with
  | nil => exact fun _ h => h
  | cons r rs =>
      show (if r.id = call.id then rs else r :: rs) ⊆ r :: rs
      split
      · exact List.subset_cons_self ..
      · exact fun _ h => h

/-- The pending call was settled with a result; the rest is still to come. -/
structure Settled (env : Env σ) (p : PendingConfirmation) (result : ToolResult)
    (bs : List Action) (s s' : AgentState σ) : Prop where
  conv : s'.conv = addResult env s.conv (p.call, result)
  trace : s'.trace = s.trace ++ bs
  runId : s'.runId = s.runId
  resolved : Resolved env p bs

/-- A resumed batch settles the pending call and runs the calls behind it. -/
theorem resolve_spec (env : Env σ) (approved : Bool) {p : PendingConfirmation}
    {remaining : List ToolCall} {s : AgentState σ} (hp : s.runtime.pendingConfirmation = some p)
    (hremaining : trailingCalls p.call s.runtime.pendingRemainingCalls = remaining) :
    Wp (resolvePendingConfirmation env approved)
      (fun _ s' => ∃ result bs s₁ rs as, Settled env p result bs s s₁ ∧
        rs.map Prod.fst = remaining ∧ Acts env remaining as ∧
        s'.conv = answered env s₁.conv rs ∧
        s'.trace = s₁.trace ++ (as ++ [.persisted s'.conv]))
      (OnExc
        (fun s' => ∃ bs as, s'.trace = s.trace ++ bs ++ as ∧ Resolved env p bs ∧
          Acts env remaining as)
        (fun call arguments decision s' => ∃ result bs s₁, Settled env p result bs s s₁ ∧
          BatchPaused env remaining s₁ call arguments decision s')) s := by
  unfold resolvePendingConfirmation
  rw [Lib.wp_bind, Lib.wp_get, hp]
  dsimp only
  rw [Lib.wp_bind, Lib.wp_modify, Lib.wp_bind]
  apply (resolveVerdict_spec env approved p _).mono
  · rintro result s₁ ⟨bs, h₁, hresolved⟩
    rw [Lib.wp_bind]
    apply (still_emitToolCallFinished env p.call result s₁).mono
    · intro _ s₂ h₂
      have hadds := h₁.trans h₂.adds
      have hkept : s₂.runtime.pendingRemainingCalls = s.runtime.pendingRemainingCalls := by
        rw [hadds.runtime]
      -- the state the rest of the batch starts from
      have hsettled : Settled env p result bs s
          { recorded env p.call result s₂ with
            runtime := { s₂.runtime with pendingRemainingCalls := [] } } := by
        refine ⟨?_, ?_, hadds.runId, hresolved⟩
        · show s₂.conv.addToolResult _ _ _ = _
          rw [hadds.conv]
          rfl
        · show s₂.trace = _
          rw [hadds.trace, List.append_nil]
      show Wp (if !(trailingCalls p.call s₂.runtime.pendingRemainingCalls).isEmpty then
          executeToolCalls env (trailingCalls p.call s₂.runtime.pendingRemainingCalls) >>=
            fun _ => persistState
        else persistState) _ _
        { recorded env p.call result s₂ with
          runtime := { s₂.runtime with pendingRemainingCalls := [] } }
      rw [hkept, hremaining, Lib.wp_ite]
      refine ⟨fun _ => ?_, fun hnone => ?_⟩
      · rw [Lib.wp_bind]
        apply (ends_executeToolCalls env remaining _).mono
        · rintro _ s₃ ⟨rs, as, hrs, -, hprogress⟩
          refine ⟨result, bs, _, rs, as, hsettled, hrs, ?_, hprogress.conv, ?_⟩
          · rw [← hrs]
            exact hprogress.acts
          · show s₃.trace ++ [.persisted s₃.conv] = _
            rw [hprogress.trace, List.append_assoc]
        · intro e s₃ h₃
          cases e with
          | raised exc =>
              obtain ⟨as, htrace, hacts⟩ := h₃
              exact ⟨bs, as, by rw [htrace, hsettled.trace], hresolved, hacts⟩
          | pendingConfirmation call arguments decision id =>
              exact ⟨result, bs, _, hsettled, h₃⟩
      · have hempty : remaining = [] := by simpa using hnone
        refine ⟨result, bs, _, [], [], hsettled, hempty.symm, ?_, rfl, rfl⟩
        rw [hempty]
        exact Acts.nil env
    · exact fun _ _ h => h.1.elim
  · rintro e s₁ ⟨⟨exc, rfl⟩, bs, h₁, hresolved⟩
    refine ⟨bs, [], by rw [h₁.trace, List.append_nil], hresolved, ?_⟩
    exact (Acts.nil env).weaken (List.nil_sublist _)

-- ============================================================================
-- A paused batch and the agent rebuilt from it
-- ============================================================================

/-- What is known of a state in which a call waits: the arguments the gate saw,
    the decision on them, and a checkpoint of this very state. -/
structure Waiting (p : PendingConfirmation) (arguments : Json) (s : AgentState σ) : Prop where
  pending : s.runtime.pendingConfirmation = some p
  dict : toDict arguments = .ok p.arguments
  effective : arguments = p.call.arguments ∨ arguments.isObj = true
  allowed : p.decision.allowed = true
  checked : .checked p.call.id p.call.name arguments p.decision ∈ s.trace
  audited : .audited p.call.id p.call.name arguments p.decision ∈ s.trace
  saved : ∃ store, Replay.save store s.runId s.conv s.runtime = (s.store, .ok ())

theorem waiting_of_batchPaused {env : Env σ} {calls : List ToolCall} {s s' : AgentState σ}
    {call : ToolCall} {arguments : Json} {decision : PermissionDecision}
    (h : BatchPaused env calls s call arguments decision s') :
    ∃ kvs, Waiting ⟨call, kvs, decision⟩ arguments s' := by
  obtain ⟨done, rest, kept, rs, as, kvs, s₁, -, -, hp, hcleared, hkvs, -, -, htrace, -, hruntime,
    hsaved⟩ := h
  have hmem : ∀ a ∈ as, a ∈ s'.trace := by
    intro a ha
    rw [htrace, hp.trace]
    exact List.mem_append_right _ ha
  refine ⟨kvs, ?_, hkvs, hcleared.effective, hcleared.allowed, hmem _ hcleared.checked,
    hmem _ hcleared.audited, hsaved⟩
  rw [hruntime]

theorem rebuildCall_ok {call call' : ToolCall} (h : rebuildCall call = .ok call') :
    call'.id = call.id ∧ call'.name = call.name ∧ call'.arguments.isObj = true := by
  unfold rebuildCall at h
  cases hd : toDict call.arguments with
  | error e =>
      rw [hd] at h
      cases h
  | ok kvs =>
      rw [hd] at h
      obtain rfl := Except.ok.inj h
      exact ⟨rfl, rfl, rfl⟩

theorem rebuildCalls_ok {calls calls' : List ToolCall} (h : rebuildCalls calls = .ok calls') :
    calls'.map ToolCall.id = calls.map ToolCall.id ∧
      ∀ call ∈ calls', call.arguments.isObj = true := by
  induction calls generalizing calls' with
  | nil =>
      obtain rfl := Except.ok.inj h
      exact ⟨rfl, by simp⟩
  | cons call calls ih =>
      unfold rebuildCalls at h
      cases hc : rebuildCall call with
      | error e =>
          rw [hc] at h
          cases h
      | ok call₁ =>
          cases hcs : rebuildCalls calls with
          | error e =>
              rw [hc, hcs] at h
              cases h
          | ok calls₁ =>
              rw [hc, hcs] at h
              obtain rfl := Except.ok.inj h
              obtain ⟨hids, hobj⟩ := ih hcs
              obtain ⟨hid, -, hobj₁⟩ := rebuildCall_ok hc
              refine ⟨by simp [hids, hid], ?_⟩
              intro c hmem
              rcases List.mem_cons.mp hmem with rfl | hmem
              · exact hobj₁
              · exact hobj c hmem

/-- What a rebuilt agent starts from: the redacted pending call and the
    redacted calls behind it, with dictionaries for arguments. -/
theorem rebuildRuntime_ok {r r' : Runtime} {p : PendingConfirmation}
    (hp : r.pendingConfirmation = some p)
    (h : rebuildRuntime (redactRuntime r) = .ok r') :
    (∃ p', r'.pendingConfirmation = some p' ∧ p'.call.id = redactSecrets p.call.id ∧
      p'.call.name = redactSecrets p.call.name ∧ p'.arguments = redactFields p.arguments) ∧
    r'.pendingRemainingCalls.map ToolCall.id
      = r.pendingRemainingCalls.map (fun call => redactSecrets call.id) ∧
    ∀ call ∈ r'.pendingRemainingCalls, call.arguments.isObj = true := by
  have hpending : (redactRuntime r).pendingConfirmation = some (redactPending p) := by
    show r.pendingConfirmation.map redactPending = _
    rw [hp, Option.map_some]
  unfold rebuildRuntime at h
  rw [hpending, rebuildPending] at h
  cases hc : rebuildCall (redactPending p).call with
  | error e =>
      rw [hc] at h
      cases h
  | ok call =>
      cases hcs : rebuildCalls (redactRuntime r).pendingRemainingCalls with
      | error e =>
          rw [hc, hcs] at h
          cases h
      | ok calls =>
          rw [hc, hcs] at h
          obtain rfl := Except.ok.inj h
          obtain ⟨hid, hname, -⟩ := rebuildCall_ok hc
          obtain ⟨hids, hobj⟩ := rebuildCalls_ok hcs
          refine ⟨⟨_, rfl, hid, hname, rfl⟩, ?_, hobj⟩
          rw [hids]
          show (r.pendingRemainingCalls.map redactCall).map ToolCall.id = _
          rw [List.map_map]
          rfl

/-- What the agent rebuilt from a timeline starts from: its latest snapshot and
    its latest runtime step. -/
theorem resumeAgent_of_last (run : ReplayRun) {c : ConversationState} {r : Runtime} {world : σ}
    {seen : List Action} {s₁ : AgentState σ}
    (hsnap : lastPayload run.steps .snapshot = some (snapshotStep c).payload)
    (hcheck : lastPayload run.steps .checkpoint = some (checkpointStep run.runId r).payload)
    (h : resumeAgent (some run) run.runId world seen = .ok s₁) :
    rebuildRuntime (redactRuntime r) = .ok s₁.runtime ∧ s₁.conv = rebuildConv c ∧
      s₁.runId = run.runId ∧ s₁.trace = seen := by
  unfold resumeAgent at h
  rw [resume_of_last run hsnap hcheck (stateFromDict_stateToDict c)] at h
  cases hr : rebuildRuntime (redactRuntime r) with
  | error e =>
      rw [hr] at h
      cases h
  | ok r' =>
      rw [hr] at h
      cases ha : appendStep (some run) run.runId (resumedStep run.runId) with
      | error e =>
          rw [ha] at h
          cases h
      | ok run' =>
          rw [ha] at h
          obtain rfl := Except.ok.inj h
          exact ⟨rfl, rfl, rfl, rfl⟩

theorem resumeAgent_ok {store₀ : ReplayStore} {s s₁ : AgentState σ} {world : σ}
    {seen : List Action} (hsaved : Replay.save store₀ s.runId s.conv s.runtime = (s.store, .ok ()))
    (h : resumeAgent s.store s.runId world seen = .ok s₁) :
    rebuildRuntime (redactRuntime s.runtime) = .ok s₁.runtime ∧ s₁.conv = rebuildConv s.conv ∧
      s₁.runId = s.runId ∧ s₁.trace = seen := by
  obtain ⟨-, -, hstore⟩ := (save_eq_ok_iff _ _ _ _ _).mp hsaved
  rw [hstore] at h
  obtain ⟨hsnap, hcheck⟩ := lastPayload_snapshot (store₀.timeline s.runId).steps
    (snapshotStep s.conv) (checkpointStep s.runId s.runtime) rfl rfl
  exact resumeAgent_of_last ⟨s.runId, _⟩ hsnap hcheck h

-- ============================================================================
-- The gate on every path
-- ============================================================================

/-- Whatever a trace executes, the actions before it vouch for with these very
    arguments. -/
def GateSound (env : Env σ) (t : List Action) : Prop :=
  Guarded (fun before a => ∀ id attempt name kwargs, a = .executed id attempt name kwargs →
    Vouched env before id name (.obj kwargs)) t

/-- The arguments of a call are a JSON object, or a schema check insists on one. -/
def Unpackable (env : Env σ) (call : ToolCall) : Prop :=
  call.arguments.isObj = true ∨ (env.validateToolInputs = true ∧
    ∀ tool, env.findTool call.name = some tool → objectRoot tool.parameters = true)

/-- A pending call that a checkpoint keeps intact and whose arguments the gate
    would have found valid. -/
structure IntactPending (env : Env σ) (p : PendingConfirmation) : Prop where
  object : p.call.arguments.isObj = true
  id : redactSecrets p.call.id = p.call.id
  name : redactSecrets p.call.name = p.call.name
  arguments : secretFreeFields p.arguments = true
  valid : env.validateToolInputs = true → ∀ tool, env.findTool p.call.name = some tool →
    validateToolInput tool.parameters (.obj p.arguments) = []

/-- The paused state holds such a call. -/
def IntactPause (env : Env σ) (s : AgentState σ) : Prop :=
  ∀ p, s.runtime.pendingConfirmation = some p → IntactPending env p

theorem eq_obj_of_toKwargs {arguments : Json} {kwargs : Dict} (hobj : arguments.isObj = true)
    (h : toKwargs arguments = .ok kwargs) : arguments = .obj kwargs := by
  cases arguments with
  | obj kvs =>
      rw [toKwargs_obj] at h
      rw [Except.ok.inj h]
  | _ => cases hobj

theorem eq_obj_of_toDict {arguments : Json} {kvs : Dict} (hobj : arguments.isObj = true)
    (h : toDict arguments = .ok kvs) : arguments = .obj kvs := by
  cases arguments with
  | obj kvs' =>
      rw [toDict_obj] at h
      rw [Except.ok.inj h]
  | _ => cases hobj

/-- The actions of a batch are sound after any trace. -/
theorem GateSound.batch {env : Env σ} {calls : List ToolCall} {t as : List Action}
    (h : GateSound env t) (hacts : Acts env calls as)
    (hcalls : ∀ call ∈ calls, Unpackable env call) : GateSound env (t ++ as) := by
  refine Guarded.append h (hacts.guarded.mono ?_)
  rintro pre a hact id attempt name kwargs rfl
  obtain ⟨call, hcall, rfl, rfl, arguments, hkw, heff, hv⟩ := hact
  have hobj : arguments.isObj = true := by
    rcases heff with rfl | hobj
    · rcases hcalls call hcall with hobj | ⟨hon, hroot⟩
      · exact hobj
      · obtain ⟨d, -, -, -, -, tool, htool, hvalid⟩ := hv
        exact isObj_of_validateToolInput (hroot tool htool) (hvalid hon)
    · exact hobj
  obtain rfl := eq_obj_of_toKwargs hobj hkw
  exact hv.mono (by simp +contextual)

/-- So are the actions of a verdict on an intact call. -/
theorem GateSound.verdict {env : Env σ} {p p' : PendingConfirmation} {arguments : Json}
    {s : AgentState σ} {bs : List Action} (h : GateSound env s.trace)
    (hwait : Waiting p arguments s) (hintact : IntactPending env p)
    (hid : p'.call.id = redactSecrets p.call.id)
    (hname : p'.call.name = redactSecrets p.call.name)
    (hargs : p'.arguments = redactFields p.arguments) (hres : Resolved env p' bs) :
    GateSound env (s.trace ++ bs) := by
  rw [hintact.id] at hid
  rw [hintact.name] at hname
  rw [(redactFields_eq_self_iff _).mpr hintact.arguments] at hargs
  -- the gate saw the dictionary that is executed now
  have hobj : arguments.isObj = true := by
    rcases hwait.effective with heq | hobj
    · rw [heq]
      exact hintact.object
    · exact hobj
  obtain rfl := eq_obj_of_toDict hobj hwait.dict
  rcases hres with rfl | ⟨runs, rfl, hruns, -⟩
  · rw [List.append_nil]
    exact h
  · apply Guarded.append h
    have happrove : Guarded (fun pre a => ∀ id attempt name kwargs,
        a = .executed id attempt name kwargs →
          Vouched env (s.trace ++ pre) id name (.obj kwargs))
        [.approved p'.call.id p'.call.name (.obj p'.arguments)] := by
      apply Guarded.of_forall
      rintro a ha pre id attempt name kwargs rfl
      cases List.mem_singleton.mp ha
    apply happrove.append
    apply Guarded.of_forall
    rintro a ha pre id attempt name kwargs rfl
    obtain ⟨⟨attempt', kwargs', -, hkw, heq⟩, htool⟩ := hruns _ ha
    obtain ⟨rfl, -, rfl, rfl⟩ := Action.executed.inj heq
    rw [toKwargs_obj] at hkw
    obtain rfl := Except.ok.inj hkw
    obtain ⟨tool, htool⟩ := Option.isSome_iff_exists.mp htool
    rw [hid, hname, hargs]
    refine ⟨p.decision, hwait.allowed, ?_, ?_, fun _ => Or.inr ?_, tool, ?_, ?_⟩
    · exact List.mem_append_left _ hwait.checked
    · exact List.mem_append_left _ hwait.audited
    · simp
    · rw [← hname, htool]
    · intro hon
      exact hintact.valid hon tool (by rw [← hname, htool])

/-- Over every session of a batch whose calls unpack and whose pauses are
    intact, every tool execution was let through by the gate with the arguments
    it executes with. -/
theorem session_gate_sound (env : Env σ) (calls : List ToolCall) (start : AgentState σ)
    (hstart : GateSound env start.trace) (hcalls : ∀ call ∈ calls, Unpackable env call)
    {phase : Phase} {s : AgentState σ} (h : Session env calls start (IntactPause env) phase s) :
    GateSound env s.trace := by
  suffices hinv : GateSound env s.trace ∧
      (phase = .paused → ∃ p arguments, Waiting p arguments s) from hinv.1
  induction h with
  | started hland =>
      have hends := ends_executeToolCalls env calls start
      cases hland with
      | done hx =>
          obtain ⟨rs, as, hrs, -, hp⟩ := hends.of_ok hx
          rw [hp.trace]
          exact ⟨hstart.batch hp.acts (by rw [hrs]; exact hcalls), by simp⟩
      | raised hx =>
          obtain ⟨as, htrace, hacts⟩ := hends.of_error hx
          rw [htrace]
          exact ⟨hstart.batch hacts hcalls, by simp⟩
      | paused hx =>
          have hpaused := hends.of_error hx
          obtain ⟨kvs, hwait⟩ := waiting_of_batchPaused hpaused
          refine ⟨?_, fun _ => ⟨_, _, hwait⟩⟩
          obtain ⟨done, rest, kept, rs, as, kvs, s₁, rfl, rfl, hp, -, -, -, -, htrace, -⟩ := hpaused
          rw [htrace, hp.trace]
          exact hstart.batch hp.acts fun call hcall => hcalls call (List.mem_append_left _ hcall)
  | @resumed phase s s₁ s₂ approved world hbefore hok hresume hland ih =>
      obtain ⟨hsound, hwaits⟩ := ih
      obtain ⟨p, arguments, hwait⟩ := hwaits rfl
      obtain ⟨store₀, hsaved⟩ := hwait.saved
      obtain ⟨hruntime, -, -, htrace₁⟩ := resumeAgent_ok hsaved hresume
      obtain ⟨⟨p', hp', hid, hname, hargs⟩, -, hobj⟩ := rebuildRuntime_ok hwait.pending hruntime
      have hverdict : ∀ bs, Resolved env p' bs → GateSound env (s.trace ++ bs) := fun bs hres =>
        hsound.verdict hwait (hok p hwait.pending) hid hname hargs hres
      -- the calls behind the pending one come back with dictionaries
      have hrest : ∀ call ∈ trailingCalls p'.call s₁.runtime.pendingRemainingCalls,
          Unpackable env call :=
        fun call hcall => Or.inl (hobj call (trailingCalls_subset _ _ hcall))
      have hresolve := resolve_spec env approved hp' rfl
      cases hland with
      | done hx =>
          obtain ⟨result, bs, s₃, rs, as, hsettled, -, hacts, -, htrace⟩ := hresolve.of_ok hx
          refine ⟨?_, by simp⟩
          rw [htrace, hsettled.trace, htrace₁, ← List.append_assoc]
          apply Guarded.append ((hverdict bs hsettled.resolved).batch hacts hrest)
          apply Guarded.of_forall
          rintro a ha pre id attempt name kwargs rfl
          cases List.mem_singleton.mp ha
      | raised hx =>
          obtain ⟨bs, as, htrace, hres, hacts⟩ := hresolve.of_error hx
          rw [htrace, htrace₁]
          exact ⟨(hverdict bs hres).batch hacts hrest, by simp⟩
      | paused hx =>
          obtain ⟨result, bs, s₃, hsettled, hpaused⟩ := hresolve.of_error hx
          obtain ⟨kvs, hwait'⟩ := waiting_of_batchPaused hpaused
          refine ⟨?_, fun _ => ⟨_, _, hwait'⟩⟩
          obtain ⟨done, rest, kept, rs, as, kvs, s₄, hsplit, rfl, hp, -, -, -, -, htrace, -⟩ :=
            hpaused
          rw [htrace, hp.trace, hsettled.trace, htrace₁]
          refine (hverdict bs hsettled.resolved).batch hp.acts fun call hcall => hrest call ?_
          rw [hsplit]
          exact List.mem_append_left _ hcall

/-- The phase a computation ends in. -/
def phaseOf {α : Type} : EStateM.Result Exc (AgentState σ) α → Phase
  | .ok _ _ => .done
  | .error (.pendingConfirmation _ _ _ _) _ => .paused
  | .error (.raised _) _ => .raised

/-- The state a computation ends in. -/
def stateOf {α : Type} : EStateM.Result Exc (AgentState σ) α → AgentState σ
  | .ok _ s => s
  | .error _ s => s

theorem lands {α : Type} (x : M σ α) (s : AgentState σ) {phase : Phase}
    (h : phaseOf (x s) = phase) : Lands x s phase (stateOf (x s)) := by
  subst h
  cases hx : x s with
  | ok a s' => exact .done hx
  | error e s' =>
      cases e with
      | pendingConfirmation call arguments decision id => exact .paused hx
      | raised e => exact .raised hx

theorem eq_ok_getD {α : Type} (x : Except PyExc α) (d : α) (h : x.toOption.isSome = true) :
    x = .ok (x.toOption.getD d) := by
  cases x with
  | ok a => rfl
  | error e => cases h

/-- A tool that deletes a file. -/
def deleteFile : Tool Unit where
  name := py "rm"
  parameters := .obj [(py "type", .str (py "object")),
    (py "properties", .obj [(py "path", .obj [(py "type", .str (py "string"))])]),
    (py "required", .arr [.str (py "path")])]
  execute := fun _ w => (.ok (.value (.str (py "deleted"))), w)

/-- An agent whose policy has a human confirm every call. -/
def confirmingAgent : Env Unit where
  tools := [deleteFile]
  permissionPolicy := fun _ _ w => (.ok ⟨true, py "confirm", true⟩, w)
  checkpointManager := true
  idempotencyKey := fun _ _ _ => []
  digest := fun _ => []
  cancelRequested := fun w => (false, w)
  timedOut := fun _ w => (false, w)
  slotsReleased := fun w => (0, w)
  monotonic := fun w => (0, w)

/-- That agent in a run. -/
def inRun : AgentState Unit where
  conv := {}
  runtime := {}
  runId := py "run"
  world := ()

/-- It pauses at a call, -/
def pausedAt (call : ToolCall) : AgentState Unit :=
  stateOf (executeToolCalls confirmingAgent [call] inRun)

/-- is rebuilt from the checkpoint, -/
def rebuiltAt (call : ToolCall) : AgentState Unit :=
  (resumeAgent (pausedAt call).store (pausedAt call).runId () (pausedAt call).trace).toOption.getD
    inRun

/-- and the human approves the call. -/
def approvedAt (call : ToolCall) : AgentState Unit :=
  stateOf (resolvePendingConfirmation confirmingAgent true (rebuiltAt call))

/-- A call to delete something. -/
def deleteCall (id : String) (path : Json) : ToolCall :=
  ⟨py id, py "rm", .obj [(py "path", path)]⟩

-- sessions are built from their steps, not found by evaluation
attribute [local irreducible] executeToolCalls resumeAgent resolvePendingConfirmation

theorem session_approvedAt {call : ToolCall} {ok : AgentState Unit → Prop}
    (h : phaseOf (executeToolCalls confirmingAgent [call] inRun) = .paused ∧
      (resumeAgent (pausedAt call).store (pausedAt call).runId ()
        (pausedAt call).trace).toOption.isSome = true ∧
      phaseOf (resolvePendingConfirmation confirmingAgent true (rebuiltAt call)) = .done)
    (hok : ok (pausedAt call)) :
    Session confirmingAgent [call] inRun ok .done (approvedAt call) :=
  .resumed true () (.started (lands _ _ h.1)) hok (eq_ok_getD _ inRun h.2.1) (lands _ _ h.2.2)

theorem findTool_confirmingAgent : confirmingAgent.findTool (py "rm") = some deleteFile := by
  show List.find? _ [deleteFile] = _
  rw [List.find?_cons_of_pos (by simp [deleteFile])]

/-- A path that is a number: the gate pauses before it looks at the schema, and
    nobody looks at it after the approval. -/
theorem approved_number_executes :
    ∃ s, Session confirmingAgent [deleteCall "t1" (.int 5)] inRun (fun _ => True) .done s ∧
      ¬ GateSound confirmingAgent s.trace := by
  refine ⟨approvedAt (deleteCall "t1" (.int 5)), ?_, ?_⟩
  · exact session_approvedAt (by decide +kernel) trivial
  · intro hsound
    have hmem : Action.executed (py "t1") 0 (py "rm") [(py "path", .int 5)]
        ∈ (approvedAt (deleteCall "t1" (.int 5))).trace := by decide +kernel
    obtain ⟨pre, post, htrace⟩ := List.append_of_mem hmem
    obtain ⟨-, -, -, -, -, tool, htool, hvalid⟩ := hsound pre _ post htrace _ _ _ _ rfl
    obtain rfl := Option.some.inj (findTool_confirmingAgent.symm.trans htool)
    have hproblems : validateToolInput deleteFile.parameters (.obj [(py "path", .int 5)]) ≠ [] := by
      decide
    exact hproblems (hvalid rfl)

theorem pending_pausedAt_text :
    (pausedAt (deleteCall "t1" (.str (py "a.py")))).runtime.pendingConfirmation
      = some ⟨deleteCall "t1" (.str (py "a.py")), [(py "path", .str (py "a.py"))],
          ⟨true, py "confirm", true⟩⟩ := by
  decide +kernel

theorem session_text {ok : AgentState Unit → Prop}
    (hok : ok (pausedAt (deleteCall "t1" (.str (py "a.py"))))) :
    Session confirmingAgent [deleteCall "t1" (.str (py "a.py"))] inRun ok .done
      (approvedAt (deleteCall "t1" (.str (py "a.py")))) :=
  session_approvedAt (by decide +kernel) hok

/-- A call with a proper path, paused, resumed and approved. -/
theorem approved_text_gate_sound :
    GateSound confirmingAgent (approvedAt (deleteCall "t1" (.str (py "a.py")))).trace := by
  refine session_gate_sound confirmingAgent [deleteCall "t1" (.str (py "a.py"))] inRun
    Guarded.nil ?_ (session_text ?_)
  · intro call hcall
    obtain rfl := List.mem_singleton.mp hcall
    exact Or.inl rfl
  · intro p hp
    rw [pending_pausedAt_text] at hp
    obtain rfl := Option.some.inj hp
    refine ⟨rfl, by decide, by decide, by decide, ?_⟩
    intro _ tool htool
    obtain rfl := Option.some.inj (findTool_confirmingAgent.symm.trans htool)
    decide

-- ============================================================================
-- Every call answered once, in order
-- ============================================================================

/-- Two conversations with the same history under the same cap. -/
structure SameHistory (c c' : ConversationState) : Prop where
  cap : c.maxMessages = c'.maxMessages
  messages : c.messages = c'.messages

theorem SameHistory.refl (c : ConversationState) : SameHistory c c := ⟨rfl, rfl⟩

theorem SameHistory.trans {c c' c'' : ConversationState} (h : SameHistory c c')
    (h' : SameHistory c' c'') : SameHistory c c'' :=
  ⟨h.cap.trans h'.cap, h.messages.trans h'.messages⟩

theorem SameHistory.append {c c' : ConversationState} (h : SameHistory c c') (msg : Message) :
    SameHistory (c.append msg) (c'.append msg) := by
  unfold ConversationState.append ConversationState.enforceCap
  dsimp only
  rw [h.cap, h.messages]
  cases c'.maxMessages with
  | none => exact ⟨rfl, rfl⟩
  | some cap => exact ⟨rfl, rfl⟩

theorem SameHistory.answered {c c' : ConversationState} (h : SameHistory c c') (env : Env σ)
    (rs : List (ToolCall × ToolResult)) :
    SameHistory (answered env c rs) (answered env c' rs) := by
  induction rs generalizing c c' with
  | nil => exact h
  | cons r rs ih => exact ih (h.append _)

/-- The ids of answered calls. -/
def answeredIds (rs : List (ToolCall × ToolResult)) : List PyStr := rs.map fun r => r.1.id

theorem answeredIds_append (rs rs' : List (ToolCall × ToolResult)) :
    answeredIds (rs ++ rs') = answeredIds rs ++ answeredIds rs' := List.map_append ..

/-- The batch has come to the results `rs`, with every call executed for the
    first time at most once and in order. -/
structure Reached (env : Env σ) (start : AgentState σ) (rs : List (ToolCall × ToolResult))
    (s : AgentState σ) : Prop where
  history : SameHistory s.conv (answered env start.conv rs)
  once : ∃ as, s.trace = start.trace ++ as ∧ (firstRuns as).Sublist (answeredIds rs)

/-- More results, with the actions that led to them. -/
theorem Reached.more {env : Env σ} {start s s' : AgentState σ}
    {rs rs' : List (ToolCall × ToolResult)} {bs : List Action} (h : Reached env start rs s)
    (hconv : SameHistory s'.conv (answered env s.conv rs')) (htrace : s'.trace = s.trace ++ bs)
    (honce : (firstRuns bs).Sublist (answeredIds rs')) : Reached env start (rs ++ rs') s' := by
  obtain ⟨as, has, honce₀⟩ := h.once
  refine ⟨?_, as ++ bs, by rw [htrace, has, List.append_assoc], ?_⟩
  · have hboth : answered env start.conv (rs ++ rs')
        = answered env (answered env start.conv rs) rs' := List.foldl_append ..
    rw [hboth]
    exact hconv.trans (h.history.answered env rs')
  · rw [firstRuns_append, answeredIds_append]
    exact honce₀.append honce

/-- A paused session: the calls in front of the pending one are answered, and
    the checkpoint keeps the ones behind it. -/
structure Halfway (env : Env σ) (calls : List ToolCall) (start : AgentState σ)
    (s : AgentState σ) : Prop where
  split : ∃ p arguments rs rest, Waiting p arguments s ∧ Reached env start rs s ∧
    calls.map ToolCall.id = answeredIds rs ++ p.call.id :: rest ∧
    (s.runtime.pendingRemainingCalls.map ToolCall.id = p.call.id :: rest ∨
      s.runtime.pendingRemainingCalls.map ToolCall.id = rest)

theorem answeredIds_eq {rs : List (ToolCall × ToolResult)} {calls : List ToolCall}
    (h : rs.map Prod.fst = calls) : answeredIds rs = calls.map ToolCall.id := by
  rw [← h, answeredIds, List.map_map]
  rfl

theorem halfway_of_batchPaused {env : Env σ} {calls batch : List ToolCall}
    {start s s' : AgentState σ} {rs : List (ToolCall × ToolResult)} {call : ToolCall}
    {arguments : Json} {decision : PermissionDecision} (h : Reached env start rs s)
    (hids : calls.map ToolCall.id = answeredIds rs ++ batch.map ToolCall.id)
    (hpaused : BatchPaused env batch s call arguments decision s') :
    Halfway env calls start s' := by
  obtain ⟨kvs, hwait⟩ := waiting_of_batchPaused hpaused
  obtain ⟨done, rest, kept, rs', as, kvs', s₁, rfl, hrs', hp, -, -, hkept, hconv, htrace, -, hruntime,
    -⟩ := hpaused
  have hdone := answeredIds_eq hrs'
  have hacts : (firstRuns as).Sublist (answeredIds rs') := by
    rw [answeredIds_eq rfl]
    exact hp.acts.once
  refine ⟨_, arguments, rs ++ rs', rest.map ToolCall.id, hwait, ?_, ?_, ?_⟩
  · refine h.more ?_ (htrace.trans hp.trace) hacts
    rw [hconv, hp.conv]
    exact SameHistory.refl _
  · rw [hids, answeredIds_append, List.map_append, List.append_assoc, hdone, List.map_cons]
  · rw [hruntime]
    rcases hkept with rfl | rfl
    · exact Or.inl rfl
    · exact Or.inr rfl

theorem trailingCalls_ids {call : ToolCall} {kept : List ToolCall} {rest : List PyStr}
    (hnew : call.id ∉ rest)
    (h : kept.map ToolCall.id = call.id :: rest ∨ kept.map ToolCall.id = rest) :
    (trailingCalls call kept).map ToolCall.id = rest := by
  cases kept with
  | nil =>
      rcases h with h | h
      · cases h
      · exact h
  | cons r rs =>
      show (if r.id = call.id then rs else r :: rs).map ToolCall.id = rest
      rcases h with h | h
      · obtain ⟨hid, hrest⟩ := List.cons.inj h
        rw [if_pos hid]
        exact hrest
      · rw [if_neg]
        · exact h
        · intro hid
          exact hnew (by rw [← h, List.map_cons, ← hid]; exact List.mem_cons_self ..)

/-- The checkpoint of a paused state keeps the ids of its calls. -/
structure IntactIds (s : AgentState σ) : Prop where
  pending : ∀ p, s.runtime.pendingConfirmation = some p → redactSecrets p.call.id = p.call.id
  remaining : ∀ call ∈ s.runtime.pendingRemainingCalls, redactSecrets call.id = call.id

theorem firstRuns_resolved {env : Env σ} {p : PendingConfirmation} {bs : List Action}
    (h : Resolved env p bs) : (firstRuns bs).Sublist [p.call.id] := by
  rcases h with rfl | ⟨runs, rfl, -, honce⟩
  · exact List.nil_sublist _
  · exact honce

/-- A state in which a call waits, whoever brought it about: the calls in front
    of it are answered, and the ones behind it are kept. -/
structure Stopped (env : Env σ) (calls : List ToolCall) (start : AgentState σ)
    (s : AgentState σ) : Prop where
  split : ∃ p rs rest, s.runtime.pendingConfirmation = some p ∧ Reached env start rs s ∧
    calls.map ToolCall.id = answeredIds rs ++ p.call.id :: rest ∧
    (s.runtime.pendingRemainingCalls.map ToolCall.id = p.call.id :: rest ∨
      s.runtime.pendingRemainingCalls.map ToolCall.id = rest)

theorem Halfway.stopped {env : Env σ} {calls : List ToolCall} {start s : AgentState σ}
    (h : Halfway env calls start s) : Stopped env calls start s := by
  obtain ⟨p, arguments, rs, rest, hwait, hreached, hids, hkept⟩ := h.split
  exact ⟨p, rs, rest, hwait.pending, hreached, hids, hkept⟩

/-- An agent rebuilt from such a state goes on where it stopped. -/
theorem Stopped.resolve {env : Env σ} {calls : List ToolCall} {start s s₁ s₂ : AgentState σ}
    {approved : Bool} {phase : Phase} (h : Stopped env calls start s)
    (hdistinct : (calls.map ToolCall.id).Nodup) (hok : IntactIds s)
    (hruntime : rebuildRuntime (redactRuntime s.runtime) = .ok s₁.runtime)
    (hconv₁ : s₁.conv = rebuildConv s.conv) (htrace₁ : s₁.trace = s.trace)
    (hland : Lands (resolvePendingConfirmation env approved) s₁ phase s₂) :
    (phase = .paused → Halfway env calls start s₂) ∧
      (phase = .done → ∃ rs, answeredIds rs = calls.map ToolCall.id ∧ Reached env start rs s₂) := by
  obtain ⟨p, rs, rest, hpending, hreached, hids, hkept⟩ := h.split
  obtain ⟨⟨p', hp', hid, -, -⟩, hremaining, -⟩ := rebuildRuntime_ok hpending hruntime
  -- nothing was redacted, so the rebuilt agent goes on with the same ids
  rw [hok.pending p hpending] at hid
  rw [List.map_congr_left hok.remaining] at hremaining
  have hnew : p.call.id ∉ rest := by
    rw [hids] at hdistinct
    exact (List.nodup_cons.mp (List.nodup_append.mp hdistinct).2.1).1
  have htrailing : (trailingCalls p'.call s₁.runtime.pendingRemainingCalls).map ToolCall.id
      = rest := by
    apply trailingCalls_ids
    · rw [hid]
      exact hnew
    · rw [hremaining, hid]
      exact hkept
  have hreached₁ : Reached env start rs s₁ := by
    obtain ⟨as, has, honce⟩ := hreached.once
    refine ⟨?_, as, htrace₁.trans has, honce⟩
    rw [hconv₁]
    exact ⟨hreached.history.cap, hreached.history.messages⟩
  have hsettle : ∀ result bs s₃, Settled env p' result bs s₁ s₃ →
      Reached env start (rs ++ [(p'.call, result)]) s₃ := by
    intro result bs s₃ hsettled
    refine hreached₁.more ?_ hsettled.trace (firstRuns_resolved hsettled.resolved)
    rw [hsettled.conv]
    exact SameHistory.refl _
  have hids' : ∀ result, calls.map ToolCall.id = answeredIds (rs ++ [(p'.call, result)])
      ++ (trailingCalls p'.call s₁.runtime.pendingRemainingCalls).map ToolCall.id := by
    intro result
    rw [hids, htrailing, answeredIds_append, List.append_assoc, ← hid]
    rfl
  have hresolve := resolve_spec env approved hp' rfl
  cases hland with
  | done hx =>
      obtain ⟨result, bs, s₃, rs', as, hsettled, hrs', hacts, hconv, htrace⟩ := hresolve.of_ok hx
      refine ⟨by simp, fun _ => ⟨(rs ++ [(p'.call, result)]) ++ rs', ?_, ?_⟩⟩
      · rw [hids' result, answeredIds_append, answeredIds_eq hrs']
      · refine (hsettle result bs s₃ hsettled).more ?_ htrace ?_
        · rw [hconv]
          exact SameHistory.refl _
        · rw [firstRuns_append, answeredIds_eq hrs']
          show (firstRuns as ++ []).Sublist _
          rw [List.append_nil]
          exact hacts.once
  | raised hx => exact ⟨by simp, by simp⟩
  | paused hx =>
      obtain ⟨result, bs, s₃, hsettled, hpaused⟩ := hresolve.of_error hx
      exact ⟨fun _ => halfway_of_batchPaused (hsettle result bs s₃ hsettled) (hids' result)
        hpaused, by simp⟩

/-- So does one rebuilt from the checkpoint of a paused session. -/
theorem Halfway.resume {env : Env σ} {calls : List ToolCall} {start s s₁ s₂ : AgentState σ}
    {approved : Bool} {world : σ} {phase : Phase} (h : Halfway env calls start s)
    (hdistinct : (calls.map ToolCall.id).Nodup) (hok : IntactIds s)
    (hresume : resumeAgent s.store s.runId world s.trace = .ok s₁)
    (hland : Lands (resolvePendingConfirmation env approved) s₁ phase s₂) :
    (phase = .paused → Halfway env calls start s₂) ∧
      (phase = .done → ∃ rs, answeredIds rs = calls.map ToolCall.id ∧ Reached env start rs s₂) := by
  obtain ⟨p, arguments, rs, rest, hwait, -, -, -⟩ := h.split
  obtain ⟨store₀, hsaved⟩ := hwait.saved
  obtain ⟨hruntime, hconv, -, htrace⟩ := resumeAgent_ok hsaved hresume
  exact h.stopped.resolve hdistinct hok hruntime hconv htrace hland

/-- A session whose pauses keep the ids is half way when it pauses, and has
    answered every call when it comes to its end. -/
theorem session_reached (env : Env σ) (calls : List ToolCall) (start : AgentState σ)
    (hdistinct : (calls.map ToolCall.id).Nodup) {phase : Phase} {s : AgentState σ}
    (h : Session env calls start IntactIds phase s) :
    (phase = .paused → Halfway env calls start s) ∧
      (phase = .done → ∃ rs, answeredIds rs = calls.map ToolCall.id ∧ Reached env start rs s) := by
  induction h with
  | started hland =>
      have hzero : Reached env start [] start :=
        ⟨SameHistory.refl _, [], (List.append_nil _).symm, List.nil_sublist _⟩
      have hends := ends_executeToolCalls env calls start
      cases hland with
      | done hx =>
          obtain ⟨rs, as, hrs, -, hp⟩ := hends.of_ok hx
          refine ⟨by simp, fun _ => ⟨rs, answeredIds_eq hrs, ?_⟩⟩
          show Reached env start ([] ++ rs) _
          refine hzero.more ?_ hp.trace ?_
          · rw [hp.conv]
            exact SameHistory.refl _
          · rw [answeredIds_eq rfl]
            exact hp.acts.once
      | raised hx => exact ⟨by simp, by simp⟩
      | paused hx =>
          exact ⟨fun _ => halfway_of_batchPaused hzero rfl (hends.of_error hx), by simp⟩
  | resumed approved world hbefore hok hresume hland ih =>
      exact (ih.1 rfl).resume hdistinct hok hresume hland

/-- The cap of a conversation leaves room for that many results. -/
def RoomFor (c : ConversationState) (n : Nat) : Prop :=
  ∀ cap, c.maxMessages = some cap → n ≤ max cap.toNat 1

/-- With room for them, the results of a batch are the end of the history. -/
theorem answered_room (env : Env σ) {c : ConversationState} {older : List Message}
    {rs rs' : List (ToolCall × ToolResult)} (hroom : RoomFor c (rs.length + rs'.length))
    (hmessages : c.messages = older ++ rs.map (resultMessage env)) :
    ∃ older', older' <:+ older ∧ (c.maxMessages = none → older' = older) ∧
      (answered env c rs').messages = older' ++ (rs ++ rs').map (resultMessage env) := by
  induction rs' generalizing c older rs with
  | nil => exact ⟨older, List.suffix_refl _, fun _ => rfl, by simpa [answered] using hmessages⟩
  | cons r rs' ih =>
      -- one more result, after which the cap drops messages older than the batch
      obtain ⟨older₁, hsuffix, hall, hcap, hadd⟩ : ∃ older₁, older₁ <:+ older ∧
          (c.maxMessages = none → older₁ = older) ∧
          (addResult env c r).maxMessages = c.maxMessages ∧
          (addResult env c r).messages = older₁ ++ (rs ++ [r]).map (resultMessage env) := by
        cases hmax : c.maxMessages with
        | none =>
            have hadd : addResult env c r
                = { c with messages := c.messages ++ [resultMessage env r] } :=
              ConversationState.append_uncapped hmax _
            refine ⟨older, List.suffix_refl _, fun _ => rfl, by rw [hadd]; exact hmax, ?_⟩
            rw [hadd, hmessages, List.map_append, List.append_assoc]
            rfl
        | some cap =>
            have hadd : addResult env c r = { c with
                messages := ConversationState.dropOldest cap
                  (c.messages ++ [resultMessage env r]) } := by
              show ConversationState.enforceCap _ = _
              unfold ConversationState.enforceCap
              dsimp only
              rw [hmax]
              rfl
            have hfits := hroom cap hmax
            rw [List.length_cons] at hfits
            rw [hadd, ConversationState.dropOldest_eq_drop, hmessages, List.append_assoc]
            refine ⟨older.drop (older.length + (rs.length + 1) - max cap.toNat 1),
              List.drop_suffix .., by simp, hmax, ?_⟩
            have hlen : (older ++ (rs.map (resultMessage env) ++ [resultMessage env r])).length
                = older.length + (rs.length + 1) := by simp
            have hmap : (rs ++ [r]).map (resultMessage env)
                = rs.map (resultMessage env) ++ [resultMessage env r] := by simp
            rw [hlen, hmap]
            exact List.drop_append_of_le_length (by omega)
      have hroom₁ : RoomFor (addResult env c r) ((rs ++ [r]).length + rs'.length) := by
        intro cap hmax
        rw [hcap] at hmax
        have hfits := hroom cap hmax
        simp only [List.length_append, List.length_cons, List.length_nil] at hfits ⊢
        omega
      obtain ⟨older', hsuffix', hall', hmessages'⟩ := ih hroom₁ hadd
      refine ⟨older', hsuffix'.trans hsuffix, ?_, ?_⟩
      · intro hmax
        rw [hall' (hcap.trans hmax), hall hmax]
      · show (answered env (addResult env c r) rs').messages = _
        rw [hmessages', List.append_assoc]
        rfl

/-- A session of a batch with distinct ids whose pauses keep the ids, once no
    confirmation is pending, has appended one result per call in call order
    and executed no call twice but for retries. -/
theorem session_answers_batch (env : Env σ) (calls : List ToolCall) (start : AgentState σ)
    (hdistinct : (calls.map ToolCall.id).Nodup) (hroom : RoomFor start.conv calls.length)
    {s : AgentState σ} (h : Session env calls start IntactIds .done s) :
    ∃ older rs as, older <:+ start.conv.messages ∧
      (start.conv.maxMessages = none → older = start.conv.messages) ∧
      s.conv.messages = older ++ rs.map (resultMessage env) ∧
      answeredIds rs = calls.map ToolCall.id ∧
      s.trace = start.trace ++ as ∧ (firstRuns as).Nodup := by
  obtain ⟨rs, hids, hreached⟩ := (session_reached env calls start hdistinct h).2 rfl
  obtain ⟨as, htrace, honce⟩ := hreached.once
  have hlen : rs.length = calls.length := by
    have := congrArg List.length hids
    simpa [answeredIds] using this
  obtain ⟨older, hsuffix, hall, hmessages⟩ := @answered_room _ env start.conv start.conv.messages
    [] rs (by simpa [hlen] using hroom) (by simp)
  refine ⟨older, rs, as, hsuffix, hall, ?_, hids, htrace, ?_⟩
  · rw [hreached.history.messages, hmessages]
    rfl
  · rw [hids] at honce
    exact honce.nodup hdistinct

/-- A call paused, resumed and approved. -/
theorem approved_text_answered :
    ∃ older rs as, older <:+ inRun.conv.messages ∧
      (inRun.conv.maxMessages = none → older = inRun.conv.messages) ∧
      (approvedAt (deleteCall "t1" (.str (py "a.py")))).conv.messages
        = older ++ rs.map (resultMessage confirmingAgent) ∧
      answeredIds rs = [deleteCall "t1" (.str (py "a.py"))].map ToolCall.id ∧
      (approvedAt (deleteCall "t1" (.str (py "a.py")))).trace = inRun.trace ++ as ∧
      (firstRuns as).Nodup := by
  refine session_answers_batch confirmingAgent [deleteCall "t1" (.str (py "a.py"))] inRun
    (by simp) (fun cap hcap => by cases hcap) (session_text ⟨?_, ?_⟩)
  · intro p hp
    rw [pending_pausedAt_text] at hp
    obtain rfl := Option.some.inj hp
    decide
  · decide +kernel

/-- A call whose id looks like an API key: its result comes back under another
    id, and the call itself stays unanswered. -/
theorem approved_keyId_unanswered :
    ∃ s, Session confirmingAgent [deleteCall "sk-0123456789abcdefghij" (.str (py "a.py"))] inRun
        (fun _ => True) .done s ∧
      s.conv.messages.flatMap messageToolResultIds = [.str (py "[REDACTED]")] := by
  refine ⟨approvedAt (deleteCall "sk-0123456789abcdefghij" (.str (py "a.py"))), ?_, ?_⟩
  · exact session_approvedAt (by decide +kernel) trivial
  · decide +kernel

end Agent
end KineticSdk
