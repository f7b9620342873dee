/-
  KineticSdk.Agent.Resume

  An agent rebuilt from a checkpoint, and what approving its pending call
  does: the tool is executed with the arguments of the restored confirmation.
  These are the ones the human was shown exactly when the checkpoint gives
  back what was saved.
-/

import KineticSdk.Agent.Batch
import KineticSdk.Replay.RoundTrip

namespace KineticSdk
namespace Agent

open Py Tool Security Conversation Replay
open Lib (Wp)

variable {σ : Type}

/-- `CheckpointManager.resume` (and `resume_async`): a new agent, whose run is
    the old one.  What observers have seen of the run so far goes on. -/
def resumeAgent (store : ReplayStore) (checkpointId : PyStr) (world : σ) (seen : List Action) :
    Except PyExc (AgentState σ) :=
  match Replay.resume store checkpointId with
  | .error e => .error e
  | .ok (conv, runtime) =>
      match appendStep store checkpointId (resumedStep checkpointId) with
      | .error e => .error e
      | .ok run => .ok
          { conv := conv
            runtime := runtime
            runId := checkpointId
            store := some run
            resuming := true
            world := world
            trace := seen }

-- ============================================================================
-- Approving
-- ============================================================================

theorem invokeTool_executes (env : Env σ) (call : ToolCall) (attempt : Nat) (tool : Tool σ)
    (kwargs : Dict) (s : AgentState σ) :
    Wp (invokeTool env call attempt tool (.obj kwargs))
      (fun _ s' => Adds [.executed call.id attempt tool.name kwargs] s s')
      (fun _ _ => False) s := by
  have hnote := Adds.note s (.executed call.id attempt tool.name kwargs)
  unfold invokeTool
  rw [toKwargs_obj]
  dsimp only
  rw [Lib.wp_bind, Lib.wp_get, Lib.wp_bind, note, Lib.wp_modify, Lib.wp_bind]
  apply (still_ask _ _).mono
  · intro returned s' h
    have hadds : Adds [.executed call.id attempt tool.name kwargs] s s' := by
      simpa using hnote.trans h.adds
    cases returned with
    | error e => exact hadds
    | ok returned => cases returned <;> exact hadds
  · exact fun _ _ h => h.1

theorem acquireSlot_free (env : Env σ) {s : AgentState σ} (h : s.held < toolSlots) :
    Wp (acquireSlot env) (fun free s' => free = true ∧ Adds [] s s') (fun _ _ => False) s := by
  unfold acquireSlot
  simp only [Lib.wp_bind]
  show Wp (if _ then _ else _) _ _ _
  rw [Lib.wp_ite]
  refine ⟨fun _ => ⟨rfl, rfl, rfl, rfl, rfl, rfl, by simp⟩, fun hfull => ?_⟩
  exact absurd (show s.held - (env.slotsReleased s.world).1 < toolSlots by omega) hfull

/-- With a slot to spare the first attempt is made. -/
theorem runTool_executes (env : Env σ) (call : ToolCall) (attempt : Nat) (tool : Tool σ)
    (kwargs : Dict) {s : AgentState σ} (h : s.held < toolSlots) :
    Wp (runTool env call attempt tool (.obj kwargs))
      (fun _ s' => Adds [.executed call.id attempt tool.name kwargs] s s')
      (fun _ _ => False) s := by
  have hwithin : ∀ timeout remark s₁, Adds [] s s₁ →
      Wp (invokeWithin env call attempt tool (.obj kwargs) tool.name timeout remark)
        (fun _ s' => Adds [.executed call.id attempt tool.name kwargs] s s')
        (fun _ _ => False) s₁ := by
    intro timeout remark s₁ h₁
    unfold invokeWithin
    simp only [Lib.wp_bind]
    apply (invokeTool_executes env call attempt tool kwargs s₁).mono
    · intro result s₂ h₂
      apply (still_ask _ s₂).mono
      · intro expired s₃ h₃
        have hadds : Adds [.executed call.id attempt tool.name kwargs] s s₃ := by
          simpa using (h₁.trans h₂).trans h₃.adds
        rw [Lib.wp_ite]
        exact ⟨fun _ => hadds, fun _ => hadds⟩
      · exact fun _ _ h => h.1
    · exact fun _ _ h => h
  unfold runTool
  cases toolTimeout env tool with
  | none => exact invokeTool_executes env call attempt tool kwargs s
  | some timeout =>
      cases env.kind with
      | async => exact hwithin timeout [] s (Adds.refl s)
      | sync =>
          simp only [Lib.wp_bind]
          apply (acquireSlot_free env h).mono
          · rintro free s₁ ⟨rfl, h₁⟩
            exact hwithin timeout _ s₁ h₁
          · exact fun _ _ h => h

/-- Approving the confirmation `p` executes the tool with `arguments`, and only
    with these: the first attempt at once, then what retries there are. -/
def ApprovesWith (arguments : Dict) (p : PendingConfirmation) : Prop :=
  ∀ {σ : Type} (env : Env σ) (tool : Tool σ) (s : AgentState σ),
    env.findTool p.call.name = some tool → s.held < toolSlots →
    let executes := fun s' : AgentState σ => ∃ retries,
      s'.trace = s.trace ++ .approved p.call.id p.call.name (.obj arguments)
        :: .executed p.call.id 0 p.call.name arguments :: retries ∧
      ∀ a ∈ retries, ∃ attempt, 1 ≤ attempt ∧ a = .executed p.call.id attempt p.call.name arguments
    Wp (resolveVerdict env true p) (fun _ s' => executes s') (fun _ s' => executes s') s

theorem approvesWith_own (p : PendingConfirmation) : ApprovesWith p.arguments p := by
  intro σ env tool s htool hheld
  have hname := findTool_name htool
  unfold resolveVerdict
  rw [if_pos rfl, htool]
  have hnote := Adds.note s (.approved p.call.id p.call.name (.obj p.arguments))
  show Wp (runCall env p.call tool (.obj p.arguments)) _ _
    { s with trace := s.trace ++ [.approved p.call.id p.call.name (.obj p.arguments)] }
  unfold runCall
  simp only [Lib.wp_bind]
  apply (runTool_executes env p.call 0 tool p.arguments (by exact hheld)).mono
  · intro result s₁ h₁
    apply (quiet_retryTransientTool env p.call tool (.obj p.arguments) result s₁).mono
    · rintro result' s₂ ⟨retries, h₂, hretry⟩
      have hadds := (hnote.trans h₁).trans h₂
      have hall : ∀ a ∈ retries, ∃ attempt, 1 ≤ attempt ∧
          a = .executed p.call.id attempt p.call.name p.arguments := by
        intro a ha
        obtain ⟨attempt, kwargs, hfirst, hkw, rfl⟩ := hretry a ha
        rw [toKwargs_obj] at hkw
        obtain rfl := Except.ok.inj hkw
        exact ⟨attempt, hfirst, by rw [hname]⟩
      have hdone : ∀ s₃, Extends silent s₂ s₃ → s₃.trace = s.trace
          ++ .approved p.call.id p.call.name (.obj p.arguments)
            :: .executed p.call.id 0 p.call.name p.arguments :: retries := by
        intro s₃ h₃
        rw [h₃.adds.trace, hadds.trace, hname]
        simp
      apply (quiet_finalizeCall env p.call tool (.obj p.arguments) result' s₂).mono
      · exact fun _ s₃ h₃ => ⟨retries, hdone s₃ h₃, hall⟩
      · exact fun _ s₃ h₃ => ⟨retries, hdone s₃ h₃.2.2, hall⟩
    · exact fun _ _ h => h.1.elim
  · exact fun _ _ h => h.elim

-- ============================================================================
-- What the human was shown
-- ============================================================================

/-- A checkpoint of this agent gives back everything it was saved with, and
    approving after a resume executes the tool with the arguments the human was
    shown. -/
def RestoresCheckpoint (store : ReplayStore) (runId : PyStr) (conv : ConversationState)
    (r : Runtime) : Prop :=
  ∃ store' conv' r', save store runId conv r = (store', .ok ()) ∧
    Replay.resume store' runId = .ok (conv', r') ∧ conv' = conv ∧ r' = r ∧
    ∀ p, r.pendingConfirmation = some p →
      ∃ p', r'.pendingConfirmation = some p' ∧ ApprovesWith p.arguments p'

/-- A checkpoint restores the agent it was saved from if and only if the run
    has started, the file can hold its texts, no summary object is among the
    conversation's metadata, and redaction finds nothing in the pending call,
    its arguments, its decision and the calls still to run. -/
theorem checkpoint_restores_iff (store : ReplayStore) (runId : PyStr) (conv : ConversationState)
    (r : Runtime) (h : ObjectArguments r) :
    RestoresCheckpoint store runId conv r ↔
      runId ≠ [] ∧ Writable store runId conv r ∧ plainMetadata conv ∧ SecretFree r := by
  rw [← resume_save_eq_iff store runId conv h]
  constructor
  · rintro ⟨store', conv', r', hsave, hresume, rfl, rfl, -⟩
    exact ⟨store', hsave, hresume⟩
  · rintro ⟨store', hsave, hresume⟩
    exact ⟨store', conv, r, hsave, hresume, rfl, rfl, fun p hp => ⟨p, hp, approvesWith_own p⟩⟩

/-- An agent that waits for a human to confirm a shell command. -/
def confirming (command : String) : Runtime where
  pendingConfirmation := some
    { call := ⟨py "t1", py "bash", .obj [(py "command", .str (py command))]⟩
      arguments := [(py "command", .str (py command))]
      decision := ⟨true, py "shell", true⟩ }

theorem objectArguments_confirming (command : String) :
    ObjectArguments (confirming command) := by
  refine ⟨?_, by simp [confirming]⟩
  intro p hp
  obtain rfl := Option.some.inj hp
  rfl

/-- A harmless command comes back as it was. -/
theorem confirming_ls_restored : RestoresCheckpoint none (py "run") {} (confirming "ls") := by
  refine (checkpoint_restores_iff none (py "run") {} (confirming "ls")
    (objectArguments_confirming "ls")).mpr ⟨by decide, ?_, ?_, ?_, ?_⟩
  · unfold Writable
    decide +kernel
  · exact fun kv hkv => absurd hkv (List.not_mem_nil)
  · intro p hp
    obtain rfl := Option.some.inj hp
    exact ⟨⟨by decide, by decide, by decide⟩, by decide,
      by decide⟩
  · exact fun call hcall => absurd hcall (List.not_mem_nil)

/-- The human is shown a command with a password; what comes back, and would be
    executed on approval, has the marker in its place. -/
theorem confirming_password_not_restored :
    ¬ RestoresCheckpoint none (py "run") {} (confirming "curl -d password=hunter22 x") ∧
      (redactRuntime (confirming "curl -d password=hunter22 x")).pendingConfirmation.map
          PendingConfirmation.arguments
        = some [(py "command", .str (py "curl -d password=[REDACTED] x"))] := by
  constructor
  · rintro ⟨store', conv', r', hsave, hresume, rfl, rfl, -⟩
    obtain ⟨-, -, -, hfree⟩ := (resume_save_eq_iff none (py "run") {}
      (objectArguments_confirming "curl -d password=hunter22 x")).mp ⟨store', hsave, hresume⟩
    have hargs := (hfree.pending _ rfl).arguments
    revert hargs
    decide
  · decide

end Agent
end KineticSdk
