/-
  KineticSdk.Agent.Gate

  What `_prepare_call` guarantees: a call it lets through was allowed by the
  policy and audited with the very arguments it will execute with, confirmed
  where the decision asked for it, and valid where inputs are validated.
-/

import KineticSdk.Agent.Frame

namespace KineticSdk
namespace Agent

open Py Tool Security Conversation Replay
open Lib (Wp)

variable {σ : Type}

/-- What holds when code is left by an exception: `R` of an ordinary one, `P`
    of a pause. -/
def OnExc (R : AgentState σ → Prop)
    (P : ToolCall → Json → PermissionDecision → AgentState σ → Prop) (e : Exc)
    (s : AgentState σ) : Prop :=
  match e with
  | .raised _ => R s
  | .pendingConfirmation call arguments decision _ => P call arguments decision s

-- ============================================================================
-- Gated calls
-- ============================================================================

/-- The decision on a call that the gate may let through, with the arguments
    the hooks left it: they are the model's own or a dictionary. -/
structure Cleared (call : ToolCall) (arguments : Json) (decision : PermissionDecision)
    (as : List Action) : Prop where
  effective : arguments = call.arguments ∨ arguments.isObj = true
  allowed : decision.allowed = true
  checked : .checked call.id call.name arguments decision ∈ as
  audited : .audited call.id call.name arguments decision ∈ as

/-- The actions in front of an execution vouch for it. -/
def Vouched (env : Env σ) (before : List Action) (id name : PyStr) (arguments : Json) : Prop :=
  ∃ decision : PermissionDecision, decision.allowed = true ∧
    .checked id name arguments decision ∈ before ∧ .audited id name arguments decision ∈ before ∧
    (decision.requiresConfirmation = true →
      .confirmed id name arguments ∈ before ∨ .approved id name arguments ∈ before) ∧
    ∃ tool, env.findTool name = some tool ∧
      (env.validateToolInputs = true → validateToolInput tool.parameters arguments = [])

theorem Vouched.mono {env : Env σ} {as bs : List Action} {id name : PyStr} {arguments : Json}
    (h : Vouched env as id name arguments) (hsub : ∀ a ∈ as, a ∈ bs) :
    Vouched env bs id name arguments := by
  obtain ⟨d, hallowed, hchecked, haudited, hconf, hvalid⟩ := h
  refine ⟨d, hallowed, hsub _ hchecked, hsub _ haudited, ?_, hvalid⟩
  intro hreq
  exact (hconf hreq).imp (hsub _) (hsub _)

/-- The actions the gate of a call adds. -/
def GateAction (call : ToolCall) : Action → Prop
  | .checked id name _ _ => id = call.id ∧ name = call.name
  | .audited id name _ _ => id = call.id ∧ name = call.name
  | .confirmed id name _ => id = call.id ∧ name = call.name
  | .declined id name _ => id = call.id ∧ name = call.name
  | _ => False

-- ============================================================================
-- The parts of the gate
-- ============================================================================

theorem foldl_toolInput (results : List HookResult) (arguments : Json) :
    results.foldl (fun arguments r => r.toolInput.getD arguments) arguments = arguments ∨
      (results.foldl (fun arguments r => r.toolInput.getD arguments) arguments).isObj = true := by
  induction results generalizing arguments with
  | nil => exact Or.inl rfl
  | cons r results ih =>
      rw [List.foldl_cons]
      cases hr : r.toolInput with
      | none => exact ih arguments
      | some v =>
          have hv : v.isObj = true := by
            unfold HookResult.toolInput at hr
            split at hr
            · obtain rfl := Option.some.inj hr
              rfl
            · cases hr
          right
          rcases ih v with h | h
          · rw [Option.getD_some, h]
            exact hv
          · exact h

theorem beforeToolCall_spec (env : Env σ) (call : ToolCall) (s : AgentState σ) :
    Wp (beforeToolCall env call)
      (fun r s' => Adds [] s s' ∧
        ∀ arguments, r = some arguments → arguments = call.arguments ∨ arguments.isObj = true)
      (fun _ _ => False) s := by
  unfold beforeToolCall
  rw [Lib.wp_bind]
  apply (still_triggerHooks env _ s).mono
  · intro results s' h
    rw [Lib.wp_ite]
    refine ⟨fun _ => ⟨h.adds, by simp⟩, fun _ => ⟨h.adds, ?_⟩⟩
    intro arguments harg
    obtain rfl := Option.some.inj harg
    exact foldl_toolInput results call.arguments
  · exact fun _ _ h => h.1

theorem confirmationStatus_spec (env : Env σ) (call : ToolCall) (arguments : Json)
    (decision : PermissionDecision) (s : AgentState σ) :
    Wp (confirmationStatus env call arguments decision)
      (fun c s' => ∃ as, Adds as s s' ∧ (∀ a ∈ as, GateAction call a) ∧
        (c = .approved → .confirmed call.id call.name arguments ∈ as))
      (fun _ _ => False) s := by
  unfold confirmationStatus
  rw [Lib.wp_bind]
  apply (still_triggerHooks env _ s).mono
  · intro results s' h
    rw [Lib.wp_ite, Lib.wp_ite]
    refine ⟨fun _ => ?_, fun _ => ⟨fun _ => ?_, fun _ => ?_⟩⟩
    · refine ⟨[.confirmed call.id call.name arguments], ?_, by simp [GateAction], by simp⟩
      simpa using h.adds.trans (Adds.note s' (.confirmed call.id call.name arguments))
    · exact ⟨[], h.adds, by simp, by simp⟩
    · refine ⟨[.declined call.id call.name arguments], ?_, by simp [GateAction], by simp⟩
      simpa using h.adds.trans (Adds.note s' (.declined call.id call.name arguments))
  · exact fun _ _ h => h.1

theorem checkTool_spec (env : Env σ) (call : ToolCall) (arguments : Json) (s : AgentState σ) :
    Wp (checkTool env call arguments)
      (fun g s' => Adds [] s s' ∧ ∀ tool args, g = .go tool args → args = arguments ∧
        env.findTool call.name = some tool ∧
        (env.validateToolInputs = true → validateToolInput tool.parameters arguments = []))
      (fun e s' => (∃ exc, e = .raised exc) ∧ Adds [] s s') s := by
  unfold checkTool
  cases htool : env.findTool call.name with
  | none => exact ⟨Adds.refl s, by simp⟩
  | some tool =>
      simp only [Lib.wp_bind]
      apply (still_circuitIsOpen env tool s).mono
      · intro isOpen s' h
        rw [Lib.wp_ite, Lib.wp_ite]
        refine ⟨fun _ => ⟨h.adds, by simp⟩, fun _ => ⟨fun _ => ?_, fun hvalid => ?_⟩⟩
        · rw [Lib.wp_bind]
          apply (quiet_log env _ s').mono
          · intro _ s'' h'
            exact ⟨by simpa using h.adds.trans h'.adds, by simp⟩
          · intro e s'' h'
            exact ⟨h'.2.1, by simpa using h.adds.trans h'.2.2.adds⟩
        · refine ⟨h.adds, ?_⟩
          intro tool' args hg
          obtain ⟨rfl, rfl⟩ := Gate.go.inj hg
          refine ⟨rfl, rfl, ?_⟩
          intro hon
          simpa [hon] using hvalid
      · exact fun _ _ h => h.1.elim

/-- Saving a checkpoint only touches the store. -/
theorem saveCheckpoint_spec (s : AgentState σ) :
    Wp saveCheckpoint
      (fun _ s' => s' = { s with store := s'.store } ∧
        Replay.save s.store s.runId s.conv s.runtime = (s'.store, .ok ()))
      (fun e s' => (∃ exc, e = .raised exc) ∧ s' = { s with store := s'.store }) s := by
  have hset : Wp (saveCheckpoint : M σ PUnit)
      (fun _ s' => s' = { s with store := (Replay.save s.store s.runId s.conv s.runtime).1 } ∧
        (Replay.save s.store s.runId s.conv s.runtime).2 = .ok ())
      (fun e s' => (∃ exc, e = .raised exc) ∧
        s' = { s with store := (Replay.save s.store s.runId s.conv s.runtime).1 }) s := by
    show Wp (lift (Replay.save s.store s.runId s.conv s.runtime).2) _ _
      { s with store := (Replay.save s.store s.runId s.conv s.runtime).1 }
    cases (Replay.save s.store s.runId s.conv s.runtime).2 with
    | ok u => exact ⟨rfl, rfl⟩
    | error e => exact ⟨⟨e, rfl⟩, rfl⟩
  apply hset.mono
  · rintro _ s' ⟨rfl, hok⟩
    exact ⟨rfl, Prod.ext rfl hok⟩
  · rintro e s' ⟨he, rfl⟩
    exact ⟨he, rfl⟩

/-- The state a pause leaves: the call is pending and a checkpoint says so. -/
structure Paused (p : PendingConfirmation) (s s' : AgentState σ) : Prop where
  conv : s'.conv = s.conv
  runtime : s'.runtime = { s.runtime with pendingConfirmation := some p }
  runId : s'.runId = s.runId
  trace : s'.trace = s.trace

theorem pause_spec (call : ToolCall) (arguments : Json) (decision : PermissionDecision)
    (s : AgentState σ) :
    Wp (pause call arguments decision) (fun _ _ => False)
      (OnExc (fun s' => s'.trace = s.trace)
        (fun c a d s' => c = call ∧ a = arguments ∧ d = decision ∧
          ∃ kvs, toDict arguments = .ok kvs ∧ Paused ⟨call, kvs, decision⟩ s s' ∧
            Replay.save s.store s.runId s.conv s'.runtime = (s'.store, .ok ()))) s := by
  unfold pause
  cases hkvs : toDict arguments with
  | error e => exact rfl
  | ok kvs =>
      simp only [Lib.wp_bind, lift, Lib.wp_pure, Lib.wp_modify]
      apply (saveCheckpoint_spec _).mono
      · rintro _ s' ⟨hs', hsave⟩
        rw [hs']
        exact ⟨rfl, rfl, rfl, kvs, rfl, ⟨rfl, rfl, rfl, rfl⟩, hsave⟩
      · rintro e s' ⟨⟨exc, rfl⟩, hs'⟩
        rw [hs']
        exact rfl

-- ============================================================================
-- The gate
-- ============================================================================

/-- What the gate says of a call it lets through. -/
def GateOk (env : Env σ) (call : ToolCall) (g : Gate σ) (as : List Action) : Prop :=
  ∀ tool arguments, g = .go tool arguments → env.findTool call.name = some tool ∧
    (arguments = call.arguments ∨ arguments.isObj = true) ∧
    Vouched env as call.id call.name arguments

/-- What the gate leaves behind when it pauses a call. -/
def GatePaused (s : AgentState σ) (call : ToolCall) (c : ToolCall) (arguments : Json)
    (decision : PermissionDecision) (s' : AgentState σ) : Prop :=
  c = call ∧ ∃ as s₁, Adds as s s₁ ∧ (∀ a ∈ as, GateAction call a) ∧
    Cleared call arguments decision as ∧
    ∃ kvs, toDict arguments = .ok kvs ∧ Paused ⟨call, kvs, decision⟩ s₁ s' ∧
      Replay.save s₁.store s₁.runId s₁.conv s'.runtime = (s'.store, .ok ())

/-- Trace growth by gate actions, whatever else changed. -/
def GateTrace (s : AgentState σ) (call : ToolCall) (s' : AgentState σ) : Prop :=
  ∃ as, s'.trace = s.trace ++ as ∧ ∀ a ∈ as, GateAction call a

/-- From the decision on: the rest of the gate, for arguments that have been
    checked and audited. -/
theorem gate_after_audit (env : Env σ) (call : ToolCall) (arguments : Json)
    (decision : PermissionDecision) {as : List Action} {s s₁ : AgentState σ} (has : Adds as s s₁)
    (hgate : ∀ a ∈ as, GateAction call a)
    (heff : arguments = call.arguments ∨ arguments.isObj = true)
    (hchecked : .checked call.id call.name arguments decision ∈ as)
    (haudited : .audited call.id call.name arguments decision ∈ as)
    (hallowed : decision.allowed = true) :
    Wp (do
        let confirmation ← confirmationStatus env call arguments decision
        if decision.requiresConfirmation && confirmation = .noHook && env.checkpointManager then
          pause call arguments decision
        else if decision.requiresConfirmation && confirmation ≠ .approved then
          Gate.early <$> denyCall env call
            (py "requires manual confirmation, not yet supported in automated mode ("
              ++ decision.reason ++ py ")") arguments
        else checkTool env call arguments)
      (fun g s' => ∃ as, Adds as s s' ∧ (∀ a ∈ as, GateAction call a) ∧ GateOk env call g as)
      (OnExc (GateTrace s call) (GatePaused s call)) s₁ := by
  rw [Lib.wp_bind]
  apply (confirmationStatus_spec env call arguments decision s₁).mono
  · rintro c s₂ ⟨bs, hbs, hbgate, hconf⟩
    have hcs : Adds (as ++ bs) s s₂ := has.trans hbs
    have hcgate : ∀ a ∈ as ++ bs, GateAction call a := by
      intro a ha
      rcases List.mem_append.mp ha with ha | ha
      · exact hgate a ha
      · exact hbgate a ha
    rw [Lib.wp_ite, Lib.wp_ite]
    refine ⟨fun _ => ?_, fun _ => ⟨fun _ => ?_, fun hdenied => ?_⟩⟩
    · -- no hook decided: the call pauses
      apply (pause_spec call arguments decision s₂).mono
      · exact fun _ _ h => h.elim
      · intro e s' h
        cases e with
        | raised exc => exact ⟨as ++ bs, h.trans hcs.trace, hcgate⟩
        | pendingConfirmation c a d id =>
            obtain ⟨rfl, rfl, rfl, kvs, hkvs, hpaused⟩ := h
            refine ⟨rfl, as ++ bs, s₂, hcs, hcgate, ?_, kvs, hkvs, hpaused⟩
            exact ⟨heff, hallowed, List.mem_append_left _ hchecked,
              List.mem_append_left _ haudited⟩
    · -- a hook declined, or there is no checkpoint manager: the call is denied
      rw [Lib.wp_map]
      apply (quiet_denyCall env call _ arguments s₂).mono
      · intro r s' h
        exact ⟨as ++ bs, by simpa using hcs.trans h.adds, hcgate, by simp [GateOk]⟩
      · rintro e s' ⟨-, ⟨exc, rfl⟩, h⟩
        exact ⟨as ++ bs, by simpa using (hcs.trans h.adds).trace, hcgate⟩
    · -- the call may run if its tool accepts it
      apply (checkTool_spec env call arguments s₂).mono
      · rintro g s' ⟨h, hgo⟩
        refine ⟨as ++ bs, by simpa using hcs.trans h, hcgate, ?_⟩
        intro tool args hg
        obtain ⟨rfl, htool, hvalid⟩ := hgo tool args hg
        refine ⟨htool, heff, decision, hallowed, List.mem_append_left _ hchecked,
          List.mem_append_left _ haudited, ?_, tool, htool, hvalid⟩
        intro hreq
        have happ : c = .approved := by simpa [hreq] using hdenied
        exact Or.inl (List.mem_append_right _ (hconf happ))
      · rintro e s' ⟨⟨exc, rfl⟩, h⟩
        exact ⟨as ++ bs, by simpa using (hcs.trans h).trace, hcgate⟩
  · exact fun _ _ h => h.elim

/-- The gate vouches for what it lets through. -/
theorem prepareCall_spec (env : Env σ) (call : ToolCall) (s : AgentState σ) :
    Wp (prepareCall env call)
      (fun g s' => ∃ as, Adds as s s' ∧ (∀ a ∈ as, GateAction call a) ∧ GateOk env call g as)
      (OnExc (GateTrace s call) (GatePaused s call)) s := by
  unfold prepareCall
  rw [Lib.wp_bind]
  apply (beforeToolCall_spec env call s).mono
  · rintro r s₁ ⟨h₁, heff⟩
    cases r with
    | none => exact ⟨[], h₁, by simp, by simp [GateOk]⟩
    | some arguments =>
        have heff := heff arguments rfl
        simp only [Lib.wp_bind]
        apply (still_ask _ s₁).mono
        · intro answer s₂ h₂
          have h₂ : Adds [] s s₂ := by simpa using h₁.trans h₂.adds
          cases answer with
          | error exc => exact ⟨[], h₂.trace, by simp⟩
          | ok decision =>
              -- the decision, then its audit entry
              have h₃ : Adds [.checked call.id call.name arguments decision] s
                  { s₂ with trace := s₂.trace ++ [.checked call.id call.name arguments decision] } := by
                simpa using h₂.trans (Adds.note s₂ _)
              simp only [lift, Lib.wp_pure]
              show Wp (log env _) _ _ { s₂ with trace := s₂.trace ++ [_] }
              apply (quiet_log env _ _).mono
              · intro _ s₄ h₄
                have h₄ : Adds [.checked call.id call.name arguments decision] s s₄ := by
                  simpa using h₃.trans h₄.adds
                have h₅ : Adds [.checked call.id call.name arguments decision,
                    .audited call.id call.name arguments decision] s
                    { s₄ with trace := s₄.trace
                        ++ [.audited call.id call.name arguments decision] } :=
                  h₄.trans (Adds.note s₄ _)
                have hgate : ∀ a ∈ [Action.checked call.id call.name arguments decision,
                    .audited call.id call.name arguments decision], GateAction call a := by
                  simp [GateAction]
                show Wp _ _ _ { s₄ with trace := s₄.trace ++ [_] }
                rw [Lib.wp_ite]
                refine ⟨fun _ => ?_, fun hallowed => ?_⟩
                · rw [Lib.wp_map]
                  apply (quiet_denyCall env call decision.reason arguments _).mono
                  · intro r s₆ h₆
                    exact ⟨_, by simpa using h₅.trans h₆.adds, hgate, by simp [GateOk]⟩
                  · rintro e s₆ ⟨-, ⟨exc, rfl⟩, h₆⟩
                    exact ⟨_, by simpa using (h₅.trans h₆.adds).trace, hgate⟩
                · exact gate_after_audit env call arguments decision h₅ hgate heff (by simp)
                    (by simp) (by simpa using hallowed)
              · rintro e s₄ ⟨-, ⟨exc, rfl⟩, h₄⟩
                exact ⟨_, by simpa using (h₃.trans h₄.adds).trace, by simp [GateAction]⟩
        · exact fun _ _ h => h.1.elim
  · exact fun _ _ h => h.elim

end Agent
end KineticSdk
