/-
  KineticSdk.Agent.Declined

  Whether a call that the confirmation hooks decline is ever executed.

  The hooks are asked about every call the policy allows, but their answer only
  counts where the decision asks for a confirmation.  The actions of a batch
  are cut into those of its calls, in turn or side by side, and each call's
  own part says whether it was declined and whether it was executed.
-/

import KineticSdk.Agent.Parallel
import KineticSdk.Lib.Appends

namespace KineticSdk
namespace Agent

open Py Tool Security Conversation Replay
open Lib (Wp Appends)

variable {σ α : Type}

-- ============================================================================
-- The parts of a batch
-- ============================================================================

/-- In front of a call's gate the policy decided `d`, and the hooks declined. -/
def DeclinedUnder (d : PermissionDecision) (gate : List Action) : Prop :=
  ∃ id name arguments, .checked id name arguments d ∈ gate ∧ .declined id name arguments ∈ gate

/-- An execution of the call. -/
def Run (call : ToolCall) (a : Action) : Prop :=
  ∃ attempt name kwargs, a = .executed call.id attempt name kwargs

/-- What the gate noted of a call, and its executions: those that the hooks
    declined under `d` have none. -/
structure Part (d : PermissionDecision) (call : ToolCall) (gate first retries : List Action) :
    Prop where
  gated : ∀ a ∈ gate, GateAction call a
  runs : ∀ a ∈ first ++ retries, Run call a
  spared : DeclinedUnder d gate → first ++ retries = []

/-- A call that is not executed. -/
theorem part_of_gate {d : PermissionDecision} {call : ToolCall} {gate : List Action}
    (h : ∀ a ∈ gate, GateAction call a) : Part d call gate [] [] :=
  ⟨h, by simp, fun _ => rfl⟩

/-- The actions of calls that take their turns. -/
inductive InTurn (d : PermissionDecision) : List ToolCall → List Action → Prop where
  | nil : InTurn d [] []
  | cons {call : ToolCall} {calls : List ToolCall} {gate first retries as : List Action} :
      Part d call gate first retries → InTurn d calls as →
      InTurn d (call :: calls) (gate ++ (first ++ retries) ++ as)

/-- The actions of calls that run side by side: their gates, their first
    attempts and their retries. -/
inductive SideBySide (d : PermissionDecision) :
    List ToolCall → List Action → List Action → List Action → Prop where
  | nil : SideBySide d [] [] [] []
  | cons {call : ToolCall} {calls : List ToolCall} {gate first retries gs fs rs : List Action} :
      Part d call gate first retries → SideBySide d calls gs fs rs →
      SideBySide d (call :: calls) (gate ++ gs) (first ++ fs) (retries ++ rs)

/-- The actions `as` are those of the calls a batch has come to, and no call
    that the hooks declined under `d` was executed. -/
def Spares (d : PermissionDecision) (calls : List ToolCall) (as : List Action) : Prop :=
  ∃ done, done <+: calls ∧
    (InTurn d done as ∨ ∃ gs fs rs, SideBySide d done gs fs rs ∧ as = gs ++ (fs ++ rs))

/-- No batch of any agent executes a call that its hooks declined under `d`. -/
def NeverExecutes (d : PermissionDecision) : Prop :=
  ∀ {σ : Type} (env : Env σ) (calls : List ToolCall),
    Appends AgentState.trace (executeToolCalls env calls) (fun _ as => Spares d calls as)
      (fun as => Spares d calls as)

-- ============================================================================
-- The gate
-- ============================================================================

theorem appends_of_quiet {p : Action → Prop} {r : Prop} {x : M σ α} (hx : Quiet p r x) :
    Appends AgentState.trace x (fun _ as => ∀ a ∈ as, p a) (fun as => r ∧ ∀ a ∈ as, p a) := by
  intro s
  apply (hx s).mono
  · rintro _ s' ⟨as, has, hp⟩
    exact ⟨as, has.trace, hp⟩
  · rintro _ s' ⟨hr, -, as, has, hp⟩
    exact ⟨as, has.trace, hr, hp⟩

theorem appends_of_silent {r : Prop} {x : M σ α} (hx : Quiet silent r x) :
    Appends AgentState.trace x (fun _ as => as = []) (fun as => r ∧ as = []) :=
  (appends_of_quiet hx).mono (fun _ _ h => List.eq_nil_iff_forall_not_mem.mpr h)
    fun _ h => ⟨h.1, List.eq_nil_iff_forall_not_mem.mpr h.2⟩

/-- The next step of code whose first step notes nothing. -/
theorem appends_after_still {β : Type} {x : M σ α} {f : α → M σ β} {G : β → List Action → Prop}
    {E : List Action → Prop} (hx : Still x) (hf : ∀ a, Appends AgentState.trace (f a) G E) :
    Appends AgentState.trace (x >>= f) G E := by
  refine (appends_of_silent hx).bind ?_ fun _ h => h.1.elim
  rintro a _ rfl
  exact hf a

/-- The next step of code that first notes an action. -/
theorem appends_after_note {β : Type} {a : Action} {f : PUnit → M σ β}
    {G : β → List Action → Prop} {E : List Action → Prop}
    (hf : Appends AgentState.trace (f ⟨⟩) (fun b as => G b (a :: as)) fun as => E (a :: as)) :
    Appends AgentState.trace (note a >>= f) G E := Appends.after_write (fun _ => rfl) hf

/-- The next step of code whose first step returns a value. -/
theorem appends_after_ok {β : Type} {a : α} {f : α → M σ β} {G : β → List Action → Prop}
    {E : List Action → Prop} (hf : Appends AgentState.trace (f a) G E) :
    Appends AgentState.trace (lift (.ok a) >>= f) G E := fun s => hf s

/-- A pause notes nothing. -/
theorem appends_pause (call : ToolCall) (arguments : Json) (d : PermissionDecision) :
    Appends AgentState.trace (pause call arguments d : M σ (Gate σ)) (fun _ _ => False)
      (fun as => as = []) := by
  intro s
  apply (pause_spec call arguments d s).mono
  · exact fun _ _ h => h.elim
  · intro e s' h
    cases e with
    | raised exc => exact ⟨[], by rw [h, List.append_nil], rfl⟩
    | pendingConfirmation c a d id =>
        obtain ⟨-, -, -, kvs, -, hp, -⟩ := h
        exact ⟨[], by rw [hp.trace, List.append_nil], rfl⟩

/-- What asking the confirmation hooks leaves: their refusal is noted only if
    it is the answer. -/
structure Asked (call : ToolCall) (c : Confirmation) (as : List Action) : Prop where
  gated : ∀ a ∈ as, GateAction call a
  unchecked : ∀ id name arguments e, .checked id name arguments e ∉ as
  refused : ∀ id name arguments, .declined id name arguments ∈ as → c = .denied

theorem appends_confirmationStatus (env : Env σ) (call : ToolCall) (arguments : Json)
    (d : PermissionDecision) :
    Appends AgentState.trace (confirmationStatus env call arguments d) (Asked call)
      (fun _ => False) := by
  unfold confirmationStatus
  refine appends_after_still (still_triggerHooks env _) fun results => ?_
  refine Appends.ite (fun _ => ?_) fun _ => Appends.ite (fun _ => ?_) fun _ => ?_
  · exact appends_after_note (Appends.pure ⟨by simp [GateAction], by simp, by simp⟩)
  · exact Appends.pure ⟨by simp, by simp, by simp⟩
  · exact appends_after_note (Appends.pure ⟨by simp [GateAction], by simp, by simp⟩)

/-- The gate lets no call through that the hooks declined under a decision that
    asks for a confirmation. -/
structure Gates (d : PermissionDecision) (call : ToolCall) (g : Gate σ) (as : List Action) :
    Prop where
  gated : ∀ a ∈ as, GateAction call a
  stopped : DeclinedUnder d as → ∀ tool arguments, g ≠ .go tool arguments

theorem appends_deny {d : PermissionDecision} (env : Env σ) {call : ToolCall} {as : List Action}
    (has : ∀ a ∈ as, GateAction call a) (reason : PyStr) (arguments : Json) :
    Appends AgentState.trace (Gate.early <$> denyCall env call reason arguments : M σ (Gate σ))
      (fun g bs => Gates d call g (as ++ bs)) (fun bs => ∀ a ∈ as ++ bs, GateAction call a) := by
  refine Appends.map ((appends_of_silent (quiet_denyCall env call reason arguments)).mono ?_ ?_)
  · rintro r _ rfl
    rw [List.append_nil]
    exact ⟨has, fun _ _ _ h => by cases h⟩
  · rintro _ ⟨-, rfl⟩
    rwa [List.append_nil]

/-- From the decision on, for arguments that have been checked and audited. -/
theorem appends_after_audit {d : PermissionDecision} (hflag : d.requiresConfirmation = true)
    (env : Env σ) (call : ToolCall) (arguments : Json) (decision : PermissionDecision) :
    let before := [Action.checked call.id call.name arguments decision,
      .audited call.id call.name arguments decision]
    Appends AgentState.trace (do
        let confirmation ← confirmationStatus env call arguments decision
        if decision.requiresConfirmation && confirmation = .noHook && env.checkpointManager then
          pause call arguments decision
        else if decision.requiresConfirmation && confirmation ≠ .approved then
          Gate.early <$> denyCall env call
            (py "requires manual confirmation, not yet supported in automated mode ("
              ++ decision.reason ++ py ")") arguments
        else checkTool env call arguments)
      (fun g as => Gates d call g (before ++ as)) (fun as => ∀ a ∈ before ++ as, GateAction call a) := by
  intro before
  have hbefore : ∀ a ∈ before, GateAction call a := by simp [before, GateAction]
  refine (appends_confirmationStatus env call arguments decision).bind ?_ fun _ h => h.elim
  intro c as hasked
  have hall : ∀ a ∈ before ++ as, GateAction call a := by
    intro a ha
    rcases List.mem_append.mp ha with ha | ha
    · exact hbefore a ha
    · exact hasked.gated a ha
  refine Appends.ite (fun _ => ?_) fun _ => Appends.ite (fun _ => ?_) fun hgo => ?_
  · refine (appends_pause call arguments decision).mono (fun _ _ h => h.elim) ?_
    rintro _ rfl
    rwa [List.append_nil]
  · exact appends_deny env hall _ arguments
  · -- a refusal is the answer, and under this decision it stops the call
    have hnot : ¬ DeclinedUnder d (before ++ as) := by
      rintro ⟨id, name, args, hchecked, hdeclined⟩
      have hd : d = decision := by
        rcases List.mem_append.mp hchecked with h | h
        · simp only [before, List.mem_cons, Action.checked.injEq, reduceCtorEq, List.not_mem_nil,
            or_false] at h
          exact h.2.2.2
        · exact absurd h (hasked.unchecked id name args d)
      have hc : c = .denied := by
        rcases List.mem_append.mp hdeclined with h | h
        · simp [before] at h
        · exact hasked.refused id name args h
      rw [← hd, hflag, hc] at hgo
      simp at hgo
    have hquiet : Quiet silent True (checkTool env call arguments) := quiet_checkTool env call arguments
    refine (appends_of_silent hquiet).mono ?_ ?_
    · rintro g _ rfl
      rw [List.append_nil]
      exact ⟨hall, fun h => absurd h hnot⟩
    · rintro _ ⟨-, rfl⟩
      rwa [List.append_nil]

theorem appends_prepareCall {d : PermissionDecision} (hflag : d.requiresConfirmation = true)
    (env : Env σ) (call : ToolCall) :
    Appends AgentState.trace (prepareCall env call) (Gates d call)
      (fun as => ∀ a ∈ as, GateAction call a) := by
  unfold prepareCall
  refine appends_after_still (still_beforeToolCall env call) fun left => ?_
  cases left with
  | none => exact Appends.pure ⟨by simp, fun _ _ _ h => by cases h⟩
  | some arguments =>
      refine appends_after_still (still_ask _) fun answer => ?_
      cases answer with
      | error e => exact Appends.throw (by simp)
      | ok decision =>
          have hboth : ∀ a ∈ [Action.checked call.id call.name arguments decision,
              .audited call.id call.name arguments decision], GateAction call a := by
            simp [GateAction]
          refine appends_after_ok (appends_after_note ((appends_of_silent (quiet_log env _)).bind ?_ ?_))
          · rintro _ _ rfl
            refine appends_after_note (Appends.ite (fun _ => ?_) fun _ => ?_)
            · exact appends_deny env hboth decision.reason arguments
            · exact appends_after_audit hflag env call arguments decision
          · rintro _ ⟨-, rfl⟩
            simp [GateAction]

-- ============================================================================
-- One call after the other
-- ============================================================================

theorem run_of_runsOn {call : ToolCall} {name : PyStr} {arguments : Json} {first : Nat}
    {as : List Action} (h : ∀ a ∈ as, RunsOn call name arguments first a) :
    ∀ a ∈ as, Run call a := by
  intro a ha
  obtain ⟨attempt, kwargs, -, -, rfl⟩ := h a ha
  exact ⟨attempt, name, kwargs, rfl⟩

/-- A call by itself. -/
theorem appends_executeOne {d : PermissionDecision} (hflag : d.requiresConfirmation = true)
    (env : Env σ) (call : ToolCall) :
    Appends AgentState.trace (executeOne env call)
      (fun _ as => ∃ gate runs, as = gate ++ runs ∧ Part d call gate runs [])
      (fun as => ∃ gate runs, as = gate ++ runs ∧ Part d call gate runs []) := by
  refine (appends_prepareCall hflag env call).bind ?_ ?_
  · intro g gate hg
    have hearly : Part d call gate [] [] := part_of_gate hg.gated
    cases g with
    | early result => exact Appends.pure ⟨gate, [], rfl, hearly⟩
    | go tool arguments =>
        have hgone : ∀ runs, (∀ a ∈ runs, RunsOn call tool.name arguments 0 a) →
            Part d call gate runs [] := by
          intro runs hruns
          refine ⟨hg.gated, ?_, fun hdeclined => absurd rfl (hg.stopped hdeclined tool arguments)⟩
          rw [List.append_nil]
          exact run_of_runsOn hruns
        refine (appends_of_quiet (quiet_runCall env call tool arguments)).mono ?_ ?_
        · exact fun _ runs hruns => ⟨gate, runs, rfl, hgone runs hruns⟩
        · exact fun runs hruns => ⟨gate, runs, rfl, hgone runs hruns.2⟩
  · intro gate hgate
    exact ⟨gate, [], (List.append_nil gate).symm, part_of_gate hgate⟩

/-- Saving what a pause keeps notes nothing. -/
theorem appends_keepRemaining (kept : List ToolCall) :
    Appends AgentState.trace (keepRemaining kept : M σ PUnit) (fun _ as => as = [])
      (fun as => as = []) := by
  refine Appends.after_silent (fun _ => rfl) fun s => ?_
  apply (saveCheckpoint_spec s).mono
  · rintro _ s' ⟨hs, -⟩
    exact ⟨[], by rw [hs, List.append_nil], rfl⟩
  · rintro _ s' ⟨-, hs⟩
    exact ⟨[], by rw [hs, List.append_nil], rfl⟩

/-- What is done before a pause goes on comes behind what led to it. -/
theorem appends_onPendingConfirmation {x : M σ α} {onPause : M σ PUnit}
    {G : α → List Action → Prop} {E E' : List Action → Prop}
    (hx : Appends AgentState.trace x G E') (hE : ∀ as, E' as → E as)
    (hpause : ∀ as, E' as → Appends AgentState.trace onPause (fun _ bs => E (as ++ bs))
      (fun bs => E (as ++ bs))) :
    Appends AgentState.trace (onPendingConfirmation x onPause) G E := by
  refine hx.tryCatch fun e as has => ?_
  cases e with
  | raised exc =>
      refine Appends.throw ?_
      rw [List.append_nil]
      exact hE as has
  | pendingConfirmation call arguments decision id =>
      refine (hpause as has).bind (fun _ bs hbs => Appends.throw ?_) fun _ h => h
      rwa [List.append_nil]

theorem appends_executeSequential {d : PermissionDecision} (hflag : d.requiresConfirmation = true)
    (env : Env σ) (anyError : Bool) (calls : List ToolCall) :
    Appends AgentState.trace (executeSequential env anyError calls)
      (fun _ as => ∃ done, done <+: calls ∧ InTurn d done as)
      (fun as => ∃ done, done <+: calls ∧ InTurn d done as) := by
  induction calls generalizing anyError with
  | nil => exact Appends.pure ⟨[], List.prefix_rfl, .nil⟩
  | cons call rest ih =>
      have hnone : Part d call [] [] [] := part_of_gate (by simp)
      have hmore : ∀ {gate runs : List Action} (anyError : Bool), Part d call gate runs [] →
          Appends AgentState.trace (executeSequential env anyError rest)
            (fun _ as => ∃ done, done <+: call :: rest ∧ InTurn d done (gate ++ runs ++ as))
            (fun as => ∃ done, done <+: call :: rest ∧ InTurn d done (gate ++ runs ++ as)) := by
        intro gate runs anyError hpart
        have hcons : ∀ as, (∃ done, done <+: rest ∧ InTurn d done as) →
            ∃ done, done <+: call :: rest ∧ InTurn d done (gate ++ runs ++ as) := by
          rintro as ⟨done, hdone, has⟩
          have hturn := InTurn.cons hpart has
          rw [List.append_nil] at hturn
          exact ⟨call :: done, List.cons_prefix_cons.mpr ⟨rfl, hdone⟩, hturn⟩
        exact (ih anyError).mono (fun _ => hcons) hcons
      have hlast : ∀ {gate runs : List Action}, Part d call gate runs [] →
          ∃ done, done <+: call :: rest ∧ InTurn d done (gate ++ runs) := by
        intro gate runs hpart
        have hturn := InTurn.cons hpart InTurn.nil
        rw [List.append_nil, List.append_nil] at hturn
        exact ⟨[call], ⟨rest, rfl⟩, hturn⟩
      refine appends_after_still (still_isCancelled env) fun stop => ?_
      refine Appends.ite (fun _ => ?_) fun _ => ?_
      · exact Appends.after_silent (fun _ => rfl) (hmore true hnone)
      · have hone : Appends AgentState.trace
            (onPendingConfirmation (executeOne env call) (keepRemaining (suffixAt env call rest)))
            (fun _ as => ∃ gate runs, as = gate ++ runs ∧ Part d call gate runs [])
            (fun as => ∃ gate runs, as = gate ++ runs ∧ Part d call gate runs []) := by
          refine appends_onPendingConfirmation (appends_executeOne hflag env call) (fun _ h => h) ?_
          intro as has
          have hsame : ∀ bs : List Action, bs = [] →
              ∃ gate runs, as ++ bs = gate ++ runs ∧ Part d call gate runs [] := by
            rintro _ rfl
            rwa [List.append_nil]
          exact (appends_keepRemaining _).mono (fun _ => hsame) hsame
        refine hone.bind ?_ ?_
        · rintro result _ ⟨gate, runs, rfl, hpart⟩
          refine appends_after_still (still_emitToolCallFinished env call result) fun _ => ?_
          exact Appends.after_silent (fun _ => rfl) (hmore _ hpart)
        · rintro _ ⟨gate, runs, rfl, hpart⟩
          exact hlast hpart

-- ============================================================================
-- Side by side
-- ============================================================================

/-- A gated call of a parallel batch: one that was declined under `d` is not
    let through. -/
structure GatesEntry (d : PermissionDecision) (call : ToolCall) (g : Gated σ)
    (gate : List Action) : Prop where
  gated : ∀ a ∈ gate, GateAction call a
  stopped : DeclinedUnder d gate → ∀ tool arguments, g ≠ .go tool arguments

/-- The gates of a batch so far. -/
inductive GatesAll (d : PermissionDecision) :
    List (ToolCall × Gated σ) → List Action → Prop where
  | nil : GatesAll d [] []
  | cons {call : ToolCall} {g : Gated σ} {gated : List (ToolCall × Gated σ)}
      {gate gs : List Action} : GatesEntry d call g gate → GatesAll d gated gs →
      GatesAll d ((call, g) :: gated) (gate ++ gs)

theorem GatesAll.snoc {d : PermissionDecision} {gated : List (ToolCall × Gated σ)}
    {gs gate : List Action} {call : ToolCall} {g : Gated σ} (h : GatesAll d gated gs)
    (hg : GatesEntry d call g gate) : GatesAll d (gated ++ [(call, g)]) (gs ++ gate) := by
  induction h with
  | nil =>
      have hone := GatesAll.cons hg .nil
      rwa [List.append_nil] at hone
  | cons hfirst _ ih =>
      rw [List.append_assoc]
      exact .cons hfirst ih

/-- The first attempts of a batch: one that was declined under `d` has none. -/
inductive AttemptsAll (d : PermissionDecision) :
    List (ToolCall × Dispatched σ) → List Action → List Action → Prop where
  | nil : AttemptsAll d [] [] []
  | cons {call : ToolCall} {x : Dispatched σ} {ds : List (ToolCall × Dispatched σ)}
      {gate first gs fs : List Action} : Part d call gate first [] →
      (DeclinedUnder d gate → ∀ tool arguments result, x ≠ .ran tool arguments result) →
      AttemptsAll d ds gs fs → AttemptsAll d ((call, x) :: ds) (gate ++ gs) (first ++ fs)

theorem AttemptsAll.sideBySide {d : PermissionDecision} {ds : List (ToolCall × Dispatched σ)}
    {gs fs : List Action} (h : AttemptsAll d ds gs fs) :
    SideBySide d (ds.map Prod.fst) gs fs [] := by
  induction h with
  | nil => exact .nil
  | cons hpart _ _ ih => exact SideBySide.cons hpart ih

theorem SideBySide.snoc {d : PermissionDecision} {calls : List ToolCall}
    {gs fs rs gate : List Action} {call : ToolCall} (h : SideBySide d calls gs fs rs)
    (hpart : Part d call gate [] []) : SideBySide d (calls ++ [call]) (gs ++ gate) fs rs := by
  induction h with
  | nil =>
      have hone := SideBySide.cons hpart .nil
      rwa [List.append_nil] at hone
  | cons hfirst _ ih =>
      rw [List.append_assoc]
      exact .cons hfirst ih

theorem appends_gateOne {d : PermissionDecision} (hflag : d.requiresConfirmation = true)
    (env : Env σ) (call : ToolCall) :
    Appends AgentState.trace (gateOne env call) (GatesEntry d call)
      (fun as => ∀ a ∈ as, GateAction call a) := by
  refine (appends_prepareCall hflag env call).bind ?_ fun _ h => h
  intro g gate hg
  cases g with
  | early result =>
      refine Appends.pure ?_
      rw [List.append_nil]
      exact ⟨hg.gated, fun _ _ _ h => by cases h⟩
  | go tool arguments =>
      refine Appends.pure ?_
      rw [List.append_nil]
      exact ⟨hg.gated, fun h => absurd rfl (hg.stopped h tool arguments)⟩

theorem appends_dispatch {d : PermissionDecision} (env : Env σ)
    {gated : List (ToolCall × Gated σ)} {gs : List Action} (h : GatesAll d gated gs) :
    Appends AgentState.trace (dispatch env gated)
      (fun ds fs => AttemptsAll d ds gs fs ∧ ds.map Prod.fst = gated.map Prod.fst)
      (fun _ => False) := by
  induction h with
  | nil => exact Appends.pure ⟨.nil, rfl⟩
  | @cons call g gated gate gs hg _ ih =>
      have hnone : Part d call gate [] [] := part_of_gate hg.gated
      cases g with
      | skipped =>
          refine ih.bind (fun ds fs hds => Appends.pure ?_) fun _ h => h.elim
          rw [List.append_nil]
          exact ⟨.cons hnone (fun _ _ _ _ h => by cases h) hds.1, by simp [hds.2]⟩
      | early result =>
          refine ih.bind (fun ds fs hds => Appends.pure ?_) fun _ h => h.elim
          rw [List.append_nil]
          exact ⟨.cons hnone (fun _ _ _ _ h => by cases h) hds.1, by simp [hds.2]⟩
      | go tool arguments =>
          have hgone : ¬ DeclinedUnder d gate := fun h => hg.stopped h tool arguments rfl
          have hattempt := (oneAttempt_runGated env call tool arguments).quiet (Nat.zero_le 0)
          refine (appends_of_quiet hattempt).bind ?_ fun _ h => h.1.elim
          intro result first hfirst
          refine ih.bind (fun ds fs hds => Appends.pure ?_) fun _ h => h.elim
          have hpart : Part d call gate first [] := by
            refine ⟨hg.gated, ?_, fun h => absurd h hgone⟩
            rw [List.append_nil]
            exact run_of_runsOn hfirst
          rw [List.append_nil]
          exact ⟨.cons hpart (fun h => absurd h hgone) hds.1, by simp [hds.2]⟩

/-- The retries of a call that was attempted. -/
theorem appends_settle {d : PermissionDecision} (env : Env σ) {call : ToolCall}
    {x : Dispatched σ} {gate first : List Action} (hpart : Part d call gate first [])
    (hx : DeclinedUnder d gate → ∀ tool arguments result, x ≠ .ran tool arguments result) :
    Appends AgentState.trace (settle env call x) (fun _ as => Part d call gate first as)
      (fun as => Part d call gate first as) := by
  cases x with
  | skipped => exact Appends.pure hpart
  | early result =>
      exact appends_after_still (still_emitToolCallFinished env call result) fun _ =>
        Appends.pure hpart
  | ran tool arguments result =>
      have hgone : ¬ DeclinedUnder d gate := fun h => hx h tool arguments result rfl
      have hretried : ∀ as, (∀ a ∈ as, RunsOn call tool.name arguments 1 a) →
          Part d call gate first as := by
        intro as has
        refine ⟨hpart.gated, ?_, fun h => absurd h hgone⟩
        intro a ha
        rcases List.mem_append.mp ha with ha | ha
        · exact hpart.runs a (List.mem_append_left _ ha)
        · exact run_of_runsOn has a ha
      refine (appends_of_quiet (quiet_retryTransientTool env call tool arguments result)).bind ?_
        fun _ h => h.1.elim
      intro result retries hretries
      have hnil : Part d call gate first (retries ++ []) := by
        rw [List.append_nil]
        exact hretried retries hretries
      refine (appends_of_silent (quiet_finalizeCall env call tool arguments result)).bind ?_ ?_
      · rintro _ _ rfl
        exact appends_after_still (still_emitToolCallFinished env call result) fun _ =>
          Appends.pure hnil
      · rintro _ ⟨-, rfl⟩
        exact hnil

theorem appends_recordAll {d : PermissionDecision} (env : Env σ) (anyError : Bool)
    {ds : List (ToolCall × Dispatched σ)} {gs fs : List Action} (h : AttemptsAll d ds gs fs) :
    Appends AgentState.trace (recordAll env anyError ds)
      (fun _ rs => SideBySide d (ds.map Prod.fst) gs fs rs)
      (fun rs => SideBySide d (ds.map Prod.fst) gs fs rs) := by
  induction h generalizing anyError with
  | nil => exact Appends.pure .nil
  | @cons call x ds gate first gs fs hpart hx hrest ih =>
      refine (appends_settle env hpart hx).bind ?_ ?_
      · intro result retries hretried
        refine Appends.after_silent (fun _ => rfl) ?_
        exact (ih _).mono (fun _ _ hrs => SideBySide.cons hretried hrs)
          fun _ hrs => SideBySide.cons hretried hrs
      · intro retries hretried
        have hall := SideBySide.cons hretried hrest.sideBySide
        rwa [List.append_nil] at hall

theorem appends_dispatchAndRecord {d : PermissionDecision} (env : Env σ)
    {gated : List (ToolCall × Gated σ)} {gs : List Action} (h : GatesAll d gated gs) :
    Appends AgentState.trace (dispatchAndRecord env gated)
      (fun _ as => ∃ fs rs, SideBySide d (gated.map Prod.fst) gs fs rs ∧ as = fs ++ rs)
      (fun as => ∃ fs rs, SideBySide d (gated.map Prod.fst) gs fs rs ∧ as = fs ++ rs) := by
  refine (appends_dispatch env h).bind ?_ fun _ h => h.elim
  rintro ds fs ⟨hds, hcalls⟩
  rw [← hcalls]
  exact (appends_recordAll env false hds).mono (fun _ rs hrs => ⟨fs, rs, hrs, rfl⟩)
    fun rs hrs => ⟨fs, rs, hrs, rfl⟩

/-- What a batch leaves that has got as far as some of its gates. -/
def Unfinished (d : PermissionDecision) (calls : List ToolCall) (as : List Action) : Prop :=
  ∃ done, done <+: calls ∧ ∃ gs fs rs, SideBySide d done gs fs rs ∧ as = gs ++ (fs ++ rs)

theorem GatesAll.sideBySide {d : PermissionDecision} {gated : List (ToolCall × Gated σ)}
    {gs : List Action} (h : GatesAll d gated gs) :
    SideBySide d (gated.map Prod.fst) gs [] [] := by
  induction h with
  | nil => exact .nil
  | cons hg _ ih => exact SideBySide.cons (part_of_gate hg.gated) ih

theorem appends_gateAll {d : PermissionDecision} (hflag : d.requiresConfirmation = true)
    (env : Env σ) (calls : List ToolCall) {gated : List (ToolCall × Gated σ)}
    {gs : List Action} (h : GatesAll d gated gs) :
    Appends AgentState.trace (gateAll env gated calls)
      (fun gated' as => GatesAll d gated' (gs ++ as) ∧
        gated'.map Prod.fst = gated.map Prod.fst ++ calls)
      (fun as => Unfinished d (gated.map Prod.fst ++ calls) (gs ++ as)) := by
  induction calls generalizing gated gs with
  | nil =>
      refine Appends.pure ⟨?_, (List.append_nil _).symm⟩
      rwa [List.append_nil]
  | cons call rest ih =>
      have hnext : ∀ {g : Gated σ} {gate : List Action}, GatesEntry d call g gate →
          Appends AgentState.trace (gateAll env (gated ++ [(call, g)]) rest)
            (fun gated' as => GatesAll d gated' (gs ++ (gate ++ as)) ∧
              gated'.map Prod.fst = gated.map Prod.fst ++ call :: rest)
            (fun as => Unfinished d (gated.map Prod.fst ++ call :: rest) (gs ++ (gate ++ as))) := by
        intro g gate hg
        have hrec := ih (h.snoc hg)
        simp only [List.map_append, List.map_cons, List.map_nil, List.append_assoc,
          List.singleton_append] at hrec
        exact hrec
      have hhere : gated.map Prod.fst ++ [call] <+: gated.map Prod.fst ++ call :: rest :=
        ⟨rest, by simp⟩
      refine appends_after_still (still_isCancelled env) fun stop => Appends.ite (fun _ => ?_) fun _ => ?_
      · have hskipped : GatesEntry d call (.skipped : Gated σ) [] :=
          ⟨by simp, fun _ _ _ h => by cases h⟩
        exact hnext hskipped
      · refine Appends.bind (E := fun as => Unfinished d (gated.map Prod.fst ++ call :: rest) (gs ++ as))
          ?_ (fun g gate hg => hnext hg) fun _ h => h
        refine appends_onPendingConfirmation (appends_gateOne hflag env call) ?_ ?_
        · intro gate hgate
          have hpart : Part d call gate [] [] := part_of_gate hgate
          exact ⟨_, hhere, gs ++ gate, [], [], h.sideBySide.snoc hpart, by simp⟩
        · intro gate hgate
          have hpart : Part d call gate [] [] := part_of_gate hgate
          have hended : ∀ fs rs, SideBySide d (gated.map Prod.fst) gs fs rs →
              Unfinished d (gated.map Prod.fst ++ call :: rest) (gs ++ (gate ++ (fs ++ rs))) :=
            fun fs rs hrs => ⟨_, hhere, gs ++ gate, fs, rs, hrs.snoc hpart, by simp⟩
          refine (appends_dispatchAndRecord env h).bind ?_ ?_
          · rintro _ _ ⟨fs, rs, hrs, rfl⟩
            have hkept : ∀ bs : List Action, bs = [] → Unfinished d
                (gated.map Prod.fst ++ call :: rest) (gs ++ (gate ++ (fs ++ rs ++ bs))) := by
              rintro _ rfl
              rw [List.append_nil]
              exact hended fs rs hrs
            exact (appends_keepRemaining _).mono (fun _ => hkept) hkept
          · rintro _ ⟨fs, rs, hrs, rfl⟩
            exact hended fs rs hrs

-- ============================================================================
-- Whole batches
-- ============================================================================

/-- A batch of any agent heeds a refusal under a decision that asks for a
    confirmation, however it ends. -/
theorem neverExecutes_of_flagged {d : PermissionDecision}
    (hflag : d.requiresConfirmation = true) : NeverExecutes d := by
  intro σ env calls
  unfold executeToolCalls
  refine Appends.ite (fun _ => ?_) fun _ => ?_
  · have hspares : ∀ {as : List Action}, Unfinished d calls as → Spares d calls as := by
      rintro as ⟨done, hdone, hside⟩
      exact ⟨done, hdone, .inr hside⟩
    refine (appends_gateAll hflag env calls .nil).bind ?_ fun _ h => hspares h
    rintro gated gs ⟨hgates, hcalls⟩
    have hcalls : gated.map Prod.fst = calls := hcalls
    have hended : ∀ as, (∃ fs rs, SideBySide d (gated.map Prod.fst) gs fs rs ∧ as = fs ++ rs) →
        Spares d calls (gs ++ as) := by
      rintro _ ⟨fs, rs, hrs, rfl⟩
      rw [hcalls] at hrs
      exact ⟨calls, List.prefix_rfl, .inr ⟨gs, fs, rs, hrs, rfl⟩⟩
    exact (appends_dispatchAndRecord env hgates).mono (fun _ => hended) hended
  · have hturn : ∀ as, (∃ done, done <+: calls ∧ InTurn d done as) → Spares d calls as := by
      rintro as ⟨done, hdone, has⟩
      exact ⟨done, hdone, .inl has⟩
    exact (appends_executeSequential hflag env false calls).mono (fun _ => hturn) hturn

/-- Within one call's part a refusal and an execution exclude each other. -/
theorem Part.excludes {d : PermissionDecision} {call : ToolCall}
    {gate first retries : List Action} (h : Part d call gate first retries)
    {id name : PyStr} {arguments : Json}
    (hchecked : .checked id name arguments d ∈ gate ++ (first ++ retries))
    (hdeclined : .declined id name arguments ∈ gate ++ (first ++ retries))
    {id' name' : PyStr} {attempt : Nat} {kwargs : Dict} :
    .executed id' attempt name' kwargs ∉ gate ++ (first ++ retries) := by
  have hgate : ∀ a ∈ gate ++ (first ++ retries), (∀ i n m k, a ≠ .executed i n m k) → a ∈ gate := by
    intro a ha hno
    rcases List.mem_append.mp ha with ha | ha
    · exact ha
    · obtain ⟨n, m, k, rfl⟩ := h.runs a ha
      exact absurd rfl (hno _ _ _ _)
  have hnone : first ++ retries = [] :=
    h.spared ⟨id, name, arguments, hgate _ hchecked (by simp), hgate _ hdeclined (by simp)⟩
  rw [hnone, List.append_nil]
  exact fun hexecuted => h.gated _ hexecuted

/-- One call that is declined under `d` and executed all the same. -/
theorem not_spares_of_executed {d : PermissionDecision} {call : ToolCall} {as : List Action}
    {id name : PyStr} {arguments : Json} (hchecked : .checked id name arguments d ∈ as)
    (hdeclined : .declined id name arguments ∈ as) {id' name' : PyStr} {attempt : Nat}
    {kwargs : Dict} (hexecuted : .executed id' attempt name' kwargs ∈ as) :
    ¬ Spares d [call] as := by
  rintro ⟨done, hdone, has⟩
  have hpart : ∃ gate first retries, as = gate ++ (first ++ retries) ∧
      (as = [] ∨ Part d call gate first retries) := by
    rcases List.prefix_cons_iff.mp hdone with rfl | ⟨rest, rfl, hrest⟩
    · rcases has with hturn | ⟨gs, fs, rs, hside, rfl⟩
      · cases hturn
        exact ⟨[], [], [], rfl, .inl rfl⟩
      · cases hside
        exact ⟨[], [], [], rfl, .inl rfl⟩
    · obtain rfl := List.prefix_nil.mp hrest
      rcases has with hturn | ⟨gs, fs, rs, hside, rfl⟩
      · cases hturn with
        | cons hpart hnil =>
            cases hnil
            exact ⟨_, _, _, List.append_nil _, .inr hpart⟩
      · cases hside with
        | cons hpart hnil =>
            cases hnil
            exact ⟨_, _, _, by simp, .inr hpart⟩
  obtain ⟨gate, first, retries, rfl, hnil | hpart⟩ := hpart
  · rw [hnil] at hchecked
    cases hchecked
  · exact hpart.excludes hchecked hdeclined hexecuted

/-- The name `send`, in code points. -/
def sendName : PyStr := [115, 101, 110, 100]

/-- A tool that sends a message. -/
def sendMessage : Tool Unit where
  name := sendName
  parameters := .obj []
  execute := fun _ w => (.ok (.value (.str (py "sent"))), w)

/-- An agent whose policy decides `d` on every call and whose user declines
    every call. -/
def decliningAgent (d : PermissionDecision) : Env Unit where
  tools := [sendMessage]
  permissionPolicy := fun _ _ w => (.ok d, w)
  hooks := some fun
    | .onPermissionCheck => [fun _ w => (.result { shouldContinue := false }, w)]
    | _ => []
  idempotencyKey := fun _ _ _ => []
  digest := fun _ => []
  cancelRequested := fun w => (false, w)
  timedOut := fun _ w => (false, w)
  slotsReleased := fun w => (0, w)
  monotonic := fun w => (0, w)

/-- A call to send one. -/
def sendCall : ToolCall := ⟨py "t1", sendName, .obj []⟩

/-- The agent in a run. -/
def beforeSending : AgentState Unit where
  conv := {}
  runtime := {}
  runId := py "run"
  world := ()

/-- A batch of one call notes what the call by itself does. -/
theorem wp_single {env : Env σ} {call : ToolCall} {s : AgentState σ} {t : List Action}
    (hcancel : isCancelled env s = .ok false s)
    (hone : Wp (onPendingConfirmation (executeOne env call) (keepRemaining (suffixAt env call [])))
      (fun _ s' => s'.trace = t) (fun _ _ => False) s) :
    Wp (executeToolCalls env [call]) (fun _ s' => s'.trace = t) (fun _ _ => False) s := by
  unfold executeToolCalls
  rw [if_neg (by simp)]
  unfold executeSequential
  rw [Lib.wp_bind]
  refine Lib.wp_of_ok hcancel ?_
  rw [if_neg Bool.false_ne_true, Lib.wp_bind]
  apply hone.mono
  · intro result s₁ h₁
    rw [Lib.wp_bind]
    apply (still_emitToolCallFinished env call result s₁).mono
    · intro _ s₂ h₂
      have htrace := h₂.adds.trace
      rw [List.append_nil, h₁] at htrace
      exact htrace
    · exact fun _ _ h => h.1
  · exact fun _ _ h => h

-- a statement about a batch is never settled by evaluating it
attribute [local irreducible] executeToolCalls

/-- What the agent does with the call when the decision asks for no
    confirmation. -/
theorem decliningAgent_sends (reason : PyStr) :
    Wp (executeToolCalls (decliningAgent ⟨true, reason, false⟩) [sendCall])
      (fun _ s' => s'.trace = [.checked (py "t1") sendName (.obj []) ⟨true, reason, false⟩,
        .audited (py "t1") sendName (.obj []) ⟨true, reason, false⟩,
        .declined (py "t1") sendName (.obj []), .executed (py "t1") 0 sendName []])
      (fun _ _ => False) beforeSending := wp_single rfl rfl

/-- Where the decision asks for no confirmation, the user's refusal is noted
    and the message sent. -/
theorem declined_executes {d : PermissionDecision} (hallowed : d.allowed = true)
    (hflag : d.requiresConfirmation = false) : ¬ NeverExecutes d := by
  obtain ⟨allowed, reason, requires⟩ := d
  obtain rfl : allowed = true := hallowed
  obtain rfl : requires = false := hflag
  intro hnever
  have happends := hnever (decliningAgent ⟨true, reason, false⟩) [sendCall] beforeSending
  have hboth := Wp.and happends (decliningAgent_sends reason)
  -- what the batch of one call left cannot be cut into its parts
  have hfalse : ∀ s' : AgentState Unit,
      (∃ as, s'.trace = beforeSending.trace ++ as ∧ Spares ⟨true, reason, false⟩ [sendCall] as) →
      s'.trace = [.checked (py "t1") sendName (.obj []) ⟨true, reason, false⟩,
        .audited (py "t1") sendName (.obj []) ⟨true, reason, false⟩,
        .declined (py "t1") sendName (.obj []), .executed (py "t1") 0 sendName []] → False := by
    rintro s' ⟨as, has, hspares⟩ htrace
    rw [htrace] at has
    rw [← show _ = as from has] at hspares
    exact not_spares_of_executed (.head _) (.tail _ (.tail _ (.head _)))
      (.tail _ (.tail _ (.tail _ (.head _)))) hspares
  unfold Wp at hboth
  cases hrun : executeToolCalls (decliningAgent ⟨true, reason, false⟩) [sendCall] beforeSending with
  | ok _ s' =>
      rw [hrun] at hboth
      exact hfalse s' hboth.1 hboth.2
  | error _ s' =>
      rw [hrun] at hboth
      exact hboth.2

/-- A call that the confirmation hooks decline is executed by no batch of any
    agent, if and only if the policy's decision asks for a confirmation. -/
theorem declined_never_executed_iff (d : PermissionDecision) (hallowed : d.allowed = true) :
    NeverExecutes d ↔ d.requiresConfirmation = true := by
  refine ⟨fun hnever => ?_, fun hflag => neverExecutes_of_flagged hflag⟩
  by_contra hflag
  exact declined_executes hallowed (by simpa using hflag) hnever

/-- Under a plain permission the user's refusal is ignored. -/
theorem plain_permission_ignores_refusal : ¬ NeverExecutes ⟨true, py "ok", false⟩ :=
  declined_executes rfl rfl

/-- The theorem for a decision that asks for a confirmation. -/
theorem confirmed_permission_heeds_refusal :
    NeverExecutes ⟨true, py "confirm", true⟩ ↔ true = true :=
  declined_never_executed_iff ⟨true, py "confirm", true⟩ rfl

end Agent
end KineticSdk
