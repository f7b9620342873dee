/-
  KineticSdk.Agent.Sticky

  Whether a conversation that has run in MAX stays there.

  Routing goes back to FLASH only where `sticky_max` is not set.  A complex
  task and an escalation set it; a classifier that raises routes the run to MAX
  without setting it, so the next simple task runs in FLASH again.
-/

import KineticSdk.Agent.Escalation
import KineticSdk.Agent.Session

namespace KineticSdk
namespace Agent

open Py Tool Security Conversation Replay Context
open Lib (Wp Keeps)

variable {σ α : Type}

-- ============================================================================
-- Conversations
-- ============================================================================

/-- A pass was made in MAX. -/
def RanInMax (as : List Action) : Prop := ∃ t ∈ turnsOf as, t.mode = .max

/-- `escalate`, called from outside a run. -/
def escalate : M σ Bool := do
  if (← get).runtime.mode = .flash then
    modify fun s => { s with runtime := escalated s.runtime }
    note .escalated
    pure true
  else pure false

/-- The last thing written to the run's timeline is a checkpoint of the agent
    as it is. -/
def Checkpointed (s : AgentState σ) : Prop :=
  ∃ store, Replay.save store s.runId s.conv s.runtime = (s.store, .ok ())

/-- An agent that has not run yet. -/
structure Unstarted (s : AgentState σ) : Prop where
  trace : s.trace = []
  runId : s.runId = []
  resuming : s.resuming = false

/-- A conversation: runs, escalations, verdicts on pending calls, checkpoints
    and agents rebuilt from them, under whatever components. -/
inductive Conversing (s₀ : AgentState σ) : AgentState σ → Prop where
  | start : Conversing s₀ s₀
  | run {s : AgentState σ} (env : LoopEnv σ) (args : RunArgs) : Conversing s₀ s →
      Conversing s₀ (stateAfter (run env args) s)
  | escalate {s : AgentState σ} : Conversing s₀ s → Conversing s₀ (stateAfter escalate s)
  | resolve {s : AgentState σ} (env : Env σ) (approved : Bool) : Conversing s₀ s →
      Conversing s₀ (stateAfter (resolvePendingConfirmation env approved) s)
  | save {s : AgentState σ} : Conversing s₀ s → Conversing s₀ (stateAfter saveCheckpoint s)
  | resume {s s' : AgentState σ} (world : σ) : Conversing s₀ s → Checkpointed s →
      resumeAgent s.store s.runId world s.trace = .ok s' → Conversing s₀ s'

/-- The classifier raised only in runs that found MAX sticky already. -/
def NoUnflaggedRaise (as : List Action) : Prop := .classified none false ∉ as

-- ============================================================================
-- The invariants
-- ============================================================================

/-- No pass was made in FLASH after one in MAX, and the state remembers MAX. -/
structure Remembers (s : AgentState σ) : Prop where
  rising : Rising s.trace
  flag : RanInMax s.trace → s.runtime.mode = .max ∧ s.runtime.stickyMax = true

/-- Between runs MAX is sticky once a run has started.  Before, the mode of an
    agent is MAX without the flag. -/
structure Sticks (s : AgentState σ) : Prop where
  remembers : Remembers s
  started : s.runId ≠ [] ∨ s.resuming = true → s.runtime.mode = .max → s.runtime.stickyMax = true

/-- Once a run is routed, MAX is sticky. -/
structure Routed (s : AgentState σ) : Prop where
  rising : Rising s.trace
  max : RanInMax s.trace → s.runtime.mode = .max
  sticky : s.runtime.mode = .max → s.runtime.stickyMax = true

section Invariant

variable {s s' : AgentState σ} {bs : List Action}

theorem rising_append_of_uneventful (h : Rising s.trace) (ht : s'.trace = s.trace ++ bs)
    (hb : ∀ b ∈ bs, Uneventful b) : Rising s'.trace := by
  unfold Rising
  rw [ht, turnsOf_append_of_uneventful _ hb]
  exact h

theorem ranInMax_append_of_turnless (as : List Action) (hb : turnsOf bs = []) :
    RanInMax (as ++ bs) ↔ RanInMax as := by
  unfold RanInMax
  rw [turnsOf_append, hb, List.append_nil]

theorem turnsOf_of_uneventful (hb : ∀ b ∈ bs, Uneventful b) : turnsOf bs = [] :=
  turnsOf_append_of_uneventful [] hb

theorem Remembers.grow (h : Remembers s) (ht : s'.trace = s.trace ++ bs)
    (hb : ∀ b ∈ bs, Uneventful b) (hr : SameCourse s.runtime s'.runtime) : Remembers s' := by
  refine ⟨rising_append_of_uneventful h.rising ht hb, ?_⟩
  rw [ht, ranInMax_append_of_turnless s.trace (turnsOf_of_uneventful hb), hr.mode, hr.stickyMax]
  exact h.flag

theorem Sticks.grow {ρ : σ → σ → Prop} (h : Sticks s) (ht : s'.trace = s.trace ++ bs)
    (hb : ∀ b ∈ bs, Uneventful b) (hm : Moved ρ s s') : Sticks s' := by
  refine ⟨h.remembers.grow ht hb hm.course, ?_⟩
  rw [hm.runId, hm.resuming, hm.course.mode, hm.course.stickyMax]
  exact h.started

theorem Routed.grow (h : Routed s) (ht : s'.trace = s.trace ++ bs)
    (hb : ∀ b ∈ bs, Uneventful b) (hr : SameCourse s.runtime s'.runtime) : Routed s' := by
  refine ⟨rising_append_of_uneventful h.rising ht hb, ?_, ?_⟩
  · rw [ht, ranInMax_append_of_turnless s.trace (turnsOf_of_uneventful hb), hr.mode]
    exact h.max
  · rw [hr.mode, hr.stickyMax]
    exact h.sticky

theorem Routed.sticks (h : Routed s) : Sticks s :=
  ⟨⟨h.rising, fun hran => ⟨h.max hran, h.sticky (h.max hran)⟩⟩, fun _ => h.sticky⟩

/-- An escalation leads to MAX and sets the flag. -/
theorem Routed.escalated (h : Routed s) :
    Routed (noted .escalated { s with runtime := escalated s.runtime }) := by
  refine ⟨?_, fun _ => rfl, fun _ => rfl⟩
  unfold Rising
  show (turnsOf (s.trace ++ [.escalated])).Pairwise _
  rw [turnsOf_append]
  exact (List.append_nil (turnsOf s.trace)).symm ▸ h.rising

theorem Routed.afterEscalation (h : Routed s) (byError : Bool) (v : LoopVars) :
    Routed (afterEscalation byError v s) := by
  unfold Agent.afterEscalation
  split
  · exact h.escalated
  · exact h

/-- A pass is made in the mode the run has reached. -/
theorem Routed.start (h : Routed s) (iteration : Nat) (cap : Int) :
    Routed (noted (.turnStarted iteration s.runtime.mode cap) s) := by
  have hturns : turnsOf (noted (.turnStarted iteration s.runtime.mode cap) s).trace
      = turnsOf s.trace ++ [⟨iteration, s.runtime.mode, cap⟩] := turnsOf_append _ _
  refine ⟨?_, ?_, h.sticky⟩
  · unfold Rising
    rw [hturns, List.pairwise_append]
    refine ⟨h.rising, List.pairwise_singleton _ _, ?_⟩
    intro t ht t' ht' hmax
    obtain rfl := List.mem_singleton.mp ht'
    exact h.max ⟨t, ht, hmax⟩
  · rintro ⟨t, ht, hmax⟩
    rw [hturns] at ht
    rcases List.mem_append.mp ht with ht | ht
    · exact h.max ⟨t, ht, hmax⟩
    · obtain rfl := List.mem_singleton.mp ht
      exact hmax

/-- Routing, unless the classifier raises where the flag is not set. -/
theorem Remembers.route (h : Remembers s) (answer : Option AgentMode)
    (hraise : answer = none → s.runtime.stickyMax = true) :
    Routed
      { noted (.classified answer s.runtime.stickyMax) s with
        runtime := route answer s.runtime } := by
  have hturns : turnsOf [Action.classified answer s.runtime.stickyMax] = [] := rfl
  have hran := ranInMax_append_of_turnless s.trace hturns
  have hrising : Rising (s.trace ++ [.classified answer s.runtime.stickyMax]) := by
    unfold Rising
    rw [turnsOf_append, hturns, List.append_nil]
    exact h.rising
  have hroute : (s.runtime.stickyMax = true → (Agent.route answer s.runtime).mode = .max) ∧
      ((Agent.route answer s.runtime).mode = .max →
        (Agent.route answer s.runtime).stickyMax = true) := by
    rcases answer with - | mode
    · exact ⟨fun _ => rfl, fun _ => hraise rfl⟩
    · cases mode with
      | max => exact ⟨fun _ => rfl, fun _ => rfl⟩
      | flash =>
          unfold Agent.route
          dsimp only
          cases hsticky : s.runtime.stickyMax with
          | true =>
              rw [if_pos rfl]
              exact ⟨fun _ => rfl, fun _ => hsticky⟩
          | false =>
              rw [if_neg Bool.false_ne_true]
              refine ⟨fun hfalse => absurd hfalse Bool.false_ne_true, fun hmax => ?_⟩
              cases hmax
  exact ⟨hrising, fun hmax => hroute.1 (h.flag (hran.mp hmax)).2, hroute.2⟩

end Invariant

-- ============================================================================
-- A run
-- ============================================================================

/-- Without an unflagged raise so far `X` holds; `resuming` does not change. -/
structure Held (resuming : Bool) (X : AgentState σ → Prop) (s : AgentState σ) : Prop where
  resuming : s.resuming = resuming
  holds : NoUnflaggedRaise s.trace → X s

section Run

variable {resuming : Bool} {s s' : AgentState σ} {bs : List Action}

theorem NoUnflaggedRaise.of_append {as bs : List Action} (h : NoUnflaggedRaise (as ++ bs)) :
    NoUnflaggedRaise as := fun hin => h (List.mem_append_left _ hin)

theorem Held.step {X Y : AgentState σ → Prop} (h : Held resuming X s)
    (hr : s'.resuming = s.resuming) (ht : s'.trace = s.trace ++ bs) (hxy : X s → Y s') :
    Held resuming Y s' := by
  refine ⟨hr.trans h.resuming, fun hno => hxy (h.holds ?_)⟩
  rw [ht] at hno
  exact hno.of_append

theorem Held.mono {X Y : AgentState σ → Prop} (h : Held resuming X s) (hxy : X s → Y s) :
    Held resuming Y s := ⟨h.resuming, fun hno => hxy (h.holds hno)⟩

/-- An update that leaves routing alone. -/
theorem Held.grow (h : Held resuming Routed s) (bs : List Action) (hr : s'.resuming = s.resuming)
    (ht : s'.trace = s.trace ++ bs) (hb : ∀ b ∈ bs, Uneventful b)
    (hc : SameCourse s.runtime s'.runtime) : Held resuming Routed s' :=
  h.step hr ht fun hrouted => hrouted.grow ht hb hc

theorem Held.note (h : Held resuming Routed s) {a : Action} (ha : Uneventful a) :
    Held resuming Routed (noted a s) :=
  h.grow [a] rfl rfl (by simpa using ha) (.of_eq rfl)

theorem afterEscalation_trace (byError : Bool) (v : LoopVars) (s : AgentState σ) :
    ∃ bs, (afterEscalation byError v s).trace = s.trace ++ bs ∧
      (afterEscalation byError v s).resuming = s.resuming := by
  unfold afterEscalation
  split
  · exact ⟨[.escalated], rfl, rfl⟩
  · exact ⟨[], by simp, rfl⟩

theorem Held.afterEscalation (h : Held resuming Routed s) (byError : Bool) (v : LoopVars) :
    Held resuming Routed (afterEscalation byError v s) := by
  obtain ⟨bs, ht, hr⟩ := afterEscalation_trace byError v s
  exact h.step hr ht fun hrouted => hrouted.afterEscalation byError v

/-- In the loop MAX is sticky. -/
theorem loopRule_routed (env : LoopEnv σ) (verify : Bool) (schema : Option Json)
    (resuming : Bool) :
    LoopRule env (fun _ _ => True) (fun _ _ => True) verify schema
      (fun _ => Held resuming Routed) (fun _ => Held resuming Routed)
      (fun _ => Held resuming Routed) (fun _ => Held resuming Routed)
      (fun _ => Held resuming Routed) (Held resuming Sticks) where
  quietHead := fun _ _ _ h ha hm => h.grow [] hm.resuming ha.trace (by simp) (.of_eq ha.runtime)
  quiet := fun _ _ _ h ha hm => h.grow [] hm.resuming ha.trace (by simp) (.of_eq ha.runtime)
  quietAnswer := fun _ _ _ h ha hm => h.grow [] hm.resuming ha.trace (by simp) (.of_eq ha.runtime)
  left := fun _ _ h => h.mono Routed.sticks
  exhausted := fun _ _ h _ => h.note trivial
  unverified := fun _ _ h _ => h.mono Routed.sticks
  cancelled := fun _ _ h => h.note trivial
  started := by
    intro v s h _
    have haccepted : Held resuming Routed (noted (.accepted (env.accepted s.world)) s) :=
      h.note trivial
    exact haccepted.step rfl rfl fun hrouted => hrouted.start v.iteration s.runtime.maxIterations
  compact := by
    intro v s manager limit h _
    refine h.grow _ rfl rfl ?_ (.of_eq rfl)
    intro a ha
    obtain ⟨found, -, rfl⟩ := List.mem_map.mp ha
    trivial
  stop := fun _ _ _ h => h.note trivial
  outOfBudget := fun _ _ _ h => h.note trivial
  asked := fun _ _ h => h.note trivial
  answer := fun _ _ response h _ _ =>
    h.grow [.proposed response.content] rfl rfl (by simp [Uneventful]) (.of_eq rfl)
  retry := by
    intro v s text h _ _
    have hturns : turnsOf [Action.structuredRetry] = [] := rfl
    have ht : (sentBack text s).trace = s.trace ++ [.structuredRetry] := rfl
    refine h.step rfl ht fun hrouted => ⟨?_, fun hran => hrouted.max ?_, hrouted.sticky⟩
    · unfold Rising
      rw [ht, turnsOf_append, hturns, List.append_nil]
      exact hrouted.rising
    · exact (ranInMax_append_of_turnless s.trace hturns).mp hran
  unasked := fun _ _ h _ => h.note trivial
  accepted := by
    intro v s h _
    have hverdict : Held resuming Routed (noted (.verdict v.finalText true) s) := h.note trivial
    exact hverdict.note (a := .persisted s.conv) trivial
  rejected := by
    intro v s h _
    have hverdict : Held resuming Routed (noted (.verdict v.finalText false) s) := h.note trivial
    exact hverdict.mono Routed.sticks
  corrected := by
    intro v s text feedback h _
    have hverdict : Held resuming Routed
        { noted (.verdict v.finalText false) s with conv := s.conv.addUserMessage text } :=
      h.grow [.verdict v.finalText false] rfl rfl (by simp [Uneventful]) (.of_eq rfl)
    exact hverdict.afterEscalation true v
  tools := fun _ _ _ _ _ as h _ _ _ hp hm =>
    h.grow as hm.resuming hp.trace (uneventful_of_acts hp.acts) (.of_eq hp.runtime)
  broken := by
    intro v s s' response as h _ _ _ ht hacts hm
    have hgrown : Held resuming Routed s' :=
      h.grow as hm.resuming ht (uneventful_of_acts hacts) hm.course
    exact hgrown.mono Routed.sticks
  stuck := by
    intro v s reason h
    have hpersisted : Held resuming Routed (noted (.persisted s.conv) s) := h.note trivial
    exact hpersisted.note (a := .stopped reason) trivial
  drain := by
    intro v s h
    have hpersisted : Held resuming Routed (noted (.persisted s.conv) s) := h.note trivial
    refine hpersisted.grow _ rfl rfl ?_ (.of_eq rfl)
    intro a ha
    rcases List.mem_append.mp ha with ha | ha
    · obtain ⟨text, -, rfl⟩ := List.mem_map.mp ha
      trivial
    · obtain rfl := List.mem_singleton.mp ha
      trivial
  next := fun v _ byError h => h.afterEscalation byError v

/-- Before it is routed, a run keeps what the conversation remembers. -/
theorem runRule_sticks (env : LoopEnv σ) (args : RunArgs) (resuming : Bool) :
    RunRule env (fun _ _ => True) (fun _ _ => True) args (resuming && args.userMessage.isNone)
      (Held resuming Sticks) (Held resuming Remembers) (Held resuming Routed)
      (fun _ => Held resuming Routed) (fun _ => Held resuming Routed)
      (fun _ => Held resuming Routed) (fun _ => Held resuming Routed)
      (fun _ => Held resuming Routed) (Held resuming Sticks) where
  quiet := fun _ _ h ha hm => h.step hm.resuming ha.trace fun hsticks =>
    hsticks.grow ha.trace (by simp) hm
  left := fun _ h => h
  failed := fun _ _ h ha hm => h.step hm.resuming ha.trace fun hsticks =>
    hsticks.grow ha.trace (by simp) hm
  user := fun _ _ h => ⟨h.resuming, fun hno =>
    ⟨⟨(h.holds hno).remembers.rising, (h.holds hno).remembers.flag⟩, (h.holds hno).started⟩⟩
  fresh := fun _ _ h => ⟨h.resuming, fun hno =>
    ⟨(h.holds hno).remembers.rising, (h.holds hno).remembers.flag⟩⟩
  quietFresh := fun _ _ h ha hm => h.step hm.resuming ha.trace fun hremembers =>
    hremembers.grow ha.trace (by simp) (.of_eq ha.runtime)
  routed := by
    intro s answer h
    refine ⟨h.resuming, fun hno => ?_⟩
    have hno' : NoUnflaggedRaise (s.trace ++ [.classified answer s.runtime.stickyMax]) := hno
    refine (h.holds hno'.of_append).route answer ?_
    rintro rfl
    by_contra hflag
    have hfalse : s.runtime.stickyMax = false := by simpa using hflag
    refine hno' (List.mem_append_right _ ?_)
    rw [hfalse]
    exact List.mem_singleton_self _
  resumed := by
    intro hresuming s h
    have hresume : s.resuming = true :=
      h.resuming.trans (Bool.and_eq_true _ _ ▸ hresuming).1
    exact h.mono fun hsticks => ⟨hsticks.remembers.rising,
      fun hran => (hsticks.remembers.flag hran).1, hsticks.started (.inr hresume)⟩
  quietReady := fun _ _ h ha hm => h.grow [] hm.resuming ha.trace (by simp) (.of_eq ha.runtime)
  plan := fun _ _ h => h.grow [] rfl (by simp [setPlan]) (by simp) (.of_eq rfl)
  enter := fun _ h => h
  loop := loopRule_routed env _ _ resuming

/-- The assertion between the steps of a conversation. -/
abbrev Remembering (s : AgentState σ) : Prop := NoUnflaggedRaise s.trace → Sticks s

/-- A run keeps what the conversation remembers, however it ends. -/
theorem run_remembering (env : LoopEnv σ) (args : RunArgs) :
    Keeps Remembering Remembering (run env args) := by
  intro s h
  have hstart : Held s.resuming Sticks { s with structuredOutput := .null } :=
    ⟨rfl, fun hno => ⟨⟨(h hno).remembers.rising, (h hno).remembers.flag⟩, (h hno).started⟩⟩
  apply ((runRule_sticks env args s.resuming).run env.moves_anywhere (responds_anything env) rfl
    hstart).mono
  · rintro _ s' ⟨text, s₁, -, h₁, ha, -, -⟩ hno
    have hno₁ : NoUnflaggedRaise s₁.trace := by
      rw [ha.trace, List.append_nil] at hno
      exact hno
    exact ((h₁.holds hno₁).grow ha.trace (by simp) (.of_eq ha.runtime)).sticks
  · exact fun e s' h' hno => h'.holds hno

end Run

-- ============================================================================
-- Between runs
-- ============================================================================

section Between

variable {s s' : AgentState σ} {bs : List Action}

theorem Remembering.grow {ρ : σ → σ → Prop} (h : Remembering s) (bs : List Action)
    (ht : s'.trace = s.trace ++ bs) (hb : ∀ b ∈ bs, Uneventful b) (hm : Moved ρ s s') :
    Remembering s' := by
  intro hno
  rw [ht] at hno
  exact (h hno.of_append).grow ht hb hm

theorem escalate_remembering : Keeps Remembering Remembering (escalate : M σ Bool) := by
  intro s h
  unfold escalate
  rw [Lib.wp_bind, Lib.wp_get, Lib.wp_ite]
  refine ⟨fun _ => ?_, fun _ => h⟩
  rw [Lib.wp_bind, Lib.wp_modify, Lib.wp_bind, note, Lib.wp_modify]
  intro hno
  have hsticks : Sticks s := h (NoUnflaggedRaise.of_append hno)
  have hrising : Rising (s.trace ++ [.escalated]) := by
    unfold Rising
    rw [turnsOf_append]
    exact (List.append_nil (turnsOf s.trace)).symm ▸ hsticks.remembers.rising
  exact ⟨⟨hrising, fun _ => ⟨rfl, rfl⟩⟩, fun _ _ => rfl⟩

theorem uneventful_of_resolved {env : Env σ} {p : PendingConfirmation} (h : Resolved env p bs) :
    ∀ b ∈ bs, Uneventful b := by
  intro b hb
  rcases h with rfl | ⟨runs, rfl, hruns, -⟩
  · cases hb
  · rcases List.mem_cons.mp hb with rfl | hb
    · trivial
    · obtain ⟨attempt, kwargs, -, -, rfl⟩ := (hruns b hb).1
      trivial

theorem resolve_remembering (env : Env σ) (approved : Bool) :
    Keeps Remembering Remembering (resolvePendingConfirmation env approved) := by
  intro s h
  have hdrift := drifts_resolvePendingConfirmation (Env.moves_anywhere env) approved s
  cases hp : s.runtime.pendingConfirmation with
  | none =>
      unfold resolvePendingConfirmation
      rw [Lib.wp_bind, Lib.wp_get, hp]
      exact h
  | some p =>
      apply ((resolve_spec env approved hp rfl).and hdrift).mono
      · rintro _ s' ⟨⟨result, bs, s₁, rs, as, hsettled, -, hacts, -, ht⟩, hm⟩
        refine h.grow (bs ++ (as ++ [.persisted s'.conv])) ?_ ?_ hm
        · rw [ht, hsettled.trace, List.append_assoc]
        · intro b hb
          simp only [List.mem_append, List.mem_singleton] at hb
          rcases hb with hb | hb | rfl
          · exact uneventful_of_resolved hsettled.resolved b hb
          · exact uneventful_of_acts hacts b hb
          · trivial
      · rintro e s' ⟨hends, hm⟩
        have hboth : ∀ {as bs : List Action}, s'.trace = s.trace ++ bs ++ as →
            Resolved env p bs → (∀ a ∈ as, Uneventful a) → Remembering s' := by
          intro as bs ht hresolved hacts
          refine h.grow (bs ++ as) (by rw [ht, List.append_assoc]) ?_ hm
          intro b hb
          rcases List.mem_append.mp hb with hb | hb
          · exact uneventful_of_resolved hresolved b hb
          · exact hacts b hb
        cases e with
        | raised exc =>
            obtain ⟨bs, as, ht, hresolved, hacts⟩ := hends
            exact hboth ht hresolved (uneventful_of_acts hacts)
        | pendingConfirmation call arguments decision id =>
            obtain ⟨result, bs, s₁, hsettled, hpaused⟩ := hends
            obtain ⟨done, rest, kept, rs, as, kvs, s₂, -, -, hp₂, -, -, -, -, ht, -⟩ := hpaused
            refine hboth (by rw [ht, hp₂.trace, hsettled.trace]) hsettled.resolved
              (uneventful_of_acts hp₂.acts)

theorem saveCheckpoint_remembering : Keeps Remembering Remembering (saveCheckpoint : M σ PUnit) := by
  intro s h
  apply (saveCheckpoint_spec s).mono
  · rintro _ s' ⟨hs, -⟩
    rw [hs]
    exact fun hno => ⟨⟨(h hno).remembers.rising, (h hno).remembers.flag⟩, (h hno).started⟩
  · rintro _ s' ⟨-, hs⟩
    rw [hs]
    exact fun hno => ⟨⟨(h hno).remembers.rising, (h hno).remembers.flag⟩, (h hno).started⟩

theorem rebuildRuntime_course {r r' : Runtime}
    (h : rebuildRuntime (redactRuntime r) = .ok r') : SameCourse r r' := by
  unfold rebuildRuntime at h
  cases hp : rebuildPending (redactRuntime r).pendingConfirmation with
  | error e =>
      rw [hp] at h
      cases h
  | ok pending =>
      cases hcs : rebuildCalls (redactRuntime r).pendingRemainingCalls with
      | error e =>
          rw [hp, hcs] at h
          cases h
      | ok calls =>
          rw [hp, hcs] at h
          obtain rfl := Except.ok.inj h
          exact ⟨rfl, rfl, rfl, rfl⟩

theorem resume_remembering {world : σ} (h : Remembering s) (hsaved : Checkpointed s)
    (hresume : resumeAgent s.store s.runId world s.trace = .ok s') : Remembering s' := by
  obtain ⟨store, hsave⟩ := hsaved
  obtain ⟨hruntime, -, -, htrace⟩ := resumeAgent_ok hsave hresume
  obtain ⟨hid, -, -⟩ := (save_eq_ok_iff _ _ _ _ _).mp hsave
  have hc := rebuildRuntime_course hruntime
  intro hno
  rw [htrace] at hno
  have hsticks := h hno
  refine ⟨hsticks.remembers.grow (by rw [htrace, List.append_nil]) (by simp) hc, fun _ => ?_⟩
  rw [hc.mode, hc.stickyMax]
  exact hsticks.started (.inl hid)

end Between

-- ============================================================================
-- MAX is sticky
-- ============================================================================

/-- Every step of a conversation keeps what it remembers. -/
theorem conversing_remembering {s₀ s : AgentState σ} (hstart : Unstarted s₀)
    (h : Conversing s₀ s) : Remembering s := by
  induction h with
  | start =>
      have hnone : ¬ RanInMax s₀.trace := by
        rintro ⟨t, ht, -⟩
        rw [hstart.trace] at ht
        cases ht
      refine fun _ => ⟨⟨?_, fun hran => absurd hran hnone⟩, fun hbegun => ?_⟩
      · rw [hstart.trace]
        exact List.Pairwise.nil
      · rw [hstart.runId, hstart.resuming] at hbegun
        simp at hbegun
  | run env args _ ih => exact Wp.stateAfter (run_remembering env args _ ih)
  | escalate _ ih => exact Wp.stateAfter (escalate_remembering _ ih)
  | resolve env approved _ ih => exact Wp.stateAfter (resolve_remembering env approved _ ih)
  | save _ ih => exact Wp.stateAfter (saveCheckpoint_remembering _ ih)
  | resume world _ hsaved hresume ih => exact resume_remembering ih hsaved hresume

/-- Over a conversation no pass in FLASH follows one in MAX, if the classifier
    raises only in runs that find MAX sticky already. -/
theorem conversation_rising {s₀ s : AgentState σ} (hstart : Unstarted s₀)
    (h : Conversing s₀ s) (hraise : NoUnflaggedRaise s.trace) : Rising s.trace :=
  (conversing_remembering hstart h hraise).remembers.rising

/-- A classifier that raises on one task and finds every other simple. -/
def flakyAgent : LoopEnv Unit :=
  { chattyAgent with
    classifier := fun task w => (if task = py "hard" then none else some .flash, w) }

/-- The agent after the tasks of a conversation. -/
def afterTasks (tasks : List String) : AgentState Unit :=
  tasks.foldl (fun s task => stateAfter (run flakyAgent { userMessage := some (py task) }) s)
    quietState

-- a statement about a run is never settled by evaluating it
attribute [local irreducible] run

/-- A run in MAX, and then a run in FLASH. -/
theorem raise_forgets_max :
    Conversing quietState (afterTasks ["hard", "easy"]) ∧
      ¬ Rising (afterTasks ["hard", "easy"]).trace := by
  refine ⟨.run flakyAgent _ (.run flakyAgent _ .start), ?_⟩
  have hturns : turnsOf (afterTasks ["hard", "easy"]).trace = [⟨0, .max, 50⟩, ⟨0, .flash, 5⟩] := by
    decide +kernel
  unfold Rising
  rw [hturns]
  decide

/-- The theorem after two simple tasks. -/
theorem easy_tasks_rising : Rising (afterTasks ["easy", "easy"]).trace :=
  conversation_rising (show Unstarted quietState from ⟨rfl, rfl, rfl⟩)
    (.run flakyAgent _ (.run flakyAgent _ .start)) (by
      unfold NoUnflaggedRaise
      decide +kernel)

end Agent
end KineticSdk
