/-
  KineticSdk.Agent.Escalation

  When a run escalates from FLASH to MAX.

  `_maybe_escalate` is consulted at the end of a pass with tool calls and of a
  pass whose answer the verifier rejected, and from the third pass on it leaves
  no run in FLASH.  A pass whose answer goes back for its schema ends without
  consulting it.  So a run that started in FLASH goes into its fourth pass in
  MAX as long as no such pass comes late.
-/

import KineticSdk.Agent.Rules

namespace KineticSdk
namespace Agent

open Py Tool Security Conversation Replay Context
open Lib (Wp Guarded)

variable {σ : Type}

-- ============================================================================
-- Passes and escalations in a trace
-- ============================================================================

/-- What `agent.turn_started` says of a pass, and the cap it started with. -/
structure TurnStart where
  iteration : Nat
  mode : AgentMode
  maxIterations : Int
deriving DecidableEq

/-- The passes a trace tells of. -/
def turnsOf (as : List Action) : List TurnStart :=
  as.filterMap fun
    | .turnStarted iteration mode maxIterations => some ⟨iteration, mode, maxIterations⟩
    | _ => none

/-- How often `agent.escalated` was emitted. -/
def escalations (as : List Action) : Nat :=
  as.countP fun
    | .escalated => true
    | _ => false

/-- The first pass was made in FLASH. -/
def StartsInFlash (as : List Action) : Prop :=
  ∃ t ∈ turnsOf as, t.iteration = 0 ∧ t.mode = .flash

/-- No pass from the threshold on was left in FLASH, or with a smaller cap. -/
def EscalatedInTime (as : List Action) : Prop :=
  ∀ t ∈ turnsOf as, flashEscalationThreshold ≤ t.iteration →
    t.mode = .max ∧ t.maxIterations = modeMaxIterations .max

/-- An answer went back for its schema only in MAX or before the last pass below
    the threshold. -/
def NoLateRetry (as : List Action) : Prop :=
  Guarded (fun pre a => a = .structuredRetry → ∀ t, (turnsOf pre).getLast? = some t →
    t.mode = .flash → t.iteration + 1 < flashEscalationThreshold) as

/-- From MAX on there is no pass in FLASH. -/
def Rising (as : List Action) : Prop :=
  (turnsOf as).Pairwise fun t t' => t.mode = .max → t'.mode = .max

/-- The action neither starts a pass nor has to do with escalation. -/
def Uneventful : Action → Prop
  | .turnStarted .. | .escalated | .structuredRetry => False
  | _ => True

theorem turnsOf_append (as bs : List Action) : turnsOf (as ++ bs) = turnsOf as ++ turnsOf bs :=
  List.filterMap_append

theorem turnsOf_append_of_uneventful (as : List Action) {bs : List Action} (hb : ∀ b ∈ bs, Uneventful b) :
    turnsOf (as ++ bs) = turnsOf as := by
  have hnone : turnsOf bs = [] := by
    refine List.filterMap_eq_nil_iff.mpr fun b hin => ?_
    have hplain := hb b hin
    cases b <;> first | exact hplain.elim | rfl
  rw [turnsOf_append, hnone, List.append_nil]

theorem escalations_append_of_uneventful (as : List Action) {bs : List Action}
    (hb : ∀ b ∈ bs, Uneventful b) : escalations (as ++ bs) = escalations as := by
  have hnone : escalations bs = 0 := by
    refine List.countP_eq_zero.mpr fun b hin => ?_
    have hplain := hb b hin
    cases b <;> first | exact hplain.elim | simp
  have hsplit : escalations (as ++ bs) = escalations as + escalations bs := List.countP_append
  omega

theorem uneventful_of_acts {env : Env σ} {calls : List ToolCall} {as : List Action}
    (h : Acts env calls as) : ∀ a ∈ as, Uneventful a := by
  intro a ha
  have hnote := callNote_of_acts h a ha
  cases a <;> first | exact hnote.elim | trivial

-- ============================================================================
-- The invariant of the loop
-- ============================================================================

/-- What holds of the actions `as` of a run at any moment of its loop. -/
structure Course (t₀ : List Action) (escalated : Bool) (s : AgentState σ) (as : List Action) :
    Prop where
  trace : s.trace = t₀ ++ as
  override : s.runtime.maxIterationsOverride = none
  count : escalations as = if escalated then 1 else 0
  flag : escalated = true → s.runtime.mode = .max
  rising : Rising as
  reached : ∀ t ∈ turnsOf as, t.mode = .max → s.runtime.mode = .max
  cap : StartsInFlash as → s.runtime.mode = .max →
    s.runtime.maxIterations = modeMaxIterations .max
  inTime : StartsInFlash as → NoLateRetry as → EscalatedInTime as

/-- At the start of a pass. -/
structure AtHead (t₀ : List Action) (v : LoopVars) (s : AgentState σ) (as : List Action) : Prop where
  course : Course t₀ v.escalated s as
  earlier : ∀ t ∈ turnsOf as, t.iteration < v.iteration
  due : StartsInFlash as → NoLateRetry as → flashEscalationThreshold ≤ v.iteration →
    s.runtime.mode = .max

/-- Inside a pass. -/
structure InPass (t₀ : List Action) (v : LoopVars) (s : AgentState σ) (as : List Action) : Prop where
  course : Course t₀ v.escalated s as
  upTo : ∀ t ∈ turnsOf as, t.iteration ≤ v.iteration
  current : ∀ t, (turnsOf as).getLast? = some t →
    t.iteration = v.iteration ∧ t.mode = s.runtime.mode
  started : (turnsOf as).getLast? ≠ none

/-- What a run leaves: it escalated once at most, never went back to FLASH, and
    escalated in time when no late retry kept it from it. -/
structure Lawful (s s' : AgentState σ) (as : List Action) : Prop where
  trace : s'.trace = s.trace ++ as
  once : escalations as ≤ 1
  rising : Rising as
  reached : ∀ t ∈ turnsOf as, t.mode = .max → s'.runtime.mode = .max
  inTime : StartsInFlash as → NoLateRetry as → EscalatedInTime as

section Invariant

variable {t₀ as bs : List Action} {v : LoopVars} {s s' : AgentState σ} {e : Bool}

theorem Course.grow (h : Course t₀ e s as) (hb : ∀ b ∈ bs, Uneventful b)
    (ht : s'.trace = s.trace ++ bs) (hr : SameCourse s.runtime s'.runtime) :
    Course t₀ e s' (as ++ bs) := by
  have hturns := turnsOf_append_of_uneventful as hb
  have hflash : StartsInFlash (as ++ bs) → StartsInFlash as := by
    unfold StartsInFlash
    rw [hturns]
    exact id
  refine ⟨?_, ?_, ?_, ?_, ?_, ?_, ?_, ?_⟩
  · rw [ht, h.trace, List.append_assoc]
  · rw [hr.override, h.override]
  · rw [escalations_append_of_uneventful as hb, h.count]
  · rw [hr.mode]
    exact h.flag
  · unfold Rising
    rw [hturns]
    exact h.rising
  · rw [hturns, hr.mode]
    exact h.reached
  · rw [hr.mode, hr.maxIterations]
    exact fun hstart => h.cap (hflash hstart)
  · intro hstart hretry
    unfold EscalatedInTime
    rw [hturns]
    exact h.inTime (hflash hstart) hretry.of_append

theorem AtHead.grow (h : AtHead t₀ v s as) (hb : ∀ b ∈ bs, Uneventful b)
    (ht : s'.trace = s.trace ++ bs) (hr : SameCourse s.runtime s'.runtime) :
    AtHead t₀ v s' (as ++ bs) := by
  have hturns := turnsOf_append_of_uneventful as hb
  refine ⟨h.course.grow hb ht hr, ?_, ?_⟩
  · rw [hturns]
    exact h.earlier
  · intro hstart hretry
    unfold StartsInFlash at hstart
    rw [hturns] at hstart
    rw [hr.mode]
    exact h.due hstart hretry.of_append

theorem InPass.grow (h : InPass t₀ v s as) (hb : ∀ b ∈ bs, Uneventful b)
    (ht : s'.trace = s.trace ++ bs) (hr : SameCourse s.runtime s'.runtime) :
    InPass t₀ v s' (as ++ bs) := by
  have hturns := turnsOf_append_of_uneventful as hb
  refine ⟨h.course.grow hb ht hr, ?_, ?_, ?_⟩
  · rw [hturns]
    exact h.upTo
  · rw [hturns, hr.mode]
    exact h.current
  · rw [hturns]
    exact h.started

/-- A pass starts in the mode the run has reached. -/
theorem AtHead.start (h : AtHead t₀ v s as) :
    InPass t₀ v (noted (.turnStarted v.iteration s.runtime.mode s.runtime.maxIterations) s)
      (as ++ [.turnStarted v.iteration s.runtime.mode s.runtime.maxIterations]) := by
  have hturns : turnsOf (as ++ [.turnStarted v.iteration s.runtime.mode s.runtime.maxIterations])
      = turnsOf as ++ [⟨v.iteration, s.runtime.mode, s.runtime.maxIterations⟩] :=
    turnsOf_append as _
  have hcount : escalations (as ++ [.turnStarted v.iteration s.runtime.mode
      s.runtime.maxIterations]) = escalations as := by simp [escalations]
  -- the start of a run is its pass 0, and later passes find it in the trace
  have hstart : StartsInFlash (as ++ [.turnStarted v.iteration s.runtime.mode
      s.runtime.maxIterations]) →
      StartsInFlash as ∨ (v.iteration = 0 ∧ s.runtime.mode = .flash) := by
    rintro ⟨t, ht, hzero, hflash⟩
    rw [hturns] at ht
    rcases List.mem_append.mp ht with ht | ht
    · exact .inl ⟨t, ht, hzero, hflash⟩
    · obtain rfl := List.mem_singleton.mp ht
      exact .inr ⟨hzero, hflash⟩
  refine ⟨⟨?_, h.course.override, by rw [hcount, h.course.count], h.course.flag, ?_, ?_, ?_, ?_⟩,
    ?_, ?_, ?_⟩
  · show s.trace ++ _ = _
    rw [h.course.trace, List.append_assoc]
  · unfold Rising
    rw [hturns, List.pairwise_append]
    refine ⟨h.course.rising, List.pairwise_singleton _ _, ?_⟩
    intro t ht t' ht' hmax
    obtain rfl := List.mem_singleton.mp ht'
    exact h.course.reached t ht hmax
  · intro t ht hmax
    rw [hturns] at ht
    rcases List.mem_append.mp ht with ht | ht
    · exact h.course.reached t ht hmax
    · obtain rfl := List.mem_singleton.mp ht
      exact hmax
  · intro hflash hmax
    rcases hstart hflash with hold | ⟨-, hnow⟩
    · exact h.course.cap hold hmax
    · have hmode : s.runtime.mode = .max := hmax
      rw [hnow] at hmode
      cases hmode
  · intro hflash hretry t ht hlate
    have hretry' : NoLateRetry as := hretry.of_append
    rw [hturns] at ht
    rcases List.mem_append.mp ht with ht | ht
    · rcases hstart hflash with hold | ⟨hzero, -⟩
      · exact h.course.inTime hold hretry' t ht hlate
      · have hbelow := h.earlier t ht
        omega
    · obtain rfl := List.mem_singleton.mp ht
      have hthreshold : flashEscalationThreshold = 3 := rfl
      rcases hstart hflash with hold | ⟨hzero, -⟩
      · have hmax := h.due hold hretry' hlate
        exact ⟨hmax, h.course.cap hold hmax⟩
      · have hlate' : flashEscalationThreshold ≤ v.iteration := hlate
        omega
  · intro t ht
    rw [hturns] at ht
    rcases List.mem_append.mp ht with ht | ht
    · exact (h.earlier t ht).le
    · obtain rfl := List.mem_singleton.mp ht
      exact le_refl _
  · intro t ht
    rw [hturns, List.getLast?_concat] at ht
    obtain rfl := Option.some.inj ht
    exact ⟨rfl, rfl⟩
  · rw [hturns, List.getLast?_concat]
    simp

/-- A pass that consults `_maybe_escalate`. -/
theorem InPass.next (h : InPass t₀ v s as) (byError : Bool) :
    ∃ bs, AtHead t₀ (nextPass byError v s) (afterEscalation byError v s) (as ++ bs) := by
  by_cases hesc : escalates byError v s = true
  · -- an escalation is the first one
    have hcond := hesc
    unfold escalates at hcond
    simp only [Bool.and_eq_true, Bool.not_eq_true', decide_eq_true_eq] at hcond
    obtain ⟨⟨hfirst, hflash⟩, -⟩ := hcond
    have hvars : (nextPass byError v s).escalated = true := by
      unfold nextPass
      rw [hesc, Bool.or_true]
    have hafter : afterEscalation byError v s
        = noted .escalated { s with runtime := escalated s.runtime } := by
      unfold afterEscalation
      rw [if_pos hesc]
    have hturns : turnsOf (as ++ [.escalated]) = turnsOf as := by
      rw [turnsOf_append]
      exact List.append_nil _
    have hcount : escalations (as ++ [.escalated]) = escalations as + 1 := by simp [escalations]
    have hmax : (afterEscalation byError v s).runtime.mode = .max := by
      rw [hafter]
      rfl
    refine ⟨[.escalated], ⟨?_, ?_, ?_, fun _ => hmax, ?_, fun _ _ _ => hmax, ?_, ?_⟩, ?_,
      fun _ _ _ => hmax⟩
    · rw [hafter]
      show s.trace ++ _ = _
      rw [h.course.trace, List.append_assoc]
    · rw [hafter]
      exact h.course.override
    · rw [hvars, hcount, h.course.count, hfirst]
      rfl
    · unfold Rising
      rw [hturns]
      exact h.course.rising
    · intro _ _
      rw [hafter]
      show (if s.runtime.maxIterationsOverride.isNone then modeMaxIterations .max
        else s.runtime.maxIterations) = _
      rw [h.course.override]
      rfl
    · intro hflash' hretry
      unfold StartsInFlash at hflash'
      unfold EscalatedInTime
      rw [hturns] at hflash' ⊢
      exact h.course.inTime hflash' hretry.of_append
    · intro t ht
      rw [hturns] at ht
      have hle := h.upTo t ht
      show t.iteration < v.iteration + 1
      omega
  · -- without one the run is in MAX or below the threshold
    have hno : escalates byError v s = false := by simpa using hesc
    have hvars : (nextPass byError v s).escalated = v.escalated := by
      unfold nextPass
      rw [hno, Bool.or_false]
    have hafter : afterEscalation byError v s = s := by
      unfold afterEscalation
      rw [if_neg hesc]
    refine ⟨[], ?_, ?_, ?_⟩
    · rw [hafter, hvars, List.append_nil]
      exact h.course
    · intro t ht
      rw [List.append_nil] at ht
      have hle := h.upTo t ht
      show t.iteration < v.iteration + 1
      omega
    · intro _ _ hlate
      rw [hafter]
      have hlate' : flashEscalationThreshold ≤ v.iteration + 1 := hlate
      cases hmode : s.runtime.mode with
      | max => rfl
      | flash =>
          have hfirst : v.escalated = false := by
            by_contra hflag
            have hmax := h.course.flag (by simpa using hflag)
            rw [hmode] at hmax
            cases hmax
          unfold escalates at hno
          simp [hmode, hfirst, hlate'] at hno

/-- An answer that goes back for its schema ends the pass without asking
    `_maybe_escalate`. -/
theorem InPass.retry (h : InPass t₀ v s as) (text : PyStr) :
    AtHead t₀ { v with retriesLeft := v.retriesLeft - 1, iteration := v.iteration + 1 }
      (sentBack text s) (as ++ [.structuredRetry]) := by
  have hturns : turnsOf (as ++ [.structuredRetry]) = turnsOf as := by
    rw [turnsOf_append]
    exact List.append_nil _
  have hcount : escalations (as ++ [.structuredRetry]) = escalations as := by simp [escalations]
  have hflash : StartsInFlash (as ++ [.structuredRetry]) → StartsInFlash as := by
    unfold StartsInFlash
    rw [hturns]
    exact id
  refine ⟨⟨?_, h.course.override, by rw [hcount, h.course.count], h.course.flag, ?_, ?_, ?_, ?_⟩,
    ?_, ?_⟩
  · show s.trace ++ _ = _
    rw [h.course.trace, List.append_assoc]
  · unfold Rising
    rw [hturns]
    exact h.course.rising
  · rw [hturns]
    exact h.course.reached
  · exact fun hstart => h.course.cap (hflash hstart)
  · intro hstart hretry
    unfold EscalatedInTime
    rw [hturns]
    exact h.course.inTime (hflash hstart) hretry.of_append
  · intro t ht
    rw [hturns] at ht
    have hle := h.upTo t ht
    show t.iteration < v.iteration + 1
    omega
  · intro _ hretry hlate
    obtain ⟨t, ht⟩ := Option.ne_none_iff_exists'.mp h.started
    obtain ⟨hiteration, hmode⟩ := h.current t ht
    have hguard := (Guarded.snoc_iff.mp hretry).2 rfl t ht
    have hlate' : flashEscalationThreshold ≤ v.iteration + 1 := hlate
    show s.runtime.mode = .max
    cases hcase : s.runtime.mode with
    | max => rfl
    | flash =>
        have hbelow := hguard (hmode.trans hcase)
        omega

/-- What no caller can tell apart is lawful alike. -/
theorem Lawful.same {s₀ : AgentState σ} (h : Lawful s₀ s as) (ha : Adds [] s s') :
    Lawful s₀ s' as := by
  refine ⟨by rw [ha.trace, List.append_nil, h.trace], h.once, h.rising, ?_, h.inTime⟩
  rw [ha.runtime]
  exact h.reached

theorem Course.lawful {s₀ : AgentState σ} (h : Course s₀.trace e s as) : Lawful s₀ s as := by
  refine ⟨h.trace, ?_, h.rising, h.reached, h.inTime⟩
  rw [h.count]
  split <;> omega

end Invariant

-- ============================================================================
-- The whole run
-- ============================================================================

theorem loopRule_course (env : LoopEnv σ) (verify : Bool) (schema : Option Json)
    (s₀ : AgentState σ) :
    LoopRule env (fun _ _ => True) (fun _ _ => True) verify schema
      (fun v s => ∃ as, AtHead s₀.trace v s as) (fun v s => ∃ as, InPass s₀.trace v s as)
      (fun v s => ∃ as, InPass s₀.trace v s as) (fun v s => ∃ as, InPass s₀.trace v s as)
      (fun _ s => ∃ as, Lawful s₀ s as) (fun s => ∃ as, Lawful s₀ s as) := by
  -- what neither starts a pass nor has to do with escalation
  have hhead : ∀ {v : LoopVars} {s : AgentState σ} (s' : AgentState σ) (bs : List Action),
      (∃ as, AtHead s₀.trace v s as) → (∀ b ∈ bs, Uneventful b) → s'.trace = s.trace ++ bs →
      s'.runtime = s.runtime → ∃ as, AtHead s₀.trace v s' as := by
    rintro v s s' bs ⟨as, h⟩ hb ht hr
    exact ⟨_, h.grow hb ht (.of_eq hr)⟩
  have hpass : ∀ {v : LoopVars} {s : AgentState σ} (s' : AgentState σ) (bs : List Action),
      (∃ as, InPass s₀.trace v s as) → (∀ b ∈ bs, Uneventful b) → s'.trace = s.trace ++ bs →
      s'.runtime = s.runtime → ∃ as, InPass s₀.trace v s' as := by
    rintro v s s' bs ⟨as, h⟩ hb ht hr
    exact ⟨_, h.grow hb ht (.of_eq hr)⟩
  have hended : ∀ {v : LoopVars} {s : AgentState σ}, (∃ as, InPass s₀.trace v s as) →
      ∃ as, Lawful s₀ s as := by
    rintro v s ⟨as, h⟩
    exact ⟨as, h.course.lawful⟩
  have hended' : ∀ {v : LoopVars} {s : AgentState σ}, (∃ as, AtHead s₀.trace v s as) →
      ∃ as, Lawful s₀ s as := by
    rintro v s ⟨as, h⟩
    exact ⟨as, h.course.lawful⟩
  have hsettled : ∀ {v : LoopVars} {s : AgentState σ} (a : Action), Uneventful a →
      (∃ as, InPass s₀.trace v s as) → ∃ as, Lawful s₀ (noted a s) as :=
    fun a ha h => hended (hpass (noted a _) [a] h (by simpa using ha) rfl rfl)
  refine {
    quietHead := fun v s s' h ha _ => hhead s' [] h (by simp) ha.trace ha.runtime
    quiet := fun v s s' h ha _ => hpass s' [] h (by simp) ha.trace ha.runtime
    quietAnswer := fun v s s' h ha _ => hpass s' [] h (by simp) ha.trace ha.runtime
    left := fun _ _ h => hended h
    exhausted := fun v s h _ => hended' (hhead (noted (.stopped _) s) [_] h (by simp [Uneventful])
      rfl rfl)
    unverified := fun _ _ h _ => hended' h
    cancelled := fun v s h => hended' (hhead (noted (.stopped _) s) [_] h (by simp [Uneventful])
      rfl rfl)
    started := fun v s h _ => (hhead (noted (.accepted (env.accepted s.world)) s) [_] h
      (by simp [Uneventful]) rfl rfl).elim fun as h => ⟨_, h.start⟩
    compact := fun v s manager limit h _ => hpass (compacted manager limit s) _ h ?_ rfl rfl
    stop := fun _ _ reason h => hsettled (.stopped reason) trivial h
    outOfBudget := fun _ _ message h => hsettled (.budgetExceeded message) trivial h
    asked := fun v s h => hpass (noted (.llmCall s.conv.messages) s) [_] h (by simp [Uneventful])
      rfl rfl
    answer := ?_
    retry := fun _ _ text h _ _ => h.elim fun as h => ⟨_, h.retry text⟩
    unasked := fun _ s h _ => hsettled (.persisted s.conv) trivial h
    accepted := fun v s h _ => hsettled (.persisted s.conv) trivial
      (hpass (noted (.verdict v.finalText true) s) [_] h (by simp [Uneventful]) rfl rfl)
    rejected := fun v s h _ => hsettled (.verdict v.finalText false) trivial h
    corrected := ?_
    tools := fun v s s' response rs as h _ _ _ hp _ =>
      hpass s' as h (uneventful_of_acts hp.acts) hp.trace hp.runtime
    broken := ?_
    stuck := fun v s reason h => hsettled (.stopped reason) trivial
      (hpass (noted (.persisted s.conv) s) [_] h (by simp [Uneventful]) rfl rfl)
    drain := fun v s h => hpass (drained env (noted (.persisted s.conv) s)) _
      (hpass (noted (.persisted s.conv) s) [_] h (by simp [Uneventful]) rfl rfl) ?_ rfl rfl
    next := fun v s byError h => h.elim fun as h => (h.next byError).imp' _ fun _ h' => h' }
  · intro a ha
    obtain ⟨found, -, rfl⟩ := List.mem_map.mp ha
    trivial
  · rintro v s response ⟨as, h⟩ - -
    have hgrown : InPass s₀.trace v (putForward env schema response.content
        { s with conv := s.conv.addAssistant (assistantContent response) })
        (as ++ [.proposed response.content]) := h.grow (by simp [Uneventful]) rfl (.of_eq rfl)
    exact ⟨_, hgrown.course, hgrown.upTo, hgrown.current, hgrown.started⟩
  · rintro v s text feedback ⟨as, h⟩ -
    have hgrown : InPass s₀.trace v
        { noted (.verdict v.finalText false) s with conv := s.conv.addUserMessage text }
        (as ++ [.verdict v.finalText false]) := h.grow (by simp [Uneventful]) rfl (.of_eq rfl)
    obtain ⟨bs, hnext⟩ := hgrown.next true
    exact ⟨_, hnext.course, hnext.earlier, hnext.due⟩
  · rintro v s s' response as ⟨bs, h⟩ - - - ht hacts hm
    exact ⟨_, (h.grow (uneventful_of_acts hacts) ht hm.course).course.lawful⟩
  · intro a ha
    rcases List.mem_append.mp ha with ha | ha
    · obtain ⟨text, -, rfl⟩ := List.mem_map.mp ha
      trivial
    · obtain rfl := List.mem_singleton.mp ha
      trivial

/-- Before the loop nothing has started, and routing keeps the override. -/
structure BeforeLoop (s₀ s : AgentState σ) (as : List Action) : Prop where
  trace : s.trace = s₀.trace ++ as
  uneventful : ∀ a ∈ as, Uneventful a
  override : s.runtime.maxIterationsOverride = none

theorem BeforeLoop.atHead {s₀ s : AgentState σ} {as : List Action} (h : BeforeLoop s₀ s as)
    {v : LoopVars} (hv : v.escalated = false) : AtHead s₀.trace v s as := by
  have hturns : turnsOf as = [] := turnsOf_append_of_uneventful [] h.uneventful
  have hcount : escalations as = 0 := escalations_append_of_uneventful [] h.uneventful
  have hstart : ¬ StartsInFlash as := by
    unfold StartsInFlash
    simp [hturns]
  refine ⟨⟨h.trace, h.override, by rw [hcount, hv]; rfl, by simp [hv], ?_, by simp [hturns],
    fun hflash => absurd hflash hstart, fun hflash => absurd hflash hstart⟩, by simp [hturns],
    fun hflash => absurd hflash hstart⟩
  unfold Rising
  rw [hturns]
  exact List.Pairwise.nil

theorem BeforeLoop.grow {s₀ s s' : AgentState σ} {as : List Action} (h : BeforeLoop s₀ s as)
    (bs : List Action) (hb : ∀ b ∈ bs, Uneventful b) (ht : s'.trace = s.trace ++ bs)
    (hr : s'.runtime.maxIterationsOverride = s.runtime.maxIterationsOverride) :
    BeforeLoop s₀ s' (as ++ bs) := by
  refine ⟨by rw [ht, h.trace, List.append_assoc], ?_, by rw [hr, h.override]⟩
  intro a ha
  rcases List.mem_append.mp ha with ha | ha
  · exact h.uneventful a ha
  · exact hb a ha

/-- Routing does not touch the override. -/
theorem route_override (answer : Option AgentMode) (r : Runtime) :
    (route answer r).maxIterationsOverride = r.maxIterationsOverride := by
  rcases answer with - | mode
  · rfl
  · cases mode with
    | max => rfl
    | flash =>
        unfold route
        dsimp only
        split <;> rfl

theorem runRule_course (env : LoopEnv σ) (args : RunArgs) (resuming : Bool) (s₀ : AgentState σ) :
    RunRule env (fun _ _ => True) (fun _ _ => True) args resuming
      (fun s => ∃ as, BeforeLoop s₀ s as) (fun s => ∃ as, BeforeLoop s₀ s as)
      (fun s => ∃ as, BeforeLoop s₀ s as)
      (fun v s => ∃ as, AtHead s₀.trace v s as) (fun v s => ∃ as, InPass s₀.trace v s as)
      (fun v s => ∃ as, InPass s₀.trace v s as) (fun v s => ∃ as, InPass s₀.trace v s as)
      (fun _ s => ∃ as, Lawful s₀ s as) (fun s => ∃ as, Lawful s₀ s as) where
  quiet := by
    rintro s s' ⟨as, h⟩ ha -
    exact ⟨_, h.grow [] (by simp) ha.trace (by rw [ha.runtime])⟩
  left := by
    rintro s ⟨as, h⟩
    exact ⟨as, (h.atHead (v := startVars env args) rfl).course.lawful⟩
  failed := by
    rintro s s' ⟨as, h⟩ ha -
    exact ⟨as, h.same ha⟩
  user := by
    rintro s text ⟨as, h⟩
    exact ⟨as, h.trace, h.uneventful, h.override⟩
  fresh := by
    rintro s runId ⟨as, h⟩
    exact ⟨as, h.trace, h.uneventful, h.override⟩
  quietFresh := by
    rintro s s' ⟨as, h⟩ ha -
    exact ⟨_, h.grow [] (by simp) ha.trace (by rw [ha.runtime])⟩
  routed := by
    rintro s answer ⟨as, h⟩
    have hplain : ∀ b ∈ [Action.classified answer s.runtime.stickyMax], Uneventful b := by
      simp [Uneventful]
    exact ⟨_, h.grow _ hplain rfl (route_override answer s.runtime)⟩
  resumed := fun _ _ h => h
  quietReady := by
    rintro s s' ⟨as, h⟩ ha -
    exact ⟨_, h.grow [] (by simp) ha.trace (by rw [ha.runtime])⟩
  plan := by
    rintro s plan ⟨as, h⟩
    exact ⟨as, h.trace, h.uneventful, h.override⟩
  enter := by
    rintro s ⟨as, h⟩
    exact ⟨as, h.atHead rfl⟩
  loop := loopRule_course env _ _ s₀

/-- A run without an override of the iteration cap, however it ends, emits at
    most one escalation and never goes from MAX to FLASH; when it starts in
    FLASH and no answer goes back for its schema late in a pass in FLASH, every
    pass from the threshold on is made in MAX with the cap of MAX. -/
theorem run_escalates_in_time (env : LoopEnv σ) (args : RunArgs) (s : AgentState σ)
    (hoverride : s.runtime.maxIterationsOverride = none) :
    Wp (run env args) (fun _ s' => ∃ as, Lawful s s' as) (fun _ s' => ∃ as, Lawful s s' as) s := by
  have hstart : BeforeLoop s { s with structuredOutput := .null } [] :=
    ⟨by simp, by simp, hoverride⟩
  have hrule := runRule_course env args (s.resuming && args.userMessage.isNone) s
  apply (hrule.run env.moves_anywhere (responds_anything env) rfl ⟨[], hstart⟩).mono
  · rintro _ s' ⟨text, s₁, -, h₁, ha, -⟩
    obtain ⟨as, hlaw⟩ := h₁
    exact ⟨as, hlaw.same ha⟩
  · exact fun _ _ h => h

/-- A model whose answers are never the JSON that is asked for. -/
def chattyAgent : LoopEnv Unit where
  tools := []
  permissionPolicy := fun _ _ w => (.ok ⟨true, py "ok", false⟩, w)
  idempotencyKey := fun _ _ _ => []
  digest := fun _ => []
  cancelRequested := fun w => (false, w)
  timedOut := fun _ w => (false, w)
  slotsReleased := fun w => (0, w)
  monotonic := fun w => (0, w)
  chat := fun _ _ w => (.ok { content := py "let me see" }, w)
  chatStream := fun _ _ w => (.notImplemented, w)
  classifier := fun _ w => (some .flash, w)
  contextManager := fun w => (.noop, w)
  budgetStop := fun w => (none, w)
  recordUsage := fun _ w => ((), w)
  inbox := fun w => ([], w)
  newRunId := fun w => (py "run", w)
  parseStructured := fun _ => none

/-- A conversation that has not begun. -/
def quietState : AgentState Unit where
  conv := {}
  runtime := {}
  runId := []
  world := ()

/-- A number is wanted, and there are many corrections. -/
def manyRetries : RunArgs where
  userMessage := some (py "how many?")
  outputSchema := some (.obj [(py "type", .str (py "integer"))])
  structuredRetries := some 9

/-- The run starts in FLASH, and goes into its fourth pass in FLASH as well. -/
theorem late_retries_stay_in_flash :
    let as := (stateAfter (run chattyAgent manyRetries) quietState).trace
    StartsInFlash as ∧ ¬ EscalatedInTime as := by
  have hturns : turnsOf (stateAfter (run chattyAgent manyRetries) quietState).trace
      = [⟨0, .flash, 5⟩, ⟨1, .flash, 5⟩, ⟨2, .flash, 5⟩, ⟨3, .flash, 5⟩, ⟨4, .flash, 5⟩] := by
    decide +kernel
  unfold StartsInFlash EscalatedInTime
  dsimp only
  rw [hturns]
  refine ⟨⟨⟨0, .flash, 5⟩, by decide⟩, fun h => ?_⟩
  have hlate := h ⟨3, .flash, 5⟩ (by decide) (by decide)
  exact absurd hlate.1 (by decide)

-- a statement about a run is never settled by evaluating it
attribute [local irreducible] run

/-- The theorem at that agent. -/
theorem chattyAgent_escalates_in_time :
    Wp (run chattyAgent manyRetries) (fun _ s' => ∃ as, Lawful quietState s' as)
      (fun _ s' => ∃ as, Lawful quietState s' as) quietState :=
  run_escalates_in_time chattyAgent manyRetries quietState rfl

end Agent
end KineticSdk
