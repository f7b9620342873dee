/-
  KineticSdk.Agent.Budget

  The run budget, and several agents that share one.

  An agent's loop checks the budget, calls the model and records the answer.
  The budget is locked during the check and during the recording, not in
  between: a call in flight is one that the counter does not know of yet.

  `completed_le` bounds the completed calls by the cap in every run in which no
  check passes while the recorded calls and the calls in flight fill the cap.
  `exists_overrun` shows that any other check can end beyond the cap.
-/

import KineticSdk.Py.Repr
import KineticSdk.Lib.Steps

namespace KineticSdk
namespace Agent

open Py
open Lib (Steps.Meets)

-- ============================================================================
-- The budget
-- ============================================================================

/-- `RunBudget`: the optional limits and what has been used so far. -/
structure RunBudget where
  maxCalls : Option Int
  maxTokens : Option Int
  usedCalls : Nat
  usedTokens : Int
deriving DecidableEq

namespace RunBudget

/-- The constructor's test of one limit. -/
def checkLimit (name : PyStr) : Option Int → Except PyStr Unit
  | none => .ok ()
  | some n =>
      if n < 1 then
        .error (name ++ py " must be a positive int or None, got " ++ intText n)
      else .ok ()

/-- `RunBudget(max_llm_calls, max_total_tokens)`; the errors are `ValueError` texts. -/
def new (maxCalls maxTokens : Option Int) : Except PyStr RunBudget := do
  checkLimit (py "max_llm_calls") maxCalls
  checkLimit (py "max_total_tokens") maxTokens
  return ⟨maxCalls, maxTokens, 0, 0⟩

/-- The token half of `check`. -/
def checkTokens (b : RunBudget) : Except PyStr Unit :=
  match b.maxTokens with
  | some m =>
      if m ≤ b.usedTokens then
        .error (py "token budget exhausted: " ++ intText b.usedTokens ++ py "/" ++ intText m
          ++ py " tokens used (input + output)")
      else .ok ()
  | none => .ok ()

/-- `check`: the text of `RunBudgetExceeded`, the call limit first. -/
def check (b : RunBudget) : Except PyStr Unit :=
  match b.maxCalls with
  | some m =>
      if m ≤ b.usedCalls then
        .error (py "LLM call budget exhausted: " ++ intText b.usedCalls ++ py "/" ++ intText m
          ++ py " calls used")
      else b.checkTokens
  | none => b.checkTokens

/-- `v if isinstance(v, int) else 0`, for a key that may be missing. -/
def intOr0 : Option Json → Int
  | some (.int n) => n
  | some (.bool true) => 1
  | _ => 0

/-- `record`: every completed call counts, and the tokens if they are reported. -/
def record (b : RunBudget) (usage : Option Dict) : RunBudget :=
  let inp := usage.bind fun u => Dict.get? u (py "input_tokens")
  let out := usage.bind fun u => Dict.get? u (py "output_tokens")
  { b with usedCalls := b.usedCalls + 1, usedTokens := b.usedTokens + intOr0 inp + intOr0 out }

@[simp] theorem record_maxCalls (b : RunBudget) (usage : Option Dict) :
    (b.record usage).maxCalls = b.maxCalls := rfl

@[simp] theorem record_usedCalls (b : RunBudget) (usage : Option Dict) :
    (b.record usage).usedCalls = b.usedCalls + 1 := rfl

/-- A budget that could be built has a positive cap and has used nothing. -/
theorem of_new {maxCalls maxTokens : Option Int} {b : RunBudget}
    (h : new maxCalls maxTokens = .ok b) :
    b = ⟨maxCalls, maxTokens, 0, 0⟩ ∧ ∀ m ∈ maxCalls, 1 ≤ m := by
  simp only [new, bind, Except.bind, pure, Except.pure] at h
  cases hcalls : checkLimit (py "max_llm_calls") maxCalls with
  | error e => simp [hcalls] at h
  | ok u =>
      cases htokens : checkLimit (py "max_total_tokens") maxTokens with
      | error e => simp [hcalls, htokens] at h
      | ok v =>
          simp only [hcalls, htokens, Except.ok.injEq] at h
          refine ⟨h.symm, ?_⟩
          intro m hm
          obtain rfl : maxCalls = some m := hm
          simp only [checkLimit] at hcalls
          by_contra hlow
          rw [if_pos (by omega)] at hcalls
          cases hcalls

/-- A check that passes leaves room under the call limit. -/
theorem lt_of_check {b : RunBudget} {m : Int} (hm : b.maxCalls = some m) (h : b.check = .ok ()) :
    b.usedCalls < m := by
  simp only [check, hm] at h
  by_contra hfull
  rw [if_pos (by omega)] at h
  cases h

end RunBudget

/-- `Agent._budget_stop_message`: the final text when the budget is exhausted. -/
def budgetStopMessage (b : RunBudget) : Option PyStr :=
  match b.check with
  | .ok () => none
  | .error exc => some (py "Run stopped: budget exceeded (" ++ exc ++ py ").")

theorem check_of_not_stopped {b : RunBudget} (h : budgetStopMessage b = none) :
    b.check = .ok () := by
  cases hcheck : b.check with
  | ok u => rfl
  | error exc => simp [budgetStopMessage, hcheck] at h

-- ============================================================================
-- Agents that share a budget
-- ============================================================================

namespace Budget

/-- Where an agent's loop stands: in front of the budget check, waiting for the
    model, or holding an answer whose usage is not recorded yet. -/
inductive Phase where
  | idle
  | asking
  | answered (usage : Option Dict)
deriving DecidableEq

namespace Phase

/-- The model is working on a call of this agent. -/
def isAsking : Phase → Bool
  | .asking => true
  | _ => false

/-- The agent's call is complete and not recorded. -/
def isAnswered : Phase → Bool
  | .answered _ => true
  | _ => false

end Phase

/-- The agents, the budget they share, and how many calls were completed. -/
structure System where
  agents : List Phase
  budget : RunBudget
  completed : Nat
deriving DecidableEq

/-- One loop step of agent `i`. -/
inductive Event where
  | check (i : Nat)
  | answer (i : Nat) (usage : Option Dict)
  | fail (i : Nat)
  | record (i : Nat)

namespace System

/-- The agents in front of their first check. -/
def start (n : Nat) (b : RunBudget) : System := ⟨List.replicate n .idle, b, 0⟩

/-- The calls the model is working on. -/
def asking (s : System) : Nat := s.agents.countP Phase.isAsking

/-- The completed calls that are not recorded. -/
def unrecorded (s : System) : Nat := s.agents.countP Phase.isAnswered

/-- The calls that were let through and are not recorded. -/
def inFlight (s : System) : Nat := s.asking + s.unrecorded

/-- The state after one step; a step the agent is not ready for does nothing. -/
def step (s : System) : Event → System
  | .check i =>
      match s.agents[i]? with
      | some .idle =>
          match budgetStopMessage s.budget with
          | none => { s with agents := s.agents.set i .asking }
          | some _ => s -- the run ends with the message
      | _ => s
  | .answer i usage =>
      match s.agents[i]? with
      | some .asking =>
          { s with agents := s.agents.set i (.answered usage), completed := s.completed + 1 }
      | _ => s
  | .fail i =>
      match s.agents[i]? with
      | some .asking => { s with agents := s.agents.set i .idle }
      | _ => s
  | .record i =>
      match s.agents[i]? with
      | some (.answered usage) =>
          { s with agents := s.agents.set i .idle, budget := s.budget.record usage }
      | _ => s

/-- The state after the steps, in any interleaving of the agents. -/
def run (s : System) (es : List Event) : System := Lib.Steps.run step s es

/-- What one step can do: nothing, or move one agent to its next phase. -/
theorem step_cases (s : System) (e : Event) :
    s.step e = s ∨
    (∃ i, e = .check i ∧ s.agents[i]? = some .idle ∧ budgetStopMessage s.budget = none ∧
      s.step e = { s with agents := s.agents.set i .asking }) ∨
    (∃ i usage, e = .answer i usage ∧ s.agents[i]? = some .asking ∧
      s.step e =
        { s with agents := s.agents.set i (.answered usage), completed := s.completed + 1 }) ∨
    (∃ i, e = .fail i ∧ s.agents[i]? = some .asking ∧
      s.step e = { s with agents := s.agents.set i .idle }) ∨
    (∃ i usage, e = .record i ∧ s.agents[i]? = some (.answered usage) ∧
      s.step e = { s with agents := s.agents.set i .idle, budget := s.budget.record usage }) := by
  cases e with
  | check i =>
      simp only [step]
      split
      · rename_i hidle
        split
        · rename_i hopen
          exact .inr (.inl ⟨i, rfl, hidle, hopen, rfl⟩)
        · exact .inl rfl
      · exact .inl rfl
  | answer i usage =>
      simp only [step]
      split
      · rename_i hasking
        exact .inr (.inr (.inl ⟨i, usage, rfl, hasking, rfl⟩))
      · exact .inl rfl
  | fail i =>
      simp only [step]
      split
      · rename_i hasking
        exact .inr (.inr (.inr (.inl ⟨i, rfl, hasking, rfl⟩)))
      · exact .inl rfl
  | record i =>
      simp only [step]
      split
      · rename_i usage hanswered
        exact .inr (.inr (.inr (.inr ⟨i, usage, rfl, hanswered, rfl⟩)))
      · exact .inl rfl

end System

-- ============================================================================
-- Counting the calls
-- ============================================================================

/-- Moving one agent moves it between the counts. -/
theorem countP_move (q : Phase → Bool) {agents : List Phase} {i : Nat} {old : Phase}
    (hi : agents[i]? = some old) (new : Phase) :
    (agents.set i new).countP q + (q old).toNat = agents.countP q + (q new).toNat := by
  obtain ⟨hlt, hget⟩ := List.getElem?_eq_some_iff.mp hi
  have hset := List.countP_set (p := q) (a := new) hlt
  rw [hget] at hset
  cases hold : q old with
  | false => cases hnew : q new <;> simp [hset, hold, hnew]
  | true =>
      have hpos : 0 < agents.countP q :=
        List.countP_pos_iff.mpr ⟨old, List.mem_of_getElem? hi, hold⟩
      cases hnew : q new <;> simp [hset, hold, hnew] <;> omega

section

variable {s : System} {e : Event} {es : List Event} {m : Int}

/-- A check that passes finds room for its call beside the recorded calls and
    the calls in flight. -/
def Unraced (s : System) : Event → Prop
  | .check i =>
      s.agents[i]? = some .idle → budgetStopMessage s.budget = none →
        ∀ m ∈ s.budget.maxCalls, (s.budget.usedCalls + s.inFlight : Int) < m
  | _ => True

instance : (s : System) → (e : Event) → Decidable (Unraced s e)
  | s, .check i => inferInstanceAs (Decidable (s.agents[i]? = some .idle →
      budgetStopMessage s.budget = none →
        ∀ m ∈ s.budget.maxCalls, (s.budget.usedCalls + s.inFlight : Int) < m))
  | _, .answer _ _ => isTrue trivial
  | _, .fail _ => isTrue trivial
  | _, .record _ => isTrue trivial

/-- No check of the run is passed in a race for the last calls. -/
def NoRace (s : System) (es : List Event) : Prop := Steps.Meets System.step Unraced s es

instance (s : System) (es : List Event) : Decidable (NoRace s es) :=
  inferInstanceAs (Decidable (Steps.Meets System.step Unraced s es))

/-- Every completed call is recorded or about to be. -/
def Counted (s : System) : Prop := s.completed = s.budget.usedCalls + s.unrecorded

/-- The calls let through fit under the cap. -/
def Capped (m : Int) (s : System) : Prop :=
  s.budget.maxCalls = some m ∧ (s.budget.usedCalls + s.inFlight : Int) ≤ m

/-- How a step that moves one agent changes the two counts. -/
theorem System.counts_move {i : Nat} {old : Phase} (hi : s.agents[i]? = some old) (new : Phase)
    {s' : System} (hs : s'.agents = s.agents.set i new) :
    s'.asking + old.isAsking.toNat = s.asking + new.isAsking.toNat ∧
      s'.unrecorded + old.isAnswered.toNat = s.unrecorded + new.isAnswered.toNat := by
  simp only [System.asking, System.unrecorded, hs]
  exact ⟨countP_move _ hi new, countP_move _ hi new⟩

theorem counted_step (h : Counted s) (e : Event) : Counted (s.step e) := by
  simp only [Counted] at h ⊢
  obtain hs | ⟨i, -, hi, -, hs⟩ | ⟨i, usage, -, hi, hs⟩ | ⟨i, -, hi, hs⟩ | ⟨i, usage, -, hi, hs⟩ :=
    s.step_cases e
  · rwa [hs]
  · obtain ⟨-, hmove⟩ := System.counts_move hi .asking (congrArg System.agents hs)
    simp only [Phase.isAnswered, Bool.toNat_false] at hmove
    simp only [hs] at hmove ⊢
    omega
  · obtain ⟨-, hmove⟩ := System.counts_move hi (.answered usage) (congrArg System.agents hs)
    simp only [Phase.isAnswered, Bool.toNat_false, Bool.toNat_true] at hmove
    simp only [hs] at hmove ⊢
    omega
  · obtain ⟨-, hmove⟩ := System.counts_move hi .idle (congrArg System.agents hs)
    simp only [Phase.isAnswered, Bool.toNat_false] at hmove
    simp only [hs] at hmove ⊢
    omega
  · obtain ⟨-, hmove⟩ := System.counts_move hi .idle (congrArg System.agents hs)
    simp only [Phase.isAnswered, Bool.toNat_false, Bool.toNat_true] at hmove
    simp only [hs, RunBudget.record_usedCalls] at hmove ⊢
    omega

theorem counted_run (h : Counted s) (es : List Event) : Counted (s.run es) :=
  Lib.Steps.run_keeps (I := Counted) (fun _ e hs => counted_step hs e) h es

/-- A step that does not race keeps the calls let through under the cap. -/
theorem capped_step (h : Capped m s) (hfree : Unraced s e) : Capped m (s.step e) := by
  obtain ⟨hm, hroom⟩ := h
  simp only [System.inFlight] at hroom
  simp only [Capped, System.inFlight]
  obtain hs | ⟨i, rfl, hi, hopen, hs⟩ | ⟨i, usage, -, hi, hs⟩ | ⟨i, -, hi, hs⟩ |
    ⟨i, usage, -, hi, hs⟩ := s.step_cases e
  · rw [hs]
    exact ⟨hm, hroom⟩
  · have hlt := hfree hi hopen m hm
    obtain ⟨hasking, hmove⟩ := System.counts_move hi .asking (congrArg System.agents hs)
    simp only [Phase.isAsking, Phase.isAnswered, Bool.toNat_false, Bool.toNat_true] at hasking hmove
    simp only [hs, System.inFlight] at hasking hmove hlt ⊢
    exact ⟨hm, by omega⟩
  · obtain ⟨hasking, hmove⟩ :=
      System.counts_move hi (.answered usage) (congrArg System.agents hs)
    simp only [Phase.isAsking, Phase.isAnswered, Bool.toNat_false, Bool.toNat_true] at hasking hmove
    simp only [hs] at hasking hmove ⊢
    exact ⟨hm, by omega⟩
  · obtain ⟨hasking, hmove⟩ := System.counts_move hi .idle (congrArg System.agents hs)
    simp only [Phase.isAsking, Phase.isAnswered, Bool.toNat_false, Bool.toNat_true] at hasking hmove
    simp only [hs] at hasking hmove ⊢
    exact ⟨hm, by omega⟩
  · obtain ⟨hasking, hmove⟩ := System.counts_move hi .idle (congrArg System.agents hs)
    simp only [Phase.isAsking, Phase.isAnswered, Bool.toNat_false, Bool.toNat_true] at hasking hmove
    simp only [hs, RunBudget.record_usedCalls, RunBudget.record_maxCalls] at hasking hmove ⊢
    exact ⟨hm, by omega⟩

theorem capped_run (h : Capped m s) (hfree : NoRace s es) : Capped m (s.run es) :=
  hfree.keeps (fun _ _ hs hmeets => capped_step hs hmeets) h

theorem counted_start (n : Nat) {b : RunBudget} (hb : b.usedCalls = 0) :
    Counted (System.start n b) := by
  simp [Counted, System.start, System.unrecorded, hb, List.countP_replicate, Phase.isAnswered]

theorem capped_start (n : Nat) {b : RunBudget} (hb : b.usedCalls = 0) (hm : b.maxCalls = some m)
    (hpos : 1 ≤ m) : Capped m (System.start n b) := by
  refine ⟨hm, ?_⟩
  simp only [System.start, System.inFlight, System.asking, System.unrecorded, hb,
    List.countP_replicate, Phase.isAsking, Phase.isAnswered]
  simp
  omega

-- ============================================================================
-- The cap
-- ============================================================================

/-- Agents that share a budget complete no more calls than its cap, if no check
    is passed in a race for the last calls. -/
theorem completed_le {t : Option Int} {b : RunBudget} (hb : RunBudget.new (some m) t = .ok b)
    (n : Nat) (hfree : NoRace (System.start n b) es) :
    ((System.start n b).run es).completed ≤ m := by
  obtain ⟨rfl, hpos⟩ := RunBudget.of_new hb
  have hstart : Counted (System.start n ⟨some m, t, 0, 0⟩) := counted_start n rfl
  have hcounted := counted_run hstart es
  have hcapped := (capped_run (capped_start n rfl rfl (hpos m rfl)) hfree).2
  simp only [Counted, System.inFlight] at hcounted hcapped
  omega

/-- Two agents under a cap of two, one after the other. -/
theorem completed_le_in_turn :
    ((System.start 2 ⟨some 2, none, 0, 0⟩).run
      [.check 0, .answer 0 none, .record 0, .check 1, .fail 1, .check 0]).completed
        ≤ (2 : Int) :=
  completed_le (t := none) (by rfl) 2 (by decide)

/-- Two agents that both pass the check before either records its call complete
    two calls under a cap of one. -/
theorem cap_of_one_overrun :
    RunBudget.new (some 1) none = .ok ⟨some 1, none, 0, 0⟩ ∧
      ¬ ((System.start 2 ⟨some 1, none, 0, 0⟩).run
        [.check 0, .check 1, .answer 0 none, .answer 1 none]).completed ≤ (1 : Int) := by
  decide

-- ============================================================================
-- What the condition leaves out
-- ============================================================================

/-- A check made while no call is in flight does not race. -/
theorem unraced_of_quiet (h : s.inFlight = 0) (e : Event) : Unraced s e := by
  cases e with
  | check i =>
      intro _ hopen m hm
      have hlt := RunBudget.lt_of_check hm (check_of_not_stopped hopen)
      rw [h]
      omega
  | _ => exact trivial

/-- An agent that is in front of its check has no call in flight. -/
theorem inFlight_of_alone (h : s.agents = [.idle]) : s.inFlight = 0 := by
  simp [System.inFlight, System.asking, System.unrecorded, h, Phase.isAsking, Phase.isAnswered]

/-- A budget that is not shared is never raced for. -/
theorem noRace_of_alone (h : s.agents.length = 1) (es : List Event) : NoRace s es := by
  unfold NoRace
  induction es generalizing s with
  | nil => exact trivial
  | cons e es ih =>
      obtain ⟨phase, hphase⟩ := List.length_eq_one_iff.mp h
      have hlen : (s.step e).agents.length = 1 := by
        obtain hs | ⟨i, -, -, -, hs⟩ | ⟨i, usage, -, -, hs⟩ | ⟨i, -, -, hs⟩ | ⟨i, usage, -, -, hs⟩ :=
          s.step_cases e <;> simp [hs, h]
      refine ⟨?_, ih hlen⟩
      cases e with
      | check i =>
          intro hidle
          have halone : s.agents = [.idle] := by
            rw [hphase] at hidle ⊢
            cases i with
            | zero => simpa using hidle
            | succ i => simp at hidle
          exact unraced_of_quiet (inFlight_of_alone halone) (.check i) (by simpa [halone] using hidle)
      | _ => exact trivial

/-- The calls in flight can all be answered. -/
theorem exists_answers (s : System) : ∃ more, (s.run more).completed = s.completed + s.asking := by
  induction hk : s.asking generalizing s with
  | zero => exact ⟨[], rfl⟩
  | succ k ih =>
      obtain ⟨phase, hmem, hphase⟩ :=
        List.countP_pos_iff.mp (show 0 < s.agents.countP Phase.isAsking by
          simp only [System.asking] at hk
          omega)
      obtain ⟨i, hi⟩ := List.getElem?_of_mem hmem
      cases phase with
      | asking =>
          have hs : s.step (.answer i none) = { s with
              agents := s.agents.set i (.answered none), completed := s.completed + 1 } := by
            simp [System.step, hi]
          obtain ⟨hmove, -⟩ := System.counts_move hi (.answered none) (congrArg System.agents hs)
          simp only [Phase.isAsking, Bool.toNat_true, Bool.toNat_false] at hmove
          obtain ⟨more, hmore⟩ := ih (s.step (.answer i none)) (by omega)
          refine ⟨.answer i none :: more, ?_⟩
          show ((s.step (.answer i none)).run more).completed = _
          rw [hmore, hs]
          simp only
          omega
      | idle => cases hphase
      | answered usage => cases hphase

/-- What a race is. -/
theorem of_raced (hrace : ¬ Unraced s e) (hm : s.budget.maxCalls = some m) :
    ∃ i, e = .check i ∧ s.agents[i]? = some .idle ∧ budgetStopMessage s.budget = none ∧
      m ≤ s.budget.usedCalls + s.inFlight := by
  cases e with
  | check i =>
      simp only [Unraced, hm, Option.mem_some_iff, forall_eq', not_forall] at hrace
      obtain ⟨hi, hopen, hfull⟩ := hrace
      exact ⟨i, rfl, hi, hopen, by omega⟩
  | _ => exact absurd trivial hrace

/-- A race can end beyond the cap: once a check is passed with the cap already
    filled by recorded calls and calls in flight, answering what is in flight
    completes more calls than the cap. -/
theorem exists_overrun (hcounted : Counted s) (hm : s.budget.maxCalls = some m)
    (hrace : ¬ Unraced s e) : ∃ more, m < (s.run (e :: more)).completed := by
  obtain ⟨i, rfl, hi, hopen, hfull⟩ := of_raced hrace hm
  have hs : s.step (.check i) = { s with agents := s.agents.set i .asking } := by
    simp [System.step, hi, hopen]
  obtain ⟨more, hmore⟩ := exists_answers (s.step (.check i))
  refine ⟨more, ?_⟩
  have hkept := counted_step hcounted (.check i)
  obtain ⟨hasking, hmove⟩ := System.counts_move hi .asking (congrArg System.agents hs)
  simp only [Phase.isAsking, Phase.isAnswered, Bool.toNat_false, Bool.toNat_true] at hasking hmove
  have hthrough : (s.step (.check i)).completed = s.completed := by rw [hs]
  simp only [Counted, System.inFlight] at hcounted hkept hfull
  show m < ((s.step (.check i)).run more).completed
  rw [hmore]
  omega

end

end Budget
end Agent
end KineticSdk
