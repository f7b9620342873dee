/-
  KineticSdk.Agent.Verified

  Whether a run can return an answer its verifier rejected.

  The loop keeps the text of the last final answer while it goes on, also
  after the answer was rejected or sent back for its schema.  An accepted
  answer ends the run at once, so a text that is returned any other way was
  never accepted.  The run therefore returns only accepted answers exactly if
  nothing stops it after the model has put an answer forward.
-/

import KineticSdk.Agent.Rules

namespace KineticSdk
namespace Agent

open Py Tool Security Conversation Replay Context
open Lib (Wp)

variable {σ α : Type}

-- ============================================================================
-- Answers and verdicts in a trace
-- ============================================================================

/-- The verdict the verifier gave last on a text. -/
def lastVerdict (as : List Action) (text : PyStr) : Option Bool :=
  as.reverse.findSome? fun
    | .verdict answer accepted => if answer = text then some accepted else none
    | _ => none

/-- The text, if the model put it forward as an answer, was accepted at last. -/
def AnswerVerified (as : List Action) (text : PyStr) : Prop :=
  .proposed text ∈ as → lastVerdict as text = some true

/-- Nothing stopped the run after the model had put an answer forward, and a
    budget message was not itself put forward. -/
structure NoStopAfterAnswer (as : List Action) : Prop where
  stopped : ∀ reason, .stopped reason ∈ as → ∀ text, .proposed text ∉ as
  budget : ∀ message, .budgetExceeded message ∈ as → .proposed message ∉ as

/-- The action does not end a run: no acceptance and no stop. -/
def Unsettling : Action → Prop
  | .verdict _ accepted => accepted = false
  | .stopped _ => False
  | .budgetExceeded _ => False
  | _ => True

/-- The action has nothing to do with answers. -/
def Neutral : Action → Prop
  | .proposed _ => False
  | .verdict .. => False
  | .stopped _ => False
  | .budgetExceeded _ => False
  | _ => True

theorem Neutral.unsettling {a : Action} (h : Neutral a) : Unsettling a := by
  cases a <;> first | exact h.elim | trivial

theorem lastVerdict_append_verdict (as : List Action) (text : PyStr) (accepted : Bool) :
    lastVerdict (as ++ [.verdict text accepted]) text = some accepted := by
  simp [lastVerdict]

theorem lastVerdict_append_neutral (as bs : List Action) (text : PyStr) (h : ∀ b ∈ bs, Neutral b) :
    lastVerdict (as ++ bs) text = lastVerdict as text := by
  have hnone : bs.reverse.findSome? (fun
      | .verdict answer accepted => if answer = text then some accepted else none
      | _ => none) = (none : Option Bool) := by
    rw [List.findSome?_eq_none_iff]
    intro b hb
    have hb := h b (List.mem_reverse.mp hb)
    cases b <;> first | exact hb.elim | rfl
  rw [lastVerdict, List.reverse_append, List.findSome?_append, hnone, Option.none_or, lastVerdict]

/-- Without an acceptance no verdict accepts. -/
theorem lastVerdict_ne_true {as : List Action} (h : ∀ a ∈ as, Unsettling a) (text : PyStr) :
    lastVerdict as text ≠ some true := by
  intro hv
  obtain ⟨a, ha, hsome⟩ := List.exists_of_findSome?_eq_some hv
  have ha := h a (List.mem_reverse.mp ha)
  cases a with
  | verdict answer accepted =>
      have hfalse : accepted = false := ha
      by_cases heq : answer = text <;> simp [heq, hfalse] at hsome
  | _ => simp at hsome

-- ============================================================================
-- The invariant of the loop
-- ============================================================================

/-- The run goes on: nothing has settled it, and the text it keeps was put
    forward if any was. -/
structure Pending (t₀ : List Action) (v : LoopVars) (s : AgentState σ) (as : List Action) : Prop where
  trace : s.trace = t₀ ++ as
  unsettled : ∀ a ∈ as, Unsettling a
  kept : (∀ text, .proposed text ∉ as) ∨ .proposed v.finalText ∈ as

/-- The run may end here with the text. -/
def Settles (t₀ : List Action) (text : PyStr) (s : AgentState σ) : Prop :=
  ∃ as, s.trace = t₀ ++ as ∧ (AnswerVerified as text ↔ NoStopAfterAnswer as)

variable {t₀ : List Action} {v : LoopVars} {s s' : AgentState σ} {as : List Action}

theorem Pending.grow (h : Pending t₀ v s as) {bs : List Action} (ht : s'.trace = s.trace ++ bs)
    (hb : ∀ b ∈ bs, Neutral b) : Pending t₀ v s' (as ++ bs) := by
  refine ⟨by rw [ht, h.trace, List.append_assoc], ?_, ?_⟩
  · intro a ha
    rcases List.mem_append.mp ha with ha | ha
    · exact h.unsettled a ha
    · exact (hb a ha).unsettling
  · have hnew : ∀ text, .proposed text ∉ bs := fun text hin => hb _ hin
    rcases h.kept with hnone | hkept
    · exact .inl fun text hin => by
        rcases List.mem_append.mp hin with hin | hin
        · exact hnone text hin
        · exact hnew text hin
    · exact .inr (List.mem_append_left _ hkept)

/-- A stop returns the kept text: verified exactly if no answer was put forward. -/
theorem Pending.stopped (h : Pending t₀ v s as) (reason : PyStr)
    (ht : s'.trace = s.trace ++ [.stopped reason]) : Settles t₀ v.finalText s' := by
  refine ⟨as ++ [.stopped reason], by rw [ht, h.trace, List.append_assoc], ?_⟩
  have hverdict : lastVerdict (as ++ [.stopped reason]) v.finalText = lastVerdict as v.finalText := by
    simp [lastVerdict]
  rcases h.kept with hnone | hkept
  · refine iff_of_true (fun hin => ?_) ⟨fun r _ text hin => ?_, fun m hin => ?_⟩
    · exact absurd (by simpa using hin) (hnone v.finalText)
    · exact absurd (by simpa using hin) (hnone text)
    · exact absurd (h.unsettled _ (by simpa using hin)) id
  · refine iff_of_false (fun hok => ?_) (fun hok => ?_)
    · have haccepted := hok (List.mem_append_left _ hkept)
      rw [hverdict] at haccepted
      exact lastVerdict_ne_true h.unsettled _ haccepted
    · exact hok.stopped reason (by simp) v.finalText (List.mem_append_left _ hkept)

/-- A budget message is verified exactly if the model did not put it forward. -/
theorem Pending.outOfBudget (h : Pending t₀ v s as) (message : PyStr)
    (ht : s'.trace = s.trace ++ [.budgetExceeded message]) : Settles t₀ message s' := by
  refine ⟨as ++ [.budgetExceeded message], by rw [ht, h.trace, List.append_assoc], ?_⟩
  have hverdict : lastVerdict (as ++ [.budgetExceeded message]) message = lastVerdict as message := by
    simp [lastVerdict]
  constructor
  · intro hok
    refine ⟨fun r hin => ?_, fun m hin hprop => ?_⟩
    · exact absurd (h.unsettled _ (by simpa using hin)) id
    · rcases List.mem_append.mp hin with hin | hin
      · exact h.unsettled _ hin
      · obtain rfl : m = message := by simpa using hin
        have haccepted := hok hprop
        rw [hverdict] at haccepted
        exact lastVerdict_ne_true h.unsettled _ haccepted
  · intro hok hprop
    exact absurd hprop (hok.budget message (by simp))

/-- An accepted answer ends the run verified. -/
theorem Pending.accepted (h : Pending t₀ v s as) (text : PyStr) (bs : List Action)
    (hb : ∀ b ∈ bs, Neutral b) (ht : s'.trace = s.trace ++ .verdict text true :: bs) :
    Settles t₀ text s' := by
  refine ⟨as ++ .verdict text true :: bs, by rw [ht, h.trace, List.append_assoc], ?_⟩
  have hsplit : as ++ .verdict text true :: bs = (as ++ [.verdict text true]) ++ bs := by simp
  have hnostop : ∀ a ∈ as ++ .verdict text true :: bs, (∀ r, a ≠ .stopped r) ∧
      ∀ m, a ≠ .budgetExceeded m := by
    intro a ha
    rcases List.mem_append.mp ha with ha | ha
    · have hun := h.unsettled a ha
      constructor <;> (rintro _ rfl; exact hun)
    · rcases List.mem_cons.mp ha with rfl | ha
      · simp
      · have hneutral := hb a ha
        constructor <;> (rintro _ rfl; exact hneutral)
  refine iff_of_true (fun _ => ?_) ⟨fun r hin => ?_, fun m hin => ?_⟩
  · rw [hsplit, lastVerdict_append_neutral _ _ _ hb, lastVerdict_append_verdict]
  · exact absurd rfl ((hnostop _ hin).1 r)
  · exact absurd rfl ((hnostop _ hin).2 m)

-- ============================================================================
-- The loop
-- ============================================================================

/-- The run goes on. -/
def Goes (t₀ : List Action) (v : LoopVars) (s : AgentState σ) : Prop := ∃ as, Pending t₀ v s as

theorem Goes.grow (h : Goes t₀ v s) (bs : List Action) (ht : s'.trace = s.trace ++ bs)
    (hb : ∀ b ∈ bs, Neutral b) : Goes t₀ v s' := by
  obtain ⟨as, has⟩ := h
  exact ⟨as ++ bs, has.grow ht hb⟩

theorem Goes.note (h : Goes t₀ v s) {a : Action} (ha : Neutral a)
    (ht : s'.trace = s.trace ++ [a]) : Goes t₀ v s' :=
  h.grow [a] ht (by simpa using ha)

theorem Goes.same (h : Goes t₀ v s) (ht : s'.trace = s.trace) : Goes t₀ v s' :=
  h.grow [] (by rw [ht, List.append_nil]) (by simp)

/-- Only the text the run keeps matters of its variables. -/
theorem Goes.vars (h : Goes t₀ v s) (v' : LoopVars) (hv : v'.finalText = v.finalText) :
    Goes t₀ v' s := by
  obtain ⟨as, has⟩ := h
  exact ⟨as, has.trace, has.unsettled, by rw [hv]; exact has.kept⟩

theorem Goes.stopped (h : Goes t₀ v s) (reason : PyStr)
    (ht : s'.trace = s.trace ++ [.stopped reason]) : Settles t₀ v.finalText s' := by
  obtain ⟨as, has⟩ := h
  exact has.stopped reason ht

theorem Goes.afterEscalation (h : Goes t₀ v s) (byError : Bool) (vars : LoopVars) :
    Goes t₀ v (afterEscalation byError vars s) := by
  unfold Agent.afterEscalation
  split
  · exact h.note (a := .escalated) trivial rfl
  · exact h

/-- A rejection settles nothing. -/
theorem Goes.rejected (h : Goes t₀ v s) (text : PyStr)
    (ht : s'.trace = s.trace ++ [.verdict text false]) : Goes t₀ v s' := by
  obtain ⟨as, has⟩ := h
  refine ⟨as ++ [.verdict text false], ?_, ?_, ?_⟩
  · rw [ht, has.trace, List.append_assoc]
  · intro a ha
    rcases List.mem_append.mp ha with ha | ha
    · exact has.unsettled a ha
    · obtain rfl := List.mem_singleton.mp ha
      rfl
  · rcases has.kept with hnone | hkept
    · exact .inl (by simpa using hnone)
    · exact .inr (List.mem_append_left _ hkept)

/-- Putting an answer forward makes it the text the run keeps. -/
theorem Goes.proposed (h : Goes t₀ v s) (text : PyStr) (v' : LoopVars) (hv : v'.finalText = text)
    (ht : s'.trace = s.trace ++ [.proposed text]) : Goes t₀ v' s' := by
  obtain ⟨as, has⟩ := h
  refine ⟨as ++ [.proposed text], ?_, ?_, .inr (by simp [hv])⟩
  · rw [ht, has.trace, List.append_assoc]
  · intro a ha
    rcases List.mem_append.mp ha with ha | ha
    · exact has.unsettled a ha
    · obtain rfl := List.mem_singleton.mp ha
      trivial

theorem neutral_of_acts {env : Env σ} {calls : List ToolCall} {as : List Action}
    (h : Acts env calls as) : ∀ a ∈ as, Neutral a := by
  intro a ha
  have hnote := callNote_of_acts h a ha
  cases a <;> first | exact hnote.elim | trivial

/-- The loop goes on until it settles. -/
theorem loopRule_goes {env : LoopEnv σ} (hverify : env.answerVerifier ≠ none)
    (evidence : Bool) (schema : Option Json) (t₀ : List Action) :
    LoopRule env (fun _ _ => True) (fun _ _ => True) evidence schema (Goes t₀) (Goes t₀)
      (Goes t₀) (Goes t₀) (Settles t₀) (fun _ => True) where
  quietHead := fun _ _ _ h ha _ => h.grow [] ha.trace (by simp)
  quiet := fun _ _ _ h ha _ => h.grow [] ha.trace (by simp)
  quietAnswer := fun _ _ _ h ha _ => h.grow [] ha.trace (by simp)
  left := fun _ _ _ => trivial
  exhausted := fun _ _ h _ => h.stopped _ rfl
  unverified := fun _ _ _ _ => trivial
  cancelled := fun _ _ h => h.stopped _ rfl
  started := fun v s h _ => h.grow [.accepted (env.accepted s.world),
    .turnStarted v.iteration s.runtime.mode s.runtime.maxIterations] (by simp [noted])
    (by simp [Neutral])
  compact := fun _ _ manager limit h _ => h.grow _ rfl fun a ha => by
    obtain ⟨found, -, rfl⟩ := List.mem_map.mp ha
    trivial
  stop := fun _ _ _ h => h.stopped _ rfl
  outOfBudget := by
    rintro v s message ⟨as, has⟩
    exact has.outOfBudget message rfl
  asked := fun _ s h => h.note (a := .llmCall s.conv.messages) trivial rfl
  answer := fun _ _ response h _ _ => h.proposed response.content _ rfl rfl
  retry := fun _ _ _ h _ _ => (h.note (a := .structuredRetry) trivial rfl).vars _ rfl
  unasked := fun _ _ _ hnone => absurd hnone hverify
  accepted := by
    rintro v s ⟨as, has⟩ -
    refine has.accepted v.finalText [.persisted s.conv] (by simp [Neutral]) ?_
    show s.trace ++ [.verdict v.finalText true] ++ [.persisted s.conv] = _
    rw [List.append_assoc]
    rfl
  rejected := fun _ _ _ _ => trivial
  corrected := fun v _ _ _ h _ => ((h.rejected v.finalText rfl).afterEscalation true v).vars _ rfl
  tools := fun _ _ _ _ _ as h _ _ _ hp _ => h.grow as hp.trace (neutral_of_acts hp.acts)
  broken := fun _ _ _ _ _ _ _ _ _ _ _ _ => trivial
  stuck := by
    intro v s reason h
    have hpersisted : Goes t₀ v (noted (.persisted s.conv) s) :=
      h.note (a := .persisted s.conv) trivial rfl
    exact hpersisted.stopped reason rfl
  drain := by
    intro v s h
    have hpersisted : Goes t₀ v (noted (.persisted s.conv) s) :=
      h.note (a := .persisted s.conv) trivial rfl
    refine hpersisted.grow _ rfl ?_
    intro a ha
    rcases List.mem_append.mp ha with ha | ha
    · obtain ⟨text, -, rfl⟩ := List.mem_map.mp ha
      trivial
    · obtain rfl := List.mem_singleton.mp ha
      trivial
  next := fun v _ byError h => (h.afterEscalation byError v).vars _ rfl

-- ============================================================================
-- The whole run
-- ============================================================================

theorem runRule_goes {env : LoopEnv σ} (hverify : env.answerVerifier ≠ none) (args : RunArgs)
    (resuming : Bool) (t₀ : List Action) :
    RunRule env (fun _ _ => True) (fun _ _ => True) args resuming (Goes t₀ (startVars env args))
      (Goes t₀ (startVars env args)) (Goes t₀ (startVars env args)) (Goes t₀) (Goes t₀) (Goes t₀)
      (Goes t₀) (Settles t₀) (fun _ => True) where
  quiet := fun _ _ h ha _ => h.grow [] ha.trace (by simp)
  left := fun _ _ => trivial
  failed := fun _ _ _ _ _ => trivial
  user := fun _ _ h => h.same rfl
  fresh := fun _ _ h => h.same rfl
  quietFresh := fun _ _ h ha _ => h.grow [] ha.trace (by simp)
  routed := fun s answer h =>
    h.note (a := .classified answer s.runtime.stickyMax) trivial rfl
  resumed := fun _ _ h => h
  quietReady := fun _ _ h ha _ => h.grow [] ha.trace (by simp)
  plan := fun _ _ h => h.same rfl
  enter := fun _ h => h
  loop := loopRule_goes hverify _ _ t₀

/-- With an answer verifier set, a run that returns gives back a text that was
    accepted at last if the model put it forward, exactly if nothing stopped
    the run after an answer was put forward. -/
theorem run_answer_verified_iff {env : LoopEnv σ}
    {verify : PyStr → PyStr → Option PyStr → Act σ VerifierOutcome}
    (hverify : env.answerVerifier = some verify) (args : RunArgs) (s : AgentState σ) :
    Wp (run env args)
      (fun final s' => ∃ text, final = some text ∧ ∃ as, s'.trace = s.trace ++ as ∧
        (AnswerVerified as text ↔ NoStopAfterAnswer as))
      (fun _ _ => True) s := by
  have hsome : env.answerVerifier ≠ none := by simp [hverify]
  have hstart : Goes s.trace (startVars env args) { s with structuredOutput := .null } :=
    ⟨[], by simp, by simp, .inl (by simp)⟩
  apply ((runRule_goes hsome args _ s.trace).run env.moves_anywhere (responds_anything env) rfl
    hstart).mono
  · rintro _ s' ⟨text, s₁, rfl, ⟨as, htrace, hiff⟩, ha, -⟩
    refine ⟨text, rfl, as, ?_, hiff⟩
    rw [ha.trace, List.append_nil]
    exact htrace
  · exact fun _ _ h => h

/-- A model that always answers "bad", a verifier that rejects, and a user who
    cancels once the verifier has been asked. -/
def rejectingAgent : LoopEnv Bool where
  tools := []
  permissionPolicy := fun _ _ w => (.ok ⟨true, py "ok", false⟩, w)
  idempotencyKey := fun _ _ _ => []
  digest := fun _ => []
  cancelRequested := fun asked => (asked, asked)
  timedOut := fun _ w => (false, w)
  slotsReleased := fun w => (0, w)
  monotonic := fun w => (0, w)
  chat := fun _ _ w => (.ok { content := py "bad" }, w)
  chatStream := fun _ _ w => (.notImplemented, w)
  classifier := fun _ w => (some .flash, w)
  contextManager := fun w => (.noop, w)
  answerVerifier := some fun _ _ _ _ => (.verdict false (py "wrong"), true)
  budgetStop := fun w => (none, w)
  recordUsage := fun _ w => ((), w)
  inbox := fun w => ([], w)
  newRunId := fun w => (py "run", w)
  parseStructured := fun _ => none

/-- A conversation that has not begun. -/
def idleState : AgentState Bool where
  conv := {}
  runtime := {}
  runId := []
  world := false

/-- What a computation returns, and the actions of its trace. -/
def returns (x : M σ α) (s : AgentState σ) : Option (α × List Action) :=
  match x s with
  | .ok a s' => some (a, s'.trace)
  | .error .. => none

/-- The user cancels after the rejection, and the rejected answer is returned. -/
theorem rejected_answer_returned :
    ∃ as, returns (run rejectingAgent { userMessage := some (py "go") }) idleState
        = some (some (py "bad"), as) ∧
      .proposed (py "bad") ∈ as ∧ lastVerdict as (py "bad") = some false := by
  refine ⟨[.classified (some .flash) false, .accepted [], .turnStarted 0 .flash 5,
    .llmCall [userMessage (py "go")], .proposed (py "bad"), .verdict (py "bad") false,
    .escalated, .stopped (py "cancelled")], ?_, ?_, ?_⟩ <;> decide +kernel

-- a statement about a run is never settled by evaluating it
attribute [local irreducible] run

/-- The theorem at that agent. -/
theorem rejectingAgent_verified_iff :
    Wp (run rejectingAgent { userMessage := some (py "go") })
      (fun final s' => ∃ text, final = some text ∧ ∃ as, s'.trace = idleState.trace ++ as ∧
        (AnswerVerified as text ↔ NoStopAfterAnswer as))
      (fun _ _ => True) idleState :=
  run_answer_verified_iff rfl { userMessage := some (py "go") } idleState

end Agent
end KineticSdk
