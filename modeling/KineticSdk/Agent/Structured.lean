/-
  KineticSdk.Agent.Structured

  What `structured_output` says about the answer of a run.

  `_check_structured` stores a value each time an answer passes the schema and
  never takes one back.  The attribute therefore holds the value of the last
  answer that passed, whether or not that is the answer the run returns.
-/

import KineticSdk.Agent.Rules

namespace KineticSdk
namespace Agent

open Py Tool Security Conversation Replay Context
open Lib (Wp)

variable {σ : Type}

-- ============================================================================
-- Answers and the schema
-- ============================================================================

/-- The answers the model put forward. -/
def answersIn (as : List Action) : List PyStr :=
  as.filterMap fun
    | .proposed text => some text
    | _ => none

/-- Something stopped the run before an answer was accepted. -/
def Interrupted (as : List Action) : Prop :=
  (∃ reason, .stopped reason ∈ as) ∨ ∃ message, .budgetExceeded message ∈ as

/-- The check of an answer accepts. -/
def Passes (env : LoopEnv σ) (schema : Json) (text : PyStr) : Prop :=
  ∃ value, checkFinalAnswer env schema text = .ok value

/-- The output is the value of the answer, and `None` when the check rejects. -/
def Describes (env : LoopEnv σ) (schema : Json) (text : PyStr) (output : Json) : Prop :=
  match checkFinalAnswer env schema text with
  | .ok value => output = value
  | .error _ => output = .null

/-- The value of the last answer that passed. -/
def lastPassed (env : LoopEnv σ) (schema : Json) (texts : List PyStr) : Option Json :=
  texts.foldl (fun kept text =>
    match checkFinalAnswer env schema text with
    | .ok value => some value
    | .error _ => kept) none

theorem lastPassed_snoc_of_passes {env : LoopEnv σ} {schema value : Json} {text : PyStr}
    (texts : List PyStr) (h : checkFinalAnswer env schema text = .ok value) :
    lastPassed env schema (texts ++ [text]) = some value := by
  rw [lastPassed, List.foldl_append, List.foldl_cons, List.foldl_nil, h]

theorem lastPassed_snoc_of_fails {env : LoopEnv σ} {schema : Json} {text : PyStr}
    {problems : List PyStr} (texts : List PyStr)
    (h : checkFinalAnswer env schema text = .error problems) :
    lastPassed env schema (texts ++ [text]) = lastPassed env schema texts := by
  rw [lastPassed, List.foldl_append, List.foldl_cons, List.foldl_nil, h, lastPassed]

/-- The value of the last answer that passed describes the last answer exactly
    if that one passes, or no other value than `None` was left before it. -/
theorem describes_lastPassed_iff (env : LoopEnv σ) (schema : Json) (texts : List PyStr)
    (text : PyStr) :
    Describes env schema text ((lastPassed env schema (texts ++ [text])).getD .null) ↔
      Passes env schema text ∨ (lastPassed env schema texts).getD .null = .null := by
  unfold Describes Passes
  cases hcheck : checkFinalAnswer env schema text with
  | ok value =>
      rw [lastPassed_snoc_of_passes texts hcheck]
      exact iff_of_true rfl (.inl ⟨value, rfl⟩)
  | error problems =>
      rw [lastPassed_snoc_of_fails texts hcheck]
      constructor
      · exact fun h => .inr h
      · rintro (⟨value, h⟩ | h)
        · cases h
        · exact h

/-- What an answer leaves in the attribute. -/
theorem outputOf_getD {env : LoopEnv σ} {schema : Json} {texts : List PyStr}
    {s : AgentState σ} (h : s.structuredOutput = (lastPassed env schema texts).getD .null)
    (text : PyStr) :
    outputOf env (some schema) s text
      = (lastPassed env schema (texts ++ [text])).getD .null := by
  unfold outputOf
  rw [Option.map_some]
  cases hcheck : checkFinalAnswer env schema text with
  | ok value => rw [lastPassed_snoc_of_passes texts hcheck, Option.getD_some]
  | error problems => rw [lastPassed_snoc_of_fails texts hcheck, ← h]

-- ============================================================================
-- The invariant of the loop
-- ============================================================================

/-- The action puts no answer forward. -/
def NoAnswer : Action → Prop
  | .proposed _ => False
  | _ => True

theorem answersIn_append_of_noAnswer (as : List Action) {bs : List Action}
    (hb : ∀ b ∈ bs, NoAnswer b) : answersIn (as ++ bs) = answersIn as := by
  have hnone : answersIn bs = [] := by
    refine List.filterMap_eq_nil_iff.mpr fun b hin => ?_
    have hno := hb b hin
    cases b <;> first | exact hno.elim | rfl
  have hsplit : answersIn (as ++ bs) = answersIn as ++ answersIn bs := List.filterMap_append
  rw [hsplit, hnone, List.append_nil]

theorem noAnswer_of_acts {env : Env σ} {calls : List ToolCall} {as : List Action}
    (h : Acts env calls as) : ∀ a ∈ as, NoAnswer a := by
  intro a ha
  have hnote := callNote_of_acts h a ha
  cases a <;> first | exact hnote.elim | trivial

/-- The attribute holds the value of the last answer that passed. -/
structure Holds (env : LoopEnv σ) (schema : Json) (t₀ : List Action) (s : AgentState σ)
    (as : List Action) : Prop where
  trace : s.trace = t₀ ++ as
  output : s.structuredOutput = (lastPassed env schema (answersIn as)).getD .null

section Invariant

variable {env : LoopEnv σ} {schema : Json} {t₀ as : List Action} {s s' : AgentState σ}

theorem Holds.grow (h : Holds env schema t₀ s as) {bs : List Action}
    (ht : s'.trace = s.trace ++ bs) (ho : s'.structuredOutput = s.structuredOutput)
    (hb : ∀ b ∈ bs, NoAnswer b) : Holds env schema t₀ s' (as ++ bs) := by
  refine ⟨by rw [ht, h.trace, List.append_assoc], ?_⟩
  rw [ho, answersIn_append_of_noAnswer as hb, h.output]

variable (env schema t₀) in
/-- The run goes on. -/
def Tracks (_ : LoopVars) (s : AgentState σ) : Prop := ∃ as, Holds env schema t₀ s as

variable (env schema t₀) in
/-- The text the run keeps is the last answer. -/
def Answered (v : LoopVars) (s : AgentState σ) : Prop :=
  ∃ as earlier, Holds env schema t₀ s as ∧ answersIn as = earlier ++ [v.finalText]

variable (env schema t₀) in
/-- The run was stopped, or ends with its last answer. -/
def EndsWith (text : PyStr) (s : AgentState σ) : Prop :=
  ∃ as, s.trace = t₀ ++ as ∧ (Interrupted as ∨ ∃ earlier, answersIn as = earlier ++ [text] ∧
    s.structuredOutput = (lastPassed env schema (earlier ++ [text])).getD .null)

variable {v : LoopVars}

theorem Tracks.grow (h : Tracks env schema t₀ v s) (bs : List Action)
    (ht : s'.trace = s.trace ++ bs) (ho : s'.structuredOutput = s.structuredOutput)
    (hb : ∀ b ∈ bs, NoAnswer b) {v' : LoopVars} : Tracks env schema t₀ v' s' := by
  obtain ⟨as, has⟩ := h
  exact ⟨as ++ bs, has.grow ht ho hb⟩

theorem Tracks.note (h : Tracks env schema t₀ v s) {a : Action} (ha : NoAnswer a)
    (ht : s'.trace = s.trace ++ [a]) (ho : s'.structuredOutput = s.structuredOutput)
    {v' : LoopVars} : Tracks env schema t₀ v' s' :=
  h.grow [a] ht ho (by simpa using ha)

theorem Tracks.afterEscalation (h : Tracks env schema t₀ v s) (byError : Bool)
    (vars : LoopVars) {v' : LoopVars} : Tracks env schema t₀ v' (afterEscalation byError vars s) := by
  unfold Agent.afterEscalation
  split
  · exact h.note (a := .escalated) trivial (by rfl) (by rfl)
  · exact h

theorem Tracks.stopped (h : Tracks env schema t₀ v s) (reason text : PyStr) :
    EndsWith env schema t₀ text (noted (.stopped reason) s) := by
  obtain ⟨as, has⟩ := h
  refine ⟨as ++ [.stopped reason], ?_, .inl (.inl ⟨reason, by simp⟩)⟩
  rw [← List.append_assoc, ← has.trace]
  rfl

theorem Tracks.outOfBudget (h : Tracks env schema t₀ v s) (message : PyStr) :
    EndsWith env schema t₀ message (noted (.budgetExceeded message) s) := by
  obtain ⟨as, has⟩ := h
  refine ⟨as ++ [.budgetExceeded message], ?_, .inl (.inr ⟨message, by simp⟩)⟩
  rw [← List.append_assoc, ← has.trace]
  rfl

theorem Answered.grow (h : Answered env schema t₀ v s) (bs : List Action)
    (ht : s'.trace = s.trace ++ bs) (ho : s'.structuredOutput = s.structuredOutput)
    (hb : ∀ b ∈ bs, NoAnswer b) : Answered env schema t₀ v s' := by
  obtain ⟨as, earlier, has, hanswers⟩ := h
  refine ⟨as ++ bs, earlier, has.grow ht ho hb, ?_⟩
  rw [answersIn_append_of_noAnswer as hb, hanswers]

theorem Answered.tracks (h : Answered env schema t₀ v s) : Tracks env schema t₀ v s := by
  obtain ⟨as, -, has, -⟩ := h
  exact ⟨as, has⟩

/-- An accepted answer is the last one. -/
theorem Answered.returned (h : Answered env schema t₀ v s) :
    EndsWith env schema t₀ v.finalText s := by
  obtain ⟨as, earlier, has, hanswers⟩ := h
  refine ⟨as, has.trace, .inr ⟨earlier, hanswers, ?_⟩⟩
  rw [← hanswers, has.output]

/-- Putting an answer forward. -/
theorem Tracks.answer (h : Tracks env schema t₀ v s) (text : PyStr) {c : ConversationState}
    (v' : LoopVars) (hv : v'.finalText = text) :
    Answered env schema t₀ v' (putForward env (some schema) text { s with conv := c }) := by
  obtain ⟨as, has⟩ := h
  have hanswers : answersIn (as ++ [.proposed text]) = answersIn as ++ [text] :=
    List.filterMap_append
  refine ⟨as ++ [.proposed text], answersIn as, ⟨?_, ?_⟩, by rw [hanswers, hv]⟩
  · rw [← List.append_assoc, ← has.trace]
    rfl
  · rw [hanswers]
    exact outputOf_getD has.output text

end Invariant

theorem loopRule_tracks (env : LoopEnv σ) (verify : Bool) (schema : Json) (t₀ : List Action) :
    LoopRule env (fun _ _ => True) (fun _ _ => True) verify (some schema) (Tracks env schema t₀)
      (Tracks env schema t₀) (Tracks env schema t₀) (Answered env schema t₀)
      (EndsWith env schema t₀) (fun _ => True) where
  quietHead := fun _ _ _ h ha _ => h.grow [] ha.trace ha.output (by simp)
  quiet := fun _ _ _ h ha _ => h.grow [] ha.trace ha.output (by simp)
  quietAnswer := fun _ _ _ h ha _ => h.grow [] ha.trace ha.output (by simp)
  left := fun _ _ _ => trivial
  exhausted := fun v _ h _ => h.stopped _ v.finalText
  unverified := fun _ _ _ _ => trivial
  cancelled := fun v _ h => h.stopped _ v.finalText
  started := fun v s h _ => h.grow [.accepted (env.accepted s.world),
    .turnStarted v.iteration s.runtime.mode s.runtime.maxIterations] (by simp [noted]) (by rfl)
    (by simp [NoAnswer])
  compact := by
    intro v s manager limit h _
    refine h.grow _ (by rfl) (by rfl) ?_
    intro a ha
    obtain ⟨found, -, rfl⟩ := List.mem_map.mp ha
    trivial
  stop := fun v _ reason h => h.stopped reason v.finalText
  outOfBudget := fun _ _ message h => h.outOfBudget message
  asked := fun _ s h => h.note (a := .llmCall s.conv.messages) trivial (by rfl) (by rfl)
  answer := fun _ _ response h _ _ => h.answer response.content _ rfl
  retry := fun _ _ _ h _ _ => h.tracks.note (a := .structuredRetry) trivial (by rfl) (by rfl)
  unasked := fun _ s h _ => (h.grow [.persisted s.conv] (by rfl) (by rfl) (by simp [NoAnswer])).returned
  accepted := by
    intro v s h _
    have hverdict : Answered env schema t₀ v (noted (.verdict v.finalText true) s) :=
      h.grow [.verdict v.finalText true] (by rfl) (by rfl) (by simp [NoAnswer])
    exact (hverdict.grow [.persisted s.conv] (by rfl) (by rfl) (by simp [NoAnswer])).returned
  rejected := fun _ _ _ _ => trivial
  corrected := by
    intro v s text feedback h _
    have hverdict : Tracks env schema t₀ v
        { noted (.verdict v.finalText false) s with conv := s.conv.addUserMessage text } :=
      h.tracks.note (a := .verdict v.finalText false) trivial (by rfl) (by rfl)
    exact hverdict.afterEscalation true v
  tools := fun _ _ _ _ _ as h _ _ _ hp _ =>
    h.grow as hp.trace hp.output (noAnswer_of_acts hp.acts)
  broken := fun _ _ _ _ _ _ _ _ _ _ _ _ => trivial
  stuck := by
    intro v s reason h
    have hpersisted : Tracks env schema t₀ v (noted (.persisted s.conv) s) :=
      h.note (a := .persisted s.conv) trivial (by rfl) (by rfl)
    exact hpersisted.stopped reason v.finalText
  drain := by
    intro v s h
    have hpersisted : Tracks env schema t₀ v (noted (.persisted s.conv) s) :=
      h.note (a := .persisted s.conv) trivial (by rfl) (by rfl)
    refine hpersisted.grow _ (by rfl) (by rfl) ?_
    intro a ha
    rcases List.mem_append.mp ha with ha | ha
    · obtain ⟨text, -, rfl⟩ := List.mem_map.mp ha
      trivial
    · obtain rfl := List.mem_singleton.mp ha
      trivial
  next := fun v _ byError h => h.afterEscalation byError v

-- ============================================================================
-- The whole run
-- ============================================================================

theorem runRule_tracks (env : LoopEnv σ) (args : RunArgs) (resuming : Bool) {schema : Json}
    (hschema : schemaOf env args = some schema) (t₀ : List Action) :
    RunRule env (fun _ _ => True) (fun _ _ => True) args resuming
      (Tracks env schema t₀ (startVars env args)) (Tracks env schema t₀ (startVars env args))
      (Tracks env schema t₀ (startVars env args))
      (Tracks env schema t₀) (Tracks env schema t₀) (Tracks env schema t₀)
      (Answered env schema t₀) (EndsWith env schema t₀) (fun _ => True) where
  quiet := fun _ _ h ha _ => h.grow [] ha.trace ha.output (by simp)
  left := fun _ _ => trivial
  failed := fun _ _ _ _ _ => trivial
  user := fun _ _ h => h.grow [] (by simp) (by rfl) (by simp)
  fresh := fun _ _ h => h.grow [] (by simp) (by rfl) (by simp)
  quietFresh := fun _ _ h ha _ => h.grow [] ha.trace ha.output (by simp)
  routed := fun _ s h => h.note (a := .classified _ _) trivial (by rfl) (by rfl)
  resumed := fun _ _ h => h
  quietReady := fun _ _ h ha _ => h.grow [] ha.trace ha.output (by simp)
  plan := fun _ _ h => h.grow [] (by simp [setPlan]) (by rfl) (by simp)
  enter := fun _ h => h
  loop := by
    rw [hschema]
    exact loopRule_tracks env _ schema t₀

/-- A run with a schema that nothing stopped returns the last answer, and
    `structured_output` describes that answer exactly if the answer passes the
    check, or no earlier answer of the run has left a value. -/
theorem run_structuredOutput_iff (env : LoopEnv σ) (args : RunArgs) {schema : Json}
    (hschema : schemaOf env args = some schema) (s : AgentState σ) :
    Wp (run env args)
      (fun final s' => ∃ text as, final = some text ∧ s'.trace = s.trace ++ as ∧
        (Interrupted as ∨ ∃ earlier, answersIn as = earlier ++ [text] ∧
          (Describes env schema text s'.structuredOutput ↔
            Passes env schema text ∨ (lastPassed env schema earlier).getD .null = .null)))
      (fun _ _ => True) s := by
  -- at first no answer was put forward, and the attribute is `None`
  have hstart : Tracks env schema s.trace (startVars env args) { s with structuredOutput := .null } :=
    ⟨[], by simp, rfl⟩
  apply ((runRule_tracks env args _ hschema s.trace).run env.moves_anywhere
    (responds_anything env) rfl hstart).mono
  · rintro _ s' ⟨text, s₁, rfl, ⟨as, htrace, hend⟩, ha, -⟩
    have htrace' : s'.trace = s.trace ++ as := by
      rw [ha.trace, List.append_nil]
      exact htrace
    refine ⟨text, as, rfl, htrace', hend.imp_right ?_⟩
    rintro ⟨earlier, hanswers, houtput⟩
    have houtput' : s'.structuredOutput
        = (lastPassed env schema (earlier ++ [text])).getD .null := ha.output.trans houtput
    refine ⟨earlier, hanswers, ?_⟩
    rw [houtput']
    exact describes_lastPassed_iff env schema earlier text
  · exact fun _ _ h => h

/-- A model that first answers with a number and then with words, and a verifier
    that wants no number. -/
def numberThenWords : LoopEnv Nat where
  tools := []
  permissionPolicy := fun _ _ w => (.ok ⟨true, py "ok", false⟩, w)
  idempotencyKey := fun _ _ _ => []
  digest := fun _ => []
  cancelRequested := fun w => (false, w)
  timedOut := fun _ w => (false, w)
  slotsReleased := fun w => (0, w)
  monotonic := fun w => (0, w)
  chat := fun _ _ asked =>
    (.ok { content := if asked = 0 then py "7" else py "seven" }, asked + 1)
  chatStream := fun _ _ w => (.notImplemented, w)
  classifier := fun _ w => (some .flash, w)
  contextManager := fun w => (.noop, w)
  answerVerifier := some fun _ answer _ w => (.verdict (answer = py "seven") [], w)
  budgetStop := fun w => (none, w)
  recordUsage := fun _ w => ((), w)
  inbox := fun w => ([], w)
  newRunId := fun w => (py "run", w)
  parseStructured := fun text => if text = py "7" then some (.int 7) else none

/-- A conversation before the first request. -/
def unasked : AgentState Nat where
  conv := {}
  runtime := {}
  runId := []
  world := 0

/-- Any integer will do, and there are no corrections. -/
def integerWanted : RunArgs where
  userMessage := some (py "how many?")
  outputSchema := some (.obj [(py "type", .str (py "integer"))])
  structuredRetries := some 0

/-- What a computation returns, and `structured_output` after it. -/
def returnsOutput {α : Type} (x : M σ α) (s : AgentState σ) : Option (α × Json) :=
  match x s with
  | .ok a s' => some (a, s'.structuredOutput)
  | .error .. => none

/-- The rejected number is still there when the words are returned. -/
theorem stale_structuredOutput :
    returnsOutput (run numberThenWords integerWanted) unasked = some (some (py "seven"), .int 7) ∧
      checkFinalAnswer numberThenWords (.obj [(py "type", .str (py "integer"))]) (py "seven")
        = .error [py "final answer is not valid JSON"] := by
  refine ⟨?_, ?_⟩ <;> decide +kernel

-- a statement about a run is never settled by evaluating it
attribute [local irreducible] run

/-- The theorem at that run. -/
theorem numberThenWords_structuredOutput :
    Wp (run numberThenWords integerWanted)
      (fun final s' => ∃ text as, final = some text ∧ s'.trace = unasked.trace ++ as ∧
        (Interrupted as ∨ ∃ earlier, answersIn as = earlier ++ [text] ∧
          (Describes numberThenWords (.obj [(py "type", .str (py "integer"))]) text
              s'.structuredOutput ↔
            Passes numberThenWords (.obj [(py "type", .str (py "integer"))]) text ∨
              (lastPassed numberThenWords (.obj [(py "type", .str (py "integer"))])
                earlier).getD .null = .null)))
      (fun _ _ => True) unasked :=
  run_structuredOutput_iff numberThenWords integerWanted rfl unasked

end Agent
end KineticSdk
