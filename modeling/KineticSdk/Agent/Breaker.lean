/-
  KineticSdk.Agent.Breaker

  The circuit breaker of a tool over a whole history (`_circuit_is_open` and
  `_record_circuit_result` of `agent/agent.py`, which `_prepare_call` and
  `_finalize_call` go through).

  The agent keeps a count and a deadline.  `errorsSince` reads both off the
  history: the times of the errors since the last success or the last attempt
  behind a cooldown.  `Follows` ties the two together; every event keeps it.
-/

import KineticSdk.Agent.Batch
import KineticSdk.Lib.Steps

namespace KineticSdk
namespace Agent

open Py Tool Security Conversation
open Lib (Wp)

variable {σ : Type}

-- ============================================================================
-- Events
-- ============================================================================

/-- What concerns the circuit breakers. -/
inductive BreakerEvent where
  /-- A call that is allowed comes to the checks of its tool. -/
  | attempt (call : ToolCall) (arguments : Json)
  /-- An executed call is finalised. -/
  | finalised (name : PyStr) (result : ToolResult)

/-- An event, and the world it happens in. -/
structure Occurrence (σ : Type) where
  world : σ
  event : BreakerEvent

/-- `time.monotonic()` at an event. -/
def Occurrence.time (env : Env σ) (o : Occurrence σ) : Int := (env.monotonic o.world).1

/-- The state a computation leaves. -/
def endState {α : Type} : EStateM.Result Exc (AgentState σ) α → AgentState σ
  | .ok _ s | .error _ s => s

/-- The result of a call that the breaker rejects. -/
def breakerOpen (name : PyStr) : ToolResult :=
  { error := some (py "Circuit breaker open for tool " ++ pyReprStr name)
    failureCategory := some .permanent }

/-- The state after an event. -/
def afterEvent (env : Env σ) (s : AgentState σ) (o : Occurrence σ) : AgentState σ :=
  let s := { s with world := o.world }
  match o.event with
  | .attempt call arguments => endState (checkTool env call arguments s)
  | .finalised name result =>
      match env.findTool name with
      | none => s
      | some tool => endState (recordCircuitResult env name tool result s)

/-- An attempt is turned down by the breaker. -/
def Rejected (env : Env σ) (s : AgentState σ) (w : σ) (call : ToolCall) (arguments : Json) : Prop :=
  ∃ s', checkTool env call arguments { s with world := w } = .ok (.early (breakerOpen call.name)) s'

-- ============================================================================
-- The breaker in terms of the history
-- ============================================================================

/-- The errors have opened the breaker, and less than the cooldown has passed
    since the latest. -/
def Tripped (threshold cooldown : Int) (errors : List Int) (now : Int) : Prop :=
  ∃ latest ∈ errors.getLast?, threshold ≤ errors.length ∧ now - latest < cooldown

/-- The errors have opened the breaker, and the cooldown has passed. -/
def Cooled (threshold cooldown : Int) (errors : List Int) (now : Int) : Prop :=
  ∃ latest ∈ errors.getLast?, threshold ≤ errors.length ∧ cooldown ≤ now - latest

instance (threshold cooldown : Int) (errors : List Int) (now : Int) :
    Decidable (Tripped threshold cooldown errors now) :=
  inferInstanceAs (Decidable (∃ latest ∈ errors.getLast?, _))

instance (threshold cooldown : Int) (errors : List Int) (now : Int) :
    Decidable (Cooled threshold cooldown errors now) :=
  inferInstanceAs (Decidable (∃ latest ∈ errors.getLast?, _))

/-- What an event does to the errors of a tool that count. -/
def errorsStep (env : Env σ) (tool : Tool σ) (threshold : Int) (errors : List Int) (o : Occurrence σ) :
    List Int :=
  match o.event with
  | .attempt call _ =>
      if call.name = tool.name ∧ Cooled threshold (breakerCooldown tool) errors (o.time env) then []
      else errors
  | .finalised name result =>
      if name = tool.name then if result.isError then errors ++ [o.time env] else [] else errors

/-- The count and the deadline of a tool. -/
def breakerEntry (s : AgentState σ) (name : PyStr) : Int × Option Int :=
  (Dict.get? s.circuitBreakers name).getD (0, none)

/-- The entry counts the errors, and has a deadline behind the last when they are
    enough. -/
def Follows (threshold cooldown : Int) (errors : List Int) (entry : Int × Option Int) : Prop :=
  entry = ((errors.length : Int), if threshold ≤ errors.length then errors.getLast?.map (· + cooldown) else none)

section Steps

variable {env : Env σ} {tool : Tool σ} {threshold : Int} {errors : List Int} {s : AgentState σ}

theorem breakerEntry_set (s : AgentState σ) (name : PyStr) (entry : Int × Option Int) :
    breakerEntry { s with circuitBreakers := Dict.set s.circuitBreakers name entry } name = entry := by
  unfold breakerEntry
  rw [Dict.get?_set_self]
  rfl

theorem breakerEntry_set_of_ne (s : AgentState σ) {name other : PyStr} (entry : Int × Option Int)
    (h : name ≠ other) :
    breakerEntry { s with circuitBreakers := Dict.set s.circuitBreakers name entry } other
      = breakerEntry s other := by
  unfold breakerEntry
  rw [Dict.get?_set_of_ne _ _ h]

theorem follows_nil (threshold cooldown : Int) : Follows threshold cooldown [] (0, none) := by
  unfold Follows
  split_ifs <;> rfl

/-- A deadline is there when the errors have opened the breaker. -/
theorem Follows.deadline {cooldown : Int} {entry : Int × Option Int}
    (h : Follows threshold cooldown errors entry) {deadline : Int} (hd : entry.2 = some deadline) :
    ∃ latest ∈ errors.getLast?, threshold ≤ errors.length ∧ deadline = latest + cooldown := by
  rw [h] at hd
  by_cases hle : threshold ≤ errors.length
  · simp only [hle, if_true] at hd
    obtain ⟨latest, hlatest, heq⟩ := Option.map_eq_some_iff.mp hd
    exact ⟨latest, hlatest, hle, heq.symm⟩
  · simp only [hle, if_false] at hd
    cases hd

theorem Follows.shut {cooldown : Int} {entry : Int × Option Int}
    (h : Follows threshold cooldown errors entry) (hd : entry.2 = none) :
    ¬ ∃ latest ∈ errors.getLast?, threshold ≤ errors.length := by
  rintro ⟨latest, hlatest, hle⟩
  rw [h] at hd
  simp only [hle, if_true, Option.mem_def.mp hlatest] at hd
  cases hd

variable (env) in
/-- `_circuit_is_open` answers from the history, and resets behind a cooldown. -/
theorem wp_circuitIsOpen (hthreshold : breakerThreshold tool = some threshold)
    (h : Follows threshold (breakerCooldown tool) errors (breakerEntry s tool.name)) :
    Wp (circuitIsOpen env tool)
      (fun isOpen s' =>
        (isOpen = true ↔ Tripped threshold (breakerCooldown tool) errors (env.monotonic s.world).1) ∧
        Follows threshold (breakerCooldown tool)
          (if Cooled threshold (breakerCooldown tool) errors (env.monotonic s.world).1 then [] else errors)
          (breakerEntry s' tool.name))
      (fun _ _ => False) s := by
  unfold circuitIsOpen
  rw [hthreshold]
  simp only [Lib.wp_bind, Lib.wp_get]
  cases hentry : (breakerEntry s tool.name).2 with
  | none =>
      have hget : ((Dict.get? s.circuitBreakers tool.name).getD (0, none)).2 = none := hentry
      have hshut := h.shut hentry
      rw [hget]
      have hnot : ¬ Tripped threshold (breakerCooldown tool) errors (env.monotonic s.world).1 := by
        rintro ⟨latest, hlatest, hle, -⟩
        exact hshut ⟨latest, hlatest, hle⟩
      have hwarm : ¬ Cooled threshold (breakerCooldown tool) errors (env.monotonic s.world).1 := by
        rintro ⟨latest, hlatest, hle, -⟩
        exact hshut ⟨latest, hlatest, hle⟩
      refine ⟨⟨fun hfalse => Bool.noConfusion hfalse, fun htripped => absurd htripped hnot⟩, ?_⟩
      rw [if_neg hwarm]
      exact h
  | some deadline =>
      have hget : ((Dict.get? s.circuitBreakers tool.name).getD (0, none)).2 = some deadline := hentry
      obtain ⟨latest, hlatest, hle, rfl⟩ := h.deadline hentry
      have hlast : ∀ x ∈ errors.getLast?, x = latest := fun x hx => Option.mem_unique hx hlatest
      rw [hget]
      show Wp (ask env.monotonic >>= _) _ _ s
      simp only [Lib.wp_bind]
      show Wp (if (env.monotonic s.world).1 < latest + breakerCooldown tool then _ else _) _ _ _
      by_cases hlt : (env.monotonic s.world).1 < latest + breakerCooldown tool
      · rw [if_pos hlt]
        have htripped : Tripped threshold (breakerCooldown tool) errors (env.monotonic s.world).1 :=
          ⟨latest, hlatest, hle, by omega⟩
        have hwarm : ¬ Cooled threshold (breakerCooldown tool) errors (env.monotonic s.world).1 := by
          rintro ⟨x, hx, -, hcooled⟩
          rw [hlast x hx] at hcooled
          omega
        refine ⟨⟨fun _ => htripped, fun _ => rfl⟩, ?_⟩
        rw [if_neg hwarm]
        exact h
      · rw [if_neg hlt]
        refine ⟨⟨fun hfalse => Bool.noConfusion hfalse, fun htripped => ?_⟩, ?_⟩
        · obtain ⟨x, hx, -, hbefore⟩ := htripped
          rw [hlast x hx] at hbefore
          omega
        · rw [if_pos ⟨latest, hlatest, hle, by omega⟩]
          show Follows _ _ [] (breakerEntry
            { s with circuitBreakers := Dict.set s.circuitBreakers tool.name (0, none), world := _ } tool.name)
          unfold breakerEntry
          rw [Dict.get?_set_self]
          exact follows_nil ..

variable (env) in
/-- `_circuit_is_open` leaves the breakers of other tools as they are. -/
theorem wp_circuitIsOpen_other {name : PyStr} (hname : tool.name ≠ name) :
    Wp (circuitIsOpen env tool) (fun _ s' => breakerEntry s' name = breakerEntry s name)
      (fun _ _ => False) s := by
  unfold circuitIsOpen
  cases breakerThreshold tool with
  | none => exact rfl
  | some threshold =>
      simp only [Lib.wp_bind, Lib.wp_get]
      cases ((Dict.get? s.circuitBreakers tool.name).getD (0, none)).2 with
      | none => exact rfl
      | some deadline =>
          show Wp (ask env.monotonic >>= _) _ _ s
          simp only [Lib.wp_bind]
          show Wp (if (env.monotonic s.world).1 < deadline then _ else _) _ _ _
          by_cases hlt : (env.monotonic s.world).1 < deadline
          · rw [if_pos hlt]
            exact rfl
          · rw [if_neg hlt]
            exact breakerEntry_set_of_ne s _ hname

variable (env) in
/-- `_record_circuit_result` counts an error, and forgets them all at a success. -/
theorem wp_recordCircuitResult (result : ToolResult) (hthreshold : breakerThreshold tool = some threshold)
    (h : Follows threshold (breakerCooldown tool) errors (breakerEntry s tool.name)) :
    Wp (recordCircuitResult env tool.name tool result)
      (fun _ s' => Follows threshold (breakerCooldown tool)
        (if result.isError then errors ++ [(env.monotonic s.world).1] else []) (breakerEntry s' tool.name))
      (fun _ _ => False) s := by
  unfold recordCircuitResult
  rw [hthreshold]
  by_cases herror : result.isError = true
  · have hfailures : ((Dict.get? s.circuitBreakers tool.name).getD (0, none)).1 = errors.length :=
      congrArg Prod.fst h
    have hset : ∀ entry, (Dict.get? (Dict.set s.circuitBreakers tool.name entry) tool.name).getD (0, none)
        = entry := fun entry => by
      rw [Dict.get?_set_self]
      rfl
    have hlength : ((errors ++ [(env.monotonic s.world).1]).length : Int) = errors.length + 1 := by simp
    simp only [herror, Bool.not_true, Bool.false_eq_true, if_false, if_true, Lib.wp_bind, Lib.wp_get,
      hfailures]
    unfold openUntil Follows
    rw [hlength, List.getLast?_append]
    by_cases hle : threshold ≤ errors.length + 1
    · rw [if_pos hle, if_pos hle]
      exact hset _
    · rw [if_neg hle, if_neg hle]
      exact hset _
  · simp only [herror, Bool.not_false, if_true, Bool.false_eq_true, if_false]
    show Follows _ _ [] (breakerEntry { s with circuitBreakers := Dict.set s.circuitBreakers tool.name (0, none) } _)
    rw [breakerEntry_set]
    exact follows_nil ..

variable (env tool) in
/-- `_record_circuit_result` leaves the breakers of other tools as they are. -/
theorem wp_recordCircuitResult_other {name other : PyStr} (result : ToolResult) (hname : name ≠ other) :
    Wp (recordCircuitResult env name tool result)
      (fun _ s' => breakerEntry s' other = breakerEntry s other) (fun _ _ => False) s := by
  have hset : ∀ entry, (Dict.get? (Dict.set s.circuitBreakers name entry) other).getD (0, none)
      = breakerEntry s other := fun entry => breakerEntry_set_of_ne s entry hname
  unfold recordCircuitResult
  cases breakerThreshold tool with
  | none => exact rfl
  | some threshold =>
      by_cases herror : result.isError = true
      · simp only [herror, Bool.not_true, Bool.false_eq_true, if_false, Lib.wp_bind, Lib.wp_get]
        unfold openUntil
        rw [Lib.wp_ite]
        exact ⟨fun _ => hset _, fun _ => hset _⟩
      · simp only [herror, Bool.not_false, if_true]
        exact hset _

/-- A logger changes nothing an agent holds. -/
theorem wp_log (entry : AuditEntry) : Wp (log env entry) (fun _ s' => s' = s) (fun _ s' => s' = s) s := by
  unfold log lift
  cases env.auditLogger.record entry <;> exact rfl

/-- The checks of a tool come down to its breaker. -/
theorem wp_checkTool (call : ToolCall) (arguments : Json) (hfind : env.findTool call.name = some tool)
    {P : Bool → AgentState σ → Prop} (h : Wp (circuitIsOpen env tool) P (fun _ _ => False) s) :
    Wp (checkTool env call arguments)
      (fun gate s' => ∃ isOpen, P isOpen s' ∧ (gate = .early (breakerOpen call.name) ↔ isOpen = true))
      (fun _ s' => P false s') s := by
  unfold checkTool
  rw [hfind]
  simp only [Lib.wp_bind]
  refine h.mono (fun isOpen s' hP => ?_) (fun _ _ => False.elim)
  cases isOpen with
  | true => exact ⟨true, hP, iff_of_true rfl rfl⟩
  | false =>
      rw [if_neg Bool.false_ne_true]
      split_ifs
      · simp only [Lib.wp_bind]
        refine (wp_log _).mono (fun _ s'' hs => ?_) (fun _ s'' hs => hs ▸ hP)
        refine ⟨false, hs ▸ hP, iff_of_false (fun heq => ?_) Bool.false_ne_true⟩
        -- a schema error has no category
        have hresult := congrArg ToolResult.failureCategory (Gate.early.inj heq)
        cases hresult
      · refine ⟨false, hP, iff_of_false (fun heq => ?_) Bool.false_ne_true⟩
        cases heq

/-- An attempt is rejected from the history, and resets behind a cooldown. -/
theorem attempt_spec {call : ToolCall} (arguments : Json) (w : σ) (hfind : env.findTool tool.name = some tool)
    (hcall : call.name = tool.name) (hthreshold : breakerThreshold tool = some threshold)
    (h : Follows threshold (breakerCooldown tool) errors (breakerEntry s tool.name)) :
    (Rejected env s w call arguments ↔ Tripped threshold (breakerCooldown tool) errors (env.monotonic w).1) ∧
      Follows threshold (breakerCooldown tool)
        (if Cooled threshold (breakerCooldown tool) errors (env.monotonic w).1 then [] else errors)
        (breakerEntry (afterEvent env s ⟨w, .attempt call arguments⟩) tool.name) := by
  have hopen := wp_circuitIsOpen env (s := { s with world := w }) hthreshold h
  have hcheck := wp_checkTool call arguments (by rw [hcall]; exact hfind) hopen
  unfold Rejected afterEvent
  dsimp only
  cases hrun : checkTool env call arguments { s with world := w } with
  | ok gate s' =>
      obtain ⟨isOpen, ⟨htripped, hfollows⟩, hgate⟩ := hcheck.of_ok hrun
      refine ⟨?_, hfollows⟩
      rw [← htripped, ← hgate]
      exact ⟨fun ⟨s'', heq⟩ => by cases heq; rfl, fun heq => ⟨s', by rw [heq]⟩⟩
  | error e s' =>
      obtain ⟨htripped, hfollows⟩ := hcheck.of_error hrun
      refine ⟨?_, hfollows⟩
      rw [← htripped]
      exact iff_of_false (fun ⟨s'', heq⟩ => by cases heq) Bool.false_ne_true

/-- Every event keeps the entry in step with the history. -/
theorem Follows.step {o : Occurrence σ} (hfind : env.findTool tool.name = some tool)
    (hthreshold : breakerThreshold tool = some threshold)
    (h : Follows threshold (breakerCooldown tool) errors (breakerEntry s tool.name)) :
    Follows threshold (breakerCooldown tool) (errorsStep env tool threshold errors o)
      (breakerEntry (afterEvent env s o) tool.name) := by
  obtain ⟨w, event⟩ := o
  cases event with
  | attempt call arguments =>
      by_cases hcall : call.name = tool.name
      · have hspec := (attempt_spec arguments w hfind hcall hthreshold h).2
        unfold errorsStep
        simpa only [hcall, true_and, Occurrence.time] using hspec
      · have hkept : breakerEntry (afterEvent env s ⟨w, .attempt call arguments⟩) tool.name
            = breakerEntry s tool.name := by
          unfold afterEvent
          dsimp only
          cases hother : env.findTool call.name with
          | none =>
              unfold checkTool
              rw [hother]
              rfl
          | some other =>
              have hne : other.name ≠ tool.name := by
                rw [findTool_name hother]
                exact hcall
              have hwp := wp_checkTool call arguments hother
                (wp_circuitIsOpen_other env (s := { s with world := w }) hne)
              cases hrun : checkTool env call arguments { s with world := w } with
              | ok gate s' => exact (hwp.of_ok hrun).choose_spec.1
              | error e s' => exact hwp.of_error hrun
        rw [hkept]
        unfold errorsStep
        simpa only [hcall, false_and, if_false] using h
  | finalised name result =>
      by_cases hname : name = tool.name
      · subst hname
        have hwp := wp_recordCircuitResult env (s := { s with world := w }) result hthreshold h
        unfold errorsStep afterEvent
        dsimp only
        rw [hfind, if_pos rfl]
        dsimp only
        cases hrun : recordCircuitResult env tool.name tool result { s with world := w } with
        | ok _ s' => exact hwp.of_ok hrun
        | error e s' => exact (hwp.of_error hrun).elim
      · have hkept : breakerEntry (afterEvent env s ⟨w, .finalised name result⟩) tool.name
            = breakerEntry s tool.name := by
          unfold afterEvent
          dsimp only
          cases env.findTool name with
          | none => rfl
          | some other =>
              have hwp := wp_recordCircuitResult_other env other (s := { s with world := w }) result hname
              dsimp only
              cases hrun : recordCircuitResult env name other result { s with world := w } with
              | ok _ s' => exact hwp.of_ok hrun
              | error e s' => exact (hwp.of_error hrun).elim
        rw [hkept]
        unfold errorsStep
        simpa only [hname, if_false] using h

end Steps

-- ============================================================================
-- The state machine and the history agree
-- ============================================================================

end Agent
end KineticSdk
