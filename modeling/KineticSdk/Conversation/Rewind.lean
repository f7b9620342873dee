/-
  KineticSdk.Conversation.Rewind

  Going back to an earlier point of a conversation (`rewind_state` of
  `conversation/checkpoint.py`).

  Only the last kept message is looked at.  The results of a batch are one
  message each, so a cut behind the first of several results keeps all the
  calls, and `rewind_state` returns it.
-/

import KineticSdk.Conversation.State
import KineticSdk.Py.Repr

namespace KineticSdk
namespace Conversation

open Py
open Lib.TurnView

-- ============================================================================
-- rewind_state
-- ============================================================================

/-- `isinstance(keep_messages, int)`: a `bool` is one. -/
def asInt : Json → Option Int
  | .int n => some n
  | .bool b => some (if b then 1 else 0)
  | _ => none

/-- `isinstance(b, dict) and b.get("type") == "tool_use"`. -/
def isToolUse : Json → Bool
  | .obj block => Dict.get? block (py "type") = some (.str (py "tool_use"))
  | _ => false

/-- The message is one a history cannot end with: an assistant's, with a call. -/
def danglingToolUse (tail : Message) : Bool := isAssistant tail && (contentBlocks tail).any isToolUse

/-- A `CheckpointError`. -/
def checkpointError (message : PyStr) : PyExc := ⟨py "CheckpointError", message⟩

/-- `rewind_state`. -/
def rewindState (state : ConversationState) (keepMessages : Json) : Except PyExc ConversationState :=
  match asInt keepMessages with
  | none => .error (checkpointError
      (py "keep_messages must be a non-negative int, got " ++ pyRepr keepMessages))
  | some keep =>
      if keep < 0 then
        .error (checkpointError (py "keep_messages must be a non-negative int, got " ++ pyRepr keepMessages))
      else
        let messages := state.messages.take keep.toNat
        if messages.getLast?.any danglingToolUse then
          .error (checkpointError (py "rewind cut lands on a dangling tool_use (history would not "
            ++ py "replay); cut one message earlier/later"))
        else .ok { state with messages := messages }

-- ============================================================================
-- Which cuts replay
-- ============================================================================

/-- The rewind raises, or leaves a history in which calls and results are paired. -/
def RewindsValid (state : ConversationState) (keepMessages : Json) : Prop :=
  (∃ message, rewindState state keepMessages = .error (checkpointError message)) ∨
    ∃ state', rewindState state keepMessages = .ok state' ∧ toolView.WellPaired state'.messages

/-- The cut falls inside a batch: results of it lie behind the cut, and the last kept
    message is another one than that with the calls. -/
def CutInsideBatch (messages : List Message) (keep : Nat) : Prop :=
  toolView.lead (messages.drop keep) ≠ [] ∧
    ∀ m ∈ (messages.take keep).getLast?, messageToolUseIds m = []

theorem danglingToolUse_of_ids {m : Message} (hm : isAssistant m = true)
    (hids : messageToolUseIds m ≠ []) : danglingToolUse m = true := by
  obtain ⟨i, hi⟩ := List.exists_mem_of_ne_nil _ hids
  obtain ⟨block, hblock, hid⟩ := List.mem_filterMap.mp hi
  rw [danglingToolUse, hm, Bool.true_and, List.any_eq_true]
  refine ⟨block, hblock, ?_⟩
  cases block with
  | obj fields =>
      rw [blockId] at hid
      split_ifs at hid with htype
      exact decide_eq_true htype
  | _ => cases hid

/-- Behind an assistant's message without ids no result is left out. -/
theorem lead_nil_of_last {a b : List Message} {m : Message}
    (hw : toolView.WellPaired (a ++ m :: b)) (hm : isAssistant m = true)
    (hids : messageToolUseIds m = []) : toolView.lead b = [] := by
  have hopens : toolView.opens m = true := hm
  have hturn : (⟨messageToolUseIds m, toolView.lead b⟩ : Lib.Turn Json) ∈ toolView.turns (a ++ m :: b) := by
    apply turns_subset_append a (m :: b)
    rw [turns_cons_of_opens hopens]
    exact List.mem_cons_self ..
  have hperm : (toolView.lead b).Perm (messageToolUseIds m) := hw.answered _ hturn
  rw [hids] at hperm
  exact List.perm_nil.mp hperm

/-- What is no length is refused. -/
theorem rewindState_refuses {state : ConversationState} {keepMessages : Json}
    (h : ¬ ∃ keep : Nat, asInt keepMessages = some (keep : Int)) :
    ∃ message, rewindState state keepMessages = .error (checkpointError message) := by
  unfold rewindState
  cases hkeep : asInt keepMessages with
  | none => exact ⟨_, rfl⟩
  | some keep =>
      have hlt : keep < 0 := by
        by_contra hle
        exact h ⟨keep.toNat, by rw [hkeep, Int.toNat_of_nonneg (by omega)]⟩
      dsimp only
      rw [if_pos hlt]
      exact ⟨_, rfl⟩

/-- The rewind to a length. -/
theorem rewindState_keep {state : ConversationState} {keepMessages : Json} {keep : Nat}
    (hkeep : asInt keepMessages = some (keep : Int)) :
    rewindState state keepMessages = if (state.messages.take keep).getLast?.any danglingToolUse then
        .error (checkpointError (py "rewind cut lands on a dangling tool_use (history would not "
          ++ py "replay); cut one message earlier/later"))
      else .ok { state with messages := state.messages.take keep } := by
  rw [rewindState, hkeep]
  dsimp only
  rw [if_neg (by omega), Int.toNat_natCast]

section Cut

variable {messages : List Message} {keep : Nat}
  (hw : toolView.WellPaired (messages.take keep ++ messages.drop keep))
include hw

/-- A cut right behind the calls is not one inside the batch. -/
theorem not_inside_of_dangling (hdangling : (messages.take keep).getLast?.any danglingToolUse = true) :
    ¬ CutInsideBatch messages keep := by
  rintro ⟨hlead, hnone⟩
  cases hlast : (messages.take keep).getLast? with
  | none =>
      rw [hlast] at hdangling
      exact Bool.noConfusion hdangling
  | some m =>
      rw [hlast, Option.any_some, danglingToolUse, Bool.and_eq_true] at hdangling
      obtain ⟨a, ha⟩ := List.getLast?_eq_some_iff.mp hlast
      rw [ha, List.append_assoc, List.singleton_append] at hw
      exact hlead (lead_nil_of_last hw hdangling.1 (hnone m (by rw [hlast]; rfl)))

/-- Any other cut that leaves results out is. -/
theorem inside_of_lead (hdangling : ¬ (messages.take keep).getLast?.any danglingToolUse = true)
    (hlead : toolView.lead (messages.drop keep) ≠ []) : CutInsideBatch messages keep := by
  refine ⟨hlead, fun m hm => ?_⟩
  by_contra hids
  have hclean := hw.clean m (List.mem_append_left _ (List.mem_of_getLast? hm))
  have hopens : isAssistant m = true := by
    by_contra hnot
    exact hids (hclean.requests_nil (Bool.eq_false_iff.mpr hnot))
  exact hdangling (by rw [hm, Option.any_some, danglingToolUse_of_ids hopens hids])

end Cut

/-- From a well-paired history, the rewind keeps calls and results together exactly
    when it does not cut inside a batch. -/
theorem rewind_valid_iff {state : ConversationState} (hw : toolView.WellPaired state.messages)
    (keepMessages : Json) :
    RewindsValid state keepMessages ↔
      ∀ keep : Nat, asInt keepMessages = some (keep : Int) → ¬ CutInsideBatch state.messages keep := by
  by_cases hneg : ∃ keep : Nat, asInt keepMessages = some (keep : Int)
  case neg => exact iff_of_true (.inl (rewindState_refuses hneg)) fun keep hkeep => absurd ⟨keep, hkeep⟩ hneg
  case pos =>
    obtain ⟨keep, hkeep⟩ := hneg
    have hforall : (∀ keep' : Nat, asInt keepMessages = some (keep' : Int) →
        ¬ CutInsideBatch state.messages keep') ↔ ¬ CutInsideBatch state.messages keep := by
      constructor
      · exact fun h => h keep hkeep
      · intro h keep' hkeep'
        rw [hkeep, Option.some.injEq, Int.natCast_inj] at hkeep'
        exact hkeep' ▸ h
    have hcut : toolView.WellPaired (state.messages.take keep ++ state.messages.drop keep) := by
      rw [List.take_append_drop]
      exact hw
    rw [hforall, RewindsValid, rewindState_keep hkeep]
    by_cases hdangling : (state.messages.take keep).getLast?.any danglingToolUse = true
    · rw [if_pos hdangling]
      exact iff_of_true (.inl ⟨_, rfl⟩) (not_inside_of_dangling hcut hdangling)
    · rw [if_neg hdangling]
      constructor
      · rintro (⟨message, herror⟩ | ⟨state', hok, hpaired⟩) ⟨hlead, -⟩
        · cases herror
        · cases hok
          exact hlead (hcut.front_iff.mp hpaired)
      · intro hinside
        refine .inr ⟨_, rfl, hcut.front_iff.mpr ?_⟩
        by_contra hlead
        exact hinside (inside_of_lead hcut hdangling hlead)

/-- A batch of two calls. -/
def twoCallBatch : ConversationState where
  messages := [userMessage (py "compare"),
    assistantMessage (.arr
      [.obj [(py "type", .str (py "tool_use")), (py "id", .str (py "a"))],
       .obj [(py "type", .str (py "tool_use")), (py "id", .str (py "b"))]]),
    toolResultMessage (py "a") (py "1") false, toolResultMessage (py "b") (py "2") false]

theorem wellPaired_twoCallBatch : toolView.WellPaired twoCallBatch.messages :=
  ⟨by decide, by decide, by decide⟩

theorem rewind_valid_start : RewindsValid twoCallBatch (.int 1) :=
  (rewind_valid_iff wellPaired_twoCallBatch (.int 1)).mpr fun keep hkeep hinside => by
    have hone : keep = 1 := by
      have hint := Option.some.inj hkeep
      omega
    subst hone
    exact hinside.1 (by decide)

/-- Behind the first of the two results the second call is left open. -/
theorem rewind_inside_batch :
    toolView.WellPaired twoCallBatch.messages ∧ ¬ RewindsValid twoCallBatch (.int 3) := by
  refine ⟨wellPaired_twoCallBatch, ?_⟩
  have hrun : rewindState twoCallBatch (.int 3)
      = .ok { twoCallBatch with messages := twoCallBatch.messages.take 3 } := by rfl
  rintro (⟨message, herror⟩ | ⟨state', hok, hpaired⟩)
  · rw [hrun] at herror
    cases herror
  · rw [hrun] at hok
    cases hok
    have hturns : toolView.turns (twoCallBatch.messages.take 3)
        = [⟨[.str (py "a"), .str (py "b")], [.str (py "a")]⟩] := by rfl
    have hturn := hpaired.answered ⟨[.str (py "a"), .str (py "b")], [.str (py "a")]⟩
      (hturns ▸ List.mem_singleton_self _)
    exact absurd hturn.length_eq (by decide)

end Conversation
end KineticSdk
