/-
  KineticSdk.Conversation.Cap

  The message cap over a whole sequence of appends.

  The cap is enforced after every append, so after `k` appends the history is
  the window of the newest `max(cap, 1)` of the first `k` messages.  The
  window starts inside a tool-call turn at some `k` unless it never has to
  move past a turn that asked for a tool.
-/

import Mathlib.Data.List.Induction
import KineticSdk.Conversation.State

namespace KineticSdk
namespace Conversation

open Py
open Lib (TurnView)

/-- A call that appends to the history. -/
inductive Append where
  | user (content : PyStr)
  | userImage (text imageBase64 mediaType : PyStr)
  | assistant (content : Json)
  | toolResult (toolCallId output : PyStr) (isError : Bool)

namespace Append

/-- The message the call appends. -/
def message : Append → Message
  | .user c => userMessage c
  | .userImage t i mt => imageMessage t i mt
  | .assistant c => assistantMessage c
  | .toolResult i o e => toolResultMessage i o e

/-- The call on a state. -/
def apply (s : ConversationState) : Append → ConversationState
  | .user c => s.addUserMessage c
  | .userImage t i mt => s.addUserMessageWithImage t i mt
  | .assistant c => s.addAssistant c
  | .toolResult i o e => s.addToolResult i o e

theorem apply_eq_append (s : ConversationState) (op : Append) :
    op.apply s = s.append op.message := by
  cases op <;> rfl

end Append

/-- The state after a sequence of appends to a fresh conversation. -/
def afterAppends (cap : Option Int) (ops : List Append) : ConversationState :=
  ops.foldl Append.apply { maxMessages := cap }

theorem afterAppends_snoc (cap : Option Int) (ops : List Append) (op : Append) :
    afterAppends cap (ops ++ [op]) = (afterAppends cap ops).append op.message := by
  simp [afterAppends, Append.apply_eq_append]

theorem afterAppends_maxMessages (cap : Option Int) (ops : List Append) :
    (afterAppends cap ops).maxMessages = cap := by
  induction ops using List.reverseRecOn with
  | nil => rfl
  | append_singleton ops op ih =>
      rw [afterAppends_snoc, ConversationState.append, ConversationState.enforceCap]
      simp only [ih]
      cases cap <;> rfl

/-- Without a cap the history is everything appended. -/
theorem afterAppends_none (ops : List Append) :
    (afterAppends none ops).messages = ops.map Append.message := by
  induction ops using List.reverseRecOn with
  | nil => rfl
  | append_singleton ops op ih =>
      rw [afterAppends_snoc, ConversationState.append_uncapped (afterAppends_maxMessages none ops),
        List.map_append, ih]
      rfl

/-- With a cap the history is the window of the newest `max(cap, 1)` messages. -/
theorem afterAppends_some (cap : Int) (ops : List Append) :
    (afterAppends (some cap) ops).messages
      = (ops.map Append.message).drop (ops.length - max cap.toNat 1) := by
  induction ops using List.reverseRecOn with
  | nil => simp [afterAppends]
  | append_singleton ops op ih =>
      rw [afterAppends_snoc, ConversationState.append, ConversationState.enforceCap]
      simp only [afterAppends_maxMessages, ih, ConversationState.dropOldest_eq_drop]
      simp only [List.map_append, List.map_cons, List.map_nil, List.length_append,
        List.length_drop, List.length_map, List.length_cons, List.length_nil]
      -- the window before the append, extended by one, minus what the cap drops
      rw [← List.drop_append_of_le_length (by simp), List.drop_drop]
      congr 1
      omega

/-- What the cap must not do: leave a tool result whose `tool_use` it dropped. -/
def HistoryValid (s : ConversationState) : Prop := toolView.NoOrphans s.forLlm.2

/-- Counted from the first turn that asks for a tool, the messages fit under
    the cap (which never goes below one message). -/
def ToolTurnsFit (cap : Option Int) (ops : List Append) : Prop :=
  match cap with
  | none => True
  | some c => ∀ pre op post, ops = pre ++ op :: post → messageToolUseIds op.message ≠ [] →
      (op :: post).length ≤ max c.toNat 1

/-- A capped history as a window of the whole sequence, cut after `k` appends. -/
theorem afterAppends_take (cap : Int) (ops : List Append) {k : Nat} (hk : k ≤ ops.length) :
    (afterAppends (some cap) (ops.take k)).messages
      = ((ops.map Append.message).take k).drop (k - max cap.toNat 1) := by
  rw [afterAppends_some, List.map_take, List.length_take, Nat.min_eq_left hk]

/-- Splitting the messages of a sequence of appends splits the sequence. -/
theorem map_message_split {ops : List Append} {a ms : List Message} {m : Message}
    (h : ops.map Append.message = a ++ m :: ms) :
    ∃ pre op post, ops = pre ++ op :: post ∧ a = pre.map Append.message ∧
      m = op.message ∧ ms = post.map Append.message := by
  obtain ⟨pre, rest, rfl, ha, hrest⟩ := List.map_eq_append_iff.mp h
  obtain ⟨op, post, rfl, hm, hms⟩ := List.map_eq_cons_iff.mp hrest
  exact ⟨pre, op, post, rfl, ha.symm, hm.symm, hms.symm⟩

/-- The window of a capped history is valid exactly when its lead is empty. -/
theorem historyValid_take_iff (cap : Int) (ops : List Append)
    (hw : toolView.WellPaired (ops.map Append.message)) {k : Nat} (hk : k ≤ ops.length) :
    HistoryValid (afterAppends (some cap) (ops.take k)) ↔
      toolView.lead (((ops.map Append.message).take k).drop (k - max cap.toNat 1)) = [] := by
  have hsplit : (ops.map Append.message).take (k - max cap.toNat 1)
      ++ (((ops.map Append.message).take k).drop (k - max cap.toNat 1)
        ++ (ops.map Append.message).drop k) = ops.map Append.message := by
    have hle : k - max cap.toNat 1 ≤ ((ops.map Append.message).take k).length := by
      simp only [List.length_take, List.length_map]
      omega
    rw [← List.drop_append_of_le_length hle, List.take_append_drop, List.take_append_drop]
  rw [← hsplit] at hw
  unfold HistoryValid ConversationState.forLlm
  rw [afterAppends_take cap ops hk]
  exact hw.noOrphans_window_iff

/-- The cap keeps the history valid after every append exactly when no turn
    that asks for a tool is ever pushed out of the window. -/
theorem cap_keeps_history_valid_iff (cap : Option Int) (ops : List Append)
    (hw : toolView.WellPaired (afterAppends none ops).messages) :
    (∀ k ≤ ops.length, HistoryValid (afterAppends cap (ops.take k))) ↔ ToolTurnsFit cap ops := by
  rw [afterAppends_none] at hw
  cases cap with
  | none =>
      refine iff_of_true ?_ trivial
      intro k _
      have hpre : ops.map Append.message
          = [] ++ ((ops.take k).map Append.message ++ (ops.drop k).map Append.message) := by
        rw [List.nil_append, ← List.map_append, List.take_append_drop]
      rw [hpre] at hw
      unfold HistoryValid ConversationState.forLlm
      rw [afterAppends_none, hw.noOrphans_window_iff]
      have hl := (TurnView.lead_prefix_append (v := toolView) ((ops.take k).map Append.message)
        ((ops.drop k).map Append.message))
      rw [← List.nil_append ((ops.take k).map Append.message ++ _), hw.lead_nil] at hl
      exact List.prefix_nil.mp hl
  | some cap =>
      constructor
      · intro hall pre op post hops hreq
        by_contra hlong
        subst hops
        rw [List.map_append, List.map_cons] at hw
        have hopens : toolView.opens op.message = true := by
          cases ho : toolView.opens op.message with
          | true => rfl
          | false => exact absurd ((hw.clean op.message (by simp)).requests_nil ho) hreq
        have hlong' : max cap.toNat 1 < (op.message :: post.map Append.message).length := by
          simp only [List.length_cons, List.length_map] at hlong ⊢
          omega
        obtain ⟨k, hk, hne⟩ := hw.exists_lead_window (show 1 ≤ max cap.toNat 1 by omega) hopens
          hreq hlong'
        rw [← List.map_cons, ← List.map_append] at hk hne hw
        rw [List.length_map] at hk
        exact hne ((historyValid_take_iff cap _ hw hk).mp (hall k hk))
      · intro hfit k hk
        rw [historyValid_take_iff cap ops hw hk]
        apply hw.lead_window_nil (by simpa using hk)
        intro a m ms hsplit hreq
        obtain ⟨pre, op, post, rfl, rfl, rfl, rfl⟩ := map_message_split hsplit
        have hlen := hfit pre op post rfl hreq
        simp only [List.length_cons, List.length_map] at hlen ⊢
        exact hlen

/-- The appends of one tool call followed by a closing answer. -/
def oneToolCall : List Append :=
  [.user (py "go"),
   .assistant (.arr [.obj [(py "type", .str (py "tool_use")), (py "id", .str (py "t1")),
     (py "name", .str (py "ls")), (py "input", .obj [])]]),
   .toolResult (py "t1") (py "a.py") false,
   .assistant (.str (py "done"))]

/-- With room for four messages the four appends stay valid throughout. -/
theorem cap_four_keeps_oneToolCall_valid :
    toolView.WellPaired (afterAppends none oneToolCall).messages ∧
      ∀ k ≤ oneToolCall.length, HistoryValid (afterAppends (some 4) (oneToolCall.take k)) := by
  have hw : toolView.WellPaired (afterAppends none oneToolCall).messages := by decide
  refine ⟨hw, (cap_keeps_history_valid_iff (some 4) oneToolCall hw).mpr ?_⟩
  intro pre op post hops _
  have hlen := congrArg List.length hops
  simp only [List.length_append, List.length_cons] at hlen ⊢
  have : oneToolCall.length = 4 := rfl
  omega

/-- With room for two, the closing answer pushes the `tool_use` out and leaves
    its result behind. -/
theorem cap_two_orphans_tool_result :
    toolView.WellPaired (afterAppends none oneToolCall).messages ∧
      ¬ HistoryValid (afterAppends (some 2) oneToolCall) := by
  refine ⟨by decide, ?_⟩
  intro hvalid
  have h := hvalid [] (toolResultMessage (py "t1") (py "a.py") false)
    [assistantMessage (.str (py "done"))] (by decide) (.str (py "t1")) (by decide)
  simp at h

end Conversation
end KineticSdk
