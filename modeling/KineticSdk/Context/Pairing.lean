/-
  KineticSdk.Context.Pairing

  Compaction keeps tool calls and their results together.

  Cutting texts rewrites messages in place and never touches what pairs them.
  Eliding a span leaves a head without tool blocks, one plain message and a
  suffix whose results all have their calls inside it, which is what
  `_expand_to_group_boundary` walks back for.
-/

import Mathlib.Data.List.Flatten
import Mathlib.Tactic.NormNum
import KineticSdk.Context.Manager

namespace KineticSdk
namespace Context

open Py Conversation
open Lib (TurnView Turn)
open Lib.TurnView

-- ============================================================================
-- Cutting texts
-- ============================================================================

/-- The keys that pair a block: everything but the two a cut rewrites. -/
def PairingKey (key : PyStr) : Prop := key ≠ py "content" ∧ key ≠ py "_compaction"

theorem get?_replaceText {key : PyStr} (hk : PairingKey key) (block : Dict) (text cut : PyStr) :
    Dict.get? (replaceText block text cut) key = Dict.get? block key := by
  unfold replaceText
  rw [Dict.get?_set_of_ne _ _ hk.2.symm, Dict.get?_set_of_ne _ _ hk.1.symm]

theorem blockId_truncateBlock (cfg : TruncateConfig) (limit : Nat) (type : PyStr) {key : PyStr}
    (hk : PairingKey key) (b : Json) :
    blockId type key (cfg.truncateBlock limit b) = blockId type key b := by
  have htype : PairingKey (py "type") := by unfold PairingKey; decide
  cases b with
  | obj block =>
      unfold TruncateConfig.truncateBlock
      dsimp only
      split
      · split
        · rfl
        · simp only [blockId, get?_replaceText htype, get?_replaceText hk]
      · rfl
  | _ => rfl

theorem pairingKey_id : PairingKey (py "id") := by unfold PairingKey; decide

theorem pairingKey_toolUseId : PairingKey (py "tool_use_id") := by unfold PairingKey; decide

theorem contentBlocks_set (msg : Message) (blocks : List Json) :
    contentBlocks (Dict.set msg (py "content") (.arr blocks)) = blocks := by
  simp only [contentBlocks, Dict.get?_set_self]

/-- New blocks with the old ids leave a message what it is to the pairing. -/
theorem same_of_blocks (msg : Message) (blocks : List Json)
    (h : ∀ type key, PairingKey key →
      blocks.filterMap (blockId type key) = (contentBlocks msg).filterMap (blockId type key)) :
    toolView.Same msg (Dict.set msg (py "content") (.arr blocks)) := by
  refine ⟨?_, ?_, ?_⟩
  · have hrole : py "content" ≠ py "role" := by decide
    show isAssistant _ = isAssistant _
    simp only [isAssistant, Dict.get?_set_of_ne _ _ hrole]
  · show messageToolUseIds _ = messageToolUseIds _
    simp only [messageToolUseIds, contentBlocks_set]
    exact h _ _ pairingKey_id
  · show messageToolResultIds _ = messageToolResultIds _
    simp only [messageToolResultIds, contentBlocks_set]
    exact h _ _ pairingKey_toolUseId

theorem same_truncateMessage (cfg : TruncateConfig) (limit : Nat) (msg : Message) :
    toolView.Same msg (cfg.truncateMessage limit msg) := by
  unfold TruncateConfig.truncateMessage
  split
  · apply same_of_blocks
    intro type key hk
    rw [List.filterMap_map]
    congr 1
    funext b
    exact blockId_truncateBlock cfg limit type hk b
  · exact Same.refl msg

theorem same_truncateOversized (cfg : TruncateConfig) (messages : List Message) :
    List.Forall₂ toolView.Same messages (cfg.truncateOversizedToolResults messages) := by
  unfold TruncateConfig.truncateOversizedToolResults
  split
  · exact same_refl messages
  · exact same_map (same_truncateMessage cfg _) messages

theorem filterMap_set {α β : Type _} {f : α → Option β} {g : α → α} (hg : ∀ x, f (g x) = f x)
    (xs : List α) (i : Nat) (d : α) :
    (xs.set i (g (xs.getD i d))).filterMap f = xs.filterMap f := by
  induction xs generalizing i with
  | nil => rfl
  | cons x xs ih =>
      cases i with
      | zero =>
          rw [List.getD_cons_zero, List.set_cons_zero, List.filterMap_cons, List.filterMap_cons,
            hg]
      | succ i =>
          rw [List.getD_cons_succ, List.set_cons_succ, List.filterMap_cons, List.filterMap_cons,
            ih]

/-- One round of the reduction loop cuts one block of one message. -/
theorem same_setBlock (cfg : TruncateConfig) (limit bi : Nat) (msg : Message) :
    toolView.Same msg
      (setBlock msg bi (cfg.truncateBlock limit ((contentBlocks msg).getD bi .null))) := by
  apply same_of_blocks
  intro type key hk
  exact filterMap_set (blockId_truncateBlock cfg limit type hk) _ _ _

theorem same_reduceLoop (cfg : TruncateConfig) (allowed : Int) (texts : List (Nat × Nat × PyStr))
    (remaining : Int) (out : List Message) :
    List.Forall₂ toolView.Same out (cfg.reduceLoop allowed texts remaining out) := by
  induction texts generalizing remaining out with
  | nil => exact same_refl out
  | cons entry texts ih =>
      obtain ⟨mi, bi, text⟩ := entry
      unfold TruncateConfig.reduceLoop
      dsimp only
      split
      · exact same_refl out
      · split
        · exact ih _ _
        · exact same_trans (same_set (same_setBlock cfg _ bi) out mi []) (ih _ _)

theorem same_compactToolOutput (cfg : TruncateConfig) (b : ContextBudget) (limit : Int)
    (messages : List Message) :
    List.Forall₂ toolView.Same messages (cfg.compactToolOutputToBudget b limit messages) := by
  unfold TruncateConfig.compactToolOutputToBudget
  dsimp only
  split
  · exact same_refl messages
  · exact same_reduceLoop cfg _ _ _ messages

-- ============================================================================
-- The tail
-- ============================================================================

/-- Every result in `tail` has its call in `tail`. -/
def SelfContained (tail : List Message) : Prop :=
  ∀ i ∈ tail.flatMap messageToolResultIds, i ∈ tail.flatMap messageToolUseIds

theorem drop_getD_cons {α : Type _} {xs : List α} {n : Nat} (d : α) (h : n < xs.length) :
    xs.drop n = xs.getD n d :: xs.drop (n + 1) := by
  rw [List.drop_eq_getElem_cons h, List.getD_eq_getElem?_getD, List.getElem?_eq_getElem h,
    Option.getD_some]

/-- The loop keeps the two id sets of the tail and stops at a self-contained
    tail or at the whole history. -/
theorem expandLoop_spec (messages : List Message) (start : Nat) (needed provided : List Json)
    (hstart : start ≤ messages.length)
    (hneeded : needed = (messages.drop start).flatMap messageToolResultIds)
    (hprovided : provided = (messages.drop start).flatMap messageToolUseIds) :
    expandLoop messages start needed provided = 0 ∨
      SelfContained (messages.drop (expandLoop messages start needed provided)) := by
  induction start generalizing needed provided with
  | zero => exact Or.inl rfl
  | succ start ih =>
      unfold expandLoop
      split
      case isTrue h =>
        right
        intro i hi
        rw [← hneeded] at hi
        rw [← hprovided]
        have := List.all_eq_true.mp h i hi
        simpa using this
      case isFalse h =>
        have hcons := drop_getD_cons (n := start) [] (show start < messages.length by omega)
        apply ih
        · omega
        · rw [hcons, List.flatMap_cons, hneeded]
        · rw [hcons, List.flatMap_cons, hprovided]

theorem expandToGroupBoundary_spec (messages : List Message) (start : Nat)
    (hstart : start ≤ messages.length) :
    expandToGroupBoundary messages start = 0 ∨
      SelfContained (messages.drop (expandToGroupBoundary messages start)) :=
  expandLoop_spec messages start _ _ hstart rfl rfl

theorem tailStart_spec (cfg : TruncateConfig) (contextLimit : Option Int)
    (messages : List Message) :
    cfg.tailStart contextLimit messages = 0 ∨
      SelfContained (messages.drop (cfg.tailStart contextLimit messages)) := by
  unfold TruncateConfig.tailStart
  split
  · right
    intro i hi
    simp at hi
  · apply expandToGroupBoundary_spec
    omega

-- ============================================================================
-- The decisions
-- ============================================================================

/-- A cut keeps no tool block in front of the gap and a self-contained tail
    behind it. -/
structure GoodCut (messages : List Message) (headEnd tailStart : Nat) : Prop where
  lt : headEnd < tailStart
  head : ∀ m ∈ messages.take headEnd, messageHasToolContent m = false
  tail : SelfContained (messages.drop tailStart)

theorem no_tool_content_of_headEnd (messages : List Message) (tailStart : Nat) :
    ∀ m ∈ messages.take (headEnd messages tailStart), messageHasToolContent m = false := by
  intro m hm
  unfold headEnd at hm
  split at hm
  case isTrue hhead =>
    cases messages with
    | nil => simp at hm
    | cons m₀ ms =>
        obtain rfl : m = m₀ := by simpa using hm
        simp only [Bool.and_eq_true, Bool.not_eq_true'] at hhead
        exact hhead.2
  case isFalse => simp at hm

theorem cutPlan_cases (cfg : TruncateConfig) (contextLimit : Option Int)
    (messages : List Message) :
    cfg.cutPlan contextLimit messages = .keep ∨
      ∃ h t, cfg.cutPlan contextLimit messages = .cut h t ∧ GoodCut messages h t := by
  unfold TruncateConfig.cutPlan
  dsimp only
  split
  · exact Or.inl rfl
  · split
    case isTrue => exact Or.inl rfl
    case isFalse hlt =>
      refine Or.inr ⟨_, _, rfl, by omega, no_tool_content_of_headEnd messages _, ?_⟩
      rcases tailStart_spec cfg contextLimit messages with h | h
      · omega
      · exact h

/-- What the three outcomes of `plan` guarantee. -/
theorem plan_cases (cfg : TruncateConfig) (contextLimit : Option Int) (messages : List Message) :
    (∃ ms, cfg.plan contextLimit messages = .reduced ms ∧
        List.Forall₂ toolView.Same messages ms) ∨
      cfg.plan contextLimit messages = .keep ∨
      ∃ h t, cfg.plan contextLimit messages = .cut h t ∧ GoodCut messages h t := by
  unfold TruncateConfig.plan
  split
  · dsimp only
    split
    · exact Or.inl ⟨_, rfl, same_compactToolOutput cfg _ _ messages⟩
    · exact Or.inr (cutPlan_cases cfg _ messages)
  · exact Or.inr (cutPlan_cases cfg _ messages)

-- ============================================================================
-- Compaction
-- ============================================================================

/-- A message that takes no part in the pairing. -/
def Plain (m : Message) : Prop := messageToolUseIds m = [] ∧ messageToolResultIds m = []

theorem plain_placeholder (removed : Nat) : Plain (placeholderMessage removed) := ⟨rfl, rfl⟩

theorem plain_summary (summary : PyStr) (removed : Nat) :
    Plain (SummarizingConfig.summaryMessage summary removed) := by
  unfold SummarizingConfig.summaryMessage
  split
  · exact plain_placeholder removed
  · exact ⟨rfl, rfl⟩

theorem plain_of_no_tool_content {m : Message} (h : messageHasToolContent m = false) :
    Plain m := by
  simpa [messageHasToolContent, Plain] using h

/-- The effect of a compaction on the pairing: the new history is well paired,
    its turns are old ones or empty ones, and it poses a part of the old
    requests. -/
structure Compacts (messages messages' : List Message) : Prop where
  wellPaired : toolView.WellPaired messages'
  turns : ∀ t ∈ toolView.turns messages', t ∈ toolView.turns messages ∨ t.answers = t.requests
  requests : (messages'.flatMap messageToolUseIds).Sublist (messages.flatMap messageToolUseIds)

theorem Compacts.rewrite {messages ms ms' : List Message} (h : Compacts messages ms)
    (hs : List.Forall₂ toolView.Same ms ms') : Compacts messages ms' := by
  refine ⟨h.wellPaired.congr hs, ?_, ?_⟩
  · intro t ht
    rw [Lib.TurnView.turns, scan_congr hs] at ht
    exact h.turns t ht
  · have hreq : ms'.flatMap messageToolUseIds = ms.flatMap messageToolUseIds := requests_congr hs
    rw [hreq]
    exact h.requests

theorem Compacts.refl {messages : List Message} (h : toolView.WellPaired messages) :
    Compacts messages messages :=
  ⟨h, fun _ ht => Or.inl ht, List.Sublist.refl _⟩

theorem wellPaired_of_plain {ms : List Message} (h : ∀ m ∈ ms, Plain m) :
    toolView.WellPaired ms ∧ ∀ t ∈ toolView.turns ms, t.answers = t.requests := by
  induction ms with
  | nil => exact ⟨WellPaired.nil, by simp⟩
  | cons m ms ih =>
      obtain ⟨hr, ha⟩ := h m (List.mem_cons_self ..)
      obtain ⟨hw, ht⟩ := ih fun x hx => h x (List.mem_cons_of_mem _ hx)
      refine ⟨WellPaired.append (a := [m]) (WellPaired.single hr ha) hw, ?_⟩
      intro t htm
      have happ := (scan_append (a := [m]) hw.lead_nil).2
      rw [show m :: ms = [m] ++ ms from rfl, happ] at htm
      rcases List.mem_append.mp htm with htm | htm
      · exact turns_single hr t htm
      · exact ht t htm

theorem requests_of_plain {ms : List Message} (h : ∀ m ∈ ms, Plain m) :
    ms.flatMap messageToolUseIds = [] :=
  List.flatMap_eq_nil_iff.mpr fun m hm => (h m hm).1

theorem Compacts.cut {messages : List Message} (hw : toolView.WellPaired messages)
    (hnd : (messages.flatMap messageToolUseIds).Nodup) {h t : Nat} (hcut : GoodCut messages h t)
    {elided : Message} (helided : Plain elided) :
    Compacts messages (messages.take h ++ elided :: messages.drop t) := by
  have hfront : ∀ m ∈ messages.take h ++ [elided], Plain m := by
    intro m hm
    rcases List.mem_append.mp hm with hm | hm
    · exact plain_of_no_tool_content (hcut.head m hm)
    · rwa [List.mem_singleton.mp hm]
  have htail : toolView.WellPaired (messages.drop t) := by
    apply WellPaired.suffix (a := messages.take t)
    · rwa [List.take_append_drop]
    · rwa [List.take_append_drop]
    · exact hcut.tail
  obtain ⟨hfw, hft⟩ := wellPaired_of_plain hfront
  rw [List.append_cons]
  refine ⟨hfw.append htail, ?_, ?_⟩
  · intro u hu
    rw [(scan_append htail.lead_nil).2] at hu
    rcases List.mem_append.mp hu with hu | hu
    · exact Or.inr (hft u hu)
    · left
      rw [← List.take_append_drop t messages]
      exact turns_subset_append _ _ u hu
  · rw [List.flatMap_append, requests_of_plain hfront, List.nil_append]
    exact (List.drop_sublist t messages).flatMap _

theorem compacts_compactMessages (cfg : TruncateConfig) (contextLimit : Option Int)
    {elidedMessage : List Message → Nat → Message}
    (helided : ∀ span removed, Plain (elidedMessage span removed)) {messages : List Message}
    (hw : toolView.WellPaired messages) (hnd : (messages.flatMap messageToolUseIds).Nodup) :
    Compacts messages (cfg.compactMessages contextLimit elidedMessage messages) := by
  unfold TruncateConfig.compactMessages
  obtain ⟨ms, hplan, hs⟩ | hplan | ⟨h, t, hplan, hcut⟩ := plan_cases cfg contextLimit messages
  · rw [hplan]
    exact (Compacts.refl hw).rewrite hs
  · rw [hplan]
    exact (Compacts.refl hw).rewrite (same_truncateOversized cfg messages)
  · rw [hplan]
    exact (Compacts.cut hw hnd hcut (helided _ _)).rewrite (same_truncateOversized cfg _)

theorem compacts_truncate (cfg : TruncateConfig) (contextLimit : Option Int)
    {s : ConversationState} (hw : toolView.WellPaired s.messages)
    (hnd : (s.messages.flatMap messageToolUseIds).Nodup) :
    Compacts s.messages (cfg.compact contextLimit s).messages :=
  compacts_compactMessages cfg contextLimit (fun _ removed => plain_placeholder removed) hw hnd

theorem compacts_summarizing (cfg : SummarizingConfig) (contextLimit : Option Int)
    {s : ConversationState} (hw : toolView.WellPaired s.messages)
    (hnd : (s.messages.flatMap messageToolUseIds).Nodup) :
    Compacts s.messages (cfg.compact contextLimit s).messages := by
  have hplain : ∀ span removed, Plain (cfg.elidedMessage s span removed) :=
    fun _ removed => plain_summary _ removed
  exact compacts_compactMessages cfg.toTruncateConfig contextLimit hplain hw hnd

/-- Whatever context manager an agent is given, compaction keeps the pairing. -/
theorem compacts_contextManager (cm : ContextManager) (contextLimit : Option Int)
    {s : ConversationState} (hw : toolView.WellPaired s.messages)
    (hnd : (s.messages.flatMap messageToolUseIds).Nodup) :
    Compacts s.messages (cm.compact contextLimit s).messages := by
  cases cm with
  | noop => exact Compacts.refl hw
  | truncate cfg => exact compacts_truncate cfg contextLimit hw hnd
  | summarizing cfg => exact compacts_summarizing cfg contextLimit hw hnd

-- ============================================================================
-- Served requests
-- ============================================================================

/-- A cut does not separate a request from its answer. -/
theorem served_cut {messages : List Message} (hs : toolView.Served messages) {h t : Nat}
    (hcut : GoodCut messages h t) {elided : Message} (helided : Plain elided) :
    toolView.Served (messages.take h ++ elided :: messages.drop t) := by
  have hfront : ∀ m ∈ messages.take h ++ [elided], messageToolUseIds m = [] := by
    intro m hm
    rcases List.mem_append.mp hm with hm | hm
    · exact (plain_of_no_tool_content (hcut.head m hm)).1
    · rw [List.mem_singleton.mp hm]
      exact helided.1
  have htail : toolView.Served (messages.drop t) := by
    rw [← List.take_append_drop t messages] at hs
    exact hs.suffix
  rw [List.append_cons]
  exact Served.append (served_of_no_requests hfront) htail

theorem served_compactMessages (cfg : TruncateConfig) (contextLimit : Option Int)
    {elidedMessage : List Message → Nat → Message}
    (helided : ∀ span removed, Plain (elidedMessage span removed)) {messages : List Message}
    (hs : toolView.Served messages) :
    toolView.Served (cfg.compactMessages contextLimit elidedMessage messages) := by
  unfold TruncateConfig.compactMessages
  obtain ⟨ms, hplan, hsame⟩ | hplan | ⟨h, t, hplan, hcut⟩ := plan_cases cfg contextLimit messages
  · rw [hplan]
    exact hs.congr hsame
  · rw [hplan]
    exact hs.congr (same_truncateOversized cfg messages)
  · rw [hplan]
    exact (served_cut hs hcut (helided _ _)).congr (same_truncateOversized cfg _)

/-- Whatever context manager an agent is given, compaction separates no request
    from its answer, in any history. -/
theorem served_contextManager (cm : ContextManager) (contextLimit : Option Int)
    {s : ConversationState} (hs : toolView.Served s.messages) :
    toolView.Served (cm.compact contextLimit s).messages := by
  cases cm with
  | noop => exact hs
  | truncate cfg =>
      exact served_compactMessages cfg contextLimit (fun _ removed => plain_placeholder removed) hs
  | summarizing cfg =>
      have hplain : ∀ span removed, Plain (cfg.elidedMessage s span removed) :=
        fun _ removed => plain_summary _ removed
      exact served_compactMessages cfg.toTruncateConfig contextLimit hplain hs

-- ============================================================================
-- Whatever the manager
-- ============================================================================

/-- Compacting a well-paired history with distinct call ids, under any
    configuration and any behaviour of the summarizer, gives a well-paired
    history: every kept result comes after its call and every kept call is
    answered before the next turn. -/
theorem compact_keeps_pairing (contextLimit : Option Int) (s : ConversationState)
    (hw : toolView.WellPaired s.messages)
    (hnd : (s.messages.flatMap messageToolUseIds).Nodup) :
    (∀ cfg : TruncateConfig, toolView.WellPaired (cfg.compact contextLimit s).messages) ∧
      ∀ cfg : SummarizingConfig, toolView.WellPaired (cfg.compact contextLimit s).messages :=
  ⟨fun cfg => (compacts_truncate cfg contextLimit hw hnd).wellPaired,
    fun cfg => (compacts_summarizing cfg contextLimit hw hnd).wellPaired⟩

/-- Some talk, two parallel calls, then one more. -/
def threeCalls : ConversationState where
  messages :=
    [userMessage (py "hello"),
     assistantMessage (.str (py "hi")),
     userMessage (py "go"),
     assistantMessage (.arr [.obj [(py "type", .str (py "tool_use")), (py "id", .str (py "a"))],
       .obj [(py "type", .str (py "tool_use")), (py "id", .str (py "b"))]]),
     toolResultMessage (py "a") (py "1") false,
     toolResultMessage (py "b") (py "2") true,
     assistantMessage (.arr [.obj [(py "type", .str (py "tool_use")), (py "id", .str (py "c"))]]),
     toolResultMessage (py "c") (py "3") false]

/-- `SimpleTruncateContextManager(keep_last_tool_results=2)`. -/
def keepTwo : TruncateConfig where
  keepLastToolResults := 2
  safetyThreshold := 4 / 5
  charsPerToken := 4
  tokenCounter := none
  maxToolResultChars := none
  budget := none
  toolOutputCompressor := none
  tailTokenBudget := none
  threshold_range := by norm_num
  chars_pos := by omega
  max_chars_ge := no_max_chars
  tail_range := no_tail_budget

/-- The anchor falls between the two parallel results; the cut is moved back
    in front of the turn that asked for them, and the talk is elided. -/
theorem compact_threeCalls_keeps_pairing :
    (keepTwo.compact none threeCalls).messages
        = threeCalls.messages.take 1 ++ placeholderMessage 2 :: threeCalls.messages.drop 3 ∧
      toolView.WellPaired (keepTwo.compact none threeCalls).messages :=
  ⟨by decide +kernel,
    (compact_keeps_pairing none threeCalls (by decide +kernel) (by decide +kernel)).1 keepTwo⟩

end Context
end KineticSdk
