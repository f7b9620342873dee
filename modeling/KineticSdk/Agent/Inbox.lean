/-
  KineticSdk.Agent.Inbox

  Messages that other threads hand to an agent (`send_message_while_running`).

  They wait in a queue, which the loop empties at one place: after the results
  of a batch are in the history and persisted.  So they are taken over once, in
  the order sent, and never into a batch.  A message that comes when no batch
  follows before the next request stays behind that request.

  The assertion `Mail` says how the queue, the trace and the history agree;
  every step of a run keeps it.
-/

import KineticSdk.Agent.Pairing

namespace KineticSdk
namespace Agent

open Py Tool Security Conversation Replay Context
open Lib (Wp Guarded)

variable {σ : Type}

-- ============================================================================
-- The queue
-- ============================================================================

/-- The queue: all messages ever put in, and those still waiting. -/
structure Inbox where
  accepted : List PyStr := []
  waiting : List PyStr := []
deriving DecidableEq

/-- `_inbox.put`. -/
def Inbox.put (q : Inbox) (text : PyStr) : Inbox := ⟨q.accepted ++ [text], q.waiting ++ [text]⟩

/-- `send_message_while_running`. -/
def sendMessageWhileRunning (text : PyStr) (q : Inbox) : Except PyExc Inbox :=
  if strip text = [] then .error ⟨py "ValueError", py "text must be a non-empty string"⟩
  else .ok (q.put text)

/-- Other threads send messages. -/
inductive Sends : Inbox → Inbox → Prop where
  | refl (q : Inbox) : Sends q q
  | send {q q₁ q₂ : Inbox} (text : PyStr) : Sends q q₁ →
      sendMessageWhileRunning text q₁ = .ok q₂ → Sends q q₂

/-- `get_nowait` until `queue.Empty`: the messages taken, while others arrive. -/
inductive Drains : Inbox → List PyStr → Inbox → Prop where
  | empty {q : Inbox} : q.waiting = [] → Drains q [] q
  | get {q q' : Inbox} {text : PyStr} {rest texts : List PyStr} : q.waiting = text :: rest →
      Drains { q with waiting := rest } texts q' → Drains q (text :: texts) q'
  | arrive {q q₁ q' : Inbox} {texts : List PyStr} : Sends q q₁ → Drains q₁ texts q' →
      Drains q texts q'

/-- What was sent is at the end of both lists. -/
theorem Sends.both {q q' : Inbox} (h : Sends q q') :
    ∃ new, q'.accepted = q.accepted ++ new ∧ q'.waiting = q.waiting ++ new := by
  induction h with
  | refl => exact ⟨[], by simp, by simp⟩
  | @send q₁ q₂ text _ hput ih =>
      obtain ⟨new, hacc, hwait⟩ := ih
      unfold sendMessageWhileRunning at hput
      split at hput
      · cases hput
      · have hq₂ : q₁.put text = q₂ := Except.ok.inj hput
        subst hq₂
        exact ⟨new ++ [text], by simp [Inbox.put, hacc], by simp [Inbox.put, hwait]⟩

theorem Sends.trans {q q' q'' : Inbox} (h : Sends q q') (h' : Sends q' q'') : Sends q q'' := by
  induction h' with
  | refl => exact h
  | send text _ hput ih => exact ih.send text hput

/-- A drain takes what was waiting and what arrived meanwhile, in order. -/
theorem Drains.all {q q' : Inbox} {texts : List PyStr} (h : Drains q texts q') :
    ∃ new, texts = q.waiting ++ new ∧ q'.accepted = q.accepted ++ new ∧ q'.waiting = [] := by
  induction h with
  | empty hwait => exact ⟨[], by simp [hwait], by simp, hwait⟩
  | get hwait _ ih =>
      obtain ⟨new, htexts, hacc, hnone⟩ := ih
      exact ⟨new, by simp [hwait, htexts], hacc, hnone⟩
  | arrive hsends _ ih =>
      obtain ⟨sent, hacc₁, hwait₁⟩ := hsends.both
      obtain ⟨new, htexts, hacc, hnone⟩ := ih
      exact ⟨sent ++ new, by simp [htexts, hwait₁], by simp [hacc, hacc₁], hnone⟩

/-- The world holds the queue of the agent: other threads may send whenever a
    component is asked, and only the loop takes messages out. -/
structure Mailed (env : LoopEnv σ) (inboxOf : σ → Inbox) : Prop where
  moves : env.Moves fun w w' => Sends (inboxOf w) (inboxOf w')
  accepted : ∀ w, env.accepted w = (inboxOf w).accepted
  inbox : ∀ w, Drains (inboxOf w) (env.inbox w).1 (inboxOf (env.inbox w).2)

-- ============================================================================
-- Messages in a trace
-- ============================================================================

/-- The messages taken over. -/
def injectedTexts (t : List Action) : List PyStr :=
  t.filterMap fun
    | .injected text => some text
    | _ => none

/-- The messages accepted when the current pass started. -/
def passStart (t : List Action) : Option (List PyStr) :=
  t.reverse.findSome? fun
    | .accepted texts => some texts
    | _ => none

/-- The messages accepted by the end of the last drain. -/
def lastDrained (t : List Action) : List PyStr :=
  (t.reverse.findSome? fun
    | .drained texts => some texts
    | _ => none).getD []

/-- The history ends with a turn and the results of all its calls. -/
def EndsInBatch (env : Env σ) (c : ConversationState) : Prop :=
  ∃ (front : ConversationState) (response : LLMResponse) (rs : List (ToolCall × ToolResult)),
    response.toolCalls ≠ [] ∧ rs.map Prod.fst = response.toolCalls ∧
      c = answered env (front.addAssistant (assistantContent response)) rs

/-- Messages are taken over after a whole batch, one behind the other. -/
def Placed (env : Env σ) (pre : List Action) : Action → Prop
  | .injected _ => ∃ (front : List Action) (c : ConversationState) (texts : List PyStr),
      pre = front ++ .persisted c :: texts.map Action.injected ∧ EndsInBatch env c
  | _ => True

/-- A request finds every message taken over that was accepted before its pass
    began. -/
def Requested (pre : List Action) : Action → Prop
  | .llmCall _ => ∀ texts ∈ passStart pre, texts <+: injectedTexts pre
  | _ => True

/-- No message was accepted between the last drain and the pass of a request. -/
def SentInTime (pre : List Action) : Action → Prop
  | .llmCall _ => ∀ texts ∈ passStart pre, texts <+: lastDrained pre
  | _ => True

instance (pre : List Action) : (a : Action) → Decidable (Requested pre a)
  | .llmCall _ => inferInstanceAs (Decidable (∀ texts ∈ passStart pre, texts <+: injectedTexts pre))
  | .checked .. | .audited .. | .confirmed .. | .declined .. | .approved .. | .executed ..
  | .persisted _ | .summarized _ | .proposed _ | .verdict .. | .stopped _ | .budgetExceeded _
  | .classified .. | .accepted _ | .injected _ | .drained _ | .turnStarted .. | .escalated
  | .structuredRetry => isTrue trivial

instance (pre : List Action) : (a : Action) → Decidable (SentInTime pre a)
  | .llmCall _ => inferInstanceAs (Decidable (∀ texts ∈ passStart pre, texts <+: lastDrained pre))
  | .checked .. | .audited .. | .confirmed .. | .declined .. | .approved .. | .executed ..
  | .persisted _ | .summarized _ | .proposed _ | .verdict .. | .stopped _ | .budgetExceeded _
  | .classified .. | .accepted _ | .injected _ | .drained _ | .turnStarted .. | .escalated
  | .structuredRetry => isTrue trivial

/-- A request has the messages taken over in its history, in order. -/
def InHistory (pre : List Action) : Action → Prop
  | .llmCall messages => ((injectedTexts pre).map userMessage).Sublist messages
  | _ => True

/-- At a request everything drained has been taken over, and nothing else. -/
def TakenOver (pre : List Action) : Action → Prop
  | .llmCall _ => injectedTexts pre = lastDrained pre
  | _ => True

/-- The action neither hands over messages nor asks the model. -/
def Apart : Action → Prop
  | .injected _ | .drained _ | .llmCall _ => False
  | _ => True

section Trace

variable {env : Env σ} {t bs : List Action}

theorem injectedTexts_append (t bs : List Action) :
    injectedTexts (t ++ bs) = injectedTexts t ++ injectedTexts bs := List.filterMap_append

theorem injectedTexts_of_apart (hb : ∀ b ∈ bs, Apart b) : injectedTexts bs = [] := by
  refine List.filterMap_eq_nil_iff.mpr fun b hin => ?_
  have hplain := hb b hin
  cases b <;> first | exact hplain.elim | rfl

theorem injectedTexts_map (texts : List PyStr) :
    injectedTexts (texts.map Action.injected) = texts := by
  unfold injectedTexts
  rw [List.filterMap_map]
  exact List.filterMap_some

theorem lastDrained_append_of_apart (t : List Action) (hb : ∀ b ∈ bs, Apart b) :
    lastDrained (t ++ bs) = lastDrained t := by
  unfold lastDrained
  rw [List.reverse_append, List.findSome?_append]
  have hnone : bs.reverse.findSome? (fun
      | .drained texts => some texts
      | _ => none : Action → Option (List PyStr)) = none := by
    refine List.findSome?_eq_none_iff.mpr fun b hin => ?_
    have hplain := hb b (List.mem_reverse.mp hin)
    cases b <;> first | exact hplain.elim | rfl
  rw [hnone]
  rfl

theorem lastDrained_snoc (t : List Action) (texts : List PyStr) :
    lastDrained (t ++ [.drained texts]) = texts := by
  unfold lastDrained
  rw [List.reverse_append]
  rfl

theorem apart_of_acts {calls : List ToolCall} (h : Acts env calls bs) : ∀ b ∈ bs, Apart b := by
  intro b hb
  have hcall := callNote_of_acts h b hb
  cases b <;> first | exact hcall.elim | trivial

/-- Actions apart from messages are allowed by any guard about messages. -/
theorem guarded_of_apart {G : List Action → Action → Prop} (hG : ∀ pre b, Apart b → G pre b)
    (hb : ∀ b ∈ bs, Apart b) : Guarded G bs :=
  Guarded.of_forall fun b hin pre => hG pre b (hb b hin)

theorem takenOver_of_apart (pre : List Action) (b : Action) (hb : Apart b) : TakenOver pre b := by
  cases b <;> first | exact hb.elim | trivial

theorem placed_of_apart (pre : List Action) (b : Action) (hb : Apart b) : Placed env pre b := by
  cases b <;> first | exact hb.elim | trivial

theorem inHistory_of_apart (pre : List Action) (b : Action) (hb : Apart b) : InHistory pre b := by
  cases b <;> first | exact hb.elim | trivial

end Trace

-- ============================================================================
-- Histories that only grow
-- ============================================================================

/-- Without a cap nothing is dropped. -/
def Lengthens (c c' : ConversationState) : Prop :=
  c.maxMessages = none → c'.maxMessages = none ∧ c.messages.Sublist c'.messages

theorem Lengthens.refl (c : ConversationState) : Lengthens c c :=
  fun h => ⟨h, List.Sublist.refl _⟩

theorem Lengthens.trans {c c' c'' : ConversationState} (h : Lengthens c c')
    (h' : Lengthens c' c'') : Lengthens c c'' := by
  intro huncapped
  obtain ⟨h₁, hsub⟩ := h huncapped
  obtain ⟨h₂, hsub'⟩ := h' h₁
  exact ⟨h₂, hsub.trans hsub'⟩

theorem lengthens_append (c : ConversationState) (msg : Message) : Lengthens c (c.append msg) := by
  intro h
  rw [ConversationState.append_uncapped h]
  exact ⟨h, List.sublist_append_left ..⟩

theorem Grown.lengthens {c c' : ConversationState} (h : Grown c c') : Lengthens c c' := by
  obtain ⟨msgs, rfl⟩ := h
  induction msgs generalizing c with
  | nil => exact .refl c
  | cons msg msgs ih => exact (lengthens_append c msg).trans ih

theorem lengthens_answered (env : Env σ) (c : ConversationState)
    (rs : List (ToolCall × ToolResult)) : Lengthens c (answered env c rs) := by
  intro h
  obtain ⟨huncapped, hmessages⟩ := answered_uncapped env h rs
  rw [hmessages]
  exact ⟨huncapped, List.sublist_append_left ..⟩

/-- Without a cap the messages taken over come at the end. -/
theorem messages_addUserMessages (texts : List PyStr) {c : ConversationState}
    (h : c.maxMessages = none) :
    (texts.foldl ConversationState.addUserMessage c).maxMessages = none ∧
      (texts.foldl ConversationState.addUserMessage c).messages
        = c.messages ++ texts.map userMessage := by
  induction texts generalizing c with
  | nil => exact ⟨h, by simp⟩
  | cons text texts ih =>
      have hadd : c.addUserMessage text
          = { c with messages := c.messages ++ [userMessage text] } :=
        ConversationState.append_uncapped h _
      obtain ⟨huncapped, hmessages⟩ := ih (c := c.addUserMessage text) (by rw [hadd]; exact h)
      rw [List.foldl_cons]
      exact ⟨huncapped, by rw [hmessages, hadd]; simp⟩

-- ============================================================================
-- The invariant
-- ============================================================================

/-- Nothing removes messages: the history has no cap and is never compacted. -/
def Untrimmed (env : LoopEnv σ) (c : ConversationState) : Prop :=
  c.maxMessages = none ∧ ∀ w, (env.contextManager w).1 = .noop

/-- How queue, trace and history agree; `K` is what keeps the history whole. -/
structure Mail (env : LoopEnv σ) (inboxOf : σ → Inbox) (K : Prop) (s : AgentState σ) : Prop where
  queue : (inboxOf s.world).accepted = injectedTexts s.trace ++ (inboxOf s.world).waiting
  drained : injectedTexts s.trace = lastDrained s.trace
  settled : Guarded TakenOver s.trace
  placed : Guarded (Placed env.toEnv) s.trace
  uncapped : K → s.conv.maxMessages = none
  kept : K → ((injectedTexts s.trace).map userMessage).Sublist s.conv.messages
  inHistory : K → Guarded InHistory s.trace

section Invariant

variable {env : LoopEnv σ} {inboxOf : σ → Inbox} {K : Prop} {s s' : AgentState σ}
  {bs : List Action}

/-- A step that notes nothing about messages and drops none. -/
theorem Mail.grow (h : Mail env inboxOf K s) (bs : List Action) (ht : s'.trace = s.trace ++ bs)
    (hb : ∀ b ∈ bs, Apart b) (hc : K → Lengthens s.conv s'.conv)
    (hw : Sends (inboxOf s.world) (inboxOf s'.world)) : Mail env inboxOf K s' := by
  have hinjected : injectedTexts s'.trace = injectedTexts s.trace := by
    rw [ht, injectedTexts_append, injectedTexts_of_apart hb, List.append_nil]
  refine ⟨?_, ?_, ?_, ?_, ?_, ?_, ?_⟩
  · obtain ⟨new, hacc, hwait⟩ := hw.both
    rw [hinjected, hacc, hwait, h.queue, List.append_assoc]
  · rw [hinjected, ht, lastDrained_append_of_apart s.trace hb, h.drained]
  · rw [ht]
    exact h.settled.append (guarded_of_apart (fun _ => takenOver_of_apart _) hb)
  · rw [ht]
    exact h.placed.append (guarded_of_apart (fun _ => placed_of_apart _) hb)
  · exact fun hK => (hc hK (h.uncapped hK)).1
  · intro hK
    rw [hinjected]
    exact (h.kept hK).trans (hc hK (h.uncapped hK)).2
  · intro hK
    rw [ht]
    exact (h.inHistory hK).append (guarded_of_apart (fun _ => inHistory_of_apart _) hb)

theorem Mail.note (h : Mail env inboxOf K s) {a : Action} (ha : Apart a) :
    Mail env inboxOf K (noted a s) :=
  h.grow [a] rfl (by simpa using ha) (fun _ => .refl _) (.refl _)

theorem Mail.quiet (h : Mail env inboxOf K s) (ha : Adds [] s s')
    (hw : Sends (inboxOf s.world) (inboxOf s'.world)) : Mail env inboxOf K s' :=
  h.grow [] ha.trace (by simp) (fun _ => ha.conv ▸ .refl _) hw

/-- A message of the user is appended. -/
theorem Mail.user (h : Mail env inboxOf K s) (text : PyStr) :
    Mail env inboxOf K { s with conv := s.conv.addUserMessage text } :=
  h.grow [] (by simp) (by simp) (fun _ => lengthens_append _ _) (.refl _)

/-- A request finds the inbox settled. -/
theorem Mail.asked (h : Mail env inboxOf K s) :
    Mail env inboxOf K (noted (.llmCall s.conv.messages) s) := by
  have hinjected : injectedTexts (noted (.llmCall s.conv.messages) s).trace
      = injectedTexts s.trace := by
    show injectedTexts (s.trace ++ _) = _
    rw [injectedTexts_append]
    exact List.append_nil _
  have hlast : lastDrained (noted (.llmCall s.conv.messages) s).trace = lastDrained s.trace := by
    show lastDrained (s.trace ++ _) = _
    unfold lastDrained
    rw [List.reverse_append]
    rfl
  refine ⟨?_, ?_, ?_, ?_, h.uncapped, ?_, ?_⟩
  · rw [hinjected]
    exact h.queue
  · rw [hinjected, hlast]
    exact h.drained
  · exact Guarded.snoc_iff.mpr ⟨h.settled, h.drained⟩
  · exact Guarded.snoc_iff.mpr ⟨h.placed, trivial⟩
  · intro hK
    rw [hinjected]
    exact h.kept hK
  · exact fun hK => Guarded.snoc_iff.mpr ⟨h.inHistory hK, h.kept hK⟩

/-- Only a manager that does nothing keeps the history whole. -/
theorem Mail.compact (h : Mail env inboxOf K s) (hK : K → ∀ w, (env.contextManager w).1 = .noop)
    {manager : ContextManager} (limit : Int) (hmanager : ∃ w, (env.contextManager w).1 = manager) :
    Mail env inboxOf K (compacted manager limit s) := by
  refine h.grow _ rfl ?_ ?_ (.refl _)
  · intro a ha
    obtain ⟨found, -, rfl⟩ := List.mem_map.mp ha
    trivial
  · intro hkept
    obtain ⟨w, rfl⟩ := hmanager
    show Lengthens s.conv ((env.contextManager w).1.compact (some limit) s.conv)
    rw [hK hkept w]
    exact .refl _

/-- The messages of a drain come right behind a persisted batch. -/
theorem placed_map (texts : List PyStr) (front : List Action) {c : ConversationState}
    (hc : EndsInBatch env.toEnv c) :
    Guarded (fun pre a => Placed env.toEnv (front ++ .persisted c :: pre) a)
      (texts.map Action.injected) := by
  intro pre a post hsplit
  obtain ⟨before, rest, rfl, hpre, hrest⟩ := List.map_eq_append_iff.mp hsplit
  obtain ⟨text, after, rfl, rfl, -⟩ := List.map_eq_cons_iff.mp hrest
  exact ⟨front, c, before, by rw [hpre], hc⟩

/-- The inbox is emptied behind a batch. -/
theorem Mail.drain (henv : Mailed env inboxOf) (h : Mail env inboxOf K s)
    (hdone : EndsInBatch env.toEnv s.conv) :
    Mail env inboxOf K (Agent.drained env (noted (.persisted s.conv) s)) := by
  obtain ⟨new, htexts, hacc, hnone⟩ := (henv.inbox s.world).all
  have htrace : (Agent.drained env (noted (.persisted s.conv) s)).trace
      = (s.trace ++ [.persisted s.conv]) ++ ((env.inbox s.world).1.map Action.injected
        ++ [.drained (env.accepted (env.inbox s.world).2)]) := rfl
  have hinjected : injectedTexts (Agent.drained env (noted (.persisted s.conv) s)).trace
      = injectedTexts s.trace ++ (env.inbox s.world).1 := by
    rw [htrace, injectedTexts_append, injectedTexts_append, injectedTexts_append,
      injectedTexts_map]
    simp [injectedTexts]
  have htaken : (inboxOf (env.inbox s.world).2).accepted
      = injectedTexts s.trace ++ (env.inbox s.world).1 := by
    rw [hacc, h.queue, htexts, List.append_assoc]
  refine ⟨?_, ?_, ?_, ?_, ?_, ?_, ?_⟩
  · show (inboxOf (env.inbox s.world).2).accepted = _ ++ (inboxOf (env.inbox s.world).2).waiting
    rw [hinjected, htaken, hnone, List.append_nil]
  · rw [hinjected, htrace, ← List.append_assoc, lastDrained_snoc, henv.accepted, htaken]
  · rw [htrace]
    refine Guarded.append (Guarded.snoc_iff.mpr ⟨h.settled, trivial⟩) ?_
    refine Guarded.of_forall fun a ha pre => ?_
    rcases List.mem_append.mp ha with ha | ha
    · obtain ⟨text, -, rfl⟩ := List.mem_map.mp ha
      trivial
    · obtain rfl := List.mem_singleton.mp ha
      trivial
  · rw [htrace]
    refine Guarded.append (Guarded.snoc_iff.mpr ⟨h.placed, trivial⟩) ?_
    refine Guarded.snoc_iff.mpr ⟨?_, trivial⟩
    refine (placed_map (env.inbox s.world).1 s.trace hdone).mono fun pre a hp => ?_
    rw [List.append_assoc]
    exact hp
  · exact fun hK => (messages_addUserMessages _ (h.uncapped hK)).1
  · intro hK
    show ((injectedTexts (Agent.drained env (noted (.persisted s.conv) s)).trace).map
      userMessage).Sublist ((env.inbox s.world).1.foldl ConversationState.addUserMessage
        s.conv).messages
    rw [hinjected, (messages_addUserMessages _ (h.uncapped hK)).2, List.map_append]
    exact (h.kept hK).append (List.Sublist.refl _)
  · intro hK
    rw [htrace]
    refine Guarded.append (Guarded.snoc_iff.mpr ⟨h.inHistory hK, trivial⟩) ?_
    refine Guarded.of_forall fun a ha pre => ?_
    rcases List.mem_append.mp ha with ha | ha
    · obtain ⟨text, -, rfl⟩ := List.mem_map.mp ha
      trivial
    · obtain rfl := List.mem_singleton.mp ha
      trivial

end Invariant

-- ============================================================================
-- Runs
-- ============================================================================

section Run

variable {env : LoopEnv σ} {inboxOf : σ → Inbox} {K : Prop} {s s' : AgentState σ}

theorem Mail.afterEscalation (h : Mail env inboxOf K s) (byError : Bool) (v : LoopVars) :
    Mail env inboxOf K (afterEscalation byError v s) := by
  unfold Agent.afterEscalation
  split
  · exact h.grow [.escalated] rfl (by simp [Apart]) (fun _ => .refl _) (.refl _)
  · exact h

/-- The loop keeps the agreement, and its batches are whole when they are persisted. -/
theorem loopRule_mail (henv : Mailed env inboxOf) (hK : K → ∀ w, (env.contextManager w).1 = .noop)
    (verify : Bool) (schema : Option Json) :
    LoopRule env (fun w w' => Sends (inboxOf w) (inboxOf w')) (fun _ _ => True) verify schema
      (fun _ => Mail env inboxOf K) (fun _ => Mail env inboxOf K)
      (fun _ s => Mail env inboxOf K s ∧ EndsInBatch env.toEnv s.conv)
      (fun _ => Mail env inboxOf K) (fun _ => Mail env inboxOf K) (Mail env inboxOf K) where
  quietHead := fun _ _ _ h ha hm => h.quiet ha hm.world
  quiet := fun _ _ _ h ha hm => h.quiet ha hm.world
  quietAnswer := fun _ _ _ h ha hm => h.quiet ha hm.world
  left := fun _ _ h => h
  exhausted := fun _ _ h _ => h.note trivial
  unverified := fun _ _ h _ => h
  cancelled := fun _ _ h => h.note trivial
  started := by
    intro v s h _
    have haccepted : Mail env inboxOf K (noted (.accepted (env.accepted s.world)) s) :=
      h.note trivial
    exact haccepted.note (a := .turnStarted v.iteration s.runtime.mode s.runtime.maxIterations)
      trivial
  compact := fun _ _ _ limit h hmanager => h.compact hK limit hmanager
  stop := fun _ _ _ h => h.note trivial
  outOfBudget := fun _ _ _ h => h.note trivial
  asked := fun _ _ h => h.asked
  answer := by
    intro v s response h _ _
    refine h.grow [.proposed response.content] rfl (by simp [Apart]) (fun _ => ?_) (.refl _)
    exact lengthens_append s.conv (assistantMessage (assistantContent response))
  retry := by
    intro v s text h _ _
    exact (h.user text).note (a := .structuredRetry) trivial
  unasked := fun _ _ h _ => h.note trivial
  accepted := by
    intro v s h _
    have hverdict : Mail env inboxOf K (noted (.verdict v.finalText true) s) := h.note trivial
    exact hverdict.note (a := .persisted s.conv) trivial
  rejected := fun _ _ h _ => h.note trivial
  corrected := by
    intro v s text feedback h _
    have hverdict : Mail env inboxOf K (noted (.verdict v.finalText false) s) := h.note trivial
    exact (hverdict.user text).afterEscalation true v
  tools := by
    intro v s s' response rs as h _ hcalls hrs hp hm
    refine ⟨h.grow as hp.trace (apart_of_acts hp.acts) (fun _ => ?_) hm.world, ?_⟩
    · rw [hp.conv]
      exact (lengthens_append s.conv _).trans (lengthens_answered env.toEnv _ rs)
    · exact ⟨s.conv, response, rs, hcalls, hrs, hp.conv⟩
  broken := by
    intro v s s' response as h _ _ hgrown ht hacts hm
    refine h.grow as ht (apart_of_acts hacts) (fun _ => ?_) hm.world
    exact (lengthens_append s.conv _).trans hgrown.lengthens
  stuck := by
    intro v s reason h
    have hpersisted : Mail env inboxOf K (noted (.persisted s.conv) s) := h.1.note trivial
    exact hpersisted.note (a := .stopped reason) trivial
  drain := fun _ _ h => h.1.drain henv h.2
  next := fun v _ byError h => h.afterEscalation byError v

theorem runRule_mail (henv : Mailed env inboxOf) (hK : K → ∀ w, (env.contextManager w).1 = .noop)
    (args : RunArgs) (resuming : Bool) :
    RunRule env (fun w w' => Sends (inboxOf w) (inboxOf w')) (fun _ _ => True) args resuming
      (Mail env inboxOf K) (Mail env inboxOf K) (Mail env inboxOf K)
      (fun _ => Mail env inboxOf K) (fun _ => Mail env inboxOf K)
      (fun _ s => Mail env inboxOf K s ∧ EndsInBatch env.toEnv s.conv)
      (fun _ => Mail env inboxOf K) (fun _ => Mail env inboxOf K) (Mail env inboxOf K) where
  quiet := fun _ _ h ha hm => h.quiet ha hm.world
  left := fun _ h => h
  failed := fun _ _ h ha hm => h.quiet ha hm.world
  user := fun _ text h => h.user text
  fresh := fun _ _ h => ⟨h.queue, h.drained, h.settled, h.placed, h.uncapped, h.kept, h.inHistory⟩
  quietFresh := fun _ _ h ha hm => h.quiet ha hm.world
  routed := fun s answer h =>
    h.grow [.classified answer s.runtime.stickyMax] rfl (by simp [Apart]) (fun _ => .refl _)
      (.refl _)
  resumed := fun _ _ h => h
  quietReady := fun _ _ h ha hm => h.quiet ha hm.world
  plan := fun _ _ h => h.grow [] (by simp [setPlan]) (by simp)
    (fun _ huncapped => ⟨huncapped, List.Sublist.refl _⟩) (.refl _)
  enter := fun _ h => h
  loop := loopRule_mail henv hK _ _

/-- A run keeps the agreement, however it ends. -/
theorem run_mail (henv : Mailed env inboxOf) (hK : K → ∀ w, (env.contextManager w).1 = .noop)
    (args : RunArgs) (h : Mail env inboxOf K s) :
    Mail env inboxOf K (stateAfter (run env args) s) := by
  apply Wp.stateAfter
  have hstart : Mail env inboxOf K { s with structuredOutput := .null } :=
    ⟨h.queue, h.drained, h.settled, h.placed, h.uncapped, h.kept, h.inHistory⟩
  apply ((runRule_mail henv hK args _).run henv.moves (responds_anything env) rfl hstart).mono
  · rintro _ s' ⟨text, s₁, -, h₁, ha, hw, -⟩
    exact h₁.quiet ha hw
  · exact fun _ _ h' => h'

end Run

-- ============================================================================
-- One run after the other
-- ============================================================================

/-- Runs one after the other, while other threads send messages during and
    between them. -/
inductive Attended (env : LoopEnv σ) (inboxOf : σ → Inbox) (s₀ : AgentState σ) :
    AgentState σ → Prop where
  | start : Attended env inboxOf s₀ s₀
  | run {s : AgentState σ} (args : RunArgs) : Attended env inboxOf s₀ s →
      Attended env inboxOf s₀ (stateAfter (Agent.run env args) s)
  | send {s : AgentState σ} (w : σ) : Attended env inboxOf s₀ s →
      Sends (inboxOf s.world) (inboxOf w) → Attended env inboxOf s₀ { s with world := w }

/-- The messages of a trace were delivered: once and in the order accepted,
    behind whole batches, in front of every request whose pass began after they
    were accepted, and into a history that nothing trims. -/
structure DeliveredIn (env : LoopEnv σ) (c₀ : ConversationState) (q : Inbox) (t : List Action) :
    Prop where
  inOrder : injectedTexts t <+: q.accepted
  placed : Guarded (Placed env.toEnv) t
  timely : Guarded Requested t
  inHistory : Untrimmed env c₀ → Guarded InHistory t

theorem attended_mail {env : LoopEnv σ} {inboxOf : σ → Inbox} (henv : Mailed env inboxOf)
    {s₀ s : AgentState σ} (htrace : s₀.trace = []) (hq : inboxOf s₀.world = {})
    (h : Attended env inboxOf s₀ s) : Mail env inboxOf (Untrimmed env s₀.conv) s := by
  induction h with
  | start =>
      refine ⟨?_, ?_, ?_, ?_, fun hK => hK.1, fun _ => ?_, fun _ => ?_⟩
      · rw [hq, htrace]
        rfl
      · rw [htrace]
        rfl
      · rw [htrace]
        exact .nil
      · rw [htrace]
        exact .nil
      · rw [htrace]
        exact List.nil_sublist _
      · rw [htrace]
        exact .nil
  | run args _ ih => exact run_mail henv (fun hK => hK.2) args ih
  | send w _ hsends ih => exact ih.grow [] (by simp) (by simp) (fun _ => .refl _) hsends

/-- In any sequence of runs the messages are delivered if and only if none was
    accepted between a drain and the next pass that asks the model. -/
theorem delivered_iff {env : LoopEnv σ} {inboxOf : σ → Inbox} (henv : Mailed env inboxOf)
    {s₀ s : AgentState σ} (htrace : s₀.trace = []) (hq : inboxOf s₀.world = {})
    (h : Attended env inboxOf s₀ s) :
    DeliveredIn env s₀.conv (inboxOf s.world) s.trace ↔ Guarded SentInTime s.trace := by
  have hmail := attended_mail henv htrace hq h
  -- at a request the messages drained are the messages taken over
  have hsame : ∀ pre a post, s.trace = pre ++ a :: post → (Requested pre a ↔ SentInTime pre a) := by
    intro pre a post hsplit
    have hsettled := hmail.settled pre a post hsplit
    cases a with
    | llmCall messages =>
        simp only [TakenOver] at hsettled
        simp only [Requested, SentInTime, hsettled]
    | _ => exact Iff.rfl
  constructor
  · intro hdelivered pre a post hsplit
    exact (hsame pre a post hsplit).mp (hdelivered.timely pre a post hsplit)
  · intro hsent
    refine ⟨?_, hmail.placed, ?_, hmail.inHistory⟩
    · rw [hmail.queue]
      exact List.prefix_append ..
    · intro pre a post hsplit
      exact (hsame pre a post hsplit).mpr (hsent pre a post hsplit)

-- ============================================================================
-- Two agents
-- ============================================================================

/-- An agent that lists files.  While the model works on an answer of the given
    kind, somebody sends a message. -/
def mailedAgent (answer : List Message → LLMResponse) (sent : LLMResponse → Bool) :
    LoopEnv Inbox where
  tools := [{ name := py "ls", parameters := .obj []
              execute := fun _ w => (.ok (.value (.str (py "a.py"))), w) }]
  permissionPolicy := fun _ _ w => (.ok ⟨true, py "ok", false⟩, w)
  idempotencyKey := fun _ _ _ => []
  digest := fun _ => []
  cancelRequested := fun w => (false, w)
  timedOut := fun _ w => (false, w)
  slotsReleased := fun w => (0, w)
  monotonic := fun w => (0, w)
  chat := fun _ messages w =>
    (.ok (answer messages), if sent (answer messages) then w.put (py "hurry") else w)
  chatStream := fun _ _ w => (.notImplemented, w)
  classifier := fun _ w => (some .flash, w)
  contextManager := fun w => (.noop, w)
  budgetStop := fun w => (none, w)
  recordUsage := fun _ w => ((), w)
  inbox := fun w => (w.waiting, { w with waiting := [] })
  accepted := Inbox.accepted
  newRunId := fun w => (py "run", w)
  parseStructured := fun _ => none

theorem drains_waiting (q : Inbox) : Drains q q.waiting { q with waiting := [] } := by
  obtain ⟨accepted, waiting⟩ := q
  induction waiting with
  | nil => exact .empty rfl
  | cons text rest ih => exact .get rfl ih

theorem mailedAgent_mailed (answer : List Message → LLMResponse) (sent : LLMResponse → Bool) :
    Mailed (mailedAgent answer sent) id := by
  have hstill : ∀ {α : Type} (a : α), ActMoves Sends fun w => (a, w) := fun _ w => .refl w
  refine ⟨⟨⟨.refl, fun _ _ _ => .trans, ?_, ?_, ?_, ?_, ?_, ?_, ?_⟩, ?_, ?_, ?_, ?_, ?_, ?_, ?_, ?_,
    ?_, ?_, ?_⟩, fun _ => rfl, drains_waiting⟩
  case refine_1 =>
    intro tool name htool kwargs
    obtain rfl : tool = _ := List.mem_singleton.mp (List.mem_of_find?_eq_some htool)
    exact hstill _
  case refine_8 =>
    intro system messages w
    show Sends w (if sent (answer messages) then w.put (py "hurry") else w)
    split
    · exact (Sends.refl w).send (py "hurry") (by rfl)
    · exact .refl w
  all_goals first
    | exact hstill _
    | exact fun _ => hstill _
    | exact fun _ _ => hstill _
    | (intro x hx; cases hx)

/-- A fresh agent and its empty inbox. -/
def emptyBox : AgentState Inbox where
  conv := {}
  runtime := {}
  runId := []
  world := {}

/-- The agent after a run whose only answer is final, with a message sent
    meanwhile, and one more run. -/
def askedAgain : AgentState Inbox :=
  stateAfter (run (mailedAgent (fun _ => { content := py "done" }) fun _ => true)
      { userMessage := some (py "more") })
    (stateAfter (run (mailedAgent (fun _ => { content := py "done" }) fun _ => true)
      { userMessage := some (py "go") }) emptyBox)

/-- The agent after a run with one tool turn, with a message sent during it. -/
def toldInTime : AgentState Inbox :=
  stateAfter (run (mailedAgent askForFiles fun r => !r.toolCalls.isEmpty)
    { userMessage := some (py "go") }) emptyBox

-- a statement about a run is never settled by evaluating it
attribute [local irreducible] run

/-- A message sent during the final answer is not in the next run's request. -/
theorem late_message_waits :
    Attended (mailedAgent (fun _ => { content := py "done" }) fun _ => true) id emptyBox askedAgain ∧
      ¬ DeliveredIn (mailedAgent (fun _ => { content := py "done" }) fun _ => true)
        emptyBox.conv askedAgain.world askedAgain.trace := by
  have hlate : ¬ Guarded Requested askedAgain.trace := by decide +kernel
  exact ⟨.run _ (.run _ .start), fun h => hlate h.timely⟩

/-- A message sent during a tool turn is delivered. -/
theorem message_in_round_delivered :
    DeliveredIn (mailedAgent askForFiles fun r => !r.toolCalls.isEmpty) emptyBox.conv
      toldInTime.world toldInTime.trace :=
  (delivered_iff (mailedAgent_mailed _ _) rfl rfl (.run _ .start)).mpr (by decide +kernel)

end Agent
end KineticSdk
