/-
  KineticSdk.Replay.Unmarked

  What a fork makes of a redacted snapshot.

  Every replacement of the redactor leaves its mark, and later patterns may
  overwrite a mark only with another one.  So a redacted value without a mark
  is the value that was redacted, and the redacted snapshots a fork accepts
  have the messages of the conversation.  From there: a file has only good
  snapshots if the recorders were only ever shown good conversations.
-/

import KineticSdk.Replay.Fork
import KineticSdk.Replay.RoundTrip
import KineticSdk.Security.Marked
import Mathlib.Data.List.Infix

namespace KineticSdk
namespace Replay

open Py Py.Regex Security Conversation

-- ============================================================================
-- Marks
-- ============================================================================

theorem marked_iff (s : PyStr) : s.tails.any (startsWith redacted) = true ↔ redacted <:+: s := by
  rw [List.any_eq_true, List.infix_iff_prefix_suffix]
  constructor
  · rintro ⟨t, ht, hstart⟩
    exact ⟨t, List.isPrefixOf_iff_prefix.mp hstart, List.mem_tails t s |>.mp ht⟩
  · rintro ⟨t, hstart, ht⟩
    exact ⟨t, (List.mem_tails t s).mpr ht, List.isPrefixOf_iff_prefix.mpr hstart⟩

mutual

/-- A redacted value without a mark is the value that was redacted. -/
theorem redactValue_unmarked : (v : Json) → containsRedaction (redactValue v) = false →
    redactValue v = v
  | .str s, h => by
      have hmark : ¬ redacted <:+: redactSecrets s := by
        rw [← marked_iff]
        simpa [redactValue, containsRedaction] using h
      rw [redactValue, redactSecrets_unmarked hmark]
  | .obj kvs, h => by
      rw [redactValue, containsRedaction] at h
      rw [redactValue, redactFields_unmarked kvs h]
  | .arr xs, h => by
      rw [redactValue, containsRedaction] at h
      rw [redactValue, redactList_unmarked xs h]
  | .null, _ => rfl
  | .bool _, _ => rfl
  | .int _, _ => rfl
  | .float _, _ => rfl

theorem redactFields_unmarked : (kvs : Dict) → containsRedactionFields (redactFields kvs) = false →
    redactFields kvs = kvs
  | [], _ => rfl
  | (k, v) :: kvs, h => by
      have hv := redactValue_unmarked v
      have hkvs := redactFields_unmarked kvs
      cases v with
      | str s =>
          rw [redactFields, containsRedactionFields, Bool.or_eq_false_iff] at h
          cases hk : sensitiveKey k with
          | true =>
              -- the whole value is the mark
              have hmark : containsRedaction (.str redacted) = true := by decide
              rw [hk, if_pos rfl, hmark] at h
              simp at h
          | false =>
              rw [hk, if_neg Bool.false_ne_true] at h
              have hs : Json.str (redactSecrets s) = .str s := by
                simpa [redactValue] using hv (by simpa [redactValue] using h.1)
              rw [redactFields, hk, if_neg Bool.false_ne_true, hs, hkvs h.2]
      | _ =>
          simp only [redactFields, containsRedactionFields, Bool.or_eq_false_iff] at h ⊢
          rw [hv h.1, hkvs h.2]

theorem redactList_unmarked : (xs : List Json) → containsRedactionList (redactList xs) = false →
    redactList xs = xs
  | [], _ => rfl
  | x :: xs, h => by
      rw [redactList, containsRedactionList, Bool.or_eq_false_iff] at h
      rw [redactList, redactValue_unmarked x h.1, redactList_unmarked xs h.2]

end

theorem containsRedactionFields_append (kvs kvs' : Dict) :
    containsRedactionFields (kvs ++ kvs')
      = (containsRedactionFields kvs || containsRedactionFields kvs') := by
  induction kvs with
  | nil => rfl
  | cons kv kvs ih =>
      obtain ⟨k, v⟩ := kv
      rw [List.cons_append, containsRedactionFields, containsRedactionFields, ih, Bool.or_assoc]

-- ============================================================================
-- What a fork accepts
-- ============================================================================

/-- Whatever a fork reads from a redacted snapshot has the messages of the
    conversation. -/
theorem branchState_redactState {c conv : ConversationState}
    (h : branchState [(py "state", .obj (redactState c))] = .ok conv) :
    conv.messages = c.messages := by
  have hstate : Dict.get? [(py "state", Json.obj (redactState c))] (py "state")
      = some (.obj (redactState c)) := rfl
  unfold branchState at h
  rw [hstate] at h
  dsimp only at h
  cases hmark : containsRedactionFields (redactState c) with
  | true =>
      rw [hmark, if_pos rfl] at h
      cases h
  | false =>
      rw [hmark, if_neg Bool.false_ne_true] at h
      -- without a mark nothing was redacted
      unfold redactState at hmark h
      rw [containsRedactionFields_append, Bool.or_eq_false_iff] at hmark
      rw [redactFields_unmarked _ hmark.1] at h
      have hget : Dict.get? ([(py "system_prompt", optStr c.systemPrompt),
          (py "messages", .arr (c.messages.map .obj)),
          (py "max_messages", optional .int c.maxMessages)]
          ++ [(py "metadata", .obj (c.metadata.flatMap redactMeta))]) (py "messages")
          = some (.arr (c.messages.map .obj)) := rfl
      unfold stateFromDict at h
      rw [hget] at h
      dsimp only at h
      rw [messagesOfJson_map] at h
      rw [← Except.ok.inj h]

/-- And from a raw one. -/
theorem branchState_stateToDict {c conv : ConversationState}
    (h : branchState [(py "state", .obj (stateToDict c))] = .ok conv) :
    conv.messages = c.messages := by
  have hstate : Dict.get? [(py "state", Json.obj (stateToDict c))] (py "state")
      = some (.obj (stateToDict c)) := rfl
  unfold branchState at h
  rw [hstate] at h
  dsimp only at h
  rw [stateFromDict_stateToDict] at h
  cases hmark : containsRedactionFields (stateToDict c) with
  | true =>
      rw [hmark, if_pos rfl] at h
      cases h
  | false =>
      rw [hmark, if_neg Bool.false_ne_true] at h
      rw [← Except.ok.inj h]
      rfl

/-- A fork raises nothing but `ReplayForkError`, or it returns the state of a
    snapshot on the timeline. -/
theorem fork_cases (t : Timeline Dict) (sequence : Option Int) :
    (∃ problem, fork t sequence = .error (forkError problem)) ∨
      ∃ s ∈ t.steps, s.eventType = snapshotType ∧ ∃ conv, branchState s.payload = .ok conv ∧
        fork t sequence = .ok ⟨t.runId, s.sequence, conv⟩ := by
  unfold fork
  cases hsteps : stepsUpTo t sequence with
  | none => exact .inl ⟨_, rfl⟩
  | some steps =>
      dsimp only
      have hsub : ∀ s ∈ steps, s ∈ t.steps := by
        unfold stepsUpTo at hsteps
        dsimp only at hsteps
        split at hsteps
        · cases hsteps
        · obtain rfl := Option.some.inj hsteps
          exact fun s hs => List.mem_of_mem_take hs
      cases hlast : latestSnapshot steps with
      | none => exact .inl ⟨_, rfl⟩
      | some s =>
          dsimp only
          have hmem := List.mem_reverse.mp (List.mem_of_find?_eq_some hlast)
          have htype : s.eventType = snapshotType := by
            simpa using List.find?_some hlast
          cases hbranch : branchState s.payload with
          | ok conv => exact .inr ⟨s, hsub s hmem, htype, conv, hbranch, rfl⟩
          | error e =>
              left
              obtain ⟨problem, rfl⟩ : ∃ problem, e = forkError problem := by
                unfold branchState at hbranch
                split at hbranch
                · split at hbranch
                  · exact ⟨_, (Except.error.inj hbranch).symm⟩
                  · split at hbranch
                    · exact ⟨_, (Except.error.inj hbranch).symm⟩
                    · cases hbranch
                · exact ⟨_, (Except.error.inj hbranch).symm⟩
              exact ⟨problem, rfl⟩

-- ============================================================================
-- Good snapshots only
-- ============================================================================

section Good

variable {ι : Type} {good : List Message → Prop}

/-- Whatever a fork reads from the payload is good. -/
def GoodPayload (good : List Message → Prop) (payload : Dict) : Prop :=
  ∀ conv, branchState payload = .ok conv → good conv.messages

/-- The snapshots of a file are good. -/
def GoodFile (good : List Message → Prop) (file : ReplayFile) : Prop :=
  ∀ t, file = some t → ∀ s ∈ t.steps, s.eventType = snapshotType → GoodPayload good s.payload

/-- The recorders are shown good conversations only: at every snapshot, and if
    they share what they are shown, at every later call.  No event passes itself
    off as a snapshot. -/
structure Shown (good : List Message → Prop) (setup : Setup ι) (cs : List (Call ι)) : Prop where
  snapshot : ∀ q ∈ cs, ∀ k id, q.request = .snapshot k id → good (q.heap k).messages
  shared : ∀ p ∈ cs, ∀ k id, p.request = .snapshot k id →
    (setup.recorder p.recorder).captureRawSnapshots = true →
    ∀ q ∈ cs, q.recorder = p.recorder → good (q.heap k).messages
  event : ∀ q ∈ cs, ∀ e, q.request = .handle e → e.type ≠ snapshotType

/-- A snapshot in memory: a good value, or shared with a conversation that the
    recorder was shown. -/
def GoodStep (good : List Message → Prop) (setup : Setup ι) (cs : List (Call ι)) (i : ι)
    (s : TimelineStep Payload) : Prop :=
  s.eventType = snapshotType →
    (∃ v, s.payload = .own v ∧ GoodPayload good v) ∨
      ∃ p ∈ cs, p.recorder = i ∧ (setup.recorder i).captureRawSnapshots = true ∧
        ∃ k id systemPrompt maxMessages, p.request = .snapshot k id ∧
          s.payload = .live k systemPrompt maxMessages

/-- The file and every run in memory are good. -/
structure GoodRecording (good : List Message → Prop) (setup : Setup ι) (cs : List (Call ι))
    (w : Recording ι) : Prop where
  file : GoodFile good w.file
  current : ∀ i t, w.current i = some t → ∀ s ∈ t.steps, GoodStep good setup cs i s

theorem goodStep_written {setup : Setup ι} {cs : List (Call ι)} (hshown : Shown good setup cs)
    {q : Call ι} (hq : q ∈ cs) {s : TimelineStep Payload}
    (h : GoodStep good setup cs q.recorder s) (htype : s.eventType = snapshotType) :
    GoodPayload good (s.payload.render q.heap) := by
  rcases h htype with ⟨v, hv, hgood⟩ | ⟨p, hp, hrec, hraw, k, id, prompt, cap, hreq, hlive⟩
  · rw [hv]
    exact hgood
  · rw [hlive]
    intro conv hconv
    rw [branchState_stateToDict hconv]
    rw [← hrec] at hraw
    exact hshown.shared p hp k id hreq hraw q hq hrec.symm

/-- What a call records is good. -/
theorem goodStep_recorded {setup : Setup ι} {cs : List (Call ι)} (hshown : Shown good setup cs)
    {q : Call ι} (hq : q ∈ cs) {runId : PyStr} {e : Entry}
    (hrec : q.records setup = some (runId, e)) (n : Nat) :
    GoodStep good setup cs q.recorder ⟨n, e.timestamp, e.eventType, e.payload⟩ := by
  intro htype
  obtain ⟨i, request, heap, now⟩ := q
  cases request with
  | handle event =>
      simp only [Call.records, Option.map_eq_some_iff, Prod.mk.injEq] at hrec
      obtain ⟨_, -, -, rfl⟩ := hrec
      exact absurd htype (hshown.event _ hq event rfl)
  | snapshot k id =>
      simp only [Call.records, Option.map_eq_some_iff, Prod.mk.injEq] at hrec
      obtain ⟨id', rfl, rfl, rfl⟩ := hrec
      dsimp only
      unfold ReplayRecorder.capture
      cases hraw : (setup.recorder i).captureRawSnapshots with
      | true => exact .inr ⟨_, hq, rfl, rfl, k, _, _, _, rfl, rfl⟩
      | false =>
          refine .inl ⟨_, rfl, ?_⟩
          intro conv hconv
          rw [branchState_redactState hconv]
          exact hshown.snapshot _ hq k _ rfl

theorem goodStep_own {setup : Setup ι} {cs : List (Call ι)} {i : ι} {t : Timeline Dict}
    (h : ∀ s ∈ t.steps, s.eventType = snapshotType → GoodPayload good s.payload) :
    ∀ s ∈ (t.map Payload.own).steps, GoodStep good setup cs i s := by
  intro s hs htype
  obtain ⟨s', hs', rfl⟩ := List.mem_map.mp hs
  exact .inl ⟨_, rfl, h s' hs' htype⟩

/-- The run a recorder goes on with is good. -/
theorem goodStep_switchTo {setup : Setup ι} {cs : List (Call ι)} {w : Recording ι}
    (hw : GoodRecording good setup cs w) {i : ι} {runId : PyStr} {t : Timeline Payload}
    (h : (setup.recorder i).switchTo setup.path w.file (w.current i) runId = .ok t) :
    ∀ s ∈ t.steps, GoodStep good setup cs i s := by
  have hnew : (setup.recorder i).newRun setup.path w.file runId = .ok t →
      ∀ s ∈ t.steps, GoodStep good setup cs i s := by
    intro hrun
    unfold ReplayRecorder.newRun load at hrun
    cases hproblem : w.file.bind Timeline.problem with
    | some problem =>
        rw [hproblem] at hrun
        cases hrun
    | none =>
        rw [hproblem] at hrun
        dsimp only at hrun
        cases hfile : w.file with
        | none =>
            rw [hfile] at hrun
            obtain rfl := Except.ok.inj hrun
            exact fun s hs => absurd hs List.not_mem_nil
        | some t' =>
            rw [hfile] at hrun
            dsimp only at hrun
            split at hrun
            · obtain rfl := Except.ok.inj hrun
              exact goodStep_own (hw.file t' hfile)
            · obtain rfl := Except.ok.inj hrun
              exact fun s hs => absurd hs List.not_mem_nil
  unfold ReplayRecorder.switchTo at h
  cases hcur : w.current i with
  | none =>
      rw [hcur] at h
      exact hnew h
  | some t' =>
      rw [hcur] at h
      dsimp only at h
      split at h
      · obtain rfl := Except.ok.inj h
        exact hw.current i t' hcur
      · exact hnew h

variable [DecidableEq ι]

/-- One call keeps the file and the runs in memory good. -/
theorem GoodRecording.call {setup : Setup ι} {cs : List (Call ι)} (hshown : Shown good setup cs)
    {w : Recording ι} (hw : GoodRecording good setup cs w) {q : Call ι} (hq : q ∈ cs) :
    GoodRecording good setup cs (w.call setup q).2 := by
  unfold Recording.call
  cases hrec : q.records setup with
  | none => exact hw
  | some r =>
      obtain ⟨runId, e⟩ := r
      dsimp only
      unfold Recording.record
      cases hrun : (setup.recorder q.recorder).switchTo setup.path w.file (w.current q.recorder)
          runId with
      | error err => exact hw
      | ok t =>
          dsimp only
          have hsteps : ∀ s ∈ (t.append e.timestamp e.eventType e.payload).steps,
              GoodStep good setup cs q.recorder s := by
            intro s hs
            rcases List.mem_append.mp hs with hs | hs
            · exact goodStep_switchTo hw hrun s hs
            · rw [List.mem_singleton.mp hs]
              exact goodStep_recorded hshown hq hrec _
          have hcurrent : ∀ i t', Function.update w.current q.recorder
              (some (t.append e.timestamp e.eventType e.payload)) i = some t' →
              ∀ s ∈ t'.steps, GoodStep good setup cs i s := by
            intro i t' ht'
            by_cases hi : i = q.recorder
            · subst hi
              rw [Function.update_self] at ht'
              obtain rfl := Option.some.inj ht'
              exact hsteps
            · rw [Function.update_of_ne hi] at ht'
              exact hw.current i t' ht'
          split
          · refine ⟨?_, hcurrent⟩
            intro t' ht' s hs htype
            obtain rfl := Option.some.inj ht'
            obtain ⟨s', hs', rfl⟩ := List.mem_map.mp hs
            exact goodStep_written hshown hq (hsteps s' hs') htype
          · exact ⟨hw.file, hcurrent⟩

/-- Recorders that are shown good conversations only leave a file whose forks
    all raise `ReplayForkError` or continue from a good one. -/
theorem forks_good {setup : Setup ι} {cs : List (Call ι)} (hshown : Shown good setup cs)
    {file : ReplayFile} (hfile : GoodFile good file) {t : Timeline Dict}
    (ht : ((Recording.start file).run setup cs).file = some t) (sequence : Option Int) :
    (∃ problem, fork t sequence = .error (forkError problem)) ∨
      ∃ branch, fork t sequence = .ok branch ∧ good branch.state.messages := by
  have hgood : ∀ ds : List (Call ι), (∀ q ∈ ds, q ∈ cs) →
      GoodRecording good setup cs ((Recording.start file).run setup ds) := by
    intro ds
    induction ds using List.reverseRecOn with
    | nil => exact fun _ => ⟨hfile, fun i t ht => absurd ht (by simp [Recording.run, Recording.start])⟩
    | append_singleton ds q ih =>
        intro hsub
        have hbefore := ih fun p hp => hsub p (List.mem_append_left _ hp)
        have hcall := hbefore.call hshown (hsub q (List.mem_append_right _ (List.mem_singleton_self q)))
        simpa [Recording.run] using hcall
  rcases fork_cases t sequence with herror | ⟨s, hs, htype, conv, hbranch, hfork⟩
  · exact .inl herror
  · exact .inr ⟨_, hfork, (hgood cs fun _ hq => hq).file t ht s hs htype conv hbranch⟩

end Good

end Replay
end KineticSdk
