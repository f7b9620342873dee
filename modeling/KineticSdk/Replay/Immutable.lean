/-
  KineticSdk.Replay.Immutable

  Whether a recorded snapshot stays as it was.

  A recorder that copied what it records (`copied`) would leave a file in which
  every snapshot is the state at its call.  The recorder of the library copies
  when it redacts; a raw snapshot shares the live history and is written again
  with every later step, so it stays as it was only while the history does.
-/

import KineticSdk.Lib.Trace
import KineticSdk.Replay.Fork
import Mathlib.Data.List.Forall2
import Mathlib.Data.List.Induction

namespace KineticSdk
namespace Replay

open Py Security Conversation

-- ============================================================================
-- One conversation and its recorder
-- ============================================================================

/-- The mutators of a history. -/
inductive Mutation where
  | addUserMessage (content : PyStr)
  | addAssistant (content : Json)
  | addToolResult (toolCallId output : PyStr) (isError : Bool)

/-- The conversation after a mutation. -/
def Mutation.apply (c : ConversationState) : Mutation → ConversationState
  | .addUserMessage content => c.addUserMessage content
  | .addAssistant content => c.addAssistant content
  | .addToolResult toolCallId output isError => c.addToolResult toolCallId output isError

/-- A mutation of the history, or a call of the recorder. -/
inductive Move where
  | mutate (m : Mutation)
  | snapshot (now : PyStr) (runId : Option PyStr)
  | handle (now : PyStr) (event : Event)

/-- The calls among the moves, each with the conversation at that moment. -/
def callsOf : ConversationState → List Move → List (Call Unit)
  | _, [] => []
  | c, .mutate m :: moves => callsOf (m.apply c) moves
  | c, .snapshot now runId :: moves => ⟨(), .snapshot 0 runId, fun _ => c, now⟩ :: callsOf c moves
  | c, .handle now event :: moves => ⟨(), .handle event, fun _ => c, now⟩ :: callsOf c moves

/-- The conversation after the moves. -/
def historyAfter (c : ConversationState) : List Move → ConversationState
  | [] => c
  | .mutate m :: moves => historyAfter (m.apply c) moves
  | _ :: moves => historyAfter c moves

theorem callsOf_append (c : ConversationState) (moves moves' : List Move) :
    callsOf c (moves ++ moves') = callsOf c moves ++ callsOf (historyAfter c moves) moves' := by
  induction moves generalizing c with
  | nil => rfl
  | cons m moves ih => cases m <;> simp [callsOf, historyAfter, ih]

-- ============================================================================
-- A recorder that copies
-- ============================================================================

/-- The entry with its payload as it is now. -/
def Entry.copied (heap : Heap) (e : Entry) : Entry := { e with payload := .own (e.payload.render heap) }

/-- A call of a recorder that copies. -/
def copyingCall (setup : Setup Unit) (w : Recording Unit) (c : Call Unit) : Recording Unit :=
  match c.records setup with
  | none => w
  | some (runId, e) => (w.record setup c.recorder c.heap runId (e.copied c.heap)).2

/-- The calls of a recorder that copies, one after the other. -/
def copied (setup : Setup Unit) (w : Recording Unit) (cs : List (Call Unit)) : Recording Unit :=
  cs.foldl (copyingCall setup) w

/-- The snapshots of a file, by position. -/
def snapshots (file : ReplayFile) : List (Nat × Dict) :=
  match file with
  | none => []
  | some t =>
      (t.steps.filter fun s => s.eventType = snapshotType).map fun s => (s.sequence, s.payload)

/-- At every moment each snapshot in the file is the state at its call, and a
    fork continues from it. -/
def SnapshotsImmutable (setup : Setup Unit) (file : ReplayFile) (c : ConversationState)
    (moves : List Move) : Prop :=
  ∀ pre post, moves = pre ++ post →
    let now := ((Recording.start file).run setup (callsOf c pre)).file
    let meant := (copied setup (Recording.start file) (callsOf c pre)).file
    snapshots now = snapshots meant ∧
      ∀ sequence, now.map (fork · sequence) = meant.map (fork · sequence)

/-- Whenever a step of a run is recorded the conversation is as it was at every
    earlier snapshot of that run. -/
def Undisturbed (setup : Setup Unit) (cs : List (Call Unit)) : Prop :=
  Lib.Guarded (fun pre q => ∀ runId e, q.records setup = some (runId, e) →
    ∀ p ∈ pre, ∀ conv, p.request = .snapshot conv (some runId) → q.heap = p.heap) cs

-- ============================================================================
-- The two recorders side by side
-- ============================================================================

variable {setup : Setup Unit}

/-- A step of the recorder and the step of the one that copies: the same value,
    or a live snapshot and the state at its call. -/
def SameStep (cs : List (Call Unit)) (runId : PyStr) (s s' : TimelineStep Payload) : Prop :=
  (s.sequence, s.timestamp, s.eventType) = (s'.sequence, s'.timestamp, s'.eventType) ∧
    ((∃ v, s.payload = .own v ∧ s'.payload = .own v) ∨
      ∃ p ∈ cs, ∃ conv, p.request = .snapshot conv (some runId) ∧
        s'.payload = .own (s.payload.render p.heap))

/-- The runs of the two recorders. -/
structure SameRun (cs : List (Call Unit)) (t t' : Timeline Payload) : Prop where
  lineage : (t.runId, t.parentRunId, t.forkSequence) = (t'.runId, t'.parentRunId, t'.forkSequence)
  steps : List.Forall₂ (SameStep cs t.runId) t.steps t'.steps

/-- The two recorders have written the same file and go on from the same run. -/
structure Alike (cs : List (Call Unit)) (w w' : Recording Unit) : Prop where
  file : w.file = w'.file
  current : (w.current () = none ∧ w'.current () = none) ∨
    ∃ t t', w.current () = some t ∧ w'.current () = some t' ∧ SameRun cs t t'

theorem SameRun.mono {cs cs' : List (Call Unit)} {t t' : Timeline Payload} (h : SameRun cs t t')
    (hsub : ∀ p ∈ cs, p ∈ cs') : SameRun cs' t t' := by
  refine ⟨h.lineage, h.steps.imp ?_⟩
  rintro s s' ⟨hskel, hown | ⟨p, hp, hrest⟩⟩
  · exact ⟨hskel, .inl hown⟩
  · exact ⟨hskel, .inr ⟨p, hsub p hp, hrest⟩⟩

theorem sameRun_own (cs : List (Call Unit)) (t : Timeline Dict) :
    SameRun cs (t.map .own) (t.map .own) := by
  refine ⟨rfl, ?_⟩
  simp only [Timeline.map, List.forall₂_map_left_iff, List.forall₂_map_right_iff]
  exact List.forall₂_same.mpr fun s _ => ⟨rfl, .inl ⟨s.payload, rfl, rfl⟩⟩

/-- Both recorders switch to the same run, or both fail. -/
theorem switchTo_alike (setup : Setup Unit) {cs : List (Call Unit)} {w w' : Recording Unit} (h : Alike cs w w')
    (runId : PyStr) :
    let run := (setup.recorder ()).switchTo setup.path w.file (w.current ()) runId
    let run' := (setup.recorder ()).switchTo setup.path w'.file (w'.current ()) runId
    (∃ e, run = .error e ∧ run' = .error e) ∨
      ∃ t t', run = .ok t ∧ run' = .ok t' ∧ t.runId = runId ∧ SameRun cs t t' := by
  have hnew : let run := (setup.recorder ()).newRun setup.path w'.file runId
      (∃ e, run = .error e) ∨ ∃ t, run = .ok t ∧ t.runId = runId ∧ SameRun cs t t := by
    simp only [ReplayRecorder.newRun]
    cases load setup.path w'.file with
    | error e => exact .inl ⟨e, rfl⟩
    | ok file =>
        right
        cases file with
        | none => exact ⟨_, rfl, rfl, rfl, .nil⟩
        | some t =>
            by_cases hid : t.runId = runId
            · exact ⟨t.map .own, by simp [hid], hid, sameRun_own cs t⟩
            · exact ⟨⟨runId, [], _, _⟩, by simp [hid]; exact ⟨rfl, rfl⟩, rfl, rfl, .nil⟩
  rw [h.file]
  rcases h.current with ⟨hcur, hcur'⟩ | ⟨t, t', hcur, hcur', hsame⟩
  · rw [hcur, hcur']
    rcases hnew with ⟨e, he⟩ | ⟨t, ht, hid, hsame⟩
    · exact .inl ⟨e, he, he⟩
    · exact .inr ⟨t, t, ht, ht, hid, hsame⟩
  · have hids : t'.runId = t.runId := (congrArg Prod.fst hsame.lineage).symm
    rw [hcur, hcur']
    by_cases hid : t.runId = runId
    · exact .inr ⟨t, t', by simp [ReplayRecorder.switchTo, hid],
        by simp [ReplayRecorder.switchTo, hids, hid], hid, hsame⟩
    · have hswitch : ∀ u : Timeline Payload, u.runId = t.runId →
          (setup.recorder ()).switchTo setup.path w'.file (some u) runId
            = (setup.recorder ()).newRun setup.path w'.file runId := by
        intro u hu
        simp [ReplayRecorder.switchTo, hu, hid]
      rw [hswitch t rfl, hswitch t' hids]
      rcases hnew with ⟨e, he⟩ | ⟨u, hu, hid', hsame'⟩
      · exact .inl ⟨e, he, he⟩
      · exact .inr ⟨u, u, hu, hu, hid', hsame'⟩

/-- While the conversation is as it was the two runs are written alike. -/
theorem SameRun.written_eq {cs : List (Call Unit)} {t t' : Timeline Payload} (h : SameRun cs t t')
    {heap : Heap}
    (hrest : ∀ p ∈ cs, ∀ conv, p.request = .snapshot conv (some t.runId) → heap = p.heap) :
    t.map (Payload.render heap) = t'.map (Payload.render heap) := by
  have hsteps : t.steps.map (TimelineStep.map (Payload.render heap))
      = t'.steps.map (TimelineStep.map (Payload.render heap)) := by
    rw [← List.forall₂_eq_eq_eq, List.forall₂_map_left_iff, List.forall₂_map_right_iff]
    refine h.steps.imp ?_
    rintro s s' ⟨hskel, hpayload⟩
    obtain ⟨hseq, htime, htype⟩ : s.sequence = s'.sequence ∧ s.timestamp = s'.timestamp ∧
        s.eventType = s'.eventType := by simpa using hskel
    have hrender : s.payload.render heap = s'.payload.render heap := by
      rcases hpayload with ⟨v, hv, hv'⟩ | ⟨p, hp, conv, hreq, hv'⟩
      · rw [hv, hv']
      · rw [hv', ← hrest p hp conv hreq]
        rfl
    simp [TimelineStep.map, hseq, htime, htype, hrender]
  obtain ⟨hid, hparent, hfork⟩ : t.runId = t'.runId ∧ t.parentRunId = t'.parentRunId ∧
      t.forkSequence = t'.forkSequence := by simpa using h.lineage
  simp [Timeline.map, hid, hparent, hfork, hsteps]

/-- The entry a call records, live or copied, is the same step. -/
theorem sameStep_of_records {cs : List (Call Unit)} {q : Call Unit} {runId : PyStr} {e : Entry}
    (hrec : q.records setup = some (runId, e)) (hq : q ∈ cs) (n : Nat) :
    SameStep cs runId ⟨n, e.timestamp, e.eventType, e.payload⟩
      ⟨n, e.timestamp, e.eventType, (e.copied q.heap).payload⟩ := by
  refine ⟨rfl, ?_⟩
  obtain ⟨i, request, heap, now⟩ := q
  cases request with
  | handle event =>
      simp only [Call.records, Option.map_eq_some_iff, Prod.mk.injEq] at hrec
      obtain ⟨_, -, -, rfl⟩ := hrec
      exact .inl ⟨_, rfl, rfl⟩
  | snapshot conv id =>
      simp only [Call.records, Option.map_eq_some_iff, Prod.mk.injEq] at hrec
      obtain ⟨_, rfl, rfl, rfl⟩ := hrec
      exact .inr ⟨_, hq, conv, rfl, rfl⟩

theorem SameRun.append {cs : List (Call Unit)} {t t' : Timeline Payload} (h : SameRun cs t t')
    {q : Call Unit} {e : Entry} (hrec : q.records setup = some (t.runId, e)) (hq : q ∈ cs) :
    SameRun cs (t.append e.timestamp e.eventType e.payload)
      (t'.append e.timestamp e.eventType (e.copied q.heap).payload) := by
  refine ⟨h.lineage, List.rel_append h.steps (.cons ?_ .nil)⟩
  rw [← h.steps.length_eq]
  exact sameStep_of_records hrec hq _

/-- One call keeps the two recorders alike while the conversation is as it was
    at every snapshot of the run. -/
theorem call_alike {cs : List (Call Unit)} {w w' : Recording Unit} (h : Alike cs w w')
    {q : Call Unit} (hrest : ∀ runId e, q.records setup = some (runId, e) →
      ∀ p ∈ cs, ∀ conv, p.request = .snapshot conv (some runId) → q.heap = p.heap) :
    Alike (cs ++ [q]) (w.call setup q).2 (copyingCall setup w' q) := by
  have hmono : ∀ p ∈ cs, p ∈ cs ++ [q] := fun p hp => by simp [hp]
  have hsame : Alike (cs ++ [q]) w w' := by
    refine ⟨h.file, h.current.imp_right ?_⟩
    rintro ⟨t, t', hcur, hcur', hrun⟩
    exact ⟨t, t', hcur, hcur', hrun.mono hmono⟩
  cases hrec : q.records setup with
  | none => simpa [Recording.call, copyingCall, hrec] using hsame
  | some r =>
      obtain ⟨runId, e⟩ := r
      have hcall : (w.call setup q).2 = (w.record setup () q.heap runId e).2 := by
        simp [Recording.call, hrec]
      have hcopy : copyingCall setup w' q
          = (w'.record setup () q.heap runId (e.copied q.heap)).2 := by
        simp [copyingCall, hrec]
      rw [hcall, hcopy]
      unfold Recording.record
      rcases switchTo_alike setup h runId with
        ⟨err, hrun, hrun'⟩ | ⟨t, t', hrun, hrun', hid, hruns⟩
      · rw [hrun, hrun']
        exact hsame
      · subst hid
        rw [hrun, hrun']
        have happend := (hruns.mono hmono).append hrec (List.mem_append_right cs List.mem_cons_self)
        have hwritten : (t.append e.timestamp e.eventType e.payload).map (Payload.render q.heap)
            = (t'.append e.timestamp e.eventType (e.copied q.heap).payload).map
              (Payload.render q.heap) := by
          refine happend.written_eq ?_
          intro p hp conv hreq
          rcases List.mem_append.mp hp with hp | hp
          · exact hrest t.runId e hrec p hp conv hreq
          · rw [List.mem_singleton.mp hp]
        have hcurrent : ∀ file : ReplayFile, Alike (cs ++ [q])
            ⟨file, Function.update w.current ()
              (some (t.append e.timestamp e.eventType e.payload))⟩
            ⟨file, Function.update w'.current ()
              (some (t'.append e.timestamp e.eventType (e.copied q.heap).payload))⟩ := fun file =>
          ⟨rfl, .inr ⟨_, _, by simp, by simp, happend⟩⟩
        dsimp only [Entry.copied] at hwritten hcurrent ⊢
        rw [hwritten]
        split
        · exact hcurrent _
        · rw [h.file]
          exact hcurrent _

theorem run_alike (file : ReplayFile) (cs : List (Call Unit)) (h : Undisturbed setup cs) :
    Alike cs ((Recording.start file).run setup cs) (copied setup (Recording.start file) cs) := by
  induction cs using List.reverseRecOn with
  | nil => exact ⟨rfl, .inl ⟨rfl, rfl⟩⟩
  | append_singleton cs q ih =>
      obtain ⟨hcs, hq⟩ := Lib.Guarded.snoc_iff.mp h
      simpa [Recording.run, copied] using call_alike (ih hcs) hq

/-- A redacting recorder shares nothing. -/
theorem run_alike_of_redacting (file : ReplayFile) (cs : List (Call Unit))
    (h : (setup.recorder ()).captureRawSnapshots = false) :
    (Recording.start file).run setup cs = copied setup (Recording.start file) cs := by
  have hcall : ∀ (w : Recording Unit) c, (w.call setup c).2 = copyingCall setup w c := by
    intro w c
    obtain ⟨i, request, heap, now⟩ := c
    cases request with
    | handle event =>
        cases hrun : (setup.recorder i).runOf event <;>
          simp [Recording.call, copyingCall, Call.records, hrun, Entry.copied, Payload.render]
    | snapshot conv runId =>
        cases runId <;>
          simp [Recording.call, copyingCall, Call.records, Entry.copied, ReplayRecorder.capture, h,
            Payload.render]
  unfold Recording.run copied
  congr 1
  funext w c
  exact hcall w c

/-- Snapshots stay as they were if they are redacted, or if the history is at
    rest whenever a run with a raw snapshot is written again. -/
theorem snapshots_immutable (setup : Setup Unit) (file : ReplayFile) (c : ConversationState)
    (moves : List Move)
    (h : (setup.recorder ()).captureRawSnapshots = false ∨ Undisturbed setup (callsOf c moves)) :
    SnapshotsImmutable setup file c moves := by
  rintro pre post rfl
  have hfile : ((Recording.start file).run setup (callsOf c pre)).file
      = (copied setup (Recording.start file) (callsOf c pre)).file := by
    rcases h with hredact | hrest
    · rw [run_alike_of_redacting file (callsOf c pre) hredact]
    · rw [callsOf_append] at hrest
      exact (run_alike file (callsOf c pre) hrest.of_append).file
  simp only [hfile, implies_true, and_self]

/-- A recorder for protected storage. -/
def rawRecorder : Setup Unit where
  path := py "run.json"
  recorder _ := { captureRawSnapshots := true }

/-- A snapshot, then an event before the history moves on. -/
def restingMoves : List Move :=
  [.mutate (.addUserMessage (py "hi")), .snapshot (py "t0") (some (py "r")),
   .handle (py "t1") ⟨py "agent.turn_started", [(py "run_id", .str (py "r"))]⟩,
   .mutate (.addUserMessage (py "more"))]

/-- The snapshot stays the state at its call. -/
theorem restingMoves_immutable : SnapshotsImmutable rawRecorder none {} restingMoves := by
  refine snapshots_immutable rawRecorder none {} restingMoves (.inr ?_)
  refine Lib.Guarded.snoc_iff (t := [_]).mpr
    ⟨Lib.Guarded.snoc_iff (t := []).mpr ⟨Lib.Guarded.nil, ?_⟩, ?_⟩
  · intro runId e _ p hp
    simp at hp
  · intro runId e _ p hp conv _
    obtain rfl := List.mem_singleton.mp hp
    rfl

/-- The event comes after the history has moved on: the snapshot in the file now
    shows a message that was added after it. -/
theorem raw_snapshot_changes : ¬ SnapshotsImmutable rawRecorder none {}
    [.mutate (.addUserMessage (py "hi")), .snapshot (py "t0") (some (py "r")),
     .mutate (.addUserMessage (py "more")),
     .handle (py "t1") ⟨py "agent.turn_started", [(py "run_id", .str (py "r"))]⟩] := by
  intro h
  obtain ⟨hsnapshots, -⟩ := h _ [] (List.append_nil _).symm
  revert hsnapshots
  decide +kernel

end Replay
end KineticSdk
