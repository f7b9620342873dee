/-
  KineticSdk.Replay.Together

  Whether a resume puts together what belongs together.

  A checkpoint manager writes the conversation and the runtime fields of an
  agent as two steps; the agent's own recorder writes the conversation alone
  at every persistence boundary.  A resume takes the latest of each kind.
  Whatever the agent's states were, the two come from one moment exactly if
  the last snapshot was a checkpoint's.
-/

import KineticSdk.Replay.Lossless
import KineticSdk.Replay.RoundTrip

namespace KineticSdk
namespace Replay

open Py Tool Security Conversation Lib

-- ============================================================================
-- What a checkpoint manager sees of a timeline
-- ============================================================================

/-- The step as checkpoints know it; other events do not concern them. -/
def TimelineStep.view (s : TimelineStep Dict) : Option ReplayStep :=
  if s.eventType = StepKind.snapshot.eventType then some ⟨.snapshot, s.payload⟩
  else if s.eventType = StepKind.checkpoint.eventType then some ⟨.checkpoint, s.payload⟩
  else if s.eventType = StepKind.resumed.eventType then some ⟨.resumed, s.payload⟩
  else none

/-- The run as checkpoints know it. -/
def Timeline.view (t : Timeline Dict) : ReplayRun := ⟨t.runId, t.steps.filterMap TimelineStep.view⟩

/-- `CheckpointManager.resume` from the file. -/
def resumeFile (path : PyStr) (file : ReplayFile) (checkpointId : PyStr) :
    Except PyExc (ConversationState × Runtime) :=
  match load path file with
  | .error e => .error e
  | .ok file => resume (file.map Timeline.view) checkpointId

theorem eventType_injective (k k' : StepKind) (h : k.eventType = k'.eventType) : k = k' := by
  cases k <;> cases k' <;> first | rfl | (revert h; decide)

/-- A step of a kind, as checkpoints know it. -/
theorem view_of_kind (k : StepKind) (n : Nat) (now : PyStr) (payload : Dict) :
    (⟨n, now, k.eventType, payload⟩ : TimelineStep Dict).view = some ⟨k, payload⟩ := by
  have hne : ∀ k k' : StepKind, k ≠ k' → k.eventType ≠ k'.eventType :=
    fun k k' h he => h (eventType_injective k k' he)
  cases k with
  | snapshot => simp [TimelineStep.view]
  | checkpoint =>
      simp [TimelineStep.view, hne StepKind.checkpoint StepKind.snapshot (by decide)]
  | resumed =>
      simp [TimelineStep.view, hne StepKind.resumed StepKind.snapshot (by decide),
        hne StepKind.resumed StepKind.checkpoint (by decide)]

-- ============================================================================
-- Writers of one run
-- ============================================================================

section Writers

variable {ι : Type} [DecidableEq ι]

/-- Who writes: the checkpoint manager, for a save or a resume, or the recorder
    of an agent. -/
inductive Writing (ι : Type) where
  | save
  | snapshot (recorder : ι)
  | resumed
deriving DecidableEq

/-- A write, with the agent as it is at that moment. -/
structure Moment (ι : Type) where
  writing : Writing ι
  heap : Heap
  conv : Nat
  runtime : Runtime
  now : PyStr

/-- The conversation at the moment. -/
def Moment.state (m : Moment ι) : ConversationState := m.heap m.conv

/-- The recorders of the agents, and the one a checkpoint manager creates for
    each save and resume. -/
def withManager (path : PyStr) (recorder : ι → ReplayRecorder) : Setup (Option ι) where
  path := path
  recorder
    | some i => recorder i
    | none => { captureRawSnapshots := true }

/-- The event of a save. -/
def checkpointEvent (runId : PyStr) (r : Runtime) : Event :=
  ⟨StepKind.checkpoint.eventType, [(py "run_id", .str runId), (py "agent", r.toJson)]⟩

/-- The event of a resume. -/
def resumedEvent (runId : PyStr) : Event :=
  ⟨StepKind.resumed.eventType, [(py "run_id", .str runId), (py "checkpoint_id", .str runId)]⟩

/-- The recorder calls of a write. -/
def Moment.calls (runId : PyStr) (m : Moment ι) : List (Call (Option ι)) :=
  match m.writing with
  | .save =>
      [⟨none, .snapshot m.conv (some runId), m.heap, m.now⟩,
       ⟨none, .handle (checkpointEvent runId m.runtime), m.heap, m.now⟩]
  | .snapshot i => [⟨some i, .snapshot m.conv (some runId), m.heap, m.now⟩]
  | .resumed => [⟨none, .handle (resumedEvent runId), m.heap, m.now⟩]

/-- The manager's recorder is a new one. -/
def Recording.renew (w : Recording (Option ι)) : Recording (Option ι) :=
  { w with current := Function.update w.current none none }

/-- The calls up to the first that raises. -/
def Recording.runUntilRaise (setup : Setup (Option ι)) (w : Recording (Option ι)) :
    List (Call (Option ι)) → Recording (Option ι)
  | [] => w
  | c :: cs =>
      match w.call setup c with
      | (.ok _, w) => Recording.runUntilRaise setup w cs
      | (.error _, w) => w

/-- One write. -/
def Recording.write (setup : Setup (Option ι)) (runId : PyStr) (w : Recording (Option ι))
    (m : Moment ι) : Recording (Option ι) :=
  w.renew.runUntilRaise setup (m.calls runId)

/-- The file after the writes. -/
def fileAfter (setup : Setup (Option ι)) (file : ReplayFile) (runId : PyStr)
    (ms : List (Moment ι)) : ReplayFile :=
  (ms.foldl (Recording.write setup runId) (Recording.start file)).file

/-- What the checkpoint of a moment gives back. -/
def Moment.restored (m : Moment ι) : Except PyExc (ConversationState × Runtime) :=
  (rebuildRuntime (redactRuntime m.runtime)).map fun r => (rebuildConv m.state, r)

/-- A resume rebuilds the agent of one moment. -/
def Together (setup : Setup (Option ι)) (file : ReplayFile) (runId : PyStr)
    (ms : List (Moment ι)) : Prop :=
  ∃ m ∈ ms, resumeFile setup.path (fileAfter setup file runId ms) runId = m.restored

variable {path : PyStr} {recorder : ι → ReplayRecorder} {runId : PyStr}

/-- The calls of a write record nothing the file cannot hold. -/
def Moment.legible (setup : Setup (Option ι)) (runId : PyStr) (m : Moment ι) : Prop :=
  ∀ c ∈ m.calls runId, c.legible setup

-- ============================================================================
-- What the calls record
-- ============================================================================

theorem records_snapshot (m : Moment ι) (who : Option ι) :
    (⟨who, .snapshot m.conv (some runId), m.heap, m.now⟩ : Call (Option ι)).records
        (withManager path recorder)
      = some (runId, ⟨m.now, StepKind.snapshot.eventType,
        ((withManager path recorder).recorder who).capture m.heap m.conv⟩) := rfl

/-- An event of the manager belongs to its run. -/
theorem records_event (m : Moment ι) (k : StepKind) (payload : Dict) (hrun : runId ≠ []) :
    (⟨none, .handle ⟨k.eventType, (py "run_id", .str runId) :: payload⟩, m.heap, m.now⟩ :
        Call (Option ι)).records (withManager path recorder)
      = some (runId, ⟨m.now, k.eventType,
        .own (redactFields ((py "run_id", .str runId) :: payload))⟩) := by
  have htype : ∀ k : StepKind, k.eventType ≠ py "agent.reasoning_trace" := by
    intro k
    cases k <;> decide
  have hof : ((withManager path recorder).recorder none).runOf
      ⟨k.eventType, (py "run_id", .str runId) :: payload⟩ = some runId := by
    simp [ReplayRecorder.runOf, htype k, Dict.get?, hrun]
  simp [Call.records, hof]

-- ============================================================================
-- One write
-- ============================================================================

/-- The writers' state is that of a log, so nothing they write fails. -/
def Sound (w : Recording (Option ι)) : Prop := ∃ s, Refines w s

theorem Sound.renew {w : Recording (Option ι)} (h : Sound w) : Sound w.renew := by
  obtain ⟨s, hs⟩ := h
  refine ⟨{ s with copy := Function.update s.copy none none }, hs.file, fun i => ?_⟩
  cases i with
  | none => exact .inl ⟨by simp [Recording.renew], by simp⟩
  | some i => simpa [Recording.renew] using hs.memory (some i)

omit [DecidableEq ι] in
theorem Sound.load {w : Recording (Option ι)} (h : Sound w) {t : Timeline Dict}
    (ht : w.file = some t) : load path w.file = .ok (some t) := by
  obtain ⟨s, hs⟩ := h
  rcases hs.file with ⟨hnone, -⟩ | ⟨t', es, ht', -, hin⟩
  · rw [hnone] at ht
    simp at ht
  · obtain rfl : t' = t := Option.some.inj (ht'.symm.trans ht)
    simp [Replay.load, ht', hin.problem]

/-- A call that records goes on with a run and writes it with one more step. -/
theorem call_sound (hsetup : (withManager path recorder).legible) {w : Recording (Option ι)}
    (h : Sound w) {c : Call (Option ι)} (hc : c.legible (withManager path recorder)) {e : Entry}
    (hrec : c.records (withManager path recorder) = some (runId, e)) :
    ∃ t w', ((withManager path recorder).recorder c.recorder).switchTo path w.file
        (w.current c.recorder) runId = .ok t ∧ t.runId = runId ∧
      w.call (withManager path recorder) c = (.ok (), w') ∧ Sound w' ∧
      w'.file = some ((t.append e.timestamp e.eventType e.payload).map (Payload.render c.heap)) ∧
      w'.current c.recorder = some (t.append e.timestamp e.eventType e.payload) := by
  obtain ⟨s, hs⟩ := h
  obtain ⟨hrun, hentry⟩ := hc.entry runId e hrec
  obtain ⟨t, hswitch, hid, hrecord, hnext⟩ := record_refines hsetup hs c.recorder hc.heap hrun hentry
  have hcall : w.call (withManager path recorder) c
      = w.record (withManager path recorder) c.recorder c.heap runId e := by
    simp [Recording.call, hrec]
  rw [hrecord] at hnext
  exact ⟨t, _, hswitch, hid, hcall.trans hrecord, ⟨_, hnext⟩, rfl, by simp⟩

theorem view_append {P : Type} (t : Timeline P) (f : P → Dict) (k : StepKind) (now : PyStr)
    (payload : P) :
    ((t.append now k.eventType payload).map f).view
      = ⟨t.runId, (t.map f).view.steps ++ [⟨k, f payload⟩]⟩ := by
  simp [Timeline.view, Timeline.map, Timeline.append, TimelineStep.map, view_of_kind]

/-- After a save the timeline ends in the conversation and the runtime fields. -/
theorem write_save (hsetup : (withManager path recorder).legible) {w : Recording (Option ι)}
    (h : Sound w) {m : Moment ι} (hsave : m.writing = .save) (hrun : runId ≠ [])
    (hm : m.legible (withManager path recorder) runId) :
    Sound (w.write (withManager path recorder) runId m) ∧
      ∃ t steps, (w.write (withManager path recorder) runId m).file = some t ∧
        t.view = ⟨runId, steps ++ [snapshotStep m.state, checkpointStep runId m.runtime]⟩ := by
  simp only [Moment.legible, Moment.calls, hsave, List.forall_mem_cons] at hm
  obtain ⟨hsnap, hcheck, -⟩ := hm
  obtain ⟨t, w₁, -, hid, hcall₁, h₁, -, hcur⟩ :=
    call_sound hsetup h.renew hsnap (records_snapshot m none)
  obtain ⟨t', w₂, hswitch, -, hcall₂, h₂, hfile, -⟩ :=
    call_sound hsetup h₁ hcheck (records_event m .checkpoint _ hrun)
  -- the second call goes on with the run of the first
  have ht' : t' = t.append m.now StepKind.snapshot.eventType
      (((withManager path recorder).recorder none).capture m.heap m.conv) := by
    have hcur' : w₁.current none = some (t.append m.now StepKind.snapshot.eventType
        (((withManager path recorder).recorder none).capture m.heap m.conv)) := hcur
    have hsame : (t.append m.now StepKind.snapshot.eventType
        (((withManager path recorder).recorder none).capture m.heap m.conv)).runId = runId := hid
    simp only [hcur', ReplayRecorder.switchTo, hsame, if_true] at hswitch
    exact (Except.ok.inj hswitch).symm
  have hwrite : w.write (withManager path recorder) runId m = w₂ := by
    simp only [Recording.write, Moment.calls, hsave, Recording.runUntilRaise, hcall₁]
    have hcall₂' : w₁.call (withManager path recorder)
        ⟨none, .handle (checkpointEvent runId m.runtime), m.heap, m.now⟩ = (.ok (), w₂) := hcall₂
    simp only [hcall₂']
  refine ⟨hwrite ▸ h₂, _, (t.map (Payload.render m.heap)).view.steps, hwrite ▸ hfile, ?_⟩
  have hview : ((t.append m.now StepKind.snapshot.eventType
      (((withManager path recorder).recorder none).capture m.heap m.conv)).map
        (Payload.render m.heap)).view.steps
      = (t.map (Payload.render m.heap)).view.steps ++ [snapshotStep m.state] := by
    rw [view_append]
    rfl
  rw [ht', view_append, hview, List.append_assoc]
  exact congrArg₂ ReplayRun.mk hid rfl

/-- The state as an agent's recorder captures it. -/
def ReplayRecorder.captured (r : ReplayRecorder) (c : ConversationState) : Dict :=
  if r.captureRawSnapshots then stateToDict c else redactState c

/-- After a recorder's snapshot the timeline ends in the conversation alone. -/
theorem write_snapshot (hsetup : (withManager path recorder).legible) {w : Recording (Option ι)}
    (h : Sound w) {m : Moment ι} {i : ι} (hsnap : m.writing = .snapshot i)
    (hm : m.legible (withManager path recorder) runId) :
    Sound (w.write (withManager path recorder) runId m) ∧
      ∃ t steps, (w.write (withManager path recorder) runId m).file = some t ∧
        t.view = ⟨runId, steps ++
          [⟨.snapshot, [(py "state", .obj ((recorder i).captured m.state))]⟩]⟩ := by
  simp only [Moment.legible, Moment.calls, hsnap, List.forall_mem_cons] at hm
  obtain ⟨t, w₁, -, hid, hcall, h₁, hfile, -⟩ :=
    call_sound hsetup h.renew hm.1 (records_snapshot m (some i))
  have hwrite : w.write (withManager path recorder) runId m = w₁ := by
    simp only [Recording.write, Moment.calls, hsnap, Recording.runUntilRaise, hcall]
  have hpayload : (((withManager path recorder).recorder (some i)).capture m.heap m.conv).render
      m.heap = [(py "state", .obj ((recorder i).captured m.state))] := by
    cases hraw : (recorder i).captureRawSnapshots with
    | true =>
        simp only [withManager, ReplayRecorder.capture, ReplayRecorder.captured, hraw, if_true]
        rfl
    | false =>
        simp only [withManager, ReplayRecorder.capture, ReplayRecorder.captured, hraw,
          Bool.false_eq_true, if_false]
        rfl
  refine ⟨hwrite ▸ h₁, _, (t.map (Payload.render m.heap)).view.steps, hwrite ▸ hfile, ?_⟩
  rw [view_append, hpayload, hid]

/-- A resume leaves what is there and marks the timeline. -/
theorem write_resumed (hsetup : (withManager path recorder).legible) {w : Recording (Option ι)}
    (h : Sound w) {m : Moment ι} (hres : m.writing = .resumed) (hrun : runId ≠ [])
    (hm : m.legible (withManager path recorder) runId) :
    Sound (w.write (withManager path recorder) runId m) ∧
      ∀ t, w.file = some t → t.runId = runId →
        ∃ t', (w.write (withManager path recorder) runId m).file = some t' ∧
          t'.view = ⟨runId, t.view.steps ++ [resumedStep runId]⟩ := by
  simp only [Moment.legible, Moment.calls, hres, List.forall_mem_cons] at hm
  obtain ⟨t₁, w₁, hswitch, -, hcall, h₁, hfile, -⟩ :=
    call_sound hsetup h.renew hm.1 (records_event m .resumed _ hrun)
  have hwrite : w.write (withManager path recorder) runId m = w₁ := by
    have hcall' : w.renew.call (withManager path recorder)
        ⟨none, .handle (resumedEvent runId), m.heap, m.now⟩ = (.ok (), w₁) := hcall
    simp only [Recording.write, Moment.calls, hres, Recording.runUntilRaise, hcall']
  refine ⟨hwrite ▸ h₁, ?_⟩
  intro t ht hid
  -- a new recorder reads the file
  have ht₁ : t₁ = t.map .own := by
    have hcur : w.renew.current none = none := by simp [Recording.renew]
    have hload : load path w.renew.file = .ok (some t) := h.load ht
    simp only [hcur, ReplayRecorder.switchTo, ReplayRecorder.newRun, hload, hid, if_true] at hswitch
    exact (Except.ok.inj hswitch).symm
  refine ⟨_, hwrite ▸ hfile, ?_⟩
  have hback : ((t.map Payload.own).map (Payload.render m.heap)).view.steps = t.view.steps := by
    simp [Timeline.view, Timeline.map, TimelineStep.map, Function.comp_def, Payload.render]
  rw [view_append, ht₁, hback]
  exact congrArg₂ ReplayRun.mk hid rfl

theorem write_sound (hsetup : (withManager path recorder).legible) {w : Recording (Option ι)}
    (h : Sound w) {m : Moment ι} (hrun : runId ≠ [])
    (hm : m.legible (withManager path recorder) runId) :
    Sound (w.write (withManager path recorder) runId m) := by
  cases hw : m.writing with
  | save => exact (write_save hsetup h hw hrun hm).1
  | snapshot i => exact (write_snapshot hsetup h hw hm).1
  | resumed => exact (write_resumed hsetup h hw hrun hm).1

-- ============================================================================
-- A checkpoint written last
-- ============================================================================

theorem lastPayload_append (steps : List ReplayStep) (s : ReplayStep) (k : StepKind) :
    lastPayload (steps ++ [s]) k = if s.kind = k then some s.payload else lastPayload steps k := by
  by_cases h : s.kind = k <;> simp [lastPayload, h]

/-- The latest snapshot and the latest runtime step of the file. -/
def Latest (w : Recording (Option ι)) (runId : PyStr) (state : Dict) (check : Option Dict) : Prop :=
  ∃ t, w.file = some t ∧ t.runId = runId ∧
    lastPayload t.view.steps .snapshot = some [(py "state", .obj state)] ∧
    lastPayload t.view.steps .checkpoint = check

theorem latest_resumed (hsetup : (withManager path recorder).legible) (hrun : runId ≠ [])
    (ms : List (Moment ι)) (hres : ∀ m ∈ ms, m.writing = .resumed)
    (hms : ∀ m ∈ ms, m.legible (withManager path recorder) runId) {w : Recording (Option ι)}
    (h : Sound w) {state : Dict} {check : Option Dict} (hl : Latest w runId state check) :
    Sound (ms.foldl (Recording.write (withManager path recorder) runId) w) ∧
      Latest (ms.foldl (Recording.write (withManager path recorder) runId) w) runId state check := by
  induction ms generalizing w with
  | nil => exact ⟨h, hl⟩
  | cons m ms ih =>
      obtain ⟨hsound, hkeep⟩ := write_resumed hsetup h (hres m List.mem_cons_self) hrun
        (hms m List.mem_cons_self)
      obtain ⟨t, ht, hid, hsnap, hcheck⟩ := hl
      obtain ⟨t', ht', hview⟩ := hkeep t ht hid
      refine ih (fun m' hm' => hres m' (List.mem_cons_of_mem m hm'))
        (fun m' hm' => hms m' (List.mem_cons_of_mem m hm')) hsound ⟨t', ht', ?_, ?_, ?_⟩
      · exact congrArg ReplayRun.runId hview
      · rw [hview, lastPayload_append, if_neg (by simp [resumedStep])]
        exact hsnap
      · rw [hview, lastPayload_append, if_neg (by simp [resumedStep])]
        exact hcheck

theorem foldl_sound (hsetup : (withManager path recorder).legible) (hrun : runId ≠ [])
    (ms : List (Moment ι)) (hms : ∀ m ∈ ms, m.legible (withManager path recorder) runId)
    {w : Recording (Option ι)} (h : Sound w) :
    Sound (ms.foldl (Recording.write (withManager path recorder) runId) w) := by
  induction ms generalizing w with
  | nil => exact h
  | cons m ms ih =>
      exact ih (fun m' hm' => hms m' (List.mem_cons_of_mem m hm'))
        (write_sound hsetup h hrun (hms m List.mem_cons_self))

omit [DecidableEq ι] in
/-- A resume reads the latest of each kind. -/
theorem resumeFile_of_latest {w : Recording (Option ι)} (h : Sound w) {state : Dict}
    {conv : ConversationState} {r : Runtime} (hstate : stateFromDict state = .ok conv)
    (hl : Latest w runId state (some (checkpointStep runId r).payload)) :
    resumeFile path w.file runId = (rebuildRuntime (redactRuntime r)).map fun r' => (conv, r') := by
  obtain ⟨t, ht, rfl, hsnap, hcheck⟩ := hl
  simp only [resumeFile, h.load ht]
  exact resume_of_last t.view hsnap hcheck hstate

omit [DecidableEq ι] in
theorem resumeFile_incomplete {w : Recording (Option ι)} (h : Sound w) {state : Dict}
    (hl : Latest w runId state none) :
    resumeFile path w.file runId = .error (checkpointError runId (py " is incomplete")) := by
  obtain ⟨t, ht, rfl, hsnap, hcheck⟩ := hl
  simp only [resumeFile, h.load ht, Option.map_some, resume]
  rw [if_neg (by simp [Timeline.view]), hsnap, hcheck]

theorem resumeFile_of_last_save (hsetup : (withManager path recorder).legible) (hrun : runId ≠ [])
    {w : Recording (Option ι)} (h : Sound w) {ms₁ ms₂ : List (Moment ι)} {m : Moment ι}
    (hsave : m.writing = .save) (hres : ∀ m' ∈ ms₂, m'.writing = .resumed)
    (hms : ∀ m' ∈ ms₁ ++ m :: ms₂, m'.legible (withManager path recorder) runId) :
    resumeFile path ((ms₁ ++ m :: ms₂).foldl
      (Recording.write (withManager path recorder) runId) w).file runId = m.restored := by
  have h₁ := foldl_sound hsetup hrun ms₁ (fun m' hm' => hms m' (by simp [hm'])) h
  obtain ⟨h₂, t, steps, ht, hview⟩ := write_save hsetup h₁ hsave hrun (hms m (by simp))
  have hlatest : Latest ((ms₁.foldl (Recording.write (withManager path recorder) runId) w).write
      (withManager path recorder) runId m) runId (stateToDict m.state)
      (some (checkpointStep runId m.runtime).payload) := by
    obtain ⟨hsnap, hcheck⟩ := lastPayload_snapshot steps (snapshotStep m.state)
      (checkpointStep runId m.runtime) rfl rfl
    exact ⟨t, ht, congrArg ReplayRun.runId hview, hview ▸ hsnap, hview ▸ hcheck⟩
  obtain ⟨h₃, hl⟩ := latest_resumed hsetup hrun ms₂ hres (fun m' hm' => hms m' (by simp [hm']))
    h₂ hlatest
  rw [List.foldl_append, List.foldl_cons]
  exact resumeFile_of_latest h₃ (stateFromDict_stateToDict m.state) hl

-- ============================================================================
-- Where a runtime step comes from
-- ============================================================================

/-- Every runtime step of the run, in the file or in memory, is one of these. -/
structure RuntimesFrom (P : Dict → Prop) (runId : PyStr) (w : Recording (Option ι)) : Prop where
  file : ∀ t, w.file = some t → t.runId = runId →
    ∀ s ∈ t.steps, s.eventType = StepKind.checkpoint.eventType → P s.payload
  memory : ∀ i t, w.current i = some t → t.runId = runId →
    ∀ s ∈ t.steps, s.eventType = StepKind.checkpoint.eventType → ∃ v, s.payload = .own v ∧ P v

variable {P : Dict → Prop}

theorem RuntimesFrom.mono {Q : Dict → Prop} {w : Recording (Option ι)} (h : RuntimesFrom P runId w)
    (hpq : ∀ v, P v → Q v) : RuntimesFrom Q runId w := by
  refine ⟨fun t ht hid s hs htype => hpq _ (h.file t ht hid s hs htype), ?_⟩
  intro i t ht hid s hs htype
  obtain ⟨v, hv, hpv⟩ := h.memory i t ht hid s hs htype
  exact ⟨v, hv, hpq v hpv⟩

theorem RuntimesFrom.renew {w : Recording (Option ι)} (h : RuntimesFrom P runId w) :
    RuntimesFrom P runId w.renew := by
  refine ⟨h.file, fun i t ht => ?_⟩
  cases i with
  | none => simp [Recording.renew] at ht
  | some i =>
      have ht' : w.current (some i) = some t := by simpa [Recording.renew] using ht
      exact h.memory (some i) t ht'

/-- The run a recorder goes on with has only such runtime steps. -/
theorem RuntimesFrom.switchTo {w : Recording (Option ι)} (h : RuntimesFrom P runId w)
    {r : ReplayRecorder} {i : Option ι} {t : Timeline Payload}
    (hswitch : r.switchTo path w.file (w.current i) runId = .ok t) :
    ∀ s ∈ t.steps, s.eventType = StepKind.checkpoint.eventType → ∃ v, s.payload = .own v ∧ P v := by
  have hnew : ∀ t, r.newRun path w.file runId = .ok t → ∀ s ∈ t.steps,
      s.eventType = StepKind.checkpoint.eventType → ∃ v, s.payload = .own v ∧ P v := by
    intro t ht s hs htype
    unfold ReplayRecorder.newRun load at ht
    cases hproblem : w.file.bind Timeline.problem with
    | some problem => simp [hproblem] at ht
    | none =>
        cases hfile : w.file with
        | none =>
            simp only [hfile, Option.bind_none, Except.ok.injEq] at ht
            simp [← ht] at hs
        | some t₀ =>
            rw [hproblem] at ht
            by_cases hid : t₀.runId = runId
            · simp only [hfile, hid, if_true, Except.ok.injEq] at ht
              rw [← ht] at hs
              obtain ⟨s₀, hs₀, rfl⟩ := List.mem_map.mp hs
              exact ⟨s₀.payload, rfl, h.file t₀ hfile hid s₀ hs₀ htype⟩
            · simp only [hfile, hid, if_false, Except.ok.injEq] at ht
              simp [← ht] at hs
  unfold ReplayRecorder.switchTo at hswitch
  cases hcur : w.current i with
  | none =>
      rw [hcur] at hswitch
      exact hnew t hswitch
  | some u =>
      by_cases hid : u.runId = runId
      · simp only [hcur, hid, if_true, Except.ok.injEq] at hswitch
        exact hswitch ▸ h.memory i u hcur hid
      · simp only [hcur, hid, if_false] at hswitch
        exact hnew t hswitch

theorem RuntimesFrom.call {setup : Setup (Option ι)} {w : Recording (Option ι)}
    (h : RuntimesFrom P runId w) {c : Call (Option ι)} {e : Entry}
    (hrec : c.records setup = some (runId, e))
    (he : e.eventType = StepKind.checkpoint.eventType → ∃ v, e.payload = .own v ∧ P v) :
    RuntimesFrom P runId (w.call setup c).2 := by
  simp only [Recording.call, hrec, Recording.record]
  cases hswitch : (setup.recorder c.recorder).switchTo setup.path w.file (w.current c.recorder) runId with
  | error err => exact h
  | ok t =>
      have ht : ∀ s ∈ (t.append e.timestamp e.eventType e.payload).steps,
          s.eventType = StepKind.checkpoint.eventType → ∃ v, s.payload = .own v ∧ P v := by
        intro s hs htype
        rcases List.mem_append.mp hs with hs | hs
        · exact h.switchTo hswitch s hs htype
        · obtain rfl := List.mem_singleton.mp hs
          exact he htype
      have hmemory : ∀ i u, Function.update w.current c.recorder
          (some (t.append e.timestamp e.eventType e.payload)) i = some u → u.runId = runId →
          ∀ s ∈ u.steps, s.eventType = StepKind.checkpoint.eventType →
            ∃ v, s.payload = .own v ∧ P v := by
        intro i u hu hid
        by_cases hi : i = c.recorder
        · subst hi
          rw [Function.update_self] at hu
          exact Option.some.inj hu ▸ ht
        · rw [Function.update_of_ne hi] at hu
          exact h.memory i u hu hid
      dsimp only
      split
      · refine ⟨?_, hmemory⟩
        intro u hu _ s hs htype
        obtain rfl := Option.some.inj hu
        obtain ⟨s₀, hs₀, rfl⟩ := List.mem_map.mp hs
        obtain ⟨v, hv, hpv⟩ := ht s₀ hs₀ htype
        have hpayload : (s₀.map (Payload.render c.heap)).payload = v := by
          simp [TimelineStep.map, hv, Payload.render]
        exact hpayload ▸ hpv
      · exact ⟨h.file, hmemory⟩

theorem RuntimesFrom.runUntilRaise {setup : Setup (Option ι)} (cs : List (Call (Option ι)))
    (hcs : ∀ c ∈ cs, ∃ e, c.records setup = some (runId, e) ∧
      (e.eventType = StepKind.checkpoint.eventType → ∃ v, e.payload = .own v ∧ P v))
    {w : Recording (Option ι)} (h : RuntimesFrom P runId w) :
    RuntimesFrom P runId (w.runUntilRaise setup cs) := by
  induction cs generalizing w with
  | nil => exact h
  | cons c cs ih =>
      obtain ⟨e, hrec, he⟩ := hcs c List.mem_cons_self
      have hnext := h.call hrec he
      unfold Recording.runUntilRaise
      split
      · rename_i heq
        rw [heq] at hnext
        exact ih (fun c' hc' => hcs c' (List.mem_cons_of_mem c hc')) hnext
      · rename_i heq
        rw [heq] at hnext
        exact hnext

/-- A write adds a runtime step only if it is a save. -/
theorem RuntimesFrom.write {w : Recording (Option ι)} (h : RuntimesFrom P runId w)
    (hrun : runId ≠ []) {m : Moment ι}
    (hm : m.writing = .save → P (checkpointStep runId m.runtime).payload) :
    RuntimesFrom P runId (w.write (withManager path recorder) runId m) := by
  have hsnap : StepKind.snapshot.eventType ≠ StepKind.checkpoint.eventType :=
    fun he => absurd (eventType_injective _ _ he) (by decide)
  have hres : StepKind.resumed.eventType ≠ StepKind.checkpoint.eventType :=
    fun he => absurd (eventType_injective _ _ he) (by decide)
  refine RuntimesFrom.runUntilRaise _ ?_ h.renew
  intro c hc
  unfold Moment.calls at hc
  cases hw : m.writing with
  | save =>
      simp only [hw, List.mem_cons, List.not_mem_nil, or_false] at hc
      rcases hc with rfl | rfl
      · exact ⟨_, records_snapshot m none, fun he => absurd he hsnap⟩
      · exact ⟨_, records_event m .checkpoint _ hrun, fun _ => ⟨_, rfl, hm hw⟩⟩
  | snapshot i =>
      simp only [hw, List.mem_singleton] at hc
      subst hc
      exact ⟨_, records_snapshot m (some i), fun he => absurd he hsnap⟩
  | resumed =>
      simp only [hw, List.mem_singleton] at hc
      subst hc
      exact ⟨_, records_event m .resumed _ hrun, fun he => absurd he hres⟩

/-- Every runtime step in the file was saved at some moment. -/
theorem runtimes_saved (hrun : runId ≠ []) (ms : List (Moment ι)) {w : Recording (Option ι)}
    (h : RuntimesFrom P runId w)
    (hms : ∀ m ∈ ms, m.writing = .save → P (checkpointStep runId m.runtime).payload) :
    RuntimesFrom P runId (ms.foldl (Recording.write (withManager path recorder) runId) w) := by
  induction ms generalizing w with
  | nil => exact h
  | cons m ms ih =>
      exact ih (h.write hrun (hms m List.mem_cons_self))
        fun m' hm' => hms m' (List.mem_cons_of_mem m hm')

omit [DecidableEq ι] in
/-- So was the latest. -/
theorem RuntimesFrom.latest {w : Recording (Option ι)} (h : RuntimesFrom P runId w) {state v : Dict}
    (hl : Latest w runId state (some v)) : P v := by
  obtain ⟨t, ht, hid, -, hcheck⟩ := hl
  obtain ⟨s, hs, rfl⟩ := Option.map_eq_some_iff.mp hcheck
  have hkind : s.kind = .checkpoint := by simpa using List.find?_some hs
  have hmem : s ∈ t.view.steps := by simpa using List.mem_of_find?_eq_some hs
  obtain ⟨s₀, hs₀, hview⟩ := List.mem_filterMap.mp hmem
  unfold TimelineStep.view at hview
  split at hview
  · obtain rfl := Option.some.inj hview
    simp at hkind
  · split at hview
    · rename_i htype
      obtain rfl := Option.some.inj hview
      exact h.file t ht hid s₀ hs₀ htype
    · split at hview
      · obtain rfl := Option.some.inj hview
        simp at hkind
      · simp at hview

-- ============================================================================
-- Moments that can be told apart
-- ============================================================================

/-- The `n`-th write, of an agent whose conversation and runtime fields both say
    so. -/
def numberedMoment (n : Nat) (k : Writing ι) : Moment ι :=
  ⟨k, fun _ => { maxMessages := some n }, 0, { maxIterations := n }, []⟩

theorem encodable_agentFields (runId : PyStr) (n : Nat) (h : encodable (redactSecrets runId) = true) :
    Json.encodableFields (checkpointStep runId { maxIterations := n }).payload = true := by
  have hkeys : ∀ key ∈ [py "run_id", py "agent", py "mode", py "sticky_max", py "max_iterations",
      py "max_iterations_override", py "enable_extended_reasoning", py "pending_confirmation",
      py "pending_remaining_calls", AgentMode.max.value], encodable key = true := by
    decide
  simp only [List.forall_mem_cons] at hkeys
  have hredact : redactRuntime { maxIterations := n } = { maxIterations := n } := rfl
  unfold checkpointStep
  rw [redactFields_cons (sensitiveKey_record _ (by simp)),
    redactFields_cons (sensitiveKey_record _ (by simp)), redactValue_runtimeToJson, hredact]
  simp [redactFields, redactValue, Runtime.toJson, optional, Json.encodableFields, Json.encodable,
    Json.encodableList, hkeys, h]

theorem encodable_resumedFields (runId : PyStr) (h : encodable (redactSecrets runId) = true) :
    Json.encodableFields (resumedStep runId).payload = true := by
  have hkeys : encodable (py "run_id") = true ∧ encodable (py "checkpoint_id") = true := by
    decide
  have hsens : sensitiveKey (py "checkpoint_id") = false := by decide +kernel
  unfold resumedStep
  rw [redactFields_cons (sensitiveKey_record _ (by simp)), redactFields_cons hsens]
  simp [redactFields, redactValue, Json.encodableFields, Json.encodable, hkeys, h]

theorem redactState_numbered (n : Nat) :
    redactState { maxMessages := some (n : Int) } = stateToDict { maxMessages := some (n : Int) } := by
  simp [redactState, stateToDict, redactFields, redactValue, redactList, optStr, optional]

theorem encodable_numbered (n : Nat) :
    Json.encodableFields (stateToDict { maxMessages := some (n : Int) }) = true := by
  have hkey := encodable_fieldNames
  simp only [List.forall_mem_cons] at hkey
  simp [stateToDict, Json.encodableFields, Json.encodable, Json.encodableList, optStr, optional, hkey]

theorem numberedMoment_legible (n : Nat) (k : Writing ι) (hrun : runId ≠ [])
    (htext : encodable runId = true ∧ encodable (redactSecrets runId) = true) :
    (numberedMoment n k).legible (withManager path recorder) runId := by
  have htypes : ∀ k : StepKind, encodable k.eventType = true := by
    intro k
    cases k <;> decide
  have hheap : Heap.legible fun _ => ({ maxMessages := some (n : Int) } : ConversationState) :=
    fun _ => encodable_numbered n
  have hsnap : ∀ who, (⟨who, .snapshot 0 (some runId), fun _ => { maxMessages := some (n : Int) }, []⟩ :
      Call (Option ι)).legible (withManager path recorder) := by
    intro who
    refine ⟨hheap, fun id e hrec => ?_⟩
    obtain ⟨rfl, rfl⟩ := Prod.mk.inj (Option.some.inj
      ((records_snapshot (numberedMoment n k) who).symm.trans hrec))
    refine ⟨⟨hrun, htext.1⟩, rfl, htypes .snapshot, ?_⟩
    unfold ReplayRecorder.capture
    split
    · exact rfl
    · have hkey : encodable (py "state") = true := encodable_fieldNames _ (by simp)
      simp [Payload.legible, Json.encodableFields, Json.encodable, hkey, numberedMoment,
        redactState_numbered, encodable_numbered]
  have hevent : ∀ (kind : StepKind) payload,
      Json.encodableFields (redactFields ((py "run_id", .str runId) :: payload)) = true →
      (⟨none, .handle ⟨kind.eventType, (py "run_id", .str runId) :: payload⟩,
        fun _ => { maxMessages := some (n : Int) }, []⟩ :
        Call (Option ι)).legible (withManager path recorder) := by
    intro kind payload hpayload
    refine ⟨hheap, fun id e hrec => ?_⟩
    obtain ⟨rfl, rfl⟩ := Prod.mk.inj (Option.some.inj
      ((records_event (numberedMoment n k) kind payload hrun).symm.trans hrec))
    exact ⟨⟨hrun, htext.1⟩, rfl, htypes kind, hpayload⟩
  intro c hc
  unfold Moment.calls numberedMoment at hc
  cases k with
  | save =>
      simp only [List.mem_cons, List.not_mem_nil, or_false] at hc
      rcases hc with rfl | rfl
      · exact hsnap none
      · exact hevent .checkpoint _ (encodable_agentFields runId n htext.2)
  | snapshot i =>
      simp only [List.mem_singleton] at hc
      exact hc ▸ hsnap (some i)
  | resumed =>
      simp only [List.mem_singleton] at hc
      exact hc ▸ hevent .resumed _ (encodable_resumedFields runId htext.2)

omit [DecidableEq ι] in
theorem restored_numbered (n : Nat) (k : Writing ι) :
    (numberedMoment n k).restored
      = .ok ({ maxMessages := some (n : Int) }, { maxIterations := (n : Int) }) := rfl

-- ============================================================================
-- When state and runtime belong together
-- ============================================================================

/-- The last snapshot is a checkpoint's: after the last save the run was at most
    resumed. -/
def LastIsSave (ks : List (Writing ι)) : Prop :=
  ∃ ks₁ ks₂, ks = ks₁ ++ .save :: ks₂ ∧ ∀ k ∈ ks₂, k = .resumed

omit [DecidableEq ι] in
/-- The last write that is no resume. -/
theorem exists_last_snapshot {ks : List (Writing ι)} (h : .save ∈ ks) :
    LastIsSave ks ∨ ∃ ks₁ i ks₂, ks = ks₁ ++ .snapshot i :: ks₂ ∧ ∀ k ∈ ks₂, k = .resumed := by
  induction ks with
  | nil => simp at h
  | cons k ks ih =>
      by_cases hks : .save ∈ ks
      · rcases ih hks with ⟨ks₁, ks₂, rfl, hres⟩ | ⟨ks₁, i, ks₂, rfl, hres⟩
        · exact .inl ⟨k :: ks₁, ks₂, rfl, hres⟩
        · exact .inr ⟨k :: ks₁, i, ks₂, rfl, hres⟩
      · -- no save in the rest, so this is one; only recorders can follow it
        obtain rfl : Writing.save = k := by simpa [hks] using h
        by_cases hres : ∀ k ∈ ks, k = .resumed
        · exact .inl ⟨[], ks, rfl, hres⟩
        · right
          have hsplit : ∀ ks : List (Writing ι), .save ∉ ks → (¬ ∀ k ∈ ks, k = .resumed) →
              ∃ ks₁ i ks₂, ks = ks₁ ++ .snapshot i :: ks₂ ∧ ∀ k ∈ ks₂, k = .resumed := by
            intro ks
            induction ks with
            | nil => simp
            | cons k ks ih' =>
                intro hno hex
                by_cases hrest : ∀ k ∈ ks, k = .resumed
                · cases k with
                  | save => simp at hno
                  | snapshot i => exact ⟨[], i, ks, rfl, hrest⟩
                  | resumed => exact absurd (by simpa using hrest) hex
                · obtain ⟨ks₁, i, ks₂, rfl, hres⟩ := ih' (fun hin => hno (by simp [hin])) hrest
                  exact ⟨k :: ks₁, i, ks₂, rfl, hres⟩
          obtain ⟨ks₁, i, ks₂, rfl, hres'⟩ := hsplit ks hks hres
          exact ⟨.save :: ks₁, i, ks₂, rfl, hres'⟩

theorem start_runtimes {file : ReplayFile} (hfile : ∀ t, file = some t → t.runId ≠ runId) :
    RuntimesFrom P runId (Recording.start file : Recording (Option ι)) :=
  ⟨fun t ht hid => absurd hid (hfile t ht), by simp [Recording.start]⟩

/-- A snapshot of an agent's recorder was the last: the resumed agent has the
    conversation of that moment, and no other has both. -/
theorem not_together_of_snapshot (hsetup : (withManager path recorder).legible)
    {file : ReplayFile} (hfile : ∀ t, file = some t → t.runId ≠ runId ∧ Lineage t ∧
      t.toJson.encodable = true ∧ t.problem = none) (hrun : runId ≠ [])
    (htext : encodable runId = true ∧ encodable (redactSecrets runId) = true)
    {ks₁ ks₂ : List (Writing ι)} {i : ι} (hres : ∀ k ∈ ks₂, k = .resumed) :
    ¬ Together (withManager path recorder) file runId
      ((ks₁ ++ .snapshot i :: ks₂).mapIdx numberedMoment) := by
  set ms := (ks₁ ++ .snapshot i :: ks₂).mapIdx numberedMoment with hms
  have hlegible : ∀ m ∈ ms, m.legible (withManager path recorder) runId := by
    intro m hm
    obtain ⟨n, hn, rfl⟩ := List.mem_mapIdx.mp hm
    exact numberedMoment_legible n _ hrun htext
  have hsplit : ms = ks₁.mapIdx numberedMoment ++ numberedMoment ks₁.length (.snapshot i) ::
      ks₂.mapIdx fun n => numberedMoment (n + 1 + ks₁.length) := by
    simp [hms, List.mapIdx_append, List.mapIdx_cons]
  have hstart : Sound (Recording.start file : Recording (Option ι)) :=
    ⟨_, start_refines fun t ht => (hfile t ht).2⟩
  -- the runtime step a resume finds was saved under another number
  have hruntimes : RuntimesFrom (fun v => ∃ j : Nat,
      (ks₁ ++ .snapshot i :: ks₂)[j]? = some Writing.save ∧
        v = (checkpointStep runId { maxIterations := (j : Int) }).payload) runId
      (ms.foldl (Recording.write (withManager path recorder) runId) (Recording.start file)) := by
    refine runtimes_saved hrun ms (start_runtimes fun t ht => (hfile t ht).1) ?_
    intro m hm hsave
    obtain ⟨n, hn, rfl⟩ := List.mem_mapIdx.mp hm
    refine ⟨n, ?_, rfl⟩
    rw [List.getElem?_eq_getElem hn]
    exact congrArg some hsave
  have hmid : ∀ m ∈ ks₁.mapIdx numberedMoment, m.legible (withManager path recorder) runId :=
    fun m hm => hlegible m (by simp [hsplit, hm])
  obtain ⟨h₁, t, steps, ht, hview⟩ := write_snapshot hsetup (foldl_sound hsetup hrun _ hmid hstart)
    (m := numberedMoment ks₁.length (.snapshot i)) rfl (numberedMoment_legible _ _ hrun htext)
  have hstate : (recorder i).captured { maxMessages := some (ks₁.length : Int) }
      = stateToDict { maxMessages := some (ks₁.length : Int) } := by
    simp [ReplayRecorder.captured, redactState_numbered]
  have hlatest : Latest ((ks₁.mapIdx numberedMoment).foldl
      (Recording.write (withManager path recorder) runId) (Recording.start file) |>.write
        (withManager path recorder) runId (numberedMoment ks₁.length (.snapshot i))) runId
      (stateToDict { maxMessages := some (ks₁.length : Int) }) (lastPayload steps .checkpoint) := by
    refine ⟨t, ht, congrArg ReplayRun.runId hview, ?_, ?_⟩
    · rw [hview, lastPayload_append, if_pos rfl]
      exact congrArg (fun d => some [(py "state", Json.obj d)]) hstate
    · rw [hview, lastPayload_append, if_neg (by simp)]
  obtain ⟨h₂, hl⟩ := latest_resumed hsetup hrun
    (ks₂.mapIdx fun n => numberedMoment (n + 1 + ks₁.length)) (by
      intro m hm
      obtain ⟨n, hn, rfl⟩ := List.mem_mapIdx.mp hm
      exact hres _ (List.getElem_mem hn))
    (fun m hm => hlegible m (by rw [hsplit]; simp [hm])) h₁ hlatest
  have hfold : ms.foldl (Recording.write (withManager path recorder) runId) (Recording.start file)
      = (ks₂.mapIdx fun n => numberedMoment (n + 1 + ks₁.length)).foldl
        (Recording.write (withManager path recorder) runId)
        (((ks₁.mapIdx numberedMoment).foldl (Recording.write (withManager path recorder) runId)
          (Recording.start file)).write (withManager path recorder) runId
            (numberedMoment ks₁.length (.snapshot i))) := by
    rw [hsplit, List.foldl_append, List.foldl_cons]
  rw [← hfold] at h₂ hl
  rintro ⟨m, hm, hresume⟩
  obtain ⟨n, hn, rfl⟩ := List.mem_mapIdx.mp hm
  rw [restored_numbered] at hresume
  cases hcheck : lastPayload steps .checkpoint with
  | none =>
      rw [hcheck] at hl
      rw [fileAfter, resumeFile_incomplete h₂ hl] at hresume
      simp at hresume
  | some v =>
      rw [hcheck] at hl
      obtain ⟨j, hj, rfl⟩ := hruntimes.latest hl
      have hback : resumeFile path _ runId = _ :=
        resumeFile_of_latest h₂ (stateFromDict_stateToDict _) hl
      have hboth : (Except.ok (rebuildConv { maxMessages := some (ks₁.length : Int) },
          ({ maxIterations := (j : Int) } : Runtime)) : Except PyExc _)
          = .ok ({ maxMessages := some (n : Int) }, { maxIterations := (n : Int) }) :=
        hback.symm.trans hresume
      have hpair := Except.ok.inj hboth
      have hconv : (ks₁.length : Int) = n := by
        have hmax := congrArg (fun p => p.1.maxMessages) hpair
        simpa [rebuildConv] using hmax
      have hruntime : (j : Int) = n := by
        have hmax := congrArg (fun p => p.2.maxIterations) hpair
        simpa using hmax
      obtain rfl : j = ks₁.length := by omega
      simp at hj

/-- Whatever the agent's states were, a resume rebuilds the agent of one moment
    exactly if no recorder took a snapshot after the last checkpoint. -/
theorem resume_together_iff (path : PyStr) (recorder : ι → ReplayRecorder) (runId : PyStr)
    (file : ReplayFile) (ks : List (Writing ι)) (hsetup : (withManager path recorder).legible)
    (hfile : ∀ t, file = some t → t.runId ≠ runId ∧ Lineage t ∧ t.toJson.encodable = true ∧
      t.problem = none)
    (hrun : runId ≠ []) (htext : encodable runId = true ∧ encodable (redactSecrets runId) = true)
    (hks : .save ∈ ks) :
    (∀ ms : List (Moment ι), ms.map Moment.writing = ks →
      (∀ m ∈ ms, m.legible (withManager path recorder) runId) →
      Together (withManager path recorder) file runId ms) ↔ LastIsSave ks := by
  constructor
  · intro h
    rcases exists_last_snapshot hks with hlast | ⟨ks₁, i, ks₂, rfl, hres⟩
    · exact hlast
    · have hnot : ¬ Together (withManager path recorder) file runId
          ((ks₁ ++ .snapshot i :: ks₂).mapIdx numberedMoment) :=
        not_together_of_snapshot hsetup hfile hrun htext hres
      refine absurd (h _ ?_ ?_) hnot
      · apply List.ext_getElem <;> simp [numberedMoment]
      · intro m hm
        obtain ⟨n, hn, rfl⟩ := List.mem_mapIdx.mp hm
        exact numberedMoment_legible n _ hrun htext
  · rintro ⟨ks₁, ks₂, rfl, hres⟩ ms hwriting hms
    obtain ⟨ms₁, ms', rfl, -, hrest⟩ := List.map_eq_append_iff.mp hwriting
    obtain ⟨m, ms₂, rfl, hsave, hafter⟩ := List.map_eq_cons_iff.mp hrest
    have hstart : Sound (Recording.start file : Recording (Option ι)) :=
      ⟨_, start_refines fun t ht => (hfile t ht).2⟩
    refine ⟨m, by simp, resumeFile_of_last_save hsetup hrun hstart hsave ?_ hms⟩
    intro m' hm'
    exact hres _ (hafter ▸ List.mem_map_of_mem hm')

end Writers

-- ============================================================================
-- A confirmation that was answered
-- ============================================================================

/-- The agents' recorders redact. -/
def redactingRecorder : Unit → ReplayRecorder := fun _ => {}

theorem redactingRecorder_legible : (withManager (py "run.json") redactingRecorder).legible := by
  intro i
  cases i with
  | none => exact ⟨by simp [withManager], rfl, rfl⟩
  | some i => exact ⟨by simp [withManager, redactingRecorder], rfl, rfl⟩

/-- A snapshot, a checkpoint, a resume: the agent of the checkpoint comes back. -/
theorem saved_last_together : Together (withManager (py "run.json") redactingRecorder) none (py "r")
    ([.snapshot (), .save, .resumed].mapIdx numberedMoment) := by
  have htexts : py "r" ≠ [] ∧ encodable (py "r") = true ∧
      encodable (redactSecrets (py "r")) = true := by decide
  refine (resume_together_iff (py "run.json") redactingRecorder (py "r") none
    [.snapshot (), .save, .resumed] redactingRecorder_legible (by simp) htexts.1 htexts.2
    (by simp)).mpr ⟨[.snapshot ()], [.resumed], rfl, by simp⟩ _ rfl ?_
  intro m hm
  obtain ⟨n, hn, rfl⟩ := List.mem_mapIdx.mp hm
  exact numberedMoment_legible n _ htexts.1 htexts.2

/-- A call that waits for a human. -/
def waitingCall : ToolCall := ⟨py "c1", py "delete", .obj []⟩

/-- The conversation at the pause. -/
def pausedConv : ConversationState :=
  { messages := [assistantMessage (.arr [.obj [(py "type", .str (py "tool_use")),
      (py "id", .str (py "c1")), (py "name", .str (py "delete")), (py "input", .obj [])]])] }

/-- The runtime fields at the pause. -/
def pausedRuntime : Runtime :=
  { pendingConfirmation := some ⟨waitingCall, [], ⟨true, [], true⟩⟩
    pendingRemainingCalls := [waitingCall] }

/-- The pause, the resume, and the snapshot after the answer. -/
def answeredRun : List (Moment Unit) :=
  [⟨.save, fun _ => pausedConv, 0, pausedRuntime, []⟩,
   ⟨.resumed, fun _ => pausedConv, 0, pausedRuntime, []⟩,
   ⟨.snapshot (), fun _ => pausedConv.addToolResult (py "c1") (py "ok") false, 0, {}, []⟩]

/-- Resumed once more, the agent waits for the answer to a call whose result is
    in its history. -/
theorem answered_call_pending_again :
    resumeFile (py "run.json") (fileAfter (withManager (py "run.json") redactingRecorder) none
        (py "r") answeredRun) (py "r")
      = .ok (pausedConv.addToolResult (py "c1") (py "ok") false, pausedRuntime) ∧
    ¬ Together (withManager (py "run.json") redactingRecorder) none (py "r") answeredRun := by
  have hresume : resumeFile (py "run.json") (fileAfter
      (withManager (py "run.json") redactingRecorder) none (py "r") answeredRun) (py "r")
        = .ok (pausedConv.addToolResult (py "c1") (py "ok") false, pausedRuntime) := by
    decide +kernel
  refine ⟨hresume, ?_⟩
  rintro ⟨m, hm, hm'⟩
  have hother : ∀ m ∈ answeredRun, m.restored
      ≠ .ok (pausedConv.addToolResult (py "c1") (py "ok") false, pausedRuntime) := by
    decide
  exact hother m hm (hm'.symm.trans hresume)

end Replay
end KineticSdk
