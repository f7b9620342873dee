/-
  KineticSdk.Replay.Lossless

  When recorders over one file lose steps.

  A set of recorders is a `Lib.SharedLog`: the file is the slot, a run in
  memory is a client's copy, and the run id is the key (`Refines`).  So, for
  texts the file can hold, recorders of one run keep every step exactly if a
  recorder that records again was the last to record, and one recorder keeps
  every step exactly if it never returns to a run.
-/

import KineticSdk.Lib.SharedLog
import KineticSdk.Replay.Recorder
import Mathlib.Data.List.Forall2

namespace KineticSdk
namespace Replay

open Py Security Conversation Lib

variable {ι : Type} [DecidableEq ι]

-- ============================================================================
-- Texts the file can hold
-- ============================================================================

/-- Every conversation can be written. -/
def Heap.legible (heap : Heap) : Prop :=
  ∀ c, Json.encodableFields (stateToDict (heap c)) = true

/-- The texts a payload holds itself can be written. -/
def Payload.legible : Payload → Prop
  | .own value => Json.encodableFields value = true
  | .live _ systemPrompt _ => (optStr systemPrompt).encodable = true

/-- The step can be written once the conversations can. -/
def TimelineStep.legible (s : TimelineStep Payload) : Prop :=
  encodable s.timestamp = true ∧ encodable s.eventType = true ∧ s.payload.legible

theorem encodable_fieldNames :
    ∀ key ∈ [py "run_id", py "steps", py "parent_run_id", py "fork_sequence", py "sequence",
      py "timestamp", py "event_type", py "payload", py "state", py "system_prompt",
      py "messages", py "max_messages", py "metadata"], encodable key = true := by
  decide

theorem encodableFields_stateToDict (c : ConversationState) :
    Json.encodableFields (stateToDict c) = ((optStr c.systemPrompt).encodable
      && Json.encodableFields (stateToDict { c with systemPrompt := none, maxMessages := none })) := by
  have hkey := encodable_fieldNames
  simp only [List.forall_mem_cons] at hkey
  have hmax : (optional Json.int c.maxMessages).encodable = true := by
    cases c.maxMessages <;> rfl
  have hnull : (optional Json.int none).encodable = true := rfl
  have hnone : (optStr none).encodable = true := rfl
  simp [stateToDict, Json.encodableFields, Json.encodable, hkey, hmax, hnull, hnone]

theorem encodable_step (s : TimelineStep Dict) :
    s.toJson.encodable
      = (encodable s.timestamp && encodable s.eventType && Json.encodableFields s.payload) := by
  have hkey := encodable_fieldNames
  simp only [List.forall_mem_cons] at hkey
  simp [TimelineStep.toJson, Json.encodable, Json.encodableFields, hkey, Bool.and_assoc]

theorem encodable_timeline (t : Timeline Dict) :
    t.toJson.encodable = ((encodable t.runId && (optStr t.parentRunId).encodable)
      && Json.encodableList (t.steps.map TimelineStep.toJson)) := by
  have hkey := encodable_fieldNames
  simp only [List.forall_mem_cons] at hkey
  cases hp : t.parentRunId <;> cases hf : t.forkSequence <;>
    simp [Timeline.toJson, hp, hf, optionalField, Json.encodable, Json.encodableFields, hkey, optStr,
      Bool.and_assoc, Bool.and_left_comm, Bool.and_comm]

theorem legible_render {heap : Heap} (hheap : heap.legible) {p : Payload} (hp : p.legible) :
    Json.encodableFields (p.render heap) = true := by
  cases p with
  | own value => exact hp
  | live conv systemPrompt maxMessages =>
      have hstate := hheap conv
      rw [encodableFields_stateToDict] at hstate
      have hkey : encodable (py "state") = true := encodable_fieldNames _ (by simp)
      have hprompt : (optStr systemPrompt).encodable = true := hp
      have hrest := (Bool.and_eq_true_iff.mp hstate).2
      simp only [Payload.render, Json.encodableFields, Json.encodable, hkey, Bool.and_true,
        Bool.true_and]
      rw [encodableFields_stateToDict, hprompt, Bool.true_and]
      exact hrest

-- ============================================================================
-- What a step in the file shows
-- ============================================================================

/-- The step is a copy of the entry: a payload of its own as it is, a live one
    as it was at some moment. -/
def Entry.Shows (e : Entry) (s : TimelineStep Dict) : Prop :=
  s.timestamp = e.timestamp ∧ s.eventType = e.eventType ∧
    ∃ heap, s.payload = e.payload.render heap

/-- The file holds the entries, once each, numbered from zero. -/
structure Stored (es : List Entry) (t : Timeline Dict) : Prop where
  numbered : t.steps.map TimelineStep.sequence = List.range t.steps.length
  shows : List.Forall₂ Entry.Shows es t.steps

/-- The step in memory will be written as a copy of the entry. -/
def Entry.KeptAs (e : Entry) (s : TimelineStep Payload) : Prop :=
  s.timestamp = e.timestamp ∧ s.eventType = e.eventType ∧
    ∀ heap, ∃ heap', s.payload.render heap = e.payload.render heap'

/-- A run id, parent and fork point that `from_dict` accepts and the file can
    hold. -/
structure Lineage {P : Type} (t : Timeline P) : Prop where
  runId : t.runId ≠ []
  parent : t.parentRunId ≠ some []
  fork : t.forkSequence.any (· < 0) = false
  legible : encodable t.runId = true ∧ (optStr t.parentRunId).encodable = true

/-- A run in memory that holds the entries. -/
structure InMemory (es : List Entry) (t : Timeline Payload) : Prop where
  lineage : Lineage t
  numbered : t.steps.map TimelineStep.sequence = List.range t.steps.length
  legible : ∀ s ∈ t.steps, s.legible
  kept : List.Forall₂ Entry.KeptAs es t.steps

/-- A run in the file that holds the entries and loads. -/
structure InFile (es : List Entry) (t : Timeline Dict) : Prop where
  lineage : Lineage t
  legible : t.toJson.encodable = true
  stored : Stored es t

theorem InFile.problem {es : List Entry} {t : Timeline Dict} (h : InFile es t) :
    t.problem = none := by
  simp [Timeline.problem, h.lineage.runId, h.lineage.parent, h.lineage.fork, h.stored.numbered]

theorem InFile.loaded {es : List Entry} {t : Timeline Dict} (h : InFile es t) :
    InMemory es (t.map .own) := by
  have hsteps := h.legible
  rw [encodable_timeline, Bool.and_eq_true, Json.encodableList_iff] at hsteps
  refine ⟨⟨h.lineage.runId, h.lineage.parent, h.lineage.fork, h.lineage.legible⟩, ?_, ?_, ?_⟩
  · have hseq : (t.map Payload.own).steps.map TimelineStep.sequence
        = t.steps.map TimelineStep.sequence := by
      simp [Timeline.map, TimelineStep.map]
    rw [hseq, h.stored.numbered]
    simp [Timeline.map]
  · intro s hs
    obtain ⟨s', hs', rfl⟩ := List.mem_map.mp hs
    have hs' := hsteps.2 s'.toJson (List.mem_map_of_mem hs')
    rw [encodable_step] at hs'
    simpa [TimelineStep.legible, TimelineStep.map, Payload.legible, and_assoc] using hs'
  · have hkept : ∀ (e : Entry) s, e.Shows s → e.KeptAs (s.map Payload.own) := by
      rintro e s ⟨htime, htype, heap, hpayload⟩
      exact ⟨htime, htype, fun _ => ⟨heap, hpayload⟩⟩
    simp only [Timeline.map, List.forall₂_map_right_iff]
    exact h.stored.shows.imp hkept

/-- A run with one more entry is written as a run that loads. -/
theorem InMemory.written {es : List Entry} {t : Timeline Payload} (h : InMemory es t) {e : Entry}
    (hlegible : encodable e.timestamp = true ∧ encodable e.eventType = true ∧ e.payload.legible)
    {heap : Heap} (hheap : heap.legible) :
    InMemory (es ++ [e]) (t.append e.timestamp e.eventType e.payload) ∧
      InFile (es ++ [e]) ((t.append e.timestamp e.eventType e.payload).map (Payload.render heap)) := by
  have hmem : InMemory (es ++ [e]) (t.append e.timestamp e.eventType e.payload) := by
    refine ⟨⟨h.lineage.runId, h.lineage.parent, h.lineage.fork, h.lineage.legible⟩, ?_, ?_, ?_⟩
    · simp [Timeline.append, h.numbered, List.range_succ]
    · intro s hs
      rcases List.mem_append.mp hs with hs | hs
      · exact h.legible s hs
      · obtain rfl := List.mem_singleton.mp hs
        exact hlegible
    · exact List.rel_append h.kept (.cons ⟨rfl, rfl, fun heap => ⟨heap, rfl⟩⟩ .nil)
  refine ⟨hmem, ⟨hmem.lineage.runId, hmem.lineage.parent, hmem.lineage.fork, hmem.lineage.legible⟩,
    ?_, ?_, ?_⟩
  · rw [encodable_timeline, Bool.and_eq_true, Bool.and_eq_true, Json.encodableList_iff]
    refine ⟨hmem.lineage.legible, ?_⟩
    intro x hx
    simp only [Timeline.map, List.map_map, List.mem_map] at hx
    obtain ⟨s, hs, rfl⟩ := hx
    obtain ⟨htime, htype, hpayload⟩ := hmem.legible s hs
    rw [Function.comp_apply, encodable_step]
    simp [TimelineStep.map, htime, htype, legible_render hheap hpayload]
  · have hseq := hmem.numbered
    simpa [Timeline.map, TimelineStep.map, Function.comp_def] using hseq
  · simp only [Timeline.map, List.forall₂_map_right_iff]
    exact hmem.kept.imp fun e s hs => ⟨hs.1, hs.2.1, hs.2.2 heap⟩

-- ============================================================================
-- The refinement
-- ============================================================================

/-- The entry of a step that was in the file from the start. -/
def TimelineStep.entry (s : TimelineStep Dict) : Entry := ⟨s.timestamp, s.eventType, .own s.payload⟩

/-- The log of a file no recorder has read yet. -/
def logOfFile (file : ReplayFile) : SharedLog ι PyStr Entry :=
  ⟨file.map fun t => (t.runId, t.steps.map TimelineStep.entry), fun _ => none⟩

/-- The write a call comes to. -/
def Call.write (setup : Setup ι) (c : Call ι) : Option (Write ι PyStr Entry) :=
  (c.records setup).map fun r => ⟨c.recorder, r.1, r.2⟩

/-- The file and the runs in memory are those of the log. -/
structure Refines (w : Recording ι) (s : SharedLog ι PyStr Entry) : Prop where
  file : (w.file = none ∧ s.slot = none) ∨
    ∃ t es, w.file = some t ∧ s.slot = some (t.runId, es) ∧ InFile es t
  memory : ∀ i, (w.current i = none ∧ s.copy i = none) ∨
    ∃ t es, w.current i = some t ∧ s.copy i = some (t.runId, es) ∧ InMemory es t

/-- The recorders were constructed with lineages the file can hold. -/
def Setup.legible (setup : Setup ι) : Prop :=
  ∀ i, (setup.recorder i).parentRunId ≠ some [] ∧
    (setup.recorder i).forkSequence.any (· < 0) = false ∧
    (optStr (setup.recorder i).parentRunId).encodable = true

/-- The call records nothing the file cannot hold. -/
structure Call.legible (setup : Setup ι) (c : Call ι) : Prop where
  heap : c.heap.legible
  entry : ∀ runId e, c.records setup = some (runId, e) →
    (runId ≠ [] ∧ encodable runId = true) ∧
      encodable e.timestamp = true ∧ encodable e.eventType = true ∧ e.payload.legible

variable {setup : Setup ι} {w : Recording ι} {s : SharedLog ι PyStr Entry}

/-- A recorder goes on with the run that the log says it goes on with. -/
theorem switchTo_refines (hsetup : setup.legible) (h : Refines w s) (i : ι) {runId : PyStr}
    (hrun : runId ≠ [] ∧ encodable runId = true) :
    ∃ t, (setup.recorder i).switchTo setup.path w.file (w.current i) runId = .ok t ∧
      t.runId = runId ∧ InMemory (s.base i runId) t := by
  have hfresh : InMemory [] (⟨runId, [], (setup.recorder i).parentRunId,
      (setup.recorder i).forkSequence⟩ : Timeline Payload) := by
    obtain ⟨hparent, hfork, htext⟩ := hsetup i
    exact ⟨⟨hrun.1, hparent, hfork, hrun.2, htext⟩, rfl, by simp, .nil⟩
  have hnew : ∃ t, (setup.recorder i).newRun setup.path w.file runId = .ok t ∧
      t.runId = runId ∧ InMemory ((logOf runId s.slot).getD []) t := by
    rcases h.file with ⟨hfile, hslot⟩ | ⟨t, es, hfile, hslot, ht⟩
    · refine ⟨_, by rw [hfile]; rfl, rfl, ?_⟩
      rw [hslot]
      exact hfresh
    · have hload : load setup.path w.file = .ok (some t) := by simp [load, hfile, ht.problem]
      by_cases hid : t.runId = runId
      · refine ⟨t.map .own, by simp [ReplayRecorder.newRun, hload, hid], hid, ?_⟩
        rw [hslot, hid, logOf_self]
        exact ht.loaded
      · refine ⟨⟨runId, [], _, _⟩, by simp [ReplayRecorder.newRun, hload, hid]; exact ⟨rfl, rfl⟩, rfl,
          ?_⟩
        rw [hslot, logOf_of_ne hid]
        exact hfresh
  rcases h.memory i with ⟨hcur, hcopy⟩ | ⟨t, es, hcur, hcopy, ht⟩
  · rw [hcur, SharedLog.base, hcopy, logOf_none, Option.none_or]
    exact hnew
  · by_cases hid : t.runId = runId
    · refine ⟨t, by simp [ReplayRecorder.switchTo, hcur, hid], hid, ?_⟩
      rw [SharedLog.base, hcopy, hid, logOf_self]
      exact ht
    · rw [SharedLog.base, hcopy, logOf_of_ne hid, Option.none_or, hcur]
      simpa [ReplayRecorder.switchTo, hid] using hnew

/-- Recording an entry succeeds and is one write of the log. -/
theorem record_refines (hsetup : setup.legible) (h : Refines w s) (i : ι) {heap : Heap}
    (hheap : heap.legible) {runId : PyStr} (hrun : runId ≠ [] ∧ encodable runId = true) {e : Entry}
    (hentry : encodable e.timestamp = true ∧ encodable e.eventType = true ∧ e.payload.legible) :
    ∃ t, (setup.recorder i).switchTo setup.path w.file (w.current i) runId = .ok t ∧
      t.runId = runId ∧
      w.record setup i heap runId e = (.ok (),
        ⟨some ((t.append e.timestamp e.eventType e.payload).map (Payload.render heap)),
          Function.update w.current i (some (t.append e.timestamp e.eventType e.payload))⟩) ∧
      Refines (w.record setup i heap runId e).2 (s.write ⟨i, runId, e⟩) := by
  obtain ⟨t, hswitch, hid, ht⟩ := switchTo_refines hsetup h i hrun
  obtain ⟨hmem, hfile⟩ := ht.written hentry hheap
  have hrecord : w.record setup i heap runId e = (.ok (),
      ⟨some ((t.append e.timestamp e.eventType e.payload).map (Payload.render heap)),
        Function.update w.current i (some (t.append e.timestamp e.eventType e.payload))⟩) := by
    simp only [Recording.record, hswitch, hfile.legible, if_true]
  refine ⟨t, hswitch, hid, hrecord, ?_⟩
  rw [hrecord]
  refine ⟨.inr ⟨_, _, rfl, ?_, hfile⟩, ?_⟩
  · simp [SharedLog.write, Timeline.map, Timeline.append, hid]
  · intro j
    by_cases hj : j = i
    · subst hj
      refine .inr ⟨_, _, Function.update_self .., ?_, hmem⟩
      simp [SharedLog.write, Timeline.append, hid]
    · simpa [SharedLog.write, Function.update_of_ne hj] using h.memory j

/-- One call is one write of the log, or nothing. -/
theorem call_refines (hsetup : setup.legible) (h : Refines w s) {c : Call ι}
    (hc : c.legible setup) :
    Refines (w.call setup c).2 (s.run (c.write setup).toList) := by
  cases hrec : c.records setup with
  | none => simpa [Recording.call, Call.write, hrec] using h
  | some r =>
      obtain ⟨runId, e⟩ := r
      obtain ⟨hrun, hentry⟩ := hc.entry runId e hrec
      obtain ⟨-, -, -, -, hnext⟩ := record_refines hsetup h c.recorder hc.heap hrun hentry
      simpa [Recording.call, Call.write, hrec] using hnext

theorem run_refines (hsetup : setup.legible) (cs : List (Call ι)) (h : Refines w s)
    (hcs : ∀ c ∈ cs, c.legible setup) :
    Refines (w.run setup cs) (s.run (cs.filterMap (Call.write setup))) := by
  induction cs generalizing w s with
  | nil => exact h
  | cons c cs ih =>
      have hstep := call_refines hsetup h (hcs c List.mem_cons_self)
      have hrest := ih hstep fun c' hc' => hcs c' (List.mem_cons_of_mem c hc')
      cases hw : c.write setup <;> simpa [Recording.run, hw] using hrest

-- ============================================================================
-- Steps that are lost
-- ============================================================================

/-- The entries of a run: those the file held at the start, then those recorded. -/
def recordedSteps (setup : Setup ι) (file : ReplayFile) (cs : List (Call ι)) (runId : PyStr) :
    List Entry :=
  (match file with
    | some t => if t.runId = runId then t.steps.map TimelineStep.entry else []
    | none => [])
  ++ cs.filterMap fun c =>
    match c.records setup with
    | some (id, e) => if id = runId then some e else none
    | none => none

/-- Whenever a step of a run is recorded the file then holds every step of the
    run recorded so far, once, numbered from zero. -/
def NoStepLost (setup : Setup ι) (file : ReplayFile) (cs : List (Call ι)) : Prop :=
  Guarded (fun pre c => ∀ runId e, c.records setup = some (runId, e) →
    ∃ t, ((Recording.start file).run setup (pre ++ [c])).file = some t ∧ t.runId = runId ∧
      Stored (recordedSteps setup file (pre ++ [c]) runId) t) cs

/-- Nothing that is to be recorded is beyond what the file can hold. -/
structure Legible (setup : Setup ι) (file : ReplayFile) (cs : List (Call ι)) : Prop where
  recorders : setup.legible
  file : ∀ t, file = some t → Lineage t ∧ t.toJson.encodable = true ∧ t.problem = none
  calls : ∀ c ∈ cs, c.legible setup

theorem recordedSteps_eq_total (setup : Setup ι) (file : ReplayFile) (cs : List (Call ι))
    (runId : PyStr) :
    recordedSteps setup file cs runId
      = (logOfFile file).total (cs.filterMap (Call.write setup)) runId := by
  have hfile : (match file with
      | some t => if t.runId = runId then t.steps.map TimelineStep.entry else []
      | none => []) = (logOf runId (logOfFile (ι := ι) file).slot).getD [] := by
    cases file with
    | none => rfl
    | some t => by_cases h : t.runId = runId <;> simp [logOfFile, logOf, h]
  unfold recordedSteps SharedLog.total
  rw [hfile]
  congr 1
  induction cs with
  | nil => rfl
  | cons c cs ih =>
      cases hrec : c.records setup with
      | none => simp [Call.write, hrec, ih]
      | some r => by_cases h : r.1 = runId <;> simp [Call.write, hrec, h, ih]

theorem start_refines {file : ReplayFile} (h : ∀ t, file = some t →
      Lineage t ∧ t.toJson.encodable = true ∧ t.problem = none) :
    Refines (Recording.start file : Recording ι) (logOfFile file) := by
  refine ⟨?_, fun i => .inl ⟨rfl, rfl⟩⟩
  cases file with
  | none => exact .inl ⟨rfl, rfl⟩
  | some t =>
      obtain ⟨hlineage, htext, hproblem⟩ := h t rfl
      have hnumbered : t.steps.map TimelineStep.sequence = List.range t.steps.length := by
        by_contra hne
        simp [Timeline.problem, hlineage.runId, hlineage.parent, hlineage.fork, hne] at hproblem
      refine .inr ⟨t, _, rfl, rfl, hlineage, htext, hnumbered, ?_⟩
      rw [List.forall₂_map_left_iff]
      exact List.forall₂_same.mpr fun s _ => ⟨rfl, rfl, fun _ => {}, rfl⟩

/-- Recorders lose a step exactly when their log does. -/
theorem noStepLost_iff_complete {file : ReplayFile} {cs : List (Call ι)}
    (h : Legible setup file cs) :
    NoStepLost setup file cs ↔ (logOfFile file).Complete (cs.filterMap (Call.write setup)) := by
  rw [SharedLog.Complete, Guarded.filterMap_iff]
  refine Iff.symm (Guarded.congr ?_)
  rintro pre c post rfl hpre
  rw [← Guarded.filterMap_iff] at hpre
  cases hrec : c.records setup with
  | none => simp [Call.write, hrec]
  | some r =>
      obtain ⟨runId, e⟩ := r
      have href := run_refines h.recorders (pre ++ [c]) (start_refines h.file)
        fun c' hc' => h.calls c' (by rcases List.mem_append.mp hc' with hc' | hc' <;> simp_all)
      have hwrites : (pre ++ [c]).filterMap (Call.write setup)
          = pre.filterMap (Call.write setup) ++ [⟨c.recorder, runId, e⟩] := by
        simp [Call.write, hrec]
      have hwrite : Call.write setup c = some ⟨c.recorder, runId, e⟩ := by simp [Call.write, hrec]
      simp only [hwrite, Option.some.injEq, forall_eq', Prod.mk.injEq, and_imp,
        recordedSteps_eq_total]
      rw [hwrites] at href ⊢
      have hslot : ∃ t es, ((Recording.start file).run setup (pre ++ [c])).file = some t ∧
          ((logOfFile file).run (pre.filterMap (Call.write setup)
            ++ [⟨c.recorder, runId, e⟩])).slot = some (runId, es) ∧ t.runId = runId ∧ Stored es t := by
        rcases href.file with ⟨-, hnone⟩ | ⟨t, es, hfile, hslot, ht⟩
        · simp [SharedLog.write] at hnone
        · have hid : t.runId = runId := by
            simp only [SharedLog.run_append, SharedLog.run_cons, SharedLog.run_nil, SharedLog.write,
              Option.some.injEq, Prod.mk.injEq] at hslot
            exact hslot.1.symm
          exact ⟨t, es, hfile, by rw [hslot, hid], hid, ht.stored⟩
      obtain ⟨t, es, hfile, hslot, hid, hstored⟩ := hslot
      constructor
      · rintro hholds _ _ rfl rfl
        refine ⟨t, hfile, hid, ?_⟩
        rw [SharedLog.Holds, hslot] at hholds
        obtain ⟨-, rfl⟩ := Prod.mk.inj (Option.some.inj hholds)
        exact hstored
      · intro hkept
        obtain ⟨t', hfile', -, hstored'⟩ := hkept runId e rfl rfl
        obtain rfl : t = t' := Option.some.inj (hfile.symm.trans hfile')
        refine (SharedLog.holds_iff_length (fun _ => rfl) hpre).mpr ⟨es, hslot, ?_⟩
        rw [hstored.shows.length_eq, hstored'.shows.length_eq]

-- ============================================================================
-- Several recorders of one run
-- ============================================================================

/-- A recorder that records was the last to record, or records for the first
    time. -/
def TakeTurns (setup : Setup ι) (cs : List (Call ι)) : Prop :=
  Guarded SharedLog.FirstOrLast (cs.filterMap (Call.write setup))

/-- Recorders of one run keep every step exactly if none of them writes after
    another has. -/
theorem recorders_lossless_iff (setup : Setup ι) (file : ReplayFile) (runId : PyStr)
    (cs : List (Call ι)) (htext : Legible setup file cs)
    (hrun : ∀ c ∈ cs, ∀ id e, c.records setup = some (id, e) → id = runId) :
    NoStepLost setup file cs ↔ TakeTurns setup cs := by
  rw [noStepLost_iff_complete htext]
  refine SharedLog.complete_iff_of_key (fun _ => rfl) (k := runId) ?_
  intro w hw
  obtain ⟨c, hc, hwrite⟩ := List.mem_filterMap.mp hw
  obtain ⟨⟨id, e⟩, hrec, rfl⟩ := Option.map_eq_some_iff.mp hwrite
  exact hrun c hc id e hrec

/-- Recorder 0 belongs to an agent, the others to a checkpoint manager. -/
def agentAndManager : Setup Nat where
  path := py "run.json"
  recorder i := { captureRawSnapshots := i != 0 }

/-- An event of the run. -/
def runEvent (runId type : PyStr) : Event := ⟨type, [(py "run_id", .str runId)]⟩

/-- A call while the only conversation is empty. -/
def callBy (recorder : Nat) (request : Request) : Call Nat :=
  ⟨recorder, request, fun _ => {}, py "2024-01-01T00:00:00+00:00"⟩

theorem callBy_legible (i : Nat) (request : Request)
    (h : ∀ runId e, (callBy i request).records agentAndManager = some (runId, e) →
      (runId ≠ [] ∧ encodable runId = true) ∧
        encodable e.timestamp = true ∧ encodable e.eventType = true ∧ e.payload.legible) :
    (callBy i request).legible agentAndManager := by
  refine ⟨fun _ => ?_, h⟩
  have hempty : Json.encodableFields (stateToDict {}) = true := by decide
  exact hempty

/-- The agent records two steps, then a checkpoint is saved. -/
def savedAfter : List (Call Nat) :=
  [callBy 0 (.handle (runEvent (py "r") (py "agent.run_started"))),
   callBy 0 (.snapshot 0 (some (py "r"))), callBy 1 (.snapshot 0 (some (py "r")))]

theorem savedAfter_records :
    (callBy 0 (.handle (runEvent (py "r") (py "agent.run_started")))).records agentAndManager
      = some (py "r", ⟨py "2024-01-01T00:00:00+00:00", py "agent.run_started",
        .own [(py "run_id", .str (py "r"))]⟩) ∧
    (callBy 0 (.snapshot 0 (some (py "r")))).records agentAndManager
      = some (py "r", ⟨py "2024-01-01T00:00:00+00:00", snapshotType,
        .own [(py "state", .obj (redactState {}))]⟩) ∧
    (callBy 1 (.snapshot 0 (some (py "r")))).records agentAndManager
      = some (py "r", ⟨py "2024-01-01T00:00:00+00:00", snapshotType, .live 0 none none⟩) := by
  refine ⟨?_, rfl, rfl⟩
  have hrun : (agentAndManager.recorder 0).runOf (runEvent (py "r") (py "agent.run_started"))
      = some (py "r") := by decide
  have hredact : redactFields (runEvent (py "r") (py "agent.run_started")).payload
      = [(py "run_id", .str (py "r"))] := by decide
  simp only [Call.records, callBy, hrun, hredact, Option.map_some]
  rfl

theorem savedAfter_legible : Legible agentAndManager none savedAfter := by
  obtain ⟨hstart, hsnap, hsave⟩ := savedAfter_records
  have htexts : (py "r" ≠ [] ∧ encodable (py "r") = true) ∧
      encodable (py "2024-01-01T00:00:00+00:00") = true ∧
      encodable (py "agent.run_started") = true ∧ encodable snapshotType = true := by
    decide
  obtain ⟨hid, htime, hstarted, hsnapshot⟩ := htexts
  have hevent : Json.encodableFields [(py "run_id", .str (py "r"))] = true := by decide
  have hstate : Json.encodableFields [(py "state", .obj (redactState {}))] = true := by
    decide
  refine ⟨fun i => ⟨by simp [agentAndManager], rfl, rfl⟩, by simp, ?_⟩
  intro c hc
  simp only [savedAfter, List.mem_cons, List.not_mem_nil, or_false] at hc
  rcases hc with rfl | rfl | rfl
  · refine callBy_legible _ _ fun runId e hrec => ?_
    obtain ⟨rfl, rfl⟩ := Prod.mk.inj (Option.some.inj (hstart.symm.trans hrec))
    exact ⟨hid, htime, hstarted, hevent⟩
  · refine callBy_legible _ _ fun runId e hrec => ?_
    obtain ⟨rfl, rfl⟩ := Prod.mk.inj (Option.some.inj (hsnap.symm.trans hrec))
    exact ⟨hid, htime, hsnapshot, hstate⟩
  · refine callBy_legible _ _ fun runId e hrec => ?_
    obtain ⟨rfl, rfl⟩ := Prod.mk.inj (Option.some.inj (hsave.symm.trans hrec))
    exact ⟨hid, htime, hsnapshot, rfl⟩

theorem savedAfter_one_run : ∀ c ∈ savedAfter, ∀ id e,
    c.records agentAndManager = some (id, e) → id = py "r" := by
  obtain ⟨hstart, hsnap, hsave⟩ := savedAfter_records
  intro c hc id e hrec
  simp only [savedAfter, List.mem_cons, List.not_mem_nil, or_false] at hc
  rcases hc with rfl | rfl | rfl
  · exact (congrArg Prod.fst (Option.some.inj (hstart.symm.trans hrec))).symm
  · exact (congrArg Prod.fst (Option.some.inj (hsnap.symm.trans hrec))).symm
  · exact (congrArg Prod.fst (Option.some.inj (hsave.symm.trans hrec))).symm

/-- A checkpoint saved after the agent's own steps keeps them. -/
theorem savedAfter_lossless : NoStepLost agentAndManager none savedAfter := by
  refine (recorders_lossless_iff agentAndManager none (py "r") savedAfter savedAfter_legible
    savedAfter_one_run).mpr ?_
  obtain ⟨hstart, hsnap, hsave⟩ := savedAfter_records
  simp only [TakeTurns, savedAfter, List.filterMap_cons, Call.write, hstart, hsnap, hsave,
    Option.map_some, List.filterMap_nil]
  -- the agent goes first and again, the manager's recorder is new
  refine Guarded.snoc_iff.mpr ⟨Guarded.snoc_iff (t := [_]).mpr ⟨Guarded.snoc_iff (t := []).mpr
    ⟨Guarded.nil, .inl (by simp)⟩, .inr ⟨_, rfl, rfl⟩⟩, .inl ?_⟩
  simp [callBy]

/-- A checkpoint is saved between two steps of the agent. -/
def savedBetween : List (Call Nat) :=
  [callBy 0 (.snapshot 0 (some (py "r"))), callBy 1 (.snapshot 0 (some (py "r"))),
   callBy 0 (.snapshot 0 (some (py "r")))]

/-- The agent's second step overwrites the checkpoint: of three steps the file
    holds two. -/
theorem savedBetween_loses_step : ¬ NoStepLost agentAndManager none savedBetween := by
  intro h
  obtain ⟨t, hfile, -, hstored⟩ := h [callBy 0 (.snapshot 0 (some (py "r"))),
    callBy 1 (.snapshot 0 (some (py "r")))] _ [] rfl (py "r") _ rfl
  have hlen : ((Recording.start none).run agentAndManager savedBetween).file.map
      (fun t => t.steps.length) = some 2 := by decide
  have htotal : (recordedSteps agentAndManager none savedBetween (py "r")).length = 3 := by
    decide
  have hsteps : t.steps.length = 2 := by
    have hfile' : ((Recording.start none).run agentAndManager savedBetween).file = some t := hfile
    rw [hfile'] at hlen
    exact Option.some.inj hlen
  have hstored' : Stored (recordedSteps agentAndManager none savedBetween (py "r")) t := hstored
  have hcount := hstored'.shows.length_eq
  omega

-- ============================================================================
-- One recorder of several runs
-- ============================================================================

/-- A recorder that records a step of a run was recording that run already, or
    there is no step of the run to lose. -/
def NeverReturns (setup : Setup ι) (file : ReplayFile) (cs : List (Call ι)) : Prop :=
  Guarded (logOfFile file).LastOrNew (cs.filterMap (Call.write setup))

/-- One recorder keeps every step of every run exactly if it never returns to a
    run after it has recorded another. -/
theorem recorder_lossless_iff (setup : Setup ι) (file : ReplayFile) (i : ι) (cs : List (Call ι))
    (htext : Legible setup file cs) (hone : ∀ c ∈ cs, c.recorder = i) :
    NoStepLost setup file cs ↔ NeverReturns setup file cs := by
  rw [noStepLost_iff_complete htext]
  refine SharedLog.complete_iff_of_client (fun _ => rfl) (i := i) ?_
  intro w hw
  obtain ⟨c, hc, hwrite⟩ := List.mem_filterMap.mp hw
  obtain ⟨⟨id, e⟩, hrec, rfl⟩ := Option.map_eq_some_iff.mp hwrite
  exact hone c hc

/-- A snapshot of the conversation under a run id. -/
def snapshotOf (runId : PyStr) : Call Nat := callBy 0 (.snapshot 0 (some runId))

theorem snapshotOf_records (runId : PyStr) :
    (snapshotOf runId).records agentAndManager
      = some (runId, ⟨py "2024-01-01T00:00:00+00:00", snapshotType,
        .own [(py "state", .obj (redactState {}))]⟩) := rfl

/-- A parent run and, after its last step, a sub-agent's run. -/
theorem delegated_last_lossless :
    NoStepLost agentAndManager none [snapshotOf (py "parent"), snapshotOf (py "sub")] := by
  have htexts : encodable (py "2024-01-01T00:00:00+00:00") = true ∧
      encodable snapshotType = true ∧
      Json.encodableFields [(py "state", .obj (redactState {}))] = true := by decide
  have hids : ∀ id ∈ [py "parent", py "sub"], id ≠ [] ∧ encodable id = true := by decide
  have hlegible : ∀ id ∈ [py "parent", py "sub"], (snapshotOf id).legible agentAndManager := by
    intro id hid
    refine callBy_legible _ _ fun runId e hrec => ?_
    obtain ⟨rfl, rfl⟩ := Prod.mk.inj (Option.some.inj hrec)
    exact ⟨hids _ hid, htexts⟩
  refine (recorder_lossless_iff agentAndManager none 0 _
    ⟨fun i => ⟨by simp [agentAndManager], rfl, rfl⟩, by simp, ?_⟩ ?_).mpr ?_
  · intro c hc
    rcases List.mem_cons.mp hc with rfl | hc
    · exact hlegible _ (by simp)
    · obtain rfl := List.mem_singleton.mp hc
      exact hlegible _ (by simp)
  · simp [snapshotOf, callBy]
  · simp only [NeverReturns, List.filterMap_cons, Call.write, snapshotOf_records, Option.map_some,
      List.filterMap_nil]
    have hne : py "parent" ≠ py "sub" := by decide
    refine Guarded.snoc_iff (t := [_]).mpr ⟨Guarded.snoc_iff (t := []).mpr
      ⟨Guarded.nil, .inl rfl⟩, .inr (.inr ?_)⟩
    simp [SharedLog.total, logOfFile, hne]

/-- The parent goes on after its sub-agent: of its two steps the file holds one. -/
theorem delegated_between_loses_step :
    ¬ NoStepLost agentAndManager none
      [snapshotOf (py "parent"), snapshotOf (py "sub"), snapshotOf (py "parent")] := by
  intro h
  obtain ⟨t, hfile, -, hstored⟩ := h [snapshotOf (py "parent"), snapshotOf (py "sub")] _ [] rfl
    (py "parent") _ rfl
  have hlen : ((Recording.start none).run agentAndManager
      [snapshotOf (py "parent"), snapshotOf (py "sub"), snapshotOf (py "parent")]).file.map
      (fun t => t.steps.length) = some 1 := by decide
  have htotal : (recordedSteps agentAndManager none
      [snapshotOf (py "parent"), snapshotOf (py "sub"), snapshotOf (py "parent")]
      (py "parent")).length = 2 := by decide
  have hsteps : t.steps.length = 1 := by
    have hfile' : ((Recording.start none).run agentAndManager
        [snapshotOf (py "parent"), snapshotOf (py "sub"), snapshotOf (py "parent")]).file
        = some t := hfile
    rw [hfile'] at hlen
    exact Option.some.inj hlen
  have hcount : (recordedSteps agentAndManager none
      [snapshotOf (py "parent"), snapshotOf (py "sub"), snapshotOf (py "parent")]
      (py "parent")).length = t.steps.length := hstored.shows.length_eq
  omega

end Replay
end KineticSdk
