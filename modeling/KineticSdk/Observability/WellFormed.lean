/-
  KineticSdk.Observability.WellFormed

  When every trace stays a well-formed tree.

  `Sound` is what is asked of a tracer that has observed some events.  It holds
  all along a sequence of events exactly when each of them is `InOrder` in the
  state it comes in.
-/

import KineticSdk.Observability.Lifecycle

namespace KineticSdk
namespace Observability

open Py Lib Forest

-- ============================================================================
-- Well-formed traces
-- ============================================================================

/-- The spans of a run are a tree: every parent exists, every span is reached from
    the root, nothing below a closed span is open, and nothing is open after the
    run's terminal event. -/
structure WellFormed (ended : Bool) (s : RunState) : Prop where
  tree : ∀ spans, s.spans = some spans →
    ∃ root, s.runSpan = some root ∧ root ∈ ids spans ∧ Rooted (edges spans) root
  closed : ∀ spans, s.spans = some spans → ∀ ancestor ∈ ids spans, ancestor ∉ opens spans →
    ∀ node, Relation.TransGen (ParentOf (edges spans)) ancestor node → node ∉ opens spans
  finished : ∀ spans, s.spans = some spans → ended = true → opens spans = []

theorem Good.wellFormed {ended : Bool} {s : RunState} (h : Good ended s) : WellFormed ended s := by
  rcases h with h | ⟨rfl, root, spans, tools, retries, h⟩ | ⟨rfl, root, spans, h, hended⟩
  · refine ⟨fun spans hspans => ?_, fun spans hspans => ?_, fun spans hspans => ?_⟩ <;>
    · rw [h.kept] at hspans
      cases hspans
  · have hkept : ∀ spans', s.spans = some spans' → spans = spans' :=
      fun spans' hspans => Option.some.inj (h.core.books.kept.symm.trans hspans)
    refine ⟨fun spans' hspans => ?_, fun spans' hspans ancestor _ hclosed node hbelow hopen => ?_,
      fun _ _ hended => (by cases hended)⟩
    · obtain rfl := hkept spans' hspans
      exact ⟨root, h.core.runSpan, mem_ids_of_kinds h.core.rootKind, h.core.tree⟩
    · obtain rfl := hkept spans' hspans
      exact hclosed (h.live.nested.ancestors hbelow hopen)
  · have hkept : ∀ spans', s.spans = some spans' → spans = spans' :=
      fun spans' hspans => Option.some.inj (h.books.kept.symm.trans hspans)
    refine ⟨fun spans' hspans => ?_, fun spans' hspans ancestor _ _ node _ => ?_, fun spans' hspans _ => ?_⟩
    · obtain rfl := hkept spans' hspans
      exact ⟨root, h.runSpan, mem_ids_of_kinds h.rootKind, h.tree⟩
    · obtain rfl := hkept spans' hspans
      rw [hended.opens]
      exact List.not_mem_nil
    · obtain rfl := hkept spans' hspans
      exact hended.opens

-- ============================================================================
-- One event
-- ============================================================================

/-- Whether a run has ended, after one more of its events. -/
def endedAfter (e : Event) (ended : Bool) : Bool :=
  if e.type = py "agent.run_started" then false else if e.type ∈ terminalEvents then true else ended

/-- The event may come in this state of its run: a turn or a call with an id starts
    in a run that has not ended, and a turn while nothing is open under the
    current one. -/
def Allowed (ended : Bool) (s : RunState) (e : Event) : Prop :=
  s.runSpan ≠ none →
    (e.type = py "agent.turn_started" → ended = false ∧
      ∀ spans turn, s.spans = some spans → s.turnSpan = some turn →
        ∀ node, ParentOf (edges spans) turn node → node ∉ opens spans) ∧
    (e.type = py "agent.tool_call_started" → ∀ id, callId e.payload = some id → id ≠ [] → ended = false)

section Dispatch

variable {clock : Nat → Nat} {s : RunState} {ended : Bool} {e : Event}

theorem Reaches.good_live {x : TracerM Unit} (h : Reaches IsLive s x) : Reaches (Good false) s x :=
  h.mono (fun _ _ ⟨hlive, hissued⟩ => ⟨.inr (.inl ⟨rfl, hlive⟩), hissued⟩) (fun _ _ hno => hno)

theorem Reaches.good_ended {x : TracerM Unit} (h : Reaches IsEnded s x) : Reaches (Good true) s x :=
  h.mono (fun _ _ ⟨hended, hissued⟩ => ⟨.inr (.inr ⟨rfl, hended⟩), hissued⟩) (fun _ _ hno => hno)

theorem startTurn_good (h : Good ended s) (hallowed : Allowed ended s e)
    (htype : e.type = py "agent.turn_started") (runId : PyStr) :
    Reaches (Good ended) s (startTurn clock runId e.payload) := by
  rcases h with h | ⟨rfl, root, spans, tools, retries, h⟩ | ⟨rfl, root, spans, h, hended⟩
  · unfold Reaches startTurn
    rw [wp_bind, wp_get, h.runSpan]
    exact ⟨.inl h, Nat.le_refl _⟩
  · have hrun : s.runSpan ≠ none := by
      rw [h.core.runSpan]
      exact Option.some_ne_none _
    refine (startTurn_live runId e.payload h fun turn hturn => ?_).good_live
    exact ((hallowed hrun).1 htype).2 spans turn h.core.books.kept hturn
  · have hrun : s.runSpan ≠ none := by
      rw [h.runSpan]
      exact Option.some_ne_none _
    cases ((hallowed hrun).1 htype).1

theorem startTool_good (h : Good ended s) (hallowed : Allowed ended s e)
    (htype : e.type = py "agent.tool_call_started") (runId : PyStr) :
    Reaches (Good ended) s (startTool clock runId e.payload) := by
  have hsame : Wp (pure () : TracerM Unit) (fun _ s' => Good ended s' ∧ s.issued ≤ s'.issued)
      (fun _ _ => False) s := ⟨h, Nat.le_refl _⟩
  rcases h with h | ⟨rfl, root, spans, tools, retries, h⟩ | ⟨rfl, root, spans, h, hended⟩
  · unfold Reaches startTool
    rw [wp_bind, wp_get, h.runSpan]
    exact hsame
  · exact (startTool_live runId e.payload h).good_live
  · have hrun : s.runSpan ≠ none := by
      rw [h.runSpan]
      exact Option.some_ne_none _
    unfold Reaches startTool
    rw [wp_bind, wp_get]
    split
    · rename_i root' id _ hid
      by_cases hempty : id = []
      · rw [if_pos hempty]
        exact hsame
      · cases (hallowed hrun).2 htype id hid hempty
    · exact hsame

theorem startRetry_good (h : Good ended s) (runId : PyStr) (payload : Dict) :
    Reaches (Good ended) s (startRetry clock runId payload) := by
  by_cases hlive : IsLive s ∧ ended = false
  · obtain ⟨⟨root, spans, tools, retries, hrunning⟩, rfl⟩ := hlive
    exact (startRetry_live runId payload hrunning).good_live
  · have hidle : s.toolSpans = none := by
      rcases h with h | ⟨hended, h⟩ | ⟨-, root, spans, -, h⟩
      · exact h.toolSpans
      · exact absurd ⟨h, hended⟩ hlive
      · exact h.toolSpans
    unfold Reaches startRetry
    split
    · exact ⟨h, Nat.le_refl _⟩
    rw [wp_bind, wp_get, hidle, Option.getD_none, Dict.get?_nil]
    exact ⟨h, Nat.le_refl _⟩

theorem finishTool_good (h : Good ended s) (payload : Dict) :
    Reaches (Good ended) s (finishTool clock payload) := by
  by_cases hlive : IsLive s ∧ ended = false
  · obtain ⟨⟨root, spans, tools, retries, hrunning⟩, rfl⟩ := hlive
    exact (finishTool_live payload hrunning).good_live
  · have hidle : s.toolSpans = none ∧ s.retrySpans = none := by
      rcases h with h | ⟨hended, h⟩ | ⟨-, root, spans, -, h⟩
      · exact ⟨h.toolSpans, h.retrySpans⟩
      · exact absurd ⟨h, hended⟩ hlive
      · exact ⟨h.toolSpans, h.retrySpans⟩
    refine (finishTool_idle payload hidle.1 hidle.2).mono (fun _ s' hs' => ?_) (fun _ _ hno => hno)
    rw [hs']
    exact ⟨h, Nat.le_refl _⟩

theorem recordCompaction_good (h : Good ended s) (runId : PyStr) (payload : Dict) :
    Reaches (Good ended) s (recordCompaction clock runId payload) := by
  rcases h with h | ⟨rfl, root, spans, tools, retries, h⟩ | ⟨rfl, root, spans, h, hended⟩
  · unfold Reaches recordCompaction
    rw [wp_bind, wp_get, h.runSpan]
    exact ⟨.inl h, Nat.le_refl _⟩
  · exact (recordCompaction_live runId payload h).good_live
  · exact (recordCompaction_ended h hended runId payload).good_ended

theorem finishAll_good (h : Good ended s) :
    Reaches (Good true) s (modify (finishAll clock)) := by
  have hcore : ∀ {root : Nat} {spans : List TraceSpan}, Core s root spans →
      Reaches (Good true) s (modify (finishAll clock)) := by
    intro root spans h
    obtain ⟨spans', hcore, hended, hissued⟩ := finishAll_ended clock h
    exact ⟨.inr (.inr ⟨rfl, root, spans', hcore, hended⟩), Nat.le_of_eq hissued.symm⟩
  rcases h with h | ⟨-, root, spans, tools, retries, h⟩ | ⟨-, root, spans, h, -⟩
  · unfold Reaches
    rw [wp_modify]
    unfold finishAll
    rw [h.openStack]
    exact ⟨.inl ⟨h.kept, h.openStack, h.runSpan, rfl, rfl, rfl⟩, Nat.le_refl _⟩
  · exact hcore h.core
  · exact hcore h

/-- An event that may come keeps what is known of its run. -/
theorem dispatch_good (clock : Nat → Nat) (h : Good ended s) (hallowed : Allowed ended s e)
    (runId : PyStr) :
    Reaches (Good (endedAfter e ended)) s (dispatch clock runId e) := by
  have hother : ∀ type : PyStr, e.type = type → type ≠ py "agent.run_started" → type ∉ terminalEvents →
      endedAfter e ended = ended := by
    intro type htype hstart hterminal
    unfold endedAfter
    rw [htype, if_neg hstart, if_neg hterminal]
  unfold dispatch
  split_ifs with hstart hturn htool hretry hfinish hcompact hterminal
  · have hafter : endedAfter e ended = false := if_pos hstart
    rw [hafter]
    exact (startRun_live h e.payload).good_live
  · rw [hother _ hturn (by decide) (by decide)]
    exact startTurn_good h hallowed hturn runId
  · rw [hother _ htool (by decide) (by decide)]
    exact startTool_good h hallowed htool runId
  · rw [hother _ hretry (by decide) (by decide)]
    exact startRetry_good h runId e.payload
  · rw [hother _ hfinish (by decide) (by decide)]
    exact finishTool_good h e.payload
  · rw [hother _ hcompact (by decide) (by decide)]
    exact recordCompaction_good h runId e.payload
  · have hafter : endedAfter e ended = true := by
      unfold endedAfter
      rw [if_neg hstart, if_pos hterminal]
    rw [hafter]
    exact finishAll_good h
  · rw [hother _ rfl hstart hterminal]
    exact ⟨h, Nat.le_refl _⟩

-- ============================================================================
-- Events that may not come
-- ============================================================================

/-- A turn that opens under a closed root. -/
theorem startTurn_late (hcore : ∃ root spans, Core s root spans ∧ Ended s spans) (runId : PyStr)
    (payload : Dict) :
    Wp (startTurn clock runId payload) (fun _ s' => ¬ WellFormed true s') (fun _ _ => True) s := by
  obtain ⟨root, spans, h, hended⟩ := hcore
  unfold startTurn
  rw [wp_bind, wp_get]
  split
  · rename_i hnone
    rw [h.runSpan] at hnone
    cases hnone
  rename_i root' hroot
  obtain rfl : root = root' := Option.some.inj (h.runSpan.symm.trans hroot)
  have hclosed := h.mark none s.toolSpans s.retrySpans
  have hretry : (root, Kind.retry) ∉ kinds spans := fun hmem => by
    cases h.books.kind_unique h.rootKind hmem
  simp only [wp_bind, wp_get, wp_modify, hended.turnSpan, closeSome]
  refine (append_spec clock hclosed (mem_ids_of_kinds h.rootKind) hretry runId .turn
    (py "kinetic.turn") payload).mono (fun span s' happ hwell => ?_) (fun _ _ _ => trivial)
  have hopens := hwell.finished _ happ.core.books.kept rfl
  rw [happ.opens] at hopens
  exact List.append_ne_nil_of_right_ne_nil _ (List.cons_ne_nil _ _) hopens

/-- A turn that opens while something under the current one is open. -/
theorem startTurn_early {root turn node : Nat} {spans : List TraceSpan}
    {tools retries : List (PyStr × Nat)} (h : Running s root spans tools retries)
    (hturn : s.turnSpan = some turn) (hnode : ParentOf (edges spans) turn node)
    (hopen : node ∈ opens spans) (runId : PyStr) (payload : Dict) :
    Wp (startTurn clock runId payload) (fun _ s' => ¬ WellFormed ended s') (fun _ _ => True) s := by
  unfold startTurn
  rw [wp_bind, wp_get]
  split
  · rename_i hnone
    rw [h.core.runSpan] at hnone
    cases hnone
  rename_i root' hroot
  obtain rfl : root = root' := Option.some.inj (h.core.runSpan.symm.trans hroot)
  obtain ⟨hturnOpen, hkind⟩ := h.live.turnOpen turn hturn
  obtain ⟨spans', hcore, hedges, hkinds, hopens⟩ :=
    close_core clock (h.core.mark none s.toolSpans s.retrySpans) turn
  have hretry : (root, Kind.retry) ∉ kinds spans' := fun hmem => by
    cases hcore.books.kind_unique hcore.rootKind hmem
  simp only [wp_bind, wp_get, wp_modify, hturn, closeSome]
  refine (append_spec clock hcore (mem_ids_of_kinds hcore.rootKind) hretry runId .turn
    (py "kinetic.turn") payload).mono (fun span s' happ hwell => ?_) (fun _ _ _ => trivial)
  have hnodup : (opens spans).Nodup := h.core.books.nodup.sublist (opens_sublist spans)
  have hlt : turn < node := h.core.older turn node hnode
  have hid : turn ∈ ids spans := mem_ids_of_kinds hkind
  have hissued : (close clock { s with turnSpan := none } turn).issued = s.issued :=
    (close_sameMarks clock _ turn).issued
  refine hwell.closed _ happ.core.books.kept turn ?_ ?_ node (.single ?_) ?_
  · rw [← ids_edges, happ.edges, List.map_append, hedges, ids_edges]
    exact List.mem_append_left _ hid
  · rw [happ.opens, hopens, List.mem_append, List.mem_singleton, hnodup.mem_erase_iff, hissued]
    rintro (hmem | heq)
    · exact hmem.1 rfl
    · exact absurd (h.core.books.issued turn hid) (by rw [heq]; exact Nat.lt_irrefl _)
  · rw [happ.edges, parentOf_append, hedges]
    exact .inl hnode
  · rw [happ.opens, hopens]
    exact List.mem_append_left _ ((List.mem_erase_of_ne (Nat.ne_of_gt hlt)).mpr hopen)

/-- A call that starts in an ended run raises. -/
theorem startTool_late (hcore : ∃ root spans, Core s root spans ∧ Ended s spans) {id : PyStr}
    (payload : Dict) (hid : callId payload = some id) (hne : id ≠ []) (runId : PyStr) :
    Wp (startTool clock runId payload) (fun _ _ => False) (fun _ _ => True) s := by
  obtain ⟨root, spans, h, hended⟩ := hcore
  unfold startTool
  rw [wp_bind, wp_get]
  have hretry : (root, Kind.retry) ∉ kinds spans := fun hmem => by
    cases h.books.kind_unique h.rootKind hmem
  split
  · rename_i root' id' hroot hid'
    obtain rfl : root = root' := Option.some.inj (h.runSpan.symm.trans hroot)
    obtain rfl : id = id' := Option.some.inj (hid.symm.trans hid')
    rw [if_neg hne]
    simp only [wp_bind, wp_get, hended.turnSpan, Option.getD_none]
    refine (append_spec clock h (mem_ids_of_kinds h.rootKind) hretry runId .toolCall
      (py "kinetic.tool_call") payload).mono (fun span s' happ => ?_) (fun _ _ _ => trivial)
    unfold entry
    simp only [wp_bind, wp_get, happ.toolSpans, hended.toolSpans, wp_throw]
  · rename_i hnone
    exact absurd hid (hnone root id h.runSpan)

/-- An event that may not come raises or leaves a trace that is not well formed. -/
theorem dispatch_bad (clock : Nat → Nat) (h : Good ended s) (hbad : ¬ Allowed ended s e)
    (runId : PyStr) :
    Wp (dispatch clock runId e) (fun _ s' => ¬ WellFormed (endedAfter e ended) s') (fun _ _ => True) s := by
  unfold Allowed at hbad
  rw [not_forall] at hbad
  obtain ⟨hrun, hbad⟩ := hbad
  have hcases : IsLive s ∧ ended = false ∨ (∃ root spans, Core s root spans ∧ Ended s spans) ∧ ended = true := by
    rcases h with h | ⟨hended, h⟩ | ⟨hended, h⟩
    · exact absurd h.runSpan hrun
    · exact .inl ⟨h, hended⟩
    · exact .inr ⟨h, hended⟩
  by_cases hturn : e.type = py "agent.turn_started"
  · have hafter : endedAfter e ended = ended := by
      unfold endedAfter
      rw [hturn, if_neg (by decide), if_neg (by decide)]
    have hdispatch : dispatch clock runId e = startTurn clock runId e.payload := by
      unfold dispatch
      rw [hturn, if_neg (by decide), if_pos rfl]
    rw [hdispatch, hafter]
    rcases hcases with ⟨⟨root, spans, tools, retries, hrunning⟩, hended⟩ | ⟨hcore, rfl⟩
    · have hopen : ∃ turn node, s.turnSpan = some turn ∧ ParentOf (edges spans) turn node ∧
          node ∈ opens spans := by
        by_contra hnone
        refine hbad ⟨fun _ => ⟨hended, fun spans' turn hspans hmem node hnode hopen => ?_⟩,
          fun _ _ _ _ => hended⟩
        obtain rfl := Option.some.inj (hrunning.core.books.kept.symm.trans hspans)
        exact hnone ⟨turn, node, hmem, hnode, hopen⟩
      obtain ⟨turn, node, hmem, hnode, hopen⟩ := hopen
      exact startTurn_early hrunning hmem hnode hopen runId e.payload
    · exact startTurn_late hcore runId e.payload
  · have htool : e.type = py "agent.tool_call_started" := by
      by_contra htool
      exact hbad ⟨fun h => absurd h hturn, fun h => absurd h htool⟩
    have hdispatch : dispatch clock runId e = startTool clock runId e.payload := by
      unfold dispatch
      rw [htool, if_neg (by decide), if_neg (by decide), if_pos rfl]
    have hlate : ended = true ∧ ∃ id, callId e.payload = some id ∧ id ≠ [] := by
      by_contra hnone
      refine hbad ⟨fun h => absurd h hturn, fun _ id hid hne => ?_⟩
      exact Bool.eq_false_iff.mpr fun hended => hnone ⟨hended, id, hid, hne⟩
    obtain ⟨hended, id, hid, hne⟩ := hlate
    rw [hdispatch]
    rcases hcases with ⟨-, hlive⟩ | ⟨hcore, -⟩
    · rw [hended] at hlive
      cases hlive
    · exact (startTool_late hcore e.payload hid hne runId).mono (fun _ _ hno => hno.elim)
        (fun _ _ _ => trivial)

end Dispatch

-- ============================================================================
-- Any sequence of events
-- ============================================================================

/-- A tracer with what has happened to it: the runs whose last boundary was a
    terminal event, and whether `handle` has raised. -/
structure Observed where
  tracer : Tracer := {}
  ended : PyStr → Bool := fun _ => false
  raised : Bool := false

/-- One event is handled. -/
def observe (clock : Nat → Nat) (o : Observed) (e : Event) : Observed :=
  { tracer := (handle clock o.tracer e).1
    ended := match e.runId with
      | none => o.ended
      | some runId => Function.update o.ended runId (endedAfter e (o.ended runId))
    raised := o.raised || (handle clock o.tracer e).2.isSome }

/-- No event has raised, and the trace of every run is well formed. -/
def Sound (o : Observed) : Prop :=
  o.raised = false ∧ ∀ runId, WellFormed (o.ended runId) (o.tracer.state runId)

/-- The event may come in the state its run is in. -/
def InOrder (o : Observed) (e : Event) : Prop :=
  ∀ runId, e.runId = some runId → Allowed (o.ended runId) (o.tracer.state runId) e

/-- What the events in order keep. -/
def Kept (o : Observed) : Prop :=
  o.raised = false ∧ ∀ runId, Good (o.ended runId) (o.tracer.state runId)

/-- Ids given out to other runs and clock readings do not matter. -/
theorem Good.later {ended : Bool} {s : RunState} (h : Good ended s) {issued : Nat}
    (hissued : s.issued ≤ issued) (reads : Nat) :
    Good ended { s with issued := issued, reads := reads } := by
  have hcore : ∀ {root : Nat} {spans : List TraceSpan}, Core s root spans →
      Core { s with issued := issued, reads := reads } root spans := fun h =>
    ⟨h.runSpan, ⟨h.books.kept, h.books.byId, h.books.openStack, h.books.nodup,
      fun i hi => Nat.lt_of_lt_of_le (h.books.issued i hi) hissued⟩, h.tree, h.rootKind, h.older, h.leaves⟩
  rcases h with h | ⟨hended, root, spans, tools, retries, h⟩ | ⟨hended, root, spans, h, hclosed⟩
  · exact .inl ⟨h.kept, h.openStack, h.runSpan, h.turnSpan, h.toolSpans, h.retrySpans⟩
  · exact .inr (.inl ⟨hended, root, spans, tools, retries, hcore h.core, h.live, h.toolSpans, h.retrySpans⟩)
  · exact .inr (.inr ⟨hended, root, spans, hcore h,
      ⟨hclosed.opens, hclosed.turnSpan, hclosed.toolSpans, hclosed.retrySpans⟩⟩)

theorem state_put (t : Tracer) (runId : PyStr) (s : RunState) : (t.put runId s).state runId = s := by
  show RunState.mk _ _ _ _ _ _ _ _ _ = s
  unfold Tracer.put
  simp only [Function.update_self]

theorem state_put_of_ne (t : Tracer) {runId runId' : PyStr} (s : RunState) (h : runId' ≠ runId) :
    (t.put runId s).state runId' = { t.state runId' with issued := s.issued, reads := s.reads } := by
  unfold Tracer.put Tracer.state
  simp only [Function.update_of_ne h]

section Observe

variable {clock : Nat → Nat} {o : Observed} {e : Event}

theorem observe_kept (h : Kept o) (horder : InOrder o e) : Kept (observe clock o e) := by
  obtain ⟨hraised, hgood⟩ := h
  unfold observe handle
  cases hid : e.runId with
  | none => exact ⟨by rw [hraised]; rfl, hgood⟩
  | some runId =>
      have hdispatch := dispatch_good clock (hgood runId) (horder runId hid) runId
      unfold Reaches Wp at hdispatch
      cases hrun : dispatch clock runId e (o.tracer.state runId) with
      | error key s => rw [hrun] at hdispatch; exact hdispatch.elim
      | ok u s =>
          rw [hrun] at hdispatch
          obtain ⟨hafter, hissued⟩ := hdispatch
          refine ⟨by rw [hraised]; simp only [hrun]; rfl, fun runId' => ?_⟩
          simp only [hrun]
          by_cases heq : runId' = runId
          · subst heq
            rw [Function.update_self, state_put]
            exact hafter
          · rw [Function.update_of_ne heq, state_put_of_ne _ _ heq]
            exact (hgood runId').later hissued s.reads

theorem observe_needs (h : Kept o) (hsound : Sound (observe clock o e)) : InOrder o e := by
  obtain ⟨-, hgood⟩ := h
  intro runId hid
  by_contra hbad
  have hdispatch := dispatch_bad clock (hgood runId) hbad runId
  obtain ⟨hraised, hwell⟩ := hsound
  unfold Wp at hdispatch
  have hwell := hwell runId
  unfold observe handle at hraised hwell
  rw [hid] at hraised hwell
  cases hrun : dispatch clock runId e (o.tracer.state runId) with
  | error key s =>
      simp only [hrun, Option.isSome_some, Bool.or_true] at hraised
      cases hraised
  | ok u s =>
      rw [hrun] at hdispatch
      simp only [hrun, Function.update_self, state_put] at hwell
      exact hdispatch hwell

end Observe

/-- Every trace stays a well-formed tree and no event raises, all along a sequence
    of events, exactly when each event comes in order. -/
theorem traces_wellFormed_iff (clock : Nat → Nat) (es : List Event) :
    Steps.Always (observe clock) Sound {} es ↔ Steps.Meets (observe clock) InOrder {} es := by
  have hstart : Kept {} := ⟨rfl, fun runId => .inl ⟨rfl, rfl, rfl, rfl, rfl, rfl⟩⟩
  exact Steps.always_iff_meets (fun o e h horder => observe_kept h horder)
    (fun o e h hsound => observe_needs h hsound)
    (fun o h => ⟨h.1, fun runId => (h.2 runId).wellFormed⟩) hstart es

/-- An event of one run, with a call id. -/
def event (type : String) : Event := ⟨py type, [(py "run_id", .str (py "r")), (py "id", .str (py "c"))]⟩

/-- A call that starts late raises, and a turn that starts while a call of the turn
    before is open closes that turn over it. -/
theorem trace_broken :
    ¬ Steps.Always (observe fun n => n) Sound {}
        [event "agent.run_started", event "agent.run_finished", event "agent.tool_call_started"] ∧
      ¬ Steps.Always (observe fun n => n) Sound {}
        [event "agent.run_started", event "agent.turn_started", event "agent.tool_call_started",
          event "agent.turn_started"] := by
  constructor
  · intro h
    have hraised : (Steps.run (observe fun n => n) {} [event "agent.run_started",
        event "agent.run_finished", event "agent.tool_call_started"]).raised = true := by decide +kernel
    have hsound := h.2.2.2.1
    cases hraised.symm.trans hsound
  · intro h
    have hwell : WellFormed _ ((Steps.run (observe fun n => n) {} [event "agent.run_started",
      event "agent.turn_started", event "agent.tool_call_started",
      event "agent.turn_started"]).tracer.state (py "r")) := h.2.2.2.2.2 (py "r")
    generalize hstate : (Steps.run (observe fun n => n) {} [event "agent.run_started",
      event "agent.turn_started", event "agent.tool_call_started", event "agent.turn_started"]).tracer.state
        (py "r") = s at hwell
    have hedges : s.spans.map edges = some [(0, none), (1, some 0), (2, some 1), (3, some 0)] := by
      rw [← hstate]
      decide +kernel
    have hopens : s.spans.map opens = some [0, 2, 3] := by
      rw [← hstate]
      decide +kernel
    obtain ⟨spans, hspans, hedges⟩ := Option.map_eq_some_iff.mp hedges
    rw [hspans, Option.map_some, Option.some_inj] at hopens
    refine hwell.closed spans hspans 1 ?_ ?_ 2 (.single ?_) ?_
    · rw [← ids_edges, hedges]
      decide
    · rw [hopens]
      decide
    · rw [hedges]
      show (2, some 1) ∈ _
      decide
    · rw [hopens]
      decide

end Observability
end KineticSdk
