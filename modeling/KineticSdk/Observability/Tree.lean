/-
  KineticSdk.Observability.Tree

  The trace of every run as a well-formed tree.

  The spans of a run are read as the edges of a tree with a set of open nodes
  (`edges`, `opens`).  A run is unseen, live or ended, and each handler keeps a
  live run live and an ended one ended, apart from two: a turn must not be
  opened while a span under the current turn is open, and neither a turn nor a
  tool call may be opened in an ended run.
-/

import KineticSdk.Observability.Tracer
import KineticSdk.Lib.Forest
import KineticSdk.Lib.Steps
import KineticSdk.Lib.Wp

namespace KineticSdk
namespace Observability

open Py Lib Forest

-- ============================================================================
-- Spans as a tree
-- ============================================================================

/-- The ids of the spans, each with the one of its parent. -/
def edges (spans : List TraceSpan) : List (Nat × Option Nat) :=
  spans.map fun span => (span.spanId, span.parentSpanId)

/-- The ids of the spans, each with its kind. -/
def kinds (spans : List TraceSpan) : List (Nat × Kind) := spans.map fun span => (span.spanId, span.kind)

/-- The ids of the spans. -/
def ids (spans : List TraceSpan) : List Nat := spans.map TraceSpan.spanId

/-- The ids of the open spans. -/
def opens (spans : List TraceSpan) : List Nat := (spans.filter TraceSpan.isOpen).map TraceSpan.spanId

theorem ids_edges (spans : List TraceSpan) : (edges spans).map Prod.fst = ids spans := by
  unfold edges ids
  rw [List.map_map]
  rfl

theorem ids_kinds (spans : List TraceSpan) : (kinds spans).map Prod.fst = ids spans := by
  unfold kinds ids
  rw [List.map_map]
  rfl

theorem opens_subset (spans : List TraceSpan) : opens spans ⊆ ids spans :=
  List.map_subset _ (List.filter_subset_self _)

theorem opens_sublist (spans : List TraceSpan) : (opens spans).Sublist (ids spans) :=
  (List.filter_sublist).map _

/-- The dictionaries of a run agree on its spans. -/
structure Books (s : RunState) (spans : List TraceSpan) : Prop where
  kept : s.spans = some spans
  byId : s.byId = some (ids spans)
  openStack : s.openStack = some (opens spans)
  nodup : (ids spans).Nodup
  issued : ∀ i ∈ ids spans, i < s.issued

theorem Books.kind_unique {s : RunState} {spans : List TraceSpan} (h : Books s spans) {i : Nat}
    {k k' : Kind} (hk : (i, k) ∈ kinds spans) (hk' : (i, k') ∈ kinds spans) : k = k' := by
  have hnodup : ((kinds spans).map Prod.fst).Nodup := by
    rw [ids_kinds]
    exact h.nodup
  have heq := List.inj_on_of_nodup_map hnodup hk hk' rfl
  exact congrArg Prod.snd heq

/-- Ids of different kinds are different. -/
theorem Books.ne_of_kind {s : RunState} {spans : List TraceSpan} (h : Books s spans) {i j : Nat}
    {k k' : Kind} (hk : (i, k) ∈ kinds spans) (hk' : (j, k') ∈ kinds spans) (hne : k ≠ k') : i ≠ j :=
  fun heq => hne (h.kind_unique hk (by rw [heq]; exact hk'))

/-- The dictionaries that name single spans are the same, and so is the next id. -/
structure SameMarks (s' s : RunState) : Prop where
  runSpan : s'.runSpan = s.runSpan
  turnSpan : s'.turnSpan = s.turnSpan
  toolSpans : s'.toolSpans = s.toolSpans
  retrySpans : s'.retrySpans = s.retrySpans
  issued : s'.issued = s.issued

theorem SameMarks.trans {s₁ s₂ s₃ : RunState} (h : SameMarks s₁ s₂) (h' : SameMarks s₂ s₃) :
    SameMarks s₁ s₃ :=
  ⟨h.runSpan.trans h'.runSpan, h.turnSpan.trans h'.turnSpan, h.toolSpans.trans h'.toolSpans,
    h.retrySpans.trans h'.retrySpans, h.issued.trans h'.issued⟩

-- ============================================================================
-- Closing a span
-- ============================================================================

section Close

variable (clock : Nat → Nat) (s : RunState) (i : Nat)

/-- `_close` changes nothing, or ends the span, which was open. -/
theorem close_cases :
    (close clock s i = s ∧ ∀ span, s.record i = some span → span.isOpen = false) ∨
      ∃ span, s.record i = some span ∧ close clock s i =
        { s with
          reads := s.reads + 1
          spans := s.spans.map (endSpan i (max (clock s.reads) (span.startTime + 1)))
          openStack := s.openStack.map fun stack => stack.erase i } := by
  unfold close
  split
  · rename_i hnone
    exact .inl ⟨rfl, fun span hspan => by rw [hnone] at hspan; cases hspan⟩
  · rename_i span hspan
    by_cases hopen : span.isOpen = true
    · rw [if_pos hopen]
      exact .inr ⟨span, hspan, rfl⟩
    · rw [if_neg hopen]
      refine .inl ⟨rfl, fun span' hspan' => ?_⟩
      rw [hspan] at hspan'
      cases hspan'
      exact Bool.eq_false_iff.mpr hopen

/-- `_close` changes the spans, the stack and the clock only. -/
theorem close_sameMarks : SameMarks (close clock s i) s := by
  rcases close_cases clock s i with ⟨heq, -⟩ | ⟨span, -, heq⟩ <;>
  · rw [heq]
    exact ⟨rfl, rfl, rfl, rfl, rfl⟩

end Close

theorem endSpan_ids (i time : Nat) (spans : List TraceSpan) :
    edges (endSpan i time spans) = edges spans ∧ kinds (endSpan i time spans) = kinds spans ∧
      ids (endSpan i time spans) = ids spans := by
  unfold edges kinds ids endSpan
  simp only [List.map_map]
  refine ⟨List.map_congr_left fun span _ => ?_, List.map_congr_left fun span _ => ?_,
    List.map_congr_left fun span _ => ?_⟩ <;>
  · simp only [Function.comp_apply]
    by_cases hi : span.spanId = i
    · rw [if_pos hi]
    · rw [if_neg hi]

theorem opens_cons (span : TraceSpan) (spans : List TraceSpan) :
    opens (span :: spans) = (if span.isOpen then [span.spanId] else []) ++ opens spans := by
  unfold opens
  by_cases hopen : span.isOpen = true
  · rw [List.filter_cons_of_pos hopen, if_pos hopen]
    rfl
  · rw [List.filter_cons_of_neg hopen, if_neg hopen]
    rfl

theorem opens_endSpan {i : Nat} (time : Nat) {spans : List TraceSpan} (h : (ids spans).Nodup) :
    opens (endSpan i time spans) = (opens spans).erase i := by
  induction spans with
  | nil => rfl
  | cons span spans ih =>
      obtain ⟨hfresh, hrest⟩ := List.nodup_cons.mp h
      have hcons : endSpan i time (span :: spans)
          = (if span.spanId = i then { span with endTime := some time } else span)
            :: endSpan i time spans := rfl
      rw [hcons, opens_cons, opens_cons, ih hrest]
      by_cases hi : span.spanId = i
      · subst hi
        have hnot : span.spanId ∉ opens spans := fun hmem => hfresh (opens_subset spans hmem)
        rw [if_pos rfl, List.erase_of_not_mem hnot]
        by_cases hopen : span.isOpen = true
        · rw [if_pos hopen, List.singleton_append, List.erase_cons_head]
          rfl
        · rw [if_neg hopen, List.nil_append, List.erase_of_not_mem hnot]
          rfl
      · rw [if_neg hi]
        by_cases hopen : span.isOpen = true
        · rw [if_pos hopen, List.singleton_append, List.singleton_append,
            List.erase_cons_tail (by simpa using hi)]
        · rw [if_neg hopen, List.nil_append, List.nil_append]

/-- The object found under an id is the span with that id. -/
theorem Books.record {s : RunState} {spans : List TraceSpan} (h : Books s spans) {span : TraceSpan}
    (hspan : span ∈ spans) : s.record span.spanId = some span := by
  have hid : span.spanId ∈ ids spans := List.mem_map_of_mem hspan
  unfold RunState.record
  rw [h.byId, h.kept, Option.getD_some, Option.getD_some, if_pos hid]
  cases hfind : spans.find? fun other => other.spanId = span.spanId with
  | none => exact absurd (List.find?_eq_none.mp hfind span hspan) (by simp)
  | some other =>
      have hi : other.spanId = span.spanId := by simpa using List.find?_some hfind
      rw [List.inj_on_of_nodup_map h.nodup (List.mem_of_find?_eq_some hfind) hspan hi]

/-- `_close` takes the id out of the open ones. -/
theorem close_books (clock : Nat → Nat) {s : RunState} {spans : List TraceSpan} (h : Books s spans)
    (i : Nat) :
    ∃ spans', Books (close clock s i) spans' ∧ edges spans' = edges spans ∧
      kinds spans' = kinds spans ∧ opens spans' = (opens spans).erase i := by
  rcases close_cases clock s i with ⟨heq, hclosed⟩ | ⟨span, -, heq⟩
  · have hnot : i ∉ opens spans := by
      intro hmem
      obtain ⟨span, hspan, hi⟩ := List.mem_map.mp hmem
      obtain ⟨hspan, hopen⟩ := List.mem_filter.mp hspan
      have hrecord := h.record hspan
      rw [hi] at hrecord
      rw [hclosed span hrecord] at hopen
      cases hopen
    rw [heq]
    exact ⟨spans, h, rfl, rfl, (List.erase_of_not_mem hnot).symm⟩
  · obtain ⟨hedges, hkinds, hids⟩ := endSpan_ids i (max (clock s.reads) (span.startTime + 1)) spans
    have hopens := opens_endSpan (i := i) (max (clock s.reads) (span.startTime + 1)) h.nodup
    rw [heq]
    refine ⟨_, ⟨by rw [h.kept]; rfl, ?_, ?_, ?_, ?_⟩, hedges, hkinds, hopens⟩
    · rw [hids]
      exact h.byId
    · rw [hopens, h.openStack]
      rfl
    · rw [hids]
      exact h.nodup
    · rw [hids]
      exact h.issued

-- ============================================================================
-- The spans of a run
-- ============================================================================

/-- The spans of a run that has been started. -/
structure Core (s : RunState) (root : Nat) (spans : List TraceSpan) : Prop where
  runSpan : s.runSpan = some root
  books : Books s spans
  tree : Rooted (edges spans) root
  rootKind : (root, Kind.run) ∈ kinds spans
  /-- A span is opened after its parent. -/
  older : ∀ p c, ParentOf (edges spans) p c → p < c
  /-- Nothing hangs from a retry. -/
  leaves : ∀ p c, ParentOf (edges spans) p c → (p, Kind.retry) ∉ kinds spans

/-- Only what has been started is kept. -/
structure Unseen (s : RunState) : Prop where
  kept : s.spans = none
  openStack : s.openStack = none
  runSpan : s.runSpan = none
  turnSpan : s.turnSpan = none
  toolSpans : s.toolSpans = none
  retrySpans : s.retrySpans = none

theorem Core.parent_lt {s : RunState} {root : Nat} {spans : List TraceSpan} (h : Core s root spans)
    {p c : Nat} (hpc : ParentOf (edges spans) p c) : p < s.issued := by
  have hmem := h.tree.parents p c hpc
  rw [ids_edges] at hmem
  exact h.books.issued p hmem

theorem mem_ids_of_kinds {spans : List TraceSpan} {i : Nat} {k : Kind} (h : (i, k) ∈ kinds spans) :
    i ∈ ids spans := by
  rw [← ids_kinds]
  exact List.mem_map_of_mem h

theorem close_core (clock : Nat → Nat) {s : RunState} {root : Nat} {spans : List TraceSpan}
    (h : Core s root spans) (i : Nat) :
    ∃ spans', Core (close clock s i) root spans' ∧ edges spans' = edges spans ∧
      kinds spans' = kinds spans ∧ opens spans' = (opens spans).erase i := by
  obtain ⟨spans', hbooks, hedges, hkinds, hopens⟩ := close_books clock h.books i
  refine ⟨spans', ⟨?_, hbooks, ?_, ?_, ?_, ?_⟩, hedges, hkinds, hopens⟩
  · rw [(close_sameMarks clock s i).runSpan]
    exact h.runSpan
  · rw [hedges]
    exact h.tree
  · rw [hkinds]
    exact h.rootKind
  · rw [hedges]
    exact h.older
  · rw [hedges, hkinds]
    exact h.leaves

/-- Closing the ids of a list leaves open what is not in it. -/
theorem foldl_close_core (clock : Nat → Nat) (stack : List Nat) {s : RunState} {root : Nat}
    {spans : List TraceSpan} (h : Core s root spans) :
    ∃ spans', Core (stack.foldl (close clock) s) root spans' ∧ edges spans' = edges spans ∧
      SameMarks (stack.foldl (close clock) s) s ∧
      ∀ i ∈ opens spans', i ∈ opens spans ∧ i ∉ stack := by
  induction stack generalizing s spans with
  | nil => exact ⟨spans, h, rfl, ⟨rfl, rfl, rfl, rfl, rfl⟩, fun i hi => ⟨hi, List.not_mem_nil⟩⟩
  | cons j stack ih =>
      obtain ⟨spans₁, hcore, hedges, -, hopens⟩ := close_core clock h j
      obtain ⟨spans₂, hcore₂, hedges₂, hmarks, hrest⟩ := ih hcore
      refine ⟨spans₂, hcore₂, hedges₂.trans hedges, hmarks.trans (close_sameMarks clock s j),
        fun i hi => ?_⟩
      obtain ⟨hmem, hnot⟩ := hrest i hi
      have hnodup : (opens spans).Nodup := h.books.nodup.sublist (opens_sublist spans)
      rw [hopens, hnodup.mem_erase_iff] at hmem
      refine ⟨hmem.2, fun hcons => ?_⟩
      rcases List.mem_cons.mp hcons with heq | hcons
      · exact hmem.1 heq
      · exact hnot hcons

/-- A run all of whose spans are closed, with nothing left to finish. -/
structure Ended (s : RunState) (spans : List TraceSpan) : Prop where
  opens : opens spans = []
  turnSpan : s.turnSpan = none
  toolSpans : s.toolSpans = none
  retrySpans : s.retrySpans = none

theorem finishAll_ended (clock : Nat → Nat) {s : RunState} {root : Nat} {spans : List TraceSpan}
    (h : Core s root spans) :
    ∃ spans', Core (finishAll clock s) root spans' ∧ Ended (finishAll clock s) spans' ∧
      (finishAll clock s).issued = s.issued := by
  have hstack : s.openStack.getD [] = opens spans := by rw [h.books.openStack, Option.getD_some]
  obtain ⟨spans', hcore, -, hmarks, hopens⟩ := foldl_close_core clock (opens spans).reverse h
  unfold finishAll
  rw [hstack]
  refine ⟨spans', ⟨hcore.runSpan, ⟨hcore.books.kept, hcore.books.byId, hcore.books.openStack,
    hcore.books.nodup, hcore.books.issued⟩, hcore.tree, hcore.rootKind, hcore.older,
    hcore.leaves⟩,
    ⟨?_, rfl, rfl, rfl⟩, hmarks.issued⟩
  refine List.eq_nil_iff_forall_not_mem.mpr fun i hi => ?_
  obtain ⟨hmem, hnot⟩ := hopens i hi
  exact hnot (List.mem_reverse.mpr hmem)

-- ============================================================================
-- Opening a span
-- ============================================================================

/-- What `_append` leaves: one more open span, with the next id. -/
structure Appended (s s' : RunState) (root parent : Nat) (kind : Kind) (spans : List TraceSpan)
    (span : TraceSpan) : Prop where
  spanId : span.spanId = s.issued
  core : Core s' root (spans ++ [span])
  edges : edges (spans ++ [span]) = edges spans ++ [(s.issued, some parent)]
  kinds : kinds (spans ++ [span]) = kinds spans ++ [(s.issued, kind)]
  opens : opens (spans ++ [span]) = opens spans ++ [s.issued]
  runSpan : s'.runSpan = s.runSpan
  turnSpan : s'.turnSpan = s.turnSpan
  toolSpans : s'.toolSpans = s.toolSpans
  retrySpans : s'.retrySpans = s.retrySpans
  issued : s'.issued = s.issued + 1

theorem append_spec (clock : Nat → Nat) {s : RunState} {root parent : Nat} {spans : List TraceSpan}
    (h : Core s root spans) (hparent : parent ∈ ids spans) (hleaf : (parent, Kind.retry) ∉ kinds spans)
    (runId : PyStr) (kind : Kind) (name : PyStr) (payload : Dict) :
    Wp (append clock runId parent kind name payload)
      (fun span s' => Appended s s' root parent kind spans span) (fun _ _ => False) s := by
  have hfresh : s.issued ∉ ids spans := fun hmem => Nat.lt_irrefl _ (h.books.issued _ hmem)
  unfold append newSpan uuid4 monotonic entry
  simp only [wp_bind, wp_modifyGet, wp_pure, wp_get, wp_modify, h.books.kept, h.books.byId,
    h.books.openStack]
  have hedges : ∀ span : TraceSpan, edges (spans ++ [span])
      = edges spans ++ [(span.spanId, span.parentSpanId)] := fun span => List.map_append
  have hkinds : ∀ span : TraceSpan, kinds (spans ++ [span])
      = kinds spans ++ [(span.spanId, span.kind)] := fun span => List.map_append
  have hids : ∀ span : TraceSpan, ids (spans ++ [span]) = ids spans ++ [span.spanId] :=
    fun span => List.map_append
  have hopens : ∀ span : TraceSpan, span.isOpen = true →
      opens (spans ++ [span]) = opens spans ++ [span.spanId] := by
    intro span hopen
    unfold opens
    rw [List.filter_append, List.filter_cons_of_pos hopen, List.map_append]
    rfl
  refine ⟨rfl, ⟨h.runSpan, ⟨rfl, ?_, ?_, ?_, ?_⟩, ?_, ?_, ?_, ?_⟩, hedges _, hkinds _, hopens _ rfl,
    rfl, rfl, rfl, rfl, rfl⟩
  · rw [hids]
  · rw [hopens _ rfl]
  · rw [hids]
    refine List.nodup_append.mpr ⟨h.books.nodup, List.nodup_singleton _, fun a ha b hb heq => ?_⟩
    rw [heq, List.mem_singleton.mp hb] at ha
    exact hfresh ha
  · intro i hi
    rw [hids, List.mem_append, List.mem_singleton] at hi
    rcases hi with hi | rfl
    · exact Nat.lt_succ_of_lt (h.books.issued i hi)
    · exact Nat.lt_succ_self _
  · rw [hedges]
    exact h.tree.append (by rw [ids_edges]; exact hparent)
  · rw [hkinds]
    exact List.mem_append_left _ h.rootKind
  · intro p c hpc
    rw [hedges, parentOf_append] at hpc
    rcases hpc with hpc | ⟨rfl, rfl⟩
    · exact h.older p c hpc
    · exact h.books.issued _ hparent
  · intro p c hpc hretry
    rw [hedges, parentOf_append] at hpc
    rw [hkinds, List.mem_append, List.mem_singleton] at hretry
    have hp : p ∈ ids spans ∧ (p, Kind.retry) ∉ kinds spans := by
      rcases hpc with hpc | ⟨rfl, -⟩
      · have hmem := h.tree.parents p c hpc
        rw [ids_edges] at hmem
        exact ⟨hmem, h.leaves p c hpc⟩
      · exact ⟨hparent, hleaf⟩
    rcases hretry with hretry | hretry
    · exact hp.2 hretry
    · have heq : p = s.issued := congrArg Prod.fst hretry
      exact hfresh (heq ▸ hp.1)

-- ============================================================================
-- Live runs
-- ============================================================================

/-- What holds of the spans of a run between its start and its terminal event, with
    the spans of the current turn and of the calls that are not finished. -/
structure Live (root : Nat) (turn : Option Nat) (spans : List TraceSpan)
    (tools retries : List (PyStr × Nat)) : Prop where
  nested : Nested (edges spans) (· ∈ opens spans)
  rootOpen : root ∈ opens spans
  turnOpen : ∀ i, turn = some i → i ∈ opens spans ∧ (i, Kind.turn) ∈ kinds spans
  toolOpen : ∀ callId tool, Dict.get? tools callId = some tool →
    tool ∈ opens spans ∧ (tool, Kind.toolCall) ∈ kinds spans
  toolOnce : ∀ callId callId' tool, Dict.get? tools callId = some tool →
    Dict.get? tools callId' = some tool → callId = callId'
  retryKind : ∀ callId retry, Dict.get? retries callId = some retry → (retry, Kind.retry) ∈ kinds spans
  /-- Of what hangs from a tool call's span only the last retry is open. -/
  retryOpen : ∀ callId tool node, Dict.get? tools callId = some tool →
    ParentOf (edges spans) tool node → node ∈ opens spans → Dict.get? retries callId = some node

section Live

variable {s s' : RunState} {root : Nat} {turn : Option Nat} {spans spans' : List TraceSpan}
  {tools retries retries' : List (PyStr × Nat)}

/-- Closing a span that has no open child and is in no map keeps the run live. -/
theorem Live.close (h : Live root turn spans tools retries) {i : Nat}
    (hedges : edges spans' = edges spans) (hkinds : kinds spans' = kinds spans)
    (hopens : opens spans' = (opens spans).erase i)
    (hchildren : ∀ child, ParentOf (edges spans) i child → child ∉ opens spans)
    (hroot : root ≠ i) (hturn : turn ≠ some i) (htool : ∀ callId, Dict.get? tools callId ≠ some i) :
    Live root turn spans' tools retries := by
  have hsub : ∀ j ∈ opens spans', j ∈ opens spans := by
    rw [hopens]
    exact fun j hj => List.mem_of_mem_erase hj
  have hkept : ∀ j, j ≠ i → j ∈ opens spans → j ∈ opens spans' := by
    rw [hopens]
    exact fun j hne hj => (List.mem_erase_of_ne hne).mpr hj
  refine ⟨?_, hkept root hroot h.rootOpen, ?_, ?_, h.toolOnce, ?_, ?_⟩
  · rw [hedges]
    exact h.nested.close hchildren hsub hkept
  · intro j hj
    obtain ⟨hopen, hkind⟩ := h.turnOpen j hj
    rw [hkinds]
    exact ⟨hkept j (fun heq => hturn (by rw [hj, heq])) hopen, hkind⟩
  · intro callId tool hmem
    obtain ⟨hopen, hkind⟩ := h.toolOpen callId tool hmem
    rw [hkinds]
    exact ⟨hkept tool (fun heq => htool callId (by rw [hmem, heq])) hopen, hkind⟩
  · rw [hkinds]
    exact h.retryKind
  · rw [hedges]
    exact fun callId tool node hmem hnode hopen =>
      h.retryOpen callId tool node hmem hnode (hsub node hopen)

/-- Opening a span under an open one keeps the run live: under a tool call it has
    to be the call's retry. -/
theorem Live.append (h : Live root turn spans tools retries) (hcore : Core s root spans)
    {parent : Nat} {kind : Kind} {span : TraceSpan}
    (happ : Appended s s' root parent kind spans span) (hparent : parent ∈ opens spans)
    (htool : ∀ callId, Dict.get? tools callId = some parent → Dict.get? retries' callId = some s.issued)
    (hkind : ∀ callId retry, Dict.get? retries' callId = some retry →
      (retry, Kind.retry) ∈ kinds spans ∨ (retry = s.issued ∧ kind = .retry))
    (hopen : ∀ callId node, Dict.get? tools callId ≠ some parent → Dict.get? retries callId = some node →
      Dict.get? retries' callId = some node)
    (hlast : ∀ callId node, Dict.get? tools callId = some parent → Dict.get? retries callId = some node →
      node ∉ opens spans) :
    Live root turn (spans ++ [span]) tools retries' := by
  have hgrow : ∀ j ∈ opens spans, j ∈ opens (spans ++ [span]) := by
    rw [happ.opens]
    exact fun j hj => List.mem_append_left _ hj
  have hold : ∀ j, j ∈ opens (spans ++ [span]) → j ∈ ids spans → j ∈ opens spans := by
    intro j hj hid
    rw [happ.opens, List.mem_append, List.mem_singleton] at hj
    rcases hj with hj | rfl
    · exact hj
    · exact absurd (hcore.books.issued _ hid) (Nat.lt_irrefl _)
  have hchild : ∀ p c, ParentOf (edges spans) p c → c ∈ opens (spans ++ [span]) → c ∈ opens spans := by
    intro p c hpc hc
    refine hold c hc ?_
    rw [← ids_edges]
    exact List.mem_map_of_mem hpc
  refine ⟨?_, hgrow root h.rootOpen, ?_, ?_, h.toolOnce, ?_, ?_⟩
  · rw [happ.edges]
    exact h.nested.append (hgrow parent hparent) hchild fun p c _ hp => hgrow p hp
  · intro i hi
    obtain ⟨hturn, hturnKind⟩ := h.turnOpen i hi
    rw [happ.kinds]
    exact ⟨hgrow i hturn, List.mem_append_left _ hturnKind⟩
  · intro callId tool hmem
    obtain ⟨htoolOpen, htoolKind⟩ := h.toolOpen callId tool hmem
    rw [happ.kinds]
    exact ⟨hgrow tool htoolOpen, List.mem_append_left _ htoolKind⟩
  · intro callId retry hmem
    rw [happ.kinds, List.mem_append, List.mem_singleton, Prod.mk.injEq]
    exact (hkind callId retry hmem).imp id fun ⟨hretry, hk⟩ => ⟨hretry, hk.symm⟩
  · intro callId tool node hmem hnode hnodeOpen
    rw [happ.edges, parentOf_append] at hnode
    rcases hnode with hnode | ⟨rfl, rfl⟩
    · have hwas := hchild tool node hnode hnodeOpen
      have hretry := h.retryOpen callId tool node hmem hnode hwas
      by_cases heq : tool = parent
      · subst heq
        exact absurd hwas (hlast callId node hmem hretry)
      · refine hopen callId node (fun hp => heq ?_) hretry
        rw [hmem] at hp
        exact Option.some.inj hp
    · exact htool callId hmem

/-- Opening a span under an open one that is not a tool call keeps the run live. -/
theorem Live.append_of_not_tool (h : Live root turn spans tools retries) (hcore : Core s root spans)
    {parent : Nat} {kind : Kind} {span : TraceSpan}
    (happ : Appended s s' root parent kind spans span) (hparent : parent ∈ opens spans)
    (htool : ∀ callId, Dict.get? tools callId ≠ some parent) :
    Live root turn (spans ++ [span]) tools retries :=
  h.append hcore happ hparent (fun callId hmem => absurd hmem (htool callId))
    (fun callId retry hmem => .inl (h.retryKind callId retry hmem)) (fun _ _ _ hmem => hmem)
    fun callId _ hmem => absurd hmem (htool callId)

end Live

end Observability
end KineticSdk
