/-
  KineticSdk.Observability.Lifecycle

  What each lifecycle event does to the trace of its run, and from it what holds
  of every trace after any sequence of events.

  The handlers keep a live run live and an ended one ended (`Good`), where the
  event is in order: a turn must not be opened while a span under the current
  turn is open, and neither a turn nor a tool call may be opened in a run that
  has ended.  Each event that is out of order leaves a trace that is no
  well-formed tree, or raises.
-/

import KineticSdk.Observability.Tree

namespace KineticSdk
namespace Observability

open Py Lib Forest

-- ============================================================================
-- Runs by their state
-- ============================================================================

/-- A live run with its maps. -/
structure Running (s : RunState) (root : Nat) (spans : List TraceSpan)
    (tools retries : List (PyStr × Nat)) : Prop where
  core : Core s root spans
  live : Live root s.turnSpan spans tools retries
  toolSpans : s.toolSpans = some tools
  retrySpans : s.retrySpans = some retries

/-- A run after its start, before its terminal event. -/
def IsLive (s : RunState) : Prop := ∃ root spans tools retries, Running s root spans tools retries

/-- A run after its terminal event. -/
def IsEnded (s : RunState) : Prop := ∃ root spans, Core s root spans ∧ Ended s spans

/-- The entries of a run of which it is known whether it has ended. -/
def Good (ended : Bool) (s : RunState) : Prop :=
  Unseen s ∨ (ended = false ∧ IsLive s) ∨ (ended = true ∧ IsEnded s)

/-- The run is in a state again, and no id is given out twice. -/
def Reaches (P : RunState → Prop) (s : RunState) (x : TracerM Unit) : Prop :=
  Wp x (fun _ s' => P s' ∧ s.issued ≤ s'.issued) (fun _ _ => False) s

/-- What holds of the spans does not depend on the maps that name them. -/
theorem Core.mark {s : RunState} {root : Nat} {spans : List TraceSpan} (h : Core s root spans)
    (turnSpan : Option Nat) (toolSpans retrySpans : Option (List (PyStr × Nat))) :
    Core { s with turnSpan := turnSpan, toolSpans := toolSpans, retrySpans := retrySpans } root spans :=
  ⟨h.runSpan, ⟨h.books.kept, h.books.byId, h.books.openStack, h.books.nodup, h.books.issued⟩, h.tree,
    h.rootKind, h.older, h.leaves⟩

-- ============================================================================
-- Live runs
-- ============================================================================

section Live

variable {clock : Nat → Nat} {s : RunState} {root : Nat} {spans : List TraceSpan}
  {tools retries : List (PyStr × Nat)} (runId : PyStr) (payload : Dict)

/-- The current turn, or the root where there is none, is open and no tool call or retry. -/
theorem Running.parent (h : Running s root spans tools retries) :
    s.turnSpan.getD root ∈ opens spans ∧ (s.turnSpan.getD root, Kind.retry) ∉ kinds spans ∧
      ∀ callId, Dict.get? tools callId ≠ some (s.turnSpan.getD root) := by
  have hkind : ∃ k, (s.turnSpan.getD root, k) ∈ kinds spans ∧ k ≠ .retry ∧ k ≠ .toolCall ∧
      s.turnSpan.getD root ∈ opens spans := by
    cases hturn : s.turnSpan with
    | none => exact ⟨_, h.core.rootKind, by decide, by decide, h.live.rootOpen⟩
    | some turn =>
        obtain ⟨hopen, hkind⟩ := h.live.turnOpen turn hturn
        exact ⟨_, hkind, by decide, by decide, hopen⟩
  obtain ⟨k, hkind, hretry, htool, hopen⟩ := hkind
  refine ⟨hopen, fun hmem => hretry (h.core.books.kind_unique hkind hmem), fun callId hmem => ?_⟩
  exact htool (h.core.books.kind_unique hkind (h.live.toolOpen callId _ hmem).2)

/-- A new turn keeps the run live if nothing is open under the current one. -/
theorem startTurn_live (h : Running s root spans tools retries)
    (hturn : ∀ turn, s.turnSpan = some turn →
      ∀ node, ParentOf (edges spans) turn node → node ∉ opens spans) :
    Reaches IsLive s (startTurn clock runId payload) := by
  -- after the current turn is closed
  have hclosed : ∃ spans', Core (closeSome clock { s with turnSpan := none } s.turnSpan) root spans' ∧
      Live root none spans' tools retries ∧
      SameMarks (closeSome clock { s with turnSpan := none } s.turnSpan) { s with turnSpan := none } := by
    have hcore := h.core.mark none s.toolSpans s.retrySpans
    have hlive : Live root none spans tools retries :=
      ⟨h.live.nested, h.live.rootOpen, fun i hi => (by cases hi), h.live.toolOpen, h.live.toolOnce,
        h.live.retryKind, h.live.retryOpen⟩
    cases hcurrent : s.turnSpan with
    | none => exact ⟨spans, hcore, hlive, ⟨rfl, rfl, rfl, rfl, rfl⟩⟩
    | some turn =>
        obtain ⟨-, hkind⟩ := h.live.turnOpen turn hcurrent
        obtain ⟨spans', hcore', hedges, hkinds, hopens⟩ := close_core clock hcore turn
        refine ⟨spans', hcore', hlive.close hedges hkinds hopens (hturn turn hcurrent) ?_
          (fun hnone => by cases hnone) (fun callId htool => ?_), close_sameMarks clock _ turn⟩
        · exact h.core.books.ne_of_kind h.core.rootKind hkind (by decide)
        · exact h.core.books.ne_of_kind (h.live.toolOpen callId turn htool).2 hkind (by decide) rfl
  obtain ⟨spans₁, hcore₁, hlive₁, hmarks⟩ := hclosed
  unfold Reaches startTurn
  rw [wp_bind, wp_get]
  split
  · rename_i hnone
    rw [h.core.runSpan] at hnone
    cases hnone
  rename_i root' hroot
  obtain rfl : root = root' := Option.some.inj (h.core.runSpan.symm.trans hroot)
  simp only [wp_bind, wp_get, wp_modify]
  have hretry : (root, Kind.retry) ∉ kinds spans₁ := fun hmem => by
    cases hcore₁.books.kind_unique hcore₁.rootKind hmem
  refine (append_spec clock hcore₁ (mem_ids_of_kinds hcore₁.rootKind) hretry runId .turn
    (py "kinetic.turn") payload).mono (fun span s' happ => ?_) (fun _ _ hno => hno)
  have happended := hlive₁.append_of_not_tool hcore₁ happ hlive₁.rootOpen fun callId hmem => by
    cases hcore₁.books.kind_unique hcore₁.rootKind (hlive₁.toolOpen callId root hmem).2
  refine ⟨⟨root, spans₁ ++ [span], tools, retries, happ.core.mark _ _ _, ⟨happended.nested,
    happended.rootOpen, fun i hi => ?_, happended.toolOpen, happended.toolOnce, happended.retryKind,
    happended.retryOpen⟩, ?_, ?_⟩, ?_⟩
  · cases hi
    rw [happ.opens, happ.kinds, happ.spanId]
    exact ⟨List.mem_append_right _ (List.mem_singleton.mpr rfl),
      List.mem_append_right _ (List.mem_singleton.mpr rfl)⟩
  · exact (happ.toolSpans.trans hmarks.toolSpans).trans h.toolSpans
  · exact (happ.retrySpans.trans hmarks.retrySpans).trans h.retrySpans
  · show s.issued ≤ s'.issued
    rw [happ.issued, hmarks.issued]
    exact Nat.le_succ _

/-- A tool call opened in a live run keeps it live. -/
theorem startTool_live (h : Running s root spans tools retries) :
    Reaches IsLive s (startTool clock runId payload) := by
  obtain ⟨hopen, hretry, hnotTool⟩ := h.parent
  unfold Reaches startTool
  rw [wp_bind, wp_get]
  split
  · rename_i root' callId hroot _
    obtain rfl : root = root' := Option.some.inj (h.core.runSpan.symm.trans hroot)
    by_cases hempty : callId = []
    · rw [if_pos hempty]
      exact ⟨⟨root, spans, tools, retries, h⟩, Nat.le_refl _⟩
    rw [if_neg hempty]
    simp only [wp_bind, wp_get]
    refine (append_spec clock h.core (opens_subset spans hopen) hretry runId .toolCall
      (py "kinetic.tool_call") payload).mono (fun span s' happ => ?_) (fun _ _ hno => hno)
    have hlive := h.live.append_of_not_tool h.core happ hopen hnotTool
    unfold entry
    simp only [wp_bind, wp_get, happ.toolSpans, h.toolSpans, wp_pure, wp_modify]
    have hnew : ∀ callId' tool, Dict.get? (Dict.set tools callId span.spanId) callId' = some tool →
        (callId' = callId ∧ tool = s.issued) ∨
          (callId' ≠ callId ∧ Dict.get? tools callId' = some tool) := by
      intro callId' tool hmem
      by_cases hc : callId' = callId
      · rw [hc, Dict.get?_set_self, happ.spanId] at hmem
        exact .inl ⟨hc, (Option.some.inj hmem).symm⟩
      · rw [Dict.get?_set_of_ne _ _ (Ne.symm hc)] at hmem
        exact .inr ⟨hc, hmem⟩
    have hlt : ∀ callId' tool, Dict.get? tools callId' = some tool → tool ≠ s.issued :=
      fun callId' tool hmem => Nat.ne_of_lt
        (h.core.books.issued tool (mem_ids_of_kinds (h.live.toolOpen callId' tool hmem).2))
    refine ⟨⟨root, spans ++ [span], _, retries, happ.core.mark _ _ _, ⟨hlive.nested, hlive.rootOpen, ?_, ?_,
      ?_, hlive.retryKind, ?_⟩, rfl, happ.retrySpans.trans h.retrySpans⟩, ?_⟩
    · show ∀ i, s'.turnSpan = some i → _
      rw [happ.turnSpan]
      exact hlive.turnOpen
    · intro callId' tool hmem
      rcases hnew callId' tool hmem with ⟨-, rfl⟩ | ⟨-, hmem⟩
      · rw [happ.opens, happ.kinds]
        exact ⟨List.mem_append_right _ (List.mem_singleton.mpr rfl),
          List.mem_append_right _ (List.mem_singleton.mpr rfl)⟩
      · exact hlive.toolOpen callId' tool hmem
    · intro c c' tool hc hc'
      rcases hnew c tool hc with ⟨rfl, htool⟩ | ⟨-, hold⟩ <;>
        rcases hnew c' tool hc' with ⟨rfl, htool'⟩ | ⟨-, hold'⟩
      · rfl
      · exact absurd htool (hlt c' tool hold')
      · exact absurd htool' (hlt c tool hold)
      · exact h.live.toolOnce c c' tool hold hold'
    · intro callId' tool node hmem hnode hnodeOpen
      rcases hnew callId' tool hmem with ⟨-, rfl⟩ | ⟨-, hmem⟩
      · -- nothing hangs from the new span yet
        rw [happ.edges, parentOf_append] at hnode
        rcases hnode with hnode | ⟨heq, -⟩
        · exact absurd (h.core.parent_lt hnode) (Nat.lt_irrefl _)
        · have hlt' := h.core.books.issued _ (opens_subset spans hopen)
          rw [← heq] at hlt'
          exact absurd hlt' (Nat.lt_irrefl _)
      · exact hlive.retryOpen callId' tool node hmem hnode hnodeOpen
    · show s.issued ≤ s'.issued
      rw [happ.issued]
      exact Nat.le_succ _
  · exact ⟨⟨root, spans, tools, retries, h⟩, Nat.le_refl _⟩

/-- Closing the retry of a call keeps the run live; it is closed then. -/
theorem Running.closeRetry (h : Running s root spans tools retries) (clock : Nat → Nat) (callId : PyStr) :
    ∃ spans', Running (closeSome clock s (Dict.get? retries callId)) root spans' tools retries ∧
      SameMarks (closeSome clock s (Dict.get? retries callId)) s ∧
      ∀ i, Dict.get? retries callId = some i → i ∉ opens spans' := by
  cases hretry : Dict.get? retries callId with
  | none => exact ⟨spans, h, ⟨rfl, rfl, rfl, rfl, rfl⟩, fun i hi => by cases hi⟩
  | some i =>
      have hkind := h.live.retryKind callId i hretry
      have hnodup : (opens spans).Nodup := h.core.books.nodup.sublist (opens_sublist spans)
      have hmarks := close_sameMarks clock s i
      obtain ⟨spans', hcore, hedges, hkinds, hopens⟩ := close_core clock h.core i
      have hlive := h.live.close hedges hkinds hopens
        (fun child hchild => absurd hkind (h.core.leaves i child hchild))
        (h.core.books.ne_of_kind h.core.rootKind hkind (by decide))
        (fun hturn => h.core.books.ne_of_kind (h.live.turnOpen i hturn).2 hkind (by decide) rfl)
        (fun c htool => h.core.books.ne_of_kind (h.live.toolOpen c i htool).2 hkind (by decide) rfl)
      refine ⟨spans', ⟨hcore, ?_, hmarks.toolSpans.trans h.toolSpans,
        hmarks.retrySpans.trans h.retrySpans⟩, hmarks, ?_⟩
      · show Live root (close clock s i).turnSpan spans' tools retries
        rw [hmarks.turnSpan]
        exact hlive
      · rintro j hj
        cases hj
        rw [hopens, hnodup.mem_erase_iff]
        exact fun hmem => hmem.1 rfl

/-- A retry keeps a live run live. -/
theorem startRetry_live (h : Running s root spans tools retries) :
    Reaches IsLive s (startRetry clock runId payload) := by
  unfold Reaches startRetry
  split
  · exact ⟨⟨root, spans, tools, retries, h⟩, Nat.le_refl _⟩
  rename_i callId _
  rw [wp_bind, wp_get, h.toolSpans, Option.getD_some]
  cases htool : Dict.get? tools callId with
  | none => exact ⟨⟨root, spans, tools, retries, h⟩, Nat.le_refl _⟩
  | some tool =>
      obtain ⟨spans₁, h₁, hmarks, hclosed⟩ := h.closeRetry clock callId
      obtain ⟨hopen, hkind⟩ := h₁.live.toolOpen callId tool htool
      have hretry : (tool, Kind.retry) ∉ kinds spans₁ := fun hmem => by
        cases h₁.core.books.kind_unique hkind hmem
      have honly : ∀ callId', Dict.get? tools callId' = some tool → callId' = callId :=
        fun callId' hmem => h₁.live.toolOnce callId' callId tool hmem htool
      unfold entry
      simp only [wp_bind, wp_get, h.retrySpans, wp_pure, wp_modify]
      refine (append_spec clock h₁.core (opens_subset _ hopen) hretry runId .retry
        (py "kinetic.tool_retry") payload).mono (fun span s' happ => ?_) (fun _ _ hno => hno)
      have hlive : Live root (closeSome clock s (Dict.get? retries callId)).turnSpan (spans₁ ++ [span]) tools
          (Dict.set retries callId span.spanId) := by
        refine h₁.live.append h₁.core happ hopen (fun callId' hmem => ?_) (fun callId' retry hmem => ?_)
          (fun callId' node hne hmem => ?_) (fun callId' node hmem hnode => ?_)
        · rw [honly callId' hmem, Dict.get?_set_self, happ.spanId]
        · by_cases hc : callId' = callId
          · rw [hc, Dict.get?_set_self, happ.spanId] at hmem
            exact .inr ⟨(Option.some.inj hmem).symm, rfl⟩
          · rw [Dict.get?_set_of_ne _ _ (Ne.symm hc)] at hmem
            exact .inl (h₁.live.retryKind callId' retry hmem)
        · rw [Dict.get?_set_of_ne _ _ (fun hc => hne (by rw [← hc, htool]))]
          exact hmem
        · rw [honly callId' hmem] at hnode
          exact hclosed node hnode
      refine ⟨⟨root, _, tools, _, happ.core.mark _ _ _, ?_, ?_, rfl⟩, ?_⟩
      · show Live root s'.turnSpan _ _ _
        rw [happ.turnSpan]
        exact hlive
      · exact happ.toolSpans.trans h₁.toolSpans
      · show s.issued ≤ s'.issued
        rw [happ.issued, hmarks.issued]
        exact Nat.le_succ _

/-- The order of closing a span and forgetting a retry does not matter. -/
theorem closeSome_retrySpans (clock : Nat → Nat) (s : RunState) (i : Option Nat)
    (retrySpans : Option (List (PyStr × Nat))) :
    closeSome clock { s with retrySpans := retrySpans } i
      = { closeSome clock s i with retrySpans := retrySpans } := by
  cases i with
  | none => rfl
  | some i =>
      have hrecord : RunState.record { s with retrySpans := retrySpans } i = s.record i := rfl
      show close clock { s with retrySpans := retrySpans } i = { close clock s i with retrySpans := retrySpans }
      unfold close
      rw [hrecord]
      split
      · rfl
      · split <;> rfl

/-- A finished tool call keeps a live run live. -/
theorem finishTool_live (h : Running s root spans tools retries) :
    Reaches IsLive s (finishTool clock payload) := by
  unfold Reaches finishTool
  split
  · exact ⟨⟨root, spans, tools, retries, h⟩, Nat.le_refl _⟩
  rename_i callId _
  simp only [wp_bind, wp_modify]
  rw [h.retrySpans, Option.getD_some, closeSome_retrySpans]
  obtain ⟨spans₁, h₁, hmarks, hclosed⟩ := h.closeRetry clock callId
  generalize closeSome clock s (Dict.get? retries callId) = s₁ at h₁ hmarks
  rw [h₁.toolSpans, Option.getD_some]
  -- the call is in neither map any more
  have hnoRetry : ∀ tool node, Dict.get? tools callId = some tool → ParentOf (edges spans₁) tool node →
      node ∉ opens spans₁ := fun tool node htool hnode hopen =>
    hclosed node (h₁.live.retryOpen callId tool node htool hnode hopen) hopen
  have htools : ∀ callId' tool, Dict.get? (Dict.pop tools callId) callId' = some tool →
      callId' ≠ callId ∧ Dict.get? tools callId' = some tool := by
    intro callId' tool hmem
    by_cases hc : callId' = callId
    · rw [hc, Dict.get?_pop, if_pos rfl] at hmem
      cases hmem
    · rw [Dict.get?_pop, if_neg hc] at hmem
      exact ⟨hc, hmem⟩
  have hlive : Live root s₁.turnSpan spans₁ (Dict.pop tools callId) (Dict.pop retries callId) := by
    refine ⟨h₁.live.nested, h₁.live.rootOpen, h₁.live.turnOpen,
      fun callId' tool hmem => h₁.live.toolOpen callId' tool (htools callId' tool hmem).2,
      fun c c' tool hc hc' => h₁.live.toolOnce c c' tool (htools c tool hc).2 (htools c' tool hc').2,
      fun callId' retry hmem => ?_, fun callId' tool node hmem hnode hopen => ?_⟩
    · by_cases hc : callId' = callId
      · rw [hc, Dict.get?_pop, if_pos rfl] at hmem
        cases hmem
      · rw [Dict.get?_pop, if_neg hc] at hmem
        exact h₁.live.retryKind callId' retry hmem
    · obtain ⟨hne, hmem⟩ := htools callId' tool hmem
      rw [Dict.get?_pop, if_neg hne]
      exact h₁.live.retryOpen callId' tool node hmem hnode hopen
  have hcore := h₁.core.mark s₁.turnSpan (some (Dict.pop tools callId)) (some (Dict.pop retries callId))
  have hissued : s.issued = s₁.issued := hmarks.issued.symm
  cases htool : Dict.get? tools callId with
  | none => exact ⟨⟨root, spans₁, _, _, ⟨hcore, hlive, rfl, rfl⟩⟩, Nat.le_of_eq hissued⟩
  | some tool =>
      obtain ⟨-, hkind⟩ := h₁.live.toolOpen callId tool htool
      obtain ⟨spans₂, hcore₂, hedges, hkinds, hopens⟩ := close_core clock hcore tool
      have hmarks₂ := close_sameMarks clock
        { s₁ with toolSpans := some (Dict.pop tools callId), retrySpans := some (Dict.pop retries callId) }
        tool
      have hlive₂ := hlive.close hedges hkinds hopens (hnoRetry tool · htool)
        (h₁.core.books.ne_of_kind h₁.core.rootKind hkind (by decide))
        (fun hturn => h₁.core.books.ne_of_kind (h₁.live.turnOpen tool hturn).2 hkind (by decide) rfl)
        fun callId' hmem =>
          (htools callId' tool hmem).1 (h₁.live.toolOnce callId' callId tool (htools callId' tool hmem).2 htool)
      rw [← show _ = s₁.turnSpan from hmarks₂.turnSpan] at hlive₂
      refine ⟨⟨root, spans₂, _, _, hcore₂, hlive₂, hmarks₂.toolSpans, hmarks₂.retrySpans⟩, ?_⟩
      rw [hissued]
      exact Nat.le_of_eq hmarks₂.issued.symm

/-- A compaction keeps a live run live. -/
theorem recordCompaction_live (h : Running s root spans tools retries) :
    Reaches IsLive s (recordCompaction clock runId payload) := by
  obtain ⟨hopen, hretry, hnotTool⟩ := h.parent
  unfold Reaches recordCompaction
  rw [wp_bind, wp_get]
  split
  · exact ⟨⟨root, spans, tools, retries, h⟩, Nat.le_refl _⟩
  rename_i root' hroot
  obtain rfl : root = root' := Option.some.inj (h.core.runSpan.symm.trans hroot)
  simp only [wp_bind, wp_get, wp_modify]
  refine (append_spec clock h.core (opens_subset spans hopen) hretry runId .compaction
    (py "kinetic.compaction") payload).mono (fun span s' happ => ?_) (fun _ _ hno => hno)
  have hlive := h.live.append_of_not_tool h.core happ hopen hnotTool
  have hkind : (span.spanId, Kind.compaction) ∈ kinds (spans ++ [span]) := by
    rw [happ.kinds, happ.spanId]
    exact List.mem_append_right _ (List.mem_singleton.mpr rfl)
  have hmarks := close_sameMarks clock s' span.spanId
  obtain ⟨spans', hcore', hedges, hkinds, hopens⟩ := close_core clock happ.core span.spanId
  have hleaf : ∀ child, ¬ ParentOf (edges (spans ++ [span])) span.spanId child := by
    intro child hchild
    rw [happ.edges, parentOf_append, happ.spanId] at hchild
    rcases hchild with hchild | ⟨heq, -⟩
    · exact Nat.lt_irrefl _ (h.core.parent_lt hchild)
    · have hlt := h.core.books.issued _ (opens_subset spans hopen)
      rw [← heq] at hlt
      exact Nat.lt_irrefl _ hlt
  have hlive' := hlive.close hedges hkinds hopens (fun child hchild => absurd hchild (hleaf child))
    (happ.core.books.ne_of_kind happ.core.rootKind hkind (by decide))
    (fun hturn => happ.core.books.ne_of_kind (hlive.turnOpen _ hturn).2 hkind (by decide) rfl)
    (fun c htool => happ.core.books.ne_of_kind (hlive.toolOpen c _ htool).2 hkind (by decide) rfl)
  refine ⟨⟨root, spans', tools, retries, hcore', ?_, ?_, ?_⟩, ?_⟩
  · rw [hmarks.turnSpan, happ.turnSpan]
    exact hlive'
  · exact (hmarks.toolSpans.trans happ.toolSpans).trans h.toolSpans
  · exact (hmarks.retrySpans.trans happ.retrySpans).trans h.retrySpans
  · rw [hmarks.issued, happ.issued]
    exact Nat.le_succ _

end Live

-- ============================================================================
-- Runs that are not live
-- ============================================================================

/-- A run that has not been started or has ended. -/
theorem finishTool_idle {clock : Nat → Nat} {s : RunState} (payload : Dict) (htools : s.toolSpans = none)
    (hretries : s.retrySpans = none) :
    Wp (finishTool clock payload) (fun _ s' => s' = s) (fun _ _ => False) s := by
  unfold finishTool
  split
  · exact rfl
  simp only [wp_bind, wp_modify, hretries, htools, Option.map_none, Option.getD_none, Dict.get?_nil,
    closeSome]
  cases s
  cases htools
  cases hretries
  rfl

/-- A run that is started is live, whatever was there before. -/
theorem startRun_live {clock : Nat → Nat} {s : RunState} {ended : Bool} (h : Good ended s)
    (payload : Dict) : Reaches IsLive s (startRun clock payload) := by
  -- nothing of what was there before counts but the next id
  have hopened : ∀ s₁ : RunState, s₁.turnSpan = none → s₁.issued = s.issued →
      Wp (do
          let span ← newSpan clock none .run (py "kinetic.run") payload
          modify fun s =>
            { s with
              spans := some [span]
              byId := some [span.spanId]
              openStack := some [span.spanId]
              runSpan := some span.spanId
              toolSpans := some []
              retrySpans := some [] } : TracerM Unit)
        (fun _ s' => IsLive s' ∧ s.issued ≤ s'.issued) (fun _ _ => False) s₁ := by
    intro s₁ hturn hissued
    unfold newSpan uuid4 monotonic
    simp only [wp_bind, wp_modifyGet, wp_pure, wp_modify]
    have hno : ∀ p c, ¬ ParentOf [(s₁.issued, none)] p c := by
      intro p c hpc
      cases List.mem_singleton.mp hpc
    refine ⟨⟨s₁.issued, _, [], [], ⟨rfl, ⟨rfl, rfl, rfl, List.nodup_singleton _, ?_⟩, rooted_single _,
      List.mem_singleton.mpr rfl, fun p c hpc => absurd hpc (hno p c),
      fun p c hpc => absurd hpc (hno p c)⟩, ⟨fun p c hpc => absurd hpc (hno p c),
      List.mem_singleton.mpr rfl, ?_, ?_, ?_, ?_, ?_⟩, rfl, rfl⟩, ?_⟩
    · intro i hi
      have heq : i = s₁.issued := List.mem_singleton.mp hi
      rw [heq]
      exact Nat.lt_succ_self _
    · intro i hi
      rw [hturn] at hi
      cases hi
    · exact fun callId tool hmem => (by cases hmem)
    · exact fun callId callId' tool hmem => (by cases hmem)
    · exact fun callId retry hmem => (by cases hmem)
    · exact fun callId tool node hmem => (by cases hmem)
    · rw [hissued]
      exact Nat.le_succ _
  have hfinished : s.runSpan.isSome = true → ∀ {root : Nat} {spans : List TraceSpan},
      Core s root spans → Reaches IsLive s (startRun clock payload) := by
    intro hsome root spans hcore
    obtain ⟨_, -, -, hissued⟩ := finishAll_ended clock hcore
    unfold Reaches startRun
    rw [wp_bind, wp_get, if_pos hsome, wp_bind, wp_modify]
    exact hopened _ rfl hissued
  rcases h with h | ⟨-, root, spans, tools, retries, h⟩ | ⟨-, root, spans, h, -⟩
  · unfold Reaches startRun
    rw [wp_bind, wp_get, if_neg (by rw [h.runSpan]; decide)]
    exact hopened s h.turnSpan rfl
  · exact hfinished (by rw [h.core.runSpan]; rfl) h.core
  · exact hfinished (by rw [h.runSpan]; rfl) h

/-- A compaction that comes late is a closed span of the ended run. -/
theorem recordCompaction_ended {clock : Nat → Nat} {s : RunState} {root : Nat} {spans : List TraceSpan}
    (h : Core s root spans) (hended : Ended s spans) (runId : PyStr) (payload : Dict) :
    Reaches IsEnded s (recordCompaction clock runId payload) := by
  unfold Reaches recordCompaction
  rw [wp_bind, wp_get]
  split
  · exact ⟨⟨root, spans, h, hended⟩, Nat.le_refl _⟩
  rename_i root' hroot
  obtain rfl : root = root' := Option.some.inj (h.runSpan.symm.trans hroot)
  simp only [wp_bind, wp_get, wp_modify, hended.turnSpan, Option.getD_none]
  have hretry : (root, Kind.retry) ∉ kinds spans := fun hmem => by
    cases h.books.kind_unique h.rootKind hmem
  refine (append_spec clock h (mem_ids_of_kinds h.rootKind) hretry runId .compaction
    (py "kinetic.compaction") payload).mono (fun span s' happ => ?_) (fun _ _ hno => hno)
  have hmarks := close_sameMarks clock s' span.spanId
  obtain ⟨spans', hcore', -, -, hopens⟩ := close_core clock happ.core span.spanId
  refine ⟨⟨root, spans', hcore', ?_, ?_, ?_, ?_⟩, ?_⟩
  · rw [hopens, happ.opens, hended.opens, happ.spanId, List.nil_append, List.erase_cons_head]
  · exact (hmarks.turnSpan.trans happ.turnSpan).trans hended.turnSpan
  · exact (hmarks.toolSpans.trans happ.toolSpans).trans hended.toolSpans
  · exact (hmarks.retrySpans.trans happ.retrySpans).trans hended.retrySpans
  · rw [hmarks.issued, happ.issued]
    exact Nat.le_succ _

end Observability
end KineticSdk
