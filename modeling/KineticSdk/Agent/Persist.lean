/-
  KineticSdk.Agent.Persist

  Whether the conversation of an agent survives its store.

  Of everything the agent puts into a conversation only the findings of a
  progressive compaction are no JSON value.  They enter the metadata and never
  leave it, so a state can be saved and loaded exactly as long as no
  compaction of the agent has stored any.
-/

import KineticSdk.Agent.Rules
import KineticSdk.Conversation.Store

namespace KineticSdk
namespace Agent

open Py Tool Security Conversation Replay Context
open Lib (Wp Keeps Guarded)

variable {σ : Type}

-- ============================================================================
-- Any number of runs
-- ============================================================================

/-- The states an agent reaches by runs and resolved confirmations. -/
inductive RunsTo (env : LoopEnv σ) (s₀ : AgentState σ) : AgentState σ → Prop where
  | start : RunsTo env s₀ s₀
  | run {s : AgentState σ} (args : RunArgs) : RunsTo env s₀ s →
      RunsTo env s₀ (stateAfter (run env args) s)
  | resolve {s : AgentState σ} (approved : Bool) : RunsTo env s₀ s →
      RunsTo env s₀ (stateAfter (resolvePendingConfirmation env.toEnv approved) s)

/-- An invariant holds after any number of runs. -/
theorem RunInvariant.runsTo {K : ConversationState → List Action → Prop} (hK : RunInvariant K)
    {env : LoopEnv σ} {s₀ s : AgentState σ} (hs : RunsTo env s₀ s) (h : K s₀.conv s₀.trace) :
    K s.conv s.trace := by
  induction hs with
  | start => exact h
  | run args _ ih => exact Wp.stateAfter (I := TurnRule.At K) (hK.run env args _ ih)
  | resolve approved _ ih =>
      exact Wp.stateAfter (I := TurnRule.At K) (hK.resolvePendingConfirmation env.toEnv approved _ ih)

-- ============================================================================
-- Findings in the metadata
-- ============================================================================

/-- Some compaction stored structured findings. -/
def Summarized (as : List Action) : Prop := ∃ found, .summarized found ∈ as

/-- The key findings are stored under. -/
def summaryKey : PyStr := py "structured_summary"

/-- Since the trace `t₀`, a conversation holds findings exactly if a compaction
    has stored some, and so did every conversation that was persisted. -/
structure Told (t₀ : List Action) (c : ConversationState) (t : List Action) : Prop where
  keys : ∀ kv ∈ c.metadata, ∀ found, kv.2 = .summary found → kv.1 = summaryKey
  told : ∃ as, t = t₀ ++ as ∧ (plainMetadata c ↔ ¬ Summarized as) ∧
    Guarded (fun pre a => ∀ c, a = .persisted c → (plainMetadata c ↔ ¬ Summarized pre)) as

theorem mem_set {d : List (PyStr × MetaValue)} {k : PyStr} {v : MetaValue} :
    (k, v) ∈ Dict.set d k v := by
  induction d with
  | nil => exact List.mem_singleton.mpr rfl
  | cons kv d ih =>
      obtain ⟨k', w⟩ := kv
      rw [Dict.set]
      split
      · exact List.mem_cons_self ..
      · exact List.mem_cons_of_mem _ ih

theorem mem_of_mem_set {d : List (PyStr × MetaValue)} {k : PyStr} {v : MetaValue}
    {kv : PyStr × MetaValue} (h : kv ∈ Dict.set d k v) : kv ∈ d ∨ kv = (k, v) := by
  induction d with
  | nil => exact .inr (List.mem_singleton.mp h)
  | cons kv' d ih =>
      obtain ⟨k', w⟩ := kv'
      rw [Dict.set] at h
      split at h
      · rcases List.mem_cons.mp h with rfl | h
        · exact .inr rfl
        · exact .inl (List.mem_cons_of_mem _ h)
      · rcases List.mem_cons.mp h with rfl | h
        · exact .inl (List.mem_cons_self ..)
        · exact (ih h).imp_left (List.mem_cons_of_mem _)

/-- Setting a key leaves the items of the others. -/
theorem mem_set_of_ne {d : List (PyStr × MetaValue)} {k : PyStr} {v : MetaValue}
    {kv : PyStr × MetaValue} (h : kv ∈ d) (hk : kv.1 ≠ k) : kv ∈ Dict.set d k v := by
  induction d with
  | nil => cases h
  | cons kv' d ih =>
      obtain ⟨k', w⟩ := kv'
      rw [Dict.set]
      rcases List.mem_cons.mp h with rfl | h
      · rw [if_neg hk]
        exact List.mem_cons_self ..
      · split
        · exact List.mem_cons_of_mem _ h
        · exact List.mem_cons_of_mem _ (ih h)

/-- A conversation that is not plain holds findings. -/
theorem not_plainMetadata_iff (c : ConversationState) :
    ¬ plainMetadata c ↔ ∃ kv ∈ c.metadata, ∃ found, kv.2 = .summary found := by
  unfold plainMetadata
  push Not
  constructor
  · rintro ⟨kv, hkv, hnone⟩
    cases hv : kv.2 with
    | json v => exact absurd hv (hnone v)
    | summary found => exact ⟨kv, hkv, found, hv⟩
  · rintro ⟨kv, hkv, found, hv⟩
    refine ⟨kv, hkv, fun v hj => ?_⟩
    rw [hv] at hj
    cases hj

/-- The plan never touches findings. -/
theorem planned_plain_iff {c : ConversationState}
    (hkeys : ∀ kv ∈ c.metadata, ∀ found, kv.2 = .summary found → kv.1 = summaryKey)
    (plan : Option PyStr) :
    (∀ kv ∈ (planned plan c).metadata, ∀ found, kv.2 = .summary found → kv.1 = summaryKey) ∧
      (plainMetadata (planned plan c) ↔ plainMetadata c) := by
  have hne : summaryKey ≠ py "plan" := by decide
  -- a finding of the new metadata was there before
  have hback : ∀ kv ∈ (planned plan c).metadata, ∀ found, kv.2 = .summary found →
      kv ∈ c.metadata := by
    intro kv hkv found hv
    cases plan with
    | none => exact List.mem_of_mem_filter hkv
    | some p =>
        rcases mem_of_mem_set hkv with hold | rfl
        · exact hold
        · cases hv
  refine ⟨fun kv hkv found hv => hkeys kv (hback kv hkv found hv) found hv, ?_⟩
  rw [← not_iff_not, not_plainMetadata_iff, not_plainMetadata_iff]
  constructor
  · rintro ⟨kv, hkv, found, hv⟩
    exact ⟨kv, hback kv hkv found hv, found, hv⟩
  · rintro ⟨kv, hkv, found, hv⟩
    have hkey : kv.1 ≠ py "plan" := by
      rw [hkeys kv hkv found hv]
      exact hne
    refine ⟨kv, ?_, found, hv⟩
    cases plan with
    | none => exact List.mem_filter.mpr ⟨hkv, by simpa using hkey⟩
    | some p => exact mem_set_of_ne hkv hkey

/-- What a compaction does to the metadata. -/
theorem compact_metadata (manager : ContextManager) (limit : Option Int) (c : ConversationState) :
    (manager.compact limit c).metadata = match manager.progressiveResult limit c with
      | some found => Dict.set c.metadata summaryKey (.summary found)
      | none => c.metadata := by
  cases manager <;> rfl

theorem Told.same {t₀ t : List Action} {c c' : ConversationState} (h : Told t₀ c t)
    (hc : c'.metadata = c.metadata) : Told t₀ c' t := by
  obtain ⟨hkeys, htold⟩ := h
  unfold plainMetadata at htold
  rw [← hc] at hkeys htold
  exact ⟨hkeys, htold⟩

/-- Actions that tell of neither compactions nor stores. -/
theorem Told.grow {t₀ t : List Action} {c : ConversationState} (h : Told t₀ c t) {a : Action}
    (hsummary : ∀ found, a ≠ .summarized found) (hstore : ∀ c, a ≠ .persisted c) :
    Told t₀ c (t ++ [a]) := by
  obtain ⟨hkeys, as, rfl, hplain, hguard⟩ := h
  refine ⟨hkeys, as ++ [a], by simp, ?_, ?_⟩
  · have hnew : Summarized (as ++ [a]) ↔ Summarized as := by
      unfold Summarized
      constructor
      · rintro ⟨found, hin⟩
        rcases List.mem_append.mp hin with hin | hin
        · exact ⟨found, hin⟩
        · exact absurd (List.mem_singleton.mp hin).symm (hsummary found)
      · exact fun ⟨found, hin⟩ => ⟨found, List.mem_append_left _ hin⟩
    rw [hnew]
    exact hplain
  · refine Guarded.snoc_iff.mpr ⟨hguard, ?_⟩
    exact fun c heq => absurd heq (hstore c)

theorem runInvariant_told (t₀ : List Action) : RunInvariant (Told t₀) where
  append := by
    intro c t msg h
    refine h.same ?_
    rw [ConversationState.append_eq]
  note := by
    intro c t a ha h
    refine h.grow ?_ ?_ <;> rintro x rfl <;> rcases ha with ha | ha <;> exact ha.elim
  asked := fun c t h => h.grow (by simp) (by simp)
  persist := by
    rintro c t ⟨hkeys, as, rfl, hplain, hguard⟩
    refine ⟨hkeys, as ++ [.persisted c], by simp, ?_, ?_⟩
    · simpa [Summarized] using hplain
    · refine Guarded.snoc_iff.mpr ⟨hguard, ?_⟩
      rintro c' heq
      obtain rfl := Action.persisted.inj heq
      exact hplain
  compact := by
    intro c t manager limit h
    have hmeta := compact_metadata manager limit c
    cases hr : manager.progressiveResult limit c with
    | none =>
        rw [hr] at hmeta
        simpa using h.same hmeta
    | some found =>
        rw [hr] at hmeta
        obtain ⟨hkeys, as, rfl, -, hguard⟩ := h
        refine ⟨?_, as ++ [.summarized found], by simp, ?_, ?_⟩
        · intro kv hkv found' hv
          rw [hmeta] at hkv
          rcases mem_of_mem_set hkv with hold | rfl
          · exact hkeys kv hold found' hv
          · rfl
        · refine iff_of_false ?_ fun h => h ⟨found, by simp⟩
          rw [not_plainMetadata_iff, hmeta]
          exact ⟨_, mem_set, found, rfl⟩
        · refine Guarded.snoc_iff.mpr ⟨hguard, ?_⟩
          rintro c' heq
          cases heq
  plan := by
    rintro c t plan ⟨hkeys, as, rfl, hplain, hguard⟩
    obtain ⟨hkeys', hiff⟩ := planned_plain_iff hkeys plan
    exact ⟨hkeys', as, rfl, hiff.trans hplain, hguard⟩

-- ============================================================================
-- What the store keeps
-- ============================================================================

/-- Whatever the model, the tools, the hooks and the summarizer do in any number
    of runs: a conversation of valid texts that the agent has, or has persisted
    on the way, can be saved and is loaded as it was exactly if no compaction
    before it stored structured findings. -/
theorem conversation_faithful_iff (store : JsonFileConversationStore) {env : LoopEnv σ}
    {s₀ s : AgentState σ} (hplain : plainMetadata s₀.conv) (hs : RunsTo env s₀ s) :
    ∃ as, s.trace = s₀.trace ++ as ∧
      (ValidText s.conv → (Faithful store s.conv ↔ ¬ Summarized as)) ∧
      Guarded (fun pre a => ∀ c, a = .persisted c → ValidText c →
        (Faithful store c ↔ ¬ Summarized pre)) as := by
  have hstart : Told s₀.trace s₀.conv s₀.trace := by
    refine ⟨?_, [], by simp, by simpa [Summarized] using hplain, Guarded.nil⟩
    intro kv hkv found hv
    obtain ⟨v, hj⟩ := hplain kv hkv
    rw [hv] at hj
    cases hj
  obtain ⟨-, as, htrace, hiff, hguard⟩ := (runInvariant_told s₀.trace).runsTo hs hstart
  refine ⟨as, htrace, fun hvalid => (faithful_iff store hvalid).trans hiff, ?_⟩
  exact hguard.mono fun pre a h c hc hvalid => (faithful_iff store hvalid).trans (h c hc)

/-- A `SummarizingContextManager` whose `ProgressiveSummarizer` finds one goal. -/
def progressiveManager : SummarizingConfig where
  keepLastToolResults := 0
  safetyThreshold := 1
  charsPerToken := 1
  tokenCounter := none
  maxToolResultChars := none
  budget := none
  toolOutputCompressor := none
  tailTokenBudget := none
  summarizer := some (.progressive fun _ _ => some { goal := [py "ship it"] })
  maxSummaryChars := 1000
  maxStructuredChars := 4000
  maxItemsPerField := 30
  threshold_range := by decide +kernel
  chars_pos := by omega
  max_chars_ge := no_max_chars
  tail_range := no_tail_budget
  summary_chars_pos := by omega
  structured_chars_pos := by omega
  items_pos := by omega

/-- An agent with that manager and a window of three tokens. -/
def summarizingAgent : LoopEnv Unit where
  tools := []
  permissionPolicy := fun _ _ w => (.ok ⟨true, py "ok", false⟩, w)
  idempotencyKey := fun _ _ _ => []
  digest := fun _ => []
  cancelRequested := fun w => (false, w)
  timedOut := fun _ w => (false, w)
  slotsReleased := fun w => (0, w)
  monotonic := fun w => (0, w)
  chat := fun _ _ w => (.ok { content := py "done" }, w)
  chatStream := fun _ _ w => (.notImplemented, w)
  classifier := fun _ w => (some .flash, w)
  contextManager := fun w => (.summarizing progressiveManager, w)
  modelContextLimit := 3
  budgetStop := fun w => (none, w)
  recordUsage := fun _ w => ((), w)
  inbox := fun w => ([], w)
  newRunId := fun w => (py "run", w)
  parseStructured := fun _ => none

/-- A conversation of two turns. -/
def talkedState : AgentState Unit where
  conv := { messages := [userMessage (py "hi"), assistantMessage (.str (py "hello"))] }
  runtime := {}
  runId := []
  world := ()

/-- After a run that compacted the talk the conversation cannot be saved. -/
theorem summarized_conversation_not_saved :
    plainMetadata talkedState.conv ∧
      ∃ s, RunsTo summarizingAgent talkedState s ∧ ValidText s.conv ∧
        (JsonFileConversationStore.save ⟨py "c.json"⟩ none s.conv).2 = .error notSerializable := by
  refine ⟨by simp [plainMetadata, talkedState], _, .run { userMessage := some (py "go") } .start,
    ?_, ?_⟩
  · show Json.encodableFields _ = true
    decide +kernel
  · decide +kernel

-- a statement about a run is never settled by evaluating it
attribute [local irreducible] run

/-- The theorem at that agent. -/
theorem summarizingAgent_faithful_iff :
    ∃ as, (stateAfter (run summarizingAgent { userMessage := some (py "go") })
        talkedState).trace = talkedState.trace ++ as ∧
      (ValidText (stateAfter (run summarizingAgent { userMessage := some (py "go") })
          talkedState).conv →
        (Faithful ⟨py "c.json"⟩ (stateAfter (run summarizingAgent { userMessage := some (py "go") })
          talkedState).conv ↔ ¬ Summarized as)) ∧
      Guarded (fun pre a => ∀ c, a = .persisted c → ValidText c →
        (Faithful ⟨py "c.json"⟩ c ↔ ¬ Summarized pre)) as :=
  conversation_faithful_iff ⟨py "c.json"⟩ (by simp [plainMetadata, talkedState])
    (.run { userMessage := some (py "go") } .start)

end Agent
end KineticSdk
