/-
  KineticSdk.Context.Sections

  When a manager with a `ContextBudget` compacts.

  Every section is compared with its share, the empty ones too, and the estimate
  of an empty text is one token.  So an empty section whose share is at most one
  token makes `should_compact` true for any state.
-/

import KineticSdk.Context.Pairing

namespace KineticSdk
namespace Context

open Py Conversation

/-- The sections of a state, with their shares of the window. -/
def sectionShares (b : ContextBudget) (s : ConversationState) : List (PyStr × Rat) :=
  let sections := budgetSections s
  [(sections.systemPrompt, b.systemPrompt), (sections.history, b.history),
    (sections.toolOutput, b.toolOutput), (sections.memory, b.memory), (sections.plan, b.plan)]

namespace TruncateConfig

variable (cfg : TruncateConfig)

/-- A section is at its allocation. -/
def AtShare (limit : Int) (sec : PyStr × Rat) : Prop := (limit : Rat) * sec.2 ≤ (cfg.countTokens sec.1 : Rat)

instance (limit : Int) (sec : PyStr × Rat) : Decidable (cfg.AtShare limit sec) :=
  inferInstanceAs (Decidable ((limit : Rat) * sec.2 ≤ (cfg.countTokens sec.1 : Rat)))

variable {cfg} {b : ContextBudget}

theorem shouldCompact_iff (hb : cfg.budget = some b) (s : ConversationState) (limit : Int) :
    cfg.shouldCompact s limit = true ↔ ∃ sec ∈ sectionShares b s, cfg.AtShare limit sec := by
  unfold shouldCompact
  rw [hb]
  dsimp only
  change List.any (sectionShares b s) _ = true ↔ _
  rw [List.any_eq_true]
  constructor
  · rintro ⟨sec, hsec, hover⟩
    exact ⟨sec, hsec, of_decide_eq_true hover⟩
  · rintro ⟨sec, hsec, hover⟩
    exact ⟨sec, hsec, decide_eq_true hover⟩

/-- A state is compacted only for a section with content exactly if the shares of its
    empty sections are above the estimate of an empty text, or a section with content
    is at its share anyway. -/
theorem compacts_for_content_iff (hb : cfg.budget = some b) (s : ConversationState) (limit : Int) :
    (cfg.shouldCompact s limit = true → ∃ sec ∈ sectionShares b s, sec.1 ≠ [] ∧ cfg.AtShare limit sec) ↔
      (∀ sec ∈ sectionShares b s, sec.1 = [] → (cfg.countTokens [] : Rat) < limit * sec.2) ∨
        ∃ sec ∈ sectionShares b s, sec.1 ≠ [] ∧ cfg.AtShare limit sec := by
  rw [shouldCompact_iff hb]
  constructor
  · intro h
    by_cases hempty : ∃ sec ∈ sectionShares b s, sec.1 = [] ∧ cfg.AtShare limit sec
    · obtain ⟨sec, hsec, -, hover⟩ := hempty
      exact .inr (h ⟨sec, hsec, hover⟩)
    · refine .inl fun sec hsec hnil => ?_
      have hunder : ¬ cfg.AtShare limit sec := fun hover => hempty ⟨sec, hsec, hnil, hover⟩
      unfold AtShare at hunder
      rw [hnil] at hunder
      exact not_le.mp hunder
  · rintro (hempty | hcontent) ⟨sec, hsec, hover⟩
    · refine ⟨sec, hsec, fun hnil => ?_, hover⟩
      have hunder := hempty sec hsec hnil
      unfold AtShare at hover
      rw [hnil] at hover
      exact absurd hover (not_le.mpr hunder)
    · exact hcontent

/-- The default budget, less the share of the plan. -/
def noPlanBudget : ContextBudget where
  systemPrompt := 1 / 10
  history := 9 / 20
  toolOutput := 1 / 4
  memory := 1 / 10
  plan := 0
  nonneg := by norm_num
  sum_le_one := by norm_num

/-- A manager under that budget. -/
def noPlanConfig : TruncateConfig := { keepTwo with budget := some noPlanBudget }

/-- A short conversation. -/
def greeting : ConversationState where
  systemPrompt := some (py "Be brief.")
  messages := [userMessage (py "hello")]

/-- A limit at which the history is at its share. -/
theorem compacts_for_content_greeting :
    (noPlanConfig.shouldCompact greeting 2 = true →
        ∃ sec ∈ sectionShares noPlanBudget greeting, sec.1 ≠ [] ∧ noPlanConfig.AtShare 2 sec) ∧
      noPlanConfig.AtShare 2 (py "hello", 9 / 20) := by
  have hshare : noPlanConfig.AtShare 2 (py "hello", 9 / 20) := by
    unfold AtShare
    norm_num [countTokens, noPlanConfig, keepTwo, estimateTokens, py]
  exact ⟨(compacts_for_content_iff rfl greeting 2).mpr
    (.inr ⟨(py "hello", 9 / 20), .tail _ (.head _), by decide, hshare⟩), hshare⟩

/-- A plan without a share makes every state one to compact. -/
theorem small_state_compacted :
    ¬ (noPlanConfig.shouldCompact greeting 200000 = true →
      ∃ sec ∈ sectionShares noPlanBudget greeting, sec.1 ≠ [] ∧ noPlanConfig.AtShare 200000 sec) := by
  intro h
  obtain ⟨sec, hsec, hcontent, hover⟩ := h (by decide +kernel)
  have hnone : ∀ sec ∈ sectionShares noPlanBudget greeting, sec.1 = [] ∨ ¬ noPlanConfig.AtShare 200000 sec := by
    decide +kernel
  exact (hnone sec hsec).elim hcontent fun hunder => hunder hover

end TruncateConfig

end Context
end KineticSdk
