/-
  KineticSdk.Llm.Usage

  The token usage of a streamed turn (`chat_stream` and `_parse_usage` of
  `llm/client.py`).

  The loop goes on to the next chunk when one has no choice, and usage is read
  at its end.  So the numbers of such a chunk are lost, also where a provider
  reports them there only.
-/

import KineticSdk.Agent.Budget
import KineticSdk.Llm.Response
import KineticSdk.Py.Dict

namespace KineticSdk
namespace Llm

open Py

-- ============================================================================
-- The loop
-- ============================================================================

/-- `usage` as a provider reports it. -/
structure ProviderUsage where
  promptTokens : Option Json := none
  completionTokens : Option Json := none

/-- A chunk of a stream: `choices[0]`, where there is one, and the usage. -/
structure Chunk where
  choice : Option Choice := none
  usage : Option ProviderUsage := none

/-- The prompt tokens a chunk reports. -/
def Chunk.promptTokens (c : Chunk) : Option Json := c.usage.bind ProviderUsage.promptTokens

/-- The completion tokens a chunk reports. -/
def Chunk.completionTokens (c : Chunk) : Option Json := c.usage.bind ProviderUsage.completionTokens

/-- An entry of a dictionary that is there only with a value. -/
def entry (key : PyStr) (value : Option Json) : Dict := (value.map fun v => (key, v)).toList

/-- `_parse_usage`. -/
def parseUsage (raw : Chunk) : Dict :=
  entry (py "input_tokens") raw.promptTokens ++ entry (py "output_tokens") raw.completionTokens

/-- `d.update(e)`. -/
def update (d e : Dict) : Dict := e.foldl (fun d kv => Dict.set d kv.1 kv.2) d

/-- What the loop of `chat_stream` has gathered, usage included. -/
structure Streamed where
  gathered : Gathered := {}
  usage : Dict := []

/-- One chunk of the loop: the early `continue` skips the usage too. -/
def streamChunk (s : Streamed) (c : Chunk) : Streamed :=
  match c.choice with
  | none => s
  | some choice =>
      { gathered := gatherChunk s.gathered (some choice)
        usage := if c.usage.isSome then update s.usage (parseUsage c) else s.usage }

/-- The usage of the `done` event. -/
def doneUsage (stream : List Chunk) : Dict := (stream.foldl streamChunk {}).usage

/-- The usage of all chunks, merged from left to right. -/
def mergedUsage (stream : List Chunk) : Dict := stream.foldl (fun d c => update d (parseUsage c)) []

-- ============================================================================
-- The last report of a number
-- ============================================================================

/-- The last chunk to report a number. -/
def lastReport (number : Chunk → Option Json) (stream : List Chunk) : Option Chunk :=
  (stream.filter fun c => (number c).isSome).getLast?

/-- The chunks that have a choice. -/
def withChoice (stream : List Chunk) : List Chunk := stream.filter fun c => c.choice.isSome

theorem withChoice_cons (c : Chunk) (stream : List Chunk) : withChoice (c :: stream)
    = if c.choice.isSome then c :: withChoice stream else withChoice stream := List.filter_cons

variable {number : Chunk → Option Json}

theorem lastReport_snoc (stream : List Chunk) (c : Chunk) :
    lastReport number (stream ++ [c])
      = if (number c).isSome then some c else lastReport number stream := by
  unfold lastReport
  rw [List.filter_append]
  by_cases h : (number c).isSome = true
  · rw [List.filter_cons, if_pos h, if_pos h, List.filter_nil, List.getLast?_concat]
  · rw [List.filter_cons, if_neg h, if_neg h, List.filter_nil, List.append_nil]

theorem isSome_of_lastReport {stream : List Chunk} {c : Chunk} (h : c ∈ lastReport number stream) :
    (number c).isSome = true := (List.mem_filter.mp (List.mem_of_getLast? h)).2

/-- A last report that has a choice is the last one with a choice. -/
theorem lastReport_withChoice {stream : List Chunk} {c : Chunk} (h : c ∈ lastReport number stream)
    (hchoice : c.choice.isSome = true) : c ∈ lastReport number (withChoice stream) := by
  obtain ⟨front, hfront⟩ := List.getLast?_eq_some_iff.mp h
  have hcomm : (withChoice stream).filter (fun c => (number c).isSome)
      = withChoice (stream.filter fun c => (number c).isSome) := by
    unfold withChoice
    rw [List.filter_filter, List.filter_filter]
    simp only [Bool.and_comm]
  rw [Option.mem_def, lastReport, hcomm, hfront, withChoice, List.filter_append, List.filter_cons,
    if_pos hchoice, List.filter_nil, List.getLast?_concat]

/-- The number a chunk reports for a key of the usage. -/
def numberAt (key : PyStr) (c : Chunk) : Option Json :=
  if key = py "input_tokens" then c.promptTokens
  else if key = py "output_tokens" then c.completionTokens
  else none

theorem get?_update_entry (d : Dict) (key key' : PyStr) (value : Option Json) :
    Dict.get? (update d (entry key' value)) key
      = if key = key' then value.or (Dict.get? d key) else Dict.get? d key := by
  cases value with
  | none =>
      rw [Option.none_or, ite_self]
      rfl
  | some v =>
      show Dict.get? (Dict.set d key' v) key = _
      by_cases h : key = key'
      · rw [if_pos h, h, Dict.get?_set_self]
        rfl
      · rw [if_neg h, Dict.get?_set_of_ne _ _ (Ne.symm h)]

theorem get?_update_parseUsage (d : Dict) (c : Chunk) (key : PyStr) :
    Dict.get? (update d (parseUsage c)) key = (numberAt key c).or (Dict.get? d key) := by
  have hsplit : update d (parseUsage c) = update (update d (entry (py "input_tokens") c.promptTokens))
      (entry (py "output_tokens") c.completionTokens) := by
    unfold update parseUsage
    rw [List.foldl_append]
  have hkeys : py "input_tokens" ≠ py "output_tokens" := by decide
  rw [hsplit, get?_update_entry, get?_update_entry, numberAt]
  by_cases hin : key = py "input_tokens"
  · rw [if_pos hin, if_pos hin, if_neg (hin ▸ hkeys)]
  · rw [if_neg hin, if_neg hin]
    by_cases hout : key = py "output_tokens"
    · rw [if_pos hout, if_pos hout]
    · rw [if_neg hout, if_neg hout, Option.none_or]

/-- The merged usage has the last report of each number. -/
theorem get?_mergedUsage (stream : List Chunk) (key : PyStr) :
    Dict.get? (mergedUsage stream) key = (lastReport (numberAt key) stream).bind (numberAt key) := by
  induction stream using List.reverseRecOn with
  | nil => rfl
  | append_singleton stream c ih =>
      rw [mergedUsage, List.foldl_append, List.foldl_cons, List.foldl_nil, get?_update_parseUsage,
        ← mergedUsage, ih, lastReport_snoc]
      cases hnumber : numberAt key c with
      | none => rw [Option.none_or]; rfl
      | some v =>
          rw [Option.some_or, Option.isSome_some, if_pos rfl, Option.bind_some, hnumber]

/-- The loop merges the usage of the chunks that have a choice. -/
theorem doneUsage_eq (stream : List Chunk) : doneUsage stream = mergedUsage (withChoice stream) := by
  have hloop : ∀ s : Streamed, (stream.foldl streamChunk s).usage
      = (withChoice stream).foldl (fun d c => update d (parseUsage c)) s.usage := by
    induction stream with
    | nil => exact fun _ => rfl
    | cons c stream ih =>
        intro s
        rw [List.foldl_cons, ih, withChoice_cons]
        cases hchoice : c.choice with
        | none =>
            rw [streamChunk, hchoice]
            rfl
        | some choice =>
            rw [Option.isSome_some, if_pos rfl, List.foldl_cons, streamChunk, hchoice]
            cases husage : c.usage with
            | some u => rfl
            | none =>
                have hempty : parseUsage c = [] := by
                  rw [parseUsage, Chunk.promptTokens, Chunk.completionTokens, husage]
                  rfl
                rw [hempty]
                rfl
  exact hloop {}

-- ============================================================================
-- Which streams lose usage
-- ============================================================================

/-- The `done` event has the usage of all chunks. -/
def UsageComplete (stream : List Chunk) : Prop :=
  ∀ key, Dict.get? (doneUsage stream) key = Dict.get? (mergedUsage stream) key

/-- If the last chunk to report the number has no choice, then the last one with a choice
    to report it reports the same. -/
def ReportedWithChoice (number : Chunk → Option Json) (stream : List Chunk) : Prop :=
  ∀ c ∈ lastReport number stream, c.choice = none →
    ∃ d ∈ lastReport number (withChoice stream), number d = number c

theorem report_eq_iff (stream : List Chunk) :
    (lastReport number (withChoice stream)).bind number = (lastReport number stream).bind number ↔
      ReportedWithChoice number stream := by
  constructor
  · intro h c hc _
    obtain ⟨v, hv⟩ := Option.isSome_iff_exists.mp (isSome_of_lastReport hc)
    rw [show lastReport number stream = some c from hc, Option.bind_some, hv] at h
    obtain ⟨d, hd, hnumber⟩ := Option.bind_eq_some_iff.mp h
    exact ⟨d, hd, hnumber.trans hv.symm⟩
  · intro h
    cases hlast : lastReport number stream with
    | none =>
        -- no chunk reports the number, with or without a choice
        have hnil : (stream.filter fun c => (number c).isSome) = [] := List.getLast?_eq_none_iff.mp hlast
        have hempty : lastReport number (withChoice stream) = none := by
          rw [lastReport, List.getLast?_eq_none_iff, withChoice, List.filter_filter,
            List.filter_eq_nil_iff]
          intro c hc hboth
          rw [Bool.and_eq_true] at hboth
          exact List.filter_eq_nil_iff.mp hnil c hc hboth.1
        rw [hempty]
    | some c =>
        cases hchoice : c.choice with
        | none =>
            obtain ⟨d, hd, hnumber⟩ := h c hlast hchoice
            rw [show lastReport number (withChoice stream) = some d from hd]
            exact hnumber
        | some choice =>
            have hsame := lastReport_withChoice hlast (hchoice ▸ rfl)
            rw [show lastReport number (withChoice stream) = some c from hsame]

/-- The `done` event has the usage of all chunks exactly when no number is reported last,
    and as a new one, by a chunk without a choice. -/
theorem usage_complete_iff (stream : List Chunk) :
    UsageComplete stream ↔
      ReportedWithChoice Chunk.promptTokens stream ∧ ReportedWithChoice Chunk.completionTokens stream := by
  have hin : numberAt (py "input_tokens") = Chunk.promptTokens := rfl
  have hout : numberAt (py "output_tokens") = Chunk.completionTokens := rfl
  have hkey : ∀ key, Dict.get? (doneUsage stream) key = Dict.get? (mergedUsage stream) key ↔
      ReportedWithChoice (numberAt key) stream := fun key => by
    rw [doneUsage_eq, get?_mergedUsage, get?_mergedUsage, report_eq_iff]
  unfold UsageComplete
  simp only [hkey]
  constructor
  · exact fun h => ⟨h (py "input_tokens"), h (py "output_tokens")⟩
  · rintro ⟨hprompt, hcompletion⟩ key
    by_cases h1 : key = py "input_tokens"
    · rw [h1, hin]
      exact hprompt
    · by_cases h2 : key = py "output_tokens"
      · rw [h2, hout]
        exact hcompletion
      · intro c hc
        have hsome := isSome_of_lastReport hc
        rw [numberAt, if_neg h1, if_neg h2] at hsome
        exact Bool.noConfusion hsome

/-- A budget charges a turn with complete usage for all that was reported. -/
theorem UsageComplete.record {stream : List Chunk} (h : UsageComplete stream) (b : Agent.RunBudget) :
    b.record (some (doneUsage stream)) = b.record (some (mergedUsage stream)) := by
  unfold Agent.RunBudget.record
  dsimp only [Option.bind_some]
  rw [h, h]

/-- A text, and behind it the chunk of a provider that sends the usage last. -/
def usageLast : List Chunk :=
  [{ choice := some { content := some (py "hi"), finishReason := some (py "stop") } },
    { usage := some ⟨some (.int 10), some (.int 5)⟩ }]

/-- The usage of that stream is lost, and a budget is not charged. -/
theorem usage_last_lost :
    ¬ UsageComplete usageLast ∧
      ((Agent.RunBudget.mk none (some 1) 0 0).record (some (doneUsage usageLast))).usedTokens = 0 ∧
      ((Agent.RunBudget.mk none (some 1) 0 0).record (some (mergedUsage usageLast))).usedTokens = 15 := by
  refine ⟨fun h => ?_, by decide, by decide⟩
  exact absurd (h (py "input_tokens")) (by decide)

end Llm
end KineticSdk
