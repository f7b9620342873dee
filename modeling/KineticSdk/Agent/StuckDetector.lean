/-
  KineticSdk.Agent.StuckDetector

  The detector of unproductive loops (`agent/stuck_detector.py`).

  A call is compared by its name and the digests of its arguments and of its
  outcome, and the calls are counted in a window of the last `window_size`.
  Where the digests do not collide the count is that of equal calls
  (`count_seen`), so what the detector answers is sound in every history.  It
  is complete exactly if the threshold fits into the window: the constructor
  checks the two numbers one by one, and a larger threshold is never reached.
-/

import KineticSdk.Agent.Execute
import KineticSdk.Py.JsonCompact
import Mathlib.Data.List.DropRight

namespace KineticSdk
namespace Agent

open Py Tool Security

-- ============================================================================
-- The detector
-- ============================================================================

/-- `StuckDetector.__init__`. -/
def StuckDetector.init (windowSize repeatThreshold : Int) : Except PyExc StuckDetector :=
  if windowSize < 1 then .error ⟨py "ValueError", py "window_size must be positive"⟩
  else if repeatThreshold < 1 then .error ⟨py "ValueError", py "repeat_threshold must be positive"⟩
  else .ok { windowSize := windowSize.toNat, repeatThreshold := repeatThreshold.toNat }

/-- A call the detector is told of. -/
inductive Observation where
  /-- `observe`. -/
  | observe (toolName : PyStr) (toolArgs : Json)
  /-- `check`. -/
  | check (toolName : PyStr) (arguments : Json) (result : ToolResult)

namespace Observation

def toolName : Observation → PyStr
  | .observe name _ | .check name _ _ => name

def arguments : Observation → Json
  | .observe _ args | .check _ args _ => args

/-- What the call is compared by besides its name and its arguments. -/
def outcome : Observation → Json
  | .observe _ _ => .obj [(py "legacy", .bool true)]
  | .check _ _ result => .obj [(py "output", result.output), (py "error", optStr result.error),
      (py "failure_category", optStr (result.failureCategory.map ToolFailureCategory.value))]

/-- The tool, the arguments and the outcome are the same. -/
def Same (a b : Observation) : Prop :=
  a.toolName = b.toolName ∧ sameValue a.arguments b.arguments ∧ sameValue a.outcome b.outcome

variable (sha256 : PyStr → PyStr)

/-- The entry of the call in the window. -/
def entry (o : Observation) : PyStr × PyStr × PyStr :=
  (o.toolName, sha256 (compactSorted o.arguments), sha256 (compactSorted o.outcome))

end Observation

variable (sha256 : PyStr → PyStr) (d : StuckDetector)

/-- `_observe`: the answer, and the deque with the call in it. -/
def StuckDetector.observed (calls : List (PyStr × PyStr × PyStr)) (o : Observation) :
    Bool × List (PyStr × PyStr × PyStr) :=
  let call := o.entry sha256
  let calls := (calls ++ [call]).rtake d.windowSize
  (decide (d.repeatThreshold ≤ calls.count call), calls)

/-- The deque after a history of calls. -/
def StuckDetector.seen (history : List Observation) : List (PyStr × PyStr × PyStr) :=
  history.foldl (fun calls o => (d.observed sha256 calls o).2) []

/-- What the detector answers to a call after a history. -/
def StuckDetector.answer (history : List Observation) (o : Observation) : Bool :=
  (d.observed sha256 (d.seen sha256 history) o).1

/-- The check of the agent loop is this detector's. -/
theorem stuckCheck_eq {σ : Type} {env : Env σ}
    (h : ∀ v, env.digest v = sha256 (compactSorted v)) (call : ToolCall) (result : ToolResult)
    (window : List (PyStr × PyStr × PyStr)) :
    stuckCheck env d call result window =
      d.observed sha256 window (.check call.name call.arguments result) := by
  rw [stuckCheck, h, h]
  rfl

-- ============================================================================
-- The window
-- ============================================================================

/-- Forgetting what is out of the window changes no later window. -/
theorem rtake_append_of_rtake {α : Type} (w : Nat) (xs : List α) (x : α) :
    (xs.rtake w ++ [x]).rtake w = (xs ++ [x]).rtake w := by
  rw [List.rtake, List.rtake, List.rtake, List.length_append, List.length_append, List.length_drop,
    List.length_singleton]
  by_cases hw : w ≤ xs.length
  · have hold : xs.length - (xs.length - w) + 1 - w = 1 := by omega
    have hnew : xs.length + 1 - w = xs.length - w + 1 := by omega
    rw [hold, hnew]
    rcases Nat.eq_zero_or_pos w with rfl | hpos
    · have hlong : (xs ++ [x]).length ≤ xs.length - 0 + 1 := by
        rw [List.length_append, List.length_singleton]
        omega
      rw [List.drop_eq_nil_of_le hlong, Nat.sub_zero, List.drop_length]
      rfl
    · have hle : 1 ≤ (xs.drop (xs.length - w)).length := by
        rw [List.length_drop]
        omega
      rw [List.drop_append_of_le_length hle, List.drop_drop,
        List.drop_append_of_le_length (by omega)]
  · have hzero : xs.length - w = 0 := by omega
    rw [hzero, List.drop_zero, Nat.sub_zero]

/-- The deque holds the last calls of the history. -/
theorem seen_eq (history : List Observation) :
    d.seen sha256 history = (history.map (·.entry sha256)).rtake d.windowSize := by
  induction history using List.reverseRecOn with
  | nil => rw [StuckDetector.seen, List.foldl_nil, List.map_nil, List.rtake_nil]
  | append_singleton history o ih =>
      have hstep : d.seen sha256 (history ++ [o]) =
          (d.seen sha256 history ++ [o.entry sha256]).rtake d.windowSize := by
        rw [StuckDetector.seen, List.foldl_append, List.foldl_cons, List.foldl_nil]
        rfl
      rw [hstep, ih, rtake_append_of_rtake, List.map_append, List.map_singleton]

theorem rtake_map {α β : Type} (f : α → β) (w : Nat) (xs : List α) :
    (xs.map f).rtake w = (xs.rtake w).map f := by
  rw [List.rtake, List.rtake, List.length_map, List.map_drop]

/-- The answer is a count of equal entries among the last calls. -/
theorem answer_iff (history : List Observation) (o : Observation) :
    d.answer sha256 history o = true ↔ d.repeatThreshold ≤
      ((history ++ [o]).rtake d.windowSize).countP fun x => x.entry sha256 == o.entry sha256 := by
  have hcalls : (d.seen sha256 history ++ [o.entry sha256]).rtake d.windowSize =
      ((history ++ [o]).rtake d.windowSize).map (·.entry sha256) := by
    rw [seen_eq, rtake_append_of_rtake, ← rtake_map, List.map_append, List.map_singleton]
  have hcount : d.answer sha256 history o = decide (d.repeatThreshold ≤
      ((d.seen sha256 history ++ [o.entry sha256]).rtake d.windowSize).count (o.entry sha256)) := rfl
  rw [hcount, decide_eq_true_iff, hcalls, List.count, List.countP_map]
  rfl

-- ============================================================================
-- What is observed
-- ============================================================================

/-- The calls end in `n` that are the same as `o`. -/
def InARow (n : Nat) (calls : List Observation) (o : Observation) : Prop :=
  ∃ before run, calls = before ++ run ∧ n ≤ run.length ∧ ∀ x ∈ run, x.Same o

/-- Among the last `w` calls there are `n` that are the same as `o`. -/
def AmongLast (w n : Nat) (calls : List Observation) (o : Observation) : Prop :=
  ∃ found : List Observation, found.Sublist (calls.rtake w) ∧ n ≤ found.length ∧
    ∀ x ∈ found, x.Same o

/-- The calls carry JSON values as `json.loads` returns them, and neither two of
    the texts of their arguments nor two of their outcomes have one SHA-256 value. -/
structure Distinguished (fl : FloatRepr) (calls : List Observation) : Prop where
  arguments : ∀ o ∈ calls, Readable true fl o.arguments
  outcome : ∀ o ∈ calls, Readable true fl o.outcome
  argsHash : ∀ x ∈ calls, ∀ o ∈ calls,
    sha256 (compactSorted x.arguments) = sha256 (compactSorted o.arguments) →
      compactSorted x.arguments = compactSorted o.arguments
  resultHash : ∀ x ∈ calls, ∀ o ∈ calls,
    sha256 (compactSorted x.outcome) = sha256 (compactSorted o.outcome) →
      compactSorted x.outcome = compactSorted o.outcome

variable {sha256 d}
variable {fl : FloatRepr} {calls history : List Observation} {o x : Observation}

/-- Calls have one entry exactly if they are the same. -/
theorem Distinguished.entry_iff (h : Distinguished sha256 fl calls) (hx : x ∈ calls)
    (ho : o ∈ calls) : x.entry sha256 = o.entry sha256 ↔ x.Same o := by
  have hargs : sha256 (compactSorted x.arguments) = sha256 (compactSorted o.arguments) ↔
      sameValue x.arguments o.arguments := by
    rw [← compactSorted_inj (h.arguments x hx) (h.arguments o ho)]
    exact ⟨h.argsHash x hx o ho, congrArg sha256⟩
  have hout : sha256 (compactSorted x.outcome) = sha256 (compactSorted o.outcome) ↔
      sameValue x.outcome o.outcome := by
    rw [← compactSorted_inj (h.outcome x hx) (h.outcome o ho)]
    exact ⟨h.resultHash x hx o ho, congrArg sha256⟩
  rw [Observation.entry, Observation.entry, Prod.mk.injEq, Prod.mk.injEq, hargs, hout]
  rfl

/-- A `True` is right: the call occurs often enough in the window. -/
theorem answer_sound (h : Distinguished sha256 fl (history ++ [o]))
    (htrue : d.answer sha256 history o = true) :
    AmongLast d.windowSize d.repeatThreshold (history ++ [o]) o := by
  rw [answer_iff, List.countP_eq_length_filter] at htrue
  refine ⟨_, List.filter_sublist, htrue, fun x hx => ?_⟩
  obtain ⟨hmem, heq⟩ := List.mem_filter.mp hx
  exact (h.entry_iff (List.mem_of_mem_drop hmem) (by simp)).mp (beq_iff_eq.mp heq)

/-- A threshold that fits into the window is reached by as many calls in a row. -/
theorem answer_complete (h : Distinguished sha256 fl (history ++ [o]))
    (hfits : d.repeatThreshold ≤ d.windowSize)
    (hrow : InARow d.repeatThreshold (history ++ [o]) o) : d.answer sha256 history o = true := by
  obtain ⟨before, run, hcalls, hlen, hrun⟩ := hrow
  rw [answer_iff]
  have hentries : ∀ x ∈ run.rtake d.windowSize, (x.entry sha256 == o.entry sha256) = true := by
    intro x hx
    have hmem : x ∈ run := List.mem_of_mem_drop hx
    have hin : x ∈ history ++ [o] := by
      rw [hcalls]
      exact List.mem_append_right _ hmem
    exact beq_iff_eq.mpr ((h.entry_iff hin (by simp)).mpr (hrun x hmem))
  -- the window ends as the run does
  have hsub : (run.rtake d.windowSize).Sublist ((history ++ [o]).rtake d.windowSize) := by
    rw [hcalls, List.rtake, List.rtake, List.length_append, List.drop_append]
    have hdrop : before.length + run.length - d.windowSize - before.length ≤
        run.length - d.windowSize := by omega
    exact (List.drop_sublist_drop_left run hdrop).trans (List.sublist_append_right ..)
  have hcount : (run.rtake d.windowSize).countP (fun x => x.entry sha256 == o.entry sha256) ≤ _ :=
    hsub.countP_le
  rw [List.countP_eq_length.mpr hentries] at hcount
  have hlength : (run.rtake d.windowSize).length = run.length - (run.length - d.windowSize) :=
    List.length_drop
  omega

theorem length_rtake_le {α : Type} (w : Nat) (xs : List α) : (xs.rtake w).length ≤ w := by
  rw [List.rtake, List.length_drop]
  omega

variable (sha256 d) in
/-- A threshold larger than the window is never reached. -/
theorem answer_false (hlarge : d.windowSize < d.repeatThreshold) (history : List Observation)
    (o : Observation) : d.answer sha256 history o = false := by
  rw [Bool.eq_false_iff, Ne, answer_iff]
  intro hreached
  have hwindow := length_rtake_le d.windowSize (history ++ [o])
  have hcount := List.countP_le_length (p := fun x => x.entry sha256 == o.entry sha256)
    (l := (history ++ [o]).rtake d.windowSize)
  omega

-- ============================================================================
-- Completeness and soundness
-- ============================================================================

theorem init_ok {windowSize repeatThreshold : Int}
    (h : StuckDetector.init windowSize repeatThreshold = .ok d) :
    d.windowSize = windowSize ∧ d.repeatThreshold = repeatThreshold ∧ 1 ≤ repeatThreshold := by
  rw [StuckDetector.init] at h
  by_cases hw : windowSize < 1
  · rw [if_pos hw] at h
    cases h
  · by_cases ht : repeatThreshold < 1
    · rw [if_neg hw, if_pos ht] at h
      cases h
    · rw [if_neg hw, if_neg ht] at h
      obtain rfl := Except.ok.inj h
      exact ⟨Int.toNat_of_nonneg (by omega), Int.toNat_of_nonneg (by omega), by omega⟩

/-- A call that reports nothing. -/
def idleCall : Observation := .check (py "noop") (.obj []) {}

theorem readable_idleCall (fl : FloatRepr) :
    Readable true fl idleCall.arguments ∧ Readable true fl idleCall.outcome := by
  have hout : TextOk true (py "output") := fun _ => by decide
  have herror : TextOk true (py "error") := fun _ => by decide
  have hcategory : TextOk true (py "failure_category") := fun _ => by decide
  exact ⟨⟨List.nodup_nil, trivial⟩, by decide, hout, trivial, herror, trivial, hcategory, trivial, trivial⟩

theorem same_idleCall : idleCall.Same idleCall := by
  obtain ⟨hargs, hout⟩ := readable_idleCall id
  exact ⟨rfl, (sortKeys_eq_iff _ _ hargs hargs).mp rfl, (sortKeys_eq_iff _ _ hout hout).mp rfl⟩

/-- Whatever the digest is, equal calls are not confused. -/
theorem distinguished_replicate (sha256 : PyStr → PyStr) (fl : FloatRepr) (n : Nat) :
    Distinguished sha256 fl (List.replicate n idleCall) := by
  obtain ⟨hargs, hout⟩ := readable_idleCall fl
  have heq : ∀ o ∈ List.replicate n idleCall, o = idleCall := fun o ho => List.eq_of_mem_replicate ho
  refine ⟨fun o ho => heq o ho ▸ hargs, fun o ho => heq o ho ▸ hout, fun x hx o ho _ => ?_,
    fun x hx o ho _ => ?_⟩
  · rw [heq x hx, heq o ho]
  · rw [heq x hx, heq o ho]

/-- The detector is complete and sound over every history of calls that can be
    told apart exactly if its threshold is not larger than its window. -/
theorem stuck_detection_iff (sha256 : PyStr → PyStr) (fl : FloatRepr) {windowSize repeatThreshold : Int}
    (h : StuckDetector.init windowSize repeatThreshold = .ok d) :
    (∀ history toolName arguments result,
      let o := Observation.check toolName arguments result
      Distinguished sha256 fl (history ++ [o]) →
        (InARow d.repeatThreshold (history ++ [o]) o → d.answer sha256 history o = true) ∧
        (d.answer sha256 history o = true →
          AmongLast d.windowSize d.repeatThreshold (history ++ [o]) o)) ↔
      repeatThreshold ≤ windowSize := by
  obtain ⟨hw, ht, hpos⟩ := init_ok h
  constructor
  · intro hall
    by_contra hlarge
    -- as many equal calls in a row as the threshold asks for
    obtain ⟨n, hn⟩ : ∃ n, d.repeatThreshold = n + 1 := ⟨d.repeatThreshold - 1, by omega⟩
    have hcalls : List.replicate n idleCall ++ [idleCall] = List.replicate (n + 1) idleCall :=
      List.replicate_succ'.symm
    have hrow : InARow d.repeatThreshold (List.replicate n idleCall ++ [idleCall]) idleCall := by
      rw [hcalls, hn]
      refine ⟨[], List.replicate (n + 1) idleCall, rfl, List.length_replicate.ge, fun x hx => ?_⟩
      rw [List.eq_of_mem_replicate hx]
      exact same_idleCall
    have htrue := (hall (List.replicate n idleCall) _ _ _
      (hcalls ▸ distinguished_replicate sha256 fl (n + 1))).1 hrow
    have hfalse := answer_false sha256 d (by omega) (List.replicate n idleCall) idleCall
    exact Bool.false_ne_true (hfalse.symm.trans htrue)
  · intro hfits history toolName arguments result o hdist
    exact ⟨answer_complete hdist (by omega), answer_sound hdist⟩

theorem stuck_detection_default :
    (∀ history toolName arguments result,
      let o := Observation.check toolName arguments result
      Distinguished id id (history ++ [o]) →
        (InARow 3 (history ++ [o]) o → StuckDetector.answer id ⟨6, 3⟩ history o = true) ∧
        (StuckDetector.answer id ⟨6, 3⟩ history o = true → AmongLast 6 3 (history ++ [o]) o)) ↔
      (3 : Int) ≤ 6 :=
  @stuck_detection_iff ⟨6, 3⟩ id id 6 3 rfl

/-- A window of two and a threshold of three are accepted, and three equal calls
    in a row are not noticed. -/
theorem stuck_detection_incomplete :
    ∃ d, StuckDetector.init 2 3 = .ok d ∧
      ¬ ∀ history toolName arguments result,
        let o := Observation.check toolName arguments result
        Distinguished id id (history ++ [o]) →
          (InARow d.repeatThreshold (history ++ [o]) o → d.answer id history o = true) ∧
          (d.answer id history o = true →
            AmongLast d.windowSize d.repeatThreshold (history ++ [o]) o) := by
  refine ⟨⟨2, 3⟩, rfl, fun hall => ?_⟩
  have hall3 : ∀ x ∈ List.replicate 3 idleCall, x = idleCall := fun _ hx => List.eq_of_mem_replicate hx
  have hrow : InARow 3 ([idleCall, idleCall] ++ [idleCall]) idleCall :=
    ⟨[], List.replicate 3 idleCall, rfl, Nat.le_refl 3, fun _ hx => hall3 _ hx ▸ same_idleCall⟩
  have htrue := (hall [idleCall, idleCall] _ _ _ (distinguished_replicate id id 3)).1 hrow
  have hfalse := answer_false id ⟨2, 3⟩ (by decide) [idleCall, idleCall] idleCall
  exact Bool.false_ne_true (hfalse.symm.trans htrue)

end Agent
end KineticSdk
