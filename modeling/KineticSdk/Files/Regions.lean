/-
  KineticSdk.Files.Regions

  The regions of the original file that the hunks of a file patch edit.

  A hunk is applied to the lines as the hunks before it have left them, at its
  shifted start or within 20 lines of it.  As long as no hunk is placed before
  the end of what the one before it put in (`forward`), the lines behind that
  end are still those of the original, so the place is an interval of the
  original behind all earlier ones.
-/

import KineticSdk.Files.Patch
import KineticSdk.Lib.Wp

namespace KineticSdk
namespace Files

open Py

-- ============================================================================
-- Where a hunk is placed
-- ============================================================================

/-- The start of a hunk, shifted by what the hunks before it have added. -/
def Hunk.shifted (h : Hunk) (offset : Int) : Int :=
  (if h.oldCount = 0 then (h.oldStart : Int) else (h.oldStart : Int) - 1) + offset

/-- The places `_apply_file_patch` finds for a hunk. -/
def Hunk.places (newline : PyStr) (lines : List PyStr) (offset : Int) (h : Hunk) : List Nat :=
  let expected := h.expected newline
  let start := (h.shifted offset).toNat
  if slice lines start expected.length = expected then [start] else candidates lines expected start

theorem mem_candidates {lines expected : List PyStr} {start c : Nat}
    (h : c ∈ candidates lines expected start) :
    slice lines c expected.length = expected ∧ c + expected.length ≤ lines.length := by
  unfold candidates at h
  obtain ⟨hrange, hslice⟩ := List.mem_filter.mp h
  obtain ⟨i, hi, rfl⟩ := List.mem_map.mp hrange
  have hlt := List.mem_range.mp hi
  refine ⟨by simpa using hslice, ?_⟩
  omega

theorem slice_length_le {lines expected : List PyStr} {c : Nat} (hc : c ≤ lines.length)
    (h : slice lines c expected.length = expected) : c + expected.length ≤ lines.length := by
  have hlength := congrArg List.length h
  unfold slice at hlength
  rw [List.length_take, List.length_drop] at hlength
  omega

/-- The place `locate` finds is the only one. -/
theorem locate_ok {lines expected : List PyStr} {start c : Nat} (hstart : start ≤ lines.length)
    (h : locate lines expected start = .ok c) :
    (if slice lines start expected.length = expected then [start] else candidates lines expected start)
        = [c] ∧
      slice lines c expected.length = expected ∧ c + expected.length ≤ lines.length := by
  unfold locate at h
  by_cases hthere : slice lines start expected.length = expected
  · rw [if_pos hthere] at h ⊢
    cases h
    exact ⟨rfl, hthere, slice_length_le hstart hthere⟩
  · rw [if_neg hthere] at h ⊢
    split at h
    · rename_i c' hone
      cases h
      exact ⟨hone, mem_candidates (by rw [hone]; exact List.mem_singleton.mpr rfl)⟩
    · cases h
    · cases h

/-- A hunk that applies has one place, where its expected lines stand and are
    replaced. -/
theorem applyHunk_ok {newline : PyStr} {lines lines' : List PyStr} {offset offset' : Int} {h : Hunk}
    (happly : applyHunk newline (lines, offset) h = .ok (lines', offset')) :
    ∃ c, h.places newline lines offset = [c] ∧
      slice lines c (h.expected newline).length = h.expected newline ∧
      c + (h.expected newline).length ≤ lines.length ∧
      lines' = lines.take c ++ h.replacement newline ++ lines.drop (c + (h.expected newline).length) := by
  unfold applyHunk at happly
  change (if h.shifted offset < 0 ∨ (lines.length : Int) < h.shifted offset then _ else _) = _
    at happly
  by_cases houtside : h.shifted offset < 0 ∨ (lines.length : Int) < h.shifted offset
  · rw [if_pos houtside] at happly
    cases happly
  · rw [if_neg houtside] at happly
    obtain ⟨c, hlocate, hrest⟩ := Lib.bind_ok happly
    cases hrest
    have hstart : (h.shifted offset).toNat ≤ lines.length := by omega
    obtain ⟨hplaces, hslice, hend⟩ := locate_ok hstart hlocate
    exact ⟨c, hplaces, hslice, hend, rfl⟩

-- ============================================================================
-- Regions
-- ============================================================================

/-- The intervals are increasing and disjoint from a line on, and each holds the
    expected lines of its hunk. -/
def Placed (newline : PyStr) (original : List PyStr) : Nat → List (Hunk × Nat) → Prop
  | _, [] => True
  | pos, (h, start) :: rest =>
      pos ≤ start ∧ start + (h.expected newline).length ≤ original.length ∧
      slice original start (h.expected newline).length = h.expected newline ∧
      Placed newline original (start + (h.expected newline).length) rest

/-- The lines from a line on, with each interval replaced by the lines of its hunk. -/
def splice (newline : PyStr) (original : List PyStr) : Nat → List (Hunk × Nat) → List PyStr
  | pos, [] => original.drop pos
  | pos, (h, start) :: rest =>
      slice original pos (start - pos) ++ h.replacement newline
        ++ splice newline original (start + (h.expected newline).length) rest

/-- The result is the original with one interval for each hunk, in order,
    replaced by the hunk's lines. -/
def EditsRegions (original : PyStr) (p : FilePatch) (result : PyStr) : Prop :=
  ∃ starts : List Nat, starts.length = p.hunks.length ∧
    Placed (fileNewline original) (splitlines original) 0 (p.hunks.zip starts) ∧
    result = (splice (fileNewline original) (splitlines original) 0 (p.hunks.zip starts)).flatten

/-- Every hunk with lines is placed at or behind the end of what the one before
    it put in, `frontier`. -/
def forward (newline : PyStr) : List PyStr × Int → Nat → List Hunk → Bool
  | _, _, [] => true
  | (lines, offset), frontier, h :: hs =>
      match applyHunk newline (lines, offset) h with
      | .error _ => true
      | .ok state =>
          if h.lines = [] then forward newline state frontier hs
          else
            let places := h.places newline lines offset
            (places.all fun c => frontier ≤ c) &&
              forward newline state (places.headD 0 + (h.replacement newline).length) hs

-- ============================================================================
-- Forward patches edit regions
-- ============================================================================

/-- Replacing lines behind the frontier of a text that is the original from
    there on. -/
theorem splice_step {done original : List PyStr} (rep : List PyStr) {pos c n : Nat}
    (hpos : pos ≤ original.length) (hc : done.length ≤ c) (hn : c + n ≤ (done ++ original.drop pos).length) :
    let start := pos + (c - done.length)
    start + n ≤ original.length ∧
      slice (done ++ original.drop pos) c n = slice original start n ∧
      (done ++ original.drop pos).take c ++ rep ++ (done ++ original.drop pos).drop (c + n)
        = (done ++ slice original pos (start - pos) ++ rep) ++ original.drop (start + n) := by
  intro start
  rw [List.length_append, List.length_drop] at hn
  have hdrop : ∀ m, (done ++ original.drop pos).drop (c + m) = original.drop (start + m) := by
    intro m
    rw [List.drop_append, List.drop_of_length_le (by omega), List.nil_append, List.drop_drop]
    congr 1
    omega
  have htake : (done ++ original.drop pos).take c = done ++ slice original pos (start - pos) := by
    rw [List.take_append, List.take_of_length_le hc]
    unfold slice
    congr 2
    omega
  refine ⟨by omega, ?_, ?_⟩
  · have hzero := hdrop 0
    unfold slice
    rw [Nat.add_zero, Nat.add_zero] at hzero
    rw [hzero]
  · rw [htake, hdrop n]

theorem forward_edits {newline : PyStr} {original : List PyStr} (hs : List Hunk) {done : List PyStr}
    {pos : Nat} {offset offset' : Int} {lines' : List PyStr} (hpos : pos ≤ original.length)
    (hforward : forward newline (done ++ original.drop pos, offset) done.length hs = true)
    (happly : hs.foldlM (applyHunk newline) (done ++ original.drop pos, offset)
      = .ok (lines', offset')) :
    ∃ starts : List Nat, starts.length = hs.length ∧ Placed newline original pos (hs.zip starts) ∧
      lines' = done ++ splice newline original pos (hs.zip starts) := by
  induction hs generalizing done pos offset with
  | nil =>
      cases happly
      exact ⟨[], rfl, trivial, rfl⟩
  | cons h hs ih =>
      rw [List.foldlM_cons] at happly
      obtain ⟨⟨lines₁, offset₁⟩, hone, hrest⟩ := Lib.bind_ok happly
      obtain ⟨c, hplaces, hslice, hend, rfl⟩ := applyHunk_ok hone
      rw [forward] at hforward
      simp only [hone, hplaces, List.all_cons, List.all_nil, Bool.and_true, List.headD_cons]
        at hforward
      by_cases hlines : h.lines = []
      · -- a hunk without lines changes nothing; its interval is the empty one here
        rw [if_pos hlines] at hforward
        have hexpected : h.expected newline = [] := by
          unfold Hunk.expected
          rw [hlines]
          rfl
        have hreplacement : h.replacement newline = [] := by
          unfold Hunk.replacement
          rw [hlines]
          rfl
        rw [hexpected, hreplacement, List.length_nil, Nat.add_zero, List.append_nil,
          List.take_append_drop] at hrest hforward
        obtain ⟨starts, hlength, hplaced, rfl⟩ := ih hpos hforward hrest
        refine ⟨pos :: starts, congrArg (· + 1) hlength, ?_, ?_⟩
        · show pos ≤ pos ∧ pos + (h.expected newline).length ≤ original.length ∧
            slice original pos (h.expected newline).length = h.expected newline ∧
            Placed newline original (pos + (h.expected newline).length) (hs.zip starts)
          rw [hexpected]
          exact ⟨Nat.le_refl _, hpos, rfl, hplaced⟩
        · show done ++ splice newline original pos (hs.zip starts)
            = done ++ (slice original pos (pos - pos) ++ h.replacement newline
              ++ splice newline original (pos + (h.expected newline).length) (hs.zip starts))
          rw [hexpected, hreplacement, Nat.sub_self]
          rfl
      · rw [if_neg hlines, Bool.and_eq_true, decide_eq_true_eq] at hforward
        obtain ⟨hc, hforward⟩ := hforward
        obtain ⟨hend', hsame, hsplit⟩ := splice_step (h.replacement newline) hpos hc hend
        rw [hsplit] at hrest hforward
        have hdone : (done ++ slice original pos (pos + (c - done.length) - pos)
            ++ h.replacement newline).length = c + (h.replacement newline).length := by
          unfold slice
          rw [List.length_append, List.length_append, List.length_take, List.length_drop]
          omega
        rw [← hdone] at hforward
        obtain ⟨starts, hlength, hplaced, rfl⟩ := ih hend' hforward hrest
        refine ⟨(pos + (c - done.length)) :: starts, congrArg (· + 1) hlength, ?_, ?_⟩
        · exact ⟨Nat.le_add_right .., hend', hsame.symm.trans hslice, hplaced⟩
        · show _ = done ++ (slice original pos (pos + (c - done.length) - pos)
            ++ h.replacement newline ++ splice newline original _ (hs.zip starts))
          simp only [List.append_assoc]

/-- Where every hunk is placed behind the one before it, a patch that applies
    replaces disjoint intervals of the original, one for each hunk in order. -/
theorem applyFilePatch_edits_regions {original result : PyStr} {p : FilePatch}
    (hforward : forward (fileNewline original) (splitlines original, 0) 0 p.hunks = true)
    (happly : applyFilePatch original p = .ok result) : EditsRegions original p result := by
  unfold applyFilePatch at happly
  obtain ⟨⟨lines, offset⟩, hfold, hresult⟩ := Lib.bind_ok happly
  cases hresult
  have hstart : ([] : List PyStr) ++ (splitlines original).drop 0 = splitlines original := rfl
  rw [← hstart] at hforward hfold
  obtain ⟨starts, hlength, hplaced, rfl⟩ := forward_edits p.hunks (Nat.zero_le _) hforward hfold
  exact ⟨starts, hlength, hplaced, by rw [List.nil_append]⟩

/-- Replace the first of two lines by two, and the second one. -/
def twoHunks : FilePatch :=
  ⟨py "f", [⟨1, 1, 1, 2, [py "-a\n", py "+A\n", py "+B\n"]⟩, ⟨2, 1, 3, 1, [py "-h\n", py "+H\n"]⟩]⟩

theorem applyFilePatch_edits_two_regions :
    EditsRegions (py "a\nh\n") twoHunks (py "A\nB\nH\n") :=
  applyFilePatch_edits_regions (by decide +kernel) (by decide +kernel)

/-- Insert a line `x` at the top, and replace a line `x` by `y`. -/
def insertedHunks : FilePatch :=
  ⟨py "f", [⟨0, 0, 1, 1, [py "+x\n"]⟩, ⟨1, 1, 1, 1, [py "-x\n", py "+y\n"]⟩]⟩

/-- The second hunk replaces the line the first one put in; the original has no
    such line. -/
theorem inserted_line_edited :
    parsePatch (py "--- a/f\n+++ b/f\n@@ -0,0 +1 @@\n+x\n@@ -1 +1 @@\n-x\n+y\n")
        = .ok [insertedHunks] ∧
      applyFilePatch (py "a\n") insertedHunks = .ok (py "y\na\n") ∧
      ¬ EditsRegions (py "a\n") insertedHunks (py "y\na\n") := by
  refine ⟨by decide +kernel, by decide +kernel, ?_⟩
  rintro ⟨starts, hlength, hplaced, -⟩
  obtain ⟨first, second, rfl⟩ : ∃ first second, starts = [first, second] :=
    List.length_eq_two.mp hlength
  obtain ⟨-, -, -, -, hinside, hslice, -⟩ := hplaced
  have hend : second + 1 ≤ 1 := hinside
  obtain rfl : second = 0 := by omega
  exact absurd hslice (by decide +kernel)

end Files
end KineticSdk
