/-
  KineticSdk.Lib.Framing

  Frames that end in a separator.

  A frame has the separator at its end and nowhere else, so frames that are put
  together come apart in one way only (`IsFrame.unique`).  A stream that is cut
  anywhere holds whole frames and the beginning of the next one
  (`prefix_of_flatten`, `begun_of_flatten`).
-/

import Mathlib.Data.List.Basic

namespace KineticSdk
namespace Lib
namespace Framing

variable {α : Type} {sep : α}

/-- The separator ends the frame and stands nowhere before. -/
def IsFrame (sep : α) (frame : List α) : Prop := ∃ body, frame = body ++ [sep] ∧ sep ∉ body

variable {frame other : List α} {rest tail : List α} {frames others : List (List α)}

theorem IsFrame.mem (h : IsFrame sep frame) : sep ∈ frame := by
  obtain ⟨body, rfl, -⟩ := h
  exact List.mem_append_right _ List.mem_cons_self

/-- The first frame of a stream is determined by the stream. -/
theorem IsFrame.unique (h : IsFrame sep frame) (h' : IsFrame sep other)
    (heq : frame ++ rest = other ++ tail) : frame = other ∧ rest = tail := by
  classical
  obtain ⟨body, rfl, hbody⟩ := h
  obtain ⟨body', rfl, hbody'⟩ := h'
  have hread : ∀ {b x : List α}, sep ∉ b → (b ++ [sep] ++ x).takeWhile (· ≠ sep) = b := fun {b x} hb => by
    rw [List.append_assoc, List.takeWhile_append_of_pos, List.singleton_append, List.takeWhile_cons_of_neg,
      List.append_nil]
    · simp
    · intro a ha
      have hne : a ≠ sep := fun h => hb (h ▸ ha)
      simpa using hne
  have hsame : body = body' := by rw [← hread hbody, heq, hread hbody']
  rw [hsame] at heq ⊢
  exact ⟨rfl, List.append_cancel_left heq⟩

/-- A beginning without a separator lies within the first frame. -/
theorem begun_of_flatten (hframes : ∀ f ∈ frames, IsFrame sep f) (hrest : sep ∉ rest) (hne : rest ≠ [])
    (h : rest <+: frames.flatten) : ∃ f fs more, frames = f :: fs ∧ more ≠ [] ∧ f = rest ++ more := by
  obtain ⟨tail, htail⟩ := h
  cases frames with
  | nil => exact absurd (List.append_eq_nil_iff.mp htail).1 hne
  | cons f fs =>
      have hf := (hframes f List.mem_cons_self).mem
      rw [List.flatten_cons] at htail
      rcases List.append_eq_append_iff.mp htail with ⟨more, hmore, -⟩ | ⟨past, hpast, -⟩
      · refine ⟨f, fs, more, rfl, ?_, hmore⟩
        rintro rfl
        rw [List.append_nil] at hmore
        exact hrest (hmore ▸ hf)
      · exact absurd (hpast ▸ List.mem_append_left _ hf) hrest

/-- Frames at the beginning of a stream are its first frames. -/
theorem prefix_of_flatten (hframes : ∀ f ∈ frames, IsFrame sep f) (hothers : ∀ f ∈ others, IsFrame sep f)
    (hrest : sep ∉ rest) (h : frames.flatten <+: others.flatten ++ rest) : frames <+: others := by
  induction frames generalizing others with
  | nil => exact List.nil_prefix
  | cons f fs ih =>
      have hf := hframes f List.mem_cons_self
      obtain ⟨tail, htail⟩ := h
      rw [List.flatten_cons, List.append_assoc] at htail
      cases others with
      | nil =>
          rw [List.flatten_nil, List.nil_append] at htail
          exact absurd (htail ▸ List.mem_append_left _ hf.mem) hrest
      | cons g gs =>
          rw [List.flatten_cons, List.append_assoc] at htail
          obtain ⟨rfl, hrest'⟩ := hf.unique (hothers g List.mem_cons_self) htail
          have hfs := ih (fun f hf => hframes f (List.mem_cons_of_mem _ hf))
            (fun f hf => hothers f (List.mem_cons_of_mem _ hf)) ⟨tail, hrest'⟩
          exact (List.prefix_cons_inj f).mpr hfs

theorem prefix_of_flatten_flatten (hframes : ∀ f ∈ frames, IsFrame sep f) (hothers : ∀ f ∈ others, IsFrame sep f)
    (h : frames.flatten <+: others.flatten) : frames <+: others :=
  prefix_of_flatten hframes hothers List.not_mem_nil (by rw [List.append_nil]; exact h)

end Framing
end Lib
end KineticSdk
