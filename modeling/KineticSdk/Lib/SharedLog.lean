/-
  KineticSdk.Lib.SharedLog

  One slot that several clients write, each from a copy of its own.

  The slot holds the log of one key.  A client that writes an entry starts
  from its copy if that is a log of the key, else from the slot, and writes
  the whole log back.  Nothing tells a client that the slot has moved on, so
  entries are lost as soon as a stale copy is written.

  `complete_iff_of_key` says exactly when nothing is lost if all clients write
  under one key, `complete_iff_of_client` when one client writes under many.
-/

import KineticSdk.Lib.Trace
import Mathlib.Logic.Function.Basic

namespace KineticSdk
namespace Lib

variable {ι κ α : Type} [DecidableEq ι] [DecidableEq κ]

/-- One entry written by a client under a key. -/
structure Write (ι κ α : Type) where
  client : ι
  key : κ
  entry : α

/-- The slot and the clients' copies, each with the key it is a log of. -/
structure SharedLog (ι κ α : Type) where
  slot : Option (κ × List α)
  copy : ι → Option (κ × List α)

/-- The log of the key, if this is one. -/
def logOf (k : κ) : Option (κ × List α) → Option (List α)
  | some (k', xs) => if k' = k then some xs else none
  | none => none

@[simp] theorem logOf_none (k : κ) : logOf k (none : Option (κ × List α)) = none := rfl

@[simp] theorem logOf_self (k : κ) (xs : List α) : logOf k (some (k, xs)) = some xs := by
  simp [logOf]

theorem logOf_of_ne {k k' : κ} (h : k' ≠ k) (xs : List α) : logOf k (some (k', xs)) = none := by
  simp [logOf, h]

namespace SharedLog

/-- The log a client writes from. -/
def base (s : SharedLog ι κ α) (i : ι) (k : κ) : List α :=
  ((logOf k (s.copy i)).or (logOf k s.slot)).getD []

/-- A client appends an entry and writes the whole log back. -/
def write (s : SharedLog ι κ α) (w : Write ι κ α) : SharedLog ι κ α :=
  let log := some (w.key, s.base w.client w.key ++ [w.entry])
  { slot := log, copy := Function.update s.copy w.client log }

/-- The writes one after the other. -/
def run (s : SharedLog ι κ α) (ws : List (Write ι κ α)) : SharedLog ι κ α := ws.foldl write s

@[simp] theorem run_nil (s : SharedLog ι κ α) : s.run [] = s := rfl

@[simp] theorem run_append (s : SharedLog ι κ α) (us ws : List (Write ι κ α)) :
    s.run (us ++ ws) = (s.run us).run ws := by
  simp [run]

@[simp] theorem run_cons (s : SharedLog ι κ α) (w : Write ι κ α) (ws : List (Write ι κ α)) :
    s.run (w :: ws) = (s.write w).run ws := rfl

/-- The entries of a key that the slot should hold. -/
def total (s : SharedLog ι κ α) (ws : List (Write ι κ α)) (k : κ) : List α :=
  (logOf k s.slot).getD [] ++ (ws.filter fun w => w.key = k).map Write.entry

/-- The write leaves every entry of its key in the slot. -/
def Holds (s : SharedLog ι κ α) (us : List (Write ι κ α)) (w : Write ι κ α) : Prop :=
  (s.run (us ++ [w])).slot = some (w.key, s.total (us ++ [w]) w.key)

/-- No write loses an entry. -/
def Complete (s : SharedLog ι κ α) (ws : List (Write ι κ α)) : Prop := Guarded s.Holds ws

section

variable {s : SharedLog ι κ α} {us ws : List (Write ι κ α)} {w : Write ι κ α} {i : ι} {k : κ}

-- ============================================================================
-- Copies
-- ============================================================================

omit [DecidableEq ι] in
theorem total_snoc (s : SharedLog ι κ α) (us : List (Write ι κ α)) (w : Write ι κ α) :
    s.total (us ++ [w]) w.key = s.total us w.key ++ [w.entry] := by
  simp [total]

theorem holds_iff : s.Holds us w ↔ (s.run us).base w.client w.key = s.total us w.key := by
  simp [Holds, write, total_snoc]

/-- A client that does not write keeps its copy. -/
theorem copy_run_of_other (s : SharedLog ι κ α) (ws : List (Write ι κ α))
    (h : ∀ w ∈ ws, w.client ≠ i) : (s.run ws).copy i = s.copy i := by
  induction ws generalizing s with
  | nil => rfl
  | cons w ws ih =>
      rw [run_cons, ih (s.write w) fun v hv => h v (List.mem_cons_of_mem w hv)]
      have hw : i ≠ w.client := (h w List.mem_cons_self).symm
      simp [write, Function.update_of_ne hw]

/-- After its write a client's copy is what it wrote. -/
theorem copy_run_of_last {us₁ us₂ : List (Write ι κ α)} {u : Write ι κ α} (hu : s.Holds us₁ u)
    (hlast : ∀ v ∈ us₂, v.client ≠ u.client) :
    (s.run (us₁ ++ u :: us₂)).copy u.client = some (u.key, s.total (us₁ ++ [u]) u.key) := by
  have hsplit : us₁ ++ u :: us₂ = (us₁ ++ [u]) ++ us₂ := by simp
  rw [hsplit, run_append, copy_run_of_other _ us₂ hlast, ← hu]
  simp [write]

omit [DecidableEq κ] in
/-- The last write of a client, if it wrote at all. -/
theorem exists_last_write (us : List (Write ι κ α)) (i : ι) :
    (∀ u ∈ us, u.client ≠ i) ∨
      ∃ us₁ u us₂, us = us₁ ++ u :: us₂ ∧ u.client = i ∧ ∀ v ∈ us₂, v.client ≠ i := by
  induction us with
  | nil => exact .inl (by simp)
  | cons u us ih =>
      rcases ih with hnone | ⟨us₁, v, us₂, rfl, hv, hrest⟩
      · by_cases hu : u.client = i
        · exact .inr ⟨[], u, us, rfl, hu, hnone⟩
        · left
          intro v hv
          rcases List.mem_cons.mp hv with rfl | hv
          · exact hu
          · exact hnone v hv
      · exact .inr ⟨u :: us₁, v, us₂, rfl, hv, hrest⟩

/-- While nothing has been lost the slot holds the log of the last write. -/
theorem slot_run_of_complete (hfresh : us ≠ []) (h : s.Complete us) :
    ∃ u ∈ us, us.getLast? = some u ∧ (s.run us).slot = some (u.key, s.total us u.key) := by
  obtain ⟨us', u, rfl⟩ := (List.eq_nil_or_concat us).resolve_left hfresh
  rw [List.concat_eq_append] at *
  exact ⟨u, by simp, by simp, h us' u [] rfl⟩

omit [DecidableEq ι] in
theorem total_isPrefix (s : SharedLog ι κ α) (us vs : List (Write ι κ α)) (k : κ) :
    s.total us k <+: s.total (us ++ vs) k := by
  simp [total]

/-- While nothing has been lost a client writes from an earlier state of the
    log. -/
theorem base_isPrefix (hstart : ∀ i, s.copy i = none) (h : s.Complete us) (i : ι) (k : κ) :
    (s.run us).base i k <+: s.total us k := by
  have hslot : (logOf k (s.run us).slot).getD [] <+: s.total us k := by
    by_cases hnil : us = []
    · simp [hnil, total]
    · obtain ⟨u, -, -, hslot⟩ := slot_run_of_complete hnil h
      by_cases hkey : u.key = k
      · simp [hslot, hkey]
      · simp [hslot, logOf_of_ne hkey]
  rcases exists_last_write us i with hnone | ⟨us₁, u, us₂, rfl, hu, hrest⟩
  · have hcopy : (s.run us).copy i = none := by rw [copy_run_of_other s us hnone, hstart]
    rw [base, hcopy, logOf_none, Option.none_or]
    exact hslot
  · have hcopy := copy_run_of_last (h us₁ u us₂ rfl) (by rwa [hu])
    rw [hu] at hcopy
    by_cases hkey : u.key = k
    · rw [base, hcopy, hkey, logOf_self, Option.some_or, Option.getD_some]
      have hsplit : us₁ ++ u :: us₂ = (us₁ ++ [u]) ++ us₂ := by simp
      rw [hsplit]
      exact total_isPrefix s (us₁ ++ [u]) us₂ k
    · rw [base, hcopy, logOf_of_ne hkey, Option.none_or]
      exact hslot

/-- Whether a write loses entries shows in the length of the log. -/
theorem holds_iff_length (hstart : ∀ i, s.copy i = none) (h : s.Complete us) :
    s.Holds us w ↔ ∃ log, (s.run (us ++ [w])).slot = some (w.key, log) ∧
      log.length = (s.total (us ++ [w]) w.key).length := by
  constructor
  · exact fun hw => ⟨_, hw, rfl⟩
  · rintro ⟨log, hlog, hlen⟩
    have hbase : log = (s.run us).base w.client w.key ++ [w.entry] := by
      simpa [write] using hlog.symm
    rw [hbase, total_snoc, List.length_append, List.length_append] at hlen
    exact holds_iff.mpr ((base_isPrefix hstart h _ _).eq_of_length (by omega))

-- ============================================================================
-- Many clients, one key
-- ============================================================================

/-- The client writes for the first time, or it was the last to write. -/
def FirstOrLast (us : List (Write ι κ α)) (w : Write ι κ α) : Prop :=
  (∀ u ∈ us, u.client ≠ w.client) ∨ ∃ u, us.getLast? = some u ∧ u.client = w.client

omit [DecidableEq ι] in
theorem total_of_key (hkey : ∀ u ∈ us, u.key = k) :
    s.total us k = (logOf k s.slot).getD [] ++ us.map Write.entry := by
  rw [total, List.filter_eq_self.mpr fun u hu => by simp [hkey u hu]]

theorem stored_of_complete (hkey : ∀ u ∈ us, u.key = k) (h : s.Complete us) :
    (logOf k (s.run us).slot).getD [] = s.total us k := by
  by_cases hnil : us = []
  · simp [hnil, total]
  · obtain ⟨u, hu, -, hslot⟩ := slot_run_of_complete hnil h
    rw [hslot, hkey u hu]
    simp

theorem holds_iff_firstOrLast (hstart : ∀ i, s.copy i = none) (hkey : ∀ u ∈ us, u.key = w.key)
    (h : s.Complete us) : s.Holds us w ↔ FirstOrLast us w := by
  rw [holds_iff]
  rcases exists_last_write us w.client with hnone | ⟨us₁, u, us₂, rfl, hu, hrest⟩
  · -- without a copy the client reads the slot
    have hcopy : (s.run us).copy w.client = none := by
      rw [copy_run_of_other s us hnone, hstart]
    have hbase : (s.run us).base w.client w.key = s.total us w.key := by
      rw [base, hcopy, logOf_none, Option.none_or, stored_of_complete hkey h]
    exact iff_of_true hbase (.inl hnone)
  · have hukey : u.key = w.key := hkey u (by simp)
    have hcopy := copy_run_of_last (h us₁ u us₂ rfl) (by rwa [hu])
    rw [hu, hukey] at hcopy
    have hbase : (s.run (us₁ ++ u :: us₂)).base w.client w.key = s.total (us₁ ++ [u]) w.key := by
      rw [base, hcopy, logOf_self, Option.some_or, Option.getD_some]
    rw [hbase]
    rcases List.eq_nil_or_concat us₂ with rfl | ⟨us₃, v, rfl⟩
    · exact iff_of_true rfl (.inr ⟨u, by simp, hu⟩)
    · -- somebody else has written since, and the copy is too short
      rw [List.concat_eq_append] at *
      have hv : v.client ≠ w.client := hrest v (by simp)
      refine iff_of_false ?_ ?_
      · intro heq
        have hsub : ∀ x ∈ us₁ ++ [u], x.key = w.key := fun x hx =>
          hkey x (by rcases List.mem_append.mp hx with hx | hx <;> simp_all)
        rw [total_of_key hsub, total_of_key hkey] at heq
        have hlen := congrArg List.length heq
        simp at hlen
      · rintro (hnone | ⟨x, hx, hxc⟩)
        · exact hnone u (by simp) hu
        · have hxv : x = v := by
            have hsplit : us₁ ++ u :: (us₃ ++ [v]) = (us₁ ++ u :: us₃) ++ [v] := by simp
            rw [hsplit, List.getLast?_concat] at hx
            exact (Option.some.inj hx).symm
          exact hv (hxv ▸ hxc)

/-- Under one key nothing is lost exactly if a client that writes again was the
    last to write. -/
theorem complete_iff_of_key (hstart : ∀ i, s.copy i = none) (hkey : ∀ w ∈ ws, w.key = k) :
    s.Complete ws ↔ Guarded FirstOrLast ws := by
  apply Guarded.congr
  rintro us w vs rfl hus
  have hw : w.key = k := hkey w (by simp)
  apply holds_iff_firstOrLast hstart _ hus
  intro u hu
  rw [hw]
  exact hkey u (by simp [hu])

-- ============================================================================
-- One client, many keys
-- ============================================================================

/-- The key was written last, or there is nothing of it to lose. -/
def LastOrNew (s : SharedLog ι κ α) (us : List (Write ι κ α)) (w : Write ι κ α) : Prop :=
  us = [] ∨ (∃ u, us.getLast? = some u ∧ u.key = w.key) ∨ s.total us w.key = []

theorem holds_iff_lastOrNew (hstart : ∀ i, s.copy i = none)
    (hclient : ∀ u ∈ us, u.client = w.client) (h : s.Complete us) :
    s.Holds us w ↔ s.LastOrNew us w := by
  rw [holds_iff]
  rcases List.eq_nil_or_concat us with rfl | ⟨us', u, rfl⟩
  · refine iff_of_true ?_ (.inl rfl)
    simp [base, total, hstart]
  · rw [List.concat_eq_append] at *
    -- the client's copy is what the slot holds
    have hcopy : (s.run (us' ++ [u])).copy u.client = some (u.key, s.total (us' ++ [u]) u.key) :=
      copy_run_of_last (h us' u [] rfl) (by simp)
    rw [hclient u (by simp)] at hcopy
    have hslot := h us' u [] rfl
    by_cases hkey : u.key = w.key
    · refine iff_of_true ?_ (.inr (.inl ⟨u, by simp, hkey⟩))
      rw [base, hcopy, hkey, logOf_self, Option.some_or, Option.getD_some]
    · have hbase : (s.run (us' ++ [u])).base w.client w.key = [] := by
        rw [base, hcopy, hslot, logOf_of_ne hkey]
        rfl
      rw [hbase]
      constructor
      · exact fun hnew => .inr (.inr hnew.symm)
      · rintro (hnil | ⟨x, hx, hxk⟩ | hnew)
        · simp at hnil
        · rw [List.getLast?_concat] at hx
          obtain rfl := Option.some.inj hx
          exact absurd hxk hkey
        · exact hnew.symm

/-- For one client nothing is lost exactly if it never returns to a key. -/
theorem complete_iff_of_client (hstart : ∀ i, s.copy i = none) (hclient : ∀ w ∈ ws, w.client = i) :
    s.Complete ws ↔ Guarded s.LastOrNew ws := by
  apply Guarded.congr
  rintro us w vs rfl hus
  have hw : w.client = i := hclient w (by simp)
  apply holds_iff_lastOrNew hstart _ hus
  intro u hu
  rw [hw]
  exact hclient u (by simp [hu])

end

end SharedLog

end Lib
end KineticSdk
