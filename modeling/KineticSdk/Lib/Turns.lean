/-
  KineticSdk.Lib.Turns

  Requests and their answers in a log of messages.

  A log is cut into *turns*: a turn opens at a message that may pose requests
  and collects every answer up to the next opening message.  A log is well
  paired when nothing is answered before the first turn and the answers of
  every turn are a rearrangement of its requests.

  The two facts a client needs: well-paired logs are closed under append, and
  a suffix of a well-paired log is well paired again as soon as every answer
  in it is to a request in it.
-/

import Mathlib.Data.List.Nodup
import Mathlib.Data.List.Perm.Basic

namespace KineticSdk
namespace Lib

variable {α ι : Type _}

/-- What a log reads off a message: whether it opens a turn, the requests it
    poses and the requests it answers. -/
structure TurnView (α ι : Type _) where
  opens : α → Bool
  requests : α → List ι
  answers : α → List ι

/-- The requests of one turn and the answers that follow it. -/
structure Turn (ι : Type _) where
  requests : List ι
  answers : List ι

namespace TurnView

variable (v : TurnView α ι)

/-- Only an opening message poses requests and only the others answer. -/
def Clean (m : α) : Prop :=
  if v.opens m then v.answers m = [] else v.requests m = []

/-- The answers before the first turn, and the turns. -/
def scan : List α → List ι × List (Turn ι)
  | [] => ([], [])
  | m :: ms =>
      if v.opens m then ([], ⟨v.requests m, (scan ms).1⟩ :: (scan ms).2)
      else (v.answers m ++ (scan ms).1, (scan ms).2)

/-- The answers before the first turn. -/
def lead (h : List α) : List ι := (v.scan h).1

/-- The turns of a log, in order. -/
def turns (h : List α) : List (Turn ι) := (v.scan h).2

/-- Every request has exactly one answer, after it and before the next turn,
    and nothing else is answered. -/
structure WellPaired (h : List α) : Prop where
  clean : ∀ m ∈ h, v.Clean m
  lead_nil : v.lead h = []
  answered : ∀ t ∈ v.turns h, t.answers.Perm t.requests

/-- Two messages a log cannot tell apart. -/
def Same (m m' : α) : Prop :=
  v.opens m' = v.opens m ∧ v.requests m' = v.requests m ∧ v.answers m' = v.answers m

-- ============================================================================
-- Reading a log message by message
-- ============================================================================

variable {v}

@[simp] theorem lead_nil : v.lead [] = [] := rfl

@[simp] theorem turns_nil : v.turns [] = [] := rfl

theorem lead_cons_of_opens {m : α} {ms : List α} (hm : v.opens m = true) :
    v.lead (m :: ms) = [] := by
  simp [lead, scan, hm]

theorem turns_cons_of_opens {m : α} {ms : List α} (hm : v.opens m = true) :
    v.turns (m :: ms) = ⟨v.requests m, v.lead ms⟩ :: v.turns ms := by
  simp [turns, lead, scan, hm]

theorem lead_cons_of_not_opens {m : α} {ms : List α} (hm : v.opens m = false) :
    v.lead (m :: ms) = v.answers m ++ v.lead ms := by
  simp [lead, scan, hm]

theorem turns_cons_of_not_opens {m : α} {ms : List α} (hm : v.opens m = false) :
    v.turns (m :: ms) = v.turns ms := by
  simp [turns, scan, hm]

/-- Messages that open no turn only add to the lead. -/
theorem scan_of_no_opens {ms : List α} (h : ∀ m ∈ ms, v.opens m = false) :
    v.lead ms = ms.flatMap v.answers ∧ v.turns ms = [] := by
  induction ms with
  | nil => simp
  | cons m ms ih =>
      have hm : v.opens m = false := h m (List.mem_cons_self ..)
      obtain ⟨hl, ht⟩ := ih fun x hx => h x (List.mem_cons_of_mem _ hx)
      rw [lead_cons_of_not_opens hm, turns_cons_of_not_opens hm, hl, ht]
      simp

theorem opens_of_turns_nil {ms : List α} (h : v.turns ms = []) : ∀ m ∈ ms, v.opens m = false := by
  induction ms with
  | nil => simp
  | cons m ms ih =>
      cases hm : v.opens m with
      | true =>
          rw [turns_cons_of_opens hm] at h
          cases h
      | false =>
          rw [turns_cons_of_not_opens hm] at h
          intro x hx
          rcases List.mem_cons.mp hx with rfl | hx
          · exact hm
          · exact ih h x hx

/-- What follows the first turn does not answer anything in front of it. -/
theorem lead_append_of_turns {a b : List α} (h : v.turns a ≠ []) :
    v.lead (a ++ b) = v.lead a := by
  induction a with
  | nil => exact absurd rfl h
  | cons m a ih =>
      cases hm : v.opens m with
      | true => rw [List.cons_append, lead_cons_of_opens hm, lead_cons_of_opens hm]
      | false =>
          rw [turns_cons_of_not_opens hm] at h
          rw [List.cons_append, lead_cons_of_not_opens hm, lead_cons_of_not_opens hm, ih h]

theorem lead_append_of_no_opens {a b : List α} (h : ∀ m ∈ a, v.opens m = false) :
    v.lead (a ++ b) = a.flatMap v.answers ++ v.lead b := by
  induction a with
  | nil => simp
  | cons m a ih =>
      have hm : v.opens m = false := h m (List.mem_cons_self ..)
      rw [List.cons_append, lead_cons_of_not_opens hm,
        ih fun x hx => h x (List.mem_cons_of_mem _ hx)]
      simp

theorem Clean.requests_nil {m : α} (hc : v.Clean m) (hm : v.opens m = false) :
    v.requests m = [] := by
  unfold Clean at hc
  rwa [if_neg (by simp [hm])] at hc

theorem Clean.answers_nil {m : α} (hc : v.Clean m) (hm : v.opens m = true) :
    v.answers m = [] := by
  unfold Clean at hc
  rwa [if_pos hm] at hc

theorem Same.clean {m m' : α} (h : v.Same m m') (hm : v.Clean m) : v.Clean m' := by
  obtain ⟨h1, h2, h3⟩ := h
  unfold Clean at hm ⊢
  rw [h1, h2, h3]
  exact hm

/-- Rewriting messages in place leaves lead and turns as they are. -/
theorem scan_congr {h h' : List α} (hs : List.Forall₂ v.Same h h') : v.scan h' = v.scan h := by
  induction hs with
  | nil => rfl
  | cons hm _ ih =>
      obtain ⟨h1, h2, h3⟩ := hm
      simp only [scan, h1, h2, h3, ih]

theorem Same.refl (m : α) : v.Same m m := ⟨rfl, rfl, rfl⟩

theorem Same.trans {m m' m'' : α} (h : v.Same m m') (h' : v.Same m' m'') : v.Same m m'' :=
  ⟨h'.1.trans h.1, h'.2.1.trans h.2.1, h'.2.2.trans h.2.2⟩

theorem same_refl (h : List α) : List.Forall₂ v.Same h h :=
  List.forall₂_same.mpr fun m _ => Same.refl m

theorem same_trans {a b c : List α} (hab : List.Forall₂ v.Same a b)
    (hbc : List.Forall₂ v.Same b c) : List.Forall₂ v.Same a c := by
  induction hab generalizing c with
  | nil => exact hbc
  | cons hm _ ih =>
      obtain ⟨x, cs, hx, hcs, rfl⟩ := List.forall₂_cons_left_iff.mp hbc
      exact List.Forall₂.cons (hm.trans hx) (ih hcs)

theorem same_map {f : α → α} (hf : ∀ m, v.Same m (f m)) (h : List α) :
    List.Forall₂ v.Same h (h.map f) := by
  induction h with
  | nil => exact List.Forall₂.nil
  | cons m h ih => exact List.Forall₂.cons (hf m) ih

theorem same_set {f : α → α} (hf : ∀ m, v.Same m (f m)) (h : List α) (i : Nat) (d : α) :
    List.Forall₂ v.Same h (h.set i (f (h.getD i d))) := by
  induction h generalizing i with
  | nil => exact List.Forall₂.nil
  | cons m h ih =>
      cases i with
      | zero => exact List.Forall₂.cons (hf m) (same_refl h)
      | succ i => exact List.Forall₂.cons (Same.refl m) (ih i)

/-- Rewriting in place leaves the requests as they are. -/
theorem requests_congr {h h' : List α} (hs : List.Forall₂ v.Same h h') :
    h'.flatMap v.requests = h.flatMap v.requests := by
  induction hs with
  | nil => rfl
  | cons hm _ ih => rw [List.flatMap_cons, List.flatMap_cons, hm.2.1, ih]

theorem WellPaired.congr {h h' : List α} (hw : v.WellPaired h)
    (hs : List.Forall₂ v.Same h h') : v.WellPaired h' := by
  have hscan := scan_congr hs
  refine ⟨?_, ?_, ?_⟩
  · intro m' hm'
    obtain ⟨i, hi, rfl⟩ := List.getElem_of_mem hm'
    have hi' : i < h.length := by rw [hs.length_eq]; exact hi
    exact ((List.forall₂_iff_get.mp hs).2 i hi' hi).clean (hw.clean _ (List.getElem_mem hi'))
  · rw [lead, hscan]
    exact hw.lead_nil
  · rw [turns, hscan]
    exact hw.answered

-- ============================================================================
-- Append
-- ============================================================================

/-- Appending a log with an empty lead appends its turns. -/
theorem scan_append {a b : List α} (hb : v.lead b = []) :
    v.lead (a ++ b) = v.lead a ∧ v.turns (a ++ b) = v.turns a ++ v.turns b := by
  induction a with
  | nil => simpa using hb
  | cons m a ih =>
      obtain ⟨hl, ht⟩ := ih
      cases hm : v.opens m with
      | true =>
          rw [List.cons_append, lead_cons_of_opens hm, turns_cons_of_opens hm,
            lead_cons_of_opens hm, turns_cons_of_opens hm, hl, ht]
          simp
      | false =>
          rw [List.cons_append, lead_cons_of_not_opens hm, turns_cons_of_not_opens hm,
            lead_cons_of_not_opens hm, turns_cons_of_not_opens hm, hl, ht]
          simp

theorem WellPaired.nil : v.WellPaired [] :=
  ⟨by simp, rfl, by simp⟩

theorem WellPaired.append {a b : List α} (ha : v.WellPaired a) (hb : v.WellPaired b) :
    v.WellPaired (a ++ b) := by
  obtain ⟨hl, ht⟩ := scan_append (a := a) hb.lead_nil
  refine ⟨?_, hl.trans ha.lead_nil, ?_⟩
  · intro m hm
    rcases List.mem_append.mp hm with hm | hm
    · exact ha.clean m hm
    · exact hb.clean m hm
  · intro t htm
    rw [ht] at htm
    rcases List.mem_append.mp htm with htm | htm
    · exact ha.answered t htm
    · exact hb.answered t htm

/-- One message that neither requests nor answers. -/
theorem WellPaired.single {m : α} (hr : v.requests m = []) (ha : v.answers m = []) :
    v.WellPaired [m] := by
  refine ⟨?_, ?_, ?_⟩
  · intro x hx
    obtain rfl : x = m := by simpa using hx
    unfold Clean
    split
    · exact ha
    · exact hr
  · cases hm : v.opens m with
    | true => exact lead_cons_of_opens hm
    | false => rw [lead_cons_of_not_opens hm, ha]; rfl
  · intro t ht
    cases hm : v.opens m with
    | true =>
        rw [turns_cons_of_opens hm] at ht
        obtain rfl : t = ⟨v.requests m, []⟩ := by simpa using ht
        rw [hr]
    | false =>
        rw [turns_cons_of_not_opens hm] at ht
        simp at ht

theorem turns_single {m : α} (hr : v.requests m = []) (t : Turn ι) (ht : t ∈ v.turns [m]) :
    t.answers = t.requests := by
  cases hm : v.opens m with
  | true =>
      rw [turns_cons_of_opens hm] at ht
      obtain rfl : t = ⟨v.requests m, []⟩ := by simpa using ht
      exact hr.symm
  | false =>
      rw [turns_cons_of_not_opens hm] at ht
      simp at ht

/-- An opening message with all its answers behind it, in order, is one
    complete turn. -/
theorem WellPaired.turn {m : α} {ms : List α} (hm : v.opens m = true) (ha : v.answers m = [])
    (hms : ∀ x ∈ ms, v.opens x = false ∧ v.requests x = [])
    (hall : ms.flatMap v.answers = v.requests m) :
    v.WellPaired (m :: ms) ∧ v.turns (m :: ms) = [⟨v.requests m, v.requests m⟩] := by
  obtain ⟨hl, ht⟩ := scan_of_no_opens (v := v) fun x hx => (hms x hx).1
  have hturns : v.turns (m :: ms) = [⟨v.requests m, v.requests m⟩] := by
    rw [turns_cons_of_opens hm, hl, ht, hall]
  refine ⟨⟨?_, lead_cons_of_opens hm, ?_⟩, hturns⟩
  · intro x hx
    rcases List.mem_cons.mp hx with rfl | hx
    · unfold Clean
      rw [if_pos hm]
      exact ha
    · unfold Clean
      rw [if_neg (by simp [(hms x hx).1])]
      exact (hms x hx).2
  · intro t htm
    rw [hturns] at htm
    obtain rfl : t = ⟨v.requests m, v.requests m⟩ := by simpa using htm
    exact List.Perm.refl _

-- ============================================================================
-- Suffixes
-- ============================================================================

theorem turns_subset_append (a b : List α) : ∀ t ∈ v.turns b, t ∈ v.turns (a ++ b) := by
  intro t ht
  induction a with
  | nil => exact ht
  | cons m a ih =>
      cases hm : v.opens m with
      | true =>
          rw [List.cons_append, turns_cons_of_opens hm]
          exact List.mem_cons_of_mem _ ih
      | false =>
          rw [List.cons_append, turns_cons_of_not_opens hm]
          exact ih

/-- An answer in the lead of a suffix answers nothing in the whole log's
    turns but requests posed before the suffix. -/
theorem mem_lead_suffix (a b : List α) {i : ι} (hi : i ∈ v.lead b) :
    i ∈ v.lead (a ++ b) ∨
      ∃ t ∈ v.turns (a ++ b), i ∈ t.answers ∧ ∀ r ∈ t.requests, r ∈ a.flatMap v.requests := by
  induction a with
  | nil => exact Or.inl hi
  | cons m a ih =>
      cases hm : v.opens m with
      | true =>
          right
          rw [List.cons_append, turns_cons_of_opens hm]
          rcases ih with h | ⟨t, ht, hit, hr⟩
          · refine ⟨_, List.mem_cons_self .., h, ?_⟩
            intro r hrm
            simp only [List.flatMap_cons, List.mem_append]
            exact Or.inl hrm
          · refine ⟨t, List.mem_cons_of_mem _ ht, hit, ?_⟩
            intro r hrm
            simp only [List.flatMap_cons, List.mem_append]
            exact Or.inr (hr r hrm)
      | false =>
          rw [List.cons_append, turns_cons_of_not_opens hm, lead_cons_of_not_opens hm]
          rcases ih with h | ⟨t, ht, hit, hr⟩
          · exact Or.inl (List.mem_append_right _ h)
          · refine Or.inr ⟨t, ht, hit, ?_⟩
            intro r hrm
            simp only [List.flatMap_cons, List.mem_append]
            exact Or.inr (hr r hrm)

theorem lead_subset_answers (h : List α) : ∀ i ∈ v.lead h, i ∈ h.flatMap v.answers := by
  intro i hi
  induction h with
  | nil => simp at hi
  | cons m h ih =>
      cases hm : v.opens m with
      | true =>
          rw [lead_cons_of_opens hm] at hi
          simp at hi
      | false =>
          rw [lead_cons_of_not_opens hm] at hi
          simp only [List.flatMap_cons, List.mem_append]
          rcases List.mem_append.mp hi with hi | hi
          · exact Or.inl hi
          · exact Or.inr (ih hi)

/-- A suffix whose answers are all to its own requests is well paired. -/
theorem WellPaired.suffix {a b : List α} (hw : v.WellPaired (a ++ b))
    (hnd : ((a ++ b).flatMap v.requests).Nodup)
    (hown : ∀ i ∈ b.flatMap v.answers, i ∈ b.flatMap v.requests) : v.WellPaired b := by
  refine ⟨?_, ?_, ?_⟩
  · intro m hm
    exact hw.clean m (List.mem_append_right _ hm)
  · -- an answer leading `b` would be to a request posed both in `a` and in `b`
    apply List.eq_nil_iff_forall_not_mem.mpr
    intro i hi
    rcases mem_lead_suffix a b hi with h | ⟨t, ht, hit, hr⟩
    · rw [hw.lead_nil] at h
      simp at h
    · have hia : i ∈ a.flatMap v.requests := hr i ((hw.answered t ht).mem_iff.mp hit)
      have hib : i ∈ b.flatMap v.requests := hown i (lead_subset_answers b i hi)
      rw [List.flatMap_append] at hnd
      exact (List.disjoint_of_nodup_append hnd) hia hib
  · intro t ht
    exact hw.answered t (turns_subset_append a b t ht)

-- ============================================================================
-- Orphaned answers in a window of a well-paired log
-- ============================================================================

variable (v) in
/-- Every answer is preceded by its request. -/
def NoOrphans (h : List α) : Prop :=
  ∀ pre m post, h = pre ++ m :: post → ∀ i ∈ v.answers m, i ∈ pre.flatMap v.requests

theorem lead_prefix_append (a b : List α) : v.lead a <+: v.lead (a ++ b) := by
  induction a with
  | nil => exact List.nil_prefix
  | cons m a ih =>
      cases hm : v.opens m with
      | true =>
          rw [lead_cons_of_opens hm]
          exact List.nil_prefix
      | false =>
          rw [List.cons_append, lead_cons_of_not_opens hm, lead_cons_of_not_opens hm]
          exact (List.prefix_append_right_inj _).mpr ih

/-- Cutting a log off only shortens the answers of its last turn. -/
theorem turns_of_cut (a b : List α) : ∀ t ∈ v.turns a,
    ∃ t' ∈ v.turns (a ++ b), t.requests = t'.requests ∧ t.answers <+: t'.answers := by
  intro t ht
  induction a with
  | nil => simp at ht
  | cons m a ih =>
      cases hm : v.opens m with
      | true =>
          rw [turns_cons_of_opens hm] at ht
          rw [List.cons_append, turns_cons_of_opens hm]
          rcases List.mem_cons.mp ht with rfl | ht
          · exact ⟨_, List.mem_cons_self .., rfl, lead_prefix_append a b⟩
          · obtain ⟨t', ht', h⟩ := ih ht
            exact ⟨t', List.mem_cons_of_mem _ ht', h⟩
      | false =>
          rw [turns_cons_of_not_opens hm] at ht
          rw [List.cons_append, turns_cons_of_not_opens hm]
          exact ih ht

/-- An answer met while reading is in the lead or in the answers of a turn
    opened before it. -/
theorem mem_answers_cases (pre : List α) (m : α) (post : List α)
    (hclean : ∀ x ∈ pre ++ m :: post, v.Clean x) {i : ι} (hi : i ∈ v.answers m) :
    i ∈ v.lead (pre ++ m :: post) ∨ ∃ t ∈ v.turns (pre ++ m :: post),
      i ∈ t.answers ∧ ∀ r ∈ t.requests, r ∈ pre.flatMap v.requests := by
  have hlead : i ∈ v.lead (m :: post) := by
    cases hm : v.opens m with
    | true =>
        rw [(hclean m (by simp)).answers_nil hm] at hi
        simp at hi
    | false =>
        rw [lead_cons_of_not_opens hm]
        exact List.mem_append_left _ hi
  exact mem_lead_suffix pre (m :: post) hlead

/-- The first answer of a nonempty lead: no turn opens and no request is posed
    in front of it. -/
theorem exists_orphan_of_lead {h : List α} (hclean : ∀ m ∈ h, v.Clean m) (hl : v.lead h ≠ []) :
    ∃ pre m post, h = pre ++ m :: post ∧ v.opens m = false ∧ v.answers m ≠ [] ∧
      ∀ x ∈ pre, v.opens x = false ∧ v.requests x = [] := by
  induction h with
  | nil => exact absurd rfl hl
  | cons m h ih =>
      cases hm : v.opens m with
      | true => exact absurd (lead_cons_of_opens hm) hl
      | false =>
          by_cases ha : v.answers m = []
          · rw [lead_cons_of_not_opens hm, ha, List.nil_append] at hl
            obtain ⟨pre, x, post, hh, hxo, hx, hp⟩ :=
              ih (fun x hx => hclean x (List.mem_cons_of_mem _ hx)) hl
            refine ⟨m :: pre, x, post, by rw [hh]; rfl, hxo, hx, ?_⟩
            intro y hy
            rcases List.mem_cons.mp hy with rfl | hy
            · exact ⟨hm, (hclean y (List.mem_cons_self ..)).requests_nil hm⟩
            · exact hp y hy
          · exact ⟨[], m, h, rfl, hm, ha, by simp⟩

/-- In a window of a well-paired log an answer is orphaned exactly when the
    window starts inside a turn that still has answers to come. -/
theorem WellPaired.noOrphans_window_iff {a w c : List α} (hw : v.WellPaired (a ++ (w ++ c))) :
    v.NoOrphans w ↔ v.lead w = [] := by
  have hclean : ∀ m ∈ w, v.Clean m := by
    intro m hm
    exact hw.clean m (by simp [hm])
  constructor
  · intro hno
    by_contra hl
    obtain ⟨pre, m, post, hh, -, hm, hp⟩ := exists_orphan_of_lead hclean hl
    obtain ⟨i, hi⟩ := List.exists_mem_of_ne_nil _ hm
    obtain ⟨x, hx, hxi⟩ := List.mem_flatMap.mp (hno pre m post hh i hi)
    rw [(hp x hx).2] at hxi
    simp at hxi
  · intro hl pre m post hh i hi
    subst hh
    rcases mem_answers_cases pre m post hclean hi with h | ⟨t, ht, hit, hr⟩
    · rw [hl] at h
      simp at h
    · obtain ⟨t', ht', hreq, hans⟩ := turns_of_cut _ c t ht
      have hperm := hw.answered t' (turns_subset_append a _ t' ht')
      have : i ∈ t'.requests := hperm.mem_iff.mp (hans.subset hit)
      rw [← hreq] at this
      exact hr i this

/-- A window of the newest `keep` messages that has moved past a turn with
    requests starts inside that turn after some message. -/
theorem WellPaired.exists_lead_window {a ms : List α} {m : α} {keep : Nat} (hkeep : 1 ≤ keep)
    (hm : v.opens m = true) (hreq : v.requests m ≠ []) (hw : v.WellPaired (a ++ m :: ms))
    (hlong : keep < (m :: ms).length) :
    ∃ k ≤ (a ++ m :: ms).length, v.lead (((a ++ m :: ms).take k).drop (k - keep)) ≠ [] := by
  have hlead : v.lead ms ≠ [] := by
    have hturn : (⟨v.requests m, v.lead ms⟩ : Turn ι) ∈ v.turns (a ++ m :: ms) := by
      apply turns_subset_append
      rw [turns_cons_of_opens hm]
      exact List.mem_cons_self ..
    intro hnil
    have hperm := hw.answered _ hturn
    rw [hnil] at hperm
    exact hreq hperm.symm.eq_nil
  have hclean : ∀ x ∈ ms, v.Clean x := fun x hx => hw.clean x (by simp [hx])
  obtain ⟨p, x, q, rfl, hxo, hx, hno⟩ := exists_orphan_of_lead hclean hlead
  -- the first append after which the window has left `m` behind and reached `x`
  obtain ⟨k, hk⟩ : ∃ k, k = max (a.length + 1 + keep) (a.length + p.length + 2) := ⟨_, rfl⟩
  have hwindow : ((a ++ m :: (p ++ x :: q)).take k).drop (k - keep)
      = p.drop (k - keep - (a.length + 1)) ++ x :: q.take (k - (a.length + p.length + 2)) := by
    have hsplit : a ++ m :: (p ++ x :: q) = (a ++ [m]) ++ ((p ++ [x]) ++ q) := by simp
    have hle : (p ++ [x]).length ≤ k - (a ++ [m]).length := by
      simp only [List.length_append, List.length_singleton]
      omega
    rw [hsplit, List.take_append, List.take_of_length_le (by simp; omega), List.take_append,
      List.take_of_length_le hle, List.drop_append, List.drop_of_length_le (by simp; omega),
      List.nil_append, List.append_assoc, List.drop_append_of_le_length (by simp; omega)]
    simp only [List.length_append, List.length_singleton, List.cons_append, List.nil_append]
    congr 3
    omega
  refine ⟨k, ?_, ?_⟩
  · simp only [List.length_append, List.length_cons] at hlong ⊢
    omega
  · rw [hwindow, lead_append_of_no_opens fun y hy => (hno y (List.mem_of_mem_drop hy)).1,
      lead_cons_of_not_opens hxo]
    simp [hx]

/-- A window that has not moved past any turn with requests starts outside
    every turn. -/
theorem WellPaired.lead_window_nil {h : List α} {keep k : Nat} (hw : v.WellPaired h)
    (hk : k ≤ h.length)
    (hfit : ∀ a m ms, h = a ++ m :: ms → v.requests m ≠ [] → (m :: ms).length ≤ keep) :
    v.lead ((h.take k).drop (k - keep)) = [] := by
  by_contra hne
  obtain ⟨i, hi⟩ := List.exists_mem_of_ne_nil _ hne
  have hpre : (h.take k).drop (k - keep) ++ h.drop k = h.drop (k - keep) := by
    conv_rhs => rw [← List.take_append_drop k h]
    rw [List.drop_append_of_le_length (by simp; omega)]
  have hi' : i ∈ v.lead (h.drop (k - keep)) := by
    rw [← hpre]
    exact (lead_prefix_append _ _).subset hi
  have hall := mem_lead_suffix (v := v) (h.take (k - keep)) (h.drop (k - keep)) hi'
  rw [List.take_append_drop] at hall
  rcases hall with hl | ⟨t, ht, hit, hr⟩
  · rw [hw.lead_nil] at hl
    simp at hl
  · -- the answered turn opens before the window, so the window has moved past it
    obtain ⟨m, hm, him⟩ := List.mem_flatMap.mp (hr i ((hw.answered t ht).mem_iff.mp hit))
    obtain ⟨a, b, hab⟩ := List.append_of_mem hm
    have hh : h = a ++ m :: (b ++ h.drop (k - keep)) := by
      conv_lhs => rw [← List.take_append_drop (k - keep) h, hab]
      simp
    have hlen := hfit a m _ hh (List.ne_nil_of_mem him)
    have hk' : (h.take (k - keep)).length = k - keep := by
      rw [List.length_take]
      omega
    rw [hab] at hk'
    simp only [List.length_append, List.length_cons, List.length_drop] at hlen hk'
    omega

/-- What follows a log with a turn in it adds its lead to the last turn. -/
theorem turns_append_last {a b : List α} (h : v.turns a ≠ []) :
    ∃ ts t, v.turns a = ts ++ [t] ∧
      v.turns (a ++ b) = ts ++ ⟨t.requests, t.answers ++ v.lead b⟩ :: v.turns b := by
  induction a with
  | nil => exact absurd rfl h
  | cons m a ih =>
      cases hm : v.opens m with
      | false =>
          rw [turns_cons_of_not_opens hm] at h
          obtain ⟨ts, t, hts, happend⟩ := ih h
          refine ⟨ts, t, ?_, ?_⟩
          · rw [turns_cons_of_not_opens hm, hts]
          · rw [List.cons_append, turns_cons_of_not_opens hm, happend]
      | true =>
          by_cases hnil : v.turns a = []
          · have hno := opens_of_turns_nil hnil
            refine ⟨[], ⟨v.requests m, v.lead a⟩, ?_, ?_⟩
            · rw [turns_cons_of_opens hm, hnil, List.nil_append]
            · have hturns : v.turns (a ++ b) = v.turns b := by
                clear ih hnil h
                induction a with
                | nil => rfl
                | cons x a ih =>
                    rw [List.cons_append, turns_cons_of_not_opens (hno x (List.mem_cons_self ..)),
                      ih fun y hy => hno y (List.mem_cons_of_mem _ hy)]
              rw [List.cons_append, turns_cons_of_opens hm, hturns, lead_append_of_no_opens hno,
                (scan_of_no_opens hno).1, List.nil_append]
          · obtain ⟨ts, t, hts, happend⟩ := ih hnil
            refine ⟨⟨v.requests m, v.lead a⟩ :: ts, t, ?_, ?_⟩
            · rw [turns_cons_of_opens hm, hts, List.cons_append]
            · rw [List.cons_append, turns_cons_of_opens hm, happend, lead_append_of_turns hnil,
                List.cons_append]

/-- The front of a well-paired log is well paired exactly when no answer to it lies
    behind the cut. -/
theorem WellPaired.front_iff {a b : List α} (hw : v.WellPaired (a ++ b)) :
    v.WellPaired a ↔ v.lead b = [] := by
  have hclean : ∀ m ∈ a, v.Clean m := fun m hm => hw.clean m (List.mem_append_left b hm)
  constructor
  · intro ha
    by_cases hturns : v.turns a = []
    · have hlead := hw.lead_nil
      rw [lead_append_of_no_opens (opens_of_turns_nil hturns)] at hlead
      exact (List.append_eq_nil_iff.mp hlead).2
    · -- the last turn is complete before the cut, and complete with what follows
      obtain ⟨ts, t, hts, happend⟩ := turns_append_last (b := b) hturns
      have hbefore := (ha.answered t (by rw [hts]; simp)).length_eq
      have hafter : (t.answers ++ v.lead b).length = t.requests.length :=
        (hw.answered ⟨t.requests, t.answers ++ v.lead b⟩ (by rw [happend]; simp)).length_eq
      rw [List.length_append] at hafter
      exact List.length_eq_zero_iff.mp (by omega)
  · intro hb
    obtain ⟨hlead, hturns⟩ := scan_append (a := a) hb
    refine ⟨hclean, hlead.symm.trans hw.lead_nil, fun t ht => hw.answered t ?_⟩
    rw [hturns]
    exact List.mem_append_left _ ht

-- ============================================================================
-- A turn that waits
-- ============================================================================

/-- Every turn has its answers, each request exactly one. -/
def Answered (h : List α) : Prop := ∀ t ∈ v.turns h, t.answers.Perm t.requests

/-- The last turn still waits for answers to `ids`; the turns before it have
    theirs. -/
structure Awaiting (h : List α) (ids : List ι) : Prop where
  last : ∃ ts t, v.turns h = ts ++ [t] ∧ (∀ t' ∈ ts, t'.answers.Perm t'.requests) ∧
    t.requests.Perm (t.answers ++ ids)

theorem Answered.suffix {a b : List α} (h : v.Answered (a ++ b)) : v.Answered b :=
  fun t ht => h t (turns_subset_append a b t ht)

/-- Answers go to the last turn. -/
theorem turns_append_answers {h ms : List α} {ts : List (Turn ι)} {t : Turn ι}
    (hms : ∀ m ∈ ms, v.opens m = false) (hts : v.turns h = ts ++ [t]) :
    v.turns (h ++ ms) = ts ++ [⟨t.requests, t.answers ++ ms.flatMap v.answers⟩] := by
  induction h generalizing ts with
  | nil =>
      have hnil : ([] : List (Turn ι)) = ts ++ [t] := hts
      simp at hnil
  | cons m h ih =>
      cases hm : v.opens m with
      | false =>
          rw [turns_cons_of_not_opens hm] at hts
          rw [List.cons_append, turns_cons_of_not_opens hm, ih hts]
      | true =>
          rw [turns_cons_of_opens hm] at hts
          rw [List.cons_append, turns_cons_of_opens hm]
          cases ts with
          | cons t' ts =>
              -- the message opened an earlier turn
              obtain ⟨rfl, hrest⟩ := List.cons.inj hts
              have hlead : v.lead (h ++ ms) = v.lead h := lead_append_of_turns (by simp [hrest])
              rw [ih hrest, hlead]
              rfl
          | nil =>
              obtain ⟨rfl, hnone⟩ := List.cons.inj hts
              have hno : ∀ x ∈ h, v.opens x = false := opens_of_turns_nil hnone
              have hall : ∀ x ∈ h ++ ms, v.opens x = false := by
                intro x hx
                rcases List.mem_append.mp hx with hx | hx
                · exact hno x hx
                · exact hms x hx
              obtain ⟨hlead, hturns⟩ := scan_of_no_opens hall
              rw [hlead, hturns, (scan_of_no_opens hno).1, List.flatMap_append]
              rfl

/-- A waiting log is answered by exactly the answers it waits for. -/
theorem Awaiting.answered_append_iff {h ms : List α} {ids : List ι} (hw : v.Awaiting h ids)
    (hms : ∀ m ∈ ms, v.opens m = false) :
    v.Answered (h ++ ms) ↔ (ms.flatMap v.answers).Perm ids := by
  obtain ⟨ts, t, hts, hold, hlast⟩ := hw.last
  have hturns := turns_append_answers hms hts
  unfold Answered
  rw [hturns]
  constructor
  · intro hall
    have ht : (t.answers ++ ms.flatMap v.answers).Perm t.requests :=
      hall _ (List.mem_append_right _ (List.mem_singleton_self _))
    exact (List.perm_append_left_iff t.answers).mp (ht.trans hlast)
  · intro hperm t' ht'
    rcases List.mem_append.mp ht' with ht' | ht'
    · exact hold t' ht'
    · obtain rfl := List.mem_singleton.mp ht'
      exact (hperm.append_left t.answers).trans hlast.symm

instance [DecidableEq ι] (m : α) : Decidable (v.Clean m) :=
  inferInstanceAs (Decidable (if v.opens m then v.answers m = [] else v.requests m = []))

instance [DecidableEq ι] (h : List α) : Decidable (v.Answered h) :=
  inferInstanceAs (Decidable (∀ t ∈ v.turns h, t.answers.Perm t.requests))

instance [DecidableEq ι] (h : List α) : Decidable (v.WellPaired h) :=
  decidable_of_iff
    ((∀ m ∈ h, v.Clean m) ∧ v.lead h = [] ∧ ∀ t ∈ v.turns h, t.answers.Perm t.requests)
    ⟨fun ⟨h1, h2, h3⟩ => ⟨h1, h2, h3⟩, fun ⟨h1, h2, h3⟩ => ⟨h1, h2, h3⟩⟩

-- ============================================================================
-- Served requests
-- ============================================================================

variable (v) in
/-- Every request has an answer of its own before the next turn. -/
def Served (h : List α) : Prop := ∀ t ∈ v.turns h, t.requests.Subperm t.answers

instance [DecidableEq ι] (h : List α) : Decidable (v.Served h) :=
  inferInstanceAs (Decidable (∀ t ∈ v.turns h, t.requests.Subperm t.answers))

theorem Served.suffix {a b : List α} (h : v.Served (a ++ b)) : v.Served b :=
  fun t ht => h t (turns_subset_append a b t ht)

theorem Served.congr {h h' : List α} (hserved : v.Served h) (hs : List.Forall₂ v.Same h h') :
    v.Served h' := by
  intro t ht
  rw [turns, scan_congr hs] at ht
  exact hserved t ht

/-- What is appended only adds answers to the last turn. -/
theorem Served.append {a b : List α} (ha : v.Served a) (hb : v.Served b) : v.Served (a ++ b) := by
  induction a with
  | nil => exact hb
  | cons m a ih =>
      have htail : v.Served (a ++ b) := ih (Served.suffix (a := [m]) ha)
      intro t ht
      cases hm : v.opens m with
      | false =>
          rw [List.cons_append, turns_cons_of_not_opens hm] at ht
          exact htail t ht
      | true =>
          rw [List.cons_append, turns_cons_of_opens hm] at ht
          rcases List.mem_cons.mp ht with rfl | ht
          · have hfirst : (v.requests m).Subperm (v.lead a) := by
              apply ha ⟨v.requests m, v.lead a⟩
              rw [turns_cons_of_opens hm]
              exact List.mem_cons_self ..
            exact hfirst.trans (lead_prefix_append a b).sublist.subperm
          · exact htail t ht

/-- Messages without requests. -/
theorem served_of_no_requests {ms : List α} (h : ∀ m ∈ ms, v.requests m = []) : v.Served ms := by
  induction ms with
  | nil => simp [Served]
  | cons m ms ih =>
      have htail : v.Served ms := ih fun x hx => h x (List.mem_cons_of_mem _ hx)
      intro t ht
      cases hm : v.opens m with
      | false =>
          rw [turns_cons_of_not_opens hm] at ht
          exact htail t ht
      | true =>
          rw [turns_cons_of_opens hm] at ht
          rcases List.mem_cons.mp ht with rfl | ht
          · rw [h m (List.mem_cons_self ..)]
            exact List.nil_subperm
          · exact htail t ht

/-- A turn with an answer to every request behind it. -/
theorem served_turn {m : α} {ms : List α} (hm : v.opens m = true)
    (hms : ∀ x ∈ ms, v.opens x = false) (hall : ms.flatMap v.answers = v.requests m) :
    v.Served (m :: ms) := by
  obtain ⟨hl, ht⟩ := scan_of_no_opens hms
  intro t htm
  rw [turns_cons_of_opens hm, ht, hl, hall] at htm
  obtain rfl := List.mem_singleton.mp htm
  exact List.Subperm.refl _

end TurnView
end Lib
end KineticSdk
