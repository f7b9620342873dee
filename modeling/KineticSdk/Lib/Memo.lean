/-
  KineticSdk.Lib.Memo

  A stored result that is returned again while the stamps of its source agree.

  A caller takes the stamp of the source first, looks into the store, and builds and
  saves where the stored stamp does not agree.  Nothing holds the source still in
  between.  A stored result belongs to a source no older than its stamp, so where no
  stamp comes back after a change, an answer is the result of a source that stood at
  some moment of its call (`answers_current`).  A caller that is alone answers with
  the result of the source before it as soon as the stamps tell the sources apart
  (`get_cases`).
-/

import KineticSdk.Lib.Steps
import Mathlib.Data.List.Basic
import Mathlib.Logic.Function.Basic

namespace KineticSdk
namespace Lib
namespace Memo

open Steps

/-- Sources `T` with stamps `F` and results `R`, and stores `S` of a result with a stamp. -/
structure Cache (T F R S : Type) where
  stamp : T → F
  result : T → R
  agrees : F → F → Bool
  load : S → Option (R × F)
  /-- With `none` where the result cannot be written. -/
  save : R → F → Option S
  equivalence : Equivalence fun t t' => agrees (stamp t) (stamp t') = true
  load_save : ∀ {t t' x}, save (result t) (stamp t') = some x → load x = some (result t, stamp t')

variable {T F R S : Type} (m : Cache T F R S)

-- ============================================================================
-- A caller alone
-- ============================================================================

/-- The result is built; the store keeps what it has where saving fails. -/
def Cache.rebuild (t : T) (ok : Bool) (x : S) : S × Option R :=
  match if ok then m.save (m.result t) (m.stamp t) else none with
  | some y => (y, some (m.result t))
  | none => (x, none)

/-- The whole call, with the store after it and the answer. -/
def Cache.get (t : T) (force ok : Bool) (x : S) : S × Option R :=
  match if force then none else m.load x with
  | some stored => if m.agrees stored.2 (m.stamp t) then (x, some stored.1) else m.rebuild t ok x
  | none => m.rebuild t ok x

/-- The stored result is that of a source with the stored stamp. -/
def Cache.Holds (among : T → Prop) (x : S) : Prop :=
  ∀ r f, m.load x = some (r, f) → ∃ t, among t ∧ f = m.stamp t ∧ r = m.result t

/-- Among these sources a result can be told by the stamp. -/
def Cache.TellsApart (among : T → Prop) : Prop :=
  ∀ t t', among t → among t' → m.agrees (m.stamp t) (m.stamp t') = true → m.result t = m.result t'

section Alone

variable {m} {among : T → Prop} {t : T} {force ok : Bool} {x : S}

theorem holds_of_load_none (h : m.load x = none) : m.Holds among x := fun r f hload => by
  rw [h] at hload
  cases hload

theorem rebuild_saved {y : S} (h : (if ok then m.save (m.result t) (m.stamp t) else none) = some y) :
    m.rebuild t ok x = (y, some (m.result t)) := by
  unfold Cache.rebuild
  rw [h]

theorem rebuild_failed (h : (if ok then m.save (m.result t) (m.stamp t) else none) = none) :
    m.rebuild t ok x = (x, none) := by
  unfold Cache.rebuild
  rw [h]

theorem get_stored {r : R} {f : F} (hload : (if force then none else m.load x) = some (r, f))
    (hagrees : m.agrees f (m.stamp t) = true) : m.get t force ok x = (x, some r) := by
  unfold Cache.get
  rw [hload]
  exact if_pos hagrees

theorem get_rebuilt
    (h : ∀ r f, (if force then none else m.load x) = some (r, f) → m.agrees f (m.stamp t) ≠ true) :
    m.get t force ok x = m.rebuild t ok x := by
  unfold Cache.get
  cases hload : if force then none else m.load x with
  | none => rfl
  | some stored => exact if_neg (h stored.1 stored.2 hload)

/-- A call answers from the store, or builds and saves, or fails and changes nothing. -/
theorem get_cases (m : Cache T F R S) (t : T) (force ok : Bool) (x : S) :
    (∃ r f, m.load x = some (r, f) ∧ m.agrees f (m.stamp t) = true ∧ m.get t force ok x = (x, some r)) ∨
      (∃ y, m.load y = some (m.result t, m.stamp t) ∧ m.get t force ok x = (y, some (m.result t))) ∨
      m.get t force ok x = (x, none) := by
  by_cases hhit : ∃ r f, (if force then none else m.load x) = some (r, f) ∧ m.agrees f (m.stamp t) = true
  · obtain ⟨r, f, hload, hagrees⟩ := hhit
    refine .inl ⟨r, f, ?_, hagrees, get_stored hload hagrees⟩
    cases force with
    | true => cases hload
    | false => exact hload
  · rw [get_rebuilt fun r f hload hagrees => hhit ⟨r, f, hload, hagrees⟩]
    cases hsave : if ok then m.save (m.result t) (m.stamp t) else none with
    | none => exact .inr (.inr (rebuild_failed hsave))
    | some y =>
        refine .inr (.inl ⟨y, m.load_save ?_, rebuild_saved hsave⟩)
        cases ok with
        | true => exact hsave
        | false => cases hsave

/-- A call that is alone answers with the result of the source it finds, and leaves a
    store that holds. -/
theorem get_holds (hapart : m.TellsApart among) (ht : among t) (hx : m.Holds among x) (force ok : Bool) :
    m.Holds among (m.get t force ok x).1 ∧ ∀ r, (m.get t force ok x).2 = some r → r = m.result t := by
  obtain ⟨r, f, hload, hagrees, heq⟩ | ⟨y, hload, heq⟩ | heq := get_cases m t force ok x
  · rw [heq]
    refine ⟨hx, fun r' hr => ?_⟩
    obtain ⟨t', ht', rfl, rfl⟩ := hx r f hload
    rw [← Option.some.inj hr]
    exact hapart t' t ht' ht hagrees
  · rw [heq]
    refine ⟨fun r f hstored => ?_, fun r hr => (Option.some.inj hr).symm⟩
    rw [hload] at hstored
    obtain ⟨rfl, rfl⟩ := Prod.mk.inj (Option.some.inj hstored)
    exact ⟨t, ht, rfl, rfl⟩
  · rw [heq]
    exact ⟨hx, fun r hr => absurd hr.symm (Option.some_ne_none r)⟩

/-- While the stamps agree, what was answered is answered again, and nothing is written. -/
theorem get_again {r : R} (hx : m.Holds among x) (hget : (m.get t force ok x).2 = some r) {t' : T}
    (hagrees : m.agrees (m.stamp t) (m.stamp t') = true) (ok' : Bool) :
    m.get t' false ok' (m.get t force ok x).1 = ((m.get t force ok x).1, some r) := by
  obtain ⟨r', f, hload, hstamp, heq⟩ | ⟨y, hload, heq⟩ | heq := get_cases m t force ok x
  · rw [heq] at hget ⊢
    obtain rfl : r' = r := Option.some.inj hget
    obtain ⟨s, -, rfl, -⟩ := hx _ f hload
    exact get_stored hload (m.equivalence.trans hstamp hagrees)
  · rw [heq] at hget ⊢
    obtain rfl : m.result t = r := Option.some.inj hget
    exact get_stored hload hagrees
  · rw [heq] at hget
    exact absurd hget.symm (Option.some_ne_none r)

end Alone

-- ============================================================================
-- Callers among each other
-- ============================================================================

/-- How far a call has come. -/
inductive Phase (R : Type) where
  | stamped
  | missed
  | built (r : R)

/-- A call: how many sources there had been when it took its stamp. -/
structure Call (F R : Type) where
  began : Nat
  stamp : F
  phase : Phase R := .stamped

/-- An answer, and the sources between which its call ran. -/
structure Answer (R : Type) where
  began : Nat
  ended : Nat
  result : R

/-- The source with all that it was before, the store, and the calls. -/
structure State (C T F R S : Type) where
  past : List T := []
  source : T
  store : S
  calls : C → Option (Call F R) := fun _ => none
  answers : List (Answer R) := []

/-- What happens next.  Something else may write the store too. -/
inductive Event (C T S : Type) where
  | edit (t : T)
  | put (x : S)
  | start (c : C)
  | look (c : C) (force : Bool)
  | build (c : C)
  | save (c : C) (ok : Bool)

variable {C : Type} [DecidableEq C]

/-- The sources so far. -/
def State.sources (s : State C T F R S) : List T := s.past ++ [s.source]

/-- The call goes on. -/
def State.go (s : State C T F R S) (c : C) (call : Call F R) : State C T F R S :=
  { s with calls := Function.update s.calls c (some call) }

/-- The call is over, with its answer if it has one. -/
def State.finish (s : State C T F R S) (c : C) (began : Nat) (r : Option R) : State C T F R S :=
  { s with
    calls := Function.update s.calls c none
    answers := s.answers ++ (r.map fun r => ⟨began, s.past.length, r⟩).toList }

/-- One event; one that does not fit the phase of its call is none. -/
def Cache.step (m : Cache T F R S) (s : State C T F R S) : Event C T S → State C T F R S
  | .edit t => { s with past := s.sources, source := t }
  | .put x => { s with store := x }
  | .start c =>
      match s.calls c with
      | none => s.go c ⟨s.past.length, m.stamp s.source, .stamped⟩
      | some _ => s
  | .look c force =>
      match s.calls c with
      | some ⟨began, stamp, .stamped⟩ =>
          match if force then none else m.load s.store with
          | some stored =>
              if m.agrees stored.2 stamp then s.finish c began (some stored.1) else s.go c ⟨began, stamp, .missed⟩
          | none => s.go c ⟨began, stamp, .missed⟩
      | _ => s
  | .build c =>
      match s.calls c with
      | some ⟨began, stamp, .missed⟩ => s.go c ⟨began, stamp, .built (m.result s.source)⟩
      | _ => s
  | .save c ok =>
      match s.calls c with
      | some ⟨began, stamp, .built r⟩ =>
          match if ok then m.save r stamp else none with
          | some y => { s.finish c began (some r) with store := y }
          | none => s.finish c began none
      | _ => s

/-- An edit brings a stamp that no source had before, or changes nothing that is seen;
    and what else is written into the store is no stored result. -/
def Cache.Fresh (m : Cache T F R S) (s : State C T F R S) : Event C T S → Prop
  | .edit t =>
      (∀ t' ∈ s.sources, m.agrees (m.stamp t') (m.stamp t) ≠ true) ∨
        (m.agrees (m.stamp s.source) (m.stamp t) = true ∧ m.result s.source = m.result t)
  | .put x => m.load x = none
  | _ => True

/-- The result is that of a source that stood at some moment of the call. -/
def Cache.Current (m : Cache T F R S) (sources : List T) (a : Answer R) : Prop :=
  ∃ i t, a.began ≤ i ∧ i ≤ a.ended ∧ sources[i]? = some t ∧ a.result = m.result t

/-- No source has come back after a change. -/
def Cache.Unrepeated (m : Cache T F R S) (sources : List T) : Prop :=
  ∀ (i j k : Nat) (ti tj tk : T), i ≤ j → j ≤ k → sources[i]? = some ti → sources[j]? = some tj → sources[k]? = some tk →
    m.agrees (m.stamp ti) (m.stamp tk) = true → m.result tj = m.result tk

/-- What a call holds was there when it took it. -/
def Cache.CallHolds (m : Cache T F R S) (sources : List T) (call : Call F R) : Prop :=
  (∃ t, sources[call.began]? = some t ∧ call.stamp = m.stamp t) ∧
    ∀ r, call.phase = .built r → ∃ j t, call.began ≤ j ∧ sources[j]? = some t ∧ r = m.result t

/-- The stored result is that of a source no older than the stored stamp. -/
def Cache.StoreHolds (m : Cache T F R S) (sources : List T) (x : S) : Prop :=
  ∀ r f, m.load x = some (r, f) → ∃ (i j : Nat) (ti tj : T), i ≤ j ∧ sources[i]? = some ti ∧ sources[j]? = some tj ∧
    f = m.stamp ti ∧ r = m.result tj

/-- The invariant of the runs. -/
structure Cache.Inv (m : Cache T F R S) (s : State C T F R S) : Prop where
  unrepeated : m.Unrepeated s.sources
  store : m.StoreHolds s.sources s.store
  calls : ∀ c call, s.calls c = some call → m.CallHolds s.sources call
  answers : ∀ a ∈ s.answers, m.Current s.sources a

section Runs

variable {m} {s : State C T F R S} {sources : List T} {call : Call F R} {c : C} {x : S}

theorem getElem?_append_of_some {i : Nat} {t u : T} (h : sources[i]? = some t) :
    (sources ++ [u])[i]? = some t := by
  obtain ⟨hlt, -⟩ := List.getElem?_eq_some_iff.mp h
  rw [List.getElem?_append_left hlt, h]

theorem sources_source (s : State C T F R S) : s.sources[s.past.length]? = some s.source := by
  unfold State.sources
  rw [List.getElem?_append_right (Nat.le_refl _), Nat.sub_self]
  rfl

theorem sources_lt {i : Nat} {t : T} (h : s.sources[i]? = some t) : i ≤ s.past.length := by
  obtain ⟨hlt, -⟩ := List.getElem?_eq_some_iff.mp h
  unfold State.sources at hlt
  rw [List.length_append, List.length_singleton] at hlt
  exact Nat.le_of_lt_succ hlt

theorem Cache.Current.append {a : Answer R} (h : m.Current sources a) (u : T) : m.Current (sources ++ [u]) a := by
  obtain ⟨i, t, hbegan, hended, ht, hr⟩ := h
  exact ⟨i, t, hbegan, hended, getElem?_append_of_some ht, hr⟩

theorem Cache.CallHolds.append (h : m.CallHolds sources call) (u : T) : m.CallHolds (sources ++ [u]) call := by
  obtain ⟨⟨t, ht, hstamp⟩, hbuilt⟩ := h
  refine ⟨⟨t, getElem?_append_of_some ht, hstamp⟩, fun r hr => ?_⟩
  obtain ⟨j, t', hle, ht', hresult⟩ := hbuilt r hr
  exact ⟨j, t', hle, getElem?_append_of_some ht', hresult⟩

theorem Cache.StoreHolds.append (h : m.StoreHolds sources x) (u : T) : m.StoreHolds (sources ++ [u]) x := by
  intro r f hload
  obtain ⟨i, j, ti, tj, hle, hi, hj, hf, hr⟩ := h r f hload
  exact ⟨i, j, ti, tj, hle, getElem?_append_of_some hi, getElem?_append_of_some hj, hf, hr⟩

/-- After a fresh edit still no source has come back. -/
theorem Cache.Unrepeated.edit {t : T} (h : m.Unrepeated s.sources) (hfresh : m.Fresh s (.edit t : Event C T S)) :
    m.Unrepeated (s.sources ++ [t]) := by
  have hsplit : ∀ {i : Nat} {u : T}, (s.sources ++ [t])[i]? = some u →
      s.sources[i]? = some u ∨ (i = s.sources.length ∧ u = t) := fun {i u} hi => by
    rcases Nat.lt_or_ge i s.sources.length with hlt | hge
    · rw [List.getElem?_append_left hlt] at hi
      exact .inl hi
    · rw [List.getElem?_append_right hge] at hi
      obtain ⟨hlt, hu⟩ := List.getElem?_eq_some_iff.mp hi
      rw [List.length_singleton] at hlt
      refine .inr ⟨by omega, ?_⟩
      rw [List.getElem_singleton] at hu
      exact hu.symm
  have hlast := sources_source s
  have hlength : s.sources.length = s.past.length + 1 := by
    unfold State.sources
    rw [List.length_append, List.length_singleton]
  intro i j k ti tj tk hij hjk hi hj hk hagrees
  rcases hsplit hk with hk' | ⟨rfl, rfl⟩
  · -- the later of the two stood before the edit
    have hle := sources_lt hk'
    have hi' := (hsplit hi).resolve_right fun hr => by omega
    have hj' := (hsplit hj).resolve_right fun hr => by omega
    exact h i j k ti tj tk hij hjk hi' hj' hk' hagrees
  · rcases hsplit hj with hj' | ⟨-, rfl⟩
    · have hle := sources_lt hj'
      have hi' := (hsplit hi).resolve_right fun hr => by omega
      rcases hfresh with hnew | ⟨hsame, hresult⟩
      · exact absurd hagrees (hnew ti (List.mem_of_getElem? hi'))
      · -- the edit is invisible, so the source before it bears the same stamp
        have hback := m.equivalence.trans hagrees (m.equivalence.symm hsame)
        exact (h i j _ ti tj _ hij hle hi' hj' hlast hback).trans hresult
    · rfl

theorem Cache.Inv.edit {t : T} (h : m.Inv s) (hfresh : m.Fresh s (.edit t : Event C T S)) :
    m.Inv ({ s with past := s.sources, source := t } : State C T F R S) where
  unrepeated := h.unrepeated.edit hfresh
  store := h.store.append t
  calls := fun c call hcall => (h.calls c call hcall).append t
  answers := fun a ha => (h.answers a ha).append t

theorem Cache.Inv.put (h : m.Inv s) (hx : m.StoreHolds s.sources x) : m.Inv { s with store := x } where
  unrepeated := h.unrepeated
  store := hx
  calls := h.calls
  answers := h.answers

theorem Cache.Inv.go (h : m.Inv s) (hcall : m.CallHolds s.sources call) : m.Inv (s.go c call) where
  unrepeated := h.unrepeated
  store := h.store
  calls := fun c' call' hcall' => by
    by_cases hc : c' = c
    · obtain rfl : call = call' := by
        have hself : (s.go c call).calls c' = some call := by
          rw [hc]
          exact Function.update_self ..
        exact Option.some.inj (hself.symm.trans hcall')
      exact hcall
    · have hother : (s.go c call).calls c' = s.calls c' := Function.update_of_ne hc ..
      exact h.calls c' call' (hother.symm.trans hcall')
  answers := h.answers

theorem Cache.Inv.finish (h : m.Inv s) {began : Nat} {r : Option R}
    (hr : ∀ r' ∈ r, m.Current s.sources ⟨began, s.past.length, r'⟩) : m.Inv (s.finish c began r) where
  unrepeated := h.unrepeated
  store := h.store
  calls := fun c' call' hcall' => by
    by_cases hc : c' = c
    · have hself : (s.finish c began r).calls c' = none := by
        rw [hc]
        exact Function.update_self ..
      exact absurd (hself.symm.trans hcall').symm (Option.some_ne_none call')
    · have hother : (s.finish c began r).calls c' = s.calls c' := Function.update_of_ne hc ..
      exact h.calls c' call' (hother.symm.trans hcall')
  answers := fun a ha => by
    rcases List.mem_append.mp ha with ha | ha
    · exact h.answers a ha
    · cases r with
      | none => cases ha
      | some r' =>
          obtain rfl := List.mem_singleton.mp ha
          exact hr r' rfl

/-- What is stored under the stamp of a call answers the call: either the source has
    not changed since it was built, or it was built while the call ran. -/
theorem Cache.StoreHolds.answer (h : m.StoreHolds s.sources s.store) (hunrepeated : m.Unrepeated s.sources)
    {r : R} {f : F} (hload : m.load s.store = some (r, f)) (hcall : m.CallHolds s.sources call)
    (hagrees : m.agrees f call.stamp = true) :
    m.Current s.sources ⟨call.began, s.past.length, r⟩ := by
  obtain ⟨i, j, ti, tj, hij, hi, hj, rfl, rfl⟩ := h r f hload
  obtain ⟨⟨t, ht, hstamp⟩, -⟩ := hcall
  rcases Nat.le_total call.began j with hle | hle
  · exact ⟨j, tj, hle, sources_lt hj, hj, rfl⟩
  · rw [hstamp] at hagrees
    exact ⟨call.began, t, Nat.le_refl _, sources_lt ht, ht,
      hunrepeated i j call.began ti tj t hij hle hi hj ht hagrees⟩

/-- Every event keeps the invariant. -/
theorem Cache.Inv.step (h : m.Inv s) (e : Event C T S) (hfresh : m.Fresh s e) : m.Inv (m.step s e) := by
  cases e with
  | edit t => exact h.edit hfresh
  | put x =>
      refine h.put fun r f hload => ?_
      rw [show m.load x = none from hfresh] at hload
      cases hload
  | start c =>
      rcases hcall : s.calls c with - | call
      · have heq : m.step s (.start c : Event C T S) = s.go c ⟨s.past.length, m.stamp s.source, .stamped⟩ := by
          simp only [Cache.step, hcall]
        rw [heq]
        exact h.go ⟨⟨s.source, sources_source s, rfl⟩, fun r hr => by cases hr⟩
      · simpa only [Cache.step, hcall] using h
  | look c force =>
      rcases hcall : s.calls c with - | ⟨began, stamp, - | - | r⟩
      · simpa only [Cache.step, hcall] using h
      · have hholds := h.calls c _ hcall
        have hmissed : m.Inv (s.go c ⟨began, stamp, .missed⟩) := h.go ⟨hholds.1, fun r hr => by cases hr⟩
        rcases hload : (if force then none else m.load s.store) with - | ⟨r, f⟩
        · simpa only [Cache.step, hcall, hload] using hmissed
        · have hstored : m.load s.store = some (r, f) := by
            cases force with
            | true => cases hload
            | false => exact hload
          by_cases hagrees : m.agrees f stamp = true
          · have hanswer := h.store.answer h.unrepeated hstored hholds hagrees
            have hdone : m.Inv (s.finish c began (some r)) := h.finish fun r' hr => by
              obtain rfl : r = r' := Option.some.inj hr
              exact hanswer
            simpa only [Cache.step, hcall, hload, if_pos hagrees] using hdone
          · simpa only [Cache.step, hcall, hload, if_neg hagrees] using hmissed
      · simpa only [Cache.step, hcall] using h
      · simpa only [Cache.step, hcall] using h
  | build c =>
      rcases hcall : s.calls c with - | ⟨began, stamp, - | - | r⟩
      · simpa only [Cache.step, hcall] using h
      · simpa only [Cache.step, hcall] using h
      · obtain ⟨⟨t, ht, hstamp⟩, -⟩ := h.calls c _ hcall
        have hbuilt : m.Inv (s.go c ⟨began, stamp, .built (m.result s.source)⟩) := by
          refine h.go ⟨⟨t, ht, hstamp⟩, fun r hr => ?_⟩
          obtain rfl : m.result s.source = r := Phase.built.inj hr
          exact ⟨s.past.length, s.source, sources_lt ht, sources_source s, rfl⟩
        simpa only [Cache.step, hcall] using hbuilt
      · simpa only [Cache.step, hcall] using h
  | save c ok =>
      rcases hcall : s.calls c with - | ⟨began, stamp, - | - | r⟩
      · simpa only [Cache.step, hcall] using h
      · simpa only [Cache.step, hcall] using h
      · simpa only [Cache.step, hcall] using h
      · obtain ⟨⟨t, ht, hstamp⟩, hbuilt⟩ := h.calls c _ hcall
        obtain ⟨j, tj, hle, hj, rfl⟩ := hbuilt r rfl
        dsimp only at ht hstamp hle
        rcases hsave : (if ok then m.save (m.result tj) stamp else none) with - | y
        · have hfailed : m.Inv (s.finish c began none) := h.finish fun r hr => absurd hr (Option.not_mem_none r)
          simpa only [Cache.step, hcall, hsave] using hfailed
        · have hdone : m.Inv (s.finish c began (some (m.result tj))) := h.finish fun r hr => by
            obtain rfl : m.result tj = r := Option.some.inj hr
            exact ⟨j, tj, hle, sources_lt hj, hj, rfl⟩
          have hy : m.load y = some (m.result tj, m.stamp t) := by
            cases ok with
            | true =>
                rw [hstamp] at hsave
                exact m.load_save hsave
            | false => cases hsave
          have hstored : m.Inv { s.finish c began (some (m.result tj)) with store := y } := by
            refine hdone.put fun r f hload => ?_
            rw [hy] at hload
            obtain ⟨rfl, rfl⟩ := Prod.mk.inj (Option.some.inj hload)
            exact ⟨began, j, t, tj, hle, ht, hj, rfl, rfl⟩
          simpa only [Cache.step, hcall, hsave] using hstored

/-- Nothing is stored yet, and nobody calls. -/
def State.initial (t : T) (x : S) : State C T F R S := ⟨[], t, x, fun _ => none, []⟩

theorem inv_initial (m : Cache T F R S) (t : T) {x : S} (hx : m.load x = none) :
    m.Inv (State.initial t x : State C T F R S) where
  unrepeated := fun i j k ti tj tk hij hjk hi hj hk _ => by
    have hone : ∀ {i : Nat} {u : T}, [t][i]? = some u → u = t := fun {i u} hu =>
      List.mem_singleton.mp (List.mem_of_getElem? hu)
    rw [hone hj, hone hk]
  store := fun r f hload => absurd (hload.symm.trans hx) (Option.some_ne_none _)
  calls := fun c call hcall => absurd hcall.symm (Option.some_ne_none call)
  answers := fun a ha => absurd ha List.not_mem_nil

/-- Every answer is the result of a source that stood at some moment of its call. -/
theorem answers_current (t : T) (hx : m.load x = none) {es : List (Event C T S)}
    (hes : Meets m.step m.Fresh (State.initial t x : State C T F R S) es) {a : Answer R}
    (ha : a ∈ (run m.step (State.initial t x : State C T F R S) es).answers) :
    m.Current (run m.step (State.initial t x : State C T F R S) es).sources a :=
  (hes.keeps (fun s e h hfresh => h.step e hfresh) (inv_initial m t hx)).answers a ha

end Runs

end Memo
end Lib
end KineticSdk
