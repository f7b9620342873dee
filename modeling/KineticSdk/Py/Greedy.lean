/-
  KineticSdk.Py.Greedy

  How the matcher finds the match that is wanted.

  The matcher takes the first way that succeeds, so a match is shown by giving
  that way: an alternative that succeeds, a repetition that takes a whole run
  because nothing after it can go on (`starK_run`).  A replacement passes over
  the places where the pattern does not match (`subLoop_skip`), and what it puts
  is made of the text (`mem_subLoop`).
-/

import KineticSdk.Py.Regex

namespace KineticSdk
namespace Py
namespace Regex

variable {β : Type} {p : Nat → Bool}

/-- The character before what follows some text. -/
def lastOf : Option Nat → PyStr → Option Nat
  | prev, [] => prev
  | _, c :: cs => lastOf (some c) cs

theorem lastOf_append (prev : Option Nat) (s t : PyStr) : lastOf prev (s ++ t) = lastOf (lastOf prev s) t := by
  induction s generalizing prev with
  | nil => rfl
  | cons c cs ih => exact ih (some c)

-- ============================================================================
-- Finding a way
-- ============================================================================

/-- Going on from `c'` is the first way that succeeds, if it does. -/
def Finds (re : Regex) (c c' : Cursor) : Prop :=
  ∀ (β : Type) (k : Cursor → Option β) (r : β), k c' = some r → matchK re c k = some r

/-- There is no way. -/
def Fails (re : Regex) (c : Cursor) : Prop := ∀ (β : Type) (k : Cursor → Option β), matchK re c k = none

theorem Finds.eps (c : Cursor) : Finds .eps c c := fun _ _ _ h => h

/-- The only way is the first. -/
theorem Finds.only {re : Regex} {c c' : Cursor}
    (h : ∀ (β : Type) (k : Cursor → Option β), matchK re c k = k c') : Finds re c c' :=
  fun β k _ hk => (h β k).trans hk

theorem Finds.seq {a b : Regex} {c c' c'' : Cursor} (ha : Finds a c c') (hb : Finds b c' c'') :
    Finds (.seq a b) c c'' := fun β k r h => ha β _ r (hb β k r h)

theorem Finds.left {a b : Regex} {c c' : Cursor} (h : Finds a c c') : Finds (.alt a b) c c' := by
  intro β k r hk
  rw [matchK, h β k r hk]

theorem Finds.right {a b : Regex} {c c' : Cursor} (ha : Fails a c) (h : Finds b c c') :
    Finds (.alt a b) c c' := by
  intro β k r hk
  rw [matchK, ha β k]
  exact h β k r hk

theorem Finds.chr {p : Nat → Bool} {x : Nat} (hx : p x = true) (prev : Option Nat) (xs : PyStr)
    (g : List (Nat × PyStr)) : Finds (.chr p) ⟨prev, x :: xs, g⟩ ⟨some x, xs, g⟩ := by
  intro β k r hk
  rw [matchK]
  dsimp only
  rw [if_pos hx]
  exact hk

theorem Finds.wordB {c : Cursor} (h : c.atWordBoundary = true) : Finds .wordB c c := by
  intro β k r hk
  rw [matchK, if_pos h]
  exact hk

theorem Finds.group {a : Regex} {n : Nat} {s rest : PyStr} {prev prev' : Option Nat} {g g' : List (Nat × PyStr)}
    (h : Finds a ⟨prev, s ++ rest, g⟩ ⟨prev', rest, g'⟩) :
    Finds (.group n a) ⟨prev, s ++ rest, g⟩ ⟨prev', rest, (n, s) :: g'⟩ := by
  intro β k r hk
  refine h β _ r ?_
  have hs : (s ++ rest).take ((s ++ rest).length - rest.length) = s := by
    rw [List.length_append, Nat.add_sub_cancel, List.take_left]
  dsimp only
  rw [hs]
  exact hk

theorem fails_chr {p : Nat → Bool} {rest : PyStr} (h : ∀ x ∈ rest.head?, p x = false) (prev : Option Nat)
    (g : List (Nat × PyStr)) : Fails (.chr p) ⟨prev, rest, g⟩ := by
  intro β k
  cases rest with
  | nil => rfl
  | cons x xs =>
      rw [matchK]
      dsimp only
      rw [h x rfl]
      rfl

theorem Fails.seq {a b : Regex} {c : Cursor} (h : Fails a c) : Fails (.seq a b) c := fun β _ => h β _

theorem Fails.group {a : Regex} {n : Nat} {c : Cursor} (h : Fails a c) : Fails (.group n a) c := fun β _ => h β _

theorem Fails.alt {a b : Regex} {c : Cursor} (ha : Fails a c) (hb : Fails b c) : Fails (.alt a b) c := by
  intro β k
  rw [matchK, ha β k]
  exact hb β k

/-- What fails also fails at the start of a word. -/
theorem Fails.wordB {b : Regex} {c : Cursor} (h : Fails b c) : Fails (.seq .wordB b) c := by
  intro β k
  rw [matchK, matchK]
  split
  · exact h β k
  · rfl

/-- The class goes no further. -/
def Ends (p : Nat → Bool) (rest : PyStr) : Prop := ∀ x ∈ rest.head?, p x = false

/-- A greedy repetition takes the whole run. -/
theorem Finds.star (run : PyStr) {rest : PyStr} (hrun : ∀ x ∈ run, p x = true) (hends : Ends p rest)
    (prev : Option Nat) (g : List (Nat × PyStr)) :
    Finds (.star (.chr p)) ⟨prev, run ++ rest, g⟩ ⟨lastOf prev run, rest, g⟩ := by
  intro β k r hk
  have hloop : ∀ (run : PyStr) (prev : Option Nat) (fuel : Nat), (∀ x ∈ run, p x = true) → run.length < fuel →
      k ⟨lastOf prev run, rest, g⟩ = some r →
      starK (matchK (.chr p)) fuel ⟨prev, run ++ rest, g⟩ k = some r := by
    intro run
    induction run with
    | nil =>
        intro prev fuel _ hfuel hk
        obtain ⟨fuel, rfl⟩ : ∃ n, fuel = n + 1 := ⟨fuel - 1, by simp only [List.length_nil] at hfuel; omega⟩
        rw [starK, List.nil_append, fails_chr hends]
        exact hk
    | cons x xs ih =>
        intro prev fuel hrun hfuel hk
        obtain ⟨fuel, rfl⟩ : ∃ n, fuel = n + 1 := ⟨fuel - 1, by simp only [List.length_cons] at hfuel; omega⟩
        obtain ⟨hx, hxs⟩ := List.forall_mem_cons.mp hrun
        have hless : (xs ++ rest).length < (x :: (xs ++ rest)).length := Nat.lt_succ_self _
        have hgo := ih (some x) fuel hxs (by simp only [List.length_cons] at hfuel; omega) hk
        rw [starK, List.cons_append, Finds.chr hx prev (xs ++ rest) g β _ r]
        dsimp only
        rw [if_pos hless, hgo]
  exact hloop run prev _ hrun (by rw [List.length_append]; omega) hk

/-- Exactly so many characters of a class. -/
theorem Finds.times (run : PyStr) {rest : PyStr} (hrun : ∀ x ∈ run, p x = true) (prev : Option Nat)
    (g : List (Nat × PyStr)) :
    Finds (times run.length (.chr p)) ⟨prev, run ++ rest, g⟩ ⟨lastOf prev run, rest, g⟩ := by
  induction run generalizing prev with
  | nil => exact .eps _
  | cons x xs ih =>
      obtain ⟨hx, hxs⟩ := List.forall_mem_cons.mp hrun
      exact .seq (.chr hx prev (xs ++ rest) g) (ih hxs (some x))

/-- At most so many characters of a class: the whole run, or as many as may be. -/
theorem Finds.upTo (run : PyStr) {rest : PyStr} (hrun : ∀ x ∈ run, p x = true) {n : Nat} (hn : run.length ≤ n)
    (hends : Ends p rest ∨ run.length = n) (prev : Option Nat) (g : List (Nat × PyStr)) :
    Finds (upTo n (.chr p)) ⟨prev, run ++ rest, g⟩ ⟨lastOf prev run, rest, g⟩ := by
  induction run generalizing prev n with
  | nil =>
      cases n with
      | zero => exact .eps _
      | succ n =>
          rcases hends with hends | hends
          · exact .right (fails_chr hends prev g).seq (.eps _)
          · cases hends
  | cons x xs ih =>
      obtain ⟨hx, hxs⟩ := List.forall_mem_cons.mp hrun
      obtain ⟨n, rfl⟩ : ∃ m, n = m + 1 := ⟨n - 1, by simp only [List.length_cons] at hn; omega⟩
      refine .left (.seq (.chr hx prev (xs ++ rest) g) (ih hxs ?_ ?_ (some x)))
      · simp only [List.length_cons] at hn
        omega
      · refine hends.imp id fun hlen => ?_
        simp only [List.length_cons] at hlen
        omega

/-- `r{n,m}` of a class takes a run of a length between, or as much as it may. -/
theorem Finds.between {n m : Nat} (run : PyStr) {rest : PyStr} (hrun : ∀ x ∈ run, p x = true)
    (hn : n ≤ run.length) (hm : run.length ≤ m) (hends : Ends p rest ∨ run.length = m) (prev : Option Nat)
    (g : List (Nat × PyStr)) :
    Finds (between n m (.chr p)) ⟨prev, run ++ rest, g⟩ ⟨lastOf prev run, rest, g⟩ := by
  have hlen : (run.take n).length = n := List.length_take_of_le hn
  have hdrop : (run.drop n).length = run.length - n := List.length_drop
  have htimes := @Finds.times p (run.take n) (run.drop n ++ rest)
    (fun x hx => hrun x (List.mem_of_mem_take hx)) prev g
  have hupTo := @Finds.upTo p (run.drop n) rest (fun x hx => hrun x (List.mem_of_mem_drop hx)) (m - n)
    (by omega) (hends.imp id fun h => by omega) (lastOf prev (run.take n)) g
  rw [hlen, ← List.append_assoc, List.take_append_drop] at htimes
  rw [← lastOf_append, List.take_append_drop] at hupTo
  exact .seq htimes hupTo

/-- `r{n,}` of a class takes a run of at least that length. -/
theorem Finds.atLeast {n : Nat} (run : PyStr) {rest : PyStr} (hrun : ∀ x ∈ run, p x = true)
    (hn : n ≤ run.length) (hends : Ends p rest) (prev : Option Nat) (g : List (Nat × PyStr)) :
    Finds (atLeast n (.chr p)) ⟨prev, run ++ rest, g⟩ ⟨lastOf prev run, rest, g⟩ := by
  have hlen : (run.take n).length = n := List.length_take_of_le hn
  have htimes := @Finds.times p (run.take n) (run.drop n ++ rest)
    (fun x hx => hrun x (List.mem_of_mem_take hx)) prev g
  have hstar := Finds.star (run.drop n) (fun x hx => hrun x (List.mem_of_mem_drop hx)) hends
    (lastOf prev (run.take n)) g
  rw [hlen, ← List.append_assoc, List.take_append_drop] at htimes
  rw [← lastOf_append, List.take_append_drop] at hstar
  exact .seq htimes hstar

/-- Nothing matches while `skipped` is passed. -/
def Passes (re : Regex) : Option Nat → PyStr → PyStr → Prop
  | _, [], _ => True
  | prev, c :: cs, rest => matchAt re prev (c :: (cs ++ rest)) = none ∧ Passes re (some c) cs rest

/-- What no match begins in is kept. -/
theorem subLoop_skip {re : Regex} (repl : Match → PyStr) {skipped : PyStr} {prev : Option Nat} {rest : PyStr}
    (h : Passes re prev skipped rest) :
    subLoop re repl prev 0 (skipped ++ rest) = skipped ++ subLoop re repl (lastOf prev skipped) 0 rest := by
  induction skipped generalizing prev with
  | nil => rfl
  | cons c cs ih => rw [List.cons_append, subLoop, h.1, ih h.2]; rfl

/-- Nothing matches where no match begins with the characters. -/
theorem passes_of_noStart {re : Regex} {skipped : PyStr}
    (h : ∀ c ∈ skipped, ∀ prev rest, matchAt re prev (c :: rest) = none) (prev : Option Nat) (rest : PyStr) :
    Passes re prev skipped rest := by
  induction skipped generalizing prev with
  | nil => exact trivial
  | cons c cs ih =>
      obtain ⟨hc, hcs⟩ := List.forall_mem_cons.mp h
      exact ⟨hc prev _, ih hcs (some c)⟩

theorem passes_append {re : Regex} {a b : PyStr} {prev : Option Nat} {rest : PyStr}
    (ha : Passes re prev a (b ++ rest)) (hb : Passes re (lastOf prev a) b rest) : Passes re prev (a ++ b) rest := by
  induction a generalizing prev with
  | nil => exact hb
  | cons c cs ih =>
      refine ⟨?_, ih ha.2 hb⟩
      show matchAt re prev (c :: ((cs ++ b) ++ rest)) = none
      rw [List.append_assoc]
      exact ha.1

/-- A later position of the same text, with groups taken from it. -/
structure Cursor.From (c c' : Cursor) : Prop where
  rest : c'.rest <:+ c.rest
  groups : ∀ g ∈ c'.groups, g ∈ c.groups ∨ g.2 <:+: c.rest

theorem Cursor.From.refl (c : Cursor) : c.From c := ⟨List.suffix_refl _, fun _ h => Or.inl h⟩

theorem Cursor.From.trans {a b c : Cursor} (hab : a.From b) (hbc : b.From c) : a.From c := by
  refine ⟨hbc.rest.trans hab.rest, fun g hg => ?_⟩
  rcases hbc.groups g hg with hg | hg
  · exact hab.groups g hg
  · exact Or.inr (hg.trans hab.rest.isInfix)

/-- A match goes on from some later position. -/
theorem matchK_some (re : Regex) : ∀ (c : Cursor) (k : Cursor → Option β) (r : β),
    matchK re c k = some r → ∃ c', c.From c' ∧ k c' = some r := by
  induction re with
  | eps => exact fun c k r h => ⟨c, .refl c, h⟩
  | wordB =>
      intro c k r h
      rw [matchK] at h
      split at h
      · exact ⟨c, .refl c, h⟩
      · cases h
  | chr p =>
      intro c k r h
      obtain ⟨prev, text, g⟩ := c
      cases text with
      | nil => cases h
      | cons x xs =>
          rw [matchK] at h
          dsimp only at h
          split at h
          · exact ⟨⟨some x, xs, g⟩, ⟨List.suffix_cons x xs, fun _ hg => Or.inl hg⟩, h⟩
          · cases h
  | seq a b iha ihb =>
      intro c k r h
      obtain ⟨c', hc', h'⟩ := iha c _ r h
      obtain ⟨c'', hc'', hk⟩ := ihb c' k r h'
      exact ⟨c'', hc'.trans hc'', hk⟩
  | alt a b iha ihb =>
      intro c k r h
      rw [matchK] at h
      cases ha : matchK a c k with
      | some r' =>
          rw [ha] at h
          exact iha c k r (ha.trans h)
      | none =>
          rw [ha] at h
          exact ihb c k r h
  | group n a ih =>
      intro c k r h
      obtain ⟨c', hc', hk⟩ := ih c _ r h
      refine ⟨⟨c'.prev, c'.rest, (n, c.rest.take (c.rest.length - c'.rest.length)) :: c'.groups⟩,
        ⟨hc'.rest, fun g hg => ?_⟩, hk⟩
      rcases List.mem_cons.mp hg with rfl | hg
      · exact Or.inr (List.take_prefix _ _).isInfix
      · exact hc'.groups g hg
  | star a ih =>
      intro c k r h
      have hloop : ∀ (fuel : Nat) (c : Cursor), starK (matchK a) fuel c k = some r →
          ∃ c', c.From c' ∧ k c' = some r := by
        intro fuel
        induction fuel with
        | zero => exact fun c h => ⟨c, .refl c, h⟩
        | succ fuel ihfuel =>
            intro c h
            rw [starK] at h
            split at h
            · next r' hround =>
                obtain ⟨c', hc', hgo⟩ := ih c _ _ hround
                split at hgo
                · rw [h] at hgo
                  obtain ⟨c'', hc'', hk⟩ := ihfuel c' hgo
                  exact ⟨c'', hc'.trans hc'', hk⟩
                · cases hgo
            · exact ⟨c, .refl c, h⟩
      exact hloop _ c h

/-- The groups of a match are parts of the text. -/
theorem matchAt_groups {re : Regex} {prev : Option Nat} {text : PyStr} {m : Match}
    (h : matchAt re prev text = some m) (n : Nat) : ∀ x ∈ m.group n, x ∈ text := by
  obtain ⟨c', hfrom, hm⟩ := matchK_some re _ _ _ h
  cases hm
  intro x hx
  unfold Match.group at hx
  cases hfind : c'.groups.find? fun g => g.1 == n with
  | none =>
      rw [hfind] at hx
      exact absurd hx List.not_mem_nil
  | some g =>
      rw [hfind] at hx
      rcases hfrom.groups g (List.mem_of_find?_eq_some hfind) with hg | hg
      · exact absurd hg List.not_mem_nil
      · exact hg.subset hx

/-- What is put for a match holds of every character, if it holds of the text's. -/
theorem forall_mem_subLoop {re : Regex} {repl : Match → PyStr} {P : Nat → Prop}
    (hrepl : ∀ m : Match, (∀ n, ∀ x ∈ m.group n, P x) → ∀ x ∈ repl m, P x) (text : PyStr) :
    ∀ (prev : Option Nat) (skip : Nat), (∀ x ∈ text, P x) → ∀ x ∈ subLoop re repl prev skip text, P x := by
  induction text with
  | nil => exact fun prev skip h => by cases skip <;> exact h
  | cons c cs ih =>
      intro prev skip h
      obtain ⟨hc, hcs⟩ := List.forall_mem_cons.mp h
      cases skip with
      | succ skip => exact ih (some c) skip hcs
      | zero =>
          have hkeep := List.forall_mem_cons.mpr ⟨hc, ih (some c) 0 hcs⟩
          rw [subLoop]
          split
          · next m hm =>
              split
              · exact hkeep
              · have hgroups : ∀ n, ∀ x ∈ m.group n, P x := fun n x hx => h x (matchAt_groups hm n x hx)
                exact List.forall_mem_append.mpr ⟨hrepl m hgroups, ih (some c) _ hcs⟩
          · exact hkeep

end Regex
end Py
end KineticSdk
