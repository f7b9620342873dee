/-
  KineticSdk.Py.Str

  The string methods the library reads texts with.
-/

import KineticSdk.Py.Json
import KineticSdk.Py.Unicode

namespace KineticSdk
namespace Py

/-- Put a character in front of the first line. -/
def consLine (c : Nat) : List PyStr → List PyStr
  | [] => [[c]]
  | l :: ls => (c :: l) :: ls

/-- `s.splitlines(keepends=True)`. -/
def splitlines : PyStr → List PyStr
  | [] => []
  | 13 :: 10 :: rest => [13, 10] :: splitlines rest
  | c :: cs => if isLineBreak c then [c] :: splitlines cs else consLine c (splitlines cs)

/-- `s.rstrip(chars)` for a class of characters. -/
def rstripWhile (p : Nat → Bool) (s : PyStr) : PyStr := (s.reverse.dropWhile p).reverse

/-- `s.strip()`. -/
def strip (s : PyStr) : PyStr := rstripWhile isSpace (s.dropWhile isSpace)

/-- `s.split(sep, 1)[0]` for a one-character separator. -/
def beforeChar (sep : Nat) (s : PyStr) : PyStr := s.takeWhile (· != sep)

/-- The words of `s.split()`, `word` being read. -/
def splitWords : PyStr → PyStr → List PyStr
  | word, [] => if word = [] then [] else [word]
  | word, c :: cs =>
      if isSpace c then (if word = [] then splitWords [] cs else word :: splitWords [] cs)
      else splitWords (word ++ [c]) cs

/-- `s.split(sep)` for a one-character separator. -/
def splitChar (sep : Nat) : PyStr → List PyStr
  | [] => [[]]
  | c :: cs => if c = sep then [] :: splitChar sep cs else consLine c (splitChar sep cs)

/-- `sep.join(parts)`. -/
def join (sep : PyStr) (parts : List PyStr) : PyStr := sep.intercalate parts

example : splitlines (py "a\r\nb\nc") = [py "a\r\n", py "b\n", py "c"] := by decide

-- ============================================================================
-- Splitting into lines
-- ============================================================================

/-- No line ends inside the text. -/
def NoBreak (s : PyStr) : Prop := ∀ c ∈ s, isLineBreak c = false

instance (s : PyStr) : Decidable (NoBreak s) :=
  inferInstanceAs (Decidable (∀ c ∈ s, isLineBreak c = false))

/-- A text that ends in `\n` or `\r\n` and nowhere else. -/
def OneLine (l : PyStr) : Prop := ∃ body, NoBreak body ∧ (l = body ++ [10] ∨ l = body ++ [13, 10])

theorem NoBreak.append {s t : PyStr} (hs : NoBreak s) (ht : NoBreak t) : NoBreak (s ++ t) := by
  intro c hc
  rcases List.mem_append.mp hc with hc | hc
  · exact hs c hc
  · exact ht c hc

theorem OneLine.append {s l : PyStr} (hs : NoBreak s) (hl : OneLine l) : OneLine (s ++ l) := by
  obtain ⟨body, hb, rfl | rfl⟩ := hl
  · exact ⟨s ++ body, hs.append hb, Or.inl (by rw [List.append_assoc])⟩
  · exact ⟨s ++ body, hs.append hb, Or.inr (by rw [List.append_assoc])⟩

theorem splitlines_flatten_self (text : PyStr) : (splitlines text).flatten = text := by
  fun_induction splitlines text with
  | case1 => rfl
  | case2 rest ih => rw [List.flatten_cons, ih]; rfl
  | case3 c cs _ hc ih => rw [List.flatten_cons, ih]; rfl
  | case4 c cs _ hc ih =>
      cases hcs : splitlines cs with
      | nil =>
          rw [hcs] at ih
          rw [← ih]
          rfl
      | cons l ls =>
          rw [hcs] at ih
          rw [← ih]
          rfl

theorem splitlines_cons_of_not_break {c : Nat} (hc : isLineBreak c = false) (cs : PyStr) :
    splitlines (c :: cs) = consLine c (splitlines cs) := by
  have h13 : c ≠ 13 := by
    rintro rfl
    revert hc
    decide
  rw [splitlines.eq_3 _ _ (fun rest h _ => h13 h)]
  rw [hc]
  rfl

theorem splitlines_append_crlf {body : PyStr} (hb : NoBreak body) (rest : PyStr) :
    splitlines (body ++ 13 :: 10 :: rest) = (body ++ [13, 10]) :: splitlines rest := by
  induction body with
  | nil => rfl
  | cons c cs ih =>
      have hcs : NoBreak cs := fun x hx => hb x (List.mem_cons_of_mem _ hx)
      rw [List.cons_append, splitlines_cons_of_not_break (hb c (List.mem_cons_self ..)), ih hcs]
      rfl

theorem splitlines_of_noBreak {s : PyStr} (h : NoBreak s) (hne : s ≠ []) : splitlines s = [s] := by
  induction s with
  | nil => exact absurd rfl hne
  | cons c cs ih =>
      have hcs : NoBreak cs := fun x hx => h x (List.mem_cons_of_mem _ hx)
      rw [splitlines_cons_of_not_break (h c (List.mem_cons_self ..))]
      cases cs with
      | nil => rfl
      | cons c' cs => rw [ih hcs (List.cons_ne_nil _ _)]; rfl

theorem rstripWhile_append {p : Nat → Bool} {s t : PyStr} (h : ∀ c ∈ t, p c = true) :
    rstripWhile p (s ++ t) = rstripWhile p s := by
  unfold rstripWhile
  rw [List.reverse_append, List.dropWhile_append_of_pos (by simpa using h)]

theorem rstripWhile_of_last {p : Nat → Bool} (s : PyStr) {c : Nat} (h : p c = false) :
    rstripWhile p (s ++ [c]) = s ++ [c] := by
  unfold rstripWhile
  simp [h]

theorem dropWhile_append_of_neg {p : Nat → Bool} (u : PyStr) {c : Nat} (h : p c = false)
    (r : PyStr) : (u ++ c :: r).dropWhile p = u.dropWhile p ++ c :: r := by
  induction u with
  | nil => simp [h]
  | cons d u ih =>
      cases hd : p d with
      | true => rw [List.cons_append, List.dropWhile_cons_of_pos hd, ih,
          List.dropWhile_cons_of_pos hd]
      | false => simp [hd]

theorem rstripWhile_append_last {p : Nat → Bool} (s : PyStr) {c : Nat} (h : p c = false)
    (t : PyStr) : rstripWhile p (s ++ c :: t) = s ++ c :: rstripWhile p t := by
  unfold rstripWhile
  rw [List.reverse_append, List.reverse_cons, List.append_assoc, List.singleton_append,
    dropWhile_append_of_neg _ h]
  simp

theorem mem_dropWhile_of_neg {p : Nat → Bool} {s : PyStr} {c : Nat} (hc : c ∈ s)
    (h : p c = false) : c ∈ s.dropWhile p := by
  obtain ⟨a, b, rfl⟩ := List.append_of_mem hc
  rw [dropWhile_append_of_neg a h]
  simp

/-- A text with a character that is not white space is not blank. -/
theorem strip_ne_nil {s : PyStr} {c : Nat} (hc : c ∈ s) (h : isSpace c = false) :
    strip s ≠ [] := by
  have hmem : c ∈ ((s.dropWhile isSpace).reverse.dropWhile isSpace).reverse := by
    rw [List.mem_reverse]
    exact mem_dropWhile_of_neg (List.mem_reverse.mpr (mem_dropWhile_of_neg hc h)) h
  exact List.ne_nil_of_mem hmem

-- ============================================================================
-- Splitting at a character
-- ============================================================================

theorem not_mem_of_mem_splitChar {sep : Nat} (s : PyStr) : ∀ part ∈ splitChar sep s, sep ∉ part := by
  induction s with
  | nil =>
      intro part hpart
      rw [List.mem_singleton.mp hpart]
      exact List.not_mem_nil
  | cons c cs ih =>
      intro part hpart
      unfold splitChar at hpart
      by_cases hc : c = sep
      · rw [if_pos hc] at hpart
        rcases List.mem_cons.mp hpart with rfl | hpart
        · exact List.not_mem_nil
        · exact ih part hpart
      · rw [if_neg hc] at hpart
        have hfirst : ∀ l : PyStr, sep ∉ l → sep ∉ c :: l := fun l hl hmem =>
          (List.mem_cons.mp hmem).elim (fun heq => hc heq.symm) hl
        cases hsplit : splitChar sep cs with
        | nil =>
            rw [hsplit] at hpart
            rw [List.mem_singleton.mp hpart]
            exact hfirst [] List.not_mem_nil
        | cons l ls =>
            rw [hsplit] at hpart ih
            rcases List.mem_cons.mp hpart with rfl | hpart
            · exact hfirst l (ih l (List.mem_cons_self ..))
            · exact ih part (List.mem_cons_of_mem _ hpart)

theorem splitChar_of_not_mem {sep : Nat} {part : PyStr} (h : sep ∉ part) : splitChar sep part = [part] := by
  induction part with
  | nil => rfl
  | cons c cs ih =>
      have hc : c ≠ sep := fun heq => h (by rw [heq]; exact List.mem_cons_self ..)
      have hcs : sep ∉ cs := fun hmem => h (List.mem_cons_of_mem _ hmem)
      unfold splitChar
      rw [if_neg hc, ih hcs]
      rfl

theorem splitChar_append {sep : Nat} {part : PyStr} (h : sep ∉ part) (rest : PyStr) :
    splitChar sep (part ++ sep :: rest) = part :: splitChar sep rest := by
  induction part with
  | nil =>
      rw [List.nil_append, splitChar, if_pos rfl]
  | cons c cs ih =>
      have hc : c ≠ sep := fun heq => h (by rw [heq]; exact List.mem_cons_self ..)
      have hcs : sep ∉ cs := fun hmem => h (List.mem_cons_of_mem _ hmem)
      rw [List.cons_append, splitChar, if_neg hc, ih hcs]
      rfl

/-- Splitting undoes joining. -/
theorem splitChar_join {sep : Nat} {parts : List PyStr} (hne : parts ≠ [])
    (h : ∀ part ∈ parts, sep ∉ part) : splitChar sep (join [sep] parts) = parts := by
  induction parts with
  | nil => exact absurd rfl hne
  | cons part parts ih =>
      have hpart := h part (List.mem_cons_self ..)
      cases parts with
      | nil =>
          have hone : join [sep] [part] = part := List.intercalate_singleton ..
          rw [hone]
          exact splitChar_of_not_mem hpart
      | cons next parts =>
          have hcons : join [sep] (part :: next :: parts) = part ++ sep :: join [sep] (next :: parts) := by
            unfold join
            rw [List.intercalate_cons_cons, List.append_assoc]
            rfl
          rw [hcons, splitChar_append hpart,
            ih (List.cons_ne_nil _ _) fun p hp => h p (List.mem_cons_of_mem _ hp)]

end Py
end KineticSdk
