/-
  KineticSdk.Py.RawDecode

  `JSONDecoder.raw_decode` on a text that starts with an array or an object.

  The value is complete at the bracket that closes it, and what follows is not
  looked at: reading takes a text `Closes` describes, whatever stands behind it
  (`closes_of_rawDecode`).  So a value can be read off the front of a text exactly
  when the text begins with one that `json.loads` takes (`rawDecode_ok_iff`).
-/

import KineticSdk.Py.JsonRoundTrip

namespace KineticSdk
namespace Py

/-- Reading up to the end of the first value. -/
def readFirst (lim : Limits) (fl : FloatRepr) : Reader → List Token → Except LoadsError Json
  | r, [] => r.finish
  | r, t :: ts => do
      let r ← Reader.step lim fl r t
      match r.want with
      | .done v => return v
      | _ => readFirst lim fl r ts

/-- `json.JSONDecoder().raw_decode(s)`, for a text that starts with a bracket or a brace. -/
def rawDecode (lim : Limits) (fl : FloatRepr) (s : PyStr) : Except LoadsError Json :=
  readFirst lim fl {} (lexFrom .between s)

/-- The beginning of an array or an object. -/
def Opens (c : Nat) : Prop := c = 91 ∨ c = 123

instance (c : Nat) : Decidable (Opens c) := inferInstanceAs (Decidable (_ ∨ _))

/-- The end of an array or an object. -/
def Token.Closing (t : Token) : Prop := t = .rbrack ∨ t = .rbrace

variable {fl : FloatRepr}

theorem readFirst_step {r r' : Reader} {t : Token} (h : Reader.step {} fl r t = .ok r')
    (hopen : ¬ ∃ v, r'.want = .done v) (ts : List Token) : readFirst {} fl r (t :: ts) = readFirst {} fl r' ts := by
  rw [readFirst, h]
  cases hwant : r'.want with
  | done v => exact absurd ⟨v, hwant⟩ hopen
  | _ =>
      show (match r'.want with | .done v => Except.ok v | _ => readFirst {} fl r' ts) = _
      rw [hwant]

theorem readFirst_done {r r' : Reader} {t : Token} {v : Json} (h : Reader.step {} fl r t = .ok r')
    (hdone : r'.want = .done v) (ts : List Token) : readFirst {} fl r (t :: ts) = .ok v := by
  rw [readFirst, h]
  show (match r'.want with | .done v => Except.ok v | _ => readFirst {} fl r' ts) = _
  rw [hdone]

theorem readFirst_fail {r : Reader} {t : Token} {e : LoadsError} (h : Reader.step {} fl r t = .error e)
    (ts : List Token) : readFirst {} fl r (t :: ts) = .error e := by
  rw [readFirst, h]
  rfl

-- ============================================================================
-- Errors
-- ============================================================================

theorem beginValue_error {stack : List Open} {t : Token} {e : LoadsError}
    (h : Reader.beginValue {} fl stack t = .error e) : e = .decode := by
  have hmap : ∀ {x : Except LoadsError Json}, x.map (Reader.complete stack) = .error e → x = .error e := by
    intro x hx
    cases x with
    | ok v => cases hx
    | error e' => exact congrArg Except.error (Except.error.inj hx)
  cases t with
  | number neg digits tail =>
      have hvalue := hmap h
      rw [numberValue] at hvalue
      split_ifs at hvalue with htail hdigits
      exact absurd hdigits Bool.false_ne_true
  | word s =>
      have hvalue := hmap h
      rw [wordValue] at hvalue
      split_ifs at hvalue
      exact (Except.error.inj hvalue).symm
  | _ =>
      first
        | exact (Except.error.inj h).symm
        | cases h

theorem key_error {stack : List Open} {t : Token} {e : LoadsError} (h : Reader.key stack t = .error e) :
    e = .decode := by
  rw [Reader.key.eq_def] at h
  split at h
  · split at h
    · cases h
    · exact (Except.error.inj h).symm
  · exact (Except.error.inj h).symm

theorem afterValue_error {stack : List Open} {t : Token} {e : LoadsError}
    (h : Reader.afterValue stack t = .error e) : e = .decode := by
  rw [Reader.afterValue.eq_def] at h
  split at h
  all_goals
    first
      | exact (Except.error.inj h).symm
      | split at h
        all_goals
          first
            | exact (Except.error.inj h).symm
            | cases h

/-- Without bounds there is one way to fail. -/
theorem step_error {r : Reader} {t : Token} {e : LoadsError} (h : Reader.step {} fl r t = .error e) : e = .decode := by
  rw [Reader.step] at h
  split at h
  · exact beginValue_error h
  · split at h
    · exact afterValue_error h
    · exact beginValue_error h
  · split at h
    · exact afterValue_error h
    · exact key_error h
  · exact key_error h
  · split at h
    · cases h
    · exact (Except.error.inj h).symm
  · exact afterValue_error h
  · exact (Except.error.inj h).symm

theorem finish_error {r : Reader} {e : LoadsError} (h : r.finish = .error e) : e = .decode := by
  rw [Reader.finish] at h
  split at h
  · cases h
  · exact (Except.error.inj h).symm

theorem readTokens_error {ts : List Token} {r : Reader} {e : LoadsError} (h : readTokens {} fl r ts = .error e) :
    e = .decode := by
  induction ts generalizing r with
  | nil => exact finish_error h
  | cons t ts ih =>
      rw [readTokens, List.foldlM_cons] at h
      cases hstep : Reader.step {} fl r t with
      | error e' =>
          rw [hstep] at h
          cases h
          exact step_error hstep
      | ok r' =>
          rw [hstep] at h
          exact ih h

theorem loads_error {s : PyStr} {e : LoadsError} (h : loads {} fl s = .error e) : e = .decode := readTokens_error h

theorem readFirst_error {ts : List Token} {r : Reader} {e : LoadsError} (h : readFirst {} fl r ts = .error e) :
    e = .decode := by
  induction ts generalizing r with
  | nil => exact finish_error h
  | cons t ts ih =>
      cases hstep : Reader.step {} fl r t with
      | error e' =>
          rw [readFirst_fail hstep] at h
          cases h
          exact step_error hstep
      | ok r' =>
          by_cases hdone : ∃ v, r'.want = .done v
          · obtain ⟨v, hv⟩ := hdone
            rw [readFirst_done hstep hv] at h
            cases h
          · rw [readFirst_step hstep hdone] at h
            exact ih h

theorem rawDecode_error {s : PyStr} {e : LoadsError} (h : rawDecode {} fl s = .error e) : e = .decode := readFirst_error h

-- ============================================================================
-- The closing bracket
-- ============================================================================

theorem complete_open {stack : List Open} (h : stack ≠ []) (v : Json) :
    (Reader.complete stack v).stack ≠ [] ∧ (Reader.complete stack v).want = .more := by
  cases stack with
  | nil => exact absurd rfl h
  | cons o stack => cases o <;> exact ⟨List.cons_ne_nil _ _, rfl⟩

/-- The reader stands inside an array or an object. -/
def Reader.Within (r : Reader) : Prop := r.stack ≠ [] ∧ ∀ v, r.want ≠ .done v

theorem complete_within {stack : List Open} (h : stack ≠ []) (v : Json) : (Reader.complete stack v).Within := by
  obtain ⟨hstack, hwant⟩ := complete_open h v
  exact ⟨hstack, fun w => by rw [hwant]; exact fun h => nomatch h⟩

theorem beginValue_within {stack : List Open} {t : Token} {r : Reader} (hstack : stack ≠ [])
    (h : Reader.beginValue {} fl stack t = .ok r) : r.Within := by
  have hmap : ∀ {x : Except LoadsError Json}, x.map (Reader.complete stack) = .ok r → r.Within := by
    intro x hx
    cases x with
    | error e => cases hx
    | ok v =>
        cases hx
        exact complete_within hstack v
  cases t with
  | str s =>
      cases h
      exact complete_within hstack _
  | number neg digits tail => exact hmap h
  | word s => exact hmap h
  | lbrack =>
      cases h
      exact ⟨List.cons_ne_nil _ _, fun v h => nomatch h⟩
  | lbrace =>
      cases h
      exact ⟨List.cons_ne_nil _ _, fun v h => nomatch h⟩
  | _ => cases h

theorem key_within {stack : List Open} {t : Token} {r : Reader} (h : Reader.key stack t = .ok r) : r.Within := by
  rw [Reader.key.eq_def] at h
  split at h
  · split at h
    · cases h
      exact ⟨List.cons_ne_nil _ _, fun v h => nomatch h⟩
    · cases h
  · cases h

theorem afterValue_within {stack : List Open} {t : Token} {r : Reader} (h : Reader.afterValue stack t = .ok r) :
    r.Within ∨ (∃ v, r = ⟨[], .done v⟩) ∧ t.Closing := by
  have hcomplete : ∀ (stack : List Open) v, (Reader.complete stack v).Within ∨ ∃ w, Reader.complete stack v = ⟨[], .done w⟩ := by
    intro stack v
    by_cases hstack : stack = []
    · rw [hstack]
      exact .inr ⟨v, rfl⟩
    · exact .inl (complete_within hstack v)
  rw [Reader.afterValue.eq_def] at h
  split at h
  · split at h
    · cases h
      exact .inl ⟨List.cons_ne_nil _ _, fun v h => nomatch h⟩
    · cases h
      exact .inl ⟨List.cons_ne_nil _ _, fun v h => nomatch h⟩
    · cases h
  · split at h
    · cases h
      exact (hcomplete _ _).imp_right fun h => ⟨h, .inl rfl⟩
    · cases h
  · split at h
    · cases h
      exact (hcomplete _ _).imp_right fun h => ⟨h, .inr rfl⟩
    · cases h
  · cases h

/-- Inside an array or an object a token leads on, or closes the outermost one. -/
theorem step_within {r r' : Reader} {t : Token} (hr : r.Within) (h : Reader.step {} fl r t = .ok r') :
    r'.Within ∨ (∃ v, r' = ⟨[], .done v⟩) ∧ t.Closing := by
  rw [Reader.step] at h
  split at h
  · exact .inl (beginValue_within hr.1 h)
  · split at h
    · exact afterValue_within h
    · exact .inl (beginValue_within hr.1 h)
  · split at h
    · exact afterValue_within h
    · exact .inl (key_within h)
  · exact .inl (key_within h)
  · split at h
    · cases h
      exact .inl ⟨hr.1, fun v h => nomatch h⟩
    · cases h
  · exact afterValue_within h
  · cases h

/-- After a whole value no token is taken. -/
theorem Reads.done {r r' : Reader} {ts : List Token} {v : Json} (hwant : r.want = .done v) (h : Reads fl r ts r') :
    ts = [] ∧ r' = r := by
  cases ts with
  | nil => exact ⟨rfl, (Except.ok.inj h).symm⟩
  | cons t ts =>
      have hstep : Reader.step {} fl r t = .error .decode := by rw [Reader.step, hwant]
      rw [Reads, List.foldlM_cons, hstep] at h
      cases h

theorem start_not_done : ∀ v, (({} : Reader)).want ≠ .done v := fun v h => by cases h

/-- What the tokens of a whole value are read as, whatever follows them. -/
theorem readFirst_of_reads {r r' : Reader} {ts : List Token} {w : Json} (hr : ∀ v, r.want ≠ .done v)
    (h : Reads fl r ts r') (hw : r'.want = .done w) (us : List Token) : readFirst {} fl r (ts ++ us) = .ok w := by
  induction ts generalizing r with
  | nil =>
      cases h
      exact absurd hw (hr w)
  | cons t ts ih =>
      rw [Reads, List.foldlM_cons] at h
      cases hstep : Reader.step {} fl r t with
      | error e =>
          rw [hstep] at h
          cases h
      | ok r₁ =>
          rw [hstep] at h
          rw [List.cons_append]
          by_cases hdone : ∃ v, r₁.want = .done v
          · obtain ⟨v, hv⟩ := hdone
            obtain ⟨-, rfl⟩ := Reads.done hv h
            rw [hv] at hw
            cases hw
            exact readFirst_done hstep hv _
          · rw [readFirst_step hstep hdone]
            exact ih (fun v hv => hdone ⟨v, hv⟩) h

/-- Reading goes through some tokens, or ends at one of them, which is a closing one. -/
theorem readFirst_append {r : Reader} {ts us : List Token} {w : Json} (hr : r.Within)
    (h : readFirst {} fl r (ts ++ us) = .ok w) :
    (∃ r', r'.Within ∧ Reads fl r ts r' ∧ readFirst {} fl r' us = .ok w) ∨
      ∃ before t after, ts = before ++ t :: after ∧ t.Closing ∧ Reads fl r (before ++ [t]) ⟨[], .done w⟩ := by
  induction ts generalizing r with
  | nil => exact .inl ⟨r, hr, .nil fl r, h⟩
  | cons t ts ih =>
      rw [List.cons_append] at h
      cases hstep : Reader.step {} fl r t with
      | error e =>
          rw [readFirst_fail hstep] at h
          cases h
      | ok r₁ =>
          rcases step_within hr hstep with hwithin | ⟨⟨v, rfl⟩, hclosing⟩
          · rw [readFirst_step hstep fun ⟨v, hv⟩ => hwithin.2 v hv] at h
            rcases ih hwithin h with ⟨r', hr', hreads, hus⟩ | ⟨before, t', after, rfl, hclosing, hreads⟩
            · exact .inl ⟨r', hr', .cons hstep hreads, hus⟩
            · exact .inr ⟨t :: before, t', after, rfl, hclosing, .cons hstep hreads⟩
          · rw [readFirst_done hstep rfl] at h
            cases h
            exact .inr ⟨[], t, ts, rfl, hclosing, .one hstep⟩

-- ============================================================================
-- Characters
-- ============================================================================

theorem not_closing_numberTokens {s : PyStr} : ∀ t ∈ numberTokens s, ¬ t.Closing := by
  intro t ht hclosing
  rw [numberTokens.eq_def] at ht
  split at ht
  · rw [List.mem_singleton.mp ht] at hclosing
    exact hclosing.elim (fun h => nomatch h) fun h => nomatch h
  · rw [List.mem_singleton.mp ht] at hclosing
    exact hclosing.elim (fun h => nomatch h) fun h => nomatch h
  · rcases List.mem_cons.mp ht with rfl | ht
    · exact hclosing.elim (fun h => nomatch h) fun h => nomatch h
    · rw [List.mem_singleton.mp ht] at hclosing
      exact hclosing.elim (fun h => nomatch h) fun h => nomatch h

theorem not_closing_finish {st : Lexer} : ∀ t ∈ st.finish, ¬ t.Closing := by
  intro t ht
  cases st with
  | between => cases ht
  | dead => cases ht
  | number text => exact not_closing_numberTokens t ht
  | _ =>
      rw [List.mem_singleton.mp ht]
      exact fun h => h.elim (fun h => nomatch h) fun h => nomatch h

/-- At most one token, and after a closing bracket nothing is open. -/
def Single (p : List Token × Lexer) : Prop :=
  (p.1 = [] ∨ ∃ t, p.1 = [t]) ∧ ∀ t ∈ p.1, t.Closing → p.2 = .between

theorem single_ite {c : Prop} [Decidable c] {p q : List Token × Lexer} (hp : Single p) (hq : Single q) :
    Single (if c then p else q) := by
  by_cases h : c
  · rw [if_pos h]
    exact hp
  · rw [if_neg h]
    exact hq

theorem single_start (c : Nat) : Single (Lexer.start c) := by
  have hbetween : ∀ t, Single ([t], .between) := fun t => ⟨.inr ⟨t, rfl⟩, fun _ _ _ => rfl⟩
  have hnone : ∀ st, Single ([], st) := fun st => ⟨.inl rfl, fun t ht => nomatch ht⟩
  have hbad : Single ([.bad], .dead) := ⟨.inr ⟨.bad, rfl⟩, fun t ht hclosing => by
    rw [List.mem_singleton.mp ht] at hclosing
    exact hclosing.elim (fun h => nomatch h) fun h => nomatch h⟩
  rw [Lexer.start]
  exact single_ite (hnone _) (single_ite (hbetween _) (single_ite (hbetween _) (single_ite (hbetween _)
    (single_ite (hbetween _) (single_ite (hbetween _) (single_ite (hbetween _) (single_ite (hnone _)
      (single_ite (hnone _) (single_ite (hnone _) hbad)))))))))

theorem of_append_cons {us vs before after : List Token} {t : Token} (h : us ++ vs = before ++ t :: after)
    (hus : ∀ u ∈ us, ¬ u.Closing) (hvs : vs = [] ∨ ∃ v, vs = [v]) (ht : t.Closing) : after = [] ∧ t ∈ vs := by
  rcases hvs with rfl | ⟨v, rfl⟩
  · rw [List.append_nil] at h
    exact absurd ht (hus t (by rw [h]; exact List.mem_append_right _ (List.mem_cons_self ..)))
  · rcases List.eq_nil_or_concat after with rfl | ⟨front, last, rfl⟩
    · obtain ⟨-, heq⟩ := List.append_inj' h rfl
      rw [List.singleton_inj.mp heq]
      exact ⟨rfl, List.mem_singleton_self _⟩
    · have hlast : us ++ [v] = (before ++ t :: front) ++ [last] := by
        rw [h, List.concat_eq_append, List.append_assoc, List.cons_append]
      have hmem : t ∈ us := by
        rw [(List.append_inj' hlast rfl).1]
        exact List.mem_append_right _ (List.mem_cons_self ..)
      exact absurd ht (hus t hmem)

/-- A closing token is the last one its character gives, and after it nothing is open. -/
theorem step_closing {st : Lexer} {c : Nat} {before after : List Token} {t : Token}
    (h : (st.step c).1 = before ++ t :: after) (ht : t.Closing) : after = [] ∧ (st.step c).2 = .between := by
  obtain ⟨hstart, hbetween⟩ := single_start c
  -- tokens that are finished here, then those that begin
  have hmixed : ∀ us, (∀ u ∈ us, ¬ u.Closing) → us ++ (Lexer.start c).1 = before ++ t :: after →
      after = [] ∧ (Lexer.start c).2 = .between := by
    intro us hus heq
    obtain ⟨hafter, hmem⟩ := of_append_cons heq hus hstart ht
    exact ⟨hafter, hbetween t hmem ht⟩
  have hnone : ∀ {us : List Token}, (∀ u ∈ us, ¬ u.Closing) → us = before ++ t :: after → False := by
    intro us hus heq
    exact hus t (by rw [heq]; exact List.mem_append_right _ (List.mem_cons_self ..)) ht
  have hempty : ∀ u ∈ ([] : List Token), ¬ u.Closing := fun u hu => nomatch hu
  have hplain : ∀ s, ∀ u ∈ [Token.str s], ¬ u.Closing := fun s u hu hclosing => by
    rw [List.mem_singleton.mp hu] at hclosing
    exact hclosing.elim (fun h => nomatch h) fun h => nomatch h
  have hbad : ∀ u ∈ [Token.bad], ¬ u.Closing := fun u hu hclosing => by
    rw [List.mem_singleton.mp hu] at hclosing
    exact hclosing.elim (fun h => nomatch h) fun h => nomatch h
  have hword : ∀ s, ∀ u ∈ [Token.word s], ¬ u.Closing := fun s u hu hclosing => by
    rw [List.mem_singleton.mp hu] at hclosing
    exact hclosing.elim (fun h => nomatch h) fun h => nomatch h
  revert h
  rw [Lexer.step.eq_def]
  cases st with
  | between => exact fun h => hmixed [] hempty h
  | number text =>
      dsimp only
      split_ifs
      · exact fun h => absurd h (hnone hempty)
      · exact fun h => absurd h (hnone hempty)
      · exact fun h => hmixed _ not_closing_numberTokens h
  | word text =>
      dsimp only
      split_ifs
      · exact fun h => absurd h (hnone hempty)
      · exact fun h => hmixed [.word text] (hword text) h
  | string units =>
      dsimp only
      split_ifs
      · exact fun h => absurd h (hnone (hplain _))
      · exact fun h => absurd h (hnone hempty)
      · exact fun h => absurd h (hnone hbad)
      · exact fun h => absurd h (hnone hempty)
  | escape units =>
      dsimp only
      split_ifs
      · exact fun h => absurd h (hnone hempty)
      · split
        · exact fun h => absurd h (hnone hempty)
        · exact fun h => absurd h (hnone hbad)
  | unicode units value digits =>
      dsimp only
      split
      · exact fun h => absurd h (hnone hbad)
      · split_ifs
        · exact fun h => absurd h (hnone hempty)
        · exact fun h => absurd h (hnone hempty)
  | dead => exact fun h => absurd h (hnone hempty)

-- ============================================================================
-- Texts that close a value
-- ============================================================================

/-- From where the lexer and the reader stand the text completes a value, whatever
    follows it. -/
def Closes (fl : FloatRepr) (st : Lexer) (r : Reader) (s : PyStr) (w : Json) : Prop :=
  ∃ ts, (∀ x, lexFrom st (s ++ x) = ts ++ lexFrom .between x) ∧ Reads fl r ts ⟨[], .done w⟩

theorem closes_of_readFirst {st : Lexer} {r : Reader} {s : PyStr} {w : Json} (hr : r.Within)
    (h : readFirst {} fl r (lexFrom st s) = .ok w) : ∃ t, t <+: s ∧ Closes fl st r t w := by
  induction s generalizing st r with
  | nil =>
      have hfinish : readFirst {} fl r (st.finish ++ []) = .ok w := by
        rw [List.append_nil]
        exact h
      rcases readFirst_append hr hfinish with ⟨r', hr', -, hend⟩ | ⟨before, t, after, heq, hclosing, -⟩
      · rw [readFirst, Reader.finish] at hend
        split at hend
        · rename_i v hv
          exact absurd hv (hr'.2 v)
        · cases hend
      · exact absurd hclosing (not_closing_finish t
          (by rw [heq]; exact List.mem_append_right _ (List.mem_cons_self ..)))
  | cons c s ih =>
      rw [lexFrom] at h
      rcases readFirst_append hr h with ⟨r', hr', hreads, hrest⟩ | ⟨before, t, after, heq, hclosing, hreads⟩
      · obtain ⟨t, hstarts, ts, hlex, hts⟩ := ih hr' hrest
        refine ⟨c :: t, (List.prefix_cons_inj c).mpr hstarts, (st.step c).1 ++ ts, fun x => ?_, hreads.append hts⟩
        rw [List.cons_append, lexFrom, hlex, List.append_assoc]
      · obtain ⟨rfl, hbetween⟩ := step_closing heq hclosing
        refine ⟨[c], (List.prefix_cons_inj c).mpr List.nil_prefix, before ++ [t], fun x => ?_, hreads⟩
        rw [List.singleton_append, lexFrom, heq, hbetween]

/-- An opening bracket or brace is a token, after which the reader stands inside. -/
theorem lex_opens {c : Nat} (h : Opens c) (s : PyStr) : ∃ t r, lexFrom .between (c :: s) = t :: lexFrom .between s
    ∧ Reader.step {} fl {} t = .ok r ∧ r.Within := by
  rcases h with rfl | rfl
  · exact ⟨.lbrack, _, rfl, rfl, List.cons_ne_nil _ _, fun v h => nomatch h⟩
  · exact ⟨.lbrace, _, rfl, rfl, List.cons_ne_nil _ _, fun v h => nomatch h⟩

theorem closes_of_rawDecode {c : Nat} {s : PyStr} {w : Json} (hc : Opens c) (h : rawDecode {} fl (c :: s) = .ok w) :
    ∃ t, t <+: s ∧ Closes fl .between {} (c :: t) w := by
  obtain ⟨token, r, hlex, hstep, hr⟩ := @lex_opens fl c hc s
  rw [rawDecode, hlex, readFirst_step hstep fun ⟨v, hv⟩ => hr.2 v hv] at h
  obtain ⟨t, hstarts, ts, hts, hreads⟩ := closes_of_readFirst hr h
  refine ⟨t, hstarts, token :: ts, fun x => ?_, .cons hstep hreads⟩
  have hwhole : lexFrom .between (c :: (t ++ x)) = token :: lexFrom .between (t ++ x) := by
    rcases hc with rfl | rfl
    · cases hlex
      rfl
    · cases hlex
      rfl
  rw [List.cons_append, hwhole, hts, List.cons_append]

namespace Closes

variable {s : PyStr} {w : Json}

/-- Reading takes the value off the front. -/
theorem rawDecode (h : Closes fl .between {} s w) (x : PyStr) : rawDecode {} fl (s ++ x) = .ok w := by
  obtain ⟨ts, hlex, hreads⟩ := h
  rw [Py.rawDecode, hlex]
  exact readFirst_of_reads start_not_done hreads rfl _

theorem loads (h : Closes fl .between {} s w) : loads {} fl s = .ok w := by
  obtain ⟨ts, hlex, hreads⟩ := h
  have hwhole := hlex []
  rw [List.append_nil] at hwhole
  rw [Py.loads, readTokens, hwhole, List.foldlM_append, hreads]
  rfl

/-- With more text, the whole is read only if there is nothing in it. -/
theorem loads_append (h : Closes fl .between {} s w) (x : PyStr) :
    (lexFrom .between x = [] ∧ Py.loads {} fl (s ++ x) = .ok w) ∨ Py.loads {} fl (s ++ x) = .error .decode := by
  obtain ⟨ts, hlex, hreads⟩ := h
  rw [Py.loads, readTokens, hlex]
  cases hx : lexFrom .between x with
  | nil =>
      rw [List.append_nil, hreads]
      exact .inl ⟨rfl, rfl⟩
  | cons t us =>
      rw [List.foldlM_append, hreads]
      exact .inr rfl

end Closes

/-- A value can be read off the front of a text exactly when `json.loads` takes a
    beginning of it. -/
theorem rawDecode_ok_iff {c : Nat} {s : PyStr} (hc : Opens c) :
    (∃ w, rawDecode {} fl (c :: s) = .ok w) ↔ ∃ t, t <+: s ∧ ∃ w, loads {} fl (c :: t) = .ok w := by
  constructor
  · rintro ⟨w, h⟩
    obtain ⟨t, hstarts, hcloses⟩ := closes_of_rawDecode hc h
    exact ⟨t, hstarts, w, hcloses.loads⟩
  · rintro ⟨t, ⟨x, rfl⟩, w, h⟩
    have hfirst : rawDecode {} fl (c :: t) = .ok w := by
      rw [loads, readTokens] at h
      cases hfold : (lexFrom .between (c :: t)).foldlM (Reader.step {} fl) {} with
      | error e =>
          rw [hfold] at h
          cases h
      | ok r =>
          rw [hfold] at h
          replace h : r.finish = .ok w := h
          rw [Reader.finish] at h
          split at h
          · rename_i v hv
            cases h
            have hread := readFirst_of_reads start_not_done hfold hv []
            rw [List.append_nil] at hread
            exact hread
          · cases h
    obtain ⟨front, ⟨y, rfl⟩, hcloses⟩ := closes_of_rawDecode hc hfirst
    refine ⟨w, ?_⟩
    rw [List.append_assoc]
    exact hcloses.rawDecode (y ++ x)

-- ============================================================================
-- Texts without tokens, and texts in front of a value
-- ============================================================================

/-- A token that is no value of several parts, if it is one at all. -/
def Token.Scalar (t : Token) : Prop := (∃ neg digits tail, t = .number neg digits tail) ∨ (∃ s, t = .word s) ∨ t = .bad

theorem numberTokens_head (s : PyStr) : ∃ t ts, numberTokens s = t :: ts ∧ t.Scalar := by
  rw [numberTokens.eq_def]
  split
  · exact ⟨_, _, rfl, .inr (.inr rfl)⟩
  · exact ⟨_, _, rfl, .inl ⟨_, _, _, rfl⟩⟩
  · exact ⟨_, _, rfl, .inl ⟨_, _, _, rfl⟩⟩

theorem lex_word_head (text s : PyStr) : ∃ t ts, lexFrom (.word text) s = t :: ts ∧ t.Scalar := by
  induction s generalizing text with
  | nil => exact ⟨_, _, rfl, .inr (.inl ⟨text, rfl⟩)⟩
  | cons c s ih =>
      rw [lexFrom, Lexer.step.eq_def]
      dsimp only
      split
      · exact ih _
      · exact ⟨_, _, rfl, .inr (.inl ⟨text, rfl⟩)⟩

theorem lex_number_head (text s : PyStr) : ∃ t ts, lexFrom (.number text) s = t :: ts ∧ t.Scalar := by
  induction s generalizing text with
  | nil => exact numberTokens_head text
  | cons c s ih =>
      rw [lexFrom, Lexer.step.eq_def]
      dsimp only
      split
      · exact ih _
      · split
        · exact lex_word_head _ s
        · obtain ⟨t, ts, heq, hscalar⟩ := numberTokens_head text
          rw [heq]
          exact ⟨t, _, rfl, hscalar⟩

theorem step_string {units : List (Bool × Nat)} {st : Lexer} (c : Nat)
    (h : st = .string units ∨ st = .escape units ∨ ∃ value digits, st = .unicode units value digits) :
    (st.step c).1 ≠ [] ∨ ∃ units, (st.step c).2 = .string units ∨ (st.step c).2 = .escape units
      ∨ ∃ value digits, (st.step c).2 = .unicode units value digits := by
  rw [Lexer.step.eq_def]
  rcases h with rfl | rfl | ⟨value, digits, rfl⟩
  · dsimp only
    split_ifs
    · exact .inl (List.cons_ne_nil _ _)
    · exact .inr ⟨_, .inr (.inl rfl)⟩
    · exact .inl (List.cons_ne_nil _ _)
    · exact .inr ⟨_, .inl rfl⟩
  · dsimp only
    split_ifs
    · exact .inr ⟨_, .inr (.inr ⟨_, _, rfl⟩)⟩
    · split
      · exact .inr ⟨_, .inl rfl⟩
      · exact .inl (List.cons_ne_nil _ _)
  · dsimp only
    split
    · exact .inl (List.cons_ne_nil _ _)
    · split_ifs
      · exact .inr ⟨_, .inl rfl⟩
      · exact .inr ⟨_, .inr (.inr ⟨_, _, rfl⟩)⟩

theorem lex_string_ne_nil {units : List (Bool × Nat)} {st : Lexer} (s : PyStr)
    (h : st = .string units ∨ st = .escape units ∨ ∃ value digits, st = .unicode units value digits) :
    lexFrom st s ≠ [] := by
  induction s generalizing units st with
  | nil => rcases h with rfl | rfl | ⟨value, digits, rfl⟩ <;> exact List.cons_ne_nil _ _
  | cons c s ih =>
      rw [lexFrom]
      intro hnil
      obtain ⟨hfirst, hrest⟩ := List.append_eq_nil_iff.mp hnil
      rcases step_string c h with hne | ⟨units', hnext⟩
      · exact hne hfirst
      · exact ih hnext hrest

/-- A text without tokens is white space. -/
theorem blank_of_lex {s : PyStr} (h : lexFrom .between s = []) : ∀ c ∈ s, isJsonSpace c = true := by
  induction s with
  | nil => exact fun c hc => nomatch hc
  | cons c s ih =>
      obtain ⟨hfirst, hrest⟩ := List.append_eq_nil_iff.mp h
      by_cases hspace : isJsonSpace c = true
      · have hbetween : (Lexer.start c).2 = .between := by rw [Lexer.start, if_pos hspace]
        intro d hd
        rcases List.mem_cons.mp hd with rfl | hd
        · exact hspace
        · exact ih (hbetween ▸ hrest) d hd
      · exfalso
        replace hfirst : (Lexer.start c).1 = [] := hfirst
        replace hrest : lexFrom (Lexer.start c).2 s = [] := hrest
        rw [Lexer.start, if_neg hspace] at hfirst hrest
        split_ifs at hfirst hrest
        · exact lex_string_ne_nil s (.inl rfl) hrest
        · obtain ⟨t, ts, heq, -⟩ := lex_number_head [c] s
          rw [heq] at hrest
          cases hrest
        · obtain ⟨t, ts, heq, -⟩ := lex_word_head [c] s
          rw [heq] at hrest
          cases hrest

/-- The lexer is not inside a string. -/
def Lexer.Flat : Lexer → Prop
  | .between | .number _ | .word _ => True
  | _ => False

/-- Outside strings, unless this is no JSON. -/
def FlatOrBad (p : List Token × Lexer) : Prop := p.2.Flat ∨ .bad ∈ p.1

theorem flatOrBad_ite {c : Prop} [Decidable c] {p q : List Token × Lexer} (hp : FlatOrBad p) (hq : FlatOrBad q) :
    FlatOrBad (if c then p else q) := by
  by_cases h : c
  · rw [if_pos h]
    exact hp
  · rw [if_neg h]
    exact hq

theorem start_flat {c : Nat} (hc : c ≠ 34) : FlatOrBad (Lexer.start c) := by
  have hflat : ∀ {ts : List Token} {st : Lexer}, st.Flat → FlatOrBad (ts, st) := fun h => .inl h
  have hbad : FlatOrBad ([.bad], .dead) := .inr (List.mem_singleton_self _)
  rw [Lexer.start, if_neg hc]
  exact flatOrBad_ite (hflat trivial) (flatOrBad_ite (hflat trivial) (flatOrBad_ite (hflat trivial)
    (flatOrBad_ite (hflat trivial) (flatOrBad_ite (hflat trivial) (flatOrBad_ite (hflat trivial)
      (flatOrBad_ite (hflat trivial) (flatOrBad_ite (hflat trivial) (flatOrBad_ite (hflat trivial) hbad))))))))

theorem step_flat {st : Lexer} {c : Nat} (hst : st.Flat) (hc : c ≠ 34) : FlatOrBad (st.step c) := by
  have hmixed : ∀ ts, FlatOrBad (ts ++ (Lexer.start c).1, (Lexer.start c).2) := fun ts =>
    (start_flat hc).imp_right fun h => List.mem_append_right _ h
  rw [Lexer.step.eq_def]
  cases st with
  | between => exact start_flat hc
  | number text => exact flatOrBad_ite (.inl trivial) (flatOrBad_ite (.inl trivial) (hmixed _))
  | word text => exact flatOrBad_ite (.inl trivial) (hmixed [.word text])
  | _ => cases hst

/-- Outside strings an opening bracket is a token. -/
theorem step_opens {st : Lexer} {c : Nat} (hst : st.Flat) (hc : Opens c) :
    .lbrack ∈ (st.step c).1 ∨ .lbrace ∈ (st.step c).1 := by
  have hstart : .lbrack ∈ (Lexer.start c).1 ∨ .lbrace ∈ (Lexer.start c).1 := by
    rcases hc with rfl | rfl
    · exact .inl (List.mem_singleton_self _)
    · exact .inr (List.mem_singleton_self _)
  have hmixed : ∀ ts, .lbrack ∈ ts ++ (Lexer.start c).1 ∨ .lbrace ∈ ts ++ (Lexer.start c).1 := fun ts =>
    hstart.imp (List.mem_append_right _) (List.mem_append_right _)
  have hchar : isNumberChar c = false ∧ isLetter c = false := by
    rcases hc with rfl | rfl <;> exact ⟨rfl, rfl⟩
  rw [Lexer.step.eq_def]
  cases st with
  | between => exact hstart
  | number text =>
      dsimp only
      rw [hchar.1, hchar.2, Bool.and_false, if_neg Bool.false_ne_true, if_neg Bool.false_ne_true]
      exact hmixed _
  | word text =>
      dsimp only
      rw [hchar.2, if_neg Bool.false_ne_true]
      exact hmixed [.word text]
  | _ => cases hst

/-- A bracket behind a text without quotes does not stay without a token. -/
theorem lex_bracket {st : Lexer} {s : PyStr} {c : Nat} (hst : st.Flat) (hs : 34 ∉ s) (hc : Opens c) (rest : PyStr) :
    ∃ t ∈ lexFrom st (s ++ c :: rest), t = .lbrack ∨ t = .lbrace ∨ t = .bad := by
  induction s generalizing st with
  | nil =>
      rw [List.nil_append, lexFrom]
      rcases step_opens hst hc with h | h
      · exact ⟨_, List.mem_append_left _ h, .inl rfl⟩
      · exact ⟨_, List.mem_append_left _ h, .inr (.inl rfl)⟩
  | cons d s ih =>
      rw [List.cons_append, lexFrom]
      rcases step_flat hst fun h : d = 34 => hs (h ▸ List.mem_cons_self ..) with hflat | hbad
      · obtain ⟨t, ht, hkind⟩ := ih hflat fun h => hs (List.mem_cons_of_mem _ h)
        exact ⟨t, List.mem_append_right _ ht, hkind⟩
      · exact ⟨_, List.mem_append_left _ hbad, .inr (.inr rfl)⟩

/-- A bare token in front of a bracket makes no JSON. -/
theorem not_loads_scalar {st : Lexer} {s : PyStr} {w : Json} (hhead : ∃ t ts, lexFrom st s = t :: ts ∧ t.Scalar)
    (hbracket : ∃ t ∈ lexFrom st s, t = .lbrack ∨ t = .lbrace ∨ t = .bad) :
    readTokens {} fl {} (lexFrom st s) ≠ .ok w := by
  intro h
  obtain ⟨t, ts, heq, hscalar⟩ := hhead
  rw [heq] at h hbracket
  rw [readTokens, List.foldlM_cons] at h
  have hdone : ∀ {r : Reader}, Reader.step {} fl {} t = .ok r → ∃ v, r.want = .done v := by
    intro r hstep
    have hvalue : ∀ {x : Except LoadsError Json}, x.map (Reader.complete []) = .ok r → ∃ v, r.want = .done v := by
      intro x hx
      cases x with
      | error e => cases hx
      | ok v =>
          cases hx
          exact ⟨v, rfl⟩
    rcases hscalar with ⟨neg, digits, tail, rfl⟩ | ⟨word, rfl⟩ | rfl
    · exact hvalue hstep
    · exact hvalue hstep
    · cases hstep
  cases hstep : Reader.step {} fl {} t with
  | error e =>
      rw [hstep] at h
      cases h
  | ok r =>
      rw [hstep] at h
      obtain ⟨v, hv⟩ := hdone hstep
      cases ts with
      | cons t' ts =>
          replace h : ((t' :: ts).foldlM (Reader.step {} fl) r >>= fun r => r.finish) = .ok w := h
          have hfail : Reader.step {} fl r t' = .error .decode := by rw [Reader.step, hv]
          rw [List.foldlM_cons, hfail] at h
          cases h
      | nil =>
          obtain ⟨t', ht', hkind⟩ := hbracket
          rw [List.mem_singleton.mp ht'] at hkind
          rcases hscalar with ⟨neg, digits, tail, rfl⟩ | ⟨word, rfl⟩ | rfl
          · rcases hkind with hkind | hkind | hkind <;> cases hkind
          · rcases hkind with hkind | hkind | hkind <;> cases hkind
          · cases hstep

/-- Prose in front of a bracket makes the whole no JSON. -/
theorem not_loads_prose {c d : Nat} {s : PyStr} {w : Json} (hc : ¬ Opens c) (hquote : 34 ∉ c :: s)
    (hspace : isJsonSpace c = false) (hd : Opens d) (rest : PyStr) : loads {} fl (c :: (s ++ d :: rest)) ≠ .ok w := by
  have hne : c ≠ 34 := fun h => hquote (h ▸ List.mem_cons_self ..)
  have hs : 34 ∉ s := fun h => hquote (List.mem_cons_of_mem _ h)
  intro h
  rw [loads, lexFrom] at h
  replace h : readTokens {} fl {} ((Lexer.start c).1 ++ lexFrom (Lexer.start c).2 (s ++ d :: rest)) = .ok w := h
  rw [Lexer.start, if_neg (by rw [hspace]; exact Bool.false_ne_true), if_neg fun h => hc (.inl h)] at h
  by_cases h93 : c = 93
  · rw [if_pos h93] at h
    cases h
  rw [if_neg h93, if_neg fun h => hc (.inr h)] at h
  by_cases h125 : c = 125
  · rw [if_pos h125] at h
    cases h
  rw [if_neg h125] at h
  by_cases h58 : c = 58
  · rw [if_pos h58] at h
    cases h
  rw [if_neg h58] at h
  by_cases h44 : c = 44
  · rw [if_pos h44] at h
    cases h
  rw [if_neg h44, if_neg hne] at h
  by_cases hnumber : (isDigitChar c || decide (c = 45)) = true
  · rw [if_pos hnumber] at h
    exact not_loads_scalar (lex_number_head [c] _) (@lex_bracket (.number [c]) s d trivial hs hd rest) h
  rw [if_neg hnumber] at h
  by_cases hword : isLetter c = true
  · rw [if_pos hword] at h
    exact not_loads_scalar (lex_word_head [c] _) (@lex_bracket (.word [c]) s d trivial hs hd rest) h
  rw [if_neg hword] at h
  cases h

/-- No text that closes a value goes on to close another. -/
theorem Closes.eq_of_prefix {s s' : PyStr} {w w' : Json} (h : Closes fl .between {} s w)
    (h' : Closes fl .between {} s' w') (hstarts : s' <+: s)
    (hlast : ∀ c, s.getLast? = some c → isJsonSpace c = false) : s' = s := by
  obtain ⟨x, rfl⟩ := hstarts
  rcases h'.loads_append x with ⟨hlex, -⟩ | herror
  · rcases List.eq_nil_or_concat x with rfl | ⟨y, c, rfl⟩
    · rw [List.append_nil]
    · have hspace := blank_of_lex hlex c (by rw [List.concat_eq_append]; exact List.mem_append_right _ (List.mem_singleton_self _))
      have hopen := hlast c (by rw [List.concat_eq_append, ← List.append_assoc, List.getLast?_concat])
      rw [hspace] at hopen
      cases hopen
  · rw [h.loads] at herror
    cases herror

-- ============================================================================
-- Printed values
-- ============================================================================

/-- An array or an object. -/
def Json.isContainer : Json → Bool
  | .arr _ | .obj _ => true
  | _ => false

/-- A printed array or object is its tokens, whatever stands behind it. -/
theorem lex_container {ensureAscii : Bool} {v : Json} (hv : v.isContainer = true) (h : Readable ensureAscii fl v)
    (rest : PyStr) : lexFrom .between (dumps ensureAscii v ++ rest) = tokens v ++ lexFrom .between rest := by
  cases v with
  | arr xs =>
      have hxs := lex_dumpsList xs h (delimited_rbrack rest)
      have htext : dumps ensureAscii (.arr xs) ++ rest = 91 :: (dumpsList ensureAscii xs ++ (py "]" ++ rest)) := by
        show (91 :: dumpsList ensureAscii xs ++ py "]") ++ rest = _
        rw [List.append_assoc, List.cons_append]
      rw [htext]
      show .lbrack :: lexFrom .between _ = .lbrack :: (tokensList xs ++ [.rbrack]) ++ _
      rw [hxs, List.cons_append, List.append_assoc]
      rfl
  | obj kvs =>
      have hkvs := lex_dumpsFields kvs h.2 (delimited_rbrace rest)
      have htext : dumps ensureAscii (.obj kvs) ++ rest
          = 123 :: (dumpsFields ensureAscii kvs ++ (py "\x7d" ++ rest)) := by
        show (123 :: dumpsFields ensureAscii kvs ++ py "\x7d") ++ rest = _
        rw [List.append_assoc, List.cons_append]
      rw [htext]
      show .lbrace :: lexFrom .between _ = .lbrace :: (tokensFields kvs ++ [.rbrace]) ++ _
      rw [hkvs, List.cons_append, List.append_assoc]
      rfl
  | _ => cases hv

theorem closes_dumps {ensureAscii : Bool} {v : Json} (hv : v.isContainer = true) (h : Readable ensureAscii fl v) :
    Closes fl .between {} (dumps ensureAscii v) v :=
  ⟨tokens v, lex_container hv h, read_tokens v h []⟩

/-- A printed array or object begins and ends with its brackets. -/
theorem dumps_container (ensureAscii : Bool) {v : Json} (hv : v.isContainer = true) :
    ∃ c body d, dumps ensureAscii v = c :: (body ++ [d]) ∧ Opens c ∧ (d = 93 ∨ d = 125) := by
  cases v with
  | arr xs => exact ⟨91, dumpsList ensureAscii xs, 93, rfl, .inl rfl, .inl rfl⟩
  | obj kvs => exact ⟨123, dumpsFields ensureAscii kvs, 125, rfl, .inr rfl, .inr rfl⟩
  | _ => cases hv

end Py
end KineticSdk
