/-
  KineticSdk.Llm.Registry

  Named LLM profiles and the fallback between them (`llm/registry.py`).

  The candidates of a `FallbackLLMClient` are the depth-first preorder of the
  graph of fallbacks, which may have cycles.  Where every profile that is named
  anywhere is registered the graph is finite, so the loop that computes them
  ends (`names_visits`).  `chat` asks them one by one up to the first that does
  not fail with an error worth another try.
-/

import KineticSdk.Lib.Preorder
import KineticSdk.Py.Dict
import KineticSdk.Security.Redact
import KineticSdk.Tool.Base

namespace KineticSdk
namespace Llm

open Py
open Lib.Preorder (Visits Reachable walk)

-- ============================================================================
-- Profiles
-- ============================================================================

/-- `LLMProfile`, as far as it is checked or read here. -/
structure LLMProfile where
  name : PyStr
  model : PyStr
  maxTokens : Int := 4096
  fallbackProfiles : List PyStr := []
deriving DecidableEq

/-- An exception of a call, by what `_is_retryable` looks at: the name of its
    class, and its `status_code` where that is an integer. -/
structure LLMError where
  typeName : PyStr
  statusCode : Option Int := none
  message : PyStr := []
deriving DecidableEq

/-- The parts of a class name that mean a transient failure. -/
def transientMarkers : List PyStr :=
  [py "timeout", py "connection", py "ratelimit", py "rate_limit", py "unavailable"]

/-- `_is_retryable`. -/
def isRetryable (e : LLMError) : Bool :=
  let byName := transientMarkers.any fun marker =>
    (Security.lowerKey e.typeName).tails.any (startsWith marker)
  match e.statusCode with
  | some status =>
      if status = 408 ∨ status = 409 ∨ status = 429 ∨ 500 ≤ status then true
      else if 400 ≤ status ∧ status < 500 then false
      else byName
  | none => byName

example : isRetryable ⟨py "RateLimitError", none, []⟩ = true
    ∧ isRetryable ⟨py "RateLimitError", some 401, []⟩ = false := by decide +kernel

/-- `LLMProfile.__post_init__`. -/
def LLMProfile.check (p : LLMProfile) : Except LLMError Unit :=
  if p.name = [] ∨ p.model = [] then
    .error { typeName := py "ValueError", message := py "profile name and model must be non-empty" }
  else if p.maxTokens ≤ 0 then
    .error { typeName := py "ValueError", message := py "max_tokens must be positive" }
  else .ok ()

/-- `LLMRegistry`: the profiles by their names. -/
structure LLMRegistry where
  profiles : List (PyStr × LLMProfile) := []

namespace LLMRegistry

/-- `LLMRegistry.register`. -/
def register (r : LLMRegistry) (profile : LLMProfile) (replace : Bool) : Except LLMError LLMRegistry :=
  if profile.name ∈ r.profiles.map Prod.fst ∧ replace = false then
    .error { typeName := py "ValueError",
             message := py "profile " ++ pyReprStr profile.name ++ py " is already registered" }
  else .ok { profiles := Dict.set r.profiles profile.name profile }

/-- `LLMRegistry.get`. -/
def get (r : LLMRegistry) (name : PyStr) : Except LLMError LLMProfile :=
  match Dict.get? r.profiles name with
  | some profile => .ok profile
  | none =>
      .error { typeName := py "KeyError", message := py "unknown LLM profile " ++ pyReprStr name }

/-- The profiles a profile falls back to. -/
def fallbacks (r : LLMRegistry) (name : PyStr) : Except LLMError (List PyStr) :=
  (r.get name).map LLMProfile.fallbackProfiles

/-- The profile is registered. -/
def Registered (r : LLMRegistry) (name : PyStr) : Prop := name ∈ r.profiles.map Prod.fst

instance (r : LLMRegistry) (name : PyStr) : Decidable (r.Registered name) :=
  inferInstanceAs (Decidable (name ∈ r.profiles.map Prod.fst))

/-- Every profile that a registered profile falls back to is registered. -/
def Closed (r : LLMRegistry) : Prop :=
  ∀ kv ∈ r.profiles, ∀ name ∈ kv.2.fallbackProfiles, r.Registered name

instance (r : LLMRegistry) : Decidable r.Closed :=
  inferInstanceAs (Decidable (∀ kv ∈ r.profiles, ∀ name ∈ kv.2.fallbackProfiles, r.Registered name))

end LLMRegistry

-- ============================================================================
-- The fallback client
-- ============================================================================

/-- `FallbackLLMClient`. -/
structure FallbackLLMClient where
  registry : LLMRegistry
  profileName : PyStr
  additionalProfiles : List PyStr := []

namespace FallbackLLMClient

variable (c : FallbackLLMClient)

/-- What `_names` starts with. -/
def candidates : List PyStr := c.profileName :: c.additionalProfiles

/-- `_names`, for at most the given number of turns of its loop: `walk` pops the
    first pending name, skips it if it is among the names, and otherwise appends
    it and puts its fallbacks in front of what is pending. -/
def names (turns : Nat) : Option (Except LLMError (List PyStr)) :=
  walk c.registry.fallbacks turns c.candidates []

variable {σ R : Type} (attempt : LLMProfile → Act σ (Except LLMError R))

/-- `registry.create(name).chat(...)`: what the factory and the client it makes
    come to. -/
def call (name : PyStr) : Act σ (Except LLMError R) := fun w =>
  match c.registry.get name with
  | .error e => (.error e, w)
  | .ok profile => attempt profile w

/-- The loop of `chat`: the answer, the profiles that were called, and the world. -/
def tryNames : List PyStr → Option LLMError → σ → Except LLMError R × List PyStr × σ
  | [], lastError, w => (.error (lastError.getD { typeName := py "AssertionError" }), [], w)
  | name :: names, _, w =>
      match c.call attempt name w with
      | (.ok answer, w) => (.ok answer, [name], w)
      | (.error e, w) =>
          if isRetryable e then
            let (answer, called, w) := tryNames names (some e) w
            (answer, name :: called, w)
          else (.error e, [name], w)

/-- `chat`, with the turns `_names` may take. -/
def chat (turns : Nat) (w : σ) : Option (Except LLMError R × List PyStr × σ) :=
  (c.names turns).map fun
    | .error e => (.error e, [], w)
    | .ok names => c.tryNames attempt names none w

-- ============================================================================
-- The candidates
-- ============================================================================

variable {c}

/-- In a closed registry every name that is reached has its fallbacks. -/
theorem fallbacks_registered (hclosed : c.registry.Closed) {name : PyStr}
    (h : c.registry.Registered name) :
    ∃ names, c.registry.fallbacks name = .ok names ∧ ∀ other ∈ names, c.registry.Registered other := by
  obtain ⟨profile, hget⟩ : ∃ profile, Dict.get? c.registry.profiles name = some profile := by
    have hmem := (Dict.mem_keys_iff c.registry.profiles name).mp h
    exact Option.isSome_iff_exists.mp hmem
  refine ⟨profile.fallbackProfiles, ?_, hclosed _ (Dict.mem_of_get? hget)⟩
  rw [LLMRegistry.fallbacks, LLMRegistry.get, hget]
  rfl

/-- `_names` ends with the depth-first preorder of the candidates. -/
theorem names_visits (hclosed : c.registry.Closed)
    (hreg : ∀ name ∈ c.candidates, c.registry.Registered name) :
    ∃ turns names, Visits c.registry.fallbacks [] c.candidates names ∧
      ∀ more, turns ≤ more → c.names more = some (.ok names) := by
  have hnodes : ∀ name ∈ (c.registry.profiles.map Prod.fst).toFinset,
      ∃ ys, c.registry.fallbacks name = .ok ys ∧
        ∀ y ∈ ys, y ∈ (c.registry.profiles.map Prod.fst).toFinset := by
    intro name hname
    obtain ⟨ys, hys, hall⟩ := fallbacks_registered hclosed (List.mem_toFinset.mp hname)
    exact ⟨ys, hys, fun y hy => List.mem_toFinset.mpr (hall y hy)⟩
  have hroots : ∀ name ∈ c.candidates, name ∈ (c.registry.profiles.map Prod.fst).toFinset :=
    fun name hname => List.mem_toFinset.mpr (hreg name hname)
  have hends : ∀ turns, Lib.Preorder.work c.registry.fallbacks (c.registry.profiles.map Prod.fst).toFinset
        c.candidates [] ≤ turns →
      ∃ out, Lib.Preorder.walk c.registry.fallbacks turns c.candidates [] = some (.ok out) :=
    fun turns hturns => Lib.Preorder.walk_ends hnodes hroots hturns
  obtain ⟨names, hnames⟩ := hends _ (Nat.le_refl _)
  refine ⟨Lib.Preorder.work c.registry.fallbacks (c.registry.profiles.map Prod.fst).toFinset c.candidates [],
    names, Lib.Preorder.walk_visits hnames, fun more hmore => ?_⟩
  obtain ⟨names', hnames'⟩ := hends more hmore
  have hsame : names = names' :=
    (Lib.Preorder.walk_visits hnames).unique (Lib.Preorder.walk_visits hnames')
  rw [FallbackLLMClient.names, hnames', hsame]

-- ============================================================================
-- The calls
-- ============================================================================

variable (c) in
/-- The profiles are called one after the other, and each fails with an error
    worth another try; the error is that of the last one. -/
inductive AllRetryable : List PyStr → σ → σ → Option LLMError → Prop
  | nil (w : σ) : AllRetryable [] w w none
  | snoc {names : List PyStr} {w w₁ w₂ : σ} {last : Option LLMError} {name : PyStr} {e : LLMError}
      (h : AllRetryable names w w₁ last) (hcall : c.call attempt name w₁ = (.error e, w₂))
      (he : isRetryable e = true) : AllRetryable (names ++ [name]) w w₂ (some e)

variable (c) in
/-- The answer of `chat` is that of the first candidate that does not fail with
    an error worth another try: those before it are called once, in order, and
    none after it.  Where all of them fail so the error is that of the last. -/
def AnswersFirst (names : List PyStr) (w : σ) (result : Except LLMError R × List PyStr × σ) : Prop :=
  (∃ before name after w₁ last, names = before ++ name :: after ∧
      AllRetryable c attempt before w w₁ last ∧
      (∀ e, (c.call attempt name w₁).1 = .error e → isRetryable e = false) ∧
      result = ((c.call attempt name w₁).1, before ++ [name], (c.call attempt name w₁).2)) ∨
  ∃ w' e, AllRetryable c attempt names w w' (some e) ∧ result = (.error e, names, w')

variable {attempt}

/-- The loop, entered after some candidates have failed. -/
theorem tryNames_answersFirst {before names : List PyStr} {w w₁ : σ} {last : Option LLMError}
    (hbefore : AllRetryable c attempt before w w₁ last) (hne : names ≠ [] ∨ last.isSome) :
    AnswersFirst c attempt (before ++ names) w
      ((c.tryNames attempt names last w₁).1, before ++ (c.tryNames attempt names last w₁).2.1,
        (c.tryNames attempt names last w₁).2.2) := by
  induction names generalizing before w₁ last with
  | nil =>
      obtain ⟨e, rfl⟩ := Option.isSome_iff_exists.mp (hne.resolve_left fun h => h rfl)
      rw [List.append_nil]
      refine .inr ⟨w₁, e, hbefore, ?_⟩
      rw [tryNames, List.append_nil]
      rfl
  | cons name names ih =>
      rw [tryNames]
      rcases hcall : c.call attempt name w₁ with ⟨answer | answer, w₂⟩
      · by_cases he : isRetryable answer = true
        · have hrest := ih (.snoc hbefore hcall he) (.inr rfl)
          rw [List.append_assoc, List.singleton_append] at hrest
          dsimp only
          rw [if_pos he]
          simpa only [List.append_assoc, List.singleton_append] using hrest
        · dsimp only
          rw [if_neg he]
          refine .inl ⟨before, name, names, w₁, last, rfl, hbefore, fun e heq => ?_, by rw [hcall]⟩
          rw [hcall] at heq
          obtain rfl := Except.error.inj heq
          exact Bool.eq_false_iff.mpr he
      · refine .inl ⟨before, name, names, w₁, last, rfl, hbefore, fun e heq => ?_, by rw [hcall]⟩
        rw [hcall] at heq
        cases heq

/-- In a registry in which all referenced profiles are registered the
    candidates are found: they start with the primary one, none comes twice, and
    they are what the candidates lead to, in depth-first preorder.  `chat` gives
    the answer of the first that does not fail with an error worth another try. -/
theorem fallback_order (hclosed : c.registry.Closed)
    (hreg : ∀ name ∈ c.candidates, c.registry.Registered name)
    (attempt : LLMProfile → Act σ (Except LLMError R)) (w : σ) :
    ∃ turns names, (∀ more, turns ≤ more → c.names more = some (.ok names)) ∧
      names.head? = some c.profileName ∧ names.Nodup ∧
      Visits c.registry.fallbacks [] c.candidates names ∧
      (∀ name, name ∈ names ↔ Reachable c.registry.fallbacks c.candidates name) ∧
      ∃ result, AnswersFirst c attempt names w result ∧
        ∀ more, turns ≤ more → c.chat attempt more w = some result := by
  obtain ⟨turns, names, hvisits, hnames⟩ := names_visits hclosed hreg
  have hhead : names.head? = some c.profileName := hvisits.head
  have hne : names ≠ [] := by
    rintro rfl
    cases hhead
  have hstart : AllRetryable c attempt [] w w none := .nil w
  have hchat := tryNames_answersFirst hstart (Or.inl hne : names ≠ [] ∨ (none : Option LLMError).isSome)
  refine ⟨turns, names, hnames, hhead, hvisits.nodup List.nodup_nil, hvisits, hvisits.mem_iff,
    c.tryNames attempt names none w, hchat, fun more hmore => ?_⟩
  rw [chat, hnames more hmore]
  rfl

/-- Two profiles that fall back to each other and to themselves, and a third. -/
def circularClient : FallbackLLMClient where
  registry := { profiles := [
    (py "a", { name := py "a", model := py "m", fallbackProfiles := [py "b", py "a", py "c"] }),
    (py "b", { name := py "b", model := py "m", fallbackProfiles := [py "c", py "a"] }),
    (py "c", { name := py "c", model := py "m" })] }
  profileName := py "a"
  additionalProfiles := [py "c"]

/-- Everybody but `b` is overloaded. -/
def overloaded (profile : LLMProfile) : Act Nat (Except LLMError PyStr) := fun w =>
  if profile.name = py "b" then (.ok (py "hello"), w + 1)
  else (.error { typeName := py "ServiceUnavailableError" }, w + 1)

theorem fallback_order_circular :
    ∃ turns names, (∀ more, turns ≤ more → circularClient.names more = some (.ok names)) ∧
      names.head? = some circularClient.profileName ∧ names.Nodup ∧
      Visits circularClient.registry.fallbacks [] circularClient.candidates names ∧
      (∀ name, name ∈ names ↔
        Reachable circularClient.registry.fallbacks circularClient.candidates name) ∧
      ∃ result, AnswersFirst circularClient overloaded names 0 result ∧
        ∀ more, turns ≤ more → circularClient.chat overloaded more 0 = some result :=
  fallback_order (by decide) (by decide) overloaded 0

example : circularClient.chat overloaded 8 0 =
    some (.ok (py "hello"), [py "a", py "b"], 2) := by decide +kernel

end FallbackLLMClient
end Llm
end KineticSdk
