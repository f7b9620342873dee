/-
  KineticSdk.Subagent.Accounting

  When every tool call is charged once, to the agent that asked for it.

  The budget and the breakers always agree with the ledger (`Booked`).  What
  the ledger has of an agent is what its own turns were charged as long as the
  only guard on the way of a response is the agent's own (`Sound`).  Spawning
  removes a guard that is in front, but not one behind a wrapper: a pool that
  wraps its parent's guard, and a factory that returns a guarded client, leave
  two guards on the way.
-/

import KineticSdk.Subagent.Delegation
import KineticSdk.Lib.Slots
import Mathlib.Algebra.GroupWithZero.Nat

namespace KineticSdk
namespace Delegation

open Py Tool
open Lib Lib.Slots

-- ============================================================================
-- The books
-- ============================================================================

/-- A charge noted by a breaker. -/
def noteCharge (b : RepetitionCircuitBreaker) (c : Charge) : RepetitionCircuitBreaker :=
  b.noted c.call.name c.call.arguments

@[simp] theorem noted_max (b : RepetitionCircuitBreaker) (name : PyStr) (arguments : Json) :
    (b.noted name arguments).max = b.max := by
  simp only [RepetitionCircuitBreaker.noted]
  split_ifs <;> rfl

/-- The breaker of its limit after these charges. -/
def breakerAfter (max : Nat) (cs : List Charge) : RepetitionCircuitBreaker :=
  cs.foldl noteCharge { max := max }

/-- The budget and the breakers agree with the ledger. -/
structure Booked (b : SpawnBudget) (brs : List RepetitionCircuitBreaker)
    (ledger : List Charge) : Prop where
  cap : b.used ≤ b.max
  used : b.used = ledger.length
  callsBy : ∀ k, b.callsBy k = (ledger.filter fun c => c.guard.agentId = k).length
  total : (b.perAgent.map Prod.snd).sum = b.used
  breakers : ∀ n br, brs[n]? = some br →
    br = breakerAfter br.max (ledger.filter fun c => c.guard.breaker = n)
  known : ∀ c ∈ ledger, c.guard.breaker < brs.length

theorem callsBy_bump (b : SpawnBudget) (k k' : PyStr) :
    ((Dict.get? (bump b.perAgent k) k').getD 0) = b.callsBy k' + if k = k' then 1 else 0 := by
  unfold bump SpawnBudget.callsBy
  by_cases hk : k = k'
  · rw [hk, Dict.get?_set_self, if_pos rfl]
    rfl
  · rw [Dict.get?_set_of_ne _ _ hk, if_neg hk, Nat.add_zero]

theorem sum_set (d : List (PyStr × Nat)) (k : PyStr) :
    ((Dict.set d k ((Dict.get? d k).getD 0 + 1)).map Prod.snd).sum = (d.map Prod.snd).sum + 1 := by
  induction d with
  | nil => rfl
  | cons p d ih =>
      obtain ⟨k', n⟩ := p
      rw [Dict.get?_cons]
      unfold Dict.set
      by_cases hk : k' = k
      · rw [if_pos hk, if_pos hk]
        simp only [List.map_cons, List.sum_cons, Option.getD_some]
        omega
      · rw [if_neg hk, if_neg hk]
        simp only [List.map_cons, List.sum_cons, ih]
        omega

theorem recordToolCall_ok {b b' : SpawnBudget} {agentId toolName : PyStr}
    (h : b.recordToolCall agentId toolName = .ok b') :
    b.used < b.max ∧ b' = { b with used := b.used + 1, perAgent := bump b.perAgent agentId } := by
  unfold SpawnBudget.recordToolCall at h
  split_ifs at h with hmax
  exact ⟨by omega, (Except.ok.inj h).symm⟩

theorem recordToolCall_error {b : SpawnBudget} {agentId toolName : PyStr} {e : PyExc}
    (h : b.recordToolCall agentId toolName = .error e) : b.max ≤ b.used := by
  unfold SpawnBudget.recordToolCall at h
  split_ifs at h with hmax
  exact hmax

theorem Booked.start (max : Nat) : Booked { max := max } [] [] where
  cap := Nat.zero_le max
  used := rfl
  callsBy _ := rfl
  total := rfl
  breakers _ _ h := by cases h
  known _ h := by cases h

section Books

variable {b : SpawnBudget} {brs : List RepetitionCircuitBreaker} {ledger : List Charge}

/-- A new breaker has noted nothing. -/
theorem Booked.newBreaker (h : Booked b brs ledger) (max : Nat) :
    Booked b (brs ++ [{ max := max }]) ledger where
  cap := h.cap
  used := h.used
  callsBy := h.callsBy
  total := h.total
  breakers n br hn := by
    rcases getElem?_snoc_cases hn with ⟨rfl, rfl⟩ | hn
    · have hnone : (ledger.filter fun c => c.guard.breaker = brs.length) = [] := by
        apply List.filter_eq_nil_iff.mpr
        intro c hc heq
        have hlt := h.known c hc
        simp only [decide_eq_true_eq] at heq
        omega
      rw [hnone]
      rfl
    · exact h.breakers n br hn
  known c hc := by
    have hlt := h.known c hc
    rw [List.length_append]
    omega

/-- A charge is booked by the budget, by its breaker and in the ledger. -/
theorem Booked.charge (h : Booked b brs ledger) {c : Charge} {b' : SpawnBudget}
    {br : RepetitionCircuitBreaker} (hb : b.recordToolCall c.guard.agentId c.call.name = .ok b')
    (hbr : brs[c.guard.breaker]? = some br) :
    Booked b' (brs.set c.guard.breaker (noteCharge br c)) (ledger ++ [c]) := by
  obtain ⟨hlt, rfl⟩ := recordToolCall_ok hb
  have hbound := (List.getElem?_eq_some_iff.mp hbr).1
  constructor
  · exact hlt
  · show b.used + 1 = _
    rw [List.length_append, h.used]
    rfl
  · intro k
    have hcalls : SpawnBudget.callsBy { b with
        used := b.used + 1, perAgent := bump b.perAgent c.guard.agentId } k =
          b.callsBy k + if c.guard.agentId = k then 1 else 0 := callsBy_bump b _ k
    rw [hcalls, h.callsBy, List.filter_append, List.length_append]
    by_cases hk : c.guard.agentId = k
    · simp [hk]
    · simp [hk]
  · show ((bump b.perAgent c.guard.agentId).map Prod.snd).sum = b.used + 1
    rw [← h.total]
    exact sum_set b.perAgent c.guard.agentId
  · intro n br' hn
    rcases getElem?_set_cases hn with ⟨rfl, rfl⟩ | ⟨hne, hn⟩
    · have hold := h.breakers _ br hbr
      have hmax : (noteCharge br c).max = br.max := noted_max br _ _
      have hfilter : ((ledger ++ [c]).filter fun d => d.guard.breaker = c.guard.breaker) =
          (ledger.filter fun d => d.guard.breaker = c.guard.breaker) ++ [c] := by
        simp [List.filter_append]
      rw [hmax, hfilter]
      show noteCharge br c = List.foldl noteCharge _ (_ ++ [c])
      rw [List.foldl_append]
      show _ = noteCharge (breakerAfter br.max _) c
      rw [← hold]
    · have hfilter : ((ledger ++ [c]).filter fun d => d.guard.breaker = n) =
          ledger.filter fun d => d.guard.breaker = n := by
        simp [List.filter_append, Ne.symm hne]
      rw [hfilter]
      exact h.breakers n br' hn
  · intro d hd
    rw [List.length_set]
    rcases List.mem_append.mp hd with hd | hd
    · exact h.known d hd
    · rw [List.mem_singleton.mp hd]
      exact hbound

end Books

-- ============================================================================
-- The condition
-- ============================================================================

/-- The event puts no guard behind another one. -/
def Unstacked (s : Tree) : Event → Prop
  | .spawn _ _ _ _ factory => ∀ c ∈ factory, c.guards = []
  | .runAll i maxConcurrency hasFactory =>
      hasFactory = false → 1 < maxConcurrency → ∀ a ∈ s.agents[i]?, a.llm.guards = []
  | .worker p _ _ factory =>
      ∀ pool ∈ s.pools[p]?, pool.hasFactory = true → ∀ c ∈ factory, c.guards = []
  | _ => True

instance (s : Tree) : (e : Event) → Decidable (Unstacked s e)
  | .spawn _ _ _ _ factory => inferInstanceAs (Decidable (∀ c ∈ factory, c.guards = []))
  | .runAll i maxConcurrency hasFactory => inferInstanceAs (Decidable (hasFactory = false →
      1 < maxConcurrency → ∀ a ∈ s.agents[i]?, a.llm.guards = []))
  | .worker p _ _ factory => inferInstanceAs (Decidable (∀ pool ∈ s.pools[p]?,
      pool.hasFactory = true → ∀ c ∈ factory, c.guards = []))
  | .bind _ _ | .turn _ _ _ | .advance _ => isTrue trivial

-- ============================================================================
-- The invariant
-- ============================================================================

/-- The turns of an agent, in order. -/
def Agent.turns (a : Agent) : List Turn := a.past.map Prod.fst ++ a.current.toList

/-- The charges a turn should make: each call once, by the agent's own guard. -/
def Turn.own (t : Turn) : List Charge := t.guard.toList.flatMap fun g => t.calls.map (Charge.mk g)

/-- A client with the agent's own guard in front and no other. -/
def Agent.Simple (a : Agent) : Prop :=
  match a.guard with
  | none => a.llm.guards = []
  | some g => ∃ inner, a.llm = .guarded inner g ∧ inner.guards = []

/-- How the turns that are over have ended, by the books of now. -/
structure Agent.Ended (a : Agent) (s : Tree) : Prop where
  returned : ∀ t, (t, Outcome.returned) ∈ a.past → t.charges = t.plan
  exceeded : ∀ t, (t, Outcome.budgetExceeded) ∈ a.past → s.budget.used = s.budget.max
  repeated : ∀ pre t post, a.past = pre ++ (t, Outcome.repetitionLimit) :: post →
    ∀ g, t.guard = some g → ∀ br, s.breakers[g.breaker]? = some br →
      br.max < (breakerAfter br.max ((pre.flatMap fun p => p.1.charges) ++ t.charges)).count

/-- The invariant: the only guard on an agent's way is its own. -/
structure Sound (s : Tree) : Prop where
  books : Booked s.budget s.breakers s.ledger
  simple : ∀ a ∈ s.agents, a.Simple
  pools : ∀ p ∈ s.pools, ∀ c, p.override = some c → c.guards = []
  turns : ∀ a ∈ s.agents, ∀ t ∈ a.turns, t.guards = t.guard.toList ∧
    ∀ g, t.guard = some g → a.guard = some g
  root : ∀ (i : Nat) (a : Agent), s.agents[i]? = some a →
    (a.guard = none → i = 0) ∧ ∀ g, a.guard = some g → g.agentId = py "root" → i = 0
  known : ∀ a ∈ s.agents, ∀ g, a.guard = some g → g.breaker < s.breakers.length
  distinct : ∀ (i j : Nat) (a a' : Agent) g g', s.agents[i]? = some a → s.agents[j]? = some a' →
    a.guard = some g → a'.guard = some g' → g.agentId = g'.agentId ∨ g.breaker = g'.breaker → i = j
  made : ∀ c ∈ s.ledger, ∃ a ∈ s.agents, a.guard = some c.guard
  entries : ∀ a ∈ s.agents, ∀ g, a.guard = some g →
    (s.ledger.filter fun c => c.guard = g) = a.charges
  ended : ∀ a ∈ s.agents, a.Ended s

section Steps

variable {s : Tree} {i : Nat} {a : Agent}

theorem Agent.Simple.guards (h : a.Simple) : a.llm.guards = a.guard.toList := by
  unfold Agent.Simple at h
  cases hg : a.guard with
  | none =>
      rw [hg] at h
      exact h
  | some g =>
      rw [hg] at h
      obtain ⟨inner, hllm, hinner⟩ := h
      rw [hllm, LLMClient.guards, hinner]
      rfl

/-- Behind the agent's own guard there is none. -/
theorem Agent.Simple.unguarded (h : a.Simple) : a.llm.unguarded.guards = [] := by
  unfold Agent.Simple at h
  cases hg : a.guard with
  | none =>
      rw [hg] at h
      cases hllm : a.llm with
      | provider n m => rfl
      | serialized inner =>
          rw [hllm] at h
          exact h
      | guarded inner g =>
          rw [hllm, LLMClient.guards] at h
          exact absurd h (by simp)
  | some g =>
      rw [hg] at h
      obtain ⟨inner, hllm, hinner⟩ := h
      rw [hllm]
      exact hinner

theorem baseLlm_guards {parent : LLMClient} {override factory : Option LLMClient}
    {spec : SubagentSpec} {base : LLMClient} (hbase : (override.getD parent).unguarded.guards = [])
    (hfactory : ∀ c, factory = some c → c.guards = [])
    (h : baseLlm parent override spec factory = .ok base) : base.guards = [] := by
  unfold baseLlm at h
  cases hf : factory with
  | some client =>
      rw [hf] at h
      dsimp only at h
      split_ifs at h <;> (cases h; exact hfactory base hf)
  | none =>
      rw [hf] at h
      cases hm : spec.model with
      | none =>
          rw [hm] at h
          cases h
          exact hbase
      | some m =>
          rw [hm] at h
          dsimp only at h
          split_ifs at h <;> (cases h; exact hbase)

theorem Agent.mem_turns {t : Turn} :
    t ∈ a.turns ↔ (∃ o, (t, o) ∈ a.past) ∨ a.current = some t := by
  unfold Agent.turns
  rw [List.mem_append, List.mem_map, Option.mem_toList]
  constructor
  · rintro (⟨⟨t', o⟩, hmem, rfl⟩ | hcur)
    · exact .inl ⟨o, hmem⟩
    · exact .inr hcur
  · rintro (⟨o, hmem⟩ | hcur)
    · exact .inl ⟨(t, o), hmem, rfl⟩
    · exact .inr hcur

/-- The books of later say the same of turns that are over. -/
theorem Agent.Ended.mono {s' : Tree} (h : a.Ended s)
    (hguard : ∀ t ∈ a.turns, ∀ g, t.guard = some g → a.guard = some g)
    (hused : s.budget.used = s.budget.max → s'.budget.used = s'.budget.max)
    (hbr : ∀ g br, a.guard = some g → s'.breakers[g.breaker]? = some br →
      ∃ br', s.breakers[g.breaker]? = some br' ∧ br'.max = br.max) : a.Ended s' where
  returned := h.returned
  exceeded t ht := hused (h.exceeded t ht)
  repeated pre t post hpast g hg br hget := by
    have hmem : t ∈ a.turns := by
      refine Agent.mem_turns.mpr (.inl ⟨.repetitionLimit, ?_⟩)
      rw [hpast]
      exact List.mem_append_right _ (List.mem_cons_self ..)
    obtain ⟨br', hget', hmax⟩ := hbr g br (hguard t hmem g hg) hget
    have hcount := h.repeated pre t post hpast g hg br' hget'
    rw [hmax] at hcount
    exact hcount

/-- An agent takes a step in its turn. -/
theorem Sound.update (h : Sound s) (hi : s.agents[i]? = some a) (a' : Agent) {b : SpawnBudget}
    {brs : List RepetitionCircuitBreaker} {ledger : List Charge} (hllm : a'.llm = a.llm)
    (hguard : a'.guard = a.guard) (hbooks : Booked b brs ledger)
    (hbrs : ∀ n : Nat, n < s.breakers.length → n < brs.length)
    (hmax : ∀ (n : Nat) br, brs[n]? = some br → ∃ br', s.breakers[n]? = some br' ∧ br'.max = br.max)
    (hused : s.budget.used = s.budget.max → b.used = b.max)
    (hturns : ∀ t ∈ a'.turns, t.guards = t.guard.toList ∧ ∀ g, t.guard = some g → a.guard = some g)
    (hmade : ∀ c ∈ ledger, ∃ a ∈ s.agents, a.guard = some c.guard)
    (hentries : ∀ (j : Nat) (a₁ : Agent) g, s.agents[j]? = some a₁ → j ≠ i → a₁.guard = some g →
      (ledger.filter fun c => c.guard = g) = s.ledger.filter fun c => c.guard = g)
    (hentry : ∀ g, a.guard = some g → (ledger.filter fun c => c.guard = g) = a'.charges)
    (hended : a'.Ended { s with budget := b, breakers := brs, ledger := ledger }) :
    Sound { s with budget := b, breakers := brs, ledger := ledger, agents := s.agents.set i a' } := by
  have hguardOf : ∀ (j : Nat) a₁, (s.agents.set i a')[j]? = some a₁ →
      ∃ a₂, s.agents[j]? = some a₂ ∧ a₂.guard = a₁.guard := by
    intro j a₁ hj
    rcases getElem?_set_cases hj with ⟨rfl, rfl⟩ | ⟨-, hj⟩
    · exact ⟨a, hi, hguard.symm⟩
    · exact ⟨a₁, hj, rfl⟩
  have hmem := List.mem_of_getElem? hi
  constructor
  · exact hbooks
  · intro a₁ hmem₁
    rcases mem_set_cases hmem₁ with rfl | ⟨j, -, hj⟩
    · have hsimple := h.simple a hmem
      unfold Agent.Simple at hsimple ⊢
      rw [hguard, hllm]
      exact hsimple
    · exact h.simple a₁ (List.mem_of_getElem? hj)
  · exact h.pools
  · intro a₁ hmem₁
    rcases mem_set_cases hmem₁ with rfl | ⟨j, -, hj⟩
    · rw [hguard]
      exact hturns
    · exact h.turns a₁ (List.mem_of_getElem? hj)
  · intro j a₁ hj
    obtain ⟨a₂, hj₂, heq⟩ := hguardOf j a₁ hj
    rw [← heq]
    exact h.root j a₂ hj₂
  · intro a₁ hmem₁ g hg
    obtain ⟨j, hj⟩ := List.mem_iff_getElem?.mp hmem₁
    obtain ⟨a₂, hj₂, heq⟩ := hguardOf j a₁ hj
    exact hbrs _ (h.known a₂ (List.mem_of_getElem? hj₂) g (heq.trans hg))
  · intro j j' a₁ a₂ g g' hj hj' hg hg' hor
    obtain ⟨a₃, hj₃, heq₃⟩ := hguardOf j a₁ hj
    obtain ⟨a₄, hj₄, heq₄⟩ := hguardOf j' a₂ hj'
    exact h.distinct j j' a₃ a₄ g g' hj₃ hj₄ (heq₃.trans hg) (heq₄.trans hg') hor
  · intro c hc
    obtain ⟨a₁, hmem₁, hg⟩ := hmade c hc
    obtain ⟨j, hj⟩ := List.mem_iff_getElem?.mp hmem₁
    have hlt : j < (s.agents.set i a').length := by
      rw [List.length_set]
      exact (List.getElem?_eq_some_iff.mp hj).1
    obtain ⟨a₂, hj₂, heq⟩ := hguardOf j _ (List.getElem?_eq_getElem hlt)
    refine ⟨_, List.getElem_mem hlt, heq.symm.trans ?_⟩
    rw [hj] at hj₂
    rw [← Option.some.inj hj₂]
    exact hg
  · intro a₁ hmem₁ g hg
    rcases mem_set_cases hmem₁ with rfl | ⟨j, hne, hj⟩
    · exact hentry g (hguard.symm.trans hg)
    · exact (hentries j a₁ g hj hne hg).trans (h.entries a₁ (List.mem_of_getElem? hj) g hg)
  · intro a₁ hmem₁
    rcases mem_set_cases hmem₁ with rfl | ⟨j, -, hj⟩
    · exact ⟨hended.returned, hended.exceeded, hended.repeated⟩
    · have hmem₁ := List.mem_of_getElem? hj
      exact (h.ended a₁ hmem₁).mono (fun t ht => (h.turns a₁ hmem₁ t ht).2) hused
        (fun g br _ hget => hmax g.breaker br hget)

theorem plan_eq_own {t : Turn} (h : t.guards = t.guard.toList) : t.plan = t.own := by
  unfold Turn.plan Turn.own
  rw [h]

theorem charges_of_unguarded (h : Sound s) (hmem : a ∈ s.agents) (hg : a.guard = none) :
    a.charges = [] := by
  have hturn : ∀ t ∈ a.turns, t.charges = [] := by
    intro t ht
    obtain ⟨hguards, hown⟩ := h.turns a hmem t ht
    have hnone : t.guard = none := by
      cases htg : t.guard with
      | none => rfl
      | some g =>
          have hsome := hown g htg
          rw [hg] at hsome
          cases hsome
    unfold Turn.charges Turn.plan
    rw [hguards, hnone]
    exact List.take_nil
  have hpast : (a.past.flatMap fun t => t.1.charges) = [] :=
    List.flatMap_eq_nil_iff.mpr fun t ht => hturn t.1 (Agent.mem_turns.mpr (.inl ⟨t.2, ht⟩))
  have hcurrent : a.current.toList.flatMap Turn.charges = [] :=
    List.flatMap_eq_nil_iff.mpr fun t ht =>
      hturn t (Agent.mem_turns.mpr (.inr (Option.mem_toList.mp ht)))
  unfold Agent.charges
  rw [hpast, hcurrent]
  rfl

/-- No charge is on a guard with a new breaker. -/
theorem Sound.unused (h : Sound s) (k : PyStr) :
    (s.ledger.filter fun c => c.guard = ⟨k, s.breakers.length⟩) = [] := by
  apply List.filter_eq_nil_iff.mpr
  intro c hc heq
  have hlt := h.books.known c hc
  simp only [decide_eq_true_eq] at heq
  rw [heq] at hlt
  exact Nat.lt_irrefl _ hlt

theorem getElem?_snoc_lt {α : Type} {xs : List α} {x y : α} {n : Nat} (hn : n < xs.length)
    (h : (xs ++ [x])[n]? = some y) : xs[n]? = some y := by
  rw [List.getElem?_append_left hn] at h
  exact h

/-- An agent that is over its turns stays so when a breaker is added. -/
theorem Sound.ended_newBreaker (h : Sound s) (hmem : a ∈ s.agents) {s' : Tree} {max : Nat}
    (hbudget : s'.budget = s.budget) (hbrs : s'.breakers = s.breakers ++ [{ max := max }]) :
    a.Ended s' := by
  refine (h.ended a hmem).mono (fun t ht => (h.turns a hmem t ht).2) ?_ ?_
  · rw [hbudget]
    exact id
  · intro g br hg hget
    rw [hbrs] at hget
    exact ⟨br, getElem?_snoc_lt (h.known a hmem g hg) hget, rfl⟩

theorem Agent.Ended.fresh {a : Agent} (h : a.past = []) (s : Tree) : a.Ended s where
  returned t ht := by rw [h] at ht; cases ht
  exceeded t ht := by rw [h] at ht; cases ht
  repeated pre t post hpast := by
    rw [h] at hpast
    cases pre <;> cases hpast

/-- A sub-agent is spawned with its guard around a client that has none. -/
theorem Sound.spawn (h : Sound s) {parent : LLMClient} {override factory : Option LLMClient}
    {spec : SubagentSpec} {agentId : PyStr} {repeats : Nat}
    (hbase : (override.getD parent).unguarded.guards = [])
    (hfactory : ∀ c, factory = some c → c.guards = [])
    (hid : agentId ≠ py "root") (hfresh : agentId ∉ s.ids) :
    Sound (s.spawn parent override spec agentId repeats factory) := by
  unfold Tree.spawn
  cases hllm : baseLlm parent override spec factory with
  | error e => exact h
  | ok base =>
      have hguards := baseLlm_guards hbase hfactory hllm
      have hother : ∀ a ∈ s.agents, ∀ g, a.guard = some g → g.agentId ≠ agentId := by
        intro a hmem g hg heq
        refine hfresh (List.mem_filterMap.mpr ⟨a, hmem, ?_⟩)
        rw [hg, ← heq]
        rfl
      constructor
      · exact h.books.newBreaker repeats
      · intro a hmem
        rcases List.mem_append.mp hmem with hmem | hmem
        · exact h.simple a hmem
        · rw [List.mem_singleton.mp hmem]
          exact ⟨base, rfl, hguards⟩
      · exact h.pools
      · intro a hmem
        rcases List.mem_append.mp hmem with hmem | hmem
        · exact h.turns a hmem
        · rw [List.mem_singleton.mp hmem]
          exact fun t ht => (by cases ht)
      · intro j a hj
        rcases getElem?_snoc_cases hj with ⟨-, rfl⟩ | hj
        · refine ⟨fun hnone => (by cases hnone), fun g hg hroot => ?_⟩
          cases hg
          exact absurd hroot hid
        · exact h.root j a hj
      · intro a hmem g hg
        rw [List.length_append, List.length_singleton]
        rcases List.mem_append.mp hmem with hmem | hmem
        · have hlt := h.known a hmem g hg
          omega
        · rw [List.mem_singleton.mp hmem] at hg
          cases hg
          exact Nat.lt_succ_self _
      · intro j j' a a' g g' hj hj' hg hg' hor
        rcases getElem?_snoc_cases hj with ⟨rfl, rfl⟩ | hj
        · rcases getElem?_snoc_cases hj' with ⟨rfl, rfl⟩ | hj'
          · rfl
          · cases hg
            have hmem' := List.mem_of_getElem? hj'
            have hlt := h.known a' hmem' g' hg'
            rcases hor with heq | heq
            · exact absurd heq.symm (hother a' hmem' g' hg')
            · simp only at heq
              omega
        · rcases getElem?_snoc_cases hj' with ⟨rfl, rfl⟩ | hj'
          · cases hg'
            have hmem := List.mem_of_getElem? hj
            have hlt := h.known a hmem g hg
            rcases hor with heq | heq
            · exact absurd heq (hother a hmem g hg)
            · simp only at heq
              omega
          · exact h.distinct j j' a a' g g' hj hj' hg hg' hor
      · intro c hc
        obtain ⟨a, hmem, hg⟩ := h.made c hc
        exact ⟨a, List.mem_append_left _ hmem, hg⟩
      · intro a hmem g hg
        rcases List.mem_append.mp hmem with hmem | hmem
        · exact h.entries a hmem g hg
        · rw [List.mem_singleton.mp hmem] at hg ⊢
          cases hg
          exact h.unused agentId
      · intro a hmem
        rcases List.mem_append.mp hmem with hmem | hmem
        · exact h.ended_newBreaker hmem rfl rfl
        · rw [List.mem_singleton.mp hmem]
          exact Agent.Ended.fresh rfl _

/-- The root gets its guard. -/
theorem Sound.bind (h : Sound s) (hi : s.agents[i]? = some a) (repeats : Nat) :
    Sound (s.bind i a repeats) := by
  have hmem := List.mem_of_getElem? hi
  have hsimple := h.simple a hmem
  cases hg : a.guard with
  | some g =>
      unfold Agent.Simple at hsimple
      rw [hg] at hsimple
      obtain ⟨inner, hllm, -⟩ := hsimple
      unfold Tree.bind
      rw [hllm]
      exact h
  | none =>
      have hguards : a.llm.guards = [] := by
        rw [hsimple.guards, hg]
        rfl
      have hzero : i = 0 := (h.root i a hi).1 hg
      have hbind : s.bind i a repeats = { s with
          breakers := s.breakers ++ [{ max := repeats }]
          agents := s.agents.set i { a with
            llm := .guarded a.llm ⟨py "root", s.breakers.length⟩
            guard := some ⟨py "root", s.breakers.length⟩ } } := by
        unfold Tree.bind
        cases hllm : a.llm with
        | provider n m => rfl
        | serialized inner => rfl
        | guarded inner g =>
            rw [hllm, LLMClient.guards] at hguards
            exact absurd hguards (by simp)
      rw [hbind]
      have hother : ∀ (j : Nat) a₁ g, s.agents[j]? = some a₁ → j ≠ i → a₁.guard = some g →
          g.agentId ≠ py "root" := by
        intro j a₁ g hj hne hg₁ hroot
        exact hne (((h.root j a₁ hj).2 g hg₁ hroot).trans hzero.symm)
      constructor
      · exact h.books.newBreaker repeats
      · intro a₁ hmem₁
        rcases mem_set_cases hmem₁ with rfl | ⟨j, -, hj⟩
        · exact ⟨a.llm, rfl, hguards⟩
        · exact h.simple a₁ (List.mem_of_getElem? hj)
      · exact h.pools
      · intro a₁ hmem₁
        rcases mem_set_cases hmem₁ with rfl | ⟨j, -, hj⟩
        · intro t ht
          obtain ⟨htg, hown⟩ := h.turns a hmem t ht
          refine ⟨htg, fun g hsome => ?_⟩
          have hsome' := hown g hsome
          rw [hg] at hsome'
          cases hsome'
        · exact h.turns a₁ (List.mem_of_getElem? hj)
      · intro j a₁ hj
        rcases getElem?_set_cases hj with ⟨rfl, rfl⟩ | ⟨-, hj⟩
        · exact ⟨fun _ => hzero, fun _ _ _ => hzero⟩
        · exact h.root j a₁ hj
      · intro a₁ hmem₁ g hg₁
        rw [List.length_append, List.length_singleton]
        rcases mem_set_cases hmem₁ with rfl | ⟨j, -, hj⟩
        · cases hg₁
          exact Nat.lt_succ_self _
        · have hlt := h.known a₁ (List.mem_of_getElem? hj) g hg₁
          omega
      · intro j j' a₁ a₂ g g' hj hj' hg₁ hg₂ hor
        rcases getElem?_set_cases hj with ⟨rfl, rfl⟩ | ⟨hne, hj⟩
        · rcases getElem?_set_cases hj' with ⟨rfl, rfl⟩ | ⟨hne', hj'⟩
          · rfl
          · cases hg₁
            have hlt := h.known a₂ (List.mem_of_getElem? hj') g' hg₂
            rcases hor with heq | heq
            · exact absurd heq.symm (hother j' a₂ g' hj' hne' hg₂)
            · simp only at heq
              omega
        · rcases getElem?_set_cases hj' with ⟨heq', rfl⟩ | ⟨-, hj'⟩
          · cases hg₂
            have hlt := h.known a₁ (List.mem_of_getElem? hj) g hg₁
            rcases hor with heq | heq
            · exact absurd heq (hother j a₁ g hj hne hg₁)
            · simp only at heq
              omega
          · exact h.distinct j j' a₁ a₂ g g' hj hj' hg₁ hg₂ hor
      · intro c hc
        obtain ⟨a₁, hmem₁, hg₁⟩ := h.made c hc
        obtain ⟨j, hj⟩ := List.mem_iff_getElem?.mp hmem₁
        have hne : i ≠ j := by
          rintro rfl
          rw [hi] at hj
          rw [← Option.some.inj hj, hg] at hg₁
          cases hg₁
        refine ⟨a₁, List.mem_of_getElem? (i := j) ?_, hg₁⟩
        rw [List.getElem?_set_ne hne]
        exact hj
      · intro a₁ hmem₁ g hg₁
        rcases mem_set_cases hmem₁ with rfl | ⟨j, -, hj⟩
        · cases hg₁
          exact (h.unused (py "root")).trans (charges_of_unguarded h hmem hg).symm
        · exact h.entries a₁ (List.mem_of_getElem? hj) g hg₁
      · intro a₁ hmem₁
        rcases mem_set_cases hmem₁ with rfl | ⟨j, -, hj⟩
        · have hended : a.Ended { s with breakers := s.breakers ++ [{ max := repeats }] } :=
            h.ended_newBreaker hmem rfl rfl
          exact ⟨hended.returned, hended.exceeded, hended.repeated⟩
        · exact h.ended_newBreaker (List.mem_of_getElem? hj) rfl rfl

/-- A pool without a factory wraps a client without guards. -/
theorem Sound.runAll (h : Sound s) {maxConcurrency : Nat} {hasFactory : Bool}
    (hguards : hasFactory = false → 1 < maxConcurrency → a.llm.guards = []) :
    Sound (s.runAll i a maxConcurrency hasFactory) where
  books := h.books
  simple := h.simple
  pools p hp c hc := by
    rcases List.mem_append.mp hp with hp | hp
    · exact h.pools p hp c hc
    · rw [List.mem_singleton.mp hp] at hc
      dsimp only at hc
      split_ifs at hc with hwrap
      cases hc
      exact hguards hwrap.1 hwrap.2
  turns := h.turns
  root := h.root
  known := h.known
  distinct := h.distinct
  made := h.made
  entries := h.entries
  ended a' hmem := ⟨(h.ended a' hmem).returned, (h.ended a' hmem).exceeded, (h.ended a' hmem).repeated⟩

/-- A response arrives. -/
theorem Sound.turn (h : Sound s) (hi : s.agents[i]? = some a) (hidle : a.current = none) {t : Turn}
    (hguard : t.guard = a.guard) (hguards : t.guards = a.llm.guards) (hzero : t.charged = 0) :
    Sound { s with agents := s.agents.set i { a with current := some t } } := by
  have hmem := List.mem_of_getElem? hi
  have hnone : t.charges = [] := by
    unfold Turn.charges
    rw [hzero]
    rfl
  have hcharges : Agent.charges { a with current := some t } = a.charges := by
    show _ ++ (t.charges ++ []) = _
    unfold Agent.charges
    rw [hnone, hidle]
    rfl
  refine h.update hi { a with current := some t } rfl rfl h.books (fun _ hn => hn)
    (fun n br hn => ⟨br, hn, rfl⟩) id ?_ h.made
    (fun _ _ _ _ _ _ => rfl) ?_ ?_
  · intro t' ht
    rcases Agent.mem_turns.mp ht with ⟨o, hpast⟩ | hcur
    · exact h.turns a hmem t' (Agent.mem_turns.mpr (.inl ⟨o, hpast⟩))
    · cases hcur
      rw [hguards, hguard]
      exact ⟨(h.simple a hmem).guards, fun g hg => hg⟩
  · intro g hg
    rw [hcharges]
    exact h.entries a hmem g hg
  · have hended := h.ended a hmem
    exact ⟨hended.returned, hended.exceeded, hended.repeated⟩

/-- A turn that is over joins the others. -/
def Agent.stop (a : Agent) (t : Turn) (o : Outcome) : Agent :=
  { a with past := a.past ++ [(t, o)], current := none }

theorem Agent.charges_stop (a : Agent) (t : Turn) (o : Outcome) :
    (a.stop t o).charges = (a.past.flatMap fun p => p.1.charges) ++ t.charges := by
  unfold Agent.charges Agent.stop
  rw [List.flatMap_append, List.flatMap_singleton]
  exact List.append_nil _

theorem Agent.charges_current {t : Turn} (h : a.current = some t) :
    a.charges = (a.past.flatMap fun p => p.1.charges) ++ t.charges := by
  unfold Agent.charges
  rw [h]
  show _ ++ (t.charges ++ []) = _
  rw [List.append_nil]

theorem snoc_eq_split {α : Type} {xs pre post : List α} {x y : α}
    (h : xs ++ [x] = pre ++ y :: post) :
    (pre = xs ∧ y = x) ∨ ∃ post', xs = pre ++ y :: post' := by
  rcases List.eq_nil_or_concat post with rfl | ⟨post', z, rfl⟩
  · have hinj := List.append_inj' h rfl
    exact .inl ⟨hinj.1.symm, (List.cons.inj hinj.2).1.symm⟩
  · have hsplit : xs ++ [x] = (pre ++ y :: post') ++ [z] := by
      rw [h, List.concat_eq_append]
      simp
    exact .inr ⟨post', (List.append_inj' hsplit rfl).1⟩

/-- A turn is over, and why. -/
theorem Agent.Ended.stop {s' : Tree} (h : a.Ended s') {t : Turn} {o : Outcome}
    (hreturned : o = .returned → t.charges = t.plan)
    (hexceeded : o = .budgetExceeded → s'.budget.used = s'.budget.max)
    (hrepeated : o = .repetitionLimit → ∀ g, t.guard = some g →
      ∀ br, s'.breakers[g.breaker]? = some br →
        br.max < (breakerAfter br.max ((a.past.flatMap fun p => p.1.charges) ++ t.charges)).count) :
    (a.stop t o).Ended s' where
  returned t' ht := by
    rcases List.mem_append.mp ht with ht | ht
    · exact h.returned t' ht
    · cases List.mem_singleton.mp ht
      exact hreturned rfl
  exceeded t' ht := by
    rcases List.mem_append.mp ht with ht | ht
    · exact h.exceeded t' ht
    · cases List.mem_singleton.mp ht
      exact hexceeded rfl
  repeated pre t' post hpast := by
    rcases snoc_eq_split (show a.past ++ [(t, o)] = _ from hpast) with ⟨rfl, heq⟩ | ⟨post', hold⟩
    · cases heq
      exact hrepeated rfl
    · exact h.repeated pre t' post' hold

theorem charges_succ {t : Turn} {c : Charge} (h : t.plan[t.charged]? = some c) :
    Turn.charges { t with charged := t.charged + 1 } = t.charges ++ [c] := by
  show t.plan.take (t.charged + 1) = t.plan.take t.charged ++ [c]
  rw [List.take_add_one, h]
  rfl

/-- A charge is one of the agent's own guard. -/
theorem Sound.guard_of_plan (h : Sound s) (hi : s.agents[i]? = some a) {t : Turn}
    (ht : a.current = some t) {c : Charge} (hc : t.plan[t.charged]? = some c) :
    t.guard = some c.guard ∧ a.guard = some c.guard := by
  obtain ⟨hguards, hown⟩ := h.turns a (List.mem_of_getElem? hi) t (Agent.mem_turns.mpr (.inr ht))
  have hmem : c ∈ t.plan := List.mem_of_getElem? hc
  rw [plan_eq_own hguards] at hmem
  unfold Turn.own at hmem
  obtain ⟨g, hg, hcall⟩ := List.mem_flatMap.mp hmem
  obtain ⟨call, -, rfl⟩ := List.mem_map.mp hcall
  have htg : t.guard = some g := Option.mem_toList.mp hg
  exact ⟨htg, hown g htg⟩

/-- The charges an agent's breaker has noted are those of its guard. -/
theorem Sound.filter_breaker (h : Sound s) (hi : s.agents[i]? = some a) {g : Guard}
    (hg : a.guard = some g) :
    (s.ledger.filter fun c => c.guard.breaker = g.breaker) = a.charges := by
  rw [← h.entries a (List.mem_of_getElem? hi) g hg]
  apply List.filter_congr
  intro c hc
  obtain ⟨a', hmem', hg'⟩ := h.made c hc
  obtain ⟨j, hj⟩ := List.mem_iff_getElem?.mp hmem'
  rw [decide_eq_decide]
  refine ⟨fun heq => ?_, fun heq => by rw [heq]⟩
  cases h.distinct j i a' a c.guard g hj hi hg' hg (.inr heq)
  rw [hi] at hj
  rw [← Option.some.inj hj, hg] at hg'
  exact (Option.some.inj hg').symm

/-- The charges under an agent's id are those of its guard. -/
theorem Sound.filter_agentId (h : Sound s) (hi : s.agents[i]? = some a) {g : Guard}
    (hg : a.guard = some g) :
    (s.ledger.filter fun c => c.guard.agentId = g.agentId) = a.charges := by
  rw [← h.entries a (List.mem_of_getElem? hi) g hg]
  apply List.filter_congr
  intro c hc
  obtain ⟨a', hmem', hg'⟩ := h.made c hc
  obtain ⟨j, hj⟩ := List.mem_iff_getElem?.mp hmem'
  rw [decide_eq_decide]
  refine ⟨fun heq => ?_, fun heq => by rw [heq]⟩
  cases h.distinct j i a' a c.guard g hj hi hg' hg (.inl heq)
  rw [hi] at hj
  rw [← Option.some.inj hj, hg] at hg'
  exact (Option.some.inj hg').symm

/-- A charge that goes through, and what becomes of the agent. -/
theorem Sound.charge (h : Sound s) (hi : s.agents[i]? = some a) {t : Turn}
    (ht : a.current = some t) {c : Charge} (hc : t.plan[t.charged]? = some c) {b : SpawnBudget}
    (hb : s.budget.recordToolCall c.guard.agentId c.call.name = .ok b)
    {br : RepetitionCircuitBreaker} (hbr : s.breakers[c.guard.breaker]? = some br) (a' : Agent)
    (hllm : a'.llm = a.llm) (hguard : a'.guard = a.guard)
    (hturns : ∀ u ∈ a'.turns, u.guards = u.guard.toList ∧ ∀ g, u.guard = some g → a.guard = some g)
    (hcharges : a'.charges = a.charges ++ [c])
    (hended : ∀ s' : Tree, s'.breakers = s.breakers.set c.guard.breaker (noteCharge br c) →
      a.Ended s' → a'.Ended s') :
    Sound { s with
      budget := b, breakers := s.breakers.set c.guard.breaker (noteCharge br c)
      ledger := s.ledger ++ [c], agents := s.agents.set i a' } := by
  have hmem := List.mem_of_getElem? hi
  have hag := (h.guard_of_plan hi ht hc).2
  obtain ⟨hlt, -⟩ := recordToolCall_ok hb
  have hmax : ∀ (n : Nat) br', (s.breakers.set c.guard.breaker (noteCharge br c))[n]? = some br' →
      ∃ br₀, s.breakers[n]? = some br₀ ∧ br₀.max = br'.max := by
    intro n br' hn
    rcases getElem?_set_cases hn with ⟨rfl, rfl⟩ | ⟨-, hn⟩
    · exact ⟨br, hbr, (noted_max br _ _).symm⟩
    · exact ⟨br', hn, rfl⟩
  have hfull : s.budget.used = s.budget.max → b.used = b.max := by
    intro heq
    omega
  refine h.update hi a' hllm hguard (h.books.charge hb hbr) ?_ hmax hfull hturns ?_ ?_ ?_ ?_
  · intro n hn
    rw [List.length_set]
    exact hn
  · intro d hd
    rcases List.mem_append.mp hd with hd | hd
    · exact h.made d hd
    · rw [List.mem_singleton.mp hd]
      exact ⟨a, hmem, hag⟩
  · intro j a₁ g hj hne hg
    have hother : c.guard ≠ g := fun heq =>
      hne (h.distinct j i a₁ a g c.guard hj hi hg hag (.inl (by rw [heq])))
    simp [List.filter_append, hother]
  · intro g hg
    rw [hag] at hg
    cases hg
    rw [List.filter_append, h.entries a hmem c.guard hag, hcharges]
    simp
  · refine hended _ rfl ((h.ended a hmem).mono (fun u hu => (h.turns a hmem u hu).2) hfull ?_)
    exact fun g br' _ hget => hmax g.breaker br' hget

/-- A turn goes on by a charge, or is over. -/
theorem Sound.advance (h : Sound s) (hi : s.agents[i]? = some a) {t : Turn}
    (ht : a.current = some t) : Sound (s.advance i a t) := by
  have hmem := List.mem_of_getElem? hi
  have hturn := h.turns a hmem t (Agent.mem_turns.mpr (.inr ht))
  have hturns : ∀ (t' : Turn) (o : Outcome), t'.guards = t.guards → t'.guard = t.guard →
      ∀ u ∈ (a.stop t' o).turns, u.guards = u.guard.toList ∧ ∀ g, u.guard = some g → a.guard = some g := by
    intro t' o hguards hguard u hu
    rcases Agent.mem_turns.mp hu with ⟨o', hpast⟩ | hcur
    · rcases List.mem_append.mp hpast with hpast | hpast
      · exact h.turns a hmem u (Agent.mem_turns.mpr (.inl ⟨o', hpast⟩))
      · cases List.mem_singleton.mp hpast
        rw [hguards, hguard]
        exact hturn
    · cases hcur
  have hended := h.ended a hmem
  unfold Tree.advance
  cases hplan : t.plan[t.charged]? with
  | none =>
      have hall : t.charges = t.plan := List.take_of_length_le (List.getElem?_eq_none_iff.mp hplan)
      refine h.update hi (a.stop t .returned) rfl rfl h.books (fun _ hn => hn)
        (fun n br hn => ⟨br, hn, rfl⟩) id (hturns t .returned rfl rfl) h.made
        (fun _ _ _ _ _ _ => rfl) ?_ ?_
      · intro g hg
        rw [Agent.charges_stop, ← Agent.charges_current ht]
        exact h.entries a hmem g hg
      · have hstop := hended.stop (t := t) (o := .returned) (fun _ => hall) (fun ho => by cases ho)
          (fun ho => by cases ho)
        exact ⟨hstop.returned, hstop.exceeded, hstop.repeated⟩
  | some c =>
      obtain ⟨htg, hag⟩ := h.guard_of_plan hi ht hplan
      dsimp only
      cases hbudget : s.budget.recordToolCall c.guard.agentId c.call.name with
      | error e =>
          have hfull := recordToolCall_error hbudget
          have hcap := h.books.cap
          refine h.update hi (a.stop t .budgetExceeded) rfl rfl h.books (fun _ hn => hn)
            (fun n br hn => ⟨br, hn, rfl⟩) id (hturns t .budgetExceeded rfl rfl) h.made
            (fun _ _ _ _ _ _ => rfl) ?_ ?_
          · intro g hg
            rw [Agent.charges_stop, ← Agent.charges_current ht]
            exact h.entries a hmem g hg
          · have hstop := hended.stop (t := t) (o := .budgetExceeded) (fun ho => by cases ho)
              (fun _ => by omega) (fun ho => by cases ho)
            exact ⟨hstop.returned, hstop.exceeded, hstop.repeated⟩
      | ok budget =>
          dsimp only
          cases hbr : s.breakers[c.guard.breaker]? with
          | none => exact h
          | some br =>
              have hcharged := charges_succ hplan
              have hcharges : ∀ a' : Agent, a'.charges = (a.past.flatMap fun p => p.1.charges) ++
                  Turn.charges { t with charged := t.charged + 1 } → a'.charges = a.charges ++ [c] := by
                intro a' ha'
                rw [ha', hcharged, Agent.charges_current ht, List.append_assoc]
              have hafter : breakerAfter br.max ((a.past.flatMap fun p => p.1.charges) ++
                  Turn.charges { t with charged := t.charged + 1 }) = noteCharge br c := by
                have hold := h.books.breakers _ br hbr
                rw [h.filter_breaker hi hag, Agent.charges_current ht] at hold
                rw [hcharged, ← List.append_assoc]
                unfold breakerAfter
                rw [List.foldl_append]
                show noteCharge (breakerAfter br.max _) c = _
                rw [← hold]
              dsimp only [RepetitionCircuitBreaker.record]
              by_cases htrip : (br.noted c.call.name c.call.arguments).max <
                  (br.noted c.call.name c.call.arguments).count
              · -- the breaker trips: the call is charged, and the turn is over
                rw [if_pos htrip]
                refine h.charge hi ht hplan hbudget hbr
                  (a.stop { t with charged := t.charged + 1 } .repetitionLimit) rfl rfl
                  (hturns _ .repetitionLimit rfl rfl) (hcharges _ (Agent.charges_stop ..)) ?_
                intro s' hbrs hended'
                refine hended'.stop (fun ho => by cases ho) (fun ho => by cases ho) ?_
                intro _ g hg br₂ hget
                cases htg.symm.trans hg
                rw [hbrs] at hget
                rcases getElem?_set_cases hget with ⟨-, rfl⟩ | ⟨hne, -⟩
                · have hmax : (noteCharge br c).max = br.max := noted_max br _ _
                  rw [hmax, hafter, ← hmax]
                  exact htrip
                · exact absurd rfl hne
              · rw [if_neg htrip]
                refine h.charge hi ht hplan hbudget hbr
                  { a with current := some { t with charged := t.charged + 1 } } rfl rfl ?_
                  (hcharges _ (Agent.charges_current rfl)) ?_
                · intro u hu
                  rcases Agent.mem_turns.mp hu with ⟨o, hpast⟩ | hcur
                  · exact h.turns a hmem u (Agent.mem_turns.mpr (.inl ⟨o, hpast⟩))
                  · cases hcur
                    exact hturn
                · exact fun s' _ hended' => ⟨hended'.returned, hended'.exceeded, hended'.repeated⟩

/-- The client a pool hands to its workers has no guard behind the front. -/
theorem Sound.pool_base (h : Sound s) {p : Nat} {pool : Pool} (hp : s.pools[p]? = some pool)
    (hi : s.agents[pool.parent]? = some a) : (pool.override.getD a.llm).unguarded.guards = [] := by
  cases ho : pool.override with
  | none => exact (h.simple a (List.mem_of_getElem? hi)).unguarded
  | some c =>
      have hguards := h.pools pool (List.mem_of_getElem? hp) c ho
      cases c with
      | provider n m => rfl
      | serialized inner => exact hguards
      | guarded inner g =>
          rw [LLMClient.guards] at hguards
          exact absurd hguards (by simp)

/-- A step that stacks no guards keeps the invariant. -/
theorem Sound.step (h : Sound s) {e : Event} (he : Unstacked s e) : Sound (step s e) := by
  cases e with
  | bind i repeats =>
      cases hi : s.agents[i]? with
      | none => simpa only [Delegation.step, hi] using h
      | some a =>
          simp only [Delegation.step, hi]
          exact h.bind hi repeats
  | spawn i spec agentId repeats factory =>
      cases hi : s.agents[i]? with
      | none => simpa only [Delegation.step, hi] using h
      | some a =>
          simp only [Delegation.step, hi]
          split_ifs with hid
          · exact h
          · rw [not_or] at hid
            exact h.spawn (h.simple a (List.mem_of_getElem? hi)).unguarded (fun c hc => he c hc) hid.1 hid.2
  | runAll i maxConcurrency hasFactory =>
      cases hi : s.agents[i]? with
      | none => simpa only [Delegation.step, hi] using h
      | some a =>
          simp only [Delegation.step, hi]
          exact h.runAll fun hf hc => he hf hc a hi
  | worker p spec agentId factory =>
      cases hp : s.pools[p]? with
      | none => simpa only [Delegation.step, hp] using h
      | some pool =>
          cases hi : s.agents[pool.parent]? with
          | none => simpa only [Delegation.step, hp, hi] using h
          | some a =>
              simp only [Delegation.step, hp, hi]
              split_ifs with hid hfactory
              · exact h
              · rw [not_or] at hid
                exact h.spawn (h.pool_base hp hi) (fun c hc => he pool hp hfactory c hc) hid.1 hid.2
              · rw [not_or] at hid
                exact h.spawn (h.pool_base hp hi) (fun c hc => by cases hc) hid.1 hid.2
  | turn i streaming calls =>
      cases hi : s.agents[i]? with
      | none => simpa only [Delegation.step, hi] using h
      | some a =>
          simp only [Delegation.step, hi]
          split_ifs with hidle
          · exact h.turn hi hidle rfl rfl rfl
          · exact h
  | advance i =>
      cases hi : s.agents[i]? with
      | none => simpa only [Delegation.step, hi] using h
      | some a =>
          cases ht : a.current with
          | none => simpa only [Delegation.step, hi, ht] using h
          | some t =>
              simp only [Delegation.step, hi, ht]
              exact h.advance hi ht

theorem Sound.start (max : Nat) (model : Option PyStr) : Sound (Tree.start max model) where
  books := Booked.start max
  simple a hmem := by
    rw [List.mem_singleton.mp hmem]
    rfl
  pools p hp := by cases hp
  turns a hmem t ht := by
    rw [List.mem_singleton.mp hmem] at ht
    cases ht
  root i a hi := by
    have hlt := (List.getElem?_eq_some_iff.mp hi).1
    have hzero : i = 0 := Nat.lt_one_iff.mp hlt
    exact ⟨fun _ => hzero, fun _ _ _ => hzero⟩
  known a hmem g hg := by
    rw [List.mem_singleton.mp hmem] at hg
    cases hg
  distinct i j a a' g g' hi hj := by
    have hi' := Nat.lt_one_iff.mp (List.getElem?_eq_some_iff.mp hi).1
    have hj' := Nat.lt_one_iff.mp (List.getElem?_eq_some_iff.mp hj).1
    intros
    rw [hi', hj']
  made c hc := by cases hc
  entries a hmem g hg := by
    rw [List.mem_singleton.mp hmem] at hg
    cases hg
  ended a hmem := by
    rw [List.mem_singleton.mp hmem]
    exact Agent.Ended.fresh rfl _

end Steps

-- ============================================================================
-- Runs
-- ============================================================================

/-- Every tool call an agent asks for is charged once, under its own id and to
    its own breaker, and the budget holds. -/
structure Accounted (s : Tree) : Prop where
  cap : s.budget.used ≤ s.budget.max
  total : s.budget.used = (s.budget.perAgent.map Prod.snd).sum
  /-- Agents share neither ids nor breakers. -/
  distinct : ∀ (i j : Nat) (a a' : Agent) g g', s.agents[i]? = some a → s.agents[j]? = some a' →
    a.guard = some g → a'.guard = some g' → g.agentId = g'.agentId ∨ g.breaker = g'.breaker → i = j
  /-- A turn charges its calls in order by the agent's guard only: all of them
      when it returns. -/
  once : ∀ a ∈ s.agents, ∀ t ∈ a.turns, t.charges <+: t.own ∧
    ((t, Outcome.returned) ∈ a.past → t.charges = t.own)
  /-- The budget and the breaker have nothing else of the agent. -/
  counted : ∀ a ∈ s.agents, ∀ g, a.guard = some g → s.budget.callsBy g.agentId = a.charges.length ∧
    ∀ br, s.breakers[g.breaker]? = some br → br = breakerAfter br.max a.charges
  /-- A turn is cut short by an exhausted budget or the agent's own breaker. -/
  ended : ∀ a ∈ s.agents, a.Ended s

theorem Sound.accounted {s : Tree} (h : Sound s) : Accounted s where
  cap := h.books.cap
  total := h.books.total.symm
  distinct := h.distinct
  once a hmem t ht := by
    have hplan := plan_eq_own (h.turns a hmem t ht).1
    rw [← hplan]
    exact ⟨List.take_prefix _ _, (h.ended a hmem).returned t⟩
  counted a hmem g hg := by
    obtain ⟨i, hi⟩ := List.mem_iff_getElem?.mp hmem
    rw [h.books.callsBy, h.filter_agentId hi hg]
    refine ⟨rfl, fun br hbr => ?_⟩
    have hbook := h.books.breakers g.breaker br hbr
    rw [h.filter_breaker hi hg] at hbook
    exact hbook
  ended := h.ended

/-- Every tool call is charged once, and to its own agent, in a tree in which no
    guard is put behind another one. -/
theorem calls_charged_once (max : Nat) (model : Option PyStr) (es : List Event)
    (hes : Steps.Meets step Unstacked (Tree.start max model) es) :
    Accounted (Steps.run step (Tree.start max model) es) :=
  (hes.keeps (fun _ _ h he => h.step he) (Sound.start max model)).accounted

/-- A call that reads a file. -/
def readCall : ToolCall := ⟨py "c1", py "read", .obj [(py "path", .str (py "a.txt"))]⟩

/-- A charged root runs a pool, and its worker asks for one call. -/
def pooled : List Event :=
  [.bind 0 20, .runAll 0 2 false, .worker 0 ⟨py "w", none⟩ (py "1") none,
    .turn 1 false [readCall], .advance 1, .advance 1, .advance 1]

/-- A charged root spawns a sub-agent with a factory that returns its own client. -/
def refactored : List Event :=
  [.bind 0 20,
    .spawn 0 ⟨py "w", none⟩ (py "1") 20 (some (.guarded (.provider 0 (some (py "m"))) ⟨py "root", 0⟩)),
    .turn 1 true [readCall], .advance 1, .advance 1, .advance 1]

/-- One call of a worker costs two, one of them under the id of the root, which
    asked for nothing. -/
theorem pool_charges_twice :
    ((Steps.run step (Tree.start 9 (some (py "m"))) pooled).budget.used = 2 ∧
        (Steps.run step (Tree.start 9 (some (py "m"))) pooled).budget.callsBy (py "root") = 1 ∧
        ¬ Accounted (Steps.run step (Tree.start 9 (some (py "m"))) pooled)) ∧
      ¬ Accounted (Steps.run step (Tree.start 9 (some (py "m"))) refactored) := by
  refine ⟨⟨by decide, by decide, fun h => ?_⟩, fun h => ?_⟩
  · have hroot := (h.counted ⟨.guarded (.provider 0 (some (py "m"))) ⟨py "root", 0⟩,
      some ⟨py "root", 0⟩, [], none⟩ (by decide) ⟨py "root", 0⟩ rfl).1
    revert hroot
    decide
  · have hroot := (h.counted ⟨.guarded (.provider 0 (some (py "m"))) ⟨py "root", 0⟩,
      some ⟨py "root", 0⟩, [], none⟩ (by decide) ⟨py "root", 0⟩ rfl).1
    revert hroot
    decide

/-- A charged root, a sub-agent and its sub-agent, and a pool with clients of its own. -/
theorem calls_charged_once_tree :
    Accounted (Steps.run step (Tree.start 2 (some (py "m")))
      [.bind 0 1, .spawn 0 ⟨py "w", none⟩ (py "1") 1 none, .spawn 1 ⟨py "v", none⟩ (py "2") 1 none,
        .turn 0 false [readCall], .turn 2 true [readCall, readCall], .advance 2, .advance 0, .advance 0,
        .advance 2, .runAll 1 3 true, .worker 0 ⟨py "u", none⟩ (py "3") (some (.provider 1 none))]) :=
  calls_charged_once 2 (some (py "m")) _ (by decide)

end Delegation
end KineticSdk
