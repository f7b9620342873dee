/-
  KineticSdk.Server.Interleaving

  When the runs of a session do not interleave.

  An agent belongs to the session it was made for, or to its one request
  (`keyOf`), so two runs of one agent are two runs of one session.  Runs that
  take the lock exclude each other; a websocket run does not take it.  A request
  that has its agent relies on the session staying in the table, and nothing
  keeps a session that is in use from expiring.

  `Sound` is the invariant, `Sound.step` its one step.
-/

import KineticSdk.Lib.Slots
import KineticSdk.Py.Dict
import KineticSdk.Server.App

namespace KineticSdk
namespace Server

open Py
open Lib Lib.Slots

-- ============================================================================
-- The condition
-- ============================================================================

/-- A purge would drop the session now. -/
def AgentServer.expired (ttl : Option Int) (s : AgentServer) (sessionId : PyStr) : Bool :=
  ttl.any fun t => s.sessionActivity.any fun item => item.1 = sessionId && item.2 < s.now - t

/-- No session expires while a request has its agent and has not finished. -/
def AgentServer.UsedStay (ttl : Option Int) (s : AgentServer) : Prop :=
  ∀ r ∈ s.requests, r.phase.agent ≠ none → ∀ sessionId ∈ r.session, s.expired ttl sessionId = false

instance (ttl : Option Int) (s : AgentServer) : Decidable (s.UsedStay ttl) :=
  inferInstanceAs (Decidable (∀ r ∈ s.requests, r.phase.agent ≠ none →
    ∀ sessionId ∈ r.session, s.expired ttl sessionId = false))

/-- No two runs of the session meet of which one is a websocket run. -/
def AgentServer.Clear (s : AgentServer) (entry : Entry) (sessionId : PyStr) : Prop :=
  ∀ r ∈ s.requests, r.phase.runs ≠ none → r.session = some sessionId →
    entry ≠ .websocket ∧ r.entry ≠ .websocket

instance (s : AgentServer) (entry : Entry) (sessionId : PyStr) : Decidable (s.Clear entry sessionId) :=
  inferInstanceAs (Decidable (∀ r ∈ s.requests, r.phase.runs ≠ none → r.session = some sessionId →
    entry ≠ .websocket ∧ r.entry ≠ .websocket))

/-- The event is a purge. -/
def AgentServer.Purges (s : AgentServer) : Event → Prop
  | .makeAgent i _ _ =>
      s.lock = none ∧ ∃ r ∈ s.requests[i]?, r.phase = .waiting ∧ r.session ≠ none
  | .health => s.lock = none
  | _ => False

instance (s : AgentServer) : (e : Event) → Decidable (s.Purges e)
  | .makeAgent i _ _ => by
      unfold AgentServer.Purges
      infer_instance
  | .health => inferInstanceAs (Decidable (s.lock = none))
  | .tick _ | .arrive _ _ | .start _ | .finish _ _ => isFalse id

/-- The event drops no session in use, and starts no run next to another one
    when one of them is a websocket run. -/
def Orderly (ttl : Option Int) (s : AgentServer) : Event → Prop
  | .start i => ∀ r ∈ s.requests[i]?, ∀ sessionId ∈ r.session, s.Clear r.entry sessionId
  | e => s.Purges e → s.UsedStay ttl

instance (ttl : Option Int) (s : AgentServer) : (e : Event) → Decidable (Orderly ttl s e)
  | .start i => inferInstanceAs (Decidable (∀ r ∈ s.requests[i]?, ∀ sessionId ∈ r.session,
      s.Clear r.entry sessionId))
  | .tick d => inferInstanceAs (Decidable (s.Purges (.tick d) → s.UsedStay ttl))
  | .arrive entry session => inferInstanceAs (Decidable (s.Purges (.arrive entry session) → s.UsedStay ttl))
  | .makeAgent i made took =>
      inferInstanceAs (Decidable (s.Purges (.makeAgent i made took) → s.UsedStay ttl))
  | .finish i returned => inferInstanceAs (Decidable (s.Purges (.finish i returned) → s.UsedStay ttl))
  | .health => inferInstanceAs (Decidable (s.Purges .health → s.UsedStay ttl))

-- ============================================================================
-- The invariant
-- ============================================================================

/-- Whom the agent of a request is made for: its session, or itself. -/
def keyOf (i : Nat) (r : Request) : PyStr ⊕ Nat :=
  match r.session with
  | some sessionId => .inl sessionId
  | none => .inr i

/-- The invariant, for a record `home` of whom each agent was made for. -/
structure Sound (home : Nat → PyStr ⊕ Nat) (s : AgentServer) : Prop where
  keys : ∀ k, (Dict.get? s.sessions k).isSome = (Dict.get? s.sessionActivity k).isSome
  made : ∀ k a, Dict.get? s.sessions k = some a → a < s.agents ∧ home a = .inl k
  held : ∀ (i : Nat) (r : Request), s.requests[i]? = some r → ∀ a, r.phase.agent = some a →
    a < s.agents ∧ home a = keyOf i r ∧ ∀ k, r.session = some k → Dict.get? s.sessions k = some a
  alone : ∀ (i j : Nat) (r r' : Request) k, s.requests[i]? = some r → s.requests[j]? = some r' →
    r.phase.runs ≠ none → r'.phase.runs ≠ none → r.session = some k → r'.session = some k → i = j
  lock : ∀ (i : Nat) (r : Request), s.requests[i]? = some r → r.phase.runs ≠ none → r.entry.locks = true →
    r.session ≠ none → s.lock = some i

section Lemmas

variable {home : Nat → PyStr ⊕ Nat} {s : AgentServer} {i : Nat} {r : Request}

theorem Phase.agent_of_runs {p : Phase} (h : p.runs ≠ none) : ∃ a, p.agent = some a ∧ p = .running a := by
  cases p with
  | running a => exact ⟨a, rfl, rfl⟩
  | waiting => exact absurd rfl h
  | ready a => exact absurd rfl h
  | finished => exact absurd rfl h

/-- A request of the server after one of them has gone on. -/
theorem goto_cases {p : Phase} {j : Nat} {r' : Request}
    (h : (s.goto i r p).requests[j]? = some r') :
    (j = i ∧ r' = { r with phase := p }) ∨ (j ≠ i ∧ s.requests[j]? = some r') := by
  exact getElem?_set_cases h

/-- A request may go on when the agent it holds is its own, no other run of its
    session is on the way, and it has the lock if it needs it. -/
theorem Sound.goto (h : Sound home s) (hr : s.requests[i]? = some r) {p : Phase}
    (hheld : ∀ a, p.agent = some a → a < s.agents ∧ home a = keyOf i r ∧
      ∀ k, r.session = some k → Dict.get? s.sessions k = some a)
    (halone : p.runs ≠ none → ∀ k, r.session = some k → ∀ (j : Nat) (r' : Request), s.requests[j]? = some r' →
      r'.phase.runs ≠ none → r'.session = some k → j = i)
    (hlock : p.runs ≠ none → r.entry.locks = true → r.session ≠ none → s.lock = some i) :
    Sound home (s.goto i r p) where
  keys := h.keys
  made := h.made
  held j r' hj a ha := by
    rcases goto_cases hj with ⟨rfl, rfl⟩ | ⟨-, hj⟩
    · exact hheld a ha
    · exact h.held j r' hj a ha
  alone j j' q q' k hj hj' hq hq' hk hk' := by
    rcases goto_cases hj with ⟨rfl, rfl⟩ | ⟨hne, hj⟩
    · rcases goto_cases hj' with ⟨rfl, rfl⟩ | ⟨hne', hj'⟩
      · rfl
      · exact (halone hq k hk j' q' hj' hq' hk').symm
    · rcases goto_cases hj' with ⟨heq, rfl⟩ | ⟨hne', hj'⟩
      · rw [heq]
        exact halone hq' k hk' j q hj hq hk
      · exact h.alone j j' q q' k hj hj' hq hq' hk hk'
  lock j q hj hq hlocks hsession := by
    rcases goto_cases hj with ⟨rfl, rfl⟩ | ⟨-, hj⟩
    · exact hlock hq hlocks hsession
    · exact h.lock j q hj hq hlocks hsession

/-- The lock may change hands when no run relies on it. -/
theorem Sound.relock (h : Sound home s) {l : Option Nat}
    (hno : ∀ (j : Nat) (q : Request), s.requests[j]? = some q → q.phase.runs ≠ none → q.entry.locks = true →
      q.session = none) : Sound home { s with lock := l } where
  keys := h.keys
  made := h.made
  held := h.held
  alone := h.alone
  lock j q hj hq hlocks hsession := absurd (hno j q hj hq hlocks) hsession

theorem Sound.tick (h : Sound home s) (t : Int) : Sound home { s with now := t } where
  keys := h.keys
  made := h.made
  held := h.held
  alone := h.alone
  lock := h.lock

/-- A request that holds no agent may be finished. -/
theorem Sound.finished (h : Sound home s) (hr : s.requests[i]? = some r) :
    Sound home (s.goto i r .finished) :=
  h.goto hr (fun _ ha => (by cases ha)) (fun hruns => absurd rfl hruns) (fun hruns => absurd rfl hruns)

-- ============================================================================
-- The tables
-- ============================================================================

theorem isSome_set {β : Type} (d : List (PyStr × β)) (k k' : PyStr) (v : β) :
    (Dict.get? (Dict.set d k v) k').isSome = (decide (k = k') || (Dict.get? d k').isSome) := by
  by_cases hk : k = k'
  · rw [hk, Dict.get?_set_self]
    simp
  · rw [Dict.get?_set_of_ne d v hk]
    simp [hk]

/-- A session in the table may be touched. -/
theorem Sound.touch (h : Sound home s) {k : PyStr} {a : Nat} (hk : Dict.get? s.sessions k = some a) :
    Sound home (s.touch k) where
  keys k' := by
    have hk' := h.keys k'
    show (Dict.get? s.sessions k').isSome = (Dict.get? (Dict.set s.sessionActivity k s.now) k').isSome
    rw [isSome_set, ← hk']
    by_cases heq : k = k'
    · rw [← heq, hk]
      simp
    · simp [heq]
  made := h.made
  held := h.held
  alone := h.alone
  lock := h.lock

/-- One more agent, made for somebody. -/
def extend (home : Nat → PyStr ⊕ Nat) (n : Nat) (key : PyStr ⊕ Nat) (a : Nat) : PyStr ⊕ Nat :=
  if a = n then key else home a

theorem extend_of_lt {n a : Nat} (key : PyStr ⊕ Nat) (h : a < n) : extend home n key a = home a := by
  have hne : a ≠ n := by omega
  exact if_neg hne

theorem extend_self (n : Nat) (key : PyStr ⊕ Nat) : extend home n key n = key := if_pos rfl

/-- The factory makes an agent. -/
theorem Sound.fresh (h : Sound home s) (key : PyStr ⊕ Nat) :
    Sound (extend home s.agents key) { s with agents := s.agents + 1 } where
  keys := h.keys
  made k a hk := by
    obtain ⟨hlt, hhome⟩ := h.made k a hk
    rw [extend_of_lt key hlt]
    exact ⟨Nat.lt_succ_of_lt hlt, hhome⟩
  held j q hj a ha := by
    obtain ⟨hlt, hhome, hsession⟩ := h.held j q hj a ha
    rw [extend_of_lt key hlt]
    exact ⟨Nat.lt_succ_of_lt hlt, hhome, hsession⟩
  alone := h.alone
  lock := h.lock

/-- A session that is not in the table gets its agent. -/
theorem Sound.create (h : Sound home s) {k : PyStr} (hk : Dict.get? s.sessions k = none) (took : Nat) :
    Sound (extend home s.agents (.inl k)) ((s.create k took).touch k) where
  keys k' := by
    show (Dict.get? (Dict.set s.sessions k s.agents) k').isSome =
      (Dict.get? (Dict.set s.sessionActivity k (s.now + took)) k').isSome
    rw [isSome_set, isSome_set, h.keys]
  made k' a ha := by
    have hset : Dict.get? (Dict.set s.sessions k s.agents) k' = some a := ha
    show a < s.agents + 1 ∧ _
    by_cases heq : k = k'
    · rw [← heq, Dict.get?_set_self] at hset
      rw [← Option.some.inj hset, extend_self, heq]
      exact ⟨Nat.lt_succ_self _, rfl⟩
    · rw [Dict.get?_set_of_ne _ _ heq] at hset
      exact (h.fresh (.inl k)).made k' a hset
  held j q hj a ha := by
    obtain ⟨hlt, hhome, hsession⟩ := (h.fresh (.inl k)).held j q hj a ha
    refine ⟨hlt, hhome, fun k' hk' => ?_⟩
    have hold := hsession k' hk'
    have hne : k ≠ k' := fun heq => by rw [← heq, hk] at hold; cases hold
    show Dict.get? (Dict.set s.sessions k s.agents) k' = some a
    rw [Dict.get?_set_of_ne _ _ hne]
    exact hold
  alone := h.alone
  lock := h.lock

-- ============================================================================
-- Purging
-- ============================================================================

theorem dropExpired_tables (c : Int) (s : AgentServer) (item : PyStr × Int) (k : PyStr) :
    (Dict.get? (s.dropExpired c item).sessions k =
        if item.1 = k && item.2 < c then none else Dict.get? s.sessions k) ∧
      Dict.get? (s.dropExpired c item).sessionActivity k =
        if item.1 = k && item.2 < c then none else Dict.get? s.sessionActivity k := by
  unfold AgentServer.dropExpired
  by_cases hold : item.2 < c
  · by_cases hk : item.1 = k
    · simp [hold, hk, Dict.get?_pop]
    · have hk' : k ≠ item.1 := fun h => hk h.symm
      simp [hold, hk, hk', Dict.get?_pop]
  · simp [hold]

theorem dropExpired_frame (c : Int) (s : AgentServer) (item : PyStr × Int) :
    (s.dropExpired c item).now = s.now ∧ (s.dropExpired c item).lock = s.lock ∧
      (s.dropExpired c item).requests = s.requests ∧ (s.dropExpired c item).agents = s.agents := by
  unfold AgentServer.dropExpired
  split_ifs <;> exact ⟨rfl, rfl, rfl, rfl⟩

/-- What the loop of a purge leaves. -/
theorem foldl_dropExpired (c : Int) (items : List (PyStr × Int)) (s : AgentServer) (k : PyStr) :
    (Dict.get? (items.foldl (AgentServer.dropExpired c) s).sessions k =
        if items.any fun item => item.1 = k && item.2 < c then none else Dict.get? s.sessions k) ∧
      Dict.get? (items.foldl (AgentServer.dropExpired c) s).sessionActivity k =
        if items.any fun item => item.1 = k && item.2 < c then none
        else Dict.get? s.sessionActivity k := by
  induction items generalizing s with
  | nil => exact ⟨rfl, rfl⟩
  | cons item items ih =>
      obtain ⟨hsessions, hactivity⟩ := ih (s.dropExpired c item)
      obtain ⟨hs, ha⟩ := dropExpired_tables c s item k
      rw [List.foldl_cons, hsessions, hactivity, hs, ha, List.any_cons]
      cases (decide (item.1 = k) && decide (item.2 < c)) <;>
        cases items.any fun item => item.1 = k && item.2 < c <;> exact ⟨rfl, rfl⟩

theorem foldl_dropExpired_frame (c : Int) (items : List (PyStr × Int)) (s : AgentServer) :
    (items.foldl (AgentServer.dropExpired c) s).now = s.now ∧
      (items.foldl (AgentServer.dropExpired c) s).lock = s.lock ∧
      (items.foldl (AgentServer.dropExpired c) s).requests = s.requests ∧
      (items.foldl (AgentServer.dropExpired c) s).agents = s.agents := by
  induction items generalizing s with
  | nil => exact ⟨rfl, rfl, rfl, rfl⟩
  | cons item items ih =>
      obtain ⟨hnow, hlock, hrequests, hagents⟩ := ih (s.dropExpired c item)
      obtain ⟨h1, h2, h3, h4⟩ := dropExpired_frame c s item
      rw [List.foldl_cons]
      exact ⟨hnow.trans h1, hlock.trans h2, hrequests.trans h3, hagents.trans h4⟩

/-- A purge drops what has expired, from both tables. -/
theorem purge_tables (ttl : Option Int) (s : AgentServer) (k : PyStr) :
    (Dict.get? (s.purgeExpiredSessions ttl).sessions k =
        if s.expired ttl k then none else Dict.get? s.sessions k) ∧
      Dict.get? (s.purgeExpiredSessions ttl).sessionActivity k =
        if s.expired ttl k then none else Dict.get? s.sessionActivity k := by
  cases ttl with
  | none => exact ⟨rfl, rfl⟩
  | some t => exact foldl_dropExpired (s.now - t) s.sessionActivity s k

theorem purge_frame (ttl : Option Int) (s : AgentServer) :
    (s.purgeExpiredSessions ttl).lock = s.lock ∧
      (s.purgeExpiredSessions ttl).requests = s.requests ∧
      (s.purgeExpiredSessions ttl).agents = s.agents := by
  cases ttl with
  | none => exact ⟨rfl, rfl, rfl⟩
  | some t => exact (foldl_dropExpired_frame (s.now - t) s.sessionActivity s).2

/-- A purge that drops nothing in use. -/
theorem Sound.purge (h : Sound home s) {ttl : Option Int} (hused : s.UsedStay ttl) :
    Sound home (s.purgeExpiredSessions ttl) := by
  obtain ⟨hlock, hrequests, hagents⟩ := purge_frame ttl s
  have htables := purge_tables ttl s
  constructor
  · intro k
    obtain ⟨hsessions, hactivity⟩ := htables k
    have hk := h.keys k
    rw [hsessions, hactivity]
    split_ifs
    · rfl
    · exact hk
  · intro k a ha
    rw [(htables k).1] at ha
    rw [hagents]
    split_ifs at ha
    exact h.made k a ha
  · intro j q hj a ha
    rw [hrequests] at hj
    obtain ⟨hlt, hhome, hsession⟩ := h.held j q hj a ha
    rw [hagents]
    refine ⟨hlt, hhome, fun k hk => ?_⟩
    have hholds : q.phase.agent ≠ none := by rw [ha]; exact Option.some_ne_none a
    have hstay := hused q (List.mem_of_getElem? hj) hholds k hk
    rw [(htables k).1, hstay]
    exact hsession k hk
  · intro j j' q q' k hj hj'
    rw [hrequests] at hj hj'
    exact h.alone j j' q q' k hj hj'
  · intro j q hj
    rw [hrequests] at hj
    rw [hlock]
    exact h.lock j q hj

-- ============================================================================
-- One step
-- ============================================================================

/-- A request gets an agent that is its own. -/
theorem Sound.ready (h : Sound home s) (hr : s.requests[i]? = some r) {a : Nat} (ha : a < s.agents)
    (hhome : home a = keyOf i r) (hk : ∀ k, r.session = some k → Dict.get? s.sessions k = some a) :
    Sound home (s.goto i r (.ready a)) := by
  refine h.goto hr (fun b hb => ?_) (fun hruns => absurd rfl hruns) (fun hruns => absurd rfl hruns)
  cases hb
  exact ⟨ha, hhome, hk⟩

theorem keyOf_session {k : PyStr} (hk : r.session = some k) : keyOf i r = .inl k := by
  unfold keyOf
  rw [hk]

theorem Sound.sessionAgent (h : Sound home s) (hr : s.requests[i]? = some r) {k : PyStr}
    (hk : r.session = some k) (made : Bool) (took : Nat) :
    ∃ home, Sound home (s.sessionAgent i r k made took) := by
  unfold AgentServer.sessionAgent
  cases hget : Dict.get? s.sessions k with
  | some a =>
      obtain ⟨hlt, hhome⟩ := h.made k a hget
      refine ⟨home, (h.touch hget).ready hr hlt (hhome.trans (keyOf_session hk).symm) ?_⟩
      intro k' hk'
      cases hk.symm.trans hk'
      exact hget
  | none =>
      cases made with
      | false => exact ⟨home, (h.tick (s.now + took)).finished hr⟩
      | true =>
          have hcreate := h.create hget took
          have hself : Dict.get? (Dict.set s.sessions k s.agents) k = some s.agents :=
            Dict.get?_set_self s.sessions k s.agents
          have hhome : extend home s.agents (.inl k) s.agents = keyOf i r :=
            (extend_self s.agents (.inl k)).trans (keyOf_session hk).symm
          refine ⟨_, hcreate.ready hr (Nat.lt_succ_self _) hhome fun k' hk' => ?_⟩
          cases hk.symm.trans hk'
          exact hself

theorem Sound.makeAgent (h : Sound home s) (hr : s.requests[i]? = some r) {ttl : Option Int}
    (hused : s.lock = none → r.session ≠ none → s.UsedStay ttl) (made : Bool) (took : Nat) :
    ∃ home, Sound home (s.makeAgent ttl i r made took) := by
  unfold AgentServer.makeAgent
  cases hk : r.session with
  | none =>
      cases made with
      | false => exact ⟨home, h.finished hr⟩
      | true =>
          have hkey : keyOf i r = .inr i := by
            unfold keyOf
            rw [hk]
          have hhome : extend home s.agents (.inr i) s.agents = keyOf i r :=
            (extend_self s.agents (.inr i)).trans hkey.symm
          refine ⟨_, (h.fresh (.inr i)).ready hr (Nat.lt_succ_self _) hhome fun k' hk' => ?_⟩
          rw [hk] at hk'
          cases hk'
  | some k =>
      dsimp only
      split_ifs with hlock
      · have hsession : r.session ≠ none := by rw [hk]; exact Option.some_ne_none k
        have hpurge := h.purge (hused hlock hsession)
        have hreq : (s.purgeExpiredSessions ttl).requests[i]? = some r := by
          rw [(purge_frame ttl s).2.1]
          exact hr
        exact hpurge.sessionAgent hreq hk made took
      · exact ⟨home, h⟩

theorem Sound.start (h : Sound home s) {a : Nat} (hr : s.requests[i]? = some r)
    (hready : r.phase = .ready a) (hclear : ∀ k, r.session = some k → s.Clear r.entry k) :
    Sound home (s.start i r a) := by
  have hheld : ∀ b, (Phase.running a).agent = some b → b < s.agents ∧ home b = keyOf i r ∧
      ∀ k, r.session = some k → Dict.get? s.sessions k = some b := by
    intro b hb
    cases hb
    exact h.held i r hr a (by rw [hready]; rfl)
  unfold AgentServer.start
  split_ifs with hlocks hfree
  · -- with the lock: whoever runs this session has it, too
    have hrelock : Sound home { s with lock := some i } := by
      refine h.relock fun j q hj hruns hql => ?_
      by_contra hsession
      have := h.lock j q hj hruns hql hsession
      rw [hfree] at this
      cases this
    refine hrelock.goto hr hheld (fun _ k hk j q hj hruns hqk => ?_) (fun _ _ _ => rfl)
    have hnot := (hclear k hk q (List.mem_of_getElem? hj) hruns hqk).2
    have hql : q.entry.locks = true := by
      cases hentry : q.entry <;> first | rfl | exact absurd hentry hnot
    have hqs : q.session ≠ none := by rw [hqk]; exact Option.some_ne_none k
    have := h.lock j q hj hruns hql hqs
    rw [hfree] at this
    cases this
  · exact h
  · -- without it: a run without a session, or of a websocket
    refine h.goto hr hheld (fun _ k hk j q hj hruns hqk => ?_) (fun _ hl hs => absurd ⟨hl, hs⟩ hlocks)
    have hnot := (hclear k hk q (List.mem_of_getElem? hj) hruns hqk).1
    have hl : r.entry.locks = true := by
      cases hentry : r.entry <;> first | rfl | exact absurd hentry hnot
    exact absurd ⟨hl, by rw [hk]; exact Option.some_ne_none k⟩ hlocks

/-- The run that has the lock gives it up. -/
theorem Sound.unlock (h : Sound home s) (hr : s.requests[i]? = some r) (hlock : s.lock = some i) :
    Sound home (({ s with lock := none } : AgentServer).goto i r .finished) := by
  have hfinished : Sound home (s.goto i r .finished) := h.finished hr
  refine hfinished.relock fun j q hj hruns hl => ?_
  by_contra hsession
  have hj' := hfinished.lock j q hj hruns hl hsession
  cases hlock.symm.trans hj'
  rcases goto_cases hj with ⟨-, rfl⟩ | ⟨hne, -⟩
  · exact hruns rfl
  · exact hne rfl

theorem Sound.finish (h : Sound home s) {a : Nat} (hr : s.requests[i]? = some r)
    (hrunning : r.phase = .running a) (returned : Bool) : Sound home (s.finish i r returned) := by
  unfold AgentServer.finish
  cases hk : r.session with
  | none => exact h.finished hr
  | some k =>
      have hruns : r.phase.runs ≠ none := by rw [hrunning]; exact Option.some_ne_none a
      have hsession : r.session ≠ none := by rw [hk]; exact Option.some_ne_none k
      have hheld := (h.held i r hr a (by rw [hrunning]; rfl)).2.2 k hk
      dsimp only
      split_ifs with hlocks hret
      · exact (h.touch hheld).unlock hr (h.lock i r hr hruns hlocks hsession)
      · exact h.unlock hr (h.lock i r hr hruns hlocks hsession)
      · exact h.finished hr

theorem Sound.arrive (h : Sound home s) (entry : Entry) (session : Option PyStr) :
    Sound home { s with requests := s.requests ++ [{ entry := entry, session := session }] } := by
  -- the new request holds nothing
  have hold : ∀ (j : Nat) (q : Request), (s.requests ++ [{ entry := entry, session := session }])[j]? = some q →
      s.requests[j]? = some q ∨ q.phase = .waiting := by
    intro j q hj
    rw [List.getElem?_append] at hj
    split_ifs at hj
    · exact .inl hj
    · rw [List.mem_singleton.mp (List.mem_of_getElem? hj)]
      exact .inr rfl
  have hruns : ∀ (j : Nat) (q : Request), (s.requests ++ [{ entry := entry, session := session }])[j]? = some q →
      q.phase.runs ≠ none → s.requests[j]? = some q := by
    intro j q hj hq
    rcases hold j q hj with hj | hwait
    · exact hj
    · exact absurd (by rw [hwait]; rfl) hq
  constructor
  · exact h.keys
  · exact h.made
  · intro j q hj a ha
    rcases hold j q hj with hj | hwait
    · exact h.held j q hj a ha
    · rw [hwait] at ha
      cases ha
  · intro j j' q q' k hj hj' hq hq'
    exact h.alone j j' q q' k (hruns j q hj hq) (hruns j' q' hj' hq') hq hq'
  · intro j q hj hq
    exact h.lock j q (hruns j q hj hq) hq

/-- An orderly step keeps the invariant. -/
theorem Sound.step (h : Sound home s) {ttl : Option Int} {e : Event} (he : Orderly ttl s e) :
    ∃ home, Sound home (step ttl s e) := by
  cases e with
  | tick d => exact ⟨home, h.tick (s.now + d)⟩
  | arrive entry session => exact ⟨home, h.arrive entry session⟩
  | makeAgent i made took =>
      cases hr : s.requests[i]? with
      | none => simpa only [Server.step, hr] using ⟨home, h⟩
      | some r =>
          simp only [Server.step, hr]
          split_ifs with hwait
          · have hr' : r ∈ s.requests[i]? := hr
            exact h.makeAgent hr (fun hlock hsession => he ⟨hlock, r, hr', hwait, hsession⟩) made took
          · exact ⟨home, h⟩
  | start i =>
      cases hr : s.requests[i]? with
      | none => simpa only [Server.step, hr] using ⟨home, h⟩
      | some r =>
          cases hphase : r.phase with
          | ready a =>
              simp only [Server.step, hr, hphase]
              exact ⟨home, h.start hr hphase fun k hk => he r hr k hk⟩
          | waiting => simpa only [Server.step, hr, hphase] using ⟨home, h⟩
          | running a => simpa only [Server.step, hr, hphase] using ⟨home, h⟩
          | finished => simpa only [Server.step, hr, hphase] using ⟨home, h⟩
  | finish i returned =>
      cases hr : s.requests[i]? with
      | none => simpa only [Server.step, hr] using ⟨home, h⟩
      | some r =>
          cases hphase : r.phase with
          | running a =>
              simp only [Server.step, hr, hphase]
              exact ⟨home, h.finish hr hphase returned⟩
          | waiting => simpa only [Server.step, hr, hphase] using ⟨home, h⟩
          | ready a => simpa only [Server.step, hr, hphase] using ⟨home, h⟩
          | finished => simpa only [Server.step, hr, hphase] using ⟨home, h⟩
  | health =>
      simp only [Server.step]
      split_ifs with hlock
      · exact ⟨home, h.purge (he hlock)⟩
      · exact ⟨home, h⟩

theorem Sound.initial : Sound (fun a => .inr a) {} where
  keys _ := rfl
  made _ _ h := by cases h
  held _ _ h := by cases h
  alone _ _ _ _ _ h := by cases h
  lock _ _ h := by cases h

end Lemmas

-- ============================================================================
-- Runs
-- ============================================================================

/-- No two runs of an agent overlap, a live session has one agent, and the two
    tables have the same keys. -/
structure Safe (s : AgentServer) : Prop where
  exclusive : ∀ (i j : Nat) (r r' : Request) a, s.requests[i]? = some r → s.requests[j]? = some r' →
    r.phase.runs = some a → r'.phase.runs = some a → i = j
  single : ∀ k a, Dict.get? s.sessions k = some a → ∀ r ∈ s.requests, r.session = some k →
    ∀ b, r.phase.agent = some b → b = a
  keys : ∀ k, k ∈ s.sessions.map Prod.fst ↔ k ∈ s.sessionActivity.map Prod.fst

theorem Sound.safe {home : Nat → PyStr ⊕ Nat} {s : AgentServer} (h : Sound home s) : Safe s where
  exclusive i j r r' a hi hj hr hr' := by
    have hruns : r.phase.runs ≠ none := by rw [hr]; exact Option.some_ne_none a
    have hruns' : r'.phase.runs ≠ none := by rw [hr']; exact Option.some_ne_none a
    obtain ⟨b, hb, hphase⟩ := Phase.agent_of_runs hruns
    obtain ⟨b', hb', hphase'⟩ := Phase.agent_of_runs hruns'
    have hab : b = a := by
      rw [hphase] at hr
      exact Option.some.inj hr
    have hab' : b' = a := by
      rw [hphase'] at hr'
      exact Option.some.inj hr'
    have hkey : keyOf i r = keyOf j r' := by
      rw [← (h.held i r hi b hb).2.1, ← (h.held j r' hj b' hb').2.1, hab, hab']
    unfold keyOf at hkey
    cases hk : r.session with
    | some k =>
        cases hk' : r'.session with
        | some k' =>
            rw [hk, hk'] at hkey
            cases hkey
            exact h.alone i j r r' k hi hj hruns hruns' hk hk'
        | none =>
            rw [hk, hk'] at hkey
            cases hkey
    | none =>
        cases hk' : r'.session with
        | some k' =>
            rw [hk, hk'] at hkey
            cases hkey
        | none =>
            rw [hk, hk'] at hkey
            cases hkey
            rfl
  single k a hk r hr hsession b hb := by
    obtain ⟨i, hi⟩ := List.mem_iff_getElem?.mp hr
    have hheld := (h.held i r hi b hb).2.2 k hsession
    exact (Option.some.inj (hk.symm.trans hheld)).symm
  keys k := by rw [Dict.mem_keys_iff, Dict.mem_keys_iff, h.keys]

/-- The runs of a session do not interleave when no session expires in use and
    no run meets a websocket run of its session. -/
theorem session_runs_exclusive (ttl : Option Int) (now : Int) (es : List Event)
    (hes : Steps.Meets (step ttl) (Orderly ttl) { now := now } es) :
    Safe (Steps.run (step ttl) { now := now } es) := by
  have hinitial : ∃ home, Sound home { now := now } := ⟨_, Sound.initial.tick now⟩
  have hkeeps := hes.keeps (I := fun s => ∃ home, Sound home s)
    (fun _ _ ⟨_, h⟩ he => h.step he) hinitial
  obtain ⟨home, h⟩ := hkeeps
  exact h.safe

/-- A run over HTTP and one over a websocket, in one session. -/
def overlapping : List Event :=
  [.arrive .runs (some (py "a")), .arrive .websocket (some (py "a")), .makeAgent 0 true 0,
    .makeAgent 1 true 0, .start 1, .start 0]

/-- A session expires between the agent of a request and its run. -/
def recreated : List Event :=
  [.arrive .runs (some (py "a")), .makeAgent 0 true 0, .tick 11, .arrive .runs (some (py "a")),
    .makeAgent 1 true 0, .start 0]

/-- The run of a session that has expired leaves its activity. -/
def orphaned : List Event :=
  [.arrive .runs (some (py "a")), .makeAgent 0 true 0, .tick 11, .health, .start 0, .finish 0 true]

/-- Two runs of an agent overlap; a session has two agents; the tables differ. -/
theorem sessions_interleave :
    ¬ Safe (Steps.run (step none) {} overlapping) ∧
      ¬ Safe (Steps.run (step (some 10)) {} recreated) ∧
      ¬ Safe (Steps.run (step (some 10)) {} orphaned) := by
  refine ⟨fun h => ?_, fun h => ?_, fun h => ?_⟩
  · have heq := h.exclusive 0 1 ⟨.runs, some (py "a"), .running 0⟩
      ⟨.websocket, some (py "a"), .running 0⟩ 0 (by decide) (by decide) rfl rfl
    cases heq
  · have heq := h.single (py "a") 1 (by decide) ⟨.runs, some (py "a"), .running 0⟩ (by decide) rfl 0 rfl
    cases heq
  · have hkey := (h.keys (py "a")).mpr (by decide)
    revert hkey
    decide

/-- Two runs of a session wait for each other, and a websocket run follows. -/
theorem session_runs_exclusive_queue :
    Safe (Steps.run (step (some 10)) {}
      [.arrive .runs (some (py "a")), .arrive .chatCompletions (some (py "a")), .makeAgent 0 true 1,
        .makeAgent 1 true 0, .start 0, .start 1, .tick 9, .finish 0 true, .start 1, .health,
        .finish 1 true, .arrive .websocket (some (py "a")), .makeAgent 2 true 0, .start 2]) :=
  session_runs_exclusive (some 10) 0 _ (by decide)

end Server
end KineticSdk
