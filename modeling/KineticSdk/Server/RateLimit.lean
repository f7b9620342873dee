/-
  KineticSdk.Server.RateLimit

  `AgentServer._allow_request` (`server/app.py`): the limit on the requests of a
  client.

  Old times are dropped from the deque of a client only when that client calls
  again.  Still, at the client's next request the deque holds exactly the
  accepted times of the last 60 seconds (`Fresh`), because they come in order;
  so a decision is about the accepted requests alone (`answer_eq`).
-/

import KineticSdk.Lib.Steps
import KineticSdk.Lib.Window
import KineticSdk.Py.Json
import Mathlib.Data.Rat.Floor
import Mathlib.Tactic.Linarith

namespace KineticSdk
namespace Server

open Py Lib.Window

-- ============================================================================
-- One request
-- ============================================================================

/-- `max_requests_per_minute`, which the constructor wants to be positive. -/
abbrev Limit := { n : Nat // 0 < n }

/-- `_request_times`: the times of each client, the oldest first. -/
abbrev RequestTimes := List (PyStr × List ℚ)

/-- `int(x)`, which cuts off the fraction. -/
def truncate (x : ℚ) : Int := x.num.tdiv x.den

/-- The times of a client that `_allow_request` does not pop. -/
def keptTimes (requestTimes : RequestTimes) (clientIp : PyStr) (now : ℚ) : List ℚ :=
  ((Dict.get? requestTimes clientIp).getD []).dropWhile fun t => t ≤ now - 60

/-- `_allow_request`: the times after it, and its answer. -/
def allowRequest (limit : Option Limit) (requestTimes : RequestTimes) (clientIp : PyStr) (now : ℚ) :
    RequestTimes × Bool × Int :=
  match limit with
  | none => (requestTimes, true, 0)
  | some limit =>
      let times := keptTimes requestTimes clientIp now
      if h : limit.val ≤ times.length then
        let first := times.head (List.ne_nil_of_length_pos (lt_of_lt_of_le limit.property h))
        (Dict.set requestTimes clientIp times, false, max 1 (truncate (60 - (now - first)) + 1))
      else (Dict.set requestTimes clientIp (times ++ [now]), true, 0)

-- ============================================================================
-- All requests
-- ============================================================================

/-- A request, with the address of its client. -/
structure Arrival where
  client : PyStr
  now : ℚ
deriving DecidableEq

/-- What a server has answered so far. -/
structure Answered where
  requestTimes : RequestTimes := []
  accepted : List Arrival := []

/-- One request. -/
def Answered.step (limit : Option Limit) (s : Answered) (r : Arrival) : Answered :=
  let (requestTimes, allowed, _) := allowRequest limit s.requestTimes r.client r.now
  ⟨requestTimes, if allowed then s.accepted ++ [r] else s.accepted⟩

/-- The requests of a run. -/
def answered (limit : Option Limit) (requests : List Arrival) : Answered :=
  Lib.Steps.run (Answered.step limit) {} requests

/-- The answer to one more request. -/
def answer (limit : Option Limit) (requests : List Arrival) (clientIp : PyStr) (now : ℚ) : Bool × Int :=
  (allowRequest limit (answered limit requests).requestTimes clientIp now).2

/-- The times of a client's requests. -/
def timesOf (client : PyStr) (requests : List Arrival) : List ℚ :=
  (requests.filter fun r => r.client = client).map Arrival.now

/-- The times of a client's requests that were accepted. -/
def acceptedTimes (limit : Option Limit) (client : PyStr) (requests : List Arrival) : List ℚ :=
  timesOf client (answered limit requests).accepted

section Facts

variable {limit : Limit} {client : PyStr} {requestTimes : RequestTimes} {now : ℚ}

theorem timesOf_append (client : PyStr) (rs rs' : List Arrival) :
    timesOf client (rs ++ rs') = timesOf client rs ++ timesOf client rs' := by
  unfold timesOf
  rw [List.filter_append, List.map_append]

theorem timesOf_self (client : PyStr) (now : ℚ) : timesOf client [⟨client, now⟩] = [now] := by
  simp [timesOf]

theorem timesOf_other {r : Arrival} (h : r.client ≠ client) : timesOf client [r] = [] := by
  simp [timesOf, h]

theorem timesOf_others {rs : List Arrival} (h : ∀ r ∈ rs, r.client ≠ client) : timesOf client rs = [] := by
  unfold timesOf
  rw [List.filter_eq_nil_iff.mpr fun r hr => by simpa using h r hr]
  rfl

theorem answered_snoc (limit : Option Limit) (rs : List Arrival) (r : Arrival) :
    answered limit (rs ++ [r]) = (answered limit rs).step limit r := Lib.Steps.run_append ..

theorem truncate_of_nonneg {x : ℚ} (h : 0 ≤ x) : truncate x = ⌊x⌋ := by
  unfold truncate
  rw [Int.tdiv_eq_ediv_of_nonneg (Rat.num_nonneg.mpr h), Rat.floor_def']

theorem allowRequest_full (h : limit.val ≤ (keptTimes requestTimes client now).length) :
    ∃ first rest, keptTimes requestTimes client now = first :: rest ∧
      allowRequest (some limit) requestTimes client now
        = (Dict.set requestTimes client (keptTimes requestTimes client now), false,
            max 1 (truncate (60 - (now - first)) + 1)) := by
  have hne := List.ne_nil_of_length_pos (lt_of_lt_of_le limit.property h)
  refine ⟨_, _, (List.cons_head_tail hne).symm, ?_⟩
  unfold allowRequest
  dsimp only
  rw [dif_pos h]

theorem allowRequest_free (h : (keptTimes requestTimes client now).length < limit.val) :
    allowRequest (some limit) requestTimes client now
      = (Dict.set requestTimes client (keptTimes requestTimes client now ++ [now]), true, 0) := by
  unfold allowRequest
  dsimp only
  rw [dif_neg (not_le.mpr h)]

theorem allowRequest_allowed :
    (allowRequest (some limit) requestTimes client now).2.1 = true ↔
      (keptTimes requestTimes client now).length < limit.val := by
  by_cases h : limit.val ≤ (keptTimes requestTimes client now).length
  · obtain ⟨first, rest, -, heq⟩ := allowRequest_full h
    rw [heq]
    simpa using h
  · rw [allowRequest_free (not_le.mp h)]
    simpa using h

/-- A request leaves the times of other clients as they are. -/
theorem allowRequest_other {other : PyStr} (h : client ≠ other) :
    Dict.get? (allowRequest (some limit) requestTimes client now).1 other
      = Dict.get? requestTimes other := by
  by_cases hfull : limit.val ≤ (keptTimes requestTimes client now).length
  · obtain ⟨first, rest, -, heq⟩ := allowRequest_full hfull
    rw [heq, Dict.get?_set_of_ne _ _ h]
  · rw [allowRequest_free (not_le.mp hfull), Dict.get?_set_of_ne _ _ h]

end Facts

-- ============================================================================
-- The deque of a client
-- ============================================================================

/-- At any later time the deque holds the accepted times of the last minute. -/
structure Fresh (limit : Limit) (client : PyStr) (rs : List Arrival) : Prop where
  kept : ∀ now, (∀ x ∈ timesOf client rs, x ≤ now) →
    keptTimes (answered (some limit) rs).requestTimes client now
      = recent 60 now (acceptedTimes (some limit) client rs)
  sublist : (acceptedTimes (some limit) client rs).Sublist (timesOf client rs)
  spaced : Spaced 60 limit.val (acceptedTimes (some limit) client rs)

section Runs

variable {limit : Limit} {client : PyStr} {rs : List Arrival} {now : ℚ}

theorem keptTimes_set (requestTimes : RequestTimes) (client : PyStr) {times : List ℚ} (now : ℚ)
    (h : times.Pairwise (· ≤ ·)) :
    keptTimes (Dict.set requestTimes client times) client now = recent 60 now times := by
  unfold keptTimes
  rw [Dict.get?_set_self, Option.getD_some, dropWhile_eq_recent h]

theorem acceptedTimes_snoc (r : Arrival) :
    acceptedTimes (some limit) client (rs ++ [r])
      = acceptedTimes (some limit) client rs ++
          if (answer (some limit) rs r.client r.now).1 then timesOf client [r] else [] := by
  have hstep : ((answered (some limit) rs).step (some limit) r).accepted
      = if (answer (some limit) rs r.client r.now).1 then (answered (some limit) rs).accepted ++ [r]
        else (answered (some limit) rs).accepted := rfl
  unfold acceptedTimes
  rw [answered_snoc, hstep]
  by_cases hallowed : (answer (some limit) rs r.client r.now).1 = true
  · rw [if_pos hallowed, if_pos hallowed, timesOf_append]
  · rw [if_neg hallowed, if_neg hallowed, List.append_nil]

/-- A request of another client changes nothing. -/
theorem Fresh.other {r : Arrival} (h : Fresh limit client rs) (hr : r.client ≠ client) :
    Fresh limit client (rs ++ [r]) := by
  have htimes : timesOf client (rs ++ [r]) = timesOf client rs := by
    rw [timesOf_append, timesOf_other hr, List.append_nil]
  have haccepted : acceptedTimes (some limit) client (rs ++ [r]) = acceptedTimes (some limit) client rs := by
    rw [acceptedTimes_snoc, timesOf_other hr, ite_self, List.append_nil]
  refine ⟨fun now hnow => ?_, ?_, ?_⟩
  · rw [htimes] at hnow
    rw [haccepted, ← h.kept now hnow, answered_snoc]
    unfold keptTimes
    show ((Dict.get? (allowRequest (some limit) _ r.client r.now).1 client).getD []).dropWhile _ = _
    rw [allowRequest_other hr]
  · rw [htimes, haccepted]
    exact h.sublist
  · rw [haccepted]
    exact h.spaced

/-- A request of the client. -/
theorem Fresh.own {now : ℚ} (h : Fresh limit client rs)
    (hclock : (timesOf client (rs ++ [⟨client, now⟩])).Pairwise (· ≤ ·)) :
    Fresh limit client (rs ++ [⟨client, now⟩]) := by
  have htimes : timesOf client (rs ++ [⟨client, now⟩]) = timesOf client rs ++ [now] := by
    rw [timesOf_append, timesOf_self]
  rw [htimes, List.pairwise_append] at hclock
  obtain ⟨hsorted, -, hle⟩ := hclock
  have hnow : ∀ x ∈ timesOf client rs, x ≤ now := fun x hx => hle x hx now (List.mem_singleton_self now)
  have hkept := h.kept now hnow
  have hacc := hsorted.sublist h.sublist
  have hrecent : (recent 60 now (acceptedTimes (some limit) client rs)).Pairwise (· ≤ ·) :=
    hacc.sublist List.filter_sublist
  have hstep : answered (some limit) (rs ++ [⟨client, now⟩])
      = (answered (some limit) rs).step (some limit) ⟨client, now⟩ := answered_snoc ..
  by_cases hfull : limit.val ≤ (keptTimes (answered (some limit) rs).requestTimes client now).length
  · -- turned down: old times go, and nothing is added
    obtain ⟨first, rest, -, hanswer⟩ := allowRequest_full hfull
    have haccepted : acceptedTimes (some limit) client (rs ++ [⟨client, now⟩])
        = acceptedTimes (some limit) client rs := by
      rw [acceptedTimes_snoc]
      unfold answer
      rw [hanswer, if_neg Bool.false_ne_true, List.append_nil]
    refine ⟨fun later hlater => ?_, ?_, ?_⟩
    · have hle' : now ≤ later := hlater now (by rw [htimes]; simp)
      rw [haccepted, hstep]
      unfold Answered.step
      rw [hanswer, hkept, keptTimes_set _ _ _ hrecent, recent_recent hle']
    · rw [haccepted, htimes]
      exact h.sublist.trans (List.sublist_append_left ..)
    · rw [haccepted]
      exact h.spaced
  · have hanswer := allowRequest_free (not_le.mp hfull)
    have haccepted : acceptedTimes (some limit) client (rs ++ [⟨client, now⟩])
        = acceptedTimes (some limit) client rs ++ [now] := by
      rw [acceptedTimes_snoc]
      unfold answer
      rw [hanswer, if_pos rfl, timesOf_self]
    refine ⟨fun later hlater => ?_, ?_, ?_⟩
    · have hle' : now ≤ later := hlater now (by rw [htimes]; simp)
      have hsnoc : (recent 60 now (acceptedTimes (some limit) client rs) ++ [now]).Pairwise (· ≤ ·) := by
        rw [List.pairwise_append]
        refine ⟨hrecent, List.pairwise_singleton .., fun x hx y hy => ?_⟩
        rw [List.mem_singleton.mp hy]
        exact hnow x (h.sublist.subset (mem_recent.mp hx).1)
      rw [haccepted, hstep]
      unfold Answered.step
      rw [hanswer, hkept, keptTimes_set _ _ _ hsnoc, recent_append, recent_recent hle', recent_append]
    · rw [haccepted, htimes]
      exact h.sublist.append (List.Sublist.refl _)
    · rw [haccepted]
      refine h.spaced.snoc ?_
      rw [← hkept]
      exact not_le.mp hfull

/-- So it is after any requests, when those of the client come in order. -/
theorem fresh_of_clock (hclock : (timesOf client rs).Pairwise (· ≤ ·)) : Fresh limit client rs := by
  induction rs using List.reverseRecOn with
  | nil => exact ⟨fun _ _ => rfl, List.Sublist.refl _, .nil⟩
  | append_singleton rs r ih =>
      have hbefore : (timesOf client rs).Pairwise (· ≤ ·) := by
        rw [timesOf_append, List.pairwise_append] at hclock
        exact hclock.1
      by_cases hr : r.client = client
      · obtain ⟨c, now⟩ := r
        obtain rfl : c = client := hr
        exact (ih hbefore).own hclock
      · exact (ih hbefore).other hr

-- ============================================================================
-- The limit is exact
-- ============================================================================

theorem Fresh.answer_iff (h : Fresh limit client rs) (hnow : ∀ x ∈ timesOf client rs, x ≤ now) :
    (answer (some limit) rs client now).1 = true ↔
      (recent 60 now (acceptedTimes (some limit) client rs)).length < limit.val := by
  rw [← h.kept now hnow]
  exact allowRequest_allowed

/-- No more than the limit are ever recent. -/
theorem Fresh.length_recent_le (h : Fresh limit client rs) (hnow : ∀ x ∈ timesOf client rs, x ≤ now) :
    (recent 60 now (acceptedTimes (some limit) client rs)).length ≤ limit.val := by
  unfold recent
  rw [← List.countP_eq_length_filter]
  have hcount : (acceptedTimes (some limit) client rs).countP (fun x => now - 60 < x)
      = (acceptedTimes (some limit) client rs).countP fun x => now - 60 < x ∧ x ≤ now :=
    List.countP_congr fun x hx => by simpa using fun _ => hnow x (h.sublist.subset hx)
  rw [hcount]
  refine h.spaced.countP_le fun x y hx hy => ?_
  simp only [decide_eq_true_eq] at hx hy
  linarith

/-- The advice is longer than the oldest recent request has to go. -/
theorem lt_retryAfter {first : ℚ} (hfirst : now - 60 < first) :
    first < now + (max 1 (truncate (60 - (now - first)) + 1) : Int) - 60 := by
  have hnonneg : 0 ≤ 60 - (now - first) := by linarith
  have hfloor : 60 - (now - first) < ((⌊60 - (now - first)⌋ + 1 : Int) : ℚ) := by
    rw [Int.cast_add, Int.cast_one]
    exact Int.lt_floor_add_one _
  have hmax : ((⌊60 - (now - first)⌋ + 1 : Int) : ℚ)
      ≤ (max 1 (truncate (60 - (now - first)) + 1) : Int) := by
    rw [truncate_of_nonneg hnonneg]
    exact Int.cast_le.mpr (le_max_right ..)
  linarith

theorem acceptedTimes_others {others : List Arrival} (h : ∀ r ∈ others, r.client ≠ client) :
    acceptedTimes (some limit) client (rs ++ others) = acceptedTimes (some limit) client rs := by
  induction others using List.reverseRecOn with
  | nil => rw [List.append_nil]
  | append_singleton others r ih =>
      rw [← List.append_assoc, acceptedTimes_snoc, timesOf_other (h r (by simp)), ite_self, List.append_nil]
      exact ih fun r' hr' => h r' (List.mem_append_left _ hr')

/-- A client that waits as it is told is accepted. -/
theorem accepted_after {retryAfter : Int} {others : List Arrival} {later : ℚ}
    (hclock : (timesOf client rs).Pairwise (· ≤ ·)) (hnow : ∀ x ∈ timesOf client rs, x ≤ now)
    (hrejected : answer (some limit) rs client now = (false, retryAfter))
    (hothers : ∀ r ∈ others, r.client ≠ client) (hlater : now + retryAfter ≤ later) :
    (answer (some limit) (rs ++ ⟨client, now⟩ :: others) client later).1 = true := by
  have hfresh : Fresh limit client rs := fresh_of_clock hclock
  have hfull : limit.val ≤ (keptTimes (answered (some limit) rs).requestTimes client now).length := by
    have hfalse : (answer (some limit) rs client now).1 ≠ true := by rw [hrejected]; exact Bool.false_ne_true
    exact not_lt.mp fun hlt => hfalse (allowRequest_allowed.mpr hlt)
  obtain ⟨first, rest, hkept, hanswer⟩ := allowRequest_full hfull
  have hretry : max 1 (truncate (60 - (now - first)) + 1) = retryAfter := by
    unfold answer at hrejected
    rw [hanswer] at hrejected
    exact congrArg Prod.snd hrejected
  rw [hfresh.kept now hnow] at hkept
  have hmem : first ∈ recent 60 now (acceptedTimes (some limit) client rs) := by
    rw [hkept]
    exact List.mem_cons_self ..
  have hgone : first ≤ later - 60 := by
    have hlt := lt_retryAfter (mem_recent.mp hmem).2
    rw [hretry] at hlt
    linarith
  have hle : now ≤ later := by
    have hone : (1 : ℚ) ≤ (retryAfter : ℚ) := by
      rw [← hretry]
      exact_mod_cast le_max_left 1 (truncate (60 - (now - first)) + 1)
    linarith
  have htimes : timesOf client (rs ++ ⟨client, now⟩ :: others) = timesOf client rs ++ [now] := by
    rw [List.append_cons, timesOf_append, timesOf_append, timesOf_self, timesOf_others hothers,
      List.append_nil]
  have hclock' : (timesOf client (rs ++ ⟨client, now⟩ :: others)).Pairwise (· ≤ ·) := by
    rw [htimes, List.pairwise_append]
    refine ⟨hclock, List.pairwise_singleton .., fun x hx y hy => ?_⟩
    rw [List.mem_singleton.mp hy]
    exact hnow x hx
  have haccepted : acceptedTimes (some limit) client (rs ++ ⟨client, now⟩ :: others)
      = acceptedTimes (some limit) client rs := by
    rw [List.append_cons, acceptedTimes_others hothers, acceptedTimes_snoc, hrejected,
      if_neg Bool.false_ne_true, List.append_nil]
  have hlast : ∀ x ∈ timesOf client (rs ++ ⟨client, now⟩ :: others), x ≤ later := by
    intro x hx
    rw [htimes, List.mem_append, List.mem_singleton] at hx
    rcases hx with hx | rfl
    · exact le_trans (hnow x hx) hle
    · exact hle
  rw [(fresh_of_clock hclock').answer_iff hlast, haccepted, ← recent_recent hle, hkept]
  have hdrop : recent 60 later (first :: rest) = recent 60 later rest :=
    List.filter_cons_of_neg (by simpa using hgone)
  have hrest : (recent 60 later rest).length ≤ rest.length := List.length_filter_le ..
  have hlength := hfresh.length_recent_le hnow
  rw [hkept, List.length_cons] at hlength
  rw [hdrop]
  omega

/-- The limiter is exact for every client whose requests come in order, whatever
    other clients do: no half-open window of 60 seconds holds more accepted
    requests than the limit, a request is turned down exactly when that many were
    accepted in the 60 seconds before it, and a client that is told to wait and
    sends nothing in between is accepted then. -/
theorem rate_limit_exact (limit : Limit) (client : PyStr) (requests : List Arrival)
    (hclock : (timesOf client requests).Pairwise (· ≤ ·)) :
    (∀ start : ℚ,
      (acceptedTimes (some limit) client requests).countP (fun x => start ≤ x ∧ x < start + 60) ≤ limit.val ∧
      (acceptedTimes (some limit) client requests).countP (fun x => start < x ∧ x ≤ start + 60) ≤ limit.val) ∧
    ∀ now : ℚ, (∀ x ∈ timesOf client requests, x ≤ now) →
      ((answer (some limit) requests client now).1 = false ↔
        limit.val ≤ (acceptedTimes (some limit) client requests).countP fun x => now - 60 < x ∧ x ≤ now) ∧
      ∀ retryAfter : Int, answer (some limit) requests client now = (false, retryAfter) →
        ∀ others : List Arrival, (∀ r ∈ others, r.client ≠ client) →
          ∀ later : ℚ, now + retryAfter ≤ later →
            (answer (some limit) (requests ++ ⟨client, now⟩ :: others) client later).1 = true := by
  have hfresh : Fresh limit client requests := fresh_of_clock hclock
  refine ⟨fun start => ⟨?_, ?_⟩, fun now hnow => ⟨?_, ?_⟩⟩
  · refine hfresh.spaced.countP_le fun x y hx hy => ?_
    simp only [decide_eq_true_eq] at hx hy
    linarith
  · refine hfresh.spaced.countP_le fun x y hx hy => ?_
    simp only [decide_eq_true_eq] at hx hy
    linarith
  · have hcount : (recent 60 now (acceptedTimes (some limit) client requests)).length
        = (acceptedTimes (some limit) client requests).countP fun x => now - 60 < x ∧ x ≤ now := by
      unfold recent
      rw [← List.countP_eq_length_filter]
      exact List.countP_congr fun x hx => by simpa using fun _ => hnow x (hfresh.sublist.subset hx)
    rw [← hcount, ← not_lt, ← hfresh.answer_iff hnow, Bool.not_eq_true]
  · intro retryAfter hrejected others hothers later hlater
    exact accepted_after hclock hnow hrejected hothers hlater

-- one request a minute: at second 59.5 it is turned down and told to wait one second
theorem rate_limit_exact_one :
    (answer (some ⟨1, by decide⟩) [⟨py "a", 0⟩, ⟨py "b", 5⟩] (py "a") (119 / 2)) = (false, 1) ∧
      (answer (some ⟨1, by decide⟩) ([⟨py "a", 0⟩, ⟨py "b", 5⟩] ++ [⟨py "a", 119 / 2⟩]) (py "a")
        (119 / 2 + (1 : Int))).1 = true :=
  have hrejected : answer (some ⟨1, by decide⟩) [⟨py "a", 0⟩, ⟨py "b", 5⟩] (py "a") (119 / 2) = (false, 1) := by
    decide +kernel
  ⟨hrejected, ((rate_limit_exact ⟨1, by decide⟩ (py "a") [⟨py "a", 0⟩, ⟨py "b", 5⟩] (by decide +kernel)).2
    (119 / 2) (by decide +kernel)).2 1 hrejected [] (fun _ hr => absurd hr List.not_mem_nil) _ le_rfl⟩

end Runs

end Server
end KineticSdk
