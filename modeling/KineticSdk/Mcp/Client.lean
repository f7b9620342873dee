/-
  KineticSdk.Mcp.Client

  `MCPClient._request`, against a server that answers every request once, in
  order and under its own id.

  One ordered channel leads to the server and one back.  What the server does,
  when a message is taken from the channel and when a deadline passes are
  events; a request that times out leaves its answer behind, on the way or
  still to be given.  `outstanding` lists the answers that have not been taken
  yet, in the order in which they arrive.
-/

import KineticSdk.Lib.Steps
import KineticSdk.Mcp.Protocol

namespace KineticSdk
namespace Mcp

open Py

-- ============================================================================
-- One message
-- ============================================================================

/-- How a request ends. -/
inductive Outcome where
  /-- `return msg.result`. -/
  | returned (v : Json)
  /-- `MCPServerError`. -/
  | serverError (code message data : Json)
  /-- `MCPTimeoutError`. -/
  | timedOut
  /-- `MCPClientError`. -/
  | clientError (message : PyStr)
deriving DecidableEq

/-- What the caller is told of an answer. -/
def Answer.outcome : Answer → Outcome
  | .result v => .returned v
  | .error e => .serverError ((Dict.get? e (py "code")).getD .null)
      ((Dict.get? e (py "message")).getD .null) ((Dict.get? e (py "data")).getD .null)

/-- The text of a response whose id is another one. -/
def mismatchText (method : PyStr) (got expected : MessageId) : PyStr :=
  py "Response id mismatch for " ++ pyReprStr method ++ py ": got id=" ++ pyRepr got.toJson
    ++ py ", expected id=" ++ pyRepr expected.toJson
    ++ py " — the server is not pairing responses to requests correctly."

/-- The body of the loop in `_request`, after a message was received: how the
    request ends, or `none` to wait for the next message. -/
def handleIncoming (id : Int) (method : PyStr) : Message → Option Outcome
  | .notification _ => none
  | .request _ => none
  | .response r =>
      if r.id ≠ .int id then some (.clientError (mismatchText method r.id (.int id)))
      else some r.answer.outcome

-- ============================================================================
-- The session
-- ============================================================================

/-- A client, a server and the channels between them. -/
structure Session where
  /-- `RequestIdGenerator`. -/
  nextId : Int := 1
  /-- The request inside `_request`, by its id and method. -/
  waiting : Option (Int × PyStr) := none
  /-- The requests the server has not answered, in order. -/
  unanswered : List Int := []
  /-- The messages on their way to the client. -/
  inbox : List Message := []
  /-- What the server has answered. -/
  answered : List (Int × Answer) := []
  /-- How the requests so far have ended. -/
  outcomes : List (Int × Outcome) := []

/-- What happens in a session. -/
inductive SessionEvent where
  /-- The caller makes a request. -/
  | request (method : PyStr)
  /-- The server answers the oldest request it has not answered. -/
  | answer (a : Answer)
  /-- The server sends a notification, or a request of its own. -/
  | notify (n : Notification)
  | ask (r : Request)
  /-- The client takes a message from the channel. -/
  | receive
  /-- The deadline of the request passes. -/
  | timeout

/-- The request has ended. -/
def Session.finish (s : Session) (id : Int) (o : Outcome) : Session :=
  { s with waiting := none, outcomes := s.outcomes ++ [(id, o)] }

/-- The client takes a message. -/
def Session.take (s : Session) (id : Int) (method : PyStr) (m : Message) : Session :=
  match handleIncoming id method m with
  | none => s
  | some o => s.finish id o

/-- One event; an event whose party is not ready for it changes nothing. -/
def Session.step (s : Session) : SessionEvent → Session
  | .request method =>
      match s.waiting with
      | some _ => s
      | none => { s with
          nextId := s.nextId + 1
          waiting := some (s.nextId, method)
          unanswered := s.unanswered ++ [s.nextId] }
  | .answer a =>
      match s.unanswered with
      | [] => s
      | id :: ids => { s with
          unanswered := ids
          inbox := s.inbox ++ [.response ⟨.int id, a⟩]
          answered := s.answered ++ [(id, a)] }
  | .notify n => { s with inbox := s.inbox ++ [.notification n] }
  | .ask r => { s with inbox := s.inbox ++ [.request r] }
  | .receive =>
      match s.waiting, s.inbox with
      | some (id, method), m :: ms => { s with inbox := ms }.take id method m
      | _, _ => s
  | .timeout =>
      match s.waiting with
      | some (id, _) => s.finish id .timedOut
      | none => s

/-- The ids of the responses among messages. -/
def responseIds (ms : List Message) : List MessageId :=
  ms.filterMap fun
    | .response r => some r.id
    | _ => none

/-- The answers that have not been taken, in the order they arrive. -/
def Session.outstanding (s : Session) : List MessageId :=
  responseIds s.inbox ++ s.unanswered.map .int

/-- The outcome is a time-out, or what the server has answered to that request. -/
def Session.Own (s : Session) (id : Int) (o : Outcome) : Prop :=
  o = .timedOut ∨ ∃ a, (id, a) ∈ s.answered ∧ o = a.outcome

/-- Every request so far has ended with a time-out or with its own answer. -/
def Session.Recovers (s : Session) : Prop := ∀ id o, (id, o) ∈ s.outcomes → s.Own id o

/-- When a response is taken, no answer to an earlier request is outstanding. -/
def NoLateAnswer (s : Session) (e : SessionEvent) : Prop :=
  e = .receive → ∀ id method, s.waiting = some (id, method) →
    (∃ r ms, s.inbox = .response r :: ms) → ∀ k, .int k ∈ s.outstanding → id ≤ k

-- ============================================================================
-- The invariant
-- ============================================================================

theorem responseIds_append (ms ms' : List Message) :
    responseIds (ms ++ ms') = responseIds ms ++ responseIds ms' := List.filterMap_append

/-- Answers arrive in the order of the requests, every response was given to its
    request, and the answer to the request that is waiting comes last. -/
structure Session.Ordered (s : Session) : Prop where
  ids : ∃ ks : List Int, s.outstanding = ks.map .int ∧ ks.Pairwise (· < ·) ∧
    (∀ k ∈ ks, k < s.nextId) ∧ ∀ id method, s.waiting = some (id, method) → id ∈ ks
  own : ∀ r, .response r ∈ s.inbox → ∃ id, r.id = .int id ∧ (id, r.answer) ∈ s.answered

theorem Session.Ordered.start : Session.Ordered {} where
  ids := ⟨[], rfl, List.Pairwise.nil, fun k hk => (by cases hk), fun id method h => by cases h⟩
  own := fun r hr => by cases hr

theorem Session.Ordered.request {s : Session} (h : s.Ordered) (method : PyStr) :
    (s.step (.request method)).Ordered := by
  cases hwait : s.waiting with
  | some w =>
      simp only [Session.step, hwait]
      exact h
  | none =>
      obtain ⟨ks, hks, hsorted, hbound, -⟩ := h.ids
      simp only [Session.step, hwait]
      refine ⟨⟨ks ++ [s.nextId], ?_, ?_, ?_, ?_⟩, h.own⟩
      · show responseIds s.inbox ++ (s.unanswered ++ [s.nextId]).map MessageId.int = _
        rw [List.map_append, ← List.append_assoc, List.map_append]
        rw [show responseIds s.inbox ++ s.unanswered.map .int = ks.map .int from hks]
      · rw [List.pairwise_append]
        refine ⟨hsorted, List.pairwise_singleton _ _, fun k hk j hj => ?_⟩
        rw [List.mem_singleton.mp hj]
        exact hbound k hk
      · intro k hk
        show k < s.nextId + 1
        rcases List.mem_append.mp hk with hk | hk
        · have hlt := hbound k hk
          omega
        · rw [List.mem_singleton.mp hk]
          omega
      · intro id m hid
        cases hid
        exact List.mem_append_right _ (List.mem_cons_self ..)

theorem Session.Ordered.answer {s : Session} (h : s.Ordered) (a : Answer) :
    (s.step (.answer a)).Ordered := by
  cases hun : s.unanswered with
  | nil =>
      simp only [Session.step, hun]
      exact h
  | cons id ids =>
      obtain ⟨ks, hks, hsorted, hbound, hwaiting⟩ := h.ids
      simp only [Session.step, hun]
      refine ⟨⟨ks, ?_, hsorted, hbound, hwaiting⟩, fun r hr => ?_⟩
      · rw [← hks]
        show responseIds (s.inbox ++ [.response ⟨.int id, a⟩]) ++ ids.map MessageId.int =
          responseIds s.inbox ++ s.unanswered.map MessageId.int
        rw [responseIds_append, hun, List.append_assoc]
        rfl
      · rcases List.mem_append.mp hr with hr | hr
        · obtain ⟨k, hk, hmem⟩ := h.own r hr
          exact ⟨k, hk, List.mem_append_left _ hmem⟩
        · cases List.mem_singleton.mp hr
          exact ⟨id, rfl, List.mem_append_right _ (List.mem_cons_self ..)⟩

/-- A message that is no response changes nothing that is outstanding. -/
theorem Session.Ordered.push {s : Session} (h : s.Ordered) {m : Message}
    (hm : ∀ r, m ≠ .response r) : ({ s with inbox := s.inbox ++ [m] } : Session).Ordered := by
  have hnone : responseIds [m] = [] := by
    cases m with
    | response r => exact absurd rfl (hm r)
    | notification n => rfl
    | request r => rfl
  refine ⟨?_, fun r hr => ?_⟩
  · obtain ⟨ks, hks, hrest⟩ := h.ids
    refine ⟨ks, ?_, hrest⟩
    show responseIds (s.inbox ++ [m]) ++ s.unanswered.map MessageId.int = _
    rw [responseIds_append, hnone, List.append_nil]
    exact hks
  · rcases List.mem_append.mp hr with hr | hr
    · exact h.own r hr
    · exact absurd (List.mem_singleton.mp hr).symm (hm r)

theorem Session.Ordered.finish {s : Session} (h : s.Ordered) (id : Int) (o : Outcome) :
    (s.finish id o).Ordered := by
  obtain ⟨ks, hks, hsorted, hbound, -⟩ := h.ids
  exact ⟨⟨ks, hks, hsorted, hbound, fun k m hk => by cases hk⟩, h.own⟩

/-- Taking a message that is no response leaves the answers as they are. -/
theorem Session.Ordered.skip {s : Session} (h : s.Ordered) {m : Message} {ms : List Message}
    (hm : ∀ r, m ≠ .response r) (hbox : s.inbox = m :: ms) :
    ({ s with inbox := ms } : Session).Ordered := by
  have hsame : responseIds s.inbox = responseIds ms := by
    rw [hbox]
    cases m with
    | response r => exact absurd rfl (hm r)
    | notification n => rfl
    | request r => rfl
  obtain ⟨ks, hks, hrest⟩ := h.ids
  refine ⟨⟨ks, ?_, hrest⟩, fun r hr => h.own r (by rw [hbox]; exact List.mem_cons_of_mem m hr)⟩
  show responseIds ms ++ s.unanswered.map MessageId.int = _
  rw [← hsame]
  exact hks

/-- Taking a response ends the request that is waiting. -/
theorem Session.Ordered.takeResponse {s : Session} (h : s.Ordered) {r : Response}
    {ms : List Message} (hbox : s.inbox = .response r :: ms) (id : Int) (o : Outcome) :
    (({ s with inbox := ms } : Session).finish id o).Ordered := by
  obtain ⟨ks, hks, hsorted, hbound, -⟩ := h.ids
  have hcons : s.outstanding = r.id :: (responseIds ms ++ s.unanswered.map .int) := by
    unfold Session.outstanding
    rw [hbox]
    rfl
  rw [hcons] at hks
  cases ks with
  | nil => cases hks
  | cons k ks =>
      obtain ⟨-, hrest⟩ := List.cons.inj hks
      refine ⟨⟨ks, hrest, (List.pairwise_cons.mp hsorted).2,
        fun j hj => hbound j (List.mem_cons_of_mem k hj), fun j m hj => by cases hj⟩,
        fun r' hr' => h.own r' (by rw [hbox]; exact List.mem_cons_of_mem _ hr')⟩

theorem step_receive {s : Session} {id : Int} {method : PyStr} {m : Message} {ms : List Message}
    (hwait : s.waiting = some (id, method)) (hbox : s.inbox = m :: ms) :
    s.step .receive = ({ s with inbox := ms } : Session).take id method m := by
  unfold Session.step
  rw [hwait, hbox]

/-- A response ends the request: it is its answer, or has another id. -/
theorem take_response (s : Session) (id : Int) (method : PyStr) (r : Response) :
    s.take id method (.response r) = s.finish id
      (if r.id ≠ .int id then .clientError (mismatchText method r.id (.int id))
        else r.answer.outcome) := by
  unfold Session.take handleIncoming
  by_cases hid : r.id ≠ .int id
  · simp only [if_pos hid]
  · simp only [if_neg hid]

theorem step_receive_idle {s : Session} (h : s.waiting = none ∨ s.inbox = []) :
    s.step .receive = s := by
  unfold Session.step
  rcases h with h | h
  · rw [h]
  · rw [h]
    cases s.waiting <;> rfl

/-- Taking one message keeps the order of the answers. -/
theorem Session.Ordered.receive {s : Session} (h : s.Ordered) : (s.step .receive).Ordered := by
  cases hwait : s.waiting with
  | none => rwa [step_receive_idle (.inl hwait)]
  | some w =>
      obtain ⟨id, method⟩ := w
      cases hbox : s.inbox with
      | nil => rwa [step_receive_idle (.inr hbox)]
      | cons m ms =>
          rw [step_receive hwait hbox]
          cases m with
          | notification n => exact h.skip (fun r hr => by cases hr) hbox
          | request q => exact h.skip (fun r hr => by cases hr) hbox
          | response r =>
              rw [take_response]
              exact h.takeResponse hbox id _

/-- Every event keeps the order of the answers. -/
theorem Session.Ordered.step {s : Session} (h : s.Ordered) (e : SessionEvent) :
    (s.step e).Ordered := by
  cases e with
  | request method => exact h.request method
  | answer a => exact h.answer a
  | notify n => exact h.push fun r hr => by cases hr
  | ask q => exact h.push fun r hr => by cases hr
  | receive => exact h.receive
  | timeout =>
      cases hwait : s.waiting with
      | none =>
          simp only [Session.step, hwait]
          exact h
      | some w =>
          simp only [Session.step, hwait]
          exact h.finish w.1 .timedOut

-- ============================================================================
-- Recovery
-- ============================================================================

/-- What has been answered and how requests have ended stays. -/
theorem step_grows (s : Session) (e : SessionEvent) :
    (∀ p ∈ s.answered, p ∈ (s.step e).answered) ∧ ∀ p ∈ s.outcomes, p ∈ (s.step e).outcomes := by
  have hfinish : ∀ (s : Session) id o, (∀ p ∈ s.answered, p ∈ (s.finish id o).answered) ∧
      ∀ p ∈ s.outcomes, p ∈ (s.finish id o).outcomes :=
    fun s id o => ⟨fun p hp => hp, fun p hp => List.mem_append_left _ hp⟩
  cases e with
  | request method =>
      simp only [Session.step]
      cases s.waiting <;> exact ⟨fun p hp => hp, fun p hp => hp⟩
  | answer a =>
      simp only [Session.step]
      cases s.unanswered with
      | nil => exact ⟨fun p hp => hp, fun p hp => hp⟩
      | cons id ids => exact ⟨fun p hp => List.mem_append_left _ hp, fun p hp => hp⟩
  | notify n => exact ⟨fun p hp => hp, fun p hp => hp⟩
  | ask q => exact ⟨fun p hp => hp, fun p hp => hp⟩
  | receive =>
      simp only [Session.step]
      split
      · rename_i id method m ms hwait hbox
        unfold Session.take
        cases handleIncoming id method m with
        | none => exact ⟨fun p hp => hp, fun p hp => hp⟩
        | some o => exact hfinish { s with inbox := ms } id o
      · exact ⟨fun p hp => hp, fun p hp => hp⟩
  | timeout =>
      simp only [Session.step]
      cases s.waiting with
      | none => exact ⟨fun p hp => hp, fun p hp => hp⟩
      | some w => exact hfinish s w.1 .timedOut

/-- An outcome that was the request's own stays so. -/
theorem Session.Own.mono {s s' : Session} {id : Int} {o : Outcome} (h : s.Own id o)
    (hanswered : ∀ p ∈ s.answered, p ∈ s'.answered) : s'.Own id o := by
  rcases h with h | ⟨a, ha, ho⟩
  · exact .inl h
  · exact .inr ⟨a, hanswered _ ha, ho⟩

/-- A response that is taken is the oldest outstanding answer; it is the
    request's own one exactly when no earlier request's is outstanding. -/
theorem head_is_own {s : Session} (h : s.Ordered) {r : Response} {ms : List Message}
    (hbox : s.inbox = .response r :: ms) {id : Int} {method : PyStr}
    (hwait : s.waiting = some (id, method)) :
    r.id = .int id ↔ ∀ k, .int k ∈ s.outstanding → id ≤ k := by
  obtain ⟨ks, hks, hsorted, -, hwaiting⟩ := h.ids
  have hmem := hwaiting id method hwait
  have hcons : s.outstanding = r.id :: (responseIds ms ++ s.unanswered.map .int) := by
    unfold Session.outstanding
    rw [hbox]
    rfl
  have hin : ∀ k, .int k ∈ s.outstanding ↔ k ∈ ks := by
    intro k
    rw [hks, List.mem_map]
    constructor
    · rintro ⟨j, hj, heq⟩
      cases heq
      exact hj
    · exact fun hk => ⟨k, hk, rfl⟩
  rw [hcons] at hks
  cases ks with
  | nil => cases hks
  | cons k₀ ks =>
      obtain ⟨hhead, -⟩ := List.cons.inj hks
      obtain ⟨hleast, -⟩ := List.pairwise_cons.mp hsorted
      rw [hhead]
      constructor
      · intro heq k hk
        cases heq
        rcases List.mem_cons.mp ((hin k).mp hk) with rfl | hk
        · exact Int.le_refl _
        · have hlt := hleast k hk
          omega
      · intro hall
        have hle := hall k₀ ((hin k₀).mpr (List.mem_cons_self ..))
        have hge : k₀ ≤ id := by
          rcases List.mem_cons.mp hmem with rfl | hid
          · exact Int.le_refl _
          · have hlt := hleast id hid
            omega
        have heq : k₀ = id := by omega
        rw [heq]

/-- A wrong id is no outcome of the request's own. -/
theorem not_own_clientError (s : Session) (id : Int) (text : PyStr) :
    ¬ s.Own id (.clientError text) := by
  rintro (h | ⟨a, -, ha⟩)
  · cases h
  · cases a <;> cases ha

/-- A request has ended with a time-out, with its own answer, or with an error
    of the client. -/
def Session.Told (s : Session) : Prop :=
  ∀ id o, (id, o) ∈ s.outcomes → s.Own id o ∨ ∃ text, o = .clientError text

/-- What one event adds to the outcomes. -/
theorem step_outcomes {s : Session} (h : s.Ordered) (e : SessionEvent) :
    ((s.step e).outcomes = s.outcomes ∧ NoLateAnswer s e) ∨
      ∃ id o, (s.step e).outcomes = s.outcomes ++ [(id, o)] ∧
        ((s.Own id o ∧ NoLateAnswer s e) ∨ ((∃ text, o = .clientError text) ∧ ¬ NoLateAnswer s e)) := by
  have hother : e ≠ .receive → NoLateAnswer s e := fun hne he => absurd he hne
  cases e with
  | request method =>
      refine .inl ⟨?_, hother (by intro h; cases h)⟩
      simp only [Session.step]
      cases s.waiting <;> rfl
  | answer a =>
      refine .inl ⟨?_, hother (by intro h; cases h)⟩
      simp only [Session.step]
      cases s.unanswered <;> rfl
  | notify n => exact .inl ⟨rfl, hother (by intro h; cases h)⟩
  | ask q => exact .inl ⟨rfl, hother (by intro h; cases h)⟩
  | timeout =>
      have hlate := hother (show SessionEvent.timeout ≠ .receive by intro h; cases h)
      simp only [Session.step]
      cases hwait : s.waiting with
      | none => exact .inl ⟨rfl, hlate⟩
      | some w => exact .inr ⟨w.1, .timedOut, rfl, .inl ⟨.inl rfl, hlate⟩⟩
  | receive =>
      cases hwait : s.waiting with
      | none =>
          rw [step_receive_idle (.inl hwait)]
          refine .inl ⟨rfl, fun _ id method hw => ?_⟩
          rw [hwait] at hw
          cases hw
      | some w =>
          obtain ⟨id, method⟩ := w
          have hnone : (∀ r ms, s.inbox ≠ .response r :: ms) → NoLateAnswer s .receive :=
            fun hno _ _ _ _ hresp => absurd hresp (fun ⟨r, ms, hms⟩ => hno r ms hms)
          cases hbox : s.inbox with
          | nil =>
              rw [step_receive_idle (.inr hbox)]
              exact .inl ⟨rfl, hnone fun r ms hms => by rw [hbox] at hms; cases hms⟩
          | cons m ms =>
              rw [step_receive hwait hbox]
              cases m with
              | notification n =>
                  exact .inl ⟨rfl, hnone fun r ms hms => by rw [hbox] at hms; cases hms⟩
              | request q =>
                  exact .inl ⟨rfl, hnone fun r ms hms => by rw [hbox] at hms; cases hms⟩
              | response r =>
                  have hcondition : NoLateAnswer s .receive ↔ r.id = .int id := by
                    rw [head_is_own h hbox hwait]
                    constructor
                    · exact fun hlate => hlate rfl id method hwait ⟨r, ms, hbox⟩
                    · intro hall _ id' method' hw _
                      rw [hwait] at hw
                      cases hw
                      exact hall
                  rw [take_response, hcondition]
                  refine .inr ⟨id, _, rfl, ?_⟩
                  by_cases hid : r.id = .int id
                  · rw [if_neg (not_not_intro hid)]
                    obtain ⟨k, hk, hgiven⟩ := h.own r (by rw [hbox]; exact List.mem_cons_self ..)
                    rw [hid] at hk
                    cases hk
                    exact .inl ⟨.inr ⟨r.answer, hgiven, rfl⟩, hid⟩
                  · rw [if_pos hid]
                    exact .inr ⟨⟨_, rfl⟩, hid⟩

theorem Session.Told.step {s : Session} (h : s.Ordered) (hs : s.Told) (e : SessionEvent) :
    (s.step e).Told := by
  have hgrows := (step_grows s e).1
  intro id o hmem
  have hold : (id, o) ∈ s.outcomes → (s.step e).Own id o ∨ ∃ text, o = .clientError text := by
    intro hmem
    rcases hs id o hmem with hown | herror
    · exact .inl (hown.mono hgrows)
    · exact .inr herror
  rcases step_outcomes h e with ⟨hsame, -⟩ | ⟨id', o', hnew, hcase⟩
  · rw [hsame] at hmem
    exact hold hmem
  · rw [hnew] at hmem
    rcases List.mem_append.mp hmem with hmem | hmem
    · exact hold hmem
    · cases List.mem_singleton.mp hmem
      rcases hcase with ⟨hown, -⟩ | ⟨herror, -⟩
      · exact .inl (hown.mono hgrows)
      · exact .inr herror

/-- After one event every request has ended with its own answer exactly when this
    was so before and the message it takes, if any, is not met by a late one. -/
theorem recovers_step {s : Session} (h : s.Ordered) (hs : s.Told) (e : SessionEvent) :
    (s.step e).Recovers ↔ s.Recovers ∧ NoLateAnswer s e := by
  obtain ⟨hanswered, houtcomes⟩ := step_grows s e
  have hback : (s.step e).Recovers → s.Recovers := by
    intro hrecovers id o hmem
    rcases hs id o hmem with hown | ⟨text, rfl⟩
    · exact hown
    · exact absurd (hrecovers id _ (houtcomes _ hmem)) (not_own_clientError _ id text)
  rcases step_outcomes h e with ⟨hsame, hlate⟩ | ⟨id', o', hnew, hcase⟩
  · refine ⟨fun hrecovers => ⟨hback hrecovers, hlate⟩, fun hrecovers id o hmem => ?_⟩
    rw [hsame] at hmem
    exact (hrecovers.1 id o hmem).mono hanswered
  · rcases hcase with ⟨hown, hlate⟩ | ⟨⟨text, rfl⟩, hlate⟩
    · refine ⟨fun hrecovers => ⟨hback hrecovers, hlate⟩, fun hrecovers id o hmem => ?_⟩
      rw [hnew] at hmem
      rcases List.mem_append.mp hmem with hmem | hmem
      · exact (hrecovers.1 id o hmem).mono hanswered
      · cases List.mem_singleton.mp hmem
        exact hown.mono hanswered
    · -- the response of another request
      refine ⟨fun hrecovers => absurd ?_ (not_own_clientError (s.step e) id' text),
        fun hrecovers => absurd hrecovers.2 hlate⟩
      exact hrecovers id' _ (by rw [hnew]; exact List.mem_append_right _ (List.mem_cons_self ..))

/-- Every state of a session is ordered, and its requests have been told how they
    ended. -/
theorem recovers_run {s : Session} (h : s.Ordered) (hs : s.Told) (es : List SessionEvent) :
    (Lib.Steps.run Session.step s es).Recovers ↔
      s.Recovers ∧ Lib.Steps.Meets Session.step NoLateAnswer s es := by
  induction es generalizing s with
  | nil => exact (and_iff_left trivial).symm
  | cons e es ih =>
      rw [Lib.Steps.run_cons, ih (h.step e) (hs.step h e), recovers_step h hs e, and_assoc]
      rfl

/-- In every session every request that has ended has timed out or was given its
    own answer, exactly when no response is taken while the answer to an earlier
    request is outstanding. -/
theorem client_recovers (es : List SessionEvent) :
    (Lib.Steps.run Session.step {} es).Recovers ↔
      Lib.Steps.Meets Session.step NoLateAnswer {} es := by
  have htold : Session.Told {} := fun id o hmem => by cases hmem
  have hrecovers : Session.Recovers {} := fun id o hmem => by cases hmem
  rw [recovers_run Session.Ordered.start htold es]
  exact and_iff_right hrecovers

/-- A request times out, its answer comes late, and the next request takes it. -/
def lateSession : List SessionEvent :=
  [.request (py "tools/call"), .timeout, .answer (.result (.int 1)),
    .request (py "tools/call"), .answer (.result (.int 2)), .receive]

/-- The second request fails, though the server has answered it. -/
theorem late_answer_fails :
    (Lib.Steps.run Session.step {} lateSession).answered = [(1, .result (.int 1)), (2, .result (.int 2))] ∧
      (Lib.Steps.run Session.step {} lateSession).outcomes = [(1, .timedOut),
        (2, .clientError (mismatchText (py "tools/call") (.int 1) (.int 2)))] ∧
      ¬ (Lib.Steps.run Session.step {} lateSession).Recovers := by
  refine ⟨by decide +kernel, by decide +kernel, fun h => ?_⟩
  exact not_own_clientError _ 2 _
    (h 2 (.clientError (mismatchText (py "tools/call") (.int 1) (.int 2))) (by decide +kernel))

end Mcp
end KineticSdk
