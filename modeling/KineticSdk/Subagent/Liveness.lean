/-
  KineticSdk.Subagent.Liveness

  When the lease that `acquire` returns is live, and when an abandoned record
  does not block the next owner.

  Two things go wrong beside the races of `Exclusion`.  An owner that finds its
  own record gets it back expired or not, and a record whose creator died before
  it was written is never taken for stale.  `Orderly` excludes both; `Sound`
  is what it keeps, and `Alone` follows one acquire to its end.
-/

import KineticSdk.Subagent.Exclusion

namespace KineticSdk
namespace Subagent

open Py Tool
open Lib

-- ============================================================================
-- The condition
-- ============================================================================

/-- The lease an acquire is going to return. -/
def Phase.pending : Phase → Option LockInfo
  | .opening _ info | .writing _ info _ | .returning _ info _ => some info
  | _ => none

/-- The file a call has created and perhaps not written. -/
def Phase.halfWritten : Phase → Option Nat
  | .writing _ _ fd | .cleaning _ _ fd => some fd
  | _ => none

/-- The acquire a call is about. -/
def Phase.acquire? : Phase → Option Acquire
  | .starting a | .opening a _ | .writing a _ _ | .cleaning a _ _ | .reading a _ | .waiting a _
  | .returning a _ _ => some a
  | .removing _ next | .unlinking _ next => next
  | _ => none

/-- A record found under the owner's own name has not expired. -/
def FindsLive (s : State) : Phase → Prop
  | .reading a _ => ∀ info ∈ s.disk.read, info.owner = a.owner → info.isExpired s.now = false
  | _ => True

instance (s : State) : (p : Phase) → Decidable (FindsLive s p)
  | .reading a _ => inferInstanceAs (Decidable
      (∀ info ∈ s.disk.read, info.owner = a.owner → info.isExpired s.now = false))
  | .idle | .starting _ | .opening .. | .writing .. | .cleaning .. | .waiting .. | .returning ..
  | .removing .. | .unlinking .. | .releasing .. | .dropping .. | .renewing .. | .stamping ..
  | .filling .. | .replacing .. | .looking | .judging _ => isTrue trivial

/-- Nobody is disturbed, no lease runs out before it is returned, no owner finds
    its own record expired, and no process dies while the record is half written. -/
def Orderly (s : State) : Event → Prop
  | .tick d => ∀ c ∈ s.clients, ∀ info ∈ c.phase.pending, info.isExpired (s.now + d) = false
  | .act i => ∀ c ∈ s.clients[i]?, UndisturbedAt s c.phase ∧ FindsLive s c.phase
  | .crash i => ∀ c ∈ s.clients[i]?, ∀ fd ∈ c.phase.halfWritten,
      s.disk.record = some fd → s.disk.read ≠ none
  | _ => True

instance (s : State) : (e : Event) → Decidable (Orderly s e)
  | .tick d => inferInstanceAs (Decidable
      (∀ c ∈ s.clients, ∀ info ∈ c.phase.pending, info.isExpired (s.now + d) = false))
  | .act i => inferInstanceAs (Decidable
      (∀ c ∈ s.clients[i]?, UndisturbedAt s c.phase ∧ FindsLive s c.phase))
  | .crash i => inferInstanceAs (Decidable (∀ c ∈ s.clients[i]?, ∀ fd ∈ c.phase.halfWritten,
      s.disk.record = some fd → s.disk.read ≠ none))
  | .call .. | .fail _ => isTrue trivial

theorem Orderly.undisturbed {s : State} {e : Event} (h : Orderly s e) : Undisturbed s e := by
  cases e with
  | act i => exact fun c hc => (h c hc).1
  | _ => trivial

-- ============================================================================
-- What is to hold
-- ============================================================================

/-- When an acquire returns, the record names its owner and has not expired. -/
def ReturnsLive (s : State) : Prop :=
  ∀ c ∈ s.clients, ∀ o, c.phase.returns o = true →
    ∃ info, s.disk.read = some info ∧ info.owner = o ∧ info.isExpired s.now = false

/-- A step of the client, or time going on. -/
def Event.aloneOf (i : Nat) : Event → Bool
  | .tick _ => true
  | .act j => j = i
  | _ => false

/-- A file operation. -/
def Event.isAct : Event → Bool
  | .act _ => true
  | _ => false

/-- When no lease on disk is live and no other call is under way in the mutex or
    before its record is written, an acquire returns a lease within two attempts. -/
def Reclaims (s : State) : Prop :=
  (∀ info ∈ s.disk.read, info.isExpired s.now = true) →
  (∀ c ∈ s.clients, c.phase.inMutex = false ∧ c.phase.halfWritten = none) →
  ∀ (i : Nat) (c : Client) (path owner : PyStr) (timeout lease : Option Int) (a : Acquire),
    s.clients[i]? = some c → c.phase = .idle →
    acquireArgs c.defaultLease s.now path owner timeout lease = .ok a →
    ∀ ts : List Event, (∀ e ∈ ts, e.aloneOf i = true) → 9 ≤ ts.countP Event.isAct →
      ∃ c' info, ((s.step (.call i (.acquire path owner timeout lease))).run ts).clients[i]? =
          some c' ∧ c'.phase = .idle ∧ c'.last = some (.acquired info) ∧ info.owner = owner

-- ============================================================================
-- The invariant
-- ============================================================================

/-- An acquire's lease is positive, and the one it is about to return is live. -/
def PhaseSound (now : Int) (p : Phase) : Prop :=
  (∀ a, p.acquire? = some a → ∀ l, a.lease = some l → 0 < l) ∧
    ∀ info, p.pending = some info → info.isExpired now = false

/-- The leases about to be returned are live, and a record that cannot be read
    is one that a call is writing. -/
structure Sound (s : State) : Prop where
  phases : ∀ c ∈ s.clients, PhaseSound s.now c.phase
  readable : ∀ n, s.disk.record = some n → s.disk.read = none →
    ∃ c ∈ s.clients, c.phase.halfWritten = some n

section Lemmas

variable {s : State} {d : Disk} {now : Int} {i : Nat} {c : Client} {p q : Phase} {info : LockInfo}
  {a : Acquire}

theorem PhaseSound.of_silent (hacquire : p.acquire? = none) (hpending : p.pending = none) :
    PhaseSound now p := by
  refine ⟨?_, ?_⟩
  · intro a ha
    rw [hacquire] at ha
    cases ha
  · intro info hinfo
    rw [hpending] at hinfo
    cases hinfo

/-- A phase of the same acquire that returns nothing new. -/
theorem PhaseSound.of_acquire (h : PhaseSound now q) (hacquire : p.acquire? = q.acquire?)
    (hpending : ∀ info, p.pending = some info → q.pending = some info ∨
      info.isExpired now = false) : PhaseSound now p := by
  refine ⟨?_, ?_⟩
  · rw [hacquire]
    exact h.1
  · intro info hinfo
    rcases hpending info hinfo with hold | hlive
    · exact h.2 info hold
    · exact hlive

/-- The lease that an attempt stamps is live. -/
theorem stamped_live {lease : Option Int} (hpos : ∀ l, lease = some l → 0 < l) (o : PyStr) :
    LockInfo.isExpired ⟨o, now, lease.map (now + ·)⟩ now = false := by
  cases lease with
  | none => rfl
  | some l =>
      have hl := hpos l rfl
      simp only [LockInfo.isExpired, Option.map_some, decide_eq_false_iff_not]
      omega

/-- The lease of a call is positive. -/
theorem leaseOf_pos {default lease l : Option Int} (h : leaseOf default lease = .ok l) :
    ∀ n, l = some n → 0 < n := by
  unfold leaseOf at h
  cases hor : lease.or default with
  | none =>
      rw [hor] at h
      intro n hn
      rw [← Except.ok.inj h] at hn
      cases hn
  | some m =>
      by_cases hm : m ≤ 0
      · simp [hor, hm] at h
      · simp only [hor, hm, ↓reduceIte] at h
        intro n hn
        rw [← Except.ok.inj h] at hn
        obtain rfl : m = n := Option.some.inj hn
        omega

/-- What `acquire` makes of arguments it accepts. -/
theorem acquireArgs_ok {default timeout lease : Option Int} {path owner : PyStr}
    (h : acquireArgs default now path owner timeout lease = .ok a) :
    a.owner = owner ∧ ∀ l, a.lease = some l → 0 < l := by
  unfold acquireArgs at h
  by_cases hstrip : strip owner = []
  · simp [hstrip] at h
  · by_cases htimeout : timeout.any (· < 0) = true
    · simp [hstrip, htimeout] at h
    · cases hlease : leaseOf default lease with
      | error e => simp [hstrip, htimeout, hlease, Except.map] at h
      | ok l =>
          simp only [hstrip, htimeout, hlease, ↓reduceIte, Except.map, Bool.false_eq_true,
            Except.ok.injEq] at h
          subst h
          exact ⟨rfl, leaseOf_pos hlease⟩

/-- The one way a step keeps the invariant. -/
theorem Sound.move (h : Sound s) (hc : s.clients[i]? = some c) {s₁ : State} {f : Client → Client}
    (hclients : s₁.clients = s.clients) (hnow : s₁.now = s.now) (hf : (f c).phase = p)
    (hp : PhaseSound s.now p)
    (hread : ∀ n, s₁.disk.record = some n → s₁.disk.read = none → p.halfWritten = some n ∨
      s.disk.record = some n ∧ s.disk.read = none ∧ c.phase.halfWritten ≠ some n) :
    Sound { s₁ with clients := s₁.clients.modify i f } := by
  refine ⟨?_, ?_⟩
  · intro c' hc'
    obtain ⟨j, hj⟩ := List.getElem?_of_mem hc'
    rw [show ({ s₁ with clients := s₁.clients.modify i f } : State).now = s.now from hnow]
    rw [hclients] at hj
    rcases getElem?_modify_cases hj with ⟨-, c₀, hc₀, rfl⟩ | ⟨-, hother⟩
    · obtain rfl : c₀ = c := Option.some.inj (hc₀.symm.trans hc)
      rw [hf]
      exact hp
    · exact h.phases c' (List.mem_of_getElem? hother)
  · intro n hrecord hnone
    rw [hclients]
    rcases hread n hrecord hnone with hself | ⟨hrecord', hnone', hdone⟩
    · have hmod : (s.clients.modify i f)[i]? = some (f c) := by simp [hc]
      exact ⟨f c, List.mem_of_getElem? hmod, by rw [hf]; exact hself⟩
    · obtain ⟨c', hc', hhalf⟩ := h.readable n hrecord' hnone'
      obtain ⟨j, hj⟩ := List.getElem?_of_mem hc'
      have hji : i ≠ j := by
        intro hij
        subst hij
        obtain rfl : c' = c := Option.some.inj (hj.symm.trans hc)
        exact hdone hhalf
      have hmod : (s.clients.modify i f)[j]? = some c' := by simp [hji, hj]
      exact ⟨c', List.mem_of_getElem? hmod, hhalf⟩

/-- A client goes on that has not left a record half written, and the record
    stays as it is, or can be read, or is gone. -/
theorem Sound.goes (h : Sound s) (hc : s.clients[i]? = some c) {s₁ : State} {f : Client → Client}
    (hclients : s₁.clients = s.clients) (hnow : s₁.now = s.now) (hf : (f c).phase = p)
    (hp : PhaseSound s.now p) (hhalf : c.phase.halfWritten = none)
    (hread : s₁.disk.record = s.disk.record ∧ s₁.disk.read = s.disk.read ∨
      s₁.disk.record = none ∨ s₁.disk.read ≠ none) :
    Sound { s₁ with clients := s₁.clients.modify i f } := by
  refine h.move hc hclients hnow hf hp ?_
  intro n hrecord hnone
  rcases hread with ⟨hrecord', hread'⟩ | hgone | hsome
  · exact .inr ⟨hrecord' ▸ hrecord, hread' ▸ hnone, by simp [hhalf]⟩
  · rw [hgone] at hrecord
    cases hrecord
  · exact absurd hnone hsome

theorem Sound.goto (h : Sound s) (hc : s.clients[i]? = some c) (hp : PhaseSound s.now p)
    (hhalf : c.phase.halfWritten = none) : Sound (s.goto i p) :=
  h.goes hc rfl rfl rfl hp hhalf (.inl ⟨rfl, rfl⟩)

theorem Sound.finish (h : Sound s) (hc : s.clients[i]? = some c)
    (hhalf : c.phase.halfWritten = none) (o : Outcome) : Sound (s.finish i o) :=
  h.goes (p := .idle) hc rfl rfl rfl (.of_silent rfl rfl) hhalf (.inl ⟨rfl, rfl⟩)

/-- A call that goes on for the same acquire, with nothing new to return. -/
theorem Sound.same (h : Sound s) (hc : s.clients[i]? = some c)
    (hacquire : p.acquire? = c.phase.acquire?) (hpending : p.pending = none)
    (hhalf : c.phase.halfWritten = none) : Sound (s.goto i p) := by
  refine h.goto hc ((h.phases c (List.mem_of_getElem? hc)).of_acquire hacquire ?_) hhalf
  intro info hinfo
  rw [hpending] at hinfo
  cases hinfo

theorem Sound.resume (h : Sound s) (hc : s.clients[i]? = some c) {next : Option Acquire}
    (hacquire : c.phase.acquire? = next) (hhalf : c.phase.halfWritten = none) :
    Sound (s.resume i next) := by
  cases next with
  | none => exact h.finish hc hhalf _
  | some a => exact h.same (p := .starting a) hc hacquire.symm rfl hhalf

/-- Removing the record, and going on for the same acquire. -/
theorem Sound.reclaim (h : Sound s) (hc : s.clients[i]? = some c) {next : Option Acquire}
    (hacquire : c.phase.acquire? = next) (hhalf : c.phase.halfWritten = none) :
    Sound ({ s with disk := s.disk.unlink }.resume i next) := by
  cases next with
  | none =>
      exact h.goes (p := .idle) hc rfl rfl rfl (.of_silent rfl rfl) hhalf (.inr (.inl rfl))
  | some a =>
      have hps := (h.phases c (List.mem_of_getElem? hc)).of_acquire (p := .starting a)
        hacquire.symm (fun info hinfo => by cases hinfo)
      exact h.goes (p := .starting a) hc rfl rfl rfl hps hhalf (.inr (.inl rfl))

/-- A client's next file operation keeps the invariant. -/
theorem Sound.perform (h : Sound s) (hcoh : Coherent s) (hc : s.clients[i]? = some c)
    (hund : UndisturbedAt s c.phase) (hlive : FindsLive s c.phase) : Sound (s.perform i c) := by
  have hps := h.phases c (List.mem_of_getElem? hc)
  have hok := hcoh.phase hc
  unfold State.perform
  cases hphase : c.phase with
  | idle => exact h
  | starting a =>
      rw [hphase] at hps
      refine h.goto hc (hps.of_acquire rfl ?_) (by rw [hphase]; rfl)
      intro info hinfo
      rw [← Option.some.inj hinfo]
      exact .inr (stamped_live (hps.1 a rfl) a.owner)
  | opening a info =>
      rw [hphase] at hps
      cases hrecord : s.disk.record with
      | none =>
          have hcreate : s.disk.createExclusive = some (s.disk.files.length, { s.disk with
              files := s.disk.files ++ [.unfinished], record := some s.disk.files.length }) := by
            simp [Disk.createExclusive, hrecord]
          simp only [hcreate]
          exact h.move (p := .writing a info s.disk.files.length) hc rfl rfl rfl
            (hps.of_acquire rfl fun found hfound => .inl hfound) (fun n hn _ => .inl hn)
      | some n =>
          have hcreate : s.disk.createExclusive = none := by simp [Disk.createExclusive, hrecord]
          simp only [hcreate]
          exact h.same (p := .reading a info.acquiredAt) hc (by rw [hphase]; rfl) rfl
            (by rw [hphase]; rfl)
  | writing a info fd =>
      have hwritten := hcoh.read_write hc hphase
      rw [hphase] at hps
      refine h.move (p := .returning a info (some fd)) hc rfl rfl rfl
        (hps.of_acquire rfl fun found hfound => .inl hfound) ?_
      intro n _ hnone
      rw [show (s.disk.write fd info).read = none from hnone] at hwritten
      cases hwritten
  | cleaning a info fd =>
      exact h.move (p := .idle) hc rfl rfl rfl (.of_silent rfl rfl) (fun n hn _ => by cases hn)
  | reading a t =>
      rw [hphase] at hlive
      have hhalf : c.phase.halfWritten = none := by rw [hphase]; rfl
      have hacquire : c.phase.acquire? = some a := by rw [hphase]; rfl
      cases hread : s.disk.read with
      | none => exact h.same (p := .waiting a none) hc hacquire.symm rfl hhalf
      | some info =>
          by_cases howner : info.owner = a.owner
          · simp only [howner, ↓reduceIte]
            refine h.goto hc (hps.of_acquire hacquire.symm ?_) hhalf
            intro found hfound
            rw [← Option.some.inj hfound]
            exact .inr (hlive info hread howner)
          · cases hexp : info.isExpired t with
            | true =>
                simp only [howner, hexp, ↓reduceIte]
                exact h.same (p := .removing info (some a)) hc hacquire.symm rfl hhalf
            | false =>
                simp only [howner, hexp, ↓reduceIte, Bool.false_eq_true]
                exact h.same (p := .waiting a (some info.owner)) hc hacquire.symm rfl hhalf
  | waiting a holder =>
      have hhalf : c.phase.halfWritten = none := by rw [hphase]; rfl
      by_cases hdeadline : a.deadline.any (· ≤ s.now) = true
      · simp only [hdeadline]
        exact h.finish hc hhalf _
      · simp only [hdeadline]
        exact h.same (p := .starting a) hc (by rw [hphase]; rfl) rfl hhalf
  | returning a info fd =>
      exact h.goes (p := .idle) hc rfl rfl rfl (.of_silent rfl rfl) (by rw [hphase]; rfl)
        (.inl ⟨rfl, rfl⟩)
  | removing info next =>
      have hhalf : c.phase.halfWritten = none := by rw [hphase]; rfl
      have hacquire : c.phase.acquire? = next := by rw [hphase]; rfl
      by_cases hlocked : s.locked c.registry = true
      · simpa only [hlocked, ↓reduceIte] using h
      · by_cases hread : s.disk.read = some info
        · simp only [hlocked, hread, ↓reduceIte]
          exact h.same (p := .unlinking info next) hc hacquire.symm rfl hhalf
        · simp only [hlocked, hread, ↓reduceIte]
          exact h.resume hc hacquire hhalf
  | unlinking info next =>
      exact h.reclaim hc (by rw [hphase]; rfl) (by rw [hphase]; rfl)
  | releasing path owner =>
      have hhalf : c.phase.halfWritten = none := by rw [hphase]; rfl
      by_cases hlocked : s.locked c.registry = true
      · simpa only [hlocked, ↓reduceIte] using h
      · simp only [hlocked]
        cases hread : s.disk.read with
        | none => exact h.finish hc hhalf _
        | some info =>
            by_cases howner : info.owner = owner
            · simp only [howner, ↓reduceIte]
              exact h.goto (p := .dropping path info) hc (.of_silent rfl rfl) hhalf
            · simp only [howner, ↓reduceIte]
              exact h.finish hc hhalf _
  | dropping path info =>
      have hhalf : c.phase.halfWritten = none := by rw [hphase]; rfl
      cases hrecord : s.disk.record with
      | none => exact h.finish hc hhalf _
      | some n =>
          exact h.goes (p := .idle) hc rfl rfl rfl (.of_silent rfl rfl) hhalf (.inr (.inl rfl))
  | renewing path owner lease =>
      have hhalf : c.phase.halfWritten = none := by rw [hphase]; rfl
      by_cases hlocked : s.locked c.registry = true
      · simpa only [hlocked, ↓reduceIte] using h
      · simp only [hlocked]
        cases s.disk.read.filter fun info => info.owner = owner with
        | none => exact h.finish hc hhalf _
        | some info => exact h.goto (p := .stamping info lease) hc (.of_silent rfl rfl) hhalf
  | stamping info lease =>
      obtain ⟨hrecord, hfile, -⟩ := hcoh.disk.openTmp
      exact h.goes hc rfl rfl rfl (.of_silent rfl rfl) (by rw [hphase]; rfl)
        (.inl ⟨hrecord, Disk.read_congr hrecord hfile⟩)
  | filling info updated fd =>
      rw [hphase] at hok
      exact h.goes hc rfl rfl rfl (.of_silent rfl rfl) (by rw [hphase]; rfl)
        (.inl ⟨rfl, Disk.read_congr rfl fun n => Disk.write_other hok.2.2⟩)
  | replacing info updated fd =>
      rw [hphase] at hund
      obtain ⟨-, -, htmp, hfile, -⟩ := hund
      have hreplace : s.disk.replace = some { s.disk with record := some fd, tmp := none } := by
        simp [Disk.replace, htmp]
      have hread : Disk.read { s.disk with record := some fd, tmp := none } = some updated :=
        Disk.read_of_file (t := .record updated) rfl hfile
      simp only [hreplace]
      refine h.goes (p := .idle) hc rfl rfl rfl (.of_silent rfl rfl) (by rw [hphase]; rfl)
        (.inr (.inr ?_))
      intro hnone
      rw [show Disk.read { s.disk with record := some fd, tmp := none } = none from hnone] at hread
      cases hread
  | looking =>
      have hhalf : c.phase.halfWritten = none := by rw [hphase]; rfl
      cases hread : s.disk.read with
      | none => exact h.finish hc hhalf _
      | some info => exact h.goto (p := .judging info) hc (.of_silent rfl rfl) hhalf
  | judging info =>
      have hhalf : c.phase.halfWritten = none := by rw [hphase]; rfl
      cases hexp : info.isExpired s.now with
      | true =>
          simp only [hexp, ↓reduceIte]
          exact h.goto (p := .removing info none) hc (.of_silent rfl rfl) hhalf
      | false =>
          simp only [hexp, ↓reduceIte, Bool.false_eq_true]
          exact h.finish hc hhalf _

/-- The first step of a call keeps the invariant. -/
theorem Sound.begin (h : Sound s) (hc : s.clients[i]? = some c) (hidle : c.phase = .idle)
    (call : Call) : Sound (s.begin i c call) := by
  have hhalf : c.phase.halfWritten = none := by rw [hidle]; rfl
  unfold State.begin
  cases call with
  | acquire path owner timeout lease =>
      cases hargs : acquireArgs c.defaultLease s.now path owner timeout lease with
      | ok a =>
          simp only [hargs]
          have hpos := (acquireArgs_ok hargs).2
          refine h.goto (p := .starting a) hc ⟨?_, fun _ hn => by cases hn⟩ hhalf
          intro b hb
          rw [← Option.some.inj hb]
          exact hpos
      | error e =>
          simp only [hargs]
          exact h.finish hc hhalf _
  | release path owner => exact h.goto (p := .releasing path owner) hc (.of_silent rfl rfl) hhalf
  | renew path owner lease =>
      cases hargs : leaseOf c.defaultLease lease with
      | ok l =>
          simp only [hargs]
          exact h.goto (p := .renewing path owner l) hc (.of_silent rfl rfl) hhalf
      | error e =>
          simp only [hargs]
          exact h.finish hc hhalf _
  | ownerOf => exact h.goto (p := .looking) hc (.of_silent rfl rfl) hhalf

/-- A failed write is cleaned up by the call that created the file. -/
theorem Sound.fail (h : Sound s) (hc : s.clients[i]? = some c) {fd : Nat}
    (hphase : c.phase = .writing a info fd ∨ c.phase = .returning a info (some fd)) :
    Sound (s.goto i (.cleaning a info fd)) := by
  have hps := h.phases c (List.mem_of_getElem? hc)
  have hacquire : c.phase.acquire? = some a := by
    rcases hphase with hphase | hphase <;> rw [hphase] <;> rfl
  refine h.move (p := .cleaning a info fd) hc rfl rfl rfl
    (hps.of_acquire hacquire.symm fun found hfound => by cases hfound) ?_
  intro n hrecord hnone
  rcases hphase with hphase | hphase
  · by_cases hn : fd = n
    · exact .inl (congrArg some hn)
    · refine .inr ⟨hrecord, hnone, ?_⟩
      rw [hphase]
      exact fun heq => hn (Option.some.inj heq)
  · refine .inr ⟨hrecord, hnone, ?_⟩
    rw [hphase]
    exact fun heq => by cases heq

/-- Every orderly event keeps the invariant. -/
theorem Sound.step (h : Sound s) (hcoh : Coherent s) {e : Event} (horderly : Orderly s e) :
    Sound (s.step e) := by
  cases e with
  | tick n =>
      refine ⟨?_, h.readable⟩
      intro c hc
      exact ⟨(h.phases c hc).1, fun info hinfo => horderly c hc info hinfo⟩
  | call j call =>
      cases hc : s.clients[j]? with
      | none => simpa only [State.step, hc] using h
      | some client =>
          simp only [State.step, hc]
          by_cases hidle : client.phase = .idle
          · simp only [hidle, ↓reduceIte]
            exact h.begin hc hidle call
          · simpa only [hidle, ↓reduceIte] using h
  | act j =>
      cases hc : s.clients[j]? with
      | none => simpa only [State.step, hc] using h
      | some client =>
          simp only [State.step, hc]
          obtain ⟨hund, hlive⟩ := horderly client hc
          exact h.perform hcoh hc hund hlive
  | fail j =>
      cases hc : s.clients[j]? with
      | none => simpa only [State.step, hc] using h
      | some client =>
          simp only [State.step, hc]
          cases hphase : client.phase with
          | writing a info fd => exact h.fail hc (.inl hphase)
          | returning a info fd =>
              cases fd with
              | none => exact h
              | some fd => exact h.fail hc (.inr hphase)
          | _ => exact h
  | crash j =>
      cases hc : s.clients[j]? with
      | none =>
          have hlen : s.clients.length ≤ j := by simpa using hc
          have hsame : (s.step (.crash j)) = s := by
            simp only [State.step, List.modify_eq_self hlen]
          rwa [hsame]
      | some client =>
          refine h.move (p := .idle) hc rfl rfl rfl (.of_silent rfl rfl) ?_
          intro n hrecord hnone
          refine .inr ⟨hrecord, hnone, fun hhalf => ?_⟩
          exact horderly client hc n hhalf hrecord hnone

/-- A directory that holds a whole record, or none, is sound. -/
theorem sound_start (found : Option LockInfo) (now : Int) (clients : List (Nat × Option Int)) :
    Sound (start (found.map .record) now clients) := by
  refine ⟨?_, ?_⟩
  · intro c hc
    obtain ⟨_, _, rfl⟩ := List.mem_map.mp hc
    exact .of_silent rfl rfl
  · intro n hrecord hnone
    cases found with
    | none => cases hrecord
    | some info => cases hnone

/-- A lease that is about to be returned is the record on disk, and live. -/
theorem Sound.returnsLive (h : Sound s) (hcoh : Coherent s) : ReturnsLive s := by
  intro c hc o ho
  have hps := h.phases c hc
  have hok := hcoh.phases c hc
  cases hphase : c.phase with
  | returning a info fd =>
      rw [hphase] at hps hok ho
      have howner : a.owner = o := by simpa [Phase.returns] using ho
      have hlive := hps.2 info rfl
      exact ⟨info, hok.2 hlive, hok.1.trans howner, hlive⟩
  | _ => simp [hphase, Phase.returns] at ho

-- ============================================================================
-- An acquire that runs alone
-- ============================================================================

/-- The record is gone, or has expired. -/
def Ready (d : Disk) (t : Int) : Prop :=
  d.record = none ∨ ∃ found, d.read = some found ∧ found.isExpired t = true

/-- Where an acquire that runs alone can stand. -/
def OnWay (s : State) (a : Acquire) (c : Client) : Prop :=
  match c.phase with
  | .starting b => b = a ∧ Ready s.disk s.now
  | .opening b info => b = a ∧ info.owner = a.owner ∧ Ready s.disk info.acquiredAt
  | .reading b t => b = a ∧ ∃ found, s.disk.read = some found ∧ found.isExpired t = true
  | .removing found next => next = some a ∧ s.disk.read = some found
  | .unlinking _ next => next = some a
  | .writing _ info _ | .returning _ info _ => info.owner = a.owner
  | .idle => ∃ info, c.last = some (.acquired info) ∧ info.owner = a.owner
  | _ => False

/-- The file operations left to the acquire. -/
def left (d : Disk) : Phase → Nat
  | .starting _ => if d.record = none then 4 else 9
  | .opening _ _ => if d.record = none then 3 else 8
  | .reading _ _ => 7
  | .removing _ _ => 6
  | .unlinking _ _ => 5
  | .writing _ _ _ => 2
  | .returning _ _ _ => 1
  | _ => 0

/-- The acquire of a client has at most `k` file operations left, and nobody
    else is in a mutex. -/
structure Alone (s : State) (i : Nat) (a : Acquire) (k : Nat) : Prop where
  others : ∀ (j : Nat) (c : Client), s.clients[j]? = some c → j ≠ i → c.phase.inMutex = false
  self : ∃ c, s.clients[i]? = some c ∧ OnWay s a c ∧ left s.disk c.phase ≤ k

/-- The client goes on. -/
theorem Alone.next {k m : Nat} (h : Alone s i a k) (hc : s.clients[i]? = some c) {s₁ : State}
    {f : Client → Client} (hclients : s₁.clients = s.clients)
    (hon : OnWay { s₁ with clients := s₁.clients.modify i f } a (f c))
    (hleft : left s₁.disk (f c).phase ≤ m) :
    Alone { s₁ with clients := s₁.clients.modify i f } i a m := by
  refine ⟨?_, f c, ?_, hon, hleft⟩
  · intro j c' hj hji
    rw [hclients] at hj
    rcases getElem?_modify_cases hj with ⟨hij, -⟩ | ⟨-, hother⟩
    · exact absurd hij hji
    · exact h.others j c' hother hji
  · simp [hclients, hc]

/-- Nobody else is in the mutex of the client's registry. -/
theorem Alone.unlocked {k : Nat} (h : Alone s i a k) (hc : s.clients[i]? = some c)
    (hout : c.phase.inMutex = false) (registry : Nat) : s.locked registry = false := by
  unfold State.locked
  rw [List.any_eq_false]
  intro c' hc'
  obtain ⟨j, hj⟩ := List.getElem?_of_mem hc'
  have hfree : c'.phase.inMutex = false := by
    by_cases hji : j = i
    · subst hji
      obtain rfl : c' = c := Option.some.inj (hj.symm.trans hc)
      exact hout
    · exact h.others j c' hj hji
  simp [hfree]

/-- A file operation of the acquire leaves one less to do. -/
theorem Alone.act {k : Nat} (h : Alone s i a k) : Alone (s.step (.act i)) i a (k - 1) := by
  obtain ⟨c, hc, hon, hleft⟩ := h.self
  simp only [State.step, hc]
  unfold State.perform
  unfold OnWay at hon
  cases hphase : c.phase with
  | idle =>
      simp only [hphase] at hon
      exact ⟨h.others, c, hc, by simpa only [OnWay, hphase] using hon, by simp [hphase, left]⟩
  | starting b =>
      simp only [hphase, left] at hon hleft
      obtain ⟨rfl, hready⟩ := hon
      refine h.next hc rfl ⟨rfl, rfl, hready⟩ ?_
      simp only [left]
      split at hleft <;> simp_all <;> omega
  | opening b info =>
      simp only [hphase, left] at hon hleft
      obtain ⟨rfl, howner, hready⟩ := hon
      cases hrecord : s.disk.record with
      | none =>
          have hcreate : s.disk.createExclusive = some (s.disk.files.length, { s.disk with
              files := s.disk.files ++ [.unfinished], record := some s.disk.files.length }) := by
            simp [Disk.createExclusive, hrecord]
          simp only [hcreate]
          simp only [hrecord, ↓reduceIte] at hleft
          refine h.next hc rfl howner ?_
          simp only [left]
          omega
      | some n =>
          have hcreate : s.disk.createExclusive = none := by simp [Disk.createExclusive, hrecord]
          simp only [hcreate]
          simp only [hrecord, reduceCtorEq, ↓reduceIte] at hleft
          rcases hready with hgone | hfound
          · rw [hgone] at hrecord
            cases hrecord
          · refine h.next hc rfl ⟨rfl, hfound⟩ ?_
            simp only [left]
            omega
  | writing b info fd =>
      simp only [hphase, left] at hon hleft
      refine h.next hc rfl hon ?_
      simp only [left]
      omega
  | reading b t =>
      simp only [hphase, left] at hon hleft
      obtain ⟨rfl, found, hread, hexp⟩ := hon
      by_cases howner : found.owner = b.owner
      · simp only [hread, howner, ↓reduceIte]
        refine h.next hc rfl howner ?_
        simp only [left]
        omega
      · simp only [hread, howner, hexp, ↓reduceIte]
        refine h.next hc rfl ⟨rfl, hread⟩ ?_
        simp only [left]
        omega
  | returning b info fd =>
      simp only [hphase, left] at hon hleft
      refine h.next hc rfl ⟨info, rfl, hon⟩ ?_
      simp only [left]
      omega
  | removing found next =>
      simp only [hphase, left] at hon hleft
      obtain ⟨rfl, hread⟩ := hon
      have hunlocked := h.unlocked hc (by rw [hphase]; rfl) c.registry
      simp only [hunlocked, hread, ↓reduceIte, Bool.false_eq_true]
      refine h.next hc rfl (show OnWay _ a { c with phase := .unlinking found (some a) } from rfl) ?_
      simp only [left]
      omega
  | unlinking found next =>
      simp only [hphase, left] at hon hleft
      subst hon
      refine h.next hc rfl ⟨rfl, .inl rfl⟩ ?_
      simp only [left, Disk.unlink, ↓reduceIte]
      omega
  | _ => simp [hphase] at hon

/-- Time going on does not change what is left to do. -/
theorem Alone.tick {k : Nat} (h : Alone s i a k) (n : Nat) :
    Alone (s.step (.tick n)) i a k := by
  obtain ⟨c, hc, hon, hleft⟩ := h.self
  refine ⟨h.others, c, hc, ?_, hleft⟩
  unfold OnWay at hon ⊢
  cases hphase : c.phase with
  | starting b =>
      simp only [hphase] at hon ⊢
      obtain ⟨rfl, hready⟩ := hon
      refine ⟨rfl, ?_⟩
      rcases hready with hgone | ⟨found, hread, hexp⟩
      · exact .inl hgone
      · have hle : s.now ≤ s.now + n := by omega
        exact .inr ⟨found, hread, LockInfo.isExpired_mono hexp hle⟩
  | _ =>
      rw [hphase] at hon
      exact hon

/-- An acquire that runs alone. -/
theorem Alone.run {k : Nat} (h : Alone s i a k) (ts : List Event)
    (hts : ∀ e ∈ ts, e.aloneOf i = true) :
    Alone (s.run ts) i a (k - ts.countP Event.isAct) := by
  induction ts generalizing s k with
  | nil => exact h
  | cons e ts ih =>
      have he := hts e (List.mem_cons_self ..)
      have hrest := fun e' he' => hts e' (List.mem_cons_of_mem e he')
      cases e with
      | tick n =>
          have hcount : (Event.tick n :: ts).countP Event.isAct = ts.countP Event.isAct := by
            simp [Event.isAct]
          rw [hcount]
          exact ih (h.tick n) hrest
      | act j =>
          obtain rfl : j = i := by simpa [Event.aloneOf] using he
          have hnext := ih h.act hrest
          have hcount : k - 1 - ts.countP Event.isAct =
              k - (Event.act j :: ts).countP Event.isAct := by
            simp only [List.countP_cons, Event.isAct, ↓reduceIte]
            omega
          rwa [hcount] at hnext
      | _ => simp [Event.aloneOf] at he

/-- An acquire with nothing left to do has returned its lease. -/
theorem Alone.done (h : Alone s i a 0) : ∃ c info, s.clients[i]? = some c ∧ c.phase = .idle ∧
    c.last = some (.acquired info) ∧ info.owner = a.owner := by
  obtain ⟨c, hc, hon, hleft⟩ := h.self
  unfold OnWay at hon
  cases hphase : c.phase with
  | idle =>
      simp only [hphase] at hon
      obtain ⟨info, hlast, howner⟩ := hon
      exact ⟨c, info, hc, hphase, hlast, howner⟩
  | starting b =>
      simp only [hphase, left] at hleft
      split at hleft <;> omega
  | opening b info =>
      simp only [hphase, left] at hleft
      split at hleft <;> omega
  | _ => simp [hphase, left] at hon hleft

/-- From a sound state with no live record on disk an acquire gets its lease. -/
theorem Sound.reclaims (h : Sound s) : Reclaims s := by
  intro hexpired hfree i c path owner timeout lease a hc hidle hargs ts hts hcount
  have hready : Ready s.disk s.now := by
    cases hrecord : s.disk.record with
    | none => exact .inl hrecord
    | some n =>
        cases hread : s.disk.read with
        | some found => exact .inr ⟨found, hread, hexpired found hread⟩
        | none =>
            -- a record that cannot be read is one that a call is writing
            obtain ⟨c', hc', hhalf⟩ := h.readable n hrecord hread
            rw [(hfree c' hc').2] at hhalf
            cases hhalf
  have hstep : s.step (.call i (.acquire path owner timeout lease)) = s.goto i (.starting a) := by
    simp only [State.step, hc, hidle, ↓reduceIte, State.begin, hargs]
  have hstart : Alone (s.goto i (.starting a)) i a 9 := by
    refine ⟨?_, { c with phase := .starting a }, ?_, ⟨rfl, hready⟩, ?_⟩
    · intro j c' hj hji
      rcases getElem?_modify_cases hj with ⟨hij, -⟩ | ⟨-, hother⟩
      · exact absurd hij hji
      · exact (hfree c' (List.mem_of_getElem? hother)).1
    · simp [State.goto, hc]
    · simp only [left]
      split <;> omega
  have hrun := hstart.run ts hts
  rw [Nat.sub_eq_zero_of_le hcount] at hrun
  obtain ⟨c', info, hc', hidle', hlast, howner⟩ := hrun.done
  rw [hstep]
  exact ⟨c', info, hc', hidle', hlast, howner.trans (acquireArgs_ok hargs).1⟩

end Lemmas

-- ============================================================================
-- Every run
-- ============================================================================

/-- In every state of an orderly run a lease that is returned is live, and when
    every lease on disk has expired an acquire gets one. -/
theorem leases_live (found : Option LockInfo) (now : Int) (clients : List (Nat × Option Int))
    (es : List Event)
    (h : Steps.Meets State.step Orderly (start (found.map .record) now clients) es) :
    ReturnsLive ((start (found.map .record) now clients).run es) ∧
      Reclaims ((start (found.map .record) now clients).run es) := by
  have hboth : Coherent ((start (found.map .record) now clients).run es) ∧
      Sound ((start (found.map .record) now clients).run es) :=
    h.keeps (I := fun s => Coherent s ∧ Sound s)
      (fun s e hs horderly => ⟨hs.1.step horderly.undisturbed, hs.2.step hs.1 horderly⟩)
      ⟨coherent_start _ now clients, sound_start found now clients⟩
  exact ⟨hboth.2.returnsLive hboth.1, hboth.2.reclaims⟩

/-- The abandoned record is reclaimed and its successor's lease passed on. -/
theorem leases_live_in_turn :
    Steps.Meets State.step Orderly abandoned inTurn ∧
      ReturnsLive (abandoned.run inTurn) ∧ Reclaims (abandoned.run inTurn) := by
  have h : Steps.Meets State.step Orderly abandoned inTurn := by decide
  exact ⟨h, leases_live (some ⟨py "gone", 0, some 10⟩) 20 [(1, some 300), (2, some 300)] inTurn h⟩

/-- An owner that comes back to its own record after its lease. -/
def comingBack : State := start (some (.record ⟨py "alice", 0, some 10⟩)) 20 [(1, some 300)]

/-- A process that dies between the creation of the record and its text, and
    a thousand seconds. -/
def diedWriting : List Event :=
  [.call 0 (attempt (py "alice")), .act 0, .act 0, .crash 0, .tick 1000]

/-- An expired lease is returned as it is, and a record that was never written
    times every other owner out. -/
theorem stale_lease_and_dead_record :
    ¬ ReturnsLive (comingBack.run
        [.call 0 (attempt (py "alice")), .act 0, .act 0, .act 0]) ∧
      ¬ Reclaims ((start none 0 [(1, some 300), (2, some 300)]).run diedWriting) := by
  refine ⟨?_, ?_⟩
  · intro h
    have hc : (comingBack.run [.call 0 (attempt (py "alice")), .act 0, .act 0, .act 0]).clients =
        [⟨1, some 300, .returning ⟨py "a.py", py "alice", some 300, some 20⟩
          ⟨py "alice", 0, some 10⟩ none, none⟩] := by decide
    have hread : (comingBack.run
        [.call 0 (attempt (py "alice")), .act 0, .act 0, .act 0]).disk.read =
          some ⟨py "alice", 0, some 10⟩ := by decide
    obtain ⟨info, hinfo, -, hlive⟩ := h _ (by rw [hc]; exact List.mem_singleton.mpr rfl)
      (py "alice") (by decide)
    rw [hread] at hinfo
    obtain rfl := Option.some.inj hinfo
    revert hlive
    decide
  · intro h
    obtain ⟨c, info, hc, -, hlast, -⟩ := h (by decide) (by decide) 1
      ⟨2, some 300, .idle, none⟩ (py "a.py") (py "bob") (some 0) none
      ⟨py "a.py", py "bob", some 300, some 1000⟩ (by decide) rfl (by decide)
      (List.replicate 9 (.act 1)) (by decide) (by decide)
    have htimeout : ((((start none 0 [(1, some 300), (2, some 300)]).run diedWriting).step
        (.call 1 (attempt (py "bob")))).run (List.replicate 9 (.act 1))).clients[1]?.map (·.last) =
          some (some (.raised (timeoutError (py "a.py") none))) := by decide
    have hgot : some c.last = some (some (.raised (timeoutError (py "a.py") none))) := by
      rw [← htimeout, attempt, hc]
      rfl
    rw [hlast] at hgot
    cases Option.some.inj (Option.some.inj hgot)

end Subagent
end KineticSdk
