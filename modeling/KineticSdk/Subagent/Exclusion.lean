/-
  KineticSdk.Subagent.Exclusion

  When file leases exclude each other.

  The record on disk names the owner of the live lease as long as nobody
  removes or replaces a record other than the one it has read.  Reclaiming an
  expired record, releasing and renewing all read the record first and act on
  its name later; between processes nothing keeps the record from changing in
  between.

  `Coherent` is the invariant, `Coherent.step` its one step.
-/

import KineticSdk.Subagent.FileLock

namespace KineticSdk
namespace Subagent

open Py Tool
open Lib

-- ============================================================================
-- The condition
-- ============================================================================

/-- The record is the one the call has read, or is gone. -/
def State.Unchanged (s : State) (info : LockInfo) : Prop :=
  s.disk.record = none ∨ s.disk.read = some info

instance (s : State) (info : LockInfo) : Decidable (s.Unchanged info) :=
  inferInstanceAs (Decidable (_ ∨ _))

/-- An `acquire` of the owner is about to return. -/
def Phase.returns (o : PyStr) : Phase → Bool
  | .returning a _ _ => a.owner = o
  | _ => false

/-- The call is writing the temporary file. -/
def Phase.fills (fd : Nat) : Phase → Bool
  | .filling _ _ n => n = fd
  | _ => false

/-- No `acquire` of the owner is about to return. -/
def State.NoReturn (s : State) (o : PyStr) : Prop := ∀ c ∈ s.clients, c.phase.returns o = false

instance (s : State) (o : PyStr) : Decidable (s.NoReturn o) :=
  inferInstanceAs (Decidable (∀ c ∈ s.clients, c.phase.returns o = false))

/-- What a call removes or replaces is what it has read or created, and no
    other call of the same owner relies on it. -/
def UndisturbedAt (s : State) : Phase → Prop
  | .unlinking info _ => s.Unchanged info
  | .dropping _ info => s.Unchanged info ∧ s.NoReturn info.owner
  | .replacing info updated fd => s.Unchanged info ∧ s.NoReturn info.owner ∧
      s.disk.tmp = some fd ∧ s.disk.files[fd]? = some (.record updated) ∧
      ∀ c ∈ s.clients, c.phase.fills fd = false
  | .cleaning a info fd =>
      (s.disk.record = none ∨ s.disk.record = some fd ∧ ∀ found ∈ s.disk.read, found = info) ∧
        s.NoReturn a.owner ∧ s.holds a.owner = false
  | _ => True

instance (s : State) : (p : Phase) → Decidable (UndisturbedAt s p)
  | .unlinking info _ => inferInstanceAs (Decidable (s.Unchanged info))
  | .dropping _ info => inferInstanceAs (Decidable (s.Unchanged info ∧ s.NoReturn info.owner))
  | .replacing info updated fd => inferInstanceAs (Decidable (s.Unchanged info ∧
      s.NoReturn info.owner ∧ s.disk.tmp = some fd ∧
      s.disk.files[fd]? = some (.record updated) ∧ ∀ c ∈ s.clients, c.phase.fills fd = false))
  | .cleaning a info fd => inferInstanceAs (Decidable (
      (s.disk.record = none ∨ s.disk.record = some fd ∧ ∀ found ∈ s.disk.read, found = info) ∧
        s.NoReturn a.owner ∧ s.holds a.owner = false))
  | .idle | .starting _ | .opening .. | .writing .. | .reading .. | .waiting .. | .returning ..
  | .removing .. | .releasing .. | .renewing .. | .stamping .. | .filling .. | .looking
  | .judging _ => isTrue trivial

/-- The event disturbs nobody. -/
def Undisturbed (s : State) : Event → Prop
  | .act i => ∀ c ∈ s.clients[i]?, UndisturbedAt s c.phase
  | _ => True

instance (s : State) : (e : Event) → Decidable (Undisturbed s e)
  | .act i => inferInstanceAs (Decidable (∀ c ∈ s.clients[i]?, UndisturbedAt s c.phase))
  | .tick _ | .call .. | .fail _ | .crash _ => isTrue trivial

-- ============================================================================
-- The invariant
-- ============================================================================

/-- The file a call has created under the record's name. -/
def Phase.created : Phase → Option Nat
  | .writing _ _ fd | .cleaning _ _ fd => some fd
  | .returning _ _ fd => fd
  | _ => none

/-- What a call may rely on, given the directory and the clock. -/
def PhaseOk (d : Disk) (now : Int) : Phase → Prop
  | .opening a info => info.owner = a.owner ∧ info.acquiredAt ≤ now
  | .writing a info fd =>
      info.owner = a.owner ∧ d.record = some fd ∧ d.files[fd]? = some .unfinished
  | .cleaning a info _ => info.owner = a.owner
  | .reading _ t => t ≤ now
  | .returning a info _ =>
      info.owner = a.owner ∧ (info.isExpired now = false → d.read = some info)
  | .removing info _ | .unlinking info _ => info.isExpired now = true
  | .filling info updated fd =>
      updated.owner = info.owner ∧ fd < d.files.length ∧ d.record ≠ some fd
  | .replacing info updated _ => updated.owner = info.owner
  | _ => True

/-- The owner's live lease is the record on disk. -/
def State.Backed (s : State) (o : PyStr) : Prop :=
  ∃ info, s.disk.read = some info ∧ info.owner = o ∧ s.leases o = some info.expiresAt

/-- The names refer to different files that exist. -/
structure Disk.Ok (d : Disk) : Prop where
  record : ∀ n, d.record = some n → n < d.files.length
  tmp : ∀ n, d.tmp = some n → n < d.files.length ∧ d.record ≠ some n

/-- The invariant: every live lease is the record on disk. -/
structure Coherent (s : State) : Prop where
  held : ∀ o, s.holds o = true → s.Backed o
  phases : ∀ c ∈ s.clients, PhaseOk s.disk s.now c.phase
  created : ∀ c ∈ s.clients, ∀ n, c.phase.created = some n → n < s.disk.files.length
  distinct : ∀ (i j : Nat) (c c' : Client) (n : Nat), s.clients[i]? = some c →
    s.clients[j]? = some c' → c.phase.created = some n → c'.phase.created = some n → i = j
  disk : s.disk.Ok

section Lemmas

variable {s : State} {d : Disk} {now : Int} {i : Nat} {c : Client} {p q : Phase} {info : LockInfo}

theorem LockInfo.isExpired_mono {t t' : Int} (h : info.isExpired t = true) (ht : t ≤ t') :
    info.isExpired t' = true := by
  unfold isExpired at *
  cases hexp : info.expiresAt with
  | none => simp [hexp] at h
  | some e =>
      simp only [hexp, decide_eq_true_eq] at h ⊢
      omega

theorem isExpired_congr {a b : LockInfo} (h : a.expiresAt = b.expiresAt) (t : Int) :
    a.isExpired t = b.isExpired t := by
  unfold LockInfo.isExpired
  rw [h]

/-- A lease is live as long as a record with its expiry has not expired. -/
theorem holds_iff {o : PyStr} :
    s.holds o = true ↔ ∃ e, s.leases o = some e ∧
      LockInfo.isExpired ⟨o, 0, e⟩ s.now = false := by
  unfold State.holds LockInfo.isExpired
  cases hlease : s.leases o with
  | none => simp
  | some e => cases e <;> simp

/-- A lease is none of the other owners' business. -/
theorem holds_setLease {o p : PyStr} {l : Option (Option Int)} (h : p ≠ o) :
    (s.setLease o l).holds p = s.holds p := by
  have hlease : (s.setLease o l).leases p = s.leases p := if_neg h
  unfold State.holds
  rw [hlease]
  rfl

/-- The record of a live lease has not expired. -/
theorem Coherent.live (h : Coherent s) {o : PyStr} (ho : s.holds o = true)
    (hread : s.disk.read = some info) : info.owner = o ∧ info.isExpired s.now = false := by
  obtain ⟨found, hfound, howner, hlease⟩ := h.held o ho
  obtain rfl : found = info := Option.some.inj (hfound.symm.trans hread)
  obtain ⟨e, he, hlive⟩ := holds_iff.mp ho
  refine ⟨howner, ?_⟩
  rw [← hlive]
  exact isExpired_congr (Option.some.inj (hlease.symm.trans he)) s.now

/-- No lease is live while the record cannot be read. -/
theorem Coherent.none_live (h : Coherent s) (hread : s.disk.read = none) (o : PyStr) :
    s.holds o = false := by
  by_contra ho
  obtain ⟨info, hinfo, -⟩ := h.held o (by simpa using ho)
  rw [hread] at hinfo
  cases hinfo

-- ============================================================================
-- Reading
-- ============================================================================

theorem Disk.read_of_none (h : d.record = none) : d.read = none := by
  unfold Disk.read
  rw [h]
  rfl

theorem Disk.read_of_file {n : Nat} {t : Content} (h : d.record = some n)
    (ht : d.files[n]? = some t) : d.read = t.info? := by
  unfold Disk.read
  rw [h, Option.bind_some, ht, Option.bind_some]

/-- A file that is not the record does not matter to it. -/
theorem Disk.read_congr {d' : Disk} (hrecord : d'.record = d.record)
    (hfile : ∀ n, d.record = some n → d'.files[n]? = d.files[n]?) : d'.read = d.read := by
  unfold Disk.read
  rw [hrecord]
  cases h : d.record with
  | none => rfl
  | some n => simp only [Option.bind_some, hfile n h]

/-- While a call writes the record, it cannot be read. -/
theorem read_of_writing {a : Acquire} {fd : Nat} (h : PhaseOk d now (.writing a info fd)) :
    d.read = none := Disk.read_of_file h.2.1 h.2.2

-- ============================================================================
-- What the other calls rely on
-- ============================================================================

/-- Other calls when the files other than the record change. -/
theorem PhaseOk.files {d' : Disk} (h : PhaseOk d now q) (hrecord : d'.record = d.record)
    (hfile : ∀ n, d.record = some n → d'.files[n]? = d.files[n]?)
    (hlen : d.files.length ≤ d'.files.length) : PhaseOk d' now q := by
  have hread := Disk.read_congr hrecord hfile
  cases q with
  | writing a info fd => exact ⟨h.1, hrecord.trans h.2.1, (hfile fd h.2.1).trans h.2.2⟩
  | returning a info fd => exact ⟨h.1, fun hlive => hread.trans (h.2 hlive)⟩
  | filling info updated fd => exact ⟨h.1, Nat.lt_of_lt_of_le h.2.1 hlen, by rw [hrecord]; exact h.2.2⟩
  | _ => exact h

/-- Other calls when a record is removed that none of them is about to return. -/
theorem PhaseOk.unlink (h : PhaseOk d now q) (hwriting : ∀ a info fd, q ≠ .writing a info fd)
    (hreturning : ∀ a found fd, q = .returning a found fd → found.isExpired now = false →
      d.read = some found → False) : PhaseOk d.unlink now q := by
  cases q with
  | writing a info fd => exact absurd rfl (hwriting a info fd)
  | returning a found fd => exact ⟨h.1, fun hlive => (hreturning a found fd rfl hlive (h.2 hlive)).elim⟩
  | filling info updated fd => exact ⟨h.1, h.2.1, by simp [Disk.unlink]⟩
  | _ => exact h

/-- Other calls when the record is created. -/
theorem PhaseOk.create (h : PhaseOk d now q) (hnone : d.record = none) :
    PhaseOk { d with files := d.files ++ [.unfinished], record := some d.files.length } now q := by
  have hread := Disk.read_of_none hnone
  cases q with
  | writing a info fd =>
      have hsome := h.2.1
      rw [hnone] at hsome
      cases hsome
  | returning a info fd =>
      refine ⟨h.1, fun hlive => ?_⟩
      have hsome := h.2 hlive
      rw [hread] at hsome
      cases hsome
  | filling info updated fd =>
      have hlt := h.2.1
      refine ⟨h.1, ?_, ?_⟩
      · simp only [List.length_append, List.length_singleton]
        omega
      · intro heq
        have hfd := Option.some.inj heq
        omega
  | _ => exact h

/-- Other calls when the temporary file becomes the record. -/
theorem PhaseOk.replace {n : Nat} (h : PhaseOk d now q)
    (hwriting : ∀ a info fd, q ≠ .writing a info fd)
    (hreturning : ∀ a found fd, q = .returning a found fd → found.isExpired now = false →
      d.read = some found → False) (hfills : q.fills n = false) :
    PhaseOk { d with record := some n, tmp := none } now q := by
  cases q with
  | writing a info fd => exact absurd rfl (hwriting a info fd)
  | returning a found fd => exact ⟨h.1, fun hlive => (hreturning a found fd rfl hlive (h.2 hlive)).elim⟩
  | filling info updated fd =>
      refine ⟨h.1, h.2.1, ?_⟩
      have hne : fd ≠ n := by simpa [Phase.fills] using hfills
      intro heq
      exact hne (Option.some.inj heq).symm
  | _ => exact h

/-- Time goes on. -/
theorem PhaseOk.tick {t : Int} (h : PhaseOk d now q) (ht : now ≤ t) : PhaseOk d t q := by
  cases q with
  | opening a info => exact ⟨h.1, Int.le_trans h.2 ht⟩
  | reading a t₀ => exact Int.le_trans (show t₀ ≤ now from h) ht
  | returning a info fd =>
      refine ⟨h.1, fun hlive => h.2 ?_⟩
      by_contra hexp
      rw [LockInfo.isExpired_mono (by simpa using hexp) ht] at hlive
      cases hlive
  | removing info next => exact LockInfo.isExpired_mono h ht
  | unlinking info next => exact LockInfo.isExpired_mono h ht
  | _ => exact h

-- ============================================================================
-- One client goes on
-- ============================================================================

/-- The clients after one of them goes on. -/
theorem getElem?_modify_cases {f : Client → Client} {clients : List Client} {j : Nat} {c' : Client}
    (h : (clients.modify i f)[j]? = some c') :
    (j = i ∧ ∃ c, clients[i]? = some c ∧ c' = f c) ∨ (j ≠ i ∧ clients[j]? = some c') := by
  rw [List.getElem?_modify] at h
  by_cases hij : i = j
  · subst hij
    obtain ⟨c, hc, rfl⟩ : ∃ c, clients[i]? = some c ∧ f c = c' := by simpa using h
    exact .inl ⟨rfl, c, hc, rfl⟩
  · exact .inr ⟨fun hji => hij hji.symm, by simpa [hij] using h⟩

/-- The one way a step keeps the invariant: the live leases are backed, the
    other calls have what they rely on, and so has the one that goes on. -/
theorem Coherent.move (h : Coherent s) {s₁ : State} {f : Client → Client}
    (hclients : s₁.clients = s.clients) (hf : ∀ c, (f c).phase = p)
    (hheld : ∀ o, s₁.holds o = true → s₁.Backed o)
    (hothers : ∀ (j : Nat) (c : Client), s.clients[j]? = some c → j ≠ i →
      PhaseOk s₁.disk s₁.now c.phase)
    (hp : PhaseOk s₁.disk s₁.now p) (hlen : s.disk.files.length ≤ s₁.disk.files.length)
    (hcreated : ∀ n, p.created = some n → n < s₁.disk.files.length ∧
      ∀ (j : Nat) (c : Client), s.clients[j]? = some c → j ≠ i → c.phase.created ≠ some n)
    (hdisk : s₁.disk.Ok) : Coherent { s₁ with clients := s₁.clients.modify i f } := by
  have hcases : ∀ (j : Nat) (c' : Client), (s₁.clients.modify i f)[j]? = some c' →
      (j = i ∧ c'.phase = p) ∨ (j ≠ i ∧ s.clients[j]? = some c') := by
    intro j c' hj
    rw [hclients] at hj
    rcases getElem?_modify_cases hj with ⟨hji, c, -, rfl⟩ | hother
    · exact .inl ⟨hji, hf c⟩
    · exact .inr hother
  refine ⟨hheld, ?_, ?_, ?_, hdisk⟩
  · intro c' hc'
    obtain ⟨j, hj⟩ := List.getElem?_of_mem hc'
    rcases hcases j c' hj with ⟨-, hphase⟩ | ⟨hji, hother⟩
    · rw [hphase]
      exact hp
    · exact hothers j c' hother hji
  · intro c' hc' n hn
    obtain ⟨j, hj⟩ := List.getElem?_of_mem hc'
    rcases hcases j c' hj with ⟨-, hphase⟩ | ⟨hji, hother⟩
    · rw [hphase] at hn
      exact (hcreated n hn).1
    · exact Nat.lt_of_lt_of_le (h.created c' (List.mem_of_getElem? hother) n hn) hlen
  · intro j k c' c'' n hj hk hn hn'
    rcases hcases j c' hj with ⟨rfl, hphase⟩ | ⟨hji, hother⟩
    · rcases hcases k c'' hk with ⟨rfl, -⟩ | ⟨hki, hother'⟩
      · rfl
      · rw [hphase] at hn
        exact absurd hn' ((hcreated n hn).2 k c'' hother' hki)
    · rcases hcases k c'' hk with ⟨rfl, hphase'⟩ | ⟨hki, hother'⟩
      · rw [hphase'] at hn'
        exact absurd hn ((hcreated n hn').2 j c' hother hji)
      · exact h.distinct j k c' c'' n hother hother' hn hn'

/-- A client goes on, and nothing else happens. -/
theorem Coherent.advance (h : Coherent s) {f : Client → Client} (hf : ∀ c, (f c).phase = p)
    (hp : PhaseOk s.disk s.now p)
    (hcreated : ∀ n, p.created = some n →
      ∃ c, s.clients[i]? = some c ∧ c.phase.created = some n) :
    Coherent { s with clients := s.clients.modify i f } := by
  refine h.move rfl hf h.held (fun j c hc _ => h.phases c (List.mem_of_getElem? hc)) hp (Nat.le_refl _) ?_
    h.disk
  intro n hn
  obtain ⟨c, hc, hown⟩ := hcreated n hn
  refine ⟨h.created c (List.mem_of_getElem? hc) n hown, fun j c' hc' hji hother => ?_⟩
  exact hji (h.distinct j i c' c n hc' hc hother hown)

-- ============================================================================
-- The steps
-- ============================================================================

/-- The new phase has no file of its own, or the one of the phase before. -/
theorem created_of_phase (hc : s.clients[i]? = some c)
    (hsame : ∀ n, p.created = some n → c.phase.created = some n) :
    ∀ n, p.created = some n → ∃ c, s.clients[i]? = some c ∧ c.phase.created = some n :=
  fun n hn => ⟨c, hc, hsame n hn⟩

theorem Coherent.goto (h : Coherent s) (hc : s.clients[i]? = some c) (p : Phase)
    (hp : PhaseOk s.disk s.now p) (hsame : ∀ n, p.created = some n → c.phase.created = some n) :
    Coherent (s.goto i p) :=
  h.advance (fun _ => rfl) hp (created_of_phase hc hsame)

theorem Coherent.finish (h : Coherent s) (i : Nat) (o : Outcome) : Coherent (s.finish i o) :=
  h.advance (p := .idle) (fun _ => rfl) trivial (fun _ hn => by cases hn)

theorem Coherent.resume (h : Coherent s) (hc : s.clients[i]? = some c) (next : Option Acquire) :
    Coherent (s.resume i next) := by
  cases next with
  | none => exact h.finish i _
  | some a => exact h.goto hc (.starting a) trivial (fun _ hn => by cases hn)

/-- Only one call is writing the record. -/
theorem Coherent.others_not_writing (h : Coherent s) (hc : s.clients[i]? = some c) {fd : Nat}
    (hfd : c.phase.created = some fd) (hrecord : s.disk.record = some fd) (j : Nat) (c' : Client)
    (hc' : s.clients[j]? = some c') (hji : j ≠ i) (a : Acquire) (info : LockInfo) (n : Nat) :
    c'.phase ≠ .writing a info n := by
  intro hphase
  have hok := h.phases c' (List.mem_of_getElem? hc')
  rw [hphase] at hok
  have hn : n = fd := Option.some.inj (hok.2.1.symm.trans hrecord)
  refine hji (h.distinct j i c' c fd hc' hc ?_ hfd)
  rw [hphase, ← hn]
  rfl

/-- No call is writing a record that another call has read, or that is gone. -/
theorem Coherent.not_writing (h : Coherent s) (hun : s.Unchanged info) {c' : Client}
    (hc' : c' ∈ s.clients) (a : Acquire) (found : LockInfo) (n : Nat) :
    c'.phase ≠ .writing a found n := by
  intro hphase
  have hok := h.phases c' hc'
  rw [hphase] at hok
  rcases hun with hnone | hread
  · have hrecord := hok.2.1
    rw [hnone] at hrecord
    cases hrecord
  · rw [read_of_writing hok] at hread
    cases hread

/-- No acquire is about to return the record that another call has read. -/
theorem Coherent.not_returning (h : Coherent s) (hun : s.Unchanged info)
    (hfree : s.NoReturn info.owner ∨ info.isExpired s.now = true) {c' : Client}
    (hc' : c' ∈ s.clients) (a : Acquire) (found : LockInfo) (n : Option Nat)
    (hphase : c'.phase = .returning a found n) (hlive : found.isExpired s.now = false)
    (hfound : s.disk.read = some found) : False := by
  rcases hun with hnone | hread
  · rw [Disk.read_of_none hnone] at hfound
    cases hfound
  · obtain rfl : found = info := Option.some.inj (hfound.symm.trans hread)
    rcases hfree with hno | hexp
    · have hok := h.phases c' hc'
      rw [hphase] at hok
      have hreturns := hno c' hc'
      rw [hphase] at hreturns
      simp [Phase.returns, hok.1] at hreturns
    · rw [hexp] at hlive
      cases hlive

/-- A live lease is that of the record's owner. -/
theorem Coherent.owner_of_unchanged (h : Coherent s) (hun : s.Unchanged info) {o : PyStr}
    (ho : s.holds o = true) : info.owner = o ∧ info.isExpired s.now = false := by
  rcases hun with hnone | hread
  · have hfree := h.none_live (Disk.read_of_none hnone) o
    rw [ho] at hfree
    cases hfree
  · exact h.live ho hread

/-- Removing the record, when no live lease and no call relies on it. -/
theorem Coherent.unlink (h : Coherent s) {s₁ : State} {f : Client → Client}
    (hs₁ : s₁.disk = s.disk.unlink) (hnow : s₁.now = s.now) (hclients : s₁.clients = s.clients)
    (hf : ∀ c, (f c).phase = p) (hheld : ∀ o, s₁.holds o = false)
    (hwriting : ∀ (j : Nat) (c' : Client), s.clients[j]? = some c' → j ≠ i → ∀ a info n,
      c'.phase ≠ .writing a info n)
    (hreturning : ∀ (j : Nat) (c' : Client), s.clients[j]? = some c' → j ≠ i → ∀ a found n,
      c'.phase = .returning a found n → found.isExpired s.now = false →
        s.disk.read = some found → False)
    (hp : PhaseOk s.disk.unlink s.now p) (hcreated : p.created = none) :
    Coherent { s₁ with clients := s₁.clients.modify i f } := by
  refine h.move hclients hf ?_ ?_ ?_ ?_ ?_ ?_
  · intro o ho
    rw [hheld o] at ho
    cases ho
  · intro j c' hc' hji
    rw [hs₁, hnow]
    exact (h.phases c' (List.mem_of_getElem? hc')).unlink (hwriting j c' hc' hji)
      fun a found n hphase hlive => hreturning j c' hc' hji a found n hphase hlive
  · rw [hs₁, hnow]
    exact hp
  · rw [hs₁]
    exact Nat.le_refl _
  · intro n hn
    rw [hcreated] at hn
    cases hn
  · rw [hs₁]
    refine ⟨?_, fun n hn => ⟨(h.disk.tmp n hn).1, by simp [Disk.unlink]⟩⟩
    intro n hn
    cases hn

/-- Creating the record. -/
theorem Coherent.create (h : Coherent s) (hnone : s.disk.record = none) {a : Acquire}
    (howner : info.owner = a.owner) :
    Coherent ({ s with disk := { s.disk with
        files := s.disk.files ++ [Content.unfinished],
        record := some s.disk.files.length } }.goto i
      (.writing a info s.disk.files.length)) := by
  have hread := Disk.read_of_none hnone
  refine h.move rfl (fun _ => rfl) ?_ ?_ ⟨howner, rfl, by simp⟩ (by simp) ?_ ⟨?_, ?_⟩
  · intro o ho
    have hfree := h.none_live hread o
    rw [show s.holds o = true from ho] at hfree
    cases hfree
  · exact fun j c' hc' _ => (h.phases c' (List.mem_of_getElem? hc')).create hnone
  · intro n hn
    obtain rfl : s.disk.files.length = n := Option.some.inj hn
    refine ⟨by simp, fun j c' hc' _ hother => ?_⟩
    have hlt := h.created c' (List.mem_of_getElem? hc') _ hother
    omega
  · intro n hn
    obtain rfl : s.disk.files.length = n := Option.some.inj hn
    simp
  · intro n hn
    have htmp := (h.disk.tmp n hn).1
    refine ⟨by simp; omega, fun heq => ?_⟩
    have hlen := Option.some.inj heq
    omega

/-- The record can be read once the call that created it has written it. -/
theorem Coherent.read_write (h : Coherent s) (hc : s.clients[i]? = some c) {a : Acquire} {fd : Nat}
    (hphase : c.phase = .writing a info fd) : (s.disk.write fd info).read = some info := by
  have hok : PhaseOk s.disk s.now (.writing a info fd) :=
    hphase ▸ h.phases c (List.mem_of_getElem? hc)
  have hlt : fd < s.disk.files.length :=
    h.created c (List.mem_of_getElem? hc) fd (by rw [hphase]; rfl)
  exact Disk.read_of_file (t := .record info) hok.2.1 (by simp [Disk.write, hlt])

/-- Writing the record that was created. -/
theorem Coherent.write (h : Coherent s) (hc : s.clients[i]? = some c) {a : Acquire} {fd : Nat}
    (hphase : c.phase = .writing a info fd) :
    Coherent ({ s with disk := s.disk.write fd info }.goto i (.returning a info (some fd))) := by
  have hok : PhaseOk s.disk s.now (.writing a info fd) :=
    hphase ▸ h.phases c (List.mem_of_getElem? hc)
  have hread := read_of_writing hok
  have hcreated : c.phase.created = some fd := by rw [hphase]; rfl
  have hlt : fd < s.disk.files.length := h.created c (List.mem_of_getElem? hc) fd hcreated
  have hwritten := h.read_write hc hphase
  refine h.move rfl (fun _ => rfl) ?_ ?_ ⟨hok.1, fun _ => hwritten⟩ (by simp [Disk.write]) ?_
    ⟨?_, ?_⟩
  · intro o ho
    have hfree := h.none_live hread o
    rw [show s.holds o = true from ho] at hfree
    cases hfree
  · -- nobody else is writing, and no unexpired lease can be about to be returned
    intro j c' hc' hji
    have hothers := h.others_not_writing hc hcreated hok.2.1 j c' hc' hji
    have hok' := h.phases c' (List.mem_of_getElem? hc')
    cases hphase' : c'.phase with
    | writing a' info' n => exact absurd hphase' (hothers a' info' n)
    | returning a' found n =>
        rw [hphase'] at hok'
        refine ⟨hok'.1, fun hlive => ?_⟩
        have hsome := hok'.2 hlive
        rw [hread] at hsome
        cases hsome
    | filling info' updated n =>
        rw [hphase'] at hok'
        exact ⟨hok'.1, by simpa [Disk.write] using hok'.2.1, hok'.2.2⟩
    | _ => rw [hphase'] at hok'; exact hok'
  · intro n hn
    obtain rfl : fd = n := Option.some.inj hn
    refine ⟨by simpa [Disk.write] using hlt, fun j c' hc' hji hother => ?_⟩
    exact hji (h.distinct j i c' c fd hc' hc hother hcreated)
  · intro n hn
    simpa [Disk.write] using h.disk.record n hn
  · intro n hn
    simpa [Disk.write] using h.disk.tmp n hn

/-- A step that touches files other than the record only. -/
theorem Coherent.files (h : Coherent s) {d' : Disk} (hrecord : d'.record = s.disk.record)
    (hfile : ∀ n, s.disk.record = some n → d'.files[n]? = s.disk.files[n]?)
    (hlen : s.disk.files.length ≤ d'.files.length) (hdisk : d'.Ok)
    (hp : PhaseOk d' s.now p) (hcreated : p.created = none) :
    Coherent ({ s with disk := d' }.goto i p) := by
  refine h.move rfl (fun _ => rfl) ?_ ?_ hp hlen ?_ hdisk
  · intro o ho
    obtain ⟨found, hfound, howner, hlease⟩ := h.held o ho
    exact ⟨found, (Disk.read_congr hrecord hfile).trans hfound, howner, hlease⟩
  · exact fun j c' hc' _ => (h.phases c' (List.mem_of_getElem? hc')).files hrecord hfile hlen
  · intro n hn
    rw [hcreated] at hn
    cases hn

/-- Opening the temporary file leaves the record alone. -/
theorem Disk.Ok.openTmp (h : d.Ok) :
    d.openTmp.2.record = d.record ∧
      (∀ n, d.record = some n → d.openTmp.2.files[n]? = d.files[n]?) ∧
      d.files.length ≤ d.openTmp.2.files.length ∧ d.openTmp.2.Ok ∧
      d.openTmp.1 < d.openTmp.2.files.length ∧ d.record ≠ some d.openTmp.1 := by
  cases htmp : d.tmp with
  | some n =>
      obtain ⟨hlt, hne⟩ := h.tmp n htmp
      have hopen : d.openTmp = (n, { d with files := d.files.set n .unfinished }) := by
        simp [Disk.openTmp, htmp]
      rw [hopen]
      refine ⟨rfl, ?_, by simp, ⟨?_, ?_⟩, by simpa using hlt, hne⟩
      · intro m hm
        have hmn : n ≠ m := fun heq => hne (heq ▸ hm)
        simp [hmn]
      · intro m hm
        simpa using h.record m hm
      · intro m hm
        simpa using h.tmp m hm
  | none =>
      have hopen : d.openTmp = (d.files.length, { d with
          files := d.files ++ [.unfinished], tmp := some d.files.length }) := by
        simp [Disk.openTmp, htmp]
      have hnew : d.record ≠ some d.files.length := by
        intro heq
        have hlt := h.record _ heq
        omega
      rw [hopen]
      refine ⟨rfl, ?_, by simp, ⟨?_, ?_⟩, by simp, hnew⟩
      · intro m hm
        have hlt := h.record m hm
        simp [List.getElem?_append_left hlt]
      · intro m hm
        have hlt := h.record m hm
        simp only [List.length_append, List.length_singleton]
        omega
      · intro m hm
        obtain rfl : d.files.length = m := Option.some.inj hm
        exact ⟨by simp, hnew⟩

/-- Opening the temporary file. -/
theorem Coherent.openTmp (h : Coherent s) {updated : LockInfo}
    (howner : updated.owner = info.owner) :
    Coherent ({ s with disk := s.disk.openTmp.2 }.goto i
      (.filling info updated s.disk.openTmp.1)) := by
  obtain ⟨hrecord, hfile, hlen, hdisk, hlt, hne⟩ := h.disk.openTmp
  exact h.files hrecord hfile hlen hdisk ⟨howner, hlt, by rw [hrecord]; exact hne⟩ rfl

/-- Writing a file that is not the record leaves the record alone. -/
theorem Disk.write_other {fd n : Nat} (hne : d.record ≠ some fd) (hn : d.record = some n) :
    (d.write fd info).files[n]? = d.files[n]? := by
  have hfn : fd ≠ n := fun heq => hne (heq ▸ hn)
  simp [Disk.write, hfn]

/-- Writing the temporary file. -/
theorem Coherent.fill (h : Coherent s) {updated : LockInfo} {fd : Nat}
    (hok : PhaseOk s.disk s.now (.filling info updated fd)) :
    Coherent ({ s with disk := s.disk.write fd updated }.goto i (.replacing info updated fd)) := by
  refine h.files rfl (fun n => Disk.write_other hok.2.2) (by simp [Disk.write]) ⟨?_, ?_⟩ hok.1 rfl
  · intro m hm
    simpa [Disk.write] using h.disk.record m hm
  · intro m hm
    simpa [Disk.write] using h.disk.tmp m hm

/-- Putting the temporary file in the place of the record it was made from. -/
theorem Coherent.replace (h : Coherent s) {updated : LockInfo} {fd : Nat}
    (howner : updated.owner = info.owner) (hun : s.Unchanged info) (hno : s.NoReturn info.owner)
    (htmp : s.disk.tmp = some fd) (hfile : s.disk.files[fd]? = some (.record updated))
    (hfills : ∀ c ∈ s.clients, c.phase.fills fd = false) (o : Outcome) :
    Coherent (({ s with disk := { s.disk with record := some fd, tmp := none } }.setLease
      updated.owner ((s.leases updated.owner).map fun _ => updated.expiresAt)).finish i o) := by
  have hread : Disk.read { s.disk with record := some fd, tmp := none } = some updated :=
    Disk.read_of_file (t := .record updated) rfl hfile
  refine h.move (p := .idle) rfl (fun _ => rfl) ?_ ?_ trivial (Nat.le_refl _) ?_ ⟨?_, ?_⟩
  · intro p hp
    by_cases hpo : p = updated.owner
    · obtain ⟨e, he, -⟩ := holds_iff.mp hp
      refine ⟨updated, hread, hpo.symm, ?_⟩
      simp only [State.setLease, hpo, ↓reduceIte] at he ⊢
      cases hlease : s.leases updated.owner with
      | none => simp [hlease] at he
      | some _ => rfl
    · -- another owner's lease would be the record that was read
      have hp' : s.holds p = true := (holds_setLease hpo).symm.trans hp
      exact absurd (howner.trans (h.owner_of_unchanged hun hp').1).symm hpo
  · intro j c' hc' _
    have hmem := List.mem_of_getElem? hc'
    exact (h.phases c' hmem).replace (h.not_writing hun hmem)
      (fun a found n => h.not_returning hun (.inl hno) hmem a found n) (hfills c' hmem)
  · exact fun n hn => by cases hn
  · intro n hn
    obtain rfl : fd = n := Option.some.inj hn
    exact (h.disk.tmp fd htmp).1
  · exact fun n hn => by cases hn

/-- An acquire returns. -/
theorem Coherent.returned (h : Coherent s) {a : Acquire} {fd : Option Nat}
    (hok : PhaseOk s.disk s.now (.returning a info fd)) (o : Outcome) :
    Coherent ((s.setLease a.owner (some info.expiresAt)).finish i o) := by
  refine h.move (p := .idle) rfl (fun _ => rfl) ?_
    (fun j c' hc' _ => h.phases c' (List.mem_of_getElem? hc')) trivial (Nat.le_refl _) ?_ h.disk
  · intro p hp
    by_cases hpo : p = a.owner
    · have hlive : info.isExpired s.now = false := by
        obtain ⟨e, he, hlive⟩ := holds_iff.mp hp
        simp only [State.setLease, hpo, ↓reduceIte, Option.some.injEq] at he
        rw [← hlive]
        exact isExpired_congr he s.now
      exact ⟨info, hok.2 hlive, hok.1.trans hpo.symm, by simp [State.setLease, hpo]⟩
    · have hp' : s.holds p = true := (holds_setLease hpo).symm.trans hp
      obtain ⟨found, hfound, howner, hlease⟩ := h.held p hp'
      exact ⟨found, hfound, howner, by simpa [State.setLease, hpo] using hlease⟩
  · exact fun n hn => by cases hn

/-- An expired record is removed by the call that has read it. -/
theorem Coherent.reclaim (h : Coherent s)
    (hexp : info.isExpired s.now = true) (hun : s.Unchanged info) (next : Option Acquire) :
    Coherent ({ s with disk := s.disk.unlink }.resume i next) := by
  have hfree : ∀ o, s.holds o = false := by
    intro o
    by_contra ho
    have hlive := (h.owner_of_unchanged hun (by simpa using ho : s.holds o = true)).2
    rw [hexp] at hlive
    cases hlive
  have hother := fun (j : Nat) (c' : Client) (hc' : s.clients[j]? = some c') (_ : j ≠ i) =>
    h.not_writing hun (List.mem_of_getElem? hc')
  have hreturn := fun (j : Nat) (c' : Client) (hc' : s.clients[j]? = some c') (_ : j ≠ i) =>
    h.not_returning hun (.inr hexp) (List.mem_of_getElem? hc')
  cases next with
  | none =>
      exact h.unlink (p := .idle) rfl rfl rfl (fun _ => rfl) hfree hother
        (fun j c' hc' hji a found n => hreturn j c' hc' hji a found n) trivial rfl
  | some a =>
      exact h.unlink (p := .starting a) rfl rfl rfl (fun _ => rfl) hfree hother
        (fun j c' hc' hji a found n => hreturn j c' hc' hji a found n) trivial rfl

/-- A release removes the record it has read. -/
theorem Coherent.drop (h : Coherent s) (hun : s.Unchanged info) (hno : s.NoReturn info.owner)
    (o : Outcome) :
    Coherent (({ s with disk := s.disk.unlink }.setLease info.owner none).finish i o) := by
  refine h.unlink (p := .idle) (i := i) rfl rfl rfl (fun _ => rfl) ?_
    (fun j c' hc' _ => h.not_writing hun (List.mem_of_getElem? hc'))
    (fun j c' hc' _ a found n => h.not_returning hun (.inl hno) (List.mem_of_getElem? hc') a found n)
    trivial rfl
  intro p
  by_contra hp
  by_cases hpo : p = info.owner
  · simp [State.holds, State.setLease, hpo] at hp
  · have hp' : s.holds p = true := (holds_setLease hpo).symm.trans
      (by rwa [Bool.not_eq_false] at hp)
    exact hpo (h.owner_of_unchanged hun hp').1.symm

/-- An acquire that failed removes the file it has created. -/
theorem Coherent.clean (h : Coherent s) (hc : s.clients[i]? = some c) {a : Acquire} {fd : Nat}
    (hphase : c.phase = .cleaning a info fd)
    (hown : s.disk.record = none ∨
      s.disk.record = some fd ∧ ∀ found ∈ s.disk.read, found = info)
    (hno : s.NoReturn a.owner) (hheld : s.holds a.owner = false) (o : Outcome) :
    Coherent ({ s with disk := s.disk.unlink }.finish i o) := by
  have howner : info.owner = a.owner :=
    (hphase ▸ h.phases c (List.mem_of_getElem? hc) : PhaseOk s.disk s.now (.cleaning a info fd))
  have hcreated : c.phase.created = some fd := by rw [hphase]; rfl
  have hun : s.Unchanged info ∨ s.disk.read = none := by
    rcases hown with hnone | ⟨-, hread⟩
    · exact .inr (Disk.read_of_none hnone)
    · cases hfound : s.disk.read with
      | none => exact .inr rfl
      | some found => exact .inl (.inr (by rw [hfound, hread found hfound]))
  refine h.unlink (p := .idle) rfl rfl rfl (fun _ => rfl) ?_ ?_ ?_ trivial rfl
  · intro p
    by_contra hp
    have hp' : s.holds p = true := by simpa [State.holds] using hp
    rcases hun with hun | hread
    · have hpa : a.owner = p := howner.symm.trans (h.owner_of_unchanged hun hp').1
      rw [hpa, hp'] at hheld
      cases hheld
    · rw [h.none_live hread p] at hp'
      cases hp'
  · intro j c' hc' hji a' found n
    rcases hown with hnone | ⟨hrecord, -⟩
    · have hgone : s.Unchanged info := .inl hnone
      exact h.not_writing hgone (List.mem_of_getElem? hc') a' found n
    · exact h.others_not_writing hc hcreated hrecord j c' hc' hji a' found n
  · intro j c' hc' _ a' found n hphase' hlive hfound
    rcases hun with hun | hread
    · exact h.not_returning hun (.inl (howner ▸ hno)) (List.mem_of_getElem? hc') a' found n
        hphase' hlive hfound
    · rw [hread] at hfound
      cases hfound

-- ============================================================================
-- The step
-- ============================================================================

theorem Coherent.phase (h : Coherent s) (hc : s.clients[i]? = some c) :
    PhaseOk s.disk s.now c.phase := h.phases c (List.mem_of_getElem? hc)

/-- A client's next file operation keeps the invariant. -/
theorem Coherent.perform (h : Coherent s) (hc : s.clients[i]? = some c)
    (hund : UndisturbedAt s c.phase) : Coherent (s.perform i c) := by
  have hok := h.phase hc
  unfold State.perform
  cases hphase : c.phase with
  | idle => exact h
  | starting a =>
      exact h.goto hc _ ⟨rfl, Int.le_refl _⟩ (fun n hn => by cases hn)
  | opening a info =>
      rw [hphase] at hok
      cases hrecord : s.disk.record with
      | none =>
          have hcreate : s.disk.createExclusive = some (s.disk.files.length, { s.disk with
              files := s.disk.files ++ [.unfinished], record := some s.disk.files.length }) := by
            simp [Disk.createExclusive, hrecord]
          simp only [hcreate]
          exact h.create hrecord hok.1
      | some n =>
          have hcreate : s.disk.createExclusive = none := by simp [Disk.createExclusive, hrecord]
          simp only [hcreate]
          exact h.goto hc _ hok.2 (fun n hn => by cases hn)
  | writing a info fd => exact h.write hc hphase
  | cleaning a info fd =>
      rw [hphase] at hund
      exact h.clean hc hphase hund.1 hund.2.1 hund.2.2 _
  | reading a now =>
      rw [hphase] at hok
      cases hread : s.disk.read with
      | none => exact h.goto hc _ trivial (fun n hn => by cases hn)
      | some info =>
          by_cases howner : info.owner = a.owner
          · simp only [howner, ↓reduceIte]
            exact h.goto hc _ ⟨howner, fun _ => hread⟩ (fun n hn => by cases hn)
          · cases hexp : info.isExpired now with
            | true =>
                simp only [howner, hexp, ↓reduceIte]
                exact h.goto hc _ (LockInfo.isExpired_mono hexp hok) (fun n hn => by cases hn)
            | false =>
                simp only [howner, hexp, ↓reduceIte, Bool.false_eq_true]
                exact h.goto hc _ trivial (fun n hn => by cases hn)
  | waiting a holder =>
      by_cases hdeadline : a.deadline.any (· ≤ s.now) = true
      · simp only [hdeadline]
        exact h.finish i _
      · simp only [hdeadline]
        exact h.goto hc _ trivial (fun n hn => by cases hn)
  | returning a info fd =>
      rw [hphase] at hok
      exact h.returned hok _
  | removing info next =>
      rw [hphase] at hok
      by_cases hlocked : s.locked c.registry = true
      · simpa only [hlocked, ↓reduceIte] using h
      · by_cases hread : s.disk.read = some info
        · simp only [hlocked, hread, ↓reduceIte]
          exact h.goto hc _ hok (fun n hn => by cases hn)
        · simp only [hlocked, hread, ↓reduceIte]
          exact h.resume hc next
  | unlinking info next =>
      rw [hphase] at hok hund
      exact h.reclaim hok hund next
  | releasing path owner =>
      by_cases hlocked : s.locked c.registry = true
      · simpa only [hlocked, ↓reduceIte] using h
      · simp only [hlocked]
        cases hread : s.disk.read with
        | none => exact h.finish i _
        | some info =>
            by_cases howner : info.owner = owner
            · simp only [howner, ↓reduceIte]
              exact h.goto hc _ trivial (fun n hn => by cases hn)
            · simp only [howner, ↓reduceIte]
              exact h.finish i _
  | dropping path info =>
      rw [hphase] at hund
      cases hrecord : s.disk.record with
      | none => exact h.finish i _
      | some n => exact h.drop hund.1 hund.2 _
  | renewing path owner lease =>
      by_cases hlocked : s.locked c.registry = true
      · simpa only [hlocked, ↓reduceIte] using h
      · simp only [hlocked]
        cases s.disk.read.filter fun info => info.owner = owner with
        | none => exact h.finish i _
        | some info => exact h.goto hc _ trivial (fun n hn => by cases hn)
  | stamping info lease => exact h.openTmp rfl
  | filling info updated fd =>
      rw [hphase] at hok
      exact h.fill hok
  | replacing info updated fd =>
      rw [hphase] at hok hund
      obtain ⟨hun, hno, htmp, hfile, hfills⟩ := hund
      have hreplace : s.disk.replace = some { s.disk with record := some fd, tmp := none } := by
        simp [Disk.replace, htmp]
      simp only [hreplace]
      exact h.replace hok hun hno htmp hfile hfills _
  | looking =>
      cases hread : s.disk.read with
      | none => exact h.finish i _
      | some info => exact h.goto hc _ trivial (fun n hn => by cases hn)
  | judging info =>
      cases hexp : info.isExpired s.now with
      | true =>
          simp only [hexp, ↓reduceIte]
          exact h.goto hc _ hexp (fun n hn => by cases hn)
      | false =>
          simp only [hexp, ↓reduceIte, Bool.false_eq_true]
          exact h.finish i _

/-- The first step of a call keeps the invariant. -/
theorem Coherent.begin (h : Coherent s) (hc : s.clients[i]? = some c) (call : Call) :
    Coherent (s.begin i c call) := by
  unfold State.begin
  cases call with
  | acquire path owner timeout lease =>
      cases hargs : acquireArgs c.defaultLease s.now path owner timeout lease with
      | ok a =>
          simp only [hargs]
          exact h.goto hc _ trivial (fun n hn => by cases hn)
      | error e =>
          simp only [hargs]
          exact h.finish i _
  | release path owner => exact h.goto hc _ trivial (fun n hn => by cases hn)
  | renew path owner lease =>
      cases hargs : leaseOf c.defaultLease lease with
      | ok l =>
          simp only [hargs]
          exact h.goto hc _ trivial (fun n hn => by cases hn)
      | error e =>
          simp only [hargs]
          exact h.finish i _
  | ownerOf => exact h.goto hc _ trivial (fun n hn => by cases hn)

/-- Time goes on. -/
theorem Coherent.tick (h : Coherent s) (n : Nat) : Coherent { s with now := s.now + n } := by
  have hle : s.now ≤ s.now + n := by omega
  refine ⟨?_, fun c hc => (h.phases c hc).tick hle, h.created, h.distinct, h.disk⟩
  intro o ho
  obtain ⟨e, he, hlive⟩ := holds_iff.mp ho
  refine h.held o (holds_iff.mpr ⟨e, he, ?_⟩)
  by_contra hexp
  rw [LockInfo.isExpired_mono (by simpa using hexp) hle] at hlive
  cases hlive

/-- Every event that disturbs nobody keeps the invariant. -/
theorem Coherent.step (h : Coherent s) {e : Event} (hund : Undisturbed s e) :
    Coherent (s.step e) := by
  cases e with
  | tick n => exact h.tick n
  | call j call =>
      cases hc : s.clients[j]? with
      | none => simpa only [State.step, hc] using h
      | some client =>
          simp only [State.step, hc]
          by_cases hidle : client.phase = .idle
          · simp only [hidle, ↓reduceIte]
            exact h.begin hc call
          · simpa only [hidle, ↓reduceIte] using h
  | act j =>
      cases hc : s.clients[j]? with
      | none => simpa only [State.step, hc] using h
      | some client =>
          simp only [State.step, hc]
          exact h.perform hc (hund client hc)
  | fail j =>
      cases hc : s.clients[j]? with
      | none => simpa only [State.step, hc] using h
      | some client =>
          have hok := h.phase hc
          simp only [State.step, hc]
          cases hphase : client.phase with
          | writing a info fd =>
              rw [hphase] at hok
              exact h.goto hc (.cleaning a info fd) hok.1 (fun n hn => by rw [hphase]; exact hn)
          | returning a info fd =>
              rw [hphase] at hok
              cases fd with
              | none => exact h
              | some fd =>
                  exact h.goto hc (.cleaning a info fd) hok.1
                    (fun n hn => by rw [hphase]; exact hn)
          | _ => exact h
  | crash j =>
      exact h.advance (p := .idle) (fun _ => rfl) trivial (fun n hn => by cases hn)

/-- Before anybody uses the directory nobody holds a lease. -/
theorem coherent_start (content : Option Content) (now : Int) (clients : List (Nat × Option Int)) :
    Coherent (start content now clients) := by
  have hidle : ∀ c ∈ (start content now clients).clients, c.phase = .idle := by
    intro c hc
    obtain ⟨_, _, rfl⟩ := List.mem_map.mp hc
    rfl
  refine ⟨?_, ?_, ?_, ?_, ?_⟩
  · intro o ho
    have hfree : (start content now clients).holds o = false := rfl
    rw [ho] at hfree
    cases hfree
  · intro c hc
    rw [hidle c hc]
    trivial
  · intro c hc n hn
    rw [hidle c hc] at hn
    cases hn
  · intro i j c c' n hi _ hn _
    rw [hidle c (List.mem_of_getElem? hi)] at hn
    cases hn
  · cases content with
    | none =>
        refine ⟨?_, ?_⟩
        · exact fun n hn => by cases hn
        · exact fun n hn => by cases hn
    | some t =>
        refine ⟨?_, fun n hn => by cases hn⟩
        intro n hn
        obtain rfl : 0 = n := Option.some.inj hn
        exact Nat.zero_lt_one

end Lemmas

-- ============================================================================
-- Exclusion
-- ============================================================================

/-- Two live leases belong to one owner. -/
theorem Coherent.one_owner {s : State} (h : Coherent s) {o p : PyStr} (ho : s.holds o = true)
    (hp : s.holds p = true) : o = p := by
  obtain ⟨info, hread, howner, -⟩ := h.held o ho
  exact howner.symm.trans (h.live hp hread).1

/-- Registries on one lock directory, whatever record it holds at first: while
    every removal and replacement is of the record that was read, no two owners
    hold live leases at once. -/
theorem leases_exclude (content : Option Content) (now : Int)
    (clients : List (Nat × Option Int)) (es : List Event)
    (h : Steps.Meets State.step Undisturbed (start content now clients) es) (o p : PyStr)
    (hop : o ≠ p) :
    ¬ (((start content now clients).run es).holds o = true ∧
        ((start content now clients).run es).holds p = true) := by
  have hcoherent : Coherent ((start content now clients).run es) :=
    h.keeps (I := Coherent) (fun s e hs hund => hs.step hund) (coherent_start content now clients)
  rintro ⟨ho, hp⟩
  exact hop (hcoherent.one_owner ho hp)

-- ============================================================================
-- Two processes and one expired record
-- ============================================================================

/-- The record of an agent that died, found by two processes after its lease. -/
def abandoned : State :=
  start (some (.record ⟨py "gone", 0, some 10⟩)) 20 [(1, some 300), (2, some 300)]

/-- One non-blocking attempt. -/
def attempt (owner : PyStr) : Call := .acquire (py "a.py") owner (some 0) none

/-- Both processes compare the record before either removes it; the one that
    removes it second removes the other's record. -/
def reclaimRace : List Event :=
  [.call 0 (attempt (py "alice")), .call 1 (attempt (py "bob"))]
    ++ List.replicate 4 (.act 0) ++ List.replicate 9 (.act 1) ++ List.replicate 5 (.act 0)

/-- One acquires after the other, and again when the other has released. -/
def inTurn : List Event :=
  [.call 0 (attempt (py "alice"))] ++ List.replicate 9 (.act 0)
    ++ [.call 1 (attempt (py "bob"))] ++ List.replicate 4 (.act 1)
    ++ [.call 0 (.release (py "a.py") (py "alice"))] ++ List.replicate 2 (.act 0)
    ++ [.call 1 (attempt (py "bob"))] ++ List.replicate 4 (.act 1)

/-- The lease passes from one owner to the other. -/
theorem leases_exclude_in_turn :
    Steps.Meets State.step Undisturbed abandoned inTurn ∧
      ¬ ((abandoned.run inTurn).holds (py "alice") = true ∧
          (abandoned.run inTurn).holds (py "bob") = true) := by
  have h : Steps.Meets State.step Undisturbed abandoned inTurn := by decide
  exact ⟨h, leases_exclude (some (.record ⟨py "gone", 0, some 10⟩)) 20 [(1, some 300), (2, some 300)]
    inTurn h (py "alice") (py "bob") (by decide)⟩

/-- Two owners hold live leases at once. -/
theorem both_hold_after_reclaim :
    (abandoned.run reclaimRace).holds (py "alice") = true ∧
      (abandoned.run reclaimRace).holds (py "bob") = true ∧
        (abandoned.run reclaimRace).disk.read.map (·.owner) = some (py "alice") := by
  decide

end Subagent
end KineticSdk
