/-
  KineticSdk.Files.Serializable

  When the edits of one file are serializable.

  A call takes effect with its write.  If the write finds the file as the call
  has read it, the call does what it would do alone at that moment; so the calls
  in the order of their writes give the file (`Committed`).  The lease does not
  see to that: a call reads before it acquires.
-/

import Mathlib.Data.List.Permutation
import KineticSdk.Files.Editing
import KineticSdk.Lib.Slots
import KineticSdk.Lib.Wp

namespace KineticSdk
namespace Files

open Py
open Lib Lib.Slots

-- ============================================================================
-- One call after another
-- ============================================================================

section

variable (similar : PyStr → PyStr → Bool)

/-- A successful call with nothing else going on: the file and the memory it
    leaves. -/
def Call.alone (c : Call) (state : Option PyStr × Memory) : Option (Option PyStr × Memory) :=
  match plan similar c.path c.request (state.2 (c.editor, c.path)) state.1 with
  | .error _ => none
  | .ok p =>
      match p.change.apply state.1 with
      | (file, none) => some (file, state.2.set (c.editor, c.path) p.memo)
      | (_, some _) => none

/-- Successful calls one after another. -/
def serial (calls : List Call) (state : Option PyStr × Memory) :
    Option (Option PyStr × Memory) :=
  calls.foldlM (fun st c => c.alone similar st) state

theorem serial_concat (calls : List Call) (c : Call) (state : Option PyStr × Memory) :
    serial similar (calls ++ [c]) state = (serial similar calls state).bind (c.alone similar) := by
  unfold serial
  rw [List.foldlM_append]
  cases calls.foldlM (fun st c => c.alone similar st) state <;> simp

end

/-- The successful calls. -/
def Editing.successes (s : Editing) : List Call :=
  s.done.filterMap fun r =>
    match r.2 with
    | .success _ => some r.1
    | _ => none

/-- No call is under way. -/
def Editing.Quiet (s : Editing) : Prop := ∀ p ∈ s.threads, p = .idle

instance (s : Editing) : Decidable s.Quiet := inferInstanceAs (Decidable (∀ p ∈ s.threads, p = .idle))

/-- The file is what the successful calls make of it one after another, in some
    order. -/
def Editing.Serializable (similar : PyStr → PyStr → Bool) (s₀ s : Editing) : Prop :=
  ∃ order : List Call, order.Perm s.successes ∧
    ∃ m, serial similar order (s₀.file, s₀.memory) = some (s.file, m)

-- ============================================================================
-- The condition
-- ============================================================================

/-- The calls that have written and are not over. -/
def Editing.pendings (s : Editing) : List Job := s.threads.filterMap Phase.pending

/-- The call does what it was planned to do: the file is as it has read it, an undo
    brings back what its tool remembers, and no other call of the tool on the path
    is between its write and its end. -/
structure Job.Fresh (s : Editing) (job : Job) : Prop where
  file : job.plan.change ≠ .delete → s.file = job.seen
  memory : job.call.request = .undoEdit → s.memory job.key = job.remembered
  others : ∀ other ∈ s.pendings, other.key ≠ job.key

instance (s : Editing) (job : Job) : Decidable (job.Fresh s) :=
  decidable_of_iff ((job.plan.change ≠ .delete → s.file = job.seen) ∧
      (job.call.request = .undoEdit → s.memory job.key = job.remembered) ∧
      ∀ other ∈ s.pendings, other.key ≠ job.key)
    ⟨fun h => ⟨h.1, h.2.1, h.2.2⟩, fun h => ⟨h.file, h.memory, h.others⟩⟩

/-- A write is fresh, or raises and leaves the file as it is. -/
def Editing.writeKept (s : Editing) (job : Job) : Prop :=
  if (job.plan.change.apply s.file).2 = none then job.Fresh s
  else (job.plan.change.apply s.file).1 = s.file

/-- The release does not raise. -/
def Editing.releaseKept (s : Editing) (i : Nat) : Prop :=
  match s.lockOutcome i with
  | some (.raised _) => False
  | _ => True

/-- The thread is about to write. -/
def Phase.writes : Phase → Bool
  | .writing _ => true
  | _ => false

/-- What is asked of the thread's next step: a write is fresh, or raises and leaves
    the file as it is, and a call that has written can release its lease. -/
def Phase.kept (s : Editing) (i : Nat) : Phase → Prop
  | .writing job => s.writeKept job
  | .leaving _ none => s.releaseKept i
  | _ => True

/-- What is asked of each event; a failing write, too, leaves the file as it is. -/
def Editing.Kept (s : Editing) : Event → Prop
  | .act i => ∀ p ∈ s.threads[i]?, p.kept s i
  | .fail i _ left => ∀ p ∈ s.threads[i]?, p.writes = true → left.getD s.file = s.file
  | _ => True

instance (s : Editing) (job : Job) : Decidable (s.writeKept job) := by
  unfold Editing.writeKept
  infer_instance

instance (s : Editing) (i : Nat) : Decidable (s.releaseKept i) := by
  unfold Editing.releaseKept
  split <;> infer_instance

instance (s : Editing) (i : Nat) : (p : Phase) → Decidable (p.kept s i)
  | .writing job => inferInstanceAs (Decidable (s.writeKept job))
  | .leaving _ none => inferInstanceAs (Decidable (s.releaseKept i))
  | .leaving _ (some _) | .idle | .reading _ _ | .locking _ | .acquiring _ | .releasing _ _
  | .noting _ => isTrue trivial

instance (s : Editing) : (e : Event) → Decidable (s.Kept e)
  | .act i => inferInstanceAs (Decidable (∀ p ∈ s.threads[i]?, p.kept s i))
  | .fail i _ left =>
      inferInstanceAs (Decidable (∀ p ∈ s.threads[i]?, p.writes = true → left.getD s.file = s.file))
  | .tick _ | .begin _ _ | .lock _ | .lockFail _ => isTrue trivial

-- ============================================================================
-- The plan of a call
-- ============================================================================

section

variable {similar : PyStr → PyStr → Bool} {path : PyStr} {request : Request}
  {r r' : Option (Option PyStr)} {file file' : Option PyStr} {p : Plan}

/-- Only an undo depends on what the tool remembers. -/
theorem plan_congr (h : request = .undoEdit → r = r') :
    plan similar path request r file = plan similar path request r' file := by
  cases request with
  | undoEdit => rw [h rfl]
  | applyPatch patch => rfl
  | strReplace oldStr newStr all => cases oldStr <;> cases newStr <;> rfl
  | insert line newStr => cases line <;> cases newStr <;> rfl

/-- A plan is an edit of what the file holds, or what an undo comes to. -/
theorem plan_cases (h : plan similar path request r file = .ok p) :
    (∃ text content, p.change = .write text ∧ p.memo = some (some content)) ∨
      request = .undoEdit ∧ r = some none ∧
        p = ⟨.delete, none, py "undid create of " ++ path⟩ := by
  cases request with
  | undoEdit =>
      cases r with
      | none => cases h
      | some previous =>
          cases previous with
          | none =>
              cases h
              exact Or.inr ⟨rfl, rfl, rfl⟩
          | some previous =>
              cases h
              exact Or.inl ⟨previous, file.getD [], rfl, rfl⟩
  | applyPatch patch =>
      cases hparse : parsePatch patch with
      | error e => simp [plan, hparse] at h
      | ok patches =>
          cases patches with
          | nil => simp [plan, hparse] at h
          | cons first rest =>
              cases file with
              | none => simp [plan, hparse] at h
              | some content =>
                  simp only [plan, hparse] at h
                  obtain ⟨text, -, hp⟩ := bind_ok h
                  cases hp
                  exact Or.inl ⟨text, content, rfl, rfl⟩
  | strReplace oldStr newStr all =>
      cases oldStr with
      | none => cases h
      | some oldStr =>
          cases newStr with
          | none => cases h
          | some newStr =>
              cases file with
              | none => cases h
              | some content =>
                  obtain ⟨edit, -, hp⟩ := bind_ok h
                  cases hp
                  exact Or.inl ⟨edit.content, content, rfl, rfl⟩
  | insert line newStr =>
      cases line with
      | none => cases h
      | some line =>
          cases newStr with
          | none => cases h
          | some newStr =>
              cases file with
              | none => cases h
              | some content =>
                  obtain ⟨edit, -, hp⟩ := bind_ok h
                  cases hp
                  exact Or.inl ⟨edit.content, content, rfl, rfl⟩

end

theorem Memory.set_self (m : Memory) (key : Nat × PyStr) (entry : Option (Option PyStr)) :
    m.set key entry key = entry := if_pos rfl

theorem Memory.set_of_ne (m : Memory) {key k : Nat × PyStr} (entry : Option (Option PyStr))
    (h : k ≠ key) : m.set key entry k = m k := if_neg h

/-- The job's plan is what its call makes of what it has read. -/
def Job.Planned (similar : PyStr → PyStr → Bool) (job : Job) : Prop :=
  Files.plan similar job.call.path job.call.request job.remembered job.seen = .ok job.plan

/-- A fresh job's call would do the same alone. -/
theorem Job.Fresh.alone {similar : PyStr → PyStr → Bool} {s : Editing} {job : Job}
    (hfresh : job.Fresh s) (hplan : job.Planned similar)
    (happly : (job.plan.change.apply s.file).2 = none) {m : Memory}
    (hm : m job.key = s.memory job.key) :
    job.call.alone similar (s.file, m)
      = some ((job.plan.change.apply s.file).1, m.set job.key job.plan.memo) := by
  have hsame : Files.plan similar job.call.path job.call.request (m job.key) s.file = .ok job.plan := by
    have hcongr : Files.plan similar job.call.path job.call.request (m job.key) s.file
        = Files.plan similar job.call.path job.call.request job.remembered s.file :=
      plan_congr fun hundo => hm.trans (hfresh.memory hundo)
    rw [hcongr]
    rcases plan_cases hplan with ⟨text, content, hchange, -⟩ | ⟨hundo, hcreated, heq⟩
    · have hfile := hfresh.file (by rw [hchange]; exact nofun)
      rw [hfile]
      exact hplan
    · -- the undo of a create is planned whatever the file holds
      rw [hundo, hcreated, heq]
      rfl
  have hkey : (job.call.editor, job.call.path) = job.key := rfl
  simp only [Call.alone, hkey, hsame]
  cases heq : job.plan.change.apply s.file with
  | mk file error =>
      rw [heq] at happly
      have hnone : error = none := happly
      simp only [hnone]

-- ============================================================================
-- The invariant
-- ============================================================================

/-- The calls that have written, in the order of their writes, give the file and,
    once those under way have been noted, the memory. -/
structure Committed (similar : PyStr → PyStr → Bool) (s₀ s : Editing) (order : List Call)
    (m : Memory) : Prop where
  run : serial similar order (s₀.file, s₀.memory) = some (s.file, m)
  calls : order.Perm (s.successes ++ s.pendings.map Job.call)
  keys : (s.pendings.map Job.key).Nodup
  noted : ∀ job ∈ s.pendings, m job.key = job.plan.memo
  rest : ∀ key, (∀ job ∈ s.pendings, job.key ≠ key) → m key = s.memory key
  held : ∀ job ∈ s.pendings, job.plan.memo = none → s.memory job.key ≠ none
  planned : ∀ p ∈ s.threads, ∀ job ∈ p.job, job.Planned similar

/-- What a thread shows of its writes when it goes on. -/
theorem pendings_set {s : Editing} {i : Nat} {p : Phase} (h : s.threads[i]? = some p) (q : Phase) :
    ((s.threads.set i q).filterMap Phase.pending ++ p.pending.toList).Perm
      (s.pendings ++ q.pending.toList) := filterMap_set_perm Phase.pending h q

section

variable {similar : PyStr → PyStr → Bool} {s₀ s : Editing} {order : List Call} {m : Memory}
  {i : Nat} {p : Phase}

/-- The invariant does not depend on the order of the threads, nor on the
    registry. -/
theorem Committed.congr (h : Committed similar s₀ s order m) {s' : Editing}
    (hfile : s'.file = s.file) (hmemory : s'.memory = s.memory)
    (hsucc : s'.successes = s.successes) (hpend : s'.pendings.Perm s.pendings)
    (hplanned : ∀ p ∈ s'.threads, ∀ job ∈ p.job, job.Planned similar) :
    Committed similar s₀ s' order m where
  run := by
    rw [hfile]
    exact h.run
  calls := by
    rw [hsucc]
    exact h.calls.trans ((hpend.map Job.call).symm.append_left _)
  keys := ((hpend.map Job.key).nodup_iff).mpr h.keys
  noted job hjob := h.noted job (hpend.mem_iff.mp hjob)
  rest key hkey := by
    rw [hmemory]
    exact h.rest key fun job hjob => hkey job (hpend.mem_iff.mpr hjob)
  held job hjob hmemo := by
    rw [hmemory]
    exact h.held job (hpend.mem_iff.mp hjob) hmemo
  planned := hplanned

/-- A thread goes on before its write, or after one that raised. -/
theorem Committed.quiet (h : Committed similar s₀ s order m) (hp : s.threads[i]? = some p)
    (hpending : p.pending = none) {s' : Editing} (hfile : s'.file = s.file)
    (hmemory : s'.memory = s.memory) (hsucc : s'.successes = s.successes) {q : Phase}
    (hthreads : s'.threads = s.threads.set i q) (hq : q.pending = none)
    (hjob : ∀ job ∈ q.job, job.Planned similar) : Committed similar s₀ s' order m := by
  have hperm := pendings_set hp q
  rw [hpending, hq] at hperm
  refine h.congr hfile hmemory hsucc ?_ ?_
  · unfold Editing.pendings at *
    rw [hthreads]
    simpa using hperm
  · intro p' hp' job hj
    rw [hthreads] at hp'
    rcases mem_set_cases hp' with rfl | ⟨j, -, hmem⟩
    · exact hjob job hj
    · exact h.planned p' (List.mem_of_getElem? hmem) job hj

/-- A thread that has written goes on. -/
theorem Committed.moved (h : Committed similar s₀ s order m) (hp : s.threads[i]? = some p)
    {job : Job} (hpending : p.pending = some job) {s' : Editing} (hfile : s'.file = s.file)
    (hmemory : s'.memory = s.memory) (hsucc : s'.successes = s.successes) {q : Phase}
    (hthreads : s'.threads = s.threads.set i q) (hq : q.pending = some job)
    (hqjob : q.job = some job) (hpjob : p.job = some job) : Committed similar s₀ s' order m := by
  have hperm := pendings_set hp q
  rw [hpending, hq] at hperm
  refine h.congr hfile hmemory hsucc ?_ ?_
  · unfold Editing.pendings
    rw [hthreads]
    exact (List.perm_append_right_iff _).mp hperm
  · intro p' hp' job' hj
    rw [hthreads] at hp'
    rcases mem_set_cases hp' with rfl | ⟨j, -, hmem⟩
    · have hjob : job = job' := Option.some.inj (hqjob.symm.trans hj)
      rw [← hjob]
      exact h.planned p (List.mem_of_getElem? hp) job hpjob
    · exact h.planned p' (List.mem_of_getElem? hmem) job' hj

/-- A fresh write: the call is next in the order. -/
theorem Committed.write (h : Committed similar s₀ s order m) {job : Job}
    (hp : s.threads[i]? = some (.writing job)) (hfresh : job.Fresh s)
    (happly : (job.plan.change.apply s.file).2 = none) :
    ∃ order' m', Committed similar s₀
      ({ s with file := (job.plan.change.apply s.file).1 }.goto i (.releasing job none)) order' m' := by
  have hplan : job.Planned similar := h.planned _ (List.mem_of_getElem? hp) job rfl
  have hm : m job.key = s.memory job.key := h.rest job.key hfresh.others
  have halone := hfresh.alone hplan happly hm
  have hperm : ((s.threads.set i (.releasing job none)).filterMap Phase.pending).Perm
      (s.pendings ++ [job]) := by
    have hset := pendings_set hp (.releasing job none)
    simpa [Phase.pending] using hset
  refine ⟨order ++ [job.call], m.set job.key job.plan.memo, ?_, ?_, ?_, ?_, ?_, ?_, ?_⟩
  · rw [serial_concat, h.run]
    exact halone
  · have hcalls := h.calls.append_right [job.call]
    rw [List.append_assoc] at hcalls
    have hmap := (hperm.map Job.call).symm
    rw [List.map_append] at hmap
    exact hcalls.trans (hmap.append_left _)
  · have hmap := hperm.map Job.key
    rw [List.map_append] at hmap
    refine hmap.nodup_iff.mpr (List.nodup_append.mpr ⟨h.keys, by simp, ?_⟩)
    intro key hkey key' hkey' heq
    obtain ⟨other, hother, rfl⟩ := List.mem_map.mp hkey
    rw [List.map_singleton, List.mem_singleton] at hkey'
    exact hfresh.others other hother (heq.trans hkey')
  · intro other hother
    rcases List.mem_append.mp (hperm.mem_iff.mp hother) with hmem | hmem
    · rw [Memory.set_of_ne _ _ (hfresh.others other hmem)]
      exact h.noted other hmem
    · rw [List.mem_singleton.mp hmem]
      exact Memory.set_self ..
  · intro key hkey
    have hne : key ≠ job.key := by
      have hmem := hperm.mem_iff.mpr (List.mem_append_right _ (List.mem_singleton.mpr rfl))
      exact (hkey job hmem).symm
    rw [Memory.set_of_ne _ _ hne]
    exact h.rest key fun other hother =>
      hkey other (hperm.mem_iff.mpr (List.mem_append_left _ hother))
  · intro other hother hmemo
    rcases List.mem_append.mp (hperm.mem_iff.mp hother) with hmem | hmem
    · exact h.held other hmem hmemo
    · rw [List.mem_singleton.mp hmem] at hmemo ⊢
      rcases plan_cases hplan with ⟨text, content, -, hsome⟩ | ⟨hundo, hcreated, -⟩
      · rw [hmemo] at hsome
        cases hsome
      · have hmemory : s.memory job.key = some none := (hfresh.memory hundo).trans hcreated
        show s.memory job.key ≠ none
        rw [hmemory]
        exact Option.some_ne_none none
  · intro p' hp' job' hj
    rcases mem_set_cases hp' with rfl | ⟨j, -, hmem⟩
    · cases hj
      exact hplan
    · exact h.planned p' (List.mem_of_getElem? hmem) job' hj

/-- The end of a call that has written: its tool has noted it. -/
theorem Committed.note (h : Committed similar s₀ s order m) {job : Job}
    (hp : s.threads[i]? = some (.noting job)) :
    Committed similar s₀ ({ s with memory := s.memory.set job.key job.plan.memo }.finish i job.call
      (.success job.plan.output)) order m := by
  have hperm : ((s.threads.set i .idle).filterMap Phase.pending ++ [job]).Perm s.pendings := by
    have hset := pendings_set hp .idle
    simpa [Phase.pending] using hset
  have hkeys : (((s.threads.set i .idle).filterMap Phase.pending).map Job.key
      ++ [job.key]).Nodup := by
    have hmap := hperm.map Job.key
    rw [List.map_append] at hmap
    exact hmap.nodup_iff.mpr h.keys
  have hold : ∀ other ∈ (s.threads.set i .idle).filterMap Phase.pending, other ∈ s.pendings :=
    fun other hother => hperm.mem_iff.mp (List.mem_append_left _ hother)
  have hne : ∀ other ∈ (s.threads.set i .idle).filterMap Phase.pending, other.key ≠ job.key := by
    intro other hother heq
    exact (List.nodup_append.mp hkeys).2.2 _ (List.mem_map_of_mem hother) _
      (List.mem_singleton.mpr rfl) heq
  refine ⟨h.run, ?_, (List.nodup_append.mp hkeys).1, ?_, ?_, ?_, ?_⟩
  · have hsucc : ({ s with memory := s.memory.set job.key job.plan.memo }.finish i job.call
        (.success job.plan.output)).successes = s.successes ++ [job.call] := by
      simp [Editing.successes, Editing.finish]
    have hmap := (hperm.map Job.call).symm
    rw [List.map_append] at hmap
    rw [hsucc, List.append_assoc]
    exact h.calls.trans ((hmap.trans List.perm_append_comm).append_left _)
  · intro other hother
    exact h.noted other (hold other hother)
  · intro key hkey
    by_cases hself : key = job.key
    · rw [hself]
      have hmem := hperm.mem_iff.mp (List.mem_append_right _ (List.mem_singleton.mpr rfl))
      exact (h.noted job hmem).trans (Memory.set_self ..).symm
    · have hnone : ∀ other ∈ s.pendings, other.key ≠ key := by
        intro other hother
        rcases List.mem_append.mp (hperm.mem_iff.mpr hother) with hmem | hmem
        · exact hkey other hmem
        · rw [List.mem_singleton.mp hmem]
          exact fun heq => hself heq.symm
      exact (h.rest key hnone).trans (Memory.set_of_ne _ _ hself).symm
  · intro other hother hmemo
    have hset : s.memory.set job.key job.plan.memo other.key = s.memory other.key :=
      Memory.set_of_ne _ _ (hne other hother)
    show s.memory.set job.key job.plan.memo other.key ≠ none
    rw [hset]
    exact h.held other (hold other hother) hmemo
  · intro p' hp' job' hj
    rcases mem_set_cases hp' with rfl | ⟨j, -, hmem⟩
    · cases hj
    · exact h.planned p' (List.mem_of_getElem? hmem) job' hj

-- ============================================================================
-- Runs
-- ============================================================================

variable {editors : List Editor}

theorem pendings_of_quiet {s : Editing} (hidle : s.Quiet) : s.pendings = [] := by
  refine List.filterMap_eq_nil_iff.mpr ?_
  intro p hp
  rw [hidle p hp]
  rfl

/-- Before the first call. -/
theorem Committed.init (s : Editing) (hidle : s.Quiet) (hdone : s.done = []) :
    Committed similar s s [] s.memory := by
  have hpend := pendings_of_quiet hidle
  refine ⟨rfl, ?_, ?_, ?_, fun key _ => rfl, ?_, ?_⟩
  · simp [hpend, Editing.successes, hdone]
  · rw [hpend]
    exact List.nodup_nil
  · intro job hjob
    rw [hpend] at hjob
    cases hjob
  · intro job hjob
    rw [hpend] at hjob
    cases hjob
  · intro p hp job hj
    rw [hidle p hp] at hj
    cases hj

/-- A call that fails without having written. -/
theorem Committed.finish (h : Committed similar s₀ s order m) (hp : s.threads[i]? = some p)
    (hpending : p.pending = none) (c : Call) {o : Outcome} (ho : ∀ output, o ≠ .success output) :
    Committed similar s₀ (s.finish i c o) order m := by
  have hsucc : (s.finish i c o).successes = s.successes := by
    cases o with
    | success output => exact absurd rfl (ho output)
    | _ => simp [Editing.successes, Editing.finish]
  exact h.quiet hp hpending rfl rfl hsucc rfl rfl nofun

theorem report_ne_success (kind : ToolClass) (e : PyExc) (output : PyStr) :
    report kind e ≠ .success output := by
  unfold report
  cases kind with
  | applyPatchTool => exact nofun
  | fileTool =>
      simp only
      split_ifs <;> exact nofun

theorem reportRead_ne_success (kind : ToolClass) (path : PyStr) (e : PyExc) (output : PyStr) :
    reportRead kind path e ≠ .success output := by
  cases kind with
  | applyPatchTool => exact nofun
  | fileTool => exact report_ne_success .fileTool e output

/-- The registry is no part of the invariant. -/
theorem Committed.lockStep (h : Committed similar s₀ s order m) (e : Subagent.Event) :
    Committed similar s₀ (s.lockStep e) order m :=
  h.congr rfl rfl rfl (List.Perm.refl _) h.planned

/-- The writing step: a fresh write, or one that raised and changed nothing. -/
theorem Committed.actWriting (h : Committed similar s₀ s order m) {job : Job}
    (hp : s.threads[i]? = some (.writing job)) (hkept : s.writeKept job) :
    ∃ order' m', Committed similar s₀
      ({ s with file := (job.plan.change.apply s.file).1 }.goto i
        (.releasing job (job.plan.change.apply s.file).2)) order' m' := by
  unfold Editing.writeKept at hkept
  cases happly : (job.plan.change.apply s.file).2 with
  | none =>
      rw [if_pos happly] at hkept
      exact h.write hp hkept happly
  | some e =>
      rw [if_neg (by rw [happly]; exact Option.some_ne_none e)] at hkept
      refine ⟨order, m, h.quiet hp rfl hkept rfl rfl rfl rfl ?_⟩
      intro job' hj
      cases hj
      exact h.planned _ (List.mem_of_getElem? hp) job rfl

/-- The step after the release: a call that has written may end only if its
    release did not raise. -/
theorem Committed.actLeaving (h : Committed similar s₀ s order m) {job : Job}
    {error : Option PyExc} (hp : s.threads[i]? = some (.leaving job error))
    (hkept : error = none → s.releaseKept i) :
    Committed similar s₀ (s.act similar editors i) order m := by
  unfold Editing.releaseKept at hkept
  simp only [Editing.act, hp]
  cases error with
  | none =>
      have hreleased := hkept rfl
      cases houtcome : s.lockOutcome i with
      | none => exact h
      | some o =>
          rw [houtcome] at hreleased
          cases o with
          | released => exact h.moved hp rfl rfl rfl rfl rfl rfl rfl rfl
          | raised e => exact hreleased.elim
          | _ => exact h
  | some e =>
      cases s.lockOutcome i with
      | none => exact h
      | some o =>
          cases o with
          | released => exact h.finish hp rfl job.call (report_ne_success _ e)
          | raised e' => exact h.finish hp rfl job.call (report_ne_success _ e')
          | _ => exact h

/-- One step of a call. -/
theorem Committed.act (h : Committed similar s₀ s order m) (hkept : s.Kept (.act i)) :
    ∃ order' m', Committed similar s₀ (s.act similar editors i) order' m' := by
  cases hp : s.threads[i]? with
  | none =>
      simp only [Editing.act, hp]
      exact ⟨order, m, h⟩
  | some p =>
      have hk : p.kept s i := hkept p hp
      have hplanned := h.planned p (List.mem_of_getElem? hp)
      cases p with
      | idle =>
          simp only [Editing.act, hp]
          exact ⟨order, m, h⟩
      | reading c remembered =>
          simp only [Editing.act, hp]
          cases hplan : Files.plan similar c.path c.request remembered s.file with
          | error message => exact ⟨order, m, h.finish hp rfl c fun _ => nofun⟩
          | ok plan =>
              refine ⟨order, m, h.quiet hp rfl rfl rfl rfl rfl rfl ?_⟩
              intro job hj
              cases hj
              exact hplan
      | locking job =>
          simp only [Editing.act, hp]
          cases editors[job.call.editor]? with
          | none => exact ⟨order, m, h⟩
          | some editor =>
              cases howner : editor.owner with
              | none =>
                  simp only [howner]
                  exact ⟨order, m, h.finish hp rfl job.call (report_ne_success _ _)⟩
              | some owner =>
                  simp only [howner]
                  exact ⟨order, m, h.quiet hp rfl rfl rfl rfl rfl rfl hplanned⟩
      | acquiring job =>
          simp only [Editing.act, hp]
          cases s.lockOutcome i with
          | none => exact ⟨order, m, h⟩
          | some o =>
              cases o with
              | acquired info => exact ⟨order, m, h.quiet hp rfl rfl rfl rfl rfl rfl hplanned⟩
              | raised e =>
                  exact ⟨order, m, h.finish hp rfl job.call (report_ne_success _ e)⟩
              | _ => exact ⟨order, m, h⟩
      | writing job =>
          simp only [Editing.act, hp]
          exact h.actWriting hp hk
      | releasing job error =>
          simp only [Editing.act, hp]
          cases (editors[job.call.editor]?).bind Editor.owner with
          | none => exact ⟨order, m, h⟩
          | some owner =>
              cases error with
              | none => exact ⟨order, m, h.moved hp rfl rfl rfl rfl rfl rfl rfl rfl⟩
              | some e => exact ⟨order, m, h.quiet hp rfl rfl rfl rfl rfl rfl hplanned⟩
      | leaving job error =>
          refine ⟨order, m, h.actLeaving hp ?_⟩
          intro herror
          rw [herror] at hk
          exact hk
      | noting job =>
          have hmem : job ∈ s.pendings :=
            List.mem_filterMap.mpr ⟨_, List.mem_of_getElem? hp, rfl⟩
          simp only [Editing.act, hp]
          rw [if_neg fun hgone => h.held job hmem hgone.1 hgone.2]
          exact ⟨order, m, h.note hp⟩

/-- The workspace raises: a call that has not written is over or goes on with the
    error, and the file is as it was. -/
theorem Committed.fail (h : Committed similar s₀ s order m) {e : PyExc}
    {left : Option (Option PyStr)} (hkept : s.Kept (.fail i e left)) :
    Committed similar s₀ (s.fail i e left) order m := by
  unfold Editing.fail
  cases hp : s.threads[i]? with
  | none => exact h
  | some p =>
      cases p with
      | reading c remembered =>
          dsimp only
          split_ifs
          · exact h
          · exact h.finish hp rfl c (reportRead_ne_success _ _ e)
      | writing job =>
          have hplanned := h.planned _ (List.mem_of_getElem? hp)
          exact h.quiet hp rfl (hkept _ hp rfl) rfl rfl rfl rfl hplanned
      | _ => exact h

/-- A thread calls a tool. -/
theorem Committed.begin (h : Committed similar s₀ s order m) (c : Call) :
    Committed similar s₀ (s.begin editors i c) order m := by
  unfold Editing.begin
  cases editors[c.editor]? with
  | none => exact h
  | some editor =>
      dsimp only
      split_ifs with hready
      · exact h.quiet hready.1 rfl rfl rfl rfl rfl rfl nofun
      · exact h

/-- One event. -/
theorem Committed.step (h : Committed similar s₀ s order m) (e : Event) (hkept : s.Kept e) :
    ∃ order' m', Committed similar s₀ (s.step similar editors e) order' m' := by
  cases e with
  | tick d => exact ⟨order, m, h.lockStep _⟩
  | begin i c => exact ⟨order, m, h.begin c⟩
  | act i => exact h.act hkept
  | lock i => exact ⟨order, m, h.lockStep _⟩
  | lockFail i => exact ⟨order, m, h.lockStep _⟩
  | fail i e left => exact ⟨order, m, h.fail hkept⟩

end

/-- If every write finds the file as its call has read it, a write that raises
    leaves the file as it is, and a call that has written can release its lease,
    then the file is what the successful calls make of it one after another. -/
theorem edits_serializable (similar : PyStr → PyStr → Bool) (editors : List Editor)
    (s₀ : Editing) (hidle : s₀.Quiet) (hdone : s₀.done = []) (es : List Event)
    (hkept : Steps.Meets (Editing.step similar editors) Editing.Kept s₀ es)
    (hquiet : (s₀.run similar editors es).Quiet) :
    Editing.Serializable similar s₀ (s₀.run similar editors es) := by
  have hrun : ∃ order m, Committed similar s₀ (s₀.run similar editors es) order m := by
    refine hkept.keeps (I := fun s => ∃ order m, Committed similar s₀ s order m) ?_ ?_
    · intro s e hs hkept
      obtain ⟨order, m, h⟩ := hs
      exact h.step e hkept
    · exact ⟨[], s₀.memory, Committed.init s₀ hidle hdone⟩
  obtain ⟨order, m, h⟩ := hrun
  have hcalls := h.calls
  rw [pendings_of_quiet hquiet, List.map_nil, List.append_nil] at hcalls
  exact ⟨order, hcalls, m, h.run⟩

/-- A call up to its plan. -/
def readSteps (i : Nat) (c : Call) : List Event := [.begin i c, .act i]

/-- The rest of it, when nobody else has the lease. -/
def writeSteps (i : Nat) : List Event :=
  .act i :: List.replicate 4 (.lock i) ++ List.replicate 3 (.act i) ++ List.replicate 2 (.lock i)
    ++ List.replicate 2 (.act i)

/-- Two agents with a `FileTool` each. -/
def twoEditors : List Editor :=
  [⟨.fileTool, some (py "agent-1"), 5⟩, ⟨.fileTool, some (py "agent-2"), 5⟩]

/-- A file of two lines and a thread for each agent. -/
def twoLines : Editing :=
  startEditing (some (py "one\ntwo\n")) (fun _ => none) none 0 (some 300) 2

/-- The first agent's edit. -/
def editOne : Call := ⟨0, py "f", .strReplace (some (py "one")) (some (py "ONE")) false⟩

/-- The second agent's edit, of the other line. -/
def editTwo : Call := ⟨1, py "f", .strReplace (some (py "two")) (some (py "TWO")) false⟩

/-- Two agents edit one line each, one call after the other. -/
theorem edits_serializable_turns :
    Editing.Serializable (fun a b => a == b) twoLines (twoLines.run (fun a b => a == b) twoEditors
      (readSteps 0 editOne ++ writeSteps 0 ++ readSteps 1 editTwo ++ writeSteps 1)) :=
  edits_serializable _ twoEditors twoLines (by decide) rfl _ (by decide) (by decide)

/-- Both have read before the first writes: both calls succeed, and the file lacks
    the edit of the second line, which it has in either order. -/
theorem overlapping_edits_lose_update :
    let s := twoLines.run (fun a b => a == b) twoEditors
      (readSteps 0 editOne ++ readSteps 1 editTwo ++ writeSteps 1 ++ writeSteps 0)
    s.Quiet ∧ s.successes = [editTwo, editOne] ∧ s.file = some (py "ONE\ntwo\n")
      ∧ ¬ Editing.Serializable (fun a b => a == b) twoLines s := by
  intro s
  have hquiet : s.Quiet := by decide
  have hsucc : s.successes = [editTwo, editOne] := by decide +kernel
  have hfile : s.file = some (py "ONE\ntwo\n") := by decide +kernel
  refine ⟨hquiet, hsucc, hfile, ?_⟩
  intro hserializable
  obtain ⟨order, hperm, m, hserial⟩ := hserializable
  rw [hsucc] at hperm
  rw [hfile] at hserial
  have hfirst : (serial (fun a b => a == b) order (twoLines.file, twoLines.memory)).map Prod.fst
      = some (some (py "ONE\ntwo\n")) := by
    rw [hserial]
    rfl
  rcases List.perm_pair.mp hperm with rfl | rfl
  · exact absurd hfirst (by decide +kernel)
  · exact absurd hfirst (by decide +kernel)

end Files
end KineticSdk
