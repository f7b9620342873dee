/-
  KineticSdk.Files.Rollback

  When `ApplyPatchTool.execute` is all or nothing.

  The rollback covers the paths whose locked write returned.  The path whose
  write raised is not among them, so a failed call leaves the workspace as it
  was exactly when the failing step left its own file as it was (or that file
  had been written before under another name).
-/

import KineticSdk.Files.Execute
import KineticSdk.Py.Dict

namespace KineticSdk
namespace Files

open Py

-- ============================================================================
-- One locked write
-- ============================================================================

/-- The file a path stands for. -/
def Env.target (env : Env) (path : PyStr) : PyStr :=
  match env.resolve path with
  | .ok t => t
  | .error _ => path

/-- The path is inside the workspace. -/
def Env.Resolves (env : Env) (path : PyStr) : Prop := ∃ t, env.resolve path = .ok t

/-- The locked write raises. -/
def Env.fails (env : Env) (f : Fault) : Bool :=
  match env.locking with
  | .unlocked => f.write.isSome
  | .unbound => true
  | .owned => f.acquire.isSome || f.write.isSome || f.release.isSome

/-- The write inside the lock is reached and succeeds. -/
def Env.performs (env : Env) (f : Fault) : Bool :=
  match env.locking with
  | .unlocked => f.write.isNone
  | .unbound => false
  | .owned => f.acquire.isNone && f.write.isNone

/-- What a locked write of `text` leaves in its file, if it touches it. -/
def Env.leaves (env : Env) (f : Fault) (text : PyStr) : Option PyStr :=
  if env.performs f then some text
  else if env.locking = .unbound ∨ (env.locking = .owned ∧ f.acquire.isSome) then none
  else f.write.bind Prod.snd

/-- The files after something was, or was not, left in one of them. -/
def FileMap.leave (files : FileMap) (target : PyStr) : Option PyStr → FileMap
  | none => files
  | some text => files.write target text

theorem Env.leaves_of_performs {env : Env} {f : Fault} (h : env.performs f = true)
    (text : PyStr) : env.leaves f text = some text := by
  unfold Env.leaves
  rw [if_pos h]

theorem Env.performs_of_not_fails {env : Env} {f : Fault} (h : env.fails f = false) :
    env.performs f = true := by
  unfold Env.fails at h
  unfold Env.performs
  cases hl : env.locking with
  | unlocked =>
      rw [hl] at h
      simpa using h
  | unbound =>
      rw [hl] at h
      cases h
  | owned =>
      rw [hl] at h
      simp only [Bool.or_eq_false_iff] at h
      simp only [Bool.and_eq_true]
      exact ⟨by simpa using h.1.1, by simpa using h.1.2⟩

/-- The one fact about `_write_locked`: what it leaves and whether it raises. -/
theorem Env.writeLocked_spec {env : Env} {path : PyStr} (hp : env.Resolves path) (f : Fault)
    (files : FileMap) (text : PyStr) :
    (env.writeLocked f files path text).1 = files.leave (env.target path) (env.leaves f text) ∧
      (env.writeLocked f files path text).2.isSome = env.fails f := by
  obtain ⟨t, ht⟩ := hp
  have htarget : env.target path = t := by
    unfold Env.target
    rw [ht]
  obtain ⟨acquire, write, release⟩ := f
  unfold Env.writeLocked Env.fails Env.leaves Env.performs Env.writeText
  rw [htarget, ht]
  cases hl : env.locking with
  | unlocked =>
      rcases write with _ | ⟨e, _ | left⟩
      · exact ⟨rfl, rfl⟩
      · exact ⟨rfl, rfl⟩
      · exact ⟨rfl, rfl⟩
  | unbound => exact ⟨rfl, rfl⟩
  | owned =>
      cases acquire with
      | some e => exact ⟨rfl, rfl⟩
      | none =>
          rcases write with _ | ⟨e, _ | left⟩
          · cases release <;> exact ⟨rfl, rfl⟩
          · cases release <;> exact ⟨rfl, rfl⟩
          · cases release <;> exact ⟨rfl, rfl⟩

-- ============================================================================
-- Series of writes
-- ============================================================================

/-- The files after a series of successful writes. -/
def Env.writeSeries (env : Env) (items : List (PyStr × PyStr)) (files : FileMap) : FileMap :=
  items.foldl (fun fs item => fs.write (env.target item.1) item.2) files

theorem Env.writeSeries_of_not_mem {env : Env} {items : List (PyStr × PyStr)} {t : PyStr}
    (h : ∀ item ∈ items, env.target item.1 ≠ t) (files : FileMap) :
    env.writeSeries items files t = files t := by
  induction items generalizing files with
  | nil => rfl
  | cons item items ih =>
      have hne : t ≠ env.target item.1 := (h item (List.mem_cons_self ..)).symm
      have hrest := ih (fun x hx => h x (List.mem_cons_of_mem _ hx))
        (files.write (env.target item.1) item.2)
      show env.writeSeries items _ t = _
      rw [hrest, FileMap.write, if_neg hne]

/-- Writing back what `before` held restores it on the files written. -/
theorem Env.writeSeries_of_mem {env : Env} {items : List (PyStr × PyStr)} {before : FileMap}
    (hval : ∀ item ∈ items, before (env.target item.1) = some item.2) {t : PyStr}
    (ht : ∃ item ∈ items, env.target item.1 = t) (files : FileMap) :
    env.writeSeries items files t = before t := by
  induction items generalizing files with
  | nil =>
      obtain ⟨item, hitem, -⟩ := ht
      cases hitem
  | cons item items ih =>
      show env.writeSeries items _ t = _
      by_cases hlater : ∃ x ∈ items, env.target x.1 = t
      · exact ih (fun x hx => hval x (List.mem_cons_of_mem _ hx)) hlater _
      · -- the last write to the file is this one
        have hhere : env.target item.1 = t := by
          obtain ⟨x, hx, hxt⟩ := ht
          rcases List.mem_cons.mp hx with rfl | hx
          · exact hxt
          · exact absurd ⟨x, hx, hxt⟩ hlater
        have hnot : ∀ x ∈ items, env.target x.1 ≠ t := fun x hx hxt => hlater ⟨x, hx, hxt⟩
        rw [env.writeSeries_of_not_mem hnot]
        show (if t = env.target item.1 then some item.2 else files t) = before t
        rw [if_pos hhere.symm, ← hhere, hval item (List.mem_cons_self ..)]

/-- How the loop of writes ends. -/
theorem Env.writeAll_cases {env : Env} (items : List (PyStr × PyStr))
    (hres : ∀ item ∈ items, env.Resolves item.1) (files : FileMap) (written : List PyStr) :
    (env.writeAll items files written
          = (env.writeSeries items files, written ++ items.map Prod.fst, none) ∧
        ∀ item ∈ items, env.fails (env.writes item.1) = false) ∨
      ∃ before path text after e, items = before ++ (path, text) :: after ∧
        (∀ item ∈ before, env.fails (env.writes item.1) = false) ∧
        env.fails (env.writes path) = true ∧
        env.writeAll items files written
          = ((env.writeSeries before files).leave (env.target path)
              (env.leaves (env.writes path) text), written ++ before.map Prod.fst, some e) := by
  induction items generalizing files written with
  | nil => exact Or.inl ⟨by rw [List.map_nil, List.append_nil]; rfl, by simp⟩
  | cons item items ih =>
      obtain ⟨path, text⟩ := item
      obtain ⟨hfiles, herr⟩ := env.writeLocked_spec (hres _ (List.mem_cons_self ..))
        (env.writes path) files text
      have hres' : ∀ x ∈ items, env.Resolves x.1 := fun x hx => hres x (List.mem_cons_of_mem _ hx)
      rw [Env.writeAll]
      cases hw : env.writeLocked (env.writes path) files path text with
      | mk files' err =>
          rw [hw] at hfiles herr
          simp only at hfiles herr
          cases err with
          | some e =>
              right
              refine ⟨[], path, text, items, e, rfl, by simp, by simpa using herr.symm, ?_⟩
              simp only [List.map_nil, List.append_nil, hfiles]
              rfl
          | none =>
              have hok : env.fails (env.writes path) = false := by simpa using herr.symm
              have hleft := env.leaves_of_performs (env.performs_of_not_fails hok) text
              rw [hleft] at hfiles
              have hfiles' : files' = files.write (env.target path) text := hfiles
              subst hfiles'
              rcases ih hres' (files.write (env.target path) text) (written ++ [path]) with
                ⟨heq, hall⟩ | ⟨before, p, t, after, e, hitems, hbefore, hfail, heq⟩
              · refine Or.inl ⟨?_, ?_⟩
                · simp only [heq, List.map_cons, List.append_assoc, List.singleton_append]
                  rfl
                intro x hx
                rcases List.mem_cons.mp hx with rfl | hx
                · exact hok
                · exact hall x hx
              · refine Or.inr ⟨(path, text) :: before, p, t, after, e, by rw [hitems]; rfl, ?_,
                  hfail, ?_⟩
                · intro x hx
                  rcases List.mem_cons.mp hx with rfl | hx
                  · exact hok
                  · exact hbefore x hx
                · simp only [heq, List.map_cons, List.append_assoc, List.singleton_append]
                  rfl

-- ============================================================================
-- The dry run
-- ============================================================================

/-- The dry run has read every target from the files as they are. -/
structure Prepared.Sound (env : Env) (files : FileMap) (prep : Prepared) : Prop where
  keys : ∀ path, path ∈ prep.resolved.map Prod.fst →
    ∃ text, Dict.get? prep.originals path = some text
  read : ∀ path text, Dict.get? prep.originals path = some text →
    env.Resolves path ∧ files (env.target path) = some text

theorem Env.readText_some {env : Env} {files : FileMap} {path text : PyStr}
    (h : env.readText files path = .ok (some text)) :
    env.Resolves path ∧ files (env.target path) = some text := by
  unfold Env.readText at h
  cases hr : env.resolve path with
  | error e =>
      rw [hr] at h
      cases h
  | ok t =>
      rw [hr] at h
      have htarget : env.target path = t := by
        unfold Env.target
        rw [hr]
      refine ⟨⟨t, hr⟩, ?_⟩
      rw [htarget]
      cases hf : files t with
      | none =>
          simp only [hf] at h
          cases h
      | some u =>
          cases he : env.readError path with
          | some e =>
              simp only [hf, he] at h
              cases h
          | none =>
              simp only [hf, he] at h
              cases h
              rfl

/-- Reading a target keeps what was read before and adds the target itself. -/
theorem Env.original_sound {env : Env} {files : FileMap} {acc : Prepared} {path text : PyStr}
    {originals : List (PyStr × PyStr)} (hacc : acc.Sound env files)
    (h : env.original files acc path = .ok (text, originals)) :
    (∃ u, Dict.get? originals path = some u) ∧
      (∀ q u, Dict.get? acc.originals q = some u → ∃ u', Dict.get? originals q = some u') ∧
      ∀ q u, Dict.get? originals q = some u → env.Resolves q ∧ files (env.target q) = some u := by
  unfold Env.original at h
  split at h
  · cases h
  · split at h
    · -- a further section for a path that was read before
      rename_i known hknown
      cases h
      exact ⟨hacc.keys path (Dict.mem_keys_of_get? hknown), fun q u hq => ⟨u, hq⟩, hacc.read⟩
    · split at h
      · cases h
      · cases h
      · rename_i u hu
        cases h
        refine ⟨⟨text, Dict.get?_set_self ..⟩, ?_, ?_⟩
        · intro q v hq
          by_cases hqp : path = q
          · subst hqp
            exact ⟨text, Dict.get?_set_self ..⟩
          · exact ⟨v, by rw [Dict.get?_set_of_ne _ _ hqp]; exact hq⟩
        · intro q v hq
          by_cases hqp : path = q
          · subst hqp
            rw [Dict.get?_set_self] at hq
            cases hq
            exact env.readText_some hu
          · rw [Dict.get?_set_of_ne _ _ hqp] at hq
            exact hacc.read q v hq

theorem Env.prepareOne_sound {env : Env} {files : FileMap} {acc prep : Prepared} {p : FilePatch}
    (hacc : acc.Sound env files) (h : env.prepareOne files acc p = .ok prep) :
    prep.Sound env files := by
  unfold Env.prepareOne at h
  cases ho : env.original files acc p.path with
  | error e =>
      rw [ho] at h
      cases h
  | ok r =>
      obtain ⟨text, originals⟩ := r
      obtain ⟨hself, hkeep, hread⟩ := env.original_sound hacc ho
      rw [ho] at h
      dsimp only [bind, Except.bind] at h
      split at h
      · cases h
      · cases h
        refine ⟨?_, hread⟩
        intro path hpath
        rcases Dict.mem_keys_set hpath with rfl | hpath
        · exact hself
        · obtain ⟨u, hu⟩ := hacc.keys path hpath
          exact hkeep path u hu

theorem Env.prepareAll_sound {env : Env} {files : FileMap} (ps : List FilePatch)
    {acc prep : Prepared} (hacc : acc.Sound env files)
    (h : ps.foldlM (env.prepareOne files) acc = .ok prep) : prep.Sound env files := by
  induction ps generalizing acc with
  | nil =>
      cases h
      exact hacc
  | cons p ps ih =>
      rw [List.foldlM_cons] at h
      cases hp : env.prepareOne files acc p with
      | error e =>
          rw [hp] at h
          cases h
      | ok acc' =>
          rw [hp] at h
          exact ih (env.prepareOne_sound hacc hp) h

theorem Env.prepare_sound {env : Env} {files : FileMap} {patch : PyStr} {prep : Prepared}
    (h : env.prepare files patch = .ok prep) : prep.Sound env files := by
  have hempty : Prepared.Sound env files {} := by
    refine ⟨?_, ?_⟩
    · intro path hpath
      cases hpath
    · intro path text htext
      cases htext
  unfold Env.prepare at h
  split at h
  · cases h
  · cases h
  · exact env.prepareAll_sound _ hempty h

-- ============================================================================
-- Rollback
-- ============================================================================

/-- A rollback whose writes succeed is a series of writes of the originals. -/
theorem Env.rollBack_files {env : Env} {originals : List (PyStr × PyStr)} {paths : List PyStr}
    (hres : ∀ path ∈ paths, env.Resolves path)
    (hperf : ∀ path ∈ paths, env.performs (env.rollbacks path) = true) (files : FileMap) :
    (env.rollBack originals paths files).1
      = env.writeSeries (paths.map fun p => (p, (Dict.get? originals p).getD [])) files := by
  induction paths generalizing files with
  | nil => rfl
  | cons path paths ih =>
      have hfiles := (env.writeLocked_spec (hres path (List.mem_cons_self ..))
        (env.rollbacks path) files ((Dict.get? originals path).getD [])).1
      rw [env.leaves_of_performs (hperf path (List.mem_cons_self ..))] at hfiles
      have hrest := ih (fun x hx => hres x (List.mem_cons_of_mem _ hx))
        (fun x hx => hperf x (List.mem_cons_of_mem _ hx))
        (env.writeLocked (env.rollbacks path) files path
          ((Dict.get? originals path).getD [])).1
      show (env.rollBack originals paths (env.writeLocked (env.rollbacks path) files path
        ((Dict.get? originals path).getD [])).1).1 = _
      rw [hrest, hfiles]
      rfl

/-- The failing step left its file as it was before the call, or that file is
    one of those written before and will be rolled back. -/
def Env.Recoverable (env : Env) (files : FileMap) (prep : Prepared) : Prop :=
  ∀ before path text after, prep.resolved = before ++ (path, text) :: after →
    (∀ item ∈ before, env.fails (env.writes item.1) = false) →
    env.fails (env.writes path) = true →
    ∀ left, env.leaves (env.writes path) text = some left →
      files (env.target path) = some left ∨ ∃ item ∈ before, env.target item.1 = env.target path

/-- After the rollback every file is as before the call, except for what the
    failing step left in a file no rollback write goes to. -/
theorem Env.restored_iff {env : Env} {files : FileMap} {before : List (PyStr × PyStr)}
    {originals : PyStr → PyStr}
    (horig : ∀ item ∈ before, files (env.target item.1) = some (originals item.1))
    (path : PyStr) (left : Option PyStr) :
    env.writeSeries ((before.map Prod.fst).reverse.map fun p => (p, originals p))
        ((env.writeSeries before files).leave (env.target path) left) = files ↔
      ∀ l, left = some l →
        files (env.target path) = some l ∨ ∃ item ∈ before, env.target item.1 = env.target path := by
  have hmem : ∀ item, item ∈ ((before.map Prod.fst).reverse.map fun p => (p, originals p)) ↔
      ∃ x ∈ before, item = (x.1, originals x.1) := by
    intro item
    simp only [List.mem_map, List.mem_reverse]
    constructor
    · rintro ⟨p, ⟨x, hx, rfl⟩, rfl⟩
      exact ⟨x, hx, rfl⟩
    · rintro ⟨x, hx, rfl⟩
      exact ⟨x.1, ⟨x, hx, rfl⟩, rfl⟩
  have hback : ∀ (fs : FileMap) t, (∃ x ∈ before, env.target x.1 = t) →
      env.writeSeries ((before.map Prod.fst).reverse.map fun p => (p, originals p)) fs t
        = files t := by
    rintro fs t ⟨x, hx, hxt⟩
    apply env.writeSeries_of_mem
    · intro item hitem
      obtain ⟨y, hy, rfl⟩ := (hmem item).mp hitem
      exact horig y hy
    · exact ⟨_, (hmem _).mpr ⟨x, hx, rfl⟩, hxt⟩
  have hkeep : ∀ (fs : FileMap) t, (¬ ∃ x ∈ before, env.target x.1 = t) →
      env.writeSeries ((before.map Prod.fst).reverse.map fun p => (p, originals p)) fs t
        = fs t := by
    intro fs t ht
    apply env.writeSeries_of_not_mem
    intro item hitem hitemt
    obtain ⟨y, hy, rfl⟩ := (hmem item).mp hitem
    exact ht ⟨y, hy, hitemt⟩
  have hbefore : ∀ t, (¬ ∃ x ∈ before, env.target x.1 = t) →
      env.writeSeries before files t = files t := fun t ht =>
    env.writeSeries_of_not_mem (fun x hx hxt => ht ⟨x, hx, hxt⟩) files
  constructor
  · intro heq l hl
    subst hl
    by_cases hin : ∃ x ∈ before, env.target x.1 = env.target path
    · exact Or.inr hin
    · left
      have hat := congrFun heq (env.target path)
      rw [hkeep _ _ hin] at hat
      rw [← hat]
      show (if env.target path = env.target path then some l else _) = some l
      rw [if_pos rfl]
  · intro hcond
    funext t
    by_cases hin : ∃ x ∈ before, env.target x.1 = t
    · exact hback _ t hin
    · rw [hkeep _ t hin]
      cases left with
      | none => exact hbefore t hin
      | some l =>
          show (if t = env.target path then some l else env.writeSeries before files t) = files t
          by_cases htp : t = env.target path
          · rw [if_pos htp]
            rcases hcond l rfl with h | h
            · rw [htp, h]
            · rw [htp] at hin
              exact absurd h hin
          · rw [if_neg htp]
            exact hbefore t hin

theorem first_failure_unique {α : Type _} (fails : α → Bool) {a a' b b' : List α} {x x' : α}
    (h : a ++ x :: b = a' ++ x' :: b') (ha : ∀ y ∈ a, fails y = false) (hx : fails x = true)
    (ha' : ∀ y ∈ a', fails y = false) (hx' : fails x' = true) : a = a' ∧ x = x' := by
  induction a generalizing a' with
  | nil =>
      cases a' with
      | nil => exact ⟨rfl, (List.cons.inj h).1⟩
      | cons y a' =>
          obtain rfl := (List.cons.inj h).1
          rw [ha' x (List.mem_cons_self ..)] at hx
          cases hx
  | cons z a ih =>
      cases a' with
      | nil =>
          obtain rfl := (List.cons.inj h).1
          rw [ha z (List.mem_cons_self ..)] at hx'
          cases hx'
      | cons y a' =>
          obtain ⟨rfl, htail⟩ := List.cons.inj h
          obtain ⟨rfl, rfl⟩ := ih htail (fun w hw => ha w (List.mem_cons_of_mem _ hw))
            (fun w hw => ha' w (List.mem_cons_of_mem _ hw))
          exact ⟨rfl, rfl⟩

/-- A call that returns an error, with every rollback write it attempts
    succeeding, leaves all files as they were exactly when the failing step is
    recoverable. -/
theorem execute_restores_iff (env : Env) (files : FileMap) (patch : PyStr)
    (herr : ∃ e, (env.execute files patch).result = .error e)
    (hroll : ∀ path ∈ (env.execute files patch).rolledBack,
      env.performs (env.rollbacks path) = true) :
    (env.execute files patch).files = files ↔
      ∀ prep, env.prepare files patch = .ok prep → env.Recoverable files prep := by
  unfold Env.execute at herr hroll ⊢
  cases hprep : env.prepare files patch with
  | error e =>
      constructor
      · intro _ prep h
        cases h
      · intro _
        rfl
  | ok prep =>
      have hsound := env.prepare_sound hprep
      have hresolves : ∀ item ∈ prep.resolved, env.Resolves item.1 := by
        intro item hitem
        obtain ⟨u, hu⟩ := hsound.keys item.1 (List.mem_map_of_mem hitem)
        exact (hsound.read item.1 u hu).1
      rw [hprep] at herr hroll
      have hprep_iff : (∀ p, Except.ok prep = Except.ok (ε := PyStr) p → env.Recoverable files p) ↔
          env.Recoverable files prep :=
        ⟨fun h => h prep rfl, fun h p hp => by cases hp; exact h⟩
      rw [hprep_iff]
      rcases env.writeAll_cases prep.resolved hresolves files [] with
        ⟨hall, hnofail⟩ | ⟨before, path, text, after, e, hitems, hbefore, hfail, hall⟩
      · -- every write returned, so the call did not fail
        simp only [hall] at herr
        obtain ⟨e, he⟩ := herr
        cases he
      · simp only [hall, List.nil_append] at hroll ⊢
        have hres : ∀ p ∈ (before.map Prod.fst).reverse, env.Resolves p := by
          intro p hp
          obtain ⟨x, hx, rfl⟩ := List.mem_map.mp (List.mem_reverse.mp hp)
          exact hresolves x (by rw [hitems]; exact List.mem_append_left _ hx)
        have horig : ∀ item ∈ before,
            files (env.target item.1) = some ((Dict.get? prep.originals item.1).getD []) := by
          intro item hitem
          have hkey : item.1 ∈ prep.resolved.map Prod.fst := by
            rw [hitems]
            exact List.mem_map_of_mem (List.mem_append_left _ hitem)
          obtain ⟨u, hu⟩ := hsound.keys item.1 hkey
          rw [hu]
          exact (hsound.read item.1 u hu).2
        rw [env.rollBack_files hres hroll, env.restored_iff horig]
        constructor
        · intro hleft before' path' text' after' hitems' hbefore' hfail'
          obtain ⟨rfl, heq⟩ := first_failure_unique
            (fun item : PyStr × PyStr => env.fails (env.writes item.1))
            (hitems.symm.trans hitems') hbefore hfail hbefore' hfail'
          cases heq
          exact hleft
        · intro hrec
          exact hrec before path text after hitems hbefore hfail

/-- A workspace of two files, with a fault at the write of the second. -/
def faultAtG (f : Fault) : Env where
  resolve := fun path => .ok path
  readError := fun _ => none
  locking := .owned
  writes := fun path => if path = py "g" then f else {}
  rollbacks := fun _ => {}

/-- The two files. -/
def filesFG : FileMap := fun t => if t = py "f" ∨ t = py "g" then some (py "a\n") else none

/-- Replace `a` by `b` in both. -/
def patchFG : PyStr :=
  py "--- a/f\n+++ b/f\n@@ -1 +1 @@\n-a\n+b\n--- a/g\n+++ b/g\n@@ -1 +1 @@\n-a\n+b\n"

/-- When the second lock cannot be acquired, the first file is rolled back and
    the second was never touched. -/
theorem execute_lock_timeout_restores :
    ((faultAtG { acquire := some (py "timeout") }).execute filesFG patchFG).rolledBack = [py "f"] ∧
      ((faultAtG { acquire := some (py "timeout") }).execute filesFG patchFG).files = filesFG := by
  refine ⟨by decide, (execute_restores_iff _ _ _ ?_ ?_).mpr ?_⟩
  · exact ⟨py "apply_patch failed mid-write, rolled back: timeout", by decide⟩
  · decide
  · intro prep _ before path text after _ _ hfail left hleft
    have hg : path = py "g" := by
      by_contra hne
      rw [show (faultAtG { acquire := some (py "timeout") }).writes path = {} from if_neg hne]
        at hfail
      cases hfail
    subst hg
    cases hleft

/-- The write of the second file raises after truncating it. -/
def diskFullRun : Execution :=
  (faultAtG { write := some (py "disk full", some []) }).execute filesFG patchFG

/-- The second file is written, then the release of its lock raises. -/
def lostLockRun : Execution :=
  (faultAtG { release := some (py "lost") }).execute filesFG patchFG

/-- Both calls return an error and every rollback write succeeds, yet the
    second file, which held `a`, is left empty by one and changed by the
    other. -/
theorem execute_failed_write_not_restored :
    filesFG (py "g") = some (py "a\n") ∧
    (diskFullRun.result = .error (py "apply_patch failed mid-write, rolled back: disk full") ∧
      diskFullRun.rolledBack = [py "f"] ∧ diskFullRun.files (py "f") = some (py "a\n") ∧
      diskFullRun.files (py "g") = some []) ∧
    lostLockRun.result = .error (py "apply_patch failed mid-write, rolled back: lost") ∧
      lostLockRun.rolledBack = [py "f"] ∧ lostLockRun.files (py "f") = some (py "a\n") ∧
      lostLockRun.files (py "g") = some (py "b\n") := by
  decide

end Files
end KineticSdk
