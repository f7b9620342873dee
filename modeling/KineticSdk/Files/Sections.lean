/-
  KineticSdk.Files.Sections

  A patch of several file sections against its sections one at a time.

  The dry run keeps the texts it has made under the paths as the patch spells
  them, over the files as they are (`Overlay`).  Where every file has one
  spelling this is the workspace that the sections so far would have left, so
  each section reads the same text either way.

  Files are UTF-8: writing a text with a lone surrogate raises after the file
  has been truncated.
-/

import KineticSdk.Files.Rollback
import KineticSdk.Lib.Wp

namespace KineticSdk
namespace Files

open Py

-- ============================================================================
-- UTF-8 files
-- ============================================================================

/-- What writing a text that UTF-8 cannot encode raises, and leaves. -/
def encodeFault : PyStr × Option PyStr :=
  (py "'utf-8' codec can't encode: surrogates not allowed", some [])

/-- What goes wrong when a text is written to a path. -/
def Env.faultFor (env : Env) (path text : PyStr) : Fault :=
  if encodable text then env.writes path
  else { env.writes path with write := (env.writes path).write.or (some encodeFault) }

/-- The environment in which the texts of the dry run are written. -/
def Env.encoding (env : Env) (prep : Prepared) : Env :=
  { env with writes := fun path => env.faultFor path ((Dict.get? prep.resolved path).getD []) }

/-- `ApplyPatchTool.execute` on UTF-8 files. -/
def Env.executeUtf8 (env : Env) (files : FileMap) (patch : PyStr) : Execution :=
  match env.prepare files patch with
  | .error e => ⟨.error e, files, []⟩
  | .ok prep => (env.encoding prep).execute files patch

/-- The patches executed one after another, while they succeed: the files. -/
def Env.executeEach (env : Env) : FileMap → List PyStr → Option FileMap
  | files, [] => some files
  | files, patch :: patches =>
      match (env.executeUtf8 files patch).result with
      | .ok _ => env.executeEach (env.executeUtf8 files patch).files patches
      | .error _ => none

-- ============================================================================
-- When a call succeeds
-- ============================================================================

/-- Writing the text to the path succeeds. -/
def Env.Writes (env : Env) (path text : PyStr) : Prop :=
  env.fails (env.writes path) = false ∧ encodable text = true

theorem Env.fails_faultFor (env : Env) (path text : PyStr) :
    env.fails (env.faultFor path text) = false ↔ env.Writes path text := by
  unfold Env.Writes Env.faultFor
  by_cases henc : encodable text = true
  · rw [if_pos henc]
    exact ⟨fun h => ⟨h, henc⟩, fun h => h.1⟩
  · rw [if_neg henc]
    refine ⟨fun h => ?_, fun h => absurd h.2 henc⟩
    have hsome : ((env.writes path).write.or (some encodeFault)).isSome = true := by
      cases (env.writes path).write <;> rfl
    have hfails : env.fails
        { env.writes path with write := (env.writes path).write.or (some encodeFault) } = true := by
      unfold Env.fails
      cases env.locking with
      | unlocked => exact hsome
      | unbound => rfl
      | owned => simp only [hsome, Bool.or_true, Bool.true_or]
    rw [hfails] at h
    cases h

theorem Prepared.Sound.resolves {env : Env} {files : FileMap} {prep : Prepared}
    (h : prep.Sound env files) : ∀ item ∈ prep.resolved, env.Resolves item.1 := by
  intro item hitem
  obtain ⟨u, hu⟩ := h.keys item.1 (List.mem_map_of_mem hitem)
  exact (h.read item.1 u hu).1

/-- One step of the dry run, when it succeeds. -/
theorem Env.prepareOne_ok_iff {env : Env} {files : FileMap} {acc prep : Prepared} {p : FilePatch} :
    env.prepareOne files acc p = .ok prep ↔
      ∃ text originals text', env.original files acc p.path = .ok (text, originals) ∧
        applyFilePatch text p = .ok text' ∧ prep = ⟨originals, Dict.set acc.resolved p.path text'⟩ := by
  unfold Env.prepareOne
  cases ho : env.original files acc p.path with
  | error e =>
      constructor
      · intro h
        cases h
      · rintro ⟨_, _, _, h, -⟩
        cases h
  | ok r =>
      obtain ⟨text, originals⟩ := r
      dsimp only [bind, Except.bind]
      cases ha : applyFilePatch text p with
      | error e =>
          constructor
          · intro h
            cases h
          · rintro ⟨_, _, _, h, h', -⟩
            cases h
            rw [ha] at h'
            cases h'
      | ok text' =>
          constructor
          · intro h
            cases h
            exact ⟨text, originals, text', rfl, ha, rfl⟩
          · rintro ⟨_, _, _, h, h', rfl⟩
            cases h
            rw [ha] at h'
            cases h'
            rfl

theorem Env.prepareAll_nodup {env : Env} {files : FileMap} (ps : List FilePatch)
    {acc prep : Prepared} (hacc : (acc.resolved.map Prod.fst).Nodup)
    (h : ps.foldlM (env.prepareOne files) acc = .ok prep) : (prep.resolved.map Prod.fst).Nodup := by
  induction ps generalizing acc with
  | nil =>
      cases h
      exact hacc
  | cons p ps ih =>
      rw [List.foldlM_cons] at h
      obtain ⟨acc', hp, hrest⟩ := Lib.bind_ok h
      obtain ⟨_, _, text', -, -, rfl⟩ := env.prepareOne_ok_iff.mp hp
      exact ih (Dict.nodup_set hacc p.path text') hrest

/-- A call succeeds when its dry run does and every text can be written, and then
    the files hold these texts. -/
theorem Env.executeUtf8_spec {env : Env} {files : FileMap} {patch : PyStr} :
    (∀ prep, env.prepare files patch = .ok prep → (∀ item ∈ prep.resolved, env.Writes item.1 item.2) →
      (env.executeUtf8 files patch).result = .ok (prep.resolved.map Prod.fst) ∧
        (env.executeUtf8 files patch).files = env.writeSeries prep.resolved files) ∧
    ∀ written, (env.executeUtf8 files patch).result = .ok written →
      ∃ prep, env.prepare files patch = .ok prep ∧ ∀ item ∈ prep.resolved, env.Writes item.1 item.2 := by
  unfold Env.executeUtf8
  cases hprep : env.prepare files patch with
  | error e =>
      exact ⟨fun prep h => (by cases h), fun written h => (by cases h)⟩
  | ok prep =>
      have hsound := env.prepare_sound hprep
      have hnodup : (prep.resolved.map Prod.fst).Nodup := by
        unfold Env.prepare at hprep
        split at hprep
        · cases hprep
        · cases hprep
        · have hempty : (({} : Prepared).resolved.map Prod.fst).Nodup := List.nodup_nil
          exact env.prepareAll_nodup _ hempty hprep
      -- the fault at a path of the dry run is the one for its text
      have hfault : ∀ item ∈ prep.resolved,
          (env.encoding prep).fails ((env.encoding prep).writes item.1) = false ↔
            env.Writes item.1 item.2 := by
        intro item hitem
        have hget : Dict.get? prep.resolved item.1 = some item.2 := Dict.get?_of_mem hnodup hitem
        rw [← env.fails_faultFor]
        show env.fails (env.faultFor item.1 ((Dict.get? prep.resolved item.1).getD [])) = false ↔ _
        rw [hget]
        rfl
      have hprep' : (env.encoding prep).prepare files patch = .ok prep := hprep
      have hres : ∀ item ∈ prep.resolved, (env.encoding prep).Resolves item.1 := hsound.resolves
      have hcases := Env.writeAll_cases prep.resolved hres files []
      constructor
      · rintro prep' hprep'' hwrites
        cases hprep''
        rcases hcases with ⟨hall, -⟩ | ⟨before, path, text, after, e, hitems, -, hfail, -⟩
        · unfold Env.execute
          simp only [hprep', hall]
          exact ⟨rfl, rfl⟩
        · have hmem : (path, text) ∈ prep.resolved := by
            rw [hitems]
            exact List.mem_append_right _ (List.mem_cons_self ..)
          have hok := (hfault (path, text) hmem).mpr (hwrites _ hmem)
          rw [hok] at hfail
          cases hfail
      · intro written hwritten
        rcases hcases with ⟨-, hok⟩ | ⟨before, path, text, after, e, -, -, -, hall⟩
        · exact ⟨prep, rfl, fun item hitem => (hfault item hitem).mp (hok item hitem)⟩
        · simp only [Env.execute, hprep', hall] at hwritten
          cases hwritten

-- ============================================================================
-- The files under the texts of the dry run
-- ============================================================================

/-- No file has two spellings among the paths. -/
def Env.Distinct (env : Env) (paths : List PyStr) : Prop :=
  ∀ p ∈ paths, ∀ q ∈ paths, env.target p = env.target q → p = q

/-- A file that was written holds the text of its path. -/
theorem Env.writeSeries_get {env : Env} {items : List (PyStr × PyStr)} {path text : PyStr}
    (hd : env.Distinct (items.map Prod.fst)) (hn : (items.map Prod.fst).Nodup)
    (h : Dict.get? items path = some text) (files : FileMap) :
    env.writeSeries items files (env.target path) = some text := by
  have hmem := Dict.mem_of_get? h
  let before : FileMap := fun t => (items.find? fun item => env.target item.1 = t).map Prod.snd
  have hval : ∀ item ∈ items, before (env.target item.1) = some item.2 := by
    intro item hitem
    have hsome : (items.find? fun x => env.target x.1 = env.target item.1).isSome = true := by
      rw [List.find?_isSome]
      exact ⟨item, hitem, by simp⟩
    obtain ⟨x, hx⟩ := Option.isSome_iff_exists.mp hsome
    have hxmem := List.mem_of_find?_eq_some hx
    have hxt : env.target x.1 = env.target item.1 := by simpa using List.find?_some hx
    have hkey : x.1 = item.1 :=
      hd x.1 (List.mem_map_of_mem hxmem) item.1 (List.mem_map_of_mem hitem) hxt
    have hget := Dict.get?_of_mem hn hxmem
    rw [hkey, Dict.get?_of_mem hn hitem] at hget
    show (items.find? fun x => env.target x.1 = env.target item.1).map Prod.snd = _
    rw [hx]
    exact hget.symm
  have hthere := env.writeSeries_of_mem hval ⟨_, hmem, rfl⟩ files
  rw [hthere]
  exact hval (path, text) hmem

theorem Env.Distinct.set {env : Env} {items : List (PyStr × PyStr)} {path : PyStr}
    (hd : env.Distinct (path :: items.map Prod.fst)) (text : PyStr) :
    env.Distinct ((Dict.set items path text).map Prod.fst) := by
  have hsub : ∀ q ∈ (Dict.set items path text).map Prod.fst, q ∈ path :: items.map Prod.fst := by
    intro q hq
    rcases Dict.mem_keys_set hq with rfl | hq
    · exact List.mem_cons_self ..
    · exact List.mem_cons_of_mem _ hq
  exact fun p hp q hq => hd p (hsub p hp) q (hsub q hq)

/-- One more text is one more write. -/
theorem Env.writeSeries_set {env : Env} {items : List (PyStr × PyStr)} {path : PyStr}
    (hd : env.Distinct (path :: items.map Prod.fst)) (hn : (items.map Prod.fst).Nodup)
    (text : PyStr) (files : FileMap) :
    env.writeSeries (Dict.set items path text) files
      = (env.writeSeries items files).write (env.target path) text := by
  have hset := hd.set text
  have hnodup := Dict.nodup_set hn path text
  have hrest : env.Distinct (items.map Prod.fst) := fun p hp q hq =>
    hd p (List.mem_cons_of_mem _ hp) q (List.mem_cons_of_mem _ hq)
  funext t
  by_cases ht : t = env.target path
  · rw [ht, env.writeSeries_get hset hnodup (Dict.get?_set_self ..), FileMap.write, if_pos rfl]
  · rw [FileMap.write, if_neg ht]
    by_cases hin : ∃ q ∈ items.map Prod.fst, env.target q = t
    · -- another file that was written before
      obtain ⟨q, hq, rfl⟩ := hin
      have hne : path ≠ q := fun heq => ht (by rw [heq])
      obtain ⟨u, hu⟩ := Option.isSome_iff_exists.mp ((Dict.mem_keys_iff items q).mp hq)
      have hu' : Dict.get? (Dict.set items path text) q = some u := by
        rw [Dict.get?_set_of_ne _ _ hne]
        exact hu
      rw [env.writeSeries_get hset hnodup hu', env.writeSeries_get hrest hn hu]
    · have hno : ∀ item ∈ items, env.target item.1 ≠ t := fun item hitem htarget =>
        hin ⟨item.1, List.mem_map_of_mem hitem, htarget⟩
      have hno' : ∀ item ∈ Dict.set items path text, env.target item.1 ≠ t := by
        intro item hitem htarget
        rcases Dict.mem_keys_set (List.mem_map_of_mem hitem) with heq | hmem
        · exact ht (by rw [← htarget, heq])
        · exact hin ⟨item.1, hmem, htarget⟩
      rw [env.writeSeries_of_not_mem hno', env.writeSeries_of_not_mem hno]

/-- The workspace `g` is the files with the texts of the dry run written over them. -/
structure Overlay (env : Env) (files : FileMap) (acc : Prepared) (g : FileMap) : Prop where
  written : g = env.writeSeries acc.resolved files
  nodup : (acc.resolved.map Prod.fst).Nodup
  sound : acc.Sound env files
  readable : ∀ path ∈ acc.resolved.map Prod.fst, env.readError path = none

/-- In a workspace that holds the texts of the dry run so far, a section reads the
    text it has in the dry run. -/
theorem Overlay.original {env : Env} {files g : FileMap} {acc : Prepared} {path : PyStr}
    (h : Overlay env files acc g) (hd : env.Distinct (path :: acc.resolved.map Prod.fst)) :
    (env.original files acc path).map Prod.fst = (env.original g {} path).map Prod.fst := by
  unfold Env.original
  cases hr : env.resolve path with
  | error e => rfl
  | ok t =>
      have htarget : env.target path = t := by
        unfold Env.target
        rw [hr]
      have hrest : env.Distinct (acc.resolved.map Prod.fst) := fun p hp q hq =>
        hd p (List.mem_cons_of_mem _ hp) q (List.mem_cons_of_mem _ hq)
      cases hget : Dict.get? acc.resolved path with
      | some text =>
          have hg : g t = some text := by
            rw [h.written, ← htarget]
            exact env.writeSeries_get hrest h.nodup hget files
          have hread : env.readError path = none := h.readable path (Dict.mem_keys_of_get? hget)
          simp only [Dict.get?_nil, Env.readText, hr, hg, hread]
          rfl
      | none =>
          have hno : ∀ item ∈ acc.resolved, env.target item.1 ≠ t := by
            intro item hitem hitemt
            have hkey : path = item.1 := hd path (List.mem_cons_self ..) item.1
              (List.mem_cons_of_mem _ (List.mem_map_of_mem hitem)) (by rw [htarget, hitemt])
            have hsome := Dict.get?_of_mem h.nodup hitem
            rw [← hkey, hget] at hsome
            cases hsome
          have hg : g t = files t := by
            rw [h.written]
            exact env.writeSeries_of_not_mem hno files
          simp only [Dict.get?_nil, Env.readText, hr, hg]
          cases files t with
          | none => rfl
          | some u => cases env.readError path <;> rfl

/-- What a section of the dry run read could be read. -/
theorem Env.readError_of_original {env : Env} {files : FileMap} {acc : Prepared}
    {path text : PyStr} {originals : List (PyStr × PyStr)}
    (hread : ∀ path ∈ acc.resolved.map Prod.fst, env.readError path = none)
    (h : env.original files acc path = .ok (text, originals)) : env.readError path = none := by
  unfold Env.original at h
  split at h
  · cases h
  · split at h
    · rename_i hget
      exact hread path (Dict.mem_keys_of_get? hget)
    · split at h
      · cases h
      · cases h
      · rename_i u hu
        unfold Env.readText at hu
        split at hu
        · cases hu
        · split at hu
          · cases hu
          · cases hu
          · rename_i hnone
            exact hnone

/-- The overlay after one more section. -/
theorem Overlay.step {env : Env} {files g : FileMap} {acc acc' : Prepared} {p : FilePatch}
    (h : Overlay env files acc g) (hd : env.Distinct (p.path :: acc.resolved.map Prod.fst))
    (hp : env.prepareOne files acc p = .ok acc') :
    ∃ text', acc'.resolved = Dict.set acc.resolved p.path text' ∧
      (∃ originals, env.prepareOne g {} p = .ok ⟨originals, [(p.path, text')]⟩) ∧
      Overlay env files acc' (g.write (env.target p.path) text') := by
  obtain ⟨text, originals, text', horig, happly, rfl⟩ := env.prepareOne_ok_iff.mp hp
  have hsame := h.original hd
  rw [horig] at hsame
  have horig' : ∃ originals', env.original g {} p.path = .ok (text, originals') := by
    cases hg : env.original g {} p.path with
    | error e =>
        rw [hg] at hsame
        cases hsame
    | ok r =>
        obtain ⟨text₂, originals'⟩ := r
        rw [hg] at hsame
        obtain rfl : text = text₂ := Except.ok.inj hsame
        exact ⟨originals', rfl⟩
  obtain ⟨originals', horig'⟩ := horig'
  refine ⟨text', rfl, ⟨originals', ?_⟩, ?_⟩
  · exact env.prepareOne_ok_iff.mpr ⟨text, originals', text', horig', happly, rfl⟩
  · refine ⟨?_, Dict.nodup_set h.nodup p.path text', env.prepareOne_sound h.sound hp, ?_⟩
    · rw [env.writeSeries_set hd h.nodup, ← h.written]
    · intro path hpath
      rcases Dict.mem_keys_set hpath with rfl | hpath
      · exact env.readError_of_original h.readable horig
      · exact h.readable path hpath

/-- A section that applies in the workspace of the overlay applies in the dry run. -/
theorem Overlay.prepares {env : Env} {files g : FileMap} {acc prep : Prepared} {p : FilePatch}
    (h : Overlay env files acc g) (hd : env.Distinct (p.path :: acc.resolved.map Prod.fst))
    (hp : env.prepareOne g {} p = .ok prep) : ∃ acc', env.prepareOne files acc p = .ok acc' := by
  obtain ⟨text, originals, text', horig, happly, -⟩ := env.prepareOne_ok_iff.mp hp
  have hsame := h.original hd
  rw [horig] at hsame
  cases hf : env.original files acc p.path with
  | error e =>
      rw [hf] at hsame
      cases hsame
  | ok r =>
      obtain ⟨text₂, originals₂⟩ := r
      rw [hf] at hsame
      obtain rfl : text₂ = text := Except.ok.inj hsame
      exact ⟨_, env.prepareOne_ok_iff.mpr ⟨text₂, originals₂, text', hf, happly, rfl⟩⟩

-- ============================================================================
-- Sections one by one
-- ============================================================================

/-- The dry run of a patch of one section. -/
theorem Env.prepare_section {env : Env} {g : FileMap} {s : PyStr} {p : FilePatch}
    (hs : parsePatch s = .ok [p]) : env.prepare g s = env.prepareOne g {} p := by
  unfold Env.prepare
  simp only [hs]
  rw [List.foldlM_cons]
  cases env.prepareOne g {} p <;> rfl

/-- What later sections do not touch stays in the dry run, and no path leaves it. -/
theorem Env.prepareAll_keeps {env : Env} {files : FileMap} (ps : List FilePatch)
    {acc prep : Prepared} (h : ps.foldlM (env.prepareOne files) acc = .ok prep) (path : PyStr) :
    (path ∈ acc.resolved.map Prod.fst → path ∈ prep.resolved.map Prod.fst) ∧
      ((∀ q ∈ ps, q.path ≠ path) → Dict.get? prep.resolved path = Dict.get? acc.resolved path) := by
  induction ps generalizing acc with
  | nil =>
      cases h
      exact ⟨id, fun _ => rfl⟩
  | cons p ps ih =>
      rw [List.foldlM_cons] at h
      obtain ⟨acc', hp, hrest⟩ := Lib.bind_ok h
      obtain ⟨_, _, text', -, -, rfl⟩ := env.prepareOne_ok_iff.mp hp
      obtain ⟨hkeys, hget⟩ := ih hrest
      constructor
      · intro hin
        apply hkeys
        show path ∈ (Dict.set acc.resolved p.path text').map Prod.fst
        rw [Dict.mem_keys_iff]
        by_cases heq : p.path = path
        · rw [heq, Dict.get?_set_self]
          rfl
        · rw [Dict.get?_set_of_ne _ _ heq, ← Dict.mem_keys_iff]
          exact hin
      · intro hno
        rw [hget fun q hq => hno q (List.mem_cons_of_mem _ hq)]
        exact Dict.get?_set_of_ne _ _ (hno p (List.mem_cons_self ..))

/-- Every text that a later section of the same path replaces can be encoded. -/
def Env.Readied (env : Env) (files : FileMap) : Prepared → List FilePatch → Prop
  | _, [] => True
  | acc, p :: ps => ∀ acc', env.prepareOne files acc p = .ok acc' →
      ((∃ q ∈ ps, q.path = p.path) →
        ∀ text, Dict.get? acc'.resolved p.path = some text → encodable text = true) ∧
      env.Readied files acc' ps

theorem Env.Distinct.head {env : Env} {p : FilePatch} {ps : List FilePatch} {keys : List PyStr}
    (h : env.Distinct ((p :: ps).map FilePatch.path ++ keys)) : env.Distinct (p.path :: keys) := by
  have hsub : ∀ q ∈ p.path :: keys, q ∈ (p :: ps).map FilePatch.path ++ keys := by
    intro q hq
    rcases List.mem_cons.mp hq with rfl | hq
    · exact List.mem_append_left _ (List.mem_cons_self ..)
    · exact List.mem_append_right _ hq
  exact fun x hx y hy => h x (hsub x hx) y (hsub y hy)

theorem Env.Distinct.next {env : Env} {p : FilePatch} {ps : List FilePatch}
    {items : List (PyStr × PyStr)} (h : env.Distinct ((p :: ps).map FilePatch.path ++ items.map Prod.fst))
    (text : PyStr) :
    env.Distinct (ps.map FilePatch.path ++ (Dict.set items p.path text).map Prod.fst) := by
  have hsub : ∀ q ∈ ps.map FilePatch.path ++ (Dict.set items p.path text).map Prod.fst,
      q ∈ (p :: ps).map FilePatch.path ++ items.map Prod.fst := by
    intro q hq
    rcases List.mem_append.mp hq with hq | hq
    · exact List.mem_append_left _ (List.mem_cons_of_mem _ hq)
    · rcases Dict.mem_keys_set hq with rfl | hq
      · exact List.mem_append_left _ (List.mem_cons_self ..)
      · exact List.mem_append_right _ hq
  exact fun x hx y hy => h x (hsub x hx) y (hsub y hy)

/-- A section that succeeds leaves the text it makes. -/
theorem Env.executeEach_cons {env : Env} {g : FileMap} {s : PyStr} {ss : List PyStr} {prep : Prepared}
    (hprep : env.prepare g s = .ok prep) (hwrites : ∀ item ∈ prep.resolved, env.Writes item.1 item.2) :
    env.executeEach g (s :: ss) = env.executeEach (env.writeSeries prep.resolved g) ss := by
  obtain ⟨hresult, hfiles⟩ := env.executeUtf8_spec.1 prep hprep hwrites
  rw [Env.executeEach]
  simp only [hresult, hfiles]

theorem Overlay.each {env : Env} {files : FileMap} {prep : Prepared} (ps : List FilePatch)
    {acc : Prepared} {g : FileMap} {sections : List PyStr} (h : Overlay env files acc g)
    (hd : env.Distinct (ps.map FilePatch.path ++ acc.resolved.map Prod.fst))
    (hready : env.Readied files acc ps)
    (hs : sections.map parsePatch = ps.map fun p => .ok [p])
    (hfold : ps.foldlM (env.prepareOne files) acc = .ok prep)
    (hwrites : ∀ item ∈ prep.resolved, env.Writes item.1 item.2) :
    env.executeEach g sections = some (env.writeSeries prep.resolved files) := by
  induction ps generalizing acc g sections with
  | nil =>
      cases hfold
      rw [List.map_nil, List.map_eq_nil_iff] at hs
      subst hs
      rw [← h.written]
      rfl
  | cons p ps ih =>
      rw [List.foldlM_cons] at hfold
      obtain ⟨acc', hp, hrest⟩ := Lib.bind_ok hfold
      obtain ⟨s, ss, rfl⟩ := List.exists_cons_of_ne_nil fun hnil : sections = [] => by
        rw [hnil] at hs
        cases hs
      obtain ⟨hs, hss⟩ := List.cons.inj hs
      obtain ⟨text', hres, ⟨originals, hp'⟩, hover⟩ := h.step hd.head hp
      have hget : Dict.get? acc'.resolved p.path = some text' := by
        rw [hres, Dict.get?_set_self]
      -- the text of this section can be written, whether or not it is the last of its path
      have hwrite : env.Writes p.path text' := by
        obtain ⟨hkeys, hkeep⟩ := env.prepareAll_keeps ps hrest p.path
        obtain ⟨u, hu⟩ := Option.isSome_iff_exists.mp
          ((Dict.mem_keys_iff _ _).mp (hkeys (Dict.mem_keys_of_get? hget)))
        have hlast := hwrites _ (Dict.mem_of_get? hu)
        refine ⟨hlast.1, ?_⟩
        by_cases hlater : ∃ q ∈ ps, q.path = p.path
        · exact (hready acc' hp).1 hlater text' hget
        · have hsame := hkeep fun q hq heq => hlater ⟨q, hq, heq⟩
          rw [hu, hget] at hsame
          rw [← Option.some.inj hsame]
          exact hlast.2
      have hprep : env.prepare g s = .ok ⟨originals, [(p.path, text')]⟩ := by
        rw [env.prepare_section hs, hp']
      have hone : ∀ item ∈ [(p.path, text')], env.Writes item.1 item.2 := by
        intro item hitem
        rw [List.mem_singleton.mp hitem]
        exact hwrite
      rw [env.executeEach_cons hprep hone]
      have hd' := hd.next text'
      rw [← hres] at hd'
      exact ih hover hd' (hready acc' hp).2 hss hrest

theorem Overlay.whole {env : Env} {files g' : FileMap} (ps : List FilePatch)
    {acc : Prepared} {g : FileMap} {sections : List PyStr} (h : Overlay env files acc g)
    (hd : env.Distinct (ps.map FilePatch.path ++ acc.resolved.map Prod.fst))
    (hs : sections.map parsePatch = ps.map fun p => .ok [p])
    (hacc : ∀ item ∈ acc.resolved, env.Writes item.1 item.2)
    (heach : env.executeEach g sections = some g') :
    ∃ prep, ps.foldlM (env.prepareOne files) acc = .ok prep ∧
      ∀ item ∈ prep.resolved, env.Writes item.1 item.2 := by
  induction ps generalizing acc g sections with
  | nil => exact ⟨acc, rfl, hacc⟩
  | cons p ps ih =>
      obtain ⟨s, ss, rfl⟩ := List.exists_cons_of_ne_nil fun hnil : sections = [] => by
        rw [hnil] at hs
        cases hs
      obtain ⟨hs, hss⟩ := List.cons.inj hs
      have hok : ∃ written, (env.executeUtf8 g s).result = .ok written := by
        rw [Env.executeEach] at heach
        cases hresult : (env.executeUtf8 g s).result with
        | ok written => exact ⟨written, rfl⟩
        | error e =>
            simp only [hresult] at heach
            cases heach
      obtain ⟨written, hwritten⟩ := hok
      obtain ⟨prep, hprep, hone⟩ := env.executeUtf8_spec.2 written hwritten
      rw [env.executeEach_cons hprep hone] at heach
      rw [env.prepare_section hs] at hprep
      obtain ⟨acc', hp⟩ := h.prepares hd.head hprep
      obtain ⟨text', hres, ⟨originals, hp'⟩, hover⟩ := h.step hd.head hp
      rw [hprep] at hp'
      cases hp'
      have hd' := hd.next text'
      rw [← hres] at hd'
      have hacc' : ∀ item ∈ acc'.resolved, env.Writes item.1 item.2 := by
        intro item hitem
        rw [hres] at hitem
        have hnodup := Dict.nodup_set h.nodup p.path text'
        have hget := Dict.get?_of_mem hnodup hitem
        by_cases heq : p.path = item.1
        · rw [← heq, Dict.get?_set_self] at hget
          rw [← heq, ← Option.some.inj hget]
          exact hone (p.path, text') (List.mem_singleton.mpr rfl)
        · rw [Dict.get?_set_of_ne _ _ heq] at hget
          exact hacc item (Dict.mem_of_get? hget)
      obtain ⟨prep', hfold, hall⟩ := ih hover hd' hss hacc' heach
      refine ⟨prep', ?_, hall⟩
      rw [List.foldlM_cons, hp]
      exact hfold

theorem overlay_empty (env : Env) (files : FileMap) : Overlay env files {} files where
  written := rfl
  nodup := List.nodup_nil
  sound := ⟨fun path hpath => (by cases hpath), fun path text htext => (by cases htext)⟩
  readable path hpath := by cases hpath

/-- A patch of at least one section, in which every file has one spelling and a
    text that a later section replaces can be encoded, is the sequence of its
    sections: it leaves the files they leave, and succeeds when they do. -/
theorem execute_eq_sections (env : Env) (files : FileMap) {whole : PyStr} {sections : List PyStr}
    {ps : List FilePatch} (hwhole : parsePatch whole = .ok ps)
    (hsections : sections.map parsePatch = ps.map fun p => .ok [p]) (hne : ps ≠ [])
    (hdistinct : env.Distinct (ps.map FilePatch.path)) (hready : env.Readied files {} ps) :
    (∀ written, (env.executeUtf8 files whole).result = .ok written →
      env.executeEach files sections = some (env.executeUtf8 files whole).files) ∧
    ∀ files', env.executeEach files sections = some files' →
      ∃ written, (env.executeUtf8 files whole).result = .ok written := by
  have hd : env.Distinct (ps.map FilePatch.path ++ ({} : Prepared).resolved.map Prod.fst) := by
    rw [List.map_nil, List.append_nil]
    exact hdistinct
  have hprepare : env.prepare files whole = ps.foldlM (env.prepareOne files) {} := by
    unfold Env.prepare
    cases ps with
    | nil => exact absurd rfl hne
    | cons p ps => simp only [hwhole]
  have hempty := overlay_empty env files
  constructor
  · intro written hwritten
    obtain ⟨prep, hprep, hwrites⟩ := env.executeUtf8_spec.2 written hwritten
    rw [(env.executeUtf8_spec.1 prep hprep hwrites).2]
    exact hempty.each ps hd hready hsections (hprepare ▸ hprep) hwrites
  · intro files' heach
    obtain ⟨prep, hfold, hwrites⟩ := hempty.whole ps hd hsections (fun item hitem => by cases hitem) heach
    exact ⟨_, (env.executeUtf8_spec.1 prep (hprepare ▸ hfold) hwrites).1⟩

/-- A workspace without faults in which `./f` is the file `f`. -/
def plainEnv : Env where
  resolve := fun path => .ok (if startsWith (py "./") path then path.drop 2 else path)
  readError := fun _ => none
  locking := .unlocked
  writes := fun _ => {}
  rollbacks := fun _ => {}

/-- One file of two lines. -/
def fileAH : FileMap := fun t => if t = py "f" then some (py "a\nh\n") else none

/-- Replace the first line. -/
def sectionA : PyStr := py "--- a/f\n+++ b/f\n@@ -1 +1 @@\n-a\n+A\n"

/-- Replace the second line. -/
def sectionH : PyStr := py "--- a/f\n+++ b/f\n@@ -2 +2 @@\n-h\n+H\n"

/-- The same, with another spelling of the path. -/
def sectionDotH : PyStr := py "--- a/./f\n+++ b/./f\n@@ -2 +2 @@\n-h\n+H\n"

/-- What `sectionA` and `sectionH` are read as. -/
def patchesAH : List FilePatch :=
  [⟨py "f", [⟨1, 1, 1, 1, [py "-a\n", py "+A\n"]⟩]⟩,
    ⟨py "f", [⟨2, 1, 2, 1, [py "-h\n", py "+H\n"]⟩]⟩]

theorem execute_eq_two_sections :
    (∀ written, (plainEnv.executeUtf8 fileAH (sectionA ++ sectionH)).result = .ok written →
      plainEnv.executeEach fileAH [sectionA, sectionH]
        = some (plainEnv.executeUtf8 fileAH (sectionA ++ sectionH)).files) ∧
    ∀ files', plainEnv.executeEach fileAH [sectionA, sectionH] = some files' →
      ∃ written, (plainEnv.executeUtf8 fileAH (sectionA ++ sectionH)).result = .ok written := by
  have hdistinct : plainEnv.Distinct (patchesAH.map FilePatch.path) := by
    intro p hp q hq _
    have hkeys : ∀ x ∈ patchesAH.map FilePatch.path, x = py "f" := by decide
    rw [hkeys p hp, hkeys q hq]
  have hready : plainEnv.Readied fileAH {} patchesAH := by
    intro acc' hacc'
    have hfirst : plainEnv.prepareOne fileAH {} ⟨py "f", [⟨1, 1, 1, 1, [py "-a\n", py "+A\n"]⟩]⟩
        = .ok ⟨[(py "f", py "a\nh\n")], [(py "f", py "A\nh\n")]⟩ := by rfl
    rw [hfirst] at hacc'
    cases hacc'
    refine ⟨fun _ text htext => ?_, fun _ _ => ⟨?_, trivial⟩⟩
    · cases htext
      decide
    · rintro ⟨q, hq, -⟩
      cases hq
  have hwhole : parsePatch (sectionA ++ sectionH) = .ok patchesAH := by decide +kernel
  have hsections : [sectionA, sectionH].map parsePatch = patchesAH.map fun p => .ok [p] := by
    decide +kernel
  exact execute_eq_sections plainEnv fileAH hwhole hsections (by decide) hdistinct hready

/-- Under two spellings the second section starts from the original text and its
    write replaces what the first one wrote; one by one both lines change. -/
theorem aliased_section_lost :
    parsePatch (sectionA ++ sectionDotH)
        = ((do return (← parsePatch sectionA) ++ (← parsePatch sectionDotH)) : PatchM _) ∧
      (plainEnv.executeUtf8 fileAH (sectionA ++ sectionDotH)).result = .ok [py "f", py "./f"] ∧
      (plainEnv.executeUtf8 fileAH (sectionA ++ sectionDotH)).files (py "f") = some (py "a\nH\n") ∧
      (plainEnv.executeEach fileAH [sectionA, sectionDotH]).map (fun files => files (py "f"))
        = some (some (py "A\nH\n")) := by
  decide

end Files
end KineticSdk
