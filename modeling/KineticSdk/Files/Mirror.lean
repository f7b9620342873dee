/-
  KineticSdk.Files.Mirror

  A file tool on a workspace, and the same tool on one that stands in for it.

  The tool looks at what a read returns, at the class of the exception it
  raises, and at whether the other operations fail.
-/

import KineticSdk.Files.Undo

namespace KineticSdk
namespace Files

open Py Lib.Steps

variable {σ : Type}

-- ============================================================================
-- Workspaces
-- ============================================================================

/-- The exception that takes the place of another: a missing file is still missing, and a
    directory is no longer told apart. -/
structure Passed (e e' : PyExc) : Prop where
  missing : e'.type = py "FileNotFoundError" ↔ e.type = py "FileNotFoundError"
  directory : e'.type ≠ py "IsADirectoryError"

/-- The second workspace does what the first does, as far as the tool can see at this path;
    a listing that fails may not fail the same way. -/
structure Mirrors (w w' : WorkspaceBase σ) (path : PyStr) (files : σ) : Prop where
  read : ∀ text, w.readText path files = .ok text → w'.readText path files = .ok text
  readError : ∀ e, w.readText path files = .error e →
    ∃ e', w'.readText path files = .error e' ∧ Passed e e'
  write : ∀ text, TextOk true text → ∀ files', w.writeText path text files = (.ok (), files') →
    w'.writeText path text files = (.ok (), files')
  writeError : ∀ text, TextOk true text → ∀ e files', w.writeText path text files = (.error e, files') →
    ∃ e', w'.writeText path text files = (.error e', files')
  delete : ∀ files', w.deleteFile path files = (.ok (), files') → w'.deleteFile path files = (.ok (), files')
  deleteError : ∀ e files', w.deleteFile path files = (.error e, files') →
    ∃ e', w'.deleteFile path files = (.error e', files')
  listError : ∀ e, w.listDirectory path files = .error e → ∃ e', w'.listDirectory path files = .error e'

theorem Passed.isMissing {e e' : PyExc} (h : Passed e e') :
    PyExc.isA e' ["FileNotFoundError"] = PyExc.isA e ["FileNotFoundError"] := by
  have hiff := h.missing
  unfold PyExc.isA
  simp only [List.any_cons, List.any_nil, Bool.or_false]
  by_cases he : e.type = py "FileNotFoundError"
  · rw [hiff.mpr he, he]
  · rw [beq_eq_false_iff_ne.mpr he, beq_eq_false_iff_ne.mpr fun he' => he (hiff.mp he')]

-- ============================================================================
-- The same answers
-- ============================================================================

/-- The second answer stands for the first: success is told from failure, and a success is
    the same one. -/
structure Answers (o o' : Outcome) : Prop where
  success : o'.isSuccess = o.isSuccess
  output : o.isSuccess = true → o' = o

/-- The second result stands for the first, and the state is the same. -/
structure Agrees (r r' : Outcome × ToolState σ) : Prop where
  answer : Answers r.1 r'.1
  state : r'.2 = r.2

theorem Answers.refl (o : Outcome) : Answers o o := ⟨rfl, fun _ => rfl⟩

theorem Answers.fail {o o' : Outcome} (h : o.isSuccess = false) (h' : o'.isSuccess = false) : Answers o o' :=
  ⟨h'.trans h.symm, fun hsuccess => absurd (h.symm.trans hsuccess) Bool.false_ne_true⟩

theorem Agrees.refl (r : Outcome × ToolState σ) : Agrees r r := ⟨.refl r.1, rfl⟩

-- ============================================================================
-- One call
-- ============================================================================

variable (similar : PyStr → PyStr → Bool) (t : FileTool σ)

/-- A tool without a snapshot store. -/
abbrev FileTool.on (w : WorkspaceBase σ) (maxViewLines : Nat) : FileTool σ := ⟨w, maxViewLines, none⟩

/-- What the edit would write. -/
def FileTool.changed (call : ToolCall) (change : PyStr → Except PyStr Edit) (files : σ) : Option PyStr :=
  match t.workspace.readText call.path files with
  | .error _ => none
  | .ok content => (change content).toOption.map Edit.content

/-- The text that a call other than an undo comes to write. -/
def FileTool.written (call : ToolCall) (files : σ) : Option PyStr :=
  match call.action with
  | .create fileText => fileText
  | .strReplace (some oldStr) (some newStr) all =>
      t.changed call (fun content => strReplace similar call.path content oldStr newStr all) files
  | .insert (some line) (some newStr) =>
      t.changed call (fun content => Files.insert call.path content line newStr) files
  | _ => none

/-- The contents that `_undo` holds. -/
def SlotsMeet (P : PyStr → Prop) (undo : List (PyStr × Option PyStr)) : Prop :=
  ∀ path previous, Dict.get? undo path = some (some previous) → P previous

variable {similar : PyStr → PyStr → Bool} {t : FileTool σ} {w' : WorkspaceBase σ} {path : PyStr}
  {s : ToolState σ}

theorem create_agrees (h : Mirrors t.workspace w' path s.files) {fileText : Option PyStr}
    (htext : ∀ text, fileText = some text → TextOk true text) :
    Agrees (t.create path fileText s) (({ t with workspace := w' } : FileTool σ).create path fileText s) := by
  unfold FileTool.create
  cases fileText with
  | none => exact .refl _
  | some text =>
      dsimp only
      cases hread : t.workspace.readText path s.files with
      | ok content =>
          rw [h.read content hread]
          exact .refl _
      | error e =>
          obtain ⟨e', hread', hpassed⟩ := h.readError e hread
          rw [hread']
          dsimp only
          rw [hpassed.isMissing]
          split_ifs
          · cases hwrite : t.workspace.writeText path text s.files with
            | mk result files =>
                cases result with
                | ok =>
                    rw [h.write text (htext text rfl) files hwrite]
                    exact .refl _
                | error e =>
                    obtain ⟨e', hwrite'⟩ := h.writeError text (htext text rfl) e files hwrite
                    rw [hwrite']
                    exact ⟨.fail rfl rfl, rfl⟩
          · exact ⟨.fail rfl rfl, rfl⟩

theorem edit_agrees (h : Mirrors t.workspace w' path s.files) (hsnapshot : t.snapshot = none)
    {change : PyStr → Except PyStr Edit}
    (htext : ∀ content edit, t.workspace.readText path s.files = .ok content → change content = .ok edit →
      TextOk true edit.content) :
    Agrees (t.edit path change s) (({ t with workspace := w' } : FileTool σ).edit path change s) := by
  unfold FileTool.edit FileTool.snapshotAndWrite
  dsimp only
  rw [hsnapshot]
  cases hread : t.workspace.readText path s.files with
  | error e =>
      obtain ⟨e', hread', hpassed⟩ := h.readError e hread
      rw [hread']
      dsimp only
      rw [hpassed.isMissing]
      split_ifs
      · exact .refl _
      · exact ⟨.fail rfl rfl, rfl⟩
  | ok content =>
      rw [h.read content hread]
      dsimp only
      cases hchange : change content with
      | error message => exact .refl _
      | ok edit =>
          have hcross := htext content edit hread hchange
          dsimp only
          cases hwrite : t.workspace.writeText path edit.content s.files with
          | mk result files =>
              cases result with
              | ok =>
                  rw [h.write edit.content hcross files hwrite]
                  exact .refl _
              | error e =>
                  obtain ⟨e', hwrite'⟩ := h.writeError edit.content hcross e files hwrite
                  rw [hwrite']
                  exact ⟨.fail rfl rfl, rfl⟩

theorem undoEdit_agrees (h : Mirrors t.workspace w' path s.files) (hslots : SlotsMeet (TextOk true) s.undo) :
    Agrees (t.undoEdit path s) (({ t with workspace := w' } : FileTool σ).undoEdit path s) := by
  unfold FileTool.undoEdit
  cases hslot : Dict.get? s.undo path with
  | none => exact .refl _
  | some entry =>
      cases entry with
      | none =>
          dsimp only
          cases hdelete : t.workspace.deleteFile path s.files with
          | mk result files =>
              cases result with
              | ok =>
                  rw [h.delete files hdelete]
                  exact .refl _
              | error e =>
                  obtain ⟨e', hdelete'⟩ := h.deleteError e files hdelete
                  rw [hdelete']
                  exact ⟨.fail rfl rfl, rfl⟩
      | some previous =>
          have hcross := hslots path previous hslot
          -- the write is the same, whatever the current content is
          have hwrites : (∃ files, t.workspace.writeText path previous s.files = (.ok (), files) ∧
                w'.writeText path previous s.files = (.ok (), files)) ∨
              ∃ e e' files, t.workspace.writeText path previous s.files = (.error e, files) ∧
                w'.writeText path previous s.files = (.error e', files) := by
            cases hwrite : t.workspace.writeText path previous s.files with
            | mk result files =>
                cases result with
                | ok => exact .inl ⟨files, rfl, h.write previous hcross files hwrite⟩
                | error e =>
                    obtain ⟨e', hwrite'⟩ := h.writeError previous hcross e files hwrite
                    exact .inr ⟨e, e', files, rfl, hwrite'⟩
          dsimp only
          cases hread : t.workspace.readText path s.files with
          | ok current =>
              rw [h.read current hread]
              rcases hwrites with ⟨files, hwrite, hwrite'⟩ | ⟨e, e', files, hwrite, hwrite'⟩
              · rw [hwrite, hwrite']
                exact .refl _
              · rw [hwrite, hwrite']
                exact ⟨.fail rfl rfl, rfl⟩
          | error e =>
              obtain ⟨e', hread', hpassed⟩ := h.readError e hread
              rw [hread']
              dsimp only
              rw [hpassed.isMissing]
              split_ifs
              · rcases hwrites with ⟨files, hwrite, hwrite'⟩ | ⟨e, e', files, hwrite, hwrite'⟩
                · rw [hwrite, hwrite']
                  exact .refl _
                · rw [hwrite, hwrite']
                  exact ⟨.fail rfl rfl, rfl⟩
              · exact ⟨.fail rfl rfl, rfl⟩

theorem view_answers (h : Mirrors t.workspace w' path s.files)
    (hlist : ∀ entries, t.workspace.listDirectory path s.files ≠ .ok entries) (viewRange : Option (List Int)) :
    Answers (t.view path viewRange s.files)
      (({ t with workspace := w' } : FileTool σ).view path viewRange s.files) := by
  have hfails : ∀ tool : FileTool σ, (∃ e, tool.workspace.listDirectory path s.files = .error e) →
      (tool.viewDirectory path s.files).isSuccess = false := by
    rintro tool ⟨e, he⟩
    unfold FileTool.viewDirectory
    rw [he]
    dsimp only
    split_ifs <;> rfl
  unfold FileTool.view
  dsimp only
  cases hread : t.workspace.readText path s.files with
  | ok content =>
      rw [h.read content hread]
      exact .refl _
  | error e =>
      obtain ⟨e', hread', -⟩ := h.readError e hread
      rw [hread']
      cases hentries : t.workspace.listDirectory path s.files with
      | ok entries => exact absurd hentries (hlist entries)
      | error cause =>
          have hlocal := hfails t ⟨cause, hentries⟩
          have hmirror := hfails { t with workspace := w' } (h.listError cause hentries)
          refine .fail ?_ ?_
          · dsimp only
            split_ifs
            · exact hlocal
            · rfl
          · dsimp only
            split_ifs
            · exact hmirror
            · rfl

/-- A directory cannot be viewed on the second workspace: its read fails as if it were neither
    a file nor a directory. -/
theorem view_directory_fails (h : Mirrors t.workspace w' path s.files) {e : PyExc}
    (hread : t.workspace.readText path s.files = .error e) (hdirectory : e.type = py "IsADirectoryError")
    (viewRange : Option (List Int)) :
    (({ t with workspace := w' } : FileTool σ).view path viewRange s.files).isSuccess = false := by
  obtain ⟨e', hread', hpassed⟩ := h.readError e hread
  have hmissing : e'.type ≠ py "FileNotFoundError" := by
    rw [Ne, hpassed.missing, hdirectory]
    decide
  have hnot : PyExc.isA e' ["FileNotFoundError", "IsADirectoryError"] = false := by
    unfold PyExc.isA
    rw [List.any_cons, List.any_cons, List.any_nil, beq_eq_false_iff_ne.mpr hmissing,
      beq_eq_false_iff_ne.mpr hpassed.directory]
    rfl
  unfold FileTool.view
  dsimp only
  rw [hread']
  dsimp only
  rw [hnot]
  rfl

/-- A call on the second workspace answers as it does on the first, and leaves the same files,
    unless it is the view of a directory that can be listed. -/
theorem execute_agrees {call : ToolCall} (h : Mirrors t.workspace w' call.path s.files)
    (hsnapshot : t.snapshot = none) (hslots : SlotsMeet (TextOk true) s.undo)
    (hwritten : ∀ text, t.written similar call s.files = some text → TextOk true text)
    (hview : ∀ viewRange, call.action = .view viewRange → ∀ entries,
      t.workspace.listDirectory call.path s.files ≠ .ok entries) :
    Agrees (t.execute similar call s) (({ t with workspace := w' } : FileTool σ).execute similar call s) := by
  have hchanged : ∀ change, t.changed call change s.files = t.written similar call s.files →
      ∀ content edit, t.workspace.readText call.path s.files = .ok content → change content = .ok edit →
        TextOk true edit.content := by
    intro change heq content edit hread hchange
    refine hwritten _ ?_
    rw [← heq]
    unfold FileTool.changed
    rw [hread]
    dsimp only
    rw [hchange]
    rfl
  have hhandle : Agrees (t.handle similar call s)
      (({ t with workspace := w' } : FileTool σ).handle similar call s) := by
    unfold FileTool.written at hwritten hchanged
    unfold FileTool.handle
    split
    · rename_i viewRange hcall
      exact ⟨view_answers h (hview viewRange hcall) viewRange, rfl⟩
    · rename_i fileText hcall
      rw [hcall] at hwritten
      exact create_agrees h hwritten
    · rename_i oldStr newStr all hcall
      rw [hcall] at hchanged
      exact edit_agrees h hsnapshot (hchanged _ rfl)
    · exact .refl _
    · rename_i line newStr hcall
      rw [hcall] at hchanged
      exact edit_agrees h hsnapshot (hchanged _ rfl)
    · exact .refl _
    · exact undoEdit_agrees h hslots
  unfold FileTool.execute
  by_cases hinternal : isInternalSnapshotPath call.path = true
  · rw [if_pos hinternal, if_pos hinternal]
    exact .refl _
  · rw [if_neg hinternal, if_neg hinternal]
    generalize t.handle similar call s = r at hhandle ⊢
    generalize FileTool.handle similar { t with workspace := w' } call s = r' at hhandle ⊢
    obtain ⟨outcome, after⟩ := r
    obtain ⟨outcome', after'⟩ := r'
    obtain ⟨⟨hsuccess, houtput⟩, hstate⟩ := hhandle
    cases outcome with
    | success output =>
        cases houtput rfl
        exact ⟨.refl _, hstate⟩
    | error message =>
        cases outcome' with
        | success output => cases hsuccess
        | error message' => exact ⟨.fail rfl rfl, hstate⟩
        | raised e' => exact ⟨.fail rfl (report_fails e'), hstate⟩
    | raised e =>
        cases outcome' with
        | success output => cases hsuccess
        | error message' => exact ⟨.fail (report_fails e) rfl, hstate⟩
        | raised e' => exact ⟨.fail (report_fails e) (report_fails e'), hstate⟩

-- ============================================================================
-- What a call keeps
-- ============================================================================

theorem SlotsMeet.set {P : PyStr → Prop} {undo : List (PyStr × Option PyStr)} (h : SlotsMeet P undo)
    (path : PyStr) {entry : Option PyStr} (hentry : ∀ previous, entry = some previous → P previous) :
    SlotsMeet P (Dict.set undo path entry) := by
  intro other previous hslot
  by_cases hpath : path = other
  · rw [hpath, Dict.get?_set_self] at hslot
    exact hentry previous (Option.some.inj hslot)
  · rw [Dict.get?_set_of_ne _ _ hpath] at hslot
    exact h other previous hslot

theorem SlotsMeet.pop {P : PyStr → Prop} {undo : List (PyStr × Option PyStr)} (h : SlotsMeet P undo)
    (path : PyStr) : SlotsMeet P (Dict.pop undo path) := by
  intro other previous hslot
  rw [Dict.get?_pop] at hslot
  split_ifs at hslot
  exact h other previous hslot

/-- What the operations of the workspace keep of the files, and what holds of the texts it reads. -/
structure Keeping (w : WorkspaceBase σ) (I : σ → Prop) (P : PyStr → Prop) : Prop where
  write : ∀ path text files, I files → I (w.writeText path text files).2
  delete : ∀ path files, I files → I (w.deleteFile path files).2
  read : ∀ path files text, w.readText path files = .ok text → P text
  empty : P []

/-- The files and the remembered contents are as they should be. -/
structure Sound (I : σ → Prop) (P : PyStr → Prop) (s : ToolState σ) : Prop where
  files : I s.files
  slots : SlotsMeet P s.undo

variable {I : σ → Prop} {P : PyStr → Prop}

theorem create_sound (hw : Keeping t.workspace I P) (h : Sound I P s) (fileText : Option PyStr) :
    Sound I P (t.create path fileText s).2 := by
  unfold FileTool.create
  cases fileText with
  | none => exact h
  | some text =>
      have hfiles := hw.write path text s.files h.files
      dsimp only
      split
      · exact h
      · split_ifs
        · split
          · rename_i hwrite
            rw [hwrite] at hfiles
            exact ⟨hfiles, h.slots⟩
          · rename_i hwrite
            rw [hwrite] at hfiles
            exact ⟨hfiles, h.slots.set path fun _ hnone => nomatch hnone⟩
        · exact h

theorem edit_sound (hw : Keeping t.workspace I P) (hsnapshot : t.snapshot = none) (h : Sound I P s)
    (change : PyStr → Except PyStr Edit) : Sound I P (t.edit path change s).2 := by
  unfold FileTool.edit FileTool.snapshotAndWrite
  rw [hsnapshot]
  dsimp only
  split
  · split_ifs <;> exact h
  · rename_i content hread
    split
    · exact h
    · rename_i edit hchange
      have hfiles := hw.write path edit.content s.files h.files
      split
      · rename_i hwrite
        rw [hwrite] at hfiles
        exact ⟨hfiles, h.slots⟩
      · rename_i hwrite
        rw [hwrite] at hfiles
        refine ⟨hfiles, h.slots.set path fun previous heq => ?_⟩
        cases heq
        exact hw.read path s.files content hread

theorem undoEdit_sound (hw : Keeping t.workspace I P) (h : Sound I P s) : Sound I P (t.undoEdit path s).2 := by
  unfold FileTool.undoEdit
  split
  · exact h
  · have hfiles := hw.delete path s.files h.files
    split
    · rename_i hdelete
      rw [hdelete] at hfiles
      exact ⟨hfiles, h.slots⟩
    · rename_i hdelete
      rw [hdelete] at hfiles
      exact ⟨hfiles, h.slots.pop path⟩
  · rename_i previous hslot
    dsimp only
    split
    · exact h
    · rename_i current hcurrent
      have hfiles := hw.write path previous s.files h.files
      split
      · rename_i hwrite
        rw [hwrite] at hfiles
        exact ⟨hfiles, h.slots⟩
      · rename_i hwrite
        rw [hwrite] at hfiles
        refine ⟨hfiles, h.slots.set path fun text heq => ?_⟩
        cases heq
        -- a file that is gone leaves the empty text
        split at hcurrent
        · rename_i text hread
          cases hcurrent
          exact hw.read path s.files _ hread
        · split_ifs at hcurrent
          cases hcurrent
          exact hw.empty

theorem execute_sound (hw : Keeping t.workspace I P) (hsnapshot : t.snapshot = none) (h : Sound I P s)
    (call : ToolCall) : Sound I P (t.execute similar call s).2 := by
  have hhandle : Sound I P (t.handle similar call s).2 := by
    unfold FileTool.handle
    split
    · exact h
    · exact create_sound hw h _
    · exact edit_sound hw hsnapshot h _
    · exact h
    · exact edit_sound hw hsnapshot h _
    · exact h
    · exact undoEdit_sound hw h
  unfold FileTool.execute
  split_ifs
  · exact h
  · generalize t.handle similar call s = r at hhandle ⊢
    obtain ⟨outcome, after⟩ := r
    cases outcome <;> exact hhandle

-- ============================================================================
-- Runs
-- ============================================================================

variable (similar t) in
/-- The state after a call. -/
def FileTool.after (s : ToolState σ) (call : ToolCall) : ToolState σ := (t.execute similar call s).2

variable (similar t) in
/-- The answers of a run. -/
def FileTool.answers : ToolState σ → List ToolCall → List Outcome
  | _, [] => []
  | s, call :: calls => (t.execute similar call s).1 :: FileTool.answers (t.after similar s call) calls

/-- Calls that agree one by one agree as a run. -/
theorem runs_agree {t' : FileTool σ} {C : ToolState σ → ToolCall → Prop} {Inv : ToolState σ → Prop}
    (hkeep : ∀ s call, Inv s → Inv (t.after similar s call))
    (hstep : ∀ s call, Inv s → C s call → Agrees (t.execute similar call s) (t'.execute similar call s))
    {calls : List ToolCall} (h : Meets (t.after similar) C s calls) (hs : Inv s) :
    List.Forall₂ Answers (t.answers similar s calls) (t'.answers similar s calls) ∧
      run (t'.after similar) s calls = run (t.after similar) s calls := by
  induction calls generalizing s with
  | nil => exact ⟨.nil, rfl⟩
  | cons call calls ih =>
      obtain ⟨hcall, hcalls⟩ := h
      obtain ⟨hanswer, hstate⟩ := hstep s call hs hcall
      have hnext : t'.after similar s call = t.after similar s call := hstate
      obtain ⟨hanswers, hrun⟩ := ih hcalls (hkeep s call hs)
      refine ⟨.cons hanswer ?_, ?_⟩
      · rw [hnext]
        exact hanswers
      · rw [run_cons, run_cons, hnext]
        exact hrun

end Files
end KineticSdk
