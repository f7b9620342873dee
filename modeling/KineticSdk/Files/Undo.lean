/-
  KineticSdk.Files.Undo

  What `undo_edit` (`files/tool.py`) brings back, over runs of calls.

  The tool remembers one content for each path, under the name the call had for
  the file.  A file with several names has several slots, of which only that of
  its last edit is current.
-/

import KineticSdk.Files.Tool
import KineticSdk.Lib.Steps
import KineticSdk.Lib.Trace

namespace KineticSdk
namespace Files

open Py Lib.Steps

variable {σ F : Type} [DecidableEq F]

-- ============================================================================
-- Files under several names
-- ============================================================================

/-- The tool works on files with a content: paths name files, reading and writing are about
    the file of the path only, and a snapshot changes none of them. -/
structure WorksOn (t : FileTool σ) (fileOf : PyStr → Option F) (content : σ → F → Option PyStr) : Prop where
  read : ∀ path files text, t.workspace.readText path files = .ok text →
    ∃ f, fileOf path = some f ∧ content files f = some text
  missing : ∀ path files e, t.workspace.readText path files = .error e → PyExc.isA e ["FileNotFoundError"] = true →
    ∀ f, fileOf path = some f → content files f = none
  write : ∀ path text files files', t.workspace.writeText path text files = (.ok (), files') →
    ∃ f, fileOf path = some f ∧ content files' = Function.update (content files) f (some text)
  delete : ∀ path files files', t.workspace.deleteFile path files = (.ok (), files') →
    ∃ f, fileOf path = some f ∧ content files' = Function.update (content files) f none
  snapshot : ∀ snapshot, t.snapshot = some snapshot → ∀ path text files,
    content (snapshot path text files).2 = content files

-- ============================================================================
-- Runs
-- ============================================================================

/-- A call that was made, with the workspace before and after it. -/
structure Made (σ : Type) where
  call : ToolCall
  success : Bool
  before : σ
  after : σ

/-- A tool at work, and what it has done. -/
structure Session (σ : Type) where
  tool : ToolState σ
  log : List (Made σ)

/-- The tool answers without an error. -/
def Outcome.isSuccess : Outcome → Bool
  | .success _ => true
  | _ => false

variable (similar : PyStr → PyStr → Bool) (t : FileTool σ)

/-- One call. -/
def Session.step (s : Session σ) (call : ToolCall) : Session σ :=
  let (outcome, tool) := t.execute similar call s.tool
  ⟨tool, s.log ++ [⟨call, outcome.isSuccess, s.tool.files, tool.files⟩]⟩

/-- A tool that has done nothing yet. -/
def Session.start (files : σ) : Session σ := ⟨⟨files, []⟩, []⟩

variable (fileOf : PyStr → Option F) (content : σ → F → Option PyStr)

/-- A successful edit of the file, an undo included. -/
def Made.edits (f : F) (m : Made σ) : Bool :=
  m.success && (match m.call.action with | .view _ => false | _ => true) && fileOf m.call.path = some f

/-- The most recent successful edit of the file. -/
def lastEdit (log : List (Made σ)) (f : F) : Option (Made σ) := (log.filter (Made.edits fileOf f)).getLast?

/-- A successful undo brings back what the file was before its most recent successful edit,
    and touches no other file. -/
def RestoresLastEdit (log : List (Made σ)) (m : Made σ) : Prop :=
  m.success = true → m.call.action = .undoEdit → ∃ f last, fileOf m.call.path = some f ∧
    lastEdit fileOf log f = some last ∧
    content m.after = Function.update (content m.before) f (content last.before f)

/-- Undoing twice in a row leaves everything as it was. -/
def UndoesUndo (log : List (Made σ)) : Prop :=
  ∀ pre first second post, log = pre ++ first :: second :: post →
    first.success = true → second.success = true → first.call.action = .undoEdit →
    second.call.action = .undoEdit → fileOf first.call.path = fileOf second.call.path →
    content second.after = content first.before

/-- An `undo_edit` names the file as its most recent successful edit did. -/
def NamesLastEdit (s : Session σ) (call : ToolCall) : Prop :=
  call.action = .undoEdit → ∀ f, fileOf call.path = some f → ∀ last, lastEdit fileOf s.log f = some last →
    last.call.path = call.path

/-- Writes succeed: a call that fails has not changed any file. -/
def FailsClean (s : Session σ) (call : ToolCall) : Prop :=
  (t.execute similar call s.tool).1.isSuccess = false →
    content (t.execute similar call s.tool).2.files = content s.tool.files

-- ============================================================================
-- What one call does
-- ============================================================================

/-- What a successful call does to the files and to the slots. -/
inductive Does (fileOf : PyStr → Option F) (content : σ → F → Option PyStr) (call : ToolCall)
    (s s' : ToolState σ) : Prop
  /-- nothing -/
  | look (hcall : ∃ viewRange, call.action = .view viewRange) (hsame : s' = s)
  /-- it writes a file and remembers what it was -/
  | edit (f : F) (text : PyStr) (hcall : call.action ≠ .undoEdit)
      (hview : ∀ viewRange, call.action ≠ .view viewRange) (hfile : fileOf call.path = some f)
      (hcontent : content s'.files = Function.update (content s.files) f (some text))
      (hundo : s'.undo = Dict.set s.undo call.path (content s.files f))
  /-- it writes what was remembered, and remembers what it overwrites -/
  | revert (f : F) (previous current : PyStr) (hcall : call.action = .undoEdit)
      (hfile : fileOf call.path = some f) (hslot : Dict.get? s.undo call.path = some (some previous))
      (hcurrent : content s.files f = some current ∨ content s.files f = none)
      (hcontent : content s'.files = Function.update (content s.files) f (some previous))
      (hundo : s'.undo = Dict.set s.undo call.path (some current))
  /-- it deletes a file it created -/
  | remove (f : F) (hcall : call.action = .undoEdit) (hfile : fileOf call.path = some f)
      (hslot : Dict.get? s.undo call.path = some none)
      (hcontent : content s'.files = Function.update (content s.files) f none)
      (hundo : s'.undo = Dict.pop s.undo call.path)

variable {similar : PyStr → PyStr → Bool} {t : FileTool σ} {fileOf : PyStr → Option F}
  {content : σ → F → Option PyStr}

theorem create_does (hw : WorksOn t fileOf content) {call : ToolCall} {fileText : Option PyStr}
    (hcall : call.action = .create fileText) {s : ToolState σ} {output : PyStr} {s' : ToolState σ}
    (h : t.create call.path fileText s = (.success output, s')) : Does fileOf content call s s' := by
  unfold FileTool.create at h
  cases fileText with
  | none => cases (Prod.mk.inj h).1
  | some text =>
      dsimp only at h
      split at h
      · cases (Prod.mk.inj h).1
      · rename_i e hread
        split_ifs at h with hmissing
        · split at h
          · cases (Prod.mk.inj h).1
          · rename_i files hwrite
            obtain ⟨f, hfile, hcontent⟩ := hw.write _ _ _ _ hwrite
            have hnone := hw.missing _ _ _ hread hmissing f hfile
            cases (Prod.mk.inj h).2
            exact .edit f text (by rw [hcall]; exact fun h => nomatch h) (by rw [hcall]; exact fun _ h => nomatch h)
              hfile hcontent (by rw [hnone])
        · cases (Prod.mk.inj h).1

theorem snapshotAndWrite_ok (hw : WorksOn t fileOf content) {path previous updated : PyStr} {files files' : σ}
    (h : t.snapshotAndWrite path previous updated files = (.ok (), files')) :
    ∃ f, fileOf path = some f ∧ content files' = Function.update (content files) f (some updated) := by
  unfold FileTool.snapshotAndWrite at h
  split at h
  · exact hw.write _ _ _ _ h
  · rename_i snapshot hsnapshot
    have hsame := hw.snapshot snapshot hsnapshot path previous files
    split at h
    · cases (Prod.mk.inj h).1
    · rename_i files₁ hfiles
      rw [hfiles] at hsame
      obtain ⟨f, hfile, hcontent⟩ := hw.write _ _ _ _ h
      exact ⟨f, hfile, by rw [hcontent, hsame]⟩

theorem edit_does (hw : WorksOn t fileOf content) {call : ToolCall} {change : PyStr → Except PyStr Edit}
    (hcall : call.action ≠ .undoEdit) (hview : ∀ viewRange, call.action ≠ .view viewRange)
    {s : ToolState σ} {output : PyStr} {s' : ToolState σ}
    (h : t.edit call.path change s = (.success output, s')) : Does fileOf content call s s' := by
  unfold FileTool.edit at h
  split at h
  · split_ifs at h <;> cases (Prod.mk.inj h).1
  · rename_i text hread
    split at h
    · cases (Prod.mk.inj h).1
    · rename_i edit hchange
      split at h
      · cases (Prod.mk.inj h).1
      · rename_i files hwrite
        obtain ⟨f, hfile, htext⟩ := hw.read _ _ _ hread
        obtain ⟨f', hfile', hcontent⟩ := snapshotAndWrite_ok hw hwrite
        rw [hfile] at hfile'
        cases hfile'
        cases (Prod.mk.inj h).2
        exact .edit f edit.content hcall hview hfile hcontent (by rw [htext])

theorem undoEdit_does (hw : WorksOn t fileOf content) {call : ToolCall} (hcall : call.action = .undoEdit)
    {s : ToolState σ} {output : PyStr} {s' : ToolState σ}
    (h : t.undoEdit call.path s = (.success output, s')) : Does fileOf content call s s' := by
  unfold FileTool.undoEdit at h
  split at h
  · cases (Prod.mk.inj h).1
  · rename_i hslot
    split at h
    · cases (Prod.mk.inj h).1
    · rename_i files hdelete
      obtain ⟨f, hfile, hcontent⟩ := hw.delete _ _ _ hdelete
      cases (Prod.mk.inj h).2
      exact .remove f hcall hfile hslot hcontent rfl
  · rename_i previous hslot
    dsimp only at h
    split at h
    · cases (Prod.mk.inj h).1
    · rename_i current hcurrent
      split at h
      · cases (Prod.mk.inj h).1
      · rename_i files hwrite
        obtain ⟨f, hfile, hcontent⟩ := hw.write _ _ _ _ hwrite
        cases (Prod.mk.inj h).2
        refine .revert f previous current hcall hfile hslot ?_ hcontent rfl
        split at hcurrent
        · rename_i text hread
          cases hcurrent
          obtain ⟨f', hfile', htext⟩ := hw.read _ _ _ hread
          rw [hfile] at hfile'
          cases hfile'
          exact .inl htext
        · rename_i e hread
          split_ifs at hcurrent with hmissing
          exact .inr (hw.missing _ _ _ hread hmissing f hfile)

theorem handle_does (hw : WorksOn t fileOf content) {call : ToolCall} {s : ToolState σ} {output : PyStr}
    {s' : ToolState σ} (h : t.handle similar call s = (.success output, s')) :
    Does fileOf content call s s' := by
  unfold FileTool.handle at h
  split at h
  · rename_i viewRange hcall
    exact .look ⟨viewRange, hcall⟩ (Prod.mk.inj h).2.symm
  · rename_i fileText hcall
    exact create_does hw hcall h
  · rename_i hcall
    exact edit_does hw (by rw [hcall]; exact fun h => nomatch h) (by rw [hcall]; exact fun _ h => nomatch h) h
  · cases (Prod.mk.inj h).1
  · rename_i hcall
    exact edit_does hw (by rw [hcall]; exact fun h => nomatch h) (by rw [hcall]; exact fun _ h => nomatch h) h
  · cases (Prod.mk.inj h).1
  · rename_i hcall
    exact undoEdit_does hw hcall h

theorem report_fails (e : PyExc) : (report .fileTool e).isSuccess = false := by
  unfold report
  dsimp only
  split_ifs <;> rfl

theorem execute_does (hw : WorksOn t fileOf content) {call : ToolCall} {s : ToolState σ}
    (h : (t.execute similar call s).1.isSuccess = true) :
    Does fileOf content call s (t.execute similar call s).2 := by
  unfold FileTool.execute at h ⊢
  by_cases hinternal : isInternalSnapshotPath call.path = true
  · rw [if_pos hinternal] at h
    cases h
  · rw [if_neg hinternal] at h ⊢
    cases hhandle : t.handle similar call s with
    | mk outcome s' =>
        rw [hhandle] at h
        cases outcome with
        | success output => exact handle_does hw hhandle
        | error message => cases h
        | raised e =>
            dsimp only at h
            rw [report_fails] at h
            cases h

theorem create_fails {path : PyStr} {fileText : Option PyStr} {s : ToolState σ}
    (h : (t.create path fileText s).1.isSuccess = false) : (t.create path fileText s).2.undo = s.undo := by
  unfold FileTool.create at h ⊢
  cases fileText with
  | none => rfl
  | some text =>
      dsimp only at h ⊢
      split
      · rfl
      · rename_i e hread
        rw [hread] at h
        dsimp only at h
        split_ifs at h ⊢
        · split
          · rfl
          · rename_i files hwrite
            rw [hwrite] at h
            cases h
        · rfl

theorem edit_fails {path : PyStr} {change : PyStr → Except PyStr Edit} {s : ToolState σ}
    (h : (t.edit path change s).1.isSuccess = false) : (t.edit path change s).2.undo = s.undo := by
  unfold FileTool.edit at h ⊢
  split
  · split_ifs <;> rfl
  · rename_i text hread
    rw [hread] at h
    dsimp only at h
    split
    · rfl
    · rename_i edit hchange
      rw [hchange] at h
      dsimp only at h
      split
      · rfl
      · rename_i files hwrite
        rw [hwrite] at h
        cases h

theorem undoEdit_fails {path : PyStr} {s : ToolState σ} (h : (t.undoEdit path s).1.isSuccess = false) :
    (t.undoEdit path s).2.undo = s.undo := by
  unfold FileTool.undoEdit at h ⊢
  split
  · rfl
  · rename_i hslot
    rw [hslot] at h
    dsimp only at h
    split
    · rfl
    · rename_i files hdelete
      rw [hdelete] at h
      cases h
  · rename_i previous hslot
    rw [hslot] at h
    dsimp only at h ⊢
    split
    · rfl
    · rename_i current hcurrent
      rw [hcurrent] at h
      dsimp only at h
      split
      · rfl
      · rename_i files hwrite
        rw [hwrite] at h
        cases h

/-- A call that fails remembers nothing. -/
theorem execute_fails {call : ToolCall} {s : ToolState σ} (h : (t.execute similar call s).1.isSuccess = false) :
    (t.execute similar call s).2.undo = s.undo := by
  have hhandle : (t.handle similar call s).1.isSuccess = false →
      (t.handle similar call s).2.undo = s.undo := by
    unfold FileTool.handle
    split
    · exact fun _ => rfl
    · exact create_fails
    · exact edit_fails
    · exact fun _ => rfl
    · exact edit_fails
    · exact fun _ => rfl
    · exact undoEdit_fails
  unfold FileTool.execute at h ⊢
  by_cases hinternal : isInternalSnapshotPath call.path = true
  · rw [if_pos hinternal]
  · rw [if_neg hinternal] at h ⊢
    cases hcall : t.handle similar call s with
    | mk outcome s' =>
        rw [hcall] at h hhandle
        cases outcome with
        | success output => cases h
        | error message => exact hhandle rfl
        | raised e => exact hhandle rfl

-- ============================================================================
-- The slots
-- ============================================================================

theorem lastEdit_snoc (log : List (Made σ)) (m : Made σ) (f : F) :
    lastEdit fileOf (log ++ [m]) f = if m.edits fileOf f = true then some m else lastEdit fileOf log f := by
  unfold lastEdit
  rw [List.filter_append]
  split_ifs with h
  · rw [List.filter_cons_of_pos h, List.filter_nil, List.getLast?_append]
    rfl
  · rw [List.filter_cons_of_neg h, List.filter_nil, List.append_nil]

/-- A call starts where the one before it ended. -/
def GoesOnFrom (content : σ → F → Option PyStr) (log : List (Made σ)) (m : Made σ) : Prop :=
  ∀ last, log.getLast? = some last → content m.before = content last.after

/-- The slot under the name of a file's last edit holds what the file was before it, and the
    file is still there if it was. -/
def SlotsHold (fileOf : PyStr → Option F) (content : σ → F → Option PyStr) (tool : ToolState σ)
    (log : List (Made σ)) : Prop :=
  ∀ path entry, Dict.get? tool.undo path = some entry → ∃ f last, fileOf path = some f ∧
    lastEdit fileOf log f = some last ∧
    (last.call.path = path → entry = content last.before f ∧ (entry ≠ none → content tool.files f ≠ none))

/-- What a session keeps. -/
structure Holds (fileOf : PyStr → Option F) (content : σ → F → Option PyStr) (s : Session σ) : Prop where
  slots : SlotsHold fileOf content s.tool s.log
  restores : Lib.Guarded (RestoresLastEdit fileOf content) s.log
  chained : Lib.Guarded (GoesOnFrom content) s.log
  current : ∀ last, s.log.getLast? = some last → content last.after = content s.tool.files

theorem holds_start (files : σ) : Holds fileOf content (Session.start files) where
  slots := fun _ _ h => nomatch h
  restores := .nil
  chained := .nil
  current := fun _ h => nomatch h

/-- Slots of a file that was edited: the one just written, and those under other names. -/
theorem SlotsHold.edited {s s' : ToolState σ} {log : List (Made σ)} (h : SlotsHold fileOf content s log)
    {m : Made σ} {f : F} (hedits : m.edits fileOf f = true) (hfile : fileOf m.call.path = some f)
    (hother : ∀ g, g ≠ f → content s'.files g = content s.files g)
    (hslot : ∀ entry, Dict.get? s'.undo m.call.path = some entry →
      entry = content m.before f ∧ (entry ≠ none → content s'.files f ≠ none))
    (hslots : ∀ path, path ≠ m.call.path → Dict.get? s'.undo path = Dict.get? s.undo path) :
    SlotsHold fileOf content s' (log ++ [m]) := by
  intro path entry hentry
  by_cases hpath : path = m.call.path
  · subst hpath
    exact ⟨f, m, hfile, by rw [lastEdit_snoc, if_pos hedits], fun _ => hslot entry hentry⟩
  · rw [hslots path hpath] at hentry
    obtain ⟨g, last, hg, hlast, hentry⟩ := h path entry hentry
    by_cases hgf : g = f
    · subst hgf
      exact ⟨g, m, hg, by rw [lastEdit_snoc, if_pos hedits], fun heq => absurd heq.symm hpath⟩
    · have hnot : ¬ m.edits fileOf g = true := by
        unfold Made.edits
        rw [hfile]
        simp [Ne.symm hgf]
      refine ⟨g, last, hg, by rw [lastEdit_snoc, if_neg hnot]; exact hlast, fun heq => ?_⟩
      rw [hother g hgf]
      exact hentry heq

/-- Slots after a call that edits nothing. -/
theorem SlotsHold.unedited {s s' : ToolState σ} {log : List (Made σ)} (h : SlotsHold fileOf content s log)
    {m : Made σ} (hedits : ∀ f, m.edits fileOf f = false) (hfiles : content s'.files = content s.files)
    (hundo : s'.undo = s.undo) : SlotsHold fileOf content s' (log ++ [m]) := by
  intro path entry hentry
  rw [hundo] at hentry
  obtain ⟨f, last, hfile, hlast, hentry⟩ := h path entry hentry
  refine ⟨f, last, hfile, ?_, fun heq => ?_⟩
  · rw [lastEdit_snoc, hedits f, if_neg Bool.false_ne_true]
    exact hlast
  · rw [hfiles]
    exact hentry heq

theorem edits_of_success {m : Made σ} {f : F} (hsuccess : m.success = true)
    (hview : ∀ viewRange, m.call.action ≠ .view viewRange) (hfile : fileOf m.call.path = some f) :
    m.edits fileOf f = true := by
  unfold Made.edits
  rw [hsuccess, hfile]
  cases haction : m.call.action with
  | view viewRange => exact absurd haction (hview viewRange)
  | create fileText => simp
  | strReplace oldStr newStr all => simp
  | insert line newStr => simp
  | undoEdit => simp

/-- A successful call keeps the slots, and an undo among them restores. -/
theorem Does.keeps {call : ToolCall} {s s' : ToolState σ} {log : List (Made σ)}
    (hdoes : Does fileOf content call s s') (h : SlotsHold fileOf content s log)
    (hnames : NamesLastEdit fileOf ⟨s, log⟩ call) :
    SlotsHold fileOf content s' (log ++ [⟨call, true, s.files, s'.files⟩]) ∧
      RestoresLastEdit fileOf content log ⟨call, true, s.files, s'.files⟩ := by
  cases hdoes with
  | look hcall hsame =>
      obtain ⟨viewRange, hcall⟩ := hcall
      subst hsame
      refine ⟨h.unedited (fun f => ?_) rfl rfl, fun _ hundo => ?_⟩
      · unfold Made.edits
        rw [hcall]
        rfl
      · rw [hcall] at hundo
        cases hundo
  | edit f text hcall hview hfile hcontent hundo =>
      refine ⟨h.edited (edits_of_success rfl hview hfile) hfile ?_ ?_ ?_, fun _ hundo' => absurd hundo' hcall⟩
      · intro g hg
        rw [hcontent, Function.update_of_ne hg]
      · intro entry hentry
        rw [hundo, Dict.get?_set_self] at hentry
        cases hentry
        refine ⟨rfl, fun _ => ?_⟩
        rw [hcontent, Function.update_self]
        exact Option.some_ne_none _
      · intro path hpath
        rw [hundo, Dict.get?_set_of_ne _ _ (Ne.symm hpath)]
  | revert f previous current hcall hfile hslot hcurrent hcontent hundo =>
      obtain ⟨f', last, hfile', hlast, hagree⟩ := h _ _ hslot
      rw [hfile] at hfile'
      cases hfile'
      obtain ⟨hentry, hthere⟩ := hagree (hnames hcall f hfile last hlast)
      -- the file is there, so what is remembered for a redo is its content
      have hnow : content s.files f = some current :=
        hcurrent.resolve_right (hthere (Option.some_ne_none _))
      refine ⟨h.edited (edits_of_success rfl (by rw [hcall]; exact fun _ h => nomatch h) hfile) hfile ?_ ?_ ?_,
        fun _ _ => ⟨f, last, hfile, hlast, ?_⟩⟩
      · intro g hg
        rw [hcontent, Function.update_of_ne hg]
      · intro entry hslot'
        rw [hundo, Dict.get?_set_self] at hslot'
        cases hslot'
        refine ⟨hnow.symm, fun _ => ?_⟩
        rw [hcontent, Function.update_self]
        exact Option.some_ne_none _
      · intro path hpath
        rw [hundo, Dict.get?_set_of_ne _ _ (Ne.symm hpath)]
      · rw [← hentry]
        exact hcontent
  | remove f hcall hfile hslot hcontent hundo =>
      obtain ⟨f', last, hfile', hlast, hagree⟩ := h _ _ hslot
      rw [hfile] at hfile'
      cases hfile'
      obtain ⟨hentry, _⟩ := hagree (hnames hcall f hfile last hlast)
      refine ⟨h.edited (edits_of_success rfl (by rw [hcall]; exact fun _ h => nomatch h) hfile) hfile ?_ ?_ ?_,
        fun _ _ => ⟨f, last, hfile, hlast, ?_⟩⟩
      · intro g hg
        rw [hcontent, Function.update_of_ne hg]
      · intro entry hslot'
        rw [hundo, Dict.get?_pop, if_pos rfl] at hslot'
        cases hslot'
      · intro path hpath
        rw [hundo, Dict.get?_pop, if_neg hpath]
      · rw [← hentry]
        exact hcontent

/-- One call keeps the session, if a failing one leaves the files alone and an undo names the
    file as its last edit did. -/
theorem Holds.step (hw : WorksOn t fileOf content) {s : Session σ} (h : Holds fileOf content s)
    {call : ToolCall} (hclean : FailsClean similar t content s call) (hnames : NamesLastEdit fileOf s call) :
    Holds fileOf content (s.step similar t call) := by
  have hstep : SlotsHold fileOf content (s.step similar t call).tool (s.step similar t call).log ∧
      RestoresLastEdit fileOf content s.log ⟨call, (t.execute similar call s.tool).1.isSuccess, s.tool.files,
        (t.execute similar call s.tool).2.files⟩ := by
    unfold Session.step
    dsimp only
    cases hsuccess : (t.execute similar call s.tool).1.isSuccess with
    | true => exact (execute_does hw hsuccess).keeps h.slots hnames
    | false =>
        refine ⟨h.slots.unedited (fun f => rfl) (hclean hsuccess) (execute_fails hsuccess), fun h => ?_⟩
        cases h
  refine ⟨hstep.1, Lib.Guarded.snoc_iff.mpr ⟨h.restores, hstep.2⟩,
    Lib.Guarded.snoc_iff.mpr ⟨h.chained, fun last hlast => (h.current last hlast).symm⟩, fun last hlast => ?_⟩
  unfold Session.step at hlast ⊢
  dsimp only at hlast ⊢
  rw [List.getLast?_append] at hlast
  cases hlast
  rfl

-- ============================================================================
-- Runs
-- ============================================================================

theorem Holds.undoesUndo {s : Session σ} (h : Holds fileOf content s) : UndoesUndo fileOf content s.log := by
  intro pre first second post hlog hfirst hsecond hundo hundo' hsame
  obtain ⟨f, last, hfile, hlast, hafter⟩ := h.restores pre first (second :: post) hlog hfirst hundo
  have hlog' : s.log = (pre ++ [first]) ++ second :: post := by rw [hlog, List.append_assoc]; rfl
  obtain ⟨g, last', hfile', hlast', hafter'⟩ := h.restores (pre ++ [first]) second post hlog' hsecond hundo'
  rw [hsame, hfile'] at hfile
  cases hfile
  have hedits : first.edits fileOf f = true :=
    edits_of_success hfirst (by rw [hundo]; exact fun _ h => nomatch h) (hsame.trans hfile')
  rw [lastEdit_snoc, if_pos hedits] at hlast'
  cases hlast'
  have hgo := h.chained (pre ++ [first]) second post hlog' first (List.getLast?_concat ..)
  rw [hafter', hgo, hafter, Function.update_idem, Function.update_eq_self]

/-- In a run in which writes succeed and every `undo_edit` names its file as the last edit of
    it did, every successful undo brings back what the file was before that edit, and undoing
    twice in a row leaves everything as it was. -/
theorem undo_restores (hw : WorksOn t fileOf content) (files : σ) {calls : List ToolCall}
    (h : Meets (Session.step similar t)
      (fun s call => FailsClean similar t content s call ∧ NamesLastEdit fileOf s call)
      (Session.start files) calls) :
    Lib.Guarded (RestoresLastEdit fileOf content) (run (Session.step similar t) (Session.start files) calls).log ∧
      UndoesUndo fileOf content (run (Session.step similar t) (Session.start files) calls).log := by
  have hholds : Holds fileOf content (run (Session.step similar t) (Session.start files) calls) :=
    h.keeps (fun _ _ hs hcall => hs.step hw hcall.1 hcall.2) (holds_start files)
  exact ⟨hholds.restores, hholds.undoesUndo⟩

end Files
end KineticSdk
