/-
  KineticSdk.Skills.ZipLoader

  `ZipSkillLoader._extract_safely` (`skills/zip_loader.py`).

  An entry is compared by its resolved destination with a root that is not
  resolved.  What passes lies inside the root all the same, since nothing below
  the root is a link (`place_inside`), and the sizes are bounded by the declared
  ones; but below a root whose path has a link nothing passes, and an entry that
  meets a file in the place of a directory, or the reverse, stops the archive.
-/

import KineticSdk.Lib.Steps
import KineticSdk.Py.MakeDirs
import KineticSdk.Skills.Skill
import Mathlib.Algebra.GroupWithZero.Nat

namespace KineticSdk
namespace Skills

open Py Os

-- ============================================================================
-- Archives
-- ============================================================================

/-- An entry of an archive: its `ZipInfo`, what opening it raises, the bytes its stream
    yields, no more than are declared, and what reading on raises then. -/
structure ZipInfo where
  filename : PyStr
  externalAttr : Nat
  fileSize : Nat
  content : List Nat
  bounded : content.length ≤ fileSize
  openFault : Option PyExc := none
  readFault : Option PyExc := none

/-- `stat.S_ISLNK((info.external_attr >> 16) & 0xFFFF)`. -/
def ZipInfo.isSymlink (info : ZipInfo) : Bool := ((info.externalAttr >>> 16) &&& 0xFFFF) &&& 0xF000 == 0xA000

/-- `info.is_dir()`. -/
def ZipInfo.isDir (info : ZipInfo) : Bool := info.filename.getLast? == some 47

/-- `os.path.splitext(name)[1]`: dots at the start of the last component do not count. -/
def extension (name : PyStr) : PyStr :=
  let base := (splitSlash name).getLastD []
  let tail := (base.reverse.takeWhile (· != 46)).reverse
  let stem := base.take (base.length - tail.length - 1)
  if stem.any (· != 46) then 46 :: tail else []

/-- `DEFAULT_ALLOWED_EXTENSIONS`. -/
def defaultAllowedExtensions : List PyStr :=
  [py ".md", py ".txt", py ".json", py ".py", py ".sh", py ".yaml", py ".yml"]

/-- `ZipSkillLoader.__init__`. -/
structure ZipSkillLoader where
  zipPath : PyStr
  maxTotalSize : Nat := 10 * 1024 * 1024
  maxEntries : Nat := 500
  allowedExtensions : List PyStr := defaultAllowedExtensions

/-- What an extraction returns or raises, the tree it leaves, and what it has written
    into which file. -/
structure Extraction (α : Type) where
  outcome : Except PyExc α
  fs : Node
  writes : List (Path × List Nat)

def zipSkillError (message : PyStr) : PyExc := ⟨py "ZipSkillError", message⟩

/-- An error of the system, its text left out. -/
def osError : PyExc := ⟨py "OSError", []⟩

-- ============================================================================
-- Extraction
-- ============================================================================

/-- `os.path.realpath(os.path.join(dest_root, name))`. -/
def destination (root : Path) (fs : Node) (name : PyStr) : Path := (realpath fs (joinPath root name)).path

/-- Where the system finds or makes what a path names, unless it meets a loop of links. -/
def place (fs : Node) (path : Path) : Option Path :=
  if (realpath fs path).ok then some (realpath fs path).path else none

namespace ZipSkillLoader

variable (loader : ZipSkillLoader) (lower : PyStr → PyStr) (root : Path)

/-- The extension allowlist, for a file. -/
def Allows (info : ZipInfo) : Prop := lower (extension info.filename) ∈ loader.allowedExtensions

instance (info : ZipInfo) : Decidable (loader.Allows lower info) :=
  inferInstanceAs (Decidable (_ ∈ loader.allowedExtensions))

/-- `_extract_entry`. -/
def extractEntry (fs : Node) (info : ZipInfo) : Extraction Nat :=
  if info.isSymlink then ⟨.ok 0, fs, []⟩
  else
    let dest := destination root fs info.filename
    if ¬ root <+: dest then
      ⟨.error (zipSkillError (pyReprStr loader.zipPath ++ py ": entry " ++ pyReprStr info.filename
        ++ py " resolves outside the extraction directory (zip-slip attempt)")), fs, []⟩
    else if info.isDir then
      match (place fs dest).bind (makeDirs fs) with
      | none => ⟨.error osError, fs, []⟩
      | some made => ⟨.ok 0, made, []⟩
    else if ¬ loader.Allows lower info then ⟨.ok 0, fs, []⟩
    else
      match place fs dest with
      | none => ⟨.error osError, fs, []⟩
      | some path =>
          match makeDirs fs path.dropLast with
          | none => ⟨.error osError, fs, []⟩
          | some made =>
              match info.openFault with
              | some e => ⟨.error e, made, []⟩
              | none =>
                  match put made path info.content with
                  | none => ⟨.error osError, made, []⟩
                  | some written =>
                      match info.readFault with
                      | some e => ⟨.error e, written, [(path, info.content)]⟩
                      | none => ⟨.ok info.content.length, written, [(path, info.content)]⟩

/-- The loop of `_extract_safely`. -/
def extractAll (fs : Node) (writtenTotal : Nat) : List ZipInfo → Extraction Unit
  | [] => ⟨.ok (), fs, []⟩
  | info :: rest =>
      let entry := loader.extractEntry lower root fs info
      match entry.outcome with
      | .error e => ⟨.error e, entry.fs, entry.writes⟩
      | .ok n =>
          if loader.maxTotalSize < writtenTotal + n then
            ⟨.error (zipSkillError (pyReprStr loader.zipPath ++ py ": actual uncompressed size exceeds the limit of "
              ++ natText loader.maxTotalSize ++ py " bytes while extracting " ++ pyReprStr info.filename
              ++ py " (forged size header?)")), entry.fs, entry.writes⟩
          else
            let after := extractAll entry.fs (writtenTotal + n) rest
            ⟨after.outcome, after.fs, entry.writes ++ after.writes⟩

/-- The sum of the declared sizes. -/
def declaredTotal (infos : List ZipInfo) : Nat := (infos.map ZipInfo.fileSize).sum

/-- `_extract_safely`, from what opening the archive gives. -/
def extractSafely (fs : Node) : Except PyStr (List ZipInfo) → Extraction Unit
  | .error e => ⟨.error (zipSkillError (pyReprStr loader.zipPath ++ py " is not a valid zip: " ++ e)), fs, []⟩
  | .ok infos =>
      if loader.maxEntries < infos.length then
        ⟨.error (zipSkillError (pyReprStr loader.zipPath ++ py ": " ++ natText infos.length
          ++ py " entries exceeds the limit of " ++ natText loader.maxEntries ++ py " (zip-bomb protection)")), fs, []⟩
      else if loader.maxTotalSize < declaredTotal infos then
        ⟨.error (zipSkillError (pyReprStr loader.zipPath ++ py ": declared uncompressed size "
          ++ natText (declaredTotal infos) ++ py " bytes exceeds the limit of " ++ natText loader.maxTotalSize
          ++ py " (zip-bomb protection)")), fs, []⟩
      else loader.extractAll lower root fs 0 infos

end ZipSkillLoader

-- ============================================================================
-- Extraction roots
-- ============================================================================

/-- A root to extract into: an absolute path that leads somewhere, with no link below
    it, as `tempfile` makes them.  The path itself may have links. -/
structure ExtractionRoot (fs : Node) where
  path : Path
  plain : PlainPath path
  resolves : (realpath fs path).ok = true
  fresh : ∀ rest, linkAt fs ((realpath fs path).path ++ rest) = none

/-- The directory the root is. -/
def ExtractionRoot.real {fs : Node} (root : ExtractionRoot fs) : Path := (realpath fs root.path).path

/-- The entry stays inside the root, whatever links are on the way. -/
def ZipInfo.Inside {fs : Node} (root : ExtractionRoot fs) (info : ZipInfo) : Prop :=
  (realpath fs (joinPath root.path info.filename)).ok = true ∧ root.real <+: destination root.path fs info.filename

section Roots

variable {fs fs' : Node} (root : ExtractionRoot fs) {name : PyStr} {dest : Path}

theorem destination_plain : PlainPath (destination root.path fs name) :=
  realpath_plain fs (joinPath_noSlash root.plain)

/-- Below the root there are no links. -/
theorem linkless_below {rest : Path} (hrest : PlainPath rest) : Linkless fs (root.real ++ rest) := by
  have hreal : Linkless fs root.real := realpath_linkless (fun n hn => (root.plain n hn).noSlash) root.resolves
  refine ⟨fun n hn => ?_, fun pre n hpre target => ?_⟩
  · rcases List.mem_append.mp hn with hn | hn
    · exact hreal.plain n hn
    · exact hrest n hn
  · rcases List.prefix_or_prefix_of_prefix hpre (List.prefix_append root.real rest) with hpre | ⟨below, hbelow⟩
    · exact hreal.noLink pre n hpre target
    · rw [← hbelow]
      exact linkAt_eq_none.mp (root.fresh below) target

/-- What passes the comparison lies inside the directory that the root is. -/
theorem place_inside (hplain : PlainPath dest) (hin : root.path <+: dest) :
    ∃ rest, place fs dest = some (root.real ++ rest) := by
  obtain ⟨rest, rfl⟩ := hin
  have hrest : PlainPath rest := fun n hn => hplain n (List.mem_append_right _ hn)
  obtain ⟨hpath, hok⟩ := realpath_append root.resolves (linkless_below root hrest)
  refine ⟨rest, ?_⟩
  rw [place, if_pos hok, hpath]
  rfl

/-- An entry that stays inside passes the comparison exactly when the root's own path has
    no link. -/
theorem contained_iff {info : ZipInfo} (h : info.Inside root) :
    root.path <+: destination root.path fs info.filename ↔ root.real = root.path := by
  constructor
  · intro hin
    have hdest : Linkless fs (destination root.path fs info.filename) :=
      realpath_linkless (joinPath_noSlash root.plain) h.1
    rw [ExtractionRoot.real, realpath_of_linkless (hdest.of_prefix hin)]
  · intro hreal
    have hin := h.2
    rw [hreal] at hin
    exact hin

/-- The destination of an entry that stays inside is where the system finds it. -/
theorem place_destination {info : ZipInfo} (h : info.Inside root) :
    place fs (destination root.path fs info.filename) = some (destination root.path fs info.filename) := by
  have hdest : Linkless fs (destination root.path fs info.filename) :=
    realpath_linkless (joinPath_noSlash root.plain) h.1
  rw [place, realpath_of_linkless hdest]
  exact if_pos rfl

theorem destination_sameLinks (h : SameLinks fs fs') (path : Path) (name : PyStr) :
    destination path fs' name = destination path fs name := by
  rw [destination, destination, h.realpath_eq]

theorem place_sameLinks (h : SameLinks fs fs') (path : Path) : place fs' path = place fs path := by
  rw [place, place, h.realpath_eq]

end Roots

-- ============================================================================
-- One entry
-- ============================================================================

namespace ZipSkillLoader

variable (loader : ZipSkillLoader) (lower : PyStr → PyStr)

/-- What extracting an entry can do, whether or not it ends well. -/
structure Effect {fs : Node} (root : ExtractionRoot fs) (before : Node) (info : ZipInfo) (entry : Extraction Nat) :
    Prop where
  links : SameLinks before entry.fs
  writes : ∀ w ∈ entry.writes, info.isSymlink = false ∧ loader.Allows lower info ∧ w.2 = info.content
    ∧ root.real <+: w.1
  size : (entry.writes.map fun w => w.2.length).sum ≤ info.fileSize
  tree : ∀ path, fileAt entry.fs path = (entry.writes.reverse.lookup path).or (fileAt before path)
  dirs : ∀ path, IsDirAt before path → IsDirAt entry.fs path
  count : ∀ n, entry.outcome = .ok n → n ≤ info.fileSize

section Effects

variable {loader : ZipSkillLoader} {lower : PyStr → PyStr} {fs before after : Node} {root : ExtractionRoot fs}
  {info : ZipInfo}

/-- An entry that writes nothing, and makes directories at most. -/
theorem Effect.of_dirs {outcome : Except PyExc Nat} (hlinks : SameLinks before after)
    (htree : ∀ path, fileAt after path = fileAt before path)
    (hdirs : ∀ path, IsDirAt before path → IsDirAt after path) (hcount : ∀ n, outcome = .ok n → n = 0) :
    Effect loader lower root before info ⟨outcome, after, []⟩ :=
  ⟨hlinks, fun _ h => absurd h List.not_mem_nil, Nat.zero_le _, htree, hdirs,
    fun n hn => by rw [hcount n hn]; exact Nat.zero_le _⟩

theorem Effect.nothing {outcome : Except PyExc Nat} (hcount : ∀ n, outcome = .ok n → n = 0) :
    Effect loader lower root before info ⟨outcome, before, []⟩ :=
  .of_dirs (.refl _) (fun _ => rfl) (fun _ h => h) hcount

theorem Effect.made {outcome : Except PyExc Nat} {path : Path} (h : makeDirs before path = some after)
    (hcount : ∀ n, outcome = .ok n → n = 0) : Effect loader lower root before info ⟨outcome, after, []⟩ :=
  .of_dirs (sameLinks_makeDirs h) (fileAt_makeDirs h) (fun _ => isDirAt_makeDirs h) hcount

/-- An entry that writes its file. -/
theorem Effect.wrote {outcome : Except PyExc Nat} {made : Node} {path dir : Path} (hsymlink : info.isSymlink = false)
    (hallows : loader.Allows lower info) (hin : root.real <+: path) (hdir : makeDirs before dir = some made)
    (hput : put made path info.content = some after) (hcount : ∀ n, outcome = .ok n → n = info.content.length) :
    Effect loader lower root before info ⟨outcome, after, [(path, info.content)]⟩ := by
  refine ⟨(sameLinks_makeDirs hdir).trans (sameLinks_put hput), fun w hw => ?_, info.bounded, fun other => ?_,
    fun other hother => isDirAt_put hput (isDirAt_makeDirs hdir hother), fun n hn => ?_⟩
  · rw [List.mem_singleton.mp hw]
    exact ⟨hsymlink, hallows, rfl, hin⟩
  · rw [fileAt_put hput, fileAt_makeDirs hdir]
    show _ = (([(path, info.content)] : List (Path × List Nat)).lookup other).or _
    by_cases hother : other = path
    · rw [if_pos hother, hother, List.lookup_cons_self]
      rfl
    · rw [if_neg hother, List.lookup_cons, beq_eq_false_iff_ne.mpr hother]
      rfl
  · rw [hcount n hn]
    exact info.bounded

theorem extractEntry_effect (h : SameLinks fs before) :
    Effect loader lower root before info (loader.extractEntry lower root.path before info) := by
  have hfail : ∀ e n, (.error e : Except PyExc Nat) = .ok n → n = 0 := fun e n h => nomatch h
  have hzero : ∀ n, (.ok 0 : Except PyExc Nat) = .ok n → n = 0 := fun n h => (Except.ok.inj h).symm
  rw [extractEntry]
  by_cases hsymlink : info.isSymlink = true
  · rw [if_pos hsymlink]
    exact .nothing hzero
  rw [if_neg hsymlink]
  dsimp only
  by_cases hcontained : ¬ root.path <+: destination root.path before info.filename
  · rw [if_pos hcontained]
    exact .nothing (hfail _)
  rw [if_neg hcontained]
  by_cases hdir : info.isDir = true
  · rw [if_pos hdir]
    split
    · exact .nothing (hfail _)
    · rename_i made hmade
      obtain ⟨path, -, hmade⟩ := Option.bind_eq_some_iff.mp hmade
      exact .made hmade hzero
  rw [if_neg hdir]
  by_cases hallows : ¬ loader.Allows lower info
  · rw [if_pos hallows]
    exact .nothing hzero
  rw [if_neg hallows]
  -- what is written is written where the comparison has been made
  have hplace : ∀ path, place before (destination root.path before info.filename) = some path →
      root.real <+: path := by
    intro path hpath
    rw [destination_sameLinks h, place_sameLinks h] at hpath
    rw [destination_sameLinks h] at hcontained
    obtain ⟨rest, hrest⟩ := place_inside root (destination_plain root) (Decidable.not_not.mp hcontained)
    rw [hrest] at hpath
    rw [← Option.some.inj hpath]
    exact List.prefix_append ..
  split
  · exact .nothing (hfail _)
  · rename_i path hpath
    split
    · exact .nothing (hfail _)
    · rename_i made hmade
      split
      · exact .made hmade (hfail _)
      · split
        · exact .made hmade (hfail _)
        · rename_i written hput
          have hwrote : ∀ {outcome : Except PyExc Nat}, (∀ n, outcome = .ok n → n = info.content.length) →
              Effect loader lower root before info ⟨outcome, written, [(path, info.content)]⟩ :=
            fun hcount => .wrote (Bool.eq_false_iff.mpr hsymlink) (Decidable.not_not.mp hallows)
              (hplace path hpath) hmade hput hcount
          split
          · exact hwrote fun n h => nomatch h
          · exact hwrote fun n h => (Except.ok.inj h).symm

end Effects

/-- There is room for an entry: nothing but directories on the way to it, no other thing
    in its own place, and a stream that can be read to its end. -/
def Room (fs : Node) (dest : Path) (info : ZipInfo) : Prop :=
  if info.isDir then Clear fs dest
  else loader.Allows lower info → info.openFault = none ∧ info.readFault = none ∧ Clear fs dest.dropLast
    ∧ ∀ node, lstat fs dest = some node → ∃ old, node = .file old

/-- What an entry needs: it is passed over as a link, or the root is its own canonical path
    and there is room for the entry. -/
def Fits {fs : Node} (root : ExtractionRoot fs) (before : Node) (info : ZipInfo) : Prop :=
  info.isSymlink = true ∨
    (root.real = root.path ∧ loader.Room lower before (destination root.path fs info.filename) info)

/-- What an entry leaves in the end. -/
def Arrived {fs : Node} (root : ExtractionRoot fs) (run : Extraction α) (info : ZipInfo) : Prop :=
  info.isSymlink = true ∨
    if info.isDir then IsDirAt run.fs (destination root.path fs info.filename)
    else loader.Allows lower info → (destination root.path fs info.filename, info.content) ∈ run.writes

section Run

variable {loader : ZipSkillLoader} {lower : PyStr → PyStr} {fs before : Node} {root : ExtractionRoot fs}
  {info : ZipInfo} {infos : List ZipInfo} {total : Nat}

/-- An entry that stays inside is extracted exactly when it fits. -/
theorem extractEntry_inside (h : SameLinks fs before) (hinside : info.Inside root) :
    (loader.Fits lower root before info → ∃ n,
      (loader.extractEntry lower root.path before info).outcome = .ok n
        ∧ Arrived loader lower root (loader.extractEntry lower root.path before info) info) ∧
    ((∃ n, (loader.extractEntry lower root.path before info).outcome = .ok n) →
      loader.Fits lower root before info) := by
  have hno : ∀ {e : PyExc}, ¬ ∃ n, (.error e : Except PyExc Nat) = .ok n := fun ⟨n, h⟩ => nomatch h
  have hdest := destination_sameLinks h root.path info.filename
  have hplace := (place_sameLinks h _).trans (place_destination root hinside)
  have hcontained := contained_iff root hinside
  rw [extractEntry, Fits, Arrived, hdest]
  by_cases hsymlink : info.isSymlink = true
  · rw [if_pos hsymlink]
    exact ⟨fun _ => ⟨0, rfl, .inl hsymlink⟩, fun _ => .inl hsymlink⟩
  rw [if_neg hsymlink]
  dsimp only
  by_cases hreal : root.real = root.path
  case neg =>
    rw [if_pos fun hin => hreal (hcontained.mp hin)]
    exact ⟨fun hfits => absurd (hfits.resolve_left hsymlink).1 hreal, fun hok => absurd hok hno⟩
  rw [if_neg (not_not_intro (hcontained.mpr hreal)), hplace, Room]
  generalize destination root.path fs info.filename = dest
  by_cases hdir : info.isDir = true
  · rw [if_pos hdir, if_pos hdir, if_pos hdir, Option.bind_some, ← makeDirs_isSome_iff]
    cases hmade : makeDirs before dest with
    | none => exact ⟨fun hfits => (nomatch (hfits.resolve_left hsymlink).2), fun hok => absurd hok hno⟩
    | some made => exact ⟨fun _ => ⟨0, rfl, .inr (isDirAt_of_makeDirs hmade)⟩, fun _ => .inr ⟨hreal, rfl⟩⟩
  rw [if_neg hdir, if_neg hdir, if_neg hdir]
  by_cases hallows : loader.Allows lower info
  case neg =>
    rw [if_pos hallows]
    exact ⟨fun _ => ⟨0, rfl, .inr fun h => absurd h hallows⟩, fun _ => .inr ⟨hreal, fun h => absurd h hallows⟩⟩
  rw [if_neg (not_not_intro hallows), ← @put_isSome_iff before dest info.content]
  dsimp only
  cases hmade : makeDirs before dest.dropLast with
  | none =>
      refine ⟨fun hfits => ?_, fun hok => absurd hok hno⟩
      obtain ⟨-, -, hput⟩ := (hfits.resolve_left hsymlink).2 hallows
      have hmakes := makeDirs_isSome_iff.mpr (put_isSome_iff.mp hput).1
      rw [hmade] at hmakes
      cases hmakes
  | some made =>
      have hput := put_makeDirs hmade info.content
      rw [← hput]
      dsimp only
      cases hopen : info.openFault with
      | some e =>
          exact ⟨fun hfits => (nomatch ((hfits.resolve_left hsymlink).2 hallows).1), fun hok => absurd hok hno⟩
      | none =>
          dsimp only
          cases hwritten : put made dest info.content with
          | none =>
              exact ⟨fun hfits => (nomatch ((hfits.resolve_left hsymlink).2 hallows).2.2), fun hok => absurd hok hno⟩
          | some written =>
              dsimp only
              cases hread : info.readFault with
              | some e =>
                  exact ⟨fun hfits => (nomatch ((hfits.resolve_left hsymlink).2 hallows).2.1),
                    fun hok => absurd hok hno⟩
              | none =>
                  exact ⟨fun _ => ⟨_, rfl, .inr fun _ => List.mem_singleton_self _⟩,
                    fun _ => .inr ⟨hreal, fun _ => ⟨rfl, rfl, rfl⟩⟩⟩

/-- What a whole extraction does besides ending well or not. -/
structure Sound (loader : ZipSkillLoader) (lower : PyStr → PyStr) (root : ExtractionRoot fs) (before : Node)
    (infos : List ZipInfo) (run : Extraction Unit) : Prop where
  writes : ∀ w ∈ run.writes, root.real <+: w.1 ∧
    ∃ info ∈ infos, info.isSymlink = false ∧ loader.Allows lower info ∧ w.2 = info.content
  size : (run.writes.map fun w => w.2.length).sum ≤ declaredTotal infos
  tree : ∀ path, fileAt run.fs path = (run.writes.reverse.lookup path).or (fileAt before path)
  dirs : ∀ path, IsDirAt before path → IsDirAt run.fs path

theorem Sound.of_effect {outcome : Except PyExc Unit} {entry : Extraction Nat}
    (h : Effect loader lower root before info entry) :
    Sound loader lower root before (info :: infos) ⟨outcome, entry.fs, entry.writes⟩ := by
  refine ⟨fun w hw => ?_, ?_, h.tree, h.dirs⟩
  · obtain ⟨hsymlink, hallows, hcontent, hin⟩ := h.writes w hw
    exact ⟨hin, info, List.mem_cons_self .., hsymlink, hallows, hcontent⟩
  · have hsize := h.size
    rw [declaredTotal, List.map_cons, List.sum_cons]
    dsimp only
    omega

theorem Sound.cons {entry : Extraction Nat} {after : Extraction Unit}
    (h : Effect loader lower root before info entry) (h' : Sound loader lower root entry.fs infos after) :
    Sound loader lower root before (info :: infos) ⟨after.outcome, after.fs, entry.writes ++ after.writes⟩ := by
  refine ⟨fun w hw => ?_, ?_, fun path => ?_, fun path hpath => h'.dirs path (h.dirs path hpath)⟩
  · rcases List.mem_append.mp hw with hw | hw
    · have hfirst : Sound loader lower root before (info :: infos) ⟨.ok (), entry.fs, entry.writes⟩ := .of_effect h
      exact hfirst.writes w hw
    · obtain ⟨hin, found, hmem, hfound⟩ := h'.writes w hw
      exact ⟨hin, found, List.mem_cons_of_mem _ hmem, hfound⟩
  · have hsize := h.size
    have hsize' := h'.size
    rw [declaredTotal] at hsize' ⊢
    rw [List.map_append, List.sum_append, List.map_cons, List.sum_cons]
    omega
  · show fileAt after.fs path = ((entry.writes ++ after.writes).reverse.lookup path).or (fileAt before path)
    rw [h'.tree, h.tree, List.reverse_append, List.lookup_append, Option.or_assoc]

theorem extractAll_sound (h : SameLinks fs before) (total : Nat) :
    Sound loader lower root before infos (loader.extractAll lower root.path before total infos) := by
  induction infos generalizing before total with
  | nil =>
      exact ⟨fun _ h => absurd h List.not_mem_nil, Nat.zero_le _, fun _ => rfl, fun _ h => h⟩
  | cons info rest ih =>
      have heffect := @extractEntry_effect loader lower fs before root info h
      rw [extractAll]
      dsimp only
      split
      · exact .of_effect heffect
      · split
        · exact .of_effect heffect
        · exact .cons heffect (ih (h.trans heffect.links) _)

/-- The tree after an entry. -/
def afterEntry (loader : ZipSkillLoader) (lower : PyStr → PyStr) (root : Path) (before : Node) (info : ZipInfo) :
    Node := (loader.extractEntry lower root before info).fs

theorem Arrived.mono {α β : Type} {run : Extraction α} {run' : Extraction β} (h : Arrived loader lower root run info)
    (hdirs : ∀ path, IsDirAt run.fs path → IsDirAt run'.fs path) (hwrites : ∀ w ∈ run.writes, w ∈ run'.writes) :
    Arrived loader lower root run' info := by
  refine h.imp_right fun h => ?_
  by_cases hdir : info.isDir = true
  · rw [if_pos hdir] at h ⊢
    exact hdirs _ h
  · rw [if_neg hdir] at h ⊢
    exact fun hallows => hwrites _ (h hallows)

/-- Within the limit, entries that stay inside are all extracted when each of them fits
    where it comes to it, and otherwise an exception is raised. -/
theorem extractAll_inside (h : SameLinks fs before) (hinside : ∀ info ∈ infos, info.Inside root)
    (htotal : total + declaredTotal infos ≤ loader.maxTotalSize) :
    (Lib.Steps.Meets (loader.afterEntry lower root.path) (loader.Fits lower root) before infos →
      (loader.extractAll lower root.path before total infos).outcome = .ok ()
      ∧ ∀ info ∈ infos, Arrived loader lower root (loader.extractAll lower root.path before total infos) info) ∧
    ((loader.extractAll lower root.path before total infos).outcome = .ok () →
      Lib.Steps.Meets (loader.afterEntry lower root.path) (loader.Fits lower root) before infos) := by
  induction infos generalizing before total with
  | nil => exact ⟨fun _ => ⟨rfl, fun _ h => absurd h List.not_mem_nil⟩, fun _ => trivial⟩
  | cons info rest ih =>
      have heffect := @extractEntry_effect loader lower fs before root info h
      obtain ⟨hfits, hneeds⟩ := extractEntry_inside h (hinside info (List.mem_cons_self ..))
      have hrest : ∀ other ∈ rest, other.Inside root := fun other hother => hinside other (List.mem_cons_of_mem _ hother)
      rw [declaredTotal, List.map_cons, List.sum_cons] at htotal
      rw [extractAll]
      dsimp only
      cases houtcome : (loader.extractEntry lower root.path before info).outcome with
      | error e =>
          refine ⟨fun hmeets => ?_, fun hok => nomatch hok⟩
          obtain ⟨n, hn, -⟩ := hfits hmeets.1
          rw [houtcome] at hn
          cases hn
      | ok n =>
          have hcount := heffect.count n houtcome
          dsimp only
          rw [if_neg (by omega)]
          obtain ⟨hmeets, hok⟩ := @ih (loader.extractEntry lower root.path before info).fs (total + n)
            (h.trans heffect.links) hrest (by rw [declaredTotal]; omega)
          have hsound := @extractAll_sound loader lower fs _ root rest (h.trans heffect.links) (total + n)
          refine ⟨fun ⟨hfit, hlater⟩ => ?_, fun hlater => ⟨hneeds ⟨n, houtcome⟩, hok hlater⟩⟩
          obtain ⟨-, -, hfirst⟩ := hfits hfit
          obtain ⟨hdone, harrived⟩ := hmeets hlater
          refine ⟨hdone, fun other hother => ?_⟩
          rcases List.mem_cons.mp hother with rfl | hother
          · exact hfirst.mono hsound.dirs fun w hw => List.mem_append_left _ hw
          · exact (harrived other hother).mono (fun _ hdir => hdir) fun w hw => List.mem_append_right _ hw

end Run

-- ============================================================================
-- Whole archives
-- ============================================================================

/-- The archive is within the limits. -/
def WithinLimits (infos : List ZipInfo) : Prop :=
  infos.length ≤ loader.maxEntries ∧ declaredTotal infos ≤ loader.maxTotalSize

/-- Every file written lies inside the root and comes from an entry that is no link and has
    an allowed extension, nothing else in the tree changes its content, and no more is
    written than allowed. -/
structure Contained {fs : Node} (root : ExtractionRoot fs) (infos : List ZipInfo) (run : Extraction Unit) : Prop where
  writes : ∀ w ∈ run.writes, root.real <+: w.1 ∧
    ∃ info ∈ infos, info.isSymlink = false ∧ loader.Allows lower info ∧ w.2 = info.content
  tree : ∀ path, fileAt run.fs path = (run.writes.reverse.lookup path).or (fileAt fs path)
  size : (run.writes.map fun w => w.2.length).sum ≤ loader.maxTotalSize

/-- The extraction ends well and every entry has arrived. -/
def Extracted {fs : Node} (root : ExtractionRoot fs) (infos : List ZipInfo) (run : Extraction Unit) : Prop :=
  run.outcome = .ok () ∧ ∀ info ∈ infos, Arrived loader lower root run info

/-- Extraction is contained and bounded, and an archive within the limits none of whose
    entries escapes is extracted. -/
def ExtractsSafely {fs : Node} (root : ExtractionRoot fs) (infos : List ZipInfo) : Prop :=
  Contained loader lower root infos (loader.extractSafely lower root.path fs (.ok infos)) ∧
    (loader.WithinLimits infos → (∀ info ∈ infos, info.Inside root) →
      Extracted loader lower root infos (loader.extractSafely lower root.path fs (.ok infos)))

theorem extractSafely_contained {fs : Node} (root : ExtractionRoot fs) (infos : List ZipInfo) :
    Contained loader lower root infos (loader.extractSafely lower root.path fs (.ok infos)) := by
  have hnothing : ∀ e, Contained loader lower root infos ⟨.error e, fs, []⟩ := fun e =>
    ⟨fun _ h => absurd h List.not_mem_nil, fun _ => rfl, Nat.zero_le _⟩
  rw [extractSafely]
  by_cases hentries : loader.maxEntries < infos.length
  · rw [if_pos hentries]
    exact hnothing _
  rw [if_neg hentries]
  by_cases htotal : loader.maxTotalSize < declaredTotal infos
  · rw [if_pos htotal]
    exact hnothing _
  rw [if_neg htotal]
  have hsound := @extractAll_sound loader lower fs fs root infos (.refl fs) 0
  exact ⟨hsound.writes, hsound.tree, hsound.size.trans (Nat.not_lt.mp htotal)⟩

/-- Extraction is always contained and bounded; archives within the limits that stay inside
    are extracted exactly where each entry in its turn is a link to be passed over, or has
    room below a root that is its own canonical path. -/
theorem extractsSafely_iff {fs : Node} (root : ExtractionRoot fs) (infos : List ZipInfo) :
    ExtractsSafely loader lower root infos ↔
      (loader.WithinLimits infos → (∀ info ∈ infos, info.Inside root) →
        Lib.Steps.Meets (loader.afterEntry lower root.path) (loader.Fits lower root) fs infos) := by
  refine ⟨fun h hlimits hinside => ?_, fun h =>
    ⟨extractSafely_contained loader lower root infos, fun hlimits hinside => ?_⟩⟩
  · obtain ⟨hok, -⟩ := h.2 hlimits hinside
    rw [extractSafely, if_neg (Nat.not_lt.mpr hlimits.1), if_neg (Nat.not_lt.mpr hlimits.2)] at hok
    exact (extractAll_inside (.refl fs) hinside (by rw [Nat.zero_add]; exact hlimits.2)).2 hok
  · rw [extractSafely, if_neg (Nat.not_lt.mpr hlimits.1), if_neg (Nat.not_lt.mpr hlimits.2)]
    exact (extractAll_inside (.refl fs) hinside (by rw [Nat.zero_add]; exact hlimits.2)).1
      (h hlimits hinside)

/-- `/l` is a link to `/m`, where `x` is an empty directory. -/
def linkedTree : Node := .dir true [(py "l", .link (py "/m")), (py "m", .dir true [(py "x", .dir true [])])]

/-- The root `/l/x`. -/
def linkedRoot : ExtractionRoot linkedTree where
  path := [py "l", py "x"]
  plain := by intro name hname; revert name; decide
  resolves := by decide
  fresh := fun rest => linkAt_empty true rest

/-- Below a link an archive with a single text is refused. -/
theorem linked_root_refused :
    ¬ ExtractsSafely ⟨py "a.zip", 100, 10, defaultAllowedExtensions⟩ id linkedRoot
      [⟨py "a.md", 0, 1, [65], by decide, none, none⟩] := by
  intro h
  have hinside : (realpath linkedTree (joinPath linkedRoot.path (py "a.md"))).ok = true ∧
      linkedRoot.real <+: destination linkedRoot.path linkedTree (py "a.md") := by decide
  obtain ⟨hok, -⟩ := h.2 ⟨by decide, by decide⟩ fun info hinfo => by
    rw [List.mem_singleton.mp hinfo]
    exact hinside
  have hescapes : ¬ linkedRoot.path <+: destination linkedRoot.path linkedTree (py "a.md") := by decide
  rw [extractSafely, if_neg (by decide), if_neg (by decide), extractAll, extractEntry, if_neg (by decide)] at hok
  dsimp only at hok
  rw [if_pos hescapes] at hok
  cases hok

end ZipSkillLoader

end Skills
end KineticSdk
