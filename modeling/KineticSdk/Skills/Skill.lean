/-
  KineticSdk.Skills.Skill

  `Skill` (`skills/skill.py`): the metadata of a skill directory, and the
  methods that read its body and its resources.
-/

import KineticSdk.Py.JsonFile
import KineticSdk.Py.Os
import KineticSdk.Py.Regex
import KineticSdk.Py.Repr
import KineticSdk.Py.Utf8
import Mathlib.Data.List.Sort
import Mathlib.Data.List.Lex
import Mathlib.Data.Nat.Basic

namespace KineticSdk
namespace Skills

open Py Os

/-- What the methods of a skill raise.  The texts of the system's own errors are
    left out. -/
inductive SkillError where
  | parse (message : PyStr)
  | traversal (message : PyStr)
  | notFound (message : PyStr)
  | vet (message : PyStr)
  | value
  | os
  | decode
deriving DecidableEq

abbrev SkillM := Except SkillError

-- ============================================================================
-- Reading files
-- ============================================================================

/-- The text of a path. -/
def pathText (path : Path) : PyStr := 47 :: join [47] path

/-- `os.path.isfile`. -/
def isFile (root : Node) (path : Path) : Bool :=
  match stat root path with
  | some (.file _) => true
  | _ => false

/-- `Path(path).read_text(encoding="utf-8")`. -/
def readText (root : Node) (path : Path) : SkillM PyStr :=
  match stat root path with
  | some (.file bytes) =>
      match utf8Decode bytes with
      | some text => .ok (universalNewlines text)
      | none => .error .decode
  | _ => .error .os

/-- `os.path.getsize`, where a directory has a size of its own that is never read. -/
def getSize (root : Node) (path : Path) : SkillM Nat :=
  match stat root path with
  | some (.file bytes) => .ok bytes.length
  | some _ => .ok 0
  | none => .error .os

/-- `os.path.relpath`, by names. -/
def relpath : Path → Path → List PyStr
  | name :: path, first :: start =>
      if name = first then relpath path start
      else List.replicate (start.length + 1) (py "..") ++ name :: path
  | path, [] => path
  | [], start => List.replicate start.length (py "..")

/-- The text of a relative path. -/
def relativeText (names : List PyStr) : PyStr := if names = [] then py "." else join [47] names

-- ============================================================================
-- Front matter
-- ============================================================================

/-- `_FRONTMATTER_KEY_RE`.  A line holds no line break, so that `$` is where `.*` ends. -/
def frontmatterKeyRe : Regex :=
  Regex.cat [
    .group 1 (.seq (.chr fun c => (65 ≤ c && c ≤ 90) || (97 ≤ c && c ≤ 122) || c == 95)
      (.star (.chr fun c => isWord c || c == 45))),
    .star (.chr isSpace), Regex.lit ":", .star (.chr isSpace),
    .group 2 (.star (.chr fun c => c != 10))]

/-- `text.splitlines()`. -/
def lines (text : PyStr) : List PyStr := (splitlines text).map (rstripWhile isLineBreak)

/-- A value without the matching quotes around it. -/
def unquote (value : PyStr) : PyStr :=
  if 2 ≤ value.length ∧ value.head? = value.getLast? ∧ (value.head? = some 39 ∨ value.head? = some 34) then
    (value.drop 1).dropLast
  else value

/-- The loop of `_split_frontmatter` over the lines behind the first one. -/
def frontmatterLoop (path : PyStr) (frontmatter : List (PyStr × PyStr)) :
    List PyStr → SkillM (List (PyStr × PyStr) × PyStr)
  | [] => .error (.parse (path ++ py ": frontmatter block is never closed ('---' missing)"))
  | line :: rest =>
      if strip line = py "---" then .ok (frontmatter, join [10] rest)
      else if strip line = [] then frontmatterLoop path frontmatter rest
      else
        match Regex.matchAt frontmatterKeyRe none line with
        | none =>
            .error (.parse (path ++ py ": unsupported frontmatter line " ++ pyReprStr line
              ++ py " (only flat 'key: value' entries are supported)"))
        | some m =>
            frontmatterLoop path (Dict.set frontmatter (m.group 1) (unquote (strip (m.group 2)))) rest

/-- `_split_frontmatter`. -/
def splitFrontmatter (text path : PyStr) : SkillM (List (PyStr × PyStr) × PyStr) :=
  match lines text with
  | first :: rest =>
      if strip first = py "---" then frontmatterLoop path [] rest
      else .error (.parse (path ++ py ": missing required frontmatter block "
        ++ py "(file must start with a '---' line)"))
  | [] => .error (.parse (path ++ py ": missing required frontmatter block "
      ++ py "(file must start with a '---' line)"))

-- ============================================================================
-- Skills
-- ============================================================================

/-- `SKILL_FILE_NAME`. -/
def skillFileName : PyStr := py "SKILL.md"

/-- `MAX_NAME_LENGTH`. -/
def maxNameLength : Nat := 64

/-- `MAX_DESCRIPTION_LENGTH`. -/
def maxDescriptionLength : Nat := 1024

/-- `RESOURCE_DIRS`. -/
def resourceDirs : List PyStr := [py "scripts", py "references", py "assets"]

/-- The types of skills. -/
inductive SkillType where
  | repo
  | knowledge
deriving DecidableEq

/-- `Skill`. -/
structure Skill where
  name : PyStr
  description : PyStr
  source : PyStr
  rootPath : Path
  version : Option PyStr := none
  type : SkillType := .repo
  triggers : List PyStr := []
deriving DecidableEq

/-- Words of lower-case letters and digits, joined by single hyphens. -/
def nameWords (name : PyStr) : Bool :=
  (splitChar 45 name).all fun word =>
    word != [] && word.all fun c => (97 ≤ c && c ≤ 122) || (48 ≤ c && c ≤ 57)

/-- `SKILL_NAME_PATTERN.match(name)`, whose `$` also stands before a last newline. -/
def skillNamePattern (name : PyStr) : Bool :=
  nameWords name || (name.getLast? == some 10 && nameWords name.dropLast)

/-- The description as `__post_init__` keeps it. -/
def truncateDescription (description source : PyStr) : PyStr :=
  if maxDescriptionLength < description.length then
    let notice := py "...[truncated, see full text at " ++ source ++ py "]"
    (if notice.length ≤ maxDescriptionLength then
        description.take (maxDescriptionLength - notice.length)
      else description.take (description.length - (notice.length - maxDescriptionLength))) ++ notice
  else description

/-- The `type` of a skill from its text. -/
def SkillType.ofText (type : PyStr) : Option SkillType :=
  if type = py "repo" then some .repo else if type = py "knowledge" then some .knowledge else none

/-- `Skill(...)`: what `__post_init__` makes of the arguments. -/
def Skill.create (root : Node) (name description source : PyStr) (rootPath : List PyStr)
    (version : Option PyStr) (type : PyStr) (triggers : List PyStr) : SkillM Skill :=
  if maxNameLength < name.length ∨ skillNamePattern name = false then
    .error (.parse (py "invalid skill name " ++ pyReprStr name
      ++ py ": must match '^[a-z0-9]+(-[a-z0-9]+)*$' and be <= 64 chars"))
  else if strip description = [] then
    .error (.parse (py "skill " ++ pyReprStr name ++ py ": description must be non-empty"))
  else
    match SkillType.ofText type with
    | none =>
        .error (.parse (py "skill " ++ pyReprStr name ++ py ": type must be 'repo' or 'knowledge'"))
    | some type =>
        .ok ⟨name, truncateDescription description source, source, (realpath root rootPath).path, version,
          type, triggers⟩

/-- `Skill.from_directory`. -/
def Skill.fromDirectory (root : Node) (directory : List PyStr) (source : PyStr) : SkillM Skill :=
  let directory := (realpath root directory).path
  let skillMd := directory ++ [skillFileName]
  if isFile root skillMd then do
    let text ← readText root skillMd
    let (frontmatter, _) ← splitFrontmatter text (pathText skillMd)
    let name := (Dict.get? frontmatter (py "name")).getD []
    let dirname := directory.getLastD []
    if name ≠ dirname then
      throw (.parse (pathText skillMd ++ py ": frontmatter name " ++ pyReprStr name
        ++ py " does not match directory name " ++ pyReprStr dirname))
    Skill.create root name ((Dict.get? frontmatter (py "description")).getD []) source directory
      ((Dict.get? frontmatter (py "version")).bind fun version => if version = [] then none else some version)
      ((Dict.get? frontmatter (py "type")).getD (py "repo"))
      (((splitChar 44 ((Dict.get? frontmatter (py "triggers")).getD [])).map strip).filter (· ≠ []))
  else .error (.parse (pathText directory ++ py ": missing required SKILL.md"))

/-- `Skill.read_main`. -/
def Skill.readMain (root : Node) (skill : Skill) : SkillM PyStr :=
  let path := skill.rootPath ++ [skillFileName]
  if isFile root path then do
    let text ← readText root path
    let (_, body) ← splitFrontmatter text (pathText path)
    return strip body
  else
    .error (.parse (py "skill " ++ pyReprStr skill.name ++ py ": SKILL.md is not readable at "
      ++ pyReprStr (pathText path) ++ py " (the skill directory may have been removed — e.g. its "
      ++ py "ZipSkillLoader was closed)"))

/-- `Workspace(self.root_path)`: its canonical root. -/
def openWorkspace (root : Node) (rootPath : Path) : SkillM Path :=
  let path := (realpath root rootPath).path
  if isDir root path then .ok path else .error .value

/-- `Workspace.list_files()`. -/
def listFiles (root : Node) (workspace : Path) : List PyStr :=
  match stat root workspace with
  | some node =>
      ((walk root workspace node).map fun path => relativeText (relpath path workspace)).insertionSort
        (· ≤ ·)
  | none => []

/-- `any(path.startswith(f"{d}/") for d in RESOURCE_DIRS)`. -/
def inResourceDirs (path : PyStr) : Bool :=
  resourceDirs.any fun dir => startsWith (dir ++ [47]) path

/-- `Skill.list_resources()`. -/
def Skill.listResources (root : Node) (skill : Skill) : SkillM (List PyStr) := do
  let workspace ← openWorkspace root skill.rootPath
  return (listFiles root workspace).filter inResourceDirs

/-- `Workspace.resolve`. -/
def resolvePath (root : Node) (workspace : Path) (relativePath : PyStr) : SkillM Path :=
  let candidate := (realpath root (joinPath workspace relativePath)).path
  if workspace <+: candidate then .ok candidate
  else
    .error (.traversal (py "path " ++ pyReprStr relativePath ++ py " resolves outside the workspace root "
      ++ pyReprStr (pathText workspace)))

/-- `Skill.read_resource`. -/
def Skill.readResource (root : Node) (skill : Skill) (relativePath : PyStr) : SkillM PyStr := do
  let workspace ← openWorkspace root skill.rootPath
  let resolved ← resolvePath root workspace relativePath
  if inResourceDirs (relativeText (relpath resolved skill.rootPath)) = false then
    throw (.traversal (py "resource path " ++ pyReprStr relativePath ++ py " is outside the resource "
      ++ py "directories ('scripts', 'references', 'assets') of skill " ++ pyReprStr skill.name))
  if isFile root resolved = false then
    throw (.notFound (py "resource " ++ pyReprStr relativePath ++ py " not found in skill "
      ++ pyReprStr skill.name))
  readText root resolved

end Skills
end KineticSdk
