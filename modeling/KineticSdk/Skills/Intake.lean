/-
  KineticSdk.Skills.Intake

  `add_skill_from_zip` (`skills/__init__.py`).

  Each skill of an archive is vetted, copied, read again and registered.  The
  registry keeps the first skill of a name without a word, and by then the copy
  is made: a skill whose name is taken is returned though it is not the one
  registered, and a copy that breaks off, or whose directory does not have the
  skill's name, stays behind (`consistent_iff`).
-/

import KineticSdk.Py.MakeDirs
import KineticSdk.Skills.Registry

namespace KineticSdk
namespace Skills

open Py Os

-- ============================================================================
-- The intake of one skill
-- ============================================================================

/-- What `add_skill_from_zip` raises.  The texts of the system's own errors are left out. -/
inductive IntakeError where
  | skill (e : SkillError)
  | fileExists (message : PyStr)
  | os
deriving DecidableEq

/-- What an intake changes: the registry and the file tree. -/
structure Store where
  registry : Registry
  fs : Node

/-- The call: the tree as it is when the archive has been extracted, the skills found in it,
    the root of the `Workspace` of `persist_dir`, what the judge model finds in each skill,
    if there is one, and the entries that stand at a destination when `copytree` breaks off
    there.  A skill is what `Skill.from_directory` makes of its directory, and the directory
    has no links, since none are extracted.  Nothing is written below the temporary
    directory, so skills are read from the tree of the archive throughout. -/
structure Intake where
  archive : Node
  skills : List Skill
  persist : Path
  review : Skill → Option VetResult
  raiseOnCritical : Bool
  fault : Path → Option (List (PyStr × Node))
  found : ∀ d ∈ skills, Skill.fromDirectory archive d.rootPath (py "zip") = .ok d
  linkless : ∀ d ∈ skills, Linkless archive d.rootPath
  extracted : ∀ d ∈ skills, ∃ listable entries,
    lstat archive d.rootPath = some (.dir listable entries) ∧ linksIn entries = 0
  persistPlain : PlainPath persist

/-- What happens to one skill: its vet result, if the vetting returns one, the persistent
    skill that is accepted, `none` where it is skipped, and the store before and after. -/
structure Entry where
  skill : Skill
  before : Store
  vet : Option VetResult
  result : Except IntakeError (Option Skill)
  after : Store

/-- `shutil.copytree(source, destination)`, of a directory without links. -/
def copyTree (archive fs : Node) (source destination : Path) : Option Node :=
  (lstat archive source).bind (graft fs destination)

namespace Intake

variable (x : Intake)

/-- The body of the loop of `add_skill_from_zip`. -/
def takeIn (store : Store) (discovered : Skill) : Entry :=
  match vetSkill x.archive discovered (x.review discovered) x.raiseOnCritical with
  | .error e => ⟨discovered, store, none, .error (.skill e), store⟩
  | .ok vetResult =>
      if vetResult.clean = false then ⟨discovered, store, some vetResult, .ok none, store⟩
      else
        match resolvePath store.fs x.persist discovered.name with
        | .error e => ⟨discovered, store, some vetResult, .error (.skill e), store⟩
        | .ok destination =>
            if (stat store.fs destination).isSome then
              ⟨discovered, store, some vetResult, .error (.fileExists (py "cannot accept skill "
                ++ pyReprStr discovered.name ++ py ": " ++ pyReprStr (pathText destination)
                ++ py " already exists — remove the old copy first if you meant to update it")), store⟩
            else
              match x.fault destination with
              | some part =>
                  ⟨discovered, store, some vetResult, .error .os,
                    ⟨store.registry, (graft store.fs destination (.dir true part)).getD store.fs⟩⟩
              | none =>
                  match copyTree x.archive store.fs discovered.rootPath destination with
                  | none => ⟨discovered, store, some vetResult, .error .os, store⟩
                  | some fs =>
                      match Skill.fromDirectory fs destination discovered.source with
                      | .error e => ⟨discovered, store, some vetResult, .error (.skill e), ⟨store.registry, fs⟩⟩
                      | .ok persistent =>
                          match store.registry.add persistent (some vetResult) with
                          | .error e =>
                              ⟨discovered, store, some vetResult, .error (.skill e), ⟨store.registry, fs⟩⟩
                          | .ok registry =>
                              ⟨discovered, store, some vetResult, .ok (some persistent), ⟨registry, fs⟩⟩

/-- The loop, which an exception ends. -/
def takeAll (store : Store) : List Skill → List Entry
  | [] => []
  | discovered :: rest =>
      let entry := x.takeIn store discovered
      entry :: match entry.result with
        | .error _ => []
        | .ok _ => takeAll entry.after rest

/-- The store in the end. -/
def afterAll (store : Store) (entries : List Entry) : Store := entries.foldl (fun _ entry => entry.after) store

/-- `add_skill_from_zip`, from where the archive has been extracted. -/
def addSkillFromZip (store : Store) : Except IntakeError (List Skill) × Store :=
  let entries := x.takeAll store x.skills
  (match entries.mapM fun entry => entry.result with
    | .error e => .error e
    | .ok accepted => .ok (accepted.filterMap id), afterAll store entries)

end Intake

-- ============================================================================
-- Reading a copy
-- ============================================================================

section Copy

variable {archive fs : Node} {source dest : Path} {d : Skill} {label : PyStr}

/-- The path of a document is in its errors only. -/
theorem frontmatterLoop_ok (path path' : PyStr) {frontmatter : List (PyStr × PyStr)} {rest : List PyStr}
    {r : List (PyStr × PyStr) × PyStr} (h : frontmatterLoop path frontmatter rest = .ok r) :
    frontmatterLoop path' frontmatter rest = .ok r := by
  induction rest generalizing frontmatter with
  | nil => cases h
  | cons line rest ih =>
      rw [frontmatterLoop] at h ⊢
      by_cases hend : strip line = py "---"
      · rw [if_pos hend] at h ⊢
        exact h
      rw [if_neg hend] at h ⊢
      by_cases hblank : strip line = []
      · rw [if_pos hblank] at h ⊢
        exact ih h
      rw [if_neg hblank] at h ⊢
      cases hmatch : Regex.matchAt frontmatterKeyRe none line with
      | none =>
          rw [hmatch] at h
          cases h
      | some m =>
          rw [hmatch] at h
          exact ih h

theorem splitFrontmatter_ok {text path : PyStr} (path' : PyStr) {r : List (PyStr × PyStr) × PyStr}
    (h : splitFrontmatter text path = .ok r) : splitFrontmatter text path' = .ok r := by
  rw [splitFrontmatter] at h ⊢
  cases hlines : lines text with
  | nil =>
      rw [hlines] at h
      cases h
  | cons first rest =>
      rw [hlines] at h
      dsimp only at h ⊢
      by_cases hstart : strip first = py "---"
      · rw [if_pos hstart] at h ⊢
        exact frontmatterLoop_ok path path' h
      · rw [if_neg hstart] at h
        cases h

/-- The same arguments make the same skill at another place. -/
theorem create_ok {root : Node} {name description type : PyStr} {rootPath : List PyStr} {version : Option PyStr}
    {triggers : List PyStr} (h : Skill.create root name description label rootPath version type triggers = .ok d) :
    d.name = name ∧ d.source = label ∧ ∀ root' rootPath',
      Skill.create root' name description label rootPath' version type triggers
        = .ok { d with rootPath := (realpath root' rootPath').path } := by
  rw [Skill.create] at h
  by_cases hname : maxNameLength < name.length ∨ skillNamePattern name = false
  · rw [if_pos hname] at h
    cases h
  rw [if_neg hname] at h
  by_cases hdescription : strip description = []
  · rw [if_pos hdescription] at h
    cases h
  rw [if_neg hdescription] at h
  cases htype : SkillType.ofText type with
  | none =>
      rw [htype] at h
      cases h
  | some kind =>
      rw [htype] at h
      cases h
      refine ⟨rfl, rfl, fun root' rootPath' => ?_⟩
      rw [Skill.create, if_neg hname, if_neg hdescription, htype]

/-- A copy of a skill's directory is read as the skill where the directory has its name, and
    refused elsewhere. -/
theorem fromDirectory_copy (h : Skill.fromDirectory archive source label = .ok d)
    (hsource : Linkless archive source) (hsourceFile : Linkless archive (source ++ [skillFileName]))
    (hdest : Linkless fs dest) (hdestFile : Linkless fs (dest ++ [skillFileName]))
    (hsame : lstat fs (dest ++ [skillFileName]) = lstat archive (source ++ [skillFileName])) :
    d.source = label ∧
      (dest.getLastD [] = d.name → Skill.fromDirectory fs dest label = .ok { d with rootPath := dest }) ∧
      (dest.getLastD [] ≠ d.name → ∃ e, Skill.fromDirectory fs dest label = .error e) := by
  have hstat : stat fs (dest ++ [skillFileName]) = stat archive (source ++ [skillFileName]) := by
    rw [stat_of_linkless hdestFile, stat_of_linkless hsourceFile, hsame]
  rw [Skill.fromDirectory, realpath_of_linkless hsource] at h
  rw [Skill.fromDirectory, realpath_of_linkless hdest]
  dsimp only at h ⊢
  have hfile : isFile fs (dest ++ [skillFileName]) = isFile archive (source ++ [skillFileName]) := by
    rw [isFile, isFile, hstat]
  have htext : readText fs (dest ++ [skillFileName]) = readText archive (source ++ [skillFileName]) := by
    rw [readText, readText, hstat]
  rw [hfile, htext]
  by_cases hisFile : isFile archive (source ++ [skillFileName]) = true
  case neg =>
    rw [if_neg hisFile] at h
    cases h
  rw [if_pos hisFile] at h ⊢
  obtain ⟨text, hread, h⟩ := Lib.bind_ok h
  obtain ⟨⟨frontmatter, body⟩, hsplit, h⟩ := Lib.bind_ok h
  have hsplit' := splitFrontmatter_ok (pathText (dest ++ [skillFileName])) hsplit
  dsimp only at h
  by_cases hdirname : (Dict.get? frontmatter (py "name")).getD [] ≠ source.getLastD []
  · rw [if_pos hdirname] at h
    cases h
  rw [if_neg hdirname] at h
  obtain ⟨hname, hlabel, hcreate⟩ := create_ok h
  refine ⟨hlabel, fun hlast => ?_, fun hlast => ?_⟩
  · rw [hread]
    show (splitFrontmatter text (pathText (dest ++ [skillFileName])) >>= _) = _
    rw [hsplit']
    show (if (Dict.get? frontmatter (py "name")).getD [] ≠ dest.getLastD [] then _ else _) = _
    rw [if_neg (not_not_intro (hname.symm.trans hlast.symm))]
    rw [hcreate fs dest, realpath_of_linkless hdest]
  · rw [hread]
    show ∃ e, (splitFrontmatter text (pathText (dest ++ [skillFileName])) >>= _) = _
    rw [hsplit']
    show ∃ e, (if (Dict.get? frontmatter (py "name")).getD [] ≠ dest.getLastD [] then _ else _) = _
    rw [if_pos fun heq => hlast (heq.symm.trans hname.symm)]
    exact ⟨_, rfl⟩

end Copy

-- ============================================================================
-- What one intake comes to
-- ============================================================================

namespace Intake

variable (x : Intake)

/-- The skill passes the vetting, and its destination is free and can be made. -/
def Ready (store : Store) (d : Skill) (dest : Path) : Prop :=
  (∃ vetResult, vetSkill x.archive d (x.review d) x.raiseOnCritical = .ok vetResult ∧ vetResult.clean = true) ∧
    resolvePath store.fs x.persist d.name = .ok dest ∧ stat store.fs dest = none ∧
    (graft store.fs dest (.dir true [])).isSome = true

/-- A skill that is copied: the copy does not break off, the destination has the name of the
    skill, and no other skill is registered under that name. -/
def Undisturbed (store : Store) (d : Skill) : Prop :=
  ∀ dest, x.Ready store d dest → x.fault dest = none ∧ dest.getLastD [] = d.name ∧
    (Dict.get? store.registry d.name = none ∨
      Dict.get? store.registry d.name = some { d with rootPath := dest })

variable {x} {store : Store} {d : Skill} {dest : Path} {fs : Node}

theorem Ready.eq {dest' : Path} (h : x.Ready store d dest) (h' : x.Ready store d dest') : dest = dest' :=
  Except.ok.inj (h.2.1.symm.trans h'.2.1)

theorem resolvePath_within {root : Node} {workspace : Path} {name : PyStr} (h : resolvePath root workspace name = .ok dest) :
    workspace <+: dest ∧ dest = (realpath root (joinPath workspace name)).path := by
  rw [resolvePath] at h
  by_cases hin : workspace <+: (realpath root (joinPath workspace name)).path
  · rw [if_pos hin] at h
    cases h
    exact ⟨hin, rfl⟩
  · rw [if_neg hin] at h
    cases h

theorem Ready.within (h : x.Ready store d dest) : x.persist <+: dest ∧ PlainPath dest := by
  obtain ⟨hin, heq⟩ := resolvePath_within h.2.1
  refine ⟨hin, ?_⟩
  rw [heq]
  exact realpath_plain _ (joinPath_noSlash x.persistPlain)

/-- What a clean skill is registered as: the first of its name stays. -/
theorem add_clean {registry : Registry} {skill : Skill} {vetResult : VetResult} (h : vetResult.clean = true) :
    registry.add skill (some vetResult)
      = .ok (if (Dict.get? registry skill.name).isSome then registry else Dict.set registry skill.name skill) := by
  have hclean : ¬ vetResult.clean = false := by rw [h]; exact fun h => nomatch h
  rw [Registry.add]
  by_cases hlocal : skill.source ≠ py "local"
  · rw [if_pos hlocal]
    dsimp only
    rw [if_neg hclean]
    by_cases hknown : (Dict.get? registry skill.name).isSome = true
    · rw [if_pos hknown, if_pos hknown]
      rfl
    · rw [if_neg hknown, if_neg hknown]
      rfl
  · rw [if_neg hlocal]
    by_cases hknown : (Dict.get? registry skill.name).isSome = true
    · rw [if_pos hknown, if_pos hknown]
      rfl
    · rw [if_neg hknown, if_neg hknown]
      rfl

/-- The copy of a skill is read as the skill where its directory has the name. -/
theorem fromDirectory_graft (hd : d ∈ x.skills) (hready : x.Ready store d dest)
    (hcopy : copyTree x.archive store.fs d.rootPath dest = some fs) :
    (dest.getLastD [] = d.name → Skill.fromDirectory fs dest d.source = .ok { d with rootPath := dest }) ∧
      (dest.getLastD [] ≠ d.name → ∃ e, Skill.fromDirectory fs dest d.source = .error e) ∧ IsDirAt fs dest := by
  obtain ⟨listable, entries, hdir, hlinks⟩ := x.extracted d hd
  rw [copyTree, hdir] at hcopy
  replace hcopy : graft store.fs dest (.dir listable entries) = some fs := hcopy
  have hplain : Plain skillFileName := by decide
  have hfile : PlainPath [skillFileName] := fun n hn => by rw [List.mem_singleton.mp hn]; exact hplain
  have hat : ∀ rest, lstat x.archive (d.rootPath ++ rest) = lstat (.dir listable entries) rest := by
    intro rest
    rw [lstat_append, hdir]
    rfl
  have hsourceFile : Linkless x.archive (d.rootPath ++ [skillFileName]) := by
    refine (x.linkless d hd).snoc hplain fun target hlink => ?_
    rw [hat] at hlink
    have hpos := links_pos hlink
    replace hpos : 0 < linksIn entries := hpos
    omega
  have hdest : Linkless fs (dest ++ []) :=
    linkless_graft hcopy hlinks hready.within.2 fun n hn => absurd hn List.not_mem_nil
  rw [List.append_nil] at hdest
  have hdestFile := linkless_graft hcopy hlinks hready.within.2 hfile
  have hhere := lstat_graft hcopy []
  rw [List.append_nil] at hhere
  obtain ⟨hlabel, hread, hrefused⟩ := fromDirectory_copy (x.found d hd) (x.linkless d hd) hsourceFile hdest hdestFile
    ((lstat_graft hcopy _).trans (hat _).symm)
  have hzip := congrArg (Skill.fromDirectory fs dest) hlabel
  refine ⟨fun hname => hzip.trans (hread hname), fun hname => ?_, listable, entries, hhere⟩
  obtain ⟨e, he⟩ := hrefused hname
  exact ⟨e, hzip.trans he⟩

/-- What an intake comes to: nothing is changed; or a copy is left behind; or the skill is
    accepted, and registered unless its name is taken. -/
theorem takeIn_cases (hd : d ∈ x.skills) :
    (x.Undisturbed store d ∧ (x.takeIn store d).after = store ∧ ∀ p, (x.takeIn store d).result ≠ .ok (some p)) ∨
    (∃ dest, x.Ready store d dest ∧ (x.fault dest ≠ none ∨ dest.getLastD [] ≠ d.name) ∧
      (x.takeIn store d).after.registry = store.registry ∧ IsDirAt (x.takeIn store d).after.fs dest ∧
      ∀ p, (x.takeIn store d).result ≠ .ok (some p)) ∨
    (∃ dest vetResult, x.Ready store d dest ∧ x.fault dest = none ∧ dest.getLastD [] = d.name ∧
      (x.takeIn store d).vet = some vetResult ∧ vetResult.clean = true ∧
      (x.takeIn store d).result = .ok (some { d with rootPath := dest }) ∧
      (x.takeIn store d).after.registry = if (Dict.get? store.registry d.name).isSome then store.registry
        else Dict.set store.registry d.name { d with rootPath := dest }) := by
  have hno : ∀ {e : IntakeError} p, (.error e : Except IntakeError (Option Skill)) ≠ .ok (some p) := fun p h => nomatch h
  rw [takeIn]
  cases hvet : vetSkill x.archive d (x.review d) x.raiseOnCritical with
  | error e =>
      refine .inl ⟨fun dest hready => ?_, rfl, hno⟩
      obtain ⟨⟨vetResult, hok, -⟩, -⟩ := hready
      rw [hvet] at hok
      cases hok
  | ok vetResult =>
  dsimp only
  by_cases hclean : vetResult.clean = false
  · rw [if_pos hclean]
    refine .inl ⟨fun dest hready => ?_, rfl, fun p h => nomatch h⟩
    obtain ⟨⟨vetResult', hok, hclean'⟩, -⟩ := hready
    rw [hvet] at hok
    cases hok
    rw [hclean] at hclean'
    cases hclean'
  rw [if_neg hclean]
  cases hresolve : resolvePath store.fs x.persist d.name with
  | error e =>
      refine .inl ⟨fun dest hready => ?_, rfl, hno⟩
      have hok := hready.2.1
      rw [hresolve] at hok
      cases hok
  | ok dest =>
  dsimp only
  by_cases hexists : (stat store.fs dest).isSome = true
  · rw [if_pos hexists]
    refine .inl ⟨fun dest' hready => ?_, rfl, hno⟩
    obtain ⟨-, hok, hnone, -⟩ := hready
    rw [hresolve] at hok
    cases hok
    rw [hnone] at hexists
    cases hexists
  rw [if_neg hexists]
  have hfree : stat store.fs dest = none := Option.not_isSome_iff_eq_none.mp hexists
  have hpasses : vetResult.clean = true := by simpa using hclean
  -- without room for the copy nothing happens
  have hroom : (graft store.fs dest (.dir true [])).isSome = false → x.Undisturbed store d := by
    intro hnone dest' hready
    obtain ⟨-, hok, -, hsome⟩ := hready
    rw [hresolve] at hok
    cases hok
    rw [hnone] at hsome
    cases hsome
  have hready : ∀ {new fs : Node}, graft store.fs dest new = some fs → x.Ready store d dest := by
    intro new fs hgraft
    refine ⟨⟨vetResult, hvet, hpasses⟩, hresolve, hfree, ?_⟩
    rw [graft_isSome_congr _ _ _ new, hgraft]
    rfl
  have hnoRoom : ∀ {new : Node}, graft store.fs dest new = none → x.Undisturbed store d := by
    intro new hgraft
    refine hroom ?_
    rw [graft_isSome_congr _ _ _ new, hgraft]
    rfl
  cases hfault : x.fault dest with
  | some part =>
      dsimp only
      cases hgraft : graft store.fs dest (.dir true part) with
      | none => exact .inl ⟨hnoRoom hgraft, rfl, hno⟩
      | some fs =>
          have hhere := lstat_graft hgraft []
          rw [List.append_nil] at hhere
          refine .inr (.inl ⟨dest, hready hgraft, .inl (by rw [hfault]; exact fun h => nomatch h), rfl, ?_, hno⟩)
          exact ⟨true, part, hhere⟩
  | none =>
  dsimp only
  obtain ⟨listable, entries, hdir, -⟩ := x.extracted d hd
  have hcopied : copyTree x.archive store.fs d.rootPath dest = graft store.fs dest (.dir listable entries) := by
    rw [copyTree, hdir]
    rfl
  cases hcopy : copyTree x.archive store.fs d.rootPath dest with
  | none => exact .inl ⟨hnoRoom (hcopied.symm.trans hcopy), rfl, hno⟩
  | some fs =>
      have hcopyReady := hready (hcopied.symm.trans hcopy)
      obtain ⟨hread, hrefused, hmade⟩ := fromDirectory_graft hd hcopyReady hcopy
      dsimp only
      by_cases hname : dest.getLastD [] = d.name
      · rw [hread hname]
        dsimp only
        rw [add_clean hpasses]
        exact .inr (.inr ⟨dest, vetResult, hcopyReady, hfault, hname, rfl, hpasses, rfl, rfl⟩)
      · obtain ⟨e, he⟩ := hrefused hname
        rw [he]
        exact .inr (.inl ⟨dest, hcopyReady, .inr hname, rfl, hmade, hno⟩)

-- ============================================================================
-- Whole archives
-- ============================================================================

theorem takeIn_before (store : Store) (d : Skill) :
    (x.takeIn store d).before = store ∧ (x.takeIn store d).skill = d := by
  rw [takeIn]
  repeat' split
  all_goals exact ⟨rfl, rfl⟩

/-- A registered skill stays registered as it is. -/
theorem takeIn_keeps (hd : d ∈ x.skills) {name : PyStr} {skill : Skill}
    (h : Dict.get? store.registry name = some skill) :
    Dict.get? (x.takeIn store d).after.registry name = some skill := by
  rcases takeIn_cases hd with ⟨-, hafter, -⟩ | ⟨dest, -, -, hregistry, -⟩ | ⟨dest, -, -, -, -, -, -, -, hregistry⟩
  · rw [hafter]
    exact h
  · rw [hregistry]
    exact h
  · rw [hregistry]
    by_cases hknown : (Dict.get? store.registry d.name).isSome = true
    · rw [if_pos hknown]
      exact h
    · rw [if_neg hknown, Dict.get?_set_of_ne _ _ fun heq => hknown (by rw [heq, h]; rfl)]
      exact h

theorem takeAll_keeps {ds : List Skill} (hds : ∀ d ∈ ds, d ∈ x.skills) {name : PyStr} {skill : Skill}
    (h : Dict.get? store.registry name = some skill) :
    Dict.get? (afterAll store (x.takeAll store ds)).registry name = some skill := by
  induction ds generalizing store with
  | nil => exact h
  | cons d ds ih =>
      have hnext := takeIn_keeps (hds d (List.mem_cons_self ..)) h
      rw [takeAll]
      split
      · exact hnext
      · exact ih (fun d' hd' => hds d' (List.mem_cons_of_mem _ hd')) hnext

/-- An entry of the loop is the intake of its skill, and what is registered then stays. -/
theorem mem_takeAll {ds : List Skill} (hds : ∀ d ∈ ds, d ∈ x.skills) {e : Entry} (h : e ∈ x.takeAll store ds) :
    e.skill ∈ x.skills ∧ e = x.takeIn e.before e.skill ∧ ∀ name skill,
      Dict.get? e.after.registry name = some skill →
        Dict.get? (afterAll store (x.takeAll store ds)).registry name = some skill := by
  induction ds generalizing store with
  | nil => cases h
  | cons d ds ih =>
      have hd := hds d (List.mem_cons_self ..)
      have hrest : ∀ d' ∈ ds, d' ∈ x.skills := fun d' hd' => hds d' (List.mem_cons_of_mem _ hd')
      obtain ⟨hbefore, hskill⟩ := @takeIn_before x store d
      rw [takeAll] at h ⊢
      rcases List.mem_cons.mp h with rfl | hlater
      · rw [hbefore, hskill]
        refine ⟨hd, rfl, fun name skill hregistered => ?_⟩
        split
        · exact hregistered
        · exact takeAll_keeps hrest hregistered
      · cases hresult : (x.takeIn store d).result with
        | error e' =>
            rw [hresult] at hlater
            cases hlater
        | ok accepted =>
            rw [hresult] at hlater
            exact ih hrest hlater

/-- What is returned are the skills that the loop accepts. -/
theorem mem_addSkillFromZip {accepted : List Skill} (h : (x.addSkillFromZip store).1 = .ok accepted) {p : Skill} :
    p ∈ accepted ↔ ∃ e ∈ x.takeAll store x.skills, e.result = .ok (some p) := by
  rw [addSkillFromZip] at h
  dsimp only at h
  cases hall : (x.takeAll store x.skills).mapM fun entry => entry.result with
  | error e =>
      rw [hall] at h
      cases h
  | ok results =>
      rw [hall] at h
      cases h
      have hbeside : results.map (Except.ok (ε := IntakeError)) = (x.takeAll store x.skills).map Entry.result :=
        Lib.Traverse.mapM_map_eq Eq.symm hall
      have hsome : some p ∈ results ↔ .ok (some p) ∈ (x.takeAll store x.skills).map Entry.result := by
        rw [← hbeside, List.mem_map_of_injective fun _ _ => Except.ok.inj]
      calc p ∈ results.filterMap id ↔ some p ∈ results := by simp
        _ ↔ .ok (some p) ∈ (x.takeAll store x.skills).map Entry.result := hsome
        _ ↔ ∃ e ∈ x.takeAll store x.skills, e.result = .ok (some p) := List.mem_map

/-- Only clean skills are registered; a skill that is returned is the one registered under its
    name in the end and lies under the persist directory; and one that is skipped or
    fails leaves neither a registration nor a new directory there. -/
structure Consistent (x : Intake) (store : Store) : Prop where
  clean : ∀ e ∈ x.takeAll store x.skills, e.after.registry ≠ e.before.registry →
    ∃ vetResult, e.vet = some vetResult ∧ vetResult.clean = true
  returned : ∀ e ∈ x.takeAll store x.skills, ∀ p, e.result = .ok (some p) →
    Dict.get? (afterAll store (x.takeAll store x.skills)).registry p.name = some p ∧ x.persist <+: p.rootPath
  passed : ∀ e ∈ x.takeAll store x.skills, (∀ p, e.result ≠ .ok (some p)) →
    e.after.registry = e.before.registry ∧
      ∀ path, x.persist <+: path → IsDirAt e.after.fs path → IsDirAt e.before.fs path

/-- Nothing stands where a copy can be made. -/
theorem Ready.not_isDirAt (h : x.Ready store d dest) : ¬ IsDirAt store.fs dest := by
  rintro ⟨listable, entries, hdir⟩
  obtain ⟨fs, hgraft⟩ := Option.isSome_iff_exists.mp h.2.2.2
  rw [lstat_of_graft hgraft] at hdir
  cases hdir

/-- An intake is consistent exactly when every skill that comes to be copied is undisturbed. -/
theorem consistent_iff (x : Intake) (store : Store) :
    Consistent x store ↔ ∀ e ∈ x.takeAll store x.skills, x.Undisturbed e.before e.skill := by
  have hall : ∀ d ∈ x.skills, d ∈ x.skills := fun _ h => h
  constructor
  · intro h e he
    obtain ⟨hd, heq, hkeeps⟩ := mem_takeAll hall he
    have hpassed := h.passed e he
    have hreturned := h.returned e he
    rw [heq] at hpassed hreturned hkeeps
    obtain ⟨hbefore, -⟩ := @takeIn_before x e.before e.skill
    rw [hbefore] at hpassed
    rcases takeIn_cases hd with ⟨hundisturbed, -⟩ | ⟨dest, hready, -, -, hdir, hnone⟩ |
      ⟨dest, vetResult, hready, hfault, hname, -, -, hresult, -⟩
    · exact hundisturbed
    · exact absurd ((hpassed hnone).2 dest hready.within.1 hdir) hready.not_isDirAt
    · intro dest' hready'
      obtain rfl := hready.eq hready'
      refine ⟨hfault, hname, ?_⟩
      cases hknown : Dict.get? e.before.registry e.skill.name with
      | none => exact .inl rfl
      | some skill =>
          have hfinal := hkeeps _ _ (takeIn_keeps hd hknown)
          have hmine : Dict.get? (afterAll store (x.takeAll store x.skills)).registry e.skill.name = _ :=
            (hreturned _ hresult).1
          rw [hfinal] at hmine
          exact .inr hmine
  · intro h
    refine ⟨fun e he hchanged => ?_, fun e he p hp => ?_, fun e he hnone => ?_⟩
    · obtain ⟨hd, heq, -⟩ := mem_takeAll hall he
      obtain ⟨hbefore, -⟩ := @takeIn_before x e.before e.skill
      rcases takeIn_cases hd with ⟨-, hafter, -⟩ | ⟨dest, -, -, hregistry, -⟩ |
        ⟨dest, vetResult, -, -, -, hvet, hclean, -⟩
      · rw [← heq] at hafter
        exact absurd (congrArg Store.registry hafter) hchanged
      · rw [← heq] at hregistry
        exact absurd hregistry hchanged
      · rw [← heq] at hvet
        exact ⟨vetResult, hvet, hclean⟩
    · obtain ⟨hd, heq, hkeeps⟩ := mem_takeAll hall he
      rcases takeIn_cases hd with ⟨-, -, hnone⟩ | ⟨dest, -, -, -, -, hnone⟩ |
        ⟨dest, vetResult, hready, -, -, -, -, hresult, hregistry⟩
      · rw [← heq] at hnone
        exact absurd hp (hnone p)
      · rw [← heq] at hnone
        exact absurd hp (hnone p)
      · rw [← heq] at hresult hregistry
        rw [hresult] at hp
        cases hp
        refine ⟨hkeeps _ _ ?_, hready.within.1⟩
        rw [hregistry]
        rcases (h e he dest hready).2.2 with hfree | hmine
        · rw [hfree]
          exact Dict.get?_set_self ..
        · rw [hmine]
          exact hmine
    · obtain ⟨hd, heq, -⟩ := mem_takeAll hall he
      rcases takeIn_cases hd with ⟨-, hafter, -⟩ | ⟨dest, hready, hbroken, -⟩ | ⟨dest, vetResult, -, -, -, -, -, hresult, -⟩
      · rw [← heq] at hafter
        rw [hafter]
        exact ⟨rfl, fun _ _ hdir => hdir⟩
      · obtain ⟨hfault, hname, -⟩ := h e he dest hready
        rcases hbroken with hbroken | hbroken
        · exact absurd hfault hbroken
        · exact absurd hname hbroken
      · rw [← heq] at hresult
        exact absurd hresult (hnone _)

/-- `/t/a` is a skill, and `/p` is empty. -/
def archiveTree : Node :=
  .dir true [(py "t", .dir true [(py "a", .dir true [(py "SKILL.md", .file (py "---\nname: a\ndescription: d\n---\n"))])]),
    (py "p", .dir true [])]

/-- The skill at `/t/a`. -/
def archivedSkill : Skill := ⟨py "a", py "d", py "zip", [py "t", py "a"], none, .repo, []⟩

/-- An archive with this skill, to be kept under `/p`. -/
def archiveIntake : Intake where
  archive := archiveTree
  skills := [archivedSkill]
  persist := [py "p"]
  review := fun _ => none
  raiseOnCritical := true
  fault := fun _ => none
  found := by
    intro d hd
    rw [List.mem_singleton.mp hd]
    decide +kernel
  linkless := by
    intro d hd
    rw [List.mem_singleton.mp hd]
    exact linkless_of_links rfl (by decide)
  extracted := by
    intro d hd
    rw [List.mem_singleton.mp hd]
    exact ⟨true, _, rfl, rfl⟩
  persistPlain := by
    intro name hname
    rw [List.mem_singleton.mp hname]
    decide

/-- A registry that has another skill of that name. -/
def takenStore : Store :=
  ⟨[(py "a", ⟨py "a", py "o", py "local", [py "q", py "a"], none, .repo, []⟩)], archiveTree⟩

/-- Where another skill has the name, the skill returned is not the one registered. -/
theorem taken_name_returned : ¬ Consistent archiveIntake takenStore := by
  intro h
  have hresults : (archiveIntake.takeAll takenStore archiveIntake.skills).map Entry.result
      = [.ok (some { archivedSkill with rootPath := [py "p", py "a"] })] := by decide +kernel
  have hfinal : Dict.get? (afterAll takenStore (archiveIntake.takeAll takenStore archiveIntake.skills)).registry (py "a")
      = some ⟨py "a", py "o", py "local", [py "q", py "a"], none, .repo, []⟩ := by decide +kernel
  obtain ⟨e, he, hresult⟩ : ∃ e ∈ archiveIntake.takeAll takenStore archiveIntake.skills,
      e.result = .ok (some { archivedSkill with rootPath := [py "p", py "a"] }) :=
    List.mem_map.mp (by rw [hresults]; exact List.mem_singleton_self _)
  have hregistered : Dict.get? (afterAll takenStore (archiveIntake.takeAll takenStore archiveIntake.skills)).registry
      (py "a") = _ := (h.returned e he _ hresult).1
  rw [hfinal] at hregistered
  cases hregistered

end Intake

end Skills
end KineticSdk
