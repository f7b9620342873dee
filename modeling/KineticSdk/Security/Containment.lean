/-
  KineticSdk.Security.Containment

  What a path rule matches (`security/policy.py`, `_path_matches_prefix`).

  A relative path climbs some directories and then names others below; that
  pair decides both what the normal form looks like and where the path leads
  from a base directory (`climb`).  The comparison of normal forms is textual,
  but on texts joined from names without slashes it is the prefix order on the
  names, so the two meanings can be compared name by name.  They part in two
  places only: below a prefix that just climbs, and at names that begin with
  two dots.
-/

import KineticSdk.Security.Policy
import KineticSdk.Py.Occurs

namespace KineticSdk
namespace Security

open Py

-- ============================================================================
-- What a rule should match
-- ============================================================================

/-- `posixpath.isabs`. -/
def isabs (path : PyStr) : Bool := startsWith (py "/") path

/-- The names of the normal form of an absolute path. -/
def absNames (path : PyStr) : List PyStr := normComps true [] (splitSlash path)

/-- The names of the normal form of a relative path. -/
def relNames (path : PyStr) : List PyStr := normComps false [] (splitSlash path)

/-- The `..` segments of a path. -/
def dotdots (path : PyStr) : Nat := (splitSlash path).count (py "..")

/-- `path` is `pre` or lies below it, wherever the two are looked up. -/
def Contained (path pre : PyStr) : Prop :=
  match isabs path, isabs pre with
  | true, true => absNames pre <+: absNames path
  | false, false =>
      ∀ base : PyStr, isabs base = true →
        dotdots path < (absNames base).length → dotdots pre < (absNames base).length →
        absNames (base ++ py "/" ++ pre) <+: absNames (base ++ py "/" ++ path)
  | _, _ => False

/-- How many directories the normal form of a relative path climbs. -/
def ups (path : PyStr) : Nat := (relNames path).count (py "..")

/-- The names the normal form of a relative path goes down. -/
def downs (path : PyStr) : List PyStr := (relNames path).filter (· ≠ py "..")

/-- The relative pairs the rule gets wrong: the prefix only climbs and the path
    climbs another number of directories, or the prefix is the directory itself
    and the path's first name begins with two dots. -/
def Misjudged (path pre : PyStr) : Prop :=
  isabs path = false ∧ isabs pre = false ∧ downs pre = [] ∧
    (0 < ups pre ∧ ups path ≠ ups pre ∨
      ups pre = 0 ∧ ups path = 0 ∧ ∃ name ∈ (downs path).head?, startsWith (py "..") name = true)

-- ============================================================================
-- Climbing and going down
-- ============================================================================

/-- Walking path components: the directories climbed, and the names gone down
    since, in reverse. -/
def climb : Nat → List PyStr → List PyStr → Nat × List PyStr
  | up, down, [] => (up, down)
  | up, down, comp :: comps =>
      if comp = [] ∨ comp = py "." then climb up down comps
      else if comp ≠ py ".." then climb up (comp :: down) comps
      else
        match down with
        | [] => climb (up + 1) [] comps
        | _ :: down => climb up down comps

/-- A name a directory can have. -/
def IsName (name : PyStr) : Prop :=
  name ≠ [] ∧ name ≠ py "." ∧ name ≠ py ".." ∧ 47 ∉ name

section Steps

variable {comp : PyStr} {comps kept down : List PyStr} {rooted : Bool} {up : Nat}

theorem climb_skip (h : comp = [] ∨ comp = py ".") : climb up down (comp :: comps) = climb up down comps := by
  rw [climb.eq_def]
  dsimp only
  rw [if_pos h]

theorem climb_name (h : ¬ (comp = [] ∨ comp = py ".")) (hname : comp ≠ py "..") :
    climb up down (comp :: comps) = climb up (comp :: down) comps := by
  rw [climb.eq_def]
  dsimp only
  rw [if_neg h, if_pos hname]

theorem normComps_skip (h : comp = [] ∨ comp = py ".") :
    normComps rooted kept (comp :: comps) = normComps rooted kept comps := by
  have hcode : (decide (comp = []) || decide (comp = py ".")) = true := by simpa using h
  rw [normComps, if_pos hcode]

theorem normComps_name (h : ¬ (comp = [] ∨ comp = py ".")) (hname : comp ≠ py "..") :
    normComps rooted kept (comp :: comps) = normComps rooted (comp :: kept) comps := by
  have hcode : ¬ (decide (comp = []) || decide (comp = py ".")) = true := by simpa using h
  rw [normComps, if_neg hcode, if_pos (by simp [hname])]

/-- A `..` with nothing to leave stays in the normal form of a relative path. -/
theorem normComps_climbs : normComps false (List.replicate up (py "..")) (py ".." :: comps) =
    normComps false (List.replicate (up + 1) (py "..")) comps := by
  have hskip : ¬ (decide (py ".." = []) || decide (py ".." = py ".")) = true := by decide
  have hkeep : (py ".." != py ".." || (!false && (List.replicate up (py "..")).isEmpty) ||
      decide ((List.replicate up (py "..")).head? = some (py ".."))) = true := by
    cases up <;> rfl
  rw [normComps, if_neg hskip, if_pos hkeep]
  rfl

/-- Otherwise it leaves the last name, or the root stays the root. -/
theorem normComps_up (htop : ∀ name ∈ kept.head?, name ≠ py "..") (h : rooted = true ∨ kept ≠ []) :
    normComps rooted kept (py ".." :: comps) = normComps rooted kept.tail comps := by
  have hskip : ¬ (decide (py ".." = []) || decide (py ".." = py ".")) = true := by decide
  have hleave : ¬ (py ".." != py ".." || (!rooted && kept.isEmpty) ||
      decide (kept.head? = some (py ".."))) = true := by
    have hhead : kept.head? ≠ some (py "..") := fun heq => htop _ heq rfl
    have hkept : rooted = false → kept ≠ [] := fun hr => h.resolve_left (by rw [hr]; exact Bool.false_ne_true)
    simpa [hhead] using hkept
  rw [normComps, if_neg hskip, if_neg hleave]

end Steps

/-- Only names are gone down. -/
theorem climb_names (comps : List PyStr) (hslash : ∀ comp ∈ comps, 47 ∉ comp) :
    ∀ up down, (∀ name ∈ down, IsName name) → ∀ name ∈ (climb up down comps).2, IsName name := by
  induction comps with
  | nil =>
      intro up down hdown
      exact hdown
  | cons comp comps ih =>
      intro up down hdown
      have hrest := ih fun c hc => hslash c (List.mem_cons_of_mem _ hc)
      by_cases hskip : comp = [] ∨ comp = py "."
      · rw [climb_skip hskip]
        exact hrest up down hdown
      · by_cases hname : comp ≠ py ".."
        · rw [climb_name hskip hname]
          have hcomp : IsName comp :=
            ⟨(not_or.mp hskip).1, (not_or.mp hskip).2, hname, hslash comp (List.mem_cons_self ..)⟩
          exact hrest up (comp :: down) (List.forall_mem_cons.mpr ⟨hcomp, hdown⟩)
        · obtain rfl : comp = py ".." := not_not.mp hname
          cases down with
          | nil => exact hrest (up + 1) [] hdown
          | cons name down => exact hrest up down (List.forall_mem_cons.mp hdown).2

/-- The normal form of a relative path: the climbs, then the names. -/
theorem normComps_climb (comps : List PyStr) (hslash : ∀ comp ∈ comps, 47 ∉ comp) :
    ∀ up down, (∀ name ∈ down, IsName name) →
      normComps false (down ++ List.replicate up (py "..")) comps =
        List.replicate (climb up down comps).1 (py "..") ++ (climb up down comps).2.reverse := by
  induction comps with
  | nil =>
      intro up down hdown
      show (down ++ List.replicate up (py "..")).reverse = List.replicate up (py "..") ++ down.reverse
      rw [List.reverse_append, List.reverse_replicate]
  | cons comp comps ih =>
      intro up down hdown
      have hrest := ih fun c hc => hslash c (List.mem_cons_of_mem _ hc)
      by_cases hskip : comp = [] ∨ comp = py "."
      · rw [normComps_skip hskip, climb_skip hskip]
        exact hrest up down hdown
      · by_cases hname : comp ≠ py ".."
        · rw [normComps_name hskip hname, climb_name hskip hname]
          have hcomp : IsName comp :=
            ⟨(not_or.mp hskip).1, (not_or.mp hskip).2, hname, hslash comp (List.mem_cons_self ..)⟩
          exact hrest up (comp :: down) (List.forall_mem_cons.mpr ⟨hcomp, hdown⟩)
        · obtain rfl : comp = py ".." := not_not.mp hname
          cases down with
          | nil =>
              rw [List.nil_append, normComps_climbs]
              exact hrest (up + 1) [] hdown
          | cons name down =>
              have hleft : ∀ top ∈ (name :: down ++ List.replicate up (py "..")).head?, top ≠ py ".." := by
                rintro top ⟨⟩
                exact (hdown name (List.mem_cons_self ..)).2.2.1
              rw [normComps_up hleft (Or.inr (List.cons_ne_nil _ _))]
              exact hrest up down (List.forall_mem_cons.mp hdown).2

/-- Where a relative path leads from a directory. -/
theorem normComps_from (base comps : List PyStr) (hbase : ∀ name ∈ base, IsName name)
    (hslash : ∀ comp ∈ comps, 47 ∉ comp) :
    ∀ up down, (∀ name ∈ down, IsName name) →
      normComps true (down ++ (base.take (base.length - up)).reverse) comps =
        base.take (base.length - (climb up down comps).1) ++ (climb up down comps).2.reverse := by
  induction comps with
  | nil =>
      intro up down hdown
      show (down ++ (base.take (base.length - up)).reverse).reverse = _
      rw [List.reverse_append, List.reverse_reverse]
      rfl
  | cons comp comps ih =>
      intro up down hdown
      have hrest := ih fun c hc => hslash c (List.mem_cons_of_mem _ hc)
      by_cases hskip : comp = [] ∨ comp = py "."
      · rw [normComps_skip hskip, climb_skip hskip]
        exact hrest up down hdown
      · by_cases hname : comp ≠ py ".."
        · rw [normComps_name hskip hname, climb_name hskip hname]
          have hcomp : IsName comp :=
            ⟨(not_or.mp hskip).1, (not_or.mp hskip).2, hname, hslash comp (List.mem_cons_self ..)⟩
          exact hrest up (comp :: down) (List.forall_mem_cons.mpr ⟨hcomp, hdown⟩)
        · obtain rfl : comp = py ".." := not_not.mp hname
          -- the top of what is kept is a name, of the path or of the directory
          have htop : ∀ name ∈ (down ++ (base.take (base.length - up)).reverse).head?, name ≠ py ".." := by
            intro name hhead
            rcases List.mem_append.mp (List.mem_of_mem_head? hhead) with hmem | hmem
            · exact (hdown name hmem).2.2.1
            · exact (hbase name (List.mem_of_mem_take (List.mem_reverse.mp hmem))).2.2.1
          rw [normComps_up htop (Or.inl rfl)]
          cases down with
          | nil =>
              have htail : ([] ++ (base.take (base.length - up)).reverse : List PyStr).tail =
                  [] ++ (base.take (base.length - (up + 1))).reverse := by
                have hlen : (base.take (base.length - up)).length - 1 = base.length - (up + 1) := by
                  rw [List.length_take]
                  omega
                rw [List.nil_append, List.nil_append, List.tail_reverse, List.dropLast_eq_take, hlen,
                  List.take_take, Nat.min_eq_left (by omega)]
              rw [htail]
              exact hrest (up + 1) [] hdown
          | cons name down => exact hrest up down (List.forall_mem_cons.mp hdown).2

-- ============================================================================
-- The text of a normal form
-- ============================================================================

theorem splitSlash_eq (path : PyStr) : splitSlash path = splitChar 47 path := by
  induction path with
  | nil => rfl
  | cons c cs ih =>
      unfold splitSlash splitChar
      rw [ih]
      cases splitChar 47 cs with
      | nil => rfl
      | cons w ws => rfl

theorem splitSlash_slash (path rest : PyStr) :
    splitSlash (path ++ 47 :: rest) = splitSlash path ++ splitSlash rest := by
  induction path with
  | nil => rfl
  | cons c cs ih =>
      have hne : splitSlash cs ≠ [] := by
        cases cs with
        | nil => exact List.cons_ne_nil _ _
        | cons d ds =>
            unfold splitSlash
            by_cases hd : d = 47
            · rw [if_pos hd]
              exact List.cons_ne_nil _ _
            · rw [if_neg hd]
              cases splitSlash ds <;> exact List.cons_ne_nil _ _
      rw [List.cons_append, splitSlash, splitSlash, ih]
      by_cases hc : c = 47
      · rw [if_pos hc, if_pos hc]
        rfl
      · rw [if_neg hc, if_neg hc]
        cases hcs : splitSlash cs with
        | nil => exact absurd hcs hne
        | cons w ws => rfl

theorem splitSlash_noSlash (path : PyStr) : ∀ comp ∈ splitSlash path, 47 ∉ comp := by
  rw [splitSlash_eq]
  exact not_mem_of_mem_splitChar path

theorem splitSlash_join {names : List PyStr} (hne : names ≠ []) (h : ∀ name ∈ names, 47 ∉ name) :
    splitSlash (join (py "/") names) = names := by
  rw [splitSlash_eq]
  exact splitChar_join hne h

theorem join_append {names rest : List PyStr} (hnames : names ≠ []) (hrest : rest ≠ []) :
    join (py "/") (names ++ rest) = join (py "/") names ++ 47 :: join (py "/") rest := by
  induction names with
  | nil => exact absurd rfl hnames
  | cons name names ih =>
      cases names with
      | nil =>
          cases rest with
          | nil => exact absurd rfl hrest
          | cons next rest =>
              show [47].intercalate (name :: next :: rest) =
                [47].intercalate [name] ++ 47 :: [47].intercalate (next :: rest)
              rw [List.intercalate_cons_cons, List.intercalate_singleton, List.append_assoc]
              rfl
      | cons next names =>
          have htail := ih (List.cons_ne_nil _ _)
          show [47].intercalate (name :: next :: (names ++ rest)) =
            [47].intercalate (name :: next :: names) ++ _
          rw [List.intercalate_cons_cons, List.intercalate_cons_cons, List.append_assoc (name ++ [47])]
          exact congrArg (fun text => name ++ [47] ++ text) htail

/-- The textual comparison compares names: a prefix of the text that ends at a
    slash is a prefix of the names. -/
theorem join_within_iff {names pre : List PyStr} (hnames : names ≠ []) (hpre : pre ≠ [])
    (hslash : ∀ name ∈ names, 47 ∉ name) (hslash' : ∀ name ∈ pre, 47 ∉ name) :
    (join (py "/") names = join (py "/") pre ∨
        startsWith (join (py "/") pre ++ py "/") (join (py "/") names) = true) ↔ pre <+: names := by
  constructor
  · rintro (heq | hstart)
    · have hsplit := congrArg splitSlash heq
      rw [splitSlash_join hnames hslash, splitSlash_join hpre hslash'] at hsplit
      exact hsplit ▸ List.prefix_refl _
    · obtain ⟨rest, hrest⟩ := startsWith_iff.mp hstart
      have hsplit : splitSlash (join (py "/") pre ++ 47 :: rest) = names := by
        rw [← splitSlash_join hnames hslash, ← hrest, List.append_assoc]
        rfl
      rw [splitSlash_slash, splitSlash_join hpre hslash'] at hsplit
      exact ⟨_, hsplit⟩
  · rintro ⟨rest, rfl⟩
    cases rest with
    | nil => exact Or.inl (by rw [List.append_nil])
    | cons next rest =>
        refine Or.inr (startsWith_iff.mpr ⟨join (py "/") (next :: rest), ?_⟩)
        rw [join_append hpre (List.cons_ne_nil _ _), List.append_assoc]
        rfl

/-- The text of names begins with the first name. -/
theorem join_cons (name : PyStr) (names : List PyStr) :
    join (py "/") (name :: names) = name ∨ ∃ rest, join (py "/") (name :: names) = name ++ 47 :: rest := by
  cases names with
  | nil => exact Or.inl (List.intercalate_singleton ..)
  | cons next names =>
      exact Or.inr ⟨join (py "/") (next :: names),
        (join_append (List.cons_ne_nil name []) (List.cons_ne_nil next names)).trans
          (by rw [show join (py "/") [name] = name from List.intercalate_singleton ..])⟩

theorem join_not_slash {names : List PyStr} (h : ∀ name ∈ names, name ≠ [] ∧ 47 ∉ name) :
    startsWith (py "/") (join (py "/") names) = false := by
  cases names with
  | nil => rfl
  | cons name names =>
      have hname := h name (List.mem_cons_self ..)
      obtain ⟨c, cs, rfl⟩ := List.exists_cons_of_ne_nil hname.1
      have hc : (47 == c) = false := by
        have hne : c ≠ 47 := fun heq => hname.2 (by rw [heq]; exact List.mem_cons_self ..)
        simpa using hne.symm
      rcases join_cons (c :: cs) names with hj | ⟨rest, hj⟩ <;>
      · rw [hj]
        show (47 == c && _) = false
        rw [hc, Bool.false_and]

/-- A text begins with `..` when its first name does. -/
theorem startsWith_dots {name : PyStr} (hname : name ≠ [] ∧ name ≠ py "." ∧ 47 ∉ name)
    (names : List PyStr) :
    startsWith (py "..") (join (py "/") (name :: names)) = startsWith (py "..") name := by
  rcases join_cons name names with hj | ⟨rest, hj⟩
  · rw [hj]
  · rw [hj]
    match name, hname with
    | [c], hname =>
        have hc : (46 == c) = false := by
          have hne : c ≠ 46 := fun heq => hname.2.1 (by rw [heq]; rfl)
          simpa using hne.symm
        show (46 == c && _) = (46 == c && _)
        rw [hc, Bool.false_and, Bool.false_and]
    | c :: d :: cs, _ => rfl

/-- The names of a relative path's normal form: its climbs, then where it goes down. -/
theorem relNames_eq (path : PyStr) :
    relNames path = List.replicate (ups path) (py "..") ++ downs path ∧
      (∀ name ∈ downs path, IsName name) ∧
      climb 0 [] (splitSlash path) = (ups path, (downs path).reverse) := by
  have hnil : ∀ name ∈ ([] : List PyStr), IsName name := fun name h => absurd h List.not_mem_nil
  have hform := normComps_climb (splitSlash path) (splitSlash_noSlash path) 0 [] hnil
  have hnames := climb_names (splitSlash path) (splitSlash_noSlash path) 0 [] hnil
  generalize climb 0 [] (splitSlash path) = walked at hform hnames
  obtain ⟨up, down⟩ := walked
  have hrel : relNames path = List.replicate up (py "..") ++ down.reverse := hform
  have hplain : ∀ name ∈ down.reverse, name ≠ py ".." := fun name hname =>
    (hnames name (List.mem_reverse.mp hname)).2.2.1
  have hups : ups path = up := by
    have hzero : down.reverse.count (py "..") = 0 :=
      List.count_eq_zero.mpr fun hmem => hplain _ hmem rfl
    rw [ups, hrel, List.count_append, List.count_replicate_self, hzero, Nat.add_zero]
  have hdowns : downs path = down.reverse := by
    have hclimbs : (List.replicate up (py "..")).filter (fun name => decide (name ≠ py "..")) = [] := by
      rw [List.filter_eq_nil_iff]
      intro name hname
      rw [List.eq_of_mem_replicate hname]
      decide
    have hkept : down.reverse.filter (fun name => decide (name ≠ py "..")) = down.reverse :=
      List.filter_eq_self.mpr fun name hname => decide_eq_true (hplain name hname)
    rw [downs, hrel, List.filter_append, hclimbs, hkept, List.nil_append]
  rw [hups, hdowns, List.reverse_reverse]
  exact ⟨hrel, fun name hname => hnames name (List.mem_reverse.mp hname), rfl⟩

theorem relNames_plain (path : PyStr) :
    ∀ name ∈ relNames path, name ≠ [] ∧ name ≠ py "." ∧ 47 ∉ name := by
  obtain ⟨hrel, hnames, -⟩ := relNames_eq path
  intro name hname
  rw [hrel] at hname
  rcases List.mem_append.mp hname with hname | hname
  · rw [List.eq_of_mem_replicate hname]
    decide
  · have h := hnames name hname
    exact ⟨h.1, h.2.1, h.2.2.2⟩

theorem normComps_append (rooted : Bool) (comps rest : List PyStr) :
    ∀ kept, normComps rooted kept (comps ++ rest) =
      normComps rooted (normComps rooted kept comps).reverse rest := by
  induction comps with
  | nil =>
      intro kept
      show normComps rooted kept rest = normComps rooted kept.reverse.reverse rest
      rw [List.reverse_reverse]
  | cons comp comps ih =>
      intro kept
      rw [List.cons_append, normComps, normComps]
      split
      · exact ih kept
      · split
        · exact ih (comp :: kept)
        · exact ih kept.tail

/-- Names are their own normal form. -/
theorem normComps_names (names : List PyStr) (h : ∀ name ∈ names, IsName name) :
    ∀ kept, normComps true kept names = kept.reverse ++ names := by
  induction names with
  | nil => exact fun kept => (List.append_nil _).symm
  | cons name names ih =>
      intro kept
      have hname := h name (List.mem_cons_self ..)
      rw [normComps_name (not_or.mpr ⟨hname.1, hname.2.1⟩) hname.2.2.1,
        ih (fun n hn => h n (List.mem_cons_of_mem _ hn)), List.reverse_cons, List.append_assoc]
      rfl

theorem absNames_plain (path : PyStr) : ∀ name ∈ absNames path, IsName name := by
  have hnil : ∀ name ∈ ([] : List PyStr), IsName name := fun name h => absurd h List.not_mem_nil
  have hform : absNames path = (climb 0 [] (splitSlash path)).2.reverse := by
    have hfrom := normComps_from [] (splitSlash path) hnil (splitSlash_noSlash path) 0 [] hnil
    rw [List.take_nil, List.nil_append, List.take_nil, List.nil_append] at hfrom
    exact hfrom
  intro name hname
  rw [hform] at hname
  exact climb_names _ (splitSlash_noSlash path) 0 [] hnil name (List.mem_reverse.mp hname)

/-- Where a relative path leads from a base directory. -/
theorem absNames_from (base path : PyStr) :
    absNames (base ++ py "/" ++ path) =
      (absNames base).take ((absNames base).length - ups path) ++ downs path := by
  obtain ⟨-, -, hwalk⟩ := relNames_eq path
  have hfrom := normComps_from (absNames base) (splitSlash path) (absNames_plain base)
    (splitSlash_noSlash path) 0 [] (fun name h => absurd h List.not_mem_nil)
  rw [hwalk, Nat.sub_zero, List.take_length, List.nil_append, List.reverse_reverse] at hfrom
  rw [← hfrom, absNames, List.append_assoc]
  show normComps true [] (splitSlash (base ++ 47 :: path)) = _
  rw [splitSlash_slash, normComps_append]
  rfl

theorem startsWith_double {text : PyStr} (h : startsWith (py "/") text = false) :
    startsWith (py "//") text = false := by
  cases text with
  | nil => rfl
  | cons c cs =>
      have hc : (47 == c && true) = false := h
      rw [Bool.and_true] at hc
      show (47 == c && _) = false
      rw [hc, Bool.false_and]

/-- The text the rule compares, for a relative path. -/
theorem canonical_relative {path : PyStr} (h : isabs path = false) :
    canonicalRoot (normpath path) =
      if relNames path = [] then py "." else join (py "/") (relNames path) := by
  have hslash := join_not_slash fun name hname =>
    let hn := relNames_plain path name hname
    ⟨hn.1, hn.2.2⟩
  have hnorm : normpath path = if relNames path = [] then py "." else join (py "/") (relNames path) := by
    by_cases hpath : path = []
    · subst hpath
      rfl
    · have hone : startsWith (py "/") path = false := h
      rw [normpath, if_neg hpath, startsWith_double hone, hone]
      show (if join (py "/") (relNames path) = [] then _ else join (py "/") (relNames path)) = _
      by_cases hrel : relNames path = []
      · rw [if_pos hrel, hrel]
        rfl
      · have hjoin : join (py "/") (relNames path) ≠ [] := by
          intro hnil
          have hsplit := splitSlash_join hrel fun name hname => (relNames_plain path name hname).2.2
          rw [hnil] at hsplit
          have hempty := relNames_plain path [] (by rw [← hsplit]; exact List.mem_cons_self ..)
          exact hempty.1 rfl
        rw [if_neg hrel, if_neg hjoin]
  have hrelative : startsWith (py "/") (normpath path) = false := by
    rw [hnorm]
    split
    · rfl
    · exact hslash
  rw [canonicalRoot, startsWith_double hrelative]
  exact hnorm

/-- The text the rule compares, for an absolute path. -/
theorem canonical_absolute {path : PyStr} (h : isabs path = true) :
    canonicalRoot (normpath path) = 47 :: join (py "/") (absNames path) := by
  have hslash := join_not_slash fun name hname =>
    let hn := absNames_plain path name hname
    ⟨hn.1, hn.2.2.2⟩
  have hpath : path ≠ [] := by
    rintro rfl
    cases h
  rw [normpath, if_neg hpath]
  by_cases htwo : (startsWith (py "//") path && !startsWith (py "///") path) = true
  · rw [if_pos htwo]
    show canonicalRoot (47 :: 47 :: join (py "/") (absNames path)) = _
    have hdrop : (join (py "/") (absNames path)).dropWhile (· == 47) = join (py "/") (absNames path) := by
      generalize join (py "/") (absNames path) = text at hslash
      cases text with
      | nil => rfl
      | cons c cs =>
          have hc : (47 == c && true) = false := hslash
          rw [Bool.and_true] at hc
          refine List.dropWhile_cons_of_neg ?_
          simpa using fun heq : c = 47 => by simp [heq] at hc
    show 47 :: (join (py "/") (absNames path)).dropWhile (· == 47) = _
    rw [hdrop]
  · have hone : startsWith (py "/") path = true := h
    rw [if_neg htwo, if_pos hone]
    show canonicalRoot (47 :: join (py "/") (absNames path)) = _
    have hnot : startsWith (py "//") (47 :: join (py "/") (absNames path)) = false := hslash
    rw [canonicalRoot, hnot]
    rfl

-- ============================================================================
-- What the rule matches
-- ============================================================================

/-- The same with a text that stands in for no names at all. -/
theorem text_within_iff {names pre : List PyStr} {filler : PyStr} (hpre : pre ≠ [])
    (hfiller : filler ∉ pre) (hfillerSlash : 47 ∉ filler) (hslash : ∀ name ∈ names, 47 ∉ name)
    (hslash' : ∀ name ∈ pre, 47 ∉ name) :
    ((if names = [] then filler else join (py "/") names) = join (py "/") pre ∨
        startsWith (join (py "/") pre ++ py "/")
          (if names = [] then filler else join (py "/") names) = true) ↔ pre <+: names := by
  by_cases hnames : names = []
  · have hone : join (py "/") [filler] = filler := List.intercalate_singleton ..
    have hwithin := join_within_iff (List.cons_ne_nil filler []) hpre
      (fun name hname => (List.mem_singleton.mp hname) ▸ hfillerSlash) hslash'
    rw [hone] at hwithin
    rw [if_pos hnames, hwithin, hnames, List.prefix_nil]
    obtain ⟨name, rest, rfl⟩ := List.exists_cons_of_ne_nil hpre
    constructor
    · intro h
      have hname : name = filler := (List.cons_prefix_cons.mp h).1
      exact absurd (hname ▸ List.mem_cons_self ..) hfiller
    · intro h
      exact absurd h hpre
  · rw [if_neg hnames]
    exact join_within_iff hnames hpre hslash hslash'

/-- Names joined give the text of other names only. -/
theorem join_ne {names : List PyStr} {text : PyStr} (hslash : ∀ name ∈ names, 47 ∉ name)
    (hnames : names ≠ []) (htext : text ∉ names) (h : 47 ∉ text) : join (py "/") names ≠ text := by
  intro heq
  have hsplit := splitSlash_join hnames hslash
  rw [heq, splitSlash_eq, splitChar_of_not_mem h] at hsplit
  exact htext (by rw [← hsplit]; exact List.mem_cons_self ..)

/-- Between absolute paths the rule compares the names of the normal forms. -/
theorem matches_absolute {path pre : PyStr} (hpath : isabs path = true) (hpre : isabs pre = true) :
    pathMatchesPrefix path pre = true ↔ absNames pre <+: absNames path := by
  have hplain := absNames_plain pre
  have hplain' := absNames_plain path
  rw [pathMatchesPrefix, canonical_absolute hpath, canonical_absolute hpre]
  generalize absNames pre = names at hplain
  generalize absNames path = names' at hplain'
  have hslash : ∀ name ∈ names, 47 ∉ name := fun name hname => (hplain name hname).2.2.2
  have hslash' : ∀ name ∈ names', 47 ∉ name := fun name hname => (hplain' name hname).2.2.2
  by_cases hroot : names = []
  · subst hroot
    exact ⟨fun _ => List.nil_prefix, fun _ => rfl⟩
  · have hempty : ([] : PyStr) ∉ names := fun h => (hplain [] h).1 rfl
    have hne : (47 :: join (py "/") names) ≠ py "/" := fun heq =>
      join_ne hslash hroot hempty List.not_mem_nil (List.cons.inj heq).2
    have hdot : (47 :: join (py "/") names) ≠ py "." := fun heq => by
      have h : (47 : Nat) = 46 := (List.cons.inj heq).1
      omega
    have hwithin := text_within_iff hroot hempty List.not_mem_nil hslash' hslash
    have htext : (if names' = [] then [] else join (py "/") names') = join (py "/") names' := by
      by_cases h : names' = []
      · rw [if_pos h, h]
        rfl
      · rw [if_neg h]
    rw [htext] at hwithin
    have hsame : ¬ (startsWith (py "/") (47 :: join (py "/") names') !=
        startsWith (py "/") (47 :: join (py "/") names)) = true := Bool.false_ne_true
    show (if _ then false else _) = true ↔ _
    rw [if_neg hsame, if_neg hne, if_neg hdot, ← hwithin]
    show (decide (47 :: join (py "/") names' = 47 :: join (py "/") names) ||
      startsWith (47 :: (join (py "/") names ++ py "/")) (47 :: join (py "/") names')) = true ↔ _
    rw [Bool.or_eq_true, decide_eq_true_iff, List.cons_inj_right]
    exact Iff.rfl

/-- Between relative paths, too, unless the prefix is the directory itself. -/
theorem matches_relative {path pre : PyStr} (hpath : isabs path = false) (hpre : isabs pre = false) :
    pathMatchesPrefix path pre = true ↔
      if relNames pre = [] then ¬ ∃ name ∈ (relNames path).head?, startsWith (py "..") name = true
      else relNames pre <+: relNames path := by
  have hplain := relNames_plain pre
  have hplain' := relNames_plain path
  rw [pathMatchesPrefix, canonical_relative hpath, canonical_relative hpre]
  generalize relNames pre = names at hplain
  generalize relNames path = names' at hplain'
  have hrelative : ∀ names : List PyStr, (∀ name ∈ names, name ≠ [] ∧ name ≠ py "." ∧ 47 ∉ name) →
      startsWith (py "/") (if names = [] then py "." else join (py "/") names) = false := by
    intro names h
    split
    · rfl
    · exact join_not_slash fun name hname => ⟨(h name hname).1, (h name hname).2.2⟩
  have hslash : ∀ name ∈ names, 47 ∉ name := fun name hname => (hplain name hname).2.2
  have hslash' : ∀ name ∈ names', 47 ∉ name := fun name hname => (hplain' name hname).2.2
  have hroot : (if names = [] then py "." else join (py "/") names) ≠ py "/" := by
    intro heq
    have h := hrelative names hplain
    rw [heq] at h
    cases h
  show (if (startsWith (py "/") (if names' = [] then py "." else join (py "/") names') !=
      startsWith (py "/") (if names = [] then py "." else join (py "/") names)) = true then false else _) = true ↔ _
  rw [hrelative names hplain, hrelative names' hplain', if_neg (by decide), if_neg hroot]
  by_cases hnil : names = []
  · subst hnil
    rw [if_pos rfl, if_pos rfl]
    show (!startsWith (py "..") (if names' = [] then py "." else join (py "/") names')) = true ↔ _
    cases names' with
    | nil =>
        refine ⟨fun _ => ?_, fun _ => rfl⟩
        rintro ⟨name, hname, -⟩
        exact absurd hname (Option.not_mem_none name)
    | cons name rest =>
        rw [if_neg (List.cons_ne_nil _ _), startsWith_dots (hplain' name (List.mem_cons_self ..))]
        constructor
        · rintro h ⟨_, hhead, hstart⟩
          cases hhead
          rw [hstart] at h
          cases h
        · intro h
          rw [Bool.not_eq_true']
          exact Bool.eq_false_iff.mpr fun hstart => h ⟨name, rfl, hstart⟩
  · have hdotNot : py "." ∉ names := fun h => (hplain _ h).2.1 rfl
    have hdot : (if names = [] then py "." else join (py "/") names) ≠ py "." := by
      rw [if_neg hnil]
      exact join_ne hslash hnil hdotNot (by decide)
    have hwithin := text_within_iff hnil hdotNot (by decide) hslash' hslash
    rw [if_neg hdot, if_neg hnil, if_neg hnil, ← hwithin, Bool.or_eq_true, decide_eq_true_iff]

-- ============================================================================
-- Where the rule is right
-- ============================================================================

/-- A run of one name with others below it: what it can be a prefix of. -/
theorem run_prefix_iff {x : PyStr} {a b : Nat} {path pre : List PyStr} (hpath : x ∉ path) (hpre : x ∉ pre) :
    List.replicate b x ++ pre <+: List.replicate a x ++ path ↔
      (b = a ∧ pre <+: path) ∨ (b < a ∧ pre = []) := by
  induction b generalizing a with
  | zero =>
      cases a with
      | zero => simp
      | succ a =>
          rw [List.replicate_succ, List.replicate_zero, List.nil_append, List.cons_append]
          cases pre with
          | nil => simp
          | cons name pre =>
              have hname : name ≠ x := fun heq => hpre (by rw [heq]; exact List.mem_cons_self ..)
              rw [List.cons_prefix_cons]
              simp [hname]
  | succ b ih =>
      rw [List.replicate_succ, List.cons_append]
      cases a with
      | zero =>
          cases path with
          | nil => simp
          | cons name path =>
              have hname : x ≠ name := fun heq => hpath (by rw [heq]; exact List.mem_cons_self ..)
              rw [List.replicate_zero, List.nil_append, List.cons_prefix_cons]
              simp [hname]
      | succ a =>
          rw [List.replicate_succ, List.cons_append, List.cons_prefix_cons, ih]
          simp

/-- Some name is not among the given ones. -/
theorem exists_fresh (names : List PyStr) : ∃ name, IsName name ∧ name ∉ names := by
  refine ⟨List.replicate (names.flatten.length + 3) 97, ⟨?_, ?_, ?_, ?_⟩, ?_⟩
  · exact fun h => absurd (congrArg List.length h) (by simp)
  · exact fun h => absurd (congrArg List.length h) (by simp [py])
  · exact fun h => absurd (congrArg List.length h) (by simp [py])
  · exact fun h => absurd (List.eq_of_mem_replicate h) (by decide)
  · intro hmem
    have hle := (List.sublist_flatten_of_mem hmem).length_le
    rw [List.length_replicate] at hle
    omega

/-- Every list of names is the normal form of an absolute path. -/
theorem absNames_join {names : List PyStr} (hnames : names ≠ []) (h : ∀ name ∈ names, IsName name) :
    absNames (47 :: join (py "/") names) = names := by
  have hsplit := splitSlash_join hnames fun name hname => (h name hname).2.2.2
  have hroot : splitSlash (47 :: join (py "/") names) = [] :: names := by
    rw [splitSlash, if_pos rfl, hsplit]
  rw [absNames, hroot]
  exact normComps_names names h []

/-- Where one relative path lies below another from every deep enough directory. -/
theorem contained_relative_iff {path pre : PyStr} (hpath : isabs path = false) (hpre : isabs pre = false) :
    Contained path pre ↔
      (ups pre = ups path ∧ downs pre <+: downs path) ∨ (ups path < ups pre ∧ downs pre = []) := by
  unfold Contained
  rw [hpath, hpre]
  constructor
  · intro h
    -- from a directory whose names occur in neither path nothing matches by chance
    obtain ⟨name, hname, hfresh⟩ := exists_fresh (downs path ++ downs pre)
    obtain ⟨hfreshPath, hfreshPre⟩ := not_or.mp (mt List.mem_append.mpr hfresh)
    obtain ⟨depth, hdepth⟩ : ∃ depth, depth = dotdots path + dotdots pre + ups path + ups pre + 1 := ⟨_, rfl⟩
    have hne : List.replicate depth name ≠ [] := by
      rw [hdepth]
      exact List.cons_ne_nil _ _
    have hbase := absNames_join hne fun n hn => (List.eq_of_mem_replicate hn) ▸ hname
    have hlen : (absNames (47 :: join (py "/") (List.replicate depth name))).length = depth := by
      rw [hbase, List.length_replicate]
    have hbelow := h (47 :: join (py "/") (List.replicate depth name)) rfl (by omega) (by omega)
    rw [absNames_from, absNames_from, hlen, hbase, List.take_replicate, List.take_replicate,
      Nat.min_eq_left (Nat.sub_le ..), Nat.min_eq_left (Nat.sub_le ..),
      run_prefix_iff hfreshPath hfreshPre] at hbelow
    rcases hbelow with ⟨hup, hdown⟩ | ⟨hup, hdown⟩
    · exact Or.inl ⟨by omega, hdown⟩
    · exact Or.inr ⟨by omega, hdown⟩
  · intro h base _ _ _
    rw [absNames_from, absNames_from]
    rcases h with ⟨hup, hdown⟩ | ⟨hup, hdown⟩
    · rw [hup]
      exact (List.prefix_append_right_inj _).mpr hdown
    · rw [hdown, List.append_nil]
      have hle : (absNames base).length - ups pre ≤ (absNames base).length - ups path := by omega
      exact (List.take_prefix_take_left hle).trans (List.prefix_append _ _)

theorem matches_mixed {path pre : PyStr} (h : isabs path ≠ isabs pre) : pathMatchesPrefix path pre = false := by
  have hroot : ∀ path : PyStr, startsWith (py "/") (canonicalRoot (normpath path)) = isabs path := by
    intro path
    cases habs : isabs path with
    | true =>
        rw [canonical_absolute habs]
        rfl
    | false =>
        rw [canonical_relative habs]
        split
        · rfl
        · exact join_not_slash fun name hname =>
            ⟨(relNames_plain path name hname).1, (relNames_plain path name hname).2.2⟩
  show (if _ then false else _) = false
  rw [hroot, hroot, if_pos (bne_iff_ne.mpr h)]

section Relative

variable {path pre : PyStr} (hpath : isabs path = false) (hpre : isabs pre = false)
include hpath hpre

/-- Below the directory itself: only a first name that begins with dots is misjudged. -/
theorem self_contains_iff (hself : relNames pre = []) :
    (pathMatchesPrefix path pre = true ↔ Contained path pre) ↔ ¬ Misjudged path pre := by
  obtain ⟨hrel, -, -⟩ := relNames_eq path
  obtain ⟨hrel', -, -⟩ := relNames_eq pre
  have hnone := List.append_eq_nil_iff.mp (hrel'.symm.trans hself)
  have hup : ups pre = 0 := by
    have h := congrArg List.length hnone.1
    rwa [List.length_replicate] at h
  rw [matches_relative hpath hpre, contained_relative_iff hpath hpre, Misjudged, if_pos hself, hup, hnone.2]
  by_cases hclimb : ups path = 0
  · have hsame : relNames path = downs path := by
      rw [hrel, hclimb]
      rfl
    rw [hsame]
    simp [hpath, hpre, hclimb]
  · obtain ⟨n, hn⟩ := Nat.exists_eq_succ_of_ne_zero hclimb
    have hhead : ∃ name ∈ (relNames path).head?, startsWith (py "..") name = true := by
      rw [hrel, hn]
      exact ⟨py "..", rfl, rfl⟩
    refine ⟨fun _ => ?_, fun _ => ⟨fun h => absurd hhead h, fun h => ?_⟩⟩
    · rintro ⟨-, -, -, ⟨hpos, -⟩ | ⟨-, hzero, -⟩⟩
      · omega
      · exact hclimb hzero
    · rcases h with ⟨h, -⟩ | ⟨h, -⟩ <;> omega

/-- Below another prefix: only one that just climbs is misjudged. -/
theorem below_contains_iff (hbelow : relNames pre ≠ []) :
    (pathMatchesPrefix path pre = true ↔ Contained path pre) ↔ ¬ Misjudged path pre := by
  obtain ⟨hrel, hdown, -⟩ := relNames_eq path
  obtain ⟨hrel', hdown', -⟩ := relNames_eq pre
  have hno : py ".." ∉ downs path := fun h => (hdown _ h).2.2.1 rfl
  have hno' : py ".." ∉ downs pre := fun h => (hdown' _ h).2.2.1 rfl
  have hsome : downs pre = [] → 0 < ups pre := by
    intro hnil
    refine Nat.pos_of_ne_zero fun hzero => hbelow ?_
    rw [hrel', hzero, hnil]
    rfl
  rw [matches_relative hpath hpre, contained_relative_iff hpath hpre, Misjudged, if_neg hbelow, hrel, hrel',
    run_prefix_iff hno hno']
  constructor
  · rintro hiff ⟨-, -, hnil, ⟨-, hne⟩ | ⟨hzero, -⟩⟩
    · rcases Nat.lt_or_gt_of_ne hne with hlt | hgt
      · rcases hiff.mpr (Or.inr ⟨hlt, hnil⟩) with h | h <;> omega
      · rcases hiff.mp (Or.inr ⟨hgt, hnil⟩) with h | h <;> omega
    · have hpos := hsome hnil
      omega
  · intro hright
    by_cases hnil : downs pre = []
    · have heq : ups path = ups pre := by
        by_contra hne
        exact hright ⟨hpath, hpre, hnil, Or.inl ⟨hsome hnil, hne⟩⟩
      rw [heq]
    · simp [hnil]

end Relative

/-- A path rule matches what lies below its prefix, but for the misjudged pairs. -/
theorem path_rules_contain_iff (path pre : PyStr) :
    (pathMatchesPrefix path pre = true ↔ Contained path pre) ↔ ¬ Misjudged path pre := by
  cases hpath : isabs path with
  | true =>
      have hright : ¬ Misjudged path pre := fun h =>
        Bool.noConfusion (hpath.symm.trans h.1)
      refine ⟨fun _ => hright, fun _ => ?_⟩
      cases hpre : isabs pre with
      | true =>
          rw [matches_absolute hpath hpre, Contained, hpath, hpre]
      | false =>
          rw [matches_mixed (by rw [hpath, hpre]; decide), Contained, hpath, hpre]
          exact ⟨fun h => Bool.noConfusion h, False.elim⟩
  | false =>
      cases hpre : isabs pre with
      | true =>
          have hright : ¬ Misjudged path pre := fun h =>
            Bool.noConfusion (hpre.symm.trans h.2.1)
          refine ⟨fun _ => hright, fun _ => ?_⟩
          rw [matches_mixed (by rw [hpath, hpre]; decide), Contained, hpath, hpre]
          exact ⟨fun h => Bool.noConfusion h, False.elim⟩
      | false =>
          by_cases hself : relNames pre = []
          · exact self_contains_iff hpath hpre hself
          · exact below_contains_iff hpath hpre hself

/-- The parent directory as a prefix lets the path climb on, and a name that
    begins with two dots is not found in its own directory. -/
theorem parent_prefix_climbs_on :
    ¬ (pathMatchesPrefix (py "../../etc/passwd") (py "..") = true ↔
        Contained (py "../../etc/passwd") (py "..")) ∧
      ¬ (pathMatchesPrefix (py "..config") (py ".") = true ↔ Contained (py "..config") (py ".")) := by
  rw [contained_relative_iff rfl rfl, contained_relative_iff rfl rfl]
  decide

end Security
end KineticSdk
