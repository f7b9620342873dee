/-
  KineticSdk.Skills.Vet

  `StaticSkillScanner` and `vet_skill` (`skills/vet.py`).

  The scanner searches the body of SKILL.md and every listed resource that is
  not too large.  What the judge model finds is an argument of `vetSkill`: it
  can only add flags.
-/

import KineticSdk.Lib.Wp
import KineticSdk.Skills.Skill

namespace KineticSdk
namespace Skills

open Py Os Regex

-- ============================================================================
-- Flags
-- ============================================================================

/-- `Severity`. -/
inductive Severity where
  | warning
  | critical
deriving DecidableEq

/-- `VetFlag`. -/
structure VetFlag where
  severity : Severity
  category : PyStr
  message : PyStr
  location : PyStr
deriving DecidableEq

/-- `VetResult`. -/
structure VetResult where
  clean : Bool
  flags : List VetFlag := []
  reviewedByLlm : Bool := false
deriving DecidableEq

-- ============================================================================
-- Patterns
-- ============================================================================

/-- `\s+`. -/
def spaces : Regex := plus (.chr isSpace)

/-- `[^.]{0,n}`. -/
def withinSentence (n : Nat) : Regex := upTo n (.chr fun c => c != 46)

/-- `x` matches the letter `c` of a Vietnamese word when case is ignored. -/
def eqIgnoreCaseVi (c x : Nat) : Bool :=
  eqIgnoreCase c x || (c == 0xE1 && x == 0xC1) || (0xFF < c && x + 1 == c)

/-- A Vietnamese word under `(?i)`. -/
def litVi (s : String) : Regex := cat ((py s).map fun c => .chr (eqIgnoreCaseVi c))

/-- One of the words under `(?i)`. -/
def wordsI (words : List String) : Regex := alts (words.map litI)

/-- Words under `(?i)` with `\s+` between them. -/
def phraseI (words : List String) : Regex := cat ((words.map litI).intersperse spaces)

/-- Vietnamese words under `(?i)` with `\s+` between them. -/
def phraseVi (words : List String) : Regex := cat ((words.map litVi).intersperse spaces)

/-- One of the words under `(?i)` and `\s+`, or nothing. -/
def optWordI (words : List String) : Regex := opt (.seq (wordsI words) spaces)

/-- `\d{1,3}`. -/
def octet : Regex := between 1 3 (.chr fun c => (digitValue c).isSome)

/-- An entry of `_PATTERNS`. -/
structure Pattern where
  regex : Regex
  category : PyStr
  severity : Severity

/-- `StaticSkillScanner._PATTERNS`. -/
def patterns : List Pattern := [
  -- instructions to override what the model was told
  ⟨cat [litI "ignore", spaces, optWordI ["all", "any", "the"],
      wordsI ["previous", "prior", "above", "earlier"], spaces,
      wordsI ["instructions", "prompts", "messages", "directions"]],
    py "prompt_injection", .critical⟩,
  ⟨cat [litI "disregard", spaces, optWordI ["your", "the", "all"],
      alts [phraseI ["system", "prompt"], phraseI ["previous", "instructions"], litI "instructions"]],
    py "prompt_injection", .critical⟩,
  ⟨cat [.wordB, phraseI ["you", "are", "now"], .wordB], py "prompt_injection", .critical⟩,
  ⟨alts [cat [.wordB, phraseI ["do", "not", "refuse"], .wordB],
      cat [.wordB, phraseI ["always", "comply"], .wordB]], py "prompt_injection", .critical⟩,
  ⟨cat [phraseVi ["bỏ", "qua"], spaces, opt (.seq (alts [litVi "các", litVi "mọi"]) spaces),
      alts [phraseVi ["chỉ", "dẫn"], phraseVi ["hướng", "dẫn"], phraseVi ["chỉ", "thị"]], spaces,
      litVi "trước"], py "prompt_injection", .critical⟩,
  -- what runs when it is shown, or without being asked for
  ⟨cat [lit "!\x60", plus (.chr fun c => c != 96), lit "\x60"], py "auto_exec", .critical⟩,
  ⟨alts [cat [litI "run", spaces, alts [wordsI ["this", "these"], phraseI ["the", "following"]],
        withinSentence 60, litI "automatically"],
      cat [litI "execute", spaces, alts [litI "this", phraseI ["the", "following"]], withinSentence 60,
        litI "without", spaces, wordsI ["asking", "confirmation"]]], py "auto_exec", .critical⟩,
  -- sending secrets, reading sensitive files
  ⟨cat [wordsI ["send", "upload", "post", "exfiltrate", "transmit", "forward"], withinSentence 80,
      alts [litI "secret", litI "token", litI "credential",
        cat [litI "api", opt (.chr (oneOf "_-")), litI "key"], litI "password", phraseI ["private", "key"]],
      withinSentence 80,
      alts [cat [litI "http", opt (litI "s"), lit "://"],
        cat [litI "to", spaces, litI "a", opt (litI "n"), spaces, wordsI ["external", "remote"], spaces,
          wordsI ["server", "url", "endpoint"]]]], py "credential_exfil", .critical⟩,
  ⟨cat [wordsI ["read", "cat", "copy", "upload", "send", "print", "show"], withinSentence 60,
      alts [litI ".ssh/", litI "~/.aws", litI ".aws/credentials", litI "id_rsa", litI "id_ed25519",
        .seq (litI ".env") .wordB]], py "credential_exfil", .critical⟩,
  -- going around the rails of the SDK
  ⟨cat [alts [wordsI ["skip", "bypass", "disable", "ignore"], phraseI ["turn", "off"]], withinSentence 60,
      wordsI ["permission", "confirmation", "audit", "policy", "logging"]],
    py "permission_bypass", .critical⟩,
  ⟨alts [cat [litI "auto", opt (.chr (oneOf "- ")), litI "confirm"],
      phraseI ["confirm", "on", "behalf", "of", "the", "user"],
      cat [phraseI ["do", "not"], spaces, wordsI ["show", "display", "tell"], withinSentence 40,
        litI "user"],
      cat [phraseVi ["tự", "động"], spaces, alts [phraseVi ["xác", "nhận"], litI "confirm"]]],
    py "permission_bypass", .critical⟩,
  -- addresses to look at
  ⟨cat [.wordB, alts [lit "curl", lit "wget"], spaces, upTo 200 (.chr fun c => c != 124 && c != 10),
      lit "|", .star (.chr isSpace), opt (.seq (lit "sudo") spaces), alts [lit "sh", lit "bash"], .wordB],
    py "suspicious_url", .warning⟩,
  ⟨cat [lit "http", opt (lit "s"), lit "://", octet, lit ".", octet, lit ".", octet, lit ".", octet],
    py "suspicious_url", .warning⟩,
  ⟨cat [litI "http", opt (litI "s"), lit "://", alts [litI "bit.ly", litI "tinyurl.com", litI "t.co",
      litI "goo.gl"], lit "/"], py "suspicious_url", .warning⟩]

/-- `pattern.search(text)`: the text of the first match. -/
def find (re : Regex) : Option Nat → PyStr → Option PyStr
  | prev, [] => (matchAt re prev []).map fun _ => []
  | prev, c :: cs =>
      match matchAt re prev (c :: cs) with
      | some m => some ((c :: cs).take m.length)
      | none => find re (some c) cs

/-- `_HIDDEN_CHARS`, `_HIDDEN_CHAR_RANGES`, and the control characters that are no
    white space. -/
def isHidden (c : Nat) : Bool :=
  [0x200B, 0x200C, 0x200D, 0xFEFF].contains c || (0xE0000 ≤ c && c ≤ 0xE007F) ||
    (c < 0x20 && !(c == 9 || c == 10 || c == 13)) || c == 0x7F

/-- `_find_hidden_chars`. -/
def findHiddenChars (text : PyStr) : Option Nat := List.find? isHidden text

/-- `f"{n:04X}"`. -/
def upperHex (n : Nat) : PyStr :=
  (hexText (if n < 0x10000 then 4 else if n < 0x100000 then 5 else 6) n).map fun c =>
    if 97 ≤ c then c - 32 else c

-- ============================================================================
-- Scanning
-- ============================================================================

/-- `MAX_RESOURCE_SCAN_BYTES`. -/
def maxResourceScanBytes : Nat := 1024 * 1024

/-- The flag of a pattern that is found. -/
def patternFlag (location text : PyStr) (p : Pattern) : Option VetFlag :=
  (find p.regex none text).map fun found =>
    ⟨p.severity, p.category, py "matched " ++ p.category ++ py " pattern " ++ pyReprStr (found.take 40),
      location⟩

/-- The flag of a hidden character. -/
def hiddenFlag (location : PyStr) (hidden : Nat) : VetFlag :=
  ⟨.critical, py "hidden_unicode",
    py "hidden Unicode character U+" ++ upperHex hidden ++ py " (possible invisible instruction)", location⟩

/-- `_scan_text`. -/
def scanText (location text : PyStr) : List VetFlag :=
  patterns.filterMap (patternFlag location text) ++
    (findHiddenChars text).toList.map (hiddenFlag location)

/-- `_read_resource_capped`. -/
def readResourceCapped (root : Node) (skill : Skill) (resource : PyStr) : SkillM (Option PyStr) := do
  let size ← getSize root (joinPath skill.rootPath resource)
  if maxResourceScanBytes < size then return none
  return some (← skill.readResource root resource)

/-- The documents `scan` goes through, each with its text or without one. -/
def documents (root : Node) (skill : Skill) : SkillM (List (PyStr × Option PyStr)) := do
  let main ← skill.readMain root
  let resources ← skill.listResources root
  let texts ← resources.mapM fun resource => do
    return (resource, ← readResourceCapped root skill resource)
  return (skillFileName, some main) :: texts

/-- The flags of one document. -/
def scanDocument (document : PyStr × Option PyStr) : List VetFlag :=
  match document.2 with
  | none =>
      [⟨.warning, py "resource_skipped", py "resource exceeds the scan size limit and was not scanned",
        document.1⟩]
  | some text => scanText document.1 text

/-- `not any(flag.severity == "critical" for flag in flags)`. -/
def allClean (flags : List VetFlag) : Bool := !flags.any fun flag => flag.severity = .critical

/-- `StaticSkillScanner.scan`. -/
def scan (root : Node) (skill : Skill) : SkillM VetResult := do
  let docs ← documents root skill
  let flags := docs.flatMap scanDocument
  return ⟨allClean flags, flags, false⟩

/-- `vet_skill`.  `review` is what the judge model comes to, if there is one. -/
def vetSkill (root : Node) (skill : Skill) (review : Option VetResult) (raiseOnCritical : Bool) :
    SkillM VetResult := do
  let static ← scan root skill
  let reviewed := if static.clean then review else none
  let flags := static.flags ++ (reviewed.map VetResult.flags).getD []
  let clean := allClean flags
  if raiseOnCritical && !clean then
    let categories := ((flags.filter fun flag => flag.severity = .critical).map VetFlag.category).dedup
    throw (.vet (py "skill " ++ pyReprStr skill.name ++ py " failed vetting: critical findings in categories "
      ++ pyRepr (.arr ((categories.insertionSort (· ≤ ·)).map .str))))
  return ⟨clean, flags, (reviewed.map VetResult.reviewedByLlm).getD false⟩

-- ============================================================================
-- What a clean result says
-- ============================================================================

/-- No critical pattern and no hidden character is found in the text. -/
def Clean (text : PyStr) : Prop :=
  (∀ p ∈ patterns, p.severity = .critical → find p.regex none text = none) ∧ findHiddenChars text = none

theorem clean_of_scanText (location : PyStr) {text : PyStr}
    (h : ∀ flag ∈ scanText location text, flag.severity ≠ .critical) : Clean text := by
  refine ⟨fun p hp hcritical => ?_, ?_⟩
  · cases hfind : find p.regex none text with
    | none => rfl
    | some found =>
        have hflag : patternFlag location text p = some ⟨p.severity, p.category, py "matched " ++ p.category
            ++ py " pattern " ++ pyReprStr (found.take 40), location⟩ := by
          unfold patternFlag
          rw [hfind]
          rfl
        have hmem := List.mem_append_left ((findHiddenChars text).toList.map (hiddenFlag location))
          (List.mem_filterMap.mpr ⟨p, hp, hflag⟩)
        exact absurd hcritical (h _ hmem)
  · cases hhidden : findHiddenChars text with
    | none => rfl
    | some c =>
        have hmem : hiddenFlag location c ∈ scanText location text := by
          unfold scanText
          rw [hhidden]
          exact List.mem_append_right _ (List.mem_singleton.mpr rfl)
        exact absurd rfl (h _ hmem)

/-- A clean result: every document that has a text was searched and is clean. -/
theorem vetSkill_clean {root : Node} {skill : Skill} {review : Option VetResult} {raiseOnCritical : Bool}
    {result : VetResult} (h : vetSkill root skill review raiseOnCritical = .ok result)
    (hclean : result.clean = true) :
    ∃ docs, documents root skill = .ok docs ∧ ∀ location text, (location, some text) ∈ docs → Clean text := by
  unfold vetSkill at h
  obtain ⟨static, hstatic, h⟩ := Lib.bind_ok h
  unfold scan at hstatic
  obtain ⟨docs, hdocs, hstatic⟩ := Lib.bind_ok hstatic
  cases hstatic
  refine ⟨docs, hdocs, fun location text hmem => clean_of_scanText location fun flag hflag => ?_⟩
  have hall : ∃ others, allClean (docs.flatMap scanDocument ++ others) = true := by
    dsimp only at h
    generalize (if allClean (docs.flatMap scanDocument) = true then review else none) = reviewed at h
    by_cases hraise : (raiseOnCritical && !allClean (docs.flatMap scanDocument
        ++ (reviewed.map VetResult.flags).getD [])) = true
    · rw [if_pos hraise] at h
      cases h
    · rw [if_neg hraise] at h
      cases h
      exact ⟨_, hclean⟩
  obtain ⟨others, hall⟩ := hall
  intro hcritical
  have hany : (docs.flatMap scanDocument ++ others).any (fun flag => flag.severity = .critical) = true :=
    List.any_eq_true.mpr ⟨flag, List.mem_append_left _ (List.mem_flatMap.mpr ⟨_, hmem, hflag⟩),
      by simpa using hcritical⟩
  unfold allClean at hall
  rw [hany] at hall
  cases hall

end Skills
end KineticSdk
