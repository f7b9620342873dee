/-
  KineticSdk.Security.Policy

  The permission policies the library ships (`security/policy.py`).

  Python's regular expression engine and its URL parser are parameters
  (`Matching`): a policy only asks whether a pattern matches and which host a
  URL names.  Everything else, path normalisation included, is computed here.
-/

import KineticSdk.Py.Repr

namespace KineticSdk
namespace Security

open Py

/-- `PermissionDecision`. -/
structure PermissionDecision where
  allowed : Bool
  reason : PyStr := []
  requiresConfirmation : Bool := false
deriving DecidableEq

/-- The parts of the standard library a policy asks. -/
structure Matching where
  /-- `re.search(pattern, text) is not None`; `none` when the pattern does not compile. -/
  search : PyStr → PyStr → Option Bool
  /-- `urlparse(url).hostname`, which may raise `ValueError`. -/
  hostname : PyStr → Except PyExc (Option PyStr)

/-- `sub in s` for texts. -/
def hasInfix (sub s : PyStr) : Bool := s.tails.any (startsWith sub)

/-- `_matches_pattern`: an invalid pattern is matched literally. -/
def matchesPattern (m : Matching) (pattern text : PyStr) : Bool :=
  (m.search pattern text).getD (hasInfix pattern text)

-- ============================================================================
-- Paths
-- ============================================================================

/-- The component loop of `posixpath.normpath`, with the components kept so far
    in reverse. -/
def normComps (rooted : Bool) : List PyStr → List PyStr → List PyStr
  | kept, [] => kept.reverse
  | kept, comp :: comps =>
      if comp = [] || comp = py "." then normComps rooted kept comps
      else if comp != py ".." || (!rooted && kept.isEmpty) || kept.head? = some (py "..") then
        normComps rooted (comp :: kept) comps
      else normComps rooted kept.tail comps

/-- `path.split("/")`. -/
def splitSlash : PyStr → List PyStr
  | [] => [[]]
  | c :: cs =>
      if c = 47 then [] :: splitSlash cs
      else
        match splitSlash cs with
        | [] => [[c]]
        | w :: ws => (c :: w) :: ws

/-- `posixpath.normpath`: exactly two leading slashes are kept. -/
def normpath (path : PyStr) : PyStr :=
  if path = [] then py "."
  else
    let slashes : PyStr :=
      if startsWith (py "//") path && !startsWith (py "///") path then py "//"
      else if startsWith (py "/") path then py "/"
      else []
    let path := slashes ++ join (py "/") (normComps (slashes != []) [] (splitSlash path))
    if path = [] then py "." else path

/-- One rooted namespace: two leading slashes count as one. -/
def canonicalRoot (path : PyStr) : PyStr :=
  if startsWith (py "//") path then py "/" ++ path.dropWhile (· == 47) else path

/-- `_path_matches_prefix`. -/
def pathMatchesPrefix (path pre : PyStr) : Bool :=
  let path := canonicalRoot (normpath path)
  let pre := canonicalRoot (normpath pre)
  if startsWith (py "/") path != startsWith (py "/") pre then false
  else if pre = py "/" then startsWith (py "/") path
  else if pre = py "." then !startsWith (py "..") path
  else path = pre || startsWith (pre ++ py "/") path

example : pathMatchesPrefix (py "/etc/../etc/passwd") (py "/etc") = true := by decide

example : pathMatchesPrefix (py "/etcetera/notes.txt") (py "/etc") = false := by decide

-- ============================================================================
-- Rules
-- ============================================================================

/-- `PolicyRule`. -/
structure PolicyRule where
  toolName : Option PyStr := none
  pathPrefix : Option PyStr := none
  domainPattern : Option PyStr := none
  commandPattern : Option PyStr := none
  decision : PermissionDecision := { allowed := false }

/-- `tool_input.get(key)`: only a dictionary has the method. -/
def inputGet (toolInput : Json) (key : PyStr) : Except PyExc (Option Json) :=
  match toolInput with
  | .obj kvs => .ok (Dict.get? kvs key)
  | v => .error ⟨py "AttributeError", py "'" ++ typeName v ++ py "' object has no attribute 'get'"⟩

/-- `_input_domain`. -/
def inputDomain (m : Matching) (toolInput : Json) : Except PyExc (Option PyStr) := do
  match ← inputGet toolInput (py "domain") with
  | some (.str (c :: cs)) => pure (some (c :: cs))
  | _ =>
      match ← inputGet toolInput (py "url") with
      | some (.str (c :: cs)) =>
          let url := c :: cs
          m.hostname (if hasInfix (py "://") url then url else py "//" ++ url)
      | _ => pure none

/-- The `path` selector of a rule. -/
def PolicyRule.pathApplies (rule : PolicyRule) (toolInput : Json) : Except PyExc Bool :=
  match rule.pathPrefix with
  | none => pure true
  | some pre => do
      match ← inputGet toolInput (py "path") with
      | some (.str path) => pure (pathMatchesPrefix path pre)
      | _ => pure false

/-- The domain selector of a rule. -/
def PolicyRule.domainApplies (m : Matching) (rule : PolicyRule) (toolInput : Json) :
    Except PyExc Bool :=
  match rule.domainPattern with
  | none => pure true
  | some pattern => do
      match ← inputDomain m toolInput with
      | some domain => pure (matchesPattern m pattern domain)
      | none => pure false

/-- The command selector of a rule. -/
def PolicyRule.commandApplies (m : Matching) (rule : PolicyRule) (toolInput : Json) :
    Except PyExc Bool :=
  match rule.commandPattern with
  | none => pure true
  | some pattern => do
      match ← inputGet toolInput (py "command") with
      | some (.str command) => pure (matchesPattern m pattern command)
      | _ => pure false

/-- Every populated selector matches; a selector is only read when those
    before it did. -/
def PolicyRule.applies (m : Matching) (rule : PolicyRule) (toolName : PyStr) (toolInput : Json) :
    Except PyExc Bool := do
  if rule.toolName.any (· != toolName) then pure false
  else if !(← rule.pathApplies toolInput) then pure false
  else if !(← rule.domainApplies m toolInput) then pure false
  else rule.commandApplies m toolInput

/-- `RuleBasedPolicy.check`: the first rule that applies decides. -/
def checkRules (m : Matching) (rules : List PolicyRule) (default : PermissionDecision)
    (toolName : PyStr) (toolInput : Json) : Except PyExc PermissionDecision :=
  match rules with
  | [] => .ok default
  | rule :: rules => do
      if ← rule.applies m toolName toolInput then pure rule.decision
      else checkRules m rules default toolName toolInput

-- ============================================================================
-- The policies
-- ============================================================================

/-- The permission policies of the library. -/
inductive ShippedPolicy where
  | permissive
  | allowList (alwaysAllow : List PyStr) (patterns : List (PyStr × List PyStr))
  | ruleBased (rules : List PolicyRule) (defaultDecision : PermissionDecision)

/-- `_first_match`. -/
def firstMatch (m : Matching) (patterns : List PyStr) (text : PyStr) : Option PyStr :=
  patterns.find? fun pattern => matchesPattern m pattern text

/-- `AllowListPolicy.check`; `_serialise_input` is `json.dumps`. -/
def checkAllowList (m : Matching) (alwaysAllow : List PyStr) (patterns : List (PyStr × List PyStr))
    (toolName : PyStr) (toolInput : Json) : PermissionDecision :=
  if !alwaysAllow.contains toolName then
    { allowed := false, reason := py "tool not in allow-list" }
  else
    match firstMatch m ((Dict.get? patterns toolName).getD []) (dumps false toolInput) with
    | some pattern =>
        { allowed := true, reason := py "input matched dangerous pattern " ++ pyReprStr pattern,
          requiresConfirmation := true }
    | none => { allowed := true, reason := py "tool in allow-list" }

/-- `PermissionPolicy.check` of a shipped policy. -/
def ShippedPolicy.check (m : Matching) (p : ShippedPolicy) (toolName : PyStr) (toolInput : Json) :
    Except PyExc PermissionDecision :=
  match p with
  | .permissive => .ok { allowed := true, reason := py "permissive policy (dev/test only)" }
  | .allowList alwaysAllow patterns => .ok (checkAllowList m alwaysAllow patterns toolName toolInput)
  | .ruleBased rules default => checkRules m rules default toolName toolInput

end Security
end KineticSdk
