/-
  KineticSdk.Plugin.Visitor

  `_PluginVisitor` (`plugin/scanner.py`), and what Python's scoping makes of the
  names it resolves.

  The visitor keeps one flat map of aliases that it fills while it walks, so a
  name stands for what the last import before it says, whatever the scope of
  that import (`aliases_eq`).  Python looks a name up in its scope, wherever in
  it the import stands, and through star imports.  A call that spawns a process
  is reported exactly when the first reading shows it too (`seesThrough_iff`).
-/

import KineticSdk.Py.Repr
import KineticSdk.Skills.Vet
import Mathlib.Data.List.Induction

namespace KineticSdk
namespace Plugin

open Py Skills

-- ============================================================================
-- Syntax trees
-- ============================================================================

/-- `ast.alias`. -/
structure ImportAlias where
  name : PyStr
  asname : Option PyStr := none

/-- What a scope belongs to. -/
inductive ScopeKind where
  | module
  | function
  | classBody
deriving DecidableEq

/-- The nodes of a syntax tree.  Of those the visitor has no method for, `other` keeps the
    children in the order of `_fields`; the scope of a function, a lambda, a comprehension
    or a class is a node of its own, and what stands inside it but belongs outside, as the
    first iterable of a comprehension, is `outer`.  `binding` marks a name that is bound by
    something else than an import: an assignment, a parameter, a definition, a loop, a
    deletion. -/
inductive AstNode where
  | name (line : Nat) (id : PyStr)
  | attribute (line : Nat) (value : AstNode) (attr : PyStr)
  | call (line : Nat) (func : AstNode) (args keywords : List AstNode)
  /-- A literal, with its text if it is a string. -/
  | constant (text : Option PyStr)
  | importStmt (line : Nat) (names : List ImportAlias)
  /-- The module is empty where there is none. -/
  | importFrom (line : Nat) (level : Nat) (module : PyStr) (names : List ImportAlias)
  /-- An assignment or a deletion: its targets and the rest of it. -/
  | write (line : Nat) (verb : PyStr) (targets rest : List AstNode)
  | subscript (value slice : AstNode)
  | starred (value : AstNode)
  /-- A tuple or a list. -/
  | sequence (elts : List AstNode)
  | scope (kind : ScopeKind) (body : List AstNode)
  | outer (child : AstNode)
  | binding (name : PyStr)
  /-- `global` or `nonlocal`. -/
  | declare (isGlobal : Bool) (names : List PyStr)
  | other (children : List AstNode)

/-- A scope: the place of its node, and its kind. -/
structure Frame where
  place : List Nat
  kind : ScopeKind
deriving DecidableEq

/-- The scopes around a node, innermost first. -/
abbrev Chain := List Frame

mutual

/-- A node and those below it with their scopes, in the order of the walk: a method of the
    visitor looks at its node before `generic_visit` goes to the children. -/
def occurrences (chain : Chain) (place : List Nat) : AstNode → List (Chain × AstNode)
  | .attribute line value attr => (chain, .attribute line value attr) :: occurrences chain (0 :: place) value
  | .call line func args keywords =>
      (chain, .call line func args keywords) :: (occurrences chain (0 :: place) func
        ++ occurrencesIn chain (1 :: place) 0 args ++ occurrencesIn chain (2 :: place) 0 keywords)
  | .write line verb targets rest =>
      (chain, .write line verb targets rest) :: (occurrencesIn chain (0 :: place) 0 targets
        ++ occurrencesIn chain (1 :: place) 0 rest)
  | .subscript value slice =>
      (chain, .subscript value slice) :: (occurrences chain (0 :: place) value ++ occurrences chain (1 :: place) slice)
  | .starred value => (chain, .starred value) :: occurrences chain (0 :: place) value
  | .sequence elts => (chain, .sequence elts) :: occurrencesIn chain place 0 elts
  | .scope kind body => (chain, .scope kind body) :: occurrencesIn (⟨place, kind⟩ :: chain) place 0 body
  | .outer child => (chain, .outer child) :: occurrences chain.tail (0 :: place) child
  | .other children => (chain, .other children) :: occurrencesIn chain place 0 children
  | leaf => [(chain, leaf)]

/-- The nodes of a list and those below them, from the index on. -/
def occurrencesIn (chain : Chain) (place : List Nat) (index : Nat) : List AstNode → List (Chain × AstNode)
  | [] => []
  | node :: rest => occurrences chain (index :: place) node ++ occurrencesIn chain place (index + 1) rest

end

section
-- its equations are made once, before the proofs below
attribute [local simp] occurrences
end

/-- The nodes of a module. -/
def walkModule (module : List AstNode) : List (Chain × AstNode) := occurrencesIn [⟨[], .module⟩] [] 0 module

-- ============================================================================
-- The visitor
-- ============================================================================

/-- `NETWORK_MODULES`. -/
def networkModules : List PyStr :=
  [py "socket", py "urllib", py "http", py "requests", py "httpx", py "aiohttp"]

/-- `_DYNAMIC_BUILTINS`. -/
def dynamicBuiltins : List PyStr := [py "eval", py "exec", py "compile"]

/-- `_SUBPROCESS_CALLS`. -/
def subprocessCalls : List PyStr := [py "Popen", py "run", py "call", py "check_call", py "check_output"]

/-- `_OS_SHELL_CALLS`. -/
def osShellCalls : List PyStr := [py "os.system", py "os.popen"]

/-- `_SECURITY_NAMESPACE`. -/
def securityNamespace : PyStr := py "kinetic_sdk.security"

/-- `_aliases`. -/
abbrev Aliases := List (PyStr × PyStr)

/-- `name.split(".")[0]`. -/
def rootModule (name : PyStr) : PyStr := (splitChar 46 name).headD []

/-- The root and the attributes of a chain of attributes of a name. -/
def dotted : AstNode → Option (PyStr × List PyStr)
  | .name _ id => some (id, [])
  | .attribute _ value attr => (dotted value).map fun chain => (chain.1, chain.2 ++ [attr])
  | _ => none

/-- `".".join([first, *parts[1:]])`. -/
def dottedPath (first : PyStr) (attrs : List PyStr) : PyStr := join [46] (first :: attrs)

/-- `_resolve`. -/
def resolve (aliases : Aliases) (node : AstNode) : Option PyStr :=
  (dotted node).map fun chain => dottedPath ((Dict.get? aliases chain.1).getD chain.1) chain.2

/-- `_is_security_namespace_write`. -/
def isSecurityNamespaceWrite (aliases : Aliases) (target : AstNode) : Bool :=
  match resolve aliases target with
  | none => false
  | some resolved => resolved == securityNamespace || startsWith (securityNamespace ++ [46]) resolved

mutual

/-- `_outermost_attributes`. -/
def outermostAttributes : AstNode → List AstNode
  | .attribute line value attr => [.attribute line value attr]
  | .subscript value _ => outermostAttributes value
  | .starred value => outermostAttributes value
  | .sequence elts => outermostAttributesIn elts
  | _ => []

/-- The same of the elements of a tuple or a list. -/
def outermostAttributesIn : List AstNode → List AstNode
  | [] => []
  | element :: rest => outermostAttributes element ++ outermostAttributesIn rest

end

/-- `_add`. -/
def flagAt (location : PyStr) (line : Nat) (severity : Severity) (category message : PyStr) : VetFlag :=
  ⟨severity, category, message, location ++ py ":" ++ natText line⟩

/-- `isinstance(node, ast.Constant)`. -/
def AstNode.isConstant : AstNode → Bool
  | .constant _ => true
  | _ => false

/-- A constant that is a string. -/
def AstNode.isText : AstNode → Bool
  | .constant (some _) => true
  | _ => false

/-- `visit_Call`, the flags. -/
def callFlags (location : PyStr) (aliases : Aliases) (line : Nat) (func : AstNode) (args keywords : List AstNode) :
    List VetFlag :=
  let flag := flagAt location line
  match resolve aliases func with
  | none => []
  | some resolved =>
      if resolved ∈ dynamicBuiltins then
        if (args ++ keywords).any (fun value => !value.isConstant) || (args ++ keywords).isEmpty then
          [flag .critical (py "code_execution") (py "calls " ++ resolved
            ++ py "() with non-literal input — dynamic code execution evades static review")]
        else []
      else if resolved = py "__import__" ∨ resolved = py "importlib.import_module" then
        if (args.head?.any AstNode.isText) = false then
          [flag .critical (py "dynamic_import") (py "calls " ++ resolved
            ++ py "() with a non-constant module name — dynamic imports evade static analysis")]
        else []
      else if resolved ∈ osShellCalls then
        [flag .critical (py "process_spawn") (py "calls " ++ resolved ++ py "() directly — subprocesses must go "
          ++ py "through a controlled SDK wrapper (e.g. GitTool), not raw shell calls")]
      else if startsWith (py "subprocess.") resolved then
        if (splitChar 46 resolved).getLastD [] ∈ subprocessCalls then
          [flag .critical (py "process_spawn") (py "calls " ++ resolved ++ py "() directly — subprocesses must go "
            ++ py "through a controlled SDK wrapper (e.g. GitTool), not raw subprocess")]
        else []
      else if resolved = py "setattr" then
        if args.head?.any (isSecurityNamespaceWrite aliases) then
          [flag .critical (py "security_tamper") (py "setattr() targeting the kinetic_sdk.security namespace — "
            ++ py "monkey-patching the SDK's security module can disable permission checks for every later request")]
        else []
      else if resolved = py "getattr" then
        match args with
        | object :: .constant (some attr) :: _ =>
            if attr = py "environ" ∧ resolve aliases object = some (py "os") then
              [flag .critical (py "env_access") (py "getattr(os, 'environ') — secrets must go through "
                ++ py "SecretRegistry like every other SDK module")]
            else []
        | _ => []
      else if resolved = py "open" then
        if args ≠ [] ∧ (args.head?.any AstNode.isText) = false then
          [flag .warning (py "dynamic_file_access") (py "open() with a non-literal path — may read/write outside "
            ++ py "the workspace")]
        else []
      else []

/-- The flags a visitor method adds, before `generic_visit`. -/
def flagsOf (location : PyStr) (aliases : Aliases) : AstNode → List VetFlag
  | .importStmt line names =>
      names.filterMap fun imported =>
        if rootModule imported.name ∈ networkModules then
          some (flagAt location line .warning (py "direct_network") (py "imports " ++ pyReprStr imported.name
            ++ py " — direct network access outside the managed mcp/ channel"))
        else none
  | .importFrom line _ module _ =>
      if module ≠ [] ∧ rootModule module ∈ networkModules then
        [flagAt location line .warning (py "direct_network") (py "imports from " ++ pyReprStr module
          ++ py " — direct network access outside the managed mcp/ channel")]
      else []
  | .attribute line value attr =>
      if resolve aliases (.attribute line value attr) = some (py "os.environ") then
        [flagAt location line .critical (py "env_access") (py "accesses os.environ directly — secrets must go "
          ++ py "through SecretRegistry like every other SDK module")]
      else []
  | .name line id =>
      if Dict.get? aliases id = some (py "os.environ") then
        [flagAt location line .critical (py "env_access") (py "uses os.environ (via from-import) — secrets must go "
          ++ py "through SecretRegistry like every other SDK module")]
      else []
  | .write line verb targets _ =>
      ((outermostAttributesIn targets).filter (isSecurityNamespaceWrite aliases)).map fun _ =>
        flagAt location line .critical (py "security_tamper") (verb ++ py " the kinetic_sdk.security namespace — "
          ++ py "writing to the SDK's security module can disable permission checks for every later request")
  | .call line func args keywords => callFlags location aliases line func args keywords
  | _ => []

/-- How `visit_Import` and `visit_ImportFrom` read a node: the names and what they stand for
    from here on. -/
def aliasesOf : AstNode → Aliases
  | .importStmt _ names =>
      names.map fun imported =>
        match imported.asname with
        | some asname => (asname, imported.name)
        | none => (rootModule imported.name, rootModule imported.name)
  | .importFrom _ _ module names =>
      if module = [] then []
      else names.map fun imported => (imported.asname.getD imported.name, module ++ [46] ++ imported.name)
  | _ => []

/-- The state of a visitor. -/
structure Visitor where
  aliases : Aliases := []
  flags : List VetFlag := []

/-- What the visitor does at one node. -/
def Visitor.visit (location : PyStr) (visitor : Visitor) (node : AstNode) : Visitor :=
  ⟨(aliasesOf node).foldl (fun aliases imported => Dict.set aliases imported.1 imported.2) visitor.aliases,
    visitor.flags ++ flagsOf location visitor.aliases node⟩

/-- The visitor behind some nodes. -/
def visitAll (location : PyStr) (nodes : List (Chain × AstNode)) : Visitor :=
  nodes.foldl (fun visitor occurrence => visitor.visit location occurrence.2) {}

/-- `scan_source`, from the syntax tree of the source. -/
def scanModule (location : PyStr) (module : List AstNode) : List VetFlag :=
  (visitAll location (walkModule module)).flags

-- ============================================================================
-- Scopes
-- ============================================================================

section Scoping

variable (exports : PyStr → List PyStr) (occs : List (Chain × AstNode))

/-- What an import statement binds a name to, as dotted paths.  A star import binds what the
    module exports; a relative import leads elsewhere than the absolute one. -/
def importPaths (x : PyStr) : AstNode → List PyStr
  | .importStmt _ names =>
      names.filterMap fun imported =>
        match imported.asname with
        | some asname => if asname = x then some imported.name else none
        | none => if rootModule imported.name = x then some x else none
  | .importFrom _ level module names =>
      let base := List.replicate level 46 ++ module
      names.filterMap fun imported =>
        if imported.name = py "*" then if x ∈ exports base then some (base ++ [46] ++ x) else none
        else if imported.asname.getD imported.name = x then some (base ++ [46] ++ imported.name) else none
  | _ => []

/-- The name is bound here by something else than an import. -/
def bindsOtherwise (x : PyStr) : AstNode → Bool
  | .binding name => name == x
  | _ => false

/-- A `global` or a `nonlocal` statement for the name stands in the scope. -/
def declares (isGlobal : Bool) (frame : Frame) (x : PyStr) : Bool :=
  occs.any fun occurrence => occurrence.1.head? == some frame &&
    match occurrence.2 with
    | .declare g names => g == isGlobal && names.contains x
    | _ => false

/-- The name is bound in the scope. -/
def boundIn (frame : Frame) (x : PyStr) : Bool :=
  occs.any fun occurrence => occurrence.1.head? == some frame &&
    (bindsOtherwise x occurrence.2 || !(importPaths exports x occurrence.2).isEmpty)

/-- The scope around some scopes that a free name of theirs belongs to: classes are passed
    over, and at last there is the module. -/
def enclosing (x : PyStr) : Chain → Option Frame
  | [] => none
  | [frame] => some frame
  | frame :: rest =>
      if frame.kind = .classBody then enclosing x rest
      else if declares occs true frame x then rest.getLast?
      else if declares occs false frame x then enclosing x rest
      else if boundIn exports occs frame x then some frame
      else enclosing x rest

/-- The scope a name belongs to where it stands. -/
def home (x : PyStr) : Chain → Option Frame
  | [] => none
  | [frame] => some frame
  | frame :: rest =>
      if declares occs true frame x then rest.getLast?
      else if declares occs false frame x then enclosing exports occs x rest
      else if boundIn exports occs frame x then some frame
      else enclosing exports occs x rest

/-- Where it stands the name is bound by import statements only, and all to one path. -/
def ImportedAs (chain : Chain) (x path : PyStr) : Prop :=
  (∃ occ ∈ occs, home exports occs x occ.1 = home exports occs x chain ∧ path ∈ importPaths exports x occ.2) ∧
    ∀ occ ∈ occs, home exports occs x occ.1 = home exports occs x chain →
      bindsOtherwise x occ.2 = false ∧ ∀ other ∈ importPaths exports x occ.2, other = path

instance (chain : Chain) (x path : PyStr) : Decidable (ImportedAs exports occs chain x path) :=
  inferInstanceAs (Decidable (_ ∧ _))

/-- `os.system`, `os.popen` and the flagged functions of `subprocess`. -/
def spawnFunctions : List PyStr := osShellCalls ++ subprocessCalls.map fun name => py "subprocess." ++ name

/-- The chain of attributes is bound by imports to a function that spawns a process. -/
def BoundToSpawn (chain : Chain) (func : AstNode) : Prop :=
  ∃ x attrs path, dotted func = some (x, attrs) ∧ ImportedAs exports occs chain x path ∧
    dottedPath path attrs ∈ spawnFunctions

end Scoping

-- ============================================================================
-- What the visitor knows at a node
-- ============================================================================

/-- What the last import that names it says, of those the visitor reads. -/
def lastImport (nodes : List (Chain × AstNode)) (x : PyStr) : Option PyStr :=
  (nodes.flatMap fun occurrence => aliasesOf occurrence.2).reverse.lookup x

theorem get?_foldl_set (aliases : Aliases) (d : Aliases) (x : PyStr) :
    Dict.get? (aliases.foldl (fun d imported => Dict.set d imported.1 imported.2) d) x
      = (aliases.reverse.lookup x).or (Dict.get? d x) := by
  induction aliases generalizing d with
  | nil => rfl
  | cons imported rest ih =>
      rw [List.foldl_cons, ih, List.reverse_cons, List.lookup_append]
      by_cases hx : imported.1 = x
      · rw [hx, Dict.get?_set_self, Option.or_assoc]
        congr 1
        rw [show imported = (x, imported.2) from by rw [← hx], List.lookup_cons_self]
        rfl
      · rw [Dict.get?_set_of_ne _ _ hx, Option.or_assoc]
        congr 1
        rw [List.lookup_cons, beq_eq_false_iff_ne.mpr (Ne.symm hx)]
        rfl

theorem visitAll_snoc (location : PyStr) (nodes : List (Chain × AstNode)) (occurrence : Chain × AstNode) :
    visitAll location (nodes ++ [occurrence]) = (visitAll location nodes).visit location occurrence.2 :=
  List.foldl_concat ..

/-- The map of aliases holds the last import of each name. -/
theorem aliases_eq (location : PyStr) (nodes : List (Chain × AstNode)) (x : PyStr) :
    Dict.get? (visitAll location nodes).aliases x = lastImport nodes x := by
  induction nodes using List.reverseRecOn with
  | nil => rfl
  | append_singleton nodes occurrence ih =>
      rw [visitAll_snoc, lastImport, List.flatMap_append, List.reverse_append, List.lookup_append,
        List.flatMap_singleton]
      show Dict.get? ((aliasesOf occurrence.2).foldl _ (visitAll location nodes).aliases) x = _
      rw [get?_foldl_set, ih]
      rfl

/-- Flags stay. -/
theorem flags_of_prefix (location : PyStr) (before : List (Chain × AstNode)) (occurrence : Chain × AstNode)
    (after : List (Chain × AstNode)) {flag : VetFlag}
    (h : flag ∈ flagsOf location (visitAll location before).aliases occurrence.2) :
    flag ∈ (visitAll location (before ++ occurrence :: after)).flags := by
  have hkeep : ∀ (visitor : Visitor) (nodes : List (Chain × AstNode)), flag ∈ visitor.flags →
      flag ∈ (nodes.foldl (fun visitor occurrence => visitor.visit location occurrence.2) visitor).flags := by
    intro visitor nodes hflag
    induction nodes generalizing visitor with
    | nil => exact hflag
    | cons node nodes ih => exact ih _ (List.mem_append_left _ hflag)
  rw [visitAll, List.foldl_append, List.foldl_cons]
  exact hkeep _ after (List.mem_append_right _ h)

/-- The calls that are reported as spawning a process. -/
def Spawns (resolved : PyStr) : Prop :=
  resolved ∈ osShellCalls ∨
    (startsWith (py "subprocess.") resolved = true ∧ (splitChar 46 resolved).getLastD [] ∈ subprocessCalls)

theorem not_spawns_of_mem {names : List PyStr} (hos : ∀ name ∈ names, name ∉ osShellCalls)
    (hsubprocess : ∀ name ∈ names, startsWith (py "subprocess.") name = false) {resolved : PyStr}
    (h : resolved ∈ names) : ¬ Spawns resolved := by
  rintro (hshell | ⟨hstarts, -⟩)
  · exact hos resolved h hshell
  · rw [hsubprocess resolved h] at hstarts
    cases hstarts

/-- A call is reported exactly for what it resolves to. -/
theorem callFlags_spawn_iff (location : PyStr) (aliases : Aliases) (line : Nat) (func : AstNode)
    (args keywords : List AstNode) :
    (∃ flag ∈ callFlags location aliases line func args keywords,
      flag.severity = .critical ∧ flag.category = py "process_spawn" ∧ flag.location = location ++ py ":" ++ natText line)
      ↔ ∃ resolved, resolve aliases func = some resolved ∧ Spawns resolved := by
  rw [callFlags.eq_def]
  cases hresolved : resolve aliases func with
  | none => exact ⟨fun ⟨_, h, _⟩ => absurd h List.not_mem_nil, fun ⟨_, h, _⟩ => nomatch h⟩
  | some resolved =>
  dsimp only
  have hthis : (∃ r, some resolved = some r ∧ Spawns r) ↔ Spawns resolved :=
    ⟨fun ⟨_, heq, h⟩ => Option.some.inj heq ▸ h, fun h => ⟨resolved, rfl, h⟩⟩
  rw [hthis]
  -- a branch that adds no flag, or one of another category, for a name that spawns nothing
  have hnothing : ∀ {flags : List VetFlag}, (∀ flag ∈ flags, flag.category ≠ py "process_spawn") → ¬ Spawns resolved →
      ((∃ flag ∈ flags, flag.severity = .critical ∧ flag.category = py "process_spawn"
        ∧ flag.location = location ++ py ":" ++ natText line) ↔ Spawns resolved) := fun hflags hno =>
    ⟨fun ⟨flag, hmem, _, hcategory, _⟩ => absurd hcategory (hflags flag hmem), fun h => absurd h hno⟩
  have hempty : ∀ flag ∈ ([] : List VetFlag), flag.category ≠ py "process_spawn" := fun _ h => nomatch h
  have hother : ∀ {severity : Severity} {category : PyStr} {message : PyStr}, category ≠ py "process_spawn" →
      ∀ flag ∈ [flagAt location line severity category message], flag.category ≠ py "process_spawn" := by
    intro severity category message hne flag hflag
    rw [List.mem_singleton.mp hflag]
    exact hne
  have hspawn : ∀ {message : PyStr}, Spawns resolved →
      ((∃ flag ∈ [flagAt location line .critical (py "process_spawn") message], flag.severity = .critical
        ∧ flag.category = py "process_spawn" ∧ flag.location = location ++ py ":" ++ natText line) ↔ Spawns resolved) :=
    fun h => ⟨fun _ => h, fun _ => ⟨_, List.mem_singleton_self _, rfl, rfl, rfl⟩⟩
  by_cases hdynamic : resolved ∈ dynamicBuiltins
  · rw [if_pos hdynamic]
    have hno := not_spawns_of_mem (by decide) (by decide) hdynamic
    split_ifs
    · exact hnothing (hother (by decide)) hno
    · exact hnothing hempty hno
  rw [if_neg hdynamic]
  by_cases himport : resolved = py "__import__" ∨ resolved = py "importlib.import_module"
  · rw [if_pos himport]
    have hmem : resolved ∈ [py "__import__", py "importlib.import_module"] := by
      rcases himport with rfl | rfl
      · exact List.mem_cons_self ..
      · exact List.mem_cons_of_mem _ (List.mem_singleton_self _)
    have hno := not_spawns_of_mem (by decide) (by decide) hmem
    split_ifs
    · exact hnothing (hother (by decide)) hno
    · exact hnothing hempty hno
  rw [if_neg himport]
  by_cases hshell : resolved ∈ osShellCalls
  · rw [if_pos hshell]
    exact hspawn (.inl hshell)
  rw [if_neg hshell]
  by_cases hstarts : startsWith (py "subprocess.") resolved = true
  · rw [if_pos hstarts]
    by_cases hlast : (splitChar 46 resolved).getLastD [] ∈ subprocessCalls
    · rw [if_pos hlast]
      exact hspawn (.inr ⟨hstarts, hlast⟩)
    · rw [if_neg hlast]
      exact hnothing hempty fun h => h.elim hshell fun h => hlast h.2
  rw [if_neg hstarts]
  have hno : ¬ Spawns resolved := fun h => h.elim hshell fun h => hstarts h.1
  by_cases hset : resolved = py "setattr"
  · rw [if_pos hset]
    split_ifs
    · exact hnothing (hother (by decide)) hno
    · exact hnothing hempty hno
  rw [if_neg hset]
  by_cases hget : resolved = py "getattr"
  · rw [if_pos hget]
    split
    · split_ifs
      · exact hnothing (hother (by decide)) hno
      · exact hnothing hempty hno
    · exact hnothing hempty hno
  rw [if_neg hget]
  by_cases hopen : resolved = py "open"
  · rw [if_pos hopen]
    split_ifs
    · exact hnothing (hother (by decide)) hno
    · exact hnothing hempty hno
  · rw [if_neg hopen]
    exact hnothing hempty hno

-- ============================================================================
-- Calls in a module
-- ============================================================================

/-- A call in a module, with what the walk meets before and after it. -/
structure CallSite (module : List AstNode) where
  before : List (Chain × AstNode)
  chain : Chain
  line : Nat
  func : AstNode
  args : List AstNode
  keywords : List AstNode
  after : List (Chain × AstNode)
  met : walkModule module = before ++ (chain, .call line func args keywords) :: after

section Site

variable {module : List AstNode} (site : CallSite module)

/-- The scan has a critical flag for the call: one of those the visitor adds there. -/
def CallSite.Reported (location : PyStr) : Prop :=
  ∃ flag ∈ callFlags location (visitAll location site.before).aliases site.line site.func site.args site.keywords,
    (flag.severity = .critical ∧ flag.category = py "process_spawn"
      ∧ flag.location = location ++ py ":" ++ natText site.line) ∧ flag ∈ scanModule location module

/-- What imports bind to a function that spawns a process is reported where it is called. -/
def CallSite.SeenThrough (exports : PyStr → List PyStr) (location : PyStr) : Prop :=
  BoundToSpawn exports (walkModule module) site.chain site.func → site.Reported location

/-- Read with the last import statement before the call that names the root of the callee, or
    as it stands if there is none, the callee spawns a process. -/
def CallSite.ReadAsSpawn : Prop :=
  ∃ x attrs, dotted site.func = some (x, attrs) ∧ Spawns (dottedPath ((lastImport site.before x).getD x) attrs)

theorem CallSite.reported_iff (location : PyStr) : site.Reported location ↔ site.ReadAsSpawn := by
  have hspawn := callFlags_spawn_iff location (visitAll location site.before).aliases site.line site.func site.args
    site.keywords
  have hread : site.ReadAsSpawn ↔ ∃ resolved,
      resolve (visitAll location site.before).aliases site.func = some resolved ∧ Spawns resolved := by
    rw [CallSite.ReadAsSpawn, resolve]
    constructor
    · rintro ⟨x, attrs, hdotted, h⟩
      rw [hdotted]
      refine ⟨_, rfl, ?_⟩
      dsimp only
      rw [aliases_eq]
      exact h
    · rintro ⟨resolved, hresolved, h⟩
      obtain ⟨⟨x, attrs⟩, hdotted, rfl⟩ := Option.map_eq_some_iff.mp hresolved
      refine ⟨x, attrs, hdotted, ?_⟩
      rw [aliases_eq] at h
      exact h
  rw [hread, ← hspawn]
  constructor
  · rintro ⟨flag, hflag, hkind, -⟩
    exact ⟨flag, hflag, hkind⟩
  · rintro ⟨flag, hflag, hkind⟩
    refine ⟨flag, hflag, hkind, ?_⟩
    rw [scanModule, site.met]
    exact flags_of_prefix location site.before (site.chain, .call site.line site.func site.args site.keywords) site.after hflag

/-- The scanner sees through the imports of a call exactly when the last import before it, in
    whatever scope, does. -/
theorem seesThrough_iff (exports : PyStr → List PyStr) (location : PyStr) :
    site.SeenThrough exports location ↔
      (BoundToSpawn exports (walkModule module) site.chain site.func → site.ReadAsSpawn) := by
  rw [CallSite.SeenThrough, site.reported_iff]

theorem spawns_of_mem {p : PyStr} (h : p ∈ spawnFunctions) : Spawns p := by
  have hall : ∀ p ∈ spawnFunctions, p ∈ osShellCalls ∨
      (startsWith (py "subprocess.") p = true ∧ (splitChar 46 p).getLastD [] ∈ subprocessCalls) := by decide
  exact hall p h

/-- Where the last import before the call agrees with what Python binds, it is seen through. -/
theorem CallSite.seenThrough_of_agrees {exports : PyStr → List PyStr} {location : PyStr}
    (h : ∀ x attrs path, dotted site.func = some (x, attrs) →
      ImportedAs exports (walkModule module) site.chain x path → (lastImport site.before x).getD x = path) :
    site.SeenThrough exports location := by
  rintro ⟨x, attrs, path, hdotted, himported, hspawn⟩
  refine (site.reported_iff location).mpr ⟨x, attrs, hdotted, ?_⟩
  rw [h x attrs path hdotted himported]
  exact spawns_of_mem hspawn

end Site

/-- `def f(): run("ls")`, and then `from subprocess import run`. -/
def lateImport : List AstNode :=
  [.other [.binding (py "f"), .scope .function [.call 2 (.name 2 (py "run")) [.constant (some (py "ls"))] []]],
    .importFrom 3 0 (py "subprocess") [⟨py "run", none⟩]]

/-- The call in it. -/
def lateImportCall : CallSite lateImport where
  before := (walkModule lateImport).take 3
  chain := [⟨[1, 0], .function⟩, ⟨[], .module⟩]
  line := 2
  func := .name 2 (py "run")
  args := [.constant (some (py "ls"))]
  keywords := []
  after := (walkModule lateImport).drop 4
  met := rfl

/-- It is not reported. -/
theorem late_import_missed : ¬ lateImportCall.SeenThrough (fun _ => []) (py "plugin.py") := by
  intro h
  have himported : ImportedAs (fun _ => []) (walkModule lateImport) lateImportCall.chain (py "run")
      (py "subprocess.run") := by decide
  obtain ⟨flag, hflag, -⟩ := h ⟨py "run", [], py "subprocess.run", rfl, himported, by decide⟩
  have hnone : callFlags (py "plugin.py") (visitAll (py "plugin.py") lateImportCall.before).aliases lateImportCall.line
      lateImportCall.func lateImportCall.args lateImportCall.keywords = [] := by decide
  rw [hnone] at hflag
  cases hflag

end Plugin
end KineticSdk
