/-
  KineticSdk.Git.Tool

  Git as a tool (`git/tool.py`), and what a permission policy sees of a push.

  The policy looks for `"force": true` in the printed input.  What git does
  depends on two things the text does not show: a refspec that begins with `+`
  or `:` forces or deletes a ref by itself, and `force` is asked for its
  truthiness, so `1` and `"yes"` force as well.  A forced push is visible
  exactly when neither is the case (`forced_push_visible_iff`).
-/

import KineticSdk.Py.Members
import KineticSdk.Py.Search
import KineticSdk.Security.Confirmation
import KineticSdk.Security.Redact
import KineticSdk.Tool.Base

namespace KineticSdk
namespace Git

open Py Tool Security

-- ============================================================================
-- Running git
-- ============================================================================

/-- `subprocess.CompletedProcess`. -/
structure CompletedProcess where
  stdout : PyStr := []
  stderr : PyStr := []
  returncode : Int := 0

/-- What a runner raises: a list of texts is no `TypeError`. -/
inductive RunFailure where
  | fileNotFound
  | timeoutExpired
  | osError (message : PyStr)
  | valueError (message : PyStr)

/-- `ToolResult` with its metadata. -/
structure GitResult extends ToolResult where
  metadata : Dict := []

/-- `ToolResult(error=...)`. -/
def GitResult.failed (error : PyStr) : GitResult := { error := some error }

/-- `GitTool`: the token is what the secret registry resolves, the timeout is
    given by its text, and `int` is Python's. -/
structure GitTool (σ : Type) where
  token : Option PyStr := none
  timeout : PyStr := py "60"
  runner : List PyStr → Act σ (Except RunFailure CompletedProcess)
  int : Json → Except PyExc Int

/-- What a call comes to: its result, the command lines it ran, and the world. -/
structure Outcome (σ : Type) where
  result : Except PyExc GitResult
  calls : List (List PyStr) := []
  world : σ

variable {σ : Type} (t : GitTool σ)

/-- `_scrub`. -/
def scrub (secrets : List PyStr) (text : PyStr) : PyStr :=
  redactSecrets (secrets.foldl (fun text secret =>
    if secret = [] then text else replaceAll secret redacted text) text)

/-- `a or b` for texts. -/
def orText (a b : PyStr) : PyStr := if a = [] then b else a

/-- `_run_git`. -/
def runGit (argv secrets : List PyStr) (w : σ) : Outcome σ :=
  let fullArgv := py "git" :: argv
  match t.runner fullArgv w with
  | (.error .fileNotFound, w) =>
      { result := .ok (.failed (py "git executable not found on PATH")), calls := [fullArgv], world := w }
  | (.error .timeoutExpired, w) =>
      { result := .ok (.failed (py "git command timed out after " ++ t.timeout ++ py "s"))
        calls := [fullArgv], world := w }
  | (.error (.osError message), w) =>
      { result := .error ⟨py "OSError", message⟩, calls := [fullArgv], world := w }
  | (.error (.valueError message), w) =>
      { result := .error ⟨py "ValueError", message⟩, calls := [fullArgv], world := w }
  | (.ok completed, w) =>
      let stdout := strip (scrub secrets completed.stdout)
      let stderr := strip (scrub secrets completed.stderr)
      let metadata := [(py "argv", Json.arr (fullArgv.map fun arg => .str (scrub secrets arg)))]
      let result : GitResult :=
        if completed.returncode = 0 then
          { output := .str (orText stdout (py "(no output)")), metadata := metadata }
        else
          { error := some (orText stderr (orText stdout
              (py "git exited with code " ++ intText completed.returncode)))
            metadata := metadata }
      { result := .ok result, calls := [fullArgv], world := w }

/-- A result without a command. -/
def answer (r : GitResult) (w : σ) : Outcome σ := { result := .ok r, world := w }

/-- An exception before any command. -/
def raise (e : PyExc) (w : σ) : Outcome σ := { result := .error e, world := w }

-- ============================================================================
-- The actions
-- ============================================================================

/-- Keyword arguments are bound to the parameters of a handler. -/
def bindArgs (action : PyStr) (required optional : List PyStr) (params : Dict) : Except PyExc Unit :=
  let method := py "GitTool._action_" ++ action ++ py "()"
  match params.find? fun kv => !(required ++ optional).contains kv.1 with
  | some kv => .error ⟨py "TypeError",
      method ++ py " got an unexpected keyword argument '" ++ kv.1 ++ py "'"⟩
  | none =>
      match required.find? fun name => (Dict.get? params name).isNone with
      | some name => .error ⟨py "TypeError",
          method ++ py " missing 1 required positional argument: '" ++ name ++ py "'"⟩
      | none => .ok ()

/-- An argument, or its default. -/
def arg (params : Dict) (name : PyStr) (default : Json) : Json :=
  (Dict.get? params name).getD default

/-- `_check_ref`: the text of a valid ref. -/
def checkRef (value : Json) (field : PyStr) : Except GitResult PyStr :=
  match value with
  | .str s =>
      if s = [] ∨ startsWith (py "-") s = true then
        .error (.failed (py "invalid " ++ field ++ py ": " ++ pyRepr value))
      else .ok s
  | _ => .error (.failed (py "invalid " ++ field ++ py ": " ++ pyRepr value))

/-- `_remote_auth`: the options in front, and the secrets revealed. -/
def remoteAuth : List PyStr × List PyStr :=
  match t.token with
  | none => ([], [])
  | some revealed =>
      ([py "-c", py "http.extraHeader=AUTHORIZATION: bearer " ++ revealed], [revealed])

/-- `_action_status`. -/
def actionStatus (w : σ) : Outcome σ :=
  runGit t [py "status", py "--short", py "--branch"] [] w

/-- `_action_diff`. -/
def actionDiff (params : Dict) (w : σ) : Outcome σ :=
  let staged := arg params (py "staged") (.bool false)
  runGit t (py "diff" :: if staged.truthy then [py "--staged"] else []) [] w

/-- `_action_add`. -/
def actionAdd (params : Dict) (w : σ) : Outcome σ :=
  let paths := arg params (py "paths") .null
  if paths.truthy = false then
    answer (.failed (py "git add requires a non-empty 'paths' list")) w
  else
    match elements paths with
    | none => raise ⟨py "TypeError", py "'" ++ typeName paths ++ py "' object is not iterable"⟩ w
    | some paths => runGit t (py "add" :: py "--" :: paths.map strOf) [] w

/-- `_action_commit`. -/
def actionCommit (params : Dict) (w : σ) : Outcome σ :=
  match arg params (py "message") .null with
  | .str message =>
      if strip message = [] then answer (.failed (py "git commit requires a non-empty 'message'")) w
      else runGit t [py "commit", py "-m", message] [] w
  | _ => answer (.failed (py "git commit requires a non-empty 'message'")) w

/-- `_action_branch`. -/
def actionBranch (params : Dict) (w : σ) : Outcome σ :=
  let branch := arg params (py "branch") .null
  if branch = .null then runGit t [py "branch", py "--list"] [] w
  else
    match checkRef branch (py "branch") with
    | .error r => answer r w
    | .ok branch => runGit t [py "branch", branch] [] w

/-- `_action_checkout`. -/
def actionCheckout (params : Dict) (w : σ) : Outcome σ :=
  let create := arg params (py "create") (.bool false)
  match checkRef (arg params (py "branch") .null) (py "branch") with
  | .error r => answer r w
  | .ok branch =>
      runGit t ([py "checkout"] ++ (if create.truthy then [py "-b"] else []) ++ [branch]) [] w

/-- `_action_push`: the metadata of every result is updated. -/
def actionPush (params : Dict) (w : σ) : Outcome σ :=
  let force := arg params (py "force") (.bool false)
  match checkRef (arg params (py "remote") (.str (py "origin"))) (py "remote") with
  | .error r => answer r w
  | .ok remote =>
      match checkRef (arg params (py "branch") .null) (py "branch") with
      | .error r => answer r w
      | .ok branch =>
          let (options, revealed) := remoteAuth t
          let argv := options ++ [py "push", remote, branch]
            ++ if force.truthy then [py "--force"] else []
          let outcome := runGit t argv revealed w
          let mark (r : GitResult) : GitResult :=
            { r with metadata := Dict.set (Dict.set (Dict.set (Dict.set r.metadata
                (py "action") (.str (py "push"))) (py "remote") (.str remote))
                (py "branch") (.str branch)) (py "force") (.bool force.truthy) }
          { outcome with result := outcome.result.map mark }

/-- `_action_pull`. -/
def actionPull (params : Dict) (w : σ) : Outcome σ :=
  let branch := arg params (py "branch") .null
  match checkRef (arg params (py "remote") (.str (py "origin"))) (py "remote") with
  | .error r => answer r w
  | .ok remote =>
      let (options, revealed) := remoteAuth t
      if branch = .null then runGit t (options ++ [py "pull", remote]) revealed w
      else
        match checkRef branch (py "branch") with
        | .error r => answer r w
        | .ok branch => runGit t (options ++ [py "pull", remote, branch]) revealed w

/-- `_action_log`. -/
def actionLog (params : Dict) (w : σ) : Outcome σ :=
  let maxCount := arg params (py "max_count") (.int 20)
  match t.int maxCount with
  | .error e =>
      if e.type = py "TypeError" ∨ e.type = py "ValueError" then
        answer (.failed (py "invalid max_count: " ++ pyRepr maxCount)) w
      else raise e w
  | .ok count =>
      runGit t [py "log", py "--oneline", py "--max-count=" ++ intText (max 1 (min count 100))] [] w

/-- A handler: the parameters it takes, those it needs first, and what it does. -/
structure Handler (σ : Type) where
  required : List PyStr := []
  optional : List PyStr := []
  run : Dict → σ → Outcome σ

/-- `ACTIONS`, with the handler of each. -/
def actions : List (PyStr × Handler σ) :=
  [(py "status", { run := fun _ => actionStatus t }),
   (py "diff", { optional := [py "staged"], run := actionDiff t }),
   (py "add", { required := [py "paths"], run := actionAdd t }),
   (py "commit", { required := [py "message"], run := actionCommit t }),
   (py "branch", { optional := [py "branch"], run := actionBranch t }),
   (py "checkout", { required := [py "branch"], optional := [py "create"], run := actionCheckout t }),
   (py "push", { required := [py "branch"], optional := [py "remote", py "force"],
                 run := actionPush t }),
   (py "pull", { optional := [py "remote", py "branch"], run := actionPull t }),
   (py "log", { optional := [py "max_count"], run := actionLog t })]

/-- A `TypeError` of a handler becomes a result. -/
def guardParams (action : PyStr) (o : Outcome σ) : Outcome σ :=
  match o.result with
  | .ok _ => o
  | .error e =>
      if e.type = py "TypeError" then
        { o with result := .ok (.failed (py "Invalid parameters for git action " ++ pyReprStr action
            ++ py ": " ++ e.message)) }
      else o

/-- `execute(action, **params)`, called with the arguments as keywords. -/
def execute (args : Dict) (w : σ) : Outcome σ :=
  if (Dict.get? args (py "self")).isSome then
    raise ⟨py "TypeError", py "GitTool.execute() got multiple values for argument 'self'"⟩ w
  else
    match Dict.get? args (py "action") with
    | none => raise ⟨py "TypeError",
        py "GitTool.execute() missing 1 required positional argument: 'action'"⟩ w
    | some action =>
        let unknown : GitResult := .failed (py "Unknown git action " ++ pyRepr action ++ py ". Supported: "
          ++ join (py ", ") ((actions t).map Prod.fst))
        match action with
        | .str name =>
            match Dict.get? (actions t) name with
            | none => answer unknown w
            | some handler =>
                let params := Dict.pop args (py "action")
                guardParams name <|
                  match bindArgs name handler.required handler.optional params with
                  | .error e => raise e w
                  | .ok _ => handler.run params w
        | _ => answer unknown w

-- ============================================================================
-- What a command does to a remote
-- ============================================================================

/-- The git command of a command line behind `git`, and its arguments. -/
def subcommand : List PyStr → Option (PyStr × List PyStr)
  | [] => none
  | [word] => some (word, [])
  | word :: value :: rest =>
      if word = py "-c" then subcommand rest else some (word, value :: rest)

/-- A refspec that git takes as forced, or as a deletion. -/
def forcedRefspec (refspec : PyStr) : Bool := startsWith (py "+") refspec || startsWith (py ":") refspec

/-- The command line is a push that forces a ref: with `--force`, or with a
    refspec behind the remote that does so by itself. -/
def forcesRef (argv : List PyStr) : Bool :=
  match subcommand argv.tail with
  | none => false
  | some (command, args) =>
      command == py "push" && (args.contains (py "--force") ||
        ((args.filter fun a => !startsWith (py "-") a).drop 1).any forcedRefspec)

/-- Each command line of the call is no push. -/
def NoPush (o : Outcome σ) : Prop :=
  ∀ argv ∈ o.calls, ∀ command args, subcommand argv.tail = some (command, args) → command ≠ py "push"

variable {t} {w : σ} {args params : Dict}

theorem runGit_calls (t : GitTool σ) (argv secrets : List PyStr) (w : σ) :
    (runGit t argv secrets w).calls = [py "git" :: argv] := by
  rw [runGit]
  rcases t.runner (py "git" :: argv) w with ⟨(- | - | - | -) | -, w'⟩ <;> rfl

/-- What a run raises is no `TypeError`. -/
theorem runGit_error {argv secrets : List PyStr} {e : PyExc}
    (h : (runGit t argv secrets w).result = .error e) : e.type ≠ py "TypeError" := by
  rw [runGit] at h
  revert h
  rcases t.runner (py "git" :: argv) w with ⟨(- | - | message | message) | completed, w'⟩ <;> intro h
  · cases h
  · cases h
  · obtain rfl : _ = e := Except.error.inj h
    show py "OSError" ≠ py "TypeError"
    decide
  · obtain rfl : _ = e := Except.error.inj h
    show py "ValueError" ≠ py "TypeError"
    decide
  · cases h

theorem runGit_noPush (t : GitTool σ) {word : PyStr} (hword : word ≠ py "-c" ∧ word ≠ py "push")
    (rest secrets : List PyStr) (w : σ) : NoPush (runGit t (word :: rest) secrets w) := by
  intro argv hargv command args hsub
  rw [runGit_calls, List.mem_singleton] at hargv
  subst hargv
  cases rest with
  | nil =>
      obtain ⟨rfl, -⟩ := Prod.mk.inj (Option.some.inj hsub)
      exact hword.2
  | cons value rest =>
      rw [List.tail_cons, subcommand, if_neg hword.1] at hsub
      obtain ⟨rfl, -⟩ := Prod.mk.inj (Option.some.inj hsub)
      exact hword.2

theorem noPush_of_calls_nil {o : Outcome σ} (h : o.calls = []) : NoPush o := by
  intro argv hargv
  rw [h] at hargv
  exact absurd hargv List.not_mem_nil

theorem subcommand_auth (t : GitTool σ) (rest : List PyStr) :
    subcommand ((remoteAuth t).1 ++ rest) = subcommand rest := by
  rw [remoteAuth]
  cases t.token with
  | none => rfl
  | some revealed =>
      show subcommand (py "-c" :: _ :: rest) = _
      rw [subcommand, if_pos rfl]

theorem pull_noPush {options revealed : List PyStr} (hauth : remoteAuth t = (options, revealed))
    (rest : List PyStr) (hrest : rest ≠ []) (w : σ) :
    NoPush (runGit t (options ++ py "pull" :: rest) revealed w) := by
  intro argv hargv command args hsub
  rw [runGit_calls, List.mem_singleton] at hargv
  subst hargv
  have hoptions : options = (remoteAuth t).1 := by rw [hauth]
  rw [List.tail_cons, hoptions, subcommand_auth] at hsub
  cases rest with
  | nil => exact absurd rfl hrest
  | cons value rest =>
      rw [subcommand, if_neg (by decide)] at hsub
      obtain ⟨rfl, -⟩ := Prod.mk.inj (Option.some.inj hsub)
      decide

/-- Only the handler of `push` pushes. -/
theorem handler_noPush {name : PyStr} {handler : Handler σ} (hname : name ≠ py "push")
    (h : (name, handler) ∈ actions t) (params : Dict) (w : σ) : NoPush (handler.run params w) := by
  simp only [actions, List.mem_cons, Prod.mk.injEq, List.not_mem_nil, or_false] at h
  rcases h with ⟨-, rfl⟩ | ⟨-, rfl⟩ | ⟨-, rfl⟩ | ⟨-, rfl⟩ | ⟨-, rfl⟩ | ⟨-, rfl⟩ | ⟨hpush, -⟩ | ⟨-, rfl⟩ |
    ⟨-, rfl⟩
  · exact runGit_noPush t (by decide) _ _ _
  · exact runGit_noPush t (by decide) _ _ _
  · show NoPush (actionAdd t params w)
    rw [actionAdd]
    split
    · exact noPush_of_calls_nil rfl
    · split
      · exact noPush_of_calls_nil rfl
      · exact runGit_noPush t (by decide) _ _ _
  · show NoPush (actionCommit t params w)
    rw [actionCommit]
    split
    · split
      · exact noPush_of_calls_nil rfl
      · exact runGit_noPush t (by decide) _ _ _
    · exact noPush_of_calls_nil rfl
  · show NoPush (actionBranch t params w)
    rw [actionBranch]
    split
    · exact runGit_noPush t (by decide) _ _ _
    · split
      · exact noPush_of_calls_nil rfl
      · exact runGit_noPush t (by decide) _ _ _
  · show NoPush (actionCheckout t params w)
    rw [actionCheckout]
    split
    · exact noPush_of_calls_nil rfl
    · exact runGit_noPush t (by decide) _ _ _
  · exact absurd hpush hname
  · show NoPush (actionPull t params w)
    rw [actionPull]
    rcases hauth : remoteAuth t with ⟨options, revealed⟩
    split
    · exact noPush_of_calls_nil rfl
    · dsimp only
      split
      · exact pull_noPush hauth _ (List.cons_ne_nil _ _) _
      · split
        · exact noPush_of_calls_nil rfl
        · exact pull_noPush hauth _ (List.cons_ne_nil _ _) _
  · show NoPush (actionLog t params w)
    rw [actionLog]
    split
    · split
      · exact noPush_of_calls_nil rfl
      · exact noPush_of_calls_nil rfl
    · exact runGit_noPush t (by decide) _ _ _

theorem guardParams_calls (action : PyStr) (o : Outcome σ) : (guardParams action o).calls = o.calls := by
  rw [guardParams]
  split
  · rfl
  · split <;> rfl

-- ============================================================================
-- A push
-- ============================================================================

/-- `_check_ref` accepts the text. -/
def validRef (s : PyStr) : Prop := s ≠ [] ∧ startsWith (py "-") s = false

/-- The arguments are those of a push that is run. -/
structure PushInput (args : Dict) (branch remote : PyStr) (force : Json) : Prop where
  isPush : Dict.get? args (py "action") = some (.str (py "push"))
  keys : ∀ kv ∈ args, kv.1 ∈ [py "action", py "branch", py "remote", py "force"]
  hasBranch : Dict.get? args (py "branch") = some (.str branch)
  hasRemote : arg args (py "remote") (.str (py "origin")) = .str remote
  hasForce : arg args (py "force") (.bool false) = force
  branchOk : validRef branch
  remoteOk : validRef remote

/-- What the policy looks for. -/
def requireConfirmationPatterns : List PyStr := [py "\"force\": true"]

/-- The policy of the documentation. -/
def gitPolicy (m : Matching) (args : Dict) : PermissionDecision :=
  checkAllowList m [py "git"] [(py "git", requireConfirmationPatterns)] (py "git") (.obj args)

/-- If the call runs a push that forces a ref, the policy asks for confirmation
    and the result says `force`. -/
def ForceVisible (m : Matching) (t : GitTool σ) (args : Dict) (w : σ) : Prop :=
  ∀ argv ∈ (execute t args w).calls, forcesRef argv = true →
    (gitPolicy m args).requiresConfirmation = true ∧
      ∀ r, (execute t args w).result = .ok r → Dict.get? r.metadata (py "force") = some (.bool true)

theorem checkRef_ok {value : Json} {field s : PyStr} :
    checkRef value field = .ok s ↔ value = .str s ∧ validRef s := by
  cases value with
  | str text =>
      rw [checkRef, validRef]
      by_cases hbad : text = [] ∨ startsWith (py "-") text = true
      · rw [if_pos hbad]
        refine iff_of_false (fun h => by cases h) ?_
        rintro ⟨heq, hne, hstart⟩
        obtain rfl := Json.str.inj heq
        rcases hbad with hbad | hbad
        · exact hne hbad
        · exact Bool.noConfusion (hbad.symm.trans hstart)
      · rw [if_neg hbad, Except.ok.injEq, Json.str.injEq]
        obtain ⟨hne, hstart⟩ := not_or.mp hbad
        exact ⟨fun h => ⟨h, h ▸ hne, h ▸ Bool.eq_false_iff.mpr hstart⟩, fun h => h.1⟩
  | null | bool | int | float | arr | obj =>
      exact iff_of_false (fun h => by cases h) fun h => by cases h.1

theorem arg_pop {name : PyStr} (hname : name ≠ py "action") (default : Json) :
    arg (Dict.pop args (py "action")) name default = arg args name default := by
  rw [arg, Dict.get?_pop, if_neg hname, arg]

/-- Binding succeeds when every argument is known and the branch is there. -/
theorem bindArgs_push {params : Dict} (u : Unit) :
    bindArgs (py "push") [py "branch"] [py "remote", py "force"] params = .ok u ↔
      (∀ kv ∈ params, kv.1 ∈ [py "branch", py "remote", py "force"]) ∧
        (Dict.get? params (py "branch")).isSome = true := by
  rw [bindArgs]
  cases hfind : params.find? fun kv => !([py "branch"] ++ [py "remote", py "force"]).contains kv.1 with
  | some kv =>
      have hmem := List.mem_of_find?_eq_some hfind
      have hbad := List.find?_some hfind
      refine iff_of_false (fun h => by cases h) fun h => ?_
      have hknown := h.1 kv hmem
      have hcontains : ([py "branch"] ++ [py "remote", py "force"]).contains kv.1 = true :=
        List.contains_iff_mem.mpr hknown
      rw [hcontains] at hbad
      exact absurd hbad (by decide)
  | none =>
      have hall : ∀ kv ∈ params, kv.1 ∈ [py "branch", py "remote", py "force"] := by
        intro kv hkv
        have hno := List.find?_eq_none.mp hfind kv hkv
        have hknown : ([py "branch"] ++ [py "remote", py "force"]).contains kv.1 = true := by
          simpa only [Bool.not_eq_true, Bool.not_eq_false'] using hno
        exact List.contains_iff_mem.mp hknown
      cases hget : Dict.get? params (py "branch") with
      | none =>
          have hmissing : ([py "branch"].find? fun name => (Dict.get? params name).isNone) = some (py "branch") := by
            rw [List.find?_cons_of_pos]
            rw [hget]
            rfl
          rw [hmissing]
          exact iff_of_false (fun h => by cases h) fun h => by cases h.2
      | some value =>
          have hthere : ([py "branch"].find? fun name => (Dict.get? params name).isNone) = none := by
            rw [List.find?_cons_of_neg, List.find?_nil]
            rw [hget]
            exact Bool.false_ne_true
          rw [hthere]
          exact iff_of_true rfl ⟨hall, rfl⟩

/-- The handler of `push` is bound and run. -/
theorem execute_push (hself : Dict.get? args (py "self") = none)
    (haction : Dict.get? args (py "action") = some (.str (py "push"))) :
    execute t args w = guardParams (py "push")
      (match bindArgs (py "push") [py "branch"] [py "remote", py "force"]
          (Dict.pop args (py "action")) with
        | .error e => raise e w
        | .ok _ => actionPush t (Dict.pop args (py "action")) w) := by
  rw [execute, hself, haction]
  rfl

/-- A push that is run: its command line, and what its result says. -/
theorem execute_of_input {branch remote : PyStr} {force : Json}
    (h : PushInput args branch remote force) :
    (execute t args w).calls = [py "git" :: ((remoteAuth t).1 ++ [py "push", remote, branch]
        ++ if force.truthy then [py "--force"] else [])] ∧
      ∀ r, (execute t args w).result = .ok r →
        Dict.get? r.metadata (py "force") = some (.bool force.truthy) := by
  have hself : Dict.get? args (py "self") = none := by
    cases hget : Dict.get? args (py "self") with
    | none => rfl
    | some v =>
        have hnot : py "self" ∉ [py "action", py "branch", py "remote", py "force"] := by decide
        exact absurd (h.keys _ (Dict.mem_of_get? hget)) hnot
  have hbind : bindArgs (py "push") [py "branch"] [py "remote", py "force"]
      (Dict.pop args (py "action")) = .ok () := by
    refine (bindArgs_push ()).mpr ⟨fun kv hkv => ?_, ?_⟩
    · obtain ⟨hmem, hne⟩ := List.mem_filter.mp hkv
      exact (List.mem_cons.mp (h.keys kv hmem)).resolve_left (by simpa using hne)
    · rw [Dict.get?_pop, if_neg (by decide), h.hasBranch]
      rfl
  have hremote : checkRef (arg (Dict.pop args (py "action")) (py "remote") (.str (py "origin")))
      (py "remote") = .ok remote := by
    rw [arg_pop (by decide)]
    exact checkRef_ok.mpr ⟨h.hasRemote, h.remoteOk⟩
  have hbranch : checkRef (arg (Dict.pop args (py "action")) (py "branch") .null)
      (py "branch") = .ok branch := by
    rw [arg_pop (by decide), arg, h.hasBranch]
    exact checkRef_ok.mpr ⟨rfl, h.branchOk⟩
  have hforce : arg (Dict.pop args (py "action")) (py "force") (.bool false) = force := by
    rw [arg_pop (by decide), h.hasForce]
  rcases hauth : remoteAuth t with ⟨options, revealed⟩
  rw [execute_push hself h.isPush, hbind]
  dsimp only
  rw [guardParams_calls, actionPush, hremote, hbranch, hforce, hauth]
  dsimp only
  refine ⟨runGit_calls t _ _ w, fun r hr => ?_⟩
  cases hrun : (runGit t (options ++ [py "push", remote, branch] ++
      if force.truthy = true then [py "--force"] else []) revealed w).result with
  | ok r' =>
      rw [hrun, guardParams] at hr
      obtain rfl := Except.ok.inj hr
      exact Dict.get?_set_self _ _ _
  | error e =>
      rw [hrun, guardParams] at hr
      dsimp only [Except.map] at hr
      rw [if_neg (runGit_error hrun)] at hr
      cases hr

/-- Without the arguments of a push that is run no push is run. -/
theorem execute_noPush (h : ¬ ∃ branch remote force, PushInput args branch remote force) :
    NoPush (execute t args w) := by
  cases hself : Dict.get? args (py "self") with
  | some v =>
      rw [execute, hself]
      exact noPush_of_calls_nil rfl
  | none =>
  cases haction : Dict.get? args (py "action") with
  | none =>
      rw [execute, hself, haction]
      exact noPush_of_calls_nil rfl
  | some action =>
  by_cases hpush : action = .str (py "push")
  · subst hpush
    rw [execute_push hself haction]
    cases hbind : bindArgs (py "push") [py "branch"] [py "remote", py "force"]
        (Dict.pop args (py "action")) with
    | error e =>
        refine noPush_of_calls_nil ?_
        rw [guardParams_calls]
        rfl
    | ok u =>
        obtain ⟨hkeys, hthere⟩ := (bindArgs_push u).mp hbind
        refine noPush_of_calls_nil ?_
        rw [guardParams_calls]
        dsimp only
        rw [actionPush]
        dsimp only
        cases hremote : checkRef (arg (Dict.pop args (py "action")) (py "remote") (.str (py "origin")))
            (py "remote") with
        | error r => rfl
        | ok remote =>
        cases hbranch : checkRef (arg (Dict.pop args (py "action")) (py "branch") .null) (py "branch") with
        | error r => rfl
        | ok branch =>
            rw [arg_pop (by decide)] at hremote hbranch
            obtain ⟨hremoteIs, hremoteOk⟩ := checkRef_ok.mp hremote
            obtain ⟨hbranchIs, hbranchOk⟩ := checkRef_ok.mp hbranch
            refine absurd ⟨branch, remote, _, haction, fun kv hkv => ?_, ?_, hremoteIs, rfl, hbranchOk,
              hremoteOk⟩ h
            · by_cases heq : kv.1 = py "action"
              · rw [heq]
                exact List.mem_cons_self
              · exact List.mem_cons_of_mem _ (hkeys kv (List.mem_filter.mpr ⟨hkv, by simpa using heq⟩))
            · rw [Dict.get?_pop, if_neg (by decide)] at hthere
              obtain ⟨v, hv⟩ := Option.isSome_iff_exists.mp hthere
              rw [arg, hv, Option.getD_some] at hbranchIs
              rw [hv, hbranchIs]
  · rw [execute, hself, haction]
    dsimp only [Option.isSome_none]
    rw [if_neg Bool.false_ne_true]
    split
    · next name =>
        split
        · exact noPush_of_calls_nil rfl
        · next handler hhandler =>
            intro argv hargv
            rw [guardParams_calls] at hargv
            revert hargv argv
            split
            · exact noPush_of_calls_nil rfl
            · exact handler_noPush (fun heq => hpush (congrArg Json.str heq)) (Dict.mem_of_get? hhandler) _ w
    · exact noPush_of_calls_nil rfl

-- ============================================================================
-- Forced pushes
-- ============================================================================

/-- What the command line of a push forces. -/
theorem forcesRef_push {branch remote : PyStr} (hbranch : validRef branch) (hremote : validRef remote)
    (force : Bool) :
    forcesRef (py "git" :: ((remoteAuth t).1 ++ [py "push", remote, branch]
        ++ if force then [py "--force"] else [])) = (force || forcedRefspec branch) := by
  have hargs : ∀ rest, subcommand ((remoteAuth t).1 ++ py "push" :: remote :: rest) =
      some (py "push", remote :: rest) := by
    intro rest
    rw [subcommand_auth, subcommand, if_neg (by decide)]
  have hnot : ∀ s : PyStr, startsWith (py "-") s = false → s ≠ py "--force" := by
    rintro s hs rfl
    exact absurd hs (by decide)
  have hremoteNe := hnot remote hremote.2
  have hbranchNe := hnot branch hbranch.2
  cases force with
  | false =>
      have hline : (remoteAuth t).1 ++ [py "push", remote, branch] ++ [] =
          (remoteAuth t).1 ++ py "push" :: remote :: [branch] := List.append_nil _
      rw [forcesRef, List.tail_cons, if_neg Bool.false_ne_true, hline, hargs]
      simp [hremote.2, hbranch.2, hremoteNe.symm, hbranchNe.symm]
  | true =>
      have hline : (remoteAuth t).1 ++ [py "push", remote, branch] ++ [py "--force"] =
          (remoteAuth t).1 ++ py "push" :: remote :: [branch, py "--force"] := by
        rw [List.append_assoc]
        rfl
      rw [forcesRef, List.tail_cons, if_pos rfl, hline, hargs]
      simp

theorem word_force : Word (py "force") := ⟨by decide, by decide⟩

/-- The policy asks for confirmation exactly if some dict of the input has `true`
    under `force`, or under a key that ends in a quote and `force`. -/
theorem gitPolicy_confirms_iff {m : Matching} (hm : m.SearchesLiterals) {fl : FloatRepr}
    (hargs : Readable false fl (.obj args)) :
    (gitPolicy m args).requiresConfirmation = true ↔ hasTrueFields (py "force") args = true := by
  have hpatterns : (Dict.get? [(py "git", requireConfirmationPatterns)] (py "git")).getD [] =
      [memberText (py "force")] := by decide
  have hsearch : matchesPattern m (memberText (py "force")) (dumps false (.obj args)) = true ↔
      memberText (py "force") <:+: dumps false (.obj args) := by
    rw [matchesPattern, hm _ _ (by decide), Option.getD_some, hasInfix_iff]
  rw [gitPolicy, checkAllowList_confirms (List.mem_singleton_self _), hpatterns]
  simp only [List.mem_singleton, exists_eq_left]
  rw [hsearch, infix_dumps_iff word_force hargs, hasTrue]

theorem hasTrueFields_iff {word : PyStr} (kvs : Dict) :
    hasTrueFields word kvs = true ↔ ∃ kv ∈ kvs,
      (kv.2 = .bool true ∧ (kv.1 = word ∨ 34 :: word <:+ kv.1)) ∨ hasTrue word kv.2 = true := by
  induction kvs with
  | nil => simp [hasTrueFields]
  | cons kv kvs ih =>
      rw [hasTrueFields, Bool.or_eq_true, ih, List.exists_mem_cons_iff]
      simp

/-- Of the arguments of a push only `force` can be what the policy looks for. -/
theorem hasTrueFields_push {branch remote : PyStr} {force : Json}
    (h : PushInput args branch remote force) (hnodup : (args.map Prod.fst).Nodup) :
    hasTrueFields (py "force") args = true ↔
      force = .bool true ∨ hasTrue (py "force") force = true := by
  have hforce : ∀ v, (py "force", v) ∈ args → v = force := by
    intro v hv
    rw [← h.hasForce, arg, Dict.get?_of_mem hnodup hv, Option.getD_some]
  rw [hasTrueFields_iff]
  constructor
  · rintro ⟨⟨k, v⟩, hmem, hkv⟩
    have hget := Dict.get?_of_mem hnodup hmem
    have hkey := h.keys _ hmem
    simp only [List.mem_cons, List.not_mem_nil, or_false] at hkey
    have htext : ∀ s, v = .str s → False := by
      rintro s rfl
      rcases hkv with ⟨hv, -⟩ | hv
      · cases hv
      · rw [hasTrue] at hv
        · cases hv
        · exact fun _ h => by cases h
        · exact fun _ h => by cases h
    rcases hkey with rfl | rfl | rfl | rfl
    · exact (htext _ (Option.some.inj (hget.symm.trans h.isPush))).elim
    · exact (htext _ (Option.some.inj (hget.symm.trans h.hasBranch))).elim
    · have hremote := h.hasRemote
      rw [arg, hget, Option.getD_some] at hremote
      exact (htext _ hremote).elim
    · obtain rfl := hforce v hmem
      exact hkv.imp_left fun hv => hv.1
  · intro hv
    cases hget : Dict.get? args (py "force") with
    | none =>
        have hdefault := h.hasForce
        rw [arg, hget, Option.getD_none] at hdefault
        subst hdefault
        rcases hv with hv | hv
        · cases hv
        · simp [hasTrue] at hv
    | some v =>
        have hmem := Dict.mem_of_get? hget
        obtain rfl := hforce v hmem
        exact ⟨_, hmem, hv.imp_left fun hv => ⟨hv, .inl rfl⟩⟩

/-- A push that forces a ref is visible to the policy and in the result exactly if
    a `force` that counts as true is `true` itself, or has that member somewhere
    in it, and no refspec forces where `force` does not. -/
theorem forced_push_visible_iff {m : Matching} (hm : m.SearchesLiterals) {fl : FloatRepr} {args : Dict}
    (hargs : Readable false fl (.obj args)) (t : GitTool σ) (w : σ) :
    ForceVisible m t args w ↔ ∀ branch remote force, PushInput args branch remote force →
      (force.truthy = true → force = .bool true ∨ hasTrue (py "force") force = true) ∧
        (forcedRefspec branch = true → force.truthy = true) := by
  have hfalsy : ∀ v : Json, v.truthy = false → ¬ (v = .bool true ∨ hasTrue (py "force") v = true) := by
    intro v hv
    cases v with
    | arr xs =>
        obtain rfl : xs = [] := by simpa [Json.truthy] using hv
        simp [hasTrue, hasTrueList]
    | obj kvs =>
        obtain rfl : kvs = [] := by simpa [Json.truthy] using hv
        simp [hasTrue, hasTrueFields]
    | bool b =>
        obtain rfl : b = false := hv
        simp [hasTrue]
    | null | int | float | str => simp [hasTrue]
  constructor
  · intro hvisible branch remote force h
    obtain ⟨hcalls, -⟩ := execute_of_input (t := t) (w := w) h
    have hforces := forcesRef_push (t := t) h.branchOk h.remoteOk force.truthy
    have hconfirm : (force.truthy || forcedRefspec branch) = true →
        force = .bool true ∨ hasTrue (py "force") force = true := by
      intro hforced
      have hmem := hvisible _ (hcalls ▸ List.mem_singleton_self _) (hforces.trans hforced)
      exact (hasTrueFields_push h hargs.1).mp ((gitPolicy_confirms_iff hm hargs).mp hmem.1)
    refine ⟨fun htrue => hconfirm (by rw [htrue]; rfl), fun hrefspec => ?_⟩
    by_contra hnot
    have hfalse : force.truthy = false := Bool.eq_false_iff.mpr hnot
    exact hfalsy force hfalse (hconfirm (by rw [hrefspec, Bool.or_true]))
  · intro hall argv hargv hforced
    by_cases hinput : ∃ branch remote force, PushInput args branch remote force
    · obtain ⟨branch, remote, force, h⟩ := hinput
      obtain ⟨hcalls, hmetadata⟩ := execute_of_input (t := t) (w := w) h
      obtain ⟨htruthy, hrefspec⟩ := hall branch remote force h
      rw [hcalls, List.mem_singleton] at hargv
      subst hargv
      rw [forcesRef_push h.branchOk h.remoteOk, Bool.or_eq_true] at hforced
      have htrue : force.truthy = true := hforced.elim id hrefspec
      refine ⟨(gitPolicy_confirms_iff hm hargs).mpr
        ((hasTrueFields_push h hargs.1).mpr (htruthy htrue)), fun r hr => ?_⟩
      rw [hmetadata r hr, htrue]
    · have hno := execute_noPush (t := t) (w := w) hinput argv hargv
      rw [forcesRef] at hforced
      cases hsub : subcommand argv.tail with
      | none => simp [hsub] at hforced
      | some found =>
          obtain ⟨command, rest⟩ := found
          rw [hsub] at hforced
          have hcommand : command = py "push" := by
            simpa using (Bool.and_eq_true_iff.mp hforced).1
          exact absurd hcommand (hno command rest hsub)

/-- Git succeeds silently. -/
def quietGit : GitTool Unit where
  runner := fun _ w => (.ok {}, w)
  int := fun _ => .ok 20

theorem forced_push_visible_flag :
    ForceVisible literalMatching quietGit
      [(py "action", .str (py "push")), (py "branch", .str (py "main")), (py "force", .bool true)] () ↔
    ∀ branch remote force, PushInput
        [(py "action", .str (py "push")), (py "branch", .str (py "main")), (py "force", .bool true)]
        branch remote force →
      (force.truthy = true → force = .bool true ∨ hasTrue (py "force") force = true) ∧
        (forcedRefspec branch = true → force.truthy = true) :=
  have hfields : ReadableFields false id
      [(py "action", .str (py "push")), (py "branch", .str (py "main")), (py "force", .bool true)] :=
    ⟨textOk_raw _, textOk_raw _, textOk_raw _, textOk_raw _, textOk_raw _, trivial, trivial⟩
  forced_push_visible_iff (fun _ _ _ => rfl) ⟨by decide, hfields⟩ quietGit ()

/-- A refspec with a plus forces the push unseen. -/
theorem plus_refspec_unseen :
    ¬ ForceVisible literalMatching quietGit
      [(py "action", .str (py "push")), (py "branch", .str (py "+main"))] () := by
  intro h
  have hconfirm := (h [py "git", py "push", py "origin", py "+main"] (by decide) (by decide)).1
  exact absurd hconfirm (by decide)

end Git
end KineticSdk
