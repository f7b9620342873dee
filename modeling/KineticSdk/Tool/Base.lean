/-
  KineticSdk.Tool.Base

  Tool calls, tool results and tools (`tool/base.py`, `ToolCall` of
  `llm/client.py`).

  Everything the agent does not compute itself (a tool, a hook, the model, the
  clock) acts on a world `σ`: an `Act σ α` reads the world, answers and leaves
  another world behind.  The world is an arbitrary type, so it can hold
  whatever such a component depends on.
-/

import KineticSdk.Py.Repr

namespace KineticSdk

open Py

/-- What an external component does when it is asked. -/
abbrev Act (σ α : Type) := σ → α × σ

namespace Tool

/-- `ToolCall`: a tool invocation requested by the model.  The arguments are
    whatever JSON value the provider sent. -/
structure ToolCall where
  id : PyStr
  name : PyStr
  arguments : Json
deriving DecidableEq

/-- `ToolFailureCategory`. -/
inductive ToolFailureCategory where
  | recoverableInput
  | transient
  | permanent
deriving DecidableEq

/-- The value of the enumeration. -/
def ToolFailureCategory.value : ToolFailureCategory → PyStr
  | .recoverableInput => py "recoverable_input"
  | .transient => py "transient"
  | .permanent => py "permanent"

/-- `ToolRiskLevel`. -/
inductive ToolRiskLevel where
  | readOnly
  | write
  | destructive
deriving DecidableEq

/-- `ToolResult`, without what only observers read. -/
structure ToolResult where
  output : Json := .null
  error : Option PyStr := none
  failureCategory : Option ToolFailureCategory := none
deriving DecidableEq

/-- `is_error`. -/
def ToolResult.isError (r : ToolResult) : Bool :=
  match r.error with
  | none => false
  | some e => e != []

/-- A failed result without a category. -/
def ToolResult.failed (error : PyStr) : ToolResult := { error := some error }

/-- `ToolExecutionPolicy`.  A timeout is given by its text: whether it expires
    is the world's doing. -/
structure ToolExecutionPolicy where
  timeoutSeconds : Option PyStr := none
  maxTransientRetries : Option Int := none
  circuitBreakerThreshold : Option Int := none
  circuitBreakerCooldownSeconds : Int := 30

/-- What a tool's `execute` hands back: a result, or a bare value. -/
inductive Returned where
  | result (r : ToolResult)
  | value (v : Json)

/-- A registered tool; `execute` takes the keyword arguments and may raise. -/
structure Tool (σ : Type) where
  name : PyStr
  parameters : Json
  riskLevel : Option ToolRiskLevel := none
  executionPolicy : Option ToolExecutionPolicy := none
  acceptsIdempotencyKey : Bool := false
  execute : Dict → Act σ (Except PyExc Returned)

/-- `_needs_idempotency_key`. -/
def Tool.needsIdempotencyKey {σ : Type} (t : Tool σ) : Bool :=
  t.riskLevel = some .write || t.riskLevel = some .destructive

end Tool
end KineticSdk
