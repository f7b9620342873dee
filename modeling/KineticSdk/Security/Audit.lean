/-
  KineticSdk.Security.Audit

  The audit loggers (`security/audit.py`).  An entry is the redacted record of
  one call, one result or one denial.  The in-memory logger takes any entry;
  the JSON Lines logger writes its text to a UTF-8 file, which a lone
  surrogate makes impossible.
-/

import KineticSdk.Security.Policy
import KineticSdk.Security.Redact
import KineticSdk.Tool.Base

namespace KineticSdk
namespace Security

open Py Tool

/-- The entries, with what each event adds to the common fields. -/
inductive AuditEntry where
  | toolCall (toolName : PyStr) (toolInput : Json) (decision : PermissionDecision)
  | toolResult (toolName : PyStr) (result : ToolResult)
  | permissionDenied (toolName : PyStr) (toolInput : Json) (reason : PyStr)

/-- An optional text as a JSON value. -/
def optStr : Option PyStr → Json
  | some s => .str s
  | none => .null

/-- The decision as it is recorded, here and in checkpoints. -/
def PermissionDecision.toJson (d : PermissionDecision) : Json :=
  .obj [(py "allowed", .bool d.allowed), (py "reason", .str d.reason),
    (py "requires_confirmation", .bool d.requiresConfirmation)]

/-- `_entry`, without the generated id and timestamp. -/
def AuditEntry.toJson : AuditEntry → Json
  | .toolCall toolName toolInput decision =>
      .obj [(py "event", .str (py "tool_call")), (py "tool_name", .str toolName),
        (py "input", redactValue toolInput), (py "decision", decision.toJson)]
  | .toolResult toolName result =>
      .obj [(py "event", .str (py "tool_result")), (py "tool_name", .str toolName),
        (py "result", .obj [(py "is_error", .bool result.isError),
          (py "output", redactValue result.output), (py "error", redactValue (optStr result.error))])]
  | .permissionDenied toolName toolInput reason =>
      .obj [(py "event", .str (py "permission_denied")), (py "tool_name", .str toolName),
        (py "input", redactValue toolInput), (py "reason", .str reason)]

/-- What writing a text that UTF-8 cannot encode raises. -/
def unicodeEncodeError : PyExc :=
  ⟨py "UnicodeEncodeError", py "'utf-8' codec can't encode: surrogates not allowed"⟩

/-- The audit loggers of the library. -/
inductive AuditLogger where
  | inMemory
  | jsonLines
deriving DecidableEq

/-- The logger accepts the entry. -/
def AuditLogger.accepts (logger : AuditLogger) (entry : AuditEntry) : Bool :=
  match logger with
  | .inMemory => true
  | .jsonLines => entry.toJson.encodable

/-- `_record`. -/
def AuditLogger.record (logger : AuditLogger) (entry : AuditEntry) : Except PyExc Unit :=
  if logger.accepts entry then .ok () else .error unicodeEncodeError

@[simp] theorem AuditLogger.accepts_inMemory (entry : AuditEntry) :
    AuditLogger.inMemory.accepts entry = true := rfl

end Security
end KineticSdk
