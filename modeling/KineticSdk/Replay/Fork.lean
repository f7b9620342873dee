/-
  KineticSdk.Replay.Fork

  Forking a recorded run (`replay/session.py`).

  A fork continues from the latest snapshot at or before a position of the
  timeline.  It looks at the type of a step and at redaction marks, and reads
  the state back as it is.
-/

import KineticSdk.Replay.Recorder

namespace KineticSdk
namespace Replay

open Py Security Conversation

mutual

/-- `_contains_redaction`. -/
def containsRedaction : Json → Bool
  | .str s => s.tails.any (startsWith redacted)
  | .obj kvs => containsRedactionFields kvs
  | .arr xs => containsRedactionList xs
  | _ => false

/-- `_contains_redaction` on the values of a dict. -/
def containsRedactionFields : Dict → Bool
  | [] => false
  | (_, v) :: kvs => containsRedaction v || containsRedactionFields kvs

/-- `_contains_redaction` on the elements of a list. -/
def containsRedactionList : List Json → Bool
  | [] => false
  | x :: xs => containsRedaction x || containsRedactionList xs

end

/-- `ReplayBranch`. -/
structure ReplayBranch where
  parentRunId : PyStr
  forkSequence : Nat
  state : ConversationState
deriving DecidableEq

/-- `ReplayForkError`. -/
def forkError (problem : PyStr) : PyExc := ⟨py "ReplayForkError", problem⟩

/-- The latest snapshot of some steps. -/
def latestSnapshot (steps : List (TimelineStep Dict)) : Option (TimelineStep Dict) :=
  steps.reverse.find? fun s => s.eventType = snapshotType

/-- The steps at or before a position; by default all of them. -/
def stepsUpTo (t : Timeline Dict) (sequence : Option Int) : Option (List (TimelineStep Dict)) :=
  let target := sequence.getD ((t.steps.length : Int) - 1)
  if target < 0 ∨ (t.steps.length : Int) ≤ target then none
  else some (t.steps.take (target.toNat + 1))

/-- The state of a snapshot, as a branch starts from it. -/
def branchState (payload : Dict) : Except PyExc ConversationState :=
  match Dict.get? payload (py "state") with
  | some (.obj state) =>
      if containsRedactionFields state then
        .error (forkError
          (py "snapshot is redacted; use protected raw snapshots to fork a live conversation"))
      else
        match stateFromDict state with
        | .error e => .error (forkError (py "snapshot state is invalid: " ++ e.message))
        | .ok conv => .ok conv
  | _ => .error (forkError (py "snapshot has no conversation state"))

/-- `fork`. -/
def fork (t : Timeline Dict) (sequence : Option Int) : Except PyExc ReplayBranch :=
  match stepsUpTo t sequence with
  | none => .error (forkError (py "fork sequence is outside the recorded timeline"))
  | some steps =>
      match latestSnapshot steps with
      | none =>
          .error (forkError (py "no replay-valid snapshot exists at or before this sequence"))
      | some snapshot =>
          (branchState snapshot.payload).map fun conv => ⟨t.runId, snapshot.sequence, conv⟩

end Replay
end KineticSdk
