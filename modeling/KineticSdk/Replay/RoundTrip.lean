/-
  KineticSdk.Replay.RoundTrip

  What a checkpoint gives back.

  Saving writes the runtime fields through redaction, so reading them back
  gives the redacted runtime (`redactRuntime`); the conversation comes back as
  it was, except that a summary object among its metadata comes back as text.
  A checkpoint is therefore restored exactly when there was nothing to redact,
  no summary object and no text that the file cannot hold.
-/

import KineticSdk.Replay.Checkpoint

namespace KineticSdk

-- ============================================================================
-- Values that redaction leaves alone
-- ============================================================================

namespace Security

open Py

theorem redactFields_cons {k : PyStr} (h : sensitiveKey k = false) (v : Json) (kvs : Dict) :
    redactFields ((k, v) :: kvs) = (k, redactValue v) :: redactFields kvs := by
  cases v with
  | str s => simp only [redactFields, redactValue, h, Bool.false_eq_true, if_false]
  | _ => simp only [redactFields]

theorem redactList_eq_map (xs : List Json) : redactList xs = xs.map redactValue := by
  induction xs with
  | nil => rfl
  | cons x xs ih => simp only [redactList, ih, List.map_cons]

mutual

/-- The value holds no secret: no text that `redact_secrets` changes, and under
    a sensitive key no text but the marker itself. -/
def secretFree : Json → Bool
  | .str s => redactSecrets s == s
  | .obj kvs => secretFreeFields kvs
  | .arr xs => secretFreeList xs
  | _ => true

/-- `secretFree` on the items of a dict. -/
def secretFreeFields : Dict → Bool
  | [] => true
  | (k, .str s) :: kvs =>
      (if sensitiveKey k then s == redacted else redactSecrets s == s) && secretFreeFields kvs
  | (_, v) :: kvs => secretFree v && secretFreeFields kvs

/-- `secretFree` on the elements of a list. -/
def secretFreeList : List Json → Bool
  | [] => true
  | x :: xs => secretFree x && secretFreeList xs

end

mutual

theorem redactValue_eq_self_iff : (v : Json) → (redactValue v = v ↔ secretFree v = true)
  | .str s => by simp [redactValue, secretFree]
  | .obj kvs => by simp [redactValue, secretFree, redactFields_eq_self_iff kvs]
  | .arr xs => by simp [redactValue, secretFree, redactList_eq_self_iff xs]
  | .null => by simp [redactValue, secretFree]
  | .bool b => by simp [redactValue, secretFree]
  | .int n => by simp [redactValue, secretFree]
  | .float r => by simp [redactValue, secretFree]

theorem redactFields_eq_self_iff : (kvs : Dict) →
    (redactFields kvs = kvs ↔ secretFreeFields kvs = true)
  | [] => by simp [redactFields, secretFreeFields]
  | (k, v) :: kvs => by
      have hv := redactValue_eq_self_iff v
      have hkvs := redactFields_eq_self_iff kvs
      cases v with
      | str s =>
          have hmark : redacted = s ↔ s = redacted := eq_comm
          cases hk : sensitiveKey k with
          | true => simp [redactFields, secretFreeFields, hk, hkvs, hmark]
          | false => simp [redactFields, secretFreeFields, hk, hkvs]
      | _ => simp [redactFields, secretFreeFields, hkvs, hv]

theorem redactList_eq_self_iff : (xs : List Json) →
    (redactList xs = xs ↔ secretFreeList xs = true)
  | [] => by simp [redactList, secretFreeList]
  | x :: xs => by
      simp [redactList, secretFreeList, redactValue_eq_self_iff x, redactList_eq_self_iff xs]

end

end Security

namespace Replay

open Py Tool Security Conversation

-- ============================================================================
-- The redacted runtime
-- ============================================================================

/-- A call as a checkpoint keeps it. -/
def redactCall (call : ToolCall) : ToolCall :=
  ⟨redactSecrets call.id, redactSecrets call.name, redactValue call.arguments⟩

/-- A pending confirmation as a checkpoint keeps it. -/
def redactPending (p : PendingConfirmation) : PendingConfirmation :=
  ⟨redactCall p.call, redactFields p.arguments,
    { p.decision with reason := redactSecrets p.decision.reason }⟩

/-- The runtime fields as a checkpoint keeps them. -/
def redactRuntime (r : Runtime) : Runtime :=
  { r with
    pendingConfirmation := r.pendingConfirmation.map redactPending
    pendingRemainingCalls := r.pendingRemainingCalls.map redactCall }

/-- The keys of a checkpoint's own records name no secrets. -/
theorem sensitiveKey_record :
    ∀ k ∈ [py "id", py "name", py "arguments", py "call", py "decision", py "allowed",
      py "reason", py "requires_confirmation", py "mode", py "sticky_max", py "max_iterations",
      py "max_iterations_override", py "enable_extended_reasoning", py "pending_confirmation",
      py "pending_remaining_calls", py "run_id", py "agent"], sensitiveKey k = false := by
  decide

theorem redactSecrets_mode (mode : AgentMode) : redactSecrets mode.value = mode.value := by
  cases mode <;> decide

theorem redactValue_callToJson (call : ToolCall) :
    redactValue (callToJson call) = callToJson (redactCall call) := by
  unfold callToJson redactCall
  rw [redactValue, redactFields_cons (sensitiveKey_record _ (by simp)),
    redactFields_cons (sensitiveKey_record _ (by simp)),
    redactFields_cons (sensitiveKey_record _ (by simp))]
  simp only [redactFields, redactValue]

theorem redactValue_pendingToJson (p : PendingConfirmation) :
    redactValue p.toJson = (redactPending p).toJson := by
  unfold PendingConfirmation.toJson redactPending PermissionDecision.toJson
  rw [redactValue, redactFields_cons (sensitiveKey_record _ (by simp)),
    redactFields_cons (sensitiveKey_record _ (by simp)),
    redactFields_cons (sensitiveKey_record _ (by simp)), redactValue_callToJson, redactValue,
    redactValue, redactFields_cons (sensitiveKey_record _ (by simp)),
    redactFields_cons (sensitiveKey_record _ (by simp)),
    redactFields_cons (sensitiveKey_record _ (by simp))]
  simp only [redactFields, redactValue]

theorem redactValue_runtimeToJson (r : Runtime) :
    redactValue r.toJson = (redactRuntime r).toJson := by
  have hoverride : redactValue (optional .int r.maxIterationsOverride)
      = optional .int r.maxIterationsOverride := by
    cases r.maxIterationsOverride <;> simp only [optional, redactValue]
  have hpending : redactValue (optional PendingConfirmation.toJson r.pendingConfirmation)
      = optional PendingConfirmation.toJson (r.pendingConfirmation.map redactPending) := by
    cases r.pendingConfirmation with
    | none => simp only [optional, Option.map_none, redactValue]
    | some p => simp only [optional, Option.map_some, redactValue_pendingToJson]
  have hcalls : (r.pendingRemainingCalls.map callToJson).map redactValue
      = (r.pendingRemainingCalls.map redactCall).map callToJson := by
    rw [List.map_map, List.map_map]
    exact List.map_congr_left fun call _ => redactValue_callToJson call
  unfold Runtime.toJson redactRuntime
  rw [redactValue, redactFields_cons (sensitiveKey_record _ (by simp)),
    redactFields_cons (sensitiveKey_record _ (by simp)),
    redactFields_cons (sensitiveKey_record _ (by simp)),
    redactFields_cons (sensitiveKey_record _ (by simp)),
    redactFields_cons (sensitiveKey_record _ (by simp)),
    redactFields_cons (sensitiveKey_record _ (by simp)),
    redactFields_cons (sensitiveKey_record _ (by simp)), hoverride, hpending]
  simp only [redactFields, redactValue, redactSecrets_mode, redactList_eq_map, hcalls]

-- ============================================================================
-- Reading the runtime back
-- ============================================================================

/-- A call as `_restore_checkpoint_runtime_state` rebuilds it: its arguments
    become a dict. -/
def rebuildCall (call : ToolCall) : Except PyExc ToolCall :=
  (toDict call.arguments).map fun kvs => ⟨call.id, call.name, .obj kvs⟩

/-- A list of calls as it is rebuilt. -/
def rebuildCalls : List ToolCall → Except PyExc (List ToolCall)
  | [] => .ok []
  | call :: calls => do
      let call ← rebuildCall call
      let calls ← rebuildCalls calls
      pure (call :: calls)

/-- A pending confirmation as it is rebuilt. -/
def rebuildPending : Option PendingConfirmation → Except PyExc (Option PendingConfirmation)
  | none => .ok none
  | some p => (rebuildCall p.call).map fun call => some { p with call := call }

theorem callOfJson_record (call : ToolCall) :
    callOfJson [(py "id", .str call.id), (py "name", .str call.name),
      (py "arguments", call.arguments)] = rebuildCall call := by
  have hread : callOfJson [(py "id", .str call.id), (py "name", .str call.name),
      (py "arguments", call.arguments)]
      = (toDict call.arguments >>= fun kvs => pure ⟨call.id, call.name, .obj kvs⟩) := rfl
  rw [hread, rebuildCall]
  cases toDict call.arguments <;> rfl

theorem callsOfJson_map (calls : List ToolCall) :
    callsOfJson (calls.map callToJson) = rebuildCalls calls := by
  induction calls with
  | nil => rfl
  | cons call calls ih =>
      rw [List.map_cons, callToJson, callsOfJson, callOfJson_record, ih]
      rfl

theorem decisionOfJson_record (d : PermissionDecision) :
    decisionOfJson [(py "allowed", .bool d.allowed), (py "reason", .str d.reason),
      (py "requires_confirmation", .bool d.requiresConfirmation)] = .ok d := rfl

theorem pendingOfJson_toJson (p : Option PendingConfirmation) :
    pendingOfJson (optional PendingConfirmation.toJson p) = rebuildPending p := by
  cases p with
  | none => rfl
  | some p =>
      have hread : pendingOfJson p.toJson = (do
          let call ← callOfJson [(py "id", .str p.call.id), (py "name", .str p.call.name),
            (py "arguments", p.call.arguments)]
          let decision ← decisionOfJson [(py "allowed", .bool p.decision.allowed),
            (py "reason", .str p.decision.reason),
            (py "requires_confirmation", .bool p.decision.requiresConfirmation)]
          pure (some ⟨call, p.arguments, decision⟩)) := rfl
      rw [optional, hread, callOfJson_record, decisionOfJson_record, rebuildPending]
      cases rebuildCall p.call <;> rfl

/-- The runtime fields as they are rebuilt. -/
def rebuildRuntime (r : Runtime) : Except PyExc Runtime := do
  let pending ← rebuildPending r.pendingConfirmation
  let remaining ← rebuildCalls r.pendingRemainingCalls
  pure { r with pendingConfirmation := pending, pendingRemainingCalls := remaining }

/-- The items of a runtime record. -/
def runtimeFields (r : Runtime) : Dict :=
  [(py "mode", .str r.mode.value), (py "sticky_max", .bool r.stickyMax),
   (py "max_iterations", .int r.maxIterations),
   (py "max_iterations_override", optional .int r.maxIterationsOverride),
   (py "enable_extended_reasoning", .bool r.enableExtendedReasoning),
   (py "pending_confirmation", optional PendingConfirmation.toJson r.pendingConfirmation),
   (py "pending_remaining_calls", .arr (r.pendingRemainingCalls.map callToJson))]

theorem ofValue_value (mode : AgentMode) : AgentMode.ofValue (.str mode.value) = .ok mode := by
  cases mode <;> decide

theorem overrideOf_optional (n : Option Int) : overrideOf (some (optional .int n)) = n := by
  cases n <;> rfl

theorem ofJson_runtimeFields (r : Runtime) :
    Runtime.ofJson (runtimeFields r) = rebuildRuntime r := by
  have hread : Runtime.ofJson (runtimeFields r) = (do
      let mode ← AgentMode.ofValue (.str r.mode.value)
      let pending ← pendingOfJson (optional PendingConfirmation.toJson r.pendingConfirmation)
      let remaining ← callsOfJson (r.pendingRemainingCalls.map callToJson)
      pure ⟨mode, r.stickyMax, r.maxIterations,
        overrideOf (some (optional .int r.maxIterationsOverride)), r.enableExtendedReasoning,
        pending, remaining⟩) := rfl
  rw [hread, ofValue_value, pendingOfJson_toJson, callsOfJson_map, overrideOf_optional,
    rebuildRuntime]
  rfl

-- ============================================================================
-- Reading the conversation back
-- ============================================================================

/-- A conversation as it is rebuilt: a summary object becomes its text. -/
def rebuildConv (c : ConversationState) : ConversationState :=
  { c with metadata := c.metadata.map fun kv => (kv.1, .json (metaToJson kv.2)) }

theorem messagesOfJson_map (ms : List Message) : messagesOfJson (ms.map .obj) = some ms := by
  induction ms with
  | nil => rfl
  | cons m ms ih => rw [List.map_cons, messagesOfJson, ih, Option.map_some]

theorem stateFromDict_stateToDict (c : ConversationState) :
    stateFromDict (stateToDict c) = .ok (rebuildConv c) := by
  have hmessages : Dict.get? (stateToDict c) (py "messages") = some (.arr (c.messages.map .obj)) := rfl
  have hprompt : Dict.get? (stateToDict c) (py "system_prompt") = some (optStr c.systemPrompt) := rfl
  have hmax : Dict.get? (stateToDict c) (py "max_messages") = some (optional .int c.maxMessages) := rfl
  have hmetadata : Dict.get? (stateToDict c) (py "metadata")
      = some (.obj (c.metadata.map fun kv => (kv.1, metaToJson kv.2))) := rfl
  rw [stateFromDict, hmessages, hprompt, hmax, hmetadata]
  dsimp only
  rw [messagesOfJson_map, overrideOf_optional, List.map_map]
  obtain ⟨prompt, messages, maxMessages, metadata⟩ := c
  cases prompt <;> rfl

/-- Metadata without a summary object. -/
def plainMetadata (c : ConversationState) : Prop := ∀ kv ∈ c.metadata, ∃ v, kv.2 = .json v

theorem rebuildConv_eq_self_iff (c : ConversationState) :
    rebuildConv c = c ↔ plainMetadata c := by
  have hmeta : rebuildConv c = c ↔
      c.metadata.map (fun kv => (kv.1, MetaValue.json (metaToJson kv.2))) = c.metadata := by
    constructor
    · intro h
      exact congrArg ConversationState.metadata h
    · intro h
      unfold rebuildConv
      rw [h]
  rw [hmeta]
  constructor
  · intro h kv hkv
    rw [← h] at hkv
    obtain ⟨kv', -, rfl⟩ := List.mem_map.mp hkv
    exact ⟨_, rfl⟩
  · intro h
    refine (List.map_congr_left ?_).trans (List.map_id _)
    intro kv hkv
    obtain ⟨v, hv⟩ := h kv hkv
    obtain ⟨k, v'⟩ := kv
    obtain rfl : v' = .json v := hv
    rfl

-- ============================================================================
-- Saving and resuming
-- ============================================================================

/-- The file can hold the run with the two steps of a checkpoint. -/
def Writable (store : ReplayStore) (runId : PyStr) (conv : ConversationState) (r : Runtime) :
    Prop :=
  ({ store.timeline runId with steps := (store.timeline runId).steps
      ++ [snapshotStep conv, checkpointStep runId r] } : ReplayRun).toJson.encodable = true

theorem encodable_steps_append (runId : PyStr) (steps steps' : List ReplayStep) :
    (⟨runId, steps ++ steps'⟩ : ReplayRun).toJson.encodable
      = ((⟨runId, steps⟩ : ReplayRun).toJson.encodable
        && Json.encodableList (steps'.map ReplayStep.toJson)) := by
  have hrun : ∀ steps : List ReplayStep, (⟨runId, steps⟩ : ReplayRun).toJson.encodable
      = (Py.encodable runId && Json.encodableList (steps.map ReplayStep.toJson)) := by
    intro steps
    have hid : Py.encodable (py "run_id") = true := by decide
    have hsteps : Py.encodable (py "steps") = true := by decide
    simp only [ReplayRun.toJson, Json.encodable, Json.encodableFields, hid, hsteps, Bool.true_and,
      Bool.and_true]
  rw [hrun, hrun, List.map_append, Json.encodableList_append, Bool.and_assoc]

theorem timeline_eq (store : ReplayStore) (runId : PyStr) :
    store.timeline runId = ⟨runId, (store.timeline runId).steps⟩ := by
  unfold ReplayStore.timeline
  split
  · rename_i run
    split
    · rename_i hid
      rw [← hid]
    · rfl
  · rfl

theorem appendStep_eq {store : ReplayStore} {runId : PyStr} {steps : List ReplayStep}
    (h : store.timeline runId = ⟨runId, steps⟩) (step : ReplayStep) :
    appendStep store runId step =
      if (⟨runId, steps ++ [step]⟩ : ReplayRun).toJson.encodable then
        .ok ⟨runId, steps ++ [step]⟩
      else .error unicodeEncodeError := by
  unfold appendStep
  rw [h]

/-- What a successful save leaves in the store. -/
theorem save_eq_ok_iff (store store' : ReplayStore) (runId : PyStr) (conv : ConversationState)
    (r : Runtime) :
    save store runId conv r = (store', .ok ()) ↔
      runId ≠ [] ∧ Writable store runId conv r ∧
        store' = some ⟨runId, (store.timeline runId).steps
          ++ [snapshotStep conv, checkpointStep runId r]⟩ := by
  obtain ⟨steps, hrun⟩ : ∃ steps, store.timeline runId = ⟨runId, steps⟩ :=
    ⟨_, timeline_eq store runId⟩
  have hnext : ReplayStore.timeline (some ⟨runId, steps ++ [snapshotStep conv]⟩) runId
      = ⟨runId, steps ++ [snapshotStep conv]⟩ := if_pos rfl
  have hsplit : steps ++ [snapshotStep conv, checkpointStep runId r]
      = (steps ++ [snapshotStep conv]) ++ [checkpointStep runId r] := by simp
  have hboth := encodable_steps_append runId (steps ++ [snapshotStep conv])
    [checkpointStep runId r]
  unfold save Writable
  rw [hrun, hsplit, appendStep_eq hrun]
  by_cases hid : runId = []
  · rw [if_pos hid]
    constructor
    · intro h
      cases h
    · exact fun h => absurd hid h.1
  · rw [if_neg hid]
    by_cases h₁ : (⟨runId, steps ++ [snapshotStep conv]⟩ : ReplayRun).toJson.encodable = true
    · rw [if_pos h₁]
      dsimp only
      rw [appendStep_eq hnext]
      by_cases h₂ : (⟨runId, (steps ++ [snapshotStep conv]) ++ [checkpointStep runId r]⟩ :
          ReplayRun).toJson.encodable = true
      · rw [if_pos h₂]
        constructor
        · intro h
          exact ⟨hid, h₂, (Prod.mk.inj h).1.symm⟩
        · rintro ⟨-, -, rfl⟩
          rfl
      · rw [if_neg h₂]
        constructor
        · intro h
          cases h
        · exact fun h => absurd h.2.1 h₂
    · rw [if_neg h₁]
      constructor
      · intro h
        cases h
      · intro h
        rw [hboth, Bool.and_eq_true] at h
        exact absurd h.2.1.1 h₁

theorem lastPayload_snapshot (steps : List ReplayStep) (a b : ReplayStep) (ha : a.kind = .snapshot)
    (hb : b.kind = .checkpoint) :
    lastPayload (steps ++ [a, b]) .snapshot = some a.payload ∧
      lastPayload (steps ++ [a, b]) .checkpoint = some b.payload := by
  unfold lastPayload
  simp [ha, hb]

/-- What a resume reads from a timeline: its latest snapshot and its latest
    runtime step. -/
theorem resume_of_last (run : ReplayRun) {state : Dict} {conv : ConversationState} {r : Runtime}
    (hsnap : lastPayload run.steps .snapshot = some [(py "state", .obj state)])
    (hcheck : lastPayload run.steps .checkpoint = some (checkpointStep run.runId r).payload)
    (hstate : stateFromDict state = .ok conv) :
    resume (some run) run.runId
      = (rebuildRuntime (redactRuntime r)).map fun r' => (conv, r') := by
  have hpayload : (checkpointStep run.runId r).payload
      = [(py "run_id", .str (redactSecrets run.runId)), (py "agent", (redactRuntime r).toJson)] := by
    unfold checkpointStep
    rw [redactFields_cons (sensitiveKey_record _ (by simp)),
      redactFields_cons (sensitiveKey_record _ (by simp)), redactValue_runtimeToJson]
    simp only [redactFields, redactValue]
  have hget : Dict.get? [(py "state", Json.obj state)] (py "state") = some (.obj state) := rfl
  have hagent : Dict.get? (checkpointStep run.runId r).payload (py "agent")
      = some (.obj (runtimeFields (redactRuntime r))) := by
    rw [hpayload]
    rfl
  unfold resume
  dsimp only
  rw [if_neg (by simp), hsnap, hcheck]
  dsimp only
  rw [hget, hagent]
  dsimp only
  rw [hstate, ofJson_runtimeFields]

/-- What a resume reads from a timeline that ends in a checkpoint. -/
theorem resume_of_checkpoint (runId : PyStr) (steps : List ReplayStep) (conv : ConversationState)
    (r : Runtime) :
    resume (some ⟨runId, steps ++ [snapshotStep conv, checkpointStep runId r]⟩) runId
      = (rebuildRuntime (redactRuntime r)).map fun r' => (rebuildConv conv, r') := by
  obtain ⟨hsnap, hcheck⟩ := lastPayload_snapshot steps (snapshotStep conv)
    (checkpointStep runId r) rfl rfl
  exact resume_of_last ⟨runId, _⟩ hsnap hcheck (stateFromDict_stateToDict conv)

-- ============================================================================
-- When nothing is lost
-- ============================================================================

/-- The arguments of the calls a checkpoint keeps are JSON objects. -/
structure ObjectArguments (r : Runtime) : Prop where
  pending : ∀ p, r.pendingConfirmation = some p → p.call.arguments.isObj = true
  remaining : ∀ call ∈ r.pendingRemainingCalls, call.arguments.isObj = true

/-- A call without secrets. -/
structure SecretFreeCall (call : ToolCall) : Prop where
  id : redactSecrets call.id = call.id
  name : redactSecrets call.name = call.name
  arguments : secretFree call.arguments = true

/-- A pending confirmation without secrets. -/
structure SecretFreePending (p : PendingConfirmation) : Prop where
  call : SecretFreeCall p.call
  arguments : secretFreeFields p.arguments = true
  reason : redactSecrets p.decision.reason = p.decision.reason

/-- Runtime fields without secrets. -/
structure SecretFree (r : Runtime) : Prop where
  pending : ∀ p, r.pendingConfirmation = some p → SecretFreePending p
  remaining : ∀ call ∈ r.pendingRemainingCalls, SecretFreeCall call

theorem redactCall_eq_self_iff (call : ToolCall) :
    redactCall call = call ↔ SecretFreeCall call := by
  obtain ⟨id, name, arguments⟩ := call
  unfold redactCall
  rw [ToolCall.mk.injEq, redactValue_eq_self_iff]
  exact ⟨fun h => ⟨h.1, h.2.1, h.2.2⟩, fun h => ⟨h.id, h.name, h.arguments⟩⟩

theorem redactPending_eq_self_iff (p : PendingConfirmation) :
    redactPending p = p ↔ SecretFreePending p := by
  obtain ⟨call, arguments, ⟨allowed, reason, confirm⟩⟩ := p
  unfold redactPending
  rw [PendingConfirmation.mk.injEq, redactCall_eq_self_iff, redactFields_eq_self_iff,
    PermissionDecision.mk.injEq]
  exact ⟨fun h => ⟨h.1, h.2.1, h.2.2.2.1⟩, fun h => ⟨h.call, h.arguments, rfl, h.reason, rfl⟩⟩

theorem redactRuntime_eq_self_iff (r : Runtime) : redactRuntime r = r ↔ SecretFree r := by
  constructor
  · intro h
    refine ⟨?_, ?_⟩
    · intro p hp
      have hmap : (redactRuntime r).pendingConfirmation = some p := by rw [h, hp]
      have hpending : some (redactPending p) = some p := by
        rw [← hmap]
        show some (redactPending p) = r.pendingConfirmation.map redactPending
        rw [hp, Option.map_some]
      exact (redactPending_eq_self_iff p).mp (Option.some.inj hpending)
    · intro call hcall
      have hmap : r.pendingRemainingCalls.map redactCall = r.pendingRemainingCalls :=
        congrArg Runtime.pendingRemainingCalls h
      exact (redactCall_eq_self_iff call).mp
        (List.map_inj_left.mp (hmap.trans (List.map_id _).symm) call hcall)
  · intro h
    have hpending : r.pendingConfirmation.map redactPending = r.pendingConfirmation := by
      cases hp : r.pendingConfirmation with
      | none => rfl
      | some p => rw [Option.map_some, (redactPending_eq_self_iff p).mpr (h.pending p hp)]
    have hremaining : r.pendingRemainingCalls.map redactCall = r.pendingRemainingCalls :=
      (List.map_congr_left fun call hcall =>
        (redactCall_eq_self_iff call).mpr (h.remaining call hcall)).trans (List.map_id _)
    unfold redactRuntime
    rw [hpending, hremaining]

theorem rebuildCall_redactCall {call : ToolCall} (h : call.arguments.isObj = true) :
    rebuildCall (redactCall call) = .ok (redactCall call) := by
  obtain ⟨id, name, arguments⟩ := call
  cases arguments with
  | obj kvs =>
      show (toDict (redactValue (.obj kvs))).map _ = _
      rw [redactValue]
      simp only [toDict_obj, redactCall, redactValue]
      rfl
  | _ => cases h

theorem rebuildCalls_redactCall (calls : List ToolCall)
    (h : ∀ call ∈ calls, call.arguments.isObj = true) :
    rebuildCalls (calls.map redactCall) = .ok (calls.map redactCall) := by
  induction calls with
  | nil => rfl
  | cons call calls ih =>
      rw [List.map_cons, rebuildCalls, rebuildCall_redactCall (h call (List.mem_cons_self ..)),
        ih fun c hc => h c (List.mem_cons_of_mem _ hc)]
      rfl

theorem rebuildRuntime_redactRuntime {r : Runtime} (h : ObjectArguments r) :
    rebuildRuntime (redactRuntime r) = .ok (redactRuntime r) := by
  have hpending : rebuildPending (r.pendingConfirmation.map redactPending)
      = .ok (r.pendingConfirmation.map redactPending) := by
    cases hp : r.pendingConfirmation with
    | none => rfl
    | some p =>
        rw [Option.map_some, rebuildPending]
        show (rebuildCall (redactCall p.call)).map _ = _
        rw [rebuildCall_redactCall (h.pending p hp)]
        rfl
  unfold rebuildRuntime
  show (rebuildPending (r.pendingConfirmation.map redactPending) >>= fun pending =>
    rebuildCalls (r.pendingRemainingCalls.map redactCall) >>= fun remaining => _) = _
  rw [hpending, rebuildCalls_redactCall _ h.remaining]
  rfl

/-- What a saved checkpoint gives back. -/
theorem resume_save {store store' : ReplayStore} {runId : PyStr} {conv : ConversationState}
    {r : Runtime} (h : save store runId conv r = (store', .ok ())) :
    resume store' runId
      = (rebuildRuntime (redactRuntime r)).map fun r' => (rebuildConv conv, r') := by
  obtain ⟨-, -, rfl⟩ := (save_eq_ok_iff _ _ _ _ _).mp h
  exact resume_of_checkpoint runId _ conv r

/-- Saving and resuming loses nothing exactly when the run has started, the
    file can hold the texts, and there is no summary object and no secret. -/
theorem resume_save_eq_iff (store : ReplayStore) (runId : PyStr) (conv : ConversationState)
    {r : Runtime} (h : ObjectArguments r) :
    (∃ store', save store runId conv r = (store', .ok ()) ∧
        resume store' runId = .ok (conv, r)) ↔
      runId ≠ [] ∧ Writable store runId conv r ∧ plainMetadata conv ∧ SecretFree r := by
  have hback : ∀ store', save store runId conv r = (store', .ok ()) →
      (resume store' runId = .ok (conv, r) ↔ plainMetadata conv ∧ SecretFree r) := by
    intro store' hsave
    rw [resume_save hsave, rebuildRuntime_redactRuntime h]
    show Except.ok (rebuildConv conv, redactRuntime r) = _ ↔ _
    rw [Except.ok.injEq, Prod.mk.injEq, rebuildConv_eq_self_iff, redactRuntime_eq_self_iff]
  constructor
  · rintro ⟨store', hsave, hresume⟩
    obtain ⟨hid, hwrite, -⟩ := (save_eq_ok_iff _ _ _ _ _).mp hsave
    exact ⟨hid, hwrite, (hback store' hsave).mp hresume⟩
  · rintro ⟨hid, hwrite, hrest⟩
    have hsave := (save_eq_ok_iff store _ runId conv r).mpr ⟨hid, hwrite, rfl⟩
    exact ⟨_, hsave, (hback _ hsave).mpr hrest⟩

end Replay
end KineticSdk
