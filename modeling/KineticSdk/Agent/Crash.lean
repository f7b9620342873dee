/-
  KineticSdk.Agent.Crash

  A process that dies while a batch pauses.

  A pause is written in four steps: the conversation and the runtime fields as
  they are when the call is flagged, then both again with the bookkeeping of
  the batch.  Every write replaces the file by one with one more step, so the
  file holds a prefix of these steps at every moment in between.  `Pause` says
  which steps they are; what an agent rebuilt from a prefix goes on with
  follows from the last snapshot and the last runtime step in it.
-/

import KineticSdk.Agent.Session
import KineticSdk.Agent.Pairing

namespace KineticSdk
namespace Agent

open Py Tool Security Conversation Replay Context
open Lib (Wp Keeps TurnView)
open Lib.TurnView (Awaiting Answered)

variable {σ α : Type}

-- ============================================================================
-- Writes to the store
-- ============================================================================

/-- The two steps of a checkpoint. -/
def checkpointSteps (runId : PyStr) (conv : ConversationState) (r : Runtime) : List ReplayStep :=
  [snapshotStep conv, checkpointStep runId r]

/-- What the store holds once the steps have been written, one file after the
    other. -/
def written (store : ReplayStore) (runId : PyStr) (steps : List ReplayStep) : ReplayStore :=
  if steps.isEmpty then store else some ⟨runId, (store.timeline runId).steps ++ steps⟩

@[simp] theorem written_nil (store : ReplayStore) (runId : PyStr) :
    written store runId [] = store := rfl

theorem written_of_ne_nil {store : ReplayStore} {runId : PyStr} {steps : List ReplayStep}
    (h : steps ≠ []) :
    written store runId steps = some ⟨runId, (store.timeline runId).steps ++ steps⟩ := by
  unfold written
  rw [if_neg (by simpa using h)]

theorem steps_written (store : ReplayStore) (runId : PyStr) (steps : List ReplayStep) :
    ((written store runId steps).timeline runId).steps = (store.timeline runId).steps ++ steps := by
  cases steps with
  | nil => rw [written_nil, List.append_nil]
  | cons a as =>
      rw [written_of_ne_nil (List.cons_ne_nil a as)]
      have hrun : ReplayStore.timeline (some ⟨runId, (store.timeline runId).steps ++ a :: as⟩) runId
          = ⟨runId, (store.timeline runId).steps ++ a :: as⟩ := if_pos rfl
      rw [hrun]

theorem written_inj {store : ReplayStore} {runId : PyStr} {as bs : List ReplayStep}
    (h : written store runId as = written store runId bs) : as = bs := by
  have has := steps_written store runId as
  rw [h, steps_written] at has
  exact (List.append_cancel_left has).symm

theorem written_append (store : ReplayStore) (runId : PyStr) (as bs : List ReplayStep) :
    written (written store runId as) runId bs = written store runId (as ++ bs) := by
  cases bs with
  | nil => rw [written_nil, List.append_nil]
  | cons b bs =>
      have hne : as ++ b :: bs ≠ [] := by simp
      rw [written_of_ne_nil (List.cons_ne_nil b bs), written_of_ne_nil hne, steps_written,
        List.append_assoc]

/-- A write that succeeds is one more step. -/
theorem appendStep_written {store : ReplayStore} {runId : PyStr} {step : ReplayStep}
    {run : ReplayRun} (h : appendStep store runId step = .ok run) :
    some run = written store runId [step] := by
  have hrun := timeline_eq store runId
  rw [appendStep_eq hrun] at h
  rw [written_of_ne_nil (List.cons_ne_nil step [])]
  by_cases henc : (⟨runId, (store.timeline runId).steps ++ [step]⟩ : ReplayRun).toJson.encodable
      = true
  · rw [if_pos henc] at h
    rw [Except.ok.inj h]
  · rw [if_neg henc] at h
    cases h

/-- A checkpoint writes its two steps, or as far as it comes. -/
theorem save_written (store : ReplayStore) (runId : PyStr) (conv : ConversationState)
    (r : Runtime) :
    ∃ steps, steps <+: checkpointSteps runId conv r ∧
      (save store runId conv r).1 = written store runId steps ∧
      ((save store runId conv r).2 = .ok () → steps = checkpointSteps runId conv r) := by
  unfold save checkpointSteps
  by_cases hid : runId = []
  · rw [if_pos hid]
    exact ⟨[], List.nil_prefix, rfl, by simp⟩
  · rw [if_neg hid]
    cases hsnap : appendStep store runId (snapshotStep conv) with
    | error e => exact ⟨[], List.nil_prefix, rfl, by simp⟩
    | ok run =>
        have hone := appendStep_written hsnap
        dsimp only
        cases hcheck : appendStep (some run) runId (checkpointStep runId r) with
        | error e => exact ⟨[snapshotStep conv], by simp, hone, by simp⟩
        | ok run' =>
            have htwo := appendStep_written hcheck
            rw [hone, written_append] at htwo
            exact ⟨_, List.prefix_refl _, htwo, fun _ => rfl⟩

theorem written_of_saved {store store' : ReplayStore} {runId : PyStr} {conv : ConversationState}
    {r : Runtime} (h : save store runId conv r = (store', .ok ())) :
    store' = written store runId (checkpointSteps runId conv r) := by
  obtain ⟨steps, -, hstore, hall⟩ := save_written store runId conv r
  rw [h] at hstore hall
  rw [← hall rfl]
  exact hstore

-- ============================================================================
-- The first checkpoint of a pause
-- ============================================================================

/-- A checkpoint of `s` has been written, or as far as it came. -/
def SaveWrites (s s' : AgentState σ) : Prop :=
  ∃ steps, steps <+: checkpointSteps s.runId s.conv s.runtime ∧
    s'.store = written s.store s.runId steps

theorem saveCheckpoint_writes (s : AgentState σ) :
    Wp saveCheckpoint (fun _ s' => SaveWrites s s') (fun _ s' => SaveWrites s s') s := by
  obtain ⟨steps, hsteps, hstore, -⟩ := save_written s.store s.runId s.conv s.runtime
  show Wp (lift (Replay.save s.store s.runId s.conv s.runtime).2) _ _
    { s with store := (Replay.save s.store s.runId s.conv s.runtime).1 }
  cases (Replay.save s.store s.runId s.conv s.runtime).2 with
  | ok u => exact ⟨steps, hsteps, hstore⟩
  | error e => exact ⟨steps, hsteps, hstore⟩

/-- The first checkpoint of a pause at `call` has been written, or as far as it
    came. -/
def FirstWrites (s : AgentState σ) (call : ToolCall) (s' : AgentState σ) : Prop :=
  ∃ pending steps, pending.call = call ∧
    steps <+: checkpointSteps s.runId s.conv { s.runtime with pendingConfirmation := some pending } ∧
    s'.store = written s.store s.runId steps

theorem firstWrites_of_adds {s s' : AgentState σ} {as : List Action} (h : Adds as s s')
    (call : ToolCall) : FirstWrites s call s' :=
  ⟨⟨call, [], ⟨true, [], true⟩⟩, [], rfl, List.nil_prefix, h.store⟩

section First

variable {s : AgentState σ} {call : ToolCall}

/-- Until the pause nothing is written. -/
theorem firstWrites_of_quiet {p : Action → Prop} {r : Prop} {x : M σ α} (hx : Quiet p r x) :
    Keeps (fun s' => ∃ as, Adds as s s') (FirstWrites s call) x := by
  rintro s₁ ⟨as, has⟩
  apply (hx s₁).mono
  · rintro _ s₂ ⟨bs, hbs, -⟩
    exact ⟨as ++ bs, has.trans hbs⟩
  · rintro _ s₂ ⟨-, -, bs, hbs, -⟩
    exact firstWrites_of_adds (has.trans hbs) call

theorem firstWrites_note (a : Action) :
    Keeps (fun s' => ∃ as, Adds as s s') (FirstWrites s call) (note a : M σ PUnit) :=
  Keeps.modify fun s₁ ⟨_, has⟩ => ⟨_, has.trans (Adds.note s₁ a)⟩

theorem firstWrites_pause (arguments : Json) (decision : PermissionDecision) :
    Keeps (fun s' => ∃ as, Adds as s s') (FirstWrites s call)
      (pause call arguments decision : M σ (Gate σ)) := by
  refine (firstWrites_of_quiet (quiet_lift _)).bind fun kvs => ?_
  rintro s₁ ⟨as, has⟩
  have hfirst : ∀ s', SaveWrites { s₁ with
      runtime := { s₁.runtime with pendingConfirmation := some ⟨call, kvs, decision⟩ } } s' →
      FirstWrites s call s' := by
    rintro s' ⟨steps, hsteps, hstore⟩
    dsimp only at hsteps hstore
    rw [has.runId, has.conv, has.runtime] at hsteps
    rw [has.store, has.runId] at hstore
    exact ⟨_, steps, rfl, hsteps, hstore⟩
  rw [Lib.wp_bind, Lib.wp_modify, Lib.wp_bind]
  apply (saveCheckpoint_writes _).mono
  · exact fun _ s₂ h₂ => hfirst s₂ h₂
  · exact fun _ s₂ h₂ => hfirst s₂ h₂

theorem firstWrites_prepareCall (env : Env σ) :
    Keeps (fun s' => ∃ as, Adds as s s') (FirstWrites s call) (prepareCall env call) := by
  have hconfirm : ∀ arguments d, Keeps (fun s' => ∃ as, Adds as s s') (FirstWrites s call)
      (confirmationStatus env call arguments d) := by
    intro arguments d
    refine (firstWrites_of_quiet (still_triggerHooks env _)).bind fun results => Keeps.ite ?_ ?_
    · exact (firstWrites_note _).bind fun _ => Keeps.pure _
    · exact Keeps.ite (Keeps.pure _) ((firstWrites_note _).bind fun _ => Keeps.pure _)
  have hdeny : ∀ reason arguments, Keeps (fun s' => ∃ as, Adds as s s') (FirstWrites s call)
      (Gate.early <$> denyCall env call reason arguments : M σ (Gate σ)) :=
    fun reason arguments => firstWrites_of_quiet ((quiet_denyCall env call reason arguments).map _)
  refine (firstWrites_of_quiet (still_beforeToolCall env call)).bind fun left => ?_
  cases left with
  | none => exact Keeps.pure _
  | some arguments =>
      refine (firstWrites_of_quiet (still_ask _)).bind fun answer => ?_
      refine (firstWrites_of_quiet (quiet_lift _)).bind fun d => ?_
      refine (firstWrites_note _).bind fun _ => ?_
      refine (firstWrites_of_quiet (quiet_log env _)).bind fun _ => ?_
      refine (firstWrites_note _).bind fun _ => Keeps.ite (hdeny _ _) ?_
      refine (hconfirm arguments d).bind fun c => Keeps.ite (firstWrites_pause arguments d) ?_
      exact Keeps.ite (hdeny _ _) (firstWrites_of_quiet (quiet_checkTool env call arguments))

theorem firstWrites_executeOne (env : Env σ) (call : ToolCall) (s : AgentState σ) :
    Wp (executeOne env call) (fun _ _ => True) (fun _ s' => FirstWrites s call s') s := by
  have hkeeps : Keeps (fun s' => ∃ as, Adds as s s') (FirstWrites s call) (executeOne env call) := by
    refine (firstWrites_prepareCall env).bind fun g => ?_
    cases g with
    | early result => exact Keeps.pure _
    | go tool arguments => exact firstWrites_of_quiet (quiet_runCall env call tool arguments)
  apply (hkeeps s ⟨[], Adds.refl s⟩).mono
  · exact fun _ _ _ => trivial
  · exact fun _ _ h => h

theorem firstWrites_gateOne (env : Env σ) (call : ToolCall) (s : AgentState σ) :
    Wp (gateOne env call) (fun _ _ => True) (fun _ s' => FirstWrites s call s') s := by
  have hkeeps : Keeps (fun s' => ∃ as, Adds as s s') (FirstWrites s call) (gateOne env call) := by
    refine (firstWrites_prepareCall env).bind fun g => ?_
    cases g with
    | early result => exact Keeps.pure _
    | go tool arguments => exact Keeps.pure _
  apply (hkeeps s ⟨[], Adds.refl s⟩).mono
  · exact fun _ _ _ => trivial
  · exact fun _ _ h => h

end First

-- ============================================================================
-- What a batch writes
-- ============================================================================

/-- A pause inside a batch: the results in front of it, the call that waits,
    and the calls behind it with the ones the batch keeps. -/
structure Pause (calls : List ToolCall) where
  results : List (ToolCall × ToolResult)
  pending : PendingConfirmation
  rest : List ToolCall
  kept : List ToolCall
  split : calls = results.map Prod.fst ++ pending.call :: rest
  keeps : kept = pending.call :: rest ∨ kept = rest

/-- The steps a pause writes.  Side by side the calls in front of it are
    answered after the first checkpoint, else before it. -/
def Pause.steps {calls : List ToolCall} (env : Env σ) (sideBySide : Bool) (s : AgentState σ)
    (p : Pause calls) : List ReplayStep :=
  checkpointSteps s.runId (if sideBySide then s.conv else answered env s.conv p.results)
      { s.runtime with pendingConfirmation := some p.pending }
    ++ checkpointSteps s.runId (answered env s.conv p.results)
      { s.runtime with pendingConfirmation := some p.pending, pendingRemainingCalls := p.kept }

/-- Whether the calls of a batch run side by side. -/
def sideBySide (env : Env σ) (calls : List ToolCall) : Bool :=
  env.parallelToolExecution && 1 < calls.length

/-- The batch has written nothing, or the first steps of a pause. -/
def Writes (env : Env σ) (sideBySide : Bool) (calls : List ToolCall) (s s' : AgentState σ) : Prop :=
  ∃ steps, s'.store = written s.store s.runId steps ∧
    (steps = [] ∨ ∃ p : Pause calls, steps <+: p.steps env sideBySide s)

theorem writes_of_store {env : Env σ} {sideBySide : Bool} {calls : List ToolCall}
    {s s' : AgentState σ} (h : s'.store = s.store) : Writes env sideBySide calls s s' :=
  ⟨[], h, Or.inl rfl⟩

/-- With one more call answered in front, a pause of the rest is one of the
    whole batch. -/
theorem Writes.cons {env : Env σ} {call : ToolCall} {result : ToolResult} {calls : List ToolCall}
    {as : List Action} {s s₁ s' : AgentState σ} (h : Progress env [(call, result)] as s s₁)
    (hw : Writes env false calls s₁ s') : Writes env false (call :: calls) s s' := by
  obtain ⟨steps, hstore, hsteps⟩ := hw
  refine ⟨steps, by rw [hstore, h.store, h.runId], hsteps.imp_right ?_⟩
  rintro ⟨p, hp⟩
  refine ⟨⟨(call, result) :: p.results, p.pending, p.rest, p.kept,
    congrArg (List.cons call) p.split, p.keeps⟩, ?_⟩
  have hconv : answered env s₁.conv p.results
      = answered env s.conv ((call, result) :: p.results) := by
    rw [h.conv]
    rfl
  unfold Pause.steps at hp ⊢
  rw [hconv, h.runId, h.runtime] at hp
  exact hp

/-- A pause that came no further than its first checkpoint. -/
theorem FirstWrites.writes {env : Env σ} {sideBySide : Bool} {call : ToolCall}
    {rest : List ToolCall} {s s₁ s' : AgentState σ} {as : List Action}
    (h : FirstWrites s₁ call s') (rs : List (ToolCall × ToolResult)) (hadds : Adds as s s₁)
    (hseq : sideBySide = true ∨ rs = []) :
    Writes env sideBySide (rs.map Prod.fst ++ call :: rest) s s' := by
  obtain ⟨pending, steps, rfl, hsteps, hstore⟩ := h
  rw [hadds.runId, hadds.conv, hadds.runtime] at hsteps
  rw [hadds.store, hadds.runId] at hstore
  refine ⟨steps, hstore, Or.inr ⟨⟨rs, pending, rest, rest, rfl, Or.inr rfl⟩, ?_⟩⟩
  have hconv : (if sideBySide then s.conv else answered env s.conv rs) = s.conv := by
    rcases hseq with rfl | rfl
    · rfl
    · exact ite_self _
  unfold Pause.steps
  rw [hconv]
  exact hsteps.trans (List.prefix_append ..)

/-- A pause that came to its second checkpoint. -/
theorem writes_keepRemaining (env : Env σ) (sideBySide : Bool)
    (rs : List (ToolCall × ToolResult)) (pending : PendingConfirmation)
    {rest kept : List ToolCall} {s s₁ : AgentState σ}
    (hkept : kept = pending.call :: rest ∨ kept = rest)
    (hconv : s₁.conv = answered env s.conv rs) (hrun : s₁.runId = s.runId)
    (hruntime : s₁.runtime = { s.runtime with pendingConfirmation := some pending })
    (hstore : s₁.store = written s.store s.runId (checkpointSteps s.runId
      (if sideBySide then s.conv else answered env s.conv rs)
      { s.runtime with pendingConfirmation := some pending })) :
    Wp (keepRemaining kept)
      (fun _ s' => Writes env sideBySide (rs.map Prod.fst ++ pending.call :: rest) s s')
      (fun _ s' => Writes env sideBySide (rs.map Prod.fst ++ pending.call :: rest) s s') s₁ := by
  have hboth : ∀ s', SaveWrites { s₁ with
      runtime := { s₁.runtime with pendingRemainingCalls := kept } } s' →
      Writes env sideBySide (rs.map Prod.fst ++ pending.call :: rest) s s' := by
    rintro s' ⟨steps, hsteps, hstore'⟩
    dsimp only at hsteps hstore'
    rw [hrun, hconv, hruntime] at hsteps
    rw [hrun, hstore, written_append] at hstore'
    exact ⟨_, hstore', Or.inr ⟨⟨rs, pending, rest, kept, rfl, hkept⟩,
      (List.prefix_append_right_inj _).mpr hsteps⟩⟩
  unfold keepRemaining
  rw [Lib.wp_bind, Lib.wp_modify]
  apply (saveCheckpoint_writes _).mono
  · exact fun _ s' h => hboth s' h
  · exact fun _ s' h => hboth s' h

theorem writes_executeSequential (env : Env σ) (anyError : Bool) (calls : List ToolCall)
    (s : AgentState σ) :
    Wp (executeSequential env anyError calls) (fun _ s' => Writes env false calls s s')
      (fun _ s' => Writes env false calls s s') s := by
  induction calls generalizing anyError s with
  | nil => exact writes_of_store rfl
  | cons call rest ih =>
      -- one more call answered
      have hnext : ∀ (result : ToolResult) (b : Bool) (as : List Action) (s₁ : AgentState σ),
          Adds as s s₁ → Acts env [call] as →
          Wp (executeSequential env b rest) (fun _ s' => Writes env false (call :: rest) s s')
            (fun _ s' => Writes env false (call :: rest) s s') (recorded env call result s₁) := by
        intro result b as s₁ has hacts
        apply (ih b _).mono
        · exact fun _ s' h => h.cons (Progress.record has hacts)
        · exact fun _ s' h => h.cons (Progress.record has hacts)
      unfold executeSequential
      rw [Lib.wp_bind]
      apply (still_isCancelled env s).mono
      · intro stop s₁ h₁
        rw [Lib.wp_ite]
        refine ⟨fun _ => ?_, fun _ => ?_⟩
        · exact hnext skippedResult true [] s₁ h₁.adds ((Acts.nil env).weaken (List.nil_sublist _))
        · rw [Lib.wp_bind]
          show Wp (tryCatch _ _) _ _ _
          rw [Lib.wp_tryCatch]
          apply ((executeOne_spec env call s₁).and (firstWrites_executeOne env call s₁)).mono
          · rintro result s₂ ⟨⟨as, has, hacts⟩, -⟩
            rw [Lib.wp_bind]
            apply (still_emitToolCallFinished env call result s₂).mono
            · intro _ s₃ h₃
              have hadds : Adds as s s₃ := by simpa using (h₁.adds.trans has).trans h₃.adds
              exact hnext result _ as s₃ hadds hacts
            · exact fun _ _ h => h.1.elim
          · rintro e s₂ ⟨h₂, hfirst⟩
            cases e with
            | raised exc =>
                exact hfirst.writes [] h₁.adds (Or.inr rfl)
            | pendingConfirmation c a d id =>
                obtain ⟨rfl, as, s₀, has, -, -, kvs, -, hpaused, hsaved⟩ := h₂
                have hadds : Adds as s s₀ := by simpa using h₁.adds.trans has
                have hkept : suffixAt env c rest = c :: rest ∨ suffixAt env c rest = rest := by
                  unfold suffixAt
                  cases env.kind with
                  | sync => exact Or.inl rfl
                  | async => exact Or.inr rfl
                have hstore := written_of_saved hsaved
                rw [hpaused.runtime, hadds.store, hadds.runId, hadds.conv, hadds.runtime] at hstore
                rw [Lib.wp_bind]
                apply (writes_keepRemaining env false [] ⟨c, kvs, d⟩ hkept
                  (hpaused.conv.trans hadds.conv) (hpaused.runId.trans hadds.runId)
                  (by rw [hpaused.runtime, hadds.runtime]) hstore).mono
                · exact fun _ _ h => h
                · exact fun _ _ h => h
      · exact fun _ _ h => h.1.elim

/-- A pause side by side: the calls gated in front of it are run and recorded
    between its two checkpoints. -/
theorem writes_pause_after_dispatch {env : Env σ} {gated : List (ToolCall × Gated σ)}
    {pending : PendingConfirmation} (rest : List ToolCall) {as : List Action}
    {s s₀ s₂ : AgentState σ} (has : Adds as s s₀) (hok : ∀ entry ∈ gated, GatedOk env as entry)
    (hpaused : Paused pending s₀ s₂)
    (hsaved : Replay.save s₀.store s₀.runId s₀.conv s₂.runtime = (s₂.store, .ok ())) :
    Wp (dispatchAndRecord env gated >>= fun _ => keepRemaining (pending.call :: rest))
      (fun _ s' => Writes env true (gated.map Prod.fst ++ pending.call :: rest) s s')
      (fun _ s' => Writes env true (gated.map Prod.fst ++ pending.call :: rest) s s') s₂ := by
  have hstore := written_of_saved hsaved
  have hruntime : s₂.runtime = { s.runtime with pendingConfirmation := some pending } := by
    rw [hpaused.runtime, has.runtime]
  rw [hruntime, has.store, has.runId, has.conv] at hstore
  rw [Lib.wp_bind]
  apply (dispatchAndRecord_spec env as gated hok s₂).mono
  · rintro b s₃ ⟨rs, bs, hmap, -, hans, -⟩
    rw [← hmap]
    apply writes_keepRemaining env true rs pending (Or.inl rfl)
    · rw [hans.conv, hpaused.conv, has.conv]
    · rw [hans.runId, hpaused.runId, has.runId]
    · rw [hans.runtime, hruntime]
    · rw [hans.store]
      exact hstore
  · rintro e s' ⟨-, hsame, -⟩
    -- the first checkpoint is all there is
    have hfirst : FirstWrites s pending.call s' :=
      ⟨pending, _, rfl, List.prefix_refl _, hsame.trans hstore⟩
    have hmap : gated.map Prod.fst
        = (gated.map fun entry => (entry.1, skippedResult)).map Prod.fst := by simp
    rw [hmap]
    exact hfirst.writes _ (Adds.refl s) (Or.inl rfl)

theorem writes_gateAll (env : Env σ) (gated : List (ToolCall × Gated σ)) (rest : List ToolCall)
    {as : List Action} {s s₁ : AgentState σ} (has : Adds as s s₁)
    (hok : ∀ entry ∈ gated, GatedOk env as entry) :
    Wp (gateAll env gated rest) (fun _ s' => s'.store = s.store)
      (fun _ s' => Writes env true (gated.map Prod.fst ++ rest) s s') s₁ := by
  induction rest generalizing gated as s₁ with
  | nil => exact has.store
  | cons call rest ih =>
      -- one more call gated, with the actions `bs`
      have hnext : ∀ (g : Gated σ) (bs : List Action) (s₂ : AgentState σ), Adds bs s₁ s₂ →
          GatedOk env bs (call, g) →
          Wp (gateAll env (gated ++ [(call, g)]) rest) (fun _ s' => s'.store = s.store)
            (fun _ s' => Writes env true (gated.map Prod.fst ++ call :: rest) s s') s₂ := by
        intro g bs s₂ hbs hg
        have hok' : ∀ entry ∈ gated ++ [(call, g)], GatedOk env (as ++ bs) entry := by
          intro entry he tool arguments heq
          rcases List.mem_append.mp he with he | he
          · exact (hok entry he tool arguments heq).mono (by simp +contextual)
          · obtain rfl := List.mem_singleton.mp he
            exact (hg tool arguments heq).mono (by simp +contextual)
        have hstep := ih (gated ++ [(call, g)]) (has.trans hbs) hok'
        simpa using hstep
      unfold gateAll
      rw [Lib.wp_bind]
      apply (still_isCancelled env s₁).mono
      · intro stop s₂ h₂
        rw [Lib.wp_ite]
        refine ⟨fun _ => ?_, fun _ => ?_⟩
        · exact hnext .skipped [] s₂ h₂.adds (by simp [GatedOk])
        · rw [Lib.wp_bind]
          show Wp (tryCatch _ _) _ _ _
          rw [Lib.wp_tryCatch]
          apply ((gateOne_spec env call s₂).and (firstWrites_gateOne env call s₂)).mono
          · rintro g s₃ ⟨⟨bs, hbs, -, hg⟩, -⟩
            have hadds : Adds bs s₁ s₃ := by simpa using h₂.adds.trans hbs
            exact hnext g bs s₃ hadds hg
          · rintro e s₃ ⟨h₃, hfirst⟩
            have hmap : gated.map Prod.fst
                = (gated.map fun entry => (entry.1, skippedResult)).map Prod.fst := by simp
            cases e with
            | raised exc =>
                rw [hmap]
                exact hfirst.writes _ (has.trans h₂.adds) (Or.inl rfl)
            | pendingConfirmation c a d id =>
                obtain ⟨rfl, bs, s₀, hbs, -, -, kvs, -, hpaused, hsaved⟩ := h₃
                have hadds : Adds (as ++ bs) s s₀ := by
                  simpa using has.trans (h₂.adds.trans hbs)
                have hok' : ∀ entry ∈ gated, GatedOk env (as ++ bs) entry :=
                  fun entry he tool arguments heq =>
                    (hok entry he tool arguments heq).mono (by simp +contextual)
                have hdispatch := writes_pause_after_dispatch rest hadds hok' hpaused hsaved
                show Wp (_ >>= fun _ => throw _) _ _ _
                rw [Lib.wp_bind]
                apply hdispatch.mono
                · exact fun _ _ h => h
                · exact fun _ _ h => h
      · exact fun _ _ h => h.1.elim

/-- What a batch has written to the store, however it ends. -/
theorem writes_executeToolCalls (env : Env σ) (calls : List ToolCall) (s : AgentState σ) :
    Wp (executeToolCalls env calls) (fun _ s' => Writes env (sideBySide env calls) calls s s')
      (fun _ s' => Writes env (sideBySide env calls) calls s s') s := by
  unfold executeToolCalls sideBySide
  cases hmode : env.parallelToolExecution && decide (1 < calls.length) with
  | false =>
      rw [if_neg (by simp)]
      exact writes_executeSequential env false calls s
  | true =>
      rw [if_pos rfl]
      unfold executeParallel
      rw [Lib.wp_bind]
      apply ((gateAll_spec env [] calls [] s s (Adds.refl s) (Acts.nil env) (by simp)).and
        (writes_gateAll env [] calls (Adds.refl s) (by simp))).mono
      · rintro gated s₁ ⟨⟨-, as, has, -, hok⟩, -⟩
        apply (dispatchAndRecord_spec env as gated hok s₁).mono
        · rintro b s' ⟨rs, bs, -, -, hans, -⟩
          exact writes_of_store (hans.store.trans has.store)
        · rintro e s' ⟨-, hsame, -⟩
          exact writes_of_store (hsame.trans has.store)
      · exact fun _ _ h => h.2

-- ============================================================================
-- Dying and coming back
-- ============================================================================

/-- The process dies with `count` of the steps that a batch writes in the file,
    and so do the agents rebuilt from there, `resumes` of them, before they
    write anything but their marker. -/
structure Dies (env : Env σ) (calls : List ToolCall) (start : AgentState σ) (count resumes : Nat)
    (store : ReplayStore) : Prop where
  cut : ∃ phase s' steps, Lands (executeToolCalls env calls) start phase s' ∧
    s'.store = written start.store start.runId steps ∧ count ≤ steps.length ∧
    store = written start.store start.runId
      (steps.take count ++ List.replicate resumes (resumedStep start.runId))

/-- The states an agent rebuilt from the store can reach with the verdicts on
    all its confirmations. -/
inductive Recovered (env : Env σ) (store : ReplayStore) (runId : PyStr) :
    Phase → AgentState σ → Prop where
  | resumed {phase : Phase} {s₁ s₂ : AgentState σ} (approved : Bool) (world : σ)
      (seen : List Action) :
      resumeAgent store runId world seen = .ok s₁ →
      Lands (resolvePendingConfirmation env approved) s₁ phase s₂ →
      Recovered env store runId phase s₂
  | again {phase : Phase} {s s₁ s₂ : AgentState σ} (approved : Bool) (world : σ) :
      Recovered env store runId .paused s →
      resumeAgent s.store s.runId world s.trace = .ok s₁ →
      Lands (resolvePendingConfirmation env approved) s₁ phase s₂ →
      Recovered env store runId phase s₂

/-- The history, or what a cap has left of it, waits for the results of the
    given calls. -/
structure WaitsFor (calls : List ToolCall) (c : ConversationState) : Prop where
  full : ∃ h, c.messages <:+ h ∧ (c.maxMessages = none → c.messages = h) ∧
    toolView.Awaiting h (calls.map fun call => Json.str call.id)

/-- So does the history of a run whose turns are answered, right after the model
    asked for the calls. -/
theorem waitsFor_addAssistant (c : ConversationState) (response : LLMResponse)
    (h : toolView.Answered c.messages) (hids : ∀ call ∈ response.toolCalls, call.id ≠ []) :
    WaitsFor response.toolCalls (c.addAssistant (assistantContent response)) := by
  have hopens : toolView.opens (assistantMessage (assistantContent response)) = true :=
    isAssistant_assistantMessage (assistantContent response)
  have hlead : toolView.lead [assistantMessage (assistantContent response)] = [] :=
    Lib.TurnView.lead_cons_of_opens hopens
  have hturns := (Lib.TurnView.scan_append (a := c.messages) hlead).2
  rw [Lib.TurnView.turns_cons_of_opens hopens] at hturns
  refine ⟨_, ConversationState.append_suffix c _, ?_, _, _, hturns, h, ?_⟩
  · intro hcap
    have hsame : (c.addAssistant (assistantContent response)).maxMessages = c.maxMessages := by
      rw [ConversationState.addAssistant, ConversationState.append_eq]
    rw [hsame] at hcap
    rw [ConversationState.addAssistant, ConversationState.append_uncapped hcap]
  · rw [← toolUseIds_assistant response hids]
    exact List.Perm.refl _

/-- The calls that end up with a result when the process dies with `count` steps
    in the file: all of them once the second checkpoint is there.  Before that
    nothing keeps the calls behind the pending one, and side by side nothing
    but the second snapshot keeps those in front of it. -/
def Pause.answers {calls : List ToolCall} (sideBySide : Bool) (count : Nat) (p : Pause calls) :
    List ToolCall :=
  if 4 ≤ count then calls
  else if sideBySide && count < 3 then [p.pending.call]
  else p.results.map Prod.fst ++ [p.pending.call]

theorem lastPayload_append (as bs : List ReplayStep) (kind : StepKind) :
    lastPayload (as ++ bs) kind = (lastPayload bs kind).or (lastPayload as kind) := by
  unfold lastPayload
  rw [List.reverse_append, List.find?_append]
  cases List.find? (fun s => decide (s.kind = kind)) bs.reverse <;> rfl

/-- The markers of resumes hide nothing. -/
theorem lastPayload_resumes (as : List ReplayStep) (n : Nat) (runId : PyStr) {kind : StepKind}
    (hkind : kind ≠ .resumed) :
    lastPayload (as ++ List.replicate n (resumedStep runId)) kind = lastPayload as kind := by
  have hnone : lastPayload (List.replicate n (resumedStep runId)) kind = none := by
    unfold lastPayload
    rw [List.find?_eq_none.mpr, Option.map_none]
    intro step hstep
    obtain rfl := List.eq_of_mem_replicate (List.mem_reverse.mp hstep)
    simpa using fun h => hkind h.symm
  rw [lastPayload_append, hnone, Option.none_or]

/-- Where a pause stands once `count` of its steps are in the file: the last
    snapshot there answers the calls `rs`, and the last runtime step keeps the
    calls behind the pending one or none. -/
theorem Pause.cut {calls : List ToolCall} (env : Env σ) (sideBySide : Bool) (s : AgentState σ)
    (p : Pause calls) (hleft : s.runtime.pendingRemainingCalls = []) {count : Nat}
    (htwo : 2 ≤ count) (older : List ReplayStep) :
    ∃ (r : Runtime) (rs : List (ToolCall × ToolResult)) (rest : List ToolCall),
      lastPayload (older ++ (p.steps env sideBySide s).take count) .snapshot
        = some (snapshotStep (answered env s.conv rs)).payload ∧
      lastPayload (older ++ (p.steps env sideBySide s).take count) .checkpoint
        = some (checkpointStep s.runId r).payload ∧
      r.pendingConfirmation = some p.pending ∧
      p.answers sideBySide count = rs.map Prod.fst ++ p.pending.call :: rest ∧
      (r.pendingRemainingCalls = p.pending.call :: rest ∨ r.pendingRemainingCalls = rest) := by
  have hread : ∀ steps kind payload, lastPayload steps kind = some payload →
      lastPayload (older ++ steps) kind = some payload := by
    intro steps kind payload h
    rw [lastPayload_append, h, Option.some_or]
  rcases Nat.lt_or_ge count 4 with hlt | hfour
  · -- the last runtime step is the first one
    have hnot : ¬ 4 ≤ count := by omega
    have hfirst : ∃ rs, lastPayload ((p.steps env sideBySide s).take count) .snapshot
          = some (snapshotStep (answered env s.conv rs)).payload ∧
        lastPayload ((p.steps env sideBySide s).take count) .checkpoint
          = some (checkpointStep s.runId
              { s.runtime with pendingConfirmation := some p.pending }).payload ∧
        p.answers sideBySide count = rs.map Prod.fst ++ [p.pending.call] := by
      unfold Pause.answers
      rw [if_neg hnot]
      obtain rfl | rfl : count = 2 ∨ count = 3 := by omega
      · cases sideBySide with
        | true => exact ⟨[], rfl, rfl, rfl⟩
        | false => exact ⟨p.results, rfl, rfl, rfl⟩
      · cases sideBySide <;> exact ⟨p.results, rfl, rfl, rfl⟩
    obtain ⟨rs, hsnap, hcheck, hanswers⟩ := hfirst
    exact ⟨_, rs, [], hread _ _ _ hsnap, hread _ _ _ hcheck, rfl, hanswers, Or.inr hleft⟩
  · -- both checkpoints are there
    have hall : (p.steps env sideBySide s).take count = p.steps env sideBySide s :=
      List.take_of_length_le hfour
    unfold Pause.answers
    rw [if_pos hfour, hall]
    exact ⟨{ s.runtime with
        pendingConfirmation := some p.pending, pendingRemainingCalls := p.kept }, p.results, p.rest,
      hread _ _ _ rfl, hread _ _ _ rfl, rfl, p.split, p.keeps⟩

/-- What is written is enough to go on from: the second checkpoint is there, or
    the pending call is the last of its batch and, side by side, the second
    snapshot is there. -/
def Covers (env : Env σ) (calls : List ToolCall) (count : Nat) (pending : ToolCall) : Prop :=
  4 ≤ count ∨ (calls.getLast?.map ToolCall.id = some pending.id ∧
    (sideBySide env calls = true → 3 ≤ count))

theorem Pause.call_mem {calls : List ToolCall} (p : Pause calls) : p.pending.call ∈ calls := by
  obtain ⟨results, pending, rest, kept, rfl, -⟩ := p
  exact List.mem_append_right _ (List.mem_cons_self ..)

theorem Pause.answers_sublist {calls : List ToolCall} (p : Pause calls) (b : Bool) (count : Nat) :
    (p.answers b count).Sublist calls := by
  obtain ⟨results, pending, rest, kept, rfl, -⟩ := p
  have hcall : [pending.call].Sublist (pending.call :: rest) := by simp
  unfold Pause.answers
  dsimp only
  split
  · exact List.Sublist.refl _
  · split
    · exact hcall.trans (List.sublist_append_right ..)
    · exact hcall.append_left _

theorem last_iff {done rest : List ToolCall} {call : ToolCall}
    (hdistinct : ((done ++ call :: rest).map ToolCall.id).Nodup) :
    (done ++ call :: rest).getLast?.map ToolCall.id = some call.id ↔ rest = [] := by
  constructor
  · intro hlast
    by_contra hne
    rw [List.getLast?_append, List.getLast?_cons, List.getLast?_eq_some_getLast hne] at hlast
    have hid : (rest.getLast hne).id = call.id := Option.some.inj hlast
    rw [List.map_append, List.map_cons] at hdistinct
    have hnew := (List.nodup_cons.mp (List.nodup_append.mp hdistinct).2.1).1
    apply hnew
    rw [← hid]
    exact List.mem_map_of_mem (List.getLast_mem hne)
  · intro hrest
    rw [hrest, List.getLast?_append]
    rfl

/-- Every call of the batch ends up with a result exactly when what is written
    is enough. -/
theorem Pause.answers_eq_iff {env : Env σ} {calls : List ToolCall} (p : Pause calls)
    (hdistinct : (calls.map ToolCall.id).Nodup) {count : Nat} (htwo : 2 ≤ count) :
    p.answers (sideBySide env calls) count = calls ↔ Covers env calls count p.pending.call := by
  obtain ⟨results, pending, rest, kept, rfl, -⟩ := p
  unfold Covers Pause.answers
  dsimp only
  rw [last_iff hdistinct]
  by_cases hfour : 4 ≤ count
  · simp [hfour]
  · rw [if_neg hfour]
    cases hmode : sideBySide env (results.map Prod.fst ++ pending.call :: rest) with
    | false => simp [hfour]
    | true =>
        by_cases hthree : 3 ≤ count
        · have hnot : ¬ count < 3 := by omega
          simp [hfour, hthree, hnot]
        · have hlt : count < 3 := by omega
          have hmany : 1 < (results.map Prod.fst ++ pending.call :: rest).length := by
            unfold sideBySide at hmode
            simpa using (Bool.and_eq_true_iff.mp hmode).2
          have hone : [pending.call] ≠ results.map Prod.fst ++ pending.call :: rest := by
            intro h
            rw [← h] at hmany
            simp at hmany
          simp [hfour, hthree, hlt, hone]

-- ============================================================================
-- What the rebuilt agents come to
-- ============================================================================

/-- Ids that hold no secrets survive a checkpoint. -/
theorem Stopped.intactIds {env : Env σ} {calls : List ToolCall} {start s : AgentState σ}
    (h : Stopped env calls start s) (hclean : ∀ call ∈ calls, redactSecrets call.id = call.id) :
    IntactIds s := by
  obtain ⟨p, rs, rest, hpending, -, hids, hkept⟩ := h.split
  have hall : ∀ id ∈ p.call.id :: rest, redactSecrets id = id := by
    intro id hid
    have hmem : id ∈ calls.map ToolCall.id := by
      rw [hids]
      exact List.mem_append_right _ hid
    obtain ⟨call, hcall, rfl⟩ := List.mem_map.mp hmem
    exact hclean call hcall
  refine ⟨?_, ?_⟩
  · intro p' hp'
    obtain rfl := Option.some.inj (hpending.symm.trans hp')
    exact hall _ (List.mem_cons_self ..)
  · intro call hcall
    have hmem := List.mem_map_of_mem (f := ToolCall.id) hcall
    rcases hkept with hkept | hkept
    · rw [hkept] at hmem
      exact hall _ hmem
    · rw [hkept] at hmem
      exact hall _ (List.mem_cons_of_mem _ hmem)

/-- From a file whose last snapshot answers `rs` and whose last runtime step
    keeps the calls behind the pending one, every call gets its result. -/
theorem recovered_reached {env : Env σ} {calls rest : List ToolCall} {start : AgentState σ}
    (run : ReplayRun) {r : Runtime} {p : PendingConfirmation}
    {rs : List (ToolCall × ToolResult)} (hdistinct : (calls.map ToolCall.id).Nodup)
    (hclean : ∀ call ∈ calls, redactSecrets call.id = call.id)
    (hsnap : lastPayload run.steps .snapshot
      = some (snapshotStep (answered env start.conv rs)).payload)
    (hcheck : lastPayload run.steps .checkpoint = some (checkpointStep run.runId r).payload)
    (hpending : r.pendingConfirmation = some p) (hcalls : calls = rs.map Prod.fst ++ p.call :: rest)
    (hkept : r.pendingRemainingCalls = p.call :: rest ∨ r.pendingRemainingCalls = rest)
    {phase : Phase} {s : AgentState σ} (h : Recovered env (some run) run.runId phase s) :
    ∃ start' : AgentState σ, start'.conv = start.conv ∧
      (phase = .paused → Halfway env calls start' s) ∧
      (phase = .done → ∃ rs', answeredIds rs' = calls.map ToolCall.id ∧
        Reached env start' rs' s) := by
  induction h with
  | resumed approved world seen hresume hland =>
      obtain ⟨hruntime, hconv, -, htrace⟩ := resumeAgent_of_last run hsnap hcheck hresume
      -- the state the file speaks of
      have hstopped : Stopped env calls { start with trace := seen }
          { start with conv := answered env start.conv rs, runtime := r, trace := seen } := by
        refine ⟨p, rs, rest.map ToolCall.id, hpending, ⟨SameHistory.refl _, [], ?_, ?_⟩, ?_, ?_⟩
        · exact (List.append_nil _).symm
        · exact List.nil_sublist _
        · rw [hcalls, List.map_append, List.map_cons, answeredIds_eq rfl]
        · rcases hkept with h | h
          · exact Or.inl (by rw [h, List.map_cons])
          · exact Or.inr (by rw [h])
      exact ⟨{ start with trace := seen }, rfl,
        hstopped.resolve hdistinct (hstopped.intactIds hclean) hruntime hconv htrace hland⟩
  | again approved world hbefore hresume hland ih =>
      obtain ⟨start', hconv, hpaused, -⟩ := ih
      have hhalf := hpaused rfl
      exact ⟨start', hconv,
        hhalf.resume hdistinct (hhalf.stopped.intactIds hclean) hresume hland⟩

/-- Results are appended; a cap drops from the front. -/
theorem answered_suffix (env : Env σ) (c : ConversationState)
    (rs : List (ToolCall × ToolResult)) :
    (answered env c rs).messages <:+ c.messages ++ rs.map (resultMessage env) := by
  induction rs generalizing c with
  | nil => simp [answered]
  | cons r rs ih =>
      have hone : (addResult env c r).messages <:+ c.messages ++ [resultMessage env r] :=
        ConversationState.append_suffix c _
      have hall := (ih (addResult env c r)).trans (List.suffix_append_self_iff.mpr hone)
      simpa [answered] using hall

theorem lands_writes {env : Env σ} {calls : List ToolCall} {start s' : AgentState σ}
    {phase : Phase} (h : Lands (executeToolCalls env calls) start phase s') :
    Writes env (sideBySide env calls) calls start s' := by
  have hw := writes_executeToolCalls env calls start
  cases h with
  | done hx => exact hw.of_ok hx
  | paused hx => exact hw.of_error hx
  | raised hx => exact hw.of_error hx

/-- The pause a process died in, and what the agents rebuilt from there come
    to: a result for every call in `answers`. -/
theorem dies_answers {env : Env σ} {calls : List ToolCall} {start : AgentState σ}
    (hdistinct : (calls.map ToolCall.id).Nodup)
    (hclean : ∀ call ∈ calls, redactSecrets call.id = call.id)
    (hleft : start.runtime.pendingRemainingCalls = []) {count resumes : Nat} {store : ReplayStore}
    (hdies : Dies env calls start count resumes store) (htwo : 2 ≤ count) :
    ∃ p : Pause calls,
      (∀ conv r q, Replay.resume store start.runId = .ok (conv, r) →
        r.pendingConfirmation = some q → q.call.id = p.pending.call.id) ∧
      ∀ s, Recovered env store start.runId .done s →
        ∃ rs, answeredIds rs = (p.answers (sideBySide env calls) count).map ToolCall.id ∧
          SameHistory s.conv (answered env start.conv rs) := by
  obtain ⟨phase, s', steps, hland, hstore, hlen, rfl⟩ := hdies.cut
  obtain ⟨steps', hstore', hsteps⟩ := lands_writes hland
  obtain rfl := written_inj (hstore.symm.trans hstore')
  rcases hsteps with rfl | ⟨p, tail, htail⟩
  · rw [List.length_nil] at hlen
    omega
  · refine ⟨p, ?_⟩
    obtain ⟨r, rs, rest, hsnap, hcheck, hpending, hanswers, hkept⟩ :=
      p.cut env (sideBySide env calls) start hleft htwo (start.store.timeline start.runId).steps
    rw [← htail, List.take_append_of_le_length hlen] at hsnap hcheck
    have hne : steps.take count ++ List.replicate resumes (resumedStep start.runId) ≠ [] := by
      have hlong : 0 < (steps.take count).length := by
        rw [List.length_take]
        omega
      exact List.append_ne_nil_of_left_ne_nil (List.ne_nil_of_length_pos hlong) _
    rw [written_of_ne_nil hne]
    -- the markers of the resumes hide neither step
    rw [← lastPayload_resumes _ resumes start.runId (by simp), List.append_assoc] at hsnap hcheck
    refine ⟨?_, ?_⟩
    · intro conv r' q hresume hq
      rw [resume_of_last ⟨start.runId, _⟩ hsnap hcheck (stateFromDict_stateToDict _)] at hresume
      cases hr : rebuildRuntime (redactRuntime r) with
      | error e =>
          rw [hr] at hresume
          cases hresume
      | ok r₁ =>
          rw [hr] at hresume
          obtain ⟨-, rfl⟩ := Prod.mk.inj (Except.ok.inj hresume)
          obtain ⟨⟨q', hq', hid, -⟩, -⟩ := rebuildRuntime_ok hpending hr
          obtain rfl := Option.some.inj (hq.symm.trans hq')
          rw [hid]
          exact hclean _ p.call_mem
    · intro s hrec
      have hsub := p.answers_sublist (sideBySide env calls) count
      obtain ⟨start', hconv, -, hdone⟩ := recovered_reached ⟨start.runId, _⟩
        (hdistinct.sublist (hsub.map _)) (fun call hcall => hclean call (hsub.subset hcall))
        hsnap hcheck hpending hanswers hkept hrec
      obtain ⟨rs', hids, hreached⟩ := hdone rfl
      rw [← hconv]
      exact ⟨rs', hids, hreached.history⟩

/-- A process that dies in a pause once a checkpoint is there, with distinct
    call ids free of secrets and nothing left over from an earlier pause:
    answering all confirmations gives every call of the restored history
    exactly one result, exactly when what is written covers the batch. -/
theorem crashed_pause_answered_iff (env : Env σ) (calls : List ToolCall) (start : AgentState σ)
    (hwaits : WaitsFor calls start.conv) (hdistinct : (calls.map ToolCall.id).Nodup)
    (hids : ∀ call ∈ calls, call.id ≠ [] ∧ redactSecrets call.id = call.id)
    (hleft : start.runtime.pendingRemainingCalls = []) {count resumes : Nat} {store : ReplayStore}
    (hdies : Dies env calls start count resumes store) (htwo : 2 ≤ count)
    {conv : ConversationState} {r : Runtime} {pending : PendingConfirmation}
    (hresume : Replay.resume store start.runId = .ok (conv, r))
    (hpending : r.pendingConfirmation = some pending) {s : AgentState σ}
    (hrec : Recovered env store start.runId .done s) :
    (Covers env calls count pending.call → toolView.Answered s.conv.messages) ∧
      (start.conv.maxMessages = none → toolView.Answered s.conv.messages →
        Covers env calls count pending.call) := by
  obtain ⟨p, hcall, hdone⟩ := dies_answers hdistinct (fun call hc => (hids call hc).2) hleft hdies
    htwo
  obtain ⟨rs, hrs, hhistory⟩ := hdone s hrec
  have hcovers : Covers env calls count pending.call ↔
      p.answers (sideBySide env calls) count = calls := by
    rw [p.answers_eq_iff hdistinct htwo]
    unfold Covers
    rw [hcall conv r pending hresume hpending]
  -- what the results answer
  have hsub := p.answers_sublist (sideBySide env calls) count
  have hne : ∀ r ∈ rs, r.1.id ≠ [] := by
    intro r hr
    have hmem : r.1.id ∈ (p.answers (sideBySide env calls) count).map ToolCall.id := by
      rw [← hrs]
      exact List.mem_map_of_mem hr
    obtain ⟨call, hc, hid⟩ := List.mem_map.mp hmem
    rw [← hid]
    exact (hids call (hsub.subset hc)).1
  have hanswers : (rs.map (resultMessage env)).flatMap toolView.answers
      = (p.answers (sideBySide env calls) count).map fun call => Json.str call.id := by
    have hmap := congrArg (List.map Json.str) hrs
    rw [answeredIds, List.map_map, List.map_map] at hmap
    exact (toolResultIds_results env hne).trans hmap
  have hplain : ∀ m ∈ rs.map (resultMessage env), toolView.opens m = false := by
    intro m hm
    obtain ⟨r, -, rfl⟩ := List.mem_map.mp hm
    rfl
  obtain ⟨h, hsuffix, huncapped, hopen⟩ := hwaits.full
  have hiff := hopen.answered_append_iff hplain
  rw [hanswers] at hiff
  rw [hhistory.messages]
  refine ⟨?_, ?_⟩
  · intro hcov
    have hall := hiff.mpr (by rw [hcovers.mp hcov])
    obtain ⟨front, hfront⟩ := (answered_suffix env start.conv rs).trans
      (List.suffix_append_self_iff.mpr hsuffix)
    rw [← hfront] at hall
    exact hall.suffix
  · intro hcap hanswered
    rw [(answered_uncapped env hcap rs).2, huncapped hcap] at hanswered
    have hlen := (hiff.mp hanswered).length_eq
    rw [List.length_map, List.length_map] at hlen
    exact hcovers.mpr (hsub.eq_of_length hlen)

-- ============================================================================
-- Two batches
-- ============================================================================

/-- An agent in a run, right after the model asked for some calls. -/
def askedFor (calls : List ToolCall) : AgentState Unit :=
  { inRun with conv := inRun.conv.addAssistant (assistantContent ⟨[], calls⟩) }

/-- Its file when it dies with so many steps written. -/
def diedAt (calls : List ToolCall) (count : Nat) : ReplayStore :=
  (stateOf (executeToolCalls confirmingAgent calls (askedFor calls))).store.map fun run =>
    { run with steps := run.steps.take count }

/-- The agent rebuilt from there, with the human's approval. -/
def recoveredAt (calls : List ToolCall) (count : Nat) : AgentState Unit :=
  stateOf (resolvePendingConfirmation confirmingAgent true
    ((resumeAgent (diedAt calls count) (py "run") () []).toOption.getD inRun))

attribute [local irreducible] executeToolCalls resumeAgent resolvePendingConfirmation

theorem dies_diedAt {calls : List ToolCall} {count : Nat} (hpos : 0 < count)
    (h : (stateOf (executeToolCalls confirmingAgent calls (askedFor calls))).store.any
      fun run => run.runId = py "run" && count ≤ run.steps.length) :
    Dies confirmingAgent calls (askedFor calls) count 0 (diedAt calls count) := by
  have hland := lands (executeToolCalls confirmingAgent calls) (askedFor calls) rfl
  unfold diedAt
  generalize stateOf (executeToolCalls confirmingAgent calls (askedFor calls)) = s' at h hland
  cases hstore : s'.store with
  | none =>
      rw [hstore] at h
      cases h
  | some run =>
      rw [hstore] at h
      obtain ⟨hid, hcount⟩ : run.runId = py "run" ∧ count ≤ run.steps.length := by simpa using h
      obtain ⟨runId, steps⟩ := run
      obtain rfl : runId = py "run" := hid
      have hwritten : ∀ steps : List ReplayStep, steps ≠ [] →
          some ⟨py "run", steps⟩ = written (askedFor calls).store (askedFor calls).runId steps :=
        fun steps hne => (@written_of_ne_nil none (py "run") steps hne).symm
      have hlong : 0 < steps.length := Nat.lt_of_lt_of_le hpos hcount
      refine ⟨_, s', steps, hland, ?_, hcount, ?_⟩
      · rw [hstore]
        exact hwritten steps (List.ne_nil_of_length_pos hlong)
      · show some _ = _
        rw [List.replicate_zero, List.append_nil]
        apply hwritten
        apply List.ne_nil_of_length_pos
        rw [List.length_take]
        omega

theorem recovered_recoveredAt {calls : List ToolCall} {count : Nat}
    (h : (resumeAgent (diedAt calls count) (py "run") () []).toOption.isSome = true)
    (hdone : phaseOf (resolvePendingConfirmation confirmingAgent true
      ((resumeAgent (diedAt calls count) (py "run") () []).toOption.getD inRun)) = .done) :
    Recovered confirmingAgent (diedAt calls count) (py "run") .done (recoveredAt calls count) :=
  .resumed true () [] (eq_ok_getD _ inRun h) (lands _ _ hdone)

/-- A call to delete one file. -/
def oneDeletion : List ToolCall := [deleteCall "t1" (.str (py "a.py"))]

/-- Calls to delete two. -/
def twoDeletions : List ToolCall :=
  [deleteCall "t1" (.str (py "a.py")), deleteCall "t2" (.str (py "b.py"))]

/-- The only call of a batch, after its first checkpoint. -/
theorem oneDeletion_answered :
    (Covers confirmingAgent oneDeletion 2 (deleteCall "t1" (.str (py "a.py"))) →
      toolView.Answered (recoveredAt oneDeletion 2).conv.messages) ∧
    ((askedFor oneDeletion).conv.maxMessages = none →
      toolView.Answered (recoveredAt oneDeletion 2).conv.messages →
      Covers confirmingAgent oneDeletion 2 (deleteCall "t1" (.str (py "a.py")))) := by
  have hwaits : WaitsFor oneDeletion (askedFor oneDeletion).conv :=
    waitsFor_addAssistant inRun.conv ⟨[], oneDeletion⟩ (by decide) (by decide)
  have hresume := eq_ok_getD (Replay.resume (diedAt oneDeletion 2) (py "run")) ({}, {})
    (by decide +kernel)
  have hpending : ((Replay.resume (diedAt oneDeletion 2) (py "run")).toOption.getD
      ({}, {})).2.pendingConfirmation = some ⟨deleteCall "t1" (.str (py "a.py")),
        [(py "path", .str (py "a.py"))], ⟨true, py "confirm", true⟩⟩ := by
    decide +kernel
  exact crashed_pause_answered_iff confirmingAgent oneDeletion (askedFor oneDeletion)
    hwaits (by decide) (by decide) rfl (dies_diedAt (by omega) (by decide +kernel)) (le_refl 2) hresume
    hpending (recovered_recoveredAt (by decide +kernel) (by decide +kernel))

/-- Two calls, and the process dies right after the first checkpoint: the human
    confirms the first, and the second never gets a result. -/
theorem twoDeletions_unanswered :
    ∃ store s, Dies confirmingAgent twoDeletions (askedFor twoDeletions) 2 0 store ∧
      Recovered confirmingAgent store (py "run") .done s ∧
      ¬ toolView.Answered s.conv.messages :=
  ⟨diedAt twoDeletions 2, recoveredAt twoDeletions 2, dies_diedAt (by omega) (by decide +kernel),
    recovered_recoveredAt (by decide +kernel) (by decide +kernel), by decide +kernel⟩

end Agent
end KineticSdk
