/-
  KineticSdk.Mcp.Handshake

  What a server does over a sequence of messages.

  The phase follows from the messages so far (`Shaken`), whatever else they
  ask.  A call of a tool does its steps in one order: the decision, its audit
  entry, the execution, the audit entry of the result (`callTool_spec`).  Where
  the policy or the audit log raises, or a tool hands back no result, the
  request has no response; every other request has exactly one.
-/

import KineticSdk.Mcp.Server

namespace KineticSdk
namespace Mcp

open Py Tool Security
open Lib (Wp)

variable {σ : Type}

-- ============================================================================
-- Calls
-- ============================================================================

/-- A call of a tool goes through: the policy decides, the log takes every
    entry, and an execution leaves a result. -/
def CallServed (srv : MCPServer σ) (w : σ) (tool : Tool σ) (name : PyStr) (arguments : Dict) :
    Prop :=
  ∃ d, (srv.permissionPolicy name (.obj arguments) w).1 = .ok d ∧
    srv.auditLogger.accepts (.toolCall name (.obj arguments) d) = true ∧
    match refusal d with
    | some reason => srv.auditLogger.accepts (.permissionDenied name (.obj arguments) reason) = true
    | none => ∃ result,
        resultOf (tool.execute arguments (srv.permissionPolicy name (.obj arguments) w).2).1 = .ok result ∧
          srv.auditLogger.accepts (.toolResult name (redactResult result)) = true

/-- The events of one call: nothing happens before the decision is in the log,
    and the tool runs only when the call is not refused. -/
def CallEvents (srv : MCPServer σ) (w : σ) (name : PyStr) (arguments : Dict) (new : List Event) :
    Prop :=
  new = [] ∨ ∃ d, (srv.permissionPolicy name (.obj arguments) w).1 = .ok d ∧
    ∃ rest, new = .audited (.toolCall name (.obj arguments) d) :: rest ∧
      (rest = [] ∨ (∃ reason, rest = [.audited (.permissionDenied name (.obj arguments) reason)]) ∨
        refusal d = none ∧ (rest = [.executed name arguments] ∨
          ∃ result, rest = [.executed name arguments, .audited (.toolResult name result)]))

/-- What a call leaves behind. -/
structure CallDone (srv : MCPServer σ) (name : PyStr) (arguments : Dict) (s s' : ServerState σ) :
    Prop where
  phase : s'.phase = s.phase
  events : ∃ new, s'.events = s.events ++ new ∧ CallEvents srv s.world name arguments new

theorem audit_spec (srv : MCPServer σ) (entry : AuditEntry) (s : ServerState σ) :
    Wp (audit srv entry)
      (fun _ s' => srv.auditLogger.accepts entry = true ∧
        s' = { s with events := s.events ++ [.audited entry] })
      (fun _ s' => srv.auditLogger.accepts entry = false ∧ s' = s) s := by
  unfold audit AuditLogger.record
  cases h : srv.auditLogger.accepts entry with
  | true => exact ⟨rfl, rfl⟩
  | false => exact ⟨rfl, rfl⟩

theorem checkPolicy_spec (srv : MCPServer σ) (name : PyStr) (arguments : Dict) (s : ServerState σ) :
    Wp (checkPolicy srv name arguments)
      (fun d s' => (srv.permissionPolicy name (.obj arguments) s.world).1 = .ok d ∧
        s' = { s with world := (srv.permissionPolicy name (.obj arguments) s.world).2 })
      (fun e s' => (srv.permissionPolicy name (.obj arguments) s.world).1 = .error e ∧
        s' = { s with world := (srv.permissionPolicy name (.obj arguments) s.world).2 }) s := by
  simp only [checkPolicy, Lib.wp_bind, Lib.wp_get, Lib.wp_modify]
  cases h : (srv.permissionPolicy name (.obj arguments) s.world).1 with
  | ok d => exact ⟨rfl, rfl⟩
  | error e => exact ⟨rfl, rfl⟩

theorem executeTool_spec (tool : Tool σ) (name : PyStr) (arguments : Dict) (s : ServerState σ) :
    Wp (executeTool tool name arguments)
      (fun result s' => resultOf (tool.execute arguments s.world).1 = .ok result ∧
        s' = { s with
          events := s.events ++ [.executed name arguments]
          world := (tool.execute arguments s.world).2 })
      (fun e s' => resultOf (tool.execute arguments s.world).1 = .error e ∧
        s' = { s with
          events := s.events ++ [.executed name arguments]
          world := (tool.execute arguments s.world).2 }) s := by
  simp only [executeTool, Lib.wp_bind, Lib.wp_get, Lib.wp_modify]
  cases h : resultOf (tool.execute arguments s.world).1 with
  | ok result => exact ⟨rfl, rfl⟩
  | error e => exact ⟨rfl, rfl⟩

/-- A call is answered exactly when it goes through. -/
theorem callTool_spec (srv : MCPServer σ) (r : Request) (tool : Tool σ) (name : PyStr)
    (arguments : Dict) (s : ServerState σ) :
    Wp (callTool srv r tool name arguments)
      (fun resp s' => CallServed srv s.world tool name arguments ∧ resp.id = r.id ∧
        CallDone srv name arguments s s')
      (fun _ s' => ¬ CallServed srv s.world tool name arguments ∧ CallDone srv name arguments s s')
      s := by
  unfold callTool
  rw [Lib.wp_bind]
  refine (checkPolicy_spec srv name arguments s).mono ?_ ?_
  · -- the policy has decided
    rintro d s₁ ⟨hd, rfl⟩
    have hother : ∀ d', (srv.permissionPolicy name (.obj arguments) s.world).1 = .ok d' → d' = d := by
      intro d' hd'
      rw [hd] at hd'
      cases hd'
      rfl
    rw [Lib.wp_bind]
    refine (audit_spec srv _ _).mono ?_ ?_
    · rintro u s₂ ⟨hcall, rfl⟩
      cases hrefusal : refusal d with
      | some reason =>
          simp only [Lib.wp_bind, Lib.wp_pure]
          refine (audit_spec srv _ _).mono ?_ ?_
          · rintro u s₃ ⟨hdenied, rfl⟩
            refine ⟨⟨d, hd, hcall, by rw [hrefusal]; exact hdenied⟩, rfl, rfl,
              [.audited (.toolCall name (.obj arguments) d),
                .audited (.permissionDenied name (.obj arguments) reason)], ?_, ?_⟩
            · simp
            · exact .inr ⟨d, hd, _, rfl, .inr (.inl ⟨reason, rfl⟩)⟩
          · rintro e s₃ ⟨hdenied, rfl⟩
            refine ⟨?_, rfl, [.audited (.toolCall name (.obj arguments) d)], rfl,
              .inr ⟨d, hd, _, rfl, .inl rfl⟩⟩
            rintro ⟨d', hd', -, hrest⟩
            obtain rfl := hother d' hd'
            rw [hrefusal] at hrest
            exact Bool.noConfusion (hdenied.symm.trans hrest)
      | none =>
          simp only [Lib.wp_bind, Lib.wp_pure]
          refine (executeTool_spec tool name arguments _).mono ?_ ?_
          · rintro result s₃ ⟨hresult, rfl⟩
            refine (audit_spec srv _ _).mono ?_ ?_
            · rintro u s₄ ⟨hlogged, rfl⟩
              refine ⟨⟨d, hd, hcall, ?_⟩, rfl, rfl,
                [.audited (.toolCall name (.obj arguments) d), .executed name arguments,
                  .audited (.toolResult name (redactResult result))], ?_, ?_⟩
              · rw [hrefusal]
                exact ⟨result, hresult, hlogged⟩
              · simp
              · exact .inr ⟨d, hd, _, rfl, .inr (.inr ⟨hrefusal, .inr ⟨_, rfl⟩⟩)⟩
            · rintro e s₄ ⟨hlogged, rfl⟩
              refine ⟨?_, rfl, [.audited (.toolCall name (.obj arguments) d), .executed name arguments],
                by simp, .inr ⟨d, hd, _, rfl, .inr (.inr ⟨hrefusal, .inl rfl⟩)⟩⟩
              rintro ⟨d', hd', -, hrest⟩
              obtain rfl := hother d' hd'
              rw [hrefusal] at hrest
              obtain ⟨result', hresult', hlogged'⟩ := hrest
              rw [hresult] at hresult'
              cases hresult'
              rw [hlogged] at hlogged'
              cases hlogged'
          · rintro e s₃ ⟨hresult, rfl⟩
            refine ⟨?_, rfl, [.audited (.toolCall name (.obj arguments) d), .executed name arguments],
              by simp, .inr ⟨d, hd, _, rfl, .inr (.inr ⟨hrefusal, .inl rfl⟩)⟩⟩
            rintro ⟨d', hd', -, hrest⟩
            obtain rfl := hother d' hd'
            rw [hrefusal] at hrest
            obtain ⟨result', hresult', -⟩ := hrest
            rw [hresult] at hresult'
            cases hresult'
    · rintro e s₂ ⟨hcall, rfl⟩
      refine ⟨?_, rfl, [], by simp, .inl rfl⟩
      rintro ⟨d', hd', hcall', -⟩
      obtain rfl := hother d' hd'
      rw [hcall] at hcall'
      cases hcall'
  · -- the policy has raised
    rintro e s₁ ⟨he, rfl⟩
    refine ⟨?_, rfl, [], by simp, .inl rfl⟩
    rintro ⟨d, hd, -⟩
    rw [he] at hd
    cases hd

-- ============================================================================
-- Requests
-- ============================================================================

/-- If the request is a call of a tool the server has, made when it is ready, the
    call goes through. -/
def Serviceable (srv : MCPServer σ) (s : ServerState σ) (m : Message) : Prop :=
  ∀ r name arguments tool, m = .request r → r.method = py "tools/call" → s.phase = .ready →
    calledWith r = some (name, arguments) → srv.findTool name = some tool →
      CallServed srv s.world tool name arguments

/-- The request is a valid `initialize`. -/
def Request.initializes (r : Request) : Bool :=
  r.method = py "initialize" &&
    match Dict.get? (paramsOf r) (py "protocolVersion") with
    | some (.str _) => true
    | _ => false

/-- Requests that are answered only after the handshake. -/
def Request.needsReady (r : Request) : Bool :=
  r.method = py "tools/list" || r.method = py "tools/call"

/-- What handling a request has done. -/
structure RequestDone (srv : MCPServer σ) (r : Request) (s s' : ServerState σ) : Prop where
  phase : s'.phase = if r.initializes then .awaitingInitializedNotification else s.phase
  events : ∃ new, s'.events = s.events ++ new ∧ (new = [] ∨
    ∃ name arguments, r.method = py "tools/call" ∧ s.phase = .ready ∧
      calledWith r = some (name, arguments) ∧ CallEvents srv s.world name arguments new)

theorem RequestDone.of_same (srv : MCPServer σ) {r : Request} (s : ServerState σ)
    (h : r.initializes = false) : RequestDone srv r s s where
  phase := by simp [h]
  events := ⟨[], by simp, .inl rfl⟩

theorem initializes_of_ne {r : Request} (h : r.method ≠ py "initialize") :
    r.initializes = false := by
  simp [Request.initializes, h]

/-- What a request is answered with, and when. -/
structure Answered (srv : MCPServer σ) (r : Request) (s : ServerState σ) (resp : Response)
    (s' : ServerState σ) : Prop where
  served : Serviceable srv s (.request r)
  id : resp.id = r.id
  handshake : r.method = py "initialize" → resp.isError = !r.initializes
  ready : r.needsReady = true → resp.isError = false → s.phase = .ready
  done : RequestDone srv r s s'

theorem makeError_isError (id : MessageId) (code : Int) (message : PyStr) :
    (Response.makeError id code message).isError = true := rfl

/-- A request whose method is not `tools/call` always goes through. -/
theorem serviceable_of_ne {srv : MCPServer σ} {s : ServerState σ} {r : Request}
    (h : r.method ≠ py "tools/call") : Serviceable srv s (.request r) := by
  intro r' name arguments tool hr hmethod
  cases hr
  exact absurd hmethod h

theorem onInitialize_spec (srv : MCPServer σ) (r : Request) (s : ServerState σ)
    (hmethod : r.method = py "initialize") :
    Wp (onInitialize srv r) (fun resp s' => Answered srv r s resp s') (fun _ _ => False) s := by
  have hserved : Serviceable srv s (.request r) :=
    serviceable_of_ne (by rw [hmethod]; decide)
  have hnot : r.needsReady = false := by
    rw [Request.needsReady, hmethod]
    decide
  unfold onInitialize
  split
  · rename_i version hversion
    have hinit : r.initializes = true := by
      simp [Request.initializes, hmethod, hversion]
    simp only [Lib.wp_bind, Lib.wp_modify, Lib.wp_pure]
    refine ⟨hserved, rfl, fun _ => ?_, fun hneeds => ?_, ?_, [], ?_, .inl rfl⟩
    · rw [hinit]
      rfl
    · rw [hnot] at hneeds
      cases hneeds
    · rw [hinit]
      rfl
    · simp
  · rename_i hversion
    have hinit : r.initializes = false := by
      unfold Request.initializes
      split
      · rename_i version hstr
        exact absurd hstr (hversion version)
      · simp
    refine ⟨hserved, rfl, fun _ => ?_, fun hneeds => ?_, .of_same srv s hinit⟩
    · rw [hinit]
      rfl
    · rw [hnot] at hneeds
      cases hneeds

theorem onToolsList_spec (srv : MCPServer σ) (r : Request) (s : ServerState σ)
    (hmethod : r.method = py "tools/list") :
    Wp (onToolsList srv r) (fun resp s' => Answered srv r s resp s') (fun _ _ => False) s := by
  have hserved : Serviceable srv s (.request r) :=
    serviceable_of_ne (by rw [hmethod]; decide)
  have hne : r.method ≠ py "initialize" := by rw [hmethod]; decide
  have hdone := RequestDone.of_same srv s (initializes_of_ne hne)
  simp only [onToolsList, Lib.wp_bind, Lib.wp_get]
  by_cases hphase : s.phase = .ready
  · rw [if_neg (not_not_intro hphase)]
    exact ⟨hserved, rfl, fun h => absurd h hne, fun _ _ => hphase, hdone⟩
  · rw [if_pos hphase]
    refine ⟨hserved, rfl, fun h => absurd h hne, fun _ herror => ?_, hdone⟩
    rw [notReadyResponse, makeError_isError] at herror
    cases herror

/-- A call is answered exactly when it goes through. -/
theorem onToolsCall_spec (srv : MCPServer σ) (r : Request) (s : ServerState σ)
    (hmethod : r.method = py "tools/call") :
    Wp (onToolsCall srv r) (fun resp s' => Answered srv r s resp s')
      (fun _ s' => ¬ Serviceable srv s (.request r) ∧ RequestDone srv r s s') s := by
  have hne : r.method ≠ py "initialize" := by rw [hmethod]; decide
  have hdone := RequestDone.of_same srv s (initializes_of_ne hne)
  simp only [onToolsCall, Lib.wp_bind, Lib.wp_get]
  by_cases hphase : s.phase = .ready
  · rw [if_neg (not_not_intro hphase)]
    cases hcall : calledWith r with
    | none =>
        refine ⟨?_, rfl, fun h => absurd h hne, fun _ _ => hphase, hdone⟩
        intro r' name arguments tool hr _ _ hcalled _
        cases hr
        rw [hcall] at hcalled
        cases hcalled
    | some called =>
        obtain ⟨name, arguments⟩ := called
        cases htool : srv.findTool name with
        | none =>
            simp only [htool]
            refine ⟨?_, rfl, fun h => absurd h hne, fun _ _ => hphase, hdone⟩
            intro r' name' arguments' tool hr _ _ hcalled hfind
            cases hr
            rw [hcall] at hcalled
            cases hcalled
            rw [htool] at hfind
            cases hfind
        | some tool =>
            simp only [htool]
            have hevents : ∀ s', CallDone srv name arguments s s' → RequestDone srv r s s' := by
              intro s' h
              obtain ⟨new, hnew, hcallEvents⟩ := h.events
              refine ⟨?_, new, hnew, .inr ⟨name, arguments, hmethod, hphase, hcall, hcallEvents⟩⟩
              rw [initializes_of_ne hne]
              exact h.phase
            refine (callTool_spec srv r tool name arguments s).mono ?_ ?_
            · rintro resp s' ⟨hserved, hid, hcallDone⟩
              refine ⟨?_, hid, fun h => absurd h hne, fun _ _ => hphase, hevents s' hcallDone⟩
              intro r' name' arguments' tool' hr _ _ hcalled hfind
              cases hr
              rw [hcall] at hcalled
              cases hcalled
              rw [htool] at hfind
              cases hfind
              exact hserved
            · rintro e s' ⟨hserved, hcallDone⟩
              exact ⟨fun h => hserved (h r name arguments tool rfl hmethod hphase hcall htool),
                hevents s' hcallDone⟩
  · rw [if_pos hphase]
    refine ⟨?_, rfl, fun h => absurd h hne, fun _ herror => ?_, hdone⟩
    · intro r' name arguments tool hr _ hready
      exact absurd hready hphase
    · rw [notReadyResponse, makeError_isError] at herror
      cases herror

/-- A request is answered exactly when, if it is a call, the call goes through. -/
theorem handleRequest_spec (srv : MCPServer σ) (r : Request) (s : ServerState σ) :
    Wp (handleRequest srv r) (fun resp s' => Answered srv r s resp s')
      (fun _ s' => ¬ Serviceable srv s (.request r) ∧ RequestDone srv r s s') s := by
  unfold handleRequest
  by_cases hinit : r.method = py "initialize"
  · rw [if_pos hinit]
    exact (onInitialize_spec srv r s hinit).mono (fun _ _ h => h) (fun _ _ h => h.elim)
  · rw [if_neg hinit]
    by_cases hping : r.method = py "ping"
    · rw [if_pos hping]
      refine ⟨serviceable_of_ne (by rw [hping]; decide), rfl, fun h => absurd h hinit,
        fun hneeds => ?_, .of_same srv s (initializes_of_ne hinit)⟩
      rw [Request.needsReady, hping] at hneeds
      exact absurd hneeds (by decide)
    · rw [if_neg hping]
      by_cases hlist : r.method = py "tools/list"
      · rw [if_pos hlist]
        exact (onToolsList_spec srv r s hlist).mono (fun _ _ h => h) (fun _ _ h => h.elim)
      · rw [if_neg hlist]
        by_cases hcall : r.method = py "tools/call"
        · rw [if_pos hcall]
          exact onToolsCall_spec srv r s hcall
        · rw [if_neg hcall]
          refine ⟨serviceable_of_ne hcall, rfl, fun h => absurd h hinit, fun hneeds => ?_,
            .of_same srv s (initializes_of_ne hinit)⟩
          simp [Request.needsReady, hlist, hcall] at hneeds

-- ============================================================================
-- Exchanges
-- ============================================================================

/-- One message, and what handling it has given. -/
structure Exchange (σ : Type) where
  before : ServerState σ
  message : Message
  outcome : Except PyExc (Option Response)
  after : ServerState σ

/-- `handle_message` on one message. -/
def MCPServer.exchange (srv : MCPServer σ) (s : ServerState σ) (m : Message) : Exchange σ :=
  match handleMessage srv m s with
  | .ok resp s' => ⟨s, m, .ok resp, s'⟩
  | .error e s' => ⟨s, m, .error e, s'⟩

/-- `handle_message` on one message after the other. -/
def MCPServer.exchanges (srv : MCPServer σ) (s : ServerState σ) : List Message → List (Exchange σ)
  | [] => []
  | m :: ms => srv.exchange s m :: srv.exchanges (srv.exchange s m).after ms

/-- A request has one response, with its id; any other message has none. -/
def Exchange.Replied (x : Exchange σ) : Prop :=
  match x.message with
  | .request r => ∃ resp, x.outcome = .ok (some resp) ∧ resp.id = r.id
  | _ => x.outcome = .ok none

/-- A successful `initialize`. -/
def Exchange.Opens (x : Exchange σ) : Prop :=
  ∃ r resp, x.message = .request r ∧ r.method = py "initialize" ∧
    x.outcome = .ok (some resp) ∧ resp.isError = false

/-- A `notifications/initialized` message. -/
def Exchange.Announces (x : Exchange σ) : Prop :=
  ∃ n, x.message = .notification n ∧ n.method = py "notifications/initialized"

/-- A successful `tools/list` or `tools/call`. -/
def Exchange.Serves (x : Exchange σ) : Prop :=
  ∃ r resp, x.message = .request r ∧ r.needsReady = true ∧
    x.outcome = .ok (some resp) ∧ resp.isError = false

/-- Since the last successful `initialize` of the past, if there is one, a
    `notifications/initialized` message has arrived. -/
def Handshaken (past : List (Exchange σ)) : Prop :=
  ∃ pre x since, past = pre ++ x :: since ∧ x.Opens ∧ (∀ y ∈ since, ¬ y.Opens) ∧
    ∃ y ∈ since, y.Announces

/-- Every execution is that of a call which the policy allows without asking,
    and comes right after the one audit entry of the call. -/
def Exchange.Permitted (srv : MCPServer σ) (x : Exchange σ) : Prop :=
  ∃ new, x.after.events = x.before.events ++ new ∧
    ∀ name arguments, .executed name arguments ∈ new →
      ∃ r d, x.message = .request r ∧ r.method = py "tools/call" ∧ x.before.phase = .ready ∧
        calledWith r = some (name, arguments) ∧
        (srv.permissionPolicy name (.obj arguments) x.before.world).1 = .ok d ∧
        d.allowed = true ∧ d.requiresConfirmation = false ∧
        ∃ rest, new = .audited (.toolCall name (.obj arguments) d) :: .executed name arguments :: rest ∧
          (rest = [] ∨ ∃ result, rest = [.audited (.toolResult name result)])

/-- What one message does. -/
structure ExchangeDone (srv : MCPServer σ) (x : Exchange σ) : Prop where
  replied : x.Replied ↔ Serviceable srv x.before x.message
  permitted : x.Permitted srv
  serves : x.Serves → x.before.phase = .ready
  phase : (x.Opens ∧ x.after.phase = .awaitingInitializedNotification) ∨
    (¬ x.Opens ∧ x.after.phase = x.before.phase) ∨
    (¬ x.Opens ∧ x.Announces ∧ x.before.phase = .awaitingInitializedNotification ∧
      x.after.phase = .ready)

theorem refusal_none {d : PermissionDecision} (h : refusal d = none) :
    d.allowed = true ∧ d.requiresConfirmation = false := by
  unfold refusal at h
  cases hallowed : d.allowed <;> cases hconfirm : d.requiresConfirmation <;>
    simp [hallowed, hconfirm] at h ⊢

/-- The events of a request are those of a call that is permitted. -/
theorem RequestDone.permitted {srv : MCPServer σ} {r : Request} {s s' : ServerState σ}
    {outcome : Except PyExc (Option Response)} (h : RequestDone srv r s s') :
    (Exchange.mk s (.request r) outcome s').Permitted srv := by
  obtain ⟨new, hnew, hcase⟩ := h.events
  refine ⟨new, hnew, fun name arguments hmem => ?_⟩
  rcases hcase with rfl | ⟨name', arguments', hmethod, hphase, hcall, hevents⟩
  · cases hmem
  · rcases hevents with rfl | ⟨d, hd, rest, rfl, hrest⟩
    · cases hmem
    · have hin : .executed name arguments ∈ rest := by
        rcases List.mem_cons.mp hmem with h | h
        · cases h
        · exact h
      rcases hrest with rfl | ⟨reason, rfl⟩ | ⟨hrefusal, hrest⟩
      · cases hin
      · cases List.mem_singleton.mp hin
      · obtain ⟨hallowed, hconfirm⟩ := refusal_none hrefusal
        have hsame : name = name' ∧ arguments = arguments' := by
          rcases hrest with rfl | ⟨result, rfl⟩
          · cases List.mem_singleton.mp hin
            exact ⟨rfl, rfl⟩
          · rcases List.mem_cons.mp hin with h | h
            · cases h
              exact ⟨rfl, rfl⟩
            · cases List.mem_singleton.mp h
        obtain ⟨rfl, rfl⟩ := hsame
        refine ⟨r, d, rfl, hmethod, hphase, hcall, hd, hallowed, hconfirm, ?_⟩
        rcases hrest with rfl | ⟨result, rfl⟩
        · exact ⟨[], rfl, .inl rfl⟩
        · exact ⟨_, rfl, .inr ⟨result, rfl⟩⟩

theorem exchange_before (srv : MCPServer σ) (s : ServerState σ) (m : Message) :
    (srv.exchange s m).before = s ∧ (srv.exchange s m).message = m := by
  unfold MCPServer.exchange
  cases handleMessage srv m s <;> exact ⟨rfl, rfl⟩

/-- What one message does, whatever it is. -/
theorem exchange_spec (srv : MCPServer σ) (s : ServerState σ) (m : Message) :
    ExchangeDone srv (srv.exchange s m) := by
  cases m with
  | notification n =>
      have hopens : ∀ outcome s', ¬ (Exchange.mk s (.notification n) outcome s').Opens := by
        rintro outcome s' ⟨r, resp, hr, -⟩
        cases hr
      have hserviceable : Serviceable srv s (.notification n) := by
        intro r name arguments tool hr
        cases hr
      have hserves : ∀ outcome s', ¬ (Exchange.mk s (.notification n) outcome s').Serves := by
        rintro outcome s' ⟨r, resp, hr, -⟩
        cases hr
      have hhandle : handleMessage srv (.notification n) s = .ok none
          (if n.method = py "notifications/initialized" ∧
              s.phase = .awaitingInitializedNotification then { s with phase := .ready }
            else s) := rfl
      rw [MCPServer.exchange, hhandle]
      by_cases hready : n.method = py "notifications/initialized" ∧
          s.phase = .awaitingInitializedNotification
      · rw [if_pos hready]
        refine ⟨⟨fun _ => hserviceable, fun _ => rfl⟩, ⟨[], by simp, fun _ _ h => by cases h⟩,
          fun h => absurd h (hserves _ _), .inr (.inr ⟨hopens _ _, ⟨n, rfl, hready.1⟩, hready.2, rfl⟩)⟩
      · rw [if_neg hready]
        exact ⟨⟨fun _ => hserviceable, fun _ => rfl⟩, ⟨[], by simp, fun _ _ h => by cases h⟩,
          fun h => absurd h (hserves _ _), .inr (.inl ⟨hopens _ _, rfl⟩)⟩
  | response r =>
      have hx : srv.exchange s (.response r) = ⟨s, .response r, .ok none, s⟩ := rfl
      have hserviceable : Serviceable srv s (.response r) := by
        intro r' name arguments tool hr
        cases hr
      rw [hx]
      refine ⟨⟨fun _ => hserviceable, fun _ => rfl⟩,
        ⟨[], by simp, fun _ _ h => by cases h⟩, ?_, .inr (.inl ⟨?_, rfl⟩)⟩
      · rintro ⟨r', resp, hr, -⟩
        cases hr
      · rintro ⟨r', resp, hr, -⟩
        cases hr
  | request r =>
      have hspec := handleRequest_spec srv r s
      have hmap : handleMessage srv (.request r) s = EStateM.map some (handleRequest srv r) s := rfl
      unfold Wp at hspec
      unfold EStateM.map at hmap
      cases hhandle : handleRequest srv r s with
      | ok resp s' =>
          rw [hhandle] at hspec
          have hx : srv.exchange s (.request r) = ⟨s, .request r, .ok (some resp), s'⟩ := by
            rw [MCPServer.exchange, hmap, hhandle]
          rw [hx]
          refine ⟨⟨fun _ => hspec.served, fun _ => ⟨resp, rfl, hspec.id⟩⟩, hspec.done.permitted, ?_, ?_⟩
          · rintro ⟨r', resp', hr, hneeds, hresp, herror⟩
            cases hr
            cases hresp
            exact hspec.ready hneeds herror
          · have hphase := hspec.done.phase
            cases hinit : r.initializes with
            | true =>
                have hmethod : r.method = py "initialize" := by
                  by_contra hne
                  rw [initializes_of_ne hne] at hinit
                  cases hinit
                have herror := hspec.handshake hmethod
                rw [hinit] at herror hphase
                exact .inl ⟨⟨r, resp, rfl, hmethod, rfl, herror⟩, hphase⟩
            | false =>
                rw [hinit] at hphase
                refine .inr (.inl ⟨?_, hphase⟩)
                rintro ⟨r', resp', hr, hmethod, hresp, herror⟩
                cases hr
                cases hresp
                have := hspec.handshake hmethod
                rw [hinit, herror] at this
                cases this
      | error e s' =>
          rw [hhandle] at hspec
          have hx : srv.exchange s (.request r) = ⟨s, .request r, .error e, s'⟩ := by
            rw [MCPServer.exchange, hmap, hhandle]
          rw [hx]
          refine ⟨⟨?_, fun h => absurd h hspec.1⟩, hspec.2.permitted, ?_, ?_⟩
          · rintro ⟨resp, hresp, -⟩
            cases hresp
          · rintro ⟨r', resp, -, -, hresp, -⟩
            cases hresp
          · have hphase := hspec.2.phase
            have hinit : r.initializes = false := by
              by_contra hinit
              have hmethod : r.method = py "initialize" := by
                by_contra hne
                exact hinit (initializes_of_ne hne)
              exact hspec.1 (serviceable_of_ne (by rw [hmethod]; decide))
            rw [hinit] at hphase
            refine .inr (.inl ⟨?_, hphase⟩)
            rintro ⟨r', resp, -, -, hresp, -⟩
            cases hresp

-- ============================================================================
-- Sequences of messages
-- ============================================================================

/-- What the phase says about the past. -/
structure Shaken (past : List (Exchange σ)) (phase : Phase) : Prop where
  ready : phase = .ready → Handshaken past
  opened : phase = .awaitingInitializedNotification →
    ∃ pre x since, past = pre ++ x :: since ∧ x.Opens ∧ ∀ y ∈ since, ¬ y.Opens

/-- Every message keeps the past and the phase in step. -/
theorem Shaken.step {srv : MCPServer σ} {past : List (Exchange σ)} {x : Exchange σ}
    (h : Shaken past x.before.phase) (hx : ExchangeDone srv x) :
    Shaken (past ++ [x]) x.after.phase := by
  rcases hx.phase with ⟨hopens, hphase⟩ | ⟨hopens, hphase⟩ | ⟨hopens, hannounces, hbefore, hphase⟩
  · rw [hphase]
    refine ⟨fun h => (by cases h), fun _ => ⟨past, x, [], rfl, hopens, fun y hy => by cases hy⟩⟩
  · have hlater : ∀ since : List (Exchange σ), (∀ y ∈ since, ¬ y.Opens) →
        ∀ y ∈ since ++ [x], ¬ y.Opens := by
      intro since hsince y hy
      rcases List.mem_append.mp hy with hy | hy
      · exact hsince y hy
      · rw [List.mem_singleton.mp hy]
        exact hopens
    rw [hphase]
    constructor
    · intro hready
      obtain ⟨pre, x₀, since, rfl, hopen, hsince, y, hy, hannounces⟩ := h.ready hready
      exact ⟨pre, x₀, since ++ [x], by simp, hopen, hlater since hsince, y,
        List.mem_append_left _ hy, hannounces⟩
    · intro hopened
      obtain ⟨pre, x₀, since, rfl, hopen, hsince⟩ := h.opened hopened
      exact ⟨pre, x₀, since ++ [x], by simp, hopen, hlater since hsince⟩
  · -- the announcement after an `initialize`
    rw [hphase]
    refine ⟨fun _ => ?_, fun h => by cases h⟩
    obtain ⟨pre, x₀, since, rfl, hopen, hsince⟩ := h.opened hbefore
    refine ⟨pre, x₀, since ++ [x], by simp, hopen, fun y hy => ?_, x, by simp, hannounces⟩
    rcases List.mem_append.mp hy with hy | hy
    · exact hsince y hy
    · rw [List.mem_singleton.mp hy]
      exact hopens

/-- In every sequence, each message finds the phase that its past gives. -/
theorem exchanges_spec (srv : MCPServer σ) (ms : List Message) {s : ServerState σ}
    {earlier : List (Exchange σ)} (h : Shaken earlier s.phase) {past future : List (Exchange σ)}
    {x : Exchange σ} (hsplit : srv.exchanges s ms = past ++ x :: future) :
    Shaken (earlier ++ past) x.before.phase ∧ ExchangeDone srv x := by
  induction ms generalizing s earlier past with
  | nil =>
      have hlength := congrArg List.length hsplit
      simp [MCPServer.exchanges] at hlength
  | cons m ms ih =>
      have hdone := exchange_spec srv s m
      have hbefore := (exchange_before srv s m).1
      rw [← hbefore] at h
      cases past with
      | nil =>
          obtain ⟨rfl, -⟩ := List.cons.inj hsplit
          rw [List.append_nil]
          exact ⟨h, hdone⟩
      | cons x₀ past =>
          obtain ⟨rfl, hrest⟩ := List.cons.inj hsplit
          have hnext := ih (h.step hdone) hrest
          rwa [List.append_assoc] at hnext

/-- Every request has exactly one response and nothing else has one; tools are
    listed and called only after a handshake; and a tool runs only on a call
    that is allowed and in the log. -/
def FollowsProtocol (srv : MCPServer σ) (xs : List (Exchange σ)) : Prop :=
  ∀ past x future, xs = past ++ x :: future →
    x.Replied ∧ (x.Serves → Handshaken past) ∧ x.Permitted srv

theorem FollowsProtocol.replied {srv : MCPServer σ} {xs : List (Exchange σ)} {x : Exchange σ}
    (h : FollowsProtocol srv xs) (hx : x ∈ xs) : x.Replied := by
  obtain ⟨past, future, hsplit⟩ := List.append_of_mem hx
  exact (h past x future hsplit).1

theorem exchanges_message (srv : MCPServer σ) (ms : List Message) (s : ServerState σ) :
    (srv.exchanges s ms).map Exchange.message = ms := by
  induction ms generalizing s with
  | nil => rfl
  | cons m ms ih =>
      rw [MCPServer.exchanges, List.map_cons, ih, (exchange_before srv s m).2]

/-- In every sequence of messages tools are listed and called only after a
    handshake, and run only on calls that are allowed and in the log; each
    request has its response exactly when no call fails in the policy, in the
    log or for want of a result. -/
theorem server_protocol (srv : MCPServer σ) (world : σ) (messages : List Message) :
    (∀ past x future, srv.exchanges { world := world } messages = past ++ x :: future →
      (x.Serves → Handshaken past) ∧ x.Permitted srv) ∧
    (FollowsProtocol srv (srv.exchanges { world := world } messages) ↔
      ∀ x ∈ srv.exchanges { world := world } messages, Serviceable srv x.before x.message) := by
  have hstart : Shaken ([] : List (Exchange σ)) (ServerState.phase { world := world }) :=
    ⟨fun h => (by cases h), fun h => (by cases h)⟩
  have hspec : ∀ past x future,
      srv.exchanges { world := world } messages = past ++ x :: future →
        Shaken past x.before.phase ∧ ExchangeDone srv x :=
    fun past x future hsplit => exchanges_spec srv messages hstart hsplit
  refine ⟨fun past x future hsplit => ?_, fun h x hx => ?_, fun h past x future hsplit => ?_⟩
  · obtain ⟨hshaken, hdone⟩ := hspec past x future hsplit
    exact ⟨fun hserves => hshaken.ready (hdone.serves hserves), hdone.permitted⟩
  · obtain ⟨past, future, hsplit⟩ := List.append_of_mem hx
    exact (hspec past x future hsplit).2.replied.mp (h.replied hx)
  · obtain ⟨hshaken, hdone⟩ := hspec past x future hsplit
    have hmem : x ∈ srv.exchanges { world := world } messages := by
      rw [hsplit]
      simp
    exact ⟨hdone.replied.mpr (h x hmem), fun hserves => hshaken.ready (hdone.serves hserves),
      hdone.permitted⟩

/-- A tool that answers with its arguments. -/
def echoTool : Tool Unit where
  name := py "echo"
  parameters := .obj []
  execute := fun arguments w => (.ok (.result { output := .obj arguments }), w)

/-- A server with a log file that serves it to everyone. -/
def echoServer : MCPServer Unit where
  tools := [⟨echoTool, py "Echo."⟩]
  unique := by decide
  permissionPolicy := fun _ _ w => (.ok { allowed := true }, w)
  auditLogger := .jsonLines

/-- A call whose argument is a lone surrogate. -/
def surrogateCall : Message :=
  .request ⟨.int 2, py "tools/call", .obj [(py "name", .str (py "echo")),
    (py "arguments", .obj [(py "text", .str [0xD800])])]⟩

/-- The handshake, and the call. -/
def surrogateSession : List Message :=
  [.request ⟨.int 1, py "initialize", .obj [(py "protocolVersion", .str (py "2025-03-26"))]⟩,
    .notification ⟨py "notifications/initialized", .null⟩, surrogateCall]

/-- The call has no response: its audit entry cannot be written. -/
theorem surrogate_unanswered :
    ((echoServer.exchanges { world := () } surrogateSession).map Exchange.outcome)[2]? =
        some (.error unicodeEncodeError) ∧
      ¬ FollowsProtocol echoServer (echoServer.exchanges { world := () } surrogateSession) := by
  have houtcome : ((echoServer.exchanges { world := () } surrogateSession).map Exchange.outcome)[2]? =
      some (.error unicodeEncodeError) := by decide +kernel
  have hmessage : ((echoServer.exchanges { world := () } surrogateSession).map Exchange.message)[2]? =
      some surrogateCall := by
    rw [exchanges_message]
    rfl
  refine ⟨houtcome, fun h => ?_⟩
  rw [List.getElem?_map, Option.map_eq_some_iff] at houtcome hmessage
  obtain ⟨x, hx, houtcome⟩ := houtcome
  obtain ⟨x', hx', hmessage⟩ := hmessage
  rw [hx] at hx'
  obtain rfl := Option.some.inj hx'
  have hreplied := h.replied (List.mem_of_getElem? hx)
  unfold Exchange.Replied at hreplied
  rw [hmessage] at hreplied
  obtain ⟨resp, hresp, -⟩ := hreplied
  rw [houtcome] at hresp
  cases hresp

end Mcp
end KineticSdk
