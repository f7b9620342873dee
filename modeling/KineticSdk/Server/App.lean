/-
  KineticSdk.Server.App

  `AgentServer` (`server/app.py`): the session cache and the three ways to run
  an agent.

  A request gets its agent (`_make_agent`) and runs it later.  What the source
  does under the server's lock is one step here, but for the run itself, which
  keeps the lock for as long as it takes; a step that needs the lock waits for
  it.  Agents are numbered in the order in which the factory makes them.  The
  records of runs and the limits on requests are left out.
-/

import KineticSdk.Py.Json
import KineticSdk.Lib.Steps

namespace KineticSdk
namespace Server

open Py

-- ============================================================================
-- Requests
-- ============================================================================

/-- The entry point a request comes in by. -/
inductive Entry where
  /-- `POST /runs`. -/
  | runs
  /-- `POST /v1/chat/completions`. -/
  | chatCompletions
  /-- `GET /runs/stream`. -/
  | websocket
deriving DecidableEq

/-- `_run_agent` runs a session's agent under the lock, `_websocket_run` does not. -/
def Entry.locks : Entry → Bool
  | .runs | .chatCompletions => true
  | .websocket => false

/-- How far a request has come. -/
inductive Phase where
  | waiting
  /-- `_make_agent` has returned. -/
  | ready (agent : Nat)
  /-- Inside `agent.run`. -/
  | running (agent : Nat)
  | finished
deriving DecidableEq

/-- The agent a request holds. -/
def Phase.agent : Phase → Option Nat
  | .ready a | .running a => some a
  | .waiting | .finished => none

/-- The agent a request runs. -/
def Phase.runs : Phase → Option Nat
  | .running a => some a
  | _ => none

/-- A request that names a session, or none. -/
structure Request where
  entry : Entry
  session : Option PyStr
  phase : Phase := .waiting
deriving DecidableEq

-- ============================================================================
-- The server
-- ============================================================================

/-- `AgentServer`, as far as sessions are concerned. -/
structure AgentServer where
  now : Int := 0
  sessions : List (PyStr × Nat) := []
  sessionActivity : List (PyStr × Int) := []
  /-- The request that runs its agent under the lock. -/
  lock : Option Nat := none
  requests : List Request := []
  /-- How many agents the factory has made. -/
  agents : Nat := 0
deriving DecidableEq

namespace AgentServer

/-- The body of the loop of `_purge_expired_sessions`. -/
def dropExpired (cutoff : Int) (s : AgentServer) (item : PyStr × Int) : AgentServer :=
  if item.2 < cutoff then
    { s with
      sessions := Dict.pop s.sessions item.1
      sessionActivity := Dict.pop s.sessionActivity item.1 }
  else s

/-- `_purge_expired_sessions`. -/
def purgeExpiredSessions (ttl : Option Int) (s : AgentServer) : AgentServer :=
  match ttl with
  | none => s
  | some t => s.sessionActivity.foldl (dropExpired (s.now - t)) s

/-- `_session_activity[session_id] = time.monotonic()`. -/
def touch (s : AgentServer) (sessionId : PyStr) : AgentServer :=
  { s with sessionActivity := Dict.set s.sessionActivity sessionId s.now }

/-- A request goes on. -/
def goto (s : AgentServer) (i : Nat) (r : Request) (p : Phase) : AgentServer :=
  { s with requests := s.requests.set i { r with phase := p } }

/-- The factory makes an agent for a session, which takes some time. -/
def create (s : AgentServer) (sessionId : PyStr) (took : Nat) : AgentServer :=
  { s with
    now := s.now + took
    sessions := Dict.set s.sessions sessionId s.agents
    agents := s.agents + 1 }

/-- `_make_agent` of a session; `made` tells whether the factory returns, if it
    is called. -/
def sessionAgent (s : AgentServer) (i : Nat) (r : Request) (sessionId : PyStr) (made : Bool)
    (took : Nat) : AgentServer :=
  match Dict.get? s.sessions sessionId with
  | some a => (s.touch sessionId).goto i r (.ready a)
  | none =>
      if made then ((s.create sessionId took).touch sessionId).goto i r (.ready s.agents)
      else ({ s with now := s.now + took } : AgentServer).goto i r .finished

/-- `_make_agent`. -/
def makeAgent (ttl : Option Int) (s : AgentServer) (i : Nat) (r : Request) (made : Bool)
    (took : Nat) : AgentServer :=
  match r.session with
  | none =>
      if made then ({ s with agents := s.agents + 1 } : AgentServer).goto i r (.ready s.agents)
      else s.goto i r .finished
  | some sessionId =>
      if s.lock = none then (s.purgeExpiredSessions ttl).sessionAgent i r sessionId made took else s

/-- `agent.run` is called. -/
def start (s : AgentServer) (i : Nat) (r : Request) (a : Nat) : AgentServer :=
  if r.entry.locks ∧ r.session ≠ none then
    if s.lock = none then ({ s with lock := some i } : AgentServer).goto i r (.running a) else s
  else s.goto i r (.running a)

/-- `agent.run` returns or raises. -/
def finish (s : AgentServer) (i : Nat) (r : Request) (returned : Bool) : AgentServer :=
  match r.session with
  | none => s.goto i r .finished
  | some sessionId =>
      if r.entry.locks then
        let s := if returned then s.touch sessionId else s
        ({ s with lock := none } : AgentServer).goto i r .finished
      else s.goto i r .finished

end AgentServer

-- ============================================================================
-- Steps
-- ============================================================================

/-- What can happen next. -/
inductive Event where
  | tick (d : Nat)
  | arrive (entry : Entry) (session : Option PyStr)
  | makeAgent (i : Nat) (made : Bool) (took : Nat)
  | start (i : Nat)
  | finish (i : Nat) (returned : Bool)
  /-- `GET /health`. -/
  | health
deriving DecidableEq

/-- One step of the server; a request that cannot take its step waits. -/
def step (ttl : Option Int) (s : AgentServer) : Event → AgentServer
  | .tick d => { s with now := s.now + d }
  | .arrive entry session => { s with requests := s.requests ++ [{ entry := entry, session := session }] }
  | .makeAgent i made took =>
      match s.requests[i]? with
      | some r => if r.phase = .waiting then s.makeAgent ttl i r made took else s
      | none => s
  | .start i =>
      match s.requests[i]? with
      | some r =>
          match r.phase with
          | .ready a => s.start i r a
          | _ => s
      | none => s
  | .finish i returned =>
      match s.requests[i]? with
      | some r =>
          match r.phase with
          | .running _ => s.finish i r returned
          | _ => s
      | none => s
  | .health => if s.lock = none then s.purgeExpiredSessions ttl else s

-- a session that expires is made anew
example : (Lib.Steps.run (step (some 10)) {}
    [.arrive .runs (some (py "a")), .makeAgent 0 true 0, .start 0, .finish 0 true, .tick 11,
      .arrive .runs (some (py "a")), .makeAgent 1 true 0]).sessions = [(py "a", 1)] := by
  decide

end Server
end KineticSdk
