/-
  KineticSdk.Subagent.FileLock

  `FileLockRegistry` (`subagent/filelock.py`) on one path, file operation by
  file operation.

  The lock directory holds a record under the path's name and at most one
  temporary file next to it.  A name refers to a file: a client that has opened
  a file goes on writing to it whatever happens to the name.  A client is one
  thread that makes calls on its registry object; `act` performs the next file
  operation of its call.  Only clients of one registry object share a mutex.

  `leases` is for observation: the acquires that have returned and are not
  released, with the expiry of their lease.
-/

import KineticSdk.Py.Repr
import KineticSdk.Lib.Steps
import KineticSdk.Tool.Base

namespace KineticSdk
namespace Subagent

open Py Tool

-- ============================================================================
-- The lock directory
-- ============================================================================

/-- `FileLockInfo`, without its path. -/
structure LockInfo where
  owner : PyStr
  acquiredAt : Int
  expiresAt : Option Int
deriving DecidableEq

/-- `_is_expired`. -/
def LockInfo.isExpired (info : LockInfo) (now : Int) : Bool :=
  match info.expiresAt with
  | none => false
  | some t => decide (t ≤ now)

/-- The text of a file: a record, or the beginning of one, which is no JSON. -/
inductive Content where
  | unfinished
  | record (info : LockInfo)
deriving DecidableEq

/-- What `_read_record` makes of a text. -/
def Content.info? : Content → Option LockInfo
  | .unfinished => none
  | .record info => some info

/-- The files ever created, and those the two names refer to. -/
structure Disk where
  files : List Content := []
  record : Option Nat := none
  tmp : Option Nat := none
deriving DecidableEq

namespace Disk

/-- `_read_info`. -/
def read (d : Disk) : Option LockInfo :=
  d.record.bind fun n => d.files[n]?.bind Content.info?

/-- `os.open(record, O_WRONLY | O_CREAT | O_EXCL)`. -/
def createExclusive (d : Disk) : Option (Nat × Disk) :=
  match d.record with
  | some _ => none
  | none => some (d.files.length,
      { d with files := d.files ++ [.unfinished], record := some d.files.length })

/-- Write a whole record to an open file. -/
def write (d : Disk) (fd : Nat) (info : LockInfo) : Disk :=
  { d with files := d.files.set fd (.record info) }

/-- `open(temporary, "w")`. -/
def openTmp (d : Disk) : Nat × Disk :=
  match d.tmp with
  | some n => (n, { d with files := d.files.set n .unfinished })
  | none => (d.files.length,
      { d with files := d.files ++ [.unfinished], tmp := some d.files.length })

/-- `os.replace(temporary, record)`. -/
def replace (d : Disk) : Option Disk :=
  d.tmp.map fun n => { d with record := some n, tmp := none }

/-- `record.unlink()`. -/
def unlink (d : Disk) : Disk := { d with record := none }

end Disk

-- ============================================================================
-- Calls
-- ============================================================================

/-- A call of a registry method on the path, as the caller spells it. -/
inductive Call where
  | acquire (path owner : PyStr) (timeout lease : Option Int)
  | release (path owner : PyStr)
  | renew (path owner : PyStr) (lease : Option Int)
  /-- `owner_of`, and `locked_paths` as far as it is about this path. -/
  | ownerOf

/-- An `acquire` whose arguments were accepted. -/
structure Acquire where
  path : PyStr
  owner : PyStr
  lease : Option Int
  deadline : Option Int
deriving DecidableEq

/-- What a call comes to. -/
inductive Outcome where
  | acquired (info : LockInfo)
  | released
  | renewed (info : LockInfo)
  | owner (info : Option LockInfo)
  | raised (e : PyExc)
deriving DecidableEq

/-- Where a call stands: what it does next, and what it has read. -/
inductive Phase where
  | idle
  /-- At the top of the loop of `acquire`. -/
  | starting (a : Acquire)
  | opening (a : Acquire) (info : LockInfo)
  | writing (a : Acquire) (info : LockInfo) (fd : Nat)
  /-- After an exception between the creation and the return of `_try_create`. -/
  | cleaning (a : Acquire) (info : LockInfo) (fd : Nat)
  | reading (a : Acquire) (now : Int)
  | waiting (a : Acquire) (holder : Option PyStr)
  /-- About to return; the record was created with the file, or found. -/
  | returning (a : Acquire) (info : LockInfo) (fd : Option Nat)
  /-- In `_remove_if_unchanged`, for an acquire that goes on afterwards. -/
  | removing (expected : LockInfo) (next : Option Acquire)
  | unlinking (expected : LockInfo) (next : Option Acquire)
  | releasing (path owner : PyStr)
  | dropping (path : PyStr) (info : LockInfo)
  | renewing (path owner : PyStr) (lease : Option Int)
  | stamping (info : LockInfo) (lease : Option Int)
  | filling (info updated : LockInfo) (fd : Nat)
  | replacing (info updated : LockInfo) (fd : Nat)
  | looking
  | judging (info : LockInfo)
deriving DecidableEq

/-- The call is inside `with self._mutex`. -/
def Phase.inMutex : Phase → Bool
  | .unlinking .. | .dropping .. | .stamping .. | .filling .. | .replacing .. => true
  | _ => false

/-- A thread and the registry object it calls. -/
structure Client where
  registry : Nat
  defaultLease : Option Int
  phase : Phase := .idle
  /-- What its last call came to. -/
  last : Option Outcome := none
deriving DecidableEq

/-- The lock directory, the clients and the clock. -/
structure State where
  now : Int
  disk : Disk
  clients : List Client
  leases : PyStr → Option (Option Int) := fun _ => none

/-- What can happen. -/
inductive Event where
  | tick (d : Nat)
  | call (i : Nat) (c : Call)
  /-- The client's next file operation. -/
  | act (i : Nat)
  /-- Writing the new record raises. -/
  | fail (i : Nat)
  /-- The client's process dies. -/
  | crash (i : Nat)

/-- `FileLockOwnershipError`. -/
def ownershipError (message : PyStr) : PyExc := ⟨py "FileLockOwnershipError", message⟩

/-- `ValueError`. -/
def valueError (message : PyStr) : PyExc := ⟨py "ValueError", message⟩

/-- The lease of a call: the argument, or the registry's default. -/
def leaseOf (default lease : Option Int) : Except PyExc (Option Int) :=
  match lease.or default with
  | some l =>
      if l ≤ 0 then .error (valueError (py "lease_seconds must be positive or None"))
      else .ok (some l)
  | none => .ok none

/-- The arguments of `acquire`, checked; the deadline counts from now. -/
def acquireArgs (default : Option Int) (now : Int) (path owner : PyStr)
    (timeout lease : Option Int) : Except PyExc Acquire :=
  if strip owner = [] then .error (valueError (py "owner_id must be a non-empty string"))
  else if timeout.any (· < 0) then
    .error (valueError (py "timeout must be non-negative or None"))
  else (leaseOf default lease).map fun l => ⟨path, owner, l, timeout.map (now + ·)⟩

/-- `FileLockTimeoutError`. -/
def timeoutError (path : PyStr) (holder : Option PyStr) : PyExc :=
  ⟨py "FileLockTimeoutError", py "Timed out acquiring file lock for " ++ pyReprStr path
    ++ py "; held by " ++ pyReprStr (holder.getD (py "unknown"))⟩

/-- No lock is held. -/
def notHeld (path : PyStr) : PyExc :=
  ownershipError (py "No file lock is held for " ++ pyReprStr path)

namespace State

variable (s : State)

/-- The client goes on. -/
def goto (i : Nat) (p : Phase) : State :=
  { s with clients := s.clients.modify i fun c => { c with phase := p } }

/-- The client's call is over. -/
def finish (i : Nat) (o : Outcome) : State :=
  { s with clients := s.clients.modify i fun c => { c with phase := .idle, last := some o } }

/-- Where the call goes on after `_remove_if_unchanged`. -/
def resume (i : Nat) : Option Acquire → State
  | some a => s.goto i (.starting a)
  | none => s.finish i (.owner none)

/-- Another thread is inside the mutex of the registry. -/
def locked (registry : Nat) : Bool :=
  s.clients.any fun c => c.registry = registry && c.phase.inMutex

/-- The lease of an owner. -/
def setLease (o : PyStr) (lease : Option (Option Int)) : State :=
  { s with leases := fun p => if p = o then lease else s.leases p }

/-- The owner has an acquire that returned, was not released and has not expired. -/
def holds (o : PyStr) : Bool :=
  match s.leases o with
  | none => false
  | some none => true
  | some (some t) => decide (s.now < t)

/-- The first step of a call: its arguments are checked. -/
def begin (i : Nat) (client : Client) : Call → State
  | .acquire path owner timeout lease =>
      match acquireArgs client.defaultLease s.now path owner timeout lease with
      | .ok a => s.goto i (.starting a)
      | .error e => s.finish i (.raised e)
  | .release path owner => s.goto i (.releasing path owner)
  | .renew path owner lease =>
      match leaseOf client.defaultLease lease with
      | .ok l => s.goto i (.renewing path owner l)
      | .error e => s.finish i (.raised e)
  | .ownerOf => s.goto i .looking

/-- The next file operation of a client's call. -/
def perform (i : Nat) (client : Client) : State :=
  match client.phase with
  | .idle => s
  | .starting a =>
      s.goto i (.opening a ⟨a.owner, s.now, a.lease.map (s.now + ·)⟩)
  | .opening a info =>
      match s.disk.createExclusive with
      | some (fd, d) => { s with disk := d }.goto i (.writing a info fd)
      | none => s.goto i (.reading a info.acquiredAt)
  | .writing a info fd =>
      { s with disk := s.disk.write fd info }.goto i (.returning a info (some fd))
  | .cleaning _ _ _ =>
      { s with disk := s.disk.unlink }.finish i (.raised ⟨py "OSError", []⟩)
  | .reading a now =>
      match s.disk.read with
      | none => s.goto i (.waiting a none)
      | some info =>
          if info.owner = a.owner then s.goto i (.returning a info none)
          else if info.isExpired now then s.goto i (.removing info (some a))
          else s.goto i (.waiting a (some info.owner))
  | .waiting a holder =>
      if a.deadline.any (· ≤ s.now) then s.finish i (.raised (timeoutError a.path holder))
      else s.goto i (.starting a)
  | .returning a info _ =>
      (s.setLease a.owner (some info.expiresAt)).finish i (.acquired info)
  | .removing info next =>
      if s.locked client.registry then s
      else if s.disk.read = some info then s.goto i (.unlinking info next)
      else s.resume i next
  | .unlinking _ next => { s with disk := s.disk.unlink }.resume i next
  | .releasing path owner =>
      if s.locked client.registry then s
      else
        match s.disk.read with
        | none => s.finish i (.raised (notHeld path))
        | some info =>
            if info.owner = owner then s.goto i (.dropping path info)
            else s.finish i (.raised (ownershipError (py "File lock for " ++ pyReprStr path
              ++ py " is owned by " ++ pyReprStr info.owner ++ py ", not " ++ pyReprStr owner)))
  | .dropping path info =>
      match s.disk.record with
      | none => s.finish i (.raised (notHeld path))
      | some _ => ({ s with disk := s.disk.unlink }.setLease info.owner none).finish i .released
  | .renewing path owner lease =>
      if s.locked client.registry then s
      else
        match s.disk.read.filter fun info => info.owner = owner with
        | some info => s.goto i (.stamping info lease)
        | none => s.finish i (.raised (ownershipError
            (py "Agent " ++ pyReprStr owner ++ py " does not own " ++ pyReprStr path)))
  | .stamping info lease =>
      { s with disk := s.disk.openTmp.2 }.goto i
        (.filling info { info with expiresAt := lease.map (s.now + ·) } s.disk.openTmp.1)
  | .filling info updated fd =>
      { s with disk := s.disk.write fd updated }.goto i (.replacing info updated fd)
  | .replacing _ updated _ =>
      match s.disk.replace with
      | none => s.finish i (.raised ⟨py "FileNotFoundError", []⟩)
      | some d =>
          ({ s with disk := d }.setLease updated.owner
            ((s.leases updated.owner).map fun _ => updated.expiresAt)).finish i (.renewed updated)
  | .looking =>
      match s.disk.read with
      | none => s.finish i (.owner none)
      | some info => s.goto i (.judging info)
  | .judging info =>
      if info.isExpired s.now then s.goto i (.removing info none)
      else s.finish i (.owner (some info))

/-- The state after an event. -/
def step (s : State) : Event → State
  | .tick d => { s with now := s.now + d }
  | .call i c =>
      match s.clients[i]? with
      | some client => if client.phase = .idle then s.begin i client c else s
      | none => s
  | .act i =>
      match s.clients[i]? with
      | some client => s.perform i client
      | none => s
  | .fail i =>
      match s.clients[i]? with
      | some client =>
          match client.phase with
          | .writing a info fd => s.goto i (.cleaning a info fd)
          | .returning a info (some fd) => s.goto i (.cleaning a info fd)
          | _ => s
      | none => s
  | .crash i => { s with clients := s.clients.modify i fun c => { c with phase := .idle, last := none } }

/-- The state after the events. -/
def run (s : State) (es : List Event) : State := Lib.Steps.run step s es

end State

/-- A lock directory that holds a text under the record's name, or nothing. -/
def Disk.holding : Option Content → Disk
  | none => {}
  | some c => { files := [c], record := some 0 }

/-- Clients on a lock directory that nobody uses yet. -/
def start (content : Option Content) (now : Int) (clients : List (Nat × Option Int)) : State where
  now := now
  disk := .holding content
  clients := clients.map fun c => { registry := c.1, defaultLease := c.2 }

end Subagent
end KineticSdk
