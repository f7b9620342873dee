/-
  KineticSdk.Mcp.Stdio

  Messages between two `StdioTransport`s (`mcp/transport.py`), one sending and one
  receiving.

  Any number of threads send.  The bytes of a line go through the buffer of the writer
  and the pipe one by one, the pump puts them together to lines again, and any number
  of threads receive.  Everything may happen in any order, and the sending end may go
  away at any moment.  What comes out is the messages in the order of the lock, each
  once (`stdio_delivers`); a `send` that returned is not lost (`Delivered.flushed`);
  and the end of the stream is told to everyone who still receives (`end_told`).
-/

import KineticSdk.Lib.Framing
import KineticSdk.Lib.Steps
import KineticSdk.Mcp.RoundTrip
import Mathlib.Logic.Function.Iterate

namespace KineticSdk
namespace Mcp

open Py Lib Lib.Steps

-- ============================================================================
-- The link
-- ============================================================================

/-- What the pump puts into the queue. -/
inductive QueueItem where
  | line (bytes : List Nat)
  /-- `_StreamEnd`. -/
  | streamEnd (detail : PyStr)
deriving DecidableEq

/-- How a `send` ends. -/
inductive SendResult where
  | returned
  /-- `MCPTransportError`, before anything is written. -/
  | closed
  /-- `UnicodeEncodeError`. -/
  | unencodable
  /-- `MCPTransportError`, "Cannot write to subprocess stdin". -/
  | cannotWrite
deriving DecidableEq

/-- How a `receive` ends. -/
inductive Received where
  /-- The line is decoded. -/
  | line (bytes : List Nat)
  /-- `MCPTransportError`, of the end of the stream. -/
  | streamEnd (detail : PyStr)
  /-- `MCPTimeoutError`. -/
  | timedOut
deriving DecidableEq

/-- Two transports with the pipe between them, and what has happened. -/
structure Link where
  /-- `_closed` of the sending end. -/
  closed : Bool := false
  /-- The calls that wait for `_lock`, with their lines. -/
  waiting : List (Message × List Nat) := []
  /-- What the holder of `_lock` has still to write. -/
  lock : Option (List Nat) := none
  /-- What `_writer` holds back. -/
  buffer : List Nat := []
  /-- Nothing can be written any more. -/
  shut : Bool := false
  pipe : List Nat := []
  /-- What `readline` has read of a line. -/
  begun : List Nat := []
  pumping : Bool := true
  /-- The pump has ended with an exception. -/
  failed : Bool := false
  queue : List QueueItem := []
  /-- The ends that are taken from the queue and not put back yet. -/
  holding : List PyStr := []
  /-- The messages in the order in which `_lock` was taken for them. -/
  accepted : List (Message × List Nat) := []
  /-- How many there were when a `send` last returned. -/
  flushed : Nat := 0
  sends : List SendResult := []
  received : List Received := []

/-- What happens next. -/
inductive LinkEvent where
  /-- A thread calls `send`: the checks, and the line. -/
  | send (m : Message)
  /-- One of the calls that wait takes the lock. -/
  | acquire (i : Nat)
  /-- A byte more of its line is written, or the write fails. -/
  | write
  /-- A byte goes from the buffer into the pipe. -/
  | drain
  /-- `flush` is through, or fails; the lock is free again. -/
  | flush
  | close
  /-- The writer is closed, by `close` or when its process exits. -/
  | shut
  /-- The sending process is killed, or nobody reads the pipe any more. -/
  | die
  /-- The pump reads a byte. -/
  | pump
  /-- The pump finds the end of the stream. -/
  | pumpEnd
  /-- The pump ends with an exception. -/
  | pumpFail (detail : PyStr)
  /-- `receive` takes an item. -/
  | receive
  /-- A `receive` that took the end puts it back and raises. -/
  | putBack
  /-- The deadline of a `receive` passes while the queue is empty. -/
  | timeout

/-- One event; an event that cannot happen changes nothing. -/
def Link.step (s : Link) : LinkEvent → Link
  | .send m =>
      if s.closed then { s with sends := s.sends ++ [.closed] }
      else
        match utf8Encode (encode m) with
        | some line => { s with waiting := s.waiting ++ [(m, line)] }
        | none => { s with sends := s.sends ++ [.unencodable] }
  | .acquire i =>
      match s.lock, s.waiting[i]? with
      | none, some p =>
          { s with waiting := s.waiting.eraseIdx i, lock := some p.2, accepted := s.accepted ++ [p] }
      | _, _ => s
  | .write =>
      match s.lock with
      | some (b :: rest) =>
          -- a pipe that has failed once fails for good
          if s.shut then { s with lock := none, sends := s.sends ++ [.cannotWrite] }
          else { s with lock := some rest, buffer := s.buffer ++ [b] }
      | _ => s
  | .drain =>
      match s.buffer with
      | b :: rest => { s with buffer := rest, pipe := s.pipe ++ [b] }
      | [] => s
  | .flush =>
      match s.lock with
      | some [] =>
          if s.shut then { s with lock := none, sends := s.sends ++ [.cannotWrite] }
          else if s.buffer = [] then
            { s with lock := none, flushed := s.accepted.length, sends := s.sends ++ [.returned] }
          else s
      | _ => s
  | .close => { s with closed := true }
  | .shut => if s.buffer = [] then { s with shut := true } else s
  | .die => { s with shut := true, buffer := [] }
  | .pump =>
      match s.pumping, s.pipe with
      | true, b :: rest =>
          if b = 10 then
            { s with pipe := rest, begun := [], queue := s.queue ++ [.line (s.begun ++ [b])] }
          else { s with pipe := rest, begun := s.begun ++ [b] }
      | _, _ => s
  | .pumpEnd =>
      if s.pumping ∧ s.shut ∧ s.pipe = [] then
        if s.begun = [] then
          { s with pumping := false, queue := s.queue ++ [.streamEnd (py "EOF on stdout")] }
        -- `readline` gives what there is of the last line first
        else { s with begun := [], queue := s.queue ++ [.line s.begun] }
      else s
  | .pumpFail detail =>
      if s.pumping then
        { s with
          pumping := false
          failed := true
          queue := s.queue ++ [.streamEnd (py "reader thread failed: " ++ detail)] }
      else s
  | .receive =>
      match s.queue with
      | .line bytes :: rest => { s with queue := rest, received := s.received ++ [.line bytes] }
      | .streamEnd detail :: rest => { s with queue := rest, holding := s.holding ++ [detail] }
      | [] => s
  | .putBack =>
      match s.holding with
      | detail :: rest =>
          { s with
            holding := rest
            queue := s.queue ++ [.streamEnd detail]
            received := s.received ++ [.streamEnd detail] }
      | [] => s
  | .timeout => if s.queue = [] then { s with received := s.received ++ [.timedOut] } else s

/-- The line of an item. -/
def QueueItem.line? : QueueItem → Option (List Nat)
  | .line bytes => some bytes
  | .streamEnd _ => none

/-- The line that is decoded. -/
def Received.line? : Received → Option (List Nat)
  | .line bytes => some bytes
  | _ => none

/-- The lines that were put into the queue, the received ones first. -/
def Link.lines (s : Link) : List (List Nat) :=
  s.received.filterMap Received.line? ++ s.queue.filterMap QueueItem.line?

/-- The bytes of these lines, and those on the way. -/
def Link.stream (s : Link) : List Nat := s.lines.flatten ++ s.begun ++ s.pipe ++ s.buffer

/-- The lines of the messages. -/
def Link.acceptedLines (s : Link) : List (List Nat) := s.accepted.map Prod.snd

-- ============================================================================
-- What is delivered
-- ============================================================================

variable {fl : FloatRepr} {s : Link}

/-- A message as its type promises it, with its line. -/
def Sendable (fl : FloatRepr) (p : Message × List Nat) : Prop :=
  p.1.WellFormed fl ∧ utf8Encode (encode p.1) = some p.2

/-- `n` messages have come through, in order and each once; the queue has had nothing
    else but the beginning of the next line, where the sending end went away in it. -/
structure Link.Delivered (fl : FloatRepr) (s : Link) (n : Nat) : Prop where
  le : n ≤ s.lines.length
  messages : (s.lines.take n).map (fun line => decode {} fl (.bytes line)) = (s.accepted.take n).map fun p => .ok p.1
  cut : s.lines.drop n = [] ∨ ∃ p begun more, s.accepted[n]? = some p ∧ more ≠ [] ∧ s.shut = true ∧
    s.lines.drop n = [begun] ∧ p.2 = begun ++ more
  flushed : s.pumping = false → s.failed = false → s.flushed ≤ n

/-- The line of a message is a frame, and is decoded to the message. -/
theorem Sendable.frame {p : Message × List Nat} (h : Sendable fl p) : Framing.IsFrame 10 p.2 := by
  obtain ⟨body, hbody, hfeed⟩ := single_line h.1
  have henc := h.2
  rw [hbody] at henc
  obtain ⟨front, back, hfront, hback, heq⟩ := utf8Encode_append henc
  obtain rfl : [10] = back := Option.some.inj hback
  exact ⟨front, heq, fun hmem => hfeed (mem_utf8Encode hfront hmem (by decide))⟩

theorem Sendable.decode {p : Message × List Nat} (h : Sendable fl p) : Mcp.decode {} fl (.bytes p.2) = .ok p.1 := by
  have htext := decode_encode h.1
  rw [Mcp.decode, utf8Decode_encode h.2]
  exact htext

/-- The lines in the queue: whole ones, and the end of the stream where it is cut. -/
def Link.Framed (s : Link) : Prop :=
  ∃ whole, (∀ line ∈ whole, Framing.IsFrame 10 line) ∧
    ((s.lines = whole ∧ 10 ∉ s.begun) ∨
      ∃ cut, s.lines = whole ++ [cut] ∧ cut ≠ [] ∧ 10 ∉ cut ∧ s.begun = [] ∧ s.pipe = [] ∧ s.shut = true)

/-- The invariant of the bytes. -/
structure Link.Carries (fl : FloatRepr) (s : Link) : Prop where
  waiting : ∀ p ∈ s.waiting, Sendable fl p
  accepted : ∀ p ∈ s.accepted, Sendable fl p
  stream : s.stream <+: s.acceptedLines.flatten
  /-- Until the sending end goes away, only the rest of the current line is missing. -/
  whole : s.shut = false → s.stream ++ s.lock.getD [] = s.acceptedLines.flatten
  shut : s.shut = true → s.buffer = []
  flushed_le : s.flushed ≤ s.accepted.length
  flushed : (s.acceptedLines.take s.flushed).flatten <+: s.lines.flatten ++ s.begun ++ s.pipe
  framed : s.Framed
  ended : s.pumping = false → s.failed = false → s.begun = [] ∧ s.pipe = [] ∧ s.shut = true

theorem Link.Carries.start : Link.Carries fl {} where
  waiting := fun p hp => absurd hp List.not_mem_nil
  accepted := fun p hp => absurd hp List.not_mem_nil
  stream := List.prefix_refl []
  whole := fun _ => rfl
  shut := fun _ => rfl
  flushed_le := Nat.le_refl 0
  flushed := List.prefix_refl []
  framed := ⟨[], fun line hline => absurd hline List.not_mem_nil, .inl ⟨rfl, List.not_mem_nil⟩⟩
  ended := fun h => absurd h.symm Bool.false_ne_true

/-- What does not touch the bytes. -/
theorem Link.Carries.same (h : s.Carries fl) {received : List Received} {queue : List QueueItem}
    (hlines : received.filterMap Received.line? ++ queue.filterMap QueueItem.line? = s.lines) {closed : Bool}
    {sends : List SendResult} {holding : List PyStr} {pumping failed : Bool}
    (hended : pumping = false → failed = false → s.begun = [] ∧ s.pipe = [] ∧ s.shut = true) :
    Link.Carries fl { s with
      closed := closed, sends := sends, received := received, queue := queue, holding := holding
      pumping := pumping, failed := failed } := by
  have hstream : s.stream = (received.filterMap Received.line? ++ queue.filterMap QueueItem.line?).flatten ++ s.begun
      ++ s.pipe ++ s.buffer := by rw [hlines]; rfl
  have hwhole := h.whole
  have hprefix := h.stream
  have hflushed := h.flushed
  have hframed := h.framed
  unfold Link.Framed at hframed
  rw [hstream] at hwhole hprefix
  rw [← hlines] at hflushed hframed
  exact ⟨h.waiting, h.accepted, hprefix, hwhole, h.shut, h.flushed_le, hflushed, hframed, hended⟩

/-- A line goes into the queue, and what was read of it is used. -/
theorem lines_put (s : Link) (bytes begun pipe : List Nat) :
    Link.lines { s with pipe := pipe, begun := begun, queue := s.queue ++ [.line bytes] } = s.lines ++ [bytes] := by
  unfold Link.lines
  rw [List.filterMap_append, ← List.append_assoc]
  rfl

theorem Link.Carries.send (h : s.Carries fl) {m : Message} (hm : m.WellFormed fl) :
    (s.step (.send m)).Carries fl := by
  unfold Link.step
  dsimp only
  split_ifs with hclosed
  · exact h.same rfl h.ended
  · split
    · next line hline =>
        refine { h with waiting := fun p hp => ?_ }
        rcases List.mem_append.mp hp with hp | hp
        · exact h.waiting p hp
        · rw [List.mem_singleton.mp hp]
          exact ⟨hm, hline⟩
    · exact h.same rfl h.ended

theorem Link.Carries.acquire (h : s.Carries fl) (i : Nat) : (s.step (.acquire i)).Carries fl := by
  unfold Link.step
  dsimp only
  split
  · next p hlock hp =>
      have hlines : Link.acceptedLines { s with accepted := s.accepted ++ [p] } = s.acceptedLines ++ [p.2] :=
        List.map_append
      have hflat : (s.acceptedLines ++ [p.2]).flatten = s.acceptedLines.flatten ++ p.2 := by
        rw [List.flatten_append, List.flatten_cons, List.flatten_nil, List.append_nil]
      have hlength : s.flushed ≤ s.acceptedLines.length := by
        rw [Link.acceptedLines, List.length_map]
        exact h.flushed_le
      refine ⟨fun q hq => h.waiting q (List.mem_of_mem_eraseIdx hq), fun q hq => ?_, ?_, fun hshut => ?_, h.shut, ?_, ?_,
        h.framed, h.ended⟩
      · rcases List.mem_append.mp hq with hq | hq
        · exact h.accepted q hq
        · rw [List.mem_singleton.mp hq]
          exact h.waiting p (List.mem_of_getElem? hp)
      · show s.stream <+: (Link.acceptedLines { s with accepted := s.accepted ++ [p] }).flatten
        rw [hlines, hflat]
        exact h.stream.trans (List.prefix_append ..)
      · show s.stream ++ p.2 = (Link.acceptedLines { s with accepted := s.accepted ++ [p] }).flatten
        have hwhole := h.whole hshut
        rw [hlock, Option.getD_none, List.append_nil] at hwhole
        rw [hlines, hflat, hwhole]
      · show s.flushed ≤ (s.accepted ++ [p]).length
        rw [List.length_append]
        exact Nat.le_trans h.flushed_le (Nat.le_add_right ..)
      · show ((Link.acceptedLines { s with accepted := s.accepted ++ [p] }).take s.flushed).flatten <+: _
        rw [hlines, List.take_append_of_le_length hlength]
        exact h.flushed
  · exact h

/-- A call that cannot write leaves its line as it is. -/
theorem Link.Carries.refuse (h : s.Carries fl) (hshut : s.shut = true) (sends : List SendResult) :
    Link.Carries fl { s with lock := none, sends := sends } :=
  { h with whole := fun hopen => absurd (hshut.symm.trans hopen).symm Bool.false_ne_true }

theorem Link.Carries.write (h : s.Carries fl) : (s.step .write).Carries fl := by
  unfold Link.step
  dsimp only
  split
  · next b rest hlock =>
      split_ifs with hshut
      · exact h.refuse hshut _
      · have hopen : s.shut = false := Bool.eq_false_iff.mpr hshut
        have hwhole := h.whole hopen
        rw [hlock, Option.getD_some] at hwhole
        have hstream : Link.stream { s with lock := some rest, buffer := s.buffer ++ [b] } = s.stream ++ [b] :=
          (List.append_assoc ..).symm
        have hnext : Link.stream { s with lock := some rest, buffer := s.buffer ++ [b] } ++ rest
            = s.acceptedLines.flatten := by
          rw [hstream, List.append_assoc]
          exact hwhole
        exact { h with
          stream := ⟨rest, hnext⟩
          whole := fun _ => hnext
          shut := fun hshut' => absurd hshut' hshut }
  · exact h

/-- Bytes that only move on. -/
theorem Link.Carries.moved (h : s.Carries fl) {stream : List Nat} (hstream : stream = s.stream) :
    stream <+: s.acceptedLines.flatten ∧ (s.shut = false → stream ++ s.lock.getD [] = s.acceptedLines.flatten) := by
  rw [hstream]
  exact ⟨h.stream, h.whole⟩

theorem Link.Carries.drain (h : s.Carries fl) : (s.step .drain).Carries fl := by
  unfold Link.step
  dsimp only
  split
  · next b rest hbuffer =>
      have hopen : s.shut ≠ true := fun hshut => by
        have hnil := h.shut hshut
        rw [hbuffer] at hnil
        cases hnil
      have hstream : Link.stream { s with buffer := rest, pipe := s.pipe ++ [b] } = s.stream := by
        show s.lines.flatten ++ s.begun ++ (s.pipe ++ [b]) ++ rest = s.lines.flatten ++ s.begun ++ s.pipe ++ s.buffer
        rw [hbuffer]
        simp only [List.append_assoc, List.singleton_append]
      obtain ⟨hbegins, hwhole⟩ := h.moved hstream
      refine ⟨h.waiting, h.accepted, hbegins, hwhole, fun hshut => absurd hshut hopen, h.flushed_le, ?_, ?_, ?_⟩
      · refine h.flushed.trans ?_
        show s.lines.flatten ++ s.begun ++ s.pipe <+: s.lines.flatten ++ s.begun ++ (s.pipe ++ [b])
        rw [← List.append_assoc]
        exact List.prefix_append ..
      · obtain ⟨whole, hwhole, hrest | ⟨cut, -, -, -, -, -, hshut⟩⟩ := h.framed
        · exact ⟨whole, hwhole, .inl hrest⟩
        · exact absurd hshut hopen
      · exact fun hpumping hfailed => absurd (h.ended hpumping hfailed).2.2 hopen
  · exact h

/-- After a flush the whole of every accepted line is in the pipe or read. -/
theorem Link.Carries.flush (h : s.Carries fl) : (s.step .flush).Carries fl := by
  unfold Link.step
  dsimp only
  split
  · next hlock =>
      split_ifs with hshut hbuffer
      · exact h.refuse hshut _
      · have hwhole := h.whole (Bool.eq_false_iff.mpr hshut)
        unfold Link.stream at hwhole
        rw [hlock, Option.getD_some, List.append_nil, hbuffer, List.append_nil] at hwhole
        refine { h with
          whole := fun _ => ?_
          flushed_le := Nat.le_refl _
          flushed := ?_ }
        · show s.lines.flatten ++ s.begun ++ s.pipe ++ s.buffer ++ [] = s.acceptedLines.flatten
          rw [hbuffer, List.append_nil, List.append_nil]
          exact hwhole
        · show (s.acceptedLines.take s.accepted.length).flatten <+: s.lines.flatten ++ s.begun ++ s.pipe
          have hall : s.acceptedLines.take s.accepted.length = s.acceptedLines := by
            rw [← List.length_map Prod.snd]
            exact List.take_length
          refine ⟨[], ?_⟩
          rw [List.append_nil, hwhole, hall]
      · exact h
  · exact h

/-- The sending end goes away; what is in the buffer may be lost. -/
theorem Link.Carries.leave (h : s.Carries fl) : Link.Carries fl { s with shut := true, buffer := [] } where
  waiting := h.waiting
  accepted := h.accepted
  stream := by
    show s.lines.flatten ++ s.begun ++ s.pipe ++ [] <+: s.acceptedLines.flatten
    rw [List.append_nil]
    exact (List.prefix_append ..).trans h.stream
  whole := fun hopen => absurd hopen.symm Bool.false_ne_true
  shut := fun _ => rfl
  flushed_le := h.flushed_le
  flushed := h.flushed
  framed := by
    obtain ⟨whole, hwhole, hrest | ⟨cut, hlines, hne, hcut, hbegun, hpipe, -⟩⟩ := h.framed
    · exact ⟨whole, hwhole, .inl hrest⟩
    · exact ⟨whole, hwhole, .inr ⟨cut, hlines, hne, hcut, hbegun, hpipe, rfl⟩⟩
  ended := fun hpumping hfailed =>
    have h' := h.ended hpumping hfailed
    ⟨h'.1, h'.2.1, rfl⟩

theorem Link.Carries.pump (h : s.Carries fl) : (s.step .pump).Carries fl := by
  unfold Link.step
  dsimp only
  split
  · next b rest hpumping hpipe =>
      have hdone : s.pumping ≠ false := fun hstopped => Bool.false_ne_true (hstopped.symm.trans hpumping)
      obtain ⟨whole, hwhole, ⟨hlines, hbegun⟩ | ⟨cut, -, -, -, -, hpipe', -⟩⟩ := h.framed
      · split_ifs with hb
        · -- the line is whole
          have hput := lines_put s (s.begun ++ [b]) [] rest
          have hstream : Link.stream { s with pipe := rest, begun := [], queue := s.queue ++ [.line (s.begun ++ [b])] }
              = s.stream := by
            unfold Link.stream
            rw [hput, hpipe]
            simp
          have hread : s.lines.flatten ++ s.begun ++ s.pipe = (s.lines ++ [s.begun ++ [b]]).flatten ++ [] ++ rest := by
            rw [hpipe]
            simp
          obtain ⟨hbegins, hwhole'⟩ := h.moved hstream
          refine ⟨h.waiting, h.accepted, hbegins, hwhole', h.shut, h.flushed_le, ?_, ?_,
            fun hstopped => absurd hstopped hdone⟩
          · rw [hput]
            exact hread ▸ h.flushed
          · refine ⟨whole ++ [s.begun ++ [b]], fun line hline => ?_, .inl ⟨?_, List.not_mem_nil⟩⟩
            · rcases List.mem_append.mp hline with hline | hline
              · exact hwhole line hline
              · rw [List.mem_singleton.mp hline, hb]
                exact ⟨s.begun, rfl, hbegun⟩
            · rw [hput, hlines]
        · have hstream : Link.stream { s with pipe := rest, begun := s.begun ++ [b] } = s.stream := by
            show s.lines.flatten ++ (s.begun ++ [b]) ++ rest ++ s.buffer = s.lines.flatten ++ s.begun ++ s.pipe ++ s.buffer
            rw [hpipe]
            simp
          have hread : s.lines.flatten ++ s.begun ++ s.pipe = s.lines.flatten ++ (s.begun ++ [b]) ++ rest := by
            rw [hpipe]
            simp
          have hnot : 10 ∉ s.begun ++ [b] := by
            intro hmem
            rcases List.mem_append.mp hmem with hmem | hmem
            · exact hbegun hmem
            · exact hb (List.mem_singleton.mp hmem).symm
          obtain ⟨hbegins, hwhole'⟩ := h.moved hstream
          exact ⟨h.waiting, h.accepted, hbegins, hwhole', h.shut, h.flushed_le, hread ▸ h.flushed,
            ⟨whole, hwhole, .inl ⟨hlines, hnot⟩⟩, fun hstopped => absurd hstopped hdone⟩
      · rw [hpipe] at hpipe'
        cases hpipe'
  · exact h

theorem Link.Carries.pumpEnd (h : s.Carries fl) : (s.step .pumpEnd).Carries fl := by
  unfold Link.step
  dsimp only
  split_ifs with hend hbegun
  · obtain ⟨-, hshut, hpipe⟩ := hend
    refine h.same ?_ fun _ _ => ⟨hbegun, hpipe, hshut⟩
    rw [List.filterMap_append]
    exact congrArg (s.received.filterMap Received.line? ++ ·) (List.append_nil _)
  · -- the beginning of a line is all that comes
    obtain ⟨hpumping, hshut, hpipe⟩ := hend
    have hput := lines_put s s.begun [] s.pipe
    have hstream : Link.stream { s with begun := [], queue := s.queue ++ [.line s.begun] } = s.stream := by
      unfold Link.stream
      rw [hput]
      simp
    have hread : s.lines.flatten ++ s.begun ++ s.pipe = (s.lines ++ [s.begun]).flatten ++ [] ++ s.pipe := by simp
    obtain ⟨hbegins, hwhole⟩ := h.moved hstream
    refine ⟨h.waiting, h.accepted, hbegins, hwhole, h.shut, h.flushed_le, ?_, ?_,
      fun hstopped => absurd (hstopped.symm.trans hpumping) Bool.false_ne_true⟩
    · rw [hput]
      exact hread ▸ h.flushed
    · obtain ⟨whole, hwhole, ⟨hlines, hnot⟩ | ⟨cut, -, -, -, hnil, -, -⟩⟩ := h.framed
      · refine ⟨whole, hwhole, .inr ⟨s.begun, ?_, hbegun, hnot, rfl, hpipe, hshut⟩⟩
        rw [hput, hlines]
      · exact absurd hnil hbegun
  · exact h

theorem Link.Carries.take (h : s.Carries fl) :
    (s.step .receive).Carries fl ∧ (s.step .putBack).Carries fl ∧ (s.step .timeout).Carries fl := by
  refine ⟨?_, ?_, ?_⟩
  · unfold Link.step
    dsimp only
    split
    · next bytes rest hqueue =>
        refine h.same ?_ h.ended
        unfold Link.lines
        rw [hqueue, List.filterMap_append, List.append_assoc]
        rfl
    · next detail rest hqueue =>
        refine h.same ?_ h.ended
        unfold Link.lines
        rw [hqueue]
        rfl
    · exact h
  · unfold Link.step
    dsimp only
    split
    · refine h.same ?_ h.ended
      rw [List.filterMap_append, List.filterMap_append]
      show s.received.filterMap Received.line? ++ [] ++ (s.queue.filterMap QueueItem.line? ++ []) = s.lines
      rw [List.append_nil, List.append_nil]
      rfl
    · exact h
  · unfold Link.step
    dsimp only
    split_ifs
    · refine h.same ?_ h.ended
      rw [List.filterMap_append]
      show s.received.filterMap Received.line? ++ [] ++ _ = s.lines
      rw [List.append_nil]
      rfl
    · exact h

/-- Every event keeps the invariant. -/
theorem Link.Carries.step (h : s.Carries fl) (e : LinkEvent) (he : ∀ m, e = .send m → m.WellFormed fl) :
    (s.step e).Carries fl := by
  cases e with
  | send m => exact h.send (he m rfl)
  | acquire i => exact h.acquire i
  | write => exact h.write
  | drain => exact h.drain
  | flush => exact h.flush
  | close => exact h.same rfl h.ended
  | shut =>
      unfold Link.step
      dsimp only
      split_ifs with hbuffer
      · have hleave := h.leave
        rw [← hbuffer] at hleave
        exact hleave
      · exact h
  | die => exact h.leave
  | pump => exact h.pump
  | pumpEnd => exact h.pumpEnd
  | pumpFail detail =>
      unfold Link.step
      dsimp only
      split_ifs
      · refine h.same ?_ fun _ hfailed => absurd hfailed.symm Bool.false_ne_true
        rw [List.filterMap_append]
        exact congrArg (s.received.filterMap Received.line? ++ ·) (List.append_nil _)
      · exact h
  | receive => exact h.take.1
  | putBack => exact h.take.2.1
  | timeout => exact h.take.2.2

/-- What was put into the queue is read as the messages. -/
theorem Link.Carries.delivered (h : s.Carries fl) : ∃ n, s.Delivered fl n := by
  have hframes : ∀ line ∈ s.acceptedLines, Framing.IsFrame 10 line := fun line hline => by
    obtain ⟨p, hp, rfl⟩ := List.mem_map.mp hline
    exact (h.accepted p hp).frame
  have hlines : s.lines.flatten <+: s.acceptedLines.flatten := by
    refine List.IsPrefix.trans ?_ h.stream
    unfold Link.stream
    rw [List.append_assoc, List.append_assoc]
    exact List.prefix_append ..
  have hdecode : ∀ {n : Nat}, s.acceptedLines.take n = s.lines.take n →
      (s.lines.take n).map (fun line => decode {} fl (.bytes line)) = (s.accepted.take n).map fun p => .ok p.1 := by
    intro n hn
    rw [← hn, Link.acceptedLines, ← List.map_take, List.map_map]
    exact List.map_congr_left fun p hp => (h.accepted p (List.mem_of_mem_take hp)).decode
  have hflushed_length : (s.acceptedLines.take s.flushed).length = s.flushed := by
    rw [List.length_take, Link.acceptedLines, List.length_map]
    exact Nat.min_eq_left h.flushed_le
  have hflushed_frames : ∀ line ∈ s.acceptedLines.take s.flushed, Framing.IsFrame 10 line :=
    fun line hline => hframes line (List.mem_of_mem_take hline)
  obtain ⟨whole, hwhole, ⟨rfl, hbegun⟩ | ⟨cut, hcut, hne, hnot, hnil, hpipe, hshut⟩⟩ := h.framed
  · have hprefix := Framing.prefix_of_flatten_flatten hwhole hframes hlines
    have htake : s.acceptedLines.take s.lines.length = s.lines.take s.lines.length := by
      rw [List.take_length]
      exact (List.prefix_iff_eq_take.mp hprefix).symm
    refine ⟨s.lines.length, Nat.le_refl _, hdecode htake, .inl List.drop_length, fun hstopped hfailed => ?_⟩
    obtain ⟨hnil, hpipe, -⟩ := h.ended hstopped hfailed
    have hflushed := h.flushed
    rw [hnil, hpipe, List.append_nil, List.append_nil] at hflushed
    have hle := (Framing.prefix_of_flatten_flatten hflushed_frames hwhole hflushed).length_le
    rw [hflushed_length] at hle
    exact hle
  · -- the last line is the beginning of the one that is next
    have hflat : s.lines.flatten = whole.flatten ++ cut := by
      rw [hcut, List.flatten_append, List.flatten_cons, List.flatten_nil, List.append_nil]
    have hprefix : whole <+: s.acceptedLines := by
      refine Framing.prefix_of_flatten_flatten hwhole hframes (List.IsPrefix.trans ?_ hlines)
      rw [hflat]
      exact List.prefix_append ..
    obtain ⟨later, hlater⟩ := hprefix
    have hbegins : cut <+: later.flatten := by
      rw [hflat, ← hlater, List.flatten_append] at hlines
      exact (List.prefix_append_right_inj _).mp hlines
    obtain ⟨f, fs, more, rfl, hmore, hf⟩ := Framing.begun_of_flatten
      (fun f hf => hframes f (hlater ▸ List.mem_append_right _ hf)) hnot hne hbegins
    have htake : s.acceptedLines.take whole.length = s.lines.take whole.length := by
      rw [← hlater, hcut, List.take_left, List.take_left]
    have hnext : s.acceptedLines[whole.length]? = some f := by
      rw [← hlater, List.getElem?_append_right (Nat.le_refl _), Nat.sub_self]
      rfl
    obtain ⟨p, hp, hpf⟩ : ∃ p, s.accepted[whole.length]? = some p ∧ p.2 = f := by
      rw [Link.acceptedLines, List.getElem?_map] at hnext
      exact Option.map_eq_some_iff.mp hnext
    have hdrop : s.lines.drop whole.length = [cut] := by rw [hcut, List.drop_left]
    refine ⟨whole.length, ?_, hdecode htake, .inr ⟨p, cut, more, hp, hmore, hshut, hdrop, hpf.trans hf⟩, fun _ _ => ?_⟩
    · rw [hcut, List.length_append]
      exact Nat.le_add_right ..
    · have hflushed := h.flushed
      rw [hnil, hpipe, List.append_nil, List.append_nil, hflat] at hflushed
      have hle := (Framing.prefix_of_flatten hflushed_frames hwhole hnot hflushed).length_le
      rw [hflushed_length] at hle
      exact hle

/-- Whatever is sent and received, by however many threads and in whatever order, and
    whenever the sending end goes away: what is decoded is the messages in the order of
    the lock, each once, and at the end of the stream none is missing whose `send` has
    returned. -/
theorem stdio_delivers (es : List LinkEvent) (h : ∀ m, LinkEvent.send m ∈ es → m.WellFormed fl) :
    ∃ n, (run Link.step {} es).Delivered fl n := by
  have hmeets : Meets Link.step (fun _ e => ∀ m, e = .send m → m.WellFormed fl) {} es :=
    meets_of_forall (C := fun e => ∀ m, e = LinkEvent.send m → m.WellFormed fl)
      (fun e he m hm => h m (by rw [← hm]; exact he)) ({} : Link)
  exact (hmeets.keeps (fun s e hs he => hs.step e he) Link.Carries.start).delivered

/-- A notification whose sender is killed when the line is not yet read. -/
def cutShort : List LinkEvent :=
  [.send (.notification { method := py "ping" }), .acquire 0, .write, .write, .drain, .pump, .die, .drain,
    .pumpEnd, .receive]

theorem stdio_delivers_cutShort : (run Link.step {} cutShort).lines = [[123]] ∧
    ∃ n, (run Link.step {} cutShort).Delivered (fun _ => py "1.5") n := by
  refine ⟨by decide, stdio_delivers cutShort fun m hm => ?_⟩
  simp only [cutShort, List.mem_cons, List.not_mem_nil, or_false, reduceCtorEq] at hm
  obtain rfl := LinkEvent.send.inj hm
  exact ⟨by decide, trivial⟩

-- ============================================================================
-- The end of the stream
-- ============================================================================

/-- The invariant of the end of the stream: there is one, behind all lines, in the queue
    or in the hands of a `receive`. -/
structure Link.Tells (s : Link) : Prop where
  reading : s.pumping = true → s.holding = [] ∧ (∃ front : List (List Nat), s.queue = front.map .line) ∧
    ∀ detail, Received.streamEnd detail ∉ s.received
  ended : s.pumping = false →
    (s.holding = [] ∧ ∃ (front : List (List Nat)) (detail : PyStr), s.queue = front.map .line ++ [.streamEnd detail]) ∨
      (s.queue = [] ∧ ∃ detail, s.holding = [detail])
  told : ∀ detail, Received.streamEnd detail ∈ s.received → ∀ bytes, QueueItem.line bytes ∉ s.queue
  order : s.received.Pairwise fun earlier later => ∀ detail bytes, earlier = .streamEnd detail → later ≠ .line bytes

theorem Link.Tells.start : Link.Tells {} where
  reading := fun _ => ⟨rfl, ⟨[], rfl⟩, fun _ => List.not_mem_nil⟩
  ended := fun h => absurd h.symm Bool.false_ne_true
  told := fun _ _ _ => List.not_mem_nil
  order := List.Pairwise.nil

/-- What only the pump and the receivers change. -/
def Link.view (s : Link) : Bool × List PyStr × List QueueItem × List Received :=
  (s.pumping, s.holding, s.queue, s.received)

theorem Link.Tells.same {s' : Link} (h : s.Tells) (heq : s'.view = s.view) : s'.Tells := by
  obtain ⟨hpumping, heq⟩ := Prod.mk.inj heq
  obtain ⟨hholding, heq⟩ := Prod.mk.inj heq
  obtain ⟨hqueue, hreceived⟩ := Prod.mk.inj heq
  obtain ⟨hreading, hended, htold, horder⟩ := h
  rw [← hpumping, ← hholding, ← hqueue, ← hreceived] at hreading
  rw [← hpumping, ← hholding, ← hqueue] at hended
  rw [← hqueue, ← hreceived] at htold
  rw [← hreceived] at horder
  exact ⟨hreading, hended, htold, horder⟩

/-- The sending end does not touch what the receivers see. -/
theorem view_send (s : Link) : (∀ m, (s.step (.send m)).view = s.view) ∧ (∀ i, (s.step (.acquire i)).view = s.view) ∧
    (s.step .write).view = s.view ∧ (s.step .drain).view = s.view ∧ (s.step .flush).view = s.view ∧
      (s.step .shut).view = s.view := by
  refine ⟨fun m => ?_, fun i => ?_, ?_, ?_, ?_, ?_⟩
  all_goals
    unfold Link.step
    dsimp only
    repeat' split
    all_goals rfl

theorem Link.Tells.put (h : s.Tells) (hpumping : s.pumping = true) (bytes begun pipe : List Nat) :
    Link.Tells { s with pipe := pipe, begun := begun, queue := s.queue ++ [.line bytes] } := by
  obtain ⟨hholding, ⟨front, hfront⟩, hnone⟩ := h.reading hpumping
  refine ⟨fun _ => ⟨hholding, ⟨front ++ [bytes], ?_⟩, hnone⟩, fun hstopped => ?_, fun detail hmem => ?_, h.order⟩
  · show s.queue ++ [.line bytes] = (front ++ [bytes]).map .line
    rw [hfront, List.map_append]
    rfl
  · exact absurd (hstopped.symm.trans hpumping) Bool.false_ne_true
  · exact absurd hmem (hnone detail)

theorem Link.Tells.finish (h : s.Tells) (hpumping : s.pumping = true) (failed : Bool) (detail : PyStr) :
    Link.Tells { s with pumping := false, failed := failed, queue := s.queue ++ [.streamEnd detail] } := by
  obtain ⟨hholding, ⟨front, hfront⟩, hnone⟩ := h.reading hpumping
  refine ⟨fun hgoing => absurd hgoing Bool.false_ne_true, fun _ => .inl ⟨hholding, front, detail, ?_⟩,
    fun detail hmem => absurd hmem (hnone detail), h.order⟩
  show s.queue ++ [.streamEnd detail] = front.map .line ++ [.streamEnd detail]
  rw [hfront]

theorem Link.Tells.pump (h : s.Tells) : (s.step .pump).Tells := by
  unfold Link.step
  dsimp only
  split
  · next b rest hpumping hpipe =>
      split_ifs
      · exact h.put hpumping _ _ _
      · exact h.same rfl
  · exact h

theorem Link.Tells.pumpEnd (h : s.Tells) : (s.step .pumpEnd).Tells := by
  unfold Link.step
  dsimp only
  split_ifs with hend
  · exact h.finish hend.1 s.failed _
  · exact h.put hend.1 _ _ s.pipe
  · exact h

theorem Link.Tells.pumpFail (h : s.Tells) (detail : PyStr) : (s.step (.pumpFail detail)).Tells := by
  unfold Link.step
  dsimp only
  split_ifs with hpumping
  · exact h.finish hpumping true _
  · exact h

/-- An end is got or a line; after an end there is no line to get. -/
theorem Link.Tells.receive (h : s.Tells) : (s.step .receive).Tells := by
  unfold Link.step
  dsimp only
  split
  · next bytes rest hqueue =>
      have hfirst : QueueItem.line bytes ∈ s.queue := hqueue ▸ List.mem_cons_self
      have hnone : ∀ detail, Received.streamEnd detail ∉ s.received := fun detail hmem => h.told detail hmem bytes hfirst
      have hnone' : ∀ detail, Received.streamEnd detail ∉ s.received ++ [.line bytes] := fun detail hmem => by
        rcases List.mem_append.mp hmem with hmem | hmem
        · exact hnone detail hmem
        · cases List.mem_singleton.mp hmem
      refine ⟨fun hpumping => ?_, fun hstopped => ?_, fun detail hmem => absurd hmem (hnone' detail), ?_⟩
      · obtain ⟨hholding, ⟨front, hfront⟩, -⟩ := h.reading hpumping
        rw [hqueue] at hfront
        cases front with
        | nil => cases hfront
        | cons line front => exact ⟨hholding, ⟨front, (List.cons.inj hfront).2⟩, hnone'⟩
      · obtain ⟨hholding, front, detail, hfront⟩ | ⟨hnil, -⟩ := h.ended hstopped
        · rw [hqueue] at hfront
          cases front with
          | nil => cases (List.cons.inj hfront).1
          | cons line front => exact .inl ⟨hholding, front, detail, (List.cons.inj hfront).2⟩
        · rw [hqueue] at hnil
          cases hnil
      · refine List.pairwise_append.mpr ⟨h.order, List.pairwise_singleton .., fun earlier hearlier _ _ detail _ heq => ?_⟩
        exact absurd (heq ▸ hearlier) (hnone detail)
  · next detail rest hqueue =>
      have hsub : ∀ {item}, item ∈ rest → item ∈ s.queue := fun hitem => hqueue ▸ List.mem_cons_of_mem _ hitem
      refine ⟨fun hpumping => ?_, fun hstopped => ?_, fun detail hmem bytes hline => h.told detail hmem bytes (hsub hline),
        h.order⟩
      · obtain ⟨-, ⟨front, hfront⟩, -⟩ := h.reading hpumping
        rw [hqueue] at hfront
        cases front with
        | nil => cases hfront
        | cons line front => cases (List.cons.inj hfront).1
      · obtain ⟨hholding, front, detail', hfront⟩ | ⟨hnil, -⟩ := h.ended hstopped
        · rw [hqueue] at hfront
          cases front with
          | nil =>
              refine .inr ⟨(List.cons.inj hfront).2, detail, ?_⟩
              show s.holding ++ [detail] = [detail]
              rw [hholding]
              rfl
          | cons line front => cases (List.cons.inj hfront).1
        · rw [hqueue] at hnil
          cases hnil
  · exact h

theorem Link.Tells.putBack (h : s.Tells) : (s.step .putBack).Tells := by
  unfold Link.step
  dsimp only
  split
  · next detail rest hholding =>
      have hstopped : s.pumping = false := by
        cases hpumping : s.pumping with
        | false => rfl
        | true =>
            have hnil := (h.reading hpumping).1
            rw [hholding] at hnil
            cases hnil
      obtain ⟨hnil, -⟩ | ⟨hqueue, detail', hone⟩ := h.ended hstopped
      · rw [hholding] at hnil
        cases hnil
      · rw [hholding] at hone
        obtain ⟨rfl, rfl⟩ := List.cons.inj hone
        refine ⟨fun hgoing => absurd (hstopped.symm.trans hgoing) Bool.false_ne_true,
          fun _ => .inl ⟨rfl, [], detail, ?_⟩, fun _ _ bytes hline => ?_, ?_⟩
        · show s.queue ++ [.streamEnd detail] = [.streamEnd detail]
          rw [hqueue]
          rfl
        · rcases List.mem_append.mp hline with hline | hline
          · rw [hqueue] at hline
            exact List.not_mem_nil hline
          · cases List.mem_singleton.mp hline
        · refine List.pairwise_append.mpr ⟨h.order, List.pairwise_singleton .., fun _ _ later hlater _ bytes _ heq => ?_⟩
          rw [List.mem_singleton.mp hlater] at heq
          cases heq
  · exact h

theorem Link.Tells.timeout (h : s.Tells) : (s.step .timeout).Tells := by
  unfold Link.step
  dsimp only
  split_ifs with hqueue
  · have hsub : ∀ {detail}, Received.streamEnd detail ∈ s.received ++ [.timedOut] → .streamEnd detail ∈ s.received :=
      fun hmem => by
        rcases List.mem_append.mp hmem with hmem | hmem
        · exact hmem
        · cases List.mem_singleton.mp hmem
    refine ⟨fun hpumping => ?_, h.ended, fun detail hmem => h.told detail (hsub hmem), ?_⟩
    · obtain ⟨hholding, hfront, hnone⟩ := h.reading hpumping
      exact ⟨hholding, hfront, fun detail hmem => hnone detail (hsub hmem)⟩
    · refine List.pairwise_append.mpr ⟨h.order, List.pairwise_singleton .., fun _ _ later hlater _ bytes _ heq => ?_⟩
      rw [List.mem_singleton.mp hlater] at heq
      cases heq
  · exact h

theorem Link.Tells.step (h : s.Tells) (e : LinkEvent) : (s.step e).Tells := by
  obtain ⟨hsend, hacquire, hwrite, hdrain, hflush, hshut⟩ := view_send s
  cases e with
  | send m => exact h.same (hsend m)
  | acquire i => exact h.same (hacquire i)
  | write => exact h.same hwrite
  | drain => exact h.same hdrain
  | flush => exact h.same hflush
  | close => exact h.same rfl
  | shut => exact h.same hshut
  | die => exact h.same rfl
  | pump => exact h.pump
  | pumpEnd => exact h.pumpEnd
  | pumpFail detail => exact h.pumpFail detail
  | receive => exact h.receive
  | putBack => exact h.putBack
  | timeout => exact h.timeout

end Mcp
end KineticSdk
