/-
  KineticSdk.Mcp.Sse

  The event stream of `SSETransport` (`_read_event` and `receive` of
  `mcp/transport.py`), against the rules for server-sent events.

  Both read the lines of a stream block by block, a block ending at a blank
  line.  They differ in what a block without data leaves behind: by the rules
  nothing, while `_read_event` keeps the event type for the block after it.
  They also differ in the spaces in front of a value, of which the rules take
  away one, and in an empty event type.
-/

import KineticSdk.Py.Str

namespace KineticSdk
namespace Mcp

open Py

-- ============================================================================
-- Lines
-- ============================================================================

/-- A line of a stream: its text has no line end in it, and one behind it. -/
structure StreamLine where
  text : PyStr
  crlf : Bool := false
  noEnd : 10 ∉ text ∧ 13 ∉ text := by decide

/-- What `readline` returns, decoded. -/
def StreamLine.raw (l : StreamLine) : PyStr := l.text ++ if l.crlf then [13, 10] else [10]

/-- `line.partition(":")`, without the separator. -/
def partitionColon (line : PyStr) : PyStr × PyStr :=
  (line.takeWhile (· != 58), (line.dropWhile (· != 58)).drop 1)

/-- `value.lstrip(" ")`. -/
def lstripSpaces (value : PyStr) : PyStr := value.dropWhile (· == 32)

/-- An event: its type and its data. -/
abbrev SseEvent := PyStr × PyStr

-- ============================================================================
-- _read_event and receive
-- ============================================================================

/-- The loop of `_read_event`, with the event type and the data so far; `none` when the
    stream ends first. -/
def readLoop (event : PyStr) (dataLines : List PyStr) : List StreamLine → Option (SseEvent × List StreamLine)
  | [] => none
  | raw :: lines =>
      let line := rstripWhile (fun c => c == 13 || c == 10) raw.raw
      if line = [] then
        if dataLines ≠ [] then some ((event, join (py "\n") dataLines), lines)
        else readLoop event dataLines lines
      else if startsWith (py ":") line then readLoop event dataLines lines
      else
        let value := lstripSpaces (partitionColon line).2
        if (partitionColon line).1 = py "event" then readLoop value dataLines lines
        else if (partitionColon line).1 = py "data" then readLoop event (dataLines ++ [value]) lines
        else readLoop event dataLines lines

/-- `_read_event`. -/
def readEvent (lines : List StreamLine) : Option (SseEvent × List StreamLine) :=
  readLoop (py "message") [] lines

/-- At most `n` calls of `_read_event`, until the stream ends. -/
def readEvents : Nat → List StreamLine → List SseEvent
  | 0, _ => []
  | n + 1, lines =>
      match readEvent lines with
      | none => []
      | some (event, rest) => event :: readEvents n rest

/-- What repeated calls of `_read_event` return; every call reads a line at least. -/
def allEvents (lines : List StreamLine) : List SseEvent := readEvents lines.length lines

/-- The stream of a transport and the address messages are posted to. -/
structure SseStream where
  lines : List StreamLine
  postUrl : PyStr

/-- The loop of `receive`: the data of the next message event.  An announced endpoint is
    adopted, joined to the URL of the stream, and other events are passed over. -/
def receive (urljoin : PyStr → PyStr) : Nat → SseStream → Option (PyStr × SseStream)
  | 0, _ => none
  | n + 1, s =>
      match readEvent s.lines with
      | none => none
      | some ((event, data), rest) =>
          if event = py "endpoint" then receive urljoin n { lines := rest, postUrl := urljoin data }
          else if event ≠ py "message" then receive urljoin n { s with lines := rest }
          else some (data, { s with lines := rest })

/-- What repeated calls of `receive` hand to `decode`. -/
def received (urljoin : PyStr → PyStr) : Nat → SseStream → List PyStr
  | 0, _ => []
  | n + 1, s =>
      match receive urljoin s.lines.length s with
      | none => []
      | some (data, s') => data :: received urljoin n s'

-- ============================================================================
-- The rules
-- ============================================================================

/-- A value without the one space in front of it. -/
def removeSpace : PyStr → PyStr
  | 32 :: value => value
  | value => value

/-- The type of an event whose event type buffer holds this. -/
def typeOfBuffer (buffer : PyStr) : PyStr := if buffer = [] then py "message" else buffer

/-- The events that the rules for server-sent events dispatch, with the event type buffer and
    the data lines so far.  What no blank line ends is dropped. -/
def dispatch (eventType : PyStr) (data : List PyStr) : List StreamLine → List SseEvent
  | [] => []
  | l :: lines =>
      if l.text = [] then
        if data = [] then dispatch [] [] lines
        else (typeOfBuffer eventType, join (py "\n") data) :: dispatch [] [] lines
      else if l.text.head? = some 58 then dispatch eventType data lines
      else
        let value := removeSpace (partitionColon l.text).2
        if (partitionColon l.text).1 = py "event" then dispatch value data lines
        else if (partitionColon l.text).1 = py "data" then dispatch eventType (data ++ [value]) lines
        else dispatch eventType data lines

/-- The data of the message events. -/
def messageData (events : List SseEvent) : List PyStr :=
  events.filterMap fun e => if e.1 = py "message" then some e.2 else none

-- ============================================================================
-- Blocks
-- ============================================================================

/-- The values of the event lines and of the data lines of a block, as they stand behind
    the colon. -/
structure Block where
  events : List PyStr := []
  data : List PyStr := []

/-- A line of a block. -/
def Block.add (b : Block) (line : PyStr) : Block :=
  if line.head? = some 58 then b
  else if (partitionColon line).1 = py "event" then
    { b with events := b.events ++ [(partitionColon line).2] }
  else if (partitionColon line).1 = py "data" then
    { b with data := b.data ++ [(partitionColon line).2] }
  else b

/-- The complete blocks of a stream, of which the first has begun. -/
def blocksFrom (b : Block) : List StreamLine → List Block
  | [] => []
  | l :: lines => if l.text = [] then b :: blocksFrom {} lines else blocksFrom (b.add l.text) lines

/-- The last event value of a block, or what the blocks before it have left. -/
def Block.last (left : Option PyStr) (b : Block) : Option PyStr := b.events.getLast?.or left

/-- What `_read_event` makes of blocks; `left` is the event value that blocks without data
    have left. -/
def readBlocks (left : Option PyStr) : List Block → List SseEvent
  | [] => []
  | b :: bs =>
      if b.data = [] then readBlocks (b.last left) bs
      else (((b.last left).map lstripSpaces).getD (py "message"), join (py "\n") (b.data.map lstripSpaces))
        :: readBlocks none bs

/-- What the rules make of blocks. -/
def ruleBlocks : List Block → List SseEvent
  | [] => []
  | b :: bs =>
      if b.data = [] then ruleBlocks bs
      else (typeOfBuffer (((b.last none).map removeSpace).getD []), join (py "\n") (b.data.map removeSpace))
        :: ruleBlocks bs

theorem rstrip_raw (l : StreamLine) : rstripWhile (fun c => c == 13 || c == 10) l.raw = l.text := by
  have hkeep : l.text.reverse.dropWhile (fun c => c == 13 || c == 10) = l.text.reverse := by
    cases hrev : l.text.reverse with
    | nil => rfl
    | cons c cs =>
        have hmem : c ∈ l.text := by
          rw [← List.mem_reverse, hrev]
          exact List.mem_cons_self ..
        have hneither : (c == 13 || c == 10) = false := by
          rw [Bool.or_eq_false_iff, beq_eq_false_iff_ne, beq_eq_false_iff_ne]
          exact ⟨fun heq => l.noEnd.2 (heq ▸ hmem), fun heq => l.noEnd.1 (heq ▸ hmem)⟩
        rw [List.dropWhile_cons, hneither]
        rfl
  unfold rstripWhile StreamLine.raw
  cases l.crlf with
  | false =>
      rw [if_neg Bool.false_ne_true, List.reverse_append]
      show (l.text.reverse.dropWhile _).reverse = l.text
      rw [hkeep, List.reverse_reverse]
  | true =>
      rw [if_pos rfl, List.reverse_append]
      show (l.text.reverse.dropWhile _).reverse = l.text
      rw [hkeep, List.reverse_reverse]

theorem startsWith_colon (line : PyStr) : startsWith (py ":") line = true ↔ line.head? = some 58 := by
  cases line with
  | nil => decide
  | cons c cs =>
      show (58 == c && true) = true ↔ some c = some 58
      rw [Bool.and_true, beq_iff_eq, Option.some.injEq, eq_comm]

theorem Block.last_add_event (left : Option PyStr) {b : Block} {line : PyStr} (hcolon : line.head? ≠ some 58)
    (hevent : (partitionColon line).1 = py "event") :
    (b.add line).last left = some (partitionColon line).2 ∧ (b.add line).data = b.data := by
  unfold Block.add
  rw [if_neg hcolon, if_pos hevent]
  refine ⟨?_, rfl⟩
  show (b.events ++ [_]).getLast?.or left = _
  rw [List.getLast?_concat]
  rfl

theorem Block.last_add_data (left : Option PyStr) {b : Block} {line : PyStr} (hcolon : line.head? ≠ some 58)
    (hdata : (partitionColon line).1 = py "data") :
    (b.add line).last left = b.last left ∧ (b.add line).data = b.data ++ [(partitionColon line).2] := by
  have hevent : (partitionColon line).1 ≠ py "event" := by
    rw [hdata]
    decide
  unfold Block.add
  rw [if_neg hcolon, if_neg hevent, if_pos hdata]
  exact ⟨rfl, rfl⟩

theorem Block.add_other {b : Block} {line : PyStr}
    (h : line.head? = some 58 ∨
      ((partitionColon line).1 ≠ py "event" ∧ (partitionColon line).1 ≠ py "data")) : b.add line = b := by
  unfold Block.add
  rcases h with h | ⟨hevent, hdata⟩
  · rw [if_pos h]
  · rw [if_neg hevent, if_neg hdata, ite_self]

/-- The event type with which `_read_event` goes on. -/
def typeOf (last : Option PyStr) : PyStr := (last.map lstripSpaces).getD (py "message")

/-- One call reads up to the end of the first block with data, or the stream ends before. -/
theorem readLoop_blocks (lines : List StreamLine) (left : Option PyStr) (b : Block) :
    (readLoop (typeOf (b.last left)) (b.data.map lstripSpaces) lines = none ∧
        readBlocks left (blocksFrom b lines) = []) ∨
      ∃ event rest, readLoop (typeOf (b.last left)) (b.data.map lstripSpaces) lines = some (event, rest) ∧
        readBlocks left (blocksFrom b lines) = event :: readBlocks none (blocksFrom {} rest) ∧
        rest.length < lines.length := by
  induction lines generalizing left b with
  | nil => exact .inl ⟨rfl, rfl⟩
  | cons l lines ih =>
      -- what a line does to the loop and to the block
      have hnext : ∀ left' b', readLoop (typeOf (b.last left)) (b.data.map lstripSpaces) (l :: lines)
            = readLoop (typeOf (b'.last left')) (b'.data.map lstripSpaces) lines →
          readBlocks left (blocksFrom b (l :: lines)) = readBlocks left' (blocksFrom b' lines) →
          (readLoop (typeOf (b.last left)) (b.data.map lstripSpaces) (l :: lines) = none ∧
              readBlocks left (blocksFrom b (l :: lines)) = []) ∨
            ∃ event rest, readLoop (typeOf (b.last left)) (b.data.map lstripSpaces) (l :: lines)
                = some (event, rest) ∧
              readBlocks left (blocksFrom b (l :: lines)) = event :: readBlocks none (blocksFrom {} rest) ∧
              rest.length < (l :: lines).length := by
        intro left' b' hloop hblocks
        rw [hloop, hblocks]
        rcases ih left' b' with hnone | ⟨event, rest, hread, hrest, hlt⟩
        · exact .inl hnone
        · exact .inr ⟨event, rest, hread, hrest, Nat.lt_succ_of_lt hlt⟩
      have hstep : readLoop (typeOf (b.last left)) (b.data.map lstripSpaces) (l :: lines) =
          if l.text = [] then
            if b.data.map lstripSpaces ≠ [] then
              some ((typeOf (b.last left), join (py "\n") (b.data.map lstripSpaces)), lines)
            else readLoop (typeOf (b.last left)) (b.data.map lstripSpaces) lines
          else if startsWith (py ":") l.text then
            readLoop (typeOf (b.last left)) (b.data.map lstripSpaces) lines
          else if (partitionColon l.text).1 = py "event" then
            readLoop (lstripSpaces (partitionColon l.text).2) (b.data.map lstripSpaces) lines
          else if (partitionColon l.text).1 = py "data" then
            readLoop (typeOf (b.last left)) (b.data.map lstripSpaces ++ [lstripSpaces (partitionColon l.text).2])
              lines
          else readLoop (typeOf (b.last left)) (b.data.map lstripSpaces) lines := by
        rw [readLoop, rstrip_raw]
      by_cases hblank : l.text = []
      · have hblocks : blocksFrom b (l :: lines) = b :: blocksFrom {} lines := by
          rw [blocksFrom, if_pos hblank]
        by_cases hdata : b.data = []
        · refine hnext (b.last left) {} ?_ ?_
          · rw [hstep, if_pos hblank, hdata, if_neg (fun h => h rfl)]
            rfl
          · rw [hblocks, readBlocks, if_pos hdata]
        · refine .inr ⟨(typeOf (b.last left), join (py "\n") (b.data.map lstripSpaces)), lines, ?_, ?_,
            Nat.lt_succ_self _⟩
          · rw [hstep, if_pos hblank, if_pos fun h => hdata (List.map_eq_nil_iff.mp h)]
          · rw [hblocks, readBlocks, if_neg hdata]
            rfl
      · have hblocks : blocksFrom b (l :: lines) = blocksFrom (b.add l.text) lines := by
          rw [blocksFrom, if_neg hblank]
        rw [if_neg hblank] at hstep
        refine hnext left (b.add l.text) ?_ (by rw [hblocks])
        rw [hstep]
        by_cases hcolon : l.text.head? = some 58
        · rw [if_pos ((startsWith_colon l.text).mpr hcolon), Block.add_other (.inl hcolon)]
        · rw [if_neg fun h => hcolon ((startsWith_colon l.text).mp h)]
          by_cases hevent : (partitionColon l.text).1 = py "event"
          · obtain ⟨hlast, hdata⟩ := Block.last_add_event (b := b) left hcolon hevent
            rw [if_pos hevent, hlast, hdata]
            rfl
          · rw [if_neg hevent]
            by_cases hdata : (partitionColon l.text).1 = py "data"
            · obtain ⟨hlast, hmore⟩ := Block.last_add_data (b := b) left hcolon hdata
              rw [if_pos hdata, hlast, hmore, List.map_append]
              rfl
            · rw [if_neg hdata, Block.add_other (.inr ⟨hevent, hdata⟩)]

/-- Repeated calls read the blocks of the stream. -/
theorem readEvents_blocks {n : Nat} {lines : List StreamLine} (hn : lines.length ≤ n) :
    readEvents n lines = readBlocks none (blocksFrom {} lines) := by
  induction n generalizing lines with
  | zero =>
      have hnil : lines = [] := List.length_eq_zero_iff.mp (by omega)
      rw [hnil]
      rfl
  | succ n ih =>
      rcases readLoop_blocks lines none {} with ⟨hread, hblocks⟩ | ⟨event, rest, hread, hblocks, hlt⟩
      · have hnone : readEvent lines = none := hread
        rw [readEvents, hnone, hblocks]
      · have hsome : readEvent lines = some (event, rest) := hread
        rw [readEvents, hsome, hblocks]
        exact congrArg (event :: ·) (ih (by omega))

/-- The event type buffer of the rules. -/
def bufferOf (last : Option PyStr) : PyStr := (last.map removeSpace).getD []

/-- The rules dispatch the blocks of the stream. -/
theorem dispatch_blocks (lines : List StreamLine) (b : Block) :
    dispatch (bufferOf (b.last none)) (b.data.map removeSpace) lines = ruleBlocks (blocksFrom b lines) := by
  induction lines generalizing b with
  | nil => rfl
  | cons l lines ih =>
      rw [dispatch, blocksFrom]
      by_cases hblank : l.text = []
      · rw [if_pos hblank, if_pos hblank, ruleBlocks, ← ih {}]
        by_cases hdata : b.data = []
        · rw [if_pos hdata, hdata, List.map_nil, if_pos rfl]
          rfl
        · rw [if_neg hdata, if_neg fun h => hdata (List.map_eq_nil_iff.mp h)]
          rfl
      · rw [if_neg hblank, if_neg hblank, ← ih]
        by_cases hcolon : l.text.head? = some 58
        · rw [if_pos hcolon, Block.add_other (.inl hcolon)]
        · rw [if_neg hcolon]
          dsimp only
          by_cases hevent : (partitionColon l.text).1 = py "event"
          · obtain ⟨hlast, hdata⟩ := Block.last_add_event (b := b) none hcolon hevent
            rw [if_pos hevent, hlast, hdata]
            rfl
          · rw [if_neg hevent]
            by_cases hdata : (partitionColon l.text).1 = py "data"
            · obtain ⟨hlast, hmore⟩ := Block.last_add_data (b := b) none hcolon hdata
              rw [if_pos hdata, hlast, hmore, List.map_append]
              rfl
            · rw [if_neg hdata, Block.add_other (.inr ⟨hevent, hdata⟩)]

-- ============================================================================
-- Where the two agree
-- ============================================================================

/-- The event type of a block with data is what the rules say: its last event value is not
    empty and has at most one space in front; or it has none, and what the blocks without
    data before it have left is `message` too. -/
def RegularType (left : Option PyStr) (b : Block) : Prop :=
  match b.events.getLast? with
  | some v => removeSpace v ≠ [] ∧ ¬ [32, 32] <+: v
  | none => ∀ v ∈ left, lstripSpaces v = py "message"

/-- Every block with data has such an event type, and no data value with two spaces in front. -/
def Regular : Option PyStr → List Block → Prop
  | _, [] => True
  | left, b :: bs =>
      if b.data = [] then Regular (b.last left) bs
      else (∀ v ∈ b.data, ¬ [32, 32] <+: v) ∧ RegularType left b ∧ Regular none bs

theorem lstrip_cons_space (v : PyStr) : lstripSpaces (32 :: v) = lstripSpaces v := rfl

theorem lstrip_of_head {v : PyStr} (h : v.head? ≠ some 32) : lstripSpaces v = v := by
  cases v with
  | nil => rfl
  | cons c v =>
      have hc : (c == 32) = false := beq_eq_false_iff_ne.mpr fun heq => h (congrArg some heq)
      rw [lstripSpaces, List.dropWhile_cons, hc]
      rfl

theorem removeSpace_of_head {v : PyStr} (h : v.head? ≠ some 32) : removeSpace v = v := by
  unfold removeSpace
  split
  · exact absurd rfl h
  · rfl

theorem lstrip_length (v : PyStr) : (lstripSpaces v).length ≤ v.length :=
  (List.dropWhile_suffix _).length_le

/-- Taking all spaces away is taking one away, up to one space. -/
theorem lstrip_eq_removeSpace_iff (v : PyStr) : lstripSpaces v = removeSpace v ↔ ¬ [32, 32] <+: v := by
  by_cases h : v.head? = some 32
  · obtain ⟨w, rfl⟩ : ∃ w, v = 32 :: w := List.head?_eq_some_iff.mp h
    show lstripSpaces w = w ↔ _
    rw [List.cons_prefix_cons, and_iff_right rfl, List.singleton_prefix_iff_head?_eq_some]
    constructor
    · intro hsame hhead
      obtain ⟨u, rfl⟩ : ∃ u, w = 32 :: u := List.head?_eq_some_iff.mp hhead
      have hlength := lstrip_length u
      rw [lstrip_cons_space] at hsame
      rw [hsame, List.length_cons] at hlength
      omega
    · exact lstrip_of_head
  · rw [lstrip_of_head h, removeSpace_of_head h]
    refine iff_of_true rfl fun hprefix => h ?_
    obtain ⟨w, rfl⟩ := hprefix
    rfl

theorem lstrip_length_removeSpace (v : PyStr) : (lstripSpaces v).length ≤ (removeSpace v).length := by
  by_cases h : v.head? = some 32
  · obtain ⟨w, rfl⟩ : ∃ w, v = 32 :: w := List.head?_eq_some_iff.mp h
    exact lstrip_length w
  · exact Nat.le_of_eq (by rw [lstrip_of_head h, removeSpace_of_head h])

theorem join_cons_cons (sep x y : PyStr) (xs : List PyStr) :
    join sep (x :: y :: xs) = x ++ (sep ++ join sep (y :: xs)) := by
  simp [join, List.intercalate, List.intersperse]

/-- Parts that are never longer give the same joined text only if they are the same. -/
theorem join_map_eq_iff {f g : PyStr → PyStr} (hle : ∀ x, (f x).length ≤ (g x).length) (sep : PyStr)
    (xs : List PyStr) : join sep (xs.map f) = join sep (xs.map g) ↔ ∀ x ∈ xs, f x = g x := by
  have hlength : ∀ xs : List PyStr, (join sep (xs.map f)).length ≤ (join sep (xs.map g)).length := by
    intro xs
    induction xs with
    | nil => exact Nat.le_refl _
    | cons x xs ih =>
        cases xs with
        | nil => simpa [join, List.intercalate] using hle x
        | cons y xs =>
            have hx := hle x
            rw [List.map_cons, List.map_cons] at ih
            rw [List.map_cons, List.map_cons, List.map_cons, List.map_cons, join_cons_cons, join_cons_cons,
              List.length_append, List.length_append, List.length_append, List.length_append]
            omega
  induction xs with
  | nil => exact iff_of_true rfl fun x hx => absurd hx List.not_mem_nil
  | cons x xs ih =>
      cases xs with
      | nil =>
          rw [List.forall_mem_singleton]
          simp [join, List.intercalate]
      | cons y xs =>
          have hrest := hlength (y :: xs)
          have hx := hle x
          rw [List.map_cons, List.map_cons] at hrest ih
          rw [List.forall_mem_cons]
          rw [List.map_cons, List.map_cons, List.map_cons, List.map_cons, join_cons_cons, join_cons_cons]
          constructor
          · intro heq
            have htotal := congrArg List.length heq
            simp only [List.length_append] at htotal
            obtain ⟨hfirst, hothers⟩ := List.append_inj heq (by omega)
            exact ⟨hfirst, ih.mp (List.append_cancel_left hothers)⟩
          · rintro ⟨hfirst, hothers⟩
            rw [hfirst, ih.mpr hothers]

/-- The type that `_read_event` returns is that of the rules. -/
theorem type_eq_iff (left : Option PyStr) (b : Block) :
    typeOf (b.last left) = typeOfBuffer (bufferOf (b.last none)) ↔ RegularType left b := by
  unfold RegularType Block.last
  cases hlast : b.events.getLast? with
  | none =>
      show typeOf left = py "message" ↔ _
      cases left with
      | none => exact iff_of_true rfl fun v hv => absurd hv (Option.not_mem_none v)
      | some v =>
          constructor
          · rintro h w ⟨⟩
            exact h
          · exact fun h => h v rfl
  | some v =>
      show lstripSpaces v = typeOfBuffer (removeSpace v) ↔ removeSpace v ≠ [] ∧ ¬ [32, 32] <+: v
      unfold typeOfBuffer
      by_cases hempty : removeSpace v = []
      · rw [if_pos hempty]
        refine iff_of_false (fun h => ?_) fun h => h.1 hempty
        have hlength := lstrip_length_removeSpace v
        rw [h, hempty] at hlength
        exact absurd hlength (by decide)
      · rw [if_neg hempty, lstrip_eq_removeSpace_iff, and_iff_right hempty]

/-- Blocks are read as the rules have it exactly when they are regular. -/
theorem readBlocks_eq_iff (left : Option PyStr) (bs : List Block) :
    readBlocks left bs = ruleBlocks bs ↔ Regular left bs := by
  induction bs generalizing left with
  | nil => exact iff_of_true rfl trivial
  | cons b bs ih =>
      rw [readBlocks, ruleBlocks, Regular]
      by_cases hdata : b.data = []
      · rw [if_pos hdata, if_pos hdata, if_pos hdata]
        exact ih _
      · rw [if_neg hdata, if_neg hdata, if_neg hdata, List.cons.injEq, Prod.mk.injEq, ih,
          join_map_eq_iff lstrip_length_removeSpace, and_assoc]
        have htype := type_eq_iff left b
        simp only [lstrip_eq_removeSpace_iff]
        exact ⟨fun h => ⟨h.2.1, htype.mp h.1, h.2.2⟩, fun h => ⟨htype.mpr h.2.1, h.1, h.2.2⟩⟩

/-- `receive` hands on the next message event and passes over what comes before it. -/
theorem receive_blocks (urljoin : PyStr → PyStr) {n : Nat} {s : SseStream} (hn : s.lines.length ≤ n) :
    (receive urljoin n s = none ∧ messageData (readBlocks none (blocksFrom {} s.lines)) = []) ∨
      ∃ data s', receive urljoin n s = some (data, s') ∧
        messageData (readBlocks none (blocksFrom {} s.lines))
          = data :: messageData (readBlocks none (blocksFrom {} s'.lines)) ∧
        s'.lines.length < s.lines.length := by
  induction n generalizing s with
  | zero =>
      have hnil : s.lines = [] := List.length_eq_zero_iff.mp (by omega)
      rw [hnil]
      exact .inl ⟨rfl, rfl⟩
  | succ n ih =>
      rcases readLoop_blocks s.lines none {} with ⟨hread, hblocks⟩ | ⟨⟨event, data⟩, rest, hread, hblocks, hlt⟩
      · have hnone : readEvent s.lines = none := hread
        rw [receive, hnone, hblocks]
        exact .inl ⟨rfl, rfl⟩
      · have hsome : readEvent s.lines = some ((event, data), rest) := hread
        rw [receive, hsome, hblocks]
        dsimp only
        -- an event of another type is passed over
        have hpass : ∀ s' : SseStream, s'.lines = rest → event ≠ py "message" →
            (receive urljoin n s' = none ∧
                messageData ((event, data) :: readBlocks none (blocksFrom {} rest)) = []) ∨
              ∃ data' s'', receive urljoin n s' = some (data', s'') ∧
                messageData ((event, data) :: readBlocks none (blocksFrom {} rest))
                  = data' :: messageData (readBlocks none (blocksFrom {} s''.lines)) ∧
                s''.lines.length < s.lines.length := by
          rintro s' rfl hother
          have hskip : messageData ((event, data) :: readBlocks none (blocksFrom {} s'.lines))
              = messageData (readBlocks none (blocksFrom {} s'.lines)) := by
            rw [messageData, List.filterMap_cons, if_neg hother]
            rfl
          rw [hskip]
          rcases ih (s := s') (by omega) with hnone | ⟨data', s'', hreceive, hmore, hshort⟩
          · exact .inl hnone
          · exact .inr ⟨data', s'', hreceive, hmore, by omega⟩
        by_cases hendpoint : event = py "endpoint"
        · rw [if_pos hendpoint]
          refine hpass _ rfl ?_
          rw [hendpoint]
          decide
        · rw [if_neg hendpoint]
          by_cases hmessage : event = py "message"
          · rw [if_neg (fun h => h hmessage)]
            refine .inr ⟨data, _, rfl, ?_, hlt⟩
            rw [messageData, List.filterMap_cons, if_pos hmessage]
            rfl
          · rw [if_pos hmessage]
            exact hpass _ rfl hmessage

/-- Repeated calls of `receive` hand on the message events that `_read_event` returns. -/
theorem received_blocks (urljoin : PyStr → PyStr) {n : Nat} {s : SseStream} (hn : s.lines.length ≤ n) :
    received urljoin n s = messageData (readBlocks none (blocksFrom {} s.lines)) := by
  induction n generalizing s with
  | zero =>
      have hnil : s.lines = [] := List.length_eq_zero_iff.mp (by omega)
      rw [hnil]
      rfl
  | succ n ih =>
      rcases receive_blocks urljoin (Nat.le_refl s.lines.length) with
        ⟨hnone, hblocks⟩ | ⟨data, s', hsome, hblocks, hlt⟩
      · rw [received, hnone, hblocks]
      · rw [received, hsome, hblocks]
        exact congrArg (data :: ·) (ih (by omega))

/-- The events are read by the rules, and every message event is received once, exactly when
    the blocks of the stream are regular. -/
theorem stream_follows_rules_iff (urljoin : PyStr → PyStr) (s : SseStream) :
    (allEvents s.lines = dispatch [] [] s.lines ∧
        received urljoin s.lines.length s = messageData (dispatch [] [] s.lines)) ↔
      Regular none (blocksFrom {} s.lines) := by
  have hrules : dispatch [] [] s.lines = ruleBlocks (blocksFrom {} s.lines) := dispatch_blocks s.lines {}
  rw [allEvents, readEvents_blocks (Nat.le_refl _), received_blocks urljoin (Nat.le_refl _), hrules,
    ← readBlocks_eq_iff]
  exact ⟨fun h => h.1, fun h => ⟨h, congrArg messageData h⟩⟩

/-- An event without data, and a message behind it. -/
def pingThenMessage : List StreamLine :=
  [{ text := py "event: ping" }, { text := [] }, { text := py "data: 1" }, { text := [] }]

/-- The message is read as a `ping`, and is not received. -/
theorem message_after_ping_lost :
    allEvents pingThenMessage = [(py "ping", py "1")] ∧
      dispatch [] [] pingThenMessage = [(py "message", py "1")] ∧
      received (fun data => data) 4 ⟨pingThenMessage, []⟩ = [] := by
  decide +kernel

end Mcp
end KineticSdk
