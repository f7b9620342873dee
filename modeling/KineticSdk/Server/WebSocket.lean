/-
  KineticSdk.Server.WebSocket

  The frames of the WebSocket endpoint: `_ws_send` and `_ws_receive`
  (`server/app.py`).

  The two are written apart from each other.  What they have in common is how a
  length is coded (`lengthField`): seven bits, or two bytes, or eight.  A frame
  is read back because its length is (`readLength_lengthField`) and because a
  mask that is applied twice is gone (`unmask_unmask`).
-/

import KineticSdk.Py.Utf8
import KineticSdk.Security.Audit
import Mathlib.Tactic.SplitIfs
import Mathlib.Algebra.Group.Nat.Defs

namespace KineticSdk
namespace Server

open Py Security

-- ============================================================================
-- Bytes
-- ============================================================================

/-- `struct.pack("!…", n)` of so many bytes. -/
def packBig : Nat → Nat → List Nat
  | 0, _ => []
  | width + 1, n => packBig width (n / 256) ++ [n % 256]

/-- `struct.unpack("!…", bytes)`. -/
def unpackBig (bytes : List Nat) : Nat := bytes.foldl (fun n b => n * 256 + b) 0

/-- A `struct.error`. -/
def structError (message : PyStr) : PyExc := ⟨py "error", message⟩

/-- `bytes(byte ^ mask[i % 4] for i, byte in enumerate(data))`. -/
def unmask (mask data : List Nat) : List Nat := data.mapIdx fun i byte => byte ^^^ mask.getD (i % 4) 0

/-- The text of a payload, or a `UnicodeDecodeError`. -/
def decodePayload (data : List Nat) : Except PyExc PyStr :=
  match utf8Decode data with
  | some text => .ok text
  | none => .error ⟨py "UnicodeDecodeError", []⟩

-- ============================================================================
-- Receiving
-- ============================================================================

/-- `sys.maxsize`: the longest a `bytes` object can be. -/
def maxSize : Nat := 2 ^ 63 - 1

/-- The length of a frame whose seven bits are `short`, and what is left of the
    stream. -/
def readLength (short : Nat) (rfile : List Nat) : Except PyExc Nat × List Nat :=
  let extended := fun width : Nat =>
    let bytes := rfile.take width
    (if bytes.length = width then .ok (unpackBig bytes)
      else .error (structError (py "unpack requires a buffer of " ++ intText width ++ py " bytes")),
      rfile.drop width)
  if short = 126 then extended 2
  else if short = 127 then extended 8
  else (.ok short, rfile)

/-- What `_ws_receive` comes to. -/
structure Received where
  result : Except PyExc (Option PyStr)
  /-- What it leaves in the stream. -/
  rest : List Nat
  /-- The size of the payload it asks the stream for. -/
  asked : Option Nat := none
deriving DecidableEq

/-- The payload of a frame of this length. -/
def readPayload (masked : Bool) (length : Nat) (rfile : List Nat) : Received :=
  let mask := if masked then rfile.take 4 else []
  let rfile := if masked then rfile.drop 4 else rfile
  if maxSize < length then
    ⟨.error ⟨py "OverflowError", py "cannot fit 'int' into an index-sized integer"⟩, rfile, some length⟩
  else
    let data := rfile.take length
    ⟨if data.length ≠ length then .ok none
      else (decodePayload (if masked then unmask mask data else data)).map some,
      rfile.drop length, some length⟩

/-- `_ws_receive`. -/
def wsReceive : List Nat → Received
  | first :: lengthByte :: rfile =>
      let opcode := first &&& 0x0F
      if opcode = 0x8 then ⟨.ok none, rfile, none⟩
      else if opcode ≠ 0x1 then ⟨.ok none, rfile, none⟩
      else
        match readLength (lengthByte &&& 0x7F) rfile with
        | (.error e, rfile) => ⟨.error e, rfile, none⟩
        | (.ok length, rfile) => readPayload (lengthByte &&& 0x80 ≠ 0) length rfile
  | _ => ⟨.ok none, [], none⟩

-- ============================================================================
-- Sending
-- ============================================================================

/-- The bytes `_ws_send` writes. -/
def wsSend (text : PyStr) : Except PyExc (List Nat) :=
  match utf8Encode text with
  | none => .error unicodeEncodeError
  | some data =>
      if data.length < 126 then .ok ([0x81, data.length] ++ data)
      else if data.length ≤ 0xFFFF then .ok ([0x81, 126] ++ packBig 2 data.length ++ data)
      else if data.length < 2 ^ 64 then .ok ([0x81, 127] ++ packBig 8 data.length ++ data)
      else .error (structError (py "int too large to convert"))

/-- The seven bits of a length, and the bytes behind them. -/
def lengthField (n : Nat) : Nat × List Nat :=
  if n < 126 then (n, [])
  else if n ≤ 0xFFFF then (126, packBig 2 n)
  else (127, packBig 8 n)

/-- The four bytes of a mask. -/
abbrev Mask := { mask : List Nat // mask.length = 4 }

/-- A text frame as a client sends it. -/
def clientFrame (mask : Mask) (data : List Nat) : List Nat :=
  [0x81, 0x80 + (lengthField data.length).1] ++ (lengthField data.length).2 ++ mask.val ++ unmask mask.val data

-- ============================================================================
-- What is sent is received
-- ============================================================================

theorem length_packBig (width n : Nat) : (packBig width n).length = width := by
  induction width generalizing n with
  | zero => rfl
  | succ width ih =>
      unfold packBig
      rw [List.length_append, ih]
      rfl

theorem unpackBig_packBig {width n : Nat} (h : n < 256 ^ width) : unpackBig (packBig width n) = n := by
  induction width generalizing n with
  | zero =>
      have hzero : n = 0 := by simpa using h
      rw [hzero]
      rfl
  | succ width ih =>
      have hdiv : n / 256 < 256 ^ width := by
        rw [Nat.pow_succ] at h
        exact Nat.div_lt_of_lt_mul (by rw [Nat.mul_comm]; exact h)
      have hrest := ih hdiv
      unfold unpackBig at hrest ⊢
      unfold packBig
      rw [List.foldl_append, hrest, List.foldl_cons, List.foldl_nil]
      omega

/-- A mask that is applied twice is gone. -/
theorem unmask_unmask (mask data : List Nat) : unmask mask (unmask mask data) = data := by
  unfold unmask
  rw [List.mapIdx_mapIdx]
  refine List.ext_getElem (by simp) fun i h h' => ?_
  rw [List.getElem_mapIdx, Function.comp_apply, Nat.xor_assoc, Nat.xor_self, Nat.xor_zero]

theorem length_unmask (mask data : List Nat) : (unmask mask data).length = data.length := List.length_mapIdx

theorem lengthField_lt (n : Nat) : (lengthField n).1 < 128 := by
  unfold lengthField
  split_ifs <;> simp only <;> omega

/-- A length is read as it was coded. -/
theorem readLength_lengthField {n : Nat} (h : n < 2 ^ 64) (rest : List Nat) :
    readLength (lengthField n).1 ((lengthField n).2 ++ rest) = (.ok n, rest) := by
  have hextended : ∀ width, n < 256 ^ width →
      ((if ((packBig width n ++ rest).take width).length = width
          then (.ok (unpackBig ((packBig width n ++ rest).take width)) : Except PyExc Nat)
          else .error (structError (py "unpack requires a buffer of " ++ intText width ++ py " bytes"))),
        (packBig width n ++ rest).drop width) = (.ok n, rest) := fun width hlt => by
    rw [List.take_left' (length_packBig width n), List.drop_left' (length_packBig width n),
      if_pos (length_packBig width n), unpackBig_packBig hlt]
  unfold lengthField
  by_cases hshort : n < 126
  · rw [if_pos hshort]
    unfold readLength
    rw [if_neg (by dsimp only; omega), if_neg (by dsimp only; omega)]
    rfl
  · rw [if_neg hshort]
    by_cases htwo : n ≤ 0xFFFF
    · rw [if_pos htwo]
      unfold readLength
      rw [if_pos rfl]
      exact hextended 2 (by omega)
    · rw [if_neg htwo]
      unfold readLength
      rw [if_neg (show ¬ (127 : Nat) = 126 by decide), if_pos rfl]
      exact hextended 8 (by omega)

theorem short_bits : ∀ n < 128,
    n &&& 0x7F = n ∧ n &&& 0x80 = 0 ∧ (0x80 + n) &&& 0x7F = n ∧ (0x80 + n) &&& 0x80 ≠ 0 := by
  decide

/-- A payload that is there is decoded, and nothing behind it is touched. -/
theorem readPayload_text {data : List Nat} {text : PyStr} (htext : utf8Decode data = some text)
    (hlength : data.length ≤ maxSize) (rest : List Nat) :
    readPayload false data.length (data ++ rest) = ⟨.ok (some text), rest, some data.length⟩ := by
  unfold readPayload decodePayload
  simp only [Bool.false_eq_true, if_false]
  rw [if_neg (Nat.not_lt.mpr hlength), List.take_left, List.drop_left, if_neg (fun h => h rfl), htext]
  rfl

theorem readPayload_masked {data : List Nat} {text : PyStr} (mask : Mask) (htext : utf8Decode data = some text)
    (hlength : data.length ≤ maxSize) (rest : List Nat) :
    readPayload true data.length (mask.val ++ unmask mask.val data ++ rest)
      = ⟨.ok (some text), rest, some data.length⟩ := by
  unfold readPayload decodePayload
  simp only [if_true]
  rw [List.append_assoc, List.take_left' mask.property, List.drop_left' mask.property,
    if_neg (Nat.not_lt.mpr hlength), List.take_left' (length_unmask ..), List.drop_left' (length_unmask ..),
    if_neg (fun h => h (length_unmask ..)), unmask_unmask, htext]
  rfl

/-- `_ws_send` codes the length like a client, but does not mask. -/
theorem wsSend_eq {text : PyStr} {data : List Nat} (htext : utf8Encode text = some data)
    (hlength : data.length < 2 ^ 64) :
    wsSend text = .ok ([0x81, (lengthField data.length).1] ++ (lengthField data.length).2 ++ data) := by
  unfold wsSend lengthField
  rw [htext]
  dsimp only
  split_ifs <;> rfl

/-- A text frame of either kind goes to the payload. -/
theorem wsReceive_frame {n : Nat} (masked : Bool) (hlength : n < 2 ^ 64) (rest : List Nat) :
    wsReceive ([0x81, (if masked then 0x80 else 0) + (lengthField n).1] ++ (lengthField n).2 ++ rest)
      = readPayload masked n rest := by
  obtain ⟨h1, h2, h3, h4⟩ := short_bits _ (lengthField_lt n)
  have hread := readLength_lengthField hlength rest
  rw [List.append_assoc]
  show wsReceive (0x81 :: _ :: ((lengthField n).2 ++ rest)) = _
  unfold wsReceive
  dsimp only
  rw [if_neg (show ¬ (0x81 &&& 0x0F : Nat) = 0x8 by decide), if_neg (show ¬ (0x81 &&& 0x0F : Nat) ≠ 0x1 by decide)]
  cases masked with
  | false =>
      simp only [Bool.false_eq_true, if_false, Nat.zero_add, h1, h2, hread]
      rfl
  | true =>
      simp only [if_true, h3, hread, ne_eq, h4, not_false_eq_true, decide_true]

/-- Both directions of the endpoint, for every text of Unicode scalar values: what
    `_ws_send` writes is received as the text, and so is a client's frame under any
    mask; the stream behind the frame is left alone. -/
theorem ws_frames_round_trip (text : PyStr) (htext : ∀ c ∈ text, IsScalar c) :
    ∃ data, utf8Encode text = some data ∧
      (data.length ≤ maxSize →
        (∃ bytes, wsSend text = .ok bytes ∧
          ∀ rest, wsReceive (bytes ++ rest) = ⟨.ok (some text), rest, some data.length⟩) ∧
        ∀ (mask : Mask) (rest : List Nat),
          wsReceive (clientFrame mask data ++ rest) = ⟨.ok (some text), rest, some data.length⟩) := by
  obtain ⟨data, hdata⟩ := utf8Encode_of_scalar htext
  have hdecode := utf8Decode_encode hdata
  refine ⟨data, hdata, fun hlength => ?_⟩
  have hsize : data.length < 2 ^ 64 := Nat.lt_of_le_of_lt hlength (by decide)
  refine ⟨⟨_, wsSend_eq hdata hsize, fun rest => ?_⟩, fun mask rest => ?_⟩
  · have hframe := wsReceive_frame false hsize (data ++ rest)
    rw [readPayload_text hdecode hlength, ← List.append_assoc] at hframe
    simpa using hframe
  · have hframe := wsReceive_frame true hsize (mask.val ++ unmask mask.val data ++ rest)
    rw [readPayload_masked mask hdecode hlength, ← List.append_assoc] at hframe
    unfold clientFrame
    simpa only [List.append_assoc, if_true] using hframe

/-- At the text `é`, in two bytes. -/
theorem ws_frames_round_trip_two_bytes :
    (wsReceive [0x81, 0x02, 0xC3, 0xA9]).result = .ok (some [0xE9]) := by
  obtain ⟨data, hdata, h⟩ := ws_frames_round_trip [0xE9] (by unfold IsScalar; decide)
  obtain rfl : [0xC3, 0xA9] = data := Option.some.inj hdata
  obtain ⟨bytes, hbytes, hreceive⟩ := (h (by decide)).1
  obtain rfl : [0x81, 0x02, 0xC3, 0xA9] = bytes := Except.ok.inj hbytes
  have hresult := hreceive []
  rw [List.append_nil] at hresult
  rw [hresult]

/-- A lone surrogate cannot be encoded: `_ws_send` raises and writes nothing. -/
theorem ws_send_surrogate :
    ¬ ∀ text : PyStr, ∃ bytes, wsSend text = .ok bytes ∧ (wsReceive bytes).result = .ok (some text) := by
  intro h
  obtain ⟨bytes, hbytes, -⟩ := h [0xD800]
  have hraise : wsSend [0xD800] = .error unicodeEncodeError := rfl
  rw [hraise] at hbytes
  cases hbytes

-- ============================================================================
-- What is asked for
-- ============================================================================

/-- Two bytes declare a short payload. -/
theorem unpackBig_two (a b : Fin 256) : unpackBig [a.val, b.val] < 65536 := by
  have ha := a.isLt
  have hb := b.isLt
  show (0 * 256 + a.val) * 256 + b.val < 65536
  omega

/-- A text frame with an eight-byte length above the bound. -/
def DeclaresMore (bound : Nat) (stream : List (Fin 256)) : Prop :=
  ∃ first lengthByte bytes rest, stream = first :: lengthByte :: (bytes ++ rest) ∧
    first.val &&& 0x0F = 0x1 ∧ lengthByte.val &&& 0x7F = 127 ∧ bytes.length = 8 ∧
    bound < unpackBig (bytes.map Fin.val)

theorem readPayload_asked (masked : Bool) (length : Nat) (rfile : List Nat) :
    (readPayload masked length rfile).asked = some length := by
  unfold readPayload
  dsimp only
  split_ifs <;> rfl

/-- A text frame asks for what it declares, any other frame for nothing. -/
theorem wsReceive_asked (first lengthByte : Nat) (rfile : List Nat) :
    (wsReceive (first :: lengthByte :: rfile)).asked
      = if first &&& 0x0F = 0x1 then (readLength (lengthByte &&& 0x7F) rfile).1.toOption else none := by
  unfold wsReceive
  dsimp only
  by_cases htext : first &&& 0x0F = 0x1
  · rw [htext, if_neg (by decide), if_neg (fun h => h rfl), if_pos rfl]
    match readLength (lengthByte &&& 0x7F) rfile with
    | (.error e, rfile) => rfl
    | (.ok length, rfile) => exact readPayload_asked ..
  · rw [if_neg htext]
    split_ifs <;> rfl

/-- Seven bits and two bytes declare less than 64 KiB. -/
theorem readLength_small {short n : Nat} {rfile : List (Fin 256)} (hshort : short < 127)
    (h : (readLength short (rfile.map Fin.val)).1 = .ok n) : n ≤ 65535 := by
  unfold readLength at h
  by_cases htwo : short = 126
  · rw [if_pos htwo] at h
    match rfile with
    | [] => cases h
    | [b] => cases h
    | a :: b :: rest =>
        have hvalue : unpackBig [a.val, b.val] = n := Except.ok.inj h
        have hlt := unpackBig_two a b
        omega
  · rw [if_neg htwo, if_neg (by omega)] at h
    have hvalue : short = n := Except.ok.inj h
    omega

/-- Eight bytes are taken as they come. -/
theorem readLength_long {n : Nat} {rfile : List Nat} :
    (readLength 127 rfile).1 = .ok n ↔
      ∃ bytes rest, rfile = bytes ++ rest ∧ bytes.length = 8 ∧ unpackBig bytes = n := by
  unfold readLength
  rw [if_neg (by decide), if_pos rfl]
  dsimp only
  by_cases hthere : (rfile.take 8).length = 8
  · rw [if_pos hthere]
    constructor
    · exact fun h => ⟨_, _, (List.take_append_drop 8 rfile).symm, hthere, Except.ok.inj h⟩
    · rintro ⟨bytes, rest, rfl, hlength, rfl⟩
      rw [List.take_left' hlength]
  · rw [if_neg hthere]
    refine iff_of_false (fun h => by cases h) ?_
    rintro ⟨bytes, rest, rfl, hlength, -⟩
    rw [List.take_left' hlength] at hthere
    exact hthere hlength

/-- The payload asked for is within a bound of at least 64 KiB, unless eight bytes
    declare more. -/
theorem wsReceive_asked_le_iff {bound : Nat} (hbound : 65535 ≤ bound) (stream : List (Fin 256)) :
    (∀ n ∈ (wsReceive (stream.map Fin.val)).asked, n ≤ bound) ↔ ¬ DeclaresMore bound stream := by
  match stream with
  | [] => exact iff_of_true (fun n hn => nomatch hn) (by rintro ⟨_, _, _, _, heq, -⟩; cases heq)
  | [b] => exact iff_of_true (fun n hn => nomatch hn) (by rintro ⟨_, _, _, _, heq, -⟩; cases heq)
  | first :: lengthByte :: rfile =>
      have hasked := wsReceive_asked first.val lengthByte.val (rfile.map Fin.val)
      show (∀ n ∈ (wsReceive (first.val :: lengthByte.val :: rfile.map Fin.val)).asked, n ≤ bound) ↔ _
      rw [hasked]
      constructor
      · rintro hle ⟨_, _, bytes, rest, heq, htext, hseven, height, hmore⟩
        obtain ⟨rfl, rfl, rfl⟩ : first = _ ∧ lengthByte = _ ∧ rfile = bytes ++ rest := by simpa using heq
        have hread : (readLength 127 ((bytes ++ rest).map Fin.val)).1 = .ok (unpackBig (bytes.map Fin.val)) :=
          readLength_long.mpr ⟨_, _, List.map_append, by rw [List.length_map, height], rfl⟩
        rw [if_pos htext, hseven, hread] at hle
        exact absurd (hle _ rfl) (Nat.not_le.mpr hmore)
      · intro hnot n hn
        by_cases htext : first.val &&& 0x0F = 0x1
        · rw [if_pos htext] at hn
          cases hread : (readLength (lengthByte.val &&& 0x7F) (rfile.map Fin.val)).1 with
          | error e =>
              rw [hread] at hn
              cases hn
          | ok length =>
              rw [hread] at hn
              obtain rfl : length = n := Option.some.inj hn
              by_cases hseven : lengthByte.val &&& 0x7F = 127
              · rw [hseven] at hread
                by_contra hmore
                obtain ⟨bytes, rest, hcut, height, rfl⟩ := readLength_long.mp hread
                obtain ⟨bytes, rest, rfl, rfl, rfl⟩ := List.map_eq_append_iff.mp hcut
                rw [List.length_map] at height
                exact hnot ⟨first, lengthByte, bytes, rest, rfl, htext, hseven, height, Nat.not_le.mp hmore⟩
              · have hlt : lengthByte.val &&& 0x7F < 128 := Nat.and_lt_two_pow _ (by decide : 0x7F < 2 ^ 7)
                exact Nat.le_trans (readLength_small (by omega) hread) hbound
        · rw [if_neg htext] at hn
          cases hn

end Server
end KineticSdk
