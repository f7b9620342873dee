/-
  KineticSdk.Mcp.RoundTrip

  A message sent is the message received.

  An encoded message is one line (`single_line`), its braces keep it from being
  stripped, and reading its text gives its object (`loads_dumps`).  That the
  object gives the message back is a case analysis on the kinds
  (`decodeObject_toDict`).  A message that was received is well-formed
  (`decode_wellFormed`), so it can be sent on.
-/

import KineticSdk.Lib.Wp
import KineticSdk.Mcp.Protocol
import KineticSdk.Py.JsonValid

namespace KineticSdk
namespace Mcp

open Py

variable {fl : FloatRepr}

-- ============================================================================
-- One line
-- ============================================================================

/-- A text without line feeds. -/
def NoFeed (s : PyStr) : Prop := (10 : Nat) ∉ s

theorem NoFeed.append {s t : PyStr} (hs : NoFeed s) (ht : NoFeed t) : NoFeed (s ++ t) := by
  intro hmem
  rcases List.mem_append.mp hmem with h | h
  · exact hs h
  · exact ht h

theorem noFeed_of_isNumberChar {s : PyStr} (h : ∀ c ∈ s, isNumberChar c = true) : NoFeed s := by
  intro hmem
  have h10 := h 10 hmem
  revert h10
  decide

/-- Control characters are written as escapes. -/
theorem noFeed_escapeChar (c : Nat) : NoFeed (escapeChar false c) := by
  intro hmem
  simp only [escapeChar, Bool.false_and, Bool.false_eq_true, ↓reduceIte] at hmem
  split_ifs at hmem with h1 h2 h3 h4 h5 h6 h7 h8 <;> try (revert hmem; decide)
  · -- `\uXXXX`: hexadecimal digits
    have hdigit : ∀ n, hexDigit n ≠ 10 := by
      intro n
      unfold hexDigit
      split_ifs <;> omega
    unfold uEscape at hmem
    rcases List.mem_append.mp hmem with h | h
    · revert h
      decide
    · simp only [List.mem_cons, List.not_mem_nil, or_false] at h
      rcases h with h | h | h | h <;> exact hdigit _ h.symm
  · rw [List.mem_singleton] at hmem
    omega

theorem noFeed_dumpsStr (s : PyStr) : NoFeed (dumpsStr false s) := by
  have hquote : NoFeed (py "\"") := by unfold NoFeed; decide
  have hbody : NoFeed (s.flatMap (escapeChar false)) := by
    intro hmem
    obtain ⟨c, -, hc⟩ := List.mem_flatMap.mp hmem
    exact noFeed_escapeChar c hc
  exact (hquote.append hbody).append hquote

theorem noFeed_dumpsFloat {r : PyStr} (h : IsFloat fl r) : NoFeed (dumpsFloat r) := by
  unfold dumpsFloat
  split_ifs with hnan hinf hminus
  · unfold NoFeed; decide
  · unfold NoFeed; decide
  · unfold NoFeed; decide
  · rcases h with h | h | h | ⟨-, hchars, -⟩
    · exact absurd h hnan
    · exact absurd h hinf
    · exact absurd h hminus
    · exact noFeed_of_isNumberChar hchars

mutual

/-- A printed value is one line. -/
theorem noFeed_dumps : (v : Json) → Readable false fl v → NoFeed (dumps false v)
  | .null, _ => by unfold NoFeed; decide
  | .bool true, _ => by unfold NoFeed; decide
  | .bool false, _ => by unfold NoFeed; decide
  | .int n, _ => noFeed_of_isNumberChar (isNumberChar_intText n)
  | .float _, h => noFeed_dumpsFloat h
  | .str s, _ => noFeed_dumpsStr s
  | .arr xs, h => by
      have hopen : NoFeed (py "[") := by unfold NoFeed; decide
      have hclose : NoFeed (py "]") := by unfold NoFeed; decide
      exact (hopen.append (noFeed_dumpsList xs h)).append hclose
  | .obj kvs, h => by
      have hopen : NoFeed (py "\x7b") := by unfold NoFeed; decide
      have hclose : NoFeed (py "\x7d") := by unfold NoFeed; decide
      exact (hopen.append (noFeed_dumpsFields kvs h.2)).append hclose

theorem noFeed_dumpsList : (xs : List Json) → ReadableList false fl xs →
    NoFeed (dumpsList false xs)
  | [], _ => List.not_mem_nil
  | [x], h => noFeed_dumps x h.1
  | x :: y :: xs, h => by
      have hcomma : NoFeed (py ", ") := by unfold NoFeed; decide
      exact ((noFeed_dumps x h.1).append hcomma).append (noFeed_dumpsList (y :: xs) h.2)

theorem noFeed_dumpsFields : (kvs : Dict) → ReadableFields false fl kvs →
    NoFeed (dumpsFields false kvs)
  | [], _ => List.not_mem_nil
  | [(k, v)], h => by
      have hcolon : NoFeed (py ": ") := by unfold NoFeed; decide
      exact ((noFeed_dumpsStr k).append hcolon).append (noFeed_dumps v h.2.1)
  | (k, v) :: kv :: kvs, h => by
      have hcolon : NoFeed (py ": ") := by unfold NoFeed; decide
      have hcomma : NoFeed (py ", ") := by unfold NoFeed; decide
      have hfirst := ((noFeed_dumpsStr k).append hcolon).append (noFeed_dumps v h.2.1)
      exact (hfirst.append hcomma).append (noFeed_dumpsFields (kv :: kvs) h.2.2)

end

-- ============================================================================
-- Well-formed messages
-- ============================================================================

/-- The fields of a message are what their types promise: texts of a method and
    of JSON, and an error with its code and its message. -/
def Message.WellFormed (fl : FloatRepr) : Message → Prop
  | .request r => r.method ≠ [] ∧ Readable false fl r.params
  | .notification n => n.method ≠ [] ∧ Readable false fl n.params
  | .response r =>
      match r.answer with
      | .result v => Readable false fl v
      | .error e => Readable false fl (.obj e) ∧ isIntValue (Dict.get? e (py "code")) = true ∧
          isStrValue (Dict.get? e (py "message")) = true

theorem readable_id (id : MessageId) : Readable false fl id.toJson := by
  cases id with
  | int n => trivial
  | str s => exact textOk_raw s
  | null => trivial

theorem readable_field {kvs : Dict} {k : PyStr} {v : Json} (h : ReadableFields false fl kvs)
    (hget : Dict.get? kvs k = some v) : Readable false fl v := by
  induction kvs with
  | nil => cases hget
  | cons kv kvs ih =>
      obtain ⟨k', w⟩ := kv
      rw [Dict.get?_cons] at hget
      split_ifs at hget with hk
      · cases hget
        exact h.2.1
      · exact ih h.2.2 hget

/-- The object of a well-formed message can be written and read. -/
theorem readable_toDict {m : Message} (h : m.WellFormed fl) : Readable false fl (.obj m.toDict) := by
  cases m with
  | request r =>
      by_cases hparams : r.params = .null
      · have hdict : Message.toDict (.request r) = [(py "jsonrpc", .str JSONRPC_VERSION),
            (py "id", r.id.toJson), (py "method", .str r.method)] := by
          simp [Message.toDict, Request.toDict, paramsField, hparams]
        have hkeys : [py "jsonrpc", py "id", py "method"].Nodup := by decide
        rw [hdict]
        exact ⟨hkeys, textOk_raw _, textOk_raw _, textOk_raw _, readable_id r.id, textOk_raw _,
          textOk_raw _, trivial⟩
      · have hdict : Message.toDict (.request r) = [(py "jsonrpc", .str JSONRPC_VERSION),
            (py "id", r.id.toJson), (py "method", .str r.method), (py "params", r.params)] := by
          simp [Message.toDict, Request.toDict, paramsField, hparams]
        have hkeys : [py "jsonrpc", py "id", py "method", py "params"].Nodup := by decide
        rw [hdict]
        exact ⟨hkeys, textOk_raw _, textOk_raw _, textOk_raw _, readable_id r.id, textOk_raw _,
          textOk_raw _, textOk_raw _, h.2, trivial⟩
  | notification n =>
      by_cases hparams : n.params = .null
      · have hdict : Message.toDict (.notification n) = [(py "jsonrpc", .str JSONRPC_VERSION),
            (py "method", .str n.method)] := by
          simp [Message.toDict, Notification.toDict, paramsField, hparams]
        have hkeys : [py "jsonrpc", py "method"].Nodup := by decide
        rw [hdict]
        exact ⟨hkeys, textOk_raw _, textOk_raw _, textOk_raw _, textOk_raw _, trivial⟩
      · have hdict : Message.toDict (.notification n) = [(py "jsonrpc", .str JSONRPC_VERSION),
            (py "method", .str n.method), (py "params", n.params)] := by
          simp [Message.toDict, Notification.toDict, paramsField, hparams]
        have hkeys : [py "jsonrpc", py "method", py "params"].Nodup := by decide
        rw [hdict]
        exact ⟨hkeys, textOk_raw _, textOk_raw _, textOk_raw _, textOk_raw _, textOk_raw _, h.2,
          trivial⟩
  | response r =>
      obtain ⟨id, answer⟩ := r
      cases answer with
      | result v =>
          have hkeys : [py "jsonrpc", py "id", py "result"].Nodup := by decide
          exact ⟨hkeys, textOk_raw _, textOk_raw _, textOk_raw _, readable_id id, textOk_raw _, h,
            trivial⟩
      | error e =>
          have hkeys : [py "jsonrpc", py "id", py "error"].Nodup := by decide
          exact ⟨hkeys, textOk_raw _, textOk_raw _, textOk_raw _, readable_id id, textOk_raw _, h.1,
            trivial⟩

-- ============================================================================
-- Sending and receiving
-- ============================================================================

theorem validateId_toJson (id : MessageId) : validateId id.toJson = .ok id := by
  cases id <;> rfl

/-- The object of a message is the message. -/
theorem decodeObject_toDict {m : Message} (h : m.WellFormed fl) :
    decodeObject m.toDict = .ok m := by
  cases m with
  | request r =>
      obtain ⟨id, method, params⟩ := r
      have hmethod : (method != []) = true := by simpa using h.1
      by_cases hparams : params = .null
      · subst hparams
        show (do require (method != []) _; _) = _
        rw [hmethod]
        cases id <;> rfl
      · have hdict : Message.toDict (.request ⟨id, method, params⟩) = [(py "jsonrpc",
            .str JSONRPC_VERSION), (py "id", id.toJson), (py "method", .str method),
            (py "params", params)] := by
          simp [Message.toDict, Request.toDict, paramsField, hparams]
        rw [hdict]
        show (do require (method != []) _; _) = _
        rw [hmethod]
        cases id <;> rfl
  | notification n =>
      obtain ⟨method, params⟩ := n
      have hmethod : (method != []) = true := by simpa using h.1
      by_cases hparams : params = .null
      · subst hparams
        show (do require (method != []) _; _) = _
        rw [hmethod]
        rfl
      · have hdict : Message.toDict (.notification ⟨method, params⟩) = [(py "jsonrpc",
            .str JSONRPC_VERSION), (py "method", .str method), (py "params", params)] := by
          simp [Message.toDict, Notification.toDict, paramsField, hparams]
        rw [hdict]
        show (do require (method != []) _; _) = _
        rw [hmethod]
        rfl
  | response r =>
      obtain ⟨id, answer⟩ := r
      cases answer with
      | result v => cases id <;> rfl
      | error e =>
          have herror : (isIntValue (Dict.get? e (py "code")) &&
              isStrValue (Dict.get? e (py "message"))) = true := by
            rw [h.2.1, h.2.2]
            rfl
          have hstep : decodeResponse (Message.toDict (.response ⟨id, .error e⟩)) =
              .ok ⟨id, .error e⟩ := by
            show (do let id ← validateId id.toJson; _) = _
            rw [validateId_toJson]
            show (do require (isIntValue _ && isStrValue _) _; _) = _
            rw [herror]
            rfl
          show (do let r ← decodeResponse _; pure (Message.response r)) = _
          rw [hstep]
          rfl

/-- An encoded message is a line of its own. -/
theorem single_line {m : Message} (h : m.WellFormed fl) :
    ∃ body, encode m = body ++ [10] ∧ (10 : Nat) ∉ body :=
  ⟨_, rfl, noFeed_dumps _ (readable_toDict h)⟩

/-- The braces of an encoded message are not stripped. -/
theorem strip_encode (m : Message) : strip (encode m) = dumps false (.obj m.toDict) := by
  have htext : dumps false (.obj m.toDict) = 123 :: (dumpsFields false m.toDict ++ [125]) := rfl
  have hopen : isSpace 123 = false := by decide
  have hclose : isSpace 125 = false := by decide
  have hfeed : ∀ c ∈ [(10 : Nat)], isSpace c = true := by decide
  have hfront : (encode m).dropWhile isSpace = encode m := by
    unfold encode
    rw [htext, List.cons_append, List.dropWhile_cons_of_neg (by rw [hopen]; exact Bool.false_ne_true)]
  unfold strip
  rw [hfront]
  unfold encode
  rw [rstripWhile_append hfeed, htext, ← List.cons_append, rstripWhile_of_last _ hclose]

/-- A message sent is the message received. -/
theorem decode_encode {m : Message} (h : m.WellFormed fl) :
    decode {} fl (.text (encode m)) = .ok m := by
  have hread := loads_dumps (readable_toDict h)
  have hne : dumps false (.obj m.toDict) ≠ [] := List.cons_ne_nil _ _
  have hparse : parseLine {} fl (dumps false (.obj m.toDict)) = .ok m.toDict := by
    unfold parseLine
    rw [if_neg hne, hread]
  show (do let obj ← parseLine {} fl (strip (encode m)); decodeObject obj) = _
  rw [strip_encode, hparse]
  exact decodeObject_toDict h

-- ============================================================================
-- Received messages
-- ============================================================================

theorem require_ok {cond : Bool} {detail : PyStr} {u : Unit} (h : require cond detail = .ok u) :
    cond = true := by
  unfold require at h
  split_ifs at h with hc
  exact hc

theorem readable_getD {obj : Dict} (h : ReadableFields false fl obj) (k : PyStr) :
    Readable false fl ((Dict.get? obj k).getD .null) := by
  cases hget : Dict.get? obj k with
  | none => trivial
  | some v => exact readable_field h hget

theorem decodeResponse_wellFormed {obj : Dict} (hobj : ReadableFields false fl obj) {r : Response}
    (h : decodeResponse obj = .ok r) : (Message.response r).WellFormed fl := by
  unfold decodeResponse at h
  split at h
  · cases h
  · obtain ⟨id, -, h⟩ := Lib.bind_ok h
    split at h
    · rename_i v hresult herror
      cases h
      exact readable_field hobj hresult
    · rename_i e hresult herror
      obtain ⟨u, hrequire, h⟩ := Lib.bind_ok h
      cases h
      have hboth := require_ok hrequire
      rw [Bool.and_eq_true] at hboth
      exact ⟨readable_field hobj herror, hboth.1, hboth.2⟩
    · cases h
    · cases h

/-- The message of an object is well-formed. -/
theorem decodeObject_wellFormed {obj : Dict} (hobj : Readable false fl (.obj obj)) {m : Message}
    (h : decodeObject obj = .ok m) : m.WellFormed fl := by
  unfold decodeObject at h
  obtain ⟨u, -, h⟩ := Lib.bind_ok h
  split at h
  · rename_i method hmethod
    obtain ⟨u', hrequire, h⟩ := Lib.bind_ok h
    have hne : method ≠ [] := by simpa using require_ok hrequire
    have hparams := readable_getD hobj.2 (py "params")
    split at h
    · obtain ⟨id, -, h⟩ := Lib.bind_ok h
      cases h
      exact ⟨hne, hparams⟩
    · cases h
      exact ⟨hne, hparams⟩
  · cases h
  · obtain ⟨r, hr, h⟩ := Lib.bind_ok h
    cases h
    exact decodeResponse_wellFormed hobj.2 hr

/-- The object of a line can be written and read again. -/
theorem parseLine_readable (hfl : fl.Lawful) {lim : Limits} {s : PyStr} {obj : Dict}
    (h : parseLine lim fl s = .ok obj) : Readable false fl (.obj obj) := by
  unfold parseLine at h
  split at h
  · cases h
  · split at h <;> cases h
    rename_i hloads
    exact loads_readable hfl hloads

/-- A message received is well-formed. -/
theorem decodeText_wellFormed (hfl : fl.Lawful) {lim : Limits} {s : PyStr} {m : Message}
    (h : decodeText lim fl s = .ok m) : m.WellFormed fl := by
  unfold decodeText at h
  obtain ⟨obj, hparse, hobject⟩ := Lib.bind_ok h
  exact decodeObject_wellFormed (parseLine_readable hfl hparse) hobject

theorem decode_wellFormed (hfl : fl.Lawful) {lim : Limits} {line : Line} {m : Message}
    (h : decode lim fl line = .ok m) : m.WellFormed fl := by
  cases line with
  | text s => exact decodeText_wellFormed hfl h
  | bytes bs =>
      cases hutf : utf8Decode bs with
      | none => rw [decode, hutf] at h; cases h
      | some s =>
          rw [decode, hutf] at h
          exact decodeText_wellFormed hfl h

-- ============================================================================
-- The round trip
-- ============================================================================

/-- Every well-formed message is encoded as one line, which is decoded to the
    message; and the message of any line that is accepted comes back when it is
    encoded. -/
theorem round_trip (hfl : fl.Lawful) :
    (∀ m : Message, m.WellFormed fl →
      (∃ body, encode m = body ++ [10] ∧ (10 : Nat) ∉ body) ∧
        decode {} fl (.text (encode m)) = .ok m) ∧
    (∀ line m, decode {} fl line = .ok m → decode {} fl (.text (encode m)) = decode {} fl line) := by
  refine ⟨fun m hm => ⟨single_line hm, decode_encode hm⟩, fun line m h => ?_⟩
  rw [h]
  exact decode_encode (decode_wellFormed hfl h)

/-- A request whose parameter is a float. -/
def floatRequest : Message :=
  .request { id := .int 1, method := py "ping", params := .arr [.float (py "1.5")] }

/-- The round trip of a request whose parameter is a float. -/
theorem round_trip_request :
    decode {} (fun _ => py "1.5") (.text (encode floatRequest)) = .ok floatRequest := by
  have hform : floatRequest.WellFormed fun _ => py "1.5" :=
    (show py "ping" ≠ [] ∧ _ from ⟨by decide, isFloat_half, trivial⟩)
  exact ((round_trip lawful_half).1 floatRequest hform).2

end Mcp
end KineticSdk
