/-
  KineticSdk.Mcp.Serve

  `MCPServer.serve_forever` over a `StdioTransport`, for the lines a client may
  send.

  A line is decoded, handled and answered; only protocol errors are caught.
  What else a line can raise is said by a condition on the line and on the
  state it meets (`Survivable`): numbers with too many digits and nesting that
  is too deep while decoding, a call that does not go through while handling,
  and a reply with a lone surrogate while sending.  Writing to the client
  itself succeeds.
-/

import KineticSdk.Lib.Steps
import KineticSdk.Mcp.Handshake
import KineticSdk.Mcp.RoundTrip

namespace KineticSdk
namespace Mcp

open Py Tool Security
open Lib (Wp)

variable {σ : Type}

-- ============================================================================
-- Texts that can be encoded
-- ============================================================================

theorem encodable_append (s t : PyStr) : encodable (s ++ t) = (encodable s && encodable t) :=
  List.all_append

theorem encodable_of_lt {s : PyStr} (h : ∀ c ∈ s, c < 0xD800) : encodable s = true := by
  refine List.all_eq_true.mpr fun c hc => ?_
  have hlt := h c hc
  simp only [Bool.not_eq_true', Bool.and_eq_false_iff, decide_eq_false_iff_not]
  omega

/-- No surrogate is printable. -/
theorem encodable_of_isPrintable {c : Nat} (h : isPrintable c = true) : encodable [c] = true := by
  have htable : ∀ r ∈ printableRanges, r.2 < 0xD800 ∨ 0xDFFF < r.1 := by decide +kernel
  have hrange : c < 0xD800 ∨ 0xDFFF < c := by
    unfold isPrintable at h
    split at h
    · omega
    · obtain ⟨r, hr, hc⟩ := List.any_eq_true.mp h
      simp only [Bool.and_eq_true, decide_eq_true_eq] at hc
      rcases htable r hr with h | h <;> omega
  simp only [encodable, List.all_cons, List.all_nil, Bool.and_true, Bool.not_eq_true',
    Bool.and_eq_false_iff, decide_eq_false_iff_not]
  omega

theorem hexDigit_lt (n : Nat) (h : n < 16) : hexDigit n < 0xD800 := by
  unfold hexDigit
  split_ifs <;> omega

theorem hexText_lt (width n : Nat) : ∀ c ∈ hexText width n, c < 0xD800 := by
  induction width generalizing n with
  | zero => intro c hc; cases hc
  | succ width ih =>
      intro c hc
      rcases List.mem_append.mp (show c ∈ hexText width (n / 16) ++ [hexDigit (n % 16)] from hc) with
        hc | hc
      · exact ih (n / 16) c hc
      · rw [List.mem_singleton.mp hc]
        exact hexDigit_lt _ (by omega)

theorem encodable_reprChar {quote : Nat} (hquote : quote < 0xD800) (c : Nat) :
    encodable (reprChar quote c) = true := by
  have hhex : ∀ (front : PyStr), (∀ d ∈ front, d < 0xD800) → ∀ width,
      encodable (front ++ hexText width c) = true := by
    intro front hfront width
    rw [encodable_append, encodable_of_lt hfront, encodable_of_lt (hexText_lt width c)]
    rfl
  unfold reprChar
  split_ifs with h1 h2 h3 h4 h5 h6 h7
  · refine encodable_of_lt fun d hd => ?_
    simp only [Bool.or_eq_true, decide_eq_true_eq] at h1
    simp only [List.mem_cons, List.not_mem_nil, or_false] at hd
    omega
  · decide
  · decide
  · decide
  · exact encodable_of_isPrintable h5
  · exact hhex _ (by decide) 2
  · exact hhex _ (by decide) 4
  · exact hhex _ (by decide) 8

/-- What `repr` prints can be encoded, whatever the text. -/
theorem encodable_pyReprStr (s : PyStr) : encodable (pyReprStr s) = true := by
  have hbody : ∀ quote, quote < 0xD800 →
      encodable (quote :: s.flatMap (reprChar quote) ++ [quote]) = true := by
    intro quote hquote
    have hone : encodable [quote] = true :=
      encodable_of_lt fun c hc => by rw [List.mem_singleton.mp hc]; exact hquote
    have hchars : encodable (s.flatMap (reprChar quote)) = true := by
      induction s with
      | nil => rfl
      | cons c s ih => rw [List.flatMap_cons, encodable_append, encodable_reprChar hquote, ih]; rfl
    rw [encodable_append, ← List.singleton_append, encodable_append, hone, hchars]
    rfl
  unfold pyReprStr
  split_ifs
  · exact hbody 34 (by omega)
  · exact hbody 39 (by omega)

theorem encodable_of_isNumberChar {s : PyStr} (h : ∀ c ∈ s, isNumberChar c = true) :
    encodable s = true := by
  refine encodable_of_lt fun c hc => ?_
  have hnum := h c hc
  simp only [isNumberChar, isDigitChar, Bool.or_eq_true, Bool.and_eq_true, decide_eq_true_eq,
    beq_iff_eq] at hnum
  omega

variable {fl : FloatRepr}

mutual

/-- What `repr` prints can be encoded, whatever the value. -/
theorem encodable_pyRepr : (v : Json) → Readable false fl v → encodable (pyRepr v) = true
  | .null, _ => by decide
  | .bool true, _ => by decide
  | .bool false, _ => by decide
  | .int n, _ => encodable_of_isNumberChar (isNumberChar_intText n)
  | .float r, h => by
      rcases h with rfl | rfl | rfl | ⟨-, hchars, -⟩
      · decide
      · decide
      · decide
      · exact encodable_of_isNumberChar hchars
  | .str s, _ => encodable_pyReprStr s
  | .arr xs, h => by
      show encodable (py "[" ++ pyReprList xs ++ py "]") = true
      rw [encodable_append, encodable_append, encodable_pyReprList xs h]
      decide
  | .obj kvs, h => by
      show encodable (py "\x7b" ++ pyReprFields kvs ++ py "\x7d") = true
      rw [encodable_append, encodable_append, encodable_pyReprFields kvs h.2]
      decide

theorem encodable_pyReprList : (xs : List Json) → ReadableList false fl xs →
    encodable (pyReprList xs) = true
  | [], _ => rfl
  | [x], h => encodable_pyRepr x h.1
  | x :: y :: xs, h => by
      show encodable (pyRepr x ++ py ", " ++ pyReprList (y :: xs)) = true
      rw [encodable_append, encodable_append, encodable_pyRepr x h.1,
        encodable_pyReprList (y :: xs) h.2]
      decide

theorem encodable_pyReprFields : (kvs : Dict) → ReadableFields false fl kvs →
    encodable (pyReprFields kvs) = true
  | [], _ => rfl
  | [(k, v)], h => by
      show encodable (pyReprStr k ++ py ": " ++ pyRepr v) = true
      rw [encodable_append, encodable_append, encodable_pyReprStr, encodable_pyRepr v h.2.1]
      decide
  | (k, v) :: kv :: kvs, h => by
      show encodable (pyReprStr k ++ py ": " ++ pyRepr v ++ py ", " ++ pyReprFields (kv :: kvs)) = true
      rw [encodable_append, encodable_append, encodable_append, encodable_append, encodable_pyReprStr,
        encodable_pyRepr v h.2.1, encodable_pyReprFields (kv :: kvs) h.2.2]
      decide

end

/-- `str(exc)` of an `MCPProtocolError`. -/
def DecodeError.text : DecodeError → PyStr
  | .notUtf8 => py "Message is not valid UTF-8"
  | .empty => py "Empty line is not a JSON-RPC message"
  | .invalidJson => py "Invalid JSON"
  | .malformed detail => py "Malformed JSON-RPC message: " ++ detail
  | .digits | .depth => []

/-- `transport.send`: the line is encoded before anything is caught. -/
def send (resp : Response) : Except PyExc (Option Response) :=
  if (Json.obj resp.toDict).encodable then .ok (some resp) else .error unicodeEncodeError

/-- The text of the error, if there is one, can be encoded. -/
def ErrorEncodable {α : Type} (x : Except DecodeError α) : Prop :=
  ∀ e, x = .error e → encodable e.text = true

theorem ErrorEncodable.ok {α : Type} (a : α) : ErrorEncodable (.ok a) := fun _ h => by cases h

theorem ErrorEncodable.malformed {α : Type} {detail : PyStr} (h : encodable detail = true) :
    ErrorEncodable (.error (.malformed detail) : Except DecodeError α) := by
  intro e he
  cases he
  show encodable (py "Malformed JSON-RPC message: " ++ detail) = true
  rw [encodable_append, h]
  decide

theorem ErrorEncodable.bind {α β : Type} {x : Except DecodeError α} {f : α → Except DecodeError β}
    (hx : ErrorEncodable x) (hf : ∀ a, x = .ok a → ErrorEncodable (f a)) :
    ErrorEncodable (x >>= f) := by
  intro e he
  cases x with
  | error e' =>
      cases he
      exact hx e rfl
  | ok a => exact hf a rfl e he

/-- The reply can be sent. -/
def Response.Sendable (resp : Response) : Prop := (Json.obj resp.toDict).encodable = true

end Mcp
end KineticSdk
