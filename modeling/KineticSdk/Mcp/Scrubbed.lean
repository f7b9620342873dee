/-
  KineticSdk.Mcp.Scrubbed

  What a tool result tells of the texts in a server's response.

  Two responses that redaction makes equal must become one result.  They do
  when the response carries an object: taking the content apart and redacting
  it commute (`redactValue_extractOutput`).  On the other paths the response is
  printed into the error before anything is redacted.
-/

import KineticSdk.Mcp.Adapter
import KineticSdk.Security.Marked

namespace KineticSdk
namespace Mcp

open Py Tool Security

-- ============================================================================
-- Responses seen through the redaction
-- ============================================================================

/-- `redact_value` on every text of a response. -/
def redactResponse (r : Response) : Response where
  id := match r.id with
    | .str s => .str (redactSecrets s)
    | id => id
  answer := match r.answer with
    | .result v => .result (redactValue v)
    | .error e => .error (redactFields e)

/-- The ways in which a response becomes a result of the tool. -/
inductive Path where
  /-- The id of the response is another number, or null. -/
  | otherId
  /-- The id of the response is a text. -/
  | textId
  /-- A protocol-level error. -/
  | serverError
  /-- A result that is no object: a text, a list, or without texts. -/
  | textResult
  | listResult
  | bareResult
  /-- A result that is an object, as MCP has it. -/
  | objectResult
deriving DecidableEq

/-- The way a response to a request takes. -/
def Response.path (r : Response) (id : Int) : Path :=
  match r.id with
  | .str _ => .textId
  | .null => .otherId
  | .int n =>
      if n = id then
        match r.answer with
        | .error _ => .serverError
        | .result (.obj _) => .objectResult
        | .result (.str _) => .textResult
        | .result (.arr _) => .listResult
        | .result _ => .bareResult
      else .otherId

/-- Whatever response comes that way, its result is that of every response it cannot be
    told from once both are redacted. -/
def Scrubs (a : ToolAdapter) (timeoutText : PyStr) (id : Int) (p : Path) : Prop :=
  ∀ r r' : Response, r.path id = p → redactResponse r = redactResponse r' →
    a.answered timeoutText id r = a.answered timeoutText id r'

-- ============================================================================
-- The path of objects
-- ============================================================================

/-- Taking out the output and redacting it commute. -/
theorem redactValue_extractOutput (content : Option Json) :
    redactValue (extractOutput content) = extractOutput (content.map redactValue) := by
  have hnil : redactValue (.str []) = .str [] := rfl
  cases content with
  | none => exact hnil
  | some v =>
      cases v with
      | str s => exact hnil
      | obj kvs => exact hnil
      | null => exact hnil
      | bool b => exact hnil
      | int n => exact hnil
      | float r => exact hnil
      | arr xs =>
          rcases xs with _ | ⟨x, xs⟩
          · exact hnil
          · rcases xs with _ | ⟨y, xs⟩
            · cases x with
              | obj block =>
                  have htype : Dict.get? (redactFields block) (py "type") = some (.str (py "text")) ↔
                      Dict.get? block (py "type") = some (.str (py "text")) := by
                    rw [get?_redactFields (by decide +kernel)]
                    cases Dict.get? block (py "type") with
                    | none => exact Iff.rfl
                    | some w =>
                        have htext : redactSecrets (py "text") = py "text" := by decide +kernel
                        cases w with
                        | str s =>
                            have hmark : mark ∉ py "text" := by decide
                            rw [Option.map_some, redactValue, Option.some.injEq, Json.str.injEq,
                              redactSecrets_eq_iff hmark htext, Option.some.injEq, Json.str.injEq]
                        | _ => exact ⟨fun h => (by cases h), fun h => by cases h⟩
                  show redactValue (extractOutput (some (.arr [.obj block])))
                    = extractOutput (some (.arr [.obj (redactFields block)]))
                  rw [extractOutput_block, extractOutput_block]
                  by_cases h : Dict.get? block (py "type") = some (.str (py "text"))
                  · rw [if_pos h, if_pos (htype.mpr h), get?_redactFields (by decide +kernel)]
                    cases Dict.get? block (py "text") with
                    | none => rfl
                    | some t => rfl
                  · rw [if_neg h, if_neg fun h' => h (htype.mp h')]
                    rfl
              | _ => rfl
            · cases x <;> cases y <;> rfl

/-- The result of an object, from its redacted form. -/
theorem execute_object (a : ToolAdapter) (timeoutText : PyStr) (result : Dict) :
    a.execute timeoutText (.returned (.obj result)) =
      let output := extractOutput (Dict.get? (redactFields result) (py "content"))
      if ((Dict.get? (redactFields result) (py "isError")).map Json.truthy).getD false then
        .failed (if asText output = [] then py "MCP server reported a tool error" else asText output)
      else { output := output } := by
  have hcontent : sensitiveKey (py "content") = false := by decide +kernel
  have herror : sensitiveKey (py "isError") = false := by decide +kernel
  have htruthy : ∀ v : Option Json, (v.map redactValue).map Json.truthy = v.map Json.truthy := by
    intro v
    rw [Option.map_map]
    exact congrArg (Option.map · v) (funext truthy_redactValue)
  rw [get?_redactFields hcontent, get?_redactFields herror, htruthy, ← redactValue_extractOutput]
  rfl

theorem redactValue_eq_obj {v : Json} {kvs : Dict} (h : .obj (redactFields kvs) = redactValue v) :
    ∃ kws, v = .obj kws ∧ redactFields kws = redactFields kvs := by
  cases v with
  | obj kws => exact ⟨kws, rfl, (Json.obj.inj h).symm⟩
  | _ => cases h

-- ============================================================================
-- The paths
-- ============================================================================

/-- An id that is no text is not touched. -/
theorem id_of_redact {r r' : Response} (h : redactResponse r = redactResponse r')
    (hid : ∀ s, r.id ≠ .str s) : r'.id = r.id := by
  obtain ⟨rid, answer⟩ := r
  obtain ⟨rid', answer'⟩ := r'
  have hids := congrArg Response.id h
  cases rid with
  | str s => exact absurd rfl (hid s)
  | int n =>
      cases rid' with
      | str s => cases hids
      | int m => exact hids.symm
      | null => cases hids
  | null =>
      cases rid' with
      | str s => cases hids
      | int m => cases hids
      | null => rfl

/-- A result is redacted as a result. -/
theorem result_of_redact {rid rid' : MessageId} {v : Json} {answer : Answer}
    (h : redactResponse ⟨rid, .result v⟩ = redactResponse ⟨rid', answer⟩) :
    ∃ v', answer = .result v' ∧ redactValue v = redactValue v' := by
  have hanswers := congrArg Response.answer h
  cases answer with
  | result v' => exact ⟨v', rfl, Answer.result.inj hanswers⟩
  | error e => cases hanswers

theorem scrubs_otherId (a : ToolAdapter) (timeoutText : PyStr) (id : Int) :
    Scrubs a timeoutText id .otherId := by
  intro r r' hpath hredact
  have hid : (∀ s, r.id ≠ .str s) ∧ r.id ≠ .int id := by
    unfold Response.path at hpath
    cases hrid : r.id with
    | str s =>
        rw [hrid] at hpath
        cases hpath
    | null => exact ⟨fun s hs => (by cases hs), fun hs => (by cases hs)⟩
    | int n =>
        refine ⟨fun s hs => (by cases hs), fun hs => ?_⟩
        rw [hrid, MessageId.int.inj hs] at hpath
        dsimp only at hpath
        rw [if_pos rfl] at hpath
        split at hpath <;> cases hpath
  have hsame := id_of_redact hredact hid.1
  rw [a.answered_other timeoutText hid.2, a.answered_other timeoutText (hsame ▸ hid.2), hsame]

theorem path_own {r : Response} {id : Int} {p : Path} (h : r.path id = p) (hother : p ≠ .otherId)
    (htext : p ≠ .textId) : r.id = .int id := by
  unfold Response.path at h
  split at h
  · exact absurd h.symm htext
  · exact absurd h.symm hother
  · next n heq =>
      by_cases hn : n = id
      · rw [heq, hn]
      · rw [if_neg hn] at h
        exact absurd h.symm hother

theorem path_int (id : Int) (answer : Answer) : Response.path ⟨.int id, answer⟩ id
    = match answer with
      | .error _ => .serverError
      | .result (.obj _) => .objectResult
      | .result (.str _) => .textResult
      | .result (.arr _) => .listResult
      | .result _ => .bareResult := if_pos rfl

/-- Results without texts and results that are objects are seen through the redaction. -/
theorem scrubs_result (a : ToolAdapter) (timeoutText : PyStr) (id : Int) {p : Path}
    (hp : p = .objectResult ∨ p = .bareResult) : Scrubs a timeoutText id p := by
  intro r r' hpath hredact
  have hother : p ≠ .otherId := by rintro rfl; simp at hp
  have htext : p ≠ .textId := by rintro rfl; simp at hp
  have hid := path_own hpath hother htext
  have hid' := id_of_redact hredact fun s hs => by rw [hid] at hs; cases hs
  obtain ⟨rid, answer⟩ := r
  obtain ⟨rid', answer'⟩ := r'
  obtain rfl : rid = .int id := hid
  obtain rfl : rid' = .int id := hid'
  rw [path_int] at hpath
  rw [a.answered_own, a.answered_own]
  cases answer with
  | error e =>
      rcases hp with rfl | rfl
      · cases hpath
      · cases hpath
  | result v =>
      obtain ⟨v', rfl, hvalue⟩ := result_of_redact hredact
      have hbare : redactValue v' = v' → v = v' → a.execute timeoutText (Answer.result v).outcome
          = a.execute timeoutText (Answer.result v').outcome := fun _ heq => by rw [heq]
      cases v with
      | obj kvs =>
          obtain ⟨kws, rfl, hfields⟩ := redactValue_eq_obj hvalue
          show a.execute timeoutText (.returned (.obj kvs)) = a.execute timeoutText (.returned (.obj kws))
          rw [execute_object, execute_object, hfields]
      | str s => rcases hp with rfl | rfl <;> cases hpath
      | arr xs => rcases hp with rfl | rfl <;> cases hpath
      | null => cases v' <;> first | rfl | cases hvalue
      | bool b => cases v' <;> first | (cases hvalue; rfl) | cases hvalue
      | int n => cases v' <;> first | (cases hvalue; rfl) | cases hvalue
      | float f => cases v' <;> first | (cases hvalue; rfl) | cases hvalue

/-- Two texts that redaction makes one. -/
def oneSecret : PyStr := py "password=hunter22"

/-- The other text. -/
def otherSecret : PyStr := py "password=hunter23"

theorem redact_secrets_alike : redactSecrets oneSecret = redactSecrets otherSecret := by decide +kernel

theorem callFailed_inj (a : ToolAdapter) {s t : PyStr} (h : a.callFailed s = a.callFailed t) : s = t := by
  unfold ToolAdapter.callFailed ToolResult.failed at h
  exact List.append_cancel_left (Option.some.inj (congrArg ToolResult.error h))

theorem malformed_inj (a : ToolAdapter) {v w : Json} (h : a.malformed v = a.malformed w) :
    pyRepr v = pyRepr w := by
  unfold ToolAdapter.malformed ToolResult.failed at h
  exact List.append_cancel_left (Option.some.inj (congrArg ToolResult.error h))

theorem mismatchText_inj (method : PyStr) {got got' : MessageId} (id : MessageId)
    (h : mismatchText method got id = mismatchText method got' id) :
    pyRepr got.toJson = pyRepr got'.toJson := by
  unfold mismatchText at h
  exact List.append_cancel_left (List.append_cancel_right (List.append_cancel_right
    (List.append_cancel_right h)))

/-- The id of a response is printed into the error. -/
theorem not_scrubs_textId (a : ToolAdapter) (timeoutText : PyStr) (id : Int) :
    ¬ Scrubs a timeoutText id .textId := by
  intro h
  have hredact : redactResponse ⟨.str oneSecret, .result .null⟩
      = redactResponse ⟨.str otherSecret, .result .null⟩ :=
    congrArg (fun s => (⟨.str s, .result .null⟩ : Response)) redact_secrets_alike
  have hsame := h ⟨.str oneSecret, .result .null⟩ ⟨.str otherSecret, .result .null⟩ rfl hredact
  have hother : ∀ s : PyStr, (MessageId.str s) ≠ .int id := fun s hs => by cases hs
  rw [a.answered_other timeoutText (hother _), a.answered_other timeoutText (hother _)] at hsame
  exact absurd (mismatchText_inj _ _ (callFailed_inj a hsame)) (by decide)

/-- A protocol-level error with this message. -/
def errorWith (message : PyStr) : Answer :=
  .error [(py "code", .int (-32000)), (py "message", .str message)]

theorem redact_errorWith (id message : _) : redactResponse ⟨.int id, errorWith message⟩
    = ⟨.int id, errorWith (redactSecrets message)⟩ := by
  have hkey : sensitiveKey (py "message") = false := by decide +kernel
  simp only [redactResponse, errorWith, redactFields, redactValue, hkey, Bool.false_eq_true, if_false]

theorem outcome_errorWith (message : PyStr) :
    (errorWith message).outcome = .serverError (.int (-32000)) (.str message) .null := by
  have hcode : Dict.get? [(py "code", Json.int (-32000)), (py "message", .str message)] (py "code")
      = some (.int (-32000)) := rfl
  have hmessage : Dict.get? [(py "code", Json.int (-32000)), (py "message", .str message)] (py "message")
      = some (.str message) := rfl
  have hdata : Dict.get? [(py "code", Json.int (-32000)), (py "message", .str message)] (py "data")
      = none := rfl
  rw [errorWith, Answer.outcome, hcode, hmessage, hdata]
  rfl

/-- The message of a protocol-level error is printed into the error. -/
theorem not_scrubs_serverError (a : ToolAdapter) (timeoutText : PyStr) (id : Int) :
    ¬ Scrubs a timeoutText id .serverError := by
  intro h
  have hsame := h ⟨.int id, errorWith oneSecret⟩ ⟨.int id, errorWith otherSecret⟩ (path_int id _)
    (by rw [redact_errorWith, redact_errorWith, redact_secrets_alike])
  rw [a.answered_own, a.answered_own, outcome_errorWith, outcome_errorWith] at hsame
  have htext := callFailed_inj a hsame
  exact absurd (List.append_cancel_left htext) (by decide)

theorem answered_text (a : ToolAdapter) (timeoutText : PyStr) (id : Int) (s : PyStr) :
    a.answered timeoutText id ⟨.int id, .result (.str s)⟩ = a.malformed (.str s) := a.answered_own ..

theorem answered_list (a : ToolAdapter) (timeoutText : PyStr) (id : Int) (xs : List Json) :
    a.answered timeoutText id ⟨.int id, .result (.arr xs)⟩ = a.malformed (.arr xs) := a.answered_own ..

/-- A result that is a text or a list is printed into the error. -/
theorem not_scrubs_malformed (a : ToolAdapter) (timeoutText : PyStr) (id : Int) :
    ¬ Scrubs a timeoutText id .textResult ∧ ¬ Scrubs a timeoutText id .listResult := by
  have hsecret := redact_secrets_alike
  refine ⟨fun h => ?_, fun h => ?_⟩
  · have hsame := h ⟨.int id, .result (.str oneSecret)⟩ ⟨.int id, .result (.str otherSecret)⟩ (path_int id _)
      (congrArg (fun s => (⟨.int id, .result (.str s)⟩ : Response)) hsecret)
    rw [answered_text, answered_text] at hsame
    exact absurd (malformed_inj a hsame) (by decide)
  · have hsame := h ⟨.int id, .result (.arr [.str oneSecret])⟩ ⟨.int id, .result (.arr [.str otherSecret])⟩
      (path_int id _) (congrArg (fun s => (⟨.int id, .result (.arr [.str s])⟩ : Response)) hsecret)
    rw [answered_list, answered_list] at hsame
    exact absurd (malformed_inj a hsame) (by decide)

/-- The texts of a response are seen only through the redaction exactly on these paths: an
    object comes back, or something without texts, or the id is another number or null. -/
theorem scrubs_iff (a : ToolAdapter) (timeoutText : PyStr) (id : Int) (p : Path) :
    Scrubs a timeoutText id p ↔ p = .objectResult ∨ p = .bareResult ∨ p = .otherId := by
  cases p with
  | otherId => exact iff_of_true (scrubs_otherId a timeoutText id) (by decide)
  | textId => exact iff_of_false (not_scrubs_textId a timeoutText id) (by decide)
  | serverError => exact iff_of_false (not_scrubs_serverError a timeoutText id) (by decide)
  | textResult => exact iff_of_false (not_scrubs_malformed a timeoutText id).1 (by decide)
  | listResult => exact iff_of_false (not_scrubs_malformed a timeoutText id).2 (by decide)
  | bareResult => exact iff_of_true (scrubs_result a timeoutText id (by decide)) (by decide)
  | objectResult => exact iff_of_true (scrubs_result a timeoutText id (by decide)) (by decide)

/-- The search tool of a server. -/
def unitySearch : ToolAdapter := ⟨py "search", py "unity", .str [], .obj []⟩

/-- A protocol-level error shows the secret in its message. -/
theorem server_error_shows_secret :
    redactResponse ⟨.int 3, errorWith oneSecret⟩ = redactResponse ⟨.int 3, errorWith otherSecret⟩ ∧
      unitySearch.answered [] 3 ⟨.int 3, errorWith oneSecret⟩
        ≠ unitySearch.answered [] 3 ⟨.int 3, errorWith otherSecret⟩ := by
  refine ⟨?_, by decide⟩
  rw [redact_errorWith, redact_errorWith, redact_secrets_alike]

end Mcp
end KineticSdk
