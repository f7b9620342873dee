/-
  KineticSdk.Security.Secrecy

  What the values of sensitive keys can change in the logs.

  Two values that differ in nothing but strings under sensitive keys are
  redacted to one value, so the entries of a call, a result and a denial do not
  tell them apart.  `log_event` redacts its fields one by one and never looks at
  their names; a string field with a sensitive name goes into the entry like
  any other text.
-/

import Mathlib.Data.List.Nodup
import KineticSdk.Security.Audit

namespace KineticSdk
namespace Security

open Py Tool

-- ============================================================================
-- Values that differ in secrets only
-- ============================================================================

mutual

/-- Values of one shape that differ in strings under sensitive keys only. -/
inductive Alike : Json → Json → Prop
  | null : Alike .null .null
  | bool (b : Bool) : Alike (.bool b) (.bool b)
  | int (n : Int) : Alike (.int n) (.int n)
  | float (r : PyStr) : Alike (.float r) (.float r)
  | str (s : PyStr) : Alike (.str s) (.str s)
  | arr {xs ys : List Json} (h : AlikeList xs ys) : Alike (.arr xs) (.arr ys)
  | obj {kvs kws : Dict} (h : AlikeFields kvs kws) : Alike (.obj kvs) (.obj kws)

/-- `Alike` on the elements of two lists. -/
inductive AlikeList : List Json → List Json → Prop
  | nil : AlikeList [] []
  | cons {x y : Json} {xs ys : List Json} (h : Alike x y) (hs : AlikeList xs ys) :
      AlikeList (x :: xs) (y :: ys)

/-- `Alike` on the items of two dicts. -/
inductive AlikeFields : Dict → Dict → Prop
  | nil : AlikeFields [] []
  | secret {k : PyStr} (hk : sensitiveKey k = true) (s t : PyStr) {kvs kws : Dict}
      (hs : AlikeFields kvs kws) : AlikeFields ((k, .str s) :: kvs) ((k, .str t) :: kws)
  | field (k : PyStr) {v w : Json} {kvs kws : Dict} (h : Alike v w) (hs : AlikeFields kvs kws) :
      AlikeFields ((k, v) :: kvs) ((k, w) :: kws)

end

mutual

theorem Alike.refl : (v : Json) → Alike v v
  | .null => .null
  | .bool b => .bool b
  | .int n => .int n
  | .float r => .float r
  | .str s => .str s
  | .arr xs => .arr (AlikeList.refl xs)
  | .obj kvs => .obj (AlikeFields.refl kvs)

theorem AlikeList.refl : (xs : List Json) → AlikeList xs xs
  | [] => .nil
  | x :: xs => .cons (Alike.refl x) (AlikeList.refl xs)

theorem AlikeFields.refl : (kvs : Dict) → AlikeFields kvs kvs
  | [] => .nil
  | (k, v) :: kvs => .field k (Alike.refl v) (AlikeFields.refl kvs)

end

/-- An item whose value is redacted alike is redacted alike. -/
theorem redactFields_cons_congr (k : PyStr) {v w : Json} {kvs kws : Dict} (h : Alike v w)
    (hvalue : redactValue v = redactValue w) (hrest : redactFields kvs = redactFields kws) :
    redactFields ((k, v) :: kvs) = redactFields ((k, w) :: kws) := by
  cases h with
  | arr => simp only [redactFields, hvalue, hrest]
  | obj => simp only [redactFields, hvalue, hrest]
  | _ => simp only [redactFields, hrest]

mutual

/-- Values that differ in secrets only are redacted to one value. -/
theorem Alike.redact : {v w : Json} → Alike v w → redactValue v = redactValue w
  | _, _, .null => rfl
  | _, _, .bool _ => rfl
  | _, _, .int _ => rfl
  | _, _, .float _ => rfl
  | _, _, .str _ => rfl
  | _, _, .arr h => by rw [redactValue, redactValue, h.redact]
  | _, _, .obj h => by rw [redactValue, redactValue, h.redact]

theorem AlikeList.redact : {xs ys : List Json} → AlikeList xs ys → redactList xs = redactList ys
  | _, _, .nil => rfl
  | _, _, .cons h hs => by rw [redactList, redactList, h.redact, hs.redact]

theorem AlikeFields.redact : {kvs kws : Dict} → AlikeFields kvs kws →
    redactFields kvs = redactFields kws
  | _, _, .nil => rfl
  | _, _, .secret hk _ _ hs => by rw [redactFields, redactFields, hs.redact, if_pos hk, if_pos hk]
  | _, _, .field k h hs => redactFields_cons_congr k h h.redact hs.redact

end

-- ============================================================================
-- What redaction keeps
-- ============================================================================

mutual

/-- The value without its texts: the keys, the lengths and the other leaves. -/
def skeleton : Json → Json
  | .str _ => .str []
  | .arr xs => .arr (skeletonList xs)
  | .obj kvs => .obj (skeletonFields kvs)
  | v => v

/-- `skeleton` on the elements of a list. -/
def skeletonList : List Json → List Json
  | [] => []
  | x :: xs => skeleton x :: skeletonList xs

/-- `skeleton` on the items of a dict. -/
def skeletonFields : Dict → Dict
  | [] => []
  | (k, v) :: kvs => (k, skeleton v) :: skeletonFields kvs

end

mutual

theorem skeleton_redact : (v : Json) → skeleton (redactValue v) = skeleton v
  | .null => rfl
  | .bool _ => rfl
  | .int _ => rfl
  | .float _ => rfl
  | .str _ => rfl
  | .arr xs => by rw [redactValue, skeleton, skeletonList_redact xs, skeleton]
  | .obj kvs => by rw [redactValue, skeleton, skeletonFields_redact kvs, skeleton]

theorem skeletonList_redact : (xs : List Json) →
    skeletonList (redactList xs) = skeletonList xs
  | [] => rfl
  | x :: xs => by
      rw [redactList, skeletonList, skeletonList, skeleton_redact x, skeletonList_redact xs]

theorem skeletonFields_redact : (kvs : Dict) →
    skeletonFields (redactFields kvs) = skeletonFields kvs
  | [] => rfl
  | (k, v) :: kvs => by
      have hrest := skeletonFields_redact kvs
      have hvalue := skeleton_redact v
      cases v with
      | str s =>
          by_cases hk : sensitiveKey k = true
          · simp [redactFields, skeletonFields, skeleton, hk, hrest]
          · simp [redactFields, skeletonFields, skeleton, hk, hrest]
      | _ => simp only [redactFields, skeletonFields, hvalue, hrest]

end

-- ============================================================================
-- The entries
-- ============================================================================

/-- `_entry`: the common fields, updated with those of the event. -/
def entry (id timestamp event toolName : PyStr) (fields : Dict) : Json :=
  .obj (fields.foldl (fun d kv => Dict.set d kv.1 kv.2)
    [(py "id", .str id), (py "timestamp", .str timestamp), (py "event", .str event),
      (py "tool_name", .str toolName)])

/-- `log_tool_call`. -/
def logToolCall (id timestamp toolName : PyStr) (toolInput : Json) (d : PermissionDecision) :
    Json :=
  entry id timestamp (py "tool_call") toolName
    [(py "input", redactValue toolInput), (py "decision", d.toJson)]

/-- `log_tool_result`. -/
def logToolResult (id timestamp toolName : PyStr) (result : ToolResult) : Json :=
  entry id timestamp (py "tool_result") toolName
    [(py "result", .obj [(py "is_error", .bool result.isError),
      (py "output", redactValue result.output), (py "error", redactValue (optStr result.error))])]

/-- `log_permission_denied`. -/
def logPermissionDenied (id timestamp toolName : PyStr) (toolInput : Json) (reason : PyStr) :
    Json :=
  entry id timestamp (py "permission_denied") toolName
    [(py "input", redactValue toolInput), (py "reason", .str reason)]

/-- The keyword arguments of a call. -/
structure Kwargs where
  items : Dict
  distinct : (items.map Prod.fst).Nodup

/-- `log_event`: every field value is redacted, by itself. -/
def logEvent (id timestamp event subject : PyStr) (fields : Kwargs) : Json :=
  entry id timestamp event subject (fields.items.map fun kv => (kv.1, redactValue kv.2))

/-- The entries of tool calls, results and denials are those of `AuditEntry`,
    with an id and a timestamp in front. -/
theorem entry_of_auditEntry (id timestamp : PyStr) (e : AuditEntry) :
    Json.obj ([(py "id", .str id), (py "timestamp", .str timestamp)]
        ++ (match e.toJson with | .obj kvs => kvs | _ => [])) =
      match e with
      | .toolCall toolName toolInput d => logToolCall id timestamp toolName toolInput d
      | .toolResult toolName result => logToolResult id timestamp toolName result
      | .permissionDenied toolName toolInput reason =>
          logPermissionDenied id timestamp toolName toolInput reason := by
  cases e <;> rfl

/-- What is read from a dict updated with items of distinct keys. -/
theorem get?_foldl_set {β : Type} (d : List (PyStr × β)) {items : List (PyStr × β)}
    (hnodup : (items.map Prod.fst).Nodup) {k : PyStr} {v : β} (h : (k, v) ∈ items) :
    Dict.get? (items.foldl (fun d kv => Dict.set d kv.1 kv.2) d) k = some v := by
  have hother : ∀ (items : List (PyStr × β)) (d : List (PyStr × β)), k ∉ items.map Prod.fst →
      Dict.get? (items.foldl (fun d kv => Dict.set d kv.1 kv.2) d) k = Dict.get? d k := by
    intro items
    induction items with
    | nil => exact fun d _ => rfl
    | cons item items ih =>
        intro d hk
        rw [List.map_cons, List.mem_cons, not_or] at hk
        rw [List.foldl_cons, ih _ hk.2, Dict.get?_set_of_ne d item.2 (Ne.symm hk.1)]
  induction items generalizing d with
  | nil => cases h
  | cons item items ih =>
      rw [List.map_cons, List.nodup_cons] at hnodup
      rw [List.foldl_cons]
      rcases List.mem_cons.mp h with rfl | hlater
      · rw [hother items _ hnodup.1, Dict.get?_set_self]
      · exact ih _ hnodup.2 hlater

/-- A field of an event is in its entry, redacted by itself. -/
theorem field_of_logEvent (id timestamp event subject : PyStr) {fields : Kwargs} {k : PyStr}
    {v : Json} (h : (k, v) ∈ fields.items) :
    ∃ kvs, logEvent id timestamp event subject fields = .obj kvs ∧
      Dict.get? kvs k = some (redactValue v) := by
  refine ⟨_, rfl, ?_⟩
  refine get?_foldl_set _ ?_ (List.mem_map.mpr ⟨(k, v), h, rfl⟩)
  rw [List.map_map]
  exact fields.distinct

/-- Fields without strings of a sensitive name are redacted alike one by one. -/
theorem AlikeFields.map_redact {kvs kws : Dict} (h : AlikeFields kvs kws)
    (hno : ∀ k s, (k, .str s) ∈ kvs → sensitiveKey k = false) :
    kvs.map (fun kv => (kv.1, redactValue kv.2)) = kws.map fun kv => (kv.1, redactValue kv.2) := by
  induction kvs generalizing kws with
  | nil =>
      cases h
      rfl
  | cons item kvs ih =>
      have hrest := fun k s hmem => hno k s (List.mem_cons_of_mem item hmem)
      cases h with
      | @secret k hk s t _ _ hs =>
          rw [hno k s (List.mem_cons_self ..)] at hk
          cases hk
      | field k hvalue hs => rw [List.map_cons, List.map_cons, hvalue.redact, ih hs hrest]

/-- The fields with another text under one name. -/
def Kwargs.setText (fields : Kwargs) (k t : PyStr) : Kwargs where
  items := fields.items.map fun kv => if kv.1 = k then (k, .str t) else kv
  distinct := by
    have hkeys : (fields.items.map fun kv => if kv.1 = k then (k, Json.str t) else kv).map Prod.fst
        = fields.items.map Prod.fst := by
      rw [List.map_map]
      refine List.map_congr_left fun kv _ => ?_
      by_cases hk : kv.1 = k
      · simp [hk]
      · simp [hk]
    rw [hkeys]
    exact fields.distinct

/-- Items whose values under one sensitive name are one text differ in a secret
    only when that text is replaced. -/
theorem alike_map_text {items : Dict} {k s : PyStr} (hk : sensitiveKey k = true) (t : PyStr)
    (h : ∀ kv ∈ items, kv.1 = k → kv.2 = .str s) :
    AlikeFields items (items.map fun kv => if kv.1 = k then (k, .str t) else kv) := by
  induction items with
  | nil => exact .nil
  | cons item items ih =>
      have hrest := ih fun kv hkv => h kv (List.mem_cons_of_mem item hkv)
      obtain ⟨k', v⟩ := item
      by_cases heq : k' = k
      · have hv : v = .str s := h (k', v) (List.mem_cons_self ..) heq
        subst heq hv
        simp only [List.map_cons, ↓reduceIte]
        exact .secret hk s t hrest
      · simp only [List.map_cons, heq, ↓reduceIte]
        exact .field k' (Alike.refl v) hrest

/-- Another text under a sensitive name is a difference in a secret only. -/
theorem alike_setText {fields : Kwargs} {k s : PyStr} (hk : sensitiveKey k = true)
    (h : (k, .str s) ∈ fields.items) (t : PyStr) :
    AlikeFields fields.items (fields.setText k t).items := by
  have hvalue : ∀ kv ∈ fields.items, kv.1 = k → kv.2 = .str s := by
    intro kv hkv heq
    rw [List.inj_on_of_nodup_map fields.distinct hkv h heq]
  exact alike_map_text hk t hvalue

/-- Redaction tells any text from one of two. -/
theorem exists_redacted_ne (s : PyStr) : ∃ t, redactSecrets t ≠ redactSecrets s := by
  have hempty : redactSecrets [] = [] := by decide +kernel
  have hx : redactSecrets (py "x") = py "x" := by decide +kernel
  by_cases h : redactSecrets s = []
  · refine ⟨py "x", ?_⟩
    rw [hx, h]
    decide
  · refine ⟨[], ?_⟩
    rw [hempty]
    exact fun heq => h heq.symm

-- ============================================================================
-- Secrecy
-- ============================================================================

/-- Strings under sensitive keys change neither a redacted value nor the entry
    of a call, a result or a denial, and redaction keeps everything else; they
    change no entry of an event exactly when none of its fields is a string with
    a sensitive name. -/
theorem secrets_do_not_show (id timestamp : PyStr) :
    (∀ v w, Alike v w → redactValue v = redactValue w) ∧
      (∀ v, skeleton (redactValue v) = skeleton v) ∧
      (∀ toolName v w d, Alike v w →
        logToolCall id timestamp toolName v d = logToolCall id timestamp toolName w d) ∧
      (∀ toolName (r r' : ToolResult), r.isError = r'.isError → r.error = r'.error →
        Alike r.output r'.output →
        logToolResult id timestamp toolName r = logToolResult id timestamp toolName r') ∧
      (∀ toolName v w reason, Alike v w →
        logPermissionDenied id timestamp toolName v reason =
          logPermissionDenied id timestamp toolName w reason) ∧
      ∀ event subject (fields : Kwargs),
        (∀ others : Kwargs, AlikeFields fields.items others.items →
          logEvent id timestamp event subject fields =
            logEvent id timestamp event subject others) ↔
          ∀ k s, (k, .str s) ∈ fields.items → sensitiveKey k = false := by
  refine ⟨fun v w h => h.redact, skeleton_redact, ?_, ?_, ?_, ?_⟩
  · intro toolName v w d h
    rw [logToolCall, logToolCall, h.redact]
  · intro toolName r r' hflag herror h
    rw [logToolResult, logToolResult, hflag, herror, h.redact]
  · intro toolName v w reason h
    rw [logPermissionDenied, logPermissionDenied, h.redact]
  · intro event subject fields
    constructor
    · intro hsame k s hmem
      by_contra hk
      have hk' : sensitiveKey k = true := by simpa using hk
      obtain ⟨t, ht⟩ := exists_redacted_ne s
      have hmem' : (k, .str t) ∈ (fields.setText k t).items :=
        List.mem_map.mpr ⟨(k, .str s), hmem, by simp⟩
      obtain ⟨kvs, hentry, hget⟩ := field_of_logEvent id timestamp event subject hmem
      obtain ⟨kws, hentry', hget'⟩ := field_of_logEvent id timestamp event subject hmem'
      have heq := hsame (fields.setText k t) (alike_setText hk' hmem t)
      rw [hentry, hentry'] at heq
      rw [Json.obj.inj heq, hget'] at hget
      simp only [redactValue, Option.some.injEq, Json.str.injEq] at hget
      exact ht hget
    · intro hno others h
      rw [logEvent, logEvent, h.map_redact hno]

/-- A text under the name `token` shows in the entry. -/
theorem token_shows_in_event :
    AlikeFields [(py "token", .str (py "abc"))] [(py "token", .str (py "def"))] ∧
      logEvent (py "1") (py "t") (py "plugin_load") (py "p")
          ⟨[(py "token", .str (py "abc"))], by decide⟩ ≠
        logEvent (py "1") (py "t") (py "plugin_load") (py "p")
          ⟨[(py "token", .str (py "def"))], by decide⟩ := by
  refine ⟨.secret (by decide +kernel) _ _ .nil, ?_⟩
  decide +kernel

end Security
end KineticSdk
