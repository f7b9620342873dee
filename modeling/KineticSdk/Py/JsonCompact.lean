/-
  KineticSdk.Py.JsonCompact

  `json.dumps(v, sort_keys=True, separators=(",", ":"))`.

  The text gives the value back up to the order of the keys of its dicts
  (`compactSorted_inj`): the tokens of the text are those of the value with its
  keys sorted, and two dicts are equal (`sameValue`) exactly if their items are
  a permutation of each other.
-/

import KineticSdk.Py.JsonRoundTrip
import KineticSdk.Py.Dict
import Mathlib.Data.List.Sort
import Mathlib.Data.List.Lex

namespace KineticSdk
namespace Py

-- ============================================================================
-- The text
-- ============================================================================

/-- `sorted(d.items())`, for a dict, which has no key twice. -/
def sortItems (d : Dict) : Dict := d.insertionSort fun a b => a.1 ≤ b.1

mutual

/-- The value with the keys of every dict in it sorted. -/
def sortKeys : Json → Json
  | .arr xs => .arr (sortKeysList xs)
  | .obj kvs => .obj (sortItems (sortKeysFields kvs))
  | v => v

/-- `sortKeys` on the elements of a list. -/
def sortKeysList : List Json → List Json
  | [] => []
  | x :: xs => sortKeys x :: sortKeysList xs

/-- `sortKeys` on the values of a dict. -/
def sortKeysFields : Dict → Dict
  | [] => []
  | (k, v) :: kvs => (k, sortKeys v) :: sortKeysFields kvs

end

mutual

/-- `json.dumps(v, separators=(",", ":"))`. -/
def compact : Json → PyStr
  | .arr xs => py "[" ++ compactList xs ++ py "]"
  | .obj kvs => py "\x7b" ++ compactFields kvs ++ py "\x7d"
  | v => dumps true v

/-- The elements of an array, separated. -/
def compactList : List Json → PyStr
  | [] => []
  | [x] => compact x
  | x :: xs => compact x ++ py "," ++ compactList xs

/-- The members of an object, separated. -/
def compactFields : Dict → PyStr
  | [] => []
  | [(k, v)] => dumpsStr true k ++ py ":" ++ compact v
  | (k, v) :: kvs => dumpsStr true k ++ py ":" ++ compact v ++ py "," ++ compactFields kvs

end

/-- `json.dumps(v, sort_keys=True, separators=(",", ":"))`. -/
def compactSorted (v : Json) : PyStr := compact (sortKeys v)

example : compactSorted (.obj [(py "b", .arr [.int 1, .null]), (py "a", .obj [])]) =
    py "\x7b\"a\":\x7b\x7d,\"b\":[1,null]\x7d" := by decide

-- ============================================================================
-- The tokens of the text
-- ============================================================================

mutual

/-- Without the blanks the tokens are the same. -/
theorem lex_compact {fl : FloatRepr} :
    (v : Json) → Readable true fl v → {rest : PyStr} → Delimited rest →
      lexFrom .between (compact v ++ rest) = tokens v ++ lexFrom .between rest
  | .null, h, _, hrest => lex_dumps .null h hrest
  | .bool b, h, _, hrest => lex_dumps (.bool b) h hrest
  | .int n, h, _, hrest => lex_dumps (.int n) h hrest
  | .float r, h, _, hrest => lex_dumps (.float r) h hrest
  | .str s, h, _, hrest => lex_dumps (.str s) h hrest
  | .arr xs, h, rest, _ => by
      have hxs := lex_compactList xs h (delimited_rbrack rest)
      have htext : compact (.arr xs) ++ rest = 91 :: (compactList xs ++ (py "]" ++ rest)) := by
        show (91 :: compactList xs ++ py "]") ++ rest = _
        rw [List.append_assoc, List.cons_append]
      rw [htext]
      show .lbrack :: lexFrom .between _ = .lbrack :: (tokensList xs ++ [.rbrack]) ++ _
      rw [hxs, List.cons_append, List.append_assoc]
      rfl
  | .obj kvs, h, rest, _ => by
      have hkvs := lex_compactFields kvs h.2 (delimited_rbrace rest)
      have htext : compact (.obj kvs) ++ rest = 123 :: (compactFields kvs ++ (py "\x7d" ++ rest)) := by
        show (123 :: compactFields kvs ++ py "\x7d") ++ rest = _
        rw [List.append_assoc, List.cons_append]
      rw [htext]
      show .lbrace :: lexFrom .between _ = .lbrace :: (tokensFields kvs ++ [.rbrace]) ++ _
      rw [hkvs, List.cons_append, List.append_assoc]
      rfl

theorem lex_compactList {fl : FloatRepr} :
    (xs : List Json) → ReadableList true fl xs → {rest : PyStr} → Delimited rest →
      lexFrom .between (compactList xs ++ rest) = tokensList xs ++ lexFrom .between rest
  | [], _, _, _ => rfl
  | [x], h, _, hrest => lex_compact x h.1 hrest
  | x :: y :: xs, h, rest, hrest => by
      have hcomma : Delimited (py "," ++ (compactList (y :: xs) ++ rest)) :=
        .inr ⟨44, _, rfl, .inl rfl⟩
      have hsep : ∀ s, lexFrom .between (py "," ++ s) = .comma :: lexFrom .between s := fun _ => rfl
      have hx := lex_compact x h.1 hcomma
      have hxs := lex_compactList (y :: xs) h.2 hrest
      show lexFrom .between ((compact x ++ py "," ++ compactList (y :: xs)) ++ rest)
        = (tokens x ++ .comma :: tokensList (y :: xs)) ++ _
      rw [List.append_assoc, List.append_assoc, hx, hsep, hxs, List.append_assoc]
      rfl

theorem lex_compactFields {fl : FloatRepr} :
    (kvs : Dict) → ReadableFields true fl kvs → {rest : PyStr} → Delimited rest →
      lexFrom .between (compactFields kvs ++ rest) = tokensFields kvs ++ lexFrom .between rest
  | [], _, _, _ => rfl
  | [(k, v)], h, rest, hrest => by
      have hcolon : ∀ s, lexFrom .between (py ":" ++ s) = .colon :: lexFrom .between s := fun _ => rfl
      have hk := lex_dumpsStr h.1 (py ":" ++ (compact v ++ rest))
      have hv := lex_compact v h.2.1 hrest
      show lexFrom .between ((dumpsStr true k ++ py ":" ++ compact v) ++ rest)
        = (.str k :: .colon :: tokens v) ++ _
      rw [List.append_assoc, List.append_assoc, hk, hcolon, hv]
      rfl
  | (k, v) :: kv :: kvs, h, rest, hrest => by
      have hcolon : ∀ s, lexFrom .between (py ":" ++ s) = .colon :: lexFrom .between s := fun _ => rfl
      have hsep : ∀ s, lexFrom .between (py "," ++ s) = .comma :: lexFrom .between s := fun _ => rfl
      have hcomma : Delimited (py "," ++ (compactFields (kv :: kvs) ++ rest)) :=
        .inr ⟨44, _, rfl, .inl rfl⟩
      have hk := lex_dumpsStr h.1 (py ":" ++ (compact v ++ (py "," ++
        (compactFields (kv :: kvs) ++ rest))))
      have hv := lex_compact v h.2.1 hcomma
      have hkvs := lex_compactFields (kv :: kvs) h.2.2 hrest
      show lexFrom .between ((dumpsStr true k ++ py ":" ++ compact v ++ py "," ++
          compactFields (kv :: kvs)) ++ rest)
        = (.str k :: .colon :: (tokens v ++ .comma :: tokensFields (kv :: kvs))) ++ _
      rw [List.append_assoc, List.append_assoc, List.append_assoc, List.append_assoc, hk, hcolon,
        hv, hsep, hkvs]
      simp only [List.cons_append, List.append_assoc]

end

/-- The text without blanks gives the value back. -/
theorem compact_inj {fl : FloatRepr} {a b : Json} (ha : Readable true fl a) (hb : Readable true fl b)
    (h : compact a = compact b) : a = b := by
  have hread : ∀ v, Readable true fl v → loads {} fl (compact v) = .ok v := by
    intro v hv
    have hlex := lex_compact v hv (.inl rfl : Delimited [])
    have hend : lexFrom .between [] = [] := rfl
    rw [List.append_nil, hend, List.append_nil] at hlex
    have htokens : (tokens v).foldlM (Reader.step {} fl) {} = .ok (Reader.complete [] v) :=
      read_tokens v hv []
    rw [loads, readTokens, hlex, htokens]
    rfl
  have hsame : (.ok a : Except LoadsError Json) = .ok b := by
    rw [← hread a ha, ← hread b hb, h]
  exact Except.ok.inj hsame

-- ============================================================================
-- Sorted keys
-- ============================================================================

theorem sortItems_perm (d : Dict) : (sortItems d).Perm d := List.perm_insertionSort _ d

theorem sortItems_sorted (d : Dict) : (sortItems d).Pairwise fun a b => a.1 ≤ b.1 :=
  List.pairwise_insertionSort _ d

/-- Dicts have the same items exactly if they are sorted alike. -/
theorem sortItems_eq_iff {d e : Dict} (hd : (d.map Prod.fst).Nodup) :
    sortItems d = sortItems e ↔ d.Perm e := by
  constructor
  · intro h
    exact (sortItems_perm d).symm.trans (h ▸ sortItems_perm e)
  · intro h
    have hperm : (sortItems d).Perm (sortItems e) :=
      (sortItems_perm d).trans (h.trans (sortItems_perm e).symm)
    refine hperm.eq_of_pairwise (fun a b ha hb hab hba => ?_) (sortItems_sorted d) (sortItems_sorted e)
    have hkey : a.1 = b.1 := le_antisymm hab hba
    have ha' : a ∈ d := (sortItems_perm d).subset ha
    have hb' : b ∈ d := h.symm.subset ((sortItems_perm e).subset hb)
    exact List.inj_on_of_nodup_map hd ha' hb' hkey

theorem sortKeysFields_eq_map (kvs : Dict) :
    sortKeysFields kvs = kvs.map fun kv => (kv.1, sortKeys kv.2) := by
  induction kvs with
  | nil => rfl
  | cons kv kvs ih =>
      rw [sortKeysFields, ih, List.map_cons]

theorem keys_sortKeysFields (kvs : Dict) : (sortKeysFields kvs).map Prod.fst = kvs.map Prod.fst := by
  rw [sortKeysFields_eq_map, List.map_map]
  rfl

theorem readableFields_iff {fl : FloatRepr} (kvs : Dict) :
    ReadableFields true fl kvs ↔ ∀ kv ∈ kvs, TextOk true kv.1 ∧ Readable true fl kv.2 := by
  induction kvs with
  | nil => simp [ReadableFields]
  | cons kv kvs ih => simp [ReadableFields, ih, and_assoc]

mutual

theorem readable_sortKeys {fl : FloatRepr} :
    (v : Json) → Readable true fl v → Readable true fl (sortKeys v)
  | .null, h | .bool _, h | .int _, h | .float _, h | .str _, h => h
  | .arr xs, h => readable_sortKeysList xs h
  | .obj kvs, h => by
      have hperm := sortItems_perm (sortKeysFields kvs)
      refine ⟨?_, (readableFields_iff _).mpr fun kv hkv => ?_⟩
      · rw [(hperm.map Prod.fst).nodup_iff, keys_sortKeysFields]
        exact h.1
      · exact (readableFields_iff _).mp (readable_sortKeysFields kvs h.2) kv (hperm.subset hkv)

theorem readable_sortKeysList {fl : FloatRepr} :
    (xs : List Json) → ReadableList true fl xs → ReadableList true fl (sortKeysList xs)
  | [], _ => trivial
  | x :: xs, h => ⟨readable_sortKeys x h.1, readable_sortKeysList xs h.2⟩

theorem readable_sortKeysFields {fl : FloatRepr} :
    (kvs : Dict) → ReadableFields true fl kvs → ReadableFields true fl (sortKeysFields kvs)
  | [], _ => trivial
  | (_, v) :: kvs, h => ⟨h.1, readable_sortKeys v h.2.1, readable_sortKeysFields kvs h.2.2⟩

end

-- ============================================================================
-- Equality up to the order of keys
-- ============================================================================

mutual

/-- The values are equal, whatever the order of the keys of their dicts. -/
def sameValue : Json → Json → Prop
  | .arr xs, .arr ys => sameList xs ys
  | .obj kvs, .obj kws => kvs.length = kws.length ∧ sameFields kvs kws
  | a, b => a = b

/-- The elements are equal one by one. -/
def sameList : List Json → List Json → Prop
  | [], [] => True
  | x :: xs, y :: ys => sameValue x y ∧ sameList xs ys
  | _, _ => False

/-- Every key has an equal value in the other dict. -/
def sameFields : Dict → Dict → Prop
  | [], _ => True
  | (k, v) :: kvs, kws => (∃ w, Dict.get? kws k = some w ∧ sameValue v w) ∧ sameFields kvs kws

end

theorem perm_of_sameItems {d e : Dict} (hd : (d.map Prod.fst).Nodup) (hlen : d.length = e.length)
    (h : ∀ kv ∈ d, kv ∈ e) : d.Perm e :=
  (List.subperm_of_subset hd.of_map h).perm_of_length_le (by omega)

mutual

/-- Values are equal up to the order of keys exactly if they are with the keys sorted. -/
theorem sortKeys_eq_iff {fl : FloatRepr} :
    (a b : Json) → Readable true fl a → Readable true fl b → (sortKeys a = sortKeys b ↔ sameValue a b)
  | .null, b, _, _ | .bool _, b, _, _ | .int _, b, _, _ | .float _, b, _, _ | .str _, b, _, _ => by
      cases b <;> simp [sortKeys, sameValue]
  | .arr xs, b, ha, hb => by
      cases b with
      | arr ys =>
          have hxs := sortKeysList_eq_iff xs ys ha hb
          simpa [sortKeys, sameValue] using hxs
      | null | bool | int | float | str | obj => simp [sortKeys, sameValue]
  | .obj kvs, b, ha, hb => by
      cases b with
      | obj kws =>
          have hkeys : ((sortKeysFields kvs).map Prod.fst).Nodup := by
            rw [keys_sortKeysFields]
            exact ha.1
          have hsorted : sortKeys (.obj kvs) = sortKeys (.obj kws) ↔
              (sortKeysFields kvs).Perm (sortKeysFields kws) := by
            rw [← sortItems_eq_iff hkeys, sortKeys, sortKeys, Json.obj.injEq]
          have hfields := sortKeysFields_subset_iff kvs kws ha.2 hb.1 hb.2
          have hlen : (sortKeysFields kvs).length = (sortKeysFields kws).length ↔
              kvs.length = kws.length := by
            rw [sortKeysFields_eq_map, sortKeysFields_eq_map, List.length_map, List.length_map]
          rw [hsorted, sameValue, ← hfields, ← hlen]
          exact ⟨fun h => ⟨h.length_eq, fun kv hkv => h.subset hkv⟩,
            fun h => perm_of_sameItems hkeys h.1 h.2⟩
      | null | bool | int | float | str | arr => simp [sortKeys, sameValue]

theorem sortKeysList_eq_iff {fl : FloatRepr} :
    (xs ys : List Json) → ReadableList true fl xs → ReadableList true fl ys →
      (sortKeysList xs = sortKeysList ys ↔ sameList xs ys)
  | [], ys, _, _ => by cases ys <;> simp [sortKeysList, sameList]
  | x :: xs, ys, hxs, hys => by
      cases ys with
      | nil => simp [sortKeysList, sameList]
      | cons y ys =>
          have hx := sortKeys_eq_iff x y hxs.1 hys.1
          have htail := sortKeysList_eq_iff xs ys hxs.2 hys.2
          rw [sortKeysList, sortKeysList, List.cons.injEq, hx, htail, sameList]

theorem sortKeysFields_subset_iff {fl : FloatRepr} :
    (kvs kws : Dict) → ReadableFields true fl kvs → (kws.map Prod.fst).Nodup →
      ReadableFields true fl kws →
      ((∀ kv ∈ sortKeysFields kvs, kv ∈ sortKeysFields kws) ↔ sameFields kvs kws)
  | [], _, _, _, _ => by simp [sortKeysFields, sameFields]
  | (k, v) :: kvs, kws, hkvs, hnodup, hkws => by
      have htail := sortKeysFields_subset_iff kvs kws hkvs.2.2 hnodup hkws
      have hhead : (k, sortKeys v) ∈ sortKeysFields kws ↔
          ∃ w, Dict.get? kws k = some w ∧ sameValue v w := by
        rw [sortKeysFields_eq_map, List.mem_map]
        constructor
        · rintro ⟨⟨k', w⟩, hmem, heq⟩
          obtain ⟨rfl, hw⟩ := Prod.mk.inj heq
          have hreads := ((readableFields_iff kws).mp hkws _ hmem).2
          exact ⟨w, Dict.get?_of_mem hnodup hmem, (sortKeys_eq_iff v w hkvs.2.1 hreads).mp hw.symm⟩
        · rintro ⟨w, hget, hsame⟩
          have hmem := Dict.mem_of_get? hget
          have hreads := ((readableFields_iff kws).mp hkws _ hmem).2
          exact ⟨(k, w), hmem, by rw [(sortKeys_eq_iff v w hkvs.2.1 hreads).mpr hsame]⟩
      rw [sortKeysFields, List.forall_mem_cons, hhead, htail, sameFields]

end

/-- The text with sorted keys is the same exactly for values that are equal up
    to the order of keys. -/
theorem compactSorted_inj {fl : FloatRepr} {a b : Json} (ha : Readable true fl a)
    (hb : Readable true fl b) : compactSorted a = compactSorted b ↔ sameValue a b := by
  rw [← sortKeys_eq_iff a b ha hb]
  constructor
  · exact compact_inj (readable_sortKeys a ha) (readable_sortKeys b hb)
  · intro h
    rw [compactSorted, compactSorted, h]

end Py
end KineticSdk
