/-
  KineticSdk.Py.Dict

  The keys of a dictionary, in the order in which they first came, and the
  fields of a JSON object.
-/

import KineticSdk.Py.Json
import Mathlib.Data.List.Nodup

namespace KineticSdk
namespace Py
namespace Dict

variable {β : Type _} {d : List (PyStr × β)} {k k' : PyStr} {v : β}

theorem mem_keys_iff (d : List (PyStr × β)) (k : PyStr) :
    k ∈ d.map Prod.fst ↔ (get? d k).isSome = true := by
  induction d with
  | nil => simp
  | cons p d ih =>
      obtain ⟨k', v⟩ := p
      rw [List.map_cons, List.mem_cons, ih, get?_cons]
      by_cases hk : k' = k
      · simp [hk]
      · simp [hk, Ne.symm hk]

theorem mem_keys_of_get? (h : get? d k = some v) : k ∈ d.map Prod.fst := by
  rw [mem_keys_iff, h]
  rfl

theorem get?_of_mem (hd : (d.map Prod.fst).Nodup) (h : (k, v) ∈ d) : get? d k = some v := by
  induction d with
  | nil => cases h
  | cons kv d ih =>
      obtain ⟨k', w⟩ := kv
      obtain ⟨hfresh, hrest⟩ := List.nodup_cons.mp hd
      rw [get?_cons]
      rcases List.mem_cons.mp h with h | h
      · cases h
        rw [if_pos rfl]
      · have hmem : k ∈ d.map Prod.fst := List.mem_map_of_mem h
        have hne : k' ≠ k := fun heq => hfresh (by rw [heq]; exact hmem)
        rw [if_neg hne, ih hrest h]

theorem mem_of_get? (h : get? d k = some v) : (k, v) ∈ d := by
  unfold get? at h
  obtain ⟨kv, hfind, hv⟩ := Option.map_eq_some_iff.mp h
  have hkey : kv.1 = k := by simpa using List.find?_some hfind
  have hmem := List.mem_of_find?_eq_some hfind
  rw [← hkey, ← hv]
  exact hmem

theorem set_of_not_mem (h : k ∉ d.map Prod.fst) (v : β) : set d k v = d ++ [(k, v)] := by
  induction d with
  | nil => rfl
  | cons kv d ih =>
      obtain ⟨k', w⟩ := kv
      have hne : k' ≠ k := fun heq => h (by rw [heq]; exact List.mem_cons_self ..)
      have hrest : k ∉ d.map Prod.fst := fun hk => h (List.mem_cons_of_mem _ hk)
      rw [set, if_neg hne, ih hrest, List.cons_append]

theorem keys_set_of_mem (h : k ∈ d.map Prod.fst) (v : β) :
    (set d k v).map Prod.fst = d.map Prod.fst := by
  induction d with
  | nil => cases h
  | cons kv d ih =>
      obtain ⟨k', w⟩ := kv
      unfold set
      split_ifs with hk
      · rw [List.map_cons, List.map_cons, hk]
      · rw [List.map_cons, List.mem_cons] at h
        have hrest : k ∈ d.map Prod.fst := h.resolve_left fun heq => hk heq.symm
        rw [List.map_cons, List.map_cons, ih hrest]

theorem keys_set_of_not_mem (h : k ∉ d.map Prod.fst) (v : β) :
    (set d k v).map Prod.fst = d.map Prod.fst ++ [k] := by
  rw [set_of_not_mem h, List.map_append]
  rfl

theorem mem_keys_set (h : k' ∈ (set d k v).map Prod.fst) : k' = k ∨ k' ∈ d.map Prod.fst := by
  by_cases hk : k ∈ d.map Prod.fst
  · rw [keys_set_of_mem hk] at h
    exact .inr h
  · rw [keys_set_of_not_mem hk, List.mem_append, List.mem_singleton] at h
    exact h.symm

theorem mem_keys_set_self (d : List (PyStr × β)) (k : PyStr) (v : β) :
    k ∈ (set d k v).map Prod.fst := by
  rw [mem_keys_iff, get?_set_self]
  rfl

theorem nodup_set (h : (d.map Prod.fst).Nodup) (k : PyStr) (v : β) :
    ((set d k v).map Prod.fst).Nodup := by
  by_cases hk : k ∈ d.map Prod.fst
  · rw [keys_set_of_mem hk]
    exact h
  · rw [keys_set_of_not_mem hk]
    exact List.nodup_append.mpr ⟨h, List.nodup_singleton k, fun a ha b hb heq =>
      hk (by rw [← List.mem_singleton.mp hb, ← heq]; exact ha)⟩

theorem keys_pop (d : List (PyStr × β)) (k : PyStr) :
    (pop d k).map Prod.fst = (d.map Prod.fst).filter fun k' => k' ≠ k := by
  induction d with
  | nil => rfl
  | cons kv d ih =>
      obtain ⟨k', w⟩ := kv
      by_cases hk : k' = k
      · simpa [pop, hk] using ih
      · simpa [pop, hk] using ih

end Dict

/-- `data.get(key)`. -/
def field (data : Dict) (key : String) : Json := (Dict.get? data (py key)).getD .null

end Py
end KineticSdk
