/-
  KineticSdk.Memory.Vector

  Search by keywords (`memory/inmemory.py`, `memory/provider.py`) and by embeddings
  (`memory/vector.py`).

  A `VectorMemory` keeps its vectors in a second list beside the entries.  Every
  operation answers as an `InMemoryMemory` would and leaves the two lists aligned, with
  each entry beside the vector of its own text (`vectorMemory_refines`).  Both searches
  rank by the score and, among equals, the later entry first (`Lib.Ranking`).

  Embeddings and their cosine are parameters; scores are compared only.
-/

import KineticSdk.Lib.Ranking
import KineticSdk.Lib.Steps
import KineticSdk.Lib.Traverse
import KineticSdk.Memory.InMemory
import Mathlib.Algebra.GroupWithZero.Nat
import Mathlib.Data.List.Dedup
import Mathlib.Data.List.Lex
import Mathlib.Data.Prod.Lex

namespace KineticSdk
namespace Memory

open Py Lib.Ranking Lib.Steps

-- ============================================================================
-- Keywords
-- ============================================================================

/-- A character that `_TOKEN_RE` matches. -/
def isTokenChar (c : Nat) : Bool :=
  (48 ≤ c && c ≤ 57) || (97 ≤ c && c ≤ 122) || (65 ≤ c && c ≤ 90) || (0xE0 ≤ c && c ≤ 0x1EF9)
    || (0xC0 ≤ c && c ≤ 0x1EF8) || c == 95

/-- `_STOPWORDS`. -/
def stopwords : List PyStr :=
  [py "the", py "a", py "an", py "and", py "or", py "of", py "to", py "in", py "on", py "for", py "with", py "is",
    py "are", py "was", py "were", py "be", py "it", py "its", py "this", py "that", py "và", py "của", py "là",
    py "cho", py "với", py "trong", py "một", py "các", py "những", py "được"]

/-- `_TOKEN_RE.findall`, `word` being read. -/
def tokenRuns : PyStr → PyStr → List PyStr
  | word, [] => if word = [] then [] else [word]
  | word, c :: cs =>
      if isTokenChar c then tokenRuns (word ++ [c]) cs
      else if word = [] then tokenRuns [] cs else word :: tokenRuns [] cs

/-- `tokens`, with `str.lower`. -/
def tokens (lower : PyStr → PyStr) (text : PyStr) : List PyStr :=
  ((tokenRuns [] (lower text)).filter fun word => word ∉ stopwords ∧ 1 < word.length).dedup

/-- `relevance`, less the division by the number of tokens in the query, which is the
    same for all entries. -/
def relevance (lower : PyStr → PyStr) (query entryText : PyStr) : Nat :=
  ((tokens lower query).filter fun word => word ∈ tokens lower entryText).length

-- ============================================================================
-- Search
-- ============================================================================

/-- The filters of a search, and the time it happens at. -/
structure Filters (cal : Calendar) where
  tiers : Option (List MemoryTier) := none
  scope : Option (List (PyStr × PyStr)) := none
  includeExpired : Bool := false
  now : cal.Time

/-- The entry passes the filters. -/
def Filters.visible {cal : Calendar} (f : Filters cal) (entry : MemoryEntry) : Bool :=
  (f.tiers.all fun ts => entry.tier ∈ ts) && matchesScope entry f.scope
    && (f.includeExpired || !isExpired cal f.now entry)

/-- `InMemoryMemory.all`. -/
def allMatching {cal : Calendar} (entries : List MemoryEntry) (f : Filters cal) : List MemoryEntry :=
  entries.filter f.visible

/-- An entry with its score and its index. -/
structure Scored (σ : Type) where
  score : σ
  index : Nat
  entry : MemoryEntry

/-- `(value[0], value[1])`. -/
def Scored.key {σ : Type} (s : Scored σ) : σ ×ₗ Nat := toLex (s.score, s.index)

/-- What both searches do with the scores: `sort(reverse=True)`, `score > 0`, `[:limit]`. -/
def ranked {σ : Type} [LinearOrder σ] [Zero σ] (limit : Int) (scored : List (Scored σ)) : List MemoryEntry :=
  (top Scored.key (fun s => decide (0 < s.score)) limit.toNat scored).map Scored.entry

/-- The scores of `InMemoryMemory.search`. -/
def keywordScores {cal : Calendar} (lower : PyStr → PyStr) (entries : List MemoryEntry) (query : PyStr)
    (f : Filters cal) : List (Scored Nat) :=
  (allMatching entries f).zipIdx.map fun p => ⟨relevance lower query p.1.text, p.2, p.1⟩

/-- `InMemoryMemory.search`. -/
def search {cal : Calendar} (lower : PyStr → PyStr) (entries : List MemoryEntry) (query : PyStr) (limit : Int)
    (f : Filters cal) : List MemoryEntry :=
  if limit ≤ 0 then [] else ranked limit (keywordScores lower entries query f)

-- ============================================================================
-- Entries with vectors
-- ============================================================================

/-- `VectorMemory`: `none` stands beside an entry whose text could not be embedded. -/
structure VectorMemory (V : Type) where
  entries : List MemoryEntry
  vectors : List (Option V)
  aligned : vectors.length = entries.length

variable {V : Type}

/-- `zip(self._entries, self._vectors)`. -/
def VectorMemory.pairs (m : VectorMemory V) : List (MemoryEntry × Option V) := m.entries.zip m.vectors

/-- `[entry for entry, _ in keep], [vector for _, vector in keep]`. -/
def VectorMemory.ofPairs (keep : List (MemoryEntry × Option V)) : VectorMemory V where
  entries := keep.map Prod.fst
  vectors := keep.map Prod.snd
  aligned := by rw [List.length_map, List.length_map]

/-- `VectorMemory.add`, with what `_one` makes of the text. -/
def VectorMemory.add {cal : Calendar} {fl : FloatRepr} (m : VectorMemory V) (a : Add cal fl) (vector : Option V) :
    Except PyExc (VectorMemory V) :=
  a.entry.map fun entry =>
    ⟨m.entries ++ [entry], m.vectors ++ [vector], by rw [List.length_append, List.length_append, m.aligned]; rfl⟩

/-- `VectorMemory.clear`. -/
def VectorMemory.clear (m : VectorMemory V) (scope : Option (List (PyStr × PyStr)))
    (tiers : Option (List MemoryTier)) : VectorMemory V :=
  .ofPairs (m.pairs.filter fun p => !((tiers.all fun ts => p.1.tier ∈ ts) && matchesScope p.1 scope))

/-- `VectorMemory.delete`. -/
def VectorMemory.delete (m : VectorMemory V) (entryId : PyStr) : VectorMemory V × Bool :=
  let keep := m.pairs.filter fun p => p.1.id ≠ entryId
  (.ofPairs keep, keep.length != m.entries.length)

/-- `VectorMemory.purge_expired`. -/
def VectorMemory.purgeExpired (cal : Calendar) (now : cal.Time) (m : VectorMemory V) : VectorMemory V × Nat :=
  let keep := m.pairs.filter fun p => !isExpired cal now p.1
  (.ofPairs keep, m.entries.length - keep.length)

/-- The scores of `VectorMemory.search`. -/
def VectorMemory.scores {cal : Calendar} {σ : Type} (m : VectorMemory V) (cosine : V → V → σ) (query : V)
    (f : Filters cal) : List (Scored σ) :=
  m.pairs.zipIdx.filterMap fun p =>
    p.1.2.bind fun vector => if f.visible p.1.1 then some ⟨cosine query vector, p.2, p.1.1⟩ else none

/-- `VectorMemory.search`, with what `_one` makes of the query. -/
def VectorMemory.search {cal : Calendar} {σ : Type} [LinearOrder σ] [Zero σ] (m : VectorMemory V)
    (cosine : V → V → σ) (query : Option V) (limit : Int) (f : Filters cal) : List MemoryEntry :=
  if limit ≤ 0 then []
  else
    match query with
    | none => []
    | some q => ranked limit (m.scores cosine q f)

-- ============================================================================
-- The vectors stay beside their entries
-- ============================================================================

/-- A call that changes the store; an `add` comes with the embedding of its text. -/
inductive Change (cal : Calendar) (fl : FloatRepr) (V : Type) where
  | add (a : Add cal fl) (vector : Option V)
  | clear (scope : Option (List (PyStr × PyStr))) (tiers : Option (List MemoryTier))
  | delete (entryId : PyStr)
  | purgeExpired (now : cal.Time)

/-- What such a call returns. -/
inductive Reply where
  | added (r : Except PyExc MemoryEntry)
  | cleared
  | deleted (found : Bool)
  | purged (count : Nat)

section Refines

variable {cal : Calendar} {fl : FloatRepr}

/-- A call on an `InMemoryMemory`, with the replies so far. -/
def inMemoryStep (s : List MemoryEntry × List Reply) : Change cal fl V → List MemoryEntry × List Reply
  | .add a _ =>
      match add s.1 a with
      | .ok entries => (entries, s.2 ++ [.added a.entry])
      | .error _ => (s.1, s.2 ++ [.added a.entry])
  | .clear scope tiers => (clear s.1 scope tiers, s.2 ++ [.cleared])
  | .delete entryId => ((delete s.1 entryId).1, s.2 ++ [.deleted (delete s.1 entryId).2])
  | .purgeExpired now => ((purgeExpired cal now s.1).1, s.2 ++ [.purged (purgeExpired cal now s.1).2])

/-- The same call on a `VectorMemory`. -/
def vectorStep (s : VectorMemory V × List Reply) : Change cal fl V → VectorMemory V × List Reply
  | .add a vector =>
      match s.1.add a vector with
      | .ok m => (m, s.2 ++ [.added a.entry])
      | .error _ => (s.1, s.2 ++ [.added a.entry])
  | .clear scope tiers => (s.1.clear scope tiers, s.2 ++ [.cleared])
  | .delete entryId => ((s.1.delete entryId).1, s.2 ++ [.deleted (s.1.delete entryId).2])
  | .purgeExpired now => ((s.1.purgeExpired cal now).1, s.2 ++ [.purged (s.1.purgeExpired cal now).2])

theorem pairs_fst (m : VectorMemory V) : m.pairs.map Prod.fst = m.entries :=
  List.map_fst_zip (Nat.le_of_eq m.aligned.symm)

theorem pairs_ofPairs (keep : List (MemoryEntry × Option V)) : (VectorMemory.ofPairs keep).pairs = keep :=
  (List.zip_of_prod rfl rfl).symm

/-- Filtering the pairs by their entries filters the entries. -/
theorem filter_pairs_fst (m : VectorMemory V) (p : MemoryEntry → Bool) :
    (m.pairs.filter fun pair => p pair.1).map Prod.fst = m.entries.filter p := by
  rw [← pairs_fst, List.filter_map]
  rfl

theorem filter_pairs_length (m : VectorMemory V) (p : MemoryEntry → Bool) :
    (m.pairs.filter fun pair => p pair.1).length = (m.entries.filter p).length := by
  rw [← filter_pairs_fst, List.length_map]

theorem pairs_append (m : VectorMemory V) (entry : MemoryEntry) (vector : Option V)
    (h : (m.vectors ++ [vector]).length = (m.entries ++ [entry]).length) :
    (VectorMemory.mk (m.entries ++ [entry]) (m.vectors ++ [vector]) h).pairs = m.pairs ++ [(entry, vector)] :=
  List.zip_append m.aligned.symm

/-- A call leaves the entries and gives the reply of an `InMemoryMemory`. -/
theorem vectorStep_refines (s : VectorMemory V × List Reply) (c : Change cal fl V) :
    (vectorStep s c).1.entries = (inMemoryStep (s.1.entries, s.2) c).1 ∧
      (vectorStep s c).2 = (inMemoryStep (s.1.entries, s.2) c).2 := by
  cases c with
  | add a vector =>
      cases hentry : a.entry with
      | error e =>
          simp only [vectorStep, inMemoryStep, VectorMemory.add, add, hentry, Except.map, and_self]
      | ok entry =>
          simp only [vectorStep, inMemoryStep, VectorMemory.add, add, hentry, Except.map, and_self]
  | clear scope tiers =>
      have hentries := filter_pairs_fst s.1 fun entry =>
        !((tiers.all fun ts => decide (entry.tier ∈ ts)) && matchesScope entry scope)
      exact ⟨hentries, rfl⟩
  | delete entryId =>
      refine ⟨filter_pairs_fst s.1 fun entry => decide (entry.id ≠ entryId), ?_⟩
      have hlength := filter_pairs_length s.1 fun entry => decide (entry.id ≠ entryId)
      show s.2 ++ [Reply.deleted ((s.1.pairs.filter fun p => p.1.id ≠ entryId).length != s.1.entries.length)] = _
      rw [hlength]
      rfl
  | purgeExpired now =>
      refine ⟨filter_pairs_fst s.1 fun entry => !isExpired cal now entry, ?_⟩
      have hlength := filter_pairs_length s.1 fun entry => !isExpired cal now entry
      show s.2 ++ [Reply.purged (s.1.entries.length - (s.1.pairs.filter fun p => !isExpired cal now p.1).length)] = _
      rw [hlength]
      rfl

/-- After a call every entry stands beside its vector from before, or is the one added. -/
theorem vectorStep_pairs (s : VectorMemory V × List Reply) (c : Change cal fl V) {p : MemoryEntry × Option V}
    (h : p ∈ (vectorStep s c).1.pairs) :
    p ∈ s.1.pairs ∨ ∃ a vector, c = .add a vector ∧ a.entry = .ok p.1 ∧ vector = p.2 := by
  have hfilter : ∀ q : MemoryEntry × Option V → Bool, p ∈ (VectorMemory.ofPairs (s.1.pairs.filter q)).pairs →
      p ∈ s.1.pairs := fun q hp => by
    rw [pairs_ofPairs] at hp
    exact List.mem_of_mem_filter hp
  cases c with
  | add a vector =>
      cases hentry : a.entry with
      | error e =>
          simp only [vectorStep, VectorMemory.add, hentry, Except.map] at h
          exact .inl h
      | ok entry =>
          simp only [vectorStep, VectorMemory.add, hentry, Except.map, pairs_append] at h
          rcases List.mem_append.mp h with hold | hnew
          · exact .inl hold
          · obtain rfl := List.mem_singleton.mp hnew
            exact .inr ⟨a, vector, rfl, hentry, rfl⟩
  | clear scope tiers => exact .inl (hfilter _ h)
  | delete entryId => exact .inl (hfilter _ h)
  | purgeExpired now => exact .inl (hfilter _ h)

/-- The empty store. -/
def VectorMemory.empty : VectorMemory V := ⟨[], [], rfl⟩

/-- Through every run of calls a `VectorMemory` has the entries and gives the replies of
    an `InMemoryMemory`, and each of its entries stands beside the vector that was made
    of its own text. -/
theorem vectorMemory_refines (cal : Calendar) (fl : FloatRepr) (calls : List (Change cal fl V)) :
    let m := run vectorStep (VectorMemory.empty, []) calls
    m.1.entries = (run inMemoryStep ([], []) calls).1 ∧ m.2 = (run inMemoryStep ([], []) calls).2 ∧
      ∀ p ∈ m.1.pairs, ∃ a, .add a p.2 ∈ calls ∧ a.entry = .ok p.1 := by
  have hall : ∀ (s : VectorMemory V × List Reply) (calls : List (Change cal fl V)),
      (run vectorStep s calls).1.entries = (run inMemoryStep (s.1.entries, s.2) calls).1 ∧
        (run vectorStep s calls).2 = (run inMemoryStep (s.1.entries, s.2) calls).2 ∧
        ∀ p ∈ (run vectorStep s calls).1.pairs, p ∈ s.1.pairs ∨ ∃ a, .add a p.2 ∈ calls ∧ a.entry = .ok p.1 := by
    intro s calls
    induction calls generalizing s with
    | nil => exact ⟨rfl, rfl, fun p hp => .inl hp⟩
    | cons c calls ih =>
        have hstep := vectorStep_refines s c
        obtain ⟨hentries, hreplies, hpairs⟩ := ih (vectorStep s c)
        rw [hstep.1, hstep.2] at hentries hreplies
        refine ⟨hentries, hreplies, fun p hp => ?_⟩
        rcases hpairs p hp with hbefore | ⟨a, hmem, ha⟩
        · rcases vectorStep_pairs s c hbefore with hold | ⟨a, vector, rfl, ha, rfl⟩
          · exact .inl hold
          · exact .inr ⟨a, List.mem_cons_self, ha⟩
        · exact .inr ⟨a, List.mem_cons_of_mem _ hmem, ha⟩
  obtain ⟨hentries, hreplies, hpairs⟩ := hall (VectorMemory.empty, []) calls
  exact ⟨hentries, hreplies, fun p hp => (hpairs p hp).resolve_left List.not_mem_nil⟩

end Refines

-- ============================================================================
-- What a search finds
-- ============================================================================

/-- The highest of what is eligible, by score and then by index. -/
def Finds {σ : Type} [LinearOrder σ] [Zero σ] (eligible : Scored σ → Prop) (limit : Int) (found : List MemoryEntry) :
    Prop :=
  ∃ scored shown : List (Scored σ), (∀ s, s ∈ scored ↔ eligible s) ∧ scored.Nodup ∧
    IsTop Scored.key (fun s => decide (0 < s.score)) limit.toNat scored shown ∧ found = shown.map Scored.entry

section Exact

variable {cal : Calendar} {σ : Type} [LinearOrder σ] [Zero σ]

theorem finds_ranked {scored : List (Scored σ)} (hindex : (scored.map Scored.index).Nodup) {limit : Int} :
    Finds (· ∈ scored) limit (ranked limit scored) := by
  have hkeys : (scored.map Scored.key).Nodup := by
    refine List.Nodup.of_map (fun k => (ofLex k).2) ?_
    rw [List.map_map]
    exact hindex
  exact ⟨scored, _, fun _ => Iff.rfl, hindex.of_map, isTop_top hkeys, rfl⟩

theorem ranked_of_not_pos {scored : List (Scored σ)} {limit : Int} (h : limit ≤ 0) : ranked limit scored = [] := by
  unfold ranked top
  rw [Int.toNat_of_nonpos h, List.take_zero, List.map_nil]

theorem Finds.of_iff {eligible eligible' : Scored σ → Prop} {limit : Int} {found : List MemoryEntry}
    (h : Finds eligible limit found) (hiff : ∀ s, eligible s ↔ eligible' s) : Finds eligible' limit found := by
  obtain ⟨scored, shown, hmem, hrest⟩ := h
  exact ⟨scored, shown, fun s => (hmem s).trans (hiff s), hrest⟩

/-- There is one such list. -/
theorem Finds.unique {eligible : Scored σ → Prop} {limit : Int} {found found' : List MemoryEntry}
    (h : Finds eligible limit found) (h' : Finds eligible limit found') : found = found' := by
  obtain ⟨scored, shown, hmem, hnodup, htop, rfl⟩ := h
  obtain ⟨scored', shown', hmem', hnodup', htop', rfl⟩ := h'
  have hperm : scored'.Perm scored :=
    (List.perm_ext_iff_of_nodup hnodup' hnodup).mpr fun s => (hmem' s).trans (hmem s).symm
  rw [htop.unique (htop'.of_perm hperm)]

/-- The keyword search finds the entries that `all` lists and that share a word with
    the query: the most words first, then the latest, and no more than the limit. -/
theorem search_finds (lower : PyStr → PyStr) (entries : List MemoryEntry) (query : PyStr) (limit : Int)
    (f : Filters cal) (found : List MemoryEntry) :
    search lower entries query limit f = found ↔
      Finds (fun s : Scored Nat => (allMatching entries f)[s.index]? = some s.entry ∧
        s.score = relevance lower query s.entry.text) limit found := by
  suffices hfinds : Finds (fun s : Scored Nat => (allMatching entries f)[s.index]? = some s.entry ∧
      s.score = relevance lower query s.entry.text) limit (search lower entries query limit f) from
    ⟨fun h => h ▸ hfinds, fun h => hfinds.unique h⟩
  have hindex : ((keywordScores lower entries query f).map Scored.index).Nodup := by
    have hmap : (keywordScores lower entries query f).map Scored.index = (allMatching entries f).zipIdx.map Prod.snd := by
      unfold keywordScores
      rw [List.map_map]
      rfl
    rw [hmap, List.zipIdx_map_snd]
    exact List.nodup_range'
  have hsearch : search lower entries query limit f = ranked limit (keywordScores lower entries query f) := by
    unfold search
    split_ifs with hlimit
    · exact (ranked_of_not_pos hlimit).symm
    · rfl
  rw [hsearch]
  refine (finds_ranked hindex).of_iff fun s => ?_
  unfold keywordScores
  rw [List.mem_map]
  constructor
  · rintro ⟨⟨entry, i⟩, hmem, rfl⟩
    exact ⟨List.mem_zipIdx_iff_getElem?.mp hmem, rfl⟩
  · rintro ⟨hentry, hscore⟩
    refine ⟨(s.entry, s.index), List.mem_zipIdx_iff_getElem?.mpr hentry, ?_⟩
    rw [← hscore]

end Exact

end Memory
end KineticSdk
