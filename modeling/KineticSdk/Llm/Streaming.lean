/-
  KineticSdk.Llm.Streaming

  A message cut into chunks, and what is put together from them.

  The three parts of a response are gathered independently of each other.  The
  fragments of one call are those with its index, wherever they stand, so the
  slot of an index depends on them only (`slotAt_gather`); sorting the slots by
  their index gives the calls in order (`sortSlots_gather`).  The two readers of
  an argument string differ on the empty one.
-/

import KineticSdk.Lib.Traverse
import KineticSdk.Llm.Response
import Mathlib.Data.List.Nodup

namespace KineticSdk
namespace Llm

open Py Tool

-- ============================================================================
-- Cutting a message
-- ============================================================================

/-- The choices of a stream. -/
def choices (stream : List (Option Choice)) : List Choice := stream.filterMap fun c => c

/-- The fragments of a stream, in order. -/
def deltas (stream : List (Option Choice)) : List CallDelta := (choices stream).flatMap Choice.toolCalls

/-- The argument text of a fragment. -/
def CallDelta.argText (d : CallDelta) : PyStr := ((d.function.getD {}).arguments).getD []

/-- The name in a fragment. -/
def CallDelta.nameText (d : CallDelta) : PyStr := ((d.function.getD {}).name).getD []

/-- The fragments carry the call: the id and the name on the first of them, and
    the arguments in pieces. -/
def CarriedBy (c : ProviderCall) (ds : List CallDelta) : Prop :=
  ∃ first rest, ds = first :: rest ∧ first.id.getD [] = c.id ∧ first.nameText = c.name ∧
    (∀ d ∈ rest, d.id.getD [] = [] ∧ d.nameText = []) ∧
    (ds.map CallDelta.argText).flatten = c.arguments

/-- The stream is the message, cut into chunks: its text in pieces, the fragments
    of its calls under increasing indices and in any order, and its finish reason
    in one chunk. -/
structure Cuts (m : ProviderMessage) (stream : List (Option Choice)) : Prop where
  text : ((choices stream).map fun c => c.content.getD []).flatten = m.content.getD []
  calls : ∃ indexed : List (Int × ProviderCall), indexed.map Prod.snd = m.toolCalls ∧
    (indexed.map Prod.fst).Pairwise (· < ·) ∧
    (∀ d ∈ deltas stream, d.function.isSome = true ∧ ∃ i ∈ indexed.map Prod.fst, d.index = some i) ∧
    ∀ p ∈ indexed, CarriedBy p.2 ((deltas stream).filter fun d => d.index = some p.1)
  finish : (choices stream).filterMap Choice.finishReason = m.finishReason.toList

-- ============================================================================
-- The loop
-- ============================================================================

theorem choices_cons_some (c : Choice) (stream : List (Option Choice)) :
    choices (some c :: stream) = c :: choices stream := rfl

theorem gather_text (stream : List (Option Choice)) (g : Gathered) :
    (stream.foldl gatherChunk g).textBuf.flatten =
      g.textBuf.flatten ++ ((choices stream).map fun c => c.content.getD []).flatten := by
  induction stream generalizing g with
  | nil => simp [choices]
  | cons c stream ih =>
      rw [List.foldl_cons, ih]
      cases c with
      | none => rfl
      | some c =>
          have hbuf : (gatherChunk g (some c)).textBuf.flatten =
              g.textBuf.flatten ++ c.content.getD [] := by
            unfold gatherChunk
            by_cases h : c.content.getD [] = []
            · simp [h]
            · simp [h]
          rw [hbuf, choices_cons_some, List.map_cons, List.flatten_cons, List.append_assoc]

theorem gather_fragments (stream : List (Option Choice)) (g : Gathered) :
    (stream.foldl gatherChunk g).toolFragments = (deltas stream).foldl addDelta g.toolFragments := by
  induction stream generalizing g with
  | nil => rfl
  | cons c stream ih =>
      rw [List.foldl_cons, ih]
      cases c with
      | none => rfl
      | some c =>
          have hdeltas : deltas (some c :: stream) = c.toolCalls ++ deltas stream := rfl
          rw [hdeltas, List.foldl_append]
          rfl

/-- The last finish reason that is not empty. -/
theorem gather_stop (stream : List (Option Choice)) (g : Gathered) :
    (stream.foldl gatherChunk g).stopReason = ((choices stream).filterMap Choice.finishReason).foldl
      (fun stop f => if f = [] then stop else some (mapStopReason f)) g.stopReason := by
  induction stream generalizing g with
  | nil => rfl
  | cons c stream ih =>
      rw [List.foldl_cons, ih]
      cases c with
      | none => rfl
      | some c =>
          rw [choices_cons_some]
          cases hfinish : c.finishReason with
          | none =>
              rw [List.filterMap_cons_none hfinish]
              simp [gatherChunk, hfinish]
          | some f =>
              rw [List.filterMap_cons_some hfinish, List.foldl_cons]
              simp [gatherChunk, hfinish]

-- ============================================================================
-- The slot of an index
-- ============================================================================

/-- The slot of an index. -/
def slotAt (i : Int) (slots : List (Int × Slot)) : Option Slot :=
  (slots.find? fun p => p.1 == i).map Prod.snd

theorem slotAt_cons (i j : Int) (s : Slot) (slots : List (Int × Slot)) :
    slotAt i ((j, s) :: slots) = if j = i then some s else slotAt i slots := by
  by_cases h : j = i
  · simp [slotAt, h]
  · have h' : (j == i) = false := by simpa using h
    simp [slotAt, h, h']

theorem slotAt_updateSlot (i j : Int) (f : Slot → Slot) (slots : List (Int × Slot)) :
    slotAt i (updateSlot j f slots) =
      if j = i then some (f ((slotAt i slots).getD {})) else slotAt i slots := by
  induction slots with
  | nil =>
      rw [updateSlot, slotAt_cons]
      rfl
  | cons p slots ih =>
      obtain ⟨k, s⟩ := p
      unfold updateSlot
      by_cases hk : k = j
      · subst hk
        rw [if_pos rfl, slotAt_cons, slotAt_cons]
        by_cases hi : k = i
        · simp [hi]
        · simp [hi]
      · rw [if_neg hk, slotAt_cons, slotAt_cons, ih]
        by_cases hi : k = i
        · have hj : j ≠ i := fun hj => hk (hi.trans hj.symm)
          simp [hi, hj]
        · simp [hi]

/-- The keys of a slot list after an update. -/
theorem mem_keys_updateSlot (i j : Int) (f : Slot → Slot) (slots : List (Int × Slot)) :
    i ∈ (updateSlot j f slots).map Prod.fst ↔ i = j ∨ i ∈ slots.map Prod.fst := by
  induction slots with
  | nil => simp [updateSlot]
  | cons p slots ih =>
      obtain ⟨k, s⟩ := p
      unfold updateSlot
      by_cases hk : k = j
      · rw [if_pos hk, List.map_cons, List.map_cons, List.mem_cons, hk]
        simp
      · rw [if_neg hk, List.map_cons, List.map_cons, List.mem_cons, List.mem_cons, ih]
        exact or_left_comm

theorem nodup_updateSlot (j : Int) (f : Slot → Slot) {slots : List (Int × Slot)}
    (h : (slots.map Prod.fst).Nodup) : ((updateSlot j f slots).map Prod.fst).Nodup := by
  induction slots with
  | nil => simp [updateSlot]
  | cons p slots ih =>
      obtain ⟨k, s⟩ := p
      rw [List.map_cons, List.nodup_cons] at h
      unfold updateSlot
      by_cases hk : k = j
      · rw [if_pos hk, List.map_cons, List.nodup_cons]
        exact h
      · rw [if_neg hk, List.map_cons, List.nodup_cons, mem_keys_updateSlot]
        refine ⟨fun hmem => ?_, ih h.2⟩
        rcases hmem with heq | hmem
        · exact hk heq
        · exact h.1 hmem

/-- With one slot an index, the slot of an index is the one in the list. -/
theorem mem_iff_slotAt {slots : List (Int × Slot)} (h : (slots.map Prod.fst).Nodup) (i : Int)
    (s : Slot) : (i, s) ∈ slots ↔ slotAt i slots = some s := by
  induction slots with
  | nil => simp [slotAt]
  | cons p slots ih =>
      obtain ⟨k, t⟩ := p
      rw [List.map_cons, List.nodup_cons] at h
      rw [slotAt_cons, List.mem_cons, ih h.2]
      by_cases hk : k = i
      · subst hk
        have hno : slotAt k slots ≠ some s := by
          intro hs
          exact h.1 (List.mem_map.mpr ⟨(k, s), (ih h.2).mpr hs, rfl⟩)
        simp [hno, eq_comm]
      · have hne : (i, s) ≠ (k, t) := fun heq => hk (congrArg Prod.fst heq).symm
        simp [hk, hne]

/-- A fragment added to the slot of its index, which is made when it is missing. -/
def addTo (s : Option Slot) (d : CallDelta) : Option Slot :=
  some ((s.getD {}).add d.id (d.function.getD {}))

/-- A fragment that has a function and an index. -/
def CallDelta.Placed (d : CallDelta) : Prop := d.function.isSome = true ∧ ∃ i, d.index = some i

theorem addDelta_of_placed {d : CallDelta} {i : Int} (hfn : d.function.isSome = true)
    (hi : d.index = some i) (slots : List (Int × Slot)) :
    addDelta slots d = updateSlot i (fun s => s.add d.id (d.function.getD {})) slots := by
  obtain ⟨fn, hfn⟩ := Option.isSome_iff_exists.mp hfn
  simp [addDelta, hfn, hi]

/-- The slot of an index is made from the fragments with this index. -/
theorem slotAt_gather {ds : List CallDelta} (h : ∀ d ∈ ds, d.Placed) (i : Int)
    (slots : List (Int × Slot)) :
    slotAt i (ds.foldl addDelta slots) =
      (ds.filter fun d => d.index = some i).foldl addTo (slotAt i slots) := by
  induction ds generalizing slots with
  | nil => rfl
  | cons d ds ih =>
      obtain ⟨hfn, j, hj⟩ := h d (List.mem_cons_self ..)
      rw [List.foldl_cons, ih fun d' hd' => h d' (List.mem_cons_of_mem d hd'),
        addDelta_of_placed hfn hj, slotAt_updateSlot]
      by_cases hji : j = i
      · have hin : decide (d.index = some i) = true := by simp [hj, hji]
        rw [if_pos hji, List.filter_cons, if_pos hin, List.foldl_cons]
        rfl
      · have hout : ¬ decide (d.index = some i) = true := by simp [hj, hji]
        rw [if_neg hji, List.filter_cons, if_neg hout]

theorem nodup_gather {ds : List CallDelta} (h : ∀ d ∈ ds, d.Placed) {slots : List (Int × Slot)}
    (hslots : (slots.map Prod.fst).Nodup) : ((ds.foldl addDelta slots).map Prod.fst).Nodup := by
  induction ds generalizing slots with
  | nil => exact hslots
  | cons d ds ih =>
      obtain ⟨hfn, j, hj⟩ := h d (List.mem_cons_self ..)
      rw [List.foldl_cons, addDelta_of_placed hfn hj]
      exact ih (fun d' hd' => h d' (List.mem_cons_of_mem d hd')) (nodup_updateSlot j _ hslots)

theorem mem_keys_gather {ds : List CallDelta} (h : ∀ d ∈ ds, d.Placed) {slots : List (Int × Slot)}
    {i : Int} (hi : i ∈ (ds.foldl addDelta slots).map Prod.fst) :
    i ∈ slots.map Prod.fst ∨ ∃ d ∈ ds, d.index = some i := by
  induction ds generalizing slots with
  | nil => exact .inl hi
  | cons d ds ih =>
      obtain ⟨hfn, j, hj⟩ := h d (List.mem_cons_self ..)
      rw [List.foldl_cons, addDelta_of_placed hfn hj] at hi
      rcases ih (fun d' hd' => h d' (List.mem_cons_of_mem d hd')) hi with hi | ⟨d', hd', hi⟩
      · rcases (mem_keys_updateSlot i j _ slots).mp hi with rfl | hi
        · exact .inr ⟨d, List.mem_cons_self .., hj⟩
        · exact .inl hi
      · exact .inr ⟨d', List.mem_cons_of_mem d hd', hi⟩

-- ============================================================================
-- One call
-- ============================================================================

/-- The slot holds the call. -/
structure Slot.Holds (s : Slot) (c : ProviderCall) : Prop where
  id : s.id = c.id
  name : s.name = c.name
  args : s.args.flatten = c.arguments

theorem add_args (s : Slot) (id : Option PyStr) (fn : FunctionDelta) :
    (s.add id fn).args.flatten = s.args.flatten ++ fn.arguments.getD [] := by
  unfold Slot.add
  by_cases h : fn.arguments.getD [] = []
  · simp [h]
  · simp [h]

/-- Fragments without an id and a name add their text only. -/
theorem addTo_rest {ds : List CallDelta} (h : ∀ d ∈ ds, d.id.getD [] = [] ∧ d.nameText = [])
    (s : Slot) : ∃ s', ds.foldl addTo (some s) = some s' ∧ s'.id = s.id ∧ s'.name = s.name ∧
      s'.args.flatten = s.args.flatten ++ (ds.map CallDelta.argText).flatten := by
  induction ds generalizing s with
  | nil => exact ⟨s, rfl, rfl, rfl, by simp⟩
  | cons d ds ih =>
      obtain ⟨hid, hname⟩ := h d (List.mem_cons_self ..)
      obtain ⟨s', hs', hid', hname', hargs'⟩ :=
        ih (fun d' hd' => h d' (List.mem_cons_of_mem d hd')) (s.add d.id (d.function.getD {}))
      refine ⟨s', hs', ?_, ?_, ?_⟩
      · rw [hid']
        simp [Slot.add, hid]
      · rw [hname']
        have hempty : (d.function.getD {}).name.getD [] = [] := hname
        simp [Slot.add, hempty]
      · rw [hargs', add_args, List.map_cons, List.flatten_cons, List.append_assoc]
        rfl

/-- The fragments that carry a call leave it in their slot. -/
theorem CarriedBy.holds {c : ProviderCall} {ds : List CallDelta} (h : CarriedBy c ds) :
    ∃ s, ds.foldl addTo none = some s ∧ s.Holds c := by
  obtain ⟨first, rest, rfl, hid, hname, hrest, hargs⟩ := h
  obtain ⟨s, hs, hid', hname', hargs'⟩ :=
    addTo_rest hrest (Slot.add {} first.id (first.function.getD {}))
  refine ⟨s, hs, ?_, ?_, ?_⟩
  · rw [hid', ← hid]
    unfold Slot.add
    by_cases h : first.id.getD [] = []
    · simp [h]
    · simp [h]
  · rw [hname', ← hname]
    unfold Slot.add CallDelta.nameText
    by_cases h : (first.function.getD {}).name.getD [] = []
    · simp [h]
    · simp [h]
  · rw [hargs', add_args, ← hargs, List.map_cons, List.flatten_cons]
    rfl

-- ============================================================================
-- The calls of a stream
-- ============================================================================

/-- The slots, sorted by their index, hold the calls in order. -/
theorem sortSlots_gather {m : ProviderMessage} {stream : List (Option Choice)} (h : Cuts m stream) :
    ∃ held : List (Slot × ProviderCall),
      (sortSlots ((deltas stream).foldl addDelta [])).map Prod.snd = held.map Prod.fst ∧
        held.map Prod.snd = m.toolCalls ∧ ∀ p ∈ held, p.1.Holds p.2 := by
  obtain ⟨indexed, hcalls, hsorted, hdeltas, hcarried⟩ := h.calls
  have hplaced : ∀ d ∈ deltas stream, d.Placed := by
    intro d hd
    obtain ⟨hfn, i, -, hi⟩ := hdeltas d hd
    exact ⟨hfn, i, hi⟩
  let slots := (deltas stream).foldl addDelta []
  have hnodup : (slots.map Prod.fst).Nodup := nodup_gather hplaced List.nodup_nil
  have hslot : ∀ p ∈ indexed, ∃ s, slotAt p.1 slots = some s ∧ s.Holds p.2 := by
    intro p hp
    obtain ⟨s, hs, hholds⟩ := (hcarried p hp).holds
    exact ⟨s, by rw [slotAt_gather hplaced]; exact hs, hholds⟩
  let slotOf : Int × ProviderCall → Slot := fun p => (slotAt p.1 slots).getD {}
  have hslotOf : ∀ p ∈ indexed, slotAt p.1 slots = some (slotOf p) ∧ (slotOf p).Holds p.2 := by
    intro p hp
    obtain ⟨s, hs, hholds⟩ := hslot p hp
    have hof : slotOf p = s := by
      show (slotAt p.1 slots).getD {} = s
      rw [hs]
      rfl
    rw [hof]
    exact ⟨hs, hholds⟩
  let expected := indexed.map fun p => (p.1, slotOf p)
  have hkeys : expected.map Prod.fst = indexed.map Prod.fst := by
    rw [List.map_map]
    rfl
  have hexpected : expected.Pairwise fun a b => a.1 < b.1 := by
    have hpairs := List.pairwise_map.mp hsorted
    exact List.pairwise_map.mpr hpairs
  have hmem : ∀ q, q ∈ slots ↔ q ∈ expected := by
    rintro ⟨i, s⟩
    rw [mem_iff_slotAt hnodup]
    constructor
    · intro hs
      have hin : i ∈ slots.map Prod.fst :=
        List.mem_map.mpr ⟨(i, s), (mem_iff_slotAt hnodup i s).mpr hs, rfl⟩
      rcases mem_keys_gather hplaced hin with hnil | ⟨d, hd, hi⟩
      · cases hnil
      · obtain ⟨-, j, hj, hdj⟩ := hdeltas d hd
        rw [hi] at hdj
        cases hdj
        obtain ⟨p, hp, rfl⟩ := List.mem_map.mp hj
        rw [(hslotOf p hp).1] at hs
        exact List.mem_map.mpr ⟨p, hp, by rw [Option.some.inj hs]⟩
    · intro hs
      obtain ⟨p, hp, heq⟩ := List.mem_map.mp hs
      cases heq
      exact (hslotOf p hp).1
  have hperm : slots.Perm expected :=
    (List.perm_ext_iff_of_nodup hnodup.of_map
      (List.Nodup.of_map Prod.fst (by rw [hkeys]; exact hsorted.imp fun h => Int.ne_of_lt h))).mpr hmem
  have hsort : sortSlots slots = expected := by
    have hpermSort : (sortSlots slots).Perm expected := (List.perm_insertionSort _ _).trans hperm
    have hle : (sortSlots slots).Pairwise fun a b => a.1 ≤ b.1 := List.pairwise_insertionSort _ _
    refine List.Perm.eq_of_pairwise ?_ hle (hexpected.imp fun h => Int.le_of_lt h) hpermSort
    -- two slots with one index are one slot
    intro a b ha hb hab hba
    have hfst : a.1 = b.1 := Int.le_antisymm hab hba
    have ha' := (mem_iff_slotAt hnodup a.1 a.2).mp ((hmem a).mpr (hpermSort.mem_iff.mp ha))
    have hb' := (mem_iff_slotAt hnodup b.1 b.2).mp ((hmem b).mpr hb)
    rw [hfst, hb'] at ha'
    exact Prod.ext hfst (Option.some.inj ha').symm
  refine ⟨indexed.map fun p => (slotOf p, p.2), ?_, ?_, ?_⟩
  · show (sortSlots slots).map Prod.snd = _
    rw [hsort, List.map_map, List.map_map]
    rfl
  · rw [List.map_map, ← hcalls]
    rfl
  · intro q hq
    obtain ⟨p, hp, rfl⟩ := List.mem_map.mp hq
    exact (hslotOf p hp).2

/-- A tool call as it comes out of a stream. -/
def streamedCall (lim : Limits) (fl : FloatRepr) (c : ProviderCall) : Except LoadsError ToolCall := do
  let arguments ← if c.arguments = [] then pure (.obj []) else loadArguments lim fl c.arguments
  pure { id := c.id, name := c.name, arguments := arguments }

theorem toolCallFromFragments_of_holds (lim : Limits) (fl : FloatRepr) {s : Slot} {c : ProviderCall}
    (h : s.Holds c) : toolCallFromFragments lim fl s = streamedCall lim fl c := by
  unfold toolCallFromFragments streamedCall
  rw [h.args, h.id, h.name]

/-- What comes out of a stream, in terms of the message. -/
theorem doneResponse_of_cuts (lim : Limits) (fl : FloatRepr) {m : ProviderMessage}
    {stream : List (Option Choice)} (h : Cuts m stream) :
    doneResponse lim fl stream = (do
      let toolCalls ← m.toolCalls.mapM (streamedCall lim fl)
      pure {
        content := m.content.getD []
        toolCalls := toolCalls
        stopReason := (m.finishReason.filter (· ≠ [])).map mapStopReason }) := by
  have htext : (stream.foldl gatherChunk {}).textBuf.flatten = m.content.getD [] := by
    rw [gather_text, h.text]
    rfl
  have hstop : (stream.foldl gatherChunk {}).stopReason =
      (m.finishReason.filter (· ≠ [])).map mapStopReason := by
    rw [gather_stop, h.finish]
    cases m.finishReason with
    | none => rfl
    | some f =>
        by_cases hf : f = []
        · simp [hf]
        · simp [hf]
  have hcalls : (sortSlots (stream.foldl gatherChunk {}).toolFragments).mapM
      (fun p => toolCallFromFragments lim fl p.2) = m.toolCalls.mapM (streamedCall lim fl) := by
    obtain ⟨held, hslots, hcalls, hholds⟩ := sortSlots_gather h
    have hmap : ∀ slots : List (Int × Slot), slots.mapM (fun p => toolCallFromFragments lim fl p.2) =
        (slots.map Prod.snd).mapM (toolCallFromFragments lim fl) := by
      intro slots
      rw [List.mapM_map]
      rfl
    rw [gather_fragments, hmap, hslots, ← hcalls, List.mapM_map, List.mapM_map]
    exact Lib.Traverse.mapM_congr fun p hp => toolCallFromFragments_of_holds lim fl (hholds p hp)
  unfold doneResponse
  simp only [htext, hstop, hcalls]

-- ============================================================================
-- The two readers
-- ============================================================================

/-- `json.loads` raises on the arguments what is not caught. -/
def ProviderCall.Raises (lim : Limits) (fl : FloatRepr) (c : ProviderCall) : Prop :=
  loads lim fl c.arguments = .error .digits ∨ loads lim fl c.arguments = .error .depth

/-- Both readers raise the same on a call, or both return its id and its name;
    they agree exactly when the arguments are not empty. -/
theorem call_cases (lim : Limits) (fl : FloatRepr) (c : ProviderCall) :
    (c.Raises lim fl ∧ ∃ e, streamedCall lim fl c = .error e ∧ parseCall lim fl c = .error e) ∨
      (¬ c.Raises lim fl ∧ ∃ a b, streamedCall lim fl c = .ok a ∧ parseCall lim fl c = .ok b ∧
        (a = b ↔ c.arguments ≠ [])) := by
  unfold streamedCall parseCall ProviderCall.Raises
  by_cases hempty : c.arguments = []
  · -- the empty text is no JSON, and is kept by one reader only
    have hload : loads lim fl c.arguments = .error .decode := by
      rw [hempty]
      rfl
    refine .inr ⟨?_, ⟨c.id, c.name, .obj []⟩, ⟨c.id, c.name, .obj [(py "_raw", .str c.arguments)]⟩,
      ?_, ?_, ?_⟩
    · rw [hload]
      rintro (h | h) <;> cases h
    · rw [if_pos hempty]
      rfl
    · rw [loadArguments, hload]
      rfl
    · refine ⟨fun h => ?_, fun h => absurd hempty h⟩
      cases h
  · rw [if_neg hempty]
    cases hload : loads lim fl c.arguments with
    | ok v =>
        refine .inr ⟨?_, ⟨c.id, c.name, v⟩, ⟨c.id, c.name, v⟩, ?_, ?_, ?_⟩
        · rintro (h | h) <;> cases h
        · rw [loadArguments, hload]
          rfl
        · rw [loadArguments, hload]
          rfl
        · exact ⟨fun _ => hempty, fun _ => rfl⟩
    | error e =>
        cases e with
        | decode =>
            refine .inr ⟨?_, ⟨c.id, c.name, .obj [(py "_raw", .str c.arguments)]⟩,
              ⟨c.id, c.name, .obj [(py "_raw", .str c.arguments)]⟩, ?_, ?_, ?_⟩
            · rintro (h | h) <;> cases h
            · rw [loadArguments, hload]
              rfl
            · rw [loadArguments, hload]
              rfl
            · exact ⟨fun _ => hempty, fun _ => rfl⟩
        | digits =>
            refine .inl ⟨.inl rfl, .digits, ?_, ?_⟩
            · rw [loadArguments, hload]
              rfl
            · rw [loadArguments, hload]
              rfl
        | depth =>
            refine .inl ⟨.inr rfl, .depth, ?_, ?_⟩
            · rw [loadArguments, hload]
              rfl
            · rw [loadArguments, hload]
              rfl

/-- The calls of a stream and of the message: one error for both, or two lists
    that agree exactly when no argument string is empty. -/
theorem calls_cases (lim : Limits) (fl : FloatRepr) (cs : List ProviderCall) :
    ((∃ c ∈ cs, c.Raises lim fl) ∧ ∃ e,
        cs.mapM (streamedCall lim fl) = .error e ∧ cs.mapM (parseCall lim fl) = .error e) ∨
      ((∀ c ∈ cs, ¬ c.Raises lim fl) ∧ ∃ as bs,
        cs.mapM (streamedCall lim fl) = .ok as ∧ cs.mapM (parseCall lim fl) = .ok bs ∧
          (as = bs ↔ ∀ c ∈ cs, c.arguments ≠ [])) := by
  induction cs with
  | nil => exact .inr ⟨fun c hc => (by cases hc), [], [], rfl, rfl, by simp⟩
  | cons c cs ih =>
      rw [List.mapM_cons, List.mapM_cons]
      rcases call_cases lim fl c with ⟨hraises, e, hs, hp⟩ | ⟨hno, a, b, hs, hp, hab⟩
      · rw [hs, hp]
        exact .inl ⟨⟨c, List.mem_cons_self .., hraises⟩, e, rfl, rfl⟩
      · rw [hs, hp]
        rcases ih with ⟨⟨c', hc', hraises⟩, e, hss, hps⟩ | ⟨hnone, as, bs, hss, hps, habs⟩
        · rw [hss, hps]
          exact .inl ⟨⟨c', List.mem_cons_of_mem c hc', hraises⟩, e, rfl, rfl⟩
        · rw [hss, hps]
          refine .inr ⟨fun c' hc' => ?_, a :: as, b :: bs, rfl, rfl, ?_⟩
          · rcases List.mem_cons.mp hc' with rfl | hc'
            · exact hno
            · exact hnone c' hc'
          · rw [List.cons.injEq, hab, habs, List.forall_mem_cons]

/-- A stream ends with what the whole message would have given, however it is
    cut, exactly when no argument string and no finish reason is empty, or when
    reading the arguments raises. -/
theorem stream_agrees (lim : Limits) (fl : FloatRepr) {m : ProviderMessage}
    {stream : List (Option Choice)} (h : Cuts m stream) :
    doneResponse lim fl stream = parseResponse lim fl m ↔
      (∃ c ∈ m.toolCalls, c.Raises lim fl) ∨
        ((∀ c ∈ m.toolCalls, c.arguments ≠ []) ∧ m.finishReason ≠ some []) := by
  rw [doneResponse_of_cuts lim fl h]
  unfold parseResponse
  rcases calls_cases lim fl m.toolCalls with ⟨hraises, e, hs, hp⟩ | ⟨hnone, as, bs, hs, hp, habs⟩
  · rw [hs, hp]
    exact iff_of_true rfl (.inl hraises)
  · rw [hs, hp]
    have hno : ¬ ∃ c ∈ m.toolCalls, c.Raises lim fl := fun ⟨c, hc, hraises⟩ => hnone c hc hraises
    have hstop : (m.finishReason.filter (· ≠ [])).map mapStopReason = m.finishReason.map mapStopReason ↔
        m.finishReason ≠ some [] := by
      cases m.finishReason with
      | none => simp
      | some f =>
          by_cases hf : f = []
          · simp [hf]
          · simp [hf]
    rw [or_iff_right hno, ← habs, ← hstop]
    show Except.ok (LLMResponse.mk _ as _) = Except.ok (LLMResponse.mk _ bs _) ↔ _
    rw [Except.ok.injEq, LLMResponse.mk.injEq, and_iff_right rfl]

/-- A call without arguments, whole and in a stream of one chunk. -/
def bareMessage : ProviderMessage :=
  { toolCalls := [⟨py "1", py "now", []⟩], finishReason := some (py "tool_calls") }

/-- The stream of the message. -/
def bareStream : List (Option Choice) :=
  [some { toolCalls := [⟨some 0, some (py "1"), some ⟨some (py "now"), some []⟩⟩],
          finishReason := some (py "tool_calls") }]

theorem cuts_bare : Cuts bareMessage bareStream where
  text := by decide
  calls := by
    refine ⟨[(0, ⟨py "1", py "now", []⟩)], rfl, List.pairwise_singleton _ _, ?_, ?_⟩
    · intro d hd
      rw [List.mem_singleton.mp (show d ∈ [_] from hd)]
      exact ⟨rfl, 0, List.mem_singleton.mpr rfl, rfl⟩
    · intro p hp
      rw [List.mem_singleton.mp hp]
      exact ⟨_, [], rfl, rfl, rfl, fun d hd => (by cases hd), rfl⟩
  finish := rfl

/-- The stream gives no arguments, the message an argument called `_raw`. -/
theorem bare_call_differs :
    Cuts bareMessage bareStream ∧
      doneResponse {} id bareStream =
        .ok ⟨[], [⟨py "1", py "now", .obj []⟩], some (py "tool_use")⟩ ∧
      parseResponse {} id bareMessage =
        .ok ⟨[], [⟨py "1", py "now", .obj [(py "_raw", .str [])]⟩], some (py "tool_use")⟩ ∧
      doneResponse {} id bareStream ≠ parseResponse {} id bareMessage :=
  ⟨cuts_bare, by decide +kernel, by decide +kernel, by decide +kernel⟩

/-- The two agree on a text that is cut in two. -/
theorem stream_agrees_text :
    doneResponse {} id [some { content := some (py "he") }, some { content := some (py "y") }] =
      parseResponse {} id { content := some (py "hey") } := by
  have hcuts : Cuts { content := some (py "hey") }
      [some { content := some (py "he") }, some { content := some (py "y") }] :=
    ⟨by decide, ⟨[], rfl, List.Pairwise.nil, fun d hd => (by cases hd), fun p hp => by cases hp⟩, rfl⟩
  refine (stream_agrees {} id hcuts).mpr (.inr ⟨fun c hc => ?_, fun h => ?_⟩)
  · cases hc
  · cases h

end Llm
end KineticSdk
