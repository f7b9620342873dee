/-
  KineticSdk.Py.Utf8

  `bytes.decode("utf-8")`: the shortest form of a code point that is no
  surrogate, and nothing else; and `str.encode("utf-8")`, which it undoes.
-/

import KineticSdk.Py.Json

namespace KineticSdk
namespace Py

/-- The payload of a continuation byte. -/
def continuation (b : Nat) : Option Nat := if 0x80 ≤ b && b < 0xC0 then some (b - 0x80) else none

/-- A decoded code point, when its form is the shortest one for it. -/
def shortest (least c : Nat) : Option Nat :=
  if least ≤ c && c < 0x110000 && !(0xD800 ≤ c && c ≤ 0xDFFF) then some c else none

/-- `bytes.decode("utf-8")`, with `none` for a `UnicodeDecodeError`. -/
def utf8Decode : List Nat → Option PyStr
  | [] => some []
  | b :: rest =>
      if b < 0x80 then do
        let s ← utf8Decode rest
        pure (b :: s)
      else if b < 0xC0 then none
      else if b < 0xE0 then
        match rest with
        | b₁ :: rest => do
            let c₁ ← continuation b₁
            let c ← shortest 0x80 ((b - 0xC0) * 64 + c₁)
            let s ← utf8Decode rest
            pure (c :: s)
        | [] => none
      else if b < 0xF0 then
        match rest with
        | b₁ :: b₂ :: rest => do
            let c₁ ← continuation b₁
            let c₂ ← continuation b₂
            let c ← shortest 0x800 ((b - 0xE0) * 4096 + c₁ * 64 + c₂)
            let s ← utf8Decode rest
            pure (c :: s)
        | _ => none
      else if b < 0xF8 then
        match rest with
        | b₁ :: b₂ :: b₃ :: rest => do
            let c₁ ← continuation b₁
            let c₂ ← continuation b₂
            let c₃ ← continuation b₃
            let c ← shortest 0x10000 ((b - 0xF0) * 262144 + c₁ * 4096 + c₂ * 64 + c₃)
            let s ← utf8Decode rest
            pure (c :: s)
        | _ => none
      else none

section
-- its equations are made once, before the proofs below
attribute [local simp] utf8Decode
end

example : utf8Decode [0x61, 0xC3, 0xA9, 0xF0, 0x9F, 0x98, 0x80] = some [0x61, 0xE9, 0x1F600] := by
  decide

-- an overlong form, and a surrogate
example : utf8Decode [0xC0, 0x80] = none ∧ utf8Decode [0xED, 0xA0, 0x80] = none := by decide

/-- The bytes of a code point, with `none` for a surrogate. -/
def utf8Char (c : Nat) : Option (List Nat) :=
  if c < 0x80 then some [c]
  else if c < 0x800 then some [0xC0 + c / 64, 0x80 + c % 64]
  else if 0xD800 ≤ c ∧ c ≤ 0xDFFF then none
  else if c < 0x10000 then some [0xE0 + c / 4096, 0x80 + c / 64 % 64, 0x80 + c % 64]
  else if c < 0x110000 then
    some [0xF0 + c / 262144, 0x80 + c / 4096 % 64, 0x80 + c / 64 % 64, 0x80 + c % 64]
  else none

/-- `str.encode("utf-8")`, with `none` for a `UnicodeEncodeError`. -/
def utf8Encode : PyStr → Option (List Nat)
  | [] => some []
  | c :: s => do
      let bytes ← utf8Char c
      let rest ← utf8Encode s
      return bytes ++ rest

theorem continuation_add {n : Nat} (h : n < 0x40) : continuation (0x80 + n) = some n := by
  unfold continuation
  rw [if_pos (by simp; omega)]
  exact congrArg some (by omega)

theorem shortest_self {least c : Nat} (hle : least ≤ c) (hlt : c < 0x110000)
    (hsurrogate : ¬ (0xD800 ≤ c ∧ c ≤ 0xDFFF)) : shortest least c = some c := by
  unfold shortest
  rw [if_pos (by simp; omega)]

/-- The bytes of a code point are read as that code point. -/
theorem utf8Decode_char {c : Nat} {bytes : List Nat} (h : utf8Char c = some bytes) (rest : List Nat) :
    utf8Decode (bytes ++ rest) = (utf8Decode rest).map (c :: ·) := by
  have hmod : ∀ n : Nat, continuation (0x80 + n % 64) = some (n % 64) := fun n =>
    continuation_add (Nat.mod_lt _ (by decide))
  have hread : ∀ {least n : Nat}, n = c → least ≤ c → c < 0x110000 → ¬ (0xD800 ≤ c ∧ c ≤ 0xDFFF) →
      ((shortest least n).bind fun c' => (utf8Decode rest).bind fun s => some (c' :: s))
        = (utf8Decode rest).map (c :: ·) := by
    rintro least n rfl hle hlt hsurrogate
    rw [shortest_self hle hlt hsurrogate]
    cases utf8Decode rest <;> rfl
  unfold utf8Char at h
  split_ifs at h with h1 h2 hs h3 h4
  · cases h
    rw [List.singleton_append, utf8Decode.eq_def]
    dsimp only
    rw [if_pos h1]
    cases utf8Decode rest <;> rfl
  · cases h
    rw [List.cons_append, List.singleton_append, utf8Decode.eq_def]
    dsimp only [Option.bind_eq_bind, pure]
    rw [if_neg (by omega), if_neg (by omega), if_pos (by omega), hmod, Option.bind_some]
    exact hread (by omega) (by omega) (by omega) (by omega)
  · cases h
    rw [List.cons_append, List.cons_append, List.singleton_append, utf8Decode.eq_def]
    dsimp only [Option.bind_eq_bind, pure]
    rw [if_neg (by omega), if_neg (by omega), if_neg (by omega), if_pos (by omega), hmod, Option.bind_some, hmod,
      Option.bind_some]
    exact hread (by omega) (by omega) (by omega) hs
  · cases h
    rw [List.cons_append, List.cons_append, List.cons_append, List.singleton_append, utf8Decode.eq_def]
    dsimp only [Option.bind_eq_bind, pure]
    rw [if_neg (by omega), if_neg (by omega), if_neg (by omega), if_neg (by omega), if_pos (by omega), hmod,
      Option.bind_some, hmod, Option.bind_some, hmod, Option.bind_some]
    exact hread (by omega) (by omega) (by omega) hs

theorem utf8Decode_encode {s : PyStr} {bytes : List Nat} (h : utf8Encode s = some bytes) :
    utf8Decode bytes = some s := by
  induction s generalizing bytes with
  | nil =>
      cases h
      rfl
  | cons c s ih =>
      obtain ⟨first, hfirst, h⟩ := Option.bind_eq_some_iff.mp h
      obtain ⟨rest, hrest, h⟩ := Option.bind_eq_some_iff.mp h
      cases h
      rw [utf8Decode_char hfirst, ih hrest]
      rfl

/-- The bytes of a text in two parts. -/
theorem utf8Encode_append {s t : PyStr} {bytes : List Nat} (h : utf8Encode (s ++ t) = some bytes) :
    ∃ front back, utf8Encode s = some front ∧ utf8Encode t = some back ∧ bytes = front ++ back := by
  induction s generalizing bytes with
  | nil => exact ⟨[], bytes, rfl, h, rfl⟩
  | cons c s ih =>
      obtain ⟨first, hfirst, h⟩ := Option.bind_eq_some_iff.mp h
      obtain ⟨rest, hrest, h⟩ := Option.bind_eq_some_iff.mp h
      cases h
      obtain ⟨front, back, hfront, hback, rfl⟩ := ih hrest
      refine ⟨first ++ front, back, ?_, hback, (List.append_assoc ..).symm⟩
      show (utf8Char c).bind _ = _
      rw [hfirst, Option.bind_some, hfront]
      rfl

/-- The bytes of other code points are no ASCII. -/
theorem mem_utf8Char {b c : Nat} {bytes : List Nat} (h : utf8Char c = some bytes) (hb : b ∈ bytes)
    (hlt : b < 0x80) : b = c := by
  unfold utf8Char at h
  split_ifs at h <;> cases h <;> simp only [List.mem_cons, List.not_mem_nil, or_false] at hb <;> omega

/-- An ASCII byte is a character of the text. -/
theorem mem_utf8Encode {b : Nat} {s : PyStr} {bytes : List Nat} (h : utf8Encode s = some bytes) (hb : b ∈ bytes)
    (hlt : b < 0x80) : b ∈ s := by
  induction s generalizing bytes with
  | nil =>
      cases h
      cases hb
  | cons c s ih =>
      obtain ⟨first, hfirst, h⟩ := Option.bind_eq_some_iff.mp h
      obtain ⟨rest, hrest, h⟩ := Option.bind_eq_some_iff.mp h
      cases h
      rcases List.mem_append.mp hb with hb | hb
      · rw [mem_utf8Char hfirst hb hlt]
        exact List.mem_cons_self
      · exact List.mem_cons_of_mem _ (ih hrest hb)

/-- Code points that are no surrogates. -/
def IsScalar (c : Nat) : Prop := c < 0x110000 ∧ ¬ (0xD800 ≤ c ∧ c ≤ 0xDFFF)

theorem isScalar_of_shortest {least n c : Nat} (h : shortest least n = some c) : IsScalar c := by
  unfold shortest at h
  split_ifs at h with hcond
  cases h
  simp only [Bool.and_eq_true, decide_eq_true_eq, Bool.not_eq_true', Bool.and_eq_false_iff,
    decide_eq_false_iff_not] at hcond
  exact ⟨hcond.1.2, by omega⟩

/-- Decoding gives no surrogates. -/
theorem utf8Decode_scalar {bytes : List Nat} {s : PyStr} (h : utf8Decode bytes = some s) :
    ∀ c ∈ s, IsScalar c := by
  induction bytes using utf8Decode.induct generalizing s with
  | case1 =>
      cases h
      exact fun c hc => absurd hc List.not_mem_nil
  | case2 b rest hb ih =>
      rw [utf8Decode.eq_def] at h
      dsimp only at h
      rw [if_pos hb] at h
      obtain ⟨t, ht, h⟩ := Option.bind_eq_some_iff.mp h
      cases h
      exact List.forall_mem_cons.mpr ⟨⟨by omega, by omega⟩, ih ht⟩
  | case3 b rest hb hb' =>
      rw [utf8Decode.eq_def] at h
      dsimp only at h
      rw [if_neg hb, if_pos hb'] at h
      cases h
  | case4 b h1 h2 h3 b₁ rest ih =>
      rw [utf8Decode.eq_def] at h
      dsimp only at h
      rw [if_neg h1, if_neg h2, if_pos h3] at h
      obtain ⟨c₁, -, h⟩ := Option.bind_eq_some_iff.mp h
      obtain ⟨c, hc, h⟩ := Option.bind_eq_some_iff.mp h
      obtain ⟨t, ht, h⟩ := Option.bind_eq_some_iff.mp h
      cases h
      exact List.forall_mem_cons.mpr ⟨isScalar_of_shortest hc, ih ht⟩
  | case5 b h1 h2 h3 =>
      rw [utf8Decode.eq_def] at h
      dsimp only at h
      rw [if_neg h1, if_neg h2, if_pos h3] at h
      cases h
  | case6 b h1 h2 h3 h4 b₁ b₂ rest ih =>
      rw [utf8Decode.eq_def] at h
      dsimp only at h
      rw [if_neg h1, if_neg h2, if_neg h3, if_pos h4] at h
      obtain ⟨c₁, -, h⟩ := Option.bind_eq_some_iff.mp h
      obtain ⟨c₂, -, h⟩ := Option.bind_eq_some_iff.mp h
      obtain ⟨c, hc, h⟩ := Option.bind_eq_some_iff.mp h
      obtain ⟨t, ht, h⟩ := Option.bind_eq_some_iff.mp h
      cases h
      exact List.forall_mem_cons.mpr ⟨isScalar_of_shortest hc, ih ht⟩
  | case7 b rest h1 h2 h3 h4 hshort =>
      rw [utf8Decode.eq_def] at h
      dsimp only at h
      rw [if_neg h1, if_neg h2, if_neg h3, if_pos h4] at h
      split at h
      · exact absurd rfl (hshort _ _ _)
      · cases h
  | case8 b h1 h2 h3 h4 h5 b₁ b₂ b₃ rest ih =>
      rw [utf8Decode.eq_def] at h
      dsimp only at h
      rw [if_neg h1, if_neg h2, if_neg h3, if_neg h4, if_pos h5] at h
      obtain ⟨c₁, -, h⟩ := Option.bind_eq_some_iff.mp h
      obtain ⟨c₂, -, h⟩ := Option.bind_eq_some_iff.mp h
      obtain ⟨c₃, -, h⟩ := Option.bind_eq_some_iff.mp h
      obtain ⟨c, hc, h⟩ := Option.bind_eq_some_iff.mp h
      obtain ⟨t, ht, h⟩ := Option.bind_eq_some_iff.mp h
      cases h
      exact List.forall_mem_cons.mpr ⟨isScalar_of_shortest hc, ih ht⟩
  | case9 b rest h1 h2 h3 h4 h5 hshort =>
      rw [utf8Decode.eq_def] at h
      dsimp only at h
      rw [if_neg h1, if_neg h2, if_neg h3, if_neg h4, if_pos h5] at h
      split at h
      · exact absurd rfl (hshort _ _ _ _)
      · cases h
  | case10 b rest h1 h2 h3 h4 h5 =>
      rw [utf8Decode.eq_def] at h
      dsimp only at h
      rw [if_neg h1, if_neg h2, if_neg h3, if_neg h4, if_neg h5] at h
      cases h

/-- A text without surrogates can be encoded. -/
theorem utf8Encode_of_scalar {s : PyStr} (h : ∀ c ∈ s, IsScalar c) : ∃ bytes, utf8Encode s = some bytes := by
  induction s with
  | nil => exact ⟨[], rfl⟩
  | cons c s ih =>
      obtain ⟨rest, hrest⟩ := ih fun d hd => h d (List.mem_cons_of_mem _ hd)
      obtain ⟨hlt, hnot⟩ := h c (List.mem_cons_self ..)
      have hchar : ∃ bytes, utf8Char c = some bytes := by
        unfold utf8Char
        split_ifs <;> exact ⟨_, rfl⟩
      obtain ⟨bytes, hbytes⟩ := hchar
      refine ⟨bytes ++ rest, ?_⟩
      unfold utf8Encode
      rw [hbytes, hrest]
      rfl

end Py
end KineticSdk
