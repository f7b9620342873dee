/-
  KineticSdk.Py.JsonFile

  A JSON value in a UTF-8 text file, written by `json.dump` with
  `ensure_ascii=False` and read by `read_text` and `json.loads`.

  Reading a text file turns `\r\n` and `\r` into `\n`.  The printed value has
  no control character (`le_of_mem_dumps`), so it is read as it was written.
-/

import KineticSdk.Py.JsonAscii

namespace KineticSdk
namespace Py

variable {fl : FloatRepr}

/-- Universal newlines. -/
def universalNewlines : PyStr → PyStr
  | [] => []
  | 13 :: 10 :: s => 10 :: universalNewlines s
  | c :: s => (if c = 13 then 10 else c) :: universalNewlines s

/-- The text `json.dump(v, fh, ensure_ascii=False)` writes, with `none` for a
    `UnicodeEncodeError`. -/
def dumpText (v : Json) : Option PyStr := if v.encodable then some (dumps false v) else none

/-- `json.loads(path.read_text(encoding="utf-8"))`. -/
def loadText (fl : FloatRepr) (text : PyStr) : Except LoadsError Json :=
  loads {} fl (universalNewlines text)

theorem universalNewlines_of_no_cr {s : PyStr} (h : 13 ∉ s) : universalNewlines s = s := by
  induction s with
  | nil => rfl
  | cons c s ih =>
      have hc : c ≠ 13 := fun heq => h (by rw [heq]; exact List.mem_cons_self ..)
      have hs : 13 ∉ s := fun hmem => h (List.mem_cons_of_mem _ hmem)
      unfold universalNewlines
      split
      · rename_i heq
        cases heq
      · rename_i heq
        exact absurd (List.cons.inj heq).1 hc
      · rename_i heq
        obtain ⟨rfl, rfl⟩ := List.cons.inj heq
        rw [if_neg hc, ih hs]

/-- What was written is read back. -/
theorem loadText_dumps {v : Json} (hv : Readable false fl v) : loadText fl (dumps false v) = .ok v := by
  have hcr : 13 ∉ dumps false v := fun hmem => absurd (le_of_mem_dumps hv hmem) (by decide)
  unfold loadText
  rw [universalNewlines_of_no_cr hcr]
  exact loads_dumps hv

end Py
end KineticSdk
