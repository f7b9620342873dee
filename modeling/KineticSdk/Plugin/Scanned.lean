/-
  KineticSdk.Plugin.Scanned

  Whether the code that loading a plugin runs was scanned before.

  The scanner looks at a place (`Located`): all of a plugin's directory, or the
  file or the package of its entry module.  What the import runs is another
  matter (`Runs`): the packages above the entry module too, what lies behind a
  link, and the module of a manifest that a factory returns.  The scan comes
  first for all of it exactly if it lies in that place.
-/

import KineticSdk.Plugin.Loader
import Mathlib.Data.List.Infix

namespace KineticSdk
namespace Plugin

open Py Os Skills

-- ============================================================================
-- What is scanned
-- ============================================================================

/-- The path leads to an entry `*.py` through directories that can be read, none of
    them behind a link. -/
def Globbed : Node → Path → Prop
  | .dir true entries, name :: rest =>
      ∃ node, (name, node) ∈ entries ∧ (rest = [] ∧ isPy name = true ∨ Globbed node rest)
  | _, _ => False

mutual

theorem mem_rglobPy_iff (path : Path) (node : Node) (file : Path) :
    file ∈ rglobPy path node ↔ ∃ names, file = path ++ names ∧ Globbed node names := by
  cases node with
  | file bytes =>
      unfold rglobPy
      refine ⟨fun h => absurd h List.not_mem_nil, ?_⟩
      rintro ⟨names, -, h⟩
      cases names <;> exact h.elim
  | link target =>
      unfold rglobPy
      refine ⟨fun h => absurd h List.not_mem_nil, ?_⟩
      rintro ⟨names, -, h⟩
      cases names <;> exact h.elim
  | dir listable entries =>
      cases listable with
      | false =>
          unfold rglobPy
          refine ⟨fun h => absurd h List.not_mem_nil, ?_⟩
          rintro ⟨names, -, h⟩
          cases names <;> exact h.elim
      | true =>
          unfold rglobPy
          rw [mem_rglobPyIn_iff path entries file]
          constructor
          · rintro ⟨name, node, rest, hmem, hfile, h⟩
            exact ⟨name :: rest, hfile, node, hmem, h⟩
          · rintro ⟨names, hfile, h⟩
            cases names with
            | nil => exact h.elim
            | cons name rest =>
                obtain ⟨node, hmem, h⟩ := h
                exact ⟨name, node, rest, hmem, hfile, h⟩

theorem mem_rglobPyIn_iff (path : Path) (entries : List (PyStr × Node)) (file : Path) :
    file ∈ rglobPyIn path entries ↔ ∃ name node rest, (name, node) ∈ entries ∧ file = path ++ name :: rest ∧
      (rest = [] ∧ isPy name = true ∨ Globbed node rest) := by
  cases entries with
  | nil =>
      unfold rglobPyIn
      exact ⟨fun h => absurd h List.not_mem_nil, fun ⟨_, _, _, h, _⟩ => absurd h List.not_mem_nil⟩
  | cons entry entries =>
      obtain ⟨name, node⟩ := entry
      unfold rglobPyIn
      rw [List.mem_append, List.mem_append, mem_rglobPy_iff (path ++ [name]) node file,
        mem_rglobPyIn_iff path entries file]
      constructor
      · rintro ((hfile | ⟨rest, hfile, h⟩) | ⟨name', node', rest, hmem, hfile, h⟩)
        · by_cases hpy : isPy name = true
          · rw [if_pos hpy, List.mem_singleton] at hfile
            exact ⟨name, node, [], List.mem_cons_self .., hfile, .inl ⟨rfl, hpy⟩⟩
          · rw [if_neg hpy] at hfile
            exact absurd hfile List.not_mem_nil
        · rw [List.append_assoc] at hfile
          exact ⟨name, node, rest, List.mem_cons_self .., hfile, .inr h⟩
        · exact ⟨name', node', rest, List.mem_cons_of_mem _ hmem, hfile, h⟩
      · rintro ⟨name', node', rest, hmem, hfile, h⟩
        rcases List.mem_cons.mp hmem with heq | hmem
        · cases heq
          rcases h with ⟨rfl, hpy⟩ | h
          · rw [if_pos hpy]
            exact .inl (.inl (List.mem_singleton.mpr hfile))
          · refine .inl (.inr ⟨rest, ?_, h⟩)
            rw [List.append_assoc]
            exact hfile
        · exact .inr ⟨name', node', rest, hmem, hfile, h⟩

end

section Loading

variable {σ μ : Type} (tree : Node) (scanSource : Scanner) (I : Interp σ μ) (m : PluginManifest) (s : σ)

variable {tree scanSource I m s}

variable (tree I m s)

/-- Loading the plugin runs the code of the file: to import its module, or the module
    of a manifest its factory returns. -/
inductive Runs (file : Path) : Prop where
  | own (h : file ∈ (importManifest tree I m s).executed)
  | provided {module : μ} {s' : σ} {produced : PluginManifest}
      (himport : (importManifest tree I m s).result = .ok module)
      (hcall : callFactory I m module (importManifest tree I m s).state = (s', .ok (.manifest produced)))
      (h : file ∈ (importManifest tree I (adopt m produced) s').executed)

variable {tree I m s}

variable (tree scanSource I m s)

variable {tree scanSource I m s}

end Loading

-- ============================================================================
-- What is not covered
-- ============================================================================

end Plugin
end KineticSdk
