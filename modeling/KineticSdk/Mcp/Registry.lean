/-
  KineticSdk.Mcp.Registry

  The servers of an agent and their tools under one roof (`mcp/registry.py`).

  A tool is registered as `server.tool`.  Both parts may have dots in them, so
  two tools get one name when the name of one server goes on, behind a dot, with
  what a tool of the other begins with.
-/

import KineticSdk.Lib.Traverse
import KineticSdk.Mcp.Adapter
import KineticSdk.Py.Dict
import Mathlib.Data.List.Induction

namespace KineticSdk
namespace Mcp

open Py

variable {γ : Type}

-- ============================================================================
-- MCPServerRegistry
-- ============================================================================

/-- `register`; a server's configuration is only stored. -/
def register (configs : List (PyStr × γ)) (name : PyStr) (config : γ) :
    Except PyExc (List (PyStr × γ)) :=
  if name = [] then .error ⟨py "ValueError", py "Server name must be non-empty"⟩
  else if (Dict.get? configs name).isSome then
    .error ⟨py "ValueError", py "MCP server " ++ pyReprStr name
      ++ py " is already registered — close() and re-register to replace it"⟩
  else .ok (configs ++ [(name, config)])

/-- The registry after these calls of `register`; one that raises changes nothing. -/
def registerAll (calls : List (PyStr × γ)) : List (PyStr × γ) :=
  calls.foldl (fun configs call => (register configs call.1 call.2).toOption.getD configs) []

/-- The names of the servers. -/
def serverNames (calls : List (PyStr × γ)) : List PyStr := (registerAll calls).map Prod.fst

/-- `get_tools_as_kinetic_tools` of a server that announces these schemas. -/
def getToolsAsKineticTools (name : PyStr) (schemas : List Dict) : Except PyExc (List ToolAdapter) :=
  schemas.mapM (ToolAdapter.fromMcpSchema name)

/-- The tools of all servers, as an agent gets them. -/
def mergedTools (calls : List (PyStr × γ)) (announce : PyStr → List Dict) :
    Except PyExc (List ToolAdapter) := do
  let tools ← (serverNames calls).mapM fun name => getToolsAsKineticTools name (announce name)
  pure tools.flatten

-- ============================================================================
-- Invariants of the registry
-- ============================================================================

theorem register_names {configs configs' : List (PyStr × γ)} {name : PyStr} {config : γ}
    (h : register configs name config = .ok configs') (hnames : (configs.map Prod.fst).Nodup) :
    (configs'.map Prod.fst).Nodup := by
  unfold register at h
  split_ifs at h with hempty htaken
  cases h
  have hfresh : name ∉ configs.map Prod.fst := by
    intro hmem
    exact htaken ((Dict.mem_keys_iff configs name).mp hmem)
  rw [List.map_append, List.nodup_append]
  refine ⟨hnames, List.nodup_singleton _, ?_⟩
  rintro n hn n' hn' rfl
  have heq : n = name := List.mem_singleton.mp hn'
  exact hfresh (heq ▸ hn)

/-- Whatever is registered, the names are distinct. -/
theorem serverNames_nodup (calls : List (PyStr × γ)) : (serverNames calls).Nodup := by
  unfold serverNames registerAll
  induction calls using List.reverseRecOn with
  | nil => exact List.nodup_nil
  | append_singleton calls call ih =>
      rw [List.foldl_append, List.foldl_cons, List.foldl_nil]
      cases hreg : register (calls.foldl (fun configs call =>
          (register configs call.1 call.2).toOption.getD configs) []) call.1 call.2 with
      | error e => exact ih
      | ok configs' => exact register_names hreg ih

-- ============================================================================
-- The names of the tools
-- ============================================================================

/-- What the servers announce: each tool with its server. -/
def announced (names : List PyStr) (announce : PyStr → List Dict) : List (PyStr × PyStr) :=
  names.flatMap fun s => (announce s).map fun schema => (s, schemaName schema)

/-- The name a tool is registered under. -/
def registeredName (p : PyStr × PyStr) : PyStr := p.1 ++ py "." ++ p.2

theorem fromMcpSchema_name {server : PyStr} {schema : Dict} {a : ToolAdapter}
    (h : ToolAdapter.fromMcpSchema server schema = .ok a) :
    a.name = registeredName (server, schemaName schema) := by
  unfold ToolAdapter.fromMcpSchema ToolAdapter.new at h
  split_ifs at h
  cases h
  rfl

/-- The merged tools are registered under the names of what is announced. -/
theorem mergedTools_names {calls : List (PyStr × γ)} {announce : PyStr → List Dict}
    {merged : List ToolAdapter} (h : mergedTools calls announce = .ok merged) :
    merged.map ToolAdapter.name
      = (announced (serverNames calls) announce).map registeredName := by
  unfold mergedTools at h
  generalize serverNames calls = names at h ⊢
  induction names generalizing merged with
  | nil =>
      cases h
      rfl
  | cons s names ih =>
      rw [List.mapM_cons] at h
      cases hs : getToolsAsKineticTools s (announce s) with
      | error e =>
          rw [hs] at h
          cases h
      | ok tools =>
          rw [hs] at h
          cases hrest : names.mapM fun name => getToolsAsKineticTools name (announce name) with
          | error e =>
              rw [hrest] at h
              cases h
          | ok rest =>
              rw [hrest] at h
              cases h
              have hfirst : tools.map ToolAdapter.name
                  = (announce s).map fun schema => registeredName (s, schemaName schema) :=
                Lib.Traverse.mapM_map_eq fromMcpSchema_name hs
              have hothers := ih (by rw [hrest]; rfl)
              have hsplit : announced (s :: names) announce
                  = (announce s).map (fun schema => (s, schemaName schema)) ++ announced names announce := rfl
              rw [List.flatten_cons, List.map_append, hfirst, hothers, hsplit, List.map_append, List.map_map]
              rfl

/-- The name `s'` goes on, behind a dot, with what `t` begins with. -/
def GoesOnWith (s t s' t' : PyStr) : Prop := ∃ x, s' = s ++ py "." ++ x ∧ t = x ++ py "." ++ t'

/-- Two registered names are one text: the tools are the same, or one server's name goes on
    with what the other's tool begins with. -/
theorem registeredName_eq_iff (s t s' t' : PyStr) :
    registeredName (s, t) = registeredName (s', t') ↔
      (s = s' ∧ t = t') ∨ GoesOnWith s t s' t' ∨ GoesOnWith s' t' s t := by
  have hdot : py "." = [46] := by decide
  have hcut : ∀ {u v u' v' x : PyStr}, u' = u ++ x → [46] ++ v = x ++ ([46] ++ v') →
      (u = u' ∧ v = v') ∨ GoesOnWith u v u' v' := by
    intro u v u' v' x hu hv
    cases x with
    | nil => exact .inl ⟨by rw [hu, List.append_nil], List.append_cancel_left hv⟩
    | cons c x =>
        obtain ⟨rfl, hrest⟩ := List.cons.inj hv
        refine .inr ⟨x, ?_, ?_⟩
        · rw [hu, hdot, List.append_assoc, List.singleton_append]
        · rw [hdot, List.append_assoc]
          exact hrest
  have hback : ∀ {u v u' v' : PyStr}, GoesOnWith u v u' v' →
      registeredName (u, v) = registeredName (u', v') := by
    rintro u v u' v' ⟨x, rfl, rfl⟩
    show u ++ py "." ++ (x ++ py "." ++ v') = u ++ py "." ++ x ++ py "." ++ v'
    simp only [List.append_assoc]
  constructor
  · intro h
    have happend : s ++ ([46] ++ t) = s' ++ ([46] ++ t') := by
      rw [← List.append_assoc, ← List.append_assoc, ← hdot]
      exact h
    rcases List.append_eq_append_iff.mp happend with ⟨x, hs, ht⟩ | ⟨x, hs, ht⟩
    · exact (hcut hs ht).imp_right .inl
    · rcases hcut hs ht with ⟨rfl, rfl⟩ | hgoes
      · exact .inl ⟨rfl, rfl⟩
      · exact .inr (.inr hgoes)
  · rintro (⟨rfl, rfl⟩ | h | h)
    · rfl
    · exact hback h
    · exact (hback h).symm

theorem nodup_announced {names : List PyStr} (hnames : names.Nodup) {announce : PyStr → List Dict}
    (hdistinct : ∀ s ∈ names, ((announce s).map schemaName).Nodup) :
    (announced names announce).Nodup := by
  unfold announced
  rw [List.nodup_flatMap]
  refine ⟨fun s hs => ?_, hnames.imp fun {s s'} hne => ?_⟩
  · have hpairs : (announce s).map (fun schema => (s, schemaName schema))
        = ((announce s).map schemaName).map fun t => (s, t) := by
      rw [List.map_map]
      rfl
    rw [hpairs]
    exact (hdistinct s hs).map fun t t' h => (Prod.mk.inj h).2
  · intro p hp hp'
    obtain ⟨schema, -, rfl⟩ := List.mem_map.mp hp
    obtain ⟨schema', -, h⟩ := List.mem_map.mp hp'
    exact hne (Prod.mk.inj h).1.symm

theorem mem_announced {names : List PyStr} {announce : PyStr → List Dict} {s t : PyStr} :
    (s, t) ∈ announced names announce ↔ s ∈ names ∧ t ∈ (announce s).map schemaName := by
  unfold announced
  rw [List.mem_flatMap]
  constructor
  · rintro ⟨s', hs', hp⟩
    obtain ⟨schema, hschema, h⟩ := List.mem_map.mp hp
    obtain ⟨rfl, rfl⟩ := Prod.mk.inj h
    exact ⟨hs', List.mem_map_of_mem hschema⟩
  · rintro ⟨hs, ht⟩
    obtain ⟨schema, hschema, rfl⟩ := List.mem_map.mp ht
    exact ⟨s, hs, List.mem_map_of_mem hschema⟩

/-- The tools of all servers have distinct names exactly when no server's name goes on, behind
    a dot, with what a tool of another server begins with. -/
theorem merged_names_distinct_iff {calls : List (PyStr × γ)} {announce : PyStr → List Dict}
    {merged : List ToolAdapter} (hmerged : mergedTools calls announce = .ok merged)
    (hdistinct : ∀ s ∈ serverNames calls, ((announce s).map schemaName).Nodup) :
    (merged.map ToolAdapter.name).Nodup ↔
      ∀ s ∈ serverNames calls, ∀ s' ∈ serverNames calls, ∀ t ∈ (announce s).map schemaName,
        ∀ t' ∈ (announce s').map schemaName, ¬ GoesOnWith s t s' t' := by
  have hnodup := nodup_announced (serverNames_nodup calls) hdistinct
  rw [mergedTools_names hmerged, List.nodup_map_iff_inj_on hnodup]
  constructor
  · intro hinj s hs s' hs' t ht t' ht' hgoes
    have hsame := hinj (s, t) (mem_announced.mpr ⟨hs, ht⟩) (s', t') (mem_announced.mpr ⟨hs', ht'⟩)
      ((registeredName_eq_iff s t s' t').mpr (.inr (.inl hgoes)))
    obtain ⟨x, hx, -⟩ := hgoes
    have hlength := congrArg List.length ((Prod.mk.inj hsame).1.trans hx)
    have hdot : (py ".").length = 1 := by decide
    rw [List.length_append, List.length_append, hdot] at hlength
    omega
  · rintro hnone ⟨s, t⟩ hp ⟨s', t'⟩ hp' heq
    obtain ⟨hs, ht⟩ := mem_announced.mp hp
    obtain ⟨hs', ht'⟩ := mem_announced.mp hp'
    rcases (registeredName_eq_iff s t s' t').mp heq with ⟨rfl, rfl⟩ | hgoes | hgoes
    · rfl
    · exact absurd hgoes (hnone s hs s' hs' t ht t' ht')
    · exact absurd hgoes (hnone s' hs' s hs t' ht' t ht)

/-- A schema with a name only. -/
def schemaOf (name : PyStr) : Dict := [(py "name", .str name)]

/-- Two servers that both have a search. -/
def searchServers : List (PyStr × Unit) := [(py "unity", ()), (py "files", ())]

theorem search_names_distinct :
    ∃ merged, mergedTools searchServers (fun _ => [schemaOf (py "search")]) = .ok merged ∧
      (merged.map ToolAdapter.name).Nodup := by
  have hmerged : ∃ merged, mergedTools searchServers (fun _ => [schemaOf (py "search")]) = .ok merged :=
    ⟨_, rfl⟩
  obtain ⟨merged, hmerged⟩ := hmerged
  refine ⟨merged, hmerged, (merged_names_distinct_iff hmerged fun s _ => List.nodup_singleton _).mpr ?_⟩
  rintro s hs s' hs' t ht t' ht' ⟨x, -, hx⟩
  obtain rfl := List.mem_singleton.mp ht
  obtain rfl := List.mem_singleton.mp ht'
  have hlength := congrArg List.length hx
  have hdot : (py ".").length = 1 := by decide
  rw [List.length_append, List.length_append, hdot] at hlength
  omega

/-- A server and one whose name goes on behind a dot. -/
def dottedServers : List (PyStr × Unit) := [(py "a", ()), (py "a.b", ())]

/-- What the two announce. -/
def dottedTools (server : PyStr) : List Dict :=
  if server = py "a" then [schemaOf (py "b.c")] else [schemaOf (py "c")]

/-- Both tools are registered as `a.b.c`. -/
theorem dotted_names_clash :
    serverNames dottedServers = [py "a", py "a.b"] ∧
      ∃ merged, mergedTools dottedServers dottedTools = .ok merged ∧
        merged.map ToolAdapter.name = [py "a.b.c", py "a.b.c"] ∧ ¬ (merged.map ToolAdapter.name).Nodup :=
  ⟨by decide, _, rfl, by decide, by decide⟩

end Mcp
end KineticSdk
