import HighlightGrammar.Proofs.Invariance

/-!
# The break set and the cycles of a grammar

A cycle is a list of edges that follow one another and lead back to where they start; parallel references are
different edges of it.  The break set takes an edge from every cycle and none that lies on no cycle, so it is empty
exactly for grammars without cycles.
-/

namespace HighlightGrammar

variable {n : Nat}

/-- None of the edges is broken. -/
def BreakSet.Spares (breaks : BreakSet) (edges : List (Edge n)) : Prop := ∀ edge ∈ edges, edge.key ∉ breaks

namespace Graph

/-- Edges that follow one another from one mode to another. -/
inductive Walk (graph : Graph n) : Fin n → List (Edge n) → Fin n → Prop where
  | nil (node : Fin n) : Walk graph node [] node
  | cons {edge : Edge n} {rest : List (Edge n)} {last : Fin n} (member : edge ∈ graph.edges)
    (after : Walk graph edge.target rest last) : Walk graph edge.source (edge :: rest) last

/-- One edge or more that lead back to where they start. -/
def IsCycle (graph : Graph n) (edges : List (Edge n)) : Prop := edges ≠ [] ∧ ∃ node, graph.Walk node edges node

variable {modes : Modes n} {breaks : BreakSet} {first last : Fin n} {edges : List (Edge n)}

theorem exists_spared_cons {next : Fin n} {rest : List (Edge n)} (depends : (ofModes modes).Depends breaks first next)
    (after : (ofModes modes).Walk next rest last) (spares : breaks.Spares rest) :
    ∃ edge, (ofModes modes).Walk first (edge :: rest) last ∧ breaks.Spares (edge :: rest) := by
  obtain ⟨edge, leaves, kept, rfl⟩ := depends
  have member := mem_edges.2 ⟨first, leaves⟩
  obtain ⟨rfl, -⟩ := mem_edgesFrom_ofModes.1 leaves
  exact ⟨edge, .cons member after, List.forall_mem_cons.2 ⟨kept, spares⟩⟩

theorem exists_spared_walk (leads : Relation.ReflTransGen ((ofModes modes).Depends breaks) first last) :
    ∃ edges, (ofModes modes).Walk first edges last ∧ breaks.Spares edges := by
  induction leads using Relation.ReflTransGen.head_induction_on with
  | refl => exact ⟨[], .nil last, nofun⟩
  | head depends _ ih =>
    obtain ⟨rest, after, sparesRest⟩ := ih
    obtain ⟨edge, walk, spares⟩ := exists_spared_cons depends after sparesRest
    exact ⟨edge :: rest, walk, spares⟩

theorem exists_walk (reaches : (ofModes modes).Reaches first last) :
    ∃ edges, (ofModes modes).Walk first edges last := by
  have depends : Relation.ReflTransGen ((ofModes modes).Depends ∅) first last :=
    Relation.ReflTransGen.mono (fun _ _ leads => depends_empty.2 leads) _ _ reaches
  obtain ⟨edges, walk, -⟩ := exists_spared_walk depends
  exact ⟨edges, walk⟩

/-- Along edges that are not broken, each mode depends on those after it. -/
theorem Walk.depends (walk : (ofModes modes).Walk first edges last) (spares : breaks.Spares edges) :
    Relation.ReflTransGen ((ofModes modes).Depends breaks) first last := by
  induction walk with
  | nil node => exact .refl
  | @cons edge rest last member after ih =>
    obtain ⟨kept, sparesRest⟩ := List.forall_mem_cons.1 spares
    exact .head ⟨edge, mem_edges_ofModes.1 member, kept, rfl⟩ (ih sparesRest)

theorem Walk.depends_of_ne_nil (walk : (ofModes modes).Walk first edges last) (proper : edges ≠ [])
    (spares : breaks.Spares edges) : Relation.TransGen ((ofModes modes).Depends breaks) first last := by
  cases walk with
  | nil => exact absurd rfl proper
  | @cons edge rest _ member after =>
    obtain ⟨kept, sparesRest⟩ := List.forall_mem_cons.1 spares
    exact Relation.TransGen.head' ⟨edge, mem_edges_ofModes.1 member, kept, rfl⟩ (after.depends sparesRest)

/-- An edge whose target leads back to its source closes a cycle. -/
theorem exists_cycle {edge : Edge n} (member : edge ∈ (ofModes modes).edges)
    (back : (ofModes modes).Reaches edge.target edge.source) :
    ∃ edges, (ofModes modes).IsCycle edges ∧ edge ∈ edges := by
  obtain ⟨rest, after⟩ := exists_walk back
  exact ⟨edge :: rest, ⟨List.cons_ne_nil edge rest, _, .cons member after⟩, List.mem_cons_self⟩

end Graph

namespace BreakSet

variable {modes : Modes n} {edges : List (Edge n)}

theorem exists_broken (cycle : (Graph.ofModes modes).IsCycle edges) :
    ∃ edge ∈ edges, edge.key ∈ ofModes modes := by
  obtain ⟨some, node, walk⟩ := cycle
  by_contra unbroken
  push Not at unbroken
  -- Nothing of the cycle is broken, so its first mode depends on itself.
  exact acyclic_ofModes modes node (walk.depends_of_ne_nil some unbroken)

theorem mem_ofModes {key : EdgeKey} : key ∈ ofModes modes ↔
    ∃ edge ∈ (Graph.ofModes modes).edges, edge.key = key ∧ modes.Cuts edge.source edge.target := by
  rw [mem_select]
  constructor
  · rintro ⟨edge, broken, rfl⟩
    obtain ⟨member, cuts⟩ := mem_brokenEdges.1 broken
    exact ⟨edge, member, rfl, cuts⟩
  · rintro ⟨edge, member, rfl, cuts⟩
    exact ⟨edge, mem_brokenEdges.2 ⟨member, cuts⟩, rfl⟩

theorem isEmpty_iff {breaks : BreakSet} : breaks.isEmpty = true ↔ ∀ key, key ∉ breaks :=
  List.isEmpty_iff.trans List.eq_nil_iff_forall_not_mem

/-- Broken are the references on cycles that lead backward: at least one on every cycle, and none elsewhere. -/
theorem ofModes_exact (modes : Modes n) :
    (∀ key, key ∈ ofModes modes ↔ ∃ edge ∈ (Graph.ofModes modes).edges, edge.key = key ∧
      (Graph.ofModes modes).Reaches edge.target edge.source ∧ Precedes modes edge.target edge.source) ∧
    (∀ edges, (Graph.ofModes modes).IsCycle edges → ∃ edge ∈ edges, edge.key ∈ ofModes modes) ∧
    (∀ edge ∈ (Graph.ofModes modes).edges, edge.key ∈ ofModes modes →
      ∃ edges, (Graph.ofModes modes).IsCycle edges ∧ edge ∈ edges) ∧
    ((ofModes modes).isEmpty = true ↔ ∀ edges, ¬ (Graph.ofModes modes).IsCycle edges) := by
  refine ⟨fun _ => mem_ofModes, fun _ => exists_broken, fun edge member broken => ?_, ?_⟩
  · exact Graph.exists_cycle member ((key_mem_ofModes member).1 broken).1
  · rw [isEmpty_iff]
    constructor
    · intro empty edges cycle
      obtain ⟨edge, -, broken⟩ := exists_broken cycle
      exact empty edge.key broken
    · intro acyclic key broken
      obtain ⟨edge, member, -, cuts⟩ := mem_ofModes.1 broken
      obtain ⟨edges, cycle, -⟩ := Graph.exists_cycle member cuts.1
      exact acyclic edges cycle

end BreakSet

end HighlightGrammar
