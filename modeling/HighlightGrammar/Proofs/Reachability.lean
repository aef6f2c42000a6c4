import HighlightGrammar.Graph.Schedule
import HighlightGrammar.Proofs.Collections
import Mathlib.Logic.Relation

/-!
# Reaching one mode from another

Paths along the edges of a graph of references, those along references by name only, and which references are
edges of the graph of a grammar.
-/

namespace HighlightGrammar

variable {n : Nat}

namespace Graph

/-- Some edge of `source` ends in `target`. -/
def Leads (graph : Graph n) (source target : Fin n) : Prop := target ∈ graph.successors source

def Reaches (graph : Graph n) : Fin n → Fin n → Prop := Relation.ReflTransGen graph.Leads

/-- Two modes on a common cycle, or one mode and itself. -/
def Mutual (graph : Graph n) (a b : Fin n) : Prop := graph.Reaches a b ∧ graph.Reaches b a

theorem leads_iff {graph : Graph n} {source target : Fin n} :
    graph.Leads source target ↔ ∃ edge ∈ graph.edgesFrom source, edge.target = target := by
  simp only [Leads, successors, List.mem_map]

theorem Mutual.refl (graph : Graph n) (node : Fin n) : graph.Mutual node node :=
  ⟨Relation.ReflTransGen.refl, Relation.ReflTransGen.refl⟩

theorem Mutual.symm {graph : Graph n} {a b : Fin n} (both : graph.Mutual a b) : graph.Mutual b a :=
  ⟨both.2, both.1⟩

theorem Mutual.trans {graph : Graph n} {a b c : Fin n} (first : graph.Mutual a b)
    (second : graph.Mutual b c) : graph.Mutual a c :=
  ⟨first.1.trans second.1, second.2.trans first.2⟩

/-! ## References by name -/

/-- Some edge from `source` to `target` is not broken. -/
def Depends (graph : Graph n) (breaks : BreakSet) (source target : Fin n) : Prop :=
  ∃ edge ∈ graph.edgesFrom source, edge.key ∉ breaks ∧ edge.target = target

/-- No cycle consists of references by name. -/
def Acyclic (graph : Graph n) (breaks : BreakSet) : Prop :=
  ∀ node, ¬ Relation.TransGen (graph.Depends breaks) node node

theorem mem_dependencies {graph : Graph n} {breaks : BreakSet} {source target : Fin n} :
    target ∈ graph.dependencies breaks source ↔ graph.Depends breaks source target := by
  simp only [dependencies, List.mem_eraseDups, List.mem_map, List.mem_filter, decide_eq_true_eq, and_assoc, Depends]

theorem Depends.leads {graph : Graph n} {breaks : BreakSet} {source target : Fin n}
    (depends : graph.Depends breaks source target) : graph.Leads source target := by
  obtain ⟨edge, leaves, -, same⟩ := depends
  exact leads_iff.2 ⟨edge, leaves, same⟩

theorem depends_empty {graph : Graph n} {source target : Fin n} :
    graph.Depends ∅ source target ↔ graph.Leads source target := by
  simp [Depends, leads_iff]

end Graph

/-! ## The graph of a grammar -/

theorem Ref.target?_ne {owner target : Fin n} {ref : Ref n} (found : ref.target? owner = some target) :
    target ≠ owner := by
  cases ref with
  | itself => simp [Ref.target?] at found
  | mode index =>
    simp only [Ref.target?] at found
    split at found
    next => contradiction
    next other => cases found; exact other

theorem Ref.resolve_of_target? {owner target : Fin n} {ref : Ref n}
    (found : ref.target? owner = some target) : ref.resolve owner = target := by
  simp [Ref.resolve, found]

theorem Mode.mem_edgesOf {mode : Mode n} {owner : Fin n} {relation : Relation} {edge : Edge n} :
    edge ∈ mode.edgesOf owner relation ↔ edge.source = owner ∧ edge.relation = relation ∧
      ∃ ref, (mode.refs relation)[edge.position]? = some ref ∧ ref.target? owner = some edge.target := by
  simp only [Mode.edgesOf, List.mem_filterMap, Prod.exists, Option.map_eq_some_iff,
    List.mem_zipIdx_iff_getElem?]
  constructor
  · rintro ⟨ref, position, here, target, found, rfl⟩
    exact ⟨rfl, rfl, ref, here, found⟩
  · rintro ⟨rfl, rfl, ref, here, found⟩
    exact ⟨ref, edge.position, here, edge.target, found, rfl⟩

/-- The edges are the references to other modes, each with its place. -/
theorem Mode.mem_edges {mode : Mode n} {owner : Fin n} {edge : Edge n} :
    edge ∈ mode.edges owner ↔ edge.source = owner ∧
      ∃ ref, (mode.refs edge.relation)[edge.position]? = some ref ∧ ref.target? owner = some edge.target := by
  have every : edge.relation ∈ Relation.all := by cases edge.relation <;> decide
  simp only [edges, List.mem_flatMap, mem_edgesOf]
  constructor
  · rintro ⟨relation, -, source, rfl, rest⟩
    exact ⟨source, rest⟩
  · rintro ⟨source, rest⟩
    exact ⟨edge.relation, every, source, rfl, rest⟩

namespace Graph

theorem edgesFrom_ofModes (modes : Modes n) (owner : Fin n) :
    (ofModes modes).edgesFrom owner = (modes.get owner).edges owner :=
  get_ofFn _ owner

theorem mem_edgesFrom_ofModes {modes : Modes n} {owner : Fin n} {edge : Edge n} :
    edge ∈ (ofModes modes).edgesFrom owner ↔ edge.source = owner ∧
      ∃ ref, ((modes.get owner).refs edge.relation)[edge.position]? = some ref ∧
        ref.target? owner = some edge.target := by
  rw [edgesFrom_ofModes, Mode.mem_edges]

theorem mem_edges {graph : Graph n} {edge : Edge n} :
    edge ∈ graph.edges ↔ ∃ owner, edge ∈ graph.edgesFrom owner := by
  simp only [edges, edgesFrom, List.mem_flatten, Vector.mem_toList_iff, Vector.mem_iff_getElem]
  constructor
  · rintro ⟨_, ⟨i, inside, rfl⟩, here⟩
    exact ⟨⟨i, inside⟩, here⟩
  · rintro ⟨owner, here⟩
    exact ⟨_, ⟨owner.val, owner.isLt, rfl⟩, here⟩

theorem mem_edges_ofModes {modes : Modes n} {edge : Edge n} :
    edge ∈ (ofModes modes).edges ↔ edge ∈ (ofModes modes).edgesFrom edge.source := by
  constructor
  · intro member
    obtain ⟨owner, here⟩ := mem_edges.1 member
    rwa [(mem_edgesFrom_ofModes.1 here).1]
  · exact fun here => mem_edges.2 ⟨edge.source, here⟩

/-- No edge of a grammar leads back to where it starts. -/
theorem target_ne_source {modes : Modes n} {owner : Fin n} {edge : Edge n}
    (member : edge ∈ (ofModes modes).edgesFrom owner) : edge.target ≠ owner := by
  obtain ⟨-, ref, -, found⟩ := mem_edgesFrom_ofModes.1 member
  exact Ref.target?_ne found

end Graph

end HighlightGrammar
