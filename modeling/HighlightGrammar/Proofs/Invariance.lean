import HighlightGrammar.Proofs.Plan

/-!
# What a plan depends on

A plan sees the ranks of the modes and which mode refers to which.  Along which kind of reference, at which place
and how often makes no difference to the components, to the pairs that are cut, and to the order: each of these
has a description in which the references occur only as a relation.
-/

namespace HighlightGrammar

variable {n : Nat}

/-- Some reference of `source`, of whatever kind, leads to the other mode `target`. -/
def Modes.Refers (modes : Modes n) (source target : Fin n) : Prop :=
  ∃ relation, ∃ ref ∈ (modes.get source).refs relation, ref.target? source = some target

namespace Graph

theorem leads_ofModes {modes : Modes n} {source target : Fin n} :
    (ofModes modes).Leads source target ↔ modes.Refers source target := by
  rw [leads_iff]
  constructor
  · rintro ⟨edge, leaves, rfl⟩
    obtain ⟨-, ref, here, found⟩ := mem_edgesFrom_ofModes.1 leaves
    exact ⟨edge.relation, ref, List.mem_of_getElem? here, found⟩
  · rintro ⟨relation, ref, member, found⟩
    obtain ⟨position, here⟩ := List.mem_iff_getElem?.1 member
    exact ⟨⟨source, relation, position, target⟩, mem_edgesFrom_ofModes.2 ⟨rfl, ref, here, found⟩, rfl⟩

/-- The key of an edge says which reference it is, and so where it leads. -/
theorem eq_of_key_eq {modes : Modes n} {edge other : Edge n} (first : edge ∈ (ofModes modes).edges)
    (second : other ∈ (ofModes modes).edges) (same : edge.key = other.key) : edge = other := by
  obtain ⟨-, ref, here, found⟩ := mem_edgesFrom_ofModes.1 (mem_edges_ofModes.1 first)
  obtain ⟨-, otherRef, there, otherFound⟩ := mem_edgesFrom_ofModes.1 (mem_edges_ofModes.1 second)
  cases edge with
  | mk source relation position target =>
  cases other with
  | mk otherSource otherRelation otherPosition otherTarget =>
    simp only [Edge.key, EdgeKey.mk.injEq, Fin.val_inj] at same
    obtain ⟨rfl, rfl, rfl⟩ := same
    cases here.symm.trans there
    cases found.symm.trans otherFound
    rfl

end Graph

instance (modes : Modes n) (source target : Fin n) : Decidable (modes.Refers source target) :=
  decidable_of_iff (target ∈ (Graph.ofModes modes).successors source) Graph.leads_ofModes

/-! ## The pairs that are cut -/

/-- References from `source` to `target` are broken: they lie on a cycle and lead backward. -/
def Modes.Cuts (modes : Modes n) (source target : Fin n) : Prop :=
  (Graph.ofModes modes).Reaches target source ∧ Precedes modes target source

namespace BreakSet

variable {modes : Modes n}

theorem key_mem_ofModes {edge : Edge n} (member : edge ∈ (Graph.ofModes modes).edges) :
    edge.key ∈ ofModes modes ↔ modes.Cuts edge.source edge.target := by
  rw [mem_select]
  constructor
  · rintro ⟨broken, cut, same⟩
    obtain ⟨listed, back, backward⟩ := mem_brokenEdges.1 cut
    cases Graph.eq_of_key_eq listed member same
    exact ⟨back, backward⟩
  · rintro ⟨back, backward⟩
    exact ⟨edge, mem_brokenEdges.2 ⟨member, back, backward⟩, rfl⟩

theorem depends_iff {source target : Fin n} : (Graph.ofModes modes).Depends (ofModes modes) source target ↔
    modes.Refers source target ∧ ¬ modes.Cuts source target := by
  rw [← Graph.leads_ofModes, Graph.leads_iff]
  constructor
  · rintro ⟨edge, leaves, kept, rfl⟩
    have member := Graph.mem_edges.2 ⟨source, leaves⟩
    obtain ⟨rfl, -⟩ := Graph.mem_edgesFrom_ofModes.1 leaves
    exact ⟨⟨edge, leaves, rfl⟩, fun cuts => kept ((key_mem_ofModes member).2 cuts)⟩
  · rintro ⟨⟨edge, leaves, rfl⟩, uncut⟩
    have member := Graph.mem_edges.2 ⟨source, leaves⟩
    obtain ⟨rfl, -⟩ := Graph.mem_edgesFrom_ofModes.1 leaves
    exact ⟨edge, leaves, fun broken => uncut ((key_mem_ofModes member).1 broken), rfl⟩

end BreakSet

/-! ## The order -/

section Order

variable {graph other : Graph n} {breaks otherBreaks : BreakSet}
  (same : ∀ source target, graph.Depends breaks source target ↔ other.Depends otherBreaks source target)

include same

theorem Graph.dependents_congr (node : Fin n) :
    graph.dependents breaks node = other.dependents otherBreaks node := by
  apply List.filter_congr
  intro source _
  rw [Bool.eq_iff_iff, List.contains_iff_mem, List.contains_iff_mem, mem_dependencies, mem_dependencies]
  exact same source node

theorem Graph.dependencies_perm (node : Fin n) :
    (graph.dependencies breaks node).Perm (other.dependencies otherBreaks node) := by
  rw [List.perm_ext_iff_of_nodup (graph.nodup_dependencies breaks node) (other.nodup_dependencies otherBreaks node)]
  intro target
  rw [mem_dependencies, mem_dependencies]
  exact same node target

theorem Queue.start_congr : start graph breaks = start other otherBreaks := by
  have lengths : ∀ node, (graph.dependencies breaks node).length = (other.dependencies otherBreaks node).length :=
    fun node => (Graph.dependencies_perm same node).length_eq
  have empties : ∀ node, (graph.dependencies breaks node).isEmpty = (other.dependencies otherBreaks node).isEmpty := by
    intro node
    rw [Bool.eq_iff_iff, List.isEmpty_iff_length_eq_zero, List.isEmpty_iff_length_eq_zero, lengths]
  simp only [start, lengths, empties]

theorem Queue.step_congr : step graph breaks = step other otherBreaks := by
  funext q
  simp only [step, Graph.dependents_congr same]

/-- The order is that of the references by name, taken as a relation. -/
theorem Schedule.ofGraph_congr : ofGraph graph breaks = ofGraph other otherBreaks := by
  have run : declareAll graph breaks = declareAll other otherBreaks := by
    simp only [declareAll, Queue.start_congr same, Queue.step_congr same]
  rw [ofGraph, ofGraph, run]

end Order

/-! ## The components -/

namespace Partition

variable {graph other : Graph n}

theorem mem_components_of_mutual (same : ∀ a b, graph.Mutual a b ↔ other.Mutual a b) {component : List (Fin n)}
    (listed : component ∈ (ofGraph graph).components) : component ∈ (ofGraph other).components := by
  obtain ⟨nonempty, ascending⟩ := ascending_of_mem listed
  obtain ⟨node, member⟩ := List.exists_mem_of_ne_nil component nonempty
  obtain ⟨counterpart, here, otherMember⟩ := exists_component other node
  have otherListed := List.mem_of_getElem? here
  have otherAscending := (ascending_of_mem otherListed).2
  -- Both are the class of the node in ascending order.
  have members : ∀ x, x ∈ component ↔ x ∈ counterpart := by
    intro x
    rw [mem_component_iff listed member, mem_component_iff otherListed otherMember]
    exact same node x
  have perm : component.Perm counterpart :=
    (List.perm_ext_iff_of_nodup (nodup_of_mem listed) (nodup_of_mem otherListed)).2 members
  have equal : component = counterpart :=
    perm.eq_of_pairwise (fun a b _ _ less greater => absurd greater (Fin.lt_asymm less)) ascending otherAscending
  exact equal ▸ otherListed

theorem nodup_components (graph : Graph n) : (ofGraph graph).components.Nodup := by
  rw [List.nodup_iff_getElem?_ne_getElem?]
  intro i j less inside same
  have here : (ofGraph graph).components[j]? = some (ofGraph graph).components[j] := List.getElem?_eq_getElem inside
  obtain ⟨node, member⟩ := List.exists_mem_of_ne_nil _ (ascending_of_mem (List.mem_of_getElem? here)).1
  have first := componentOf_eq (same.trans here) member
  have second := componentOf_eq here member
  omega

theorem components_perm (same : ∀ a b, graph.Mutual a b ↔ other.Mutual a b) :
    (ofGraph graph).components.Perm (ofGraph other).components := by
  rw [List.perm_ext_iff_of_nodup (nodup_components graph) (nodup_components other)]
  intro component
  constructor
  · exact mem_components_of_mutual same
  · exact mem_components_of_mutual fun a b => (same a b).symm

end Partition

/-! ## Plans -/

section Plans

variable {modes others : Modes n}

theorem Modes.reaches_congr
    (pairs : ∀ source target, modes.Refers source target ↔ others.Refers source target) :
    (Graph.ofModes modes).Reaches = (Graph.ofModes others).Reaches := by
  have leads : (Graph.ofModes modes).Leads = (Graph.ofModes others).Leads := by
    funext source target
    rw [eq_iff_iff, Graph.leads_ofModes, Graph.leads_ofModes]
    exact pairs source target
  rw [Graph.Reaches, Graph.Reaches, leads]

theorem Modes.cuts_congr
    (ranks : ∀ mode : Fin n,
      (modes.get mode).attributes.canonicalRank = (others.get mode).attributes.canonicalRank)
    (pairs : ∀ source target, modes.Refers source target ↔ others.Refers source target) (source target : Fin n) :
    modes.Cuts source target ↔ others.Cuts source target := by
  rw [Cuts, Cuts, reaches_congr pairs, Precedes, Precedes, ranks, ranks]

/-- Grammars with the same ranks and the same pairs of modes that refer to one another are planned alike. -/
theorem Plan.determined_by_pairs (modes others : Modes n)
    (ranks : ∀ mode : Fin n,
      (modes.get mode).attributes.canonicalRank = (others.get mode).attributes.canonicalRank)
    (pairs : ∀ source target, modes.Refers source target ↔ others.Refers source target) :
    (ofModes modes).schedule = (ofModes others).schedule ∧
    (ofModes modes).partition.components.Perm (ofModes others).partition.components ∧
    ∀ edge ∈ (ofModes modes).graph.edges, edge.key ∈ (ofModes modes).breaks ↔
      ∀ counterpart ∈ (ofModes others).graph.edges, counterpart.source = edge.source →
        counterpart.target = edge.target → counterpart.key ∈ (ofModes others).breaks := by
  have cuts := Modes.cuts_congr ranks pairs
  refine ⟨?_, ?_, ?_⟩
  · apply Schedule.ofGraph_congr
    intro source target
    rw [BreakSet.depends_iff, BreakSet.depends_iff, pairs, cuts]
  · apply Partition.components_perm
    intro a b
    rw [Graph.Mutual, Graph.Mutual, Modes.reaches_congr pairs]
  · intro edge member
    change edge.key ∈ BreakSet.ofModes modes ↔ _
    rw [BreakSet.key_mem_ofModes member, cuts]
    constructor
    · intro cut counterpart listed source target
      rw [← source, ← target] at cut
      exact (BreakSet.key_mem_ofModes listed).2 cut
    · intro all
      -- The other grammar has a reference between the same modes, and that one is broken.
      have refers : others.Refers edge.source edge.target := by
        rw [← pairs, ← Graph.leads_ofModes, Graph.leads_iff]
        exact ⟨edge, Graph.mem_edges_ofModes.1 member, rfl⟩
      obtain ⟨counterpart, leaves, target⟩ := Graph.leads_iff.1 (Graph.leads_ofModes.2 refers)
      obtain ⟨source, -⟩ := Graph.mem_edgesFrom_ofModes.1 leaves
      have listed : counterpart ∈ (Graph.ofModes others).edges := Graph.mem_edges.2 ⟨_, leaves⟩
      have broken := (BreakSet.key_mem_ofModes listed).1 (all counterpart listed source target)
      rwa [source, target] at broken

/-- A circle of three modes. -/
def nestedModes : Modes 3 :=
  #v[⟨"text", .scoped "string", [.mode 2, .itself, .mode 1], [], none⟩,
    ⟨"value", .scoped "subst", [.mode 0], [.mode 2], none⟩,
    ⟨"call", .scoped "title", [], [.mode 0, .mode 0], some (.mode 1)⟩]

/-- The same pairs, by other kinds of reference, in another order and some of them twice. -/
def rearrangedModes : Modes 3 :=
  #v[⟨"text", .scoped "string", [.mode 1], [.mode 2, .mode 1], some .itself⟩,
    ⟨"value", .scoped "subst", [.mode 2, .mode 0], [], some (.mode 0)⟩,
    ⟨"call", .scoped "number", [.mode 1, .mode 0, .mode 2], [], none⟩]

theorem Plan.schedule_rearrangedModes : nestedModes ≠ rearrangedModes ∧
    (ofModes nestedModes).schedule = (ofModes rearrangedModes).schedule :=
  ⟨by decide, (determined_by_pairs nestedModes rearrangedModes (by decide) (by decide)).1⟩

end Plans

end HighlightGrammar
