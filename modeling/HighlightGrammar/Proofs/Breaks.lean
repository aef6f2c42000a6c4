import HighlightGrammar.Graph.BreakSet
import HighlightGrammar.Proofs.Components

/-!
# Which references are broken

The canonical order of a component is that of rank and position.  An edge is broken exactly if it lies on a
cycle and leads to a mode that comes before its source, so along edges that are kept no cycle is left.
-/

namespace HighlightGrammar

variable {n : Nat}

/-- A mode that has nothing but a scope. -/
def Attributes.scoped (scope : String) : Attributes where
  scope := some scope
  className := none
  opening := none
  closing := none
  whole := none
  keywords := none
  beginKeywords := none
  illegal := none
  flags := ⟨false, false, false, false, false, false, false⟩
  relevance := none
  subLanguage := none
  beginScope := none
  endScope := none

/-- The canonical order: by rank, then by position. -/
def Precedes (modes : Modes n) (a b : Fin n) : Prop :=
  (modes.get a).attributes.canonicalRank < (modes.get b).attributes.canonicalRank ∨
    ((modes.get a).attributes.canonicalRank = (modes.get b).attributes.canonicalRank ∧ a < b)

namespace Precedes

variable {modes : Modes n} {a b c : Fin n}

theorem irrefl (modes : Modes n) (a : Fin n) : ¬ Precedes modes a a := by
  simp [Precedes]

theorem trans (first : Precedes modes a b) (second : Precedes modes b c) : Precedes modes a c := by
  simp only [Precedes, Fin.lt_def] at *
  omega

theorem asymm (first : Precedes modes a b) : ¬ Precedes modes b a :=
  fun second => irrefl modes a (first.trans second)

theorem total (modes : Modes n) (different : a ≠ b) : Precedes modes a b ∨ Precedes modes b a := by
  have apart : a.val ≠ b.val := fun same => different (Fin.ext same)
  simp only [Precedes, Fin.lt_def]
  omega

end Precedes

theorem canonicallyBefore_iff (modes : Modes n) (a b : Fin n) :
    canonicallyBefore modes a b = true ↔ Precedes modes a b ∨ a = b := by
  simp only [canonicallyBefore, Precedes, Bool.or_eq_true, Bool.and_eq_true, decide_eq_true_eq, beq_iff_eq,
    Fin.le_def, Fin.lt_def, Fin.ext_iff]
  constructor
  · omega
  · rintro (either | same)
    · omega
    · obtain rfl : a = b := Fin.ext same
      omega

theorem pairwise_canonicalOrder (modes : Modes n) {component : List (Fin n)} (unique : component.Nodup) :
    (canonicalOrder modes component).Pairwise (Precedes modes) :=
  pairwise_mergeSort_of_nodup (canonicallyBefore_iff modes) Precedes.trans (Precedes.total modes) unique

/-- In a list in order, places compare as the elements do. -/
theorem idxOf_lt_idxOf_iff {order : Fin n → Fin n → Prop} (asymm : ∀ {a b}, order a b → ¬ order b a)
    {nodes : List (Fin n)} (ordered : nodes.Pairwise order) {a b : Fin n} (first : a ∈ nodes)
    (second : b ∈ nodes) : nodes.idxOf a < nodes.idxOf b ↔ order a b := by
  have insideA := List.idxOf_lt_length_of_mem first
  have insideB := List.idxOf_lt_length_of_mem second
  have rel := List.pairwise_iff_getElem.1 ordered
  have forward {x y : Fin n} (insideX : nodes.idxOf x < nodes.length) (insideY : nodes.idxOf y < nodes.length)
      (less : nodes.idxOf x < nodes.idxOf y) : order x y := by
    have related := rel (nodes.idxOf x) (nodes.idxOf y) insideX insideY less
    rwa [List.getElem_idxOf insideX, List.getElem_idxOf insideY] at related
  constructor
  · exact forward insideA insideB
  · intro related
    rcases Nat.lt_trichotomy (nodes.idxOf a) (nodes.idxOf b) with less | same | greater
    · exact less
    · have equal : a = b := (List.idxOf_inj first).1 same
      exact absurd (equal ▸ related) (asymm (equal ▸ related))
    · exact absurd (forward insideB insideA greater) (asymm related)

theorem Partition.nodup_of_mem {graph : Graph n} {component : List (Fin n)}
    (listed : component ∈ (Partition.ofGraph graph).components) : component.Nodup :=
  (Partition.ascending_of_mem listed).2.imp fun less => Fin.ne_of_lt less

theorem mem_backwardEdges {modes : Modes n} {graph : Graph n} {component : List (Fin n)}
    (unique : component.Nodup) {edge : Edge n} :
    edge ∈ backwardEdges modes graph component ↔ ∃ source ∈ component, edge ∈ graph.edgesFrom source ∧
      edge.target ∈ component ∧ Precedes modes edge.target source := by
  have member (node : Fin n) : node ∈ canonicalOrder modes component ↔ node ∈ component := List.mem_mergeSort
  simp only [backwardEdges, List.mem_flatMap, List.mem_filter, Bool.and_eq_true, List.contains_iff_mem,
    decide_eq_true_eq, member]
  have compare {source : Fin n} (inside : source ∈ component) (targetInside : edge.target ∈ component) :=
    idxOf_lt_idxOf_iff Precedes.asymm (pairwise_canonicalOrder modes unique) ((member _).2 targetInside)
      ((member source).2 inside)
  constructor
  · rintro ⟨source, inside, leaves, targetInside, less⟩
    exact ⟨source, inside, leaves, targetInside, (compare inside targetInside).1 less⟩
  · rintro ⟨source, inside, leaves, targetInside, precedes⟩
    exact ⟨source, inside, leaves, targetInside, (compare inside targetInside).2 precedes⟩

theorem mem_cyclic {partition : Partition n} {component : List (Fin n)} :
    component ∈ partition.cyclic ↔ component ∈ partition.components ∧ 1 < component.length := by
  simp only [Partition.cyclic, List.mem_filter, decide_eq_true_eq]

theorem one_lt_length {nodes : List (Fin n)} {a b : Fin n} (first : a ∈ nodes) (second : b ∈ nodes)
    (different : a ≠ b) : 1 < nodes.length := by
  cases nodes with
  | nil => cases first
  | cons head rest =>
    cases rest with
    | nil => exact absurd ((List.mem_singleton.1 first).trans (List.mem_singleton.1 second).symm) different
    | cons next tail => simp

/-- An edge is broken if it lies on a cycle and leads backward. -/
theorem mem_brokenEdges {modes : Modes n} {edge : Edge n} :
    edge ∈ brokenEdges modes (Graph.ofModes modes) (Partition.ofGraph (Graph.ofModes modes)) ↔
      edge ∈ (Graph.ofModes modes).edges ∧ (Graph.ofModes modes).Reaches edge.target edge.source ∧
        Precedes modes edge.target edge.source := by
  simp only [brokenEdges, List.mem_flatMap, mem_cyclic]
  constructor
  · rintro ⟨component, ⟨listed, -⟩, here⟩
    obtain ⟨source, inside, leaves, targetInside, precedes⟩ :=
      (mem_backwardEdges (Partition.nodup_of_mem listed)).1 here
    obtain rfl := (Graph.mem_edgesFrom_ofModes.1 leaves).1
    have both := (Partition.mem_component_iff listed inside).1 targetInside
    exact ⟨Graph.mem_edges.2 ⟨_, leaves⟩, both.2, precedes⟩
  · rintro ⟨member, back, precedes⟩
    have leaves := Graph.mem_edges_ofModes.1 member
    have leads : (Graph.ofModes modes).Leads edge.source edge.target := Graph.leads_iff.2 ⟨edge, leaves, rfl⟩
    -- Both ends lie in one component, and it is cyclic since no edge leads back to its own source.
    obtain ⟨component, here, inside⟩ := Partition.exists_component (Graph.ofModes modes) edge.source
    have listed := List.mem_of_getElem? here
    have targetInside : edge.target ∈ component :=
      (Partition.mem_component_iff listed inside).2 ⟨Relation.ReflTransGen.single leads, back⟩
    refine ⟨component, ⟨listed, one_lt_length targetInside inside (Graph.target_ne_source leaves)⟩, ?_⟩
    exact (mem_backwardEdges (Partition.nodup_of_mem listed)).2 ⟨_, inside, leaves, targetInside, precedes⟩

namespace BreakSet

variable {modes : Modes n}

theorem mem_select {graph : Graph n} {partition : Partition n} {key : EdgeKey} :
    key ∈ select modes graph partition ↔ ∃ edge ∈ brokenEdges modes graph partition, edge.key = key := by
  simp only [select, SortedSet.mem_ofList, List.mem_map]

/-- The break set of the plan. -/
abbrev ofModes (modes : Modes n) : BreakSet :=
  select modes (Graph.ofModes modes) (Partition.ofGraph (Graph.ofModes modes))

/-- What is kept of a component leads forward. -/
theorem precedes_of_depends {source target : Fin n}
    (depends : (Graph.ofModes modes).Depends (ofModes modes) source target)
    (back : (Graph.ofModes modes).Reaches target source) : Precedes modes source target := by
  obtain ⟨edge, leaves, kept, rfl⟩ := depends
  obtain rfl := (Graph.mem_edgesFrom_ofModes.1 leaves).1
  refine (Precedes.total modes (Graph.target_ne_source leaves)).resolve_left fun precedes => kept ?_
  exact mem_select.2 ⟨edge, mem_brokenEdges.2 ⟨Graph.mem_edges.2 ⟨_, leaves⟩, back, precedes⟩, rfl⟩

theorem precedes_of_transGen {source target : Fin n}
    (path : Relation.TransGen ((Graph.ofModes modes).Depends (ofModes modes)) source target)
    (back : (Graph.ofModes modes).Reaches target source) : Precedes modes source target := by
  induction path with
  | single depends => exact precedes_of_depends depends back
  | @tail middle last before depends ih =>
    -- Every mode along the way lies on the same cycle.
    have along : Relation.TransGen (Graph.ofModes modes).Leads source middle :=
      Relation.TransGen.mono (fun _ _ => Graph.Depends.leads) _ _ before
    have away : (Graph.ofModes modes).Reaches source middle := along.to_reflTransGen
    have first := ih (back.head depends.leads)
    exact first.trans (precedes_of_depends depends (back.trans away))

theorem acyclic_ofModes (modes : Modes n) : (Graph.ofModes modes).Acyclic (ofModes modes) :=
  fun node cycle => Precedes.irrefl modes node (precedes_of_transGen cycle Relation.ReflTransGen.refl)

end BreakSet

end HighlightGrammar
