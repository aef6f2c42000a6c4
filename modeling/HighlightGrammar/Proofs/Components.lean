import HighlightGrammar.Proofs.Completion

/-!
# The components of a graph

The search lists the classes of modes that reach one another, each once and in ascending order, and numbers
every mode with the place of its class.  A class is completed only after all those that it leads to, so an edge
that leaves its class ends in one with a smaller number.
-/

namespace HighlightGrammar

variable {n : Nat}

namespace Search

/-- The search from some roots in turn. -/
def after (graph : Graph n) (roots : List (Fin n)) : Search n := roots.foldl (visit graph) Search.empty

theorem after_resting (graph : Graph n) (roots : List (Fin n)) : (after graph roots).Resting graph (· ∈ roots) := by
  have start : (Search.empty : Search n).Resting graph fun _ => False :=
    ⟨⟨empty_sound graph, fun _ => False.elim⟩, rfl⟩
  have finished := foldl_visit_resting roots start
  exact ⟨⟨finished.sound, fun node listed => finished.found node (Or.inl listed)⟩, finished.frames⟩

theorem after_sorted (graph : Graph n) (roots : List (Fin n)) : (after graph roots).Sorted graph :=
  (after_resting graph roots).sound.sorted

theorem after_done (graph : Graph n) {roots : List (Fin n)} {node : Fin n} (listed : node ∈ roots) :
    (after graph roots).Done node := by
  have resting := after_resting graph roots
  have stack := stack_of_frames_nil resting.sound.disciplined resting.frames
  exact ⟨resting.found node listed, by simp [stack]⟩

end Search

namespace Partition

variable {graph : Graph n}

theorem ascending_of_mem {component : List (Fin n)} (listed : component ∈ (ofGraph graph).components) :
    component ≠ [] ∧ component.Pairwise (· < ·) :=
  (Search.after_sorted graph _).ascending component listed

/-- A component is the class of each of its members. -/
theorem mem_component_iff {component : List (Fin n)} (listed : component ∈ (ofGraph graph).components)
    {node other : Fin n} (member : node ∈ component) : other ∈ component ↔ graph.Mutual node other :=
  (Search.after_sorted graph _).exact component listed node member other

/-- Where a component stands is the number of its members. -/
theorem componentOf_eq {i : Nat} {component : List (Fin n)} (listed : (ofGraph graph).components[i]? = some component)
    {node : Fin n} (member : node ∈ component) : (ofGraph graph).componentOf.get node = i :=
  (Search.after_sorted graph _).placed i component listed node member

theorem exists_component (graph : Graph n) (node : Fin n) :
    ∃ component, (ofGraph graph).components[(ofGraph graph).componentOf.get node]? = some component ∧
      node ∈ component :=
  (Search.after_sorted graph _).exists_component (Search.after_done graph (List.mem_finRange node))

theorem componentOf_eq_iff (graph : Graph n) (a b : Fin n) :
    (ofGraph graph).componentOf.get a = (ofGraph graph).componentOf.get b ↔ graph.Mutual a b := by
  obtain ⟨component, here, member⟩ := exists_component graph a
  have listed := List.mem_of_getElem? here
  rw [← mem_component_iff listed member]
  constructor
  · intro same
    obtain ⟨other, there, memberOther⟩ := exists_component graph b
    rw [← same, here, Option.some.injEq] at there
    exact there ▸ memberOther
  · exact fun memberOther => (componentOf_eq here memberOther).symm

theorem same_eq_true (partition : Partition n) (a b : Fin n) :
    partition.same a b = true ↔ partition.componentOf.get a = partition.componentOf.get b := by
  rw [same, Vector.getElem?_eq_getElem a.isLt, Vector.getElem?_eq_getElem b.isLt]
  exact beq_iff_eq

/-- The components are the classes of modes that reach one another. -/
theorem ofGraph_exact (graph : Graph n) :
    (∀ component ∈ (ofGraph graph).components, component ≠ [] ∧ component.Pairwise (· < ·)) ∧
    (∀ node, ∃! i : Nat, ∃ component, (ofGraph graph).components[i]? = some component ∧ node ∈ component) ∧
    (∀ node : Fin n, ∃ component,
      (ofGraph graph).components[(ofGraph graph).componentOf.get node]? = some component ∧ node ∈ component) ∧
    ∀ a b : Fin n, (ofGraph graph).same a b = true ↔ graph.Reaches a b ∧ graph.Reaches b a := by
  refine ⟨fun _ => ascending_of_mem, fun node => ?_, exists_component graph, fun a b => ?_⟩
  · refine ⟨(ofGraph graph).componentOf.get node, exists_component graph node, ?_⟩
    rintro i ⟨component, listed, member⟩
    exact (componentOf_eq listed member).symm
  · rw [same_eq_true]
    exact componentOf_eq_iff graph a b

/-! ## The order of components -/

theorem componentOf_le_of_leads {source target : Fin n} (leads : graph.Leads source target) :
    (ofGraph graph).componentOf.get target ≤ (ofGraph graph).componentOf.get source :=
  ((Search.after_sorted graph _).closed source (Search.after_done graph (List.mem_finRange source)) target leads).2

/-- Modes that no component has in common are numbered differently. -/
theorem componentOf_ne_of_apart {a b : Fin n}
    (apart : ∀ component ∈ (ofGraph graph).components, a ∈ component → b ∉ component) :
    (ofGraph graph).componentOf.get b ≠ (ofGraph graph).componentOf.get a := by
  intro same
  obtain ⟨component, here, member⟩ := exists_component graph a
  obtain ⟨other, there, memberOther⟩ := exists_component graph b
  rw [same, here] at there
  cases there
  exact apart component (List.mem_of_getElem? here) member memberOther

/-- An edge between two components ends in the one that was completed first. -/
theorem componentOf_target_lt (graph : Graph n) {source : Fin n} {edge : Edge n}
    (leaves : edge ∈ graph.edgesFrom source)
    (apart : ∀ component ∈ (ofGraph graph).components, source ∈ component → edge.target ∉ component) :
    (ofGraph graph).componentOf.get edge.target < (ofGraph graph).componentOf.get source := by
  have leads : graph.Leads source edge.target := Graph.leads_iff.2 ⟨edge, leaves, rfl⟩
  exact Nat.lt_of_le_of_ne (componentOf_le_of_leads leads) (componentOf_ne_of_apart apart)

/-- Four modes in a circle, from two of which edges lead to a fifth one. -/
def circleWithExit : Graph 5 :=
  ⟨#v[[⟨0, .contains, 0, 1⟩, ⟨0, .starts, 0, 4⟩], [⟨1, .variants, 0, 4⟩, ⟨1, .variants, 1, 2⟩], [⟨2, .contains, 0, 3⟩],
    [⟨3, .contains, 0, 0⟩], []]⟩

theorem componentOf_target_lt_circleWithExit :
    (⟨0, .starts, 0, 4⟩ : Edge 5) ∈ circleWithExit.edgesFrom 0 ∧
    (∀ component ∈ (ofGraph circleWithExit).components, 0 ∈ component → 4 ∉ component) ∧
    (ofGraph circleWithExit).componentOf.get 4 < (ofGraph circleWithExit).componentOf.get 0 := by
  have leaves : (⟨0, .starts, 0, 4⟩ : Edge 5) ∈ circleWithExit.edgesFrom 0 := by decide
  have apart : ∀ component ∈ (ofGraph circleWithExit).components, 0 ∈ component → 4 ∉ component := by
    intro component listed member memberOther
    -- No edge leaves the fifth mode, so nothing leads from it back to the circle.
    obtain ⟨-, back⟩ := (mem_component_iff listed member).1 memberOther
    obtain same | ⟨next, leads, -⟩ := Relation.ReflTransGen.cases_head back
    · cases same
    · exact absurd leads (List.not_mem_nil (a := next))
  exact ⟨leaves, apart, componentOf_target_lt circleWithExit leaves apart⟩

end Partition

end HighlightGrammar
