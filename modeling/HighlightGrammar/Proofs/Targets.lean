import HighlightGrammar.Graph.Plan
import HighlightGrammar.Proofs.Unfolding

/-!
# References and their targets

Whether a mode refers to itself by the marker or by its own position makes no difference: graph, plan, expansions
and declarations see of a reference only the other mode that it leads to, if there is one.
-/

namespace HighlightGrammar

variable {n : Nat}

/-- At each place there is a reference to the same mode. -/
def Modes.SameTargets (modes others : Modes n) : Prop :=
  ∀ (owner : Fin n) relation, ((modes.get owner).refs relation).map (·.target? owner) =
    ((others.get owner).refs relation).map (·.target? owner)

variable {modes others : Modes n}

/-! ## Plans -/

theorem Mode.edgesOf_eq (mode : Mode n) (owner : Fin n) (relation : Relation) :
    mode.edgesOf owner relation = ((mode.refs relation).map (·.target? owner)).zipIdx.filterMap fun entry =>
      entry.1.map fun target => ⟨owner, relation, entry.2, target⟩ := by
  rw [List.zipIdx_map, List.filterMap_map]
  rfl

theorem Graph.ofModes_congr (same : modes.SameTargets others) : ofModes modes = ofModes others := by
  have edges : ∀ owner, (modes.get owner).edges owner = (others.get owner).edges owner := by
    intro owner
    apply List.flatMap_congr
    intro relation _
    rw [Mode.edgesOf_eq, Mode.edgesOf_eq, same]
  exact congrArg mk (congrArg Vector.ofFn (funext edges))

theorem backwardEdges_congr
    (ranks : ∀ mode : Fin n,
      (modes.get mode).attributes.canonicalRank = (others.get mode).attributes.canonicalRank) :
    backwardEdges modes = backwardEdges others := by
  have before : canonicallyBefore modes = canonicallyBefore others := by
    funext a b
    simp only [canonicallyBefore, ranks]
  funext graph component
  rw [backwardEdges, backwardEdges, canonicalOrder, canonicalOrder, before]

theorem Plan.ofModes_congr (same : modes.SameTargets others)
    (ranks : ∀ mode : Fin n,
      (modes.get mode).attributes.canonicalRank = (others.get mode).attributes.canonicalRank) :
    ofModes modes = ofModes others := by
  simp only [ofModes, Graph.ofModes_congr same, BreakSet.select, brokenEdges, backwardEdges_congr ranks]

/-! ## Expansions -/

namespace Expansion

theorem full_eq_of_parts {mode : Fin n} {contains variants contains' variants' : List (Expansion n)}
    {starts starts' : Option (Expansion n)}
    (same : ∀ relation, (full mode contains variants starts).parts relation =
      (full mode contains' variants' starts').parts relation) :
    full mode contains variants starts = full mode contains' variants' starts' := by
  cases same .contains
  cases same .variants
  have last := same .starts
  cases starts <;> cases starts' <;> simp_all [parts]

/-- Trees of a mode are the same if what stands for a reference follows from the target. -/
theorem node_eq_of_targets (same : modes.SameTargets others) {owner : Fin n}
    {part other : Relation → Nat → Ref n → Expansion n}
    (agree : ∀ relation position ref counterpart, ref.target? owner = counterpart.target? owner →
      part relation position ref = other relation position counterpart) :
    node modes owner part = node others owner other := by
  apply full_eq_of_parts
  intro relation
  change (node modes owner part).parts relation = (node others owner other).parts relation
  rw [parts_node, parts_node]
  apply List.ext_getElem?
  intro position
  have here := congrArg (·[position]?) (same owner relation)
  simp only [List.getElem?_map] at here
  rw [List.getElem?_mapIdx, List.getElem?_mapIdx]
  cases first : ((modes.get owner).refs relation)[position]? with
  | none =>
    rw [first] at here
    rw [Option.map_eq_none_iff.1 here.symm]
    rfl
  | some ref =>
    rw [first] at here
    obtain ⟨counterpart, second, target⟩ := Option.map_eq_some_iff.1 here.symm
    rw [second, Option.map_some, Option.map_some, agree relation position ref counterpart target.symm]

theorem unfolded_congr (same : modes.SameTargets others) (opened : OpenModes) (mode : Fin n) :
    unfolded modes opened mode = unfolded others opened mode := by
  fun_induction unfolded modes opened mode with
  | case1 opened mode closed ih =>
    rw [unfolded, dif_pos closed]
    apply node_eq_of_targets same
    intro relation position ref counterpart target
    have leadsAlike : ref.resolve mode = counterpart.resolve mode := by rw [Ref.resolve, Ref.resolve, target]
    have marked : ref.IsMarker mode relation ↔ counterpart.IsMarker mode relation := by
      rw [Ref.IsMarker, Ref.IsMarker, target]
    exact if_congr marked rfl (by rw [ih, leadsAlike])
  | case2 opened mode again => rw [unfolded, dif_neg again]

theorem declaration_congr (same : modes.SameTargets others) (breaks : BreakSet) (mode : Fin n) :
    declaration modes breaks mode = declaration others breaks mode := by
  rw [declaration_eq_node, declaration_eq_node]
  apply node_eq_of_targets same
  intro relation position ref counterpart target
  have leadsAlike : ref.resolve mode = counterpart.resolve mode := by rw [Ref.resolve, Ref.resolve, target]
  have marked : ref.IsMarker mode relation ↔ counterpart.IsMarker mode relation := by
    rw [Ref.IsMarker, Ref.IsMarker, target]
  have named : ref.ByName breaks mode relation position ↔ counterpart.ByName breaks mode relation position := by
    rw [Ref.ByName, Ref.ByName, target]
  rw [declaredPart, declaredPart, leadsAlike, unfolded_congr same]
  exact if_congr marked rfl (if_congr named rfl rfl)

end Expansion

end HighlightGrammar
