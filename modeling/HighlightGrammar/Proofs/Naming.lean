import HighlightGrammar.Proofs.Calls
import HighlightGrammar.Proofs.Plan

/-!
# Names in declarations

A declaration names modes that stand before it in the order, and no other: the identifiers of the mode itself and
of all later ones do not occur in its text.  Where a reference is not broken, the text has the name of the mode that
it leads to.  What is written in place names no mode at all.
-/

namespace HighlightGrammar

open Swift (Expr)

variable {n : Nat}

/-! ## Other identifiers for the same modes -/

/-- The same modes under other identifiers. -/
def Modes.rename (modes : Modes n) (ids : Fin n → String) : Modes n :=
  Vector.ofFn fun mode => { modes.get mode with id := ids mode }

namespace Modes

theorem getElem_rename (modes : Modes n) (ids : Fin n → String) (mode : Fin n) :
    (modes.rename ids).get mode = { modes.get mode with id := ids mode } := by
  simp [rename]

theorem attributes_rename (modes : Modes n) (ids : Fin n → String) (mode : Fin n) :
    ((modes.rename ids).get mode).attributes = (modes.get mode).attributes := by
  rw [getElem_rename]

end Modes

namespace Expansion

theorem node_rename (modes : Modes n) (ids : Fin n → String) (owner : Fin n)
    (part : Relation → Nat → Ref n → Expansion n) :
    node (modes.rename ids) owner part = node modes owner part := by
  rw [node, node, Modes.getElem_rename]

theorem unfolded_rename (modes : Modes n) (ids : Fin n → String) (opened : OpenModes) (mode : Fin n) :
    unfolded (modes.rename ids) opened mode = unfolded modes opened mode := by
  fun_induction unfolded modes opened mode with
  | case1 opened mode closed ih =>
    rw [unfolded, dif_pos closed, node_rename]
    apply node_congr
    intro relation position ref _
    rw [ih ref]
  | case2 opened mode again => rw [unfolded, dif_neg again]

theorem declaration_rename (modes : Modes n) (ids : Fin n → String) (breaks : BreakSet) (mode : Fin n) :
    declaration (modes.rename ids) breaks mode = declaration modes breaks mode := by
  rw [declaration_eq_node, declaration_eq_node, node_rename]
  apply node_congr
  intro relation position ref _
  rw [declaredPart, declaredPart, unfolded_rename]

theorem expr_rename {modes : Modes n} {ids : Fin n → String} (e : Expansion n)
    (same : ∀ mode ∈ e.names, ids mode = (modes.get mode).id) : e.expr (modes.rename ids) = e.expr modes := by
  apply expr_congr (modes.attributes_rename ids) e
  intro mode named
  rw [Modes.getElem_rename, same mode named]

/-! ## The names in a declaration -/

theorem depends_of_mem_names {modes : Modes n} {breaks : BreakSet} {mode target : Fin n}
    (named : target ∈ (declaration modes breaks mode).names) : (Graph.ofModes modes).Depends breaks mode target := by
  rw [declaration_eq_node] at named
  obtain ⟨relation, position, ref, here, inside⟩ := mem_names_node.1 named
  -- Of the three ways to write a reference only one gives a name.
  rw [declaredPart] at inside
  split at inside
  next => simp [names] at inside
  next =>
    split at inside
    next byName =>
      simp only [names, List.mem_singleton] at inside
      rw [inside]
      exact byName.depends here
    next => simp [names_unfolded] at inside

/-- A reference that is not broken is written by the name of the mode that it leads to. -/
theorem expr_declaredPart_of_target? (modes : Modes n) {breaks : BreakSet} {mode target : Fin n} {relation : Relation}
    {position : Nat} {ref : Ref n} (found : ref.target? mode = some target)
    (kept : (⟨mode, relation, position⟩ : EdgeKey) ∉ breaks) :
    ¬ ref.IsMarker mode relation ∧
      (declaredPart modes breaks mode relation position ref).expr modes = .atom (modes.get target).declaredName := by
  have unmarked : ¬ ref.IsMarker mode relation := fun marker => by cases found.symm.trans marker.2
  refine ⟨unmarked, ?_⟩
  rw [declaredPart, if_neg unmarked, if_pos (Ref.ByName.of_target? found kept), expr, Ref.resolve_of_target? found]

end Expansion

namespace Swift

/-- The declaration of a mode names modes of a list only, and does so at each reference that is not broken. -/
structure RefersBack (modes : Modes n) (breaks : BreakSet) (earlier : List (Fin n)) (mode : Fin n) : Prop where
  unchanged : ∀ ids : Fin n → String, (∀ other ∈ earlier, ids other = (modes.get other).id) →
    declarationText (modes.rename ids) breaks mode = declarationText modes breaks mode
  named : ∃ items : Relation → List Expr,
    (Expansion.declaration modes breaks mode).expr modes = (modes.get mode).attributes.normal.call items ∧
    (modes.get mode).attributes.normal.Renders items (declarationText modes breaks mode) ∧
    ∀ relation, (items relation).length = ((modes.get mode).refs relation).length ∧
      ∀ position ref target, ((modes.get mode).refs relation)[position]? = some ref → ref.target? mode = some target →
        (⟨mode, relation, position⟩ : EdgeKey) ∉ breaks →
        target ∈ earlier ∧
          ((items relation).map Expr.render)[position]? = some (relation.itemText (modes.get target).declaredName)

theorem refersBack {modes : Modes n} {breaks : BreakSet} {earlier : List (Fin n)} {mode : Fin n}
    (before : ∀ target, (Graph.ofModes modes).Depends breaks mode target → target ∈ earlier) :
    RefersBack modes breaks earlier mode where
  unchanged ids same := by
    rw [declarationText, declarationText, Expansion.declaration_rename, Expansion.expr_rename]
    exact fun target named => same target (before target (Expansion.depends_of_mem_names named))
  named := by
    refine ⟨_, Expansion.expr_declaration modes breaks mode, ?_, fun relation => ⟨?_, ?_⟩⟩
    · rw [declarationText, Expansion.expr_declaration]
      exact NormalForm.renders_call _ _
    · rw [Mode.items, List.length_mapIdx]
    · intro position ref target here found kept
      constructor
      · have depends := (Ref.ByName.of_target? found kept).depends here
        rw [Ref.resolve_of_target? found] at depends
        exact before target depends
      · obtain ⟨unmarked, written⟩ := Expansion.expr_declaredPart_of_target? modes found kept
        rw [List.getElem?_map, Mode.items, List.getElem?_mapIdx, here, Option.map_some, Option.map_some,
          if_neg unmarked, written, Relation.render_item, Expr.render]

end Swift

theorem Schedule.mem_take_of_depends {graph : Graph n} {breaks : BreakSet} {i : Nat} {mode target : Fin n}
    (empty : (ofGraph graph breaks).residual = []) (here : (ofGraph graph breaks).order[i]? = some mode)
    (depends : graph.Depends breaks mode target) : target ∈ (ofGraph graph breaks).order.take i := by
  obtain ⟨inside, rfl⟩ := List.getElem?_eq_some_iff.1 here
  rw [List.mem_take_iff_idxOf_lt (mem_order graph breaks target)]
  have less := idxOf_lt_of_depends empty depends
  rwa [(nodup_order graph breaks).idxOf_getElem i inside] at less

/-- There are no forward references, whichever references are broken, as long as an order was found. -/
theorem Schedule.declarations_refer_back (modes : Modes n) :
    (∀ breaks, (ofGraph (Graph.ofModes modes) breaks).residual = [] →
      ∀ i mode, (ofGraph (Graph.ofModes modes) breaks).order[i]? = some mode →
        Swift.RefersBack modes breaks ((ofGraph (Graph.ofModes modes) breaks).order.take i) mode) ∧
    (∀ i mode, (Plan.ofModes modes).schedule.order[i]? = some mode →
      Swift.RefersBack modes (Plan.ofModes modes).breaks ((Plan.ofModes modes).schedule.order.take i) mode) ∧
    ∀ (ids : Fin n → String) (mode : Fin n) (opened : OpenModes),
      ((Expansion.inPlace (modes.rename ids) mode opened).value.expr (modes.rename ids)).render =
        ((Expansion.inPlace modes mode opened).value.expr modes).render := by
  refine ⟨fun breaks empty i mode here => ?_, fun i mode here => ?_, fun ids mode opened => ?_⟩
  · exact Swift.refersBack fun target depends => mem_take_of_depends empty here depends
  · exact Swift.refersBack fun target depends => mem_take_of_depends (Plan.residual_ofModes modes) here depends
  · rw [(Expansion.inPlace_gives _ mode opened).1, (Expansion.inPlace_gives modes mode opened).1,
      Expansion.unfolded_rename, Expansion.expr_rename]
    simp [Expansion.names_unfolded]

end HighlightGrammar
