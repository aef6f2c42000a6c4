import HighlightGrammar.Proofs.Cycles

/-!
# What a schedule leaves out

Whatever references are broken, the scheduler is right or says that it is not.  It cannot declare the modes from
which a cycle of references by name can be reached, and it declares all others.  If there are such modes they are
reported, and the modes keep their order; if there are none, every reference by name leads back to a mode that is
declared already.
-/

namespace HighlightGrammar

variable {n : Nat}

namespace Graph

/-- Edges that are not broken lead from a mode to a cycle of edges that are not broken. -/
def Trapped (graph : Graph n) (breaks : BreakSet) (mode : Fin n) : Prop :=
  ∃ path cycle turn, graph.Walk mode path turn ∧ graph.Walk turn cycle turn ∧ cycle ≠ [] ∧
    breaks.Spares (path ++ cycle)

variable {modes : Modes n} {breaks : BreakSet}

theorem exists_spared_cycle {turn : Fin n} (returns : Relation.TransGen ((ofModes modes).Depends breaks) turn turn) :
    ∃ edges, (ofModes modes).Walk turn edges turn ∧ edges ≠ [] ∧ breaks.Spares edges := by
  obtain ⟨next, depends, back⟩ := Relation.TransGen.head'_iff.1 returns
  obtain ⟨rest, after, sparesRest⟩ := exists_spared_walk back
  obtain ⟨edge, walk, spares⟩ := exists_spared_cons depends after sparesRest
  exact ⟨edge :: rest, walk, List.cons_ne_nil edge rest, spares⟩

theorem trapped_iff {mode : Fin n} : (ofModes modes).Trapped breaks mode ↔
    ∃ turn, Relation.ReflTransGen ((ofModes modes).Depends breaks) mode turn ∧
      Relation.TransGen ((ofModes modes).Depends breaks) turn turn := by
  constructor
  · intro ⟨path, cycle, turn, toTurn, around, proper, spares⟩
    obtain ⟨sparesPath, sparesCycle⟩ := List.forall_mem_append.1 spares
    exact ⟨turn, toTurn.depends sparesPath, around.depends_of_ne_nil proper sparesCycle⟩
  · intro ⟨turn, reaches, returns⟩
    obtain ⟨path, toTurn, sparesPath⟩ := exists_spared_walk reaches
    obtain ⟨cycle, around, proper, sparesCycle⟩ := exists_spared_cycle returns
    exact ⟨path, cycle, turn, toTurn, around, proper, List.forall_mem_append.2 ⟨sparesPath, sparesCycle⟩⟩

/-- Some mode is trapped exactly where some cycle is not broken. -/
theorem exists_trapped_iff : (∃ mode, (ofModes modes).Trapped breaks mode) ↔
    ∃ cycle, (ofModes modes).IsCycle cycle ∧ breaks.Spares cycle := by
  constructor
  · intro ⟨mode, path, cycle, turn, toTurn, around, proper, spares⟩
    exact ⟨cycle, ⟨proper, turn, around⟩, (List.forall_mem_append.1 spares).2⟩
  · intro ⟨cycle, ⟨proper, turn, around⟩, spares⟩
    exact ⟨turn, [], cycle, turn, .nil turn, around, proper, spares⟩

end Graph

/-! ## No trapped mode is declared -/

namespace Queue.Sound

variable {graph : Graph n} {breaks : BreakSet} {q : Queue n} {node later : Fin n}

theorem mem_of_reaches (sound : q.Sound graph breaks) (member : node ∈ q.order)
    (reaches : Relation.ReflTransGen (graph.Depends breaks) node later) : later ∈ q.order := by
  induction reaches with
  | refl => exact member
  | tail _ depends ih => exact sound.mem_of_depends ih depends

theorem idxOf_lt_of_transGen (sound : q.Sound graph breaks) (member : node ∈ q.order)
    (leads : Relation.TransGen (graph.Depends breaks) node later) : q.order.idxOf later < q.order.idxOf node := by
  induction leads with
  | single depends => exact sound.earlier node member _ depends
  | tail before depends ih =>
    have inside := sound.mem_of_reaches member before.to_reflTransGen
    exact Nat.lt_trans (sound.earlier _ inside _ depends) ih

/-- A declared mode stands after all that it leads to, so it leads to no mode that leads back to itself. -/
theorem no_cycle (sound : q.Sound graph breaks) (member : node ∈ q.order)
    (reaches : Relation.ReflTransGen (graph.Depends breaks) node later) :
    ¬ Relation.TransGen (graph.Depends breaks) later later := fun returns =>
  Nat.lt_irrefl _ (sound.idxOf_lt_of_transGen (sound.mem_of_reaches member reaches) returns)

end Queue.Sound

namespace Schedule

variable {modes : Modes n} {breaks : BreakSet}

theorem not_mem_declareAll_iff {mode : Fin n} :
    mode ∉ (declareAll (Graph.ofModes modes) breaks).order ↔ (Graph.ofModes modes).Trapped breaks mode := by
  rw [Graph.trapped_iff]
  constructor
  · exact exists_cycle_of_not_mem
  · intro ⟨turn, reaches, returns⟩ member
    exact (declareAll_sound (Graph.ofModes modes) breaks).no_cycle member reaches returns

/-- Also where nothing is left out the residual is what was not declared. -/
theorem residual_eq_filter (graph : Graph n) (breaks : BreakSet) : (ofGraph graph breaks).residual =
    (List.finRange n).filter (!(declareAll graph breaks).order.contains ·) := by
  by_cases complete : (declareAll graph breaks).order.length = n
  · rw [ofGraph_of_complete complete, eq_comm, List.filter_eq_nil_iff]
    intro node _
    simp [length_declareAll_iff.1 complete node]
  · rw [ofGraph_of_incomplete complete]

theorem mem_residual_iff {mode : Fin n} : mode ∈ (ofGraph (Graph.ofModes modes) breaks).residual ↔
    (Graph.ofModes modes).Trapped breaks mode := by
  rw [residual_eq_filter, List.mem_filter, ← not_mem_declareAll_iff]
  simp

theorem residual_eq_nil_iff_forall : (ofGraph (Graph.ofModes modes) breaks).residual = [] ↔
    ∀ cycle, (Graph.ofModes modes).IsCycle cycle → ¬ breaks.Spares cycle := by
  have none_trapped : (ofGraph (Graph.ofModes modes) breaks).residual = [] ↔
      ¬ ∃ mode, (Graph.ofModes modes).Trapped breaks mode := by
    simp only [List.eq_nil_iff_forall_not_mem, mem_residual_iff, not_exists]
  rw [none_trapped, Graph.exists_trapped_iff]
  simp only [not_exists, not_and]

theorem order_of_residual_ne_nil {graph : Graph n} (left_out : (ofGraph graph breaks).residual ≠ []) :
    (ofGraph graph breaks).order = List.finRange n := by
  rw [ofGraph_of_incomplete fun complete => left_out ((residual_eq_nil_iff graph breaks).2 complete)]

/-- For every break set: each mode stands in the order once; reported are, in order, the modes from which a cycle of
references by name can be reached; without such a cycle all references by name lead back, with one the modes keep
their order. -/
theorem ofGraph_correct_or_fallback (modes : Modes n) (breaks : BreakSet) :
    (ofGraph (Graph.ofModes modes) breaks).order.Perm (List.finRange n) ∧
    (ofGraph (Graph.ofModes modes) breaks).residual.Pairwise (· < ·) ∧
    (∀ mode, mode ∈ (ofGraph (Graph.ofModes modes) breaks).residual ↔ (Graph.ofModes modes).Trapped breaks mode) ∧
    ((ofGraph (Graph.ofModes modes) breaks).residual = [] ↔
      ∀ cycle, (Graph.ofModes modes).IsCycle cycle → ¬ breaks.Spares cycle) ∧
    ((ofGraph (Graph.ofModes modes) breaks).residual = [] →
      ∀ edge ∈ (Graph.ofModes modes).edges, edge.key ∉ breaks →
        (ofGraph (Graph.ofModes modes) breaks).order.idxOf edge.target <
          (ofGraph (Graph.ofModes modes) breaks).order.idxOf edge.source) ∧
    ((ofGraph (Graph.ofModes modes) breaks).residual ≠ [] →
      (ofGraph (Graph.ofModes modes) breaks).order = List.finRange n) := by
  refine ⟨order_perm _ breaks, ?_, fun _ => mem_residual_iff, residual_eq_nil_iff_forall, ?_,
    order_of_residual_ne_nil⟩
  · rw [residual_eq_filter]
    exact (List.pairwise_lt_finRange n).filter _
  · intro complete edge member kept
    exact idxOf_lt_of_depends complete ⟨edge, Graph.mem_edges_ofModes.1 member, kept, rfl⟩

end Schedule

end HighlightGrammar
