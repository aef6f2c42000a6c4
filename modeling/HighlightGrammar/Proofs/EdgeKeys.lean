import HighlightGrammar.Proofs.Reachability
import Mathlib.Data.List.OfFn

/-!
# Keys of edges

The edges of a grammar are listed by mode, for each mode by kind, and for each kind by place.  So their keys go up
along the list, and each edge can be found by its key: `Mode.refAt?` gives the reference that a key stands for.
References of a mode to itself leave a gap among the places and move none of the others.
-/

namespace HighlightGrammar

open Std

variable {n : Nat}

namespace EdgeKey

variable {a b : EdgeKey}

theorem compare_eq_lt : compare a b = .lt ↔ a.source < b.source ∨ a.source = b.source ∧
    (a.relation.rank < b.relation.rank ∨ a.relation.rank = b.relation.rank ∧ a.position < b.position) := by
  change order a b = .lt ↔ _
  simp only [order, compareLex, compareOn, Ordering.then_eq_lt, Nat.compare_eq_lt, Nat.compare_eq_eq]

theorem ne_of_compare_eq_lt (less : compare a b = .lt) : a ≠ b := by
  rintro rfl
  simp at less

end EdgeKey

/-! ## References and their places -/

namespace Mode

/-- The reference of a mode at a place.  The mode that starts where it ends has the place 0. -/
def refAt? (mode : Mode n) : Relation → Nat → Option (Ref n)
  | .contains, position => mode.contains[position]?
  | .variants, position => mode.variants[position]?
  | .starts, position => if position = 0 then mode.starts else none

theorem getElem?_refs (mode : Mode n) (relation : Relation) (position : Nat) :
    (mode.refs relation)[position]? = mode.refAt? relation position := by
  cases relation with
  | contains => rfl
  | variants => rfl
  | starts =>
    rw [refs, refAt?]
    cases mode.starts with
    | none => simp
    | some ref => cases position <;> rfl

end Mode

theorem Ref.target?_eq_some_iff {owner target : Fin n} {ref : Ref n} :
    ref.target? owner = some target ↔ ref.resolve owner = target ∧ target ≠ owner := by
  constructor
  · intro found
    exact ⟨Ref.resolve_of_target? found, Ref.target?_ne found⟩
  · rintro ⟨rfl, other⟩
    rw [Ref.resolve] at other ⊢
    cases found : ref.target? owner with
    | none => simp [found] at other
    | some target => rfl

/-! ## The order of the edges -/

theorem Mode.pairwise_edgesOf (mode : Mode n) (owner : Fin n) (relation : Relation) :
    (mode.edgesOf owner relation).Pairwise fun a b => compare a.key b.key = .lt := by
  have places : (mode.refs relation).zipIdx.Pairwise fun a b => a.2 < b.2 := by
    rw [← List.pairwise_map, List.zipIdx_map_snd]
    exact List.pairwise_lt_range'
  rw [edgesOf, List.pairwise_filterMap]
  refine places.imp fun {first second} less edge found other foundOther => ?_
  obtain ⟨_, -, rfl⟩ := Option.map_eq_some_iff.1 found
  obtain ⟨_, -, rfl⟩ := Option.map_eq_some_iff.1 foundOther
  exact EdgeKey.compare_eq_lt.2 (.inr ⟨rfl, .inr ⟨rfl, less⟩⟩)

theorem Mode.pairwise_edges (mode : Mode n) (owner : Fin n) :
    (mode.edges owner).Pairwise fun a b => compare a.key b.key = .lt := by
  have kinds : Relation.all.Pairwise fun a b => a.rank < b.rank := by decide
  rw [edges, List.pairwise_flatMap]
  refine ⟨fun relation _ => mode.pairwise_edgesOf owner relation, ?_⟩
  -- Edges of two kinds have one source, so the kinds decide, whatever the places.
  refine kinds.imp fun {first second} less edge here other there => ?_
  obtain ⟨source, relation, -⟩ := mem_edgesOf.1 here
  obtain ⟨otherSource, otherRelation, -⟩ := mem_edgesOf.1 there
  have same : edge.source = other.source := source.trans otherSource.symm
  have earlier : edge.relation.rank < other.relation.rank := by rwa [relation, otherRelation]
  exact EdgeKey.compare_eq_lt.2 (.inr ⟨congrArg Fin.val same, .inl earlier⟩)

section Outgoing

variable {extra : Nat} (modes : Vector (Mode (n + extra)) n)

theorem toList_outgoingEdges : (outgoingEdges extra modes).toList =
    List.ofFn fun owner => (modes.get owner).edges (owner.castAdd extra) :=
  Vector.toList_ofFn

theorem pairwise_outgoingEdges :
    (outgoingEdges extra modes).toList.flatten.Pairwise fun a b => compare a.key b.key = .lt := by
  rw [toList_outgoingEdges, List.pairwise_flatten, List.pairwise_ofFn, List.forall_mem_ofFn_iff]
  refine ⟨fun owner => (modes.get owner).pairwise_edges _, fun first second less edge here other there => ?_⟩
  -- The edges in one list leave one mode, so between two lists the sources decide.
  obtain ⟨source, -⟩ := Mode.mem_edges.1 here
  obtain ⟨otherSource, -⟩ := Mode.mem_edges.1 there
  refine EdgeKey.compare_eq_lt.2 (.inl ?_)
  rw [Edge.key, Edge.key, source, otherSource]
  exact less

theorem mem_outgoingEdges {edge : Edge (n + extra)} : edge ∈ (outgoingEdges extra modes).toList.flatten ↔
    ∃ owner : Fin n, edge ∈ (modes.get owner).edges (owner.castAdd extra) := by
  rw [toList_outgoingEdges, List.mem_flatten]
  simp [List.mem_ofFn]

end Outgoing

/-- What identifies the edges of `n` modes: the keys go up along the list, so each belongs to one edge, and the edge
with a key is the reference that it stands for, unless that leads back to its own mode. -/
structure Keyed (extra : Nat) (modes : Vector (Mode (n + extra)) n) (edges : List (Edge (n + extra))) : Prop where
  increasing : (edges.map Edge.key).Pairwise fun a b => compare a b = .lt
  distinct : (edges.map Edge.key).Nodup
  leaves : ∀ edge ∈ edges, edge.source.val < n
  mem_iff : ∀ (source : Fin n) (relation : Relation) (position : Nat) (target : Fin (n + extra)),
    ⟨source.castAdd extra, relation, position, target⟩ ∈ edges ↔
      ∃ ref, (modes.get source).refAt? relation position = some ref ∧ ref.resolve (source.castAdd extra) = target ∧
        target ≠ source.castAdd extra

theorem keyed_outgoingEdges (extra : Nat) (modes : Vector (Mode (n + extra)) n) :
    Keyed extra modes (outgoingEdges extra modes).toList.flatten := by
  have increasing : ((outgoingEdges extra modes).toList.flatten.map Edge.key).Pairwise fun a b => compare a b = .lt :=
    List.pairwise_map.2 (pairwise_outgoingEdges modes)
  refine ⟨increasing, increasing.imp EdgeKey.ne_of_compare_eq_lt, fun edge member => ?_,
    fun source relation position target => ?_⟩
  · obtain ⟨owner, here⟩ := (mem_outgoingEdges modes).1 member
    rw [(Mode.mem_edges.1 here).1]
    exact owner.isLt
  · simp only [mem_outgoingEdges, Mode.mem_edges, Mode.getElem?_refs, Ref.target?_eq_some_iff]
    constructor
    · rintro ⟨owner, same, found⟩
      rwa [Fin.castAdd_injective n extra same]
    · exact fun found => ⟨source, rfl, found⟩

/-- Keys identify references, in a grammar and also where modes refer past the last one of them. -/
theorem Graph.edges_keyed :
    (∀ (n extra : Nat) (modes : Vector (Mode (n + extra)) n),
      Keyed extra modes (outgoingEdges extra modes).toList.flatten) ∧
    ∀ (n : Nat) (modes : Modes n), Keyed 0 modes (ofModes modes).edges :=
  ⟨fun _ extra modes => keyed_outgoingEdges extra modes, fun _ modes => keyed_outgoingEdges 0 modes⟩

end HighlightGrammar
