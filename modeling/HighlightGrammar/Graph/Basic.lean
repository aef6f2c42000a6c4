import HighlightGrammar.Grammar.Basic

/-!
# The graph of references

Every structural reference to another mode is an edge.  Its key says whose reference it is, of which
kind, and at which place of the list; references of a mode to itself are no edges.
-/

namespace HighlightGrammar

open Std

/-- Which reference of which mode. -/
structure EdgeKey where
  source : Nat
  relation : Relation
  position : Nat
deriving DecidableEq, Repr

namespace EdgeKey

/-- By source, then by kind, then by place. -/
def order : EdgeKey → EdgeKey → Ordering :=
  compareLex (compareOn (·.source)) (compareLex (compareOn (·.relation.rank)) (compareOn (·.position)))

instance : Ord EdgeKey := ⟨order⟩

instance : TransOrd EdgeKey :=
  inferInstanceAs (TransCmp (compareLex (compareOn EdgeKey.source)
    (compareLex (compareOn fun key => key.relation.rank) (compareOn EdgeKey.position))))

instance : LawfulEqOrd EdgeKey where
  eq_of_compare {a b} same := by
    have parts : a.source = b.source ∧ a.relation.rank = b.relation.rank ∧ a.position = b.position := by
      have ordered : order a b = .eq := same
      simpa only [order, compareLex, compareOn, Ordering.then_eq_eq, Nat.compare_eq_eq] using ordered
    obtain ⟨source, relation, position⟩ := parts
    cases a
    cases b
    cases source
    cases Relation.rank_injective relation
    cases position
    rfl

end EdgeKey

variable {n : Nat}

structure Edge (n : Nat) where
  source : Fin n
  relation : Relation
  position : Nat
  target : Fin n
deriving DecidableEq, Repr

namespace Edge

def key (edge : Edge n) : EdgeKey := ⟨edge.source, edge.relation, edge.position⟩

end Edge

/-- The edges of one kind that leave a mode. -/
def Mode.edgesOf (mode : Mode n) (owner : Fin n) (relation : Relation) : List (Edge n) :=
  (mode.refs relation).zipIdx.filterMap fun entry =>
    (entry.1.target? owner).map fun target => ⟨owner, relation, entry.2, target⟩

/-- The edges that leave a mode, kind by kind. -/
def Mode.edges (mode : Mode n) (owner : Fin n) : List (Edge n) := Relation.all.flatMap (mode.edgesOf owner)

/-- The edges that leave each of `n` modes.  A reference may lead to a place after the last of them. -/
def outgoingEdges (extra : Nat) (modes : Vector (Mode (n + extra)) n) : Vector (List (Edge (n + extra))) n :=
  Vector.ofFn fun owner => (modes.get owner).edges (owner.castAdd extra)

/-- The edges that leave each mode. -/
structure Graph (n : Nat) where
  outgoing : Vector (List (Edge n)) n
deriving DecidableEq, Repr

namespace Graph

/-- The references in a grammar lead to its modes, and to no other places. -/
def ofModes (modes : Modes n) : Graph n := ⟨outgoingEdges 0 modes⟩

/-- The edges that leave a mode. -/
def edgesFrom (graph : Graph n) (node : Fin n) : List (Edge n) := graph.outgoing.get node

/-- The modes that a mode leads to, one for each edge. -/
def successors (graph : Graph n) (node : Fin n) : List (Fin n) := (graph.edgesFrom node).map (·.target)

def edges (graph : Graph n) : List (Edge n) := graph.outgoing.toList.flatten

end Graph

end HighlightGrammar
