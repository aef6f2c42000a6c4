import HighlightGrammar.Graph.Component

/-!
# Breaking cycles

Within a component the modes have a canonical order: modes for strings first, substitutions last, and the
order of the modes otherwise.  Edges of a component that lead backward in it are broken.  What remains leads
forward, so no cycle is left.
-/

namespace HighlightGrammar

variable {n : Nat}

/-- A set of references that are not to be made by name. -/
abbrev BreakSet : Type := SortedSet EdgeKey

/-- Modes for strings come before all others, and substitutions after them. -/
def Attributes.canonicalRank (a : Attributes) : Nat :=
  if a.scopeName = some "string" then 0
  else if a.scopeName = some "subst" then 2
  else 1

/-- The order on modes within a component. -/
def canonicallyBefore (modes : Modes n) (a b : Fin n) : Bool :=
  let rankA := (modes.get a).attributes.canonicalRank
  let rankB := (modes.get b).attributes.canonicalRank
  rankA < rankB || (rankA == rankB && a ≤ b)

def canonicalOrder (modes : Modes n) (component : List (Fin n)) : List (Fin n) :=
  component.mergeSort (canonicallyBefore modes)

/-- The edges of a component that lead backward, by source. -/
def backwardEdges (modes : Modes n) (graph : Graph n) (component : List (Fin n)) : List (Edge n) :=
  let order := canonicalOrder modes component
  component.flatMap fun source =>
    (graph.edgesFrom source).filter fun edge =>
      order.contains edge.target && order.idxOf edge.target < order.idxOf source

/-- The edges to break, component by component. -/
def brokenEdges (modes : Modes n) (graph : Graph n) (partition : Partition n) : List (Edge n) :=
  partition.cyclic.flatMap (backwardEdges modes graph)

namespace BreakSet

def select (modes : Modes n) (graph : Graph n) (partition : Partition n) : BreakSet :=
  SortedSet.ofList ((brokenEdges modes graph partition).map Edge.key)

end BreakSet

end HighlightGrammar
