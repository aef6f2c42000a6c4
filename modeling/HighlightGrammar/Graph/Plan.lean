import HighlightGrammar.Graph.Schedule

/-!
# Plans

What is found out about the references of a grammar before anything is written: the graph, its
components, the references to break, and the order of the declarations.
-/

namespace HighlightGrammar

variable {n : Nat}

structure Plan (n : Nat) where
  graph : Graph n
  partition : Partition n
  breaks : BreakSet
  schedule : Schedule n

namespace Plan

def ofModes (modes : Modes n) : Plan n :=
  let graph := Graph.ofModes modes
  let partition := Partition.ofGraph graph
  let breaks := BreakSet.select modes graph partition
  ⟨graph, partition, breaks, Schedule.ofGraph graph breaks⟩

/-- The plan with other references broken, and the order that follows from them. -/
def withBreaks (plan : Plan n) (breaks : BreakSet) : Plan n :=
  { plan with breaks, schedule := Schedule.ofGraph plan.graph breaks }

end Plan

end HighlightGrammar
