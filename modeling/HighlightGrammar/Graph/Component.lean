import HighlightGrammar.Graph.Basic
import HighlightGrammar.Iteration

/-!
# Strongly connected components

A depth-first search with one stack: modes are numbered when they are discovered and stay on the stack
until the component to which they belong is complete.  The modes being visited are held as frames, each
with the successors not yet looked at, so the search is a loop over an explicit state.  Roots are taken in
the order of the modes and successors in the order of the edges; components are listed in the order in
which they are completed, their members in ascending order.
-/

namespace HighlightGrammar

variable {n : Nat}

/-- A mode being visited and the successors still to be looked at. -/
structure Frame (n : Nat) where
  node : Fin n
  pending : List (Fin n)
deriving DecidableEq, Repr

/-- The state of the search.  Stacks have their top first. -/
structure Search (n : Nat) where
  index : Vector (Option Nat) n
  low : Vector Nat n
  onStack : Vector Bool n
  stack : List (Fin n)
  frames : List (Frame n)
  next : Nat
  components : List (List (Fin n))
  componentOf : Vector Nat n

namespace Search

protected def empty : Search n where
  index := Vector.replicate n none
  low := Vector.replicate n 0
  onStack := Vector.replicate n false
  stack := []
  frames := []
  next := 0
  components := []
  componentOf := Vector.replicate n 0

/-- Discover a mode and begin to visit it. -/
def enter (graph : Graph n) (s : Search n) (node : Fin n) : Search n :=
  { s with
    index := s.index.set node (some s.next) node.isLt
    low := s.low.set node s.next node.isLt
    onStack := s.onStack.set node true node.isLt
    stack := node :: s.stack
    frames := ⟨node, graph.successors node⟩ :: s.frames
    next := s.next + 1 }

/-- Lower the number that a mode is known to reach back to. -/
def lower (s : Search n) (node : Fin n) (bound : Nat) : Search n :=
  { s with low := s.low.set node (min (s.low.get node) bound) node.isLt }

/-- Take everything down to a mode off the stack: its component. -/
def complete (s : Search n) (node : Fin n) : Search n :=
  let members := s.stack.takeWhile (· ≠ node) ++ [node]
  { s with
    onStack := members.foldl (fun flags (member : Fin n) => flags.set member false member.isLt) s.onStack
    stack := (s.stack.dropWhile (· ≠ node)).tail
    components := s.components ++ [members.mergeSort (· ≤ ·)]
    componentOf :=
      members.foldl (fun numbers (member : Fin n) => numbers.set member s.components.length member.isLt) s.componentOf }

/-- Look at a successor of the mode being visited. -/
def look (graph : Graph n) (s : Search n) (node successor : Fin n) : Search n :=
  match s.index.get successor with
  | none => s.enter graph successor
  | some found => if s.onStack.get successor then s.lower node found else s

/-- Tell the mode from which a mode was visited what the visit found. -/
def passOn (s : Search n) (node : Fin n) : Search n :=
  match s.frames with
  | [] => s
  | parent :: _ => s.lower parent.node (s.low.get node)

/-- Complete the component of a mode that reaches back to nothing before it. -/
def close (s : Search n) (node : Fin n) : Search n :=
  if s.index.get node = some (s.low.get node) then s.complete node else s

/-- End the visit of a mode. -/
def leave (s : Search n) (node : Fin n) : Search n := (s.passOn node).close node

/-- One step of the innermost visit, if there is one. -/
def step (graph : Graph n) (s : Search n) : Option (Search n) :=
  match s.frames with
  | [] => none
  | ⟨node, successor :: pending⟩ :: outer =>
    some (look graph { s with frames := ⟨node, pending⟩ :: outer } node successor)
  | ⟨node, []⟩ :: outer => some (leave { s with frames := outer } node)

/-- How many modes are undiscovered, and how much the open visits have still to do. -/
def work (s : Search n) : Nat × Nat :=
  (s.index.countP Option.isNone, s.frames.foldr (fun frame more => frame.pending.length + 1 + more) 0)

theorem countP_set_lt {values : Vector (Option Nat) n} {node : Fin n} {found : Nat}
    (undiscovered : values.get node = none) :
    (values.set node (some found) node.isLt).countP Option.isNone < values.countP Option.isNone := by
  have some_left : 0 < values.countP Option.isNone :=
    Vector.countP_pos_iff.2 ⟨values.get node, Vector.getElem_mem node.isLt, by simp [undiscovered]⟩
  rw [Vector.countP_set node.isLt]
  have here : values[node.val] = none := undiscovered
  simp only [here, Option.isNone_none, Option.isNone_some, if_true, Bool.false_eq_true, if_false]
  omega

theorem work_leave (s : Search n) (node : Fin n) : (s.leave node).work = s.work := by
  have passed : (s.passOn node).work = s.work := by
    unfold passOn
    split <;> rfl
  rw [← passed]
  unfold leave close
  split <;> rfl

theorem step_lowers (graph : Graph n) : Lowers (step graph) work := by
  intro s t taken
  unfold step at taken
  split at taken
  next => contradiction
  next node successor pending outer frames =>
    cases taken
    unfold look
    split
    next undiscovered => exact Prod.Lex.left _ _ (countP_set_lt undiscovered)
    next found discovered =>
      have less : (work { s with frames := ⟨node, pending⟩ :: outer }).2 < s.work.2 := by
        simp [work, frames]
      split
      · exact Prod.Lex.right _ less
      · exact Prod.Lex.right _ less
  next node outer frames =>
    cases taken
    have less : (work { s with frames := outer }).2 < s.work.2 := by
      simp [work, frames]
    rw [work_leave]
    exact Prod.Lex.right _ less

/-- Visit a mode and everything undiscovered that it leads to. -/
def visit (graph : Graph n) (s : Search n) (root : Fin n) : Search n :=
  match s.index.get root with
  | some _ => s
  | none => exhaust (step graph) work (step_lowers graph) (s.enter graph root)

end Search

/-- The components of a graph, and the number of the component of each mode. -/
structure Partition (n : Nat) where
  components : List (List (Fin n))
  componentOf : Vector Nat n
deriving DecidableEq, Repr

namespace Partition

def ofGraph (graph : Graph n) : Partition n :=
  let search := (List.finRange n).foldl (Search.visit graph) Search.empty
  ⟨search.components, search.componentOf⟩

/-- The components with more than one member: those with cycles. -/
def cyclic (partition : Partition n) : List (List (Fin n)) := partition.components.filter (1 < ·.length)

/-- Whether two numbers are those of modes of one component. -/
def same (partition : Partition n) (a b : Nat) : Bool :=
  match partition.componentOf[a]?, partition.componentOf[b]? with
  | some x, some y => x == y
  | _, _ => false

end Partition

end HighlightGrammar
