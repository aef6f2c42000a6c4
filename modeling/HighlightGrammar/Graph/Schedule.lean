import HighlightGrammar.Graph.BreakSet

/-!
# The order of declarations

A mode can be declared once every mode that it refers to by name has been.  Of the modes that can be
declared next the first one is.  Where a cycle of unbroken references makes that impossible, the order of
the modes is kept, and the modes that could not be declared are reported.
-/

namespace HighlightGrammar

variable {n : Nat}

structure Schedule (n : Nat) where
  order : List (Fin n)
  residual : List (Fin n)
deriving DecidableEq, Repr

namespace Schedule

def isFallback (schedule : Schedule n) : Bool := !schedule.residual.isEmpty

end Schedule

namespace Graph

/-- The modes to which a mode refers by name, each once. -/
def dependencies (graph : Graph n) (breaks : BreakSet) (node : Fin n) : List (Fin n) :=
  (((graph.edgesFrom node).filter (·.key ∉ breaks)).map (·.target)).eraseDups

/-- The modes that refer to a mode by name. -/
def dependents (graph : Graph n) (breaks : BreakSet) (node : Fin n) : List (Fin n) :=
  (List.finRange n).filter fun source => (graph.dependencies breaks source).contains node

end Graph

/-- How many dependencies of each mode are not declared yet, which modes are ready, and which have been
declared. -/
structure Queue (n : Nat) where
  pending : Vector Nat n
  ready : SortedSet (Fin n)
  order : List (Fin n)

namespace Queue

/-- Nothing is declared; modes without dependencies are ready. -/
def start (graph : Graph n) (breaks : BreakSet) : Queue n where
  pending := Vector.ofFn fun node => (graph.dependencies breaks node).length
  ready :=
    SortedSet.ofList ((List.finRange n).filter fun node => (graph.dependencies breaks node).isEmpty)
  order := []

/-- One dependency of a mode has been declared. -/
def release (q : Queue n) (node : Fin n) : Queue n :=
  match q.pending.get node with
  | 0 => q
  | 1 => { q with pending := q.pending.set node 0 node.isLt, ready := q.ready.insert node }
  | left + 2 => { q with pending := q.pending.set node (left + 1) node.isLt }

/-- Declare the first mode that is ready. -/
def step (graph : Graph n) (breaks : BreakSet) (q : Queue n) : Option (Queue n) :=
  match q.ready.elements with
  | [] => none
  | next :: _ =>
    some ((graph.dependents breaks next).foldl release
      { q with ready := q.ready.erase next, order := q.order ++ [next] })

/-- What is left to be done. -/
def work (q : Queue n) : Nat := q.pending.toList.foldr (· + ·) 0 + q.ready.size

theorem sum_set {values : List Nat} {i : Nat} (inside : i < values.length) (value : Nat) :
    (values.set i value).foldr (· + ·) 0 + values[i] = values.foldr (· + ·) 0 + value := by
  induction values generalizing i with
  | nil => simp at inside
  | cons head tail ih =>
    cases i with
    | zero => simp; omega
    | succ i =>
      have := ih (by simpa using inside)
      simp only [List.set_cons_succ, List.foldr_cons, List.getElem_cons_succ]
      omega

theorem sum_set_vector (values : Vector Nat n) (node : Fin n) (value : Nat) :
    (values.set node value node.isLt).toList.foldr (· + ·) 0 + values.get node =
      values.toList.foldr (· + ·) 0 + value := by
  rw [Vector.toList_set]
  have inside : node.val < values.toList.length := by simp
  have total := sum_set inside value
  rwa [Vector.getElem_toList] at total

theorem work_release_le (q : Queue n) (node : Fin n) : (q.release node).work ≤ q.work := by
  unfold release
  split
  next => exact Nat.le_refl _
  next one =>
    have total := sum_set_vector q.pending node 0
    have size := q.ready.size_insert_le node
    simp only [work]
    omega
  next left more =>
    have total := sum_set_vector q.pending node (left + 1)
    simp only [work]
    omega

theorem work_foldl_release_le (nodes : List (Fin n)) (q : Queue n) :
    (nodes.foldl release q).work ≤ q.work := by
  induction nodes generalizing q with
  | nil => exact Nat.le_refl _
  | cons node rest ih => exact Nat.le_trans (ih (q.release node)) (work_release_le q node)

theorem step_lowers (graph : Graph n) (breaks : BreakSet) : Lowers (step graph breaks) work := by
  intro q t taken
  unfold step at taken
  split at taken
  next => contradiction
  next first rest ready =>
    cases taken
    have shrinks : (q.ready.erase first).size < q.ready.size := by
      simp only [SortedSet.size, SortedSet.erase]
      exact List.length_filter_lt_length_iff_exists.2 ⟨first, by simp [ready], by simp⟩
    exact Nat.lt_of_le_of_lt (work_foldl_release_le _ _) (Nat.add_lt_add_left shrinks _)

end Queue

namespace Schedule

/-- Declare modes until none is ready. -/
def declareAll (graph : Graph n) (breaks : BreakSet) : Queue n :=
  exhaust (Queue.step graph breaks) Queue.work (Queue.step_lowers graph breaks) (Queue.start graph breaks)

def ofGraph (graph : Graph n) (breaks : BreakSet) : Schedule n :=
  let order := (declareAll graph breaks).order
  if order.length = n then ⟨order, []⟩
  else ⟨List.finRange n, (List.finRange n).filter (!order.contains ·)⟩

end Schedule

end HighlightGrammar
