import HighlightGrammar.Proofs.Schedule
import Mathlib.Data.Set.Card

/-!
# Counting what a mode waits for

The loop that declares modes, in its smallest steps.  A mode may refer to another one many times, and some of these
references may be broken.  `Tally` goes through the edges one by one and counts every target once, at the first edge
to it that is not broken.  `Run` has one rule for declaring a mode and one for each count that is lowered afterwards,
and keeps the modes that became ready.  Every count is exact whenever a mode is about to be declared; no count is
lowered below zero, and no mode becomes ready twice.
-/

namespace HighlightGrammar

variable {n : Nat}

/-! ## One pass over the edges -/

/-- How many modes each mode refers to by name, and which modes refer to it by name. -/
structure Tally (n : Nat) where
  pending : Vector Nat n
  dependents : Vector (List (Fin n)) n

namespace Tally

protected def empty : Tally n := ⟨Vector.replicate n 0, Vector.replicate n []⟩

/-- One more mode that `source` refers to by name. -/
def add (source : Fin n) (tally : Tally n) (target : Fin n) : Tally n where
  pending := tally.pending.set source (tally.pending.get source + 1) source.isLt
  dependents := tally.dependents.set target (tally.dependents.get target ++ [source]) target.isLt

/-- The edges of a mode in turn, without those that are broken and those to a target that was seen before. -/
def addEdges (breaks : BreakSet) (source : Fin n) : List (Edge n) → List (Fin n) → Tally n → Tally n
  | [], _, tally => tally
  | edge :: rest, seen, tally =>
    if edge.key ∈ breaks ∨ seen.contains edge.target then addEdges breaks source rest seen tally
    else addEdges breaks source rest (edge.target :: seen) (tally.add source edge.target)

def addMode (graph : Graph n) (breaks : BreakSet) (tally : Tally n) (source : Fin n) : Tally n :=
  addEdges breaks source (graph.edgesFrom source) [] tally

def ofGraph (graph : Graph n) (breaks : BreakSet) : Tally n := (List.finRange n).foldl (addMode graph breaks) .empty

/-- Nothing is declared; modes with nothing to wait for are ready. -/
def start (tally : Tally n) : Queue n where
  pending := tally.pending
  ready := SortedSet.ofList ((List.finRange n).filter fun node => tally.pending.get node = 0)
  order := []

/-- Passing over seen targets leaves the first edge to each target. -/
theorem addEdges_eq (breaks : BreakSet) (source : Fin n) (edges : List (Edge n)) (seen : List (Fin n))
    (tally : Tally n) : addEdges breaks source edges seen tally =
      (((edges.filter (·.key ∉ breaks)).map (·.target)).filter (· ∉ seen)).eraseDups.foldl (add source) tally := by
  induction edges generalizing seen tally with
  | nil => simp [addEdges]
  | cons edge rest ih =>
    rw [addEdges]
    by_cases broken : edge.key ∈ breaks
    · simp [broken, ih]
    by_cases repeated : edge.target ∈ seen
    · simp [broken, repeated, ih]
    -- The target counts here, and what is left of it further on is dropped with the other seen ones.
    have later : ∀ targets : List (Fin n), targets.filter (· ∉ edge.target :: seen) =
        (targets.filter (· ∉ seen)).filter (fun target => !target == edge.target) := by
      intro targets
      rw [List.filter_filter]
      apply List.filter_congr
      intro target _
      simp [beq_eq_decide]
    rw [if_neg (by simp [broken, repeated]), ih, later]
    simp [broken, repeated, List.eraseDups_cons]

theorem addMode_eq (graph : Graph n) (breaks : BreakSet) (tally : Tally n) (source : Fin n) :
    addMode graph breaks tally source = (graph.dependencies breaks source).foldl (add source) tally := by
  simp [addMode, addEdges_eq, Graph.dependencies]

theorem foldl_add_pending (source other : Fin n) (targets : List (Fin n)) (tally : Tally n) :
    (targets.foldl (add source) tally).pending.get other =
      tally.pending.get other + if other = source then targets.length else 0 := by
  induction targets generalizing tally with
  | nil => simp
  | cons target rest ih =>
    rw [List.foldl_cons, ih, add, get_set]
    by_cases same : other = source
    · simp only [same, if_true, List.length_cons]
      omega
    · simp [same]

theorem foldl_add_dependents (source other : Fin n) (targets : List (Fin n)) (unique : targets.Nodup) (tally : Tally n) :
    (targets.foldl (add source) tally).dependents.get other =
      tally.dependents.get other ++ if other ∈ targets then [source] else [] := by
  induction targets generalizing tally with
  | nil => simp
  | cons target rest ih =>
    obtain ⟨absent, uniqueRest⟩ := List.nodup_cons.1 unique
    rw [List.foldl_cons, ih uniqueRest, add, get_set]
    by_cases same : other = target
    · simp [same, absent]
    · simp [same]

variable (graph : Graph n) (breaks : BreakSet)

/-- The count of a mode is set when its own edges are gone through, and not changed by those of others. -/
theorem foldl_addMode_pending (sources : List (Fin n)) (unique : sources.Nodup) (tally : Tally n) (node : Fin n) :
    (sources.foldl (addMode graph breaks) tally).pending.get node =
      tally.pending.get node + if node ∈ sources then (graph.dependencies breaks node).length else 0 := by
  induction sources generalizing tally with
  | nil => simp
  | cons source rest ih =>
    obtain ⟨absent, uniqueRest⟩ := List.nodup_cons.1 unique
    rw [List.foldl_cons, ih uniqueRest, addMode_eq, foldl_add_pending]
    by_cases same : node = source
    · simp [same, absent]
    · simp [same]

theorem foldl_addMode_dependents (sources : List (Fin n)) (tally : Tally n) (node : Fin n) :
    (sources.foldl (addMode graph breaks) tally).dependents.get node =
      tally.dependents.get node ++ sources.filter fun source => (graph.dependencies breaks source).contains node := by
  induction sources generalizing tally with
  | nil => simp
  | cons source rest ih =>
    rw [List.foldl_cons, ih, addMode_eq, foldl_add_dependents _ _ _ (graph.nodup_dependencies breaks source),
      List.append_assoc]
    by_cases member : node ∈ graph.dependencies breaks source
    · simp [member]
    · simp [member]

theorem ofGraph_pending (node : Fin n) :
    (ofGraph graph breaks).pending.get node = (graph.dependencies breaks node).length := by
  simp [ofGraph, foldl_addMode_pending graph breaks _ (List.nodup_finRange n), Tally.empty]

theorem ofGraph_dependents (node : Fin n) :
    (ofGraph graph breaks).dependents.get node = graph.dependents breaks node := by
  simp [ofGraph, foldl_addMode_dependents, Tally.empty, Graph.dependents]

theorem start_ofGraph : (ofGraph graph breaks).start = Queue.start graph breaks := by
  have pending : (ofGraph graph breaks).pending = (Queue.start graph breaks).pending := by
    apply Vector.ext
    intro i inside
    have count : (Queue.start graph breaks).pending.get ⟨i, inside⟩ = (graph.dependencies breaks ⟨i, inside⟩).length :=
      get_ofFn _ _
    exact (ofGraph_pending graph breaks ⟨i, inside⟩).trans count.symm
  have ready : (ofGraph graph breaks).start.ready = (Queue.start graph breaks).ready := by
    apply SortedSet.eq_of_mem_iff
    intro node
    simp [start, Queue.start, ofGraph_pending]
  rw [start, Queue.mk.injEq]
  exact ⟨pending, ready, rfl⟩

end Tally

/-! ## The loop in its smallest steps -/

namespace Queue

/-- Take a mode that is ready into the order. -/
def declare (q : Queue n) (next : Fin n) : Queue n :=
  { q with ready := q.ready.erase next, order := q.order ++ [next] }

/-- A moment of the loop: the queue, the modes whose counts have still to be lowered, and all modes that have become
ready so far, in that order. -/
inductive Run (tally : Tally n) : Queue n → List (Fin n) → List (Fin n) → Prop
  | start : Run tally tally.start [] tally.start.ready.elements
  | declare {q : Queue n} {entered rest : List (Fin n)} {next : Fin n} (before : Run tally q [] entered)
      (first : q.ready.elements = next :: rest) : Run tally (q.declare next) (tally.dependents.get next) entered
  | release {q : Queue n} {node : Fin n} {waiting entered : List (Fin n)} (before : Run tally q (node :: waiting) entered) :
      Run tally (q.release node) waiting (entered ++ if q.pending.get node = 1 then [node] else [])

variable {graph : Graph n} {breaks : BreakSet} {q t : Queue n} {waiting entered : List (Fin n)}

theorem step_of_first {next : Fin n} {rest : List (Fin n)} (first : q.ready.elements = next :: rest) :
    step graph breaks q = some ((graph.dependents breaks next).foldl release (q.declare next)) := by
  simp [step, first, declare]

namespace Run

/-- Once the counts that are due have been lowered, a number of iterations has been made. -/
theorem steps (run : Run (.ofGraph graph breaks) q waiting entered) :
    ∃ k, Steps (step graph breaks) k (Queue.start graph breaks) (waiting.foldl Queue.release q) := by
  induction run with
  | start =>
    rw [Tally.start_ofGraph]
    exact ⟨0, .refl _⟩
  | declare _ first ih =>
    obtain ⟨k, before⟩ := ih
    rw [Tally.ofGraph_dependents]
    exact ⟨k + 1, before.tail (step_of_first first)⟩
  | release _ ih => exact ih

theorem release_all (run : Run (.ofGraph graph breaks) q waiting entered) :
    ∃ more, Run (.ofGraph graph breaks) (waiting.foldl Queue.release q) [] more := by
  induction waiting generalizing q entered with
  | nil => exact ⟨entered, run⟩
  | cons node rest ih => exact ih run.release

theorem iterate (run : Run (.ofGraph graph breaks) q [] entered) (taken : step graph breaks q = some t) :
    ∃ more, Run (.ofGraph graph breaks) t [] more := by
  cases first : q.ready.elements with
  | nil => simp [step, first] at taken
  | cons next rest =>
    rw [step_of_first first, ← Tally.ofGraph_dependents] at taken
    cases taken
    exact (run.declare first).release_all

theorem of_steps {k : Nat} (iterations : Steps (step graph breaks) k q t) (run : Run (.ofGraph graph breaks) q [] entered) :
    ∃ more, Run (.ofGraph graph breaks) t [] more := by
  induction iterations generalizing entered with
  | refl q => exact ⟨entered, run⟩
  | head taken _ ih =>
    obtain ⟨_, after⟩ := run.iterate taken
    exact ih after

/-- Where no count is due, the small steps are where some number of iterations is. -/
theorem iff_steps : (∃ entered, Run (.ofGraph graph breaks) q [] entered) ↔
    ∃ k, Steps (step graph breaks) k (Queue.start graph breaks) q := by
  constructor
  · intro ⟨_, run⟩
    exact run.steps
  · intro ⟨_, iterations⟩
    rw [← Tally.start_ofGraph] at iterations
    exact of_steps iterations .start

theorem sound (run : Run (.ofGraph graph breaks) q [] entered) : q.Sound graph breaks := by
  obtain ⟨_, iterations⟩ := run.steps
  exact iterations.keeps step_sound (start_sound graph breaks)

end Run

/-! ## Becoming ready -/

/-- What has become ready is ready or declared, did so once, and waits for nothing; what is due waits for something. -/
structure Orderly (q : Queue n) (waiting entered : List (Fin n)) : Prop where
  unique : entered.Nodup
  known : ∀ node, node ∈ entered ↔ node ∈ q.ready ∨ node ∈ q.order
  free : ∀ node ∈ entered, q.pending.get node = 0
  once : waiting.Nodup
  waits : ∀ node ∈ waiting, 0 < q.pending.get node

namespace Orderly

theorem start (graph : Graph n) (breaks : BreakSet) :
    (Queue.start graph breaks).Orderly [] (Queue.start graph breaks).ready.elements where
  unique := (Queue.start graph breaks).ready.nodup
  known node := by simp [SortedSet.mem_def, Queue.start]
  free node member := ((start_sound graph breaks).ready node |>.1 member).1
  once := List.nodup_nil
  waits := by simp

theorem declare (orderly : q.Orderly [] entered) (sound : q.Sound graph breaks) {next : Fin n} {rest : List (Fin n)}
    (first : q.ready.elements = next :: rest) : (q.declare next).Orderly (graph.dependents breaks next) entered where
  unique := orderly.unique
  known node := by
    have ready : next ∈ q.ready := by simp [SortedSet.mem_def, first]
    rw [orderly.known node]
    simp only [Queue.declare, SortedSet.mem_erase, List.mem_append, List.mem_singleton]
    by_cases same : node = next
    · simp [same, ready]
    · simp [same]
  free := orderly.free
  once := graph.nodup_dependents breaks next
  waits node member := by
    -- The mode is declared only now, so all that depend on it still count it.
    have new : next ∉ q.order := (sound.first_ready first).2
    have depends : graph.Depends breaks node next := Graph.mem_dependents.1 member
    exact Nat.pos_of_ne_zero (sound.pending_ne_zero depends new)

theorem not_mem_entered {node : Fin n} (orderly : q.Orderly (node :: waiting) entered) : node ∉ entered := by
  intro member
  have nothing := orderly.free node member
  have something := orderly.waits node List.mem_cons_self
  omega

theorem release {node : Fin n} (orderly : q.Orderly (node :: waiting) entered) :
    (q.release node).Orderly waiting (entered ++ if q.pending.get node = 1 then [node] else []) := by
  obtain ⟨absent, once⟩ := List.nodup_cons.1 orderly.once
  have new := orderly.not_mem_entered
  -- Only the mode whose count goes from one to zero becomes ready, and only then.
  have becomes : ∀ other, other ∈ (if q.pending.get node = 1 then [node] else []) ↔
      other = node ∧ q.pending.get node = 1 := by
    intro other
    split <;> simp_all
  exact {
    unique := by
      split
      next => simpa using orderly.unique.concat new
      next => simpa using orderly.unique
    known := fun other => by
      rw [List.mem_append, becomes, orderly.known other, release_ready, release_order]
      exact or_right_comm
    free := fun other member => by
      rw [release_pending]
      rw [List.mem_append, becomes] at member
      cases member with
      | inl old =>
        have different : other ≠ node := fun same => new (same ▸ old)
        rw [if_neg different]
        exact orderly.free other old
      | inr last =>
        rw [if_pos last.1, last.2]
    once := once
    waits := fun other member => by
      have different : other ≠ node := fun same => absent (same ▸ member)
      rw [release_pending, if_neg different]
      exact orderly.waits other (List.mem_cons_of_mem node member) }

end Orderly

theorem Run.orderly (run : Run (.ofGraph graph breaks) q waiting entered) : q.Orderly waiting entered := by
  induction run with
  | start =>
    rw [Tally.start_ofGraph]
    exact .start graph breaks
  | declare before first ih =>
    rw [Tally.ofGraph_dependents]
    exact ih.declare before.sound first
  | release _ ih => exact ih.release

/-! ## The invariant of the loop -/

theorem Sound.pending_eq_ncard (sound : q.Sound graph breaks) (node : Fin n) :
    q.pending.get node = {target | graph.Depends breaks node target ∧ target ∉ q.order}.ncard := by
  have unique : ((graph.dependencies breaks node).filter (· ∉ q.order)).Nodup :=
    (graph.nodup_dependencies breaks node).filter _
  have listed : {target | graph.Depends breaks node target ∧ target ∉ q.order} =
      ((graph.dependencies breaks node).filter (· ∉ q.order)).toFinset := by
    ext target
    simp [Graph.mem_dependencies]
  rw [sound.counted node, listed, Set.ncard_coe_finset, List.toFinset_card_of_nodup unique]

/-- Whatever references are broken, at every iteration the count of a mode is the number of different modes that it
refers to by name and that are not declared, ready are the modes that have nothing to wait for and are not declared, and
no mode is declared twice.  No count that is lowered is zero, and no mode becomes ready a second time. -/
theorem counts_exact (graph : Graph n) (breaks : BreakSet) :
    (∀ k q, Steps (step graph breaks) k (start graph breaks) q →
      (∀ node : Fin n, q.pending.get node = {target | graph.Depends breaks node target ∧ target ∉ q.order}.ncard) ∧
      (∀ node : Fin n, node ∈ q.ready ↔ q.pending.get node = 0 ∧ node ∉ q.order) ∧
      q.order.Nodup) ∧
    (∃ k, Steps (step graph breaks) k (start graph breaks) (Schedule.declareAll graph breaks)) ∧
    (∀ q, (∃ k, Steps (step graph breaks) k (start graph breaks) q) ↔
      ∃ entered, Run (.ofGraph graph breaks) q [] entered) ∧
    ∀ q waiting entered, Run (.ofGraph graph breaks) q waiting entered →
      (∀ node ∈ waiting, 0 < q.pending.get node) ∧
      entered.Nodup ∧
      ∀ node, node ∈ entered ↔ node ∈ q.ready ∨ node ∈ q.order := by
  refine ⟨?_, exhaust_steps _, fun q => Run.iff_steps.symm, ?_⟩
  · intro k q iterations
    have sound : q.Sound graph breaks := iterations.keeps step_sound (start_sound graph breaks)
    exact ⟨sound.pending_eq_ncard, sound.ready, sound.unique⟩
  · intro q waiting entered run
    exact ⟨run.orderly.waits, run.orderly.unique, run.orderly.known⟩

end Queue

end HighlightGrammar
