import HighlightGrammar.Proofs.Components
import Mathlib.Algebra.BigOperators.Fin
import Mathlib.Algebra.Order.BigOperators.Group.Finset

/-!
# The search from one root

A step of the search looks at one successor or ends one visit.  Every edge is looked at once and every visit ends once,
so the search from a root comes to its end after no more steps than there are modes and edges.  On the way the stack
is the one that the flags say, with the modes in the order of their discovery, and the open visits are a path through
it.  At the end it is empty, and what was discovered lies in the components.
-/

namespace HighlightGrammar

variable {n : Nat}

namespace Search

/-! ## The number of steps -/

/-- What is ahead of the search in the modes that it has not discovered: to look at their edges and to leave them. -/
def ahead (graph : Graph n) (s : Search n) : Nat :=
  ∑ node, if s.index.get node = none then (graph.successors node).length + 1 else 0

/-- How many steps the search would take if it had to discover every mode. -/
def effort (graph : Graph n) (s : Search n) : Nat := s.work.2 + s.ahead graph

variable {graph : Graph n} {s t : Search n} {node : Fin n}

theorem ahead_enter (undiscovered : s.index.get node = none) :
    (s.enter graph node).ahead graph + ((graph.successors node).length + 1) = s.ahead graph := by
  have others : ∀ other ∈ Finset.univ.erase node, (s.enter graph node).index.get other = s.index.get other := by
    intro other member
    simp only [enter, get_set, if_neg (Finset.ne_of_mem_erase member)]
  have here : (s.enter graph node).index.get node ≠ none := by
    simp [enter, get_set]
  simp only [ahead]
  rw [← Finset.add_sum_erase _ _ (Finset.mem_univ node), ← Finset.add_sum_erase _ _ (Finset.mem_univ node),
    if_neg here, if_pos undiscovered, Finset.sum_congr rfl fun other member => by rw [others other member]]
  omega

/-- What a new visit has to do was ahead before. -/
theorem effort_enter (undiscovered : s.index.get node = none) : (s.enter graph node).effort graph = s.effort graph := by
  have fewer : (s.enter graph node).ahead graph + ((graph.successors node).length + 1) = s.ahead graph :=
    ahead_enter undiscovered
  have opened : (s.enter graph node).work.2 = (graph.successors node).length + 1 + s.work.2 := rfl
  simp only [effort]
  omega

theorem effort_look {successor : Fin n} : (look graph s node successor).effort graph = s.effort graph := by
  unfold look
  split
  next undiscovered => exact effort_enter undiscovered
  next =>
    -- Neither the numbers nor the open visits change when a successor is known already.
    split
    · rfl
    · rfl

theorem effort_leave : (s.leave node).effort graph = s.effort graph := by
  simp only [effort, ahead, work_leave, leave_index]

theorem ahead_withFrames (frames : List (Frame n)) : (s.withFrames frames).ahead graph = s.ahead graph := rfl

/-- Every step does one thing of what is left to do. -/
theorem step_effort (taken : step graph s = some t) : t.effort graph + 1 = s.effort graph := by
  obtain ⟨node, successor, pending, outer, frames, rfl⟩ | ⟨node, outer, frames, rfl⟩ := step_cases taken
  · rw [effort_look, effort, effort, ahead_withFrames]
    simp only [work, withFrames, frames, List.foldr_cons, List.length_cons]
    omega
  · rw [effort_leave, effort, effort, ahead_withFrames]
    simp only [work, withFrames, frames, List.foldr_cons, List.length_nil]
    omega

theorem steps_effort {k : Nat} (run : Steps (step graph) k s t) : t.effort graph + k = s.effort graph := by
  induction run with
  | refl s => rfl
  | head taken _ ih =>
    have one := step_effort taken
    omega

theorem sum_length_successors (graph : Graph n) : ∑ node, (graph.successors node).length = graph.edges.length := by
  have rows : graph.outgoing.toList.map List.length = List.ofFn fun node => (graph.successors node).length := by
    apply List.ext_getElem
    · simp
    · intro i _ _
      simp [Graph.successors, Graph.edgesFrom, Vector.get]
  rw [Graph.edges, List.length_flatten, rows, List.sum_ofFn]

theorem ahead_le (graph : Graph n) (s : Search n) : s.ahead graph ≤ n + graph.edges.length := by
  calc s.ahead graph
    _ ≤ ∑ node, ((graph.successors node).length + 1) := by
      apply Finset.sum_le_sum
      intro node _
      split <;> omega
    _ = n + graph.edges.length := by
      rw [Finset.sum_add_distrib, sum_length_successors]
      simp [Nat.add_comm]

/-! ## The stack on the way -/

/-- The flags say what is on the stack; the stack holds modes once, the later discovered above the earlier; the modes
being visited are a path of edges, and lie in the stack in the order of the path. -/
structure Stacked (graph : Graph n) (s : Search n) : Prop where
  flagged : ∀ node, s.onStack.get node = true ↔ node ∈ s.stack
  unique : s.stack.Nodup
  numbered : ∃ numbers : List Nat, s.stack.map s.index.get = numbers.map some ∧ numbers.Pairwise (· > ·)
  chained : s.path.IsChain fun inner outer => ∃ edge ∈ graph.edgesFrom outer, edge.target = inner
  nested : s.path.Sublist s.stack

theorem Disciplined.stacked (h : s.Disciplined graph) : s.Stacked graph where
  flagged := h.flagged
  unique := h.nodup
  numbered := by
    refine ⟨s.stack.map s.number, ?_, List.pairwise_map.2 h.descending⟩
    rw [List.map_map]
    exact List.map_congr_left fun node member => index_eq_number h member
  chained := h.chained.imp fun _ _ leads => Graph.leads_iff.1 leads
  nested := h.nested

/-! ## Where the search from a root ends -/

theorem visit_eq_exhaust {root : Fin n} (undiscovered : s.index.get root = none) :
    visit graph s root = exhaust (step graph) work (step_lowers graph) (s.enter graph root) := by
  simp [visit, undiscovered]

theorem visit_steps {root : Fin n} (idle : s.frames = []) (undiscovered : s.index.get root = none) :
    ∃ k ≤ n + graph.edges.length, Steps (step graph) k (s.enter graph root) (visit graph s root) := by
  have ends : ∃ k, Steps (step graph) k (s.enter graph root)
      (exhaust (step graph) work (step_lowers graph) (s.enter graph root)) := exhaust_steps _
  obtain ⟨k, run⟩ := ends
  have spent : _ + k = s.effort graph := (steps_effort run).trans (effort_enter undiscovered)
  have nothing : s.work.2 = 0 := by simp [work, idle]
  have bound := ahead_le graph s
  rw [visit_eq_exhaust undiscovered]
  refine ⟨k, ?_, run⟩
  simp only [effort] at spent
  omega

/-- Between two roots all that was discovered is done, and lies in one component. -/
theorem Sorted.existsUnique_iff (sorted : s.Sorted graph) (empty : s.stack = []) (node : Fin n) :
    (∃! i : Nat, ∃ component, s.components[i]? = some component ∧ node ∈ component) ↔ s.index.get node ≠ none := by
  have done : s.Done node ↔ s.index.get node ≠ none := by simp [Done, Found, empty]
  rw [← done]
  constructor
  · rintro ⟨i, ⟨component, listed, member⟩, -⟩
    exact (sorted.covered node).2 ⟨component, List.mem_of_getElem? listed, member⟩
  · intro isDone
    refine ⟨s.componentOf.get node, sorted.exists_component isDone, ?_⟩
    rintro i ⟨component, listed, member⟩
    exact (sorted.placed i component listed node member).symm

/-- From every root the search ends, after at most as many steps as there are modes and edges.  The stack is in order
in all states on the way and empty in the last one, where exactly the discovered modes are in one component each. -/
theorem visit_disciplined (graph : Graph n) (roots : List (Fin n)) (root : Fin n)
    (undiscovered : (after graph roots).index.get root = none) :
    (∃ k ≤ n + graph.edges.length, Steps (step graph) k ((after graph roots).enter graph root)
      (visit graph (after graph roots) root)) ∧
    step graph (visit graph (after graph roots) root) = none ∧
    (∀ k t, Steps (step graph) k ((after graph roots).enter graph root) t → t.Stacked graph) ∧
    (visit graph (after graph roots) root).stack = [] ∧
    ∀ node, (∃! i : Nat, ∃ component,
        (visit graph (after graph roots) root).components[i]? = some component ∧ node ∈ component) ↔
      (visit graph (after graph roots) root).index.get node ≠ none := by
  have before := after_resting graph roots
  have ended := visit_resting before root
  have empty := stack_of_frames_nil ended.sound.disciplined ended.frames
  refine ⟨visit_steps before.frames undiscovered, ?_, ?_, empty, ended.sound.sorted.existsUnique_iff empty⟩
  · rw [visit_eq_exhaust undiscovered]
    exact step_exhaust _
  · intro k t run
    have running := run.keeps step_running (enter_running before undiscovered)
    exact running.sound.disciplined.stacked

/-- Two circles, the first of which leads into the second one, with parallel edges, and a mode that stands alone. -/
def linkedCircles : Graph 6 :=
  ⟨#v[[⟨0, .contains, 0, 1⟩, ⟨0, .contains, 1, 1⟩], [⟨1, .contains, 0, 2⟩, ⟨1, .variants, 0, 0⟩, ⟨1, .starts, 0, 4⟩],
    [⟨2, .contains, 0, 3⟩], [⟨3, .variants, 0, 4⟩], [⟨4, .contains, 0, 2⟩, ⟨4, .contains, 1, 3⟩], []]⟩

theorem visit_disciplined_linkedCircles :
    (after linkedCircles []).index.get 0 = none ∧
    (∃ k ≤ 6 + linkedCircles.edges.length, Steps (step linkedCircles) k ((after linkedCircles []).enter linkedCircles 0)
      (visit linkedCircles (after linkedCircles []) 0)) ∧
    step linkedCircles (visit linkedCircles (after linkedCircles []) 0) = none ∧
    (∀ k t, Steps (step linkedCircles) k ((after linkedCircles []).enter linkedCircles 0) t → t.Stacked linkedCircles) ∧
    (visit linkedCircles (after linkedCircles []) 0).stack = [] ∧
    ∀ node, (∃! i : Nat, ∃ component,
        (visit linkedCircles (after linkedCircles []) 0).components[i]? = some component ∧ node ∈ component) ↔
      (visit linkedCircles (after linkedCircles []) 0).index.get node ≠ none := by
  have undiscovered : (after linkedCircles []).index.get 0 = none := rfl
  exact ⟨undiscovered, visit_disciplined linkedCircles [] 0 undiscovered⟩

end Search

end HighlightGrammar
