import HighlightGrammar.Graph.Schedule
import HighlightGrammar.Proofs.Collections
import HighlightGrammar.Proofs.Reachability
import Mathlib.Data.Fintype.EquivFin

/-!
# The order of declarations is sound

`Queue.Sound` says what the counts, the modes that are ready and the order mean while modes are being declared.
Every step keeps it.  When no mode is ready, those left out depend on one another, so without a cycle of
references by name none is left out.
-/

namespace HighlightGrammar

variable {n : Nat}

namespace Graph

theorem nodup_dependencies (graph : Graph n) (breaks : BreakSet) (node : Fin n) :
    (graph.dependencies breaks node).Nodup :=
  nodup_eraseDups _

theorem mem_dependents {graph : Graph n} {breaks : BreakSet} {node source : Fin n} :
    source ∈ graph.dependents breaks node ↔ graph.Depends breaks source node := by
  simp only [dependents, List.mem_filter, List.mem_finRange, true_and, List.contains_iff_mem, mem_dependencies]

theorem nodup_dependents (graph : Graph n) (breaks : BreakSet) (node : Fin n) :
    (graph.dependents breaks node).Nodup :=
  (List.nodup_finRange n).filter _

/-- Along references by name, `start` leads to `earlier` and from there on to `later`. -/
def Beyond (graph : Graph n) (breaks : BreakSet) (start later earlier : Fin n) : Prop :=
  Relation.ReflTransGen (graph.Depends breaks) start earlier ∧ Relation.TransGen (graph.Depends breaks) earlier later

/-- There are finitely many modes, so where no cycle is in reach the dependencies can be followed only so far. -/
theorem wellFounded_beyond {graph : Graph n} {breaks : BreakSet} {start : Fin n}
    (acyclic : ∀ turn, Relation.ReflTransGen (graph.Depends breaks) start turn →
      ¬ Relation.TransGen (graph.Depends breaks) turn turn) : WellFounded (graph.Beyond breaks start) := by
  have transitive : IsTrans (Fin n) (graph.Beyond breaks start) :=
    ⟨fun _ _ _ first second => ⟨second.1, second.2.trans first.2⟩⟩
  have irreflexive : Std.Irrefl (graph.Beyond breaks start) := ⟨fun turn both => acyclic turn both.1 both.2⟩
  exact Finite.wellFounded_of_trans_of_irrefl _

end Graph

namespace Queue

/-! ## Releasing the dependents of a mode -/

theorem release_pending (q : Queue n) (node other : Fin n) :
    (q.release node).pending.get other = if other = node then q.pending.get node - 1 else q.pending.get other := by
  unfold release
  split
  next none_left => split <;> simp_all
  next one_left =>
    rw [get_set]
    split <;> simp_all
  next left more =>
    rw [get_set]
    split <;> simp_all

theorem release_ready (q : Queue n) (node other : Fin n) :
    other ∈ (q.release node).ready ↔ other ∈ q.ready ∨ (other = node ∧ q.pending.get node = 1) := by
  unfold release
  split
  next none_left => simp [none_left]
  next one_left => simp [one_left, or_comm]
  next left more => simp [more]

theorem release_order (q : Queue n) (node : Fin n) : (q.release node).order = q.order := by
  unfold release
  split <;> rfl

/-- Releasing takes one from each of the counts, and makes ready what has none left. -/
theorem foldl_release (nodes : List (Fin n)) (unique : nodes.Nodup) (q : Queue n) :
    (∀ other : Fin n, (nodes.foldl release q).pending.get other =
      if other ∈ nodes then q.pending.get other - 1 else q.pending.get other) ∧
    (∀ other : Fin n, other ∈ (nodes.foldl release q).ready ↔
      other ∈ q.ready ∨ (other ∈ nodes ∧ q.pending.get other = 1)) ∧
    (nodes.foldl release q).order = q.order := by
  induction nodes generalizing q with
  | nil => simp
  | cons head rest ih =>
    obtain ⟨absent, uniqueRest⟩ := List.nodup_cons.1 unique
    obtain ⟨pending, ready, order⟩ := ih uniqueRest (q.release head)
    refine ⟨fun other => ?_, fun other => ?_, ?_⟩
    · rw [List.foldl_cons, pending, release_pending]
      by_cases same : other = head
      · subst same
        simp [absent]
      · simp [same]
    · rw [List.foldl_cons, ready, release_ready, release_pending]
      by_cases same : other = head
      · subst same
        simp [absent]
      · simp [same]
    · rw [List.foldl_cons, order, release_order]

variable {graph : Graph n} {breaks : BreakSet} {q t : Queue n}

/-- A step declares the first mode that is ready and takes it off the counts of its dependents. -/
theorem step_cases (taken : step graph breaks q = some t) : ∃ next rest, q.ready.elements = next :: rest ∧
    t.order = q.order ++ [next] ∧
    (∀ node : Fin n, t.pending.get node =
      if next ∈ graph.dependencies breaks node then q.pending.get node - 1 else q.pending.get node) ∧
    ∀ node : Fin n, node ∈ t.ready ↔
      (node ∈ q.ready ∧ node ≠ next) ∨ (graph.Depends breaks node next ∧ q.pending.get node = 1) := by
  unfold step at taken
  split at taken
  next => contradiction
  next next rest elements =>
    cases taken
    obtain ⟨pending, ready, order⟩ := foldl_release (graph.dependents breaks next)
      (graph.nodup_dependents breaks next) { q with ready := q.ready.erase next, order := q.order ++ [next] }
    refine ⟨next, rest, elements, order, fun node => ?_, fun node => ?_⟩
    · have same : node ∈ graph.dependents breaks next ↔ next ∈ graph.dependencies breaks node :=
        Graph.mem_dependents.trans Graph.mem_dependencies.symm
      simp only [pending, same]
    · rw [ready, SortedSet.mem_erase, Graph.mem_dependents]

/-! ## The invariant -/

structure Sound (graph : Graph n) (breaks : BreakSet) (q : Queue n) : Prop where
  counted : ∀ node : Fin n,
    q.pending.get node = ((graph.dependencies breaks node).filter (· ∉ q.order)).length
  ready : ∀ node : Fin n, node ∈ q.ready ↔ q.pending.get node = 0 ∧ node ∉ q.order
  unique : q.order.Nodup
  earlier : ∀ node ∈ q.order, ∀ dependency, graph.Depends breaks node dependency →
    q.order.idxOf dependency < q.order.idxOf node

theorem start_sound (graph : Graph n) (breaks : BreakSet) : (start graph breaks).Sound graph breaks where
  counted node := by simp [start]
  ready node := by simp [start]
  unique := List.nodup_nil
  earlier node member := by simp [start] at member

namespace Sound

theorem pending_eq_zero_iff (sound : q.Sound graph breaks) (node : Fin n) :
    q.pending.get node = 0 ↔ ∀ dependency, graph.Depends breaks node dependency → dependency ∈ q.order := by
  rw [sound.counted node, List.length_eq_zero_iff, List.filter_eq_nil_iff]
  simp only [Graph.mem_dependencies, decide_eq_true_eq, not_not]

theorem pending_ne_zero (sound : q.Sound graph breaks) {node next : Fin n} (depends : graph.Depends breaks node next)
    (new : next ∉ q.order) : q.pending.get node ≠ 0 :=
  fun nothing => new ((sound.pending_eq_zero_iff node).1 nothing next depends)

/-- The mode that a step declares waits for nothing and has not been declared. -/
theorem first_ready (sound : q.Sound graph breaks) {next : Fin n} {rest : List (Fin n)}
    (elements : q.ready.elements = next :: rest) : q.pending.get next = 0 ∧ next ∉ q.order := by
  rw [← sound.ready next, SortedSet.mem_def, elements]
  exact List.mem_cons_self

theorem mem_of_depends (sound : q.Sound graph breaks) {node dependency : Fin n} (member : node ∈ q.order)
    (depends : graph.Depends breaks node dependency) : dependency ∈ q.order := by
  have less := sound.earlier node member dependency depends
  exact List.idxOf_lt_length_iff.1 (Nat.lt_trans less (List.idxOf_lt_length_of_mem member))

theorem idxOf_concat_lt (sound : q.Sound graph breaks) {next : Fin n} (free : q.pending.get next = 0)
    (new : next ∉ q.order) : ∀ node ∈ q.order ++ [next], ∀ dependency, graph.Depends breaks node dependency →
      (q.order ++ [next]).idxOf dependency < (q.order ++ [next]).idxOf node := by
  intro node member dependency depends
  cases List.mem_append.1 member with
  | inl old =>
    rw [List.idxOf_append_of_mem (sound.mem_of_depends old depends), List.idxOf_append_of_mem old]
    exact sound.earlier node old dependency depends
  | inr last =>
    have same : node = next := List.mem_singleton.1 last
    subst same
    have inside := (sound.pending_eq_zero_iff node).1 free dependency depends
    rw [List.idxOf_append_of_mem inside, List.idxOf_append_of_notMem new]
    exact Nat.lt_add_right _ (List.idxOf_lt_length_of_mem inside)

/-- What becomes ready is what waited for the declared mode alone. -/
theorem ready_concat (sound : q.Sound graph breaks) {next : Fin n} (free : q.pending.get next = 0)
    (new : next ∉ q.order) (node : Fin n) :
    (node ∈ q.ready ∧ node ≠ next) ∨ (graph.Depends breaks node next ∧ q.pending.get node = 1) ↔
      (if next ∈ graph.dependencies breaks node then q.pending.get node - 1 else q.pending.get node) = 0 ∧
        node ∉ q.order ++ [next] := by
  have waits : graph.Depends breaks node next → q.pending.get node ≠ 0 :=
    fun depends => sound.pending_ne_zero depends new
  have undeclared : graph.Depends breaks node next → node ∉ q.order :=
    fun depends member => new (sound.mem_of_depends member depends)
  have different : graph.Depends breaks node next → node ≠ next := fun depends same => waits depends (same ▸ free)
  rw [sound.ready node, List.mem_append, List.mem_singleton, not_or]
  -- What does not depend on the declared mode is ready if and only if it was before.
  by_cases depends : graph.Depends breaks node next
  · have left := waits depends
    rw [if_pos (Graph.mem_dependencies.2 depends)]
    simp only [depends, true_and, undeclared depends, different depends, not_false_eq_true, and_true]
    omega
  · rw [if_neg fun member => depends (Graph.mem_dependencies.1 member)]
    simp only [depends, false_and, or_false, and_assoc]

end Sound

theorem step_sound (q t : Queue n) (sound : q.Sound graph breaks) (taken : step graph breaks q = some t) :
    t.Sound graph breaks := by
  obtain ⟨next, rest, elements, order, pending, ready⟩ := step_cases taken
  obtain ⟨free, new⟩ := sound.first_ready elements
  refine ⟨fun node => ?_, fun node => ?_, ?_, ?_⟩
  · rw [pending, order, length_filter_not_mem_concat (graph.nodup_dependencies breaks node) new,
      ← sound.counted node]
  · rw [ready, pending, order]
    exact sound.ready_concat free new node
  · rw [order, List.nodup_append]
    refine ⟨sound.unique, List.nodup_singleton next, fun a old b last same => new ?_⟩
    rw [← List.mem_singleton.1 last, ← same]
    exact old
  · rw [order]
    exact sound.idxOf_concat_lt free new

end Queue

/-! ## Schedules -/

namespace Schedule

variable {graph : Graph n} {breaks : BreakSet}

theorem declareAll_sound (graph : Graph n) (breaks : BreakSet) : (declareAll graph breaks).Sound graph breaks :=
  exhaust_induction Queue.step_sound (Queue.start_sound graph breaks)

/-- A mode that was left out waits for another one. -/
theorem exists_depends_of_not_mem {node : Fin n} (left_out : node ∉ (declareAll graph breaks).order) :
    ∃ dependency, graph.Depends breaks node dependency ∧ dependency ∉ (declareAll graph breaks).order := by
  have sound := declareAll_sound graph breaks
  have stops : Queue.step graph breaks (declareAll graph breaks) = none := step_exhaust _
  have nothing : ¬ node ∈ (declareAll graph breaks).ready := by
    intro member
    unfold Queue.step at stops
    split at stops
    next empty =>
      rw [SortedSet.mem_def, empty] at member
      exact List.not_mem_nil member
    next => contradiction
  have waits : (declareAll graph breaks).pending.get node ≠ 0 :=
    fun free => nothing ((sound.ready node).2 ⟨free, left_out⟩)
  rw [Ne, sound.pending_eq_zero_iff] at waits
  push Not at waits
  exact waits

/-- From a mode that was left out a cycle of references by name can be reached. -/
theorem exists_cycle_of_not_mem {node : Fin n} (left_out : node ∉ (declareAll graph breaks).order) :
    ∃ turn, Relation.ReflTransGen (graph.Depends breaks) node turn ∧
      Relation.TransGen (graph.Depends breaks) turn turn := by
  by_contra acyclic
  push Not at acyclic
  have declared : ∀ other, Relation.ReflTransGen (graph.Depends breaks) node other →
      other ∈ (declareAll graph breaks).order := by
    intro other reached
    induction other using (Graph.wellFounded_beyond acyclic).induction with
    | _ other ih =>
      by_contra outside
      obtain ⟨dependency, depends, stillOutside⟩ := exists_depends_of_not_mem outside
      exact stillOutside (ih dependency ⟨reached, .single depends⟩ (reached.tail depends))
  exact left_out (declared node .refl)

theorem mem_declareAll (acyclic : graph.Acyclic breaks) (node : Fin n) : node ∈ (declareAll graph breaks).order := by
  by_contra left_out
  obtain ⟨turn, -, cycle⟩ := exists_cycle_of_not_mem left_out
  exact acyclic turn cycle

theorem declareAll_perm (all : ∀ node, node ∈ (declareAll graph breaks).order) :
    (declareAll graph breaks).order.Perm (List.finRange n) := by
  rw [List.perm_ext_iff_of_nodup (declareAll_sound graph breaks).unique (List.nodup_finRange n)]
  exact fun node => iff_of_true (all node) (List.mem_finRange node)

theorem length_declareAll_iff :
    (declareAll graph breaks).order.length = n ↔ ∀ node, node ∈ (declareAll graph breaks).order := by
  constructor
  · intro all node
    have inside : (declareAll graph breaks).order.Subperm (List.finRange n) :=
      List.subperm_of_subset (declareAll_sound graph breaks).unique fun node _ => List.mem_finRange node
    have perm := inside.perm_of_length_le (by rw [all, List.length_finRange])
    exact perm.mem_iff.2 (List.mem_finRange node)
  · intro all
    rw [(declareAll_perm all).length_eq, List.length_finRange]

theorem ofGraph_of_complete (complete : (declareAll graph breaks).order.length = n) :
    ofGraph graph breaks = ⟨(declareAll graph breaks).order, []⟩ :=
  if_pos complete

theorem ofGraph_of_incomplete (incomplete : (declareAll graph breaks).order.length ≠ n) :
    ofGraph graph breaks =
      ⟨List.finRange n, (List.finRange n).filter (!(declareAll graph breaks).order.contains ·)⟩ :=
  if_neg incomplete

theorem residual_eq_nil_iff (graph : Graph n) (breaks : BreakSet) :
    (ofGraph graph breaks).residual = [] ↔ (declareAll graph breaks).order.length = n := by
  by_cases complete : (declareAll graph breaks).order.length = n
  · simp [ofGraph_of_complete complete, complete]
  · refine iff_of_false (fun empty => complete ?_) complete
    -- The fallback reports what was not declared: if that is nothing, then all was.
    rw [ofGraph_of_incomplete complete, List.filter_eq_nil_iff] at empty
    refine length_declareAll_iff.2 fun node => ?_
    simpa using empty node (List.mem_finRange node)

theorem order_eq_of_residual (empty : (ofGraph graph breaks).residual = []) :
    (ofGraph graph breaks).order = (declareAll graph breaks).order := by
  rw [ofGraph_of_complete ((residual_eq_nil_iff graph breaks).1 empty)]

/-- The order holds every mode once, also where it falls back. -/
theorem order_perm (graph : Graph n) (breaks : BreakSet) : (ofGraph graph breaks).order.Perm (List.finRange n) := by
  by_cases complete : (declareAll graph breaks).order.length = n
  · rw [ofGraph_of_complete complete]
    exact declareAll_perm (length_declareAll_iff.1 complete)
  · rw [ofGraph_of_incomplete complete]

theorem mem_order (graph : Graph n) (breaks : BreakSet) (node : Fin n) : node ∈ (ofGraph graph breaks).order :=
  (order_perm graph breaks).mem_iff.2 (List.mem_finRange node)

theorem nodup_order (graph : Graph n) (breaks : BreakSet) : (ofGraph graph breaks).order.Nodup :=
  (order_perm graph breaks).nodup_iff.2 (List.nodup_finRange n)

theorem idxOf_lt_of_depends (empty : (ofGraph graph breaks).residual = []) {source target : Fin n}
    (depends : graph.Depends breaks source target) :
    (ofGraph graph breaks).order.idxOf target < (ofGraph graph breaks).order.idxOf source := by
  have member := mem_order graph breaks source
  rw [order_eq_of_residual empty] at member ⊢
  exact (declareAll_sound graph breaks).earlier source member target depends

theorem residual_eq_nil (acyclic : graph.Acyclic breaks) : (ofGraph graph breaks).residual = [] :=
  (residual_eq_nil_iff graph breaks).2 (length_declareAll_iff.2 (mem_declareAll acyclic))

end Schedule

end HighlightGrammar
