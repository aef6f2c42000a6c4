import HighlightGrammar.Graph.Component
import HighlightGrammar.Proofs.Collections
import HighlightGrammar.Proofs.Reachability
import Mathlib.Data.List.Chain

/-!
# The invariant of the component search

A mode is undiscovered, on the stack, or done.  `Disciplined` says how the stack and the open visits lie
within one another, `Linked` what the numbers to reach back to mean, `Settled` what is known of an edge that
was looked at, and `Sorted` that the components completed so far are those of the graph.  `Sound` is all of
it.  Discovering a mode and looking at an edge keep it.
-/

namespace HighlightGrammar

variable {n : Nat}

namespace Search

def Found (s : Search n) (node : Fin n) : Prop := s.index.get node ≠ none

/-- The number given to a mode when it was discovered. -/
def number (s : Search n) (node : Fin n) : Nat := (s.index.get node).getD 0

/-- Discovered, and in a completed component. -/
def Done (s : Search n) (node : Fin n) : Prop := s.Found node ∧ node ∉ s.stack

/-- The modes being visited, innermost first. -/
def path (s : Search n) : List (Fin n) := s.frames.map (·.node)

/-- The search has still to look from one mode to the other. -/
def Awaits (s : Search n) (node successor : Fin n) : Prop :=
  ∃ frame ∈ s.frames, frame.node = node ∧ successor ∈ frame.pending

/-- The successor is discovered.  If it is not done, then every visit around the mode has a visit inside of it
that is known to reach back to the successor, or further. -/
def Settled (s : Search n) (node successor : Fin n) : Prop :=
  s.Found successor ∧ (successor ∈ s.stack → ∀ outer ∈ s.path, s.number outer ≤ s.number node →
    ∃ inner ∈ s.path, s.number outer ≤ s.number inner ∧ s.low.get inner ≤ s.number successor)

structure Disciplined (graph : Graph n) (s : Search n) : Prop where
  flagged : ∀ node, s.onStack.get node = true ↔ node ∈ s.stack
  found : ∀ node ∈ s.stack, s.Found node
  bounded : ∀ node, s.Found node → s.number node < s.next
  descending : s.stack.Pairwise fun later earlier => s.number earlier < s.number later
  nested : s.path.Sublist s.stack
  chained : s.path.IsChain fun inner outer => graph.Leads outer inner
  pending : ∀ frame ∈ s.frames, ∀ successor ∈ frame.pending, graph.Leads frame.node successor
  rooted : ∀ node ∈ s.stack, ∃ outer ∈ s.path, s.number outer ≤ s.number node

structure Linked (graph : Graph n) (s : Search n) : Prop where
  low_le : ∀ node ∈ s.stack, s.low.get node ≤ s.number node
  back : ∀ node ∈ s.stack, ∃ earlier ∈ s.stack, s.number earlier = s.low.get node ∧ graph.Reaches node earlier
  left : ∀ node ∈ s.stack, node ∉ s.path → s.low.get node < s.number node
  inside : ∀ outer ∈ s.path, ∀ node ∈ s.stack, s.number outer ≤ s.number node → graph.Reaches outer node

structure Sorted (graph : Graph n) (s : Search n) : Prop where
  closed : ∀ node, s.Done node → ∀ successor, graph.Leads node successor →
    s.Done successor ∧ s.componentOf.get successor ≤ s.componentOf.get node
  covered : ∀ node, s.Done node ↔ ∃ component ∈ s.components, node ∈ component
  placed : ∀ i component, s.components[i]? = some component → ∀ node : Fin n, node ∈ component →
    s.componentOf.get node = i
  ascending : ∀ component ∈ s.components, component ≠ [] ∧ component.Pairwise (· < ·)
  exact : ∀ component ∈ s.components, ∀ node ∈ component, ∀ other,
    other ∈ component ↔ graph.Mutual node other

structure Sound (graph : Graph n) (s : Search n) : Prop where
  disciplined : s.Disciplined graph
  linked : s.Linked graph
  looked : ∀ node ∈ s.stack, ∀ successor, graph.Leads node successor →
    s.Awaits node successor ∨ s.Settled node successor
  sorted : s.Sorted graph

theorem empty_sound (graph : Graph n) : (Search.empty : Search n).Sound graph where
  disciplined := {
    flagged := fun node => by simp [Search.empty]
    found := fun node member => by simp [Search.empty] at member
    bounded := fun node found => by simp [Search.empty, Found] at found
    descending := List.Pairwise.nil
    nested := List.Sublist.refl _
    chained := List.IsChain.nil
    pending := fun frame member => by simp [Search.empty] at member
    rooted := fun node member => by simp [Search.empty] at member }
  linked := {
    low_le := fun node member => by simp [Search.empty] at member
    back := fun node member => by simp [Search.empty] at member
    left := fun node member => by simp [Search.empty] at member
    inside := fun outer member => by simp [Search.empty, path] at member }
  looked := fun node member => by simp [Search.empty] at member
  sorted := {
    closed := fun node done => by simp [Search.empty, Done, Found] at done
    covered := fun node => by simp [Search.empty, Done, Found]
    placed := fun i component member => by simp [Search.empty] at member
    ascending := fun component member => by simp [Search.empty] at member
    exact := fun component member => by simp [Search.empty] at member }

/-! ## Order on the stack -/

namespace Disciplined

variable {graph : Graph n} {s : Search n}

theorem mem_stack (h : s.Disciplined graph) {node : Fin n} (member : node ∈ s.path) : node ∈ s.stack :=
  h.nested.subset member

theorem nodup (h : s.Disciplined graph) : s.stack.Nodup :=
  h.descending.imp fun less same => by rw [same] at less; exact Nat.lt_irrefl _ less

theorem number_injective (h : s.Disciplined graph) {a b : Fin n} (first : a ∈ s.stack) (second : b ∈ s.stack)
    (same : s.number a = s.number b) : a = b := by
  have symmetric : Std.Symm fun a b => s.number a ≠ s.number b := ⟨fun _ _ => Ne.symm⟩
  have apart : s.stack.Pairwise fun a b => s.number a ≠ s.number b := h.descending.imp fun less => (Nat.ne_of_lt less).symm
  by_contra different
  exact apart.forall first second different same

/-- The innermost visit has the greatest number. -/
theorem number_le_head (h : s.Disciplined graph) {top node : Fin n} {outer : List (Fin n)}
    (path : s.path = top :: outer) (member : node ∈ s.path) : s.number node ≤ s.number top := by
  have ordered := h.descending.sublist h.nested
  rw [path] at ordered member
  rcases List.mem_cons.1 member with rfl | below
  · exact Nat.le_refl _
  · exact Nat.le_of_lt ((List.pairwise_cons.1 ordered).1 node below)

theorem number_lt_head (h : s.Disciplined graph) {top node : Fin n} {outer : List (Fin n)}
    (path : s.path = top :: outer) (member : node ∈ outer) : s.number node < s.number top := by
  have ordered := h.descending.sublist h.nested
  rw [path] at ordered
  exact (List.pairwise_cons.1 ordered).1 node member

end Disciplined

/-! ## Discovering a mode -/

section Enter

variable {graph : Graph n} {s : Search n} {node : Fin n}

@[simp] theorem enter_stack : (s.enter graph node).stack = node :: s.stack := rfl

@[simp] theorem enter_path : (s.enter graph node).path = node :: s.path := rfl

theorem enter_low (other : Fin n) :
    (s.enter graph node).low.get other = if other = node then s.next else s.low.get other :=
  get_set _ _ _ _

theorem enter_number (other : Fin n) :
    (s.enter graph node).number other = if other = node then s.next else s.number other := by
  simp only [number, enter, get_set]
  split <;> rfl

theorem enter_found {other : Fin n} : (s.enter graph node).Found other ↔ other = node ∨ s.Found other := by
  simp only [Found, enter, get_set]
  split
  next same => simp [same]
  next different => simp [different]

theorem Disciplined.not_mem_stack (h : s.Disciplined graph) (undiscovered : s.index.get node = none) :
    node ∉ s.stack :=
  fun member => h.found node member undiscovered

/-- Numbers on the stack stay as they are. -/
theorem Disciplined.enter_number (h : s.Disciplined graph) (undiscovered : s.index.get node = none)
    {other : Fin n} (member : other ∈ s.stack) : (s.enter graph node).number other = s.number other := by
  have different : other ≠ node := fun same => h.not_mem_stack undiscovered (same ▸ member)
  rw [Search.enter_number, if_neg different]

theorem Disciplined.enter (h : s.Disciplined graph) (undiscovered : s.index.get node = none)
    (leads : ∀ outer ∈ s.path.head?, graph.Leads outer node) : (s.enter graph node).Disciplined graph where
  flagged other := by
    have old := h.flagged other
    simp only [Search.enter, get_set, List.mem_cons]
    split
    next same => simp [same]
    next different => simpa [different] using old
  found other member := by
    rcases List.mem_cons.1 member with same | old
    · exact enter_found.2 (Or.inl same)
    · exact enter_found.2 (Or.inr (h.found other old))
  bounded other found := by
    rw [Search.enter_number]
    show _ < s.next + 1
    split
    next => exact Nat.lt_succ_self _
    next different =>
      have old := (enter_found.1 found).resolve_left different
      exact Nat.lt_succ_of_lt (h.bounded other old)
  descending := by
    refine List.pairwise_cons.2 ⟨fun earlier member => ?_, h.descending.imp_of_mem fun first second less => ?_⟩
    · rw [h.enter_number undiscovered member, Search.enter_number, if_pos rfl]
      exact h.bounded earlier (h.found earlier member)
    · rwa [h.enter_number undiscovered first, h.enter_number undiscovered second]
  nested := h.nested.cons_cons node
  chained := List.isChain_cons.2 ⟨leads, h.chained⟩
  pending frame member successor later := by
    rcases List.mem_cons.1 member with rfl | old
    · exact later
    · exact h.pending frame old successor later
  rooted other member := by
    rcases List.mem_cons.1 member with rfl | old
    · exact ⟨other, List.mem_cons_self, Nat.le_refl _⟩
    · obtain ⟨outer, opened, before⟩ := h.rooted other old
      refine ⟨outer, List.mem_cons_of_mem _ opened, ?_⟩
      rwa [h.enter_number undiscovered old, h.enter_number undiscovered (h.mem_stack opened)]

theorem Linked.enter (linked : s.Linked graph) (h : s.Disciplined graph) (undiscovered : s.index.get node = none)
    (leads : ∀ outer ∈ s.path.head?, graph.Leads outer node) : (s.enter graph node).Linked graph where
  low_le other member := by
    have old := linked.low_le other
    rw [enter_low, Search.enter_number]
    split
    next => exact Nat.le_refl _
    next different => exact old ((List.mem_cons.1 member).resolve_left different)
  back other member := by
    rw [enter_low]
    split
    next same => exact ⟨other, member, by rw [Search.enter_number, if_pos same], Relation.ReflTransGen.refl⟩
    next different =>
      obtain ⟨earlier, inside, number, reaches⟩ :=
        linked.back other ((List.mem_cons.1 member).resolve_left different)
      refine ⟨earlier, List.mem_cons_of_mem _ inside, ?_, reaches⟩
      rw [h.enter_number undiscovered inside, number]
  left other member closed := by
    have different : other ≠ node := fun same => closed (same ▸ List.mem_cons_self)
    rw [enter_low, if_neg different, Search.enter_number, if_neg different]
    exact linked.left other ((List.mem_cons.1 member).resolve_left different)
      fun opened => closed (List.mem_cons_of_mem _ opened)
  inside outer opened other member before := by
    rw [enter_path, List.mem_cons] at opened
    rcases opened with rfl | openedBefore
    · rcases List.mem_cons.1 member with rfl | old
      · exact Relation.ReflTransGen.refl
      · rw [h.enter_number undiscovered old, Search.enter_number, if_pos rfl] at before
        exact absurd (h.bounded other (h.found other old)) (Nat.not_lt.2 before)
    · rcases List.mem_cons.1 member with rfl | old
      · -- The new mode was discovered from the innermost visit, which every other visit reaches.
        obtain ⟨top, rest, path⟩ := List.exists_cons_of_ne_nil (List.ne_nil_of_mem openedBefore)
        have opens : top ∈ s.path := path ▸ List.mem_cons_self
        have toTop : graph.Reaches outer top :=
          linked.inside outer openedBefore top (h.mem_stack opens) (h.number_le_head path openedBefore)
        exact toTop.tail (leads top (by simp [path]))
      · rw [h.enter_number undiscovered old, h.enter_number undiscovered (h.mem_stack openedBefore)] at before
        exact linked.inside outer openedBefore other old before

/-- Whatever was looked at stays settled, and the edges to the new mode become so. -/
theorem looked_enter (h : s.Disciplined graph) (undiscovered : s.index.get node = none)
    (looked : ∀ other ∈ s.stack, ∀ successor, graph.Leads other successor →
      successor = node ∨ s.Awaits other successor ∨ s.Settled other successor) :
    ∀ other ∈ (s.enter graph node).stack, ∀ successor, graph.Leads other successor →
      (s.enter graph node).Awaits other successor ∨ (s.enter graph node).Settled other successor := by
  intro other member successor leads
  rcases List.mem_cons.1 member with rfl | old
  · exact Or.inl ⟨⟨other, graph.successors other⟩, List.mem_cons_self, rfl, leads⟩
  rcases looked other old successor leads with rfl | ⟨frame, opened, owner, later⟩ | ⟨found, reachesBack⟩
  · -- The edge leads to the new mode, whose own visit is inside of all others and reaches back to it.
    refine Or.inr ⟨enter_found.2 (Or.inl rfl), fun _ outer opened _ => ?_⟩
    refine ⟨successor, List.mem_cons_self, ?_, by rw [enter_low, if_pos rfl, enter_number, if_pos rfl]⟩
    rcases List.mem_cons.1 opened with rfl | openedBefore
    · exact Nat.le_refl _
    · rw [h.enter_number undiscovered (h.mem_stack openedBefore), enter_number, if_pos rfl]
      exact Nat.le_of_lt (h.bounded outer (h.found outer (h.mem_stack openedBefore)))
  · exact Or.inl ⟨frame, List.mem_cons_of_mem _ opened, owner, later⟩
  · refine Or.inr ⟨enter_found.2 (Or.inr found), fun onStack outer opened before => ?_⟩
    have different : successor ≠ node := fun same => found (same ▸ undiscovered)
    have successorOnStack := (List.mem_cons.1 onStack).resolve_left different
    rw [h.enter_number undiscovered old] at before
    rcases List.mem_cons.1 opened with rfl | openedBefore
    · -- The new visit is not around any mode that was discovered before.
      rw [enter_number, if_pos rfl] at before
      exact absurd (h.bounded other (h.found other old)) (Nat.not_lt.2 before)
    · rw [h.enter_number undiscovered (h.mem_stack openedBefore)] at before ⊢
      obtain ⟨inner, inPath, inside, low⟩ := reachesBack successorOnStack outer openedBefore before
      have innerOld : inner ≠ node := fun same => h.not_mem_stack undiscovered (same ▸ h.mem_stack inPath)
      refine ⟨inner, List.mem_cons_of_mem _ inPath, ?_, ?_⟩
      · rwa [h.enter_number undiscovered (h.mem_stack inPath)]
      · rwa [enter_low, if_neg innerOld, h.enter_number undiscovered successorOnStack]

theorem enter_done (undiscovered : s.index.get node = none) {other : Fin n} :
    (s.enter graph node).Done other ↔ s.Done other := by
  have differs : s.Found other → other ≠ node := fun found same => found (same ▸ undiscovered)
  simp only [Done, enter_found, enter_stack, List.mem_cons, not_or]
  grind

end Enter

/-- The components completed so far depend on what is done only. -/
theorem Sorted.congr {graph : Graph n} {s t : Search n} (sorted : s.Sorted graph)
    (done : ∀ node, t.Done node ↔ s.Done node) (components : t.components = s.components)
    (componentOf : t.componentOf = s.componentOf) : t.Sorted graph where
  closed node closed successor leads := by
    rw [done, componentOf]
    exact sorted.closed node ((done node).1 closed) successor leads
  covered node := by rw [done, components]; exact sorted.covered node
  placed := by rw [components, componentOf]; exact sorted.placed
  ascending := by rw [components]; exact sorted.ascending
  exact := by rw [components]; exact sorted.exact

/-- What is known apart from the edges looked at, before a visit goes on. -/
theorem Sound.enter {graph : Graph n} {s : Search n} {node : Fin n} (h : s.Disciplined graph)
    (linked : s.Linked graph) (sorted : s.Sorted graph) (undiscovered : s.index.get node = none)
    (leads : ∀ outer ∈ s.path.head?, graph.Leads outer node)
    (looked : ∀ other ∈ s.stack, ∀ successor, graph.Leads other successor →
      successor = node ∨ s.Awaits other successor ∨ s.Settled other successor) :
    (s.enter graph node).Sound graph where
  disciplined := h.enter undiscovered leads
  linked := linked.enter h undiscovered leads
  looked := looked_enter h undiscovered looked
  sorted := sorted.congr (fun _ => enter_done undiscovered) rfl rfl

/-! ## Looking at a successor -/

/-- Exchange the open visits. -/
def withFrames (s : Search n) (frames : List (Frame n)) : Search n := { s with frames }

section Advance

variable {graph : Graph n} {s : Search n} {node successor : Fin n} {pending : List (Fin n)}
  {outer : List (Frame n)}

theorem path_advance (frames : s.frames = ⟨node, successor :: pending⟩ :: outer) :
    (s.withFrames (⟨node, pending⟩ :: outer)).path = s.path := by
  simp [path, withFrames, frames]

theorem Disciplined.advance (h : s.Disciplined graph)
    (frames : s.frames = ⟨node, successor :: pending⟩ :: outer) :
    (s.withFrames (⟨node, pending⟩ :: outer)).Disciplined graph where
  flagged := h.flagged
  found := h.found
  bounded := h.bounded
  descending := h.descending
  nested := by rw [path_advance frames]; exact h.nested
  chained := by rw [path_advance frames]; exact h.chained
  pending frame member later inPending := by
    rcases List.mem_cons.1 member with rfl | old
    · exact h.pending ⟨node, successor :: pending⟩ (by simp [frames]) later (List.mem_cons_of_mem _ inPending)
    · exact h.pending frame (by simp [frames, old]) later inPending
  rooted := by rw [path_advance frames]; exact h.rooted

theorem Linked.advance (linked : s.Linked graph) (frames : s.frames = ⟨node, successor :: pending⟩ :: outer) :
    (s.withFrames (⟨node, pending⟩ :: outer)).Linked graph where
  low_le := linked.low_le
  back := linked.back
  left := by rw [path_advance frames]; exact linked.left
  inside := by rw [path_advance frames]; exact linked.inside

theorem looked_advance (sound : s.Sound graph) (frames : s.frames = ⟨node, successor :: pending⟩ :: outer) :
    ∀ other ∈ s.stack, ∀ target, graph.Leads other target → (other = node ∧ target = successor) ∨
      (s.withFrames (⟨node, pending⟩ :: outer)).Awaits other target ∨
      (s.withFrames (⟨node, pending⟩ :: outer)).Settled other target := by
  intro other member target leads
  rcases sound.looked other member target leads with ⟨frame, opened, owner, later⟩ | settled
  · rw [frames] at opened
    rcases List.mem_cons.1 opened with rfl | old
    · rcases List.mem_cons.1 later with same | later
      · exact Or.inl ⟨owner.symm, same⟩
      · exact Or.inr (Or.inl ⟨⟨node, pending⟩, List.mem_cons_self, owner, later⟩)
    · exact Or.inr (Or.inl ⟨frame, List.mem_cons_of_mem _ old, owner, later⟩)
  · refine Or.inr (Or.inr ?_)
    rw [Settled, path_advance frames]
    exact settled

end Advance

section Lower

variable {graph : Graph n} {s : Search n} {node : Fin n} {bound : Nat}

theorem lower_low (other : Fin n) :
    (s.lower node bound).low.get other = if other = node then min (s.low.get node) bound else s.low.get other :=
  get_set _ _ _ _

theorem lower_low_le (other : Fin n) : (s.lower node bound).low.get other ≤ s.low.get other := by
  rw [lower_low]
  split
  next same => rw [same]; exact Nat.min_le_left _ _
  next => exact Nat.le_refl _

theorem lower_low_self_le : (s.lower node bound).low.get node ≤ bound := by
  rw [lower_low, if_pos rfl]
  exact Nat.min_le_right _ _

theorem Disciplined.lower (h : s.Disciplined graph) : (s.lower node bound).Disciplined graph where
  flagged := h.flagged
  found := h.found
  bounded := h.bounded
  descending := h.descending
  nested := h.nested
  chained := h.chained
  pending := h.pending
  rooted := h.rooted

theorem Linked.lower (linked : s.Linked graph) {earlier : Fin n} (opened : node ∈ s.path)
    (member : earlier ∈ s.stack) (number : s.number earlier = bound) (reaches : graph.Reaches node earlier) :
    (s.lower node bound).Linked graph where
  low_le other inside := Nat.le_trans (lower_low_le other) (linked.low_le other inside)
  back other inside := by
    by_cases changed : other = node ∧ bound < s.low.get node
    · obtain ⟨rfl, less⟩ := changed
      refine ⟨earlier, member, ?_, reaches⟩
      rw [lower_low, if_pos rfl, Nat.min_eq_right (Nat.le_of_lt less)]
      exact number
    · obtain ⟨back, onStack, same, path⟩ := linked.back other inside
      refine ⟨back, onStack, ?_, path⟩
      rw [lower_low]
      split
      next here =>
        subst here
        rw [Nat.min_eq_left (by omega)]
        exact same
      next => exact same
  left other inside closed := Nat.lt_of_le_of_lt (lower_low_le other) (linked.left other inside closed)
  inside := linked.inside

theorem Settled.lower {other successor : Fin n} (settled : s.Settled other successor) :
    (s.lower node bound).Settled other successor := by
  refine ⟨settled.1, fun onStack outer opened before => ?_⟩
  obtain ⟨inner, inPath, inside, low⟩ := settled.2 onStack outer opened before
  exact ⟨inner, inPath, inside, Nat.le_trans (lower_low_le inner) low⟩

end Lower

theorem look_sound {graph : Graph n} {s : Search n} {node successor : Fin n} {pending : List (Fin n)}
    {outer : List (Frame n)} (sound : s.Sound graph)
    (frames : s.frames = ⟨node, successor :: pending⟩ :: outer) :
    (look graph (s.withFrames (⟨node, pending⟩ :: outer)) node successor).Sound graph := by
  have h := sound.disciplined.advance frames
  have linked := sound.linked.advance frames
  have looked := looked_advance sound frames
  have sorted : (s.withFrames (⟨node, pending⟩ :: outer)).Sorted graph :=
    sound.sorted.congr (fun _ => Iff.rfl) rfl rfl
  have leads : graph.Leads node successor :=
    sound.disciplined.pending ⟨node, successor :: pending⟩ (by simp [frames]) successor List.mem_cons_self
  unfold look
  split
  next undiscovered =>
    refine Sound.enter h linked sorted undiscovered (fun top first => ?_) fun other member target edge => ?_
    · cases first
      exact leads
    · exact (looked other member target edge).imp_left And.right
  next found discovered =>
    have number : s.number successor = found := by
      have here : s.index.get successor = some found := discovered
      simp [Search.number, here]
    have isFound : s.Found successor := by
      have here : s.index.get successor = some found := discovered
      simp [Found, here]
    split
    next flagged =>
      have onStack : successor ∈ s.stack := (h.flagged successor).1 flagged
      refine ⟨h.lower, linked.lower List.mem_cons_self onStack number (.single leads), ?_,
        sorted.congr (fun _ => Iff.rfl) rfl rfl⟩
      intro other member target edge
      rcases looked other member target edge with ⟨rfl, rfl⟩ | awaits | settled
      · refine Or.inr ⟨isFound, fun _ around opened before => ?_⟩
        refine ⟨other, List.mem_cons_self, before, ?_⟩
        exact Nat.le_trans lower_low_self_le (Nat.le_of_eq number.symm)
      · exact Or.inl awaits
      · exact Or.inr settled.lower
    next unflagged =>
      refine ⟨h, linked, fun other member target edge => ?_, sorted⟩
      rcases looked other member target edge with ⟨rfl, rfl⟩ | rest
      · -- A successor off the stack is done, and nothing has to reach back to it.
        exact Or.inr ⟨isFound, fun onStack => absurd ((h.flagged target).2 onStack) unflagged⟩
      · exact rest

end Search

end HighlightGrammar
