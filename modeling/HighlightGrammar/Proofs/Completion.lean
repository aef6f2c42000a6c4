import HighlightGrammar.Proofs.Search
import Mathlib.Data.List.TakeWhile
import Mathlib.Order.Fin.Basic

/-!
# Completing components

Where a visit ends, either what it reaches back to is passed on to the visit around it, or the modes from it upward
on the stack are a component.  Both keep the search sound, so every step does, and every run from a root.
-/

namespace HighlightGrammar

variable {n : Nat}

namespace Search

/-! ## Ending a visit that reaches back -/

section Leave

variable {graph : Graph n} {s : Search n} {node : Fin n} {outer : List (Frame n)}

theorem path_of_frames (frames : s.frames = ⟨node, []⟩ :: outer) : s.path = node :: (s.withFrames outer).path := by
  simp [path, withFrames, frames]

theorem mem_path (frames : s.frames = ⟨node, []⟩ :: outer) {other : Fin n} :
    other ∈ s.path ↔ other = node ∨ other ∈ (s.withFrames outer).path := by
  rw [path_of_frames frames, List.mem_cons]

theorem top_mem_stack (h : s.Disciplined graph) (frames : s.frames = ⟨node, []⟩ :: outer) : node ∈ s.stack :=
  h.mem_stack ((mem_path frames).2 (Or.inl rfl))

/-- The visit that ends waits for nothing, so what is awaited is awaited further out. -/
theorem awaits_outer (frames : s.frames = ⟨node, []⟩ :: outer) {other successor : Fin n}
    (awaits : s.Awaits other successor) : (s.withFrames outer).Awaits other successor := by
  obtain ⟨frame, opened, owner, later⟩ := awaits
  rw [frames] at opened
  rcases List.mem_cons.1 opened with rfl | old
  · exact absurd later List.not_mem_nil
  · exact ⟨frame, old, owner, later⟩

theorem Disciplined.chained_outer (h : s.Disciplined graph) (frames : s.frames = ⟨node, []⟩ :: outer) :
    (s.withFrames outer).path.IsChain fun inner outer => graph.Leads outer inner := by
  have chained := h.chained
  rw [path_of_frames frames] at chained
  exact (List.isChain_cons.1 chained).2

theorem Disciplined.pending_outer (h : s.Disciplined graph) (frames : s.frames = ⟨node, []⟩ :: outer) :
    ∀ frame ∈ outer, ∀ successor ∈ frame.pending, graph.Leads frame.node successor := by
  intro frame member
  exact h.pending frame (by rw [frames]; exact List.mem_cons_of_mem _ member)

variable {parent : Frame n} {rest : List (Frame n)}

theorem parent_mem_path (frames : s.frames = ⟨node, []⟩ :: parent :: rest) : parent.node ∈ s.path := by
  simp [path, frames]

theorem parent_lt (h : s.Disciplined graph) (frames : s.frames = ⟨node, []⟩ :: parent :: rest) :
    s.number parent.node < s.number node :=
  h.number_lt_head (path_of_frames frames) List.mem_cons_self

theorem Disciplined.leave (h : s.Disciplined graph) (frames : s.frames = ⟨node, []⟩ :: parent :: rest) :
    (s.withFrames (parent :: rest)).Disciplined graph where
  flagged := h.flagged
  found := h.found
  bounded := h.bounded
  descending := h.descending
  nested := by
    have nested := h.nested
    rw [path_of_frames frames] at nested
    exact (List.sublist_cons_self _ _).trans nested
  chained := h.chained_outer frames
  pending := h.pending_outer frames
  rooted other member := by
    obtain ⟨around, opened, before⟩ := h.rooted other member
    rcases (mem_path frames).1 opened with rfl | old
    · have less := parent_lt h frames
      exact ⟨parent.node, List.mem_cons_self, Nat.le_trans (Nat.le_of_lt less) before⟩
    · exact ⟨around, old, before⟩

theorem Linked.leave (linked : s.Linked graph) (frames : s.frames = ⟨node, []⟩ :: outer)
    (further : s.low.get node < s.number node) : (s.withFrames outer).Linked graph where
  low_le := linked.low_le
  back := linked.back
  left other member closed := by
    by_cases same : other = node
    · rw [same]
      exact further
    · refine linked.left other member fun opened => ?_
      exact closed (((mem_path frames).1 opened).resolve_left same)
  inside around opened := linked.inside around ((mem_path frames).2 (Or.inr opened))

/-- What the ended visit reaches back to is passed on, so the visit around it stands in for it. -/
theorem Settled.leave (h : s.Disciplined graph) (frames : s.frames = ⟨node, []⟩ :: parent :: rest)
    {other successor : Fin n} (settled : s.Settled other successor) :
    ((s.withFrames (parent :: rest)).lower parent.node (s.low.get node)).Settled other successor := by
  refine ⟨settled.1, fun onStack around opened before => ?_⟩
  have openedBefore  := (mem_path frames).2 (Or.inr opened)
  obtain ⟨inner, inPath, inside, low⟩ := settled.2 onStack around openedBefore before
  rcases (mem_path frames).1 inPath with rfl | old
  · refine ⟨parent.node, List.mem_cons_self, ?_, Nat.le_trans lower_low_self_le low⟩
    exact (h.leave frames).number_le_head rfl opened
  · exact ⟨inner, old, inside, Nat.le_trans (lower_low_le inner) low⟩

theorem passOn_sound (sound : s.Sound graph) (frames : s.frames = ⟨node, []⟩ :: parent :: rest)
    (further : s.low.get node < s.number node) :
    ((s.withFrames (parent :: rest)).lower parent.node (s.low.get node)).Sound graph where
  disciplined := (sound.disciplined.leave frames).lower
  linked := by
    have onStack := top_mem_stack sound.disciplined frames
    obtain ⟨earlier, member, number, reaches⟩ := sound.linked.back node onStack
    have toNode : graph.Reaches parent.node node :=
      sound.linked.inside parent.node (parent_mem_path frames) node onStack
        (Nat.le_of_lt (parent_lt sound.disciplined frames))
    exact (sound.linked.leave frames further).lower List.mem_cons_self member number (toNode.trans reaches)
  looked other member successor leads :=
    (sound.looked other member successor leads).imp (awaits_outer frames) (Settled.leave sound.disciplined frames)
  sorted := sound.sorted.congr (fun _ => Iff.rfl) rfl rfl

end Leave

/-! ## Completing a component -/

section Complete

variable {graph : Graph n} {s : Search n} {node : Fin n} {outer : List (Frame n)}

theorem number_eq_of_top (h : s.Disciplined graph) (frames : s.frames = ⟨node, []⟩ :: outer) {other : Fin n}
    (opened : other ∈ s.path) (later : s.number node ≤ s.number other) : other = node :=
  h.number_injective (h.mem_stack opened) (top_mem_stack h frames)
    (Nat.le_antisymm (h.number_le_head (path_of_frames frames) opened) later)

/-- From the modes above one that reaches back to nothing before it, edges lead to such modes and to done ones. -/
theorem leads_above (sound : s.Sound graph) (frames : s.frames = ⟨node, []⟩ :: outer)
    (closes : s.low.get node = s.number node) {other successor : Fin n} (member : other ∈ s.stack)
    (later : s.number node ≤ s.number other) (leads : graph.Leads other successor) :
    (successor ∈ s.stack ∧ s.number node ≤ s.number successor) ∨ s.Done successor := by
  have h := sound.disciplined
  rcases sound.looked other member successor leads with ⟨frame, opened, owner, awaited⟩ | ⟨found, reachesBack⟩
  · -- Only the innermost visit is of a mode that late, and it awaits nothing.
    have inPath : other ∈ s.path := List.mem_map.2 ⟨frame, opened, owner⟩
    have same := number_eq_of_top h frames inPath later
    have outside := awaits_outer frames ⟨frame, opened, owner, awaited⟩
    obtain ⟨outerFrame, openedOutside, outerOwner, -⟩ := outside
    have below := h.number_lt_head (path_of_frames frames) (List.mem_map.2 ⟨outerFrame, openedOutside, outerOwner⟩)
    omega
  · by_cases onStack : successor ∈ s.stack
    · have top : node ∈ s.path := (mem_path frames).2 (Or.inl rfl)
      obtain ⟨inner, inPath, inside, low⟩ := reachesBack onStack node top later
      rw [number_eq_of_top h frames inPath inside, closes] at low
      exact Or.inl ⟨onStack, low⟩
    · exact Or.inr ⟨found, onStack⟩

theorem done_of_reaches (sorted : s.Sorted graph) {a b : Fin n} (done : s.Done a) (reaches : graph.Reaches a b) :
    s.Done b := by
  induction reaches with
  | refl => exact done
  | tail _ leads ih => exact (sorted.closed _ ih _ leads).1

theorem reaches_above (sound : s.Sound graph) (frames : s.frames = ⟨node, []⟩ :: outer)
    (closes : s.low.get node = s.number node) {other target : Fin n} (member : other ∈ s.stack)
    (later : s.number node ≤ s.number other) (reaches : graph.Reaches other target) :
    (target ∈ s.stack ∧ s.number node ≤ s.number target) ∨ s.Done target := by
  induction reaches with
  | refl => exact Or.inl ⟨member, later⟩
  | tail _ leads ih =>
    rcases ih with ⟨onStack, above⟩ | done
    · exact leads_above sound frames closes onStack above leads
    · exact Or.inr (sound.sorted.closed _ done _ leads).1

/-- Every mode above reaches back to an earlier one, and so in the end to the one that closes. -/
theorem reaches_down (sound : s.Sound graph) (frames : s.frames = ⟨node, []⟩ :: outer)
    (closes : s.low.get node = s.number node) {other : Fin n} (member : other ∈ s.stack)
    (later : s.number node ≤ s.number other) : graph.Reaches other node := by
  have h := sound.disciplined
  -- The induction is on the number: a mode that is not being visited any more reaches back to an earlier one.
  induction number : s.number other using Nat.strong_induction_on generalizing other with
  | _ value ih =>
    by_cases same : other = node
    · rw [same]
      exact Relation.ReflTransGen.refl
    · have closed : other ∉ s.path := fun opened => same (number_eq_of_top h frames opened later)
      have less := sound.linked.left other member closed
      obtain ⟨earlier, onStack, low, reaches⟩ := sound.linked.back other member
      rcases reaches_above sound frames closes member later reaches with ⟨-, above⟩ | done
      · exact reaches.trans (ih (s.number earlier) (by omega) onStack above rfl)
      · exact absurd onStack done.2

/-- The modes from the one that closes upward are its component. -/
theorem above_iff_mutual (sound : s.Sound graph) (frames : s.frames = ⟨node, []⟩ :: outer)
    (closes : s.low.get node = s.number node) {other : Fin n} :
    (other ∈ s.stack ∧ s.number node ≤ s.number other) ↔ graph.Mutual node other := by
  have top := top_mem_stack sound.disciplined frames
  constructor
  · rintro ⟨member, later⟩
    have opened : node ∈ s.path := (mem_path frames).2 (Or.inl rfl)
    exact ⟨sound.linked.inside node opened other member later, reaches_down sound frames closes member later⟩
  · rintro ⟨away, back⟩
    rcases reaches_above sound frames closes top (Nat.le_refl _) away with above | done
    · exact above
    · -- From a done mode there is no way back to the stack.
      exact absurd top (done_of_reaches sound.sorted done back).2

/-- The modes that `complete` takes off the stack, last discovered first. -/
def members (s : Search n) (node : Fin n) : List (Fin n) := s.stack.takeWhile (· ≠ node) ++ [node]

/-- The modes that it leaves on the stack. -/
def remaining (s : Search n) (node : Fin n) : List (Fin n) := (s.stack.dropWhile (· ≠ node)).tail

theorem dropWhile_of_mem {stack : List (Fin n)} (member : node ∈ stack) :
    stack.dropWhile (· ≠ node) = node :: (stack.dropWhile (· ≠ node)).tail := by
  induction stack with
  | nil => exact absurd member List.not_mem_nil
  | cons head rest ih =>
    by_cases same : head = node
    · simp [same]
    · have later : node ∈ rest := (List.mem_cons.1 member).resolve_left (Ne.symm same)
      simpa [same] using ih later

theorem members_append (member : node ∈ s.stack) : s.members node ++ s.remaining node = s.stack := by
  have split := List.takeWhile_append_dropWhile (p := fun other => decide (other ≠ node)) (l := s.stack)
  rw [dropWhile_of_mem member] at split
  rw [members, remaining, List.append_assoc]
  exact split

theorem mem_members (h : s.Disciplined graph) (member : node ∈ s.stack) (other : Fin n) :
    other ∈ s.members node ↔ other ∈ s.stack ∧ s.number node ≤ s.number other := by
  have ordered := h.descending
  rw [← members_append member] at ordered ⊢
  obtain ⟨above, -, across⟩ := List.pairwise_append.1 ordered
  have last := (List.pairwise_append.1 above).2.2
  have self : node ∈ s.members node := by simp [members]
  constructor
  · intro here
    refine ⟨List.mem_append_left _ here, ?_⟩
    rcases List.mem_append.1 here with before | same
    · exact Nat.le_of_lt (last other before node (List.mem_singleton.2 rfl))
    · rw [List.mem_singleton.1 same]
  · rintro ⟨here, later⟩
    rcases List.mem_append.1 here with above | below
    · exact above
    · exact absurd (across node self other below) (Nat.not_lt.2 later)

theorem mem_remaining (h : s.Disciplined graph) (member : node ∈ s.stack) (other : Fin n) :
    other ∈ s.remaining node ↔ other ∈ s.stack ∧ s.number other < s.number node := by
  have unique := h.nodup
  rw [← members_append member] at unique
  have apart := (List.nodup_append.1 unique).2.2
  have split : other ∈ s.stack ↔ other ∈ s.members node ∨ other ∈ s.remaining node := by
    rw [← List.mem_append, members_append member]
  have above := mem_members h member other
  have exclusive : other ∈ s.members node → other ∉ s.remaining node :=
    fun here there => apart other here other there rfl
  constructor
  · intro here
    have onStack := split.2 (Or.inr here)
    refine ⟨onStack, Nat.lt_of_not_le fun later => ?_⟩
    exact exclusive (above.2 ⟨onStack, later⟩) here
  · rintro ⟨onStack, earlier⟩
    exact (split.1 onStack).resolve_left fun here => absurd (above.1 here).2 (Nat.not_le.2 earlier)

theorem foldl_set {α : Type} (nodes : List (Fin n)) (values : Vector α n) (value : α) (other : Fin n) :
    (nodes.foldl (fun values (node : Fin n) => values.set node value node.isLt) values).get other =
      if other ∈ nodes then value else values.get other := by
  induction nodes generalizing values with
  | nil => simp
  | cons head rest ih =>
    rw [List.foldl_cons, ih, get_set]
    by_cases later : other ∈ rest
    · simp [later]
    · simp [later]

@[simp] theorem complete_stack : (s.complete node).stack = s.remaining node := rfl

theorem complete_onStack (other : Fin n) :
    (s.complete node).onStack.get other = if other ∈ s.members node then false else s.onStack.get other :=
  foldl_set _ _ _ _

theorem complete_componentOf (other : Fin n) : (s.complete node).componentOf.get other =
    if other ∈ s.members node then s.components.length else s.componentOf.get other :=
  foldl_set _ _ _ _

@[simp] theorem complete_components : (s.complete node).components =
    s.components ++ [(s.members node).mergeSort (· ≤ ·)] := rfl

theorem path_sublist_remaining (h : s.Disciplined graph) (frames : s.frames = ⟨node, []⟩ :: outer) :
    (s.withFrames outer).path.Sublist (s.remaining node) := by
  have member := top_mem_stack h frames
  have nested := h.nested
  have unique := h.nodup
  rw [path_of_frames frames, ← members_append member, members, List.append_assoc] at nested
  -- The path begins with the mode that closes, and that is not among those above it.
  obtain ⟨first, second, split, above, below⟩ := List.sublist_append_iff.1 nested
  cases first with
  | nil =>
    rw [List.nil_append] at split
    rw [← split] at below
    exact List.cons_sublist_cons.1 below
  | cons head rest =>
    rw [List.cons_append, List.cons.injEq] at split
    have here : node ∈ s.stack.takeWhile (· ≠ node) := split.1 ▸ above.subset List.mem_cons_self
    exact absurd (List.mem_takeWhile_imp here) (by simp)

theorem Disciplined.complete (h : s.Disciplined graph) (frames : s.frames = ⟨node, []⟩ :: outer) :
    ((s.withFrames outer).complete node).Disciplined graph := by
  have member := top_mem_stack h frames
  have nested := path_sublist_remaining h frames
  have below := mem_remaining h member
  exact {
    flagged := fun other => by
      have flagged := h.flagged other
      have above := mem_members h member other
      rw [complete_onStack, complete_stack]
      show (if other ∈ s.members node then false else s.onStack.get other) = true ↔ other ∈ s.remaining node
      rw [below]
      split
      next taken =>
        have later := (above.1 taken).2
        simp only [Bool.false_eq_true, false_iff, not_and]
        omega
      next stays =>
        rw [flagged]
        constructor
        · exact fun onStack => ⟨onStack, Nat.lt_of_not_le fun later => stays (above.2 ⟨onStack, later⟩)⟩
        · exact And.left
    found := fun other here => h.found other ((below _).1 here).1
    bounded := h.bounded
    descending := by
      have ordered := h.descending
      rw [← members_append member] at ordered
      exact (List.pairwise_append.1 ordered).2.1
    nested := nested
    chained := h.chained_outer frames
    pending := h.pending_outer frames
    rooted := fun other here => by
      obtain ⟨onStack, earlier⟩ := (below _).1 here
      obtain ⟨around, opened, before⟩ := h.rooted other onStack
      rcases (mem_path frames).1 opened with rfl | old
      · exact absurd before (Nat.not_le.2 earlier)
      · exact ⟨around, old, before⟩ }

theorem Linked.complete (linked : s.Linked graph) (h : s.Disciplined graph)
    (frames : s.frames = ⟨node, []⟩ :: outer) : ((s.withFrames outer).complete node).Linked graph := by
  have member := top_mem_stack h frames
  have below := mem_remaining h member
  exact {
    low_le := fun other here => linked.low_le other ((below _).1 here).1
    back := fun other here => by
      obtain ⟨onStack, earlier⟩ := (below _).1 here
      obtain ⟨back, backOnStack, number, reaches⟩ := linked.back other onStack
      have low := linked.low_le other onStack
      exact ⟨back, (below _).2 ⟨backOnStack, by omega⟩, number, reaches⟩
    left := fun other here closed => by
      obtain ⟨onStack, earlier⟩ := (below _).1 here
      refine linked.left other onStack fun opened => ?_
      rcases (mem_path frames).1 opened with rfl | old
      · exact Nat.lt_irrefl _ earlier
      · exact closed old
    inside := fun around opened other here =>
      linked.inside around ((mem_path frames).2 (Or.inr opened)) other ((below _).1 here).1 }

theorem looked_complete (sound : s.Sound graph) (frames : s.frames = ⟨node, []⟩ :: outer)
    (closes : s.low.get node = s.number node) :
    ∀ other ∈ ((s.withFrames outer).complete node).stack, ∀ successor, graph.Leads other successor →
      ((s.withFrames outer).complete node).Awaits other successor ∨
        ((s.withFrames outer).complete node).Settled other successor := by
  have h := sound.disciplined
  have below := mem_remaining h (top_mem_stack h frames)
  intro other here successor leads
  obtain ⟨onStack, earlier⟩ := (below _).1 here
  refine (sound.looked other onStack successor leads).imp (awaits_outer frames) fun settled => ?_
  refine ⟨settled.1, fun stays around opened before => ?_⟩
  obtain ⟨successorOnStack, successorEarlier⟩ := (below _).1 stays
  have openedBefore  := (mem_path frames).2 (Or.inr opened)
  obtain ⟨inner, inPath, inside, low⟩ := settled.2 successorOnStack around openedBefore before
  rcases (mem_path frames).1 inPath with rfl | old
  · -- The visit that ends reaches back to itself only, and all that stays was discovered before it.
    rw [closes] at low
    exact absurd successorEarlier (Nat.not_lt.2 low)
  · exact ⟨inner, old, inside, low⟩

theorem pairwise_lt_mergeSort {nodes : List (Fin n)} (unique : nodes.Nodup) :
    (nodes.mergeSort (· ≤ ·)).Pairwise (· < ·) := by
  refine pairwise_mergeSort_of_nodup (fun a b => ?_) (fun first second => ?_) (fun different => ?_) unique
  · rw [decide_eq_true_eq, Fin.le_def, Fin.lt_def, Fin.ext_iff]
    omega
  · exact Fin.lt_trans first second
  · exact Fin.lt_or_lt_of_ne different

theorem complete_done (h : s.Disciplined graph) (member : node ∈ s.stack) {other : Fin n} :
    (s.complete node).Done other ↔ s.Done other ∨ other ∈ s.members node := by
  have found : other ∈ s.stack → s.Found other := h.found other
  show s.Found other ∧ other ∉ s.remaining node ↔ (s.Found other ∧ other ∉ s.stack) ∨ other ∈ s.members node
  rw [mem_remaining h member, mem_members h member]
  grind

/-- The number of a done mode is the place of its component. -/
theorem Sorted.exists_component (sorted : s.Sorted graph) {other : Fin n} (done : s.Done other) :
    ∃ component, s.components[s.componentOf.get other]? = some component ∧ other ∈ component := by
  obtain ⟨component, listed, here⟩ := (sorted.covered other).1 done
  obtain ⟨i, at_i⟩ := List.mem_iff_getElem?.1 listed
  refine ⟨component, ?_, here⟩
  rw [sorted.placed i component at_i other here]
  exact at_i

theorem componentOf_lt (sorted : s.Sorted graph) {other : Fin n} (done : s.Done other) :
    s.componentOf.get other < s.components.length := by
  obtain ⟨component, at_number, -⟩ := sorted.exists_component done
  exact (List.getElem?_eq_some_iff.1 at_number).1

theorem Sorted.complete (sorted : s.Sorted graph) (h : s.Disciplined graph) (member : node ∈ s.stack)
    (leads : ∀ other ∈ s.members node, ∀ successor, graph.Leads other successor →
      successor ∈ s.members node ∨ s.Done successor)
    (whole : ∀ other, other ∈ s.members node ↔ graph.Mutual node other) :
    (s.complete node).Sorted graph := by
  have apart : ∀ other, s.Done other → other ∉ s.members node :=
    fun other done here => done.2 ((mem_members h member other).1 here).1
  have new : ∀ other, other ∈ (s.members node).mergeSort (· ≤ ·) ↔ other ∈ s.members node :=
    fun _ => List.mem_mergeSort
  exact {
    closed := fun other done successor edge => by
      rw [complete_done h member, complete_componentOf, complete_componentOf]
      rcases (complete_done h member).1 done with old | here
      · obtain ⟨successorDone, before⟩ := sorted.closed other old successor edge
        rw [if_neg (apart _ old), if_neg (apart _ successorDone)]
        exact ⟨Or.inl successorDone, before⟩
      · -- The new component is the last, so an older one that it leads to has a smaller number.
        rw [if_pos here]
        rcases leads other here successor edge with inside | successorDone
        · rw [if_pos inside]
          exact ⟨Or.inr inside, Nat.le_refl _⟩
        · rw [if_neg (apart _ successorDone)]
          exact ⟨Or.inl successorDone, Nat.le_of_lt (componentOf_lt sorted successorDone)⟩
    covered := fun other => by
      rw [complete_done h member, complete_components, sorted.covered other]
      simp only [List.mem_append, List.mem_singleton, or_and_right, exists_or, exists_eq_left, new]
    placed := fun i component listed other here => by
      rw [complete_componentOf]
      rw [complete_components, List.getElem?_append] at listed
      split at listed
      next old =>
        have done : s.Done other := (sorted.covered other).2 ⟨component, List.mem_of_getElem? listed, here⟩
        rw [if_neg (apart _ done)]
        exact sorted.placed i component listed other here
      next beyond =>
        rw [List.getElem?_singleton] at listed
        split at listed
        next last =>
          cases listed
          rw [if_pos ((new other).1 here)]
          omega
        next => contradiction
    ascending := fun component listed => by
      rw [complete_components] at listed
      rcases List.mem_append.1 listed with old | fresh
      · exact sorted.ascending component old
      · rw [List.mem_singleton.1 fresh]
        have self : node ∈ s.members node := by simp [members]
        refine ⟨List.ne_nil_of_mem ((new node).2 self), ?_⟩
        have unique := h.nodup
        rw [← members_append member] at unique
        exact pairwise_lt_mergeSort (List.nodup_append.1 unique).1
    exact := fun component listed other here target => by
      rw [complete_components] at listed
      rcases List.mem_append.1 listed with old | fresh
      · exact sorted.exact component old other here target
      · rw [List.mem_singleton.1 fresh] at here ⊢
        have same := (whole other).1 ((new other).1 here)
        rw [new target, whole target]
        exact ⟨same.symm.trans, same.trans⟩ }

theorem complete_sound (sound : s.Sound graph) (frames : s.frames = ⟨node, []⟩ :: outer)
    (closes : s.low.get node = s.number node) : ((s.withFrames outer).complete node).Sound graph := by
  have h := sound.disciplined
  have member := top_mem_stack h frames
  have sorted : (s.complete node).Sorted graph := by
    refine sound.sorted.complete h member (fun other here successor leads => ?_) fun other => ?_
    · obtain ⟨onStack, later⟩ := (mem_members h member other).1 here
      rw [mem_members h member]
      exact leads_above sound frames closes onStack later leads
    · rw [mem_members h member]
      exact above_iff_mutual sound frames closes
  exact ⟨h.complete frames, sound.linked.complete h frames, looked_complete sound frames closes,
    sorted.congr (fun _ => Iff.rfl) rfl rfl⟩

end Complete

/-! ## Steps and runs -/

section Run

variable {graph : Graph n} {s : Search n} {node : Fin n} {outer : List (Frame n)}

theorem index_eq_number (h : s.Disciplined graph) (member : node ∈ s.stack) :
    s.index.get node = some (s.number node) := by
  have found := h.found node member
  cases here : s.index.get node with
  | none => exact absurd here found
  | some value => simp [number, here]

/-- A visit can end without completing a component only inside of another one. -/
theorem exists_parent (sound : s.Sound graph) (frames : s.frames = ⟨node, []⟩ :: outer)
    (further : s.low.get node < s.number node) : ∃ parent rest, outer = parent :: rest := by
  have h := sound.disciplined
  obtain ⟨earlier, member, number, -⟩ := sound.linked.back node (top_mem_stack h frames)
  obtain ⟨around, opened, before⟩ := h.rooted earlier member
  rcases (mem_path frames).1 opened with rfl | old
  · omega
  · obtain ⟨parent, inOuter, -⟩ := List.mem_map.1 old
    exact List.exists_cons_of_ne_nil (List.ne_nil_of_mem inOuter)

theorem passOn_of_closes (sound : s.Sound graph) (frames : s.frames = ⟨node, []⟩ :: outer)
    (closes : s.low.get node = s.number node) : (s.withFrames outer).passOn node = s.withFrames outer := by
  cases outer with
  | nil => rfl
  | cons parent rest =>
    -- The mode around was discovered before, and reaches back at least to itself.
    have less := parent_lt sound.disciplined frames
    have low := sound.linked.low_le parent.node (sound.disciplined.mem_stack (parent_mem_path frames))
    have same : min (s.low.get parent.node) (s.low.get node) = s.low.get parent.node := Nat.min_eq_left (by omega)
    show { s.withFrames (parent :: rest) with
      low := s.low.set parent.node (min (s.low.get parent.node) (s.low.get node)) parent.node.isLt } = s.withFrames (parent :: rest)
    rw [same, set_get_self]
    rfl

theorem leave_sound (sound : s.Sound graph) (frames : s.frames = ⟨node, []⟩ :: outer) :
    (leave (s.withFrames outer) node).Sound graph := by
  have h := sound.disciplined
  have onStack := top_mem_stack h frames
  have index := index_eq_number h onStack
  have low := sound.linked.low_le node onStack
  unfold leave
  by_cases closes : s.low.get node = s.number node
  · rw [passOn_of_closes sound frames closes]
    have condition : (s.withFrames outer).index.get node = some ((s.withFrames outer).low.get node) := by
      show s.index.get node = some (s.low.get node)
      rw [index, closes]
    rw [close, if_pos condition]
    exact complete_sound sound frames closes
  · have further : s.low.get node < s.number node := by omega
    -- The mode reaches further back, so there is a visit around it that takes over.
    obtain ⟨parent, rest, rfl⟩ := exists_parent sound frames further
    have passed : (s.withFrames (parent :: rest)).passOn node =
        (s.withFrames (parent :: rest)).lower parent.node (s.low.get node) := rfl
    have different : node ≠ parent.node := fun same => by
      have less := parent_lt h frames
      rw [same] at less
      exact Nat.lt_irrefl _ less
    have condition : ¬ ((s.withFrames (parent :: rest)).lower parent.node (s.low.get node)).index.get node =
        some (((s.withFrames (parent :: rest)).lower parent.node (s.low.get node)).low.get node) := by
      rw [lower_low, if_neg different]
      show ¬ s.index.get node = some (s.low.get node)
      rw [index, Option.some.injEq]
      omega
    rw [passed, close, if_neg condition]
    exact passOn_sound sound frames further

/-- A step looks at a successor of the innermost visit, or ends that visit. -/
theorem step_cases {t : Search n} (taken : step graph s = some t) :
    (∃ node successor pending outer, s.frames = ⟨node, successor :: pending⟩ :: outer ∧
      t = look graph (s.withFrames (⟨node, pending⟩ :: outer)) node successor) ∨
    ∃ node outer, s.frames = ⟨node, []⟩ :: outer ∧ t = leave (s.withFrames outer) node := by
  unfold step at taken
  split at taken
  next => contradiction
  next node successor pending outer frames =>
    cases taken
    exact Or.inl ⟨node, successor, pending, outer, frames, rfl⟩
  next node outer frames =>
    cases taken
    exact Or.inr ⟨node, outer, frames, rfl⟩

theorem step_sound {t : Search n} (sound : s.Sound graph) (taken : step graph s = some t) : t.Sound graph := by
  obtain ⟨node, successor, pending, outer, frames, rfl⟩ | ⟨node, outer, frames, rfl⟩ := step_cases taken
  · exact look_sound sound frames
  · exact leave_sound sound frames

theorem leave_index : (s.leave node).index = s.index := by
  have passed : (s.passOn node).index = s.index := by
    unfold passOn
    split <;> rfl
  rw [← passed]
  unfold leave close
  split <;> rfl

theorem look_found {successor other : Fin n} (found : s.Found other) : (look graph s node successor).Found other := by
  unfold look
  split
  next => exact enter_found.2 (Or.inr found)
  next =>
    split
    · exact found
    · exact found

theorem step_found {t : Search n} (taken : step graph s = some t) {other : Fin n} (found : s.Found other) :
    t.Found other := by
  obtain ⟨node, successor, pending, outer, frames, rfl⟩ | ⟨node, outer, frames, rfl⟩ := step_cases taken
  · exact look_found found
  · rw [Found, leave_index]
    exact found

theorem frames_of_step_none (stops : step graph s = none) : s.frames = [] := by
  unfold step at stops
  split at stops
  next frames => exact frames
  next => contradiction
  next => contradiction

theorem stack_of_frames_nil (h : s.Disciplined graph) (frames : s.frames = []) : s.stack = [] := by
  refine List.eq_nil_iff_forall_not_mem.2 fun node member => ?_
  obtain ⟨outer, opened, -⟩ := h.rooted node member
  simp [path, frames] at opened

/-- A search that has discovered at least some modes. -/
structure Running (graph : Graph n) (discovered : Fin n → Prop) (s : Search n) : Prop where
  sound : s.Sound graph
  found : ∀ node, discovered node → s.Found node

/-- A search between two roots. -/
structure Resting (graph : Graph n) (discovered : Fin n → Prop) (s : Search n) : Prop
    extends s.Running graph discovered where
  frames : s.frames = []

theorem step_running {discovered : Fin n → Prop} (s t : Search n) (running : s.Running graph discovered)
    (taken : step graph s = some t) : t.Running graph discovered :=
  ⟨step_sound running.sound taken, fun node known => step_found taken (running.found node known)⟩

theorem enter_running {discovered : Fin n → Prop} (resting : s.Resting graph discovered) {root : Fin n}
    (undiscovered : s.index.get root = none) :
    (s.enter graph root).Running graph fun node => node = root ∨ discovered node where
  sound := by
    have stack := stack_of_frames_nil resting.sound.disciplined resting.frames
    apply Sound.enter resting.sound.disciplined resting.sound.linked resting.sound.sorted undiscovered
    · intro outer first
      simp [path, resting.frames] at first
    · intro other member
      simp [stack] at member
  found node known := enter_found.2 (known.imp_right (resting.found node))

theorem visit_resting {discovered : Fin n → Prop} (resting : s.Resting graph discovered) (root : Fin n) :
    (visit graph s root).Resting graph fun node => node = root ∨ discovered node := by
  unfold visit
  split
  next found here =>
    refine ⟨⟨resting.sound, fun node known => ?_⟩, resting.frames⟩
    rcases known with rfl | old
    · simp [Found, here]
    · exact resting.found node old
  next undiscovered =>
    exact ⟨exhaust_induction step_running (enter_running resting undiscovered), frames_of_step_none (step_exhaust _)⟩

theorem foldl_visit_resting (roots : List (Fin n)) {discovered : Fin n → Prop}
    (resting : s.Resting graph discovered) :
    (roots.foldl (visit graph) s).Resting graph fun node => node ∈ roots ∨ discovered node := by
  induction roots generalizing s discovered with
  | nil =>
    refine ⟨⟨resting.sound, fun node known => ?_⟩, resting.frames⟩
    exact resting.found node (known.resolve_left List.not_mem_nil)
  | cons root rest ih =>
    have later := ih (visit_resting resting root)
    refine ⟨⟨later.sound, fun node known => later.found node ?_⟩, later.frames⟩
    rcases known with listed | old
    · rcases List.mem_cons.1 listed with rfl | inRest
      · exact Or.inr (Or.inl rfl)
      · exact Or.inl inRest
    · exact Or.inr (Or.inr old)

end Run

end Search

end HighlightGrammar
