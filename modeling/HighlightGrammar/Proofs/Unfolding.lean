import HighlightGrammar.Proofs.Collections
import HighlightGrammar.Proofs.Reachability
import HighlightGrammar.Proofs.Trees

/-!
# Modes written in place, without the bookkeeping

`Expansion.unfolded` says what is written in place of a mode while some modes are open, without handing the open
modes from one reference to the next.  `inPlace` gives the same tree and leaves the open modes as they were, so
what is written for one reference does not depend on what was written before it.
-/

namespace HighlightGrammar

variable {n : Nat}

namespace Written

/-- The value was written, and the open modes are left as they were. -/
def Gives {α : Type} {before : OpenModes} (written : Written α before) (value : α) : Prop :=
  written.value = value ∧ written.after = before

theorem each_gives {α β : Type} {before base : OpenModes}
    {write : (now : OpenModes) → (∀ mode ∈ before, mode ∈ now) → α → Written β now} {f : α → β}
    (gives : ∀ kept element, (write base kept element).Gives (f element)) (elements : List α)
    (now : OpenModes) (same : now = base) (kept : ∀ mode ∈ before, mode ∈ now) :
    (each write now kept elements).Gives (elements.map f) := by
  induction elements generalizing now with
  | nil => exact ⟨rfl, rfl⟩
  | cons head rest ih =>
    subst same
    obtain ⟨value, after⟩ := gives kept head
    obtain ⟨values, afterAll⟩ := ih (write now kept head).after after fun mode inside =>
      (write now kept head).kept mode (kept mode inside)
    refine ⟨?_, afterAll.trans after⟩
    rw [each, List.map_cons, ← value, ← values]

end Written

/-- A contained reference of a mode to itself, which is written as a marker. -/
def Ref.IsMarker (owner : Fin n) (relation : Relation) (ref : Ref n) : Prop :=
  relation = .contains ∧ ref.target? owner = none

instance (owner : Fin n) (relation : Relation) (ref : Ref n) : Decidable (ref.IsMarker owner relation) :=
  inferInstanceAs (Decidable (_ ∧ _))

namespace Expansion

def unfolded (modes : Modes n) (opened : OpenModes) (mode : Fin n) : Expansion n :=
  if _ : mode.val ∉ opened then
    node modes mode fun relation _ ref =>
      if ref.IsMarker mode relation then .itself else unfolded modes (opened.insert mode.val) (ref.resolve mode)
  else .shallow mode
termination_by OpenModes.closedCount n opened
decreasing_by exact OpenModes.closedCount_insert_lt ‹_›

/-- The references of a mode that is not open, each with the same open modes. -/
theorem unfolded_of_closed (modes : Modes n) {opened : OpenModes} {mode : Fin n} (closed : mode.val ∉ opened) :
    unfolded modes opened mode = .full mode
      ((modes.get mode).contains.map fun ref =>
        if ref.IsMarker mode .contains then .itself else unfolded modes (opened.insert mode.val) (ref.resolve mode))
      ((modes.get mode).variants.map fun ref => unfolded modes (opened.insert mode.val) (ref.resolve mode))
      ((modes.get mode).starts.map fun ref => unfolded modes (opened.insert mode.val) (ref.resolve mode)) := by
  rw [unfolded, dif_pos closed, node, map_eq_mapIdx, map_eq_mapIdx]
  simp only [Ref.IsMarker, reduceCtorEq, false_and, if_false]

theorem inPlace_gives (modes : Modes n) (mode : Fin n) (opened : OpenModes) :
    (inPlace modes mode opened).Gives (unfolded modes opened mode) := by
  fun_induction unfolded modes opened mode with
  | case1 opened mode closed ih =>
    rw [inPlace, dif_pos closed]
    extract_lets inside entry member contains variants keptVariants starts
    have entries : ∀ kept ref, (entry inside kept ref).Gives (unfolded modes inside (ref.resolve mode)) :=
      fun _ ref => ih ref
    have members : ∀ kept ref, (member inside kept ref).Gives
        (if ref.IsMarker mode .contains then .itself else unfolded modes inside (ref.resolve mode)) := by
      intro kept ref
      simp only [member, Ref.IsMarker, true_and]
      cases ref.target? mode with
      | none => exact ⟨rfl, rfl⟩
      | some target => exact entries kept ref
    -- Each list starts with the open modes that the one before it has left, and these are the same.
    have containsGives : contains.Gives _ := Written.each_gives members _ inside rfl _
    have variantsGives : variants.Gives _ := Written.each_gives entries _ contains.after containsGives.2 _
    have startsGives : starts.Gives _ :=
      Written.each_gives entries _ variants.after (variantsGives.2.trans containsGives.2) _
    constructor
    · have head : starts.value.head? =
          (modes.get mode).starts.map fun ref => unfolded modes inside (ref.resolve mode) := by
        rw [startsGives.1]
        cases (modes.get mode).starts with
        | none => rfl
        | some ref => rfl
      change full mode contains.value variants.value starts.value.head? = _
      rw [containsGives.1, variantsGives.1, head, ← unfolded_of_closed modes closed, unfolded, dif_pos closed]
    · change starts.after.erase mode.val = opened
      rw [startsGives.2, variantsGives.2, containsGives.2]
      exact SortedSet.erase_insert closed
  | case2 opened mode again =>
    rw [inPlace, dif_neg again]
    exact ⟨rfl, rfl⟩

theorem alone_eq_unfolded (modes : Modes n) (mode : Fin n) : alone modes mode = unfolded modes ∅ mode :=
  (inPlace_gives modes mode ∅).1

theorem names_unfolded (modes : Modes n) (opened : OpenModes) (mode : Fin n) :
    (unfolded modes opened mode).names = [] := by
  fun_induction unfolded modes opened mode with
  | case1 opened mode closed ih =>
    rw [List.eq_nil_iff_forall_not_mem]
    intro target named
    obtain ⟨relation, position, ref, -, inside⟩ := mem_names_node.1 named
    split at inside
    next => simp [names] at inside
    next => simp [ih ref] at inside
  | case2 opened mode again => rw [names]

end Expansion

/-! ## Declarations -/

/-- A reference to another mode that is not broken. -/
def Ref.ByName (breaks : BreakSet) (owner : Fin n) (relation : Relation) (position : Nat) (ref : Ref n) : Prop :=
  (ref.target? owner).isSome ∧ (⟨owner, relation, position⟩ : EdgeKey) ∉ breaks

instance (breaks : BreakSet) (owner : Fin n) (relation : Relation) (position : Nat) (ref : Ref n) :
    Decidable (ref.ByName breaks owner relation position) :=
  inferInstanceAs (Decidable (_ ∧ _))

theorem Ref.ByName.of_target? {breaks : BreakSet} {owner target : Fin n} {relation : Relation} {position : Nat}
    {ref : Ref n} (found : ref.target? owner = some target)
    (kept : (⟨owner, relation, position⟩ : EdgeKey) ∉ breaks) : ref.ByName breaks owner relation position :=
  ⟨by rw [found]; rfl, kept⟩

theorem Ref.ByName.depends {modes : Modes n} {breaks : BreakSet} {owner : Fin n} {relation : Relation}
    {position : Nat} {ref : Ref n} (here : ((modes.get owner).refs relation)[position]? = some ref)
    (named : ref.ByName breaks owner relation position) :
    (Graph.ofModes modes).Depends breaks owner (ref.resolve owner) := by
  obtain ⟨target, found⟩ := Option.isSome_iff_exists.1 named.1
  rw [resolve_of_target? found]
  exact ⟨⟨owner, relation, position, target⟩, Graph.mem_edgesFrom_ofModes.2 ⟨rfl, ref, here, found⟩, named.2, rfl⟩

namespace Expansion

def declaredPart (modes : Modes n) (breaks : BreakSet) (owner : Fin n) (relation : Relation) (position : Nat)
    (ref : Ref n) : Expansion n :=
  if ref.IsMarker owner relation then .itself
  else if ref.ByName breaks owner relation position then .named (ref.resolve owner)
  else unfolded modes ∅ (ref.resolve owner)

theorem reference_eq (modes : Modes n) (breaks : BreakSet) (owner : Fin n) (relation : Relation) (position : Nat)
    (ref : Ref n) : reference modes breaks owner relation (ref, position) =
      if ref.ByName breaks owner relation position then .named (ref.resolve owner)
      else unfolded modes ∅ (ref.resolve owner) := by
  cases found : ref.target? owner with
  | none => simp [reference, Ref.ByName, Ref.resolve, found, alone_eq_unfolded]
  | some target => simp [reference, Ref.ByName, Ref.resolve, found, alone_eq_unfolded]

theorem declaration_eq_node (modes : Modes n) (breaks : BreakSet) (mode : Fin n) :
    declaration modes breaks mode = node modes mode (declaredPart modes breaks mode) := by
  have contained : containedReference modes breaks mode =
      fun entry => declaredPart modes breaks mode .contains entry.2 entry.1 := by
    funext ⟨ref, position⟩
    simp only [containedReference, declaredPart, Ref.IsMarker, true_and]
    cases found : ref.target? mode with
    | none => rfl
    | some target => exact reference_eq modes breaks mode .contains position ref
  have other : ∀ relation, relation ≠ .contains → reference modes breaks mode relation =
      fun entry => declaredPart modes breaks mode relation entry.2 entry.1 := by
    intro relation ne
    funext ⟨ref, position⟩
    rw [declaredPart, if_neg fun marker => ne marker.1, reference_eq]
  simp only [declaration, node, List.mapIdx_eq_zipIdx_map, contained, other .variants nofun, other .starts nofun]

end Expansion

end HighlightGrammar
