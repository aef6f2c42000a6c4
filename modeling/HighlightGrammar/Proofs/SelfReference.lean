import HighlightGrammar.Generate.Text
import HighlightGrammar.Proofs.Breaks
import HighlightGrammar.Proofs.Targets

/-!
# Two ways for a mode to refer to itself

A mode refers to itself by the marker or by its own position.  Where one of these stands in place of the other, any
number of times, the plan is the same, and so is everything that is written.
-/

namespace HighlightGrammar

variable {n : Nat}

/-- A reference of a mode and what stands in its place: the same, or the other way to refer to the mode itself. -/
inductive Ref.Exchanged (owner : Fin n) : Ref n → Ref n → Prop where
  | same (ref : Ref n) : Exchanged owner ref ref
  | byPosition : Exchanged owner .itself (.mode owner)
  | byMarker : Exchanged owner (.mode owner) .itself

/-- The same mode, with other ways to refer to itself. -/
structure Mode.Exchanged (owner : Fin n) (mode other : Mode n) : Prop where
  id : other.id = mode.id
  attributes : other.attributes = mode.attributes
  contains : List.Forall₂ (Ref.Exchanged owner) mode.contains other.contains
  variants : List.Forall₂ (Ref.Exchanged owner) mode.variants other.variants
  starts : Option.Rel (Ref.Exchanged owner) mode.starts other.starts

def Modes.Exchanged (modes others : Modes n) : Prop :=
  ∀ owner : Fin n, (modes.get owner).Exchanged owner (others.get owner)

theorem Ref.Exchanged.target?_eq {owner : Fin n} {ref other : Ref n} (exchanged : ref.Exchanged owner other) :
    ref.target? owner = other.target? owner := by
  cases exchanged with
  | same => rfl
  | byPosition => simp [Ref.target?]
  | byMarker => simp [Ref.target?]

theorem Mode.Exchanged.refs {owner : Fin n} {mode other : Mode n} (exchanged : mode.Exchanged owner other)
    (relation : Relation) : List.Forall₂ (Ref.Exchanged owner) (mode.refs relation) (other.refs relation) := by
  cases relation with
  | contains => exact exchanged.contains
  | variants => exact exchanged.variants
  | starts => exact forall₂_toList exchanged.starts

namespace Modes.Exchanged

variable {modes others : Modes n} (exchanged : modes.Exchanged others)

include exchanged

theorem sameTargets : modes.SameTargets others := by
  intro owner relation
  have pointwise := ((exchanged owner).refs relation).imp fun _ _ => Ref.Exchanged.target?_eq
  rw [← List.forall₂_eq_eq_eq, List.forall₂_map_left_iff, List.forall₂_map_right_iff]
  exact pointwise

theorem plan_eq : Plan.ofModes modes = Plan.ofModes others :=
  Plan.ofModes_congr exchanged.sameTargets fun mode => by rw [(exchanged mode).attributes]

/-- What is written for a tree does not tell the modes apart. -/
theorem expr_eq (e : Expansion n) : e.expr modes = e.expr others :=
  Expansion.expr_congr (fun mode => (exchanged mode).attributes.symm) e fun mode _ => (exchanged mode).id.symm

theorem declarationText_eq (breaks : BreakSet) (mode : Fin n) :
    Swift.declarationText modes breaks mode = Swift.declarationText others breaks mode := by
  rw [Swift.declarationText, Swift.declarationText, Expansion.declaration_congr exchanged.sameTargets,
    exchanged.expr_eq]

theorem declarationLines_eq (breaks : BreakSet) :
    Swift.declarationLines modes breaks = Swift.declarationLines others breaks := by
  funext mode
  rw [Swift.declarationLines, Swift.declarationLines, exchanged.declarationText_eq, Mode.declaredName,
    Mode.declaredName, (exchanged mode).id]

theorem arguments_eq (language : Language n) (lang : String) :
    language.arguments modes lang = language.arguments others lang := by
  have members : Language.memberExpr modes = Language.memberExpr others := by
    funext ref
    cases ref with
    | itself => rfl
    | mode index =>
      rw [Language.memberExpr, Language.memberExpr, Mode.declaredName, Mode.declaredName, (exchanged index).id]
  rw [Language.arguments, Language.arguments, members]

theorem render_eq (version : Nat) (language : Language n) (target : Target) (plan : Plan n) :
    target.render ⟨n, version, language, modes⟩ plan = target.render ⟨n, version, language, others⟩ plan := by
  have ids : (fun mode : Fin n => (modes.get mode).id) = fun mode => (others.get mode).id := by
    funext mode
    exact (exchanged mode).id.symm
  simp only [Target.render, Swift.fileText, Swift.fileLines, exchanged.declarationLines_eq, exchanged.arguments_eq, ids]

end Modes.Exchanged

/-- Whether a mode refers to itself by the marker or by its position is seen neither in the plan nor in anything that is
written. -/
theorem Modes.exchanged_alike (modes others : Modes n) (exchanged : modes.Exchanged others) :
    Plan.ofModes modes = Plan.ofModes others ∧
    (∀ breaks mode, Swift.declarationText modes breaks mode = Swift.declarationText others breaks mode) ∧
    (∀ (opened : OpenModes) (mode : Fin n),
      (Expansion.inPlace modes mode opened).after = (Expansion.inPlace others mode opened).after ∧
      ((Expansion.inPlace modes mode opened).value.expr modes).render =
        ((Expansion.inPlace others mode opened).value.expr others).render) ∧
    ∀ (version : Nat) (language : Language n) (target : Target),
      target.render ⟨n, version, language, modes⟩ (Plan.ofModes modes) =
        target.render ⟨n, version, language, others⟩ (Plan.ofModes others) := by
  refine ⟨exchanged.plan_eq, exchanged.declarationText_eq, fun opened mode => ?_, fun version language target => ?_⟩
  · obtain ⟨value, after⟩ := Expansion.inPlace_gives modes mode opened
    obtain ⟨otherValue, otherAfter⟩ := Expansion.inPlace_gives others mode opened
    refine ⟨after.trans otherAfter.symm, ?_⟩
    rw [value, otherValue, Expansion.unfolded_congr exchanged.sameTargets, exchanged.expr_eq]
  · rw [exchanged.plan_eq, exchanged.render_eq]

/-- Two modes that contain one another and refer to themselves in every way. -/
def entwinedModes : Modes 2 :=
  #v[⟨"text", .scoped "string", [.itself, .mode 1, .mode 0], [.itself], some (.mode 0)⟩,
    ⟨"value", .scoped "subst", [.mode 0, .itself], [.mode 1, .itself], some .itself⟩]

/-- The same modes with most of these references made the other way. -/
def exchangedModes : Modes 2 :=
  #v[⟨"text", .scoped "string", [.mode 0, .mode 1, .itself], [.itself], some .itself⟩,
    ⟨"value", .scoped "subst", [.mode 0, .mode 1], [.itself, .mode 1], some (.mode 1)⟩]

theorem Modes.exchanged_alike_entwinedModes : entwinedModes ≠ exchangedModes ∧
    Plan.ofModes entwinedModes = Plan.ofModes exchangedModes := by
  have exchanged : entwinedModes.Exchanged exchangedModes := by
    intro owner
    match owner with
    | 0 =>
      exact ⟨rfl, rfl, .cons .byPosition (.cons (.same _) (.cons .byMarker .nil)), .cons (.same _) .nil,
        .some .byMarker⟩
    | 1 =>
      exact ⟨rfl, rfl, .cons (.same _) (.cons .byPosition .nil), .cons .byMarker (.cons .byPosition .nil),
        .some .byPosition⟩
  exact ⟨by decide, (exchanged_alike entwinedModes exchangedModes exchanged).1⟩

end HighlightGrammar
