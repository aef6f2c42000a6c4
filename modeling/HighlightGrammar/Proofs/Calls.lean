import HighlightGrammar.Proofs.Unfolding

/-!
# Calls that make modes, and their texts

What a mode is written as holds one item for each of its references, in order: the marker, or what stands for the mode
that the reference leads to.  In the text these items are listed in the argument for their kind.
-/

namespace HighlightGrammar

open Swift (Expr)

variable {n : Nat}

/-! ## Texts -/

namespace Relation

/-- What stands before the items in the text of the argument for references of a kind. -/
def opening : Relation → String
  | .contains => "contains: ["
  | .variants => "variants: HLJS.variants(["
  | .starts => "starts: ModeBox("

/-- What stands after the items. -/
def closing : Relation → String
  | .contains => "]"
  | .variants => "])"
  | .starts => ")"

/-- The text of the argument for references of a kind, given the texts of its items. -/
def argumentText (relation : Relation) (items : List String) : String :=
  relation.opening ++ ", ".intercalate items ++ relation.closing

/-- The text of an item, given the text for the mode that the reference leads to. -/
def itemText (text : String) : Relation → String
  | .contains => ".mode(" ++ text ++ ")"
  | .variants | .starts => text

theorem render_item (relation : Relation) (e : Expr) : (relation.item e).render = relation.itemText e.render := by
  cases relation with
  | contains => simp [item, itemText, Expr.render, Expr.renderAll]
  | variants | starts => rfl

theorem render_gather (relation : Relation) (items : List Expr) :
    (Expr.entry (.atom relation.name) (relation.gather items)).render =
      relation.argumentText (items.map Expr.render) := by
  rw [Expr.render, Expr.render, argumentText]
  cases relation with
  | contains =>
    have opens : opening .contains = "contains" ++ ": " ++ "[" := by decide
    rw [gather, name, opens, closing, Expr.render, Expr.renderAll_eq_map]
    simp only [String.append_assoc]
  | variants =>
    have opens : opening .variants = "variants" ++ ": " ++ ("HLJS.variants" ++ "(" ++ "[") := by decide
    have closes : closing .variants = "]" ++ ")" := by decide
    rw [gather, name, opens, closes, Expr.render, Expr.renderAll, Expr.render, Expr.renderAll_eq_map]
    simp only [Expr.renderAll, String.intercalate_singleton, String.append_assoc]
  | starts =>
    have opens : opening .starts = "starts" ++ ": " ++ ("ModeBox" ++ "(") := by decide
    rw [gather, name, opens, closing, Expr.render, Expr.renderAll_eq_map]
    simp only [String.append_assoc]

end Relation

namespace NormalForm

/-- The text of the argument for a field, if it has a value. -/
def argumentText? (field : String × Option Expr) : Option String :=
  field.2.map fun value => (Expr.entry (.atom field.1) value).render

/-- The texts of the arguments of a call. -/
def argumentTexts (form : NormalForm) (items : Relation → List Expr) : List String :=
  (form.fields items).filterMap argumentText?

/-- The text of a call that makes a mode.  Its arguments list the items of each kind, in order. -/
structure Renders (form : NormalForm) (items : Relation → List Expr) (text : String) : Prop where
  whole : text = "Mode(" ++ ", ".intercalate (form.argumentTexts items) ++ ")"
  listed : ∀ relation, items relation ≠ [] →
    relation.argumentText ((items relation).map Expr.render) ∈ form.argumentTexts items

theorem render_call (form : NormalForm) (items : Relation → List Expr) :
    (form.call items).render = "Mode(" ++ ", ".intercalate (form.argumentTexts items) ++ ")" := by
  have texts : (labelled (form.fields items)).map Expr.render = form.argumentTexts items := by
    rw [labelled, List.map_filterMap, argumentTexts]
    apply List.filterMap_congr
    intro field _
    rw [Option.map_map]
    rfl
  rw [call, Expr.render, Expr.renderAll_eq_map, texts]
  rfl

theorem field_mem_fields (form : NormalForm) (items : Relation → List Expr) (relation : Relation) :
    relation.field (items relation) ∈ form.fields items := by
  cases relation <;> simp [fields]

theorem argumentText?_field (relation : Relation) (items : List Expr) :
    argumentText? (relation.field items) =
      if (items.map Expr.render).isEmpty then none else some (relation.argumentText (items.map Expr.render)) := by
  rw [argumentText?, Relation.field, List.isEmpty_map]
  split
  next => rfl
  next => exact congrArg some (relation.render_gather items)

theorem renders_call (form : NormalForm) (items : Relation → List Expr) :
    form.Renders items (form.call items).render where
  whole := form.render_call items
  listed relation given := by
    refine List.mem_filterMap.2 ⟨_, form.field_mem_fields items relation, ?_⟩
    simp [argumentText?_field, given]

/-- The text of a call depends on no more than the texts of its items. -/
theorem render_call_congr (form : NormalForm) {items others : Relation → List Expr}
    (same : ∀ relation, (items relation).map Expr.render = (others relation).map Expr.render) :
    (form.call items).render = (form.call others).render := by
  -- The attributes have the same fields on both sides, so only those of the references have to be looked at.
  have fields : (form.fields items).map argumentText? = (form.fields others).map argumentText? := by
    simp only [fields, List.map_cons, argumentText?_field, same]
  have texts : form.argumentTexts items = form.argumentTexts others := by
    have given := congrArg (List.filterMap id) fields
    rwa [List.filterMap_map, List.filterMap_map] at given
  rw [render_call, render_call, texts]

end NormalForm

/-! ## Trees -/

/-- What is written for the references of a mode, given the expressions for the modes that they lead to.  A mode that
contains itself does so by the marker. -/
def Mode.items (mode : Mode n) (owner : Fin n) (part : Relation → Nat → Ref n → Expr) (relation : Relation) :
    List Expr :=
  (mode.refs relation).mapIdx fun position ref =>
    if ref.IsMarker owner relation then .atom ".self" else relation.item (part relation position ref)

namespace Expansion

theorem expr_node (modes : Modes n) {owner : Fin n} {part : Relation → Nat → Ref n → Expansion n}
    (marked : ∀ relation position ref, ((modes.get owner).refs relation)[position]? = some ref →
      (part relation position ref = .itself ↔ ref.IsMarker owner relation)) :
    (node modes owner part).expr modes = (modes.get owner).attributes.normal.call
      ((modes.get owner).items owner fun relation position ref => (part relation position ref).expr modes) := by
  have links : (node modes owner part).linkExprs modes =
      (modes.get owner).items owner fun relation position ref => (part relation position ref).expr modes := by
    funext relation
    rw [linkExprs, parts_node, Mode.items]
    apply List.ext_getElem?
    intro position
    rw [List.getElem?_map, List.getElem?_mapIdx, List.getElem?_mapIdx, Option.map_map]
    apply Option.map_congr
    intro ref here
    rw [Function.comp_apply]
    by_cases marker : ref.IsMarker owner relation
    · rw [if_pos marker, (marked relation position ref here).2 marker, link]
    · rw [if_neg marker, link_of_ne_itself fun itself => marker ((marked relation position ref here).1 itself)]
  rw [← links]
  exact expr_full modes owner _ _ _

theorem unfolded_ne_itself (modes : Modes n) (opened : OpenModes) (mode : Fin n) :
    unfolded modes opened mode ≠ .itself := by
  rw [unfolded]
  split
  next => simp [node]
  next => simp

theorem declaredPart_eq_itself {modes : Modes n} {breaks : BreakSet} {owner : Fin n} {relation : Relation}
    {position : Nat} {ref : Ref n} :
    declaredPart modes breaks owner relation position ref = .itself ↔ ref.IsMarker owner relation := by
  rw [declaredPart]
  split
  next marker => simp [marker]
  next unmarked =>
    split
    next => simp [unmarked]
    next => simp [unmarked, unfolded_ne_itself]

/-- A declaration is the call for its mode, with what stands in the declaration for each reference. -/
theorem expr_declaration (modes : Modes n) (breaks : BreakSet) (mode : Fin n) :
    (declaration modes breaks mode).expr modes = (modes.get mode).attributes.normal.call
      ((modes.get mode).items mode fun relation position ref =>
        (declaredPart modes breaks mode relation position ref).expr modes) := by
  rw [declaration_eq_node]
  exact expr_node modes fun relation position ref _ => declaredPart_eq_itself

end Expansion

end HighlightGrammar
