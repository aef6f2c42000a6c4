import HighlightGrammar.Proofs.NormalForm
import HighlightGrammar.Swift.Expansion

/-!
# Trees of modes

The parts of a tree by kind of reference, the names in it, and trees made from one part for each reference of a
mode (`Expansion.node`).  A tree is written as the call for the mode at its root, with one item for each part.  So what
is written depends on the attributes of the modes and on the identifiers of those that the tree names, and on nothing
else.
-/

namespace HighlightGrammar

open Swift (Expr)

variable {n : Nat}

namespace Expansion

/-- What stands for the references of one kind, in order. -/
def parts : Expansion n → Relation → List (Expansion n)
  | .full _ contains _ _, .contains => contains
  | .full _ _ variants _, .variants => variants
  | .full _ _ _ starts, .starts => starts.toList
  | _, _ => []

theorem sizeOf_lt_of_mem_parts {e part : Expansion n} {relation : Relation} (member : part ∈ e.parts relation) :
    sizeOf part < sizeOf e := by
  cases e with
  | itself | named _ | shallow _ => simp [parts] at member
  | full mode contains variants starts =>
    rw [full.sizeOf_spec]
    cases relation with
    | contains | variants =>
      have less := List.sizeOf_lt_of_mem member
      simp only [parts] at less
      omega
    | starts =>
      cases Option.mem_toList.1 member
      simp only [Option.some.sizeOf_spec]
      omega

@[elab_as_elim]
theorem induction {motive : Expansion n → Prop} (itself : motive .itself) (named : ∀ mode, motive (.named mode))
    (shallow : ∀ mode, motive (.shallow mode))
    (full : ∀ mode contains variants starts,
      (∀ relation, ∀ part ∈ (full mode contains variants starts).parts relation, motive part) →
        motive (.full mode contains variants starts))
    (e : Expansion n) : motive e :=
  match e with
  | .itself => itself
  | .named mode => named mode
  | .shallow mode => shallow mode
  | .full mode contains variants starts =>
    full mode contains variants starts fun _ part _ => induction itself named shallow full part
termination_by sizeOf e
decreasing_by exact sizeOf_lt_of_mem_parts ‹_›

/-! ## The expression for a tree -/

end Expansion

/-- What is written for a reference of a kind, given the expression for the mode that it leads to. -/
def Relation.item (e : Expr) : Relation → Expr
  | .contains => .call ".mode" [e]
  | .variants | .starts => e

namespace Expansion

/-- What stands for a part that is written as `e`. -/
def link (relation : Relation) (e : Expr) : Expansion n → Expr
  | .itself => .atom ".self"
  | _ => relation.item e

theorem link_of_ne_itself {part : Expansion n} (proper : part ≠ .itself) (relation : Relation) (e : Expr) :
    part.link relation e = relation.item e := by
  cases part with
  | itself => contradiction
  | named _ | shallow _ | full _ _ _ _ => rfl

/-- The items for the parts of one kind. -/
def linkExprs (modes : Modes n) (e : Expansion n) (relation : Relation) : List Expr :=
  (e.parts relation).map fun part => part.link relation (part.expr modes)

theorem memberExprs_eq_map (modes : Modes n) (parts : List (Expansion n)) :
    memberExprs modes parts = parts.map fun e => e.member (e.expr modes) := by
  induction parts with
  | nil => rfl
  | cons first rest ih => rw [memberExprs, ih, List.map_cons]

theorem exprs_eq_map (modes : Modes n) (parts : List (Expansion n)) : exprs modes parts = parts.map (expr modes) := by
  induction parts with
  | nil => rfl
  | cons first rest ih => rw [exprs, ih, List.map_cons]

theorem member_expr (modes : Modes n) (part : Expansion n) :
    part.member (part.expr modes) = part.link .contains (part.expr modes) := by
  cases part <;> rfl

theorem expr_eq_link (modes : Modes n) (relation : Relation) (other : relation ≠ .contains) (part : Expansion n) :
    part.expr modes = part.link relation (part.expr modes) := by
  cases relation with
  | contains => contradiction
  | variants | starts =>
    cases part with
    | itself => rw [expr, link]
    | named _ | shallow _ | full _ _ _ _ => rfl

theorem expr_full (modes : Modes n) (mode : Fin n) (contains variants : List (Expansion n))
    (starts : Option (Expansion n)) :
    (full mode contains variants starts).expr modes =
      (modes.get mode).attributes.normal.call (linkExprs modes (full mode contains variants starts)) := by
  have links : Relation.among (memberExprs modes contains) (exprs modes variants) (optionExpr modes starts).toList =
      linkExprs modes (full mode contains variants starts) := by
    funext relation
    cases relation with
    | contains =>
      rw [Relation.among, memberExprs_eq_map]
      exact List.map_congr_left fun part _ => member_expr modes part
    | variants =>
      rw [Relation.among, exprs_eq_map]
      exact List.map_congr_left fun part _ => expr_eq_link modes .variants nofun part
    | starts =>
      cases starts with
      | none => rfl
      | some part => exact congrArg (fun e => [e]) (expr_eq_link modes .starts nofun part)
  rw [expr, Attributes.expr_eq_call, links]

/-- The modes that a tree refers to by name. -/
def names : Expansion n → List (Fin n)
  | .itself | .shallow _ => []
  | .named mode => [mode]
  | .full _ contains variants starts =>
    contains.flatMap names ++ variants.flatMap names ++
      match starts with
      | none => []
      | some e => e.names

theorem mem_names_full {mode target : Fin n} {contains variants : List (Expansion n)}
    {starts : Option (Expansion n)} : target ∈ (full mode contains variants starts).names ↔
      ∃ relation, ∃ part ∈ (full mode contains variants starts).parts relation, target ∈ part.names := by
  have first : target ∈ (full mode contains variants starts).names ↔ (∃ part ∈ contains, target ∈ part.names) ∨
      (∃ part ∈ variants, target ∈ part.names) ∨ ∃ part ∈ starts.toList, target ∈ part.names := by
    cases starts <;> simp [names]
  rw [first]
  constructor
  · rintro (inside | inside | inside)
    · exact ⟨.contains, inside⟩
    · exact ⟨.variants, inside⟩
    · exact ⟨.starts, inside⟩
  · rintro ⟨relation, inside⟩
    cases relation with
    | contains => exact .inl inside
    | variants => exact .inr (.inl inside)
    | starts => exact .inr (.inr inside)

theorem expr_congr {modes others : Modes n}
    (attributes : ∀ mode : Fin n, (modes.get mode).attributes = (others.get mode).attributes) (e : Expansion n)
    (ids : ∀ mode ∈ e.names, (modes.get mode).id = (others.get mode).id) : e.expr modes = e.expr others := by
  induction e using induction with
  | itself => rw [expr, expr]
  | named mode =>
    have same := ids mode (by simp [names])
    rw [expr, expr, Mode.declaredName, Mode.declaredName, same]
  | shallow mode => rw [expr, expr, attributes]
  | full mode contains variants starts ih =>
    have below : ∀ relation, ∀ e ∈ (full mode contains variants starts).parts relation,
        e.expr modes = e.expr others := fun relation e member =>
      ih relation e member fun mode named => ids mode (mem_names_full.2 ⟨relation, e, member, named⟩)
    have links : linkExprs modes (full mode contains variants starts) =
        linkExprs others (full mode contains variants starts) := by
      funext relation
      apply List.map_congr_left
      intro part member
      rw [below relation part member]
    rw [expr_full, expr_full, attributes, links]

/-! ## One part for each reference -/

/-- The tree of a mode whose references are written as told, by kind and position. -/
def node (modes : Modes n) (owner : Fin n) (part : Relation → Nat → Ref n → Expansion n) : Expansion n :=
  .full owner ((modes.get owner).contains.mapIdx (part .contains)) ((modes.get owner).variants.mapIdx (part .variants))
    ((modes.get owner).starts.map (part .starts 0))

variable {modes : Modes n} {owner : Fin n} {part : Relation → Nat → Ref n → Expansion n}

theorem parts_node (modes : Modes n) (owner : Fin n) (part : Relation → Nat → Ref n → Expansion n)
    (relation : Relation) :
    (node modes owner part).parts relation = ((modes.get owner).refs relation).mapIdx (part relation) := by
  cases relation with
  | contains | variants => rfl
  | starts =>
    rw [node, parts, Mode.refs]
    cases (modes.get owner).starts with
    | none => rfl
    | some ref => rfl

theorem node_congr {other : Relation → Nat → Ref n → Expansion n}
    (same : ∀ relation position ref, ((modes.get owner).refs relation)[position]? = some ref →
      part relation position ref = other relation position ref) :
    node modes owner part = node modes owner other := by
  have parts : ∀ relation, ((modes.get owner).refs relation).mapIdx (part relation) =
      ((modes.get owner).refs relation).mapIdx (other relation) := by
    intro relation
    apply List.ext_getElem?
    intro position
    rw [List.getElem?_mapIdx, List.getElem?_mapIdx]
    exact Option.map_congr fun ref here => same relation position ref here
  have starts : (modes.get owner).starts.map (part .starts 0) = (modes.get owner).starts.map (other .starts 0) :=
    Option.map_congr fun ref here => same .starts 0 ref (by rw [Mode.refs, here]; rfl)
  have contains := parts .contains
  have variants := parts .variants
  simp only [Mode.refs] at contains variants
  rw [node, node, contains, variants, starts]

theorem mem_names_node {target : Fin n} : target ∈ (node modes owner part).names ↔
    ∃ relation position ref, ((modes.get owner).refs relation)[position]? = some ref ∧
      target ∈ (part relation position ref).names := by
  rw [node, mem_names_full]
  change (∃ relation, ∃ e ∈ (node modes owner part).parts relation, target ∈ e.names) ↔ _
  simp only [parts_node, List.mem_iff_getElem?, List.getElem?_mapIdx, Option.map_eq_some_iff]
  constructor
  · rintro ⟨relation, _, ⟨position, ref, here, rfl⟩, named⟩
    exact ⟨relation, position, ref, here, named⟩
  · rintro ⟨relation, position, ref, here, named⟩
    exact ⟨relation, _, ⟨position, ref, here, rfl⟩, named⟩

end Expansion

end HighlightGrammar
