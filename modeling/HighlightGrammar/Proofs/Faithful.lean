import HighlightGrammar.Proofs.Calls
import HighlightGrammar.Proofs.Plan
import Mathlib.Logic.Function.Iterate

/-!
# Declarations keep the structure of a grammar

If the names in a declaration are replaced by the declarations that they stand for, again and again, then a finite
expression is left.  `Modes.Shows` says that it is the grammar as seen from the mode: a call with the attributes of the
mode and with one item for each reference, in order, which shows in turn what the reference denotes.  Only where a mode
would be written in place inside of itself are its references left out.
-/

namespace HighlightGrammar

open Swift (Expr)

variable {n : Nat}

/-! ## Replacing names -/

namespace Expansion

def replaceNames (f : Fin n → Expansion n) : Expansion n → Expansion n
  | .itself => .itself
  | .named mode => f mode
  | .shallow mode => .shallow mode
  | .full mode contains variants starts =>
    .full mode (contains.map (replaceNames f)) (variants.map (replaceNames f))
      (match starts with
        | none => none
        | some e => some (replaceNames f e))

variable {f : Fin n → Expansion n}

theorem replaceNames_full (mode : Fin n) (contains variants : List (Expansion n)) (starts : Option (Expansion n)) :
    (full mode contains variants starts).replaceNames f =
      .full mode (contains.map (replaceNames f)) (variants.map (replaceNames f)) (starts.map (replaceNames f)) := by
  cases starts <;> simp [replaceNames]

theorem parts_replaceNames_full (mode : Fin n) (contains variants : List (Expansion n)) (starts : Option (Expansion n))
    (relation : Relation) : ((full mode contains variants starts).replaceNames f).parts relation =
      ((full mode contains variants starts).parts relation).map (replaceNames f) := by
  rw [replaceNames_full]
  cases relation with
  | contains | variants => rfl
  | starts => cases starts <;> rfl

theorem replaceNames_node (modes : Modes n) (owner : Fin n) (part : Relation → Nat → Ref n → Expansion n) :
    (node modes owner part).replaceNames f =
      node modes owner fun relation position ref => (part relation position ref).replaceNames f := by
  simp only [node, replaceNames_full, map_eq_mapIdx, List.mapIdx_mapIdx, Option.map_map, Function.comp_def]

theorem replaceNames_eq_self {e : Expansion n} (same : ∀ mode ∈ e.names, f mode = .named mode) :
    e.replaceNames f = e := by
  induction e using induction with
  | itself | shallow mode => rw [replaceNames]
  | named mode => rw [replaceNames, same mode (by simp [names])]
  | full mode contains variants starts ih =>
    have fixed : ∀ relation, ∀ part ∈ (full mode contains variants starts).parts relation,
        part.replaceNames f = part := fun relation part member =>
      ih relation part member fun target named => same target (mem_names_full.2 ⟨relation, part, member, named⟩)
    have inContains : contains.map (replaceNames f) = contains :=
      (List.map_congr_left (fixed .contains)).trans (List.map_id' contains)
    have inVariants : variants.map (replaceNames f) = variants :=
      (List.map_congr_left (fixed .variants)).trans (List.map_id' variants)
    have inStarts : starts.map (replaceNames f) = starts :=
      (Option.map_congr fun e here => fixed .starts e (Option.mem_toList.2 here)).trans Option.map_id'
    rw [replaceNames_full, inContains, inVariants, inStarts]

theorem iterate_replaceNames_eq_self {e : Expansion n} (unnamed : e.names = []) (rounds : Nat) :
    (replaceNames f)^[rounds] e = e :=
  Function.iterate_fixed (replaceNames_eq_self (by simp [unnamed])) rounds

theorem iterate_replaceNames_node (modes : Modes n) (owner : Fin n)
    (part : Relation → Nat → Ref n → Expansion n) (rounds : Nat) :
    (replaceNames f)^[rounds] (node modes owner part) =
      node modes owner fun relation position ref => (replaceNames f)^[rounds] (part relation position ref) := by
  induction rounds generalizing part with
  | zero => rfl
  | succ rounds ih => simp only [Function.iterate_succ_apply, replaceNames_node, ih]

/-! ## Replacing names in texts -/

/-- The expression for a tree in which a name is written as told. -/
def exprWith (modes : Modes n) (name : Fin n → String) : Expansion n → Expr
  | .itself => .atom ".self"
  | .named mode => .atom (name mode)
  | .shallow mode => (modes.get mode).attributes.normal.call fun _ => []
  | .full mode contains variants starts =>
    (modes.get mode).attributes.normal.call <| Relation.among
      (contains.map fun e => e.link .contains (exprWith modes name e))
      (variants.map fun e => e.link .variants (exprWith modes name e))
      (match starts with
        | none => []
        | some e => [e.link .starts (exprWith modes name e)])

theorem exprWith_full (modes : Modes n) (name : Fin n → String) (mode : Fin n) (contains variants : List (Expansion n))
    (starts : Option (Expansion n)) :
    (full mode contains variants starts).exprWith modes name = (modes.get mode).attributes.normal.call fun relation =>
      ((full mode contains variants starts).parts relation).map fun part =>
        part.link relation (part.exprWith modes name) := by
  cases starts with
  | none | some _ =>
    rw [exprWith]
    congr 1
    funext relation
    cases relation <;> rfl

theorem link_replaceNames (proper : ∀ mode, f mode ≠ .itself) (e : Expansion n) (relation : Relation) (written : Expr) :
    (e.replaceNames f).link relation written = e.link relation written := by
  cases e with
  | itself => rw [replaceNames]
  | named mode =>
    rw [replaceNames, link_of_ne_itself (proper mode)]
    rfl
  | shallow mode => rw [replaceNames]
  | full mode contains variants starts =>
    rw [replaceNames_full]
    rfl

theorem render_link_congr (e : Expansion n) (relation : Relation) {written other : Expr}
    (same : written.render = other.render) : (e.link relation written).render = (e.link relation other).render := by
  cases e with
  | itself => rfl
  | named _ | shallow _ | full _ _ _ _ => simp only [link, Relation.render_item, same]

/-- Replacing the names in a tree is replacing the names in its text. -/
theorem render_replaceNames (modes : Modes n) (proper : ∀ mode, f mode ≠ .itself) (e : Expansion n) :
    ((e.replaceNames f).expr modes).render = (e.exprWith modes fun mode => ((f mode).expr modes).render).render := by
  induction e using induction with
  | itself => rw [replaceNames, expr, exprWith]
  | named mode => rw [replaceNames, exprWith, Expr.render]
  | shallow mode => rw [replaceNames, expr, exprWith, Attributes.expr_none_eq_call]
  | full mode contains variants starts ih =>
    rw [replaceNames_full, expr_full, ← replaceNames_full, exprWith_full]
    apply NormalForm.render_call_congr
    intro relation
    rw [linkExprs, parts_replaceNames_full, List.map_map, List.map_map, List.map_map]
    apply List.map_congr_left
    intro part member
    -- No name becomes a marker, so what takes the place of a part is put into the same kind of item.
    simp only [Function.comp_apply, link_replaceNames proper]
    exact render_link_congr part relation (ih relation part member)

theorem render_eq_exprWith (modes : Modes n) (e : Expansion n) :
    (e.expr modes).render = (e.exprWith modes fun mode => (modes.get mode).declaredName).render := by
  have unchanged : e.replaceNames .named = e := replaceNames_eq_self fun _ _ => rfl
  have written := render_replaceNames modes (fun _ => nofun) (f := .named) e
  simpa only [unchanged, expr, Expr.render] using written

end Expansion

/-! ## Expressions that show a mode -/

/-- Where a mode stands: in a declaration of its own, or in place inside of some modes. -/
inductive Site (n : Nat) where
  | declared
  | inside (around : List (Fin n))

namespace Site

def around : Site n → List (Fin n)
  | .declared => []
  | .inside around => around

/-- The site of what stands for a reference. -/
def below (breaks : BreakSet) (owner : Fin n) (relation : Relation) (position : Nat) (ref : Ref n) :
    Site n → Site n
  | .declared => if ref.ByName breaks owner relation position then .declared else .inside []
  | .inside around => .inside (owner :: around)

end Site

/-- An expression that shows a mode at a site: the call with its attributes, and with an item for each of its references
or, inside of itself, without any. -/
inductive Modes.Shows (modes : Modes n) (breaks : BreakSet) : Site n → Fin n → Expr → Prop where
  | shallow {site : Site n} {mode : Fin n} (again : mode ∈ site.around) :
    Shows modes breaks site mode ((modes.get mode).attributes.normal.call fun _ => [])
  | node {site : Site n} {mode : Fin n} {part : Relation → Nat → Ref n → Expr} (first : mode ∉ site.around)
    (below : ∀ relation position ref, ((modes.get mode).refs relation)[position]? = some ref →
      ¬ ref.IsMarker mode relation →
      Shows modes breaks (site.below breaks mode relation position ref) (ref.resolve mode)
        (part relation position ref)) :
    Shows modes breaks site mode ((modes.get mode).attributes.normal.call ((modes.get mode).items mode part))

namespace Expansion

variable {f : Fin n → Expansion n} {modes : Modes n} {breaks : BreakSet} {mode : Fin n}

/-- A tree without names whose expression shows a mode. -/
structure Complete (modes : Modes n) (breaks : BreakSet) (site : Site n) (mode : Fin n) (e : Expansion n) : Prop where
  names : e.names = []
  shows : modes.Shows breaks site mode (e.expr modes)

theorem Complete.ne_itself {site : Site n} {e : Expansion n} (complete : Complete modes breaks site mode e) :
    e ≠ .itself := by
  intro itself
  have shows := complete.shows
  rw [itself, expr] at shows
  cases shows

theorem Complete.node {site : Site n} {part : Relation → Nat → Ref n → Expansion n} (first : mode ∉ site.around)
    (marker : ∀ relation position ref, ((modes.get mode).refs relation)[position]? = some ref →
      ref.IsMarker mode relation → part relation position ref = .itself)
    (other : ∀ relation position ref, ((modes.get mode).refs relation)[position]? = some ref →
      ¬ ref.IsMarker mode relation →
      Complete modes breaks (site.below breaks mode relation position ref) (ref.resolve mode)
        (part relation position ref)) :
    Complete modes breaks site mode (node modes mode part) where
  names := by
    rw [List.eq_nil_iff_forall_not_mem]
    intro target named
    obtain ⟨relation, position, ref, here, inside⟩ := mem_names_node.1 named
    by_cases marked : ref.IsMarker mode relation
    · rw [marker relation position ref here marked] at inside
      simp [Expansion.names] at inside
    · rw [(other relation position ref here marked).names] at inside
      contradiction
  shows := by
    -- What shows a mode is a call, so no part but that of a marker is one.
    have marked : ∀ relation position ref, ((modes.get mode).refs relation)[position]? = some ref →
        (part relation position ref = .itself ↔ ref.IsMarker mode relation) := by
      intro relation position ref here
      refine ⟨fun itself => ?_, marker relation position ref here⟩
      by_contra unmarked
      exact (other relation position ref here unmarked).ne_itself itself
    rw [expr_node modes marked]
    exact .node first fun relation position ref here unmarked => (other relation position ref here unmarked).shows

theorem complete_unfolded (modes : Modes n) (breaks : BreakSet) {opened : OpenModes} {around : List (Fin n)}
    (same : ∀ other : Fin n, other.val ∈ opened ↔ other ∈ around) (mode : Fin n) :
    Complete modes breaks (.inside around) mode (unfolded modes opened mode) := by
  fun_induction unfolded modes opened mode generalizing around with
  | case1 opened mode closed ih =>
    refine .node (fun inside => closed ((same mode).2 inside)) ?_ ?_
    · intro relation position ref _ marker
      exact if_pos marker
    · intro relation position ref _ unmarked
      rw [if_neg unmarked]
      -- What is open below the mode is the mode itself and what was open around it.
      refine ih ref fun other => ?_
      rw [SortedSet.mem_insert, List.mem_cons, same, Fin.ext_iff]
  | case2 opened mode again =>
    refine ⟨by rw [names], ?_⟩
    rw [expr, Attributes.expr_none_eq_call]
    exact .shallow ((same mode).1 (Decidable.not_not.1 again))

theorem complete_declaration {rounds : Nat}
    (named : ∀ target, (Graph.ofModes modes).Depends breaks mode target →
      Complete modes breaks .declared target ((replaceNames f)^[rounds] (.named target))) :
    Complete modes breaks .declared mode ((replaceNames f)^[rounds] (declaration modes breaks mode)) := by
  rw [declaration_eq_node, iterate_replaceNames_node]
  refine .node (by simp [Site.around]) ?_ ?_
  · intro relation position ref _ marker
    rw [declaredPart, if_pos marker]
    exact iterate_replaceNames_eq_self (by rw [names]) rounds
  · intro relation position ref here unmarked
    rw [declaredPart, if_neg unmarked, Site.below]
    by_cases byName : ref.ByName breaks mode relation position
    · rw [if_pos byName, if_pos byName]
      exact named _ (byName.depends here)
    · rw [if_neg byName, if_neg byName, iterate_replaceNames_eq_self (names_unfolded modes ∅ _)]
      exact complete_unfolded modes breaks (by simp) (ref.resolve mode)

section Order

variable (empty : (Schedule.ofGraph (Graph.ofModes modes) breaks).residual = [])

include empty

/-- It takes no more rounds than there are modes earlier in the order. -/
theorem complete_iterate (rounds : Nat) (mode : Fin n)
    (enough : (Schedule.ofGraph (Graph.ofModes modes) breaks).order.idxOf mode ≤ rounds) :
    Complete modes breaks .declared mode
      ((replaceNames (declaration modes breaks))^[rounds] (declaration modes breaks mode)) := by
  induction rounds generalizing mode with
  | zero =>
    -- The first mode in the order names no other.
    refine complete_declaration fun target depends => ?_
    have less := Schedule.idxOf_lt_of_depends empty depends
    omega
  | succ rounds ih =>
    refine complete_declaration fun target depends => ?_
    have less := Schedule.idxOf_lt_of_depends empty depends
    rw [Function.iterate_succ_apply, replaceNames]
    exact ih target (by omega)

theorem complete_of_size_le (mode : Fin n) {rounds : Nat} (enough : n ≤ rounds) :
    Complete modes breaks .declared mode
      ((replaceNames (declaration modes breaks))^[rounds] (declaration modes breaks mode)) := by
  apply complete_iterate empty
  have length := (Schedule.order_perm (Graph.ofModes modes) breaks).length_eq
  rw [List.length_finRange] at length
  exact Nat.le_trans List.idxOf_le_length (length.symm ▸ enough)

theorem iterate_replaceNames_stable (mode : Fin n) {rounds : Nat} (enough : n ≤ rounds) :
    (replaceNames (declaration modes breaks))^[rounds] (declaration modes breaks mode) =
      (replaceNames (declaration modes breaks))^[n] (declaration modes breaks mode) := by
  obtain ⟨more, rfl⟩ := Nat.exists_eq_add_of_le' enough
  rw [Function.iterate_add_apply]
  exact iterate_replaceNames_eq_self (complete_of_size_le empty mode (Nat.le_refl n)).names more

end Order

/-- Replacing the names in a declaration comes to an end, in an expression that shows its mode.  It is the same in trees
and in texts; and a call that makes a mode tells its attributes and items, and lists the items in its text. -/
theorem declarations_faithful (grammar : Grammar) (mode : Fin grammar.size) :
    let modes := grammar.modes
    let breaks := (Plan.ofModes modes).breaks
    let declared := declaration modes breaks
    (∃ tree, (∀ rounds ≥ grammar.size, (replaceNames declared)^[rounds] (declared mode) = tree) ∧ tree.names = [] ∧
      modes.Shows breaks .declared mode (tree.expr modes)) ∧
    Swift.declarationText modes breaks mode =
      ((declared mode).exprWith modes fun target => (modes.get target).declaredName).render ∧
    (∀ e : Expansion grammar.size, ((e.replaceNames declared).expr modes).render =
      (e.exprWith modes (Swift.declarationText modes breaks)).render) ∧
    ∀ (form : NormalForm) (items : Relation → List Expr), form.Renders items (form.call items).render ∧
      ∀ other others, other.call others = form.call items → other = form ∧ others = items := by
  intro modes breaks declared
  have residual : (Schedule.ofGraph (Graph.ofModes modes) breaks).residual = [] := Plan.residual_ofModes modes
  have complete := complete_of_size_le residual mode (Nat.le_refl _)
  refine ⟨⟨_, fun rounds enough => iterate_replaceNames_stable residual mode enough, complete.names, complete.shows⟩,
    ?_, fun e => ?_, fun form items => ⟨form.renders_call items, fun other others same => ?_⟩⟩
  · exact render_eq_exprWith modes (declared mode)
  · exact render_replaceNames modes (fun _ => by simp [declared, declaration]) e
  · exact NormalForm.call_injective same

end Expansion

end HighlightGrammar
