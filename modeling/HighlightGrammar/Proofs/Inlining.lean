import HighlightGrammar.Proofs.Unfolding

/-!
# What is written in place depends on the open modes alone

One set of open modes is handed through all the references of a mode and of the modes below it.  It comes back as it
was, and what is written is `Expansion.inlineExpr`, in which every reference is given the same set.  So modes that are
written in place one after another have no influence on one another.
-/

namespace HighlightGrammar

open Swift (Expr)

variable {n : Nat}

namespace Expansion

/-- The expression for a mode in place.  An open mode is written without its references.  Otherwise it is open for
what stands inside of it: among contained modes its references to itself are markers, all other references are
written in place. -/
def inlineExpr (modes : Modes n) (opened : OpenModes) (mode : Fin n) : Expr :=
  if _ : mode.val ∉ opened then
    (modes.get mode).attributes.expr <| .ofParts
      ((modes.get mode).contains.map fun ref =>
        if ref.target? mode = none then .atom ".self"
        else .call ".mode" [inlineExpr modes (opened.insert mode.val) (ref.resolve mode)])
      ((modes.get mode).variants.map fun ref => inlineExpr modes (opened.insert mode.val) (ref.resolve mode))
      ((modes.get mode).starts.map fun ref => inlineExpr modes (opened.insert mode.val) (ref.resolve mode))
  else (modes.get mode).attributes.expr .none
termination_by OpenModes.closedCount n opened
decreasing_by all_goals exact OpenModes.closedCount_insert_lt ‹_›

/-- What stands among contained modes for a mode that is written in place. -/
theorem member_unfolded (modes : Modes n) (opened : OpenModes) (mode : Fin n) (e : Expr) :
    (unfolded modes opened mode).member e = .call ".mode" [e] := by
  by_cases closed : mode.val ∉ opened
  · rw [unfolded_of_closed modes closed]
    rfl
  · rw [unfolded, dif_neg closed]
    rfl

theorem expr_unfolded (modes : Modes n) (opened : OpenModes) (mode : Fin n) :
    (unfolded modes opened mode).expr modes = inlineExpr modes opened mode := by
  fun_induction inlineExpr modes opened mode with
  | case1 opened mode closed ih =>
    have members : ((fun e => e.member (e.expr modes)) ∘ fun ref : Ref n =>
          if ref.IsMarker mode .contains then .itself
          else unfolded modes (opened.insert mode.val) (ref.resolve mode)) =
        fun ref => if ref.target? mode = none then .atom ".self"
          else .call ".mode" [inlineExpr modes (opened.insert mode.val) (ref.resolve mode)] := by
      funext ref
      by_cases own : ref.target? mode = none
      · simp [Ref.IsMarker, own, member]
      · simp [Ref.IsMarker, own, member_unfolded, ih]
    rw [unfolded_of_closed modes closed, expr, memberExprs_eq_map, exprs_eq_map, List.map_map, List.map_map, members]
    cases (modes.get mode).starts with
    | none => simp [optionExpr, ih, Function.comp_def]
    | some ref => simp [optionExpr, ih, Function.comp_def]
  | case2 opened mode again => rw [unfolded, dif_neg again, expr]

theorem inTurn_eq_map (modes : Modes n) (opened : OpenModes) (siblings : List (Fin n)) :
    inTurn modes opened siblings = siblings.map fun sibling => (unfolded modes opened sibling, opened) := by
  induction siblings with
  | nil => rfl
  | cons sibling rest ih =>
    obtain ⟨value, after⟩ := inPlace_gives modes sibling opened
    rw [inTurn, value, after, ih, List.map_cons]

/-- A mode is written in place as the open modes say, and these come back unchanged; so does each of the modes that are
written one after another. -/
theorem inPlace_pure (modes : Modes n) (opened : OpenModes) :
    (∀ mode, (inPlace modes mode opened).after = opened ∧
      ((inPlace modes mode opened).value.expr modes).render = (inlineExpr modes opened mode).render) ∧
    ∀ siblings, (inTurn modes opened siblings).map (fun written => ((written.1.expr modes).render, written.2)) =
      siblings.map fun sibling => ((inlineExpr modes opened sibling).render, opened) := by
  constructor
  · intro mode
    obtain ⟨value, after⟩ := inPlace_gives modes mode opened
    exact ⟨after, by rw [value, expr_unfolded]⟩
  · intro siblings
    rw [inTurn_eq_map, List.map_map]
    apply List.map_congr_left
    intro sibling _
    rw [Function.comp_apply, expr_unfolded]

end Expansion

end HighlightGrammar
