import HighlightGrammar.Graph.BreakSet
import HighlightGrammar.Swift.Mode

/-!
# Modes written in place

A declared mode is referred to by its name.  Where a reference is broken the name is not there yet, so the
mode is written in place, with all that it refers to.  While modes are being written in place, the open ones
are remembered; a mode met again inside of itself is written without its references, which keeps the text
finite.

An `Expansion` is the tree of modes to be written for one declaration.
-/

namespace HighlightGrammar

open Swift (Expr)

variable {n : Nat}

inductive Expansion (n : Nat) where
  /-- The marker for the enclosing mode. -/
  | itself
  /-- A declared mode, by name. -/
  | named (mode : Fin n)
  /-- A mode without its references. -/
  | shallow (mode : Fin n)
  /-- A mode with all its references. -/
  | full (mode : Fin n) (contains variants : List (Expansion n)) (starts : Option (Expansion n))
deriving Repr, Inhabited

/-- The name under which a mode is declared. -/
def Mode.declaredName (mode : Mode n) : String := "mode_" ++ mode.id

namespace Expansion

/-- What stands in a list of contained modes for a mode that is written as `e`. -/
def member : Expansion n → Expr → Expr
  | .itself, _ => .atom ".self"
  | _, e => .call ".mode" [e]

mutual

/-- The expression for a tree of modes. -/
def expr (modes : Modes n) : Expansion n → Expr
  | .itself => .atom ".self"
  | .named mode => .atom (modes.get mode).declaredName
  | .shallow mode => (modes.get mode).attributes.expr .none
  | .full mode contains variants starts =>
    (modes.get mode).attributes.expr
      (.ofParts (memberExprs modes contains) (exprs modes variants) (optionExpr modes starts))

def memberExprs (modes : Modes n) : List (Expansion n) → List Expr
  | [] => []
  | e :: rest => e.member (expr modes e) :: memberExprs modes rest

def exprs (modes : Modes n) : List (Expansion n) → List Expr
  | [] => []
  | e :: rest => expr modes e :: exprs modes rest

def optionExpr (modes : Modes n) : Option (Expansion n) → Option Expr
  | none => none
  | some e => some (expr modes e)

end

end Expansion

/-! ## Writing in place -/

/-- The modes that are being written in place, by position. -/
abbrev OpenModes : Type := SortedSet Nat

namespace OpenModes

/-- How many of `n` modes are not open. -/
def closedCount (n : Nat) (opened : OpenModes) : Nat :=
  (List.finRange n).countP fun mode => decide (mode.val ∉ opened)

theorem countP_lt {α : Type} {p q : α → Bool} {l : List α} (weaker : ∀ x ∈ l, p x = true → q x = true)
    {a : α} (member : a ∈ l) (holds : q a = true) (fails : p a = false) : l.countP p < l.countP q := by
  induction l with
  | nil => simp at member
  | cons head tail ih =>
    have rest := List.countP_mono_left fun x inside => weaker x (List.mem_cons_of_mem head inside)
    rcases List.mem_cons.1 member with rfl | inside
    · simp only [List.countP_cons, holds, fails]
      simp
      omega
    · have less := ih (fun x inside => weaker x (List.mem_cons_of_mem head inside)) inside
      have here := weaker head List.mem_cons_self
      simp only [List.countP_cons]
      by_cases first : p head = true
      · simp only [first, here first, if_true]
        omega
      · simp only [first]
        simp
        omega

theorem closedCount_le {a b : OpenModes} (more : ∀ mode ∈ a, mode ∈ b) :
    closedCount n b ≤ closedCount n a :=
  List.countP_mono_left fun mode _ => by
    simp only [decide_eq_true_eq]
    exact fun closed opened => closed (more _ opened)

theorem closedCount_insert_lt {opened : OpenModes} {mode : Fin n} (closed : mode.val ∉ opened) :
    closedCount n (opened.insert mode.val) < closedCount n opened :=
  countP_lt (fun x _ => by simp) (List.mem_finRange mode) (by simpa using closed) (by simp)

end OpenModes

/-- What was written, and the open modes afterwards: no mode that was open before has been closed. -/
structure Written (α : Type) (before : OpenModes) where
  value : α
  after : OpenModes
  kept : ∀ mode ∈ before, mode ∈ after

namespace Written

variable {α β : Type} {before : OpenModes}

def pure (value : α) : Written α before := ⟨value, before, fun _ inside => inside⟩

/-- Write the elements of a list one after another. -/
def each (write : (now : OpenModes) → (∀ mode ∈ before, mode ∈ now) → α → Written β now)
    (now : OpenModes) (kept : ∀ mode ∈ before, mode ∈ now) : List α → Written (List β) now
  | [] => .pure []
  | a :: rest =>
    let first := write now kept a
    let others := each write first.after (fun mode inside => first.kept mode (kept mode inside)) rest
    ⟨first.value :: others.value, others.after, fun mode inside => others.kept mode (first.kept mode inside)⟩

end Written

namespace Expansion

/-- Write a mode in place while some modes are open. -/
def inPlace (modes : Modes n) (mode : Fin n) (opened : OpenModes) : Written (Expansion n) opened :=
  if closed : mode.val ∉ opened then
    let inside := opened.insert mode.val
    let entry (now : OpenModes) (kept : ∀ mode ∈ inside, mode ∈ now) (ref : Ref n) :
        Written (Expansion n) now :=
      have := Nat.lt_of_le_of_lt (OpenModes.closedCount_le kept) (OpenModes.closedCount_insert_lt closed)
      inPlace modes (ref.resolve mode) now
    let member (now : OpenModes) (kept : ∀ mode ∈ inside, mode ∈ now) (ref : Ref n) :
        Written (Expansion n) now :=
      match ref.target? mode with
      | none => .pure .itself
      | some _ => entry now kept ref
    let contains := Written.each member inside (fun _ held => held) (modes.get mode).contains
    let variants := Written.each entry contains.after contains.kept (modes.get mode).variants
    let keptVariants := fun other held => variants.kept other (contains.kept other held)
    let starts := Written.each entry variants.after keptVariants (modes.get mode).starts.toList
    ⟨.full mode contains.value variants.value starts.value.head?, starts.after.erase mode.val,
      fun other held => by
        have still := starts.kept other (keptVariants other (by simp [inside, held]))
        exact SortedSet.mem_erase.2 ⟨still, fun same => closed (same ▸ held)⟩⟩
  else ⟨.shallow mode, opened, fun _ held => held⟩
termination_by OpenModes.closedCount n opened

/-- A mode written in place while no other is. -/
def alone (modes : Modes n) (mode : Fin n) : Expansion n := (inPlace modes mode ∅).value

/-- Modes written in place one after another, each with the modes that are open after it. -/
def inTurn (modes : Modes n) (opened : OpenModes) : List (Fin n) → List (Expansion n × OpenModes)
  | [] => []
  | mode :: rest =>
    let written := inPlace modes mode opened
    (written.value, written.after) :: inTurn modes written.after rest

/-- A reference in a declaration: by name, unless it is broken. -/
def reference (modes : Modes n) (breaks : BreakSet) (owner : Fin n) (relation : Relation)
    (entry : Ref n × Nat) : Expansion n :=
  match entry.1.target? owner with
  | none => alone modes owner
  | some target =>
    if ⟨owner, relation, entry.2⟩ ∈ breaks then alone modes target else .named target

/-- A contained mode in a declaration, where a mode can refer to itself by a marker. -/
def containedReference (modes : Modes n) (breaks : BreakSet) (owner : Fin n) (entry : Ref n × Nat) :
    Expansion n :=
  match entry.1.target? owner with
  | none => .itself
  | some _ => reference modes breaks owner .contains entry

/-- The declaration of a mode. -/
def declaration (modes : Modes n) (breaks : BreakSet) (mode : Fin n) : Expansion n :=
  .full mode ((modes.get mode).contains.zipIdx.map (containedReference modes breaks mode))
    ((modes.get mode).variants.zipIdx.map (reference modes breaks mode .variants))
    ((modes.get mode).starts.map fun ref => reference modes breaks mode .starts (ref, 0))

end Expansion

end HighlightGrammar
