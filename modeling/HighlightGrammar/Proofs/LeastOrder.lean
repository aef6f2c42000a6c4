import HighlightGrammar.Proofs.Invariance
import Mathlib.Data.List.Lex

/-!
# The order of declarations is the least one

Often the modes of a grammar can be declared in many orders.  The scheduler always takes the first mode that is
ready, and a mode is ready as soon as all that it names has been declared.  So its order cannot be improved: at the
first place where another order differs from it, that order has a later mode.
-/

namespace HighlightGrammar

variable {n : Nat}

namespace Graph

/-- An order in which the modes can be declared: each of them once, after all that it refers to by name. -/
structure Admits (graph : Graph n) (breaks : BreakSet) (order : List (Fin n)) : Prop where
  complete : order.Perm (List.finRange n)
  earlier : ∀ edge ∈ graph.edges, edge.key ∉ breaks → order.idxOf edge.target < order.idxOf edge.source

namespace Admits

variable {modes : Modes n} {breaks : BreakSet} {order : List (Fin n)}

theorem mem {graph : Graph n} (admits : graph.Admits breaks order) (mode : Fin n) : mode ∈ order :=
  admits.complete.mem_iff.2 (List.mem_finRange mode)

theorem nodup {graph : Graph n} (admits : graph.Admits breaks order) : order.Nodup :=
  admits.complete.nodup_iff.2 (List.nodup_finRange n)

theorem idxOf_lt (admits : (ofModes modes).Admits breaks order) {source target : Fin n}
    (depends : (ofModes modes).Depends breaks source target) : order.idxOf target < order.idxOf source := by
  obtain ⟨edge, leaves, kept, rfl⟩ := depends
  obtain ⟨rfl, -⟩ := mem_edgesFrom_ofModes.1 leaves
  exact admits.earlier edge (mem_edges_ofModes.2 leaves) kept

/-- Where the modes can be declared in some order, nothing refers to itself by name in a circle. -/
theorem acyclic (admits : (ofModes modes).Admits breaks order) : (ofModes modes).Acyclic breaks := by
  have falls : ∀ source target, Relation.TransGen ((ofModes modes).Depends breaks) source target →
      order.idxOf target < order.idxOf source := by
    intro source target leads
    induction leads with
    | single depends => exact admits.idxOf_lt depends
    | tail _ depends ih => exact Nat.lt_trans (admits.idxOf_lt depends) ih
  exact fun node returns => Nat.lt_irrefl _ (falls node node returns)

end Admits

end Graph

/-- The two orders differ, and where they first do so the first one has the smaller mode. -/
def Branches (order other : List (Fin n)) : Prop :=
  ∃ common mode otherMode rest otherRest,
    order = common ++ mode :: rest ∧ other = common ++ otherMode :: otherRest ∧ mode < otherMode

namespace Branches

variable {order other : List (Fin n)}

theorem append (branches : Branches order other) (more : List (Fin n)) : Branches (order ++ more) other := by
  obtain ⟨common, mode, otherMode, rest, otherRest, rfl, same, less⟩ := branches
  exact ⟨common, mode, otherMode, rest ++ more, otherRest, by simp, same, less⟩

theorem lex (branches : Branches order other) : List.Lex (· < ·) order other := by
  obtain ⟨common, mode, otherMode, rest, otherRest, rfl, rfl, less⟩ := branches
  exact List.Lex.append_left _ (.rel less) common

end Branches

namespace Queue

variable {modes : Modes n} {breaks : BreakSet} {q t : Queue n} {other : List (Fin n)}

/-- What has been declared is the beginning of the other order, or already smaller. -/
def Ahead (q : Queue n) (other : List (Fin n)) : Prop := q.order <+: other ∨ Branches q.order other

theorem first_le {ready : SortedSet (Fin n)} {first mode : Fin n} {rest : List (Fin n)}
    (elements : ready.elements = first :: rest) (member : mode ∈ ready) : first ≤ mode := by
  have increasing := ready.increasing
  rw [SortedSet.mem_def, elements] at member
  rw [elements, List.pairwise_cons] at increasing
  cases member with
  | head => exact Fin.le_refl first
  | tail _ later => exact Fin.le_of_lt (Nat.compare_eq_lt.1 (increasing.1 mode later))

/-- All that the next mode of another order names is declared, so it is ready here too. -/
theorem Sound.mem_ready_of_admits (sound : q.Sound (Graph.ofModes modes) breaks) {mode : Fin n}
    {rest : List (Fin n)} (admits : (Graph.ofModes modes).Admits breaks (q.order ++ mode :: rest)) :
    mode ∈ q.ready := by
  have new : mode ∉ q.order := by
    intro member
    exact (List.nodup_append.1 admits.nodup).2.2 mode member mode List.mem_cons_self rfl
  refine (sound.ready mode).2 ⟨(sound.pending_eq_zero_iff mode).2 fun dependency depends => ?_, new⟩
  by_contra undeclared
  have less := admits.idxOf_lt depends
  rw [List.idxOf_append_of_notMem new, List.idxOf_append_of_notMem undeclared, List.idxOf_cons_self] at less
  omega

theorem step_ahead (admits : (Graph.ofModes modes).Admits breaks other)
    (sound : q.Sound (Graph.ofModes modes) breaks) (ahead : q.Ahead other)
    (taken : step (Graph.ofModes modes) breaks q = some t) : t.Ahead other := by
  obtain ⟨next, rest, elements, order, -, -⟩ := step_cases taken
  have new : next ∉ q.order := (sound.first_ready elements).2
  rw [Ahead, order]
  cases ahead with
  | inr branches => exact Or.inr (branches.append [next])
  | inl isPrefix =>
    obtain ⟨remaining, rfl⟩ := isPrefix
    cases remaining with
    | nil =>
      rw [List.append_nil] at admits
      exact absurd (admits.mem next) new
    | cons mode remaining =>
      -- The other order goes on with a mode that is ready here, and the step takes the least of these.
      have le : next ≤ mode := first_le elements (sound.mem_ready_of_admits admits)
      by_cases same : next = mode
      · exact Or.inl ⟨remaining, by simp [same]⟩
      · have less : next < mode := by omega
        exact Or.inr ⟨q.order, next, mode, [], remaining, rfl, rfl, less⟩

end Queue

namespace Schedule

variable {modes : Modes n} {breaks : BreakSet} {other : List (Fin n)}

theorem declareAll_ahead (admits : (Graph.ofModes modes).Admits breaks other) :
    (declareAll (Graph.ofModes modes) breaks).Ahead other := by
  have kept : ∀ q t : Queue n, q.Sound (Graph.ofModes modes) breaks ∧ q.Ahead other →
      Queue.step (Graph.ofModes modes) breaks q = some t → t.Sound (Graph.ofModes modes) breaks ∧ t.Ahead other :=
    fun q t both taken => ⟨Queue.step_sound q t both.1 taken, Queue.step_ahead admits both.1 both.2 taken⟩
  exact (exhaust_induction kept ⟨Queue.start_sound _ breaks, Or.inl List.nil_prefix⟩).2

theorem admits_order (complete : (ofGraph (Graph.ofModes modes) breaks).residual = []) :
    (Graph.ofModes modes).Admits breaks (ofGraph (Graph.ofModes modes) breaks).order where
  complete := order_perm _ breaks
  earlier edge member kept := idxOf_lt_of_depends complete ⟨edge, Graph.mem_edges_ofModes.1 member, kept, rfl⟩

/-- If no mode is left out, then of all orders in which the modes can be declared the schedule has the least. -/
theorem order_least (modes : Modes n) (breaks : BreakSet)
    (complete : (ofGraph (Graph.ofModes modes) breaks).residual = []) :
    (Graph.ofModes modes).Admits breaks (ofGraph (Graph.ofModes modes) breaks).order ∧
    ∀ other, (Graph.ofModes modes).Admits breaks other →
      (ofGraph (Graph.ofModes modes) breaks).order = other ∨
        List.Lex (· < ·) (ofGraph (Graph.ofModes modes) breaks).order other := by
  refine ⟨admits_order complete, fun other admits => ?_⟩
  have ahead := declareAll_ahead admits
  rw [Queue.Ahead, ← order_eq_of_residual complete] at ahead
  cases ahead with
  | inl isPrefix =>
    have sameLength := (order_perm (Graph.ofModes modes) breaks).trans admits.complete.symm |>.length_eq
    exact Or.inl (isPrefix.eq_of_length sameLength)
  | inr branches => exact Or.inr branches.lex

/-- Three modes in a circle, two of them with parallel references, and one that stands alone. -/
def tiedModes : Modes 4 :=
  #v[⟨"text", .scoped "string", [.mode 2, .itself], [.mode 2], none⟩, ⟨"value", .scoped "subst", [.mode 0], [], none⟩,
    ⟨"call", .scoped "title", [.mode 1], [], some (.mode 1)⟩, ⟨"note", .scoped "comment", [], [], none⟩]

/-- Both references that close the circle, and one that is nowhere. -/
def tiedBreaks : BreakSet := SortedSet.ofList [⟨2, .contains, 0⟩, ⟨2, .starts, 0⟩, ⟨7, .variants, 1⟩]

theorem order_least_tiedModes : (ofGraph (Graph.ofModes tiedModes) tiedBreaks).residual = [] ∧
    (Graph.ofModes tiedModes).Admits tiedBreaks [3, 2, 0, 1] ∧
    ((ofGraph (Graph.ofModes tiedModes) tiedBreaks).order = [3, 2, 0, 1] ∨
      List.Lex (· < ·) (ofGraph (Graph.ofModes tiedModes) tiedBreaks).order [3, 2, 0, 1]) := by
  have admits : (Graph.ofModes tiedModes).Admits tiedBreaks [3, 2, 0, 1] := ⟨by decide, by decide⟩
  have complete := residual_eq_nil admits.acyclic
  exact ⟨complete, admits, (order_least tiedModes tiedBreaks complete).2 _ admits⟩

end Schedule

end HighlightGrammar
