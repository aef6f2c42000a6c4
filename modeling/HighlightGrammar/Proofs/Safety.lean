import HighlightGrammar.Proofs.Counting
import HighlightGrammar.Proofs.Plan
import HighlightGrammar.Proofs.Resolution

/-!
# Planning never leaves its tables

The passes look things up in tables that earlier passes have filled, and take one off counts that they have
kept.  `Plan.Safe` lists these accesses.  For a document that was loaded they all succeed: references lead to
positions in the list of modes, every member of a component has a place in its canonical order, and a count is
lowered only while it is positive.
-/

namespace HighlightGrammar

variable {n : Nat}

namespace Plan

/-- The accesses of the passes to a list of `count` modes and to their own tables.  The ends of edges, the members of
components, the modes in the order and those that declarations name are all positions of one type, so what is to be
said about their range is said once. -/
structure Safe (count : Nat) (modes : Modes n) : Prop where
  inRange : ∀ position : Fin n, position.val < count
  numbered : ∀ mode : Fin n, ∃ component,
    (ofModes modes).partition.components[(ofModes modes).partition.componentOf.get mode]? = some component ∧
      mode ∈ component
  placed : ∀ component ∈ (ofModes modes).partition.cyclic, ∀ source ∈ component,
    ∃ place, (canonicalOrder modes component).idxOf? source = some place
  /-- All iterations of the loop that declares modes are made of steps that lower one count. -/
  lowered : ∀ k q, Steps (Queue.step (ofModes modes).graph (ofModes modes).breaks) k
      (Queue.start (ofModes modes).graph (ofModes modes).breaks) q →
    ∃ entered, Queue.Run (.ofGraph (ofModes modes).graph (ofModes modes).breaks) q [] entered
  counted : ∀ q waiting entered, Queue.Run (.ofGraph (ofModes modes).graph (ofModes modes).breaks) q waiting entered →
    ∀ node ∈ waiting, 0 < q.pending.get node

theorem safe (modes : Modes n) : Safe n modes where
  inRange position := position.isLt
  numbered mode := Partition.exists_component (Graph.ofModes modes) mode
  placed component _ source inside := by
    have member : source ∈ canonicalOrder modes component := List.mem_mergeSort.2 inside
    cases place : (canonicalOrder modes component).idxOf? source with
    | none => exact absurd member (List.idxOf?_eq_none_iff.1 place)
    | some found => exact ⟨found, rfl⟩
  lowered k _ iterations := Queue.Run.iff_steps.2 ⟨k, iterations⟩
  counted _ _ _ run := run.orderly.waits

end Plan

namespace Grammar

/-- Whatever was loaded is resolved, and can be planned and written without leaving a table. -/
theorem safe_of_load {document : Json} {grammar : Grammar} (loaded : load document = .ok grammar) :
    Resolved document grammar ∧ Plan.Safe (document.listed "modes").length grammar.modes ∧
      ∀ target : Target, ∃ text, target.render grammar (Plan.ofModes grammar.modes) = .ok text := by
  have resolved := resolved_of_load loaded
  refine ⟨resolved, ?_, fun target => ⟨_, target.render_ofModes grammar⟩⟩
  rw [← resolved.size]
  exact Plan.safe grammar.modes

/-- Two of three modes have one name; references lead forward, backward, around in a circle, and to themselves. -/
def repeatedNames : Json :=
  .object [
    ("language", .object [("contains", .list [.text "self", .object [("ref", .text "b")]])]),
    ("modes", .list [
      .object [
        ("contains", .list [.object [("ref", .text "b")], .text "self"]), ("id", .text "a"),
        ("starts", .object [("ref", .text "a")])],
      .object [("id", .text "b"), ("variants", .list [.object [("ref", .text "a")]])],
      .object [("contains", .list [.object [("ref", .text "b")]]), ("id", .text "b")]]),
    ("version", .number (.whole 1))]

theorem safe_repeatedNames : ∃ grammar, load repeatedNames = .ok grammar ∧ grammar.size = 3 ∧
    (grammar.lookup "b").map Fin.val = some 1 ∧ Resolved repeatedNames grammar ∧
    Plan.Safe (repeatedNames.listed "modes").length grammar.modes ∧
    ∀ target : Target, ∃ text, target.render grammar (Plan.ofModes grammar.modes) = .ok text := by
  obtain ⟨grammar, loaded⟩ : ∃ grammar, load repeatedNames = .ok grammar := ⟨_, by with_unfolding_all rfl⟩
  obtain ⟨resolved, safe⟩ := safe_of_load loaded
  have inside : 1 < grammar.size := by
    rw [resolved.size]
    decide
  refine ⟨grammar, loaded, resolved.size, ?_, resolved, safe⟩
  rw [(resolved.lookup "b" ⟨1, inside⟩).2 rfl]
  rfl

end Grammar

end HighlightGrammar
