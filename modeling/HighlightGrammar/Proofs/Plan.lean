import HighlightGrammar.Generate.Text
import HighlightGrammar.Proofs.Breaks
import HighlightGrammar.Proofs.Schedule

/-!
# Plans are complete

The four passes fit together: the search finds the cycles, the break set cuts all of them, and so the scheduler
declares every mode after all that it refers to by name.  No plan falls back, whether strictly asked or not.
-/

namespace HighlightGrammar

namespace Plan

variable {n : Nat}

theorem residual_ofModes (modes : Modes n) : (ofModes modes).schedule.residual = [] :=
  Schedule.residual_eq_nil (BreakSet.acyclic_ofModes modes)

theorem isFallback_ofModes (modes : Modes n) : (ofModes modes).schedule.isFallback = false := by
  simp [Schedule.isFallback, residual_ofModes]

theorem idxOf_target_lt {modes : Modes n} {edge : Edge n} (member : edge ∈ (Graph.ofModes modes).edges)
    (kept : edge.key ∉ (ofModes modes).breaks) :
    (ofModes modes).schedule.order.idxOf edge.target < (ofModes modes).schedule.order.idxOf edge.source :=
  Schedule.idxOf_lt_of_depends (residual_ofModes modes) ⟨edge, Graph.mem_edges_ofModes.1 member, kept, rfl⟩

end Plan

theorem Target.render_ofModes (target : Target) (grammar : Grammar) :
    target.render grammar (Plan.ofModes grammar.modes) =
      .ok (Swift.fileText grammar (Plan.ofModes grammar.modes) target.lang target.register) := by
  simp [render, Plan.isFallback_ofModes]

/-- Every plan declares each mode once, after all that it names. -/
theorem Plan.declares_every_mode (grammar : Grammar) :
    (ofModes grammar.modes).schedule.residual = [] ∧ (ofModes grammar.modes).schedule.isFallback = false ∧
    (∀ mode, (ofModes grammar.modes).schedule.order.count mode = 1) ∧
    (∀ edge ∈ (Graph.ofModes grammar.modes).edges, edge.key ∉ (ofModes grammar.modes).breaks →
      (ofModes grammar.modes).schedule.order.idxOf edge.target <
        (ofModes grammar.modes).schedule.order.idxOf edge.source) ∧
    (∀ target : Target, ∃ text, target.render grammar (ofModes grammar.modes) = .ok text) ∧
    ∀ (lang register : String) (document : Json),
      Target.generate ⟨lang, register, true⟩ document = Target.generate ⟨lang, register, false⟩ document := by
  refine ⟨residual_ofModes _, isFallback_ofModes _, fun mode => ?_, fun edge member kept => ?_, fun target => ?_, ?_⟩
  · exact List.count_eq_one_of_mem (Schedule.nodup_order _ _) (Schedule.mem_order _ _ mode)
  · exact idxOf_target_lt member kept
  · exact ⟨_, target.render_ofModes grammar⟩
  · intro lang register document
    unfold Target.generate
    cases Grammar.load document with
    | error cause => rfl
    | ok loaded => simp only [Target.render_ofModes]

end HighlightGrammar
