/-!
# Running a step function to its end

`exhaust` repeats a step until none is left.  Every step has to lower a measure, so the run ends.
`step_exhaust` says that it stops only where no step is left.  `Steps` counts the steps on the way;
`Steps.keeps` carries an invariant to every state of a run, and `exhaust_induction` to its end.
-/

namespace HighlightGrammar

variable {σ δ : Type} [WellFoundedRelation δ]

/-- Every step lowers the measure. -/
def Lowers (step : σ → Option σ) (measure : σ → δ) : Prop :=
  ∀ s t, step s = some t → WellFoundedRelation.rel (measure t) (measure s)

/-- Repeat `step` until it gives nothing more. -/
def exhaust (step : σ → Option σ) (measure : σ → δ) (lowers : Lowers step measure) (s : σ) : σ :=
  match taken : step s with
  | none => s
  | some t =>
    have := lowers s t taken
    exhaust step measure lowers t
termination_by measure s

theorem step_exhaust {step : σ → Option σ} {measure : σ → δ} {lowers : Lowers step measure} (s : σ) :
    step (exhaust step measure lowers s) = none := by
  fun_induction exhaust step measure lowers s with
  | case1 s taken => exact taken
  | case2 s t taken lower ih => exact ih

/-- In `k` steps one state leads to another. -/
inductive Steps (step : σ → Option σ) : Nat → σ → σ → Prop
  | refl (s : σ) : Steps step 0 s s
  | head {s t u : σ} {k : Nat} (taken : step s = some t) (rest : Steps step k t u) : Steps step (k + 1) s u

namespace Steps

variable {step : σ → Option σ} {s t u : σ} {k : Nat}

theorem tail (run : Steps step k s t) (taken : step t = some u) : Steps step (k + 1) s u := by
  induction run with
  | refl s => exact .head taken (.refl u)
  | head first _ ih => exact .head first (ih taken)

theorem keeps {Inv : σ → Prop} (kept : ∀ s t, Inv s → step s = some t → Inv t) (run : Steps step k s t)
    (start : Inv s) : Inv t := by
  induction run with
  | refl s => exact start
  | head taken _ ih => exact ih (kept _ _ start taken)

end Steps

theorem exhaust_steps {step : σ → Option σ} {measure : σ → δ} {lowers : Lowers step measure} (s : σ) :
    ∃ k, Steps step k s (exhaust step measure lowers s) := by
  fun_induction exhaust step measure lowers s with
  | case1 s taken => exact ⟨0, .refl s⟩
  | case2 s t taken lower ih =>
    obtain ⟨k, rest⟩ := ih
    exact ⟨k + 1, .head taken rest⟩

/-- What the start satisfies and every step keeps holds at the end. -/
theorem exhaust_induction {step : σ → Option σ} {measure : σ → δ} {lowers : Lowers step measure}
    {Inv : σ → Prop} (kept : ∀ s t, Inv s → step s = some t → Inv t) {s : σ} (start : Inv s) :
    Inv (exhaust step measure lowers s) := by
  have run : ∃ k, Steps step k s (exhaust step measure lowers s) := exhaust_steps s
  obtain ⟨_, steps⟩ := run
  exact steps.keeps kept start

end HighlightGrammar
