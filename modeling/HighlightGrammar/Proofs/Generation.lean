import HighlightGrammar.Generate.Language
import HighlightGrammar.Proofs.Plan

/-!
# How generation can fail

`FailsBy` says of an action on files by which errors it may fail, whatever the files are; it follows how actions
are put together.  `Request.Failure` lists the errors of generation: those of files, of reading, of validation, and
of loading what was found valid.
-/

namespace HighlightGrammar

/-- In whatever state it is run, an action fails by the described errors only. -/
def FailsBy {σ α : Type} (described : GenerateError → Prop) (action : ExceptT GenerateError (StateM σ) α) : Prop :=
  ∀ state error, (action.run state).1 = .error error → described error

namespace FailsBy

variable {σ α β : Type} {described : GenerateError → Prop}

theorem pure (a : α) : FailsBy (σ := σ) described (Pure.pure a) := by
  intro state error failed
  cases failed

theorem throw {error : GenerateError} (holds : described error) :
    FailsBy (σ := σ) (α := α) described (throw error) := by
  intro state error failed
  cases failed
  exact holds

theorem lift (action : StateM σ α) : FailsBy described (action : ExceptT GenerateError (StateM σ) α) := by
  intro state error failed
  cases failed

theorem bind {action : ExceptT GenerateError (StateM σ) α} {next : α → ExceptT GenerateError (StateM σ) β}
    (first : FailsBy described action) (after : ∀ a, FailsBy described (next a)) :
    FailsBy described (action >>= next) := by
  intro state error failed
  have continued : (ExceptT.bindCont next (action.run state).1 (action.run state).2).1 = .error error := failed
  cases outcome : (action.run state).1 with
  | error cause =>
    rw [outcome] at continued
    cases continued
    exact first state error outcome
  | ok a =>
    rw [outcome] at continued
    exact after a _ error continued

/-- An action on a file and what is done after it, whether it went well or not. -/
theorem attempt {action : StateM σ (Except FileError α)} {next : Except FileError α → ExceptT GenerateError (StateM σ) β}
    (done : ∀ a, FailsBy described (next (.ok a))) (failed : ∀ cause, FailsBy described (next (.error cause))) :
    FailsBy described ((action : ExceptT GenerateError (StateM σ) (Except FileError α)) >>= next) := by
  refine bind (lift action) fun outcome => ?_
  cases outcome with
  | ok a => exact done a
  | error cause => exact failed cause

theorem forM {items : List α} {action : α → ExceptT GenerateError (StateM σ) PUnit}
    (each : ∀ a, FailsBy described (action a)) : FailsBy described (items.forM action) := by
  induction items with
  | nil => exact pure _
  | cons head rest ih => exact bind (each head) fun _ => ih

end FailsBy

namespace Request

/-- The errors by which a request can fail. -/
inductive Failure : GenerateError → Prop where
  | file (path : String) (cause : FileError) : Failure (.file path cause)
  | parse (path : String) (fault : Json.Fault) : Failure (.parse path fault)
  | invalid {path : String} {document : Json} (problems : Grammar.validate document path ≠ []) :
      Failure (.invalid path (Grammar.validate document path))
  | load {path : String} {document : Json} {cause : LoadError} (valid : Grammar.validate document path = [])
      (failed : Grammar.load document = .error cause) : Failure (.load cause)

variable {σ : Type} [Host (StateM σ)]

theorem readFile_failsBy (path : String) :
    FailsBy Failure (readFile path : ExceptT GenerateError (StateM σ) String) := by
  unfold readFile
  exact FailsBy.attempt FailsBy.pure fun cause => FailsBy.throw (.file path cause)

theorem writeFile_failsBy (path text : String) :
    FailsBy Failure (writeFile path text : ExceptT GenerateError (StateM σ) Unit) := by
  unfold writeFile
  split
  -- Only with a directory is there something to do before the text is written.
  case h_3 directory _ _ =>
    refine FailsBy.attempt (fun _ => ?_) fun cause => FailsBy.bind (FailsBy.throw (.file directory cause)) fun _ => ?_
    all_goals exact FailsBy.attempt FailsBy.pure fun cause => FailsBy.throw (.file path cause)
  all_goals exact FailsBy.attempt FailsBy.pure fun cause => FailsBy.throw (.file path cause)

theorem readGrammar_failsBy (path : String) :
    FailsBy Failure (readGrammar path : ExceptT GenerateError (StateM σ) Grammar) := by
  unfold readGrammar
  refine FailsBy.bind (readFile_failsBy path) fun text => ?_
  split
  next fault _ => exact FailsBy.throw (.parse path fault)
  next document _ =>
    split
    next valid =>
      split
      next cause failed => exact FailsBy.throw (.load valid failed)
      next grammar _ => exact FailsBy.pure grammar
    next problems => exact FailsBy.throw (.invalid problems)

theorem compile_failsBy (request : Request) (config : Config) :
    FailsBy Failure (request.compile config : ExceptT GenerateError (StateM σ) Generated) := by
  unfold compile
  refine FailsBy.bind (readGrammar_failsBy _) fun grammar => ?_
  refine FailsBy.bind (FailsBy.forM fun event => FailsBy.lift _) fun _ => ?_
  -- No plan of the passes falls back, so the strict way has nothing to refuse.
  simp only [Target.render_ofModes]
  refine FailsBy.bind (FailsBy.lift _) fun _ => ?_
  refine FailsBy.bind (writeFile_failsBy _ _) fun _ => ?_
  exact FailsBy.pure _

theorem run_failsBy (request : Request) (config : Config) :
    FailsBy Failure (request.run config : ExceptT GenerateError (StateM σ) Generated) := by
  unfold run
  split
  next template _ =>
    unfold copyTemplate
    refine FailsBy.bind (readFile_failsBy _) fun text => ?_
    refine FailsBy.bind (writeFile_failsBy _ _) fun _ => ?_
    refine FailsBy.bind (FailsBy.lift _) fun _ => ?_
    exact FailsBy.pure _
  next => exact compile_failsBy request config

end Request

end HighlightGrammar
