import HighlightGrammar.Proofs.Ancestors
import HighlightGrammar.Proofs.Generation
import HighlightGrammar.Proofs.Places
import HighlightGrammar.World

/-!
# What generation changes

Making directories adds directories and nothing else, and writing a file changes that file alone.  So a request
that succeeds leaves behind its output, with the directories above it that were missing, and one that fails before
it has something to write leaves everything as it was.
-/

namespace HighlightGrammar

/-! ## Trees that have grown -/

namespace Files

/-- Some more directories are there, and paths of a list lead to them. -/
structure Grown (paths : List String) (before after : Files) : Prop where
  current : after.current = before.current
  nodes : ∀ place, after.node? place = before.node? place ∨ (before.node? place = none ∧
    after.node? place = some .directory ∧ ∃ path ∈ paths, after.locate path = .ok place)

namespace Grown

variable {paths : List String} {before middle after : Files}

theorem refl (paths : List String) (files : Files) : Grown paths files files := ⟨rfl, fun _ => Or.inl rfl⟩

theorem keeps (grown : Grown paths before after) : Keeps before after where
  current := grown.current
  present place there := by
    cases grown.nodes place with
    | inl same => rwa [same]
    | inr new => simp [new.1] at there
  directories place there := by
    cases grown.nodes place with
    | inl same => rwa [same]
    | inr new => exact new.2.1

theorem trans (first : Grown paths before middle) (second : Grown paths middle after) : Grown paths before after where
  current := second.current.trans first.current
  nodes place := by
    cases second.nodes place with
    | inl same =>
      rw [same]
      refine (first.nodes place).imp_right ?_
      rintro ⟨missing, here, path, listed, leads⟩
      exact ⟨missing, here, path, listed, second.keeps.locate leads⟩
    | inr new =>
      obtain ⟨missing, here, leads⟩ := new
      cases first.nodes place with
      | inl same => exact Or.inr ⟨same.symm.trans missing, here, leads⟩
      | inr old => simp [old.2.1] at missing

theorem mono {more : List String} (included : paths ⊆ more) (grown : Grown paths before after) :
    Grown more before after where
  current := grown.current
  nodes place := by
    refine (grown.nodes place).imp_right ?_
    rintro ⟨missing, here, path, listed, leads⟩
    exact ⟨missing, here, path, included listed, leads⟩

theorem makeDirectory {path : String} (listed : path ∈ paths) (made : before.makeDirectory path = .ok after) :
    Grown paths before after := by
  obtain ⟨place, nonRoot, missing, rfl, leads⟩ := makeDirectory_eq_ok made
  refine ⟨rfl, fun other => ?_⟩
  by_cases same : other = place
  · subst same
    exact Or.inr ⟨missing, node?_put_self nonRoot, path, listed, leads⟩
  · exact Or.inl (node?_put_of_ne same)

end Grown

/-- A file was written, and directories above it were made that were missing; nothing else is different. -/
structure Wrote (before after : Files) (path : String) (content : ByteArray) : Prop where
  current : after.current = before.current
  places : ∃ place, after.locate path = .ok place ∧ before.isDirectoryAt place = false ∧
    after.node? place = some (.file content) ∧ ∀ other, other ≠ place → after.node? other = before.node? other ∨
      (before.node? other = none ∧ after.node? other = some .directory ∧
        ∃ above ∈ Path.ancestors path, after.locate above = .ok other)

theorem Grown.write {path : String} {content : ByteArray} {before middle after : Files}
    (grown : Grown (Path.ancestors path) before middle) (written : middle.write path content = .ok after) :
    Wrote before after path content := by
  obtain ⟨place, nonRoot, free, rfl, leads⟩ := write_eq_ok written
  have keeps : Keeps middle (middle.put place (.file content)) := .put nonRoot free
  refine ⟨grown.current, place, leads, ?_, node?_put_self nonRoot, fun other different => ?_⟩
  · rw [← Bool.not_eq_true, isDirectoryAt_eq_true] at free ⊢
    exact fun was => free (grown.keeps.directories place was)
  · rw [node?_put_of_ne different]
    refine (grown.nodes other).imp_right ?_
    rintro ⟨missing, here, above, listed, leads⟩
    exact ⟨missing, here, above, listed, keeps.locate leads⟩

end Files

/-! ## Actions that make directories -/

namespace World

variable {change : Files → Except FileError Files} {world : World}

theorem attempt_ok {files : Files} (done : change world.files = .ok files) :
    (attempt change).run world = (.ok (), { world with files }) := by
  simp only [attempt, StateT.run, done]

theorem attempt_error {cause : FileError} (failed : change world.files = .error cause) :
    (attempt change).run world = (.error cause, world) := by
  simp only [attempt, StateT.run, failed]

/-- An action changes the files as a relation allows, from wherever it starts. -/
def Changes {α : Type} (allowed : Files → Files → Prop) (action : StateM World α) : Prop :=
  ∀ world, allowed world.files (action.run world).2.files

namespace Changes

variable {α β : Type} {paths : List String}

theorem pure (a : α) : Changes (Files.Grown paths) (Pure.pure a : StateM World α) :=
  fun world => .refl paths world.files

theorem bind {action : StateM World α} {next : α → StateM World β} (first : Changes (Files.Grown paths) action)
    (after : ∀ a, Changes (Files.Grown paths) (next a)) : Changes (Files.Grown paths) (action >>= next) :=
  fun world => (first world).trans (after _ _)

theorem makeDirectory {path : String} (listed : path ∈ paths) :
    Changes (Files.Grown paths) (Host.makeDirectory path : StateM World (Except FileError Unit)) := by
  intro world
  change Files.Grown paths world.files ((attempt (·.makeDirectory path)).run world).2.files
  cases made : world.files.makeDirectory path with
  | ok files =>
    rw [attempt_ok made]
    exact .makeDirectory listed made
  | error cause =>
    rw [attempt_error made]
    exact .refl paths world.files

theorem unlessDirectory (path : String) (cause : FileError) :
    Changes (Files.Grown paths) (Host.unlessDirectory path cause : StateM World (Except FileError Unit)) := by
  unfold Host.unlessDirectory
  refine bind (fun world => .refl paths world.files) fun found => ?_
  split
  · exact pure _
  · exact pure _

theorem makeDirectories (paths : List String) :
    Changes (Files.Grown paths) (Host.makeDirectories paths : StateM World (Except FileError Unit)) := by
  induction paths with
  | nil => exact pure _
  | cons path above ih =>
    have further : Changes (Files.Grown (path :: above)) (Host.makeDirectories above : StateM World _) :=
      fun world => (ih world).mono (List.subset_cons_self path above)
    unfold Host.makeDirectories
    by_cases done : path = ""
    · rw [if_pos done]
      exact pure _
    · rw [if_neg done]
      refine bind (makeDirectory List.mem_cons_self) fun outcome => ?_
      cases outcome with
      | ok made => exact pure _
      | error cause =>
        cases cause with
        | missing =>
          refine bind further fun outcome => ?_
          cases outcome with
          | error cause => exact pure _
          | ok made =>
            refine bind (makeDirectory List.mem_cons_self) fun outcome => ?_
            cases outcome with
            | ok made => exact pure _
            | error cause => exact unlessDirectory path cause
        | «exists» | notDirectory | isDirectory | nameTooLong | nullInPath | notText | system =>
          exact unlessDirectory path _

end Changes

end World

/-! ## Work that may fail -/

/-- Work in a world that may fail. -/
abbrev Work (α : Type) : Type := ExceptT GenerateError (StateM World) α

namespace Work

variable {α β : Type} {action : Work α} {next : α → Work β} {world after : World}

theorem bind_ok {a : α} (done : action.run world = (.ok a, after)) :
    (action >>= next).run world = (next a).run after := by
  change ExceptT.bindCont next (action.run world).1 (action.run world).2 = (next a).run after
  rw [done]
  rfl

theorem bind_error {error : GenerateError} (failed : action.run world = (.error error, after)) :
    (action >>= next).run world = (.error error, after) := by
  change ExceptT.bindCont next (action.run world).1 (action.run world).2 = (.error error, after)
  rw [failed]
  rfl

/-- An action on files, and what is done after it. -/
theorem attempt {action : StateM World α} {a : α} (ran : action.run world = (a, after)) :
    ((action : Work α) >>= next).run world = (next a).run after := by
  apply bind_ok
  change (Except.ok (action.run world).1, (action.run world).2) = (.ok a, after)
  rw [ran]

end Work

theorem Target.generate_of_load (target : Target) {document : Json} {grammar : Grammar}
    (loaded : Grammar.load document = .ok grammar) : target.generate document =
      .ok (Swift.fileText grammar (Plan.ofModes grammar.modes) target.lang target.register) := by
  rw [generate, loaded]
  exact target.render_ofModes grammar

namespace Request

variable {world : World} {path text : String}

theorem readFile_ok (read : world.files.readText path = .ok text) :
    (readFile path : Work String).run world = (.ok text, world) := by
  have ran : (Host.readText path : StateM World (Except FileError String)).run world = (.ok text, world) :=
    congrArg (·, world) read
  exact Work.attempt ran

theorem readFile_error {cause : FileError} (failed : world.files.readText path = .error cause) :
    (readFile path : Work String).run world = (.error (.file path cause), world) := by
  have ran : (Host.readText path : StateM World (Except FileError String)).run world = (.error cause, world) :=
    congrArg (·, world) failed
  exact Work.attempt ran

theorem note_run (event : Event) (world : World) :
    (note event : Work Unit).run world = (.ok (), { world with events := event :: world.events }) := rfl

theorem notes (events : List Event) (world : World) :
    ∃ after, (events.forM note : Work PUnit).run world = (.ok ⟨⟩, after) ∧ after.files = world.files := by
  induction events generalizing world with
  | nil => exact ⟨world, rfl, rfl⟩
  | cons event rest ih =>
    obtain ⟨after, told, same⟩ := ih { world with events := event :: world.events }
    exact ⟨after, told, same⟩

/-- How writing a file ends: by an error of a file, or with the file written. -/
inductive Written (before : Files) (path text : String) : Except GenerateError Unit × World → Prop where
  | failed (place : String) (cause : FileError) (after : World) : Written before path text (.error (.file place cause), after)
  | done {after : World} (wrote : before.Wrote after.files path text.toUTF8) : Written before path text (.ok (), after)

/-- The text is written after directories have been made. -/
theorem written_of_grown {before : Files} {next : Except FileError Unit → Work Unit} (done : next (.ok ()) = pure ())
    (failed : ∀ cause, next (.error cause) = throw (.file path cause))
    (grown : before.Grown (Path.ancestors path) world.files) :
    Written before path text
      (((Host.writeText path text : StateM World (Except FileError Unit)) >>= next : Work Unit).run world) := by
  cases write : world.files.write path text.toUTF8 with
  | ok files =>
    have ran : (Host.writeText path text : StateM World _).run world = (.ok (), { world with files }) :=
      World.attempt_ok write
    rw [Work.attempt ran, done]
    exact .done (grown.write write)
  | error cause =>
    have ran : (Host.writeText path text : StateM World _).run world = (.error cause, world) :=
      World.attempt_error write
    rw [Work.attempt ran, failed]
    exact .failed path cause world

theorem writeFile_written (path text : String) (world : World) :
    Written world.files path text ((writeFile path text : Work Unit).run world) := by
  unfold writeFile
  split
  case h_3 directory named parent =>
    have above : Path.ancestors path = directory :: Path.ancestors directory := by
      obtain ⟨further, listed⟩ := List.head?_eq_some_iff.1 parent
      rw [listed, Path.ancestors_eq_cons listed]
    have grown : world.files.Grown (directory :: Path.ancestors directory)
        ((Host.ensureDirectory directory : StateM World (Except FileError Unit)).run world).2.files :=
      World.Changes.makeDirectories _ world
    rw [← above] at grown
    cases made : (Host.ensureDirectory directory : StateM World (Except FileError Unit)).run world with
    | mk outcome middle =>
      rw [made] at grown
      rw [Work.attempt made]
      cases outcome with
      | ok done => exact written_of_grown rfl (fun _ => rfl) grown
      | error cause => exact .failed directory cause middle
  -- Without a directory above the path there is nothing to make.
  all_goals exact written_of_grown rfl (fun _ => rfl) (.refl _ world.files)

/-! ## Requests -/

/-- What a request reads: the template of the language, or else its document. -/
def sourcePath (request : Request) (config : Config) : String :=
  (config.templatePath? request.lang).getD (request.input.getD (config.documentPath request.lang))

/-- What a request makes of the files, and the text for its output. -/
inductive Makes (request : Request) (config : Config) (files : Files) : Generated → String → Prop where
  | copied {template text : String} (configured : config.templatePath? request.lang = some template)
    (read : files.readText template = .ok text) :
    Makes request config files (.copied (request.outputPath config) template) text
  | compiled {text swift : String} {document : Json} {grammar : Grammar}
    (configured : config.templatePath? request.lang = none)
    (read : files.readText (request.input.getD (config.documentPath request.lang)) = .ok text)
    (parsed : Json.read text = .ok document) (loaded : Grammar.load document = .ok grammar)
    (generated : Target.generate ⟨request.lang, config.registerName request.lang, request.strict⟩ document = .ok swift) :
    Makes request config files
      (.compiled (request.outputPath config) grammar.size (Plan.ofModes grammar.modes).breaks.size) swift

/-- How a request ends: before anything is written, by an error in writing, or with its output written. -/
inductive Ended (request : Request) (config : Config) (before : Files) : Except GenerateError Generated × World → Prop where
  | early (error : GenerateError) {after : World} (same : after.files = before) :
    Ended request config before (.error error, after)
  | unwritten (place : String) (cause : FileError) (after : World) :
    Ended request config before (.error (.file place cause), after)
  | done {generated : Generated} {text : String} {after : World} (makes : request.Makes config before generated text)
    (wrote : before.Wrote after.files (request.outputPath config) text.toUTF8) :
    Ended request config before (.ok generated, after)

variable {request : Request} {config : Config}

/-- Once there is a text, nothing but writing it can fail. -/
theorem ended_of_makes {before : Files} {generated : Generated} {next : Unit → Work Generated}
    (makes : request.Makes config before generated text) (same : world.files = before)
    (finish : ∀ world, ∃ after, (next ()).run world = (.ok generated, after) ∧ after.files = world.files) :
    request.Ended config before ((writeFile (request.outputPath config) text >>= next).run world) := by
  have written := writeFile_written (request.outputPath config) text world
  generalize ran : (writeFile (request.outputPath config) text : Work Unit).run world = outcome at written
  cases written with
  | failed place cause after =>
    rw [Work.bind_error ran]
    exact .unwritten place cause after
  | @done middle wrote =>
    obtain ⟨after, finished, kept⟩ := finish middle
    rw [Work.bind_ok ran, finished]
    rw [← kept, same] at wrote
    exact .done makes wrote

theorem copyTemplate_ended {template : String} (configured : config.templatePath? request.lang = some template)
    (world : World) :
    request.Ended config world.files ((request.copyTemplate config template : Work Generated).run world) := by
  unfold copyTemplate
  cases read : world.files.readText template with
  | error cause =>
    rw [Work.bind_error (readFile_error read)]
    exact .early _ rfl
  | ok text =>
    rw [Work.bind_ok (readFile_ok read)]
    exact ended_of_makes (.copied configured read) rfl fun world => ⟨_, rfl, rfl⟩

theorem readGrammar_cases (path : String) (world : World) :
    (∃ error, (readGrammar path : Work Grammar).run world = (.error error, world)) ∨
    ∃ text document grammar, world.files.readText path = .ok text ∧ Json.read text = .ok document ∧
      Grammar.load document = .ok grammar ∧ (readGrammar path : Work Grammar).run world = (.ok grammar, world) := by
  unfold readGrammar
  cases read : world.files.readText path with
  | error cause => exact Or.inl ⟨_, Work.bind_error (readFile_error read)⟩
  | ok text =>
    rw [Work.bind_ok (readFile_ok read)]
    cases parsed : Json.read text with
    | error fault => exact Or.inl ⟨_, rfl⟩
    | ok document =>
      cases problems : Grammar.validate document path with
      | cons first rest =>
        simp only [problems]
        exact Or.inl ⟨_, rfl⟩
      | nil =>
        simp only [problems]
        cases loaded : Grammar.load document with
        | error cause => exact Or.inl ⟨_, rfl⟩
        | ok grammar => exact Or.inr ⟨text, document, grammar, rfl, parsed, loaded, rfl⟩

theorem compile_ended (configured : config.templatePath? request.lang = none) (world : World) :
    request.Ended config world.files ((request.compile config : Work Generated).run world) := by
  unfold compile
  obtain ⟨error, failed⟩ | ⟨text, document, grammar, read, parsed, loaded, done⟩ :=
    readGrammar_cases (request.input.getD (config.documentPath request.lang)) world
  · rw [Work.bind_error failed]
    exact .early error rfl
  · rw [Work.bind_ok done]
    obtain ⟨told, ran, same⟩ := notes ((Plan.ofModes grammar.modes).events grammar) world
    rw [Work.bind_ok ran]
    simp only [Target.render_ofModes]
    rw [Work.bind_ok (note_run _ told)]
    exact ended_of_makes (.compiled configured read parsed loaded (Target.generate_of_load _ loaded)) same
      fun world => ⟨_, rfl, rfl⟩

theorem run_ended (request : Request) (config : Config) (world : World) :
    request.Ended config world.files ((request.run config : Work Generated).run world) := by
  unfold run
  cases configured : config.templatePath? request.lang with
  | some template => exact copyTemplate_ended configured world
  | none => exact compile_ended configured world

/-- A request changes nothing unless it has a text to write, and then its output and the directories above it
alone. -/
theorem run_atomic (request : Request) (config : Config) (world : World) :
    (∀ cause, world.files.readText (request.sourcePath config) = .error cause →
      (request.run config : Work Generated).run world = (.error (.file (request.sourcePath config) cause), world)) ∧
    (∀ error after, (request.run config : Work Generated).run world = (.error error, after) →
      (∀ path cause, error ≠ .file path cause) → after.files = world.files) ∧
    ∀ generated after, (request.run config : Work Generated).run world = (.ok generated, after) →
      ∃ text, request.Makes config world.files generated text ∧
        world.files.Wrote after.files (request.outputPath config) text.toUTF8 := by
  have ended := run_ended request config world
  refine ⟨fun cause failed => ?_, fun error after ran inner => ?_, fun generated after ran => ?_⟩
  · unfold run
    rw [sourcePath] at failed ⊢
    cases configured : config.templatePath? request.lang with
    | some template =>
      rw [configured] at failed
      exact Work.bind_error (readFile_error failed)
    | none =>
      rw [configured] at failed
      exact Work.bind_error (Work.bind_error (readFile_error failed))
  · rw [ran] at ended
    cases ended with
    | early error same => exact same
    | unwritten place cause after => exact absurd rfl (inner place cause)
  · rw [ran] at ended
    cases ended with
    | done makes wrote => exact ⟨_, makes, wrote⟩

end Request

end HighlightGrammar
