import HighlightGrammar.Proofs.Reporting

/-!
# Loading reports the first violation

Loading goes through a document in six steps: the version, the language as such, the list of modes, the names of all
modes, the fields of one mode after another, and the fields of the language.  Each step reports the violations at its
own places, and these come before those of the later steps.  So loading succeeds if and only if nothing is violated,
and otherwise its error is the first violation of the document.
-/

namespace HighlightGrammar.Grammar

/-! ## Six steps -/

namespace Checkpoint

/-- The step of loading that comes by a place. -/
def stage : Checkpoint → Nat
  | .version => 0
  | .language => 1
  | .modes => 2
  | .id _ => 3
  | .modeField _ _ _ => 4
  | .languageField _ _ => 5

theorem stage_le (point : Checkpoint) : point.stage ≤ 5 := by
  cases point <;> simp [stage]

theorem before_of_stage {a b : Checkpoint} (less : a.stage < b.stage) : a.Before b := by
  cases a <;> cases b <;> exact List.Lex.rel less

theorem Before.asymm {a b : Checkpoint} (before : a.Before b) : ¬ b.Before a := List.lt_asymm before

theorem fieldOrder_mode (i : Nat) : FieldOrder (.modeField i) := by
  rintro field item other later (less | ⟨rfl, less⟩)
  · exact .cons (.cons (.rel less))
  · exact .cons (.cons (.cons (.rel less)))

theorem fieldOrder_language : FieldOrder .languageField := by
  rintro field item other later (less | ⟨rfl, less⟩)
  · exact .cons (.rel less)
  · exact .cons (.cons (.rel less))

end Checkpoint

section Documents

variable {α β : Type} {document : Json}

/-- The violations at one step. -/
def ViolatesAt (document : Json) (stage : Nat) (point : Checkpoint) (error : LoadError) : Prop :=
  Violates document point error ∧ point.stage = stage

/-- The violations from one step on. -/
def ViolatesFrom (document : Json) (stage : Nat) (point : Checkpoint) (error : LoadError) : Prop :=
  Violates document point error ∧ stage ≤ point.stage

namespace Reports

variable {stage : Nat}

theorem andThen {step : Except LoadError α} {next : α → Except LoadError β}
    (first : Reports (ViolatesAt document stage) step)
    (second : ∀ a, step = .ok a → Reports (ViolatesFrom document (stage + 1)) (next a)) :
    Reports (ViolatesFrom document stage) (step >>= next) := by
  refine (first.bind second ?_).congr fun point error => ?_
  · rintro point error other cause ⟨-, here⟩ ⟨-, later⟩
    exact Checkpoint.before_of_stage (by omega)
  · simp only [ViolatesAt, ViolatesFrom, ← and_or_left]
    refine and_congr_right fun _ => ?_
    omega

/-- A step that fails. -/
theorem stop {cause : LoadError} (failed : Reports (ViolatesAt document stage) (.error cause : Except LoadError α)) :
    Reports (ViolatesFrom document stage) (.error cause : Except LoadError β) := by
  change Reports _ ((.error cause : Except LoadError α) >>= fun _ => .error cause)
  exact failed.andThen fun a done => by cases done

/-- A step that succeeds. -/
theorem pass {a : α} {rest : Except LoadError β} (done : Reports (ViolatesAt document stage) (.ok a))
    (reports : Reports (ViolatesFrom document (stage + 1)) rest) : Reports (ViolatesFrom document stage) rest := by
  change Reports _ ((.ok a : Except LoadError α) >>= fun _ => rest)
  exact done.andThen fun _ _ => reports

end Reports

/-! ### The steps -/

theorem elim_eq_error_iff {found : Option α} {cause error : LoadError} :
    found.elim (.error cause) Except.ok = .error error ↔ found = none ∧ error = cause := by
  cases found <;> simp [eq_comm]

theorem reports_version (document : Json) : Reports (ViolatesAt document 0)
    (((document.get? "version").bind Json.asUnsigned?).elim (.error .missingVersion) .ok) := by
  refine (Reports.single .version fun error => elim_eq_error_iff).congr fun point error => ?_
  rw [Option.eq_none_iff_forall_ne_some]
  simp only [ne_eq, Option.bind_eq_some_iff, Json.asUnsigned?_eq_some, not_exists, not_and]
  constructor
  · rintro ⟨rfl, missing, rfl⟩
    exact ⟨.version fun version less found => missing version _ found less rfl, rfl⟩
  · rintro ⟨violated, here⟩
    cases violated with
    | version missing =>
      refine ⟨rfl, fun version value found less same => ?_, rfl⟩
      exact missing version less (same ▸ found)
    | language | modes | id | modeField | languageField => cases here

theorem reports_languageObject (document : Json) : Reports (ViolatesAt document 1)
    (((document.get? "language").filter Json.isObject).elim (.error .missingLanguage) .ok) := by
  refine (Reports.single .language fun error => elim_eq_error_iff).congr fun point error => ?_
  rw [Option.filter_eq_none_iff]
  constructor
  · rintro ⟨rfl, missing, rfl⟩
    exact ⟨.language fun fields found => missing _ found rfl, rfl⟩
  · rintro ⟨violated, here⟩
    cases violated with
    | language missing =>
      refine ⟨rfl, fun value found isObject => ?_, rfl⟩
      cases value with
      | object fields => exact missing fields found
      | null | bool | number | text | list => cases isObject
    | version | modes | id | modeField | languageField => cases here

theorem modeValues_eq_error_iff {error : LoadError} : modeValues document = .error error ↔
    (∃ value, document.Holds "modes" value ∧ ∀ items, value ≠ .list items) ∧ error = .modesNotList := by
  simp only [← Json.getPresent?_eq_some_iff_holds]
  unfold modeValues
  split
  next absent => simp [absent]
  next items present => simp [present]
  next value notList present =>
    rw [present]
    constructor
    · intro failed
      cases failed
      exact ⟨⟨value, rfl, notList⟩, rfl⟩
    · rintro ⟨-, rfl⟩
      rfl

theorem reports_modeValues (document : Json) : Reports (ViolatesAt document 2) (modeValues document) := by
  refine (Reports.single .modes fun error => modeValues_eq_error_iff).congr fun point error => ?_
  constructor
  · rintro ⟨rfl, ⟨value, found, notList⟩, rfl⟩
    exact ⟨.modes found notList, rfl⟩
  · rintro ⟨violated, here⟩
    cases violated with
    | modes found notList => exact ⟨rfl, ⟨_, found, notList⟩, rfl⟩
    | version | language | id | modeField | languageField => cases here

variable {n : Nat}

theorem Reports.vector {P : Checkpoint → LoadError → Prop} {f : α → Except LoadError β} {v : Vector α n}
    (reports : Reports P (v.toList.mapM f)) : Reports P (v.mapM f) := by
  rwa [mapM_toList, Reports.map_iff] at reports

theorem getElem?_listed {key : String} {i : Nat} {item : Json} : (document.listed key)[i]? = some item ↔
    ∃ items, document.get? key = some (.list items) ∧ items[i]? = some item := by
  rw [Json.listed_eq]
  cases document.get? key with
  | none => simp
  | some found => cases found <;> simp [Json.asList?]

theorem loadId_eq_error_iff {mode : Json} {error : LoadError} : loadId mode = .error error ↔
    (∀ id, mode.get? "id" = some (.text id) → id = "") ∧ error = .missingId := by
  have unnamed : mode.nonEmptyText? "id" = none ↔ ∀ id, mode.get? "id" = some (.text id) → id = "" := by
    simp [Option.eq_none_iff_forall_ne_some, Json.nonEmptyText?_eq_some]
  rw [← unnamed, loadId]
  cases mode.nonEmptyText? "id" <;> simp [eq_comm]

theorem reports_ids {values : Vector Json n} (listed : values.toList = document.listed "modes") :
    Reports (ViolatesAt document 3) (values.mapM loadId) := by
  have inOrder : InOrder fun i (mode : Json) point error => point = Checkpoint.id i ∧
      ((∀ id, mode.get? "id" = some (.text id) → id = "") ∧ error = .missingId) := by
    rintro i j _ _ _ _ _ _ less ⟨rfl, -⟩ ⟨rfl, -⟩
    exact .cons (.rel less)
  have each := Reports.mapM inOrder fun i mode (_ : (document.listed "modes")[i]? = some mode) =>
    Reports.single (.id i) fun error => loadId_eq_error_iff
  refine Reports.vector (listed ▸ each.congr fun point error => ?_)
  constructor
  · rintro ⟨i, mode, declared, rfl, unnamed, rfl⟩
    obtain ⟨modes, found, here⟩ := getElem?_listed.1 declared
    exact ⟨.id found here unnamed, rfl⟩
  · rintro ⟨violated, here⟩
    cases violated with
    | id found declared unnamed => exact ⟨_, _, getElem?_listed.2 ⟨_, found, declared⟩, rfl, unnamed, rfl⟩
    | version | language | modes | modeField | languageField => cases here

variable {ids : Vector String (document.listed "modes").length}
variable (named : ∀ i, loadId ((document.listed "modes").get i) = .ok (ids.get i))

include named

theorem get?_id (i : Fin (document.listed "modes").length) :
    ((document.listed "modes").get i).get? "id" = some (.text (ids.get i)) :=
  Json.getText?_eq_some.1 (getText?_of_loadId (named i))

theorem mem_ids_iff (id : String) : id ∈ ids ↔ Declares document id := by
  constructor
  · intro member
    obtain ⟨i, inside, rfl⟩ := Vector.mem_iff_getElem.1 member
    exact ⟨_, Json.mem_listed.1 (List.get_mem _ ⟨i, inside⟩), get?_id named ⟨i, inside⟩⟩
  · rintro ⟨mode, listed, here⟩
    obtain ⟨i, rfl⟩ := List.mem_iff_get.1 (Json.mem_listed.2 listed)
    cases here.symm.trans (get?_id named i)
    exact Vector.getElem_mem i.isLt

/-- The modes, together with the names that were read. -/
theorem getElem?_zip_toList {values : Vector Json (document.listed "modes").length}
    (listed : values.toList = document.listed "modes") {i : Nat} {id : String} {mode : Json} :
    (ids.zip values).toList[i]? = some (id, mode) ↔
      (document.listed "modes")[i]? = some mode ∧ mode.get? "id" = some (.text id) := by
  have lists : (ids.zip values).toList = ids.toList.zip (document.listed "modes") := by rw [Vector.toList_zip, listed]
  rw [lists, List.getElem?_zip_eq_some, and_comm]
  refine and_congr_right fun here => ?_
  obtain ⟨inside, rfl⟩ := List.getElem?_eq_some_iff.1 here
  have name := get?_id named ⟨i, inside⟩
  rw [List.get_eq_getElem] at name
  rw [name, Vector.getElem?_toList, Vector.getElem?_eq_getElem inside]
  simp [Vector.get]

theorem reports_modes {values : Vector Json (document.listed "modes").length}
    (listed : values.toList = document.listed "modes") :
    Reports (ViolatesAt document 4) ((ids.zip values).mapM fun entry => loadMode ids entry.1 entry.2) := by
  have inOrder : InOrder fun i (entry : String × Json) =>
      FaultsOf document (.mode entry.1) entry.2 (.modeField i) Field.all := by
    -- The number of the mode decides before the field does.
    rintro i j _ _ _ _ _ _ less ⟨field, -, item, rfl, -⟩ ⟨other, -, later, rfl, -⟩
    exact .cons (.rel less)
  have each := Reports.mapM inOrder fun i entry (_ : (ids.zip values).toList[i]? = some entry) =>
    reports_mode (mem_ids_iff named) (Checkpoint.fieldOrder_mode i) entry.1
  refine Reports.vector (each.congr fun point error => ?_)
  constructor
  · rintro ⟨i, ⟨id, mode⟩, zipped, field, -, item, rfl, fault⟩
    obtain ⟨declared, name⟩ := (getElem?_zip_toList named listed).1 zipped
    obtain ⟨modes, found, here⟩ := getElem?_listed.1 declared
    exact ⟨.modeField found here name fault, rfl⟩
  · rintro ⟨violated, here⟩
    cases violated with
    | @modeField modes i mode id field item _ found declared name fault =>
      have zipped := (getElem?_zip_toList named listed).2 ⟨getElem?_listed.2 ⟨modes, found, declared⟩, name⟩
      have known : field ∈ Field.all := by cases field <;> decide
      exact ⟨i, (id, mode), zipped, field, known, item, rfl, fault⟩
    | version | language | modes | id | languageField => cases here

theorem reports_languageFields {language : Json} (described : document.get? "language" = some language) :
    Reports (ViolatesAt document 5) (loadLanguage ids language) := by
  refine (reports_language (mem_ids_iff named) Checkpoint.fieldOrder_language).congr fun point error => ?_
  constructor
  · rintro ⟨field, known, item, rfl, fault⟩
    exact ⟨.languageField described known fault, rfl⟩
  · rintro ⟨violated, here⟩
    cases violated with
    | languageField found known fault =>
      cases described.symm.trans found
      exact ⟨_, known, _, rfl, fault⟩
    | version | language | modes | id | modeField => cases here

omit named in
theorem reports_load (document : Json) : Reports (Violates document) (load document) := by
  have version := reports_version document
  have object := reports_languageObject document
  refine Reports.congr (P := ViolatesFrom document 0) ?_ fun point error => and_iff_left (Nat.zero_le _)
  unfold load
  split
  next missing =>
    rw [missing] at version
    exact version.stop
  next number found =>
    rw [found] at version
    refine version.pass ?_
    split
    next missing =>
      rw [missing] at object
      exact object.stop
    next language found =>
      rw [found] at object
      refine object.pass ?_
      refine (reports_modeValues document).andThen fun items itemsRead => ?_
      obtain rfl := listed_of_modeValues itemsRead
      refine (reports_ids rfl).andThen fun ids idsRead => ?_
      -- From here on every mode has a name, and references can be looked up.
      have named := get_of_mapM idsRead
      refine (reports_modes named rfl).andThen fun modes _ => ?_
      have described := (Option.filter_eq_some_iff.1 found).1
      refine ((reports_languageFields named described).last _).congr fun point error => ?_
      -- Nothing comes after the fields of the language.
      have last := point.stage_le
      refine and_congr_right fun _ => ?_
      omega

end Documents

/-- A document is loaded if and only if it has no violation, and otherwise the first one is reported. -/
theorem load_reports_first (document : Json) :
    ((∃ grammar, load document = .ok grammar) ↔ ∀ point error, ¬ Violates document point error) ∧
    ∀ error, load document = .error error ↔ FirstViolation document error := by
  have reports := reports_load document
  cases outcome : load document with
  | ok grammar =>
    rw [outcome] at reports
    refine ⟨⟨fun _ => reports, fun _ => ⟨grammar, rfl⟩⟩, fun error => ?_⟩
    constructor
    · intro failed
      cases failed
    · rintro ⟨point, violated, -⟩
      exact absurd violated (reports point error)
  | error cause =>
    rw [outcome] at reports
    obtain ⟨point, violated, least⟩ := reports
    refine ⟨⟨?_, fun none => absurd violated (none point cause)⟩, fun error => ⟨?_, ?_⟩⟩
    · rintro ⟨grammar, done⟩
      cases done
    · intro failed
      cases failed
      refine ⟨point, violated, fun earlier before other violatedEarlier => ?_⟩
      obtain later | ⟨rfl, -⟩ := least earlier other violatedEarlier
      · exact before.asymm later
      · exact before.asymm before
    · rintro ⟨first, violatedFirst, none⟩
      obtain later | ⟨-, rfl⟩ := least first error violatedFirst
      · exact absurd violated (none point later cause)
      · rfl

/-- A name that is missing counts before a pattern without a source, also where its mode comes later. -/
example : load (.object [
    ("language", .object []),
    ("modes", .list [.object [("begin", .object []), ("id", .text "a")], .object [("id", .text "")]]),
    ("version", .number (.whole 1))]) = .error .missingId := by
  with_unfolding_all rfl

end HighlightGrammar.Grammar
