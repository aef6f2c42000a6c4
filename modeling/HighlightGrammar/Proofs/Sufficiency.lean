import HighlightGrammar.Proofs.FirstViolation
import HighlightGrammar.Proofs.Generation

/-!
# Valid documents load

Validation accepts the documents that are `WellFormed`, and loading those without any `Violates`.  Here the two are
compared, with no regard to how either of them is checked.  A well-formed document violates nothing, with one
exception: every text of digits is taken for the number of a capture group, and only those that fit into 32 bits
denote one.
-/

namespace HighlightGrammar

namespace Grammar

variable {document : Json}

/-! ## Faults that are excluded -/

section Values

variable {owner : Owner} {name : String} {value : Json} {error : LoadError}

theorem not_patternFault (shape : Shape.pattern.Conforms value) (present : value ≠ .null)
    (well : WellFormedPattern value) : ¬ PatternFault owner name value error := by
  obtain ⟨kinds, required, fields, -⟩ := shape
  intro fault
  cases fault with
  | source missing =>
    cases value with
    | object entries =>
      obtain ⟨inner, found⟩ := required entries rfl
      have kind : (Schema.kinds [.string]).Conforms inner := Schema.Conforms.field fields rfl found
      cases inner with
      | text source => exact missing source found
      | null | bool | number | list | object => simp [Schema.Conforms, Kind.admits] at kind
    | null => exact present rfl
    | bool | number | text | list => simp [Schema.Conforms, Kind.admits] at kinds
  | type found typed unknown =>
    obtain known | known := well.type
    · cases typed.symm.trans known
      exact unknown.1 rfl
    · cases typed.symm.trans known
      exact unknown.2 rfl

theorem not_keywordsFault (shape : Shape.keywords.Conforms value) (present : value ≠ .null)
    (well : ∀ pattern, value.get? "pattern" = some pattern → pattern ≠ .null → WellFormedPattern pattern) :
    ¬ KeywordsFault owner value error := by
  obtain ⟨kinds, fields, -⟩ := shape
  intro fault
  cases fault with
  | kind notText notObject =>
    -- Null counts as absent, so only texts and objects are left.
    obtain ⟨words, rfl⟩ | ⟨entries, rfl⟩ := Schema.eq_text_or_object_of_kinds kinds (Json.isNull_eq_false.2 present)
    · exact notText words rfl
    · exact notObject entries rfl
  | @pattern pattern _ found fault =>
    have inner : Shape.pattern.Conforms pattern := Schema.Conforms.field fields rfl found.1
    exact not_patternFault inner found.2 (well pattern found.1 found.2) fault

/-- A reference by the name of a mode. -/
def RefersTo (document ref : Json) : Prop := ∃ id, Declares document id ∧ ref.get? "ref" = some (.text id)

theorem not_refFault (refers : value ≠ .text "self" → RefersTo document value) :
    ¬ RefFault document owner name value error := by
  intro fault
  cases fault with
  | form other unnamed =>
    obtain ⟨id, -, named⟩ := refers other
    exact unnamed id named
  | target named undeclared =>
    have other : value ≠ .text "self" := by
      rintro rfl
      cases named
    obtain ⟨id, declared, here⟩ := refers other
    cases named.symm.trans here
    exact undeclared declared

theorem not_refsFault {item : Nat} (shape : Shape.refList.Conforms value) (present : value ≠ .null)
    (refers : ∀ items, value = .list items → ∀ ref ∈ items, ref ≠ .text "self" → RefersTo document ref) :
    ¬ RefsFault document owner name value item error := by
  intro fault
  cases fault with
  | kind notList =>
    obtain ⟨items, rfl⟩ := Schema.eq_list_of_kinds shape.1 (Json.isNull_eq_false.2 present)
    exact notList items rfl
  | item list here fault => exact not_refFault (refers _ list _ (List.mem_of_getElem? here)) fault

end Values

/-! ## Capture groups -/

/-- The fields in which a mode may name capture groups. -/
def groupFields : List String := ["beginScope", "endScope"]

theorem Field.mem_groupFields (field : Field) : field.name ∈ groupFields ↔ field.kind = .scope := by
  cases field <;> simp [name, kind, groupFields]

/-- The keys of the capture groups that are named in a field of a mode. -/
def captureKeys (field : String) (mode : Json) : List String :=
  (((mode.get? field).bind Json.asFields?).getD []).map Prod.fst

theorem mem_captureKeys {field key : String} {mode : Json} :
    key ∈ captureKeys field mode ↔
      ∃ fields, mode.get? field = some (.object fields) ∧ ∃ entry ∈ fields, entry.1 = key := by
  unfold captureKeys
  cases mode.get? field with
  | none => simp
  | some inner => cases inner <;> simp [Json.asFields?]

/-- No key of a capture group of a mode is too large. -/
def KeysFit (mode : Json) : Prop :=
  ∀ field ∈ groupFields, ∀ key ∈ captureKeys field mode, Nat.ofDigitChars 10 key.toList 0 < groupBound

/-- The key of a capture group of a mode is too large, and that is the cause why the mode cannot be loaded. -/
def LargeKey (owner : Owner) (mode : Json) (cause : LoadError) : Prop :=
  ∃ field ∈ groupFields, ∃ key ∈ captureKeys field mode, isDigits key = true ∧
    groupBound ≤ Nat.ofDigitChars 10 key.toList 0 ∧ cause = .captureIndex owner field key

theorem LargeKey.not_keysFit {owner : Owner} {mode : Json} {cause : LoadError} (large : LargeKey owner mode cause) :
    ¬ KeysFit mode := by
  obtain ⟨field, listed, key, member, -, bound, -⟩ := large
  exact fun fits => Nat.not_lt_of_le bound (fits field listed key member)

/-- Digits spell their value and nothing else. -/
theorem spells_iff_of_isDigits {key : String} {value : Nat} (digits : isDigits key = true) :
    Spells key value ↔ Nat.ofDigitChars 10 key.toList 0 = value := by
  obtain ⟨nonEmpty, all⟩ : key.toList ≠ [] ∧ ∀ c ∈ key.toList, c.isDigit = true := by
    simpa [isDigits] using digits
  constructor
  · rintro ⟨found, same | same, -, -, here⟩
    · rwa [same]
    · -- A sign is no digit.
      have sign : ('+').isDigit = true := all '+' (same ▸ List.mem_cons_self)
      exact absurd sign (by decide)
  · exact fun same => ⟨key.toList, .inl rfl, nonEmpty, all, same⟩

theorem denotesGroup_iff_of_isDigits {key : String} (digits : isDigits key = true) :
    DenotesGroup key ↔ Nat.ofDigitChars 10 key.toList 0 < groupBound := by
  simp only [DenotesGroup, spells_iff_of_isDigits digits, exists_eq_right']

theorem isDigits_of_mem {fields : List (String × Json)} (shape : Shape.scope.Conforms (.object fields))
    {key : String} {scope : Json} (member : (key, scope) ∈ fields) : isDigits key = true := by
  obtain ⟨-, -, digits, -⟩ := shape
  exact digits fields rfl (key, scope) member

/-! ## Fields -/

/-- The shape of the values of a kind. -/
def Field.Kind.shape : Field.Kind → Schema
  | .ref => .either (.kinds [.null]) Shape.ref
  | .pattern => Shape.pattern
  | .keywords => Shape.keywords
  | .scope => Shape.scope
  | .refs => Shape.refList

/-- What is demanded of the values of a kind, beyond their shape. -/
def WellFormedValue (document value : Json) : Field.Kind → Prop
  | .ref => RefersTo document value
  | .pattern => WellFormedPattern value
  | .keywords => ∀ pattern, value.get? "pattern" = some pattern → pattern ≠ .null → WellFormedPattern pattern
  | .scope => True
  | .refs => ∀ items, value = .list items → ∀ ref ∈ items, ref ≠ .text "self" → RefersTo document ref

/-- Of a well-formed value only the keys of capture groups can be at fault, and only by their size. -/
theorem large_of_valueFault {owner : Owner} {name : String} {value : Json} {item : Nat} {error : LoadError}
    {kind : Field.Kind} (shape : kind.shape.Conforms value) (well : WellFormedValue document value kind)
    (present : value ≠ .null) (fault : ValueFault document owner name value item error kind) :
    kind = .scope ∧ ∃ fields, value = .object fields ∧ ∃ entry ∈ fields, isDigits entry.1 = true ∧
      groupBound ≤ Nat.ofDigitChars 10 entry.1.toList 0 ∧ error = .captureIndex owner name entry.1 := by
  cases kind with
  | ref => exact absurd fault.2 (not_refFault fun _ => well)
  | pattern => exact absurd fault.2 (not_patternFault shape present well)
  | keywords => exact absurd fault.2 (not_keywordsFault shape present well)
  | refs => exact absurd fault (not_refsFault shape present well)
  | scope =>
    cases fault with
    | kind notText notObject =>
      obtain ⟨text, rfl⟩ | ⟨fields, rfl⟩ :=
        Schema.eq_text_or_object_of_kinds shape.1 (Json.isNull_eq_false.2 present)
      · exact absurd rfl (notText text)
      · exact absurd rfl (notObject fields)
    | @key fields _ key scope object here denotesNone =>
      subst object
      have member : (key, scope) ∈ fields := List.mem_of_getElem? here
      have digits : isDigits key = true := isDigits_of_mem shape member
      rw [denotesGroup_iff_of_isDigits digits] at denotesNone
      exact ⟨rfl, fields, rfl, _, member, digits, Nat.le_of_not_lt denotesNone, rfl⟩

theorem conforms_of_lists (shape : Shape.document.Conforms document) {mode : Json}
    (declared : document.Lists "modes" mode) : Shape.mode.Conforms mode := by
  obtain ⟨-, fields, -⟩ := shape
  obtain ⟨modes, found, member⟩ := declared
  have each : (Schema.all [.kinds [.array, .null], .items Shape.mode]).Conforms (.list modes) := fields.field rfl found
  exact each.2.1 modes rfl mode member

namespace WellFormed

theorem modeField (well : WellFormed document) {mode value : Json} (declared : document.Lists "modes" mode)
    {field : Field} (found : mode.Holds field.name value) :
    field.kind.shape.Conforms value ∧ WellFormedValue document value field.kind := by
  obtain ⟨here, present⟩ := found
  constructor
  · obtain ⟨-, fields, -⟩ := conforms_of_lists well.shape declared
    cases field <;> exact fields.field rfl here
  · cases field with
    | starts => exact well.refs value (.starts declared here present)
    | opening | closing | whole | illegal => exact well.patterns value (.mode declared (by decide) here) present
    | keywords => exact fun pattern inside => well.patterns pattern (.modeKeywords declared here inside)
    | beginScope | endScope => trivial
    | contains | variants =>
      rintro items rfl ref member other
      exact well.refs ref (.listed declared (by decide) ⟨items, here, member⟩ other)

theorem languageField (well : WellFormed document) {language value : Json}
    (described : document.get? "language" = some language) {field : Field} (known : field ∈ Field.ofLanguage)
    (found : language.Holds field.name value) :
    field.kind ≠ .scope ∧ field.kind.shape.Conforms value ∧ WellFormedValue document value field.kind := by
  obtain ⟨here, present⟩ := found
  obtain ⟨-, documentFields, -⟩ := well.shape
  obtain ⟨-, fields, -⟩ : Shape.language.Conforms language := documentFields.field rfl described
  simp only [Field.ofLanguage, List.mem_cons, List.not_mem_nil, or_false] at known
  obtain rfl | rfl | rfl := known
  · exact ⟨by simp [Field.kind], fields.field rfl here,
      fun pattern inside => well.patterns pattern (.languageKeywords described here inside)⟩
  · exact ⟨by simp [Field.kind], fields.field rfl here, well.patterns value (.language described here) present⟩
  · refine ⟨by simp [Field.kind], fields.field rfl here, ?_⟩
    rintro items rfl ref member other
    exact well.refs ref (.language described ⟨items, here, member⟩ other)

end WellFormed

/-! ## Documents -/

/-- All capture groups of a document can be numbered. -/
def GroupsFit (document : Json) : Prop := ∀ mode ∈ document.listed "modes", KeysFit mode

instance (document : Json) : Decidable (GroupsFit document) :=
  inferInstanceAs (Decidable (∀ mode ∈ document.listed "modes", ∀ field ∈ groupFields, ∀ key ∈ captureKeys field mode,
    Nat.ofDigitChars 10 key.toList 0 < groupBound))

/-- A document cannot be loaded because of a capture group of one of its modes. -/
def LargeGroup (document : Json) (cause : LoadError) : Prop :=
  ∃ mode ∈ document.listed "modes", ∃ id, mode.getText? "id" = some id ∧ LargeKey (.mode id) mode cause

theorem LargeGroup.not_groupsFit {cause : LoadError} (large : LargeGroup document cause) : ¬ GroupsFit document := by
  obtain ⟨mode, member, id, -, large⟩ := large
  exact fun fits => large.not_keysFit (fits mode member)

namespace WellFormed

theorem largeGroup (well : WellFormed document) {point : Checkpoint} {error : LoadError}
    (violated : Violates document point error) : LargeGroup document error := by
  cases violated with
  | version missing => exact absurd well.version (missing 1 (by decide))
  | language missing =>
    obtain ⟨fields, described⟩ := well.language
    exact absurd described (missing fields)
  | @modes value found notList =>
    obtain ⟨-, fields, -⟩ := well.shape
    have each : (Schema.all [.kinds [.array, .null], .items Shape.mode]).Conforms value := fields.field rfl found.1
    obtain ⟨items, rfl⟩ := Schema.eq_list_of_kinds each.1 (Json.isNull_eq_false.2 found.2)
    exact absurd rfl (notList items)
  | id listed here unnamed =>
    obtain ⟨id, named, present, -⟩ := well.ids _ ⟨_, listed, List.mem_of_getElem? here⟩
    exact absurd (unnamed id named) present
  | @modeField modes i mode id field item _ listed here named fault =>
    have declared : document.Lists "modes" mode := ⟨modes, listed, List.mem_of_getElem? here⟩
    obtain ⟨value, found, fault⟩ := fault
    obtain ⟨shape, sound⟩ := well.modeField declared found
    obtain ⟨kind, fields, rfl, entry, member, large⟩ := large_of_valueFault shape sound found.2 fault
    have inside : entry.1 ∈ captureKeys field.name mode := mem_captureKeys.2 ⟨fields, found.1, entry, member, rfl⟩
    exact ⟨mode, Json.mem_listed.2 declared, id, Json.getText?_eq_some.2 named, field.name,
      field.mem_groupFields.2 kind, entry.1, inside, large⟩
  | languageField described known fault =>
    -- The language names no capture groups.
    obtain ⟨value, found, fault⟩ := fault
    obtain ⟨other, shape, sound⟩ := well.languageField described known found
    exact absurd (large_of_valueFault shape sound found.2 fault).1 other

/-- A key that is too large violates what loading demands. -/
theorem groupsFit (well : WellFormed document) (none : ∀ point error, ¬ Violates document point error) :
    GroupsFit document := by
  intro mode member field listed key inside
  by_contra large
  obtain ⟨modes, listedHere, declared⟩ := Json.mem_listed.1 member
  obtain ⟨i, here⟩ := List.mem_iff_getElem?.1 declared
  obtain ⟨id, named, -⟩ := well.ids mode ⟨modes, listedHere, declared⟩
  obtain ⟨field, rfl⟩ : ∃ known : Field, known.name = field := by
    simp only [groupFields, List.mem_cons, List.not_mem_nil, or_false] at listed
    obtain rfl | rfl := listed
    · exact ⟨.beginScope, rfl⟩
    · exact ⟨.endScope, rfl⟩
  have kind := field.mem_groupFields.1 listed
  obtain ⟨fields, found, entry, entered, rfl⟩ := mem_captureKeys.1 inside
  obtain ⟨item, there⟩ := List.mem_iff_getElem?.1 entered
  have holds : mode.Holds field.name (.object fields) := ⟨found, by simp⟩
  obtain ⟨shape, -⟩ := well.modeField ⟨modes, listedHere, declared⟩ holds
  rw [kind] at shape
  have denotesNone := mt (denotesGroup_iff_of_isDigits (isDigits_of_mem shape entered)).1 large
  have fault : FieldFault document (.mode id) mode field item (.captureIndex (.mode id) field.name entry.1) := by
    refine ⟨.object fields, holds, ?_⟩
    rw [kind]
    exact .key rfl there denotesNone
  exact none _ _ (.modeField listedHere here named fault)

/-- What a load that fails reports, and why one that succeeds does not fail. -/
theorem load_cases (well : WellFormed document) :
    ((∃ grammar, load document = .ok grammar) ↔ GroupsFit document) ∧
      ∀ cause, load document = .error cause → LargeGroup document cause := by
  have reports := reports_load document
  cases outcome : load document with
  | ok grammar =>
    rw [outcome] at reports
    refine ⟨iff_of_true ⟨grammar, rfl⟩ (well.groupsFit reports), fun cause failed => ?_⟩
    cases failed
  | error cause =>
    rw [outcome] at reports
    obtain ⟨point, violated, -⟩ := reports
    have large := well.largeGroup violated
    refine ⟨iff_of_false ?_ large.not_groupsFit, fun other failed => ?_⟩
    · rintro ⟨grammar, loaded⟩
      cases loaded
    · cases failed
      exact large

end WellFormed

theorem wellFormed_of_valid {source : String} (valid : validate document source = []) : WellFormed document := by
  obtain ⟨shape, sound⟩ := validate_eq_nil.1 valid
  exact sound.wellFormed shape

/-- A valid document is loaded, unless a capture group has too large a number; and if generation stops at loading,
then for that reason. -/
theorem load_of_valid {document : Json} {source : String} (valid : validate document source = []) :
    ((∃ grammar, load document = .ok grammar) ↔ GroupsFit document) ∧
    (∀ cause, load document = .error cause → LargeGroup document cause) ∧
    ∀ (σ : Type) [Host (StateM σ)] (request : Request) (config : Config) (state : σ) (cause : LoadError),
      ((request.run config : ExceptT GenerateError (StateM σ) Generated).run state).1 = .error (.load cause) →
        ∃ faulty path, validate faulty path = [] ∧ LargeGroup faulty cause := by
  obtain ⟨loads, fails⟩ := (wellFormed_of_valid valid).load_cases
  refine ⟨loads, fails, ?_⟩
  intro σ _ request config state cause failed
  cases request.run_failsBy config state _ failed with
  | @load path faulty _ accepted unloaded =>
    exact ⟨faulty, path, accepted, (wellFormed_of_valid accepted).load_cases.2 cause unloaded⟩

/-- A mode that names one capture group. -/
def groupDocument (key : String) : Json :=
  .object [
    ("language", .object []),
    ("modes", .list [.object [("beginScope", .object [(key, .text "keyword")]), ("id", .text "a")]]),
    ("version", .number (.whole 1))]

theorem load_largest_group : validate (groupDocument "4294967295") "a.json" = [] ∧
    ∃ grammar, load (groupDocument "4294967295") = .ok grammar := by
  have valid : validate (groupDocument "4294967295") "a.json" = [] := by rfl
  have fits : GroupsFit (groupDocument "4294967295") := by decide
  exact ⟨valid, (load_of_valid valid).1.2 fits⟩

theorem validate_larger_group : validate (groupDocument "4294967296") "a.json" = [] ∧
    load (groupDocument "4294967296") = .error (.captureIndex (.mode "a") "beginScope" "4294967296") := by
  constructor
  · rfl
  · with_unfolding_all rfl

end Grammar

end HighlightGrammar
