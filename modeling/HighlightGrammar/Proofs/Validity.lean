import HighlightGrammar.Grammar.Validate
import HighlightGrammar.Proofs.Resolution

/-!
# What validation demands

A check that lists problems lists none if and only if the value is as it should be.  For the shape this is
`Schema.violations_eq_nil_iff`; for the values there is one such statement for each check, from a single pattern
or reference up to a mode and the language.
-/

namespace HighlightGrammar

/-! ## Shapes -/

namespace Schema

variable {value : Json}

theorem violations_eq_nil_iff (schema : Schema) (value : Json) :
    schema.violations value = [] ↔ schema.Conforms value := by
  induction schema generalizing value with
  | any => simp [violations, Conforms]
  | kinds allowed => simp [violations, Conforms]
  | exactly text =>
    cases value <;> simp [violations, Conforms, Json.asText?]
  | required key =>
    cases value <;> simp [violations, Conforms, Option.isSome_iff_exists]
  | field key schema ih =>
    simp only [violations, Conforms]
    cases value.get? key <;> simp [ih]
  | fields schema ih =>
    cases value <;> simp [violations, Conforms, Json.asFields?, ih]
  | digitKeys =>
    cases value <;> simp [violations, Conforms, Json.asFields?]
  | items schema ih =>
    cases value <;> simp [violations, Conforms, Json.asList?, ih]
  | either first second ihFirst ihSecond =>
    simp only [violations, Conforms, ← ihFirst, ← ihSecond]
    simp [or_iff_not_imp_left]
  | both first second ihFirst ihSecond =>
    simp only [violations, Conforms, List.append_eq_nil_iff, ihFirst, ihSecond]

theorem conforms_all {schemas : List Schema} :
    (all schemas).Conforms value ↔ ∀ schema ∈ schemas, schema.Conforms value := by
  induction schemas with
  | nil => simp [all, Conforms]
  | cons first rest ih =>
    rw [List.forall_mem_cons, ← ih]
    rfl

/-- A field of a record conforms to what the record says of it. -/
theorem Conforms.field {entries : List (String × Schema)} (conforms : (record entries).Conforms value) {key : String}
    {schema : Schema} {inner : Json} (listed : entries.lookup key = some schema) (found : value.get? key = some inner) :
    schema.Conforms inner := by
  obtain ⟨before, after, rfl, -⟩ := List.lookup_eq_some_iff.1 listed
  have each := conforms_all.1 conforms (.field key schema) (by simp)
  exact each inner found

theorem eq_list_of_kinds (kinds : (Schema.kinds [.array, .null]).Conforms value) (present : value.isNull = false) :
    ∃ items, value = .list items := by
  cases value with
  | list items => exact ⟨items, rfl⟩
  | null => cases present
  | bool | number | text | object => simp [Conforms, Kind.admits] at kinds

theorem eq_text_or_object_of_kinds (kinds : (Schema.kinds [.null, .object, .string]).Conforms value)
    (present : value.isNull = false) : (∃ text, value = .text text) ∨ ∃ fields, value = .object fields := by
  cases value with
  | text text => exact Or.inl ⟨text, rfl⟩
  | object fields => exact Or.inr ⟨fields, rfl⟩
  | null => cases present
  | bool | number | list => simp [Conforms, Kind.admits] at kinds

end Schema

/-! ## Values -/

theorem Json.listed_eq (key : String) (value : Json) : value.listed key = ((value.get? key).bind asList?).getD [] := by
  unfold listed getPresent?
  cases value.get? key with
  | none => rfl
  | some found => cases found <;> rfl

theorem Json.listed_of_get? {value : Json} {key : String} {items : List Json}
    (found : value.get? key = some (.list items)) : value.listed key = items := by
  rw [listed_eq, found]
  rfl

theorem Json.getPresent?_eq_some {value inner : Json} {key : String} :
    value.getPresent? key = some inner ↔ value.get? key = some inner ∧ inner.isNull = false := by
  simp [getPresent?, Option.filter_eq_some_iff]

namespace Grammar

/-- A pattern of a known type that has known flags only. -/
def SoundPattern (value : Json) : Prop :=
  (∃ type ∈ patternTypes, value.getText? "type" = some type) ∧
    ∀ flags, value.getText? "flags" = some flags → ∀ flag ∈ flags.toList, flag ∈ patternFlags

/-- A reference by a name that is among the given ones. -/
def NamesMode (ids : List String) (value : Json) : Prop := ∃ target ∈ ids, value.getText? "ref" = some target

/-- An item of a list of references: the marker, or a reference by name. -/
def SoundRef (ids : List String) (value : Json) : Prop := value = .text "self" ∨ NamesMode ids value

/-- The pattern inside of keywords, if there is one. -/
def keywordPattern? (value : Json) : Option Json := (value.get? "keywords").bind (·.getPresent? "pattern")

structure SoundMode (ids : List String) (mode : Json) : Prop where
  patterns : ∀ field ∈ ["begin", "end", "match", "illegal"], ∀ value, mode.getPresent? field = some value →
    SoundPattern value
  keywords : ∀ value, keywordPattern? mode = some value → SoundPattern value
  refs : ∀ field ∈ ["contains", "variants"], ∀ item ∈ mode.listed field, SoundRef ids item
  starts : ∀ value, mode.getPresent? "starts" = some value → NamesMode ids value

structure SoundLanguage (ids : List String) (language : Json) : Prop where
  illegal : ∀ value, language.getPresent? "illegal" = some value → SoundPattern value
  keywords : ∀ value, keywordPattern? language = some value → SoundPattern value
  refs : ∀ item ∈ language.listed "contains", SoundRef ids item

variable {place : Place} {ids : List String} {value : Json}

theorem patternProblems_eq_nil {pattern : Option Json} :
    patternProblems place pattern = [] ↔ ∀ value, pattern.filter (!·.isNull) = some value → SoundPattern value := by
  unfold patternProblems
  cases pattern.filter (!·.isNull) with
  | none => simp
  | some value =>
    simp only [Option.some.injEq, forall_eq', SoundPattern, List.append_eq_nil_iff]
    apply and_congr
    · cases value.getText? "type" <;> simp
    · cases value.getText? "flags" <;> simp

theorem keywordProblems_eq_nil {owner : Owner} :
    keywordProblems owner value = [] ↔ ∀ pattern, keywordPattern? value = some pattern → SoundPattern pattern := by
  have same : ((value.get? "keywords").bind (·.get? "pattern")).filter (!·.isNull) = keywordPattern? value := by
    unfold keywordPattern? Json.getPresent?
    cases value.get? "keywords" <;> rfl
  rw [keywordProblems, patternProblems_eq_nil, same]

theorem refProblems_eq_nil : refProblems ids place value = [] ↔ NamesMode ids value := by
  unfold refProblems NamesMode
  cases value.getText? "ref" <;> simp

theorem refListProblems_eq_nil {field : String} :
    refListProblems ids place (value.get? field) = [] ↔ ∀ item ∈ value.listed field, SoundRef ids item := by
  rw [refListProblems, List.flatMap_eq_nil_iff, ← Json.listed_eq]
  apply forall₂_congr
  intro item _
  have marker : item.asText? = some "self" ↔ item = .text "self" := by
    cases item <;> simp [Json.asText?]
  by_cases marked : item.asText? = some "self"
  · rw [if_pos marked]
    exact iff_of_true rfl (Or.inl (marker.1 marked))
  · rw [if_neg marked, refProblems_eq_nil, SoundRef, or_iff_right fun same => marked (marker.2 same)]

theorem modeProblems_eq_nil {mode : Json} : modeProblems ids mode = [] ↔ SoundMode ids mode := by
  simp only [modeProblems, List.append_eq_nil_iff, List.flatMap_eq_nil_iff, patternProblems_eq_nil,
    keywordProblems_eq_nil, refListProblems_eq_nil, refProblems_eq_nil, Option.mem_toList, and_assoc]
  constructor
  · rintro ⟨patterns, keywords, refs, starts⟩
    exact ⟨patterns, keywords, refs, starts⟩
  · rintro ⟨patterns, keywords, refs, starts⟩
    exact ⟨patterns, keywords, refs, starts⟩

theorem mem_modeIds {modes : List Json} {id : String} :
    id ∈ modeIds modes ↔ ∃ mode ∈ modes, mode.nonEmptyText? "id" = some id :=
  List.mem_filterMap

/-- The names are there, safe, and new: no mode bears one of those seen before, or that of another one. -/
theorem idProblems_eq_nil {seen : List String} {modes : List Json} : idProblems seen modes = [] ↔
    (∀ mode ∈ modes, ∃ id, mode.nonEmptyText? "id" = some id ∧ isIdentifierSafe id = true ∧ id ∉ seen) ∧
      (modeIds modes).Nodup := by
  induction modes generalizing seen with
  | nil => simp [idProblems, modeIds]
  | cons mode rest ih =>
    rw [idProblems, List.forall_mem_cons, Json.nonEmptyText?]
    cases named : (mode.getText? "id").filter (· ≠ "") with
    | none => simp
    | some id =>
      have ids : modeIds (mode :: rest) = id :: modeIds rest := List.filterMap_cons_some named
      simp only [List.append_eq_nil_iff, ih, ids, List.nodup_cons, List.mem_cons, not_or]
      -- A name is checked against those before it; that it differs from those after it, each of these tells.
      constructor
      · rintro ⟨⟨unseen, safe⟩, others, distinct⟩
        have new : id ∉ seen := by simpa using unseen
        refine ⟨⟨⟨id, rfl, by simpa using safe, new⟩, fun other member => ?_⟩, fun again => ?_, distinct⟩
        · obtain ⟨found, named, safe, -, new⟩ := others other member
          exact ⟨found, named, safe, new⟩
        · obtain ⟨other, member, here⟩ := mem_modeIds.1 again
          obtain ⟨found, named, -, different, -⟩ := others other member
          exact different (Option.some.inj (named.symm.trans here))
      · rintro ⟨⟨⟨found, same, safe, new⟩, others⟩, once, distinct⟩
        cases same
        refine ⟨⟨by simpa using new, by simpa using safe⟩, fun other member => ?_, distinct⟩
        obtain ⟨found, named, safe, new⟩ := others other member
        exact ⟨found, named, safe, fun same => once (mem_modeIds.2 ⟨other, member, same ▸ named⟩), new⟩

/-- What is demanded of the values of a document. -/
structure SoundValues (document : Json) : Prop where
  version : (document.get? "version").bind Json.asUnsigned? = some supportedVersion
  ids : ∀ mode ∈ document.listed "modes", ∃ id, mode.nonEmptyText? "id" = some id ∧ isIdentifierSafe id = true
  distinct : (modeIds (document.listed "modes")).Nodup
  modes : ∀ mode ∈ document.listed "modes", SoundMode (modeIds (document.listed "modes")) mode
  language : ∃ language, document.get? "language" = some language ∧ language.isObject = true ∧
    SoundLanguage (modeIds (document.listed "modes")) language

theorem versionProblems_eq_nil {document : Json} :
    versionProblems document = [] ↔ (document.get? "version").bind Json.asUnsigned? = some supportedVersion := by
  unfold versionProblems
  cases document.get? "version" with
  | none => simp [Json.asUnsigned?]
  | some version => simp

theorem valueProblems_eq_nil {document : Json} : valueProblems document = [] ↔ SoundValues document := by
  simp only [valueProblems, List.append_eq_nil_iff, versionProblems_eq_nil, ← Json.listed_eq]
  cases found : (document.get? "language").filter Json.isObject with
  | none =>
    refine iff_of_false (by simp) fun sound => ?_
    obtain ⟨language, here, isObject, -⟩ := sound.language
    simp [here, isObject] at found
  | some language =>
    obtain ⟨here, isObject⟩ := Option.filter_eq_some_iff.1 found
    simp only [List.append_eq_nil_iff, List.flatMap_eq_nil_iff, patternProblems_eq_nil, keywordProblems_eq_nil,
      idProblems_eq_nil, modeProblems_eq_nil, refListProblems_eq_nil, List.not_mem_nil, not_false_eq_true, and_true]
    constructor
    · rintro ⟨version, ⟨⟨⟨illegal, keywords⟩, ids, distinct⟩, modes⟩, refs⟩
      exact ⟨version, ids, distinct, modes, language, here, isObject, illegal, keywords, refs⟩
    · intro sound
      obtain ⟨other, there, -, language⟩ := sound.language
      cases here.symm.trans there
      have own := And.intro language.illegal language.keywords
      exact ⟨sound.version, ⟨⟨own, sound.ids, sound.distinct⟩, sound.modes⟩, language.refs⟩

theorem validate_eq_nil {document : Json} {source : String} :
    validate document source = [] ↔ Shape.document.Conforms document ∧ SoundValues document := by
  rw [validate, List.map_eq_nil_iff, ← Schema.violations_eq_nil_iff, ← valueProblems_eq_nil]
  unfold problems
  split
  next sound => simp [sound]
  next violations unsound =>
    exact iff_of_false (fun none => unsound (List.map_eq_nil_iff.1 none)) fun both => unsound both.1

end Grammar

end HighlightGrammar
