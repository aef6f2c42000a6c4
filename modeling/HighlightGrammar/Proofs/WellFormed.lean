import HighlightGrammar.Proofs.Validity

/-!
# Well-formed documents

`Grammar.WellFormed` says of a document as it is written what makes it a grammar: its shape, its version, the names
of its modes, and the patterns and references wherever they stand.  It speaks about the fields of the document and
about no check.  Validation finds nothing to report exactly about well-formed documents.
-/

namespace HighlightGrammar

/-! ## What stands where -/

/-- An item of the list under a key. -/
def Json.Lists (whole : Json) (key : String) (item : Json) : Prop :=
  ∃ items, whole.get? key = some (.list items) ∧ item ∈ items

theorem Json.mem_listed {whole item : Json} {key : String} : item ∈ whole.listed key ↔ whole.Lists key item := by
  rw [listed_eq, Lists]
  cases whole.get? key with
  | none => simp
  | some found => cases found <;> simp [asList?]

theorem Json.getText?_eq_some {whole : Json} {key text : String} :
    whole.getText? key = some text ↔ whole.get? key = some (.text text) := by
  rw [getText?]
  cases whole.get? key with
  | none => simp
  | some found => cases found <;> simp [asText?]

theorem Json.nonEmptyText?_eq_some {whole : Json} {key text : String} :
    whole.nonEmptyText? key = some text ↔ whole.get? key = some (.text text) ∧ text ≠ "" := by
  simp [nonEmptyText?, Option.filter_eq_some_iff, getText?_eq_some]

theorem Json.isNull_eq_false {value : Json} : value.isNull = false ↔ value ≠ .null := by
  cases value <;> simp [isNull]

theorem Json.asUnsigned?_eq_some {value : Json} {number : Nat} :
    value.asUnsigned? = some number ↔ number < Nat.pow 2 64 ∧ value = .number (.whole number) := by
  have bound : Int.pow 2 64 = (Nat.pow 2 64 : Nat) := rfl
  constructor
  · intro read
    cases value with
    | number value =>
      cases value with
      | whole value =>
        rw [asUnsigned?, bound] at read
        split at read
        next bounds =>
          cases read
          exact ⟨by omega, by rw [Int.toNat_of_nonneg bounds.1]⟩
        next => cases read
      | float => cases read
    | null | bool | text | list | object => cases read
  · rintro ⟨less, rfl⟩
    rw [asUnsigned?, bound, if_pos ⟨Int.natCast_nonneg number, Int.ofNat_lt.2 less⟩, Int.toNat_natCast]

theorem Json.asUnsigned?_eq_one {value : Json} : value.asUnsigned? = some 1 ↔ value = .number (.whole 1) := by
  rw [asUnsigned?_eq_some]
  exact and_iff_right (by decide)

namespace Grammar

/-- Letters, digits and the underscore. -/
def IdentifierChar (c : Char) : Prop := ('a' ≤ c ∧ c ≤ 'z') ∨ ('A' ≤ c ∧ c ≤ 'Z') ∨ ('0' ≤ c ∧ c ≤ '9') ∨ c = '_'

/-- The value of a field that holds a pattern: of a mode, of the language, or of the keywords of either. -/
inductive HasPattern (document pattern : Json) : Prop where
  | mode {mode : Json} {field : String} (declared : document.Lists "modes" mode)
    (listed : field ∈ ["begin", "end", "match", "illegal"]) (found : mode.get? field = some pattern)
  | modeKeywords {mode keywords : Json} (declared : document.Lists "modes" mode)
    (outer : mode.get? "keywords" = some keywords) (found : keywords.get? "pattern" = some pattern)
  | language {language : Json} (described : document.get? "language" = some language)
    (found : language.get? "illegal" = some pattern)
  | languageKeywords {language keywords : Json} (described : document.get? "language" = some language)
    (outer : language.get? "keywords" = some keywords) (found : keywords.get? "pattern" = some pattern)

/-- What has to refer to a mode: the items of lists of references, markers apart, and what a mode starts. -/
inductive HasRef (document ref : Json) : Prop where
  | listed {mode : Json} {field : String} (declared : document.Lists "modes" mode)
    (listed : field ∈ ["contains", "variants"]) (found : mode.Lists field ref) (other : ref ≠ .text "self")
  | starts {mode : Json} (declared : document.Lists "modes" mode) (found : mode.get? "starts" = some ref)
    (present : ref ≠ .null)
  | language {language : Json} (described : document.get? "language" = some language)
    (found : language.Lists "contains" ref) (other : ref ≠ .text "self")

/-- Some mode has the name. -/
def Declares (document : Json) (id : String) : Prop :=
  ∃ mode, document.Lists "modes" mode ∧ mode.get? "id" = some (.text id)

structure WellFormedPattern (pattern : Json) : Prop where
  type : pattern.get? "type" = some (.text "regex") ∨ pattern.get? "type" = some (.text "string")
  flags : ∀ flags, pattern.get? "flags" = some (.text flags) → ∀ flag ∈ flags.toList, flag = 'i' ∨ flag = 'u'

structure WellFormed (document : Json) : Prop where
  shape : Shape.document.Conforms document
  version : document.get? "version" = some (.number (.whole 1))
  language : ∃ fields, document.get? "language" = some (.object fields)
  ids : ∀ mode, document.Lists "modes" mode →
    ∃ id, mode.get? "id" = some (.text id) ∧ id ≠ "" ∧ ∀ c ∈ id.toList, IdentifierChar c
  distinct : ∀ modes, document.get? "modes" = some (.list modes) →
    modes.Pairwise fun mode other => mode.get? "id" ≠ other.get? "id"
  patterns : ∀ pattern, HasPattern document pattern → pattern ≠ .null → WellFormedPattern pattern
  refs : ∀ ref, HasRef document ref → ∃ id, Declares document id ∧ ref.get? "ref" = some (.text id)

/-! ## The checks demand no more and no less -/

variable {document value : Json}

/-- The classes of characters as intervals. -/
theorem isAlphanum_eq (c : Char) : c.isAlphanum =
    (decide ('A'.val ≤ c.val ∧ c.val ≤ 'Z'.val) || (decide ('a'.val ≤ c.val) && decide (c.val ≤ 'z'.val)) ||
      (decide ('0'.val ≤ c.val) && decide (c.val ≤ '9'.val))) := rfl

theorem isIdentifierSafe_iff {id : String} : isIdentifierSafe id = true ↔ ∀ c ∈ id.toList, IdentifierChar c := by
  rw [isIdentifierSafe, List.all_eq_true]
  apply forall₂_congr
  intro c _
  simp only [IdentifierChar, isAlphanum_eq, Char.le_def, Bool.or_eq_true, Bool.and_eq_true, decide_eq_true_eq,
    beq_iff_eq]
  tauto

theorem soundPattern_iff : SoundPattern value ↔ WellFormedPattern value := by
  simp only [SoundPattern, patternTypes, patternFlags, Json.getText?_eq_some, List.mem_cons, List.not_mem_nil, or_false,
    exists_eq_or_imp, exists_eq_left]
  constructor
  · rintro ⟨type, flags⟩
    exact ⟨type, flags⟩
  · rintro ⟨type, flags⟩
    exact ⟨type, flags⟩

theorem mem_modeIds_listed {id : String} :
    id ∈ modeIds (document.listed "modes") ↔ Declares document id ∧ id ≠ "" := by
  simp only [mem_modeIds, Json.mem_listed, Json.nonEmptyText?_eq_some, Declares]
  constructor
  · rintro ⟨mode, declared, named, present⟩
    exact ⟨⟨mode, declared, named⟩, present⟩
  · rintro ⟨⟨mode, declared, named⟩, present⟩
    exact ⟨mode, declared, named, present⟩

theorem nodup_modeIds {modes : List Json} (named : ∀ mode ∈ modes, ∃ id, mode.nonEmptyText? "id" = some id) :
    (modeIds modes).Nodup ↔ modes.Pairwise fun mode other => mode.get? "id" ≠ other.get? "id" := by
  rw [modeIds, List.Nodup, List.pairwise_filterMap]
  constructor
  · refine List.Pairwise.imp_of_mem fun {mode other} member otherMember different same => ?_
    obtain ⟨id, here⟩ := named mode member
    have there : other.nonEmptyText? "id" = some id := by
      rw [Json.nonEmptyText?_eq_some, ← same]
      exact Json.nonEmptyText?_eq_some.1 here
    exact different id here id there rfl
  · refine List.Pairwise.imp fun different id here otherId there same => different ?_
    rw [(Json.nonEmptyText?_eq_some.1 here).1, (Json.nonEmptyText?_eq_some.1 there).1, same]

/-- The names among which references are looked up. -/
abbrev declaredNames (document : Json) : List String := modeIds (document.listed "modes")

theorem pairwise_listed {key : String} {related : Json → Json → Prop} : (value.listed key).Pairwise related ↔
    ∀ items, value.get? key = some (.list items) → items.Pairwise related := by
  rw [Json.listed_eq]
  cases value.get? key with
  | none => simp
  | some found => cases found <;> simp [Json.asList?]

theorem keywordPattern?_eq_some {pattern : Json} : keywordPattern? value = some pattern ↔
    ∃ keywords, value.get? "keywords" = some keywords ∧ keywords.get? "pattern" = some pattern ∧ pattern ≠ .null := by
  simp only [keywordPattern?, Option.bind_eq_some_iff, Json.getPresent?_eq_some, Json.isNull_eq_false]

namespace WellFormed

variable {mode : Json}

theorem named (well : WellFormed document) (declared : mode ∈ document.listed "modes") :
    ∃ id, mode.nonEmptyText? "id" = some id ∧ isIdentifierSafe id = true := by
  obtain ⟨id, here, present, safe⟩ := well.ids mode (Json.mem_listed.1 declared)
  exact ⟨id, Json.nonEmptyText?_eq_some.2 ⟨here, present⟩, isIdentifierSafe_iff.2 safe⟩

theorem soundPattern (well : WellFormed document) (stands : HasPattern document value) (present : value ≠ .null) :
    SoundPattern value :=
  soundPattern_iff.2 (well.patterns value stands present)

theorem namesMode (well : WellFormed document) (stands : HasRef document value) :
    NamesMode (declaredNames document) value := by
  obtain ⟨id, ⟨mode, declared, named⟩, refers⟩ := well.refs value stands
  obtain ⟨other, there, present, -⟩ := well.ids mode declared
  cases named.symm.trans there
  exact ⟨id, mem_modeIds_listed.2 ⟨⟨mode, declared, named⟩, present⟩, Json.getText?_eq_some.2 refers⟩

theorem soundRef (well : WellFormed document) (stands : value ≠ .text "self" → HasRef document value) :
    SoundRef (declaredNames document) value := by
  by_cases marker : value = .text "self"
  · exact Or.inl marker
  · exact Or.inr (well.namesMode (stands marker))

theorem soundMode (well : WellFormed document) (declared : document.Lists "modes" mode) :
    SoundMode (declaredNames document) mode where
  patterns field listed value found := by
    obtain ⟨here, present⟩ := Json.getPresent?_eq_some.1 found
    exact well.soundPattern (.mode declared listed here) (Json.isNull_eq_false.1 present)
  keywords value found := by
    obtain ⟨keywords, outer, here, present⟩ := keywordPattern?_eq_some.1 found
    exact well.soundPattern (.modeKeywords declared outer here) present
  refs field listed item member :=
    well.soundRef fun other => .listed declared listed (Json.mem_listed.1 member) other
  starts value found := by
    obtain ⟨here, present⟩ := Json.getPresent?_eq_some.1 found
    exact well.namesMode (.starts declared here (Json.isNull_eq_false.1 present))

theorem soundLanguage (well : WellFormed document) (described : document.get? "language" = some value) :
    SoundLanguage (declaredNames document) value where
  illegal pattern found := by
    obtain ⟨here, present⟩ := Json.getPresent?_eq_some.1 found
    exact well.soundPattern (.language described here) (Json.isNull_eq_false.1 present)
  keywords pattern found := by
    obtain ⟨keywords, outer, here, present⟩ := keywordPattern?_eq_some.1 found
    exact well.soundPattern (.languageKeywords described outer here) present
  refs item member := well.soundRef fun other => .language described (Json.mem_listed.1 member) other

theorem soundValues (well : WellFormed document) : SoundValues document where
  version := by
    rw [well.version]
    rfl
  ids mode declared := well.named declared
  distinct := by
    rw [nodup_modeIds fun mode declared => (well.named declared).imp fun id both => both.1, pairwise_listed]
    exact well.distinct
  modes mode declared := well.soundMode (Json.mem_listed.1 declared)
  language := by
    obtain ⟨fields, described⟩ := well.language
    exact ⟨.object fields, described, rfl, well.soundLanguage described⟩

end WellFormed

namespace SoundValues

theorem version_eq (sound : SoundValues document) : document.get? "version" = some (.number (.whole 1)) := by
  obtain ⟨version, here, read⟩ := Option.bind_eq_some_iff.1 sound.version
  rw [here, Json.asUnsigned?_eq_one.1 read]

theorem named (sound : SoundValues document) {mode : Json} (declared : document.Lists "modes" mode) :
    ∃ id, mode.get? "id" = some (.text id) ∧ id ≠ "" ∧ ∀ c ∈ id.toList, IdentifierChar c := by
  obtain ⟨id, here, safe⟩ := sound.ids mode (Json.mem_listed.2 declared)
  obtain ⟨named, present⟩ := Json.nonEmptyText?_eq_some.1 here
  exact ⟨id, named, present, isIdentifierSafe_iff.1 safe⟩

theorem soundLanguage (sound : SoundValues document) (described : document.get? "language" = some value) :
    SoundLanguage (declaredNames document) value := by
  obtain ⟨language, here, -, soundHere⟩ := sound.language
  cases here.symm.trans described
  exact soundHere

theorem soundPattern (sound : SoundValues document) (stands : HasPattern document value) (present : value ≠ .null) :
    SoundPattern value := by
  have notNull := Json.isNull_eq_false.2 present
  cases stands with
  | mode declared listed found =>
    have mode := sound.modes _ (Json.mem_listed.2 declared)
    exact mode.patterns _ listed value (Json.getPresent?_eq_some.2 ⟨found, notNull⟩)
  | modeKeywords declared outer found =>
    have mode := sound.modes _ (Json.mem_listed.2 declared)
    exact mode.keywords value (keywordPattern?_eq_some.2 ⟨_, outer, found, present⟩)
  | language described found =>
    exact (sound.soundLanguage described).illegal value (Json.getPresent?_eq_some.2 ⟨found, notNull⟩)
  | languageKeywords described outer found =>
    exact (sound.soundLanguage described).keywords value (keywordPattern?_eq_some.2 ⟨_, outer, found, present⟩)

theorem namesMode (sound : SoundValues document) (stands : HasRef document value) :
    NamesMode (declaredNames document) value := by
  cases stands with
  | listed declared listed found other =>
    have mode := sound.modes _ (Json.mem_listed.2 declared)
    exact (mode.refs _ listed value (Json.mem_listed.2 found)).resolve_left other
  | starts declared found present =>
    have mode := sound.modes _ (Json.mem_listed.2 declared)
    exact mode.starts value (Json.getPresent?_eq_some.2 ⟨found, Json.isNull_eq_false.2 present⟩)
  | language described found other =>
    exact ((sound.soundLanguage described).refs value (Json.mem_listed.2 found)).resolve_left other

theorem wellFormed (sound : SoundValues document) (shape : Shape.document.Conforms document) : WellFormed document where
  shape := shape
  version := sound.version_eq
  language := by
    obtain ⟨language, described, isObject, -⟩ := sound.language
    cases language with
    | object fields => exact ⟨fields, described⟩
    | null | bool | number | text | list => cases isObject
  ids mode declared := sound.named declared
  distinct := by
    rw [← pairwise_listed, ← nodup_modeIds fun mode declared => (sound.ids mode declared).imp fun id both => both.1]
    exact sound.distinct
  patterns pattern stands present := soundPattern_iff.1 (sound.soundPattern stands present)
  refs ref stands := by
    obtain ⟨id, declared, refers⟩ := sound.namesMode stands
    exact ⟨id, (mem_modeIds_listed.1 declared).1, Json.getText?_eq_some.1 refers⟩

end SoundValues

/-- Validation reports nothing exactly about well-formed documents. -/
theorem validate_eq_nil_iff_wellFormed (document : Json) (source : String) :
    validate document source = [] ↔ WellFormed document := by
  rw [validate_eq_nil]
  constructor
  · rintro ⟨shape, sound⟩
    exact sound.wellFormed shape
  · intro well
    exact ⟨well.shape, well.soundValues⟩

end Grammar

end HighlightGrammar
