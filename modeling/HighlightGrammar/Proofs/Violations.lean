import HighlightGrammar.Proofs.WellFormed

/-!
# What loading can object to

`Grammar.Violates` lists the ways in which a document can keep itself from being loaded, each at its place in the
document: it speaks about what stands under which key, and about no reader.  `Grammar.Checkpoint.Before` is the order
of places, in which the names of all modes come before everything else about them.  For single values there is one
exact statement each: reading fails with an error if and only if the value has the fault that the error describes.
-/

namespace HighlightGrammar

/-- What stands under a key, unless that is an explicit null. -/
def Json.Holds (whole : Json) (key : String) (value : Json) : Prop := whole.get? key = some value ∧ value ≠ .null

namespace Grammar

/-! ## Faults of single values -/

inductive PatternFault (owner : Owner) (name : String) (value : Json) : LoadError → Prop where
  | source (missing : ∀ source, value.get? "source" ≠ some (.text source)) :
    PatternFault owner name value (.missingSource owner name)
  | type {source type : String} (found : value.get? "source" = some (.text source))
    (typed : value.get? "type" = some (.text type)) (unknown : type ≠ "regex" ∧ type ≠ "string") :
    PatternFault owner name value (.unsupportedType owner name type)

inductive KeywordsFault (owner : Owner) (value : Json) : LoadError → Prop where
  | kind (notText : ∀ words, value ≠ .text words) (notObject : ∀ fields, value ≠ .object fields) :
    KeywordsFault owner value (.keywordsNotObject owner)
  | pattern {pattern : Json} {error : LoadError} (found : value.Holds "pattern" pattern)
    (fault : PatternFault owner "pattern" pattern error) : KeywordsFault owner value error

/-- Decimal digits with a value, perhaps after a plus sign. -/
def Spells (key : String) (value : Nat) : Prop :=
  ∃ digits, (key.toList = digits ∨ key.toList = '+' :: digits) ∧ digits ≠ [] ∧ (∀ c ∈ digits, c.isDigit = true) ∧
    Nat.ofDigitChars 10 digits 0 = value

/-- One more than the largest number of a capture group. -/
def groupBound : Nat := Nat.pow 2 32

/-- The key of a capture group spells a number that fits into 32 bits. -/
def DenotesGroup (key : String) : Prop := ∃ value < groupBound, Spells key value

/-- A fault of a scope, and of which of its names. -/
inductive ScopeFault (owner : Owner) (name : String) (value : Json) : Nat → LoadError → Prop where
  | kind (notText : ∀ scope, value ≠ .text scope) (notObject : ∀ fields, value ≠ .object fields) :
    ScopeFault owner name value 0 (.unsupportedScope owner name value)
  | key {fields : List (String × Json)} {item : Nat} {key : String} {scope : Json} (object : value = .object fields)
    (here : fields[item]? = some (key, scope)) (denotesNone : ¬ DenotesGroup key) :
    ScopeFault owner name value item (.captureIndex owner name key)

inductive RefFault (document : Json) (owner : Owner) (name : String) (value : Json) : LoadError → Prop where
  | form (other : value ≠ .text "self") (unnamed : ∀ target, value.get? "ref" ≠ some (.text target)) :
    RefFault document owner name value (.invalidRef owner name value)
  | target {target : String} (named : value.get? "ref" = some (.text target))
    (undeclared : ¬ Declares document target) : RefFault document owner name value (.unknownRef owner name target)

/-- A fault of a list of references, and of which of them. -/
inductive RefsFault (document : Json) (owner : Owner) (name : String) (value : Json) : Nat → LoadError → Prop where
  | kind (notList : ∀ items, value ≠ .list items) : RefsFault document owner name value 0 (.refsNotList owner name)
  | item {items : List Json} {item : Nat} {ref : Json} {error : LoadError} (list : value = .list items)
    (here : items[item]? = some ref) (fault : RefFault document owner name ref error) :
    RefsFault document owner name value item error

/-! ## Faults by field -/

/-- The fields that can have faults. -/
inductive Field where
  | starts
  | opening
  | closing
  | whole
  | keywords
  | illegal
  | beginScope
  | endScope
  | contains
  | variants
deriving DecidableEq, Repr

namespace Field

inductive Kind where
  | ref
  | pattern
  | keywords
  | scope
  | refs

def name : Field → String
  | .starts => "starts"
  | .opening => "begin"
  | .closing => "end"
  | .whole => "match"
  | .keywords => "keywords"
  | .illegal => "illegal"
  | .beginScope => "beginScope"
  | .endScope => "endScope"
  | .contains => "contains"
  | .variants => "variants"

def kind : Field → Kind
  | .starts => .ref
  | .opening | .closing | .whole | .illegal => .pattern
  | .keywords => .keywords
  | .beginScope | .endScope => .scope
  | .contains | .variants => .refs

/-- The fields of modes, in the order in which they count. -/
def all : List Field :=
  [.starts, .opening, .closing, .whole, .keywords, .illegal, .beginScope, .endScope, .contains, .variants]

/-- Those that the language has, too. -/
def ofLanguage : List Field := [.keywords, .illegal, .contains]

def rank (field : Field) : Nat := all.idxOf field

end Field

/-- A fault of a value of some kind, and of which of its items. -/
def ValueFault (document : Json) (owner : Owner) (name : String) (value : Json) (item : Nat) (error : LoadError) :
    Field.Kind → Prop
  | .ref => item = 0 ∧ RefFault document owner name value error
  | .pattern => item = 0 ∧ PatternFault owner name value error
  | .keywords => item = 0 ∧ KeywordsFault owner value error
  | .scope => ScopeFault owner name value item error
  | .refs => RefsFault document owner name value item error

/-- A fault of a field of a mode, or of the language. -/
def FieldFault (document : Json) (owner : Owner) (holder : Json) (field : Field) (item : Nat) (error : LoadError) :
    Prop :=
  ∃ value, holder.Holds field.name value ∧ ValueFault document owner field.name value item error field.kind

/-! ## Violations by place -/

/-- The places at which a document can be at fault. -/
inductive Checkpoint where
  | version
  | language
  | modes
  | id (mode : Nat)
  | modeField (mode : Nat) (field : Field) (item : Nat)
  | languageField (field : Field) (item : Nat)

namespace Checkpoint

/-- Where a place stands: each number decides where the ones before it are equal. -/
def key : Checkpoint → List Nat
  | .version => [0]
  | .language => [1]
  | .modes => [2]
  | .id mode => [3, mode]
  | .modeField mode field item => [4, mode, field.rank, item]
  | .languageField field item => [5, field.rank, item]

def Before (a b : Checkpoint) : Prop := List.Lex (· < ·) a.key b.key

end Checkpoint

/-- An error, and the place at which a document gives rise to it. -/
inductive Violates (document : Json) : Checkpoint → LoadError → Prop where
  | version (missing : ∀ version : Nat, version < Nat.pow 2 64 →
      document.get? "version" ≠ some (.number (.whole version))) : Violates document .version .missingVersion
  | language (missing : ∀ fields, document.get? "language" ≠ some (.object fields)) :
    Violates document .language .missingLanguage
  | modes {value : Json} (found : document.Holds "modes" value) (notList : ∀ items, value ≠ .list items) :
    Violates document .modes .modesNotList
  | id {modes : List Json} {i : Nat} {mode : Json} (listed : document.get? "modes" = some (.list modes))
    (here : modes[i]? = some mode) (unnamed : ∀ id, mode.get? "id" = some (.text id) → id = "") :
    Violates document (.id i) .missingId
  | modeField {modes : List Json} {i : Nat} {mode : Json} {id : String} {field : Field} {item : Nat}
    {error : LoadError} (listed : document.get? "modes" = some (.list modes)) (here : modes[i]? = some mode)
    (named : mode.get? "id" = some (.text id)) (fault : FieldFault document (.mode id) mode field item error) :
    Violates document (.modeField i field item) error
  | languageField {language : Json} {field : Field} {item : Nat} {error : LoadError}
    (described : document.get? "language" = some language) (known : field ∈ Field.ofLanguage)
    (fault : FieldFault document .language language field item error) :
    Violates document (.languageField field item) error

/-- A violation before which there is none. -/
def FirstViolation (document : Json) (error : LoadError) : Prop :=
  ∃ point, Violates document point error ∧
    ∀ earlier, earlier.Before point → ∀ other, ¬ Violates document earlier other

end Grammar

/-! ## Reading fails by faults only -/

namespace Json

variable {whole value : Json} {key : String}

theorem getPresent?_eq_some_iff_holds : whole.getPresent? key = some value ↔ whole.Holds key value := by
  rw [getPresent?_eq_some, isNull_eq_false, Holds]

theorem not_holds_of_getPresent? (absent : whole.getPresent? key = none) : ¬ whole.Holds key value := by
  rw [← getPresent?_eq_some_iff_holds, absent]
  simp

theorem getText?_eq_none : whole.getText? key = none ↔ ∀ text, whole.get? key ≠ some (.text text) := by
  simp [Option.eq_none_iff_forall_ne_some, getText?_eq_some]

theorem asText?_eq_some {text : String} : value.asText? = some text ↔ value = .text text := by
  cases value <;> simp [asText?]

end Json

namespace Grammar

section Values

variable {owner : Owner} {name : String} {value holder : Json} {error : LoadError}

theorem readPattern_eq_error_iff : readPattern owner name value = .error error ↔ PatternFault owner name value error := by
  constructor
  · intro failed
    unfold readPattern at failed
    split at failed
    next missing =>
      cases failed
      exact .source (Json.getText?_eq_none.1 missing)
    next source found =>
      split at failed
      next => cases failed
      next type typed =>
        split at failed
        next => cases failed
        next notRegex =>
          split at failed
          next => cases failed
          next notString =>
            cases failed
            exact .type (Json.getText?_eq_some.1 found) (Json.getText?_eq_some.1 typed) ⟨notRegex, notString⟩
  · intro fault
    cases fault with
    | source missing => simp [readPattern, Json.getText?_eq_none.2 missing]
    | type found typed unknown =>
      simp [readPattern, Json.getText?_eq_some.2 found, Json.getText?_eq_some.2 typed, unknown]

theorem loadPattern_eq_error_iff : loadPattern owner name holder = .error error ↔
    ∃ value, holder.Holds name value ∧ PatternFault owner name value error := by
  unfold loadPattern
  split
  next absent =>
    simp [Json.not_holds_of_getPresent? absent]
  next found present =>
    rw [map_eq_error, readPattern_eq_error_iff]
    simp [← Json.getPresent?_eq_some_iff_holds, present]

/-- Of an object, only the pattern can be at fault. -/
theorem keywordsFault_object {fields : List (String × Json)} : KeywordsFault owner (.object fields) error ↔
    loadPattern owner "pattern" (.object fields) = .error error := by
  rw [loadPattern_eq_error_iff]
  constructor
  · intro fault
    cases fault with
    | kind _ notObject => exact absurd rfl (notObject fields)
    | pattern found fault => exact ⟨_, found, fault⟩
  · rintro ⟨pattern, found, fault⟩
    exact .pattern found fault

theorem readKeywords_eq_error_iff : readKeywords owner value = .error error ↔ KeywordsFault owner value error := by
  cases value with
  | object fields =>
    rw [keywordsFault_object]
    cases fields with
    | nil => simp [readKeywords, loadPattern, Json.getPresent?, Json.get?]
    | cons field fields => simp [readKeywords, bind_eq_error]
  | text words =>
    have sound : ¬ KeywordsFault owner (.text words) error := by
      rintro (⟨notText, -⟩ | ⟨⟨⟨⟩, -⟩, -⟩)
      exact notText words rfl
    simp [readKeywords, sound]
  | null | bool | number | list =>
    constructor
    · intro failed
      cases failed
      exact .kind (by simp) (by simp)
    · rintro (⟨-, -⟩ | ⟨⟨⟨⟩, -⟩, -⟩)
      rfl

theorem loadKeywords_eq_error_iff : loadKeywords owner holder = .error error ↔
    ∃ value, holder.Holds "keywords" value ∧ KeywordsFault owner value error := by
  unfold loadKeywords
  split
  next absent => simp [Json.not_holds_of_getPresent? absent]
  next found present =>
    rw [readKeywords_eq_error_iff]
    simp [← Json.getPresent?_eq_some_iff_holds, present]

theorem captureIndex?_eq_some_iff {key : String} {group : UInt32} :
    captureIndex? key = some group ↔ Spells key group.toNat := by
  have fits (value : Nat) : value < Nat.pow 2 32 ∧ UInt32.ofNat value = group ↔ value = group.toNat := by
    constructor
    · rintro ⟨bound, rfl⟩
      exact (UInt32.toNat_ofNat_of_lt' bound).symm
    · rintro rfl
      exact ⟨group.toNat_lt, UInt32.ofNat_toNat⟩
  unfold captureIndex? Spells
  split
  next rest plus =>
    -- The sign is no digit, so the digits are those after it.
    have signed : ('+').isDigit = false := by decide
    simp only [plus, List.cons.injEq, true_and, Option.ite_none_right_eq_some, List.all_eq_true, Option.some.injEq,
      and_assoc, fits]
    constructor
    · intro denotes
      exact ⟨rest, Or.inr rfl, denotes⟩
    · rintro ⟨digits, same | same, nonEmpty, all, value⟩
      · have sign := all '+' (same ▸ List.mem_cons_self)
        rw [signed] at sign
        cases sign
      · subst same
        exact ⟨nonEmpty, all, value⟩
  next noSign =>
    simp only [Option.ite_none_right_eq_some, List.all_eq_true, Option.some.injEq, and_assoc, fits]
    constructor
    · intro denotes
      exact ⟨key.toList, Or.inl rfl, denotes⟩
    · rintro ⟨digits, same | same, denotes⟩
      · subst same
        exact denotes
      · exact absurd same (noSign digits)

theorem captureIndex?_eq_none_iff {key : String} : captureIndex? key = none ↔ ¬ DenotesGroup key := by
  rw [Option.eq_none_iff_forall_ne_some, ← not_exists, not_iff_not]
  simp only [captureIndex?_eq_some_iff]
  constructor
  · rintro ⟨group, spelled⟩
    exact ⟨group.toNat, group.toNat_lt, spelled⟩
  · rintro ⟨value, bound, spelled⟩
    have kept : (UInt32.ofNat value).toNat = value := UInt32.toNat_ofNat_of_lt' bound
    exact ⟨.ofNat value, kept.symm ▸ spelled⟩

variable {n : Nat} {document : Json} {ids : Vector String n}

theorem readRef_eq_error_iff (declared : ∀ id, id ∈ ids ↔ Declares document id) :
    readRef ids owner name value = .error error ↔ RefFault document owner name value error := by
  constructor
  · intro failed
    unfold readRef at failed
    split at failed
    next => cases failed
    next other =>
      split at failed
      next unnamed =>
        cases failed
        exact .form (mt Json.asText?_eq_some.2 other) (Json.getText?_eq_none.1 unnamed)
      next target named =>
        split at failed
        next absent =>
          cases failed
          exact .target (Json.getText?_eq_some.1 named) (mt (declared target).2 (finIdxOf?_eq_none.1 absent))
        next => cases failed
  · intro fault
    cases fault with
    | form other unnamed =>
      rw [readRef, if_neg (mt Json.asText?_eq_some.1 other), Json.getText?_eq_none.2 unnamed]
    | @target target named undeclared =>
      have other : value.asText? ≠ some "self" := by
        intro marker
        rw [Json.asText?_eq_some.1 marker] at named
        cases named
      have absent : ids.finIdxOf? target = none := finIdxOf?_eq_none.2 (mt (declared target).1 undeclared)
      simp only [readRef, if_neg other, Json.getText?_eq_some.2 named, absent]

theorem loadStarts_eq_error_iff (declared : ∀ id, id ∈ ids ↔ Declares document id) :
    loadStarts ids owner holder = .error error ↔
      ∃ value, holder.Holds "starts" value ∧ RefFault document owner "starts" value error := by
  unfold loadStarts
  split
  next absent => simp [Json.not_holds_of_getPresent? absent]
  next found present =>
    rw [map_eq_error, readRef_eq_error_iff declared]
    simp [← Json.getPresent?_eq_some_iff_holds, present]

end Values

end Grammar

end HighlightGrammar
