import HighlightGrammar.Grammar.Load
import HighlightGrammar.Proofs.Collections

/-!
# What loaded references stand for

Loading stops at the first reference that names no mode, so in a grammar that was loaded every reference is
resolved: to the mode that holds it, or to the first mode that bears the name.  `Grammar.load_eq_ok` takes a
successful load apart; `Grammar.Resolved` says what it has found, in terms of the document alone.
-/

namespace HighlightGrammar

/-- The items of the list under a key. -/
def Json.listed (key : String) (value : Json) : List Json := ((value.getPresent? key).bind asList?).getD []

/-- The value with other items in the list under a key. -/
def Json.withItems (key : String) (items : List Json) : Json → Json
  | .object fields => .object (fields.map fun field => (field.1, if field.1 = key then .list items else field.2))
  | other => other

/-- The references of one kind that the value of a mode holds. -/
def Relation.values (value : Json) : Relation → List Json
  | .starts => (value.getPresent? "starts").toList
  | relation => value.listed relation.name

namespace Grammar

variable {n : Nat}

/-- The names of the modes of a document, in order. -/
def declaredIds (document : Json) : List (Option String) := (document.listed "modes").map (·.getText? "id")

/-- What a reference in a document stands for: the marker for the mode that holds it, any other one for the first mode
with the name that it gives. -/
inductive Denotes (document : Json) : Json → Ref n → Prop where
  | itself : Denotes document (.text "self") .itself
  | mode {value : Json} {target : String} {index : Fin n} (names : value.getText? "ref" = some target)
      (first : (declaredIds document).idxOf? (some target) = some index.val) : Denotes document value (.mode index)

/-- A grammar has the modes of a document in order, and its references are what those of the document denote. -/
structure Resolved (document : Json) (grammar : Grammar) : Prop where
  size : grammar.size = (document.listed "modes").length
  ids : declaredIds document = grammar.modes.toList.map fun mode => some mode.id
  modes : ∀ (index : Fin grammar.size) (value : Json), (document.listed "modes")[index.val]? = some value →
    ∀ relation : Relation,
      List.Forall₂ (Denotes document) (relation.values value) ((grammar.modes.get index).refs relation)
  language : ∀ value, document.get? "language" = some value →
    List.Forall₂ (Denotes document) (value.listed "contains") grammar.language.contains
  lookup : ∀ (target : String) (index : Fin grammar.size),
    grammar.lookup target = some index ↔ (declaredIds document).idxOf? (some target) = some index.val

/-! ## Names and positions -/

theorem idxOf?_map_some {ids : Vector String n} {target : String} {index : Fin n} :
    (ids.toList.map some).idxOf? (some target) = some index.val ↔
      ids.get index = target ∧ ∀ earlier < index, ¬ ids.get earlier = target := by
  rw [List.idxOf?_eq_some_iff]
  simp only [List.getElem_map, Vector.getElem_toList, Option.some.injEq]
  constructor
  · rintro ⟨_, here, first⟩
    exact ⟨here, fun earlier less => first earlier.val less⟩
  · rintro ⟨here, first⟩
    exact ⟨by simp, here, fun earlier less => first ⟨earlier, Nat.lt_trans less index.isLt⟩ less⟩

/-! ## References -/

theorem loadRefs_eq_ok {ids : Vector String n} {owner : Owner} {field : String} {value : Json} {refs : List (Ref n)} :
    loadRefs ids owner field value = .ok refs ↔
      (value.getPresent? field = none ∧ refs = []) ∨ ∃ items, value.getPresent? field = some (.list items) ∧
        List.Forall₂ (fun item ref => readRef ids owner field item = .ok ref) items refs := by
  unfold loadRefs
  split
  next absent => simp [absent, eq_comm]
  next items present => simp [present, mapM_eq_ok]
  next found notList present =>
    refine iff_of_false (by simp) ?_
    rintro (⟨absent, -⟩ | ⟨items, here, -⟩)
    · cases absent.symm.trans present
    · exact notList items (Option.some.inj (present.symm.trans here))

theorem loadStarts_eq_ok {ids : Vector String n} {owner : Owner} {value : Json} {starts : Option (Ref n)} :
    loadStarts ids owner value = .ok starts ↔
      (value.getPresent? "starts" = none ∧ starts = none) ∨ ∃ found ref, value.getPresent? "starts" = some found ∧
        readRef ids owner "starts" found = .ok ref ∧ starts = some ref := by
  unfold loadStarts
  cases value.getPresent? "starts" with
  | none => simp [eq_comm]
  | some found =>
    rw [map_eq_ok]
    constructor
    · rintro ⟨ref, read, rfl⟩
      exact .inr ⟨found, ref, rfl, read, rfl⟩
    · rintro (⟨absent, -⟩ | ⟨_, ref, same, read, rfl⟩)
      · cases absent
      · cases same
        exact ⟨ref, read, rfl⟩

section References

variable {document : Json} {ids : Vector String n} (declared : declaredIds document = ids.toList.map some)
variable {owner : Owner} {field : String}

include declared

theorem denotes_of_readRef {value : Json} {ref : Ref n} (read : readRef ids owner field value = .ok ref) :
    Denotes document value ref := by
  unfold readRef at read
  split at read
  next marker =>
    cases read
    cases value with
    | text words =>
      cases marker
      exact .itself
    | null | bool | number | list | object => cases marker
  next =>
    split at read
    next => cases read
    next target names =>
      split at read
      next => cases read
      next index found =>
        cases read
        -- The position that was found is the first one with the name.
        apply Denotes.mode names
        rw [declared, idxOf?_map_some]
        exact finIdxOf?_eq_some.1 found

theorem denotes_of_loadRefs {value : Json} {refs : List (Ref n)} (read : loadRefs ids owner field value = .ok refs) :
    List.Forall₂ (Denotes document) (value.listed field) refs := by
  obtain ⟨absent, rfl⟩ | ⟨items, present, each⟩ := loadRefs_eq_ok.1 read
  · simp [Json.listed, absent]
  · have listed : value.listed field = items := by simp [Json.listed, present, Json.asList?]
    rw [listed]
    exact each.imp fun _ _ => denotes_of_readRef declared

theorem denotes_of_loadStarts {value : Json} {starts : Option (Ref n)}
    (read : loadStarts ids owner value = .ok starts) :
    List.Forall₂ (Denotes document) (Relation.starts.values value) starts.toList := by
  obtain ⟨absent, rfl⟩ | ⟨found, ref, present, first, rfl⟩ := loadStarts_eq_ok.1 read
  · simp [Relation.values, absent]
  · simpa [Relation.values, present] using denotes_of_readRef declared first

omit declared in
theorem id_of_loadMode {id : String} {value : Json} {mode : Mode n} (read : loadMode ids id value = .ok mode) :
    mode.id = id := by
  simp only [loadMode, bind_eq_ok] at read
  obtain ⟨_, -, _, -, _, -, _, -, same⟩ := read
  cases same
  rfl

theorem denotes_of_loadMode {id : String} {value : Json} {mode : Mode n} (read : loadMode ids id value = .ok mode)
    (relation : Relation) : List.Forall₂ (Denotes document) (relation.values value) (mode.refs relation) := by
  simp only [loadMode, bind_eq_ok] at read
  obtain ⟨starts, startsRead, attributes, -, contains, containsRead, variants, variantsRead, same⟩ := read
  cases same
  cases relation with
  | contains => exact denotes_of_loadRefs declared containsRead
  | variants => exact denotes_of_loadRefs declared variantsRead
  | starts => exact denotes_of_loadStarts declared startsRead

theorem denotes_of_loadLanguage {value : Json} {language : Language n} (read : loadLanguage ids value = .ok language) :
    List.Forall₂ (Denotes document) (value.listed "contains") language.contains := by
  simp only [loadLanguage, bind_eq_ok] at read
  obtain ⟨keywords, -, illegal, -, contains, containsRead, same⟩ := read
  cases same
  exact denotes_of_loadRefs declared containsRead

end References

/-! ## Loading -/

theorem loadId_eq_ok {value : Json} {id : String} : loadId value = .ok id ↔ value.nonEmptyText? "id" = some id := by
  unfold loadId
  cases value.nonEmptyText? "id" with
  | none => simp
  | some found => simp

theorem getText?_of_loadId {value : Json} {id : String} (read : loadId value = .ok id) :
    value.getText? "id" = some id :=
  (Option.filter_eq_some_iff.1 (loadId_eq_ok.1 read)).1

theorem listed_of_modeValues {document : Json} {items : List Json} (read : modeValues document = .ok items) :
    document.listed "modes" = items := by
  unfold modeValues at read
  split at read
  next absent =>
    cases read
    simp [Json.listed, absent]
  next elements present =>
    cases read
    simp [Json.listed, present, Json.asList?]
  next => cases read

theorem modeValues_eq_ok {document : Json} {items : List Json} (found : document.get? "modes" = some (.list items)) :
    modeValues document = .ok items := by
  have present : document.getPresent? "modes" = some (.list items) := by simp [Json.getPresent?, found, Json.isNull]
  rw [modeValues, present]

/-- A load succeeds if every name can be read, and then every mode and the language with all the names at hand. -/
theorem load_eq_ok_iff {document : Json} {grammar : Grammar} : load document = .ok grammar ↔
    ∃ (n version : Nat) (value : Json) (values : Vector Json n) (ids : Vector String n) (modes : Modes n)
      (language : Language n),
      (document.get? "version").bind Json.asUnsigned? = some version ∧
      (document.get? "language").filter Json.isObject = some value ∧ modeValues document = .ok values.toList ∧
      (∀ i, loadId (values.get i) = .ok (ids.get i)) ∧
      (∀ i, loadMode ids (ids.get i) (values.get i) = .ok (modes.get i)) ∧ loadLanguage ids value = .ok language ∧
      grammar = ⟨n, version, language, modes⟩ := by
  constructor
  · intro loaded
    unfold load at loaded
    split at loaded
    next => cases loaded
    next version versionFound =>
      split at loaded
      next => cases loaded
      next value valueFound =>
        simp only [bind_eq_ok] at loaded
        obtain ⟨items, itemsRead, ids, idsRead, modes, modesRead, language, languageRead, same⟩ := loaded
        cases same
        refine ⟨_, version, value, ⟨items.toArray, List.size_toArray⟩, ids, modes, language, versionFound, valueFound,
          itemsRead, get_of_mapM idsRead, fun i => ?_, languageRead, rfl⟩
        have here := get_of_mapM modesRead i
        rwa [get_zip] at here
  · rintro ⟨n, version, value, ⟨⟨items⟩, rfl⟩, ids, modes, language, versionFound, valueFound, itemsRead, idsRead,
      modesRead, languageRead, rfl⟩
    simp only [load, versionFound, valueFound, bind_eq_ok]
    refine ⟨items, itemsRead, ids, vector_mapM_eq_ok.2 idsRead, modes, vector_mapM_eq_ok.2 fun i => ?_, language,
      languageRead, rfl⟩
    rw [get_zip]
    exact modesRead i

/-- What a load that succeeds has read, for the modes that the document lists. -/
theorem load_eq_ok {document : Json} {grammar : Grammar} (loaded : load document = .ok grammar) :
    ∃ (version : Nat) (value : Json) (ids : Vector String (document.listed "modes").length)
      (modes : Modes (document.listed "modes").length) (language : Language (document.listed "modes").length),
      document.get? "language" = some value ∧ loadLanguage ids value = .ok language ∧
      (∀ i, loadId ((document.listed "modes").get i) = .ok (ids.get i)) ∧
      (∀ i, loadMode ids (ids.get i) ((document.listed "modes").get i) = .ok (modes.get i)) ∧
      grammar = ⟨_, version, language, modes⟩ := by
  obtain ⟨n, version, value, ⟨⟨items⟩, rfl⟩, ids, modes, language, -, valueFound, itemsRead, idsRead, modesRead,
    languageRead, rfl⟩ := load_eq_ok_iff.1 loaded
  obtain rfl : document.listed "modes" = items := listed_of_modeValues itemsRead
  have here := (Option.filter_eq_some_iff.1 valueFound).1
  exact ⟨version, value, ids, modes, language, here, languageRead, idsRead, modesRead, rfl⟩

theorem resolved_of_load {document : Json} {grammar : Grammar} (loaded : load document = .ok grammar) :
    Resolved document grammar := by
  obtain ⟨version, value, ids, modes, language, valueFound, languageRead, idsRead, modesRead, rfl⟩ := load_eq_ok loaded
  -- The names that were read are those that the document declares, and the modes bear them.
  have declared : declaredIds document = ids.toList.map some := by
    apply List.ext_getElem
    · simp [declaredIds]
    · intro i inside _
      have here : i < (document.listed "modes").length := by simpa [declaredIds] using inside
      simp only [declaredIds, List.getElem_map, Vector.getElem_toList]
      exact getText?_of_loadId (idsRead ⟨i, here⟩)
  have named (index : Fin _) : (modes.get index).id = ids.get index := id_of_loadMode (modesRead index)
  refine ⟨rfl, ?_, fun index value here relation => ?_, fun found same => ?_, fun target index => ?_⟩
  · rw [declared]
    apply List.ext_getElem
    · simp
    · intro i inside _
      have here : i < (document.listed "modes").length := by simpa using inside
      simp only [List.getElem_map, Vector.getElem_toList, Option.some.injEq]
      exact (named ⟨i, here⟩).symm
  · obtain ⟨inside, rfl⟩ := List.getElem?_eq_some_iff.1 here
    exact denotes_of_loadMode declared (modesRead index) relation
  · cases valueFound.symm.trans same
    exact denotes_of_loadLanguage declared languageRead
  · rw [declared, idxOf?_map_some, lookup, findFinIdx?_eq_some]
    simp only [named, beq_iff_eq]

end Grammar

end HighlightGrammar
