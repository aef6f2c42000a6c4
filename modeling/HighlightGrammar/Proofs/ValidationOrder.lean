import HighlightGrammar.Proofs.WellFormed

/-!
# Validation and the order of modes

The names of modes are looked at one after another, each against those before it, and references are looked up among
all names.  In whatever order the modes stand, the same diagnostics are reported: a name that occurs several times is
reported once less, whichever mode is the first to bear it, and every reference that cannot be resolved is reported
once.
-/

namespace HighlightGrammar

/-! ## Other items under a key -/

namespace Json

variable {value : Json} {key other : String} {items former : List Json}

/-- Values may change with their keys kept. -/
theorem lookup_map_values (f : String → Json → Json) (fields : List (String × Json)) (key : String) :
    (fields.map fun field => (field.1, f field.1 field.2)).lookup key = (fields.lookup key).map (f key) := by
  induction fields with
  | nil => rfl
  | cons field rest ih =>
    rw [List.map_cons, List.lookup_cons, List.lookup_cons]
    by_cases same : key = field.1
    · simp [same]
    · have apart : (key == field.1) = false := by simpa using same
      simp [apart, ih]

theorem get?_withItems :
    (value.withItems key items).get? other =
      (value.get? other).map fun inner => if other = key then .list items else inner := by
  cases value with
  | object fields => exact lookup_map_values (fun name inner => if name = key then .list items else inner) fields other
  | null | bool | number | text | list => rfl

theorem get?_withItems_self (found : value.get? key = some (.list former)) :
    (value.withItems key items).get? key = some (.list items) := by
  rw [get?_withItems, found, Option.map_some, if_pos rfl]

theorem get?_withItems_of_ne (different : other ≠ key) : (value.withItems key items).get? other = value.get? other := by
  simp [get?_withItems, different]

end Json

/-! ## The shape -/

namespace Grammar

variable {document : Json} {items others : List Json}

/-- What goes against the shape is found in the language, in the modes one after another, and in the version. -/
theorem violations_eq (found : document.get? "modes" = some (.list items)) :
    Shape.document.violations document =
      (Schema.field "language" Shape.language).violations document ++ items.flatMap Shape.mode.violations ++
        (Schema.field "version" (.kinds [.integer, .null])).violations document := by
  have kinds : (Schema.kinds [.object]).violations document = [] := by
    cases document with
    | object => rfl
    | null | bool | number | text | list => cases found
  have modes : (Schema.field "modes" (.all [.kinds [.array, .null], .items Shape.mode])).violations document =
      items.flatMap Shape.mode.violations := by
    simp [Schema.violations, found, Schema.all, Kind.admits, Json.asList?]
  change _ ++ ((_ ++ (_ ++ (_ ++ []))) ++ []) = _
  rw [kinds, modes]
  simp

theorem violations_withItems (found : document.get? "modes" = some (.list items)) :
    Shape.document.violations (document.withItems "modes" others) =
      (Schema.field "language" Shape.language).violations document ++ others.flatMap Shape.mode.violations ++
        (Schema.field "version" (.kinds [.integer, .null])).violations document := by
  rw [violations_eq (Json.get?_withItems_self found)]
  simp only [Schema.violations, Json.get?_withItems_of_ne (show "language" ≠ "modes" by decide),
    Json.get?_withItems_of_ne (show "version" ≠ "modes" by decide)]

theorem violations_reordered (found : document.get? "modes" = some (.list items)) (reordered : items.Perm others) :
    (Shape.document.violations (document.withItems "modes" others)).Perm (Shape.document.violations document) := by
  rw [violations_withItems found, violations_eq found]
  exact ((reordered.symm.flatMap_right _).append_left _).append_right _

/-! ## The names -/

/-- The problems of one name, after modes with the names in `seen`. -/
def nameProblems (seen : List String) : Option String → List Problem
  | none => [.missingId]
  | some id =>
    (if seen.contains id then [.duplicateId id] else []) ++ if isIdentifierSafe id then [] else [.unsafeId id]

theorem idProblems_cons (seen : List String) (mode : Json) (rest : List Json) :
    idProblems seen (mode :: rest) =
      nameProblems seen (mode.nonEmptyText? "id") ++ idProblems ((mode.nonEmptyText? "id").toList ++ seen) rest := by
  rw [idProblems, Json.nonEmptyText?]
  cases (mode.getText? "id").filter (· ≠ "") with
  | none => rfl
  | some id => rfl

theorem nameProblems_congr {seen known : List String} {name : Option String}
    (same : ∀ id ∈ name, id ∈ seen ↔ id ∈ known) : nameProblems seen name = nameProblems known name := by
  cases name with
  | none => rfl
  | some id =>
    have found : seen.contains id = known.contains id := by
      rw [Bool.eq_iff_iff, List.contains_iff_mem, List.contains_iff_mem, same id rfl]
    rw [nameProblems, nameProblems, found]

theorem idProblems_congr {seen known : List String} (same : ∀ id, id ∈ seen ↔ id ∈ known) (modes : List Json) :
    idProblems seen modes = idProblems known modes := by
  induction modes generalizing seen known with
  | nil => rfl
  | cons mode rest ih =>
    have after : ∀ id,
        id ∈ (mode.nonEmptyText? "id").toList ++ seen ↔ id ∈ (mode.nonEmptyText? "id").toList ++ known := by
      intro id
      rw [List.mem_append, List.mem_append, same]
    rw [idProblems_cons, idProblems_cons, nameProblems_congr fun id _ => same id, ih after]

/-- Two names one after the other: of equal ones the second is the duplicate, and different ones do not interfere. -/
theorem nameProblems_swap (seen : List String) (first second : Option String) :
    (nameProblems seen first ++ nameProblems (first.toList ++ seen) second).Perm
      (nameProblems seen second ++ nameProblems (second.toList ++ seen) first) := by
  by_cases equal : first = second
  · rw [equal]
  · have unaffected {name other : Option String} (different : name ≠ other) :
        nameProblems (name.toList ++ seen) other = nameProblems seen other := by
      apply nameProblems_congr
      rintro id rfl
      rw [List.mem_append, or_iff_right]
      rwa [Option.mem_toList]
    rw [unaffected equal, unaffected (Ne.symm equal)]
    exact List.perm_append_comm

theorem idProblems_perm (reordered : items.Perm others) (seen : List String) :
    (idProblems seen items).Perm (idProblems seen others) := by
  induction reordered generalizing seen with
  | nil => exact .refl _
  | cons mode _ ih =>
    rw [idProblems_cons, idProblems_cons]
    exact (ih _).append_left _
  | swap first second rest =>
    -- Later modes are checked against both names, whichever comes first.
    have after : ∀ id, id ∈ (first.nonEmptyText? "id").toList ++ ((second.nonEmptyText? "id").toList ++ seen) ↔
        id ∈ (second.nonEmptyText? "id").toList ++ ((first.nonEmptyText? "id").toList ++ seen) := by
      intro id
      simp only [List.mem_append, or_left_comm]
    simp only [idProblems_cons, ← List.append_assoc]
    rw [List.append_assoc _ _ seen, List.append_assoc _ _ seen, idProblems_congr after]
    exact (nameProblems_swap seen _ _).append_right _
  | trans _ _ first second => exact (first seen).trans (second seen)

/-! ## The values -/

theorem modeIds_perm (reordered : items.Perm others) : (modeIds items).Perm (modeIds others) := reordered.filterMap _

section Names

variable {ids names : List String} (same : ∀ id, id ∈ ids ↔ id ∈ names)

include same

theorem refProblems_congr : refProblems ids = refProblems names := by
  have found : ∀ id, ids.contains id = names.contains id := by
    intro id
    rw [Bool.eq_iff_iff, List.contains_iff_mem, List.contains_iff_mem, same]
  funext place value
  simp only [refProblems, found]

theorem refListProblems_congr : refListProblems ids = refListProblems names := by
  funext place value
  simp only [refListProblems, refProblems_congr same]

theorem modeProblems_congr : modeProblems ids = modeProblems names := by
  funext mode
  simp only [modeProblems, refProblems_congr same, refListProblems_congr same]

end Names

theorem valueProblems_reordered (found : document.get? "modes" = some (.list items)) (reordered : items.Perm others) :
    (valueProblems (document.withItems "modes" others)).Perm (valueProblems document) := by
  have same : ∀ id, id ∈ modeIds others ↔ id ∈ modeIds items := fun id => (modeIds_perm reordered).symm.mem_iff
  have modes : ((document.withItems "modes" others).get? "modes").bind Json.asList? = some others := by
    rw [Json.get?_withItems_self found]
    rfl
  have former : (document.get? "modes").bind Json.asList? = some items := by
    rw [found]
    rfl
  have version : versionProblems (document.withItems "modes" others) = versionProblems document := by
    rw [versionProblems, versionProblems, Json.get?_withItems_of_ne (by decide)]
  rw [valueProblems, valueProblems, version, Json.get?_withItems_of_ne (show "language" ≠ "modes" by decide)]
  apply List.Perm.append_left
  cases (document.get? "language").filter Json.isObject with
  | none => exact .refl _
  | some language =>
    simp only [modes, former, Option.getD_some, modeProblems_congr same, refListProblems_congr same]
    have names := idProblems_perm reordered.symm []
    have each := reordered.symm.flatMap_right (modeProblems (modeIds items))
    exact ((names.append_left _).append each).append_right _

theorem problems_reordered (found : document.get? "modes" = some (.list items)) (reordered : items.Perm others) :
    (problems (document.withItems "modes" others)).Perm (problems document) := by
  have shape := violations_reordered found reordered
  rw [problems, problems]
  cases former : Shape.document.violations document with
  | nil =>
    rw [former] at shape
    rw [shape.eq_nil]
    exact valueProblems_reordered found reordered
  | cons first rest =>
    rw [former] at shape
    cases now : Shape.document.violations (document.withItems "modes" others) with
    | nil => cases (now ▸ shape).symm.eq_nil
    | cons => exact (now ▸ shape).map _

end Grammar

/-! ## How often a problem is reported -/

namespace Problem

/-- The name that a problem reports as a duplicate. -/
def duplicate? : Problem → Option String
  | .duplicateId id => some id
  | _ => none

/-- Where a problem reports an unknown reference, and which. -/
def unknown? : Problem → Option (String × String)
  | .unknownRef place target => some (place.path, target)
  | _ => none

theorem eq_duplicateId_of_toDiagnostic {source id : String} {problem : Problem}
    (same : problem.toDiagnostic source = (duplicateId id).toDiagnostic source) : problem = duplicateId id := by
  have nowhere : problem.location = none := congrArg Diagnostic.location same
  have words : problem.message = "duplicate mode id '" ++ id ++ "'" := congrArg Diagnostic.message same
  cases problem with
  | shape | patternType | patternFlag | unknownRef | invalidRef => cases nowhere
  | unsupportedVersion version =>
    change "unsupported IR version '" ++ version.render ++ "'" = _ at words
    simp [← String.toList_inj] at words
  | missingLanguage =>
    change "missing language object" = _ at words
    simp [← String.toList_inj] at words
  | missingId =>
    change "mode missing id" = _ at words
    simp [← String.toList_inj] at words
  | duplicateId other =>
    change "duplicate mode id '" ++ other ++ "'" = _ at words
    simpa using words
  | unsafeId other =>
    change "mode id '" ++ other ++ "' is not identifier-safe" = _ at words
    simp [← String.toList_inj] at words

theorem path_ne_schema (place : Place) : place.path ≠ "schema" := by
  intro same
  have dot : '.' ∈ place.path.toList := by simp [Place.path]
  rw [same] at dot
  exact absurd dot (by decide)

theorem eq_unknownRef_of_toDiagnostic {source target : String} {place : Place} {problem : Problem}
    (same : problem.toDiagnostic source = (unknownRef place target).toDiagnostic source) :
    ∃ other : Place, other.path = place.path ∧ problem = unknownRef other target := by
  have somewhere : problem.location = some place.path := congrArg Diagnostic.location same
  have words : problem.message = "unknown ref '" ++ target ++ "'" := congrArg Diagnostic.message same
  cases problem with
  | unsupportedVersion | missingLanguage | missingId | duplicateId | unsafeId => cases somewhere
  | shape => exact absurd (Option.some.inj somewhere).symm (path_ne_schema place)
  | patternType other type =>
    change "unsupported pattern type '" ++ type.getD "None" ++ "'" = _ at words
    simp [← String.toList_inj] at words
  | patternFlag other flag =>
    change "unsupported regex flag '" ++ flag.toString ++ "'" = _ at words
    simp [← String.toList_inj] at words
  | unknownRef other found =>
    change "unknown ref '" ++ found ++ "'" = _ at words
    exact ⟨other, Option.some.inj somewhere, by simpa using words⟩
  | invalidRef other value =>
    change "invalid ref '" ++ value.render ++ "'" = _ at words
    simp [← String.toList_inj] at words

/-- No other problem reads like a duplicate. -/
theorem toDiagnostic_eq_duplicateId (source id : String) (problem : Problem) :
    problem.toDiagnostic source = (duplicateId id).toDiagnostic source ↔ problem.duplicate? = some id := by
  constructor
  · intro same
    rw [eq_duplicateId_of_toDiagnostic same, duplicate?]
  · intro found
    cases problem with
    | duplicateId other => rw [Option.some.inj found]
    | _ => cases found

/-- No other problem reads like an unknown reference. -/
theorem toDiagnostic_eq_unknownRef (source : String) (place : Place) (target : String) (problem : Problem) :
    problem.toDiagnostic source = (unknownRef place target).toDiagnostic source ↔
      problem.unknown? = some (place.path, target) := by
  constructor
  · intro same
    obtain ⟨other, path, rfl⟩ := eq_unknownRef_of_toDiagnostic same
    rw [unknown?, path]
  · intro found
    cases problem with
    | unknownRef other named =>
      obtain ⟨path, rfl⟩ := Prod.mk.inj (Option.some.inj found)
      change Diagnostic.mk source (some other.path) _ = Diagnostic.mk source (some place.path) _
      rw [path]
      rfl
    | _ => cases found

end Problem

namespace Grammar

variable {document : Json}

/-- The references that a mode holds, each with its place. -/
def modeRefs (mode : Json) : List (Place × Json) :=
  Relation.all.flatMap fun relation => (relation.values mode).map fun value =>
    (⟨.mode ((mode.getText? "id").getD "<unknown>"), relation.name⟩, value)

/-- All references of a document, each with its place. -/
def documentRefs (document : Json) : List (Place × Json) :=
  (document.listed "modes").flatMap modeRefs ++
    (((document.get? "language").map (Json.listed "contains")).getD []).map fun value =>
      (⟨.language, "contains"⟩, value)

/-- The name in a reference that is not among the given ones, and where it stands. -/
def unresolved? (ids : List String) (ref : Place × Json) : Option (String × String) :=
  ((ref.2.getText? "ref").filter (· ∉ ids)).map fun target => (ref.1.path, target)

theorem unresolved?_eq_some {ids : List String} {ref : Place × Json} {path target : String} :
    unresolved? ids ref = some (path, target) ↔
      ref.1.path = path ∧ ref.2.getText? "ref" = some target ∧ target ∉ ids := by
  simp only [unresolved?, Option.map_eq_some_iff, Option.filter_eq_some_iff, Prod.mk.injEq, decide_eq_true_eq]
  constructor
  · rintro ⟨found, ⟨named, undeclared⟩, path, rfl⟩
    exact ⟨path, named, undeclared⟩
  · rintro ⟨path, named, undeclared⟩
    exact ⟨target, ⟨named, undeclared⟩, path, rfl⟩

section Kinds

variable {problem : Problem} {place : Place} {value : Json} {ids : List String}

theorem mem_versionProblems (member : problem ∈ versionProblems document) :
    ∃ version, problem = .unsupportedVersion version := by
  simp only [versionProblems] at member
  split at member
  · cases member
  · exact ⟨_, List.mem_singleton.1 member⟩

theorem mem_patternProblems {pattern : Option Json} (member : problem ∈ patternProblems place pattern) :
    (∃ type, problem = .patternType place type) ∨ ∃ flag, problem = .patternFlag place flag := by
  unfold patternProblems at member
  split at member
  next => cases member
  next =>
    obtain type | flag := List.mem_append.1 member
    · split at type
      · cases type
      · exact .inl ⟨_, List.mem_singleton.1 type⟩
    · obtain ⟨flag, -, same⟩ := List.mem_map.1 flag
      exact .inr ⟨flag, same.symm⟩

theorem mem_refProblems (member : problem ∈ refProblems ids place value) :
    (∃ target, problem = .unknownRef place target) ∨ ∃ inner, problem = .invalidRef place inner := by
  unfold refProblems at member
  split at member
  next => exact .inr ⟨value, List.mem_singleton.1 member⟩
  next target _ =>
    split at member
    · cases member
    · exact .inl ⟨target, List.mem_singleton.1 member⟩

end Kinds

section Duplicates

variable {place : Place} {value mode : Json} {ids : List String}

theorem duplicate?_patternProblems (pattern : Option Json) :
    (patternProblems place pattern).filterMap Problem.duplicate? = [] := by
  rw [List.filterMap_eq_nil_iff]
  intro problem member
  obtain ⟨_, rfl⟩ | ⟨_, rfl⟩ := mem_patternProblems member
  · rfl
  · rfl

theorem duplicate?_refProblems : (refProblems ids place value).filterMap Problem.duplicate? = [] := by
  rw [List.filterMap_eq_nil_iff]
  intro problem member
  obtain ⟨_, rfl⟩ | ⟨_, rfl⟩ := mem_refProblems member
  · rfl
  · rfl

theorem duplicate?_refListProblems (list : Option Json) :
    (refListProblems ids place list).filterMap Problem.duplicate? = [] := by
  rw [refListProblems, List.filterMap_flatMap, List.flatMap_eq_nil_iff]
  intro item _
  split
  · rfl
  · exact duplicate?_refProblems

theorem duplicate?_modeProblems : (modeProblems ids mode).filterMap Problem.duplicate? = [] := by
  simp [modeProblems, keywordProblems, List.filterMap_flatMap, duplicate?_patternProblems, duplicate?_refListProblems,
    duplicate?_refProblems]

theorem duplicate?_nameProblems (seen : List String) (name : Option String) :
    (nameProblems seen name).filterMap Problem.duplicate? = name.toList.filter (· ∈ seen) := by
  cases name with
  | none => rfl
  | some id =>
    by_cases known : id ∈ seen <;> by_cases safe : isIdentifierSafe id = true <;>
      simp [nameProblems, Problem.duplicate?, known, safe]

theorem modeIds_cons (mode : Json) (rest : List Json) :
    modeIds (mode :: rest) = (mode.nonEmptyText? "id").toList ++ modeIds rest := by
  rw [modeIds, List.filterMap_cons, Json.nonEmptyText?]
  cases (mode.getText? "id").filter (· ≠ "") with
  | none => rfl
  | some id => rfl

/-- Every mode with a name is reported as a duplicate, but for the first one if the name has not been seen before. -/
theorem count_duplicate? (id : String) (modes : List Json) (seen : List String) :
    ((idProblems seen modes).filterMap Problem.duplicate?).count id =
      if id ∈ seen then (modeIds modes).count id else (modeIds modes).count id - 1 := by
  induction modes generalizing seen with
  | nil => simp [idProblems, modeIds]
  | cons mode rest ih =>
    rw [idProblems_cons, List.filterMap_append, List.count_append, ih, duplicate?_nameProblems, modeIds_cons,
      List.count_append]
    cases mode.nonEmptyText? "id" with
    | none => by_cases known : id ∈ seen <;> simp [known]
    | some name =>
      -- From its first occurrence on a name has been seen, and every further one counts.
      by_cases same : name = id
      · subst same
        by_cases known : name ∈ seen <;> simp [known]
      · have different : id ≠ name := Ne.symm same
        have uncounted : ([name].filter (· ∈ seen)).count id = 0 :=
          List.count_eq_zero.2 fun member => different (List.mem_singleton.1 (List.mem_of_mem_filter member))
        by_cases known : id ∈ seen <;> simp [uncounted, known, same, different]

end Duplicates

section Unknown

variable {place : Place} {ids : List String}

theorem unknown?_patternProblems (pattern : Option Json) :
    (patternProblems place pattern).filterMap Problem.unknown? = [] := by
  rw [List.filterMap_eq_nil_iff]
  intro problem member
  obtain ⟨_, rfl⟩ | ⟨_, rfl⟩ := mem_patternProblems member
  · rfl
  · rfl

theorem unknown?_nameProblems (seen : List String) (name : Option String) :
    (nameProblems seen name).filterMap Problem.unknown? = [] := by
  cases name with
  | none => rfl
  | some id =>
    by_cases known : id ∈ seen <;> by_cases safe : isIdentifierSafe id = true <;>
      simp [nameProblems, Problem.unknown?, known, safe]

theorem unknown?_idProblems (modes : List Json) (seen : List String) :
    (idProblems seen modes).filterMap Problem.unknown? = [] := by
  induction modes generalizing seen with
  | nil => rfl
  | cons mode rest ih => rw [idProblems_cons, List.filterMap_append, unknown?_nameProblems, ih, List.append_nil]

theorem unknown?_refProblems (place : Place) (value : Json) :
    (refProblems ids place value).filterMap Problem.unknown? = (unresolved? ids (place, value)).toList := by
  rw [refProblems, unresolved?]
  cases value.getText? "ref" with
  | none => rfl
  | some target => by_cases known : target ∈ ids <;> simp [known, Problem.unknown?, Option.filter]

theorem unknown?_refListProblems (place : Place) (value : Json) (field : String) :
    (refListProblems ids place (value.get? field)).filterMap Problem.unknown? =
      (value.listed field).filterMap fun item => unresolved? ids (place, item) := by
  rw [refListProblems, ← Json.listed_eq, List.filterMap_flatMap, List.filterMap_eq_flatMap_toList]
  apply List.flatMap_congr
  intro item _
  split
  next marker =>
    -- The marker refers by no name.
    cases item with
    | text => rfl
    | null | bool | number | list | object => cases marker
  next => exact unknown?_refProblems place item

theorem unknown?_starts (place : Place) (starts : Option Json) :
    (starts.toList.flatMap (refProblems ids place)).filterMap Problem.unknown? =
      starts.toList.filterMap fun value => unresolved? ids (place, value) := by
  cases starts with
  | none => rfl
  | some value =>
    rw [Option.toList_some, List.flatMap_singleton, unknown?_refProblems, List.filterMap_eq_flatMap_toList,
      List.flatMap_singleton]

theorem unknown?_modeProblems (mode : Json) :
    (modeProblems ids mode).filterMap Problem.unknown? = (modeRefs mode).filterMap (unresolved? ids) := by
  simp [modeProblems, keywordProblems, modeRefs, Relation.all, Relation.values, Relation.name, List.filterMap_map,
    unknown?_patternProblems, unknown?_refListProblems, unknown?_starts]

end Unknown

section Documents

variable {fields : List (String × Json)} (described : document.get? "language" = some (.object fields))

include described

theorem valueProblems_eq : valueProblems document = versionProblems document ++
    (patternProblems ⟨.language, "illegal"⟩ ((Json.object fields).get? "illegal") ++
      keywordProblems .language (.object fields) ++ idProblems [] (document.listed "modes") ++
      (document.listed "modes").flatMap (modeProblems (declaredNames document)) ++
      refListProblems (declaredNames document) ⟨.language, "contains"⟩ ((Json.object fields).get? "contains")) := by
  have isObject : (document.get? "language").filter Json.isObject = some (.object fields) := by
    rw [described]
    rfl
  rw [valueProblems, isObject]
  simp only [declaredNames, Json.listed_eq]

theorem duplicate?_valueProblems : (valueProblems document).filterMap Problem.duplicate? =
    (idProblems [] (document.listed "modes")).filterMap Problem.duplicate? := by
  have version : (versionProblems document).filterMap Problem.duplicate? = [] := by
    rw [List.filterMap_eq_nil_iff]
    intro problem member
    obtain ⟨_, rfl⟩ := mem_versionProblems member
    rfl
  have modes : ((document.listed "modes").flatMap (modeProblems (declaredNames document))).filterMap
      Problem.duplicate? = [] := by
    rw [List.filterMap_flatMap, List.flatMap_eq_nil_iff]
    exact fun _ _ => duplicate?_modeProblems
  simp only [valueProblems_eq described, List.filterMap_append, version, modes, keywordProblems,
    duplicate?_patternProblems, duplicate?_refListProblems, List.nil_append, List.append_nil]

/-- The unknown references that are reported are those that cannot be resolved, one by one. -/
theorem unknown?_valueProblems : (valueProblems document).filterMap Problem.unknown? =
    (documentRefs document).filterMap (unresolved? (declaredNames document)) := by
  have version : (versionProblems document).filterMap Problem.unknown? = [] := by
    rw [List.filterMap_eq_nil_iff]
    intro problem member
    obtain ⟨_, rfl⟩ := mem_versionProblems member
    rfl
  simp only [valueProblems_eq described, documentRefs, described, List.filterMap_append, version, keywordProblems,
    unknown?_patternProblems, unknown?_refListProblems, unknown?_idProblems, List.filterMap_flatMap,
    unknown?_modeProblems, List.filterMap_map, Function.comp_def, Option.map_some, Option.getD_some, List.nil_append]

end Documents

/-- Diagnostics that stand for one kind of problem are counted among the problems of the values. -/
theorem count_validate {α : Type} [BEq α] [LawfulBEq α] {source : String} {diagnostic : Diagnostic}
    {read : Problem → Option α} {a : α} (shape : Shape.document.violations document = [])
    (reads : ∀ problem : Problem, problem.toDiagnostic source = diagnostic ↔ read problem = some a) :
    (validate document source).count diagnostic = ((valueProblems document).filterMap read).count a := by
  rw [validate, problems, shape, List.count, List.countP_map, List.count_filterMap]
  apply List.countP_congr
  intro problem _
  simpa using reads problem

theorem count_modeIds {id : String} (present : id ≠ "") (modes : List Json) :
    (modeIds modes).count id = modes.countP fun mode => mode.getText? "id" = some id := by
  rw [modeIds, List.count_filterMap]
  apply List.countP_congr
  intro mode _
  simp only [beq_iff_eq, Option.filter_eq_some_iff, decide_eq_true_eq, and_iff_left present]

/-- In another order of the modes the same is reported, both of the shape and of the values.  Where the values are
looked at, a name that occurs several times is reported once less, and every reference that names no mode is reported. -/
theorem validate_reordered (document : Json) (source : String) :
    (∀ items others, document.get? "modes" = some (.list items) → items.Perm others →
      (Shape.document.violations (document.withItems "modes" others)).Perm (Shape.document.violations document) ∧
      (valueProblems (document.withItems "modes" others)).Perm (valueProblems document) ∧
      (validate (document.withItems "modes" others) source).Perm (validate document source)) ∧
    ∀ fields, Shape.document.violations document = [] → document.get? "language" = some (.object fields) →
      (∀ id, id ≠ "" → (validate document source).count ⟨source, none, "duplicate mode id '" ++ id ++ "'"⟩ =
        (document.listed "modes").countP (fun mode => mode.getText? "id" = some id) - 1) ∧
      ∀ (place : Place) (target : String),
        (validate document source).count ⟨source, some place.path, "unknown ref '" ++ target ++ "'"⟩ =
          (documentRefs document).countP fun ref =>
            ref.1.path = place.path ∧ ref.2.getText? "ref" = some target ∧ target ∉ declaredNames document := by
  refine ⟨fun items others found reordered => ⟨?_, ?_, ?_⟩, fun fields shape described => ⟨?_, ?_⟩⟩
  · exact violations_reordered found reordered
  · exact valueProblems_reordered found reordered
  · exact (problems_reordered found reordered).map _
  · intro id present
    have counted := count_validate shape (Problem.toDiagnostic_eq_duplicateId source id)
    rw [duplicate?_valueProblems described, count_duplicate?, count_modeIds present] at counted
    exact counted
  · intro place target
    have counted := count_validate shape (Problem.toDiagnostic_eq_unknownRef source place target)
    rw [unknown?_valueProblems described, List.count_filterMap] at counted
    refine counted.trans (List.countP_congr fun ref _ => ?_)
    rw [beq_iff_eq, decide_eq_true_eq, unresolved?_eq_some]

/-- Three of four modes have one name, and two of them refer to a mode that is not there. -/
def crowdedModes : List Json := [
  .object [("contains", .list [.object [("ref", .text "c")], .text "self"]), ("id", .text "a")],
  .object [("id", .text "b"), ("variants", .list [.object [("ref", .text "a")]])],
  .object [("contains", .list [.object [("ref", .text "b")], .object [("ref", .text "c")]]), ("id", .text "a")],
  .object [("id", .text "a"), ("starts", .object [("ref", .text "b")])]]

def crowdedDocument : Json :=
  .object [("language", .object []), ("modes", .list crowdedModes), ("version", .number (.whole 1))]

theorem validate_reordered_crowdedDocument :
    (validate (crowdedDocument.withItems "modes" crowdedModes.reverse) "a.json").Perm
      (validate crowdedDocument "a.json") ∧
    (validate crowdedDocument "a.json").count ⟨"a.json", none, "duplicate mode id 'a'"⟩ = 2 ∧
    (validate crowdedDocument "a.json").count ⟨"a.json", some "mode a.contains", "unknown ref 'c'"⟩ = 2 := by
  obtain ⟨orders, counts⟩ := validate_reordered crowdedDocument "a.json"
  obtain ⟨duplicates, unknown⟩ := counts [] rfl rfl
  refine ⟨(orders crowdedModes _ rfl (List.reverse_perm crowdedModes).symm).2.2, ?_, ?_⟩
  · exact duplicates "a" (by decide)
  · exact unknown ⟨.mode "a", "contains"⟩ "c"

end Grammar

end HighlightGrammar
