import HighlightGrammar.Proofs.SelfReference
import HighlightGrammar.Proofs.ValidationOrder

/-!
# The marker in documents

In a document a mode refers to itself by its name or by the marker.  Where the marker takes the place of the name, the
document is still loaded, and modes refer to themselves in the other way (`Modes.Exchanged`).  It is still valid, too,
as long as this happens in lists: what a mode starts has to be given by name, and every mode that starts itself by the
marker is reported once.
-/

namespace HighlightGrammar

namespace Json

variable {key : String} {field : String × Json} (rest : List (String × Json))

theorem get?_cons_self (found : key = field.1) : (object (field :: rest)).get? key = some field.2 := by
  rw [get?, List.lookup_cons]
  simp [found]

theorem get?_cons_of_ne (apart : key ≠ field.1) : (object (field :: rest)).get? key = (object rest).get? key := by
  have differs : (key == field.1) = false := by simpa using apart
  rw [get?, List.lookup_cons, differs]
  rfl

end Json

/-- If all else in a record conforms, what goes against it is found under one key. -/
theorem Schema.violations_record {entries : List (String × Schema)} {key : String} {schema : Schema} {value : Json}
    (distinct : (entries.map Prod.fst).Nodup) (listed : (key, schema) ∈ entries)
    (others : ∀ entry ∈ entries, entry.1 ≠ key → (field entry.1 entry.2).Conforms value) :
    (record entries).violations value = (field key schema).violations value := by
  induction entries with
  | nil => cases listed
  | cons entry rest ih =>
    -- The key occurs once, so the fields before and after it are others.
    obtain ⟨fresh, unique⟩ := List.nodup_cons.1 distinct
    obtain ⟨here, after⟩ := List.forall_mem_cons.1 others
    change (field entry.1 entry.2).violations value ++ (record rest).violations value = _
    cases listed with
    | head =>
      have conforms : (record rest).Conforms value := by
        rw [record, conforms_all, List.forall_mem_map]
        intro other member
        have different : other.1 ≠ key := fun same => fresh (List.mem_map.2 ⟨other, member, same⟩)
        exact after other member different
      rw [(violations_eq_nil_iff _ _).2 conforms, List.append_nil]
    | tail _ listed =>
      have different : entry.1 ≠ key := fun same => fresh (same ▸ List.mem_map_of_mem listed)
      rw [(violations_eq_nil_iff _ _).2 (here different), List.nil_append, ih unique listed after]

namespace Grammar

/-- A reference of the mode with a name, and what stands in its place: the same, or the marker if it is by this name. -/
inductive MarkedRef (id : String) : Json → Json → Prop where
  | kept (value : Json) : MarkedRef id value value
  | marked {value : Json} (own : value.getText? "ref" = some id) : MarkedRef id value (.text "self")

/-- A field of the mode with a name, and what stands in its place. -/
inductive MarkedField (id : String) : String × Json → String × Json → Prop where
  | kept (field : String × Json) : MarkedField id field field
  | listed {key : String} {items others : List Json} (holds : key ∈ ["contains", "variants"])
      (each : List.Forall₂ (MarkedRef id) items others) : MarkedField id (key, .list items) (key, .list others)
  | starts {value : Json} (own : value.getText? "ref" = some id) :
      MarkedField id ("starts", value) ("starts", .text "self")

/-- The same mode, with the marker in place of any of its references to itself by name. -/
inductive MarkedMode : Json → Json → Prop where
  | object {fields others : List (String × Json)} {id : String} (named : (Json.object fields).getText? "id" = some id)
      (each : List.Forall₂ (MarkedField id) fields others) : MarkedMode (.object fields) (.object others)

/-- Whether a mode starts itself by the marker. -/
def startsByMarker (mode : Json) : Bool := mode.getText? "starts" == some "self"

/-- What a mode with a name holds under a key, and what a marked one does. -/
inductive MarkedUnder (id key : String) (mode other : Json) : Prop where
  | kept (same : other.get? key = mode.get? key)
  | listed {items others : List Json} (holds : key ∈ ["contains", "variants"])
      (former : mode.get? key = some (.list items)) (now : other.get? key = some (.list others))
      (each : List.Forall₂ (MarkedRef id) items others)
  | starts {value : Json} (holds : key = "starts") (former : mode.get? key = some value)
      (own : value.getText? "ref" = some id) (now : other.get? key = some (.text "self"))

theorem markedUnder {id : String} {fields others : List (String × Json)}
    (each : List.Forall₂ (MarkedField id) fields others) (key : String) :
    MarkedUnder id key (.object fields) (.object others) := by
  induction each with
  | nil => exact .kept rfl
  | @cons field other rest others here _ ih =>
    have sameKey : other.1 = field.1 := by cases here <;> rfl
    by_cases found : key = field.1
    · -- The first field with the key decides.
      have former := Json.get?_cons_self rest found
      have now := Json.get?_cons_self others (found.trans sameKey.symm)
      cases here with
      | kept => exact .kept (now.trans former.symm)
      | listed holds each =>
        subst found
        exact .listed holds former now each
      | starts own => exact .starts found former own now
    · have former := Json.get?_cons_of_ne rest found
      have now := Json.get?_cons_of_ne others (sameKey ▸ found)
      cases ih with
      | kept same => exact .kept (now.trans (same.trans former.symm))
      | listed holds there thereNow each => exact .listed holds (former.trans there) (now.trans thereNow) each
      | starts holds there own thereNow => exact .starts holds (former.trans there) own (now.trans thereNow)

/-- Key by key, a marked mode is the same or has the marker. -/
theorem MarkedMode.under {mode other : Json} (marked : MarkedMode mode other) :
    ∃ id, mode.getText? "id" = some id ∧ ∀ key, MarkedUnder id key mode other := by
  obtain ⟨named, each⟩ := marked
  exact ⟨_, named, markedUnder each⟩

theorem MarkedMode.get?_of_notMem {mode other : Json} (marked : MarkedMode mode other) {key : String}
    (unaffected : key ∉ ["contains", "variants", "starts"]) : other.get? key = mode.get? key := by
  obtain ⟨id, -, under⟩ := marked.under
  cases under key with
  | kept same => exact same
  | listed holds => exact absurd (List.mem_append_left ["starts"] holds) unaffected
  | starts holds => simp [holds] at unaffected

theorem mem_marked {id : String} {items others : List Json} (each : List.Forall₂ (MarkedRef id) items others)
    {item : Json} (member : item ∈ others) : item ∈ items ∨ item = .text "self" := by
  obtain ⟨former, inside, here⟩ := exists_of_mem_forall₂ each member
  cases here with
  | kept => exact .inl inside
  | marked => exact .inr rfl

theorem MarkedMode.mem_listed {mode other : Json} (marked : MarkedMode mode other) {key : String} {item : Json}
    (member : item ∈ other.listed key) : item ∈ mode.listed key ∨ item = .text "self" := by
  obtain ⟨id, -, under⟩ := marked.under
  rw [Json.listed_eq] at member ⊢
  cases under key with
  | kept same =>
    rw [same] at member
    exact .inl member
  | listed _ former now each =>
    rw [now] at member
    rw [former]
    exact mem_marked each member
  | starts _ _ _ now =>
    rw [now] at member
    cases member

/-! ## Validation -/

section Validation

variable {mode other : Json}

theorem conforms_marked {id : String} {items others : List Json} (each : List.Forall₂ (MarkedRef id) items others)
    (shape : Shape.refList.Conforms (.list items)) : Shape.refList.Conforms (.list others) := by
  obtain ⟨-, inside, -⟩ := shape
  refine ⟨⟨.array, by simp, rfl⟩, ?_, trivial⟩
  rintro _ ⟨⟩ item member
  obtain former | rfl := mem_marked each member
  · exact inside items rfl item former
  · exact .inl rfl

/-- The marker goes against no schema but that of what a mode starts. -/
theorem MarkedMode.conforms_field (marked : MarkedMode mode other) {key : String} {schema : Schema}
    (different : key ≠ "starts") (lists : key ∈ ["contains", "variants"] → schema = Shape.refList)
    (shape : (Schema.field key schema).Conforms mode) : (Schema.field key schema).Conforms other := by
  obtain ⟨id, -, under⟩ := marked.under
  intro inner found
  cases under key with
  | kept same => exact shape inner (same ▸ found)
  | listed holds former now each =>
    have conforms := shape _ former
    cases now.symm.trans found
    rw [lists holds] at conforms ⊢
    exact conforms_marked each conforms
  | starts holds => exact absurd holds different

theorem MarkedMode.violations_starts (marked : MarkedMode mode other)
    (shape : (Schema.field "starts" (.either (.kinds [.null]) Shape.ref)).Conforms mode) :
    (Schema.field "starts" (.either (.kinds [.null]) Shape.ref)).violations other =
      if startsByMarker other then [.noAlternative (.text "self")] else [] := by
  obtain ⟨id, -, under⟩ := marked.under
  cases under "starts" with
  | kept same =>
    -- What was let pass is no text.
    have byName : startsByMarker mode = false := by
      rw [startsByMarker, beq_eq_false_iff_ne, ne_eq, Json.getText?_eq_some]
      intro found
      have conforms := shape _ found
      simp [Schema.Conforms, Kind.admits, Shape.ref, Schema.all] at conforms
    have passes := (Schema.violations_eq_nil_iff _ _).2 shape
    rw [Schema.violations] at passes ⊢
    rw [startsByMarker, Json.getText?, same, ← Json.getText?, ← startsByMarker, byName]
    exact passes
  | listed holds => simp at holds
  | starts _ _ _ now =>
    rw [Schema.violations, startsByMarker, Json.getText?, now]
    rfl

/-- The marker is reported where a mode starts itself by it, and nothing else is. -/
theorem MarkedMode.violations (marked : MarkedMode mode other) (shape : Shape.mode.Conforms mode) :
    Shape.mode.violations other = if startsByMarker other then [.noAlternative (.text "self")] else [] := by
  have kinds : (Schema.kinds [.object]).violations other = [] := by
    cases marked
    rfl
  obtain ⟨-, fields, -⟩ := shape
  change _ ++ ((Schema.record _).violations other ++ []) = _
  rw [kinds, List.nil_append, List.append_nil, ← marked.violations_starts fun value => fields.field rfl]
  -- All fields but what is started conform.
  apply Schema.violations_record
  · decide
  · simp
  · intro entry listed different
    have lists : entry.1 ∈ ["contains", "variants"] → entry.2 = Shape.refList := by
      revert entry
      simp
    exact marked.conforms_field different lists (Schema.conforms_all.1 fields _ (List.mem_map_of_mem listed))

theorem flatMap_violations_marked {items others : List Json} (marked : List.Forall₂ MarkedMode items others)
    (shape : ∀ mode ∈ items, Shape.mode.Conforms mode) :
    others.flatMap Shape.mode.violations =
      List.replicate (others.countP startsByMarker) (.noAlternative (.text "self")) := by
  induction marked with
  | nil => rfl
  | @cons mode other _ _ here _ ih =>
    obtain ⟨conforms, after⟩ := List.forall_mem_cons.1 shape
    rw [List.flatMap_cons, here.violations conforms, ih after, List.countP_cons]
    by_cases byMarker : startsByMarker other = true
    · simp [byMarker, List.replicate_succ]
    · simp [byMarker]

theorem MarkedMode.named (marked : MarkedMode mode other) : other.nonEmptyText? "id" = mode.nonEmptyText? "id" := by
  rw [Json.nonEmptyText?, Json.nonEmptyText?, Json.getText?, Json.getText?, marked.get?_of_notMem (by decide)]

theorem modeIds_marked {items others : List Json} (marked : List.Forall₂ MarkedMode items others) :
    modeIds others = modeIds items := by
  induction marked with
  | nil => rfl
  | cons here _ ih =>
    rw [modeIds_cons, modeIds_cons, ih, here.named]

/-- Without the marker there, a mode starts what it has started before. -/
theorem MarkedMode.get?_starts (marked : MarkedMode mode other) (byName : startsByMarker other = false) :
    other.get? "starts" = mode.get? "starts" := by
  obtain ⟨id, -, under⟩ := marked.under
  cases under "starts" with
  | kept same => exact same
  | listed holds => simp at holds
  | starts _ _ _ now =>
    rw [startsByMarker, Json.getText?, now] at byName
    cases byName

theorem MarkedMode.soundMode {ids : List String} (marked : MarkedMode mode other)
    (byName : startsByMarker other = false) (sound : SoundMode ids mode) : SoundMode ids other where
  patterns := by
    have unaffected : ∀ field ∈ ["begin", "end", "match", "illegal"], field ∉ ["contains", "variants", "starts"] := by
      decide
    intro field listed
    rw [Json.getPresent?, marked.get?_of_notMem (unaffected field listed)]
    exact sound.patterns field listed
  keywords := by
    rw [keywordPattern?, marked.get?_of_notMem (by decide)]
    exact sound.keywords
  refs := by
    intro field listed item member
    obtain former | marker := marked.mem_listed member
    · exact sound.refs field listed item former
    · exact .inl marker
  starts := by
    rw [Json.getPresent?, marked.get?_starts byName]
    exact sound.starts

theorem soundValues_marked {document : Json} {items others : List Json}
    (found : document.get? "modes" = some (.list items)) (marked : List.Forall₂ MarkedMode items others)
    (byName : ∀ mode ∈ others, startsByMarker mode = false) (sound : SoundValues document) :
    SoundValues (document.withItems "modes" others) := by
  have former : document.listed "modes" = items := Json.listed_of_get? found
  have now : (document.withItems "modes" others).listed "modes" = others :=
    Json.listed_of_get? (Json.get?_withItems_self found)
  obtain ⟨version, ids, distinct, modes, language⟩ := sound
  rw [former] at ids distinct modes language
  refine ⟨?_, ?_, ?_, ?_, ?_⟩
  · rwa [Json.get?_withItems_of_ne (by decide)]
  · rw [now]
    intro other member
    obtain ⟨mode, inside, here⟩ := exists_of_mem_forall₂ marked member
    rw [here.named]
    exact ids mode inside
  · rwa [now, modeIds_marked marked]
  · rw [now, modeIds_marked marked]
    intro other member
    obtain ⟨mode, inside, here⟩ := exists_of_mem_forall₂ marked member
    exact here.soundMode (byName other member) (modes mode inside)
  · rwa [now, modeIds_marked marked, Json.get?_withItems_of_ne (by decide)]

end Validation

theorem violations_document_marked {document : Json} {items others : List Json}
    (found : document.get? "modes" = some (.list items)) (marked : List.Forall₂ MarkedMode items others)
    (shape : Shape.document.Conforms document) :
    Shape.document.violations (document.withItems "modes" others) =
      List.replicate (others.countP startsByMarker) (.noAlternative (.text "self")) := by
  have nothing := (Schema.violations_eq_nil_iff _ _).2 shape
  rw [violations_eq found, List.append_eq_nil_iff, List.append_eq_nil_iff, List.flatMap_eq_nil_iff] at nothing
  obtain ⟨⟨language, modes⟩, version⟩ := nothing
  have conforms : ∀ mode ∈ items, Shape.mode.Conforms mode := fun mode member =>
    (Schema.violations_eq_nil_iff _ _).1 (modes mode member)
  rw [violations_withItems found, language, version, flatMap_violations_marked marked conforms, List.nil_append,
    List.append_nil]

theorem problems_marked {document : Json} {items others : List Json}
    (found : document.get? "modes" = some (.list items)) (marked : List.Forall₂ MarkedMode items others)
    (shape : Shape.document.Conforms document) (sound : SoundValues document) :
    problems (document.withItems "modes" others) =
      List.replicate (others.countP startsByMarker) (.shape (.noAlternative (.text "self"))) := by
  rw [problems, violations_document_marked found marked shape]
  cases count : others.countP startsByMarker with
  | zero =>
    -- The shape is sound, so the values are looked at.
    have byName : ∀ mode ∈ others, startsByMarker mode = false := by simpa using count
    exact valueProblems_eq_nil.2 (soundValues_marked found marked byName sound)
  | succ more => exact List.map_replicate

/-! ## Loading -/

theorem loadAttributes_congr {mode other : Json}
    (same : ∀ key, key ∉ ["contains", "variants", "starts"] → other.get? key = mode.get? key) (owner : Owner) :
    loadAttributes owner other = loadAttributes owner mode := by
  simp (disch := decide) only [loadAttributes, loadPattern, loadKeywords, loadScope, loadFlags, loadSubLanguage,
    Json.flag, Json.nonEmptyText?, Json.getText?, Json.getPresent?, same]

section Loading

variable {n : Nat} {ids : Vector String n} (distinct : Function.Injective ids.get) {i : Fin n} {owner : Owner}

include distinct

theorem readRef_marked {field : String} {value other : Json} {ref : Ref n} (marked : MarkedRef (ids.get i) value other)
    (read : readRef ids owner field value = .ok ref) :
    ∃ now, readRef ids owner field other = .ok now ∧ ref.Exchanged i now := by
  cases marked with
  | kept => exact ⟨ref, read, .same ref⟩
  | marked own =>
    -- The name leads to the mode itself, since no other one bears it.
    have found : ids.finIdxOf? (ids.get i) = some i :=
      finIdxOf?_eq_some.2 ⟨rfl, fun earlier less again => absurd (distinct again) (Fin.ne_of_lt less)⟩
    have unmarked : value.asText? ≠ some "self" := by
      cases value with
      | text => cases own
      | null | bool | number | list | object => simp [Json.asText?]
    simp only [readRef, if_neg unmarked, own, found, Except.ok.injEq] at read
    subst read
    exact ⟨.itself, rfl, .byMarker⟩

theorem readRefs_marked {field : String} {items others : List Json} {refs : List (Ref n)}
    (each : List.Forall₂ (MarkedRef (ids.get i)) items others)
    (read : List.Forall₂ (fun item ref => readRef ids owner field item = .ok ref) items refs) :
    ∃ now, List.Forall₂ (fun item ref => readRef ids owner field item = .ok ref) others now ∧
      List.Forall₂ (Ref.Exchanged i) refs now := by
  induction each generalizing refs with
  | nil =>
    cases read
    exact ⟨[], .nil, .nil⟩
  | cons marked _ ih =>
    obtain - | ⟨first, rest⟩ := read
    obtain ⟨ref, firstRead, exchanged⟩ := readRef_marked distinct marked first
    obtain ⟨now, restRead, exchangedRest⟩ := ih rest
    exact ⟨ref :: now, .cons firstRead restRead, .cons exchanged exchangedRest⟩

variable {mode other : Json} (under : ∀ key, MarkedUnder (ids.get i) key mode other)

include under

theorem loadRefs_marked {field : String} (different : field ≠ "starts") {refs : List (Ref n)}
    (read : loadRefs ids owner field mode = .ok refs) :
    ∃ now, loadRefs ids owner field other = .ok now ∧ List.Forall₂ (Ref.Exchanged i) refs now := by
  simp only [loadRefs_eq_ok, Json.getPresent?] at read ⊢
  cases under field with
  | kept same =>
    rw [same]
    exact ⟨refs, read, List.forall₂_same.2 fun ref _ => .same ref⟩
  | @listed _ others _ former now each =>
    rw [former] at read
    obtain ⟨absent, -⟩ | ⟨items, present, refsRead⟩ := read
    · cases absent
    · cases present
      obtain ⟨refs, readNow, exchanged⟩ := readRefs_marked distinct each refsRead
      exact ⟨refs, .inr ⟨others, by rw [now]; rfl, readNow⟩, exchanged⟩
  | starts holds => exact absurd holds different

theorem loadStarts_marked {starts : Option (Ref n)} (read : loadStarts ids owner mode = .ok starts) :
    ∃ now, loadStarts ids owner other = .ok now ∧ Option.Rel (Ref.Exchanged i) starts now := by
  simp only [loadStarts_eq_ok, Json.getPresent?] at read ⊢
  cases under "starts" with
  | kept same =>
    rw [same]
    refine ⟨starts, read, ?_⟩
    cases starts with
    | none => exact .none
    | some ref => exact .some (.same ref)
  | listed holds => simp at holds
  | @starts value _ former own now =>
    rw [former] at read
    -- Only an object refers by name, so the value does not count as absent.
    cases value with
    | object fields =>
      obtain ⟨absent, -⟩ | ⟨found, ref, present, refRead, rfl⟩ := read
      · cases absent
      · cases present
        obtain ⟨ref, readNow, exchanged⟩ := readRef_marked distinct (.marked own) refRead
        exact ⟨some ref, .inr ⟨.text "self", ref, by rw [now]; rfl, readNow, rfl⟩, .some exchanged⟩
    | null | bool | number | text | list => cases own

end Loading

theorem loadMode_marked {n : Nat} {ids : Vector String n} (distinct : Function.Injective ids.get) {i : Fin n}
    {value other : Json} {mode : Mode n} (marked : MarkedMode value other) (named : loadId value = .ok (ids.get i))
    (read : loadMode ids (ids.get i) value = .ok mode) :
    ∃ now, loadMode ids (ids.get i) other = .ok now ∧ mode.Exchanged i now := by
  obtain ⟨id, idFound, under⟩ := marked.under
  obtain rfl : ids.get i = id := Option.some.inj ((getText?_of_loadId named).symm.trans idFound)
  simp only [loadMode, bind_eq_ok] at read ⊢
  obtain ⟨starts, startsRead, attributes, attributesRead, contains, containsRead, variants, variantsRead, same⟩ := read
  cases same
  obtain ⟨startsNow, startsReadNow, startsExchanged⟩ := loadStarts_marked distinct under startsRead
  obtain ⟨containsNow, containsReadNow, containsExchanged⟩ := loadRefs_marked distinct under (by decide) containsRead
  obtain ⟨variantsNow, variantsReadNow, variantsExchanged⟩ := loadRefs_marked distinct under (by decide) variantsRead
  rw [← loadAttributes_congr fun key => marked.get?_of_notMem] at attributesRead
  refine ⟨⟨ids.get i, attributes, containsNow, variantsNow, startsNow⟩, ?_, ?_⟩
  · exact ⟨startsNow, startsReadNow, attributes, attributesRead, containsNow, containsReadNow, variantsNow,
      variantsReadNow, rfl⟩
  · exact ⟨rfl, rfl, containsExchanged, variantsExchanged, startsExchanged⟩

/-- The names that are loaded are those that validation looks at. -/
theorem modeIds_eq_toList {n : Nat} {values : Vector Json n} {ids : Vector String n}
    (read : ∀ i, loadId (values.get i) = .ok (ids.get i)) : modeIds values.toList = ids.toList := by
  have names : values.toList.map (·.nonEmptyText? "id") = ids.toList.map some := by
    apply List.ext_getElem
    · simp
    · intro i inside _
      have here : i < n := by simpa using inside
      simp only [List.getElem_map, Vector.getElem_toList]
      exact loadId_eq_ok.1 (read ⟨i, here⟩)
  calc modeIds values.toList = (values.toList.map (·.nonEmptyText? "id")).filterMap id := by
        rw [List.filterMap_map]
        rfl
    _ = (ids.toList.map some).filterMap id := by rw [names]
    _ = ids.toList := by simp

theorem load_marked {document : Json} {items others : List Json} {grammar : Grammar}
    (found : document.get? "modes" = some (.list items)) (marked : List.Forall₂ MarkedMode items others)
    (distinct : (modeIds items).Nodup) (loaded : load document = .ok grammar) :
    ∃ modes, load (document.withItems "modes" others) = .ok { grammar with modes } ∧ grammar.modes.Exchanged modes := by
  obtain ⟨n, version, value, values, ids, modes, language, versionFound, valueFound, itemsRead, idsRead, modesRead,
    languageRead, rfl⟩ := load_eq_ok_iff.1 loaded
  obtain rfl : items = values.toList := Except.ok.inj ((modeValues_eq_ok found).symm.trans itemsRead)
  have size : others.toArray.size = n := by simp [← marked.length_eq]
  have unique : Function.Injective ids.get := by
    rw [modeIds_eq_toList idsRead] at distinct
    intro a b same
    exact Fin.ext (distinct.getElem_inj_iff.1 same)
  have each (i : Fin n) : MarkedMode (values.get i) ((Vector.mk others.toArray size).get i) :=
    (List.forall₂_iff_get.1 marked).2 i.val (by simp) (by simp [← marked.length_eq])
  choose now nowRead exchanged using fun i => loadMode_marked unique (each i) (idsRead i) (modesRead i)
  refine ⟨.ofFn now, load_eq_ok_iff.2 ⟨n, version, value, ⟨others.toArray, size⟩, ids, .ofFn now, language, ?_, ?_,
    modeValues_eq_ok (Json.get?_withItems_self found), ?_, ?_, languageRead, rfl⟩, ?_⟩
  · rwa [Json.get?_withItems_of_ne (by decide)]
  · rwa [Json.get?_withItems_of_ne (by decide)]
  · intro i
    rw [loadId, (each i).named, ← loadId, idsRead]
  · intro i
    rw [get_ofFn]
    exact nowRead i
  · intro i
    rw [get_ofFn]
    exact exchanged i

/-- With the marker for references of modes to themselves, a valid document is still loaded if it was before.  Reported
are just the modes that start themselves by the marker, one by one. -/
theorem validate_marked {document : Json} {source : String} {items others : List Json}
    (valid : validate document source = []) (found : document.get? "modes" = some (.list items))
    (marked : List.Forall₂ MarkedMode items others) :
    validate (document.withItems "modes" others) source =
      List.replicate (others.countP startsByMarker) ⟨source, some "schema",
        "\"self\" is not valid under any of the schemas listed in the 'anyOf' keyword"⟩ ∧
    ∀ grammar, load document = .ok grammar → ∃ modes,
      load (document.withItems "modes" others) = .ok { grammar with modes } ∧ grammar.modes.Exchanged modes := by
  obtain ⟨shape, sound⟩ := validate_eq_nil.1 valid
  have distinct : (modeIds items).Nodup := Json.listed_of_get? found ▸ sound.distinct
  refine ⟨?_, fun grammar loaded => load_marked found marked distinct loaded⟩
  rw [validate, problems_marked found marked shape sound, List.map_replicate]
  rfl

/-- One mode that contains and starts itself, by references of whatever form. -/
def recursiveModes (contained started : Json) : List Json :=
  [.object [("contains", .list [contained]), ("id", .text "a"), ("starts", started)]]

def recursiveDocument (contained started : Json) : Json :=
  .object [
    ("language", .object []), ("modes", .list (recursiveModes contained started)), ("version", .number (.whole 1))]

/-- The reference by name. -/
def recursiveRef : Json := .object [("ref", .text "a")]

theorem validate_marked_contains : validate (recursiveDocument recursiveRef recursiveRef) "a.json" = [] ∧
    validate (recursiveDocument (.text "self") recursiveRef) "a.json" = [] := by
  have valid : validate (recursiveDocument recursiveRef recursiveRef) "a.json" = [] := by rfl
  have contains : MarkedField "a" ("contains", .list [recursiveRef]) ("contains", .list [.text "self"]) :=
    .listed (by decide) (.cons (.marked rfl) .nil)
  have marked : List.Forall₂ MarkedMode (recursiveModes recursiveRef recursiveRef)
      (recursiveModes (.text "self") recursiveRef) :=
    .cons (.object rfl (.cons contains (.cons (.kept _) (.cons (.kept _) .nil)))) .nil
  exact ⟨valid, (validate_marked valid rfl marked).1⟩

/-- The marker in the other place is loaded, but not valid. -/
theorem validate_marked_starts : validate (recursiveDocument recursiveRef recursiveRef) "a.json" = [] ∧
    List.Forall₂ MarkedMode (recursiveModes recursiveRef recursiveRef) (recursiveModes recursiveRef (.text "self")) ∧
    validate (recursiveDocument recursiveRef (.text "self")) "a.json" = [⟨"a.json", some "schema",
      "\"self\" is not valid under any of the schemas listed in the 'anyOf' keyword"⟩] ∧
    ∃ grammar, load (recursiveDocument recursiveRef (.text "self")) = .ok grammar := by
  have starts : MarkedField "a" ("starts", recursiveRef) ("starts", .text "self") := .starts rfl
  refine ⟨by rfl, ?_, by rfl, _, by with_unfolding_all rfl⟩
  exact .cons (.object rfl (.cons (.kept _) (.cons (.kept _) (.cons starts .nil)))) .nil

end Grammar

end HighlightGrammar
