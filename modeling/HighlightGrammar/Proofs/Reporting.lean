import HighlightGrammar.Proofs.Violations

/-!
# Reporting violations in order

`Grammar.Reports` says of a step that may fail that it looks for given violations, in the order of their places: it
succeeds if there are none, and otherwise fails with the one before all others.  Steps after one another look for what
each of them looks for, if everything that the first one can find comes before all that the second one can.  So the
statements about single values carry over to lists, and to the fields of a mode and of the language.
-/

namespace HighlightGrammar.Grammar

/-! ## Steps that report violations -/

/-- The step succeeds if nothing is violated, and otherwise fails with the violation before all others. -/
def Reports {α : Type} (violates : Checkpoint → LoadError → Prop) : Except LoadError α → Prop
  | .ok _ => ∀ point error, ¬ violates point error
  | .error error => ∃ point, violates point error ∧
      ∀ other cause, violates other cause → point.Before other ∨ (other = point ∧ cause = error)

namespace Reports

variable {α β : Type} {P Q : Checkpoint → LoadError → Prop} {step : Except LoadError α}

theorem congr (reports : Reports P step) (same : ∀ point error, P point error ↔ Q point error) : Reports Q step := by
  have equal : P = Q := funext fun point => funext fun error => propext (same point error)
  exact equal ▸ reports

/-- A step that can fail at one place only. -/
theorem single {fault : LoadError → Prop} (point : Checkpoint) (exact : ∀ error, step = .error error ↔ fault error) :
    Reports (fun place error => place = point ∧ fault error) step := by
  cases step with
  | ok a =>
    rintro place error ⟨-, here⟩
    cases (exact error).2 here
  | error error =>
    refine ⟨point, ⟨rfl, (exact error).1 rfl⟩, ?_⟩
    rintro other cause ⟨same, here⟩
    cases (exact cause).2 here
    exact Or.inr ⟨same, rfl⟩

theorem map_iff (f : α → β) : Reports P (step.map f) ↔ Reports P step := by
  cases step with
  | ok a => exact Iff.rfl
  | error error => exact Iff.rfl

theorem bind {next : α → Except LoadError β} (first : Reports P step)
    (second : ∀ a, step = .ok a → Reports Q (next a))
    (ordered : ∀ {point error other cause}, P point error → Q other cause → point.Before other) :
    Reports (fun point error => P point error ∨ Q point error) (step >>= next) := by
  cases step with
  | ok a =>
    -- The first step has found nothing, so what is violated is for the second one.
    exact (second a rfl).congr fun point error => (or_iff_right (first point error)).symm
  | error error =>
    obtain ⟨point, here, least⟩ := first
    refine ⟨point, Or.inl here, fun other cause violated => ?_⟩
    cases violated with
    | inl early => exact least other cause early
    | inr late => exact Or.inl (ordered here late)

/-- What remains to be done cannot fail. -/
theorem last (reports : Reports P step) (f : α → β) : Reports P (step >>= fun a => .ok (f a)) := by
  cases step with
  | ok a => exact reports
  | error error => exact reports

end Reports

/-! ## Lists -/

section Lists

variable {α β σ : Type} {P : Nat → α → Checkpoint → LoadError → Prop} {items : List α}

/-- What is violated by an item of a list. -/
def Among (P : Nat → α → Checkpoint → LoadError → Prop) (items : List α) (point : Checkpoint) (error : LoadError) :
    Prop :=
  ∃ i a, items[i]? = some a ∧ P i a point error

/-- Violations of an item come before those of later ones. -/
def InOrder (P : Nat → α → Checkpoint → LoadError → Prop) : Prop :=
  ∀ i j a b point error other cause, i < j → P i a point error → P j b other cause → point.Before other

theorem not_among_nil {point : Checkpoint} {error : LoadError} : ¬ Among P [] point error := by
  rintro ⟨i, a, here, -⟩
  cases here

theorem among_cons {a : α} {point : Checkpoint} {error : LoadError} :
    Among P (a :: items) point error ↔ P 0 a point error ∨ Among (fun i => P (i + 1)) items point error := by
  constructor
  · rintro ⟨i, b, here, violated⟩
    cases i with
    | zero =>
      cases here
      exact Or.inl violated
    | succ i => exact Or.inr ⟨i, b, here, violated⟩
  · rintro (violated | ⟨i, b, here, violated⟩)
    · exact ⟨0, a, rfl, violated⟩
    · exact ⟨i + 1, b, here, violated⟩

theorem InOrder.tail (inOrder : InOrder P) : InOrder fun i => P (i + 1) := by
  intro i j a b point error other cause less
  exact inOrder (i + 1) (j + 1) a b point error other cause (Nat.succ_lt_succ less)

namespace Reports

/-- One item, and then the others. -/
theorem cons (inOrder : InOrder P) {a : α} {step : Except LoadError β} {next : β → Except LoadError σ}
    (first : Reports (P 0 a) step) (rest : ∀ b, Reports (Among (fun i => P (i + 1)) items) (next b)) :
    Reports (Among P (a :: items)) (step >>= next) := by
  refine (first.bind (fun b _ => rest b) ?_).congr fun point error => among_cons.symm
  -- Whatever the others violate belongs to a later item.
  rintro point error other cause early ⟨i, b, -, late⟩
  exact inOrder 0 (i + 1) a b point error other cause (Nat.succ_pos i) early late

theorem mapM (inOrder : InOrder P) {f : α → Except LoadError β}
    (each : ∀ i a, items[i]? = some a → Reports (P i a) (f a)) : Reports (Among P items) (items.mapM f) := by
  induction items generalizing P with
  | nil => exact fun point error => not_among_nil
  | cons a items ih =>
    rw [List.mapM_cons]
    refine cons inOrder (each 0 a rfl) fun b => ?_
    exact (ih inOrder.tail fun i a here => each (i + 1) a here).last (b :: ·)

theorem foldlM (inOrder : InOrder P) {f : σ → α → Except LoadError σ}
    (each : ∀ s i a, items[i]? = some a → Reports (P i a) (f s a)) (s : σ) :
    Reports (Among P items) (items.foldlM f s) := by
  induction items generalizing P s with
  | nil => exact fun point error => not_among_nil
  | cons a items ih =>
    rw [List.foldlM_cons]
    exact cons inOrder (each s 0 a rfl) (ih inOrder.tail fun s i a here => each s (i + 1) a here)

end Reports

end Lists

/-! ## Fields -/

/-- Places for the faults of fields, in the order of the fields and then of their items. -/
def FieldOrder (place : Field → Nat → Checkpoint) : Prop :=
  ∀ field item other later, field.rank < other.rank ∨ (field = other ∧ item < later) →
    (place field item).Before (place other later)

/-- The faults of some fields, each at its place. -/
def FaultsOf (document : Json) (owner : Owner) (holder : Json) (place : Field → Nat → Checkpoint) (fields : List Field)
    (point : Checkpoint) (error : LoadError) : Prop :=
  ∃ field ∈ fields, ∃ item, point = place field item ∧ FieldFault document owner holder field item error

section Fields

variable {α β : Type} {document : Json} {owner : Owner} {holder : Json} {place : Field → Nat → Checkpoint}

theorem faultsOf_singleton {field : Field} {point : Checkpoint} {error : LoadError} :
    FaultsOf document owner holder place [field] point error ↔
      ∃ item, point = place field item ∧ FieldFault document owner holder field item error := by
  simp [FaultsOf]

/-- A field whose value counts as a whole. -/
theorem reports_whole (field : Field) {step : Except LoadError α} {fault : Json → LoadError → Prop}
    (kind : ∀ value item error,
      ValueFault document owner field.name value item error field.kind ↔ item = 0 ∧ fault value error)
    (exact : ∀ error, step = .error error ↔ ∃ value, holder.Holds field.name value ∧ fault value error) :
    Reports (FaultsOf document owner holder place [field]) step := by
  -- The value has no items of its own, so it stands at the first place of the field.
  refine (Reports.single (place field 0) exact).congr fun point error => ?_
  simp only [faultsOf_singleton, FieldFault, kind]
  constructor
  · rintro ⟨here, value, found, faulty⟩
    exact ⟨0, here, value, found, rfl, faulty⟩
  · rintro ⟨-, here, value, found, rfl, faulty⟩
    exact ⟨here, value, found, faulty⟩

theorem reports_pattern (field : Field) (kind : field.kind = .pattern) :
    Reports (FaultsOf document owner holder place [field]) (loadPattern owner field.name holder) := by
  refine reports_whole field (fun value item error => ?_) fun _ => loadPattern_eq_error_iff
  rw [kind, ValueFault]

theorem reports_keywords :
    Reports (FaultsOf document owner holder place [.keywords]) (loadKeywords owner holder) :=
  reports_whole .keywords (fun _ _ _ => Iff.rfl) fun _ => loadKeywords_eq_error_iff

theorem fieldFault_of_present {field : Field} {value : Json} (present : holder.getPresent? field.name = some value)
    {item : Nat} {error : LoadError} : FieldFault document owner holder field item error ↔
      ValueFault document owner field.name value item error field.kind := by
  have found := Json.getPresent?_eq_some_iff_holds.1 present
  constructor
  · rintro ⟨other, foundOther, fault⟩
    cases found.1.symm.trans foundOther.1
    exact fault
  · exact fun fault => ⟨value, found, fault⟩

theorem reports_absent {field : Field} (absent : holder.getPresent? field.name = none) (a : α) :
    Reports (FaultsOf document owner holder place [field]) (.ok a) := by
  intro point error fault
  obtain ⟨-, -, value, found, -⟩ := faultsOf_singleton.1 fault
  exact Json.not_holds_of_getPresent? absent found

/-- A field of which each item counts. -/
theorem reports_items {γ : Type} {field : Field} {items : List γ} (fault : γ → LoadError → Prop)
    {step : Except LoadError α}
    (reports : Reports (Among (fun i a point error => point = place field i ∧ fault a error) items) step)
    (same : ∀ item error, FieldFault document owner holder field item error ↔
      ∃ a, items[item]? = some a ∧ fault a error) :
    Reports (FaultsOf document owner holder place [field]) step := by
  refine reports.congr fun point error => ?_
  simp only [faultsOf_singleton, same]
  constructor
  · rintro ⟨i, a, here, at_i, faulty⟩
    exact ⟨i, at_i, a, here, faulty⟩
  · rintro ⟨i, at_i, a, here, faulty⟩
    exact ⟨i, a, here, at_i, faulty⟩

/-- A field that is refused altogether. -/
theorem reports_refused {field : Field} {cause : LoadError}
    (same : ∀ item error, FieldFault document owner holder field item error ↔ item = 0 ∧ error = cause) :
    Reports (FaultsOf document owner holder place [field]) (.error cause : Except LoadError α) := by
  refine ⟨place field 0, faultsOf_singleton.2 ⟨0, rfl, (same 0 cause).2 ⟨rfl, rfl⟩⟩, fun other error fault => ?_⟩
  obtain ⟨item, here, faulty⟩ := faultsOf_singleton.1 fault
  obtain ⟨rfl, rfl⟩ := (same item error).1 faulty
  exact Or.inr ⟨here, rfl⟩

theorem FieldOrder.inOrder (ordered : FieldOrder place) (field : Field) {γ : Type} {fault : γ → LoadError → Prop} :
    InOrder fun i a point error => point = place field i ∧ fault a error := by
  rintro i j a b _ _ _ _ less ⟨rfl, -⟩ ⟨rfl, -⟩
  exact ordered field i field j (Or.inr ⟨rfl, less⟩)

/-! ### Scopes -/

/-- One entry of the names of capture groups. -/
def readGroup (owner : Owner) (name : String) (groups : SortedMap UInt32 String) (entry : String × Json) :
    Except LoadError (SortedMap UInt32 String) :=
  match captureIndex? entry.1 with
  | none => .error (.captureIndex owner name entry.1)
  | some index => .ok ((entry.2.asText?.map (groups.insert index)).getD groups)

theorem readGroups_eq_foldlM {name : String} {groups : SortedMap UInt32 String} {fields : List (String × Json)} :
    readGroups owner name groups fields = fields.foldlM (readGroup owner name) groups := by
  fun_induction readGroups owner name groups fields with
  | case1 => rfl
  | case2 groups key value rest none => simp [readGroup, none, bind, Except.bind]
  | case3 groups key value rest index found noText ih => simp [readGroup, found, noText, ih, bind, Except.bind]
  | case4 groups key value rest index found name text ih => simp [readGroup, found, text, ih, bind, Except.bind]

theorem readGroup_eq_error_iff {name : String} {groups : SortedMap UInt32 String} {entry : String × Json}
    {error : LoadError} : readGroup owner name groups entry = .error error ↔
      ¬ DenotesGroup entry.1 ∧ error = .captureIndex owner name entry.1 := by
  rw [← captureIndex?_eq_none_iff, readGroup]
  cases captureIndex? entry.1 with
  | none => simp [eq_comm]
  | some index => simp

theorem reports_readGroups (ordered : FieldOrder place) (field : Field) (name : String)
    (groups : SortedMap UInt32 String) (fields : List (String × Json)) :
    Reports (Among (fun i entry point error => point = place field i ∧
      (¬ DenotesGroup entry.1 ∧ error = .captureIndex owner name entry.1)) fields)
      (readGroups owner name groups fields) := by
  rw [readGroups_eq_foldlM]
  refine Reports.foldlM (ordered.inOrder field) (fun groups i entry _ => ?_) groups
  exact Reports.single (place field i) fun error => readGroup_eq_error_iff

theorem scopeFault_object {name : String} {fields : List (String × Json)} {item : Nat} {error : LoadError} :
    ScopeFault owner name (.object fields) item error ↔
      ∃ entry, fields[item]? = some entry ∧ ¬ DenotesGroup entry.1 ∧ error = .captureIndex owner name entry.1 := by
  constructor
  · intro fault
    cases fault with
    | kind _ notObject => exact absurd rfl (notObject fields)
    | key object here denotesNone =>
      cases object
      exact ⟨_, here, denotesNone, rfl⟩
  · rintro ⟨⟨key, scope⟩, here, denotesNone, rfl⟩
    exact .key rfl here denotesNone

theorem reports_scope (ordered : FieldOrder place) (field : Field) (kind : field.kind = .scope) :
    Reports (FaultsOf document owner holder place [field]) (loadScope owner field.name holder) := by
  have faults {value : Json} (present : holder.getPresent? field.name = some value) (item : Nat) (error : LoadError) :
      FieldFault document owner holder field item error ↔ ScopeFault owner field.name value item error := by
    rw [fieldFault_of_present present, kind, ValueFault]
  unfold loadScope
  split
  next absent => exact reports_absent absent none
  next name present =>
    -- A text names the whole match, whatever it is.
    intro point error fault
    obtain ⟨item, -, fault⟩ := faultsOf_singleton.1 fault
    cases (faults present item error).1 fault with
    | kind notText => exact notText name rfl
    | key object => cases object
  next fields present =>
    -- The keys are looked at one by one; what is made of the names does not matter.
    rw [Reports.map_iff]
    refine reports_items _ (reports_readGroups ordered field field.name ∅ fields) fun item error => ?_
    rw [faults present, scopeFault_object]
  next value notText notObject present =>
    refine reports_refused fun item error => ?_
    rw [faults present]
    constructor
    · intro fault
      cases fault with
      | kind => exact ⟨rfl, rfl⟩
      | @key fields _ _ _ object => exact absurd object (notObject fields)
    · rintro ⟨rfl, rfl⟩
      exact .kind notText notObject

/-! ### References -/

section References

variable {n : Nat} {ids : Vector String n} (declared : ∀ id, id ∈ ids ↔ Declares document id)

include declared

theorem reports_starts :
    Reports (FaultsOf document owner holder place [.starts]) (loadStarts ids owner holder) :=
  reports_whole .starts (fun _ _ _ => Iff.rfl) fun _ => loadStarts_eq_error_iff declared

omit declared in
theorem refsFault_list {name : String} {items : List Json} {item : Nat} {error : LoadError} :
    RefsFault document owner name (.list items) item error ↔
      ∃ ref, items[item]? = some ref ∧ RefFault document owner name ref error := by
  constructor
  · intro fault
    cases fault with
    | kind notList => exact absurd rfl (notList items)
    | item list here fault =>
      cases list
      exact ⟨_, here, fault⟩
  · rintro ⟨ref, here, fault⟩
    exact .item rfl here fault

theorem reports_refs (ordered : FieldOrder place) (field : Field) (kind : field.kind = .refs) :
    Reports (FaultsOf document owner holder place [field]) (loadRefs ids owner field.name holder) := by
  have faults {value : Json} (present : holder.getPresent? field.name = some value) (item : Nat) (error : LoadError) :
      FieldFault document owner holder field item error ↔ RefsFault document owner field.name value item error := by
    rw [fieldFault_of_present present, kind, ValueFault]
  unfold loadRefs
  split
  next absent => exact reports_absent absent []
  next items present =>
    refine reports_items (RefFault document owner field.name)
      (Reports.mapM (ordered.inOrder field) fun i ref _ => ?_) fun item error => ?_
    · exact Reports.single (place field i) fun error => readRef_eq_error_iff declared
    · rw [faults present, refsFault_list]
  next value notList present =>
    refine reports_refused fun item error => ?_
    rw [faults present]
    constructor
    · intro fault
      cases fault with
      | kind => exact ⟨rfl, rfl⟩
      | @item items _ _ _ list => exact absurd list (notList items)
    · rintro ⟨rfl, rfl⟩
      exact .kind notList

end References

/-- Several fields after one another. -/
theorem Reports.fields (ordered : FieldOrder place) {fields later : List Field} {step : Except LoadError α}
    {next : α → Except LoadError β} (first : Reports (FaultsOf document owner holder place fields) step)
    (second : ∀ a, Reports (FaultsOf document owner holder place later) (next a))
    (ranks : ∀ field ∈ fields, ∀ other ∈ later, field.rank < other.rank) :
    Reports (FaultsOf document owner holder place (fields ++ later)) (step >>= next) := by
  refine (first.bind (fun a _ => second a) ?_).congr fun point error => ?_
  · rintro _ _ _ _ ⟨field, member, item, rfl, -⟩ ⟨other, memberLater, later, rfl, -⟩
    exact ordered field item other later (Or.inl (ranks field member other memberLater))
  · simp only [FaultsOf, List.mem_append, or_and_right, exists_or]

/-! ### Modes and the language -/

theorem reports_attributes (ordered : FieldOrder place) :
    Reports (FaultsOf document owner holder place
      [.opening, .closing, .whole, .keywords, .illegal, .beginScope, .endScope]) (loadAttributes owner holder) := by
  unfold loadAttributes
  refine Reports.fields ordered (reports_pattern .opening rfl) (fun _ => ?_) (by decide)
  refine Reports.fields ordered (reports_pattern .closing rfl) (fun _ => ?_) (by decide)
  refine Reports.fields ordered (reports_pattern .whole rfl) (fun _ => ?_) (by decide)
  refine Reports.fields ordered reports_keywords (fun _ => ?_) (by decide)
  refine Reports.fields ordered (reports_pattern .illegal rfl) (fun _ => ?_) (by decide)
  refine Reports.fields ordered (reports_scope ordered .beginScope rfl) (fun _ => ?_) (by decide)
  exact Reports.last (reports_scope ordered .endScope rfl) _

variable {n : Nat} {ids : Vector String n} (declared : ∀ id, id ∈ ids ↔ Declares document id)

include declared

theorem reports_mode (ordered : FieldOrder place) (id : String) :
    Reports (FaultsOf document (.mode id) holder place Field.all) (loadMode ids id holder) := by
  unfold loadMode
  refine Reports.fields ordered (reports_starts declared) (fun _ => ?_) (by decide)
  refine Reports.fields ordered (reports_attributes ordered) (fun _ => ?_) (by decide)
  refine Reports.fields ordered (reports_refs declared ordered .contains rfl) (fun _ => ?_) (by decide)
  exact Reports.last (reports_refs declared ordered .variants rfl) _

theorem reports_language (ordered : FieldOrder place) :
    Reports (FaultsOf document .language holder place Field.ofLanguage) (loadLanguage ids holder) := by
  unfold loadLanguage
  refine Reports.fields ordered reports_keywords (fun _ => ?_) (by decide)
  refine Reports.fields ordered (reports_pattern .illegal rfl) (fun _ => ?_) (by decide)
  exact Reports.last (reports_refs declared ordered .contains rfl) _

end Fields

end HighlightGrammar.Grammar
