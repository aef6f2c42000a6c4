import HighlightGrammar.Proofs.Violations
import HighlightGrammar.Swift.Mode

/-!
# Names of capture groups

A scope may name capture groups under keys that spell their numbers.  A number has many spellings, with a plus sign and
with zeros in front, so several keys may name one group.  Keys are read in the order of texts, and of those with a name
the last one counts; the groups themselves are listed in the order of numbers.
-/

namespace HighlightGrammar

namespace Grammar

/-! ## Keys -/

theorem captureIndex?_ne_none_iff {key : String} :
    captureIndex? key ≠ none ↔ ∃ value ≤ 4294967295, Spells key value := by
  rw [ne_eq, captureIndex?_eq_none_iff, Classical.not_not]
  exact exists_congr fun value => and_congr_left fun _ => Nat.lt_succ_iff

theorem Spells.group_unique {key : String} {group other : UInt32} (first : Spells key group.toNat)
    (second : Spells key other.toNat) : group = other := by
  have same := (captureIndex?_eq_some_iff.2 first).symm.trans (captureIndex?_eq_some_iff.2 second)
  exact Option.some.inj same

theorem spells_toString (value : Nat) : Spells (toString value) value := by
  refine ⟨Nat.toDigits 10 value, .inl Nat.toList_repr, Nat.toDigits_ne_nil, fun c member => ?_, ?_⟩
  · exact Nat.isDigit_of_mem_toDigits (by decide) (by decide) member
  · exact Nat.ofDigitChars_toDigits (by decide) (by decide)

/-! ## Reading names -/

variable {object : SortedMap String Json} {group : UInt32} {key name : String}

/-- The text under a key names a group. -/
def Names (object : SortedMap String Json) (key : String) (group : UInt32) (name : String) : Prop :=
  (key, .text name) ∈ object.entries ∧ Spells key group.toNat

/-- The last key that names a group gives it this name. -/
def LastNames (object : SortedMap String Json) (group : UInt32) (name : String) : Prop :=
  ∃ key, Names object key group name ∧ ∀ other text, Names object other group text → other ≤ key

/-- What an entry says: a group and its name.  Without a text it says nothing. -/
def namedGroup? (entry : String × Json) : Option (UInt32 × String) :=
  (captureIndex? entry.1).bind fun group => entry.2.asText?.map (group, ·)

theorem namedGroup?_eq_some_iff {entry : String × Json} {named : UInt32 × String} :
    namedGroup? entry = some named ↔ captureIndex? entry.1 = some named.1 ∧ entry.2 = .text named.2 := by
  obtain ⟨group, name⟩ := named
  simp only [namedGroup?, Option.bind_eq_some_iff, Option.map_eq_some_iff, Json.asText?_eq_some]
  constructor
  · rintro ⟨_, found, _, text, same⟩
    cases same
    exact ⟨found, text⟩
  · rintro ⟨found, text⟩
    exact ⟨group, found, name, text, rfl⟩

theorem mem_namedGroups : (group, name) ∈ object.entries.filterMap namedGroup? ↔ ∃ key, Names object key group name := by
  simp only [List.mem_filterMap, namedGroup?_eq_some_iff, captureIndex?_eq_some_iff]
  constructor
  · rintro ⟨⟨key, value⟩, member, spelled, rfl⟩
    exact ⟨key, member, spelled⟩
  · rintro ⟨key, member, spelled⟩
    exact ⟨_, member, spelled, rfl⟩

theorem readGroups_eq_ok_iff {owner : Owner} {field : String} {groups result : SortedMap UInt32 String}
    {fields : List (String × Json)} : readGroups owner field groups fields = .ok result ↔
      (∀ entry ∈ fields, captureIndex? entry.1 ≠ none) ∧
      (fields.filterMap namedGroup?).foldl (fun map e => map.insert e.1 e.2) groups = result := by
  fun_induction readGroups owner field groups fields with
  | case1 groups => simp
  | case2 groups key value rest none => simp [none]
  | case3 groups key value rest index found noText ih => simp [ih, found, namedGroup?, noText]
  | case4 groups key value rest index found name text ih => simp [ih, found, namedGroup?, text]

theorem get?_namedGroups_eq_some_iff :
    (SortedMap.ofList (object.entries.filterMap namedGroup?)).get? group = some name ↔ LastNames object group name := by
  have increasing : object.entries.Pairwise fun a b => a.1 < b.1 :=
    object.increasing.imp compareOfLessAndEq_eq_lt.1
  rw [SortedMap.get?_ofList, lookup_reverse_filterMap_eq_some_iff]
  simp only [ne_eq, namedGroup?_eq_some_iff, captureIndex?_eq_some_iff]
  constructor
  · rintro ⟨before, ⟨key, value⟩, after, parts, ⟨spelled, rfl⟩, unnamed⟩
    refine ⟨key, ⟨parts ▸ List.mem_append_right before List.mem_cons_self, spelled⟩, ?_⟩
    rintro other text ⟨member, otherSpelled⟩
    rw [parts] at member increasing
    -- An entry before it has a smaller key, and one after it does not name the group.
    obtain earlier | here := List.mem_append.1 member
    · exact Std.le_of_lt ((List.pairwise_append.1 increasing).2.2 _ earlier _ List.mem_cons_self)
    · obtain same | later := List.mem_cons.1 here
      · cases same
        exact String.le_refl _
      · exact absurd ⟨otherSpelled, rfl⟩ (unnamed _ later text)
  · rintro ⟨key, ⟨member, spelled⟩, last⟩
    obtain ⟨before, after, parts⟩ := List.append_of_mem member
    refine ⟨before, _, after, parts, ⟨spelled, rfl⟩, ?_⟩
    rintro ⟨other, _⟩ later text ⟨otherSpelled, rfl⟩
    have listed : (other, .text text) ∈ object.entries := by
      rw [parts]
      exact List.mem_append_right before (List.mem_cons_of_mem _ later)
    have above := (List.pairwise_cons.1 (List.pairwise_append.1 (parts ▸ increasing)).2.1).1
    -- A later entry for the group would have a greater key than the last one.
    have greater : key < other := above (other, .text text) later
    exact String.not_le.2 greater (last other text ⟨listed, otherSpelled⟩)

theorem get?_namedGroups_eq_none_iff :
    (SortedMap.ofList (object.entries.filterMap namedGroup?)).get? group = none ↔
      ∀ key name, ¬ Names object key group name := by
  rw [SortedMap.get?_ofList, List.lookup_eq_none_iff]
  constructor
  · intro none key name names
    have different := none (group, name) (List.mem_reverse.2 (mem_namedGroups.2 ⟨key, names⟩))
    simp at different
  · rintro none ⟨other, name⟩ member
    refine bne_iff_ne.2 fun same => ?_
    subst same
    obtain ⟨key, names⟩ := mem_namedGroups.1 (List.mem_reverse.1 member)
    exact none key name names

section Scopes

variable {owner : Owner} {field : String} {holder : Json}

theorem loadScope_object {fields : List (String × Json)} (held : holder.get? field = some (.object fields)) :
    loadScope owner field holder = (readGroups owner field ∅ fields).map fun groups => some (.indexed groups) := by
  have present : holder.getPresent? field = some (.object fields) := by simp [Json.getPresent?, held, Json.isNull]
  rw [loadScope, present]

theorem loadScope_eq_indexed_iff {groups : SortedMap UInt32 String}
    (held : holder.get? field = some (.object object.entries)) :
    loadScope owner field holder = .ok (some (.indexed groups)) ↔
      (∀ entry ∈ object.entries, captureIndex? entry.1 ≠ none) ∧
      SortedMap.ofList (object.entries.filterMap namedGroup?) = groups := by
  rw [loadScope_object held, map_eq_ok]
  simp only [readGroups_eq_ok_iff, Option.some.injEq, Scope.indexed.injEq, SortedMap.ofList]
  constructor
  · rintro ⟨_, ⟨keys, rfl⟩, rfl⟩
    exact ⟨keys, rfl⟩
  · rintro ⟨keys, rfl⟩
    exact ⟨_, ⟨keys, rfl⟩, rfl⟩

/-! ## Writing names -/

/-- The names of groups as an object, each under the digits of its number. -/
def canonicalFields (groups : SortedMap UInt32 String) : SortedMap String Json :=
  SortedMap.ofList (groups.entries.map fun e => (toString e.1.toNat, .text e.2))

theorem mem_canonicalFields {groups : SortedMap UInt32 String} {entry : String × Json} :
    entry ∈ (canonicalFields groups).entries ↔
      ∃ group name, groups.get? group = some name ∧ entry = (toString group.toNat, .text name) := by
  -- Two groups have no key in common, so none is replaced.
  have distinct : (groups.entries.map fun e => (toString e.1.toNat, Json.text e.2)).Pairwise fun a b => a.1 ≠ b.1 := by
    refine List.pairwise_map.2 (groups.increasing.imp fun {a b} less same => ?_)
    simp [UInt32.toNat_inj.1 (toString_nat_injective same)] at less
  rw [canonicalFields, SortedMap.mem_entries_ofList distinct, List.mem_map]
  simp only [Prod.exists, SortedMap.mem_entries_iff, eq_comm]

theorem names_canonicalFields {groups : SortedMap UInt32 String} : Names (canonicalFields groups) key group name ↔
    groups.get? group = some name ∧ key = toString group.toNat := by
  rw [Names, mem_canonicalFields]
  constructor
  · rintro ⟨⟨other, text, held, same⟩, spelled⟩
    cases same
    cases spelled.group_unique (spells_toString other.toNat)
    exact ⟨held, rfl⟩
  · rintro ⟨held, rfl⟩
    exact ⟨⟨group, name, held, rfl⟩, spells_toString group.toNat⟩

theorem lastNames_canonicalFields {groups : SortedMap UInt32 String} :
    LastNames (canonicalFields groups) group name ↔ groups.get? group = some name := by
  simp only [LastNames, names_canonicalFields]
  constructor
  · rintro ⟨key, ⟨held, -⟩, -⟩
    exact held
  · intro held
    refine ⟨_, ⟨held, rfl⟩, ?_⟩
    rintro other text ⟨-, rfl⟩
    exact String.le_refl _

theorem loadScope_canonicalFields {groups : SortedMap UInt32 String}
    (held : holder.get? field = some (.object (canonicalFields groups).entries)) :
    loadScope owner field holder = .ok (some (.indexed groups)) := by
  rw [loadScope_eq_indexed_iff held]
  constructor
  · intro entry member
    obtain ⟨group, name, -, rfl⟩ := mem_canonicalFields.1 member
    rw [captureIndex?_eq_some_iff.2 (spells_toString group.toNat)]
    exact Option.some_ne_none group
  · -- The object names each group once, so the last name of a group is its only one.
    refine SortedMap.eq_of_get?_eq fun group => Option.ext fun name => ?_
    rw [get?_namedGroups_eq_some_iff, lastNames_canonicalFields]

theorem render_indexed (groups : SortedMap UInt32 String) : (Scope.indexed groups).expr.render =
    "Scope.indexed([" ++ ", ".intercalate (groups.entries.map fun e => toString e.1.toNat ++ ": " ++ Swift.quote e.2) ++
      "])" := by
  have opening : "Scope.indexed([" = "Scope.indexed" ++ "(" ++ "[" := by decide
  have closing : "])" = "]" ++ ")" := by decide
  simp only [Scope.expr, Swift.Expr.render, Swift.Expr.renderAll, Swift.Expr.renderAll_eq_map, List.map_map,
    Function.comp_def, String.intercalate_singleton, opening, closing, String.append_assoc]

/-- A scope is read as names of groups just where every key spells a number of 32 bits, and a group then has the name
under the last of its keys that has one.  Names that were written under the digits of the numbers are read back, and
the generated code lists them in the order of the numbers. -/
theorem loadScope_groups (owner : Owner) (field : String) :
    (∀ (holder : Json) (object : SortedMap String Json), holder.get? field = some (.object object.entries) →
      ((∃ groups, loadScope owner field holder = .ok (some (.indexed groups))) ↔
        ∀ entry ∈ object.entries, ∃ value ≤ 4294967295, Spells entry.1 value) ∧
      ∀ groups, loadScope owner field holder = .ok (some (.indexed groups)) → ∀ group,
        (∀ name, groups.get? group = some name ↔ LastNames object group name) ∧
        (groups.get? group = none ↔ ∀ key name, ¬ Names object key group name)) ∧
    (∀ (holder : Json) (groups : SortedMap UInt32 String),
      holder.get? field = some (.object (canonicalFields groups).entries) →
      loadScope owner field holder = .ok (some (.indexed groups))) ∧
    ∀ groups : SortedMap UInt32 String, ∃ listed : List (UInt32 × String),
      listed.Pairwise (fun a b => a.1 < b.1) ∧
      (∀ group name, (group, name) ∈ listed ↔ groups.get? group = some name) ∧
      (Scope.indexed groups).expr.render =
        "Scope.indexed([" ++ ", ".intercalate (listed.map fun e => toString e.1.toNat ++ ": " ++ Swift.quote e.2) ++
          "])" := by
  refine ⟨fun holder object held => ⟨?_, fun groups loaded group => ?_⟩,
    fun holder groups held => loadScope_canonicalFields held, fun groups => ?_⟩
  · simp only [loadScope_eq_indexed_iff held, ← captureIndex?_ne_none_iff, exists_and_left, exists_eq', and_true]
  · obtain ⟨-, rfl⟩ := (loadScope_eq_indexed_iff held).1 loaded
    exact ⟨fun name => get?_namedGroups_eq_some_iff, get?_namedGroups_eq_none_iff⟩
  · exact ⟨groups.entries, groups.increasing.imp compareOfLessAndEq_eq_lt.1,
      fun group name => SortedMap.mem_entries_iff, render_indexed groups⟩

end Scopes

/-- Three spellings of 2, and one of 1 without a name. -/
def manySpellings : SortedMap String Json :=
  .ofList [("2", .null), ("1", .list []), ("002", .text "b"), ("+2", .text "a")]

theorem names_manySpellings (names : Names manySpellings key group name) :
    group = 2 ∧ (key = "+2" ∨ key = "002") := by
  obtain ⟨member, spelled⟩ := names
  have found := captureIndex?_eq_some_iff.2 spelled
  have entries : manySpellings.entries = [("+2", .text "a"), ("002", .text "b"), ("1", .list []), ("2", .null)] := rfl
  simp only [entries, List.mem_cons, List.not_mem_nil, Prod.mk.injEq, reduceCtorEq, and_false, or_false] at member
  obtain ⟨rfl, -⟩ | ⟨rfl, -⟩ := member
  · exact ⟨Option.some.inj (found.symm.trans (by decide)), .inl rfl⟩
  · exact ⟨Option.some.inj (found.symm.trans (by decide)), .inr rfl⟩

/-- Of the keys for 2 the last one has no name, and the one before it counts. -/
theorem loadScope_manySpellings :
    (Json.object [("endScope", .object manySpellings.entries)]).get? "endScope" =
      some (.object manySpellings.entries) ∧
    ∃ groups, loadScope (.mode "a") "endScope" (.object [("endScope", .object manySpellings.entries)]) =
      .ok (some (.indexed groups)) ∧ groups.get? 2 = some "b" ∧ groups.get? 1 = none := by
  have keys : ∀ entry ∈ manySpellings.entries, ∃ value ≤ 4294967295, Spells entry.1 value := by
    simp only [← captureIndex?_ne_none_iff]
    decide
  have second : Names manySpellings "002" 2 "b" :=
    ⟨.tail _ (.head _), captureIndex?_eq_some_iff.1 (by decide)⟩
  obtain ⟨loads, named⟩ := (loadScope_groups (.mode "a") "endScope").1 (.object [("endScope", .object manySpellings.entries)])
    manySpellings rfl
  obtain ⟨groups, loaded⟩ := loads.2 keys
  refine ⟨rfl, groups, loaded, ?_, ?_⟩
  · refine ((named groups loaded 2).1 "b").2 ⟨"002", second, fun other text names => ?_⟩
    obtain ⟨-, rfl | rfl⟩ := names_manySpellings names
    · decide
    · decide
  · refine (named groups loaded 1).2.2 fun key name names => ?_
    exact absurd (names_manySpellings names).1 (by decide)

end Grammar

end HighlightGrammar
