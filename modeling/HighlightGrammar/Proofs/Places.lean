import HighlightGrammar.Files.Tree
import HighlightGrammar.Proofs.Collections

/-!
# Trees of files after a change

Making a directory and writing a file change one place each, and the path leads to that place afterwards.  What was
there before can still be reached: `Files.Keeps` says so of two trees, and every path that could be followed in the
first leads to the same place in the second.
-/

namespace HighlightGrammar

open Std

namespace Files

variable {files before after : Files} {path name : String} {names : List String} {place other found : Location}
  {node : Node}

/-! ## One place -/

theorem node?_put_self (nonRoot : place ≠ []) : (files.put place node).node? place = some node := by
  cases place with
  | nil => contradiction
  | cons name rest => exact lookup_insertEntry_self files.nodes.entries

theorem node?_put_of_ne (different : other ≠ place) : (files.put place node).node? other = files.node? other := by
  cases other with
  | nil => rfl
  | cons name rest => exact lookup_insertEntry_of_ne different files.nodes.entries

theorem isDirectoryAt_eq_true : files.isDirectoryAt place = true ↔ files.node? place = some .directory := by
  rw [isDirectoryAt]
  cases files.node? place with
  | none => simp
  | some node => cases node <;> simp

/-! ## Following paths -/

/-- A name leads from a directory to a place. -/
def Enters (files : Files) (place : Location) (name : String) (next : Location) : Prop :=
  files.node? place = some .directory ∧
    ((name = "." ∧ next = place) ∨ (name = ".." ∧ next = place.dropLast) ∨
      (isSpecial name = false ∧ checkName name = .ok () ∧ next = place ++ [name] ∧ (files.node? next).isSome = true))

theorem walk_cons : files.walk place (name :: names) = .ok found ↔
    ∃ next, files.Enters place name next ∧ files.walk next names = .ok found := by
  rw [walk]
  simp only [Enters, isSpecial, Bool.or_eq_false_iff, beq_eq_false_iff_ne]
  cases files.node? place with
  | none => simp
  | some node =>
    cases node with
    | file content => simp
    | directory =>
      by_cases point : name = "."
      · simp [point]
      by_cases points : name = ".."
      · simp [points]
      cases checkName name with
      | error e => simp [point, points]
      | ok done => by_cases there : (files.node? (place ++ [name])).isSome = true <;> simp [point, points, there]

theorem walk_append {more : List String} : files.walk place (names ++ more) = .ok found ↔
    ∃ middle, files.walk place names = .ok middle ∧ files.walk middle more = .ok found := by
  induction names generalizing place with
  | nil => simp [walk]
  | cons name rest ih =>
    simp only [List.cons_append, walk_cons, ih]
    constructor
    · rintro ⟨next, enters, middle, before, after⟩
      exact ⟨middle, ⟨next, enters, before⟩, after⟩
    · rintro ⟨middle, ⟨next, enters, before⟩, after⟩
      exact ⟨next, enters, middle, before, after⟩

/-- The names to follow: a slash at the end asks for a directory. -/
def steps (path : String) : List String := if endsInSlash path then namesOf path ++ ["."] else namesOf path

theorem locate_eq_ok : files.locate path = .ok found ↔
    checkPath path = .ok () ∧ files.walk (files.startOf path) (steps path) = .ok found := by
  rw [locate, bind_eq_ok]
  constructor
  · rintro ⟨_, checked, followed⟩
    exact ⟨checked, followed⟩
  · rintro ⟨checked, followed⟩
    exact ⟨(), checked, followed⟩

/-- What was there is there still, and directories are still directories. -/
structure Keeps (before after : Files) : Prop where
  current : after.current = before.current
  present : ∀ place, (before.node? place).isSome = true → (after.node? place).isSome = true
  directories : ∀ place, before.node? place = some .directory → after.node? place = some .directory

namespace Keeps

theorem enters (keeps : Keeps before after) (enters : before.Enters place name found) :
    after.Enters place name found := by
  obtain ⟨here, ways⟩ := enters
  refine ⟨keeps.directories place here, ways.imp_right fun way => way.imp_right ?_⟩
  rintro ⟨ordinary, short, next, there⟩
  exact ⟨ordinary, short, next, keeps.present found there⟩

theorem walk (keeps : Keeps before after) (followed : before.walk place names = .ok found) :
    after.walk place names = .ok found := by
  induction names generalizing place with
  | nil => exact followed
  | cons name rest ih =>
    obtain ⟨next, enters, followed⟩ := walk_cons.1 followed
    exact walk_cons.2 ⟨next, keeps.enters enters, ih followed⟩

theorem locate (keeps : Keeps before after) (followed : before.locate path = .ok found) :
    after.locate path = .ok found := by
  obtain ⟨checked, followed⟩ := locate_eq_ok.1 followed
  refine locate_eq_ok.2 ⟨checked, ?_⟩
  rw [startOf, keeps.current]
  exact keeps.walk followed

/-- Whatever is put where no directory is. -/
theorem put (nonRoot : place ≠ []) (free : files.isDirectoryAt place = false) : Keeps files (files.put place node) where
  current := rfl
  present other there := by
    by_cases same : other = place
    · simp [same, node?_put_self nonRoot]
    · rwa [node?_put_of_ne same]
  directories other there := by
    have different : other ≠ place := by
      rintro rfl
      simp [isDirectoryAt_eq_true.2 there] at free
    rwa [node?_put_of_ne different]

end Keeps

/-! ## New entries -/

section Entries

variable {directory : Location} {name? : Option String}

theorem of_locateEntry (entry : files.locateEntry path = .ok (directory, name?)) :
    checkPath path = .ok () ∧ files.walk (files.startOf path) (namesOf path).dropLast = .ok directory ∧
      files.node? directory = some .directory ∧ (namesOf path).getLast? = name? := by
  obtain ⟨_, checked, entry⟩ := bind_eq_ok.1 entry
  obtain ⟨reached, followed, entry⟩ := bind_eq_ok.1 entry
  by_cases isDirectory : files.isDirectoryAt reached = true
  · rw [if_pos isDirectory] at entry
    cases entry
    exact ⟨checked, followed, isDirectoryAt_eq_true.1 isDirectory, rfl⟩
  · rw [if_neg isDirectory] at entry
    cases entry

/-- A path leads to what was put under its last name. -/
theorem locate_put (entry : files.locateEntry path = .ok (directory, some name)) (ordinary : isSpecial name = false)
    (short : checkName name = .ok ()) (free : files.isDirectoryAt (directory ++ [name]) = false)
    (slash : endsInSlash path = true → node = .directory) :
    (files.put (directory ++ [name]) node).locate path = .ok (directory ++ [name]) := by
  obtain ⟨checked, followed, isDirectory, last⟩ := of_locateEntry entry
  have nonRoot : directory ++ [name] ≠ [] := by simp
  have keeps : Keeps files (files.put (directory ++ [name]) node) := .put nonRoot free
  have here : (files.put (directory ++ [name]) node).node? (directory ++ [name]) = some node := node?_put_self nonRoot
  have enters : (files.put (directory ++ [name]) node).Enters directory name (directory ++ [name]) :=
    ⟨keeps.directories directory isDirectory, Or.inr (Or.inr ⟨ordinary, short, rfl, by simp [here]⟩)⟩
  have named : (files.put (directory ++ [name]) node).walk (files.startOf path) (namesOf path) =
      .ok (directory ++ [name]) := by
    rw [← List.dropLast_append_getLast? name last]
    exact walk_append.2 ⟨directory, keeps.walk followed, walk_cons.2 ⟨_, enters, rfl⟩⟩
  refine locate_eq_ok.2 ⟨checked, ?_⟩
  rw [steps]
  by_cases ends : endsInSlash path = true
  · cases slash ends
    rw [if_pos ends]
    exact walk_append.2 ⟨_, named, walk_cons.2 ⟨_, ⟨here, Or.inl ⟨rfl, rfl⟩⟩, rfl⟩⟩
  · rw [if_neg ends]
    exact named

theorem write_eq_ok {content : ByteArray} (written : files.write path content = .ok after) :
    ∃ place, place ≠ [] ∧ files.isDirectoryAt place = false ∧ after = files.put place (.file content) ∧
      after.locate path = .ok place := by
  obtain ⟨⟨directory, name?⟩, entry, written⟩ := bind_eq_ok.1 written
  cases name? with
  | none => cases written
  | some name =>
    by_cases refused : (isSpecial name || endsInSlash path) = true
    · simp [refused] at written
    · obtain ⟨ordinary, unended⟩ := Bool.or_eq_false_iff.1 (Bool.not_eq_true _ ▸ refused)
      simp only [refused] at written
      obtain ⟨_, short, written⟩ := bind_eq_ok.1 written
      by_cases taken : files.isDirectoryAt (directory ++ [name]) = true
      · simp [taken] at written
      · have free := Bool.not_eq_true _ ▸ taken
        rw [if_neg taken] at written
        cases written
        exact ⟨_, by simp, free, rfl, locate_put entry ordinary short free (by simp [unended])⟩

theorem makeDirectory_eq_ok (made : files.makeDirectory path = .ok after) :
    ∃ place, place ≠ [] ∧ files.node? place = none ∧ after = files.put place .directory ∧
      after.locate path = .ok place := by
  obtain ⟨⟨directory, name?⟩, entry, made⟩ := bind_eq_ok.1 made
  cases name? with
  | none => cases made
  | some name =>
    by_cases special : isSpecial name = true
    · simp [special] at made
    · simp only [special] at made
      obtain ⟨_, short, made⟩ := bind_eq_ok.1 made
      cases there : files.node? (directory ++ [name]) with
      | some node => simp [there] at made
      | none =>
        simp only [there] at made
        cases made
        have free : files.isDirectoryAt (directory ++ [name]) = false := by simp [isDirectoryAt, there]
        refine ⟨_, by simp, there, rfl, ?_⟩
        exact locate_put entry (Bool.not_eq_true _ ▸ special) short free fun _ => rfl

end Entries

end Files

end HighlightGrammar
