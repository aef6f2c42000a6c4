/-!
# Maps and sets listed in key order

`SortedMap α β` is a finite map whose entries stand in strictly increasing key order, so two maps with
the same entries are equal and every traversal sees the keys in order.  `SortedSet α` is the same for
sets.  `insertEntry` is the insertion on plain lists of pairs that both share with other ordered
structures: a key that is present already gets the new value.
-/

namespace HighlightGrammar

open Std

variable {α β : Type}

/-- Put an entry into a list of pairs that is in key order.  An equal key keeps its place and takes the
new value. -/
def insertEntry [Ord α] (key : α) (value : β) : List (α × β) → List (α × β)
  | [] => [(key, value)]
  | (k, v) :: rest =>
    match compare key k with
    | .lt => (key, value) :: (k, v) :: rest
    | .eq => (key, value) :: rest
    | .gt => (k, v) :: insertEntry key value rest

/-- Keys go up strictly along the list. -/
def KeysIncrease [Ord α] (entries : List (α × β)) : Prop :=
  entries.Pairwise fun a b => compare a.1 b.1 = .lt

theorem mem_insertEntry_fst [Ord α] {key : α} {value : β} {entries : List (α × β)} {e : α × β}
    (member : e ∈ insertEntry key value entries) : e.1 = key ∨ e ∈ entries := by
  induction entries with
  | nil => simp only [insertEntry, List.mem_singleton] at member; simp [member]
  | cons head rest ih =>
    obtain ⟨k, v⟩ := head
    rw [insertEntry] at member
    split at member
    · rcases List.mem_cons.1 member with rfl | old
      · exact Or.inl rfl
      · exact Or.inr old
    · rcases List.mem_cons.1 member with rfl | old
      · exact Or.inl rfl
      · exact Or.inr (List.mem_cons_of_mem _ old)
    · rcases List.mem_cons.1 member with rfl | old
      · exact Or.inr List.mem_cons_self
      · rcases ih old with same | there
        · exact Or.inl same
        · exact Or.inr (List.mem_cons_of_mem _ there)

theorem KeysIncrease.insertEntry [Ord α] [TransOrd α] {entries : List (α × β)}
    (increasing : KeysIncrease entries) (key : α) (value : β) :
    KeysIncrease (insertEntry key value entries) := by
  induction entries with
  | nil => exact List.pairwise_singleton _ _
  | cons head rest ih =>
    obtain ⟨k, v⟩ := head
    obtain ⟨below, tail⟩ := List.pairwise_cons.1 increasing
    rw [HighlightGrammar.insertEntry]
    split
    next less =>
      refine List.pairwise_cons.2 ⟨fun e member => ?_, increasing⟩
      rcases List.mem_cons.1 member with rfl | later
      · exact less
      · exact TransCmp.lt_trans less (below e later)
    next same =>
      exact List.pairwise_cons.2 ⟨fun e member => TransCmp.lt_of_eq_of_lt same (below e member), tail⟩
    next greater =>
      refine List.pairwise_cons.2 ⟨fun e member => ?_, ih tail⟩
      rcases mem_insertEntry_fst member with same | there
      · rw [same]; exact OrientedCmp.lt_of_gt greater
      · exact below e there

/-- A finite map with its entries in strictly increasing key order. -/
structure SortedMap (α β : Type) [Ord α] where
  entries : List (α × β)
  increasing : KeysIncrease entries

namespace SortedMap

variable [Ord α]

protected def empty : SortedMap α β := ⟨[], .nil⟩

instance : EmptyCollection (SortedMap α β) := ⟨.empty⟩

instance : Inhabited (SortedMap α β) := ⟨∅⟩

instance [DecidableEq α] [DecidableEq β] : DecidableEq (SortedMap α β) := fun a b =>
  decidable_of_iff (a.entries = b.entries) (by cases a; cases b; simp)

theorem ext {a b : SortedMap α β} (same : a.entries = b.entries) : a = b := by
  cases a; cases b; cases same; rfl

def insert [TransOrd α] (map : SortedMap α β) (key : α) (value : β) : SortedMap α β :=
  ⟨insertEntry key value map.entries, map.increasing.insertEntry key value⟩

def get? [BEq α] (map : SortedMap α β) (key : α) : Option β := map.entries.lookup key

/-- Later entries replace earlier ones with the same key. -/
def ofList [TransOrd α] (entries : List (α × β)) : SortedMap α β :=
  entries.foldl (fun map e => map.insert e.1 e.2) ∅

def isEmpty (map : SortedMap α β) : Bool := map.entries.isEmpty

/-- Keep the entries that satisfy a test. -/
def filter (keep : α × β → Bool) (map : SortedMap α β) : SortedMap α β :=
  ⟨map.entries.filter keep, List.Pairwise.filter _ map.increasing⟩

end SortedMap

/-- A finite set with its elements in strictly increasing order. -/
structure SortedSet (α : Type) [Ord α] where
  elements : List α
  increasing : elements.Pairwise fun a b => compare a b = .lt

/-- Put an element into a list that is in order; one that is present already is not repeated. -/
def insertElement [Ord α] (a : α) : List α → List α
  | [] => [a]
  | b :: rest =>
    match compare a b with
    | .lt => a :: b :: rest
    | .eq => b :: rest
    | .gt => b :: insertElement a rest

theorem eq_or_mem_of_mem_insertElement [Ord α] {a x : α} {elements : List α}
    (member : x ∈ insertElement a elements) : x = a ∨ x ∈ elements := by
  induction elements with
  | nil => simpa [insertElement] using member
  | cons b rest ih =>
    rw [insertElement] at member
    split at member
    · simpa using member
    · exact Or.inr member
    · rcases List.mem_cons.1 member with same | there
      · exact Or.inr (same ▸ List.mem_cons_self)
      · exact (ih there).imp_right (List.mem_cons_of_mem _)

theorem mem_insertElement [Ord α] [LawfulEqOrd α] {a x : α} {elements : List α} :
    x ∈ insertElement a elements ↔ x = a ∨ x ∈ elements := by
  induction elements with
  | nil => simp [insertElement]
  | cons b rest ih =>
    rw [insertElement]
    split
    next => simp
    next same =>
      have equal : a = b := LawfulEqCmp.eq_of_compare same
      subst equal
      simp
    next => simp only [List.mem_cons, ih]; exact or_left_comm

theorem length_insertElement_le [Ord α] (a : α) (elements : List α) :
    (insertElement a elements).length ≤ elements.length + 1 := by
  induction elements with
  | nil => simp [insertElement]
  | cons b rest ih =>
    rw [insertElement]
    split <;> simp only [List.length_cons] <;> omega

theorem pairwise_insertElement [Ord α] [TransOrd α] {elements : List α}
    (increasing : elements.Pairwise fun a b => compare a b = .lt) (a : α) :
    (insertElement a elements).Pairwise fun a b => compare a b = .lt := by
  induction elements with
  | nil => exact List.pairwise_singleton _ _
  | cons b rest ih =>
    obtain ⟨below, tail⟩ := List.pairwise_cons.1 increasing
    rw [insertElement]
    split
    next less =>
      refine List.pairwise_cons.2 ⟨fun x member => ?_, increasing⟩
      rcases List.mem_cons.1 member with rfl | later
      · exact less
      · exact TransCmp.lt_trans less (below x later)
    next => exact increasing
    next greater =>
      refine List.pairwise_cons.2 ⟨fun x member => ?_, ih tail⟩
      rcases eq_or_mem_of_mem_insertElement member with rfl | there
      · exact OrientedCmp.lt_of_gt greater
      · exact below x there

namespace SortedSet

variable [Ord α]

protected def empty : SortedSet α := ⟨[], .nil⟩

instance : EmptyCollection (SortedSet α) := ⟨.empty⟩

instance : Inhabited (SortedSet α) := ⟨∅⟩

instance : Membership α (SortedSet α) := ⟨fun set a => a ∈ set.elements⟩

theorem mem_def {a : α} {set : SortedSet α} : a ∈ set ↔ a ∈ set.elements := Iff.rfl

instance [DecidableEq α] (a : α) (set : SortedSet α) : Decidable (a ∈ set) :=
  inferInstanceAs (Decidable (a ∈ set.elements))

theorem ext {a b : SortedSet α} (same : a.elements = b.elements) : a = b := by
  cases a; cases b; cases same; rfl

def insert [TransOrd α] (set : SortedSet α) (a : α) : SortedSet α :=
  ⟨insertElement a set.elements, pairwise_insertElement set.increasing a⟩

def erase [DecidableEq α] (set : SortedSet α) (a : α) : SortedSet α :=
  ⟨set.elements.filter (· ≠ a), List.Pairwise.filter _ set.increasing⟩

def ofList [TransOrd α] (elements : List α) : SortedSet α := elements.foldl insert ∅

def size (set : SortedSet α) : Nat := set.elements.length

def isEmpty (set : SortedSet α) : Bool := set.elements.isEmpty

@[simp] theorem mem_insert [TransOrd α] [LawfulEqOrd α] {set : SortedSet α} {a x : α} :
    x ∈ set.insert a ↔ x = a ∨ x ∈ set := mem_insertElement

@[simp] theorem mem_erase [DecidableEq α] {set : SortedSet α} {a x : α} :
    x ∈ set.erase a ↔ x ∈ set ∧ x ≠ a := by
  simp [mem_def, erase]

@[simp] theorem not_mem_empty {a : α} : ¬ a ∈ (∅ : SortedSet α) := List.not_mem_nil

theorem size_insert_le [TransOrd α] (set : SortedSet α) (a : α) : (set.insert a).size ≤ set.size + 1 :=
  length_insertElement_le a set.elements

end SortedSet

end HighlightGrammar
