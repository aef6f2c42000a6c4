import HighlightGrammar.SortedMap
import Mathlib.Data.List.Forall2
import Mathlib.Data.List.Nodup

/-!
# Vectors, lists, sets and maps

What the proofs about grammars need of the containers they are held in, of steps that may fail, and of numbers as
texts.
-/

namespace HighlightGrammar

open Std

variable {α : Type}

theorem get_set {n : Nat} (values : Vector α n) (a b : Fin n) (value : α) :
    (values.set a value a.isLt).get b = if b = a then value else values.get b := by
  change (values.set a value a.isLt)[b.val] = if b = a then value else values[b.val]
  simp only [Vector.getElem_set, Fin.ext_iff, eq_comm]

theorem set_get_self {n : Nat} (values : Vector α n) (i : Fin n) : values.set i (values.get i) i.isLt = values :=
  Vector.set_getElem_self i.isLt

@[simp] theorem get_ofFn {n : Nat} (f : Fin n → α) (i : Fin n) : (Vector.ofFn f).get i = f i :=
  Vector.getElem_ofFn i.isLt

@[simp] theorem get_replicate {n : Nat} (value : α) (i : Fin n) : (Vector.replicate n value).get i = value :=
  Vector.getElem_replicate i.isLt

theorem get_zip {β : Type} {n : Nat} (v : Vector α n) (w : Vector β n) (i : Fin n) :
    (v.zip w).get i = (v.get i, w.get i) :=
  Vector.getElem_zip

theorem findFinIdx?_eq_some {n : Nat} {v : Vector α n} {p : α → Bool} {i : Fin n} :
    v.findFinIdx? p = some i ↔ p (v.get i) = true ∧ ∀ j < i, ¬ p (v.get j) = true := by
  obtain ⟨items, rfl⟩ := v
  rw [Vector.findFinIdx?, Option.map_eq_some_iff]
  constructor
  · rintro ⟨found, here, rfl⟩
    exact Array.findFinIdx?_eq_some_iff.1 here
  · intro here
    exact ⟨i, Array.findFinIdx?_eq_some_iff.2 here, rfl⟩

theorem finIdxOf?_eq_some [BEq α] [LawfulBEq α] {n : Nat} {v : Vector α n} {a : α} {i : Fin n} :
    v.finIdxOf? a = some i ↔ v.get i = a ∧ ∀ j < i, ¬ v.get j = a := by
  obtain ⟨items, rfl⟩ := v
  rw [Vector.finIdxOf?, Option.map_eq_some_iff]
  constructor
  · rintro ⟨found, here, rfl⟩
    exact Array.finIdxOf?_eq_some_iff.1 here
  · intro here
    exact ⟨i, Array.finIdxOf?_eq_some_iff.2 here, rfl⟩

theorem finIdxOf?_eq_none [BEq α] [LawfulBEq α] {n : Nat} {v : Vector α n} {a : α} : v.finIdxOf? a = none ↔ a ∉ v := by
  obtain ⟨items, rfl⟩ := v
  rw [Vector.finIdxOf?, Option.map_eq_none_iff, Array.finIdxOf?_eq_none_iff, Vector.mem_mk]

theorem map_eq_mapIdx {β : Type} (f : α → β) (l : List α) : l.map f = l.mapIdx fun _ => f :=
  List.ext_getElem? (by simp)

theorem forall₂_toList {β : Type} {related : α → β → Prop} {a : Option α} {b : Option β}
    (here : Option.Rel related a b) : List.Forall₂ related a.toList b.toList := by
  cases here with
  | some both => exact .cons both .nil
  | none => exact .nil

theorem exists_of_mem_forall₂ {β : Type} {related : α → β → Prop} {l : List α} {others : List β}
    (each : List.Forall₂ related l others) {b : β} (member : b ∈ others) : ∃ a ∈ l, related a b := by
  induction each with
  | nil => cases member
  | cons here _ ih =>
    obtain rfl | after := List.mem_cons.1 member
    · exact ⟨_, List.mem_cons_self, here⟩
    · obtain ⟨a, inside, there⟩ := ih after
      exact ⟨a, List.mem_cons_of_mem _ inside, there⟩

theorem nodup_eraseDups [DecidableEq α] (elements : List α) : elements.eraseDups.Nodup := by
  induction size : elements.length using Nat.strongRecOn generalizing elements with
  | _ size ih =>
    cases elements with
    | nil => simp
    | cons head rest =>
      rw [List.eraseDups_cons, List.nodup_cons]
      constructor
      · simp
      · apply ih _ _ _ rfl
        rw [← size]
        exact Nat.lt_succ_of_le (List.length_filter_le _ _)

theorem length_filter_not_mem_concat [DecidableEq α] {elements taken : List α} {next : α} (unique : elements.Nodup)
    (new : next ∉ taken) :
    (elements.filter (· ∉ taken ++ [next])).length =
      if next ∈ elements then (elements.filter (· ∉ taken)).length - 1
      else (elements.filter (· ∉ taken)).length := by
  have split : elements.filter (· ∉ taken ++ [next]) = (elements.filter (· ∉ taken)).erase next := by
    rw [(unique.filter _).erase_eq_filter, List.filter_filter]
    apply List.filter_congr
    intro element _
    simp [and_comm, bne, beq_eq_decide]
  rw [split, List.length_erase]
  simp [new]

/-- Sorting a list without repetitions puts it into the strict order that belongs to the comparison. -/
theorem pairwise_mergeSort_of_nodup {le : α → α → Bool} {less : α → α → Prop}
    (le_iff : ∀ a b, le a b = true ↔ less a b ∨ a = b) (trans : ∀ {a b c}, less a b → less b c → less a c)
    (total : ∀ {a b}, a ≠ b → less a b ∨ less b a) {elements : List α} (unique : elements.Nodup) :
    (elements.mergeSort le).Pairwise less := by
  have ordered : (elements.mergeSort le).Pairwise fun a b => le a b = true := by
    apply List.pairwise_mergeSort
    · intro a b c
      simp only [le_iff]
      rintro (first | rfl) (second | rfl)
      · exact Or.inl (trans first second)
      · exact Or.inl first
      · exact Or.inl second
      · exact Or.inr rfl
    · intro a b
      rw [Bool.or_eq_true, le_iff, le_iff]
      by_cases same : a = b
      · exact Or.inl (Or.inr same)
      · exact (total same).imp Or.inl Or.inl
  have distinct : (elements.mergeSort le).Nodup := (List.mergeSort_perm elements le).nodup_iff.2 unique
  exact (ordered.and distinct).imp fun {a b} both => ((le_iff a b).1 both.1).resolve_right both.2

namespace SortedSet

variable [Ord α]

theorem nodup [TransOrd α] (set : SortedSet α) : set.elements.Nodup :=
  set.increasing.imp fun less same => by
    subst same
    simp at less

theorem eq_of_mem_iff [TransOrd α] {a b : SortedSet α} (same : ∀ x, x ∈ a ↔ x ∈ b) : a = b := by
  have perm : a.elements.Perm b.elements := (List.perm_ext_iff_of_nodup a.nodup b.nodup).2 same
  apply ext
  refine List.Perm.eq_of_pairwise (fun x y _ _ less greater => ?_) a.increasing b.increasing perm
  exact absurd greater (OrientedCmp.not_lt_of_lt less)

theorem mem_foldl_insert [TransOrd α] [LawfulEqOrd α] {elements : List α} {set : SortedSet α} {x : α} :
    x ∈ elements.foldl insert set ↔ x ∈ elements ∨ x ∈ set := by
  induction elements generalizing set with
  | nil => simp
  | cons head rest ih =>
    rw [List.foldl_cons, ih, mem_insert, List.mem_cons, or_left_comm, or_assoc]

@[simp] theorem mem_ofList [TransOrd α] [LawfulEqOrd α] {elements : List α} {x : α} :
    x ∈ ofList elements ↔ x ∈ elements := by
  rw [ofList, mem_foldl_insert]
  simp

theorem erase_insert [TransOrd α] [LawfulEqOrd α] [DecidableEq α] {set : SortedSet α} {a : α} (new : a ∉ set) :
    (set.insert a).erase a = set := by
  apply eq_of_mem_iff
  intro x
  rw [mem_erase, mem_insert]
  constructor
  · rintro ⟨same | old, different⟩
    · exact absurd same different
    · exact old
  · intro old
    exact ⟨Or.inr old, fun same => new (same ▸ old)⟩

end SortedSet

/-! ## Maps -/

section Maps

variable {β : Type} [BEq α] [LawfulBEq α] {key other : α} {value : β}

theorem lookup_reverse_eq_some_iff {entries : List (α × β)} : entries.reverse.lookup key = some value ↔
    ∃ before after, entries = before ++ (key, value) :: after ∧ ∀ e ∈ after, e.1 ≠ key := by
  rw [List.lookup_eq_some_iff]
  constructor
  · rintro ⟨after, before, same, others⟩
    refine ⟨before.reverse, after.reverse, by simpa using List.reverse_eq_iff.1 same, fun e member => ?_⟩
    exact (bne_iff_ne.1 (others e (List.mem_reverse.1 member))).symm
  · rintro ⟨before, after, rfl, others⟩
    refine ⟨after.reverse, before.reverse, by simp, fun e member => ?_⟩
    exact bne_iff_ne.2 (others e (List.mem_reverse.1 member)).symm

theorem lookup_reverse_filterMap_eq_some_iff {γ : Type} {f : γ → Option (α × β)} {l : List γ} :
    (l.filterMap f).reverse.lookup key = some value ↔
      ∃ before c after, l = before ++ c :: after ∧ f c = some (key, value) ∧ ∀ d ∈ after, ∀ v, f d ≠ some (key, v) := by
  rw [lookup_reverse_eq_some_iff]
  constructor
  · rintro ⟨before, after, parts, others⟩
    obtain ⟨front, back, rfl, -, rest⟩ := List.filterMap_eq_append_iff.1 parts
    obtain ⟨skipped, c, later, rfl, -, found, rfl⟩ := List.filterMap_eq_cons_iff.1 rest
    refine ⟨front ++ skipped, c, later, by simp, found, fun d member v same => ?_⟩
    exact others (key, v) (List.mem_filterMap.2 ⟨d, member, same⟩) rfl
  · rintro ⟨before, c, after, rfl, found, others⟩
    refine ⟨before.filterMap f, after.filterMap f, by simp [found], fun e member same => ?_⟩
    obtain ⟨d, inside, here⟩ := List.mem_filterMap.1 member
    exact others d inside e.2 (by rw [here, ← same])

variable [Ord α] [LawfulEqOrd α]

theorem lookup_insertEntry_self (entries : List (α × β)) :
    (insertEntry key value entries).lookup key = some value := by
  induction entries with
  | nil => simp [insertEntry]
  | cons entry rest ih =>
    rw [insertEntry]
    cases order : compare key entry.1 with
    | lt => simp
    | eq => simp
    | gt =>
      have different : (key == entry.1) = false := by
        rw [beq_eq_false_iff_ne]
        intro same
        simp [same] at order
      simp only [List.lookup_cons, different, ih]

theorem lookup_insertEntry_of_ne (different : other ≠ key) (entries : List (α × β)) :
    (insertEntry key value entries).lookup other = entries.lookup other := by
  have unequal : (other == key) = false := beq_eq_false_iff_ne.2 different
  induction entries with
  | nil => simp only [insertEntry, List.lookup_cons, unequal, List.lookup_nil]
  | cons entry rest ih =>
    obtain ⟨first, held⟩ := entry
    rw [insertEntry]
    cases order : compare key first with
    | lt => simp only [List.lookup_cons, unequal]
    | eq =>
      cases LawfulEqOrd.eq_of_compare order
      simp only [List.lookup_cons, unequal]
    | gt => simp only [List.lookup_cons, ih]

namespace SortedMap

theorem mem_entries_iff [TransOrd α] {map : SortedMap α β} : (key, value) ∈ map.entries ↔ map.get? key = some value := by
  rw [get?, List.lookup_eq_some_iff]
  constructor
  · intro member
    obtain ⟨before, after, parts⟩ := List.append_of_mem member
    refine ⟨before, after, parts, fun e earlier => bne_iff_ne.2 fun same => ?_⟩
    have less := (List.pairwise_append.1 (parts ▸ map.increasing)).2.2 e earlier (key, value) List.mem_cons_self
    simp [← same] at less
  · rintro ⟨before, after, parts, -⟩
    rw [parts]
    exact List.mem_append_right before List.mem_cons_self

theorem eq_of_get?_eq [TransOrd α] {a b : SortedMap α β} (same : ∀ key, a.get? key = b.get? key) : a = b := by
  have distinct (map : SortedMap α β) : map.entries.Nodup := map.increasing.imp fun less equal => by simp [equal] at less
  have perm : a.entries.Perm b.entries := by
    refine (List.perm_ext_iff_of_nodup (distinct a) (distinct b)).2 fun entry => ?_
    rw [mem_entries_iff, mem_entries_iff, same]
  apply ext
  refine List.Perm.eq_of_pairwise (fun x y _ _ less greater => ?_) a.increasing b.increasing perm
  exact absurd greater (OrientedCmp.not_lt_of_lt less)

theorem get?_insert_self [TransOrd α] (map : SortedMap α β) : (map.insert key value).get? key = some value :=
  lookup_insertEntry_self map.entries

theorem get?_insert_of_ne [TransOrd α] (map : SortedMap α β) (different : other ≠ key) :
    (map.insert key value).get? other = map.get? other :=
  lookup_insertEntry_of_ne different map.entries

theorem get?_foldl_insert [TransOrd α] (entries : List (α × β)) (map : SortedMap α β) :
    (entries.foldl (fun map e => map.insert e.1 e.2) map).get? key = (entries.reverse.lookup key).or (map.get? key) := by
  induction entries generalizing map with
  | nil => rfl
  | cons entry rest ih =>
    obtain ⟨first, held⟩ := entry
    rw [List.foldl_cons, ih, List.reverse_cons, List.lookup_append, Option.or_assoc]
    congr 1
    by_cases same : key = first
    · subst same
      rw [get?_insert_self, List.lookup_cons_self, Option.some_or]
    · have unequal : (key == first) = false := beq_eq_false_iff_ne.2 same
      simp only [get?_insert_of_ne map same, List.lookup_cons, unequal, List.lookup_nil, Option.none_or]

theorem get?_ofList [TransOrd α] (entries : List (α × β)) : (ofList entries).get? key = entries.reverse.lookup key := by
  rw [ofList, get?_foldl_insert]
  exact Option.or_none

theorem mem_entries_ofList [TransOrd α] {entries : List (α × β)} (distinct : entries.Pairwise fun a b => a.1 ≠ b.1)
    {entry : α × β} : entry ∈ (ofList entries).entries ↔ entry ∈ entries := by
  rw [mem_entries_iff, get?_ofList, lookup_reverse_eq_some_iff]
  constructor
  · rintro ⟨before, after, rfl, -⟩
    exact List.mem_append_right before List.mem_cons_self
  · intro member
    obtain ⟨before, after, rfl⟩ := List.append_of_mem member
    refine ⟨before, after, rfl, fun e later => ?_⟩
    exact ((List.pairwise_cons.1 (List.pairwise_append.1 distinct).2.1).1 e later).symm

end SortedMap

end Maps

/-! ## Steps that may fail -/

section Except

variable {ε β : Type} {n : Nat}

theorem bind_eq_ok {x : Except ε α} {f : α → Except ε β} {b : β} :
    x >>= f = .ok b ↔ ∃ a, x = .ok a ∧ f a = .ok b := by
  cases x with
  | error e => simp [bind, Except.bind]
  | ok a => simp [bind, Except.bind]

theorem bind_eq_error {x : Except ε α} {f : α → Except ε β} {e : ε} :
    x >>= f = .error e ↔ x = .error e ∨ ∃ a, x = .ok a ∧ f a = .error e := by
  cases x with
  | error e => simp [bind, Except.bind]
  | ok a => simp [bind, Except.bind]

theorem map_eq_ok {x : Except ε α} {f : α → β} {b : β} : x.map f = .ok b ↔ ∃ a, x = .ok a ∧ f a = b := by
  cases x with
  | error e => simp [Except.map]
  | ok a => simp [Except.map]

theorem map_eq_error {x : Except ε α} {f : α → β} {e : ε} : x.map f = .error e ↔ x = .error e := by
  cases x with
  | error e => simp [Except.map]
  | ok a => simp [Except.map]

theorem mapM_eq_ok {f : α → Except ε β} {l : List α} {results : List β} :
    l.mapM f = .ok results ↔ List.Forall₂ (fun a b => f a = .ok b) l results := by
  induction l generalizing results with
  | nil => cases results <;> simp [pure, Except.pure]
  | cons head rest ih =>
    rw [List.mapM_cons, bind_eq_ok]
    simp only [bind_eq_ok, ih]
    constructor
    · rintro ⟨first, found, others, all, same⟩
      cases same
      exact List.Forall₂.cons found all
    · intro all
      cases all with
      | cons found others => exact ⟨_, found, _, others, rfl⟩

theorem mapM_toList {f : α → Except ε β} (v : Vector α n) :
    v.toList.mapM f = (v.mapM f).map Vector.toList := by
  have arrays : Vector.toArray <$> v.mapM f = v.toArray.mapM f := Vector.toArray_mapM
  have lists : Array.toList <$> v.toArray.mapM f = v.toList.mapM f := Array.toList_mapM
  rw [← lists, ← arrays]
  cases v.mapM f with
  | error e => rfl
  | ok w => rfl

theorem vector_mapM_eq_ok {f : α → Except ε β} {v : Vector α n} {w : Vector β n} :
    v.mapM f = .ok w ↔ ∀ i, f (v.get i) = .ok (w.get i) := by
  have lists : v.mapM f = .ok w ↔ v.toList.mapM f = .ok w.toList := by
    rw [mapM_toList, map_eq_ok]
    constructor
    · intro done
      exact ⟨w, done, rfl⟩
    · rintro ⟨found, done, same⟩
      rw [done, Vector.toList_inj.1 same]
  rw [lists, mapM_eq_ok, List.forall₂_iff_get]
  constructor
  · rintro ⟨-, each⟩ i
    exact each i.val (by simp) (by simp)
  · intro each
    exact ⟨by simp, fun i inside _ => each ⟨i, by simpa using inside⟩⟩

theorem get_of_mapM {f : α → Except ε β} {v : Vector α n} {w : Vector β n} (done : v.mapM f = .ok w) (i : Fin n) :
    f (v.get i) = .ok (w.get i) :=
  vector_mapM_eq_ok.1 done i

end Except

/-! ## Numbers as texts -/

theorem toString_nat_injective : Function.Injective (toString : Nat → String) := by
  intro m n same
  have digits : Nat.toDigits 10 m = Nat.toDigits 10 n := by
    simpa only [Nat.toString_eq_repr, Nat.toList_repr] using congrArg String.toList same
  rw [← Nat.ofDigitChars_ten_toDigits (n := m), digits, Nat.ofDigitChars_ten_toDigits]

/-- Numbers of one sign only have digits in front. -/
theorem toString_nat_ne_minus (n : Nat) (text : String) : toString n ≠ "-" ++ text := by
  intro same
  have member : '-' ∈ Nat.toDigits 10 n := by
    rw [← Nat.toList_repr, ← Nat.toString_eq_repr, same]
    simp
  exact absurd (Nat.isDigit_of_mem_toDigits (by decide) (by decide) member) (by decide)

theorem toString_int_injective : Function.Injective (toString : Int → String) := by
  intro i j same
  cases i with
  | ofNat m =>
    cases j with
    | ofNat n => exact congrArg Int.ofNat (toString_nat_injective same)
    | negSucc n => exact absurd same (toString_nat_ne_minus m _)
  | negSucc m =>
    cases j with
    | ofNat n => exact absurd same.symm (toString_nat_ne_minus n _)
    | negSucc n =>
      have digits : toString (m + 1) = toString (n + 1) := (String.append_right_inj "-").1 same
      exact congrArg Int.negSucc (Nat.succ.inj (toString_nat_injective digits))

end HighlightGrammar
