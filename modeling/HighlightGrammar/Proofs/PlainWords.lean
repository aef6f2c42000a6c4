import HighlightGrammar.Grammar.Weight
import Mathlib.Data.List.Forall2

/-!
# Words and their weights

A text of keywords is taken apart at its blanks, and each word loses its weight.  `Text.Spaced` says which texts hold
given words, and `Unweighted` what a word is without its weight, both without reading a text from left to right.
The words of a text depend on nothing but the words between its blanks, so a text may be cut at any of them.
-/

namespace HighlightGrammar

namespace Text

/-! ## Texts and their words -/

/-- Nothing but blanks. -/
def IsGap (gap : List Char) : Prop := ∀ c ∈ gap, isBlank c = true

/-- Something, and no blank in it. -/
def IsWord (word : List Char) : Prop := word ≠ [] ∧ ∀ c ∈ word, isBlank c = false

/-- What may follow a word: nothing, or something that begins with a blank. -/
def Closes (rest : List Char) : Prop := ∀ c ∈ rest.head?, isBlank c = true

theorem isWord_iff {word : List Char} : (word.isEmpty || word.any isBlank) = false ↔ IsWord word := by
  simp [IsWord]

theorem closes_iff {rest : List Char} : rest.head?.all isBlank = true ↔ Closes rest := by
  cases rest with
  | nil => simp [Closes]
  | cons c rest => simp [Closes]

instance (gap : List Char) : Decidable (IsGap gap) := decidable_of_iff (gap.all isBlank = true) List.all_eq_true

instance (word : List Char) : Decidable (IsWord word) :=
  decidable_of_iff ((word.isEmpty || word.any isBlank) = false) isWord_iff

instance (rest : List Char) : Decidable (Closes rest) := decidable_of_iff (rest.head?.all isBlank = true) closes_iff

/-- A text with the given words in this order.  Blanks may stand before and after each of them, and do where another
one follows. -/
inductive Spaced : List (List Char) → List Char → Prop where
  | none {gap : List Char} (blank : IsGap gap) : Spaced [] gap
  | next {gap word rest : List Char} {others : List (List Char)} (blank : IsGap gap) (isWord : IsWord word)
    (closes : Closes rest) (spaced : Spaced others rest) : Spaced (word :: others) (gap ++ (word ++ rest))

theorem words_gap_append {gap : List Char} (blank : IsGap gap) (text : List Char) : words (gap ++ text) = words text := by
  induction gap with
  | nil => rfl
  | cons c gap ih =>
    obtain ⟨first, others⟩ := List.forall_mem_cons.1 blank
    rw [List.cons_append, words, if_pos first, ih others]

theorem words_word_append {word rest : List Char} (isWord : IsWord word) (closes : Closes rest) :
    words (word ++ rest) = word :: words rest := by
  obtain ⟨nonEmpty, plain⟩ := isWord
  cases word with
  | nil => contradiction
  | cons c word =>
    obtain ⟨first, others⟩ := List.forall_mem_cons.1 plain
    have kept : ∀ c ∈ word, (!isBlank c) = true := fun c member => by rw [others c member]; rfl
    -- The run of other characters ends with the word.
    have stops : rest.takeWhile (!isBlank ·) = [] ∧ rest.dropWhile (!isBlank ·) = rest := by
      cases rest with
      | nil => exact ⟨rfl, rfl⟩
      | cons next rest =>
        have blank : isBlank next = true := closes next rfl
        simp [blank]
    rw [List.cons_append, words, if_neg (by simp [first]), List.takeWhile_append_of_pos kept,
      List.dropWhile_append_of_pos kept, stops.1, stops.2, List.append_nil]

theorem Spaced.words_eq {tokens : List (List Char)} {text : List Char} (spaced : Spaced tokens text) :
    words text = tokens := by
  induction spaced with
  | none blank => simpa [words] using words_gap_append blank []
  | next blank isWord closes _ ih => rw [words_gap_append blank, words_word_append isWord closes, ih]

/-! ## Cutting a text -/

theorem isWord_run {c : Char} (plain : ¬ isBlank c = true) (rest : List Char) :
    IsWord (c :: rest.takeWhile (!isBlank ·)) := by
  refine ⟨List.cons_ne_nil _ _, List.forall_mem_cons.2 ⟨by simpa using plain, fun d member => ?_⟩⟩
  simpa using List.all_eq_true.1 List.all_takeWhile d member

theorem closes_after_run (rest : List Char) : Closes (rest.dropWhile (!isBlank ·)) := by
  intro c next
  have stops := List.head?_dropWhile_not (!isBlank ·) rest
  rw [Option.mem_def.1 next] at stops
  simpa using stops

theorem Closes.append {rest other : List Char} (first : Closes rest) (second : Closes other) : Closes (rest ++ other) := by
  cases rest with
  | nil => exact second
  | cons c rest => exact first

theorem isWord_of_mem_words {text word : List Char} (member : word ∈ words text) : IsWord word := by
  fun_induction words text with
  | case1 => cases member
  | case2 c rest blank ih => exact ih member
  | case3 c rest plain ih =>
    obtain rfl | later := List.mem_cons.1 member
    · exact isWord_run plain rest
    · exact ih later

/-- The induction takes the words of the first part one by one: what follows each of them still begins with a blank. -/
theorem words_append {after : List Char} (closes : Closes after) (before : List Char) :
    words (before ++ after) = words before ++ words after := by
  fun_induction words before with
  | case1 => rfl
  | case2 c rest skipped ih => rw [List.cons_append, words, if_pos skipped, ih]
  | case3 c rest plain ih =>
    -- The second part follows what is left after the next word.
    have parts : c :: rest ++ after =
        (c :: rest.takeWhile (!isBlank ·)) ++ (rest.dropWhile (!isBlank ·) ++ after) := by
      simp only [List.cons_append, ← List.append_assoc, List.takeWhile_append_dropWhile]
    rw [parts, words_word_append (isWord_run plain rest) ((closes_after_run rest).append closes), ih, List.cons_append]

theorem words_append_gap {gap : List Char} (nonEmpty : gap ≠ []) (blank : IsGap gap) (before after : List Char) :
    words (before ++ gap ++ after) = words before ++ words after := by
  have closes : Closes (gap ++ after) := by
    cases gap with
    | nil => contradiction
    | cons c gap =>
      intro d first
      cases first
      exact blank c List.mem_cons_self
  rw [List.append_assoc, words_append closes, words_gap_append blank]

end Text

/-! ## Words without their weights -/

/-- A bar and at least one digit. -/
def IsWeight (weight : List Char) : Prop :=
  ∃ digits, digits ≠ [] ∧ (∀ c ∈ digits, c.isDigit = true) ∧ weight = '|' :: digits

/-- What is left of a token without a weight at its end. -/
inductive Unweighted : List Char → List Char → Prop where
  | weight {word weight : List Char} (isWeight : IsWeight weight) : Unweighted (word ++ weight) word
  | plain {token : List Char} (noWeight : ∀ word weight, IsWeight weight → token ≠ word ++ weight) :
    Unweighted token token

theorem stripWeight_append {weight : List Char} (isWeight : IsWeight weight) (word : List Char) :
    stripWeight (word ++ weight) = word := by
  obtain ⟨digits, nonEmpty, all, rfl⟩ := isWeight
  have backward : (word ++ '|' :: digits).reverse = digits.reverse ++ '|' :: word.reverse := by simp
  have kept : ∀ c ∈ digits.reverse, c.isDigit = true := fun c member => all c (List.mem_reverse.1 member)
  have bar : ('|').isDigit = false := by decide
  have rest : (digits.reverse ++ '|' :: word.reverse).dropWhile Char.isDigit = '|' :: word.reverse := by
    rw [List.dropWhile_append_of_pos kept]
    simp [bar]
  have run : (digits.reverse ++ '|' :: word.reverse).takeWhile Char.isDigit ≠ [] := by
    rw [List.takeWhile_append_of_pos kept]
    simp [nonEmpty]
  simp only [stripWeight, backward, rest, if_neg run, List.reverse_reverse]

theorem stripWeight_of_noWeight {token : List Char}
    (noWeight : ∀ word weight, IsWeight weight → token ≠ word ++ weight) : stripWeight token = token := by
  unfold stripWeight
  split
  next before found =>
    split
    next => rfl
    next run =>
      -- The digits from the end back to the bar are a weight.
      have digits : IsWeight ('|' :: (token.reverse.takeWhile Char.isDigit).reverse) :=
        ⟨_, by simpa using run, fun c member => List.all_eq_true.1 List.all_takeWhile c (List.mem_reverse.1 member), rfl⟩
      have parts : token = before.reverse ++ '|' :: (token.reverse.takeWhile Char.isDigit).reverse := by
        have whole : token.reverse.takeWhile Char.isDigit ++ token.reverse.dropWhile Char.isDigit = token.reverse :=
          List.takeWhile_append_dropWhile
        rw [found] at whole
        simpa using (congrArg List.reverse whole).symm
      exact absurd parts (noWeight _ _ digits)
  next => rfl

theorem unweighted_stripWeight (token : List Char) : Unweighted token (stripWeight token) := by
  by_cases weighted : ∃ word weight, IsWeight weight ∧ token = word ++ weight
  · obtain ⟨word, weight, isWeight, rfl⟩ := weighted
    rw [stripWeight_append isWeight]
    exact .weight isWeight
  · have noWeight : ∀ word weight, IsWeight weight → token ≠ word ++ weight :=
      fun word weight isWeight same => weighted ⟨word, weight, isWeight, same⟩
    rw [stripWeight_of_noWeight noWeight]
    exact .plain noWeight

theorem Unweighted.subset {token word : List Char} (unweighted : Unweighted token word) : word ⊆ token := by
  cases unweighted with
  | weight => exact List.subset_append_left _ _
  | plain => exact List.Subset.refl _

theorem unweighted_iff {token word : List Char} : Unweighted token word ↔ word = stripWeight token := by
  constructor
  · intro unweighted
    cases unweighted with
    | weight isWeight => exact (stripWeight_append isWeight word).symm
    | plain noWeight => exact (stripWeight_of_noWeight noWeight).symm
  · rintro rfl
    exact unweighted_stripWeight token

theorem forall₂_unweighted_iff {tokens bare : List (List Char)} :
    List.Forall₂ Unweighted tokens bare ↔ bare = tokens.map stripWeight := by
  induction tokens generalizing bare with
  | nil => simp
  | cons token rest ih => simp [List.forall₂_cons_left_iff, unweighted_iff, ih]

theorem isWord_of_mem_plainWords {raw word : String} (member : word ∈ plainWords raw) : Text.IsWord word.toList := by
  simp only [plainWords, List.mem_map, List.mem_filter, decide_eq_true_eq] at member
  obtain ⟨_, ⟨⟨token, listed, rfl⟩, nonEmpty⟩, rfl⟩ := member
  rw [String.toList_ofList]
  refine ⟨nonEmpty, fun c inside => ?_⟩
  exact (Text.isWord_of_mem_words listed).2 c ((unweighted_stripWeight token).subset inside)

/-- Cutting a text at blanks cuts the list of its words.  None of them is empty or has a blank in it, and they are what
stands between the blanks, in order and without the weights, but for what was nothing but a weight. -/
theorem plainWords_wordwise :
    (∀ before gap after : String, gap ≠ "" → Text.IsGap gap.toList →
      plainWords (before ++ gap ++ after) = plainWords before ++ plainWords after) ∧
    (∀ raw : String, ∀ word ∈ plainWords raw, Text.IsWord word.toList) ∧
    ∀ (tokens : List (List Char)) (raw : String), Text.Spaced tokens raw.toList →
      ∃ bare, List.Forall₂ Unweighted tokens bare ∧ plainWords raw = (bare.filter (· ≠ [])).map String.ofList := by
  refine ⟨fun before gap after nonEmpty blank => ?_, fun raw word member => isWord_of_mem_plainWords member,
    fun tokens raw spaced => ?_⟩
  · have some : gap.toList ≠ [] := by simpa using nonEmpty
    simp only [plainWords, String.toList_append, Text.words_append_gap some blank, List.map_append, List.filter_append]
  · refine ⟨tokens.map stripWeight, forall₂_unweighted_iff.2 rfl, ?_⟩
    rw [plainWords, spaced.words_eq]

/-- A bar stays where not only digits follow it, and where it is not the last one. -/
theorem plainWords_weights :
    Text.Spaced ["x|".toList, "a|1b".toList, "|3".toList, "é|2|10".toList] " x|  a|1b\t|3\u2003é|2|10".toList ∧
    plainWords " x|  a|1b\t|3\u2003é|2|10" = ["x|", "a|1b", "é|2"] := by
  have spaced : Text.Spaced ["x|".toList, "a|1b".toList, "|3".toList, "é|2|10".toList]
      " x|  a|1b\t|3\u2003é|2|10".toList := by
    change Text.Spaced _ (" ".toList ++ ("x|".toList ++ ("  ".toList ++ ("a|1b".toList ++ ("\t".toList ++ ("|3".toList ++
      ("\u2003".toList ++ ("é|2|10".toList ++ []))))))))
    iterate 4 refine .next (by decide) (by decide) (by decide) ?_
    exact .none (by decide)
  obtain ⟨bare, unweighted, result⟩ := plainWords_wordwise.2.2 _ _ spaced
  refine ⟨spaced, ?_⟩
  rw [result, forall₂_unweighted_iff.1 unweighted]
  decide

end HighlightGrammar
