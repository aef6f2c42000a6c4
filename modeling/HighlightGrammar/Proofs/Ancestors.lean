import HighlightGrammar.Files.Path
import Mathlib.Data.List.Basic

/-!
# The directories above a path

Taking the parent of a path again and again gives all the directories above it: those above the parent of a path are
the further ones above the path itself.  A path and the text of its parent are divided into the same names, because
the anchor keeps its text and only idle names at the end are left out.
-/

namespace HighlightGrammar.Path

variable {anchor text : List Char} {names : List (List Char)} {name : List Char}

/-! ## Names between slashes -/

theorem segments_eq_splitOn (text : List Char) : segments text = text.splitOn '/' := by
  induction text with
  | nil => rfl
  | cons c rest ih =>
    rw [segments, List.splitOn_cons_eq_if_modifyHead, ← ih]
    by_cases slash : c = '/'
    · simp [slash]
    · cases divided : segments rest with
      | nil => exact absurd (ih.symm.trans divided) (List.splitOn_ne_nil _ _)
      | cons first others => simp [slash]

theorem segments_intercalate (divided : ∀ name ∈ names, '/' ∉ name) (some : names ≠ []) :
    segments (['/'].intercalate names) = names := by
  rw [segments_eq_splitOn]
  exact List.splitOn_intercalate '/' divided some

theorem slash_notMem (member : name ∈ segments text) : '/' ∉ name := by
  induction text generalizing name with
  | nil =>
    cases List.mem_singleton.1 member
    exact List.not_mem_nil
  | cons c rest ih =>
    rw [segments] at member
    by_cases slash : c = '/'
    · rw [if_pos slash, List.mem_cons] at member
      cases member with
      | inl empty => simp [empty]
      | inr later => exact ih later
    · rw [if_neg slash] at member
      cases divided : segments rest with
      | nil =>
        rw [divided] at member
        cases List.mem_singleton.1 member
        simpa using Ne.symm slash
      | cons first others =>
        rw [divided, List.mem_cons] at member
        cases member with
        | inl extended =>
          have free := ih (divided ▸ List.mem_cons_self)
          simp [extended, free, Ne.symm slash]
        | inr later => exact ih (divided ▸ List.mem_cons_of_mem first later)

/-- A text begins with the first of its names, and a slash follows if there are more. -/
theorem eq_of_head (first : name ∈ (segments text).head?) : text = name ∨ ∃ rest, text = name ++ '/' :: rest := by
  have whole : ['/'].intercalate (segments text) = text := by
    rw [segments_eq_splitOn]
    exact List.intercalate_splitOn '/'
  cases divided : segments text with
  | nil =>
    rw [divided] at first
    cases first
  | cons head others =>
    rw [divided] at first whole
    cases first
    cases others with
    | nil => exact Or.inl (by simpa using whole.symm)
    | cons next others =>
      rw [List.intercalate_cons_cons] at whole
      exact Or.inr ⟨['/'].intercalate (next :: others), by simpa using whole.symm⟩

/-! ## Anchors -/

/-- An anchor that is followed by these names when a path is taken apart. -/
structure Anchored (anchor : List Char) (names : List (List Char)) : Prop where
  divided : ∀ name ∈ names, '/' ∉ name
  kind : anchor = ['/'] ∨ (anchor = ['.'] ∧ ∀ first ∈ names.head?, first = []) ∨
    (anchor = [] ∧ ∀ first ∈ names.head?, isIdle first = false)

/-- The last name can be taken off. -/
theorem Anchored.dropLast (anchored : Anchored anchor (names ++ [name])) : Anchored anchor names := by
  have head (first : List Char) (here : first ∈ names.head?) : first ∈ (names ++ [name]).head? := by
    cases names with
    | nil => cases here
    | cons other rest => exact here
  refine ⟨fun other member => anchored.divided other (List.mem_append_left _ member), ?_⟩
  refine anchored.kind.imp_right fun relative => relative.imp ?_ ?_
  · exact fun current => ⟨current.1, fun first here => current.2 first (head first here)⟩
  · exact fun plain => ⟨plain.1, fun first here => plain.2 first (head first here)⟩

/-- A text that is neither empty nor begins like an anchored one begins with a name that leads somewhere. -/
theorem isIdle_head (present : text ≠ []) (unrooted : ∀ rest, text ≠ '/' :: rest) (different : text ≠ ['.'])
    (uncurrent : ∀ rest, text ≠ '.' :: '/' :: rest) (first : name ∈ (segments text).head?) : isIdle name = false := by
  by_contra idle
  simp only [isIdle, Bool.not_eq_false, Bool.or_eq_true, beq_iff_eq] at idle
  cases idle with
  | inl empty =>
    subst empty
    cases eq_of_head first with
    | inl whole => exact present whole
    | inr more => exact more.elim unrooted
  | inr point =>
    subst point
    cases eq_of_head first with
    | inl whole => exact different whole
    | inr more => exact more.elim uncurrent

theorem anchored_splitAnchor (present : text ≠ []) : Anchored (splitAnchor text).1 (segments (splitAnchor text).2) := by
  refine ⟨fun name => slash_notMem, ?_⟩
  fun_cases splitAnchor text with
  | case1 rest => exact Or.inl rfl
  | case2 => exact Or.inr (Or.inl ⟨rfl, by simp [segments]⟩)
  | case3 rest => exact Or.inr (Or.inl ⟨rfl, by simp [segments]⟩)
  | case4 text unrooted different uncurrent =>
    exact Or.inr (Or.inr ⟨rfl, fun first => isIdle_head present unrooted different uncurrent⟩)

/-- A text that is put together from an anchor and names is taken apart into the same ones. -/
theorem splitAnchor_intercalate (anchored : Anchored anchor names) (last : isIdle name = false)
    (ends : name ∈ names.getLast?) :
    (splitAnchor (anchor ++ ['/'].intercalate names)).1 = anchor ∧
      segments (splitAnchor (anchor ++ ['/'].intercalate names)).2 = names := by
  have some : names ≠ [] := by
    rintro rfl
    cases ends
  have read := segments_intercalate anchored.divided some
  obtain rfl | ⟨rfl, idle⟩ | ⟨rfl, first⟩ := anchored.kind
  · exact ⟨rfl, read⟩
  · cases names with
    | nil => contradiction
    | cons head others =>
      cases idle head rfl
      cases others with
      | nil =>
        cases ends
        contradiction
      | cons next others =>
        rw [List.intercalate_cons_cons] at read ⊢
        exact ⟨rfl, read⟩
  · rw [← read] at first
    rw [List.nil_append]
    generalize ['/'].intercalate names = text at read first ⊢
    -- What looks like an anchor would make the first name an idle one.
    fun_cases splitAnchor text with
    | case1 rest => simp [segments, isIdle] at first
    | case2 => simp [segments, isIdle] at first
    | case3 rest => simp [segments, isIdle] at first
    | case4 text => exact ⟨rfl, read⟩

/-! ## Parents -/

theorem ancestorsOf_dropWhile (anchor : List Char) (backward : List (List Char)) :
    ancestorsOf anchor (backward.dropWhile isIdle) = ancestorsOf anchor backward := by
  induction backward with
  | nil => rfl
  | cons name before ih =>
    by_cases idle : isIdle name = true
    · rw [List.dropWhile_cons_of_pos idle, ih, ancestorsOf, if_pos idle]
    · rw [List.dropWhile_cons_of_neg idle]

theorem Anchored.dropWhile {backward : List (List Char)} (anchored : Anchored anchor backward.reverse) :
    Anchored anchor (backward.dropWhile isIdle).reverse := by
  induction backward with
  | nil => exact anchored
  | cons name before ih =>
    by_cases idle : isIdle name = true
    · rw [List.dropWhile_cons_of_pos idle]
      rw [List.reverse_cons] at anchored
      exact ih anchored.dropLast
    · rwa [List.dropWhile_cons_of_neg idle]

theorem ancestors_textOf {backward : List (List Char)} (anchored : Anchored anchor backward.reverse) :
    ancestors (textOf anchor backward) = ancestorsOf anchor backward := by
  have kept := anchored.dropWhile
  rw [ancestors, textOf, String.toList_ofList, ← ancestorsOf_dropWhile anchor backward]
  cases left : backward.dropWhile isIdle with
  | nil =>
    -- Nothing but the anchor is left.
    obtain rfl | ⟨rfl, -⟩ | ⟨rfl, -⟩ := anchored.kind <;> rfl
  | cons name before =>
    have leads : isIdle name = false := by
      have stopped := List.head?_dropWhile_not isIdle backward
      simpa [left] using stopped
    rw [left] at kept
    obtain ⟨sameAnchor, sameNames⟩ := splitAnchor_intercalate kept leads (by simp)
    rw [sameAnchor, sameNames, List.reverse_reverse]

theorem ancestorsOf_eq_cons {backward : List (List Char)} {directory : String} {rest : List String}
    (anchored : Anchored anchor backward.reverse) (above : ancestorsOf anchor backward = directory :: rest) :
    ancestors directory = rest := by
  induction backward with
  | nil =>
    rw [ancestorsOf] at above
    split at above
    · cases above
      rfl
    · cases above
  | cons name before ih =>
    rw [List.reverse_cons] at anchored
    rw [ancestorsOf] at above
    by_cases idle : isIdle name = true
    · rw [if_pos idle] at above
      exact ih anchored.dropLast above
    · rw [if_neg idle] at above
      cases above
      exact ancestors_textOf anchored.dropLast

/-- The directories above the parent of a path are the further ones above the path. -/
theorem ancestors_eq_cons {path directory : String} {rest : List String} (above : ancestors path = directory :: rest) :
    ancestors directory = rest := by
  have present : path.toList ≠ [] := by
    intro empty
    rw [ancestors, empty] at above
    cases above
  rw [ancestors] at above
  apply ancestorsOf_eq_cons _ above
  rw [List.reverse_reverse]
  exact anchored_splitAnchor present

end HighlightGrammar.Path
