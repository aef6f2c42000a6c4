import HighlightGrammar.Proofs.Quotation

/-!
# Reading expressions back

The text of an expression says which expression it is.  `Swift.Expr.read` takes a text apart again: it looks at the
first character to tell literals, lists and words apart, and at the character after a word or a key.  Words must not
hold the characters that divide expressions; `Swift.Expr.IsValue` demands this, and that an entry has neither an
entry for its key nor for its value.
-/

namespace HighlightGrammar.Swift.Expr

/-! ## The expressions that can be read -/

/-- The characters that stand between the parts of expressions. -/
def isDelimiter (c : Char) : Bool := ['"', ',', ':', '(', ')', '[', ']'].contains c

/-- Something to be written as it is, without quotes. -/
def isWord (text : String) : Bool := !text.toList.isEmpty && text.toList.all (!isDelimiter ·)

/-- An entry of two expressions of a kind, or one such expression. -/
def IsItem (isValue : Expr → Prop) (e : Expr) : Prop :=
  isValue e ∨ ∃ key value, e = .entry key value ∧ isValue key ∧ isValue value

/-- An expression other than an entry, with at most `depth` expressions inside one another. -/
def IsValue : Nat → Expr → Prop
  | 0, _ => False
  | _ + 1, .atom text => isWord text = true
  | _ + 1, .literal _ => True
  | _ + 1, .entry _ _ => False
  | depth + 1, .list items => ∀ item ∈ items, IsItem (IsValue depth) item
  | depth + 1, .call callee arguments =>
    isWord callee = true ∧ ∀ argument ∈ arguments, IsItem (IsValue depth) argument

/-! ## The reader -/

/-- A reader gives an expression and what follows it. -/
abbrev Reader : Type := List Char → Option (Expr × List Char)

/-- Read an entry of two expressions, or one expression. -/
def readItem (read : Reader) : Reader := fun text =>
  match read text with
  | some (key, ':' :: ' ' :: rest) => (read rest).map fun found => (.entry key found.1, found.2)
  | found => found

/-- Read items up to a closing bracket, fewer than `count` of them. -/
def readItems (readItem : Reader) (close : Char) : Nat → List Char → Option (List Expr × List Char)
  | 0, _ => none
  | count + 1, text =>
    match readItem text with
    | none => if text.head? = some close then some ([], text.tail) else none
    | some (_, []) => none
    | some (item, c :: rest) =>
      if c = close then some ([item], rest)
      else (readItems readItem close count rest.tail).map fun found => (item :: found.1, found.2)

/-- Read an expression other than an entry. -/
def read : Nat → Reader
  | 0, _ => none
  | _ + 1, [] => none
  | depth + 1, c :: rest =>
    if c = '"' then (readLiteral rest).map fun found => (.literal (String.ofList found.1), found.2)
    else if c = '[' then
      (readItems (readItem (read depth)) ']' (rest.length + 1) rest).map fun found => (.list found.1, found.2)
    else if isDelimiter c then none
    else
      let word := String.ofList (c :: rest.takeWhile (!isDelimiter ·))
      match rest.dropWhile (!isDelimiter ·) with
      | '(' :: inside =>
        (readItems (readItem (read depth)) ')' (inside.length + 1) inside).map fun found => (.call word found.1, found.2)
      | after => some (.atom word, after)

/-! ## What was written is read -/

/-- What follows an expression: the end, or a character that cannot belong to it. -/
def Stops (rest : List Char) : Prop := ∀ c ∈ rest.head?, isDelimiter c = true ∧ c ≠ '('

/-- What follows an item: the end, or a character that does not make it a key. -/
def Ends (rest : List Char) : Prop := Stops rest ∧ ∀ c ∈ rest.head?, c ≠ ':'

/-- A reader that reads back all values of a kind. -/
def ReadsBack (isValue : Expr → Prop) (read : Reader) : Prop :=
  ∀ e, isValue e → ∀ rest, Stops rest → read (e.render.toList ++ rest) = some (e, rest)

variable {isValue : Expr → Prop} {read : Reader}

theorem readItem_render (reads : ReadsBack isValue read) {e : Expr} (item : IsItem isValue e) {rest : List Char}
    (ends : Ends rest) : readItem read (e.render.toList ++ rest) = some (e, rest) := by
  obtain ⟨stops, noKey⟩ := ends
  cases item with
  | inl value =>
    rw [readItem, reads e value rest stops]
    cases rest with
    | nil => rfl
    | cons c rest =>
      have different : c ≠ ':' := noKey c rfl
      simp [different]
  | inr entry =>
    obtain ⟨key, value, rfl, keyIs, valueIs⟩ := entry
    have text : (entry key value).render.toList ++ rest =
        key.render.toList ++ ':' :: ' ' :: (value.render.toList ++ rest) := by
      simp [render]
    have stopsKey : Stops (':' :: ' ' :: (value.render.toList ++ rest)) := by
      rintro c ⟨rfl⟩
      decide
    rw [text, readItem, reads key keyIs _ stopsKey]
    simp [reads value valueIs rest stops]

/-- The text of several expressions, as it stands between brackets. -/
def joined (items : List Expr) : List Char := (", ".intercalate (renderAll items)).toList

theorem joined_cons_cons (first second : Expr) (more : List Expr) :
    joined (first :: second :: more) = first.render.toList ++ ',' :: ' ' :: joined (second :: more) := by
  simp [joined, renderAll, String.intercalate_cons_cons]

theorem length_le_joined (items : List Expr) (after : List Char) (nonEmpty : after ≠ []) :
    items.length ≤ (joined items ++ after).length := by
  have one := List.length_pos_iff.2 nonEmpty
  induction items with
  | nil => exact Nat.zero_le _
  | cons first rest ih =>
    cases rest with
    | nil =>
      simp only [List.length_append, List.length_singleton]
      omega
    | cons second more =>
      rw [joined_cons_cons]
      simp only [List.length_append, List.length_cons] at ih ⊢
      omega

theorem readItems_render (reads : ReadsBack isValue read) {close : Char} (closes : close = ')' ∨ close = ']')
    (refuses : ∀ rest, read (close :: rest) = none) {items : List Expr} (each : ∀ item ∈ items, IsItem isValue item)
    {count : Nat} (fewer : items.length < count) (rest : List Char) :
    readItems (readItem read) close count (joined items ++ close :: rest) = some (items, rest) := by
  have ends : Ends (close :: rest) := by
    obtain rfl | rfl := closes
    · exact ⟨by rintro c ⟨rfl⟩; decide, by rintro c ⟨rfl⟩; decide⟩
    · exact ⟨by rintro c ⟨rfl⟩; decide, by rintro c ⟨rfl⟩; decide⟩
  induction items generalizing count with
  | nil =>
    cases count with
    | zero => contradiction
    | succ count =>
      change readItems (readItem read) close (count + 1) (close :: rest) = some ([], rest)
      simp [readItems, readItem, refuses]
  | cons first more ih =>
    obtain ⟨item, others⟩ := List.forall_mem_cons.1 each
    cases count with
    | zero => contradiction
    | succ count =>
      cases more with
      | nil =>
        have text : joined [first] = first.render.toList := by simp [joined, renderAll]
        rw [text, readItems, readItem_render reads item ends]
        simp
      | cons second more =>
        have comma : Ends (',' :: ' ' :: (joined (second :: more) ++ close :: rest)) :=
          ⟨by rintro c ⟨rfl⟩; decide, by rintro c ⟨rfl⟩; decide⟩
        have different : ',' ≠ close := by
          obtain rfl | rfl := closes <;> decide
        rw [joined_cons_cons, List.append_assoc, List.cons_append, List.cons_append, readItems,
          readItem_render reads item comma]
        simp [different, ih others (Nat.lt_of_succ_lt_succ fewer)]

theorem read_refuses (depth : Nat) {close : Char} (closes : close = ')' ∨ close = ']') (rest : List Char) :
    Expr.read depth (close :: rest) = none := by
  cases depth with
  | zero => rfl
  | succ depth => obtain rfl | rfl := closes <;> rfl

/-- A word ends before the first delimiter. -/
theorem takeWhile_append_delimiter {word after : List Char} (plain : ∀ c ∈ word, isDelimiter c = false)
    (divided : ∀ c ∈ after.head?, isDelimiter c = true) :
    (word ++ after).takeWhile (!isDelimiter ·) = word ∧ (word ++ after).dropWhile (!isDelimiter ·) = after := by
  have all : ∀ c ∈ word, (!isDelimiter c) = true := fun c member => by simp [plain c member]
  rw [List.takeWhile_append_of_pos all, List.dropWhile_append_of_pos all]
  cases after with
  | nil => simp
  | cons c after => simp [divided c rfl]

theorem exists_of_isWord {text : String} (word : isWord text = true) :
    ∃ c more, text = String.ofList (c :: more) ∧ isDelimiter c = false ∧ ∀ d ∈ more, isDelimiter d = false := by
  simp only [isWord, Bool.and_eq_true, List.all_eq_true, Bool.not_eq_true'] at word
  obtain ⟨present, plain⟩ := word
  cases listed : text.toList with
  | nil => simp [listed] at present
  | cons c more =>
    rw [listed] at plain
    obtain ⟨first, others⟩ := List.forall_mem_cons.1 plain
    refine ⟨c, more, ?_, first, others⟩
    rw [← listed, String.ofList_toList]

section Words

variable {depth : Nat} {text : String} (word : isWord text = true)

include word

theorem read_word {rest : List Char} (stops : Stops rest) :
    Expr.read (depth + 1) (text.toList ++ rest) = some (.atom text, rest) := by
  obtain ⟨c, more, rfl, plain, others⟩ := exists_of_isWord word
  obtain ⟨taken, left⟩ := takeWhile_append_delimiter others fun d here => (stops d here).1
  have noQuote : c ≠ '"' := by rintro rfl; contradiction
  have noList : c ≠ '[' := by rintro rfl; contradiction
  rw [String.toList_ofList, List.cons_append, Expr.read]
  simp only [noQuote, noList, plain, taken, left, if_false, Bool.false_eq_true]
  cases rest with
  | nil => rfl
  | cons d rest =>
    have noCall : d ≠ '(' := (stops d rfl).2
    simp [noCall]

theorem read_call (inside : List Char) : Expr.read (depth + 1) (text.toList ++ '(' :: inside) =
    (readItems (readItem (Expr.read depth)) ')' (inside.length + 1) inside).map fun found =>
      (.call text found.1, found.2) := by
  obtain ⟨c, more, rfl, plain, others⟩ := exists_of_isWord word
  have opened : ∀ d ∈ ('(' :: inside).head?, isDelimiter d = true := by
    rintro d ⟨rfl⟩
    decide
  obtain ⟨taken, left⟩ := takeWhile_append_delimiter others opened
  have noQuote : c ≠ '"' := by rintro rfl; contradiction
  have noList : c ≠ '[' := by rintro rfl; contradiction
  rw [String.toList_ofList, List.cons_append, Expr.read]
  simp only [noQuote, noList, plain, taken, left, if_false, Bool.false_eq_true]

end Words

theorem readsBack (depth : Nat) : ReadsBack (IsValue depth) (Expr.read depth) := by
  induction depth with
  | zero => exact fun e value => value.elim
  | succ depth ih =>
    intro e value rest stops
    cases e with
    | atom text => exact read_word value stops
    | literal text =>
      have read := readLiteral_flatMap_escapeChar text.toList rest
      have quoted : (literal text).render.toList ++ rest = '"' :: (text.toList.flatMap escapeChar ++ '"' :: rest) := by
        simp [render, quote]
      rw [quoted, Expr.read, if_pos rfl, read]
      simp
    | entry key value => exact value.elim
    | list items =>
      have bracketed : (list items).render.toList ++ rest = '[' :: (joined items ++ ']' :: rest) := by
        simp [render, joined]
      have inside := readItems_render ih (Or.inr rfl) (read_refuses depth (Or.inr rfl)) value
        (Nat.lt_succ_of_le (length_le_joined items (']' :: rest) (by simp))) rest
      rw [bracketed, Expr.read, if_neg (by decide), if_pos rfl, inside]
      rfl
    | call callee arguments =>
      obtain ⟨word, each⟩ := value
      have bracketed : (call callee arguments).render.toList ++ rest =
          callee.toList ++ '(' :: (joined arguments ++ ')' :: rest) := by
        simp [render, joined]
      have inside := readItems_render ih (Or.inl rfl) (read_refuses depth (Or.inl rfl)) each
        (Nat.lt_succ_of_le (length_le_joined arguments (')' :: rest) (by simp))) rest
      rw [bracketed, read_call word, inside]
      rfl

/-- The text of an expression determines it. -/
theorem render_injective {depth : Nat} {e f : Expr} (value : IsValue depth e) (other : IsValue depth f)
    (same : e.render = f.render) : e = f := by
  have stops : Stops [] := by simp [Stops]
  have first := readsBack depth e value [] stops
  have second := readsBack depth f other [] stops
  rw [same, second] at first
  cases first
  rfl

end HighlightGrammar.Swift.Expr
