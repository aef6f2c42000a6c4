import HighlightGrammar.Proofs.Quotation
import HighlightGrammar.Swift.Mode

/-!
# Patterns in the generated code

The source of a pattern goes through two encodings.  First its brackets are brought into the dialect of the target:
`Dialect.tokens` reads a regular expression in either dialect, and what was written for a source is read as the same
tokens, but for the opening brackets inside of classes, which are escaped.  Then it becomes a string literal:
`Swift.readQuoted?` reads one back, and finds its end whatever follows.

The first encoding is to read, to shield each token and to write down what was read, so a second run finds nothing
to shield.
-/

namespace HighlightGrammar

/-! ## Brackets in two dialects -/

/-- How a regular expression takes an opening bracket inside of a class: as itself, or as the beginning of a class
within the class. -/
inductive Dialect where
  | flat
  | nested
deriving DecidableEq, Repr

namespace Dialect

/-- A part of a regular expression, as far as brackets and backslashes tell. -/
inductive Token where
  | opening
  | closing
  /-- A character that has nothing to do with classes. -/
  | plain (c : Char)
  /-- A backslash and the character that it takes along. -/
  | escaped (c : Char)
  /-- A backslash at the end. -/
  | dangling
deriving DecidableEq, Repr

/-- How many classes are open after a token. -/
def Token.depthAfter (depth : Nat) : Token → Nat
  | .opening => depth + 1
  | .closing => depth - 1
  | .plain _ | .escaped _ | .dangling => depth

/-- What a character is that no backslash takes along, inside of `depth` classes. -/
def token (dialect : Dialect) (depth : Nat) (c : Char) : Token :=
  if c = '[' then if dialect = .nested ∨ depth = 0 then .opening else .plain c
  else if c = ']' then if depth = 0 then .plain c else .closing
  else .plain c

/-- Read a regular expression from inside of `depth` classes. -/
def tokens (dialect : Dialect) (depth : Nat) : List Char → List Token
  | [] => []
  | ['\\'] => [.dangling]
  | '\\' :: c :: rest => .escaped c :: tokens dialect depth rest
  | c :: rest => dialect.token depth c :: tokens dialect ((dialect.token depth c).depthAfter depth) rest

/-- How many classes are open at first and after each token. -/
def depths (depth : Nat) : List Token → List Nat
  | [] => [depth]
  | token :: rest => depth :: depths (token.depthAfter depth) rest

/-- The token for use where every opening bracket opens a class. -/
def Token.shielded : Token → Token
  | .plain c => if c = '[' then .escaped c else .plain c
  | other => other

theorem tokens_cons {dialect : Dialect} {depth : Nat} {c : Char} {rest : List Char} (unescaped : c ≠ '\\') :
    dialect.tokens depth (c :: rest) =
      dialect.token depth c :: dialect.tokens ((dialect.token depth c).depthAfter depth) rest := by
  rw [tokens]
  · simp [unescaped]
  · simp [unescaped]

/-- Outside of classes every opening bracket opens one. -/
theorem token_outside (dialect : Dialect) : dialect.token 0 '[' = .opening := by
  cases dialect <;> rfl

theorem depthAfter_shielded (depth : Nat) (token : Token) : token.shielded.depthAfter depth = token.depthAfter depth := by
  cases token with
  | plain c =>
    simp only [Token.shielded]
    split <;> rfl
  | opening | closing | escaped | dangling => rfl

theorem depths_map_shielded (depth : Nat) (tokens : List Token) :
    depths depth (tokens.map .shielded) = depths depth tokens := by
  induction tokens generalizing depth with
  | nil => rfl
  | cons token rest ih => rw [List.map_cons, depths, depths, depthAfter_shielded, ih]

theorem depthAfter_token_flat {depth : Nat} (bounded : depth ≤ 1) (c : Char) :
    (flat.token depth c).depthAfter depth ≤ 1 := by
  unfold token
  split
  next =>
    split
    next opens =>
      obtain impossible | outside := opens
      · cases impossible
      · simp [Token.depthAfter, outside]
    next => exact bounded
  next =>
    split
    next =>
      split
      next => exact bounded
      next => exact Nat.le_trans (Nat.sub_le depth 1) bounded
    next => exact bounded

/-- Where an opening bracket in a class stands for itself, no class is within another one. -/
theorem depths_tokens_flat {depth : Nat} (bounded : depth ≤ 1) (text : List Char) :
    ∀ reached ∈ depths depth (flat.tokens depth text), reached ≤ 1 := by
  fun_induction tokens flat depth text with
  | case1 depth => simpa [depths] using bounded
  | case2 depth => simpa [depths, Token.depthAfter] using bounded
  | case3 depth c rest ih => exact List.forall_mem_cons.2 ⟨bounded, ih bounded⟩
  | case4 depth c rest _ _ ih => exact List.forall_mem_cons.2 ⟨bounded, ih (depthAfter_token_flat bounded c)⟩

end Dialect

open Dialect in
/-- What is written is read alike in both dialects.  The induction follows the writer; where it is in a class, both
readers are inside of one. -/
theorem tokens_escapeBrackets {dialect : Dialect} (inClass : Bool) (text : List Char) :
    dialect.tokens inClass.toNat (escapeBrackets inClass text) = (flat.tokens inClass.toNat text).map .shielded := by
  fun_induction escapeBrackets inClass text with
  | case1 => rfl
  | case2 => rfl
  | case3 inClass c rest ih => simp [tokens, Token.shielded, ih]
  | case4 rest ih =>
    -- A bracket that stands for itself: the backslash written before it takes it along.
    rw [tokens, tokens_cons (by decide), List.map_cons]
    exact congrArg (Token.escaped '[' :: ·) ih
  | case5 inClass rest outside ih =>
    obtain rfl : inClass = false := by simpa using outside
    rw [tokens_cons (by decide), tokens_cons (by decide), List.map_cons, Bool.toNat_false, token_outside]
    exact congrArg (Token.opening :: ·) ih
  | case6 inClass rest ih =>
    rw [tokens_cons (by decide), tokens_cons (by decide), List.map_cons]
    cases inClass with
    | false => exact congrArg (Token.plain ']' :: ·) ih
    | true => exact congrArg (Token.closing :: ·) ih
  | case7 inClass c rest last escape opens closes ih =>
    have unescaped : c ≠ '\\' := by
      rintro rfl
      cases rest with
      | nil => exact last rfl rfl
      | cons next rest => exact escape next rest rfl rfl
    have plain (dialect : Dialect) : dialect.token inClass.toNat c = .plain c := by
      rw [token, if_neg opens, if_neg closes]
    have kept : (Token.plain c).shielded = .plain c := if_neg opens
    rw [tokens_cons unescaped, tokens_cons unescaped, List.map_cons, plain, plain, kept]
    exact congrArg (Token.plain c :: ·) ih

open Dialect in
/-- In the target dialect what is written for a source never has a class within a class, and is read as the source
was meant, with a backslash before each opening bracket that stands for itself. -/
theorem tokens_sanitizeSource (source : String) :
    (∀ reached ∈ depths 0 (nested.tokens 0 (sanitizeSource source).toList), reached ≤ 1) ∧
    nested.tokens 0 (sanitizeSource source).toList = (flat.tokens 0 source.toList).map .shielded := by
  have same : nested.tokens 0 (sanitizeSource source).toList = (flat.tokens 0 source.toList).map .shielded := by
    rw [sanitizeSource, String.toList_ofList]
    exact tokens_escapeBrackets false source.toList
  refine ⟨?_, same⟩
  rw [same, depths_map_shielded]
  exact depths_tokens_flat (Nat.zero_le 1) source.toList

/-- Of two brackets the second one stands for itself; the backslash has nothing left to take along. -/
example : Dialect.flat.tokens 0 "[[a\\".toList = [.opening, .plain '[', .plain 'a', .dangling] := by decide

/-! ## What is left alone -/

namespace Dialect

/-- The characters of a token. -/
def Token.text : Token → List Char
  | .opening => ['[']
  | .closing => [']']
  | .plain c => [c]
  | .escaped c => ['\\', c]
  | .dangling => ['\\']

theorem text_token (dialect : Dialect) (depth : Nat) (c : Char) : (dialect.token depth c).text = [c] := by
  unfold token
  split
  next opens => split <;> simp [Token.text, opens]
  next =>
    split
    next closes => split <;> simp [Token.text, closes]
    next => rfl

/-- Reading loses nothing. -/
theorem flatMap_text_tokens (dialect : Dialect) (depth : Nat) (text : List Char) :
    (dialect.tokens depth text).flatMap Token.text = text := by
  fun_induction tokens dialect depth text with
  | case1 => rfl
  | case2 => rfl
  | case3 depth c rest ih => rw [List.flatMap_cons, ih]; rfl
  | case4 depth c rest _ _ ih => rw [List.flatMap_cons, ih, text_token]; rfl

theorem shielded_shielded (token : Token) : token.shielded.shielded = token.shielded := by
  cases token with
  | plain c =>
    by_cases opens : c = '['
    · rw [Token.shielded, if_pos opens]; rfl
    · rw [Token.shielded, if_neg opens, Token.shielded, if_neg opens]
  | opening | closing | escaped | dangling => rfl

theorem shielded_eq_self_iff {token : Token} : token.shielded = token ↔ token ≠ .plain '[' := by
  cases token with
  | plain c => simp [Token.shielded]
  | opening | closing | escaped | dangling => simp [Token.shielded]

theorem map_shielded_eq_self_iff {tokens : List Token} : tokens.map .shielded = tokens ↔ .plain '[' ∉ tokens := by
  induction tokens with
  | nil => simp
  | cons token rest ih =>
    rw [List.map_cons, List.cons.injEq, ih, shielded_eq_self_iff, ne_comm, List.mem_cons, not_or]

end Dialect

open Dialect in
/-- Escaping brackets is reading a text, shielding its tokens and writing them down. -/
theorem escapeBrackets_eq_flatMap (inClass : Bool) (text : List Char) :
    escapeBrackets inClass text = ((flat.tokens inClass.toNat text).map .shielded).flatMap Token.text := by
  have read : flat.tokens inClass.toNat (escapeBrackets inClass text) = _ := tokens_escapeBrackets inClass text
  rw [← read, flatMap_text_tokens]

open Dialect in
theorem escapeBrackets_escapeBrackets (inClass : Bool) (text : List Char) :
    escapeBrackets inClass (escapeBrackets inClass text) = escapeBrackets inClass text := by
  have again : Token.shielded ∘ Token.shielded = Token.shielded := funext shielded_shielded
  rw [escapeBrackets_eq_flatMap, tokens_escapeBrackets, List.map_map, again, ← escapeBrackets_eq_flatMap]

open Dialect in
theorem escapeBrackets_eq_self_iff {inClass : Bool} {text : List Char} :
    escapeBrackets inClass text = text ↔ .plain '[' ∉ flat.tokens inClass.toNat text := by
  rw [← map_shielded_eq_self_iff]
  constructor
  · intro same
    rw [← tokens_escapeBrackets, same]
  · intro same
    rw [escapeBrackets_eq_flatMap, same, flatMap_text_tokens]

open Dialect in
/-- A source that was brought into the target dialect stays as it is.  Those that never change are the ones in which
no opening bracket stands for itself. -/
theorem sanitizeSource_idempotent (source : String) :
    sanitizeSource (sanitizeSource source) = sanitizeSource source ∧
    (sanitizeSource source = source ↔ .plain '[' ∉ flat.tokens 0 source.toList) := by
  constructor
  · rw [sanitizeSource, sanitizeSource, String.toList_ofList, escapeBrackets_escapeBrackets]
  · rw [sanitizeSource, ← String.toList_inj, String.toList_ofList]
    exact escapeBrackets_eq_self_iff

/-! ## Patterns as literals -/

namespace Swift

/-- The text of the string literal with which a text begins, and what follows it. -/
def readQuoted? (text : String) : Option (String × String) :=
  match text.toList with
  | '"' :: rest => (readLiteral rest).map fun found => (String.ofList found.1, String.ofList found.2)
  | _ => none

theorem readQuoted?_quote (text rest : String) : readQuoted? (quote text ++ rest) = some (text, rest) := by
  have written : (quote text ++ rest).toList = '"' :: (text.toList.flatMap escapeChar ++ '"' :: rest.toList) := by
    simp [quote]
  simp only [readQuoted?, written, readLiteral_flatMap_escapeChar, Option.map_some, String.ofList_toList]

end Swift

namespace Pattern

/-- The source in the target dialect, after a mark that case does not matter. -/
def normal (p : Pattern) : String := (if p.ignoreCase then "(?i)" else "") ++ sanitizeSource p.source

theorem foldedSource_eq_normal (p : Pattern) : p.foldedSource = p.normal := by
  unfold foldedSource normal
  split
  next => rfl
  next => rw [String.empty_append]

theorem render_expr (p : Pattern) : p.expr.render = "HLJS.re(" ++ Swift.quote p.normal ++ ")" := by
  simp [expr, foldedSource_eq_normal, Swift.Expr.render, Swift.Expr.renderAll, String.append_assoc]

end Pattern

/-- Literals are read back as a whole, whatever follows them, and the literal of a pattern holds its source. -/
theorem Swift.literals_read_back :
    (∀ text rest : String, readQuoted? (quote text ++ rest) = some (text, rest)) ∧
    ∀ p : Pattern, ∃ literal : String, p.expr.render = "HLJS.re(" ++ literal ++ ")" ∧
      ∀ rest, readQuoted? (literal ++ rest) =
        some ((if p.ignoreCase then "(?i)" else "") ++ sanitizeSource p.source, rest) := by
  exact ⟨readQuoted?_quote, fun p => ⟨quote p.normal, p.render_expr, fun rest => readQuoted?_quote p.normal rest⟩⟩

end HighlightGrammar
