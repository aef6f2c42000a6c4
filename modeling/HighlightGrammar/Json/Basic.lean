import HighlightGrammar.Binary64
import HighlightGrammar.SortedMap

/-!
# JSON values

An object is held as a list of fields.  Reading a text puts the fields into key order and keeps the last
of several fields with one key; `Json.KeysIncrease` says that a value has that form throughout.
-/

namespace HighlightGrammar

/-- A number is whole, if it was written so and fits into 64 bits, or else a binary fraction. -/
inductive Number where
  | whole (value : Int)
  | float (value : Binary64)
deriving DecidableEq, Repr

inductive Json where
  | null
  | bool (value : Bool)
  | number (value : Number)
  | text (value : String)
  | list (items : List Json)
  | object (fields : List (String × Json))
deriving Repr, Inhabited

namespace Json

mutual

/-- In every object of the value the keys go up strictly. -/
def KeysIncrease : Json → Prop
  | .list items => KeysIncreaseList items
  | .object fields => HighlightGrammar.KeysIncrease fields ∧ KeysIncreaseFields fields
  | _ => True

def KeysIncreaseList : List Json → Prop
  | [] => True
  | item :: rest => KeysIncrease item ∧ KeysIncreaseList rest

def KeysIncreaseFields : List (String × Json) → Prop
  | [] => True
  | (_, value) :: rest => KeysIncrease value ∧ KeysIncreaseFields rest

end

/-- The value under a key.  Only objects have any. -/
def get? (key : String) : Json → Option Json
  | .object fields => fields.lookup key
  | _ => none

def asText? : Json → Option String
  | .text value => some value
  | _ => none

def asBool? : Json → Option Bool
  | .bool value => some value
  | _ => none

def asList? : Json → Option (List Json)
  | .list items => some items
  | _ => none

def asFields? : Json → Option (List (String × Json))
  | .object fields => some fields
  | _ => none

/-- A whole number of at most 64 bits, without sign. -/
def asUnsigned? : Json → Option Nat
  | .number (.whole value) => if 0 ≤ value ∧ value < Int.pow 2 64 then some value.toNat else none
  | _ => none

/-- A whole number of at most 64 bits, with sign. -/
def asSigned? : Json → Option Int
  | .number (.whole value) => if -Int.pow 2 63 ≤ value ∧ value < Int.pow 2 63 then some value else none
  | _ => none

def isNull : Json → Bool
  | .null => true
  | _ => false

def isObject : Json → Bool
  | .object _ => true
  | _ => false

/-- The text under a key. -/
def getText? (key : String) (value : Json) : Option String := (value.get? key).bind asText?

/-- The value under a key, with an explicit null counted as none. -/
def getPresent? (key : String) (value : Json) : Option Json := (value.get? key).filter (!·.isNull)

/-- An object with the given fields, put into key order. -/
def ofFields (fields : List (String × Json)) : Json :=
  .object (fields.foldl (fun acc field => insertEntry field.1 field.2 acc) [])

def ofNat (n : Nat) : Json := .number (.whole n)

/-- A value that may be missing, as null. -/
def ofOption {α : Type} (encode : α → Json) : Option α → Json
  | none => .null
  | some a => encode a

end Json

end HighlightGrammar
