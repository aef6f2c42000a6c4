import HighlightGrammar.Toml.Basic

/-!
# Tables under construction

While a file is read its tables grow from several places: headers, dotted keys, and lists of tables.  A
draft remembers how each table came to be, because that decides who may still add to it.
-/

namespace HighlightGrammar.Toml

/-- How a table came to be. -/
inductive Origin where
  /-- It has a header of its own, or is written as a value. -/
  | header
  /-- A header of a table inside of it implies it. -/
  | implied
  /-- A dotted key implies it. -/
  | dotted
deriving DecidableEq, Repr

inductive Draft where
  /-- A value, to which nothing can be added. -/
  | value (closed : Toml)
  | table (origin : Origin) (entries : List (String × Draft))
  /-- A list of tables, of which only the last can grow. -/
  | tables (earlier : List (List (String × Draft))) (last : List (String × Draft))

abbrev Entries : Type := List (String × Draft)

namespace Draft

mutual

/-- The value of a finished draft. -/
def close : Draft → Toml
  | .value closed => closed
  | .table _ entries => .table (closeEntries entries)
  | .tables earlier last => .list (closeTables earlier ++ [.table (closeEntries last)])

def closeEntries : List (String × Draft) → List (String × Toml)
  | [] => []
  | (key, draft) :: rest => (key, draft.close) :: closeEntries rest

def closeTables : List (List (String × Draft)) → List Toml
  | [] => []
  | entries :: rest => .table (closeEntries entries) :: closeTables rest

end

end Draft

namespace Entries

/-- Give a key a draft in the place of the one that it has. -/
def set (key : String) (draft : Draft) (entries : Entries) : Entries :=
  entries.map fun e => if e.1 = key then (key, draft) else e

/-- Change the table at the end of a path.  Tables on the way that are missing are made. -/
def alter (dotted : Bool) (change : Origin → Entries → Except Reason Entries) (origin : Origin)
    (entries : Entries) : List String → Except Reason Entries
  | [] => change origin entries
  | key :: path => do
    match entries.lookup key with
    | none =>
      let made := if dotted then Origin.dotted else Origin.implied
      let inner ← alter dotted change made [] path
      .ok (entries ++ [(key, .table made inner)])
    | some (.value _) => .error (.notTable key)
    | some (.tables earlier last) =>
      let inner ← alter dotted change .header last path
      .ok (set key (.tables earlier inner) entries)
    | some (.table existing inner) =>
      if dotted && existing = .header then .error (.duplicateKey key)
      else
        let inner ← alter dotted change existing inner path
        .ok (set key (.table existing inner) entries)

/-- Add a value to a table.  A dotted key may add only to tables that dotted keys made. -/
def add (isDottedKey : Bool) (key : String) (value : Toml) (origin : Origin) (entries : Entries) :
    Except Reason Entries :=
  if (origin == .dotted) != isDottedKey || (entries.lookup key).isSome then .error (.duplicateKey key)
  else .ok (entries ++ [(key, .value value)])

/-- Write a value under a dotted key. -/
def assign (path : List String) (key : String) (value : Toml) (entries : Entries) : Except Reason Entries :=
  alter true (add (!path.isEmpty) key value) .header entries path

/-- Write a value under a dotted key of the table that the last header opened. -/
def assignIn (current path : List String) (key : String) (value : Toml) (entries : Entries) :
    Except Reason Entries :=
  alter false (fun _ inner => assign path key value inner) .header entries current

/-- Open the table of a header, which no other header has opened. -/
def openTable (path : List String) (key : String) (entries : Entries) : Except Reason Entries :=
  alter false (fun _ inner =>
    match inner.lookup key with
    | none => .ok (inner ++ [(key, .table .header [])])
    | some (.table .implied there) => .ok (set key (.table .header there) inner)
    | some _ => .error (.duplicateKey key)) .header entries path

/-- Open one more table of a list of tables. -/
def openListed (path : List String) (key : String) (entries : Entries) : Except Reason Entries :=
  alter false (fun _ inner =>
    match inner.lookup key with
    | none => .ok (inner ++ [(key, .tables [] [])])
    | some (.tables earlier last) => .ok (set key (.tables (earlier ++ [last]) []) inner)
    | some _ => .error (.duplicateKey key)) .header entries path

end Entries

end HighlightGrammar.Toml
