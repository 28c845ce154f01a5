/-
Corpus/Toml/Value.lean

TOML values, and the tables that a document builds.

While a document is read, a table remembers how it came about: from dotted keys, as the
parent of a header, or by a header of its own.  That decides who may still add to it.
-/
import Corpus.Number.Decimal

namespace Corpus.Toml

/-- A finished value. -/
inductive Value where
  | string (s : String)
  | integer (n : Int)
  | float (x : Float)
  | boolean (b : Bool)
  /-- A date, a time or both, already found to be valid. -/
  | moment
  | array (items : List Value)
  | table (entries : List (String × Value))
  deriving Inhabited, Repr

/-- How a table came about. -/
inductive Origin where
  /-- By a header of its own. -/
  | header
  /-- As the parent of a header. -/
  | parent
  /-- From dotted keys. -/
  | dotted
  deriving DecidableEq, Repr

/-- What a key stands for while a document is read. -/
inductive Item where
  /-- A value, which nothing is added to. -/
  | value (v : Value)
  | table (origin : Origin) (entries : List (String × Item))
  /-- An array of tables, the open one first. -/
  | tables (current : List (String × Item)) (earlier : List (List (String × Item)))
  deriving Inhabited

/-- The entries of a table in the order they were added. -/
abbrev Entries := List (String × Item)

mutual

/-- The value that an item has in the end. -/
def Item.toValue : Item → Value
  | .value v => v
  | .table _ entries => .table (valuesOf entries)
  | .tables current earlier => .array ((.table (valuesOf current) :: tablesOf earlier).reverse)

/-- The values of entries. -/
def valuesOf : List (String × Item) → List (String × Value)
  | [] => []
  | (k, item) :: rest => (k, item.toValue) :: valuesOf rest

/-- The values of the elements of an array of tables. -/
def tablesOf : List (List (String × Item)) → List Value
  | [] => []
  | entries :: rest => .table (valuesOf entries) :: tablesOf rest

end

namespace Entries

/-- Puts an item in the place of the one under a key. -/
def replace (entries : Entries) (key : String) (item : Item) : Entries :=
  entries.map fun (k, old) => if k == key then (k, item) else (k, old)

/-- Adds a value under a dotted key.  The tables on the way must be new or come from dotted
keys; only above the last of them a parent of a header may stand. -/
def addValue? (entries : Entries) (path : List String) (key : String) (v : Value) :
    Option Entries :=
  match path with
  | [] => if (entries.lookup key).isSome then none else some (entries ++ [(key, .value v)])
  | first :: rest =>
    match entries.lookup first with
    | none => (addValue? [] rest key v).map fun inner => entries ++ [(first, .table .dotted inner)]
    | some (.table origin inner) =>
      if origin = .header || (rest.isEmpty && origin ≠ .dotted) then none
      else (addValue? inner rest key v).map fun inner => entries.replace first (.table origin inner)
    | some (.tables current earlier) =>
      if rest.isEmpty then none
      else
        (addValue? current rest key v).map fun current =>
          entries.replace first (.tables current earlier)
    | some (.value _) => none

/-- Changes the table that a path of keys leads to, making tables where there are none. -/
def within? (entries : Entries) (path : List String) (change : Entries → Option Entries) :
    Option Entries :=
  match path with
  | [] => change entries
  | first :: rest =>
    match entries.lookup first with
    | none => (within? [] rest change).map fun inner => entries ++ [(first, .table .parent inner)]
    | some (.table origin inner) =>
      (within? inner rest change).map fun inner => entries.replace first (.table origin inner)
    | some (.tables current earlier) =>
      (within? current rest change).map fun current =>
        entries.replace first (.tables current earlier)
    | some (.value _) => none

/-- Opens the table of a header.  It may exist as the parent of another one. -/
def openTable? (entries : Entries) (path : List String) (key : String) : Option Entries :=
  entries.within? path fun entries =>
    match entries.lookup key with
    | none => some (entries ++ [(key, .table .header [])])
    | some (.table .parent inner) => some (entries.replace key (.table .header inner))
    | some _ => none

/-- Opens one more table of an array of tables. -/
def openElement? (entries : Entries) (path : List String) (key : String) : Option Entries :=
  entries.within? path fun entries =>
    match entries.lookup key with
    | none => some (entries ++ [(key, .tables [] [])])
    | some (.tables current earlier) => some (entries.replace key (.tables [] (current :: earlier)))
    | some _ => none

end Entries

end Corpus.Toml
