import Lectern.Decimal

/-!
# TOML Values and Tables

A document is a table of values under keys. A table remembers how it came about, because that
decides what may still be added to it: a table with a header of its own may get subtables but no
second header, one that dotted keys made may get further dotted keys, and an inline table is
complete.

* `Toml.changeAt` — a change of the table at a path, which makes the tables that are missing.
* `Toml.setValue`, `Toml.openTable`, `Toml.openElement` — what the lines of a document do.
-/

namespace Lectern

/-- How a table **came about**: by its header, by the header of a table inside it, by dotted keys,
or in braces. -/
inductive TableKind where
  | header
  | implied
  | dotted
  | inline
deriving DecidableEq, Repr

/-- A **TOML value**. A floating-point number is `none` if it is infinite or no number; dates and
times are kept as they were written; `tables` is an array that grows by headers. -/
inductive Toml where
  | text (value : Text)
  | integer (value : Int)
  | float (value? : Option Decimal)
  | bool (value : Bool)
  | moment (written : Text)
  | array (items : List Toml)
  | tables (elements : List Toml)
  | table (kind : TableKind) (entries : List (Text × Toml))
deriving Repr, Inhabited

namespace Toml

/-- The values of a table under their keys, each key once. -/
abbrev Entries := List (Text × Toml)

/-- The value under a key. -/
def lookup? (key : Text) (entries : Entries) : Option Toml :=
  (entries.find? fun entry => entry.1 == key).map (·.2)

/-- The entries with another value under a key that they have. -/
def replace (key : Text) (value : Toml) (entries : Entries) : Entries :=
  entries.map fun entry => if entry.1 = key then (key, value) else entry

/-- How a table comes about that a path makes on its way. -/
def madeBy (dotted : Bool) : TableKind := if dotted then .dotted else .implied

/-- Whether a path may go through a table that is there already. Dotted keys go only through
tables without a header. -/
def mayEnter (dotted : Bool) : TableKind → Bool
  | .inline => false
  | .header => !dotted
  | .implied | .dotted => true

/-- The entries after a **change** of the table at a path. The change is told how that table came
about, and may fail. -/
def changeAt (dotted : Bool) (change : TableKind → Entries → Option Entries) :
    List Text → TableKind → Entries → Option Entries
  | [], kind, entries => change kind entries
  | key :: path, _, entries =>
    match lookup? key entries with
    | none =>
      (changeAt dotted change path (madeBy dotted) []).map fun inner =>
        entries ++ [(key, .table (madeBy dotted) inner)]
    | some (.table kind inner) =>
      if mayEnter dotted kind then
        (changeAt dotted change path kind inner).map fun changed =>
          replace key (.table kind changed) entries
      else none
    | some (.tables elements) =>
      match elements.getLast? with
      | some (.table kind inner) =>
        (changeAt dotted change path kind inner).map fun changed =>
          replace key (.tables (elements.dropLast ++ [.table kind changed])) entries
      | _ => none
    | some _ => none

/-- A new value under a key, in a table that is as `dotted` asks. -/
def addValue (dotted : Bool) (key : Text) (value : Toml) (kind : TableKind) (entries : Entries) :
    Option Entries :=
  if dotted != decide (kind = .dotted) then none
  else if (lookup? key entries).isSome then none
  else some (entries ++ [(key, value)])

/-- The entries with a **value** under a dotted key, of which `path` is all but the last part. -/
def setValue (path : List Text) (key : Text) (value : Toml) (kind : TableKind)
    (entries : Entries) : Option Entries :=
  changeAt true (addValue (!path.isEmpty) key value) path kind entries

/-- A header for the table under a key. -/
def addHeader (key : Text) (_ : TableKind) (entries : Entries) : Option Entries :=
  match lookup? key entries with
  | none => some (entries ++ [(key, .table .header [])])
  | some (.table .implied inner) => some (replace key (.table .header inner) entries)
  | some _ => none

/-- A new element for the array of tables under a key. -/
def addElement (key : Text) (_ : TableKind) (entries : Entries) : Option Entries :=
  match lookup? key entries with
  | none => some (entries ++ [(key, .tables [.table .header []])])
  | some (.tables elements) =>
    some (replace key (.tables (elements ++ [.table .header []])) entries)
  | some _ => none

/-- The document after the **header** of a table. -/
def openTable (path : List Text) (key : Text) (document : Entries) : Option Entries :=
  changeAt false (addHeader key) path .header document

/-- The document after the header of an **element** of an array of tables. -/
def openElement (path : List Text) (key : Text) (document : Entries) : Option Entries :=
  changeAt false (addElement key) path .header document

/-- The document after a line with a key and a value, below the header `header`. -/
def addLine (header path : List Text) (key : Text) (value : Toml) (document : Entries) :
    Option Entries :=
  changeAt false (setValue path key value) header .header document

/-! ### Records -/

/-- The values of an array of either kind. -/
def items? : Toml → Option (List Toml)
  | .array items | .tables items => some items
  | _ => none

/-- The text of a string. -/
def text? : Toml → Option Text
  | .text value => some value
  | _ => none

/-- The fields of a **record** by name, each present or not. A record is a table whose other
entries do not count, or an array that starts with its fields in order. -/
def fields? (names : List Text) : Toml → Option (List (Option Toml))
  | .table _ entries => some (names.map fun name => lookup? name entries)
  | value => (items? value).map fun items =>
      (List.range names.length).map fun n => items[n]?

/-- Reads a field that may be missing. -/
def optional? {α : Type} (read : Toml → Option α) : Option Toml → Option (Option α)
  | none => some none
  | some value => (read value).map some

/-- Reads a field that has the value `default` when it is missing. -/
def required? {α : Type} (default : α) (read : Toml → Option α) : Option Toml → Option α
  | none => some default
  | some value => read value

end Toml

end Lectern
