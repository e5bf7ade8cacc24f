import Lectern.Toml.Scalar
import Lectern.Toml.Strings

/-!
# Reading TOML

A document is a sequence of lines: headers, which open a table or an element of an array of tables,
and keys with their values. Every reader takes the text from a place and answers with what it read
and the rest; a budget of one step for each character bounds the work, and no text needs more.

* `Toml.parse?` — the entries of a whole document.
-/

namespace Lectern.Toml

/-! ### Keys -/

/-- Whether `c` can be part of a key without quotes. -/
def isKeyChar (c : Char) : Bool := c.isAlphanum || c == '_' || c == '-'

/-- One part of a key. -/
def keyPart? (s : Text) : Option (Text × Text) :=
  match s with
  | '"' :: _ | '\'' :: _ => line? s
  | _ =>
    match s.takeWhile isKeyChar with
    | [] => none
    | part => some (part, s.drop part.length)

/-- A **dotted key**: all its parts but the last, the last, and the rest of the text after
spaces. -/
def key? : Nat → Text → Option (List Text × Text × Text)
  | 0, _ => none
  | fuel + 1, s =>
    match keyPart? (skipSpaces s) with
    | none => none
    | some (part, rest) =>
      match skipSpaces rest with
      | '.' :: more => (key? fuel more).map fun (path, last, after) => (part :: path, last, after)
      | after => some ([], part, after)

/-! ### Values -/

/-- How deep arrays and inline tables may be nested. -/
def maxDepth : Nat := 79

mutual

/-- A value, inside of `depth` arrays and inline tables. -/
def value? : Nat → Nat → Text → Option (Toml × Text)
  | 0, _, _ => none
  | fuel + 1, depth, s =>
    match s with
    | '[' :: rest =>
      if maxDepth ≤ depth then none
      else (arrayRest? fuel (depth + 1) rest).map fun (items, after) => (.array items, after)
    | '\x7b' :: rest =>
      if maxDepth ≤ depth then none
      else (inlineRest? fuel (depth + 1) [] rest).map fun (entries, after) =>
        (.table .inline entries, after)
    | '"' :: _ | '\'' :: _ => (string? s).map fun (value, after) => (.text value, after)
    | _ => scalar? s

/-- The items of an array up to its end; a comma may follow the last. -/
def arrayRest? : Nat → Nat → Text → Option (List Toml × Text)
  | 0, _, _ => none
  | fuel + 1, depth, s =>
    match skipBlank false s with
    | some (']' :: after) => some ([], after)
    | some start =>
      match value? fuel depth start with
      | none => none
      | some (item, rest) =>
        match skipBlank false rest with
        | some (',' :: more) =>
          (arrayRest? fuel depth more).map fun (items, after) => (item :: items, after)
        | some (']' :: after) => some ([item], after)
        | _ => none
    | none => none

/-- The entries of an inline table up to its end, after those read before; a comma may follow the
last. -/
def inlineRest? : Nat → Nat → Entries → Text → Option (Entries × Text)
  | 0, _, _, _ => none
  | fuel + 1, depth, entries, s =>
    match skipBlank false s with
    | some ('\x7d' :: after) => some (entries, after)
    | some start =>
      match key? start.length start with
      | some (path, key, '=' :: rest) =>
        match value? fuel depth (skipSpaces rest) with
        | none => none
        | some (value, rest) =>
          match setValue path key value .inline entries, skipBlank false rest with
          | some entries, some (',' :: more) => inlineRest? fuel depth entries more
          | some entries, some ('\x7d' :: after) => some (entries, after)
          | _, _ => none
      | _ => none
    | none => none

end

/-! ### Documents -/

/-- What a line of a document says. -/
inductive Line where
  | header (path : List Text) (key : Text)
  | element (path : List Text) (key : Text)
  | pair (path : List Text) (key : Text) (value : Toml)
deriving Repr

/-- A line that starts with a bracket, without it. -/
def bracketLine? (fuel : Nat) : Text → Option (Line × Text)
  | '[' :: rest =>
    match key? fuel rest with
    | some (path, key, ']' :: ']' :: after) => some (.element path key, after)
    | _ => none
  | rest =>
    match key? fuel rest with
    | some (path, key, ']' :: after) => some (.header path key, after)
    | _ => none

/-- A line with a key and a value. -/
def pairLine? (fuel : Nat) (s : Text) : Option (Line × Text) :=
  match key? fuel s with
  | some (path, key, '=' :: rest) =>
    (value? fuel 0 (skipSpaces rest)).map fun (value, after) => (.pair path key value, after)
  | _ => none

/-- A **line** that is not empty, with the rest of the document. -/
def line (fuel : Nat) (s : Text) : Option (Line × Text) := do
  let (line, rest) ← match s with
    | '[' :: rest => bracketLine? fuel rest
    | _ => pairLine? fuel s
  some (line, ← endLine false rest)

/-- The document after a line below `header`, with the header of the lines that follow. -/
def Line.apply (header : List Text) (document : Entries) : Line → Option (List Text × Entries)
  | .header path key => (openTable path key document).map fun entries => (path ++ [key], entries)
  | .element path key =>
    (openElement path key document).map fun entries => (path ++ [key], entries)
  | .pair path key value =>
    (addLine header path key value document).map fun entries => (header, entries)

/-- The document after all lines of a text. -/
def lines? : Nat → List Text → Entries → Text → Option Entries
  | 0, _, _, _ => none
  | fuel + 1, header, document, s =>
    match skipBlank false s with
    | none => none
    | some [] => some document
    | some start =>
      match line (start.length + 1) start with
      | none => none
      | some (line, rest) =>
        match line.apply header document with
        | none => none
        | some (header, document) => lines? fuel header document rest

/-- A text without a byte order mark at its start. -/
def dropMark : Text → Text
  | '\uFEFF' :: rest => rest
  | s => s

/-- The **entries** of a document. -/
def parse? (s : Text) : Option Entries :=
  let s := dropMark s
  lines? (s.length + 1) [] [] s

end Lectern.Toml
