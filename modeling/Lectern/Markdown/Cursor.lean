import Lectern.Text

/-!
# Reading the Start of a Line

The containers of a block and its indentation are counted in columns. A tab reaches to the next
multiple of four, so a part of it can belong to a container and the rest to the content. A
`Cursor` is a place near the start of a line that knows how many columns of a tab it has passed
are still unused.
-/

namespace Lectern.Markdown

/-- Whether `c` is white space within a line. -/
def isLineSpace (c : Char) : Bool := c == ' ' || c == '\t' || c == '\x0B' || c == '\x0C'

/-- Whether `c` is white space of ASCII. -/
def isAsciiSpace (c : Char) : Bool := isLineSpace c || c == '\n' || c == '\r'

/-- Whether a text is at the end of its line. -/
def atLineEnd : Text → Bool
  | [] => true
  | c :: _ => c == '\n'

/-- Whether nothing but white space is left of the line. -/
def isBlankLine (s : Text) : Bool := atLineEnd (s.dropWhile isLineSpace)

/-- A place in a line. -/
structure Cursor where
  /-- The columns of the last tab that no container has used. -/
  pending : Nat := 0
  /-- The number of characters since the last tab, which gives the width of the next. -/
  column : Nat := 0
  rest : Text
deriving Repr

namespace Cursor

/-- The place after as much white space as there is, up to `wanted` columns, and the number of
columns that were missing. -/
def skipAux (wanted pending column : Nat) : Text → Nat × Cursor
  | [] => (wanted, ⟨pending, column, []⟩)
  | c :: rest =>
    match wanted with
    | 0 => (0, ⟨pending, column, c :: rest⟩)
    | wanted + 1 =>
      if c == ' ' then skipAux wanted pending (column + 1) rest
      else if c == '\t' then
        let width := 4 - column % 4
        if width ≤ wanted + 1 then skipAux (wanted + 1 - width) 0 0 rest
        else (0, ⟨width - (wanted + 1), 0, rest⟩)
      else (wanted + 1, ⟨pending, column, c :: rest⟩)

/-- The place after as much white space as there is, up to `wanted` columns, and the number of
columns that were missing. -/
def skipSpace (wanted : Nat) (place : Cursor) : Nat × Cursor :=
  let used := min place.pending wanted
  skipAux (wanted - used) (place.pending - used) place.column place.rest

/-- The place after up to `limit` columns of white space, and their number. -/
def skipUpTo (limit : Nat) (place : Cursor) : Nat × Cursor :=
  let (missing, place) := place.skipSpace limit
  (limit - missing, place)

/-- The place after all spaces and tabs. -/
def skipAll (place : Cursor) : Cursor :=
  ⟨0, 0, place.rest.dropWhile fun c => c == ' ' || c == '\t'⟩

/-- The place after one character that takes one column, if it comes next. -/
def skipChar? (expected : Char) (place : Cursor) : Option Cursor :=
  match place.rest with
  | c :: rest => if c == expected then some ⟨place.pending, place.column + 1, rest⟩ else none
  | [] => none

/-- Whether the line ends here. -/
def atEnd (place : Cursor) : Bool := atLineEnd place.rest

/-- The content of the line from here, with the unused columns of a tab as spaces. -/
def content (place : Cursor) : Text := List.replicate place.pending ' ' ++ place.rest

end Cursor

end Lectern.Markdown
