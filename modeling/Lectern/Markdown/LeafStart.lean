import Lectern.Markdown.Cursor
import Lectern.Markdown.Event

/-!
# What a Line Can Start

The lines that blocks are made of, told from their text after the containers and the indentation:
thematic breaks, headings, fences, list markers, and the rows of tables.
-/

namespace Lectern.Markdown

/-- The length of the run of `c` that a text starts with. -/
def runLength (c : Char) (s : Text) : Nat := (s.takeWhile (· == c)).length

/-- The line that a text starts with, without its end. -/
def lineOf (s : Text) : Text := s.takeWhile (· != '\n')

/-- A line without the white space at its end. -/
def trimLineEnd (s : Text) : Text := (s.reverse.dropWhile isLineSpace).reverse

/-- Whether a line is a **thematic break**: three or more of one sign, and spaces. -/
def isThematicBreak (s : Text) : Bool :=
  match s with
  | c :: _ =>
    let line := lineOf s
    (c == '*' || c == '-' || c == '_') && line.all (fun d => d == c || d == ' ' || d == '\t') &&
      (line.filter (· == c)).length ≥ 3
  | [] => false

/-- The level of a heading that a line starts with number signs. -/
def headingLevel? (s : Text) : Option Nat :=
  let level := runLength '#' s
  if 1 ≤ level && level ≤ 6 then
    match s.drop level with
    | [] => some level
    | c :: _ => if isAsciiSpace c then some level else none
  else none

/-- The content of a heading line after its number signs: a closing run of number signs after a
space is left out. -/
def headingContent (s : Text) : Text :=
  let line := trimLineEnd ((lineOf s).dropWhile isLineSpace)
  let signs := (line.reverse.takeWhile (· == '#')).length
  let kept := line.take (line.length - signs)
  if signs = 0 then line
  else match kept.getLast? with
    | none => []
    | some ' ' => trimLineEnd kept
    | some _ => line

/-- The level of the heading that a line of `=` or `-` under a paragraph makes of it. -/
def underlineLevel? (s : Text) : Option Nat :=
  match s with
  | '=' :: _ => if isBlankLine (s.dropWhile (· == '=')) then some 1 else none
  | '-' :: _ => if isBlankLine (s.dropWhile (· == '-')) then some 2 else none
  | _ => none

/-- The **fence** that opens a code block: its sign and length. A line that starts with a fence
of backticks has no other backtick. -/
def openingFence? (s : Text) : Option (Char × Nat) :=
  match s with
  | c :: _ =>
    let length := runLength c s
    if (c == '\x60' || c == '~') && length ≥ 3 then
      if c == '\x60' && (lineOf (s.drop length)).contains '\x60' then none else some (c, length)
    else none
  | [] => none

/-- Whether a line closes a code block with the given fence. -/
def isClosingFence (sign : Char) (length : Nat) (s : Text) : Bool :=
  let run := runLength sign s
  run ≥ length && atLineEnd ((s.drop run).dropWhile (· == ' '))

/-- A list marker: its sign (for a number, the sign after it), the number, and the text after
it. -/
structure ListMarker where
  sign : Char
  start : Nat
  width : Nat
  rest : Text
deriving Repr

/-- The **list marker** that a line starts with; white space or the line end must follow it. -/
def listMarker? (s : Text) : Option ListMarker :=
  let marker? : Option ListMarker := match s with
    | c :: rest =>
      if c == '-' || c == '+' || c == '*' then some ⟨c, 0, 1, rest⟩
      else
        let digits := s.takeWhile Char.isDigit
        match digits, s.drop digits.length with
        | _ :: _, sign :: rest =>
          if digits.length ≤ 9 && (sign == '.' || sign == ')') then
            some ⟨sign, Text.decimalValue digits, digits.length + 1, rest⟩
          else none
        | _, _ => none
    | [] => none
  match marker? with
  | some marker =>
    match marker.rest with
    | [] => some marker
    | c :: _ => if c == ' ' || c == '\t' || c == '\n' then some marker else none
  | none => none

/-- Whether the markers of a list number its items. -/
def ListMarker.ordered (sign : Char) : Bool := sign == '.' || sign == ')'

/-- What is known of the current column of a delimiter row. -/
structure ColumnState where
  alignment : Alignment := .unset
  /-- Whether nothing of the column has been read. -/
  fresh : Bool := true
  /-- Whether the column has a hyphen. -/
  hyphen : Bool := false

/-- The alignments of the columns of a delimiter row, from the given state on, with whether the row
has a pipe and a hyphen. -/
def columnAlignments? : ColumnState → (pipe hyphen : Bool) → Text → Option (List Alignment)
  | column, pipe, hyphen, [] =>
    if pipe && hyphen then some (if column.fresh then [] else [column.alignment]) else none
  | column, pipe, hyphen, c :: rest =>
    match c with
    | ' ' => columnAlignments? column pipe hyphen rest
    | ':' =>
      let alignment := match column.fresh, column.alignment with
        | true, .unset => .left
        | false, .left => .center
        | false, .unset => .right
        | _, alignment => alignment
      columnAlignments? { column with alignment, fresh := false } pipe hyphen rest
    | '-' => columnAlignments? { column with fresh := false, hyphen := true } pipe true rest
    | '|' =>
      if column.hyphen then
        (columnAlignments? {} true hyphen rest).map (column.alignment :: ·)
      else none
    | _ => none

/-- The columns of the **delimiter row** of a table, indented by at most three columns. -/
def delimiterRow? (place : Cursor) : Option (List Alignment) :=
  match place.skipUpTo 4 with
  | (4, _) => none
  | (_, place) =>
    match lineOf place.rest with
    | [] => none
    | '|' :: rest => columnAlignments? {} true false rest
    | line => columnAlignments? {} false false line

/-- The parts of a line between its pipes, from a part already begun, which is kept reversed. A
pipe behind a backslash separates nothing. -/
def splitAtPipes (part : Text) : Text → List Text
  | [] => [part.reverse]
  | c :: rest =>
    if c == '|' && part.head? != some '\\' then part.reverse :: splitAtPipes [] rest
    else splitAtPipes (c :: part) rest

/-- The source of a cell: without white space at its ends, pipes without their backslashes. -/
def cellSource (part : Text) : Text :=
  Text.replace "\\|".toList ['|'] (trimLineEnd (part.dropWhile isLineSpace))

/-- The sources of the **cells** of a row, whose first and last pipe may be left out. -/
def rowCells (s : Text) : List Text :=
  let parts := splitAtPipes [] (trimLineEnd ((lineOf s).dropWhile isLineSpace))
  let parts := if parts.head? == some [] then parts.tail else parts
  let parts := if parts.getLast? == some [] then parts.dropLast else parts
  parts.map cellSource

/-- A row with exactly `count` cells: others are dropped, missing ones are empty. -/
def fitRow (count : Nat) (cells : List Text) : List Text :=
  (cells ++ List.replicate (count - cells.length) []).take count

/-- The alignments of the **table** whose head row is `head` and whose delimiter row is at `next`,
if the two have the same number of columns and the head row has a pipe. -/
def tableStart? (head : Text) (next : Cursor) : Option (List Alignment) :=
  match delimiterRow? next with
  | some alignments =>
    if (splitAtPipes [] (lineOf head)).length > 1 && (rowCells head).length = alignments.length then
      some alignments
    else none
  | none => none

end Lectern.Markdown
