import Lectern.Text

/-!
# Spaces, Comments and Lines

What stands between the tokens of a TOML document. A line ends with a line feed, which may have a
carriage return before it; a carriage return alone is an error everywhere.
-/

namespace Lectern.Toml

/-- Whether `c` separates tokens within a line. -/
def isSpace (c : Char) : Bool := c == ' ' || c == '\t'

/-- Whether `c` may stand in comments and strings as itself. -/
def isVisible (c : Char) : Bool := c == '\t' || (0x20 ≤ c.toNat && c.toNat != 0x7F)

/-- The rest of a line after spaces. -/
def skipSpaces (s : Text) : Text := s.dropWhile isSpace

/-- The rest of a text after spaces, comments and line ends. -/
def skipBlank (inComment : Bool) : Text → Option Text
  | [] => some []
  | '\n' :: rest => skipBlank false rest
  | '\r' :: '\n' :: rest => skipBlank false rest
  | c :: rest =>
    if inComment then if isVisible c then skipBlank true rest else none
    else if isSpace c then skipBlank false rest
    else if c == '#' then skipBlank true rest
    else some (c :: rest)

/-- The rest of a text after the end of the line, before which only spaces and a comment may
stand. -/
def endLine (inComment : Bool) : Text → Option Text
  | [] => some []
  | '\n' :: rest => some rest
  | '\r' :: '\n' :: rest => some rest
  | c :: rest =>
    if inComment then if isVisible c then endLine true rest else none
    else if isSpace c then endLine false rest
    else if c == '#' then endLine true rest
    else none

/-- The rest of a text without a line end at its start. -/
def dropLineEnd : Text → Text
  | '\n' :: rest => rest
  | '\r' :: '\n' :: rest => rest
  | s => s

end Lectern.Toml
