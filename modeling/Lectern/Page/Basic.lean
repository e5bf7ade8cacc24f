import Lectern.Text

/-!
# Pages

What becomes of a lesson: HTML, a title, and the headings for a table of contents.
-/

namespace Lectern

/-- A **heading** in the table of contents. -/
structure Page.TocEntry where
  level : Nat
  /-- The plain text of the heading. -/
  title : Text
  id : Text
deriving Repr, DecidableEq

/-- A finished **page**. -/
structure Page where
  html : Text
  /-- The text of the first heading of level one, if it was asked for. -/
  title : Option Text
  /-- The other headings. -/
  toc : List Page.TocEntry
deriving Repr, DecidableEq

end Lectern
