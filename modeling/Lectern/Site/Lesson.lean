import Lectern.Glob
import Lectern.Unicode.Uppercase

/-!
# Lessons

A lesson is a Markdown source in the directory of the lessons or below it. It is known by its
location as seen from there, which also tells where its page goes and, if it has no heading, what
its title is.

* `Lesson.allBelow` — the lessons below a directory, in order.
* `Lesson.page` — the location of the page of a lesson.
* `Lesson.title` — the title that the name of a lesson gives.
-/

namespace Lectern

/-- A **lesson**: its location, seen from the directory of the lessons. -/
abbrev Lesson := Location

namespace Lesson

/-! ### Finding lessons -/

/-- The glob of the lessons below a directory. -/
def glob (directory : Path) : Text :=
  Glob.escape (Path.display directory) ++ "/**/*.md".toList

/-- Ordered lessons with one more. -/
def insertOrdered (lesson : Lesson) : List Lesson → List Lesson
  | [] => [lesson]
  | first :: rest =>
    if first < lesson then first :: insertOrdered lesson rest else lesson :: first :: rest

/-- Lessons in the **order** of the names on the way to them. -/
def sort (lessons : List Lesson) : List Lesson := lessons.foldr insertOrdered []

/-- The **lessons** below a directory, in order. What is found under a path that does not begin
with that of the directory is left out. -/
def allBelow (tree : FileTree) (workingDirectory directory : Path) : List Lesson :=
  sort ((Glob.search tree workingDirectory (glob directory)).filterMap
    (Path.namesBelow? directory))

/-! ### Places -/

/-- The path of a location that is seen from the directory `base`. -/
def pathIn (base : Path) (location : Location) : Path := location.foldl Path.join base

/-- The end of the names of pages. -/
def pageEnding : Bytes := Path.ofText ".html".toList

/-- The name of the page of a lesson with the given name. -/
def pageName (name : Bytes) : Bytes := (Path.splitExtension name).1 ++ pageEnding

/-- The **page** of a lesson, seen from the directory of the pages. -/
def page (lesson : Lesson) : Location :=
  match lesson.getLast? with
  | some name => lesson.dropLast ++ [pageName name]
  | none => []

/-- A location as a manifest shows it. -/
def display (location : Location) : Text := ['/'].intercalate (location.map Path.display)

/-! ### Titles -/

/-- Whether `c` stands between the words of a name. -/
def isWordBreak (c : Char) : Bool := c == '-' || c == '_' || c == ' '

/-- The words of a name that follow the unfinished word `pending`, which is kept reversed. -/
def nameWords (pending : Text) : Text → List Text
  | [] => [pending.reverse]
  | c :: rest =>
    if isWordBreak c then pending.reverse :: nameWords [] rest else nameWords (c :: pending) rest

/-- A word with its first letter in upper case. -/
def capitalize : Text → Text
  | [] => []
  | c :: rest => Unicode.toUppercase c ++ rest

/-- The title that a name gives: its words, each with an upper-case letter first. -/
def titleOf (name : Text) : Text :=
  match (nameWords [] name).filter (· != []) with
  | [] => "Untitled".toList
  | words => [' '].intercalate (words.map capitalize)

/-- The **title** that the name of a lesson gives. -/
def title (lesson : Lesson) : Text :=
  titleOf (Path.display (Path.splitExtension (lesson.getLast?.getD [])).1)

end Lesson

end Lectern
