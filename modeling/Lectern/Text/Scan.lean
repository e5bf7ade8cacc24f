import Lectern.Text
import Lectern.Unicode.Word

/-!
# Scanning for Occurrences

Every rule that rewrites the source of a page works alike: it walks the text from left to right,
and at each place that no earlier occurrence covers it asks whether an occurrence starts there.
A **finder** answers that question; `pieces` is the walk. What is found and what is kept stand in
the order of the text, so a rewrite is a `flatMap` over the pieces.

* `pieces` — the text as kept characters and occurrences, from the left, without overlap.
* `quoted?` — the finder of the inline markers, a letter sign before a body in backticks.
-/

namespace Lectern.Text

open Unicode (isWord)

/-- A **finder**: given the text before a place, nearest character first, and the text from it,
the occurrence that starts there and the number of characters it takes. -/
abbrev Finder (α : Type) := Text → Text → Option (α × Nat)

/-- A part of a scanned text: a character that no occurrence covers, or an occurrence. -/
inductive Piece (α : Type) where
  | kept (c : Char)
  | hit (occurrence : α)
deriving Repr

/-- The pieces of a text that follows `before`; the number counts the characters that the last
occurrence still covers. -/
def piecesFrom {α : Type} (find : Finder α) : Text → Nat → Text → List (Piece α)
  | _, _, [] => []
  | before, covered + 1, c :: rest => piecesFrom find (c :: before) covered rest
  | before, 0, c :: rest =>
    match find before (c :: rest) with
    | some (occurrence, length) =>
      .hit occurrence :: piecesFrom find (c :: before) (length - 1) rest
    | none => .kept c :: piecesFrom find (c :: before) 0 rest

/-- The **pieces** of a text: the leftmost occurrences that do not overlap, and between them
the characters that are kept. -/
def pieces {α : Type} (find : Finder α) (s : Text) : List (Piece α) := piecesFrom find [] 0 s

/-- The occurrence of a piece, if it is one. -/
def Piece.occurrence? {α : Type} : Piece α → Option α
  | .kept _ => none
  | .hit occurrence => some occurrence

/-- The text of a piece, when occurrences are written by `write`. -/
def Piece.render {α : Type} (write : α → Text) : Piece α → Text
  | .kept c => [c]
  | .hit occurrence => write occurrence

/-- The scanned text with its occurrences rewritten. -/
def rewriteHits {α : Type} (write : α → Text) (ps : List (Piece α)) : Text :=
  ps.flatMap (Piece.render write)

/-- The occurrences alone, in order. -/
def hits {α : Type} (ps : List (Piece α)) : List α := ps.filterMap Piece.occurrence?

/-- Whether a word character at this place would start a word: the character before it, if any,
is not a word character. -/
def atWordEdge (before : Text) : Bool :=
  match before with
  | [] => true
  | c :: _ => !isWord c

/-- Whether `c` can stand inside a quoted body, which ends with its line. -/
def isQuotable (c : Char) : Bool := c != '\x60' && c != '\n'

/-- The body of a **quoted** occurrence: `opening` (which ends in a backtick) at the edge of a
word, a non-empty body on the same line, and a closing backtick. -/
def quoted? (opening : Text) : Finder Text := fun before s =>
  if atWordEdge before then
    match after? opening s with
    | some rest =>
      let body := rest.takeWhile isQuotable
      match body, rest.drop body.length with
      | _ :: _, '\x60' :: _ => some (body, opening.length + body.length + 1)
      | _, _ => none
    | none => none
  else none

end Lectern.Text
