import Lectern.Unicode.Blank

/-!
# Text

All text of the library is the list of its characters, the form in which it can be taken apart
and reasoned about. This module has the operations that the rest shares: trimming, words,
replacement, numbers in decimal, and sizes in UTF-8 bytes.
-/

namespace Lectern

/-- A text, as the list of its characters. -/
abbrev Text := List Char

namespace Text

open Unicode (isBlank)

/-- `s` without the blank characters at its start. -/
def trimStart (s : Text) : Text := s.dropWhile isBlank

/-- `s` without the blank characters at its end. -/
def trimEnd (s : Text) : Text := (s.reverse.dropWhile isBlank).reverse

/-- `s` without the blank characters at either end. -/
def trim (s : Text) : Text := trimEnd (trimStart s)

/-- The **words** of a text that follows the unfinished word `pending`, which is kept reversed. -/
def wordsAux (pending : Text) : Text → List Text
  | [] => if pending.isEmpty then [] else [pending.reverse]
  | c :: rest =>
    if isBlank c then
      if pending.isEmpty then wordsAux [] rest else pending.reverse :: wordsAux [] rest
    else wordsAux (c :: pending) rest

/-- The maximal runs of characters that are not blank, in order. -/
def words (s : Text) : List Text := wordsAux [] s

/-- The words of `s`, one space between two of them. -/
def collapse (s : Text) : Text := [' '].intercalate (words s)

/-- Leftmost occurrences of `old` are replaced by `new`, without overlap; the number counts the
characters of the current occurrence that are still to be skipped. -/
def replaceAux (old new : Text) : Nat → Text → Text
  | _, [] => []
  | skip + 1, _ :: rest => replaceAux old new skip rest
  | 0, c :: rest =>
    if old.isPrefixOf (c :: rest) then new ++ replaceAux old new (old.length - 1) rest
    else c :: replaceAux old new 0 rest

/-- `s` with every occurrence of the non-empty text `old` replaced by `new`, from the left. -/
def replace (old new s : Text) : Text := replaceAux old new 0 s

/-- The pieces of `s` between the characters `sep`; one more piece than there are such
characters. -/
def splitOnChar (sep : Char) : Text → List Text
  | [] => [[]]
  | c :: rest =>
    if c = sep then [] :: splitOnChar sep rest
    else match splitOnChar sep rest with
      | piece :: more => (c :: piece) :: more
      | [] => [[c]]

/-- Whether `part` occurs somewhere in `s`. -/
def includes (part : Text) : Text → Bool
  | [] => part.isEmpty
  | c :: rest => part.isPrefixOf (c :: rest) || includes part rest

/-- Whether `s` ends with `tail`. -/
def endsWith (s tail : Text) : Bool := tail.reverse.isPrefixOf s.reverse

/-- The rest of `s` after the text `start`, if `s` starts with it. -/
def after? (start s : Text) : Option Text :=
  if start.isPrefixOf s then some (s.drop start.length) else none

/-- The part of `s` before the text `tail`, if `s` ends with it. -/
def before? (tail s : Text) : Option Text :=
  if s.endsWith tail then some (s.take (s.length - tail.length)) else none

/-- A number in decimal digits. -/
def decimal (n : Nat) : Text := Nat.toDigits 10 n

/-- The value of a text of decimal digits. -/
def decimalValue (digits : Text) : Nat :=
  digits.foldl (fun n c => 10 * n + (c.toNat - '0'.toNat)) 0

/-- The number of bytes of `s` in UTF-8. -/
def byteLength : Text → Nat
  | [] => 0
  | c :: rest => c.utf8Size + byteLength rest

/-- The two parts of `s` at a distance of `n` bytes from its start; nothing if `s` is shorter
or if the place lies inside a character. -/
def cutAtByte? : Nat → Text → Option (Text × Text)
  | 0, s => some ([], s)
  | _ + 1, [] => none
  | n + 1, c :: rest =>
    if c.utf8Size ≤ n + 1 then
      (cutAtByte? (n + 1 - c.utf8Size) rest).map fun (left, right) => (c :: left, right)
    else none

end Text

end Lectern
