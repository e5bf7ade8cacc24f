import Lectern.Json.Value
import Lectern.Text.Digits

/-!
# Writing JSON

Two forms of one document: `compact`, without any space, and `pretty`, with one item or member a
line and two spaces for each level. Both write characters outside of ASCII as themselves.
-/

namespace Lectern.Json

/-- A number in four hexadecimal digits. -/
def fourDigits (n : Nat) : Text :=
  let digits := Text.hexadecimal n
  List.replicate (4 - digits.length) '0' ++ digits

/-- A character as it stands in a string. -/
def printChar (c : Char) : Text :=
  if c = '"' then ['\\', '"']
  else if c = '\\' then ['\\', '\\']
  else if c = '\x08' then ['\\', 'b']
  else if c = '\x0c' then ['\\', 'f']
  else if c = '\n' then ['\\', 'n']
  else if c = '\r' then ['\\', 'r']
  else if c = '\t' then ['\\', 't']
  else if c.toNat < 0x20 then '\\' :: 'u' :: fourDigits c.toNat
  else [c]

/-- A string in quotes. -/
def printText (s : Text) : Text := '"' :: s.flatMap printChar ++ ['"']

/-- A string that is a text, or the first half of a surrogate pair in the place of one that is
not. -/
def printString : Option Text → Text
  | some s => printText s
  | none => "\"\\ud800\"".toList

/-- A number. -/
def printNumber (n : Decimal) : Text :=
  (if n.negative then ['-'] else []) ++ Text.decimal n.digits ++
    (if n.exponent = 0 then []
      else if n.exponent < 0 then 'e' :: '-' :: Text.decimal n.exponent.natAbs
      else 'e' :: Text.decimal n.exponent.natAbs)

mutual

/-- A document in one line without spaces. -/
def compact : Json → Text
  | .null => "null".toList
  | .bool true => "true".toList
  | .bool false => "false".toList
  | .number n => printNumber n
  | .string s => printString s
  | .array [] => ['[', ']']
  | .array (item :: rest) => '[' :: compact item ++ compactItems rest
  | .object [] => ['\x7b', '\x7d']
  | .object ((key, value) :: rest) =>
    '\x7b' :: printString key ++ ':' :: compact value ++ compactMembers rest

/-- The items of an array after the first, and its end. -/
def compactItems : List Json → Text
  | [] => [']']
  | item :: rest => ',' :: compact item ++ compactItems rest

/-- The members of an object after the first, and its end. -/
def compactMembers : List (Option Text × Json) → Text
  | [] => ['\x7d']
  | (key, value) :: rest => ',' :: printString key ++ ':' :: compact value ++ compactMembers rest

end

/-- A new line at a level. -/
def lineAt (level : Nat) : Text := '\n' :: List.replicate (2 * level) ' '

mutual

/-- A value that stands at a level. -/
def prettyAt (level : Nat) : Json → Text
  | .null => "null".toList
  | .bool true => "true".toList
  | .bool false => "false".toList
  | .number n => printNumber n
  | .string s => printString s
  | .array [] => ['[', ']']
  | .array (item :: rest) =>
    '[' :: lineAt (level + 1) ++ prettyAt (level + 1) item ++ prettyItems level rest
  | .object [] => ['\x7b', '\x7d']
  | .object ((key, value) :: rest) =>
    '\x7b' :: lineAt (level + 1) ++ printString key ++ ':' :: ' ' :: prettyAt (level + 1) value ++
      prettyMembers level rest

/-- The items of an array after the first, and its end. -/
def prettyItems (level : Nat) : List Json → Text
  | [] => lineAt level ++ [']']
  | item :: rest =>
    ',' :: lineAt (level + 1) ++ prettyAt (level + 1) item ++ prettyItems level rest

/-- The members of an object after the first, and its end. -/
def prettyMembers (level : Nat) : List (Option Text × Json) → Text
  | [] => lineAt level ++ ['\x7d']
  | (key, value) :: rest =>
    ',' :: lineAt (level + 1) ++ printString key ++ ':' :: ' ' :: prettyAt (level + 1) value ++
      prettyMembers level rest

end

/-- A document with one item or member a line. -/
def pretty (document : Json) : Text := prettyAt 0 document

end Lectern.Json
