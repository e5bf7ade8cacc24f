import Lectern.Text.Digits
import Lectern.Toml.Space

/-!
# TOML Strings

Strings of four kinds: with or without escapes, on one line or on several. A string on several
lines starts and ends with three quotes; up to two more of them at its end belong to it. Its first
line end does not count if it follows the opening quotes, and a backslash at the end of a line
takes the blank characters after it away.
-/

namespace Lectern.Toml

/-! ### Escapes -/

/-- The character with the code that `count` digits give, and the number of characters read, the
letter before them included. -/
def codeEscape? (count : Nat) (s : Text) : Option (Char × Nat) :=
  let digits := s.take count
  let code := Text.hexValue digits
  if digits.length = count && digits.all Text.isHexDigit && decide (code.isValidChar) then
    some (Char.ofNat code, count + 1)
  else none

/-- The character that an escape stands for, and the number of characters after the backslash. -/
def escape? : Text → Option (Char × Nat)
  | 'b' :: _ => some ('\x08', 1)
  | 't' :: _ => some ('\t', 1)
  | 'n' :: _ => some ('\n', 1)
  | 'f' :: _ => some ('\x0c', 1)
  | 'r' :: _ => some ('\r', 1)
  | 'e' :: _ => some ('\x1b', 1)
  | '"' :: _ => some ('"', 1)
  | '\\' :: _ => some ('\\', 1)
  | 'x' :: rest => codeEscape? 2 rest
  | 'u' :: rest => codeEscape? 4 rest
  | 'U' :: rest => codeEscape? 8 rest
  | _ => none

/-- A read string with a character in front. -/
def prepend (c : Char) (read : Option (Text × Text)) : Option (Text × Text) :=
  read.map fun (value, rest) => (c :: value, rest)

/-! ### Strings on one line -/

/-- The rest of a string with escapes, and what follows it; the number counts the characters that
the last escape still covers. -/
def basicText? : Nat → Text → Option (Text × Text)
  | _, [] => none
  | covered + 1, _ :: rest => basicText? covered rest
  | 0, c :: rest =>
    if c = '"' then some ([], rest)
    else if c = '\\' then
      match escape? rest with
      | some (value, length) => prepend value (basicText? length rest)
      | none => none
    else if isVisible c then prepend c (basicText? 0 rest)
    else none

/-- The rest of a string without escapes, and what follows it. -/
def literalText? (s : Text) : Option (Text × Text) :=
  let value := s.takeWhile fun c => isVisible c && c != '\''
  match s.drop value.length with
  | '\'' :: rest => some (value, rest)
  | _ => none

/-! ### Strings on several lines -/

/-- The end of a string on several lines at this place: the quotes that belong to the string, and
what follows it. -/
def longEnd? (quote : Char) (s : Text) : Option (Text × Text) :=
  let quotes := s.takeWhile (· == quote)
  if quotes.length < 3 then none
  else
    let extra := min (quotes.length - 3) 2
    some (List.replicate extra quote, s.drop (3 + extra))

/-- What a string on several lines does with blank characters: it keeps them, it waits for the end
of a line whose last character was a backslash, or it drops them after such a line. -/
inductive BlankMode where
  | keep
  | awaitLineEnd
  | drop
deriving DecidableEq, Repr

/-- Whether a backslash before `s` stands at the end of its line. -/
def endsWithBackslash (s : Text) : Bool :=
  match skipSpaces s with
  | '\n' :: _ => true
  | '\r' :: '\n' :: _ => true
  | _ => false

/-- The rest of a string with escapes on several lines, and what follows it; the number counts the
characters that the last escape still covers. -/
def longBasicText? : Nat → BlankMode → Text → Option (Text × Text)
  | _, _, [] => none
  | covered + 1, mode, _ :: rest => longBasicText? covered mode rest
  | 0, mode, c :: rest =>
    if c = '\n' then
      if mode = .keep then prepend c (longBasicText? 0 .keep rest)
      else longBasicText? 0 .drop rest
    else if c = '\r' then
      if rest.head? = some '\n' then
        if mode = .keep then prepend c (longBasicText? 0 .keep rest)
        else longBasicText? 0 mode rest
      else none
    else if mode != .keep && isSpace c then longBasicText? 0 mode rest
    else if mode = .awaitLineEnd then none
    else if c = '\\' then
      if endsWithBackslash rest then longBasicText? 0 .awaitLineEnd rest
      else match escape? rest with
        | some (value, length) => prepend value (longBasicText? length .keep rest)
        | none => none
    else match longEnd? '"' (c :: rest) with
      | some finish => some finish
      | none => if isVisible c then prepend c (longBasicText? 0 .keep rest) else none

/-- The rest of a string without escapes on several lines, and what follows it. -/
def longLiteralText? : Text → Option (Text × Text)
  | [] => none
  | c :: rest =>
    match longEnd? '\'' (c :: rest) with
    | some finish => some finish
    | none =>
      if isVisible c || c == '\n' || (c == '\r' && rest.head? == some '\n') then
        prepend c (longLiteralText? rest)
      else none

/-! ### All strings -/

/-- A string on one line, after spaces. -/
def line? : Text → Option (Text × Text)
  | '"' :: rest => basicText? 0 rest
  | '\'' :: rest => literalText? rest
  | _ => none

/-- A string of any kind. -/
def string? : Text → Option (Text × Text)
  | '"' :: '"' :: '"' :: rest => longBasicText? 0 .keep (dropLineEnd rest)
  | '\'' :: '\'' :: '\'' :: rest => longLiteralText? (dropLineEnd rest)
  | s => line? s

end Lectern.Toml
