import Lectern.Json.Value
import Lectern.Text.Digits

/-!
# Reading JSON

The grammar of JSON without extensions. Every reader takes the text from a place and answers with
what it read and the rest; a budget of one step for each character bounds the nesting, and no text
needs more.

* `Json.parse?` — the value of a whole document.
-/

namespace Lectern.Json

/-- Whether `c` may stand between tokens. -/
def isSpace (c : Char) : Bool := c == ' ' || c == '\t' || c == '\n' || c == '\r'

/-- The rest of a text after spaces. -/
def skipSpaces (s : Text) : Text := s.dropWhile isSpace

/-! ### Strings -/

/-- The character that a backslash and a letter stand for. -/
def escape? : Char → Option Char
  | '"' => some '"'
  | '\\' => some '\\'
  | '/' => some '/'
  | 'b' => some '\x08'
  | 'f' => some '\x0c'
  | 'n' => some '\n'
  | 'r' => some '\r'
  | 't' => some '\t'
  | _ => none

/-- The **units** of a string, up to its closing quote: numbers of characters, and of halves of
surrogate pairs. -/
def units? : Text → Option (List Nat × Text)
  | '"' :: rest => some ([], rest)
  | '\\' :: 'u' :: a :: b :: c :: d :: rest =>
    if [a, b, c, d].all Text.isHexDigit then
      (units? rest).map fun (units, after) => (Text.hexValue [a, b, c, d] :: units, after)
    else none
  | '\\' :: c :: rest =>
    match escape? c with
    | some e => (units? rest).map fun (units, after) => (e.toNat :: units, after)
    | none => none
  | c :: rest =>
    if c.toNat < 0x20 || c == '\\' then none
    else (units? rest).map fun (units, after) => (c.toNat :: units, after)
  | [] => none

/-- Whether a unit is the first half of a surrogate pair. -/
def isHighHalf (n : Nat) : Bool := 0xD800 ≤ n && n < 0xDC00

/-- Whether a unit is the second half of a surrogate pair. -/
def isLowHalf (n : Nat) : Bool := 0xDC00 ≤ n && n < 0xE000

/-- The text of units, if every half has its partner. -/
def joinUnits? : List Nat → Option Text
  | [] => some []
  | high :: low :: rest =>
    if isHighHalf high && isLowHalf low then
      (joinUnits? rest).map
        (Char.ofNat (0x10000 + 0x400 * (high - 0xD800) + (low - 0xDC00)) :: ·)
    else if isHighHalf high || isLowHalf high then none
    else (joinUnits? (low :: rest)).map (Char.ofNat high :: ·)
  | [unit] => if isHighHalf unit || isLowHalf unit then none else some [Char.ofNat unit]

/-- The string after an opening quote. -/
def string? (s : Text) : Option (Option Text × Text) :=
  (units? s).map fun (units, rest) => (joinUnits? units, rest)

/-! ### Numbers -/

/-- A run of one or more digits. -/
def digits? (s : Text) : Option (Text × Text) :=
  match s.takeWhile Char.isDigit with
  | [] => none
  | digits => some (digits, s.drop digits.length)

/-- The digits before the point, which start with zero only if they are zero. -/
def whole? : Text → Option (Text × Text)
  | '0' :: rest => some (['0'], rest)
  | s => digits? s

/-- The digits after the point, if there is one. -/
def fraction? : Text → Option (Text × Text)
  | '.' :: rest => digits? rest
  | s => some ([], s)

/-- The exponent after its letter. -/
def signedExponent? : Text → Option (Int × Text)
  | '-' :: rest =>
    (digits? rest).map fun (digits, after) => (-(Text.decimalValue digits : Int), after)
  | '+' :: rest =>
    (digits? rest).map fun (digits, after) => ((Text.decimalValue digits : Int), after)
  | s => (digits? s).map fun (digits, after) => ((Text.decimalValue digits : Int), after)

/-- The exponent, zero if there is none. -/
def exponent? : Text → Option (Int × Text)
  | 'e' :: rest | 'E' :: rest => signedExponent? rest
  | s => some (0, s)

/-- The number after its sign. -/
def unsigned? (negative : Bool) (s : Text) : Option (Json × Text) := do
  let (whole, s) ← whole? s
  let (fraction, s) ← fraction? s
  let (exponent, s) ← exponent? s
  some (.number ⟨negative, Text.decimalValue (whole ++ fraction), exponent - fraction.length⟩, s)

/-- A value that is a word or a number. -/
def scalar? (s : Text) : Option (Json × Text) :=
  match s with
  | 't' :: 'r' :: 'u' :: 'e' :: rest => some (.bool true, rest)
  | 'f' :: 'a' :: 'l' :: 's' :: 'e' :: rest => some (.bool false, rest)
  | 'n' :: 'u' :: 'l' :: 'l' :: rest => some (.null, rest)
  | '-' :: rest => unsigned? true rest
  | _ => unsigned? false s

/-! ### Values -/

mutual

/-- A value, after spaces. -/
def value? : Nat → Text → Option (Json × Text)
  | 0, _ => none
  | fuel + 1, s =>
    match skipSpaces s with
    | '[' :: rest =>
      match skipSpaces rest with
      | ']' :: after => some (.array [], after)
      | _ => (items? fuel rest).map fun (items, after) => (.array items, after)
    | '\x7b' :: rest =>
      match skipSpaces rest with
      | '\x7d' :: after => some (.object [], after)
      | _ => (members? fuel rest).map fun (members, after) => (.object members, after)
    | '"' :: rest => (string? rest).map fun (text?, after) => (.string text?, after)
    | other => scalar? other

/-- The items of an array up to its end. -/
def items? : Nat → Text → Option (List Json × Text)
  | 0, _ => none
  | fuel + 1, s =>
    match value? fuel s with
    | none => none
    | some (item, rest) =>
      match skipSpaces rest with
      | ',' :: more => (items? fuel more).map fun (items, after) => (item :: items, after)
      | ']' :: after => some ([item], after)
      | _ => none

/-- The members of an object up to its end. -/
def members? : Nat → Text → Option (List (Option Text × Json) × Text)
  | 0, _ => none
  | fuel + 1, s =>
    match skipSpaces s with
    | '"' :: rest =>
      match string? rest with
      | none => none
      | some (key, rest) =>
        match skipSpaces rest with
        | ':' :: rest =>
          match value? fuel rest with
          | none => none
          | some (value, rest) =>
            match skipSpaces rest with
            | ',' :: more =>
              (members? fuel more).map fun (members, after) => ((key, value) :: members, after)
            | '\x7d' :: after => some ([(key, value)], after)
            | _ => none
        | _ => none
    | _ => none

end

/-- The value of a **document**: one value, and nothing else but spaces. -/
def parse? (s : Text) : Option Json :=
  match value? (s.length + 1) s with
  | some (value, rest) => if (skipSpaces rest).isEmpty then some value else none
  | none => none

end Lectern.Json
