import Lectern.Text.Digits
import Lectern.Toml.Table

/-!
# TOML Numbers, Dates and Words

The values that are written without quotes. Digits may be grouped by underscores, each between two
digits; whole numbers have up to 128 bits, and other numbers lie in the range of floating-point
numbers. Dates have to exist in the calendar, and seconds may be left out of a time.
-/

namespace Lectern.Toml

/-! ### Digits -/

/-- The digits of a group, without its underscores, if each of these stands between two digits. -/
def ungroup? (isDigit : Char → Bool) (group : Text) : Option Text :=
  let parts := Text.splitOnChar '_' group
  if parts.all fun part => !part.isEmpty && part.all isDigit then some parts.flatten else none

/-- The group of decimal digits at the start of a text. -/
def group? (s : Text) : Option (Text × Text) :=
  let group := s.takeWhile fun c => c.isDigit || c == '_'
  (ungroup? Char.isDigit group).map fun digits => (digits, s.drop group.length)

/-! ### Numbers -/

/-- The whole number `n`, if it has no more than 128 bits; a negative one has a sign among them. -/
def integer? (n : Int) : Option Toml :=
  if -(Nat.pow 2 127 : Nat) ≤ n && n < (Nat.pow 2 128 : Nat) then some (.integer n) else none

/-- The whole number with the given digits in a base. -/
def inBase? (base : Nat) (isDigit : Char → Bool) (s : Text) : Option Toml :=
  (ungroup? isDigit s).bind fun digits =>
    integer? (digits.foldl (fun n c => base * n + Text.hexDigitValue c) 0 : Nat)

/-- The exponent of a number; nothing may follow it. -/
def exponent? (s : Text) : Option Int :=
  let (negative, s) := match s with
    | '-' :: rest => (true, rest)
    | '+' :: rest => (false, rest)
    | _ => (false, s)
  match group? s with
  | some (digits, []) =>
    let n : Int := Text.decimalValue digits
    some (if negative then -n else n)
  | _ => none

/-- The part of a number after its whole part: the digits after the point, and the exponent. -/
def fraction? (s : Text) : Option (Text × Int) :=
  let tail (digits : Text) : Text → Option (Text × Int)
    | [] => some (digits, 0)
    | 'e' :: rest | 'E' :: rest => (exponent? rest).map fun e => (digits, e)
    | _ => none
  match s with
  | '.' :: rest => (group? rest).bind fun (digits, after) => tail digits after
  | _ => tail [] s

/-- A decimal number without its sign. -/
def decimal? (negative : Bool) (s : Text) : Option Toml :=
  match group? s with
  | none => none
  | some (whole, rest) =>
    if whole.head? = some '0' && whole.length != 1 then none
    else if rest.isEmpty then
      let n : Int := Text.decimalValue whole
      integer? (if negative then -n else n)
    else (fraction? rest).bind fun (digits, e) =>
      let n : Decimal := ⟨negative, Text.decimalValue (whole ++ digits), e - digits.length⟩
      if n.isFinite then some (.float n) else none

/-- A number without its sign, or one of the two that are not finite. -/
def unsigned? (negative : Bool) (s : Text) : Option Toml :=
  if s = "inf".toList || s = "nan".toList then some (.float none) else decimal? negative s

/-- A **number**. -/
def number? : Text → Option Toml
  | '+' :: rest => unsigned? false rest
  | '-' :: rest => unsigned? true rest
  | '0' :: 'x' :: rest => inBase? 16 Text.isHexDigit rest
  | '0' :: 'o' :: rest => inBase? 8 (fun c => '0' ≤ c && c ≤ '7') rest
  | '0' :: 'b' :: rest => inBase? 2 (fun c => c == '0' || c == '1') rest
  | s => unsigned? false s

/-! ### Dates and times -/

/-- The number of days of a month. -/
def daysIn (year month : Nat) : Nat :=
  if month = 2 then
    if year % 4 = 0 && (year % 100 != 0 || year % 400 = 0) then 29 else 28
  else if [4, 6, 9, 11].contains month then 30
  else 31

/-- A number of exactly `count` digits at the start of a text. -/
def fixed? (count : Nat) (s : Text) : Option (Nat × Text) :=
  let digits := s.takeWhile Char.isDigit
  if digits.length = count then some (Text.decimalValue digits, s.drop count) else none

/-- The rest of a text after `c`. -/
def after? (c : Char) : Text → Option Text
  | d :: rest => if d = c then some rest else none
  | [] => none

/-- The rest of a text after a date of the calendar. -/
def date? (s : Text) : Option Text := do
  let (year, s) ← fixed? 4 s
  let (month, s) ← fixed? 2 (← after? '-' s)
  let (day, s) ← fixed? 2 (← after? '-' s)
  if 1 ≤ month && month ≤ 12 && 1 ≤ day && day ≤ daysIn year month then some s else none

/-- The rest of a text after the seconds of a time, which may be missing or have a fraction. A
minute may have a leap second. -/
def seconds? : Text → Option Text
  | ':' :: s =>
    match fixed? 2 s with
    | none => none
    | some (second, after) =>
      if 60 < second then none
      else match after with
        | '.' :: rest =>
          if (rest.takeWhile Char.isDigit).isEmpty then none
          else some (rest.dropWhile Char.isDigit)
        | _ => some after
  | s => some s

/-- The rest of a text after hours and minutes. -/
def clock? (s : Text) : Option Text := do
  let (hour, s) ← fixed? 2 s
  let (minute, s) ← fixed? 2 (← after? ':' s)
  if hour ≤ 23 && minute ≤ 59 then some s else none

/-- The rest of a text after a time of the day. -/
def time? (s : Text) : Option Text := (clock? s).bind seconds?

/-- The rest of a text after the offset of a time, which may be missing. -/
def offset? : Text → Option Text
  | 'Z' :: rest | 'z' :: rest => some rest
  | '+' :: rest | '-' :: rest => clock? rest
  | s => some s

/-- Whether `c` stands between a date and a time. -/
def joinsTime (c : Char) : Bool := c == 'T' || c == 't' || c == ' '

/-- Whether `s` is a date, a time, or a date with a time. -/
def isMoment (s : Text) : Bool :=
  match date? s with
  | some [] => true
  | some (c :: rest) => joinsTime c && ((time? rest).bind offset?) == some []
  | none => time? s == some []

/-! ### Values without quotes -/

/-- Whether `c` can be part of a value without quotes. -/
def isScalarChar (c : Char) : Bool := c.isAlphanum || "_+-.:".toList.contains c

/-- The value that is written as `s`. -/
def scalarOf? (s : Text) : Option Toml :=
  if s = "true".toList then some (.bool true)
  else if s = "false".toList then some (.bool false)
  else if isMoment s then some (.moment s)
  else number? s

/-- A value without quotes. A date may be followed by a space and a time. -/
def scalar? (s : Text) : Option (Toml × Text) :=
  let first := s.takeWhile isScalarChar
  let rest := s.drop first.length
  let (written, after) := match rest with
    | ' ' :: c :: more =>
      if date? first = some [] && c.isDigit then
        let second := (c :: more).takeWhile isScalarChar
        (first ++ ' ' :: second, (c :: more).drop second.length)
      else (first, rest)
    | _ => (first, rest)
  (scalarOf? written).map fun value => (value, after)

end Lectern.Toml
