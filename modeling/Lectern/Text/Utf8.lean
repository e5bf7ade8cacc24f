import Lectern.Text

/-!
# UTF-8

Texts as bytes and back. A text has one encoding; bytes that are no encoding fall into well-formed
characters and **ill-formed parts**, each as long as the longest start of a character there.

* `encode` — the bytes of a text.
* `decode?` — the text of bytes, if they are well formed throughout.
* `decodeLossy` — the text of any bytes, an ill-formed part read as the replacement character.
-/

namespace Lectern

/-- The content of a file, or any other sequence of bytes. -/
abbrev Bytes := List UInt8

namespace Text

/-- A byte of a character that is not its first: the low six bits of `n`. -/
def continuationByte (n : Nat) : UInt8 := UInt8.ofNat (0x80 + n % 0x40)

/-- The one to four bytes of a character. -/
def encodeChar (c : Char) : Bytes :=
  let n := c.toNat
  if n < 0x80 then [UInt8.ofNat n]
  else if n < 0x800 then [UInt8.ofNat (0xC0 + n / 0x40), continuationByte n]
  else if n < 0x10000 then
    [UInt8.ofNat (0xE0 + n / 0x1000), continuationByte (n / 0x40), continuationByte n]
  else
    [UInt8.ofNat (0xF0 + n / 0x40000), continuationByte (n / 0x1000), continuationByte (n / 0x40),
      continuationByte n]

/-- The bytes of a text. -/
def encode (s : Text) : Bytes := s.flatMap encodeChar

/-- What the **first byte** of a character announces: the bits it gives, how many bytes follow,
and the range of the second byte, which keeps out long forms, halves of surrogate pairs and
numbers beyond the last character. -/
structure Lead where
  bits : Nat
  more : Nat
  low : Nat := 0x80
  high : Nat := 0xBF

/-- The announcement of a byte, if a character can start with it. -/
def lead? (byte : UInt8) : Option Lead :=
  let n := byte.toNat
  if n < 0x80 then some { bits := n, more := 0 }
  else if n < 0xC2 then none
  else if n < 0xE0 then some { bits := n - 0xC0, more := 1 }
  else if n = 0xE0 then some { bits := 0, more := 2, low := 0xA0 }
  else if n = 0xED then some { bits := 0xD, more := 2, high := 0x9F }
  else if n < 0xF0 then some { bits := n - 0xE0, more := 2 }
  else if n = 0xF0 then some { bits := 0, more := 3, low := 0x90 }
  else if n = 0xF4 then some { bits := 4, more := 3, high := 0x8F }
  else if n < 0xF4 then some { bits := n - 0xF0, more := 3 }
  else none

/-- Reads the `more` bytes that a character still needs, the next of them in the given range.
The answer is the character, or nothing if the bytes stop short, and the number of bytes read;
`taken` bytes have been read before. -/
def continueChar (bits low high : Nat) : Nat → Nat → Bytes → Option Char × Nat
  | 0, taken, _ => (some (Char.ofNat bits), taken)
  | _ + 1, taken, [] => (none, taken)
  | more + 1, taken, byte :: rest =>
    let n := byte.toNat
    if low ≤ n && n ≤ high then
      continueChar (0x40 * bits + n % 0x40) 0x80 0xBF more (taken + 1) rest
    else (none, taken)

/-- The characters and ill-formed parts of bytes, a part written as nothing; the number counts the
bytes that the last one still covers. -/
def decodeParts : Nat → Bytes → List (Option Char)
  | _, [] => []
  | covered + 1, _ :: rest => decodeParts covered rest
  | 0, byte :: rest =>
    match lead? byte with
    | none => none :: decodeParts 0 rest
    | some lead =>
      let (char?, taken) := continueChar lead.bits lead.low lead.high lead.more 0 rest
      char? :: decodeParts taken rest

/-- The text of which `bytes` are the encoding. -/
def decode? (bytes : Bytes) : Option Text := (decodeParts 0 bytes).mapM id

/-- The text of any bytes, each ill-formed part read as the replacement character. -/
def decodeLossy (bytes : Bytes) : Text := (decodeParts 0 bytes).map (·.getD '\uFFFD')

end Text

end Lectern
