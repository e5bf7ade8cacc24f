import Lectern.Path
import Lectern.Text.Digits

/-!
# File URLs

Absolute paths as `file:` URLs and back. A URL writes the bytes of a path that have a meaning of
their own, or none in plain text, as a percent sign and two hexadecimal digits.

* `ofPath?` — the URL of an absolute path.
* `toPath?` — the path of a URL, read as a browser reads it: backslashes are slashes, tabs and line
  ends do not count, dots are resolved, and what follows a question mark or a number sign is
  dropped.
-/

namespace Lectern.FileUrl

open Lectern.Path (slash)

/-! ### Percent signs -/

/-- Whether a byte of a path stands in a URL as itself. -/
def isPlain (b : UInt8) : Bool :=
  let n := b.toNat
  0x20 < n && n < 0x7F && !("\"<>\x60#?\x7b\x7d/%\\".toList.contains (Char.ofNat n))

/-- A hexadecimal digit in upper case. -/
def upperDigit (n : Nat) : Char :=
  if n < 10 then Char.ofNat ('0'.toNat + n) else Char.ofNat ('A'.toNat + (n - 10))

/-- A byte as it stands in a URL. -/
def encodeByte (b : UInt8) : Text :=
  if isPlain b then [Char.ofNat b.toNat]
  else ['%', upperDigit (b.toNat / 16), upperDigit (b.toNat % 16)]

/-- A name as it stands in a URL. -/
def encodeName (name : Bytes) : Text := name.flatMap encodeByte

/-- The bytes of a part of a URL. A percent sign without two digits stands for itself. -/
def decodeName : Text → Bytes
  | '%' :: high :: low :: rest =>
    if Text.isHexDigit high && Text.isHexDigit low then
      UInt8.ofNat (16 * Text.hexDigitValue high + Text.hexDigitValue low) :: decodeName rest
    else 0x25 :: decodeName (high :: low :: rest)
  | c :: rest => Text.encodeChar c ++ decodeName rest
  | [] => []

/-! ### From paths to URLs -/

/-- The URL of an absolute path. A path that is not absolute has none. -/
def ofPath? (p : Path) : Option Text :=
  if Path.isAbsolute p then
    let names := ((Path.components p).drop 1).map fun c => '/' :: encodeName c.bytes
    some ("file://".toList ++ (if names.isEmpty then ['/'] else names.flatten))
  else none

/-! ### From URLs to paths -/

/-- Whether `c` is dropped at both ends of a URL. -/
def isEdge (c : Char) : Bool := c.toNat ≤ 0x20

/-- The characters of a URL that count. -/
def clean (url : Text) : Text :=
  let trimmed := ((url.dropWhile isEdge).reverse.dropWhile isEdge).reverse
  trimmed.filter fun c => c != '\t' && c != '\n' && c != '\r'

/-- A Latin letter in lower case; other characters stay. -/
def lowerLetter (c : Char) : Char := if 'A' ≤ c && c ≤ 'Z' then Char.ofNat (c.toNat + 32) else c

/-- What follows the scheme of a `file:` URL. -/
def afterScheme? (s : Text) : Option Text :=
  if (s.take 5).map lowerLetter = "file:".toList then some (s.drop 5) else none

/-- Whether `c` separates names. -/
def isSeparator (c : Char) : Bool := c == '/' || c == '\\'

/-- Whether the path of a URL ends before `c`. -/
def endsPath (c : Char) : Bool := c == '?' || c == '#'

/-- Whether `s` is a **drive**: a Latin letter and a colon or a bar. -/
def isDrive : Text → Bool
  | [letter, mark] => letter.isAlpha && (mark == ':' || mark == '|')
  | _ => false

/-- The segments of the path of a URL. -/
def pathSegments : Text → List Text
  | [] => [[]]
  | c :: rest =>
    if isSeparator c then [] :: pathSegments rest
    else match pathSegments rest with
      | segment :: more => (c :: segment) :: more
      | [] => [[c]]

/-- A segment with its percent signs for dots resolved, in lower case; the value matters only for
segments of dots. -/
def dotted : Text → Text
  | '%' :: '2' :: 'e' :: rest | '%' :: '2' :: 'E' :: rest => '.' :: dotted rest
  | c :: rest => c :: dotted rest
  | [] => []

/-- The segments without the last one, unless that is a drive. -/
def popSegment (segments : List Text) : List Text :=
  match segments with
  | [] => []
  | last :: before => if isDrive last then segments else before

/-- A segment as it is kept: a drive at the start of a path gets a colon. -/
def keepSegment (done : List Text) (segment : Text) : Text :=
  if done.isEmpty && isDrive segment then segment.take 1 ++ [':'] else segment

/-- Resolves segments of dots. `done` holds the segments before, nearest first; a segment of dots
at the end of the path leaves an empty one behind. -/
def resolveDots (done : List Text) : List Text → List Text
  | [] => done.reverse
  | segment :: rest =>
    if dotted segment = ['.', '.'] then
      if rest.isEmpty then ([] :: popSegment done).reverse else resolveDots (popSegment done) rest
    else if dotted segment = ['.'] then
      if rest.isEmpty then ([] :: done).reverse else resolveDots done rest
    else resolveDots (keepSegment done segment :: done) rest

/-- The path that the segments of a URL name. One that ends in a drive gets a slash. -/
def ofSegments (segments : List Text) : Path :=
  let named := match segments.dropWhile List.isEmpty with
    | [] => [[]]
    | named => named
  let bytes := named.flatMap fun segment => slash :: decodeName segment
  let tail := (bytes.drop (bytes.length - 2)).map fun b => Char.ofNat b.toNat
  if 2 < bytes.length && isDrive tail then bytes ++ [slash] else bytes

/-- The path of a URL whose segments are read. -/
def ofRawSegments (segments : List Text) : Path :=
  ofSegments (resolveDots [] segments)

/-- The host `localhost`, which may be written with capitals and percent signs. -/
def isLocalHost (host : Text) : Bool :=
  ((Text.decodeLossy (decodeName host)).map lowerLetter) = "localhost".toList

/-- Whether `host` can be the name or the number of a host at all. -/
def isHost (host : Text) : Bool :=
  match Text.decode? (decodeName host) with
  | none => false
  | some ('[' :: rest) =>
    rest.getLast? == some ']' &&
      rest.dropLast.all fun c => Text.isHexDigit c || c == ':' || c == '.'
  | some name =>
    name.all fun c => 0x20 < c.toNat && c.toNat != 0x7F && !("#%/:<>?@[\\]^|".toList.contains c)

/-- The path that follows two slashes: first a host, which must be this one unless a drive follows
it. -/
def afterSlashes? (s : Text) : Option Path :=
  let host := s.takeWhile fun c => !isSeparator c
  let path := s.drop host.length
  if isDrive host then some (ofRawSegments (pathSegments s))
  else
    let segments := resolveDots [] ((pathSegments path).drop 1)
    if host.isEmpty || isLocalHost host || (isHost host && segments.head?.any isDrive) then
      some (ofSegments segments)
    else none

/-- The **path** of a `file:` URL. URLs of other schemes and of other hosts have none. -/
def toPath? (url : Text) : Option Path := do
  let rest ← afterScheme? (clean url)
  match rest.takeWhile (!endsPath ·) with
  | a :: b :: s =>
    if isSeparator a && isSeparator b then afterSlashes? s
    else if isSeparator a then some (ofRawSegments (pathSegments (b :: s)))
    else some (ofRawSegments (pathSegments (a :: b :: s)))
  | [a] => some (ofRawSegments (if isSeparator a then [[]] else [[a]]))
  | [] => some (ofRawSegments [[]])

end Lectern.FileUrl
