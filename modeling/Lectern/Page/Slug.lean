import Lectern.Text
import Lectern.Unicode.Alphanumeric
import Lectern.Unicode.Lowercase

/-!
# Slugs

The id of a heading is the slug of its text: its letters and digits in lower case, and one hyphen
wherever blanks, hyphens or underscores separate two of them. Other characters are dropped. A
`SlugLedger` tells repeated slugs of one document apart by a number.
-/

namespace Lectern.Page

open Unicode (isAlphanumeric isBlank toLowercase)

/-- Whether `c` separates the words of a slug. -/
def isSlugBreak (c : Char) : Bool := isBlank c || c == '-' || c == '_'

/-- The slug of a text: `started` once a character has been kept, `pending` when a break has been
passed since the last one. -/
def slugChars : (started pending : Bool) → Text → Text
  | _, _, [] => []
  | started, pending, c :: rest =>
    if isAlphanumeric c then
      (if started && pending then ['-'] else []) ++ toLowercase c ++ slugChars true false rest
    else slugChars started (pending || isSlugBreak c) rest

/-- The **slug** of a text. -/
def slugify (s : Text) : Text := slugChars false false (Text.trim s)

/-- The slugs of a document so far, each with the number of its repetitions. -/
abbrev SlugLedger := List (Text × Nat)

/-- The ledger after one more repetition of a slug that it holds. -/
def SlugLedger.repeated (ledger : SlugLedger) (base : Text) : SlugLedger :=
  ledger.map fun (slug, count) => if slug = base then (slug, count + 1) else (slug, count)

/-- The **id** of the next heading of a document, and the ledger after it. The first heading with
a slug gets the slug itself, a later one the slug with its number. -/
def SlugLedger.next (ledger : SlugLedger) (s : Text) : Text × SlugLedger :=
  let base := slugify s
  match ledger.lookup base with
  | some count => (base ++ '-' :: Text.decimal (count + 1), ledger.repeated base)
  | none => (base, ledger ++ [(base, 0)])

end Lectern.Page
