/-!
# Ranges of code points

Properties of characters above ASCII are tables of ranges, and case mappings are tables of
runs. ASCII is always decided by rule, before any table is consulted.
-/

namespace Lectern.Unicode

/-- The code points from the first number up to and including the second. -/
abbrev CodeRange := Nat × Nat

/-- Whether some range of the table holds the code point. -/
def inRanges (table : List CodeRange) (code : Nat) : Bool :=
  table.any fun range => range.1 ≤ code && code ≤ range.2

/-- A **case run**: every `step`-th code point from `first` to `last` maps to the one that lies
`delta` further on. -/
structure CaseRun where
  first : Nat
  last : Nat
  step : Nat
  delta : Int
deriving Repr

/-- Whether the run maps the code point. -/
def CaseRun.covers (run : CaseRun) (code : Nat) : Bool :=
  run.first ≤ code && code ≤ run.last && (code - run.first) % run.step == 0

/-- The character that the first covering run gives for `c`, or `c` itself. -/
def mapByRuns (table : List CaseRun) (c : Char) : Char :=
  match table.find? (·.covers c.toNat) with
  | some run => Char.ofNat ((c.toNat : Int) + run.delta).toNat
  | none => c

/-- The ASCII characters that are neither letters, digits, blanks nor control characters. -/
def isAsciiPunctuation (c : Char) : Bool :=
  33 ≤ c.val && c.val ≤ 126 && !c.isAlphanum

end Lectern.Unicode
