import Lectern.Directive

/-!
# Finding Directives

The inline shapes are quoted bodies after an `l` or a `dL`. The fenced shapes are blocks of lines:
an opening fence at the start of a line, their body, and a closing fence alone on its line. A
listing's body is one line, the file. An interactive body is a line with the context, a line with
the title after three dashes, and the expression, which runs up to the nearest closing fence.

All shapes are looked for in one walk, so a marker inside a fenced body is part of that body. A
listing without a file is passed over whole and stays as it is.

* `Directive.scan` — the directives of a text in order.
* `Directive.expand` — the text with each directive replaced by its markup.
-/

namespace Lectern.Directive

open Text
open Unicode (isBlank)

/-- An **occurrence** of a directive's shape in a text. -/
inductive Occurrence where
  | usable (directive : Directive)
  /-- A listing that names no file, with its source. -/
  | hollow (source : Text)
deriving Repr, DecidableEq

/-- The directive of an occurrence, if it can be used. -/
def Occurrence.directive? : Occurrence → Option Directive
  | .usable directive => some directive
  | .hollow _ => none

/-- Whether a place is at the start of a line. -/
def atLineStart (before : Text) : Bool :=
  match before with
  | [] => true
  | c :: _ => c == '\n'

/-- Whether `c` can follow a fence on its line. -/
def isFencePadding (c : Char) : Bool := c == ' ' || c == '\t'

/-- The line that `s` starts with, without its end. -/
def line (s : Text) : Text := s.takeWhile (· != '\n')

/-- The text after the first line of `s`; nothing if that line is the last. -/
def nextLine? (s : Text) : Option Text :=
  match s.dropWhile (· != '\n') with
  | _ :: rest => some rest
  | [] => none

/-- Whether the first line of `s` is a **closing fence**. -/
def startsWithCloser (s : Text) : Bool :=
  match after? "```".toList s with
  | some rest => (line rest).all isFencePadding
  | none => false

/-- The text after the line of an opening fence with the given tag. -/
def afterOpener? (tag s : Text) : Option Text :=
  match after? ("```".toList ++ tag) s with
  | some rest => if (line rest).all isFencePadding then nextLine? rest else none
  | none => none

/-- The length of the line that `s` starts with, which is the last of an occurrence, when the
whole occurrence started with `whole`. -/
def lengthThroughLine (whole s : Text) : Nat := whole.length - s.length + (line s).length

/-- The finder of listings. -/
def listing? : Finder Occurrence := fun before s =>
  if atLineStart before then
    match afterOpener? "lambda-defs".toList s with
    | some body =>
      match nextLine? body with
      | some last =>
        if startsWithCloser last then
          let file := trim (line body)
          let length := lengthThroughLine s last
          if file.isEmpty then some (.hollow (s.take length), length)
          else some (.usable (.listing file), length)
        else none
      | none => none
    | none => none
  else none

/-- The expression of an interactive block and the text from its closing fence: the shortest
text that a line end and a closing fence follow. -/
def expression? : Text → Option (Text × Text)
  | [] => none
  | c :: rest =>
    if c == '\n' && startsWithCloser rest then some ([], rest)
    else (expression? rest).map fun (body, last) => (c :: body, last)

/-- The finder of interactive blocks. -/
def interactive? : Finder Occurrence := fun before s =>
  if atLineStart before then
    match afterOpener? "lambda-interactive".toList s with
    | some contextOn =>
      match (nextLine? contextOn).bind (after? "---".toList) with
      | some titleOn =>
        match (nextLine? titleOn).bind expression? with
        | some (expression, last) =>
          some (.usable (.interactive (trim (line contextOn)) (trim (line titleOn))
            (trimEnd expression)), lengthThroughLine s last)
        | none => none
      | none => none
    | none => none
  else none

/-- Whether nothing but blanks stands before a place on its line, and on `rest` up to its line
end. -/
def standsAlone (before rest : Text) : Bool :=
  (line before).all isBlank && (line rest).all isBlank

/-- The finder of definitions. -/
def definition? : Finder Occurrence := fun before s =>
  (quoted? "dL`".toList before s).map fun (body, length) =>
    (.usable (.definition body (standsAlone before (s.drop length))), length)

/-- The finder of references. -/
def reference? : Finder Occurrence := fun before s =>
  (quoted? "l`".toList before s).map fun (body, length) => (.usable (.reference body), length)

/-- The finder of all shapes. -/
def occurrence? : Finder Occurrence := fun before s =>
  (listing? before s).orElse fun _ =>
  (interactive? before s).orElse fun _ =>
  (definition? before s).orElse fun _ => reference? before s

/-- The **directives** of a text, in order. -/
def scan (s : Text) : List Directive := (hits (pieces occurrence? s)).filterMap (·.directive?)

/-- The text of an occurrence after expansion. -/
def Occurrence.expand (names : ComponentNames) : Occurrence → Text
  | .usable directive => directive.toMarkup names
  | .hollow source => source

/-- The text with each directive **expanded** into its markup. -/
def expand (names : ComponentNames) (s : Text) : Text :=
  rewriteHits (Occurrence.expand names) (pieces occurrence? s)

/-- Whether any shape occurs in `s`. -/
def occursIn (s : Text) : Bool := !(hits (pieces occurrence? s)).isEmpty

end Lectern.Directive
