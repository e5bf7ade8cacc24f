import Lectern.Markdown.Cursor
import Lectern.Markdown.Reference
import Lectern.Unicode.Folding

/-!
# Links

The parts of links, wherever they stand: destinations, titles and labels, the target in
parentheses behind a link text, automatic links in angle brackets, and the definitions that
labels refer to.
-/

namespace Lectern.Markdown

open Unicode (isAsciiPunctuation)

/-- The destination up to a closing angle bracket, and the text after that. -/
def angleDestination? : Text → Option (Text × Text)
  | [] => none
  | '>' :: rest => some ([], rest)
  | '\\' :: c :: rest =>
    if isAsciiPunctuation c then
      (angleDestination? rest).map fun (url, after) => ('\\' :: c :: url, after)
    else (angleDestination? (c :: rest)).map fun (url, after) => ('\\' :: url, after)
  | c :: rest =>
    if c == '\n' || c == '<' then none
    else (angleDestination? rest).map fun (url, after) => (c :: url, after)

/-- How deep parentheses may nest in a destination. -/
def maxNesting : Nat := 32

/-- The destination without angle brackets, inside `depth` parentheses, and the text after it. -/
def bareDestination? (depth : Nat) : Text → Option (Text × Text)
  | [] => if depth = 0 then some ([], []) else none
  | '\\' :: c :: rest =>
    if isAsciiPunctuation c then
      (bareDestination? depth rest).map fun (url, after) => ('\\' :: c :: url, after)
    else (bareDestination? depth (c :: rest)).map fun (url, after) => ('\\' :: url, after)
  | '(' :: rest =>
    if depth > maxNesting then none
    else (bareDestination? (depth + 1) rest).map fun (url, after) => ('(' :: url, after)
  | ')' :: rest =>
    match depth with
    | 0 => some ([], ')' :: rest)
    | depth + 1 => (bareDestination? depth rest).map fun (url, after) => (')' :: url, after)
  | c :: rest =>
    if c.val ≤ 32 then (if depth = 0 then some ([], c :: rest) else none)
    else (bareDestination? depth rest).map fun (url, after) => (c :: url, after)

/-- The **destination** that a text starts with, as written, and the text after it. -/
def destination? : Text → Option (Text × Text)
  | '<' :: rest => angleDestination? rest
  | s => bareDestination? 0 s

/-- The title up to its closing sign, and the text after that. -/
def titleBody? (opening closing : Char) : Text → Option (Text × Text)
  | [] => none
  | '\\' :: c :: rest =>
    if isAsciiPunctuation c then
      (titleBody? opening closing rest).map fun (title, after) => ('\\' :: c :: title, after)
    else (titleBody? opening closing (c :: rest)).map fun (title, after) => ('\\' :: title, after)
  | c :: rest =>
    if c == closing then some ([], rest)
    else if c == opening then none
    else (titleBody? opening closing rest).map fun (title, after) => (c :: title, after)

/-- The **title** that a text starts with, as written, and the text after it. -/
def title? : Text → Option (Text × Text)
  | '"' :: rest => titleBody? '"' '"' rest
  | '\'' :: rest => titleBody? '\'' '\'' rest
  | '(' :: rest => titleBody? '(' ')' rest
  | _ => none

/-- A text without the white space at the start of its further lines. -/
def unindentLines : Text → Text
  | [] => []
  | '\n' :: rest => '\n' :: unindentLines (rest.dropWhile isLineSpace)
  | c :: rest => c :: unindentLines rest
termination_by s => s.length
decreasing_by
  all_goals simp_wf
  have := (List.dropWhile_suffix isLineSpace (l := rest)).length_le
  omega

/-- The rest of a text after white space with at most one line end. -/
def afterSeparator (s : Text) : Text :=
  match s.dropWhile isLineSpace with
  | '\n' :: rest => rest.dropWhile isLineSpace
  | rest => rest

/-- The **target** behind a link text: the URL and the title in parentheses, and the text after
them. -/
def inlineTarget? : Text → Option ((Text × Text) × Text)
  | '(' :: s =>
    match destination? (afterSeparator s) with
    | none => none
    | some (url, s) =>
      let s := afterSeparator s
      let (title, s) := match title? s with
        | some (title, s) => (unindentLines title, afterSeparator s)
        | none => ([], s)
      match s with
      | ')' :: rest => some ((resolve url, resolve title), rest)
      | _ => none
  | _ => none

/-- The body of a label, whose runs of white space become single spaces, and the text after its
closing bracket. A bracket inside must stand behind a backslash. The number bounds the length. -/
def labelBody? (manyLines : Bool) : Nat → Text → Option (Text × Text)
  | 0, _ => none
  | _, [] => none
  | _, ']' :: rest => some ([], rest)
  | _, '[' :: _ => none
  | n + 1, '\\' :: c :: rest =>
    (labelBody? manyLines n rest).map fun (label, after) => ('\\' :: c :: label, after)
  | n + 1, c :: rest =>
    if isAsciiSpace c then
      let space := c :: rest.takeWhile isAsciiSpace
      if space.contains '\n' && !manyLines then none
      else (labelBody? manyLines n (rest.dropWhile isAsciiSpace)).map fun (label, after) =>
        (' ' :: label, after)
    else (labelBody? manyLines n rest).map fun (label, after) => (c :: label, after)

/-- A text without the spaces at its ends. -/
def trimSpaces (s : Text) : Text := ((s.dropWhile (· == ' ')).reverse.dropWhile (· == ' ')).reverse

/-- A **label** whose opening bracket has been read, without white space at its ends, and the text
after its closing bracket. A label has a character that is not white space. -/
def label? (manyLines : Bool) (s : Text) : Option (Text × Text) :=
  match labelBody? manyLines 1000 s with
  | some (label, rest) =>
    match trimSpaces label with
    | [] => none
    | label => some (label, rest)
  | none => none

/-- What stands in square brackets. -/
inductive Label where
  | link (label : Text)
  | footnote (label : Text)
deriving Repr, DecidableEq

/-- The label of a link or a footnote, whose opening bracket has been read, and the text after
it. A footnote's label follows a caret and stays on its line. -/
def anyLabel? (s : Text) : Option (Label × Text) :=
  let note? := match s with
    | '^' :: ']' :: _ => none
    | '^' :: rest => label? false rest
    | _ => none
  match note? with
  | some (label, rest) => some (.footnote label, rest)
  | none => (label? true s).map fun (label, rest) => (.link label, rest)

/-- What the labels of a document refer to. Labels are kept in their folded form. -/
structure Definitions where
  /-- The labels of links, with URL and title. -/
  links : List (Text × (Text × Text)) := []
  /-- The labels of footnotes. -/
  notes : List Text := []
deriving Repr

namespace Definitions

/-- The URL and the title of a link's label. -/
def link? (definitions : Definitions) (label : Text) : Option (Text × Text) :=
  definitions.links.lookup (Unicode.caseFold label)

/-- Whether a footnote of that label is defined. -/
def hasNote (definitions : Definitions) (label : Text) : Bool :=
  definitions.notes.contains (Unicode.caseFold label)

/-- The definitions with one more link; an earlier one of that label stays. -/
def addLink (definitions : Definitions) (label : Text) (target : Text × Text) : Definitions :=
  { definitions with links := definitions.links ++ [(Unicode.caseFold label, target)] }

/-- The definitions with one more footnote. -/
def addNote (definitions : Definitions) (label : Text) : Definitions :=
  { definitions with notes := Unicode.caseFold label :: definitions.notes }

end Definitions

/-- The **definition** of a link that a text starts with: the label, the URL and the title, and
the text after it, which is at a line end. A title that something else follows on its line is no
title; then the definition stands only if it ended on an earlier line. -/
def definition? : Text → Option ((Text × (Text × Text)) × Text)
  | '[' :: s =>
    match label? true s with
    | some (label, ':' :: s) =>
      match destination? (afterSeparator s) with
      | none => none
      | some (url, afterUrl) =>
        if afterUrl.length = (afterSeparator s).length then none
        else
          let untitled := ((label, (resolve url, [])), afterUrl.dropWhile isLineSpace)
          let titleOn := afterSeparator afterUrl
          let ends := isBlankLine afterUrl
          if titleOn.length = afterUrl.length && !ends then none
          else
            match title? titleOn with
            | some (title, rest) =>
              if isBlankLine rest then
                some ((label, (resolve url, resolve title)), rest.dropWhile isLineSpace)
              else if ends then some untitled
              else none
            | none => if ends then some untitled else none
    | _ => none
  | _ => none

/-- The rest of an address after the colon of its scheme, which has 2 to 32 characters. -/
def afterScheme? (s : Text) : Option Text :=
  match s with
  | c :: _ =>
    let scheme := s.takeWhile fun c => c.isAlphanum || ".-+".toList.contains c
    if c.isAlpha && 2 ≤ scheme.length && scheme.length ≤ 32 then
      Text.after? [':'] (s.drop scheme.length)
    else none
  | [] => none

/-- An address with a scheme up to a closing angle bracket, and the text after that. -/
def uri? (s : Text) : Option (Text × Text) :=
  match afterScheme? s with
  | some rest =>
    match rest.dropWhile fun c => c.val > 32 && c != '<' && c != '>' with
    | '>' :: after => some (s.take (s.length - after.length - 1), after)
    | _ => none
  | none => none

/-- Whether `c` can stand in a mail address before the at sign. -/
def isMailboxChar (c : Char) : Bool :=
  c.isAlphanum || ".!#$%&'*+/=?^_`\x7b|\x7d~-".toList.contains c

/-- Whether a text is one label of a domain name. -/
def isDomainLabel (label : Text) : Bool :=
  !label.isEmpty && label.length ≤ 63 && label.all (fun c => c.isAlphanum || c == '-') &&
    label.head? != some '-' && label.getLast? != some '-'

/-- A mail address up to a closing angle bracket, and the text after that. -/
def mailAddress? (s : Text) : Option (Text × Text) :=
  let mailbox := s.takeWhile isMailboxChar
  match s.drop mailbox.length with
  | '@' :: rest =>
    let domain := rest.takeWhile fun c => c.isAlphanum || c == '-' || c == '.'
    match rest.drop domain.length with
    | '>' :: after =>
      if !mailbox.isEmpty && (Text.splitOnChar '.' domain).all isDomainLabel then
        some (mailbox ++ '@' :: domain, after)
      else none
    | _ => none
  | _ => none

/-- An **automatic link** whose `<` has been read: its address and the text after it. -/
def autolink? (s : Text) : Option (Text × Text) := (uri? s).orElse fun _ => mailAddress? s

end Lectern.Markdown
