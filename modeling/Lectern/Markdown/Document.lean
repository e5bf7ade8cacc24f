import Lectern.Markdown.Container

/-!
# Documents

A document is read line by line into blocks. A line first continues or ends the open containers,
then opens new ones, and what is left of it starts a block that may take further lines. A
paragraph also takes lines that do not continue its containers, unless they start something else.

When all lines are read, all definitions are known, and the blocks become element trees and then
the events of the document.

* `Document.blocks` — the blocks of a source and its definitions.
* `Document.parse` — the events of a source.
-/

namespace Lectern.Markdown

namespace Document

/-- The lines of a source with their ends. -/
def lines : Text → List Text
  | [] => []
  | '\n' :: rest => ['\n'] :: lines rest
  | c :: rest =>
    match rest, lines rest with
    | _ :: _, line :: more => (c :: line) :: more
    | _, more => [c] :: more

/-- A source whose line ends are all line feeds. -/
def unifyLineEnds : Text → Text
  | [] => []
  | '\r' :: '\n' :: rest => '\n' :: unifyLineEnds rest
  | '\r' :: rest => '\n' :: unifyLineEnds rest
  | c :: rest => c :: unifyLineEnds rest

/-- Whether a line continues all the containers, and the place after what it continues. -/
def continueAll (containers : List Container) (line : Text) : Bool × Cursor :=
  let (count, place) := continued containers { rest := line }
  (count == containers.length, place)

/-- The label of a footnote that starts here, and the text after its colon. -/
def footnoteStart? : Text → Option (Text × Text)
  | '[' :: '^' :: s =>
    match label? false s with
    | some (label, ':' :: rest) => some (label, rest)
    | _ => none
  | _ => none

/-- Whether a line starts a block that ends a paragraph before it, tables aside. `current` tells
whether it continues all containers; if not, any list item ends the paragraph. -/
def interrupts (current : Bool) (s : Text) (next : List Text) : Bool :=
  isBlankLine s || isThematicBreak s || (headingLevel? s).isSome || (openingFence? s).isSome ||
    s.head? == some '>' ||
    (match listMarker? s with
      | some marker =>
        !current ||
          ((!ListMarker.ordered marker.sign || marker.start == 1) &&
            !(isBlankLine marker.rest && (next.head?.map isBlankLine).getD true))
      | none => false) ||
    (match s with
      | '<' :: rest => (interruptingHtmlEnd? rest).isSome
      | _ => false) ||
    (footnoteStart? s).isSome

/-- Whether the line `s` and the line after it start a table. -/
def startsTable (containers : List Container) (s : Text) (next : List Text) : Bool :=
  match s, next with
  | '|' :: _, line :: _ =>
    match continueAll containers line with
    | (true, place) => (tableStart? s place).isSome
    | _ => false
  | _, _ => false

/-- How a paragraph ends. -/
inductive ParagraphEnd where
  | plain
  /-- With a line that makes it a heading. -/
  | underline (level : Nat)

/-- The further lines of a paragraph, how it ends, and the lines after it. -/
def paragraphLines (containers : List Container) :
    List Text → List Text × ParagraphEnd × List Text
  | [] => ([], .plain, [])
  | line :: rest =>
    let (current, place) := continueAll containers line
    let (indent, inner) := place.skipUpTo 4
    let s := inner.rest
    match (if current && indent < 4 then underlineLevel? s else none) with
    | some level => ([], .underline level, rest)
    | none =>
      if (indent < 4 && (interrupts current s rest || startsTable containers s rest)) ||
          place.skipAll.atEnd || isBlankLine s then
        ([], .plain, line :: rest)
      else
        let (more, ending, rest) := paragraphLines containers rest
        (lineOf place.rest :: more, ending, rest)

/-- The rows of a table, and the lines after it. -/
def tableRows (containers : List Container) (columns : Nat) :
    List Text → List (List Text) × List Text
  | [] => ([], [])
  | line :: rest =>
    let (current, place) := continueAll containers line
    let s := place.skipAll.rest
    if !current || interrupts current s rest || (listMarker? s).isSome || (rowCells s).isEmpty then
      ([], line :: rest)
    else
      let (rows, rest) := tableRows containers columns rest
      (fitRow columns (rowCells s) :: rows, rest)

/-- The lines of a code block that is indented, whether a blank line came after it, and the lines
after that. The text of `blanks` are blank lines that belong to the block only if another line of
it follows. -/
def indentedLines (containers : List Container) (blanks : Text) :
    List Text → Text × Bool × List Text
  | [] => ([], !blanks.isEmpty, [])
  | line :: rest =>
    let (current, place) := continueAll containers line
    match current, place.skipSpace 4 with
    | true, (missing, place) =>
      if missing = 0 || place.atEnd then
        if isBlankLine place.rest then indentedLines containers (blanks ++ place.content) rest
        else
          let (more, afterBlank, rest) := indentedLines containers [] rest
          (blanks ++ place.content ++ more, afterBlank, rest)
      else ([], !blanks.isEmpty, line :: rest)
    | false, _ => ([], !blanks.isEmpty, line :: rest)

/-- The lines of a code block between fences, and the lines after it. -/
def fencedLines (containers : List Container) (indent : Nat) (sign : Char) (length : Nat) :
    List Text → Text × List Text
  | [] => ([], [])
  | line :: rest =>
    let (current, place) := continueAll containers line
    if !current then ([], line :: rest)
    else
      let place := (place.skipUpTo indent).2
      let (missing, closer) := place.skipSpace (4 - indent)
      if missing > 0 && isClosingFence sign length closer.rest then ([], rest)
      else
        let (more, rest) := fencedLines containers indent sign length rest
        (place.content ++ more, rest)

/-- The further lines of an HTML block whose last line so far is `last`, and the lines after it. -/
def htmlLines (containers : List Container) (ending : HtmlBlockEnd) (last : Text) :
    List Text → Text × List Text
  | [] => ([], [])
  | line :: rest =>
    let (current, place) := continueAll containers line
    let complete := match ending with
      | .marker text => Text.includes text last
      | .blankLine => isBlankLine place.rest
    if !current || complete then ([], line :: rest)
    else
      let (more, rest) := htmlLines containers ending place.rest rest
      (place.content ++ more, rest)

/-- The lines that continue all the containers up to the first blank line, after which nothing of
a definition can stand. -/
def definitionView (containers : List Container) : List Text → Text
  | [] => []
  | line :: rest =>
    let (current, place) := continueAll containers line
    if !current || isBlankLine place.rest then []
    else '\n' :: lineOf place.rest ++ definitionView containers rest

/-- The state of the mark of a task that starts here, and the place after the mark. -/
def taskMarker? (place : Cursor) : Option (Bool × Cursor) :=
  let place := (place.skipUpTo 3).2
  match place.rest with
  | '[' :: mark :: ']' :: c :: rest =>
    let after : Cursor := ⟨place.pending, place.column + 3, c :: rest⟩
    if !isLineSpace c then none
    else if isLineSpace mark then some (false, after)
    else if mark == 'x' || mark == 'X' then some (true, after)
    else none
  | _ => none

/-- The column after which the content of a list item starts, counted from its marker, and the
place after the marker. Content that is further in starts with the white space of a code block. -/
def itemStart (marker : ListMarker) (place : Cursor) : Nat × Cursor :=
  let place : Cursor := ⟨0, place.column + marker.width, marker.rest⟩
  if isBlankLine place.rest then (marker.width + 1, place)
  else
    let inner := (place.skipUpTo 1).2
    match inner.skipUpTo 4 with
    | (4, _) => (marker.width + 1, inner)
    | (extra, deeper) => (marker.width + 1 + extra, deeper)

/-- The builder after the containers that a line opens, and the place after them; no place if the
line ends with a list marker or with the mark of a task. The number bounds the steps. -/
def openContainers : Nat → Builder → Cursor → Builder × Option Cursor
  | 0, builder, place => (builder, some place)
  | steps + 1, builder, place =>
    let (indent, inner) := place.skipUpTo 4
    if indent ≥ 4 then (builder, some place)
    else match footnoteStart? inner.rest with
      | some (label, rest) =>
        openContainers steps (builder.openFootnote label) { rest := rest.dropWhile isLineSpace }
      | none =>
        match (if isThematicBreak inner.rest then none else listMarker? inner.rest) with
        | some marker =>
          let (width, after) := itemStart marker inner
          let builder := (builder.continueList marker.sign marker.start).openFrame
            (.item (indent + width))
          if isBlankLine after.rest then ({ builder with emptyItem := true }, none)
          else match taskMarker? after with
            | some (checked, after) =>
              if isBlankLine after.rest then
                ({ builder.append (.taskMarker checked) with emptyItem := true }, none)
              else openContainers steps { builder with task := some checked } after
            | none => openContainers steps builder after
        | none =>
          match inner.skipChar? '>' with
          | some after =>
            openContainers steps (builder.finishList.openFrame .quote) (after.skipUpTo 1).2
          | none => (builder, some place)

/-- The builder after the paragraph or table that starts with `s`, and the lines after it. A
paragraph takes the mark of a task that waits; in front of a table the mark is lost. -/
def readParagraph (builder : Builder) (s : Text) (rest : List Text) : Builder × List Text :=
  let containers := builder.containers
  let task := builder.task
  let builder := { builder with task := none }
  let table? := match rest with
    | line :: body =>
      match continueAll containers line with
      | (true, place) => (tableStart? s place).map fun alignments => (alignments, body)
      | _ => none
    | [] => none
  match table? with
  | some (alignments, body) =>
    let (rows, rest) := tableRows containers alignments.length body
    (builder.append (.table alignments (fitRow alignments.length (rowCells s)) rows), rest)
  | none =>
    let (more, ending, rest) := paragraphLines containers rest
    let source := ['\n'].intercalate (lineOf s :: more)
    match ending with
    | .plain => (builder.append (.paragraph task source), rest)
    | .underline level => (builder.append (.heading level task source), rest)

/-- The builder after the block that starts at a place of a line that is not blank, and the lines
after it. -/
def readLeaf (builder : Builder) (place : Cursor) (rest : List Text) : Builder × List Text :=
  let builder := builder.finishList
  let containers := builder.containers
  let (indent, inner) := place.skipUpTo 4
  if indent ≥ 4 then
    let (more, afterBlank, rest) := indentedLines containers [] rest
    ({ builder.append (.code none (inner.content ++ more)) with afterBlank }, rest)
  else
    let s := inner.rest
    let html? := match s with
      | '<' :: line => htmlBlockEnd? line
      | _ => none
    match html? with
    | some ending =>
      let (more, rest) := htmlLines containers ending s rest
      (builder.append (.html (List.replicate indent ' ' ++ s ++ more)), rest)
    | none =>
      if isThematicBreak s then (builder.append .rule, rest)
      else match headingLevel? s with
        | some level => (builder.append (.heading level none (headingContent (s.drop level))), rest)
        | none =>
          match openingFence? s with
          | some (sign, length) =>
            let info := resolve (trimLineEnd ((lineOf (s.drop length)).dropWhile isLineSpace))
            let (content, rest) := fencedLines containers indent sign length rest
            (builder.append (.code (some info) content), rest)
          | none =>
            let view := lineOf s ++ definitionView containers rest
            match definition? view with
            | some ((label, target), after) =>
              let taken := (view.filter (· == '\n')).length - (after.filter (· == '\n')).length
              ({ builder with definitions := builder.definitions.addLink label target },
                rest.drop taken)
            | none => readParagraph builder s rest

/-- The builder after the block that a line starts, and the lines after it. -/
def readBlock (builder : Builder) (line : Text) (rest : List Text) : Builder × List Text :=
  let (count, place) := continued builder.containers { rest := line }
  let builder := Builder.closeFrames (builder.frames.length - count) builder
  match openContainers (line.length + 1) builder place with
  | (builder, none) => (builder, rest)
  | (builder, some place) =>
    if isBlankLine place.rest then (builder.passBlank, rest) else readLeaf builder place rest

/-- The builder after all lines; the number bounds the blocks. -/
def readAll : Nat → Builder → List Text → Builder
  | 0, builder, _ => builder
  | _, builder, [] => builder
  | n + 1, builder, line :: rest =>
    let (builder, rest) := readBlock builder line rest
    readAll n builder rest

/-- The **blocks** of a source, and its definitions. -/
def blocks (source : Text) : List Block × Definitions :=
  let ls := lines (unifyLineEnds source)
  let builder := readAll ls.length {} ls
  (builder.finish, builder.definitions)

/-- The **element trees** of a source. -/
def trees (source : Text) : List Tree :=
  let (blocks, definitions) := blocks source
  Block.treesOfList definitions false blocks

/-- The **events** of a source. -/
def parse (source : Text) : List Event := Tree.eventsOfList (trees source)

end Document

end Lectern.Markdown
