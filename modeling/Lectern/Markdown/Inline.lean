import Lectern.Markdown.Emphasis
import Lectern.Markdown.Html
import Lectern.Markdown.Link

/-!
# Inline Content

The content of a paragraph, a heading or a table cell: texts, code spans, links, images, footnote
references, tags and breaks. The source is read from left to right. Code spans, tags and automatic
links bind tighter than brackets, and brackets tighter than emphasis: what a pair of brackets
turns into is decided at the closing one, and the runs of emphasis between them are resolved then.

* `Inline.parse` — the content of a source as element trees.
-/

namespace Lectern.Markdown

open Unicode (isAsciiPunctuation)

/-- An opening bracket that may become a link, an image or a footnote reference. -/
structure Bracket where
  /-- Whether an exclamation mark stands before it. -/
  image : Bool
  /-- Whether it may still become a link; a link holds no other links. -/
  enabled : Bool
  /-- The source after the bracket. -/
  source : Text
  /-- What follows the bracket, latest first. -/
  content : List InlineNode
deriving Repr

/-- The parts read so far, latest first: those after each open bracket, innermost first, and those
before all brackets. -/
structure InlineState where
  brackets : List Bracket := []
  base : List InlineNode := []
deriving Repr

namespace InlineState

/-- The state after further parts, latest first. -/
def pushAll (state : InlineState) (nodes : List InlineNode) : InlineState :=
  match state.brackets with
  | bracket :: outer =>
    { state with brackets := { bracket with content := nodes ++ bracket.content } :: outer }
  | [] => { state with base := nodes ++ state.base }

/-- The state after one more part. -/
def push (state : InlineState) (node : InlineNode) : InlineState := state.pushAll [node]

/-- The state after one more tree. -/
def pushTree (state : InlineState) (tree : Tree) : InlineState := state.push (.tree tree)

/-- The state after a text. -/
def pushText (state : InlineState) (s : Text) : InlineState := state.pushTree (.text s)

/-- The sign of an opening bracket. -/
def bracketSign (bracket : Bracket) : Text := if bracket.image then "![".toList else ['[']

/-- The parts of a bracket that is text after all, latest first. -/
def flatten (bracket : Bracket) : List InlineNode :=
  bracket.content ++ [.tree (.text (bracketSign bracket))]

/-- All parts, latest first, with all open brackets as text. -/
def flattenAll (state : InlineState) : List InlineNode :=
  state.brackets.flatMap flatten ++ state.base

/-- The state in which no bracket outside a link may become a link. -/
def disableLinks (state : InlineState) : InlineState :=
  { state with brackets := state.brackets.map fun bracket =>
      { bracket with enabled := bracket.enabled && bracket.image } }

/-- The state after a bracket with its closing one has become a link or an image. -/
def pushLink (outer : InlineState) (bracket : Bracket) (target : Text × Text) : InlineState :=
  let children := emphasize bracket.content.reverse
  if bracket.image then outer.pushTree (.node (.image target.1 target.2) children)
  else outer.disableLinks.pushTree (.node (.link target.1 target.2) children)

end InlineState

/-- What a pair of brackets turns into, and where the source goes on. -/
inductive BracketResult where
  | link (target : Text × Text) (rest : Text)
  | note (label : Text)
  | plain
deriving Repr

/-- The label that stands between a bracket and the closing bracket before `rest`. -/
def ownLabel? (bracket : Bracket) (rest : Text) : Option Label :=
  match anyLabel? bracket.source with
  | some (label, after) => if after.length = rest.length then some label else none
  | none => none

/-- What the label of a pair of brackets refers to. -/
def resolveLabel (definitions : Definitions) (label? : Option Label) (rest : Text) :
    BracketResult :=
  match label? with
  | some (.footnote label) => if definitions.hasNote label then .note label else .plain
  | some (.link label) =>
    match definitions.link? label with
    | some target => .link target rest
    | none => .plain
  | none => .plain

/-- What a **pair of brackets** turns into: a link with its target behind it, or by way of a
label, which stands in a second pair of brackets or between the brackets themselves. -/
def resolveBrackets (definitions : Definitions) (bracket : Bracket) (rest : Text) :
    BracketResult :=
  if !bracket.enabled then .plain
  else match inlineTarget? rest with
    | some (target, rest) => .link target rest
    | none =>
      let own := ownLabel? bracket rest
      match rest with
      | '[' :: ']' :: after => resolveLabel definitions own after
      | '[' :: second =>
        match anyLabel? second with
        | some (.link label, after) => resolveLabel definitions (some (.link label)) after
        | _ => resolveLabel definitions own rest
      | _ => resolveLabel definitions own rest

/-- The state and the source after a **closing bracket**. -/
def closeBracket (definitions : Definitions) (state : InlineState) (rest : Text) :
    InlineState × Text :=
  match state.brackets with
  | [] => (state.pushText [']'], rest)
  | bracket :: outer =>
    let outer : InlineState := { state with brackets := outer }
    match resolveBrackets definitions bracket rest with
    | .link target rest => (outer.pushLink bracket target, rest)
    | .note label =>
      let before : InlineState := ⟨[], outer.flattenAll⟩
      let before := if bracket.image then before.pushText ['!'] else before
      (before.pushTree (.leaf (.footnoteReference label)), rest)
    | .plain => ((outer.pushAll (InlineState.flatten bracket)).pushText [']'], rest)

/-- The body of a code span that `count` backticks close, and the text after it. The number bounds
the steps. -/
def codeBody? (count : Nat) : Nat → Text → Option (Text × Text)
  | 0, _ => none
  | _, [] => none
  | n + 1, c :: rest =>
    if c == '\x60' then
      let run := c :: rest.takeWhile (· == '\x60')
      let after := rest.dropWhile (· == '\x60')
      if run.length = count then some ([], after)
      else (codeBody? count n after).map fun (body, after) => (run ++ body, after)
    else (codeBody? count n rest).map fun (body, after) => (c :: body, after)

/-- The content of a code span: line ends become spaces, and one space is taken off both ends
unless there are only spaces. -/
def codeContent (body : Text) : Text :=
  let line := body.map fun c => if c == '\n' then ' ' else c
  if line.head? == some ' ' && line.getLast? == some ' ' && !line.all (· == ' ') then
    (line.drop 1).dropLast
  else line

/-- Whether `c` starts something other than plain text. -/
def isInlineSign (c : Char) : Bool :=
  "\\\x60<![]&*_~\n".toList.contains c || isLineSpace c

/-- One step through the source: the state, the last character read and the rest of the source
after the part that starts with `c`. -/
def inlineStep (definitions : Definitions) (state : InlineState) (before : Option Char) (c : Char)
    (rest : Text) : InlineState × Option Char × Text :=
  match c with
  | '\\' =>
    match rest with
    | '\n' :: next =>
      (state.pushTree (.leaf .hardBreak), some '\n', next.dropWhile isLineSpace)
    | escaped :: next =>
      if isAsciiPunctuation escaped then (state.pushText [escaped], some escaped, next)
      else (state.pushText ['\\'], some '\\', rest)
    | [] => (state.pushText ['\\'], some '\\', [])
  | '\x60' =>
    let run := c :: rest.takeWhile (· == '\x60')
    let after := rest.dropWhile (· == '\x60')
    match codeBody? run.length (after.length + 1) after with
    | some (body, after) => (state.pushTree (.leaf (.code (codeContent body))), some '\x60', after)
    | none => (state.pushText run, some '\x60', after)
  | '<' =>
    match autolink? rest with
    | some (address, after) =>
      (state.pushTree (.node (.link address []) [.text address]), some '>', after)
    | none =>
      match afterInlineHtml? rest with
      | some after =>
        let source := '<' :: rest.take (rest.length - after.length)
        (state.pushTree (.leaf (.inlineHtml source)), some '>', after)
      | none => (state.pushText ['<'], some '<', rest)
  | '!' =>
    match rest with
    | '[' :: source =>
      ({ state with brackets := ⟨true, true, source, []⟩ :: state.brackets }, some '[', source)
    | _ => (state.pushText ['!'], some '!', rest)
  | '[' => ({ state with brackets := ⟨false, true, rest, []⟩ :: state.brackets }, some '[', rest)
  | ']' =>
    let (state, after) := closeBracket definitions state rest
    (state, some (if after.length = rest.length then ']' else ')'), after)
  | '&' =>
    match reference? rest with
    | some (value, after) => (state.pushText value, some ';', after)
    | none => (state.pushText ['&'], some '&', rest)
  | '\n' => (state.pushTree (.leaf .softBreak), some '\n', rest.dropWhile isLineSpace)
  | _ =>
    if c == '*' || c == '_' || c == '~' then
      let count := 1 + (rest.takeWhile (· == c)).length
      let after := rest.dropWhile (· == c)
      let canOpen := opensEmphasis c count before after.head?
      let canClose := closesEmphasis c count before after.head?
      if (canOpen || canClose) && (c != '~' || count ≤ 2) then
        (state.push (.run ⟨c, count, canOpen, canClose⟩), some c, after)
      else (state.pushText (List.replicate count c), some c, after)
    else if isLineSpace c then
      let space := c :: rest.takeWhile isLineSpace
      match rest.dropWhile isLineSpace with
      | [] => (state, some ' ', [])
      | '\n' :: next =>
        let leaf : Event := if space.length ≥ 2 then .hardBreak else .softBreak
        (state.pushTree (.leaf leaf), some '\n', next.dropWhile isLineSpace)
      | after => (state.pushText space, space.getLast?, after)
    else
      let run := c :: rest.takeWhile (!isInlineSign ·)
      (state.pushText run, run.getLast?, rest.dropWhile (!isInlineSign ·))

/-- The state after the whole source; the number bounds the steps. -/
def inlineRun (definitions : Definitions) :
    Nat → InlineState → Option Char → Text → InlineState
  | 0, state, _, _ => state
  | _, state, _, [] => state
  | n + 1, state, before, c :: rest =>
    let (state, before, rest) := inlineStep definitions state before c rest
    inlineRun definitions n state before rest

/-- The **inline content** of a source. -/
def Inline.parse (definitions : Definitions) (source : Text) : List Tree :=
  emphasize (inlineRun definitions source.length {} none source).flattenAll.reverse

end Lectern.Markdown
