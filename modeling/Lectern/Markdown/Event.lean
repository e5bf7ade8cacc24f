import Lectern.Text

/-!
# Markdown Events

A document as the stream of its parts: starts and ends of elements, and between them texts,
breaks and the like. The parser delivers such a stream and the page writer consumes it. The type
admits streams that no document gives, such as an end without a start.
-/

namespace Lectern.Markdown

/-- The alignment of a table column. -/
inductive Alignment where
  | unset
  | left
  | center
  | right
deriving Repr, DecidableEq

/-- The start of an element, with what is known of it there. -/
inductive Tag where
  | paragraph
  | heading (level : Nat)
  | blockQuote
  /-- A code block between fences; the first word of `info` names its language. -/
  | fencedCode (info : Text)
  | indentedCode
  | htmlBlock
  /-- A list; ordered when it has a start number. -/
  | list (start : Option Nat)
  | item
  | footnote (label : Text)
  | definitionList
  | definitionTitle
  | definitionBody
  | table (alignments : List Alignment)
  | tableHead
  | tableRow
  | tableCell
  | emphasis
  | strong
  | strikethrough
  | superscript
  | subscript
  | link (url title : Text)
  | image (url title : Text)
  | metadata
deriving Repr, DecidableEq

/-- The end of an element. -/
inductive TagEnd where
  | paragraph
  | heading (level : Nat)
  | blockQuote
  | codeBlock
  | htmlBlock
  | list (ordered : Bool)
  | item
  | footnote
  | definitionList
  | definitionTitle
  | definitionBody
  | table
  | tableHead
  | tableRow
  | tableCell
  | emphasis
  | strong
  | strikethrough
  | superscript
  | subscript
  | link
  | image
  | metadata
deriving Repr, DecidableEq

/-- The end that belongs to a start. -/
def Tag.toEnd : Tag → TagEnd
  | .paragraph => .paragraph
  | .heading level => .heading level
  | .blockQuote => .blockQuote
  | .fencedCode _ => .codeBlock
  | .indentedCode => .codeBlock
  | .htmlBlock => .htmlBlock
  | .list start => .list start.isSome
  | .item => .item
  | .footnote _ => .footnote
  | .definitionList => .definitionList
  | .definitionTitle => .definitionTitle
  | .definitionBody => .definitionBody
  | .table _ => .table
  | .tableHead => .tableHead
  | .tableRow => .tableRow
  | .tableCell => .tableCell
  | .emphasis => .emphasis
  | .strong => .strong
  | .strikethrough => .strikethrough
  | .superscript => .superscript
  | .subscript => .subscript
  | .link _ _ => .link
  | .image _ _ => .image
  | .metadata => .metadata

/-- One part of a document. -/
inductive Event where
  | start (tag : Tag)
  | finish (tag : TagEnd)
  | text (content : Text)
  | code (content : Text)
  /-- A part of an HTML block, taken as it stands. -/
  | html (content : Text)
  /-- A tag within a line, taken as it stands. -/
  | inlineHtml (content : Text)
  | inlineMath (content : Text)
  | displayMath (content : Text)
  | footnoteReference (label : Text)
  | softBreak
  | hardBreak
  | rule
  | taskMarker (checked : Bool)
deriving Repr, DecidableEq

end Lectern.Markdown
