import Lectern.Markdown.Tree

/-!
# The Shape of Documents

Streams of events as a parser delivers them, without raw HTML: `IsDocument` says that a stream is
well nested, and which elements stand where. Headings and table cells hold only what stands in a
line, code blocks and images hold only texts, the rows and cells of a table stand in it behind its
only head, and no footnote definition stands in a heading or in another definition.
-/

namespace Lectern.Markdown

/-- The events that stand in a line. -/
inductive IsInlineEvent : Event → Prop
  | text (content : Text) : IsInlineEvent (.text content)
  | code (content : Text) : IsInlineEvent (.code content)
  | inlineMath (content : Text) : IsInlineEvent (.inlineMath content)
  | displayMath (content : Text) : IsInlineEvent (.displayMath content)
  | footnoteReference (label : Text) : IsInlineEvent (.footnoteReference label)
  | softBreak : IsInlineEvent .softBreak
  | hardBreak : IsInlineEvent .hardBreak
  | taskMarker (checked : Bool) : IsInlineEvent (.taskMarker checked)

/-- The elements that stand in a line around other parts of it. -/
inductive IsSpan : Tag → Prop
  | emphasis : IsSpan .emphasis
  | strong : IsSpan .strong
  | strikethrough : IsSpan .strikethrough
  | superscript : IsSpan .superscript
  | subscript : IsSpan .subscript
  | link (url title : Text) : IsSpan (.link url title)

/-- The elements that stand around any parts of a document. -/
inductive IsContainer : Tag → Prop
  | span {tag : Tag} : IsSpan tag → IsContainer tag
  | paragraph : IsContainer .paragraph
  | blockQuote : IsContainer .blockQuote
  | htmlBlock : IsContainer .htmlBlock
  | list (start : Option Nat) : IsContainer (.list start)
  | item : IsContainer .item
  | definitionList : IsContainer .definitionList
  | definitionTitle : IsContainer .definitionTitle
  | definitionBody : IsContainer .definitionBody
  | metadata : IsContainer .metadata

/-- The elements that hold a block of code. -/
inductive IsCodeBlock : Tag → Prop
  | fenced (info : Text) : IsCodeBlock (.fencedCode info)
  | indented : IsCodeBlock .indentedCode

/-- A part of a line. -/
inductive IsInline : Tree → Prop
  | leaf {event : Event} : IsInlineEvent event → IsInline (.leaf event)
  | span {tag : Tag} {children : List Tree} :
      IsSpan tag → (∀ child ∈ children, IsInline child) → IsInline (.node tag children)
  | image {url title : Text} {texts : List Text} :
      IsInline (.node (.image url title) (texts.map Tree.text))

/-- A cell of a table. -/
inductive IsCell : Tree → Prop
  | cell {children : List Tree} :
      (∀ child ∈ children, IsInline child) → IsCell (.node .tableCell children)

/-- A row of a table behind its head. -/
inductive IsRow : Tree → Prop
  | row {cells : List Tree} : (∀ cell ∈ cells, IsCell cell) → IsRow (.node .tableRow cells)

/-- A part of a document, within a footnote definition or outside. -/
inductive IsFlow : (inNote : Bool) → Tree → Prop
  | inline {inNote : Bool} {tree : Tree} : IsInline tree → IsFlow inNote tree
  | rule {inNote : Bool} : IsFlow inNote (.leaf .rule)
  | container {inNote : Bool} {tag : Tag} {children : List Tree} :
      IsContainer tag → (∀ child ∈ children, IsFlow inNote child) →
      IsFlow inNote (.node tag children)
  | heading {inNote : Bool} {level : Nat} {children : List Tree} :
      (∀ child ∈ children, IsInline child) → IsFlow inNote (.node (.heading level) children)
  | codeBlock {inNote : Bool} {tag : Tag} {texts : List Text} :
      IsCodeBlock tag → IsFlow inNote (.node tag (texts.map Tree.text))
  | table {inNote : Bool} {alignments : List Alignment} {cells rows : List Tree} :
      (∀ cell ∈ cells, IsCell cell) → (∀ row ∈ rows, IsRow row) →
      IsFlow inNote (.node (.table alignments) (.node .tableHead cells :: rows))
  | footnote {label : Text} {children : List Tree} :
      (∀ child ∈ children, IsFlow true child) → IsFlow false (.node (.footnote label) children)

/-- The events of a **document**. -/
def IsDocument (events : List Event) : Prop :=
  ∃ trees, events = Tree.eventsOfList trees ∧ ∀ tree ∈ trees, IsFlow false tree

end Lectern.Markdown
