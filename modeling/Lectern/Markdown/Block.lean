import Lectern.Markdown.Inline

/-!
# Blocks

The block structure of a document, before its inline content is read. A paragraph, a heading and
a table cell keep their source, because a label in it may be defined further down.

In a **tight** list no blank line separates the items or the blocks in them, and the paragraphs
of its items are given without their elements.
-/

namespace Lectern.Markdown

/-- A block of a document. -/
inductive Block where
  /-- A paragraph, which may start with the mark of a task. -/
  | paragraph (task : Option Bool) (source : Text)
  /-- A heading, which may start with the mark of a task if it is underlined. -/
  | heading (level : Nat) (task : Option Bool) (source : Text)
  | rule
  /-- A code block; `info` is there when it stands between fences. -/
  | code (info : Option Text) (content : Text)
  | html (content : Text)
  | quote (children : List Block)
  | list (start : Option Nat) (tight : Bool) (items : List Block)
  | item (children : List Block)
  | footnote (label : Text) (children : List Block)
  | table (alignments : List Alignment) (head : List Text) (rows : List (List Text))
  /-- The mark of a task without text. -/
  | taskMarker (checked : Bool)
deriving Repr

/-- The leaf of a text, unless it is empty. -/
def textLeaf (s : Text) : List Tree := if s.isEmpty then [] else [.text s]

/-- The mark of a task, if there is one. -/
def taskLeaf (task : Option Bool) : List Tree :=
  (task.map fun checked => .leaf (.taskMarker checked)).toList

/-- The cells of a table row. -/
def cellTrees (definitions : Definitions) (cells : List Text) : List Tree :=
  cells.map fun source => .node .tableCell (Inline.parse definitions source)

mutual

/-- A block as element trees; `tight` when it stands in an item of a tight list. -/
def Block.trees (definitions : Definitions) (tight : Bool) : Block → List Tree
  | .paragraph task source =>
    let content := taskLeaf task ++ Inline.parse definitions source
    if tight then content else [.node .paragraph content]
  | .heading level task source =>
    [.node (.heading level) (taskLeaf task ++ Inline.parse definitions source)]
  | .rule => [.leaf .rule]
  | .code info content =>
    [.node (match info with
      | some info => .fencedCode info
      | none => .indentedCode) (textLeaf content)]
  | .html content => [.node .htmlBlock [.leaf (.html content)]]
  | .quote children => [.node .blockQuote (Block.treesOfList definitions false children)]
  | .list start tight items => [.node (.list start) (Block.treesOfList definitions tight items)]
  | .item children => [.node .item (Block.treesOfList definitions tight children)]
  | .footnote label children =>
    [.node (.footnote label) (Block.treesOfList definitions false children)]
  | .table alignments head rows =>
    [.node (.table alignments)
      (.node .tableHead (cellTrees definitions head) ::
        rows.map fun row => .node .tableRow (cellTrees definitions row))]
  | .taskMarker checked => [.leaf (.taskMarker checked)]

/-- Blocks as element trees, one after the other. -/
def Block.treesOfList (definitions : Definitions) (tight : Bool) : List Block → List Tree
  | [] => []
  | block :: rest => block.trees definitions tight ++ Block.treesOfList definitions tight rest

end

end Lectern.Markdown
