import Lectern.Markdown.Block
import Lectern.Markdown.LeafStart

/-!
# Open Containers

While a document is read, some of its containers are open: quotes, lists with their current item,
and footnotes. Each line first tells which of them it continues, by the signs and the indentation
at its start. A `Builder` holds the open containers with what they contain so far.

Blank lines decide two things that are known only later: whether a list is tight, and whether an
item that began with a blank line goes on.
-/

namespace Lectern.Markdown

/-- An open container. -/
inductive Container where
  | quote
  /-- A list with the sign of its markers and its first number. -/
  | list (tight : Bool) (sign : Char) (start : Nat)
  /-- An item with the indentation of its content. -/
  | item (indent : Nat)
  | footnote (label : Text)
deriving Repr, DecidableEq

/-- The place in a line after the sign of a quote, with one column of space, if it is there. -/
def afterQuoteSign? (place : Cursor) : Option Cursor :=
  ((place.skipUpTo 3).2.skipChar? '>').map fun place => (place.skipUpTo 1).2

/-- The place after what continues a container, if the line does. -/
def Container.continue? (place : Cursor) : Container → Option Cursor
  | .quote => afterQuoteSign? place
  | .list _ _ _ => some place
  | .item indent =>
    match place.skipSpace indent with
    | (0, place) => some place
    | (_, place) => if place.atEnd then some place else none
  | .footnote _ =>
    match place.skipSpace 4 with
    | (0, place) => some place
    | (_, place) => if place.atEnd then some place else none

/-- How many of the containers, outermost first, a line continues, and the place after that. -/
def continued : List Container → Cursor → Nat × Cursor
  | [], place => (0, place)
  | container :: rest, place =>
    match container.continue? place with
    | some place =>
      let (count, place) := continued rest place
      (count + 1, place)
    | none => (0, place)

/-- An open container with its content so far, latest first. -/
structure Frame where
  container : Container
  content : List Block := []
deriving Repr

/-- A document that is being read: the open containers, innermost first, and the rest. -/
structure Builder where
  frames : List Frame := []
  /-- The blocks outside the open containers, latest first. -/
  root : List Block := []
  /-- Whether the last line was blank, and this has not yet been accounted for. -/
  afterBlank : Bool := false
  /-- Whether the current item began with a blank line and has no content yet. -/
  emptyItem : Bool := false
  /-- The mark of a task that waits for its paragraph. -/
  task : Option Bool := none
  definitions : Definitions := {}
deriving Repr

namespace Builder

/-- The open containers, outermost first. -/
def containers (builder : Builder) : List Container :=
  builder.frames.reverse.map (·.container)

/-- The builder after one more block in the innermost container. -/
def append (builder : Builder) (block : Block) : Builder :=
  match builder.frames with
  | frame :: outer =>
    { builder with frames := { frame with content := block :: frame.content } :: outer }
  | [] => { builder with root := block :: builder.root }

/-- The builder with one more open container. -/
def openFrame (builder : Builder) (container : Container) : Builder :=
  { builder with frames := ⟨container, []⟩ :: builder.frames }

/-- The block of a container that ends. -/
def Frame.toBlock (frame : Frame) : Block :=
  let content := frame.content.reverse
  match frame.container with
  | .quote => .quote content
  | .list tight sign start =>
    .list (if ListMarker.ordered sign then some start else none) tight content
  | .item _ => .item content
  | .footnote label => .footnote label content

/-- The builder after the end of the innermost container. -/
def closeFrame (builder : Builder) : Builder :=
  match builder.frames with
  | [] => builder
  | frame :: outer =>
    let emptyItem := match frame.container with
      | .list true _ _ => false
      | _ => builder.emptyItem
    { builder with frames := outer, emptyItem }.append (Frame.toBlock frame)

/-- The builder after the ends of the `count` innermost containers. -/
def closeFrames : Nat → Builder → Builder
  | 0, builder => builder
  | count + 1, builder => closeFrames count builder.closeFrame

/-- The builder after a blank line. A quote does not count it; an item without content that meets
it can have none any more, so it takes no indentation from the lines that follow. -/
def passBlank (builder : Builder) : Builder :=
  match builder.frames with
  | ⟨.quote, _⟩ :: _ => builder
  | ⟨.item indent, content⟩ :: outer =>
    let indent := if builder.emptyItem then 0 else indent
    { builder with frames := ⟨.item indent, content⟩ :: outer, afterBlank := true }
  | _ => { builder with afterBlank := true }

/-- The builder in which the innermost list, if the builder is in an item of it, is loose when a
blank line has come. -/
def settleLooseness (builder : Builder) : Builder :=
  if builder.afterBlank then
    match builder.frames with
    | inner :: ⟨.list _ sign start, content⟩ :: outer =>
      { builder with
        frames := inner :: ⟨.list false sign start, content⟩ :: outer, afterBlank := false }
    | _ => { builder with afterBlank := false }
  else builder

/-- The builder after the end of an item that is still empty when two blank lines have come. -/
def finishEmptyItem (builder : Builder) : Builder :=
  let builder' : Builder :=
    if builder.emptyItem && builder.afterBlank then
      match builder.frames with
      | ⟨.item _, _⟩ :: _ => builder.closeFrame
      | _ => builder
    else builder
  { builder' with emptyItem := false }

/-- The builder before a block that is no list item: a list whose item has ended ends, and a blank
line before a further block of an item makes its list loose. -/
def finishList (builder : Builder) : Builder :=
  let builder := builder.finishEmptyItem
  let builder := match builder.frames with
    | ⟨.list _ _ _, _⟩ :: _ => builder.closeFrame
    | _ => builder
  builder.settleLooseness

/-- The builder in which a list for an item with the given marker is open: the current one if the
signs agree, or a new one. -/
def continueList (builder : Builder) (sign : Char) (start : Nat) : Builder :=
  let builder := builder.finishEmptyItem
  let fresh := fun (builder : Builder) =>
    { builder.openFrame (.list true sign start) with afterBlank := false }
  match builder.frames with
  | [] => fresh builder
  | ⟨.list tight existing first, content⟩ :: outer =>
    if existing = sign then
      { builder with
        frames := ⟨.list (tight && !builder.afterBlank) existing first, content⟩ :: outer
        afterBlank := false }
    else fresh builder.finishList
  | _ => fresh builder.finishList

/-- The builder with a footnote open; the label of a footnote that it follows directly ends that
one. -/
def openFootnote (builder : Builder) (label : Text) : Builder :=
  let builder := builder.finishList
  let builder := match builder.frames with
    | ⟨.footnote _, _⟩ :: _ => builder.closeFrame
    | _ => builder
  let builder := { builder with definitions := builder.definitions.addNote label }
  builder.openFrame (.footnote label)

/-- All blocks, after the end of the document. -/
def finish (builder : Builder) : List Block :=
  (closeFrames builder.frames.length builder).root.reverse

end Builder

end Lectern.Markdown
