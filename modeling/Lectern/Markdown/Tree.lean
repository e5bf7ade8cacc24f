import Lectern.Markdown.Event

/-!
# Element Trees

A document as nested elements. The events of a tree are well nested by construction: each node
gives the start of its element, the events of its children and the end that belongs to the start.
-/

namespace Lectern.Markdown

/-- A part of a document: an event of its own, or an element with its content. -/
inductive Tree where
  | leaf (event : Event)
  | node (tag : Tag) (children : List Tree)
deriving Repr

mutual

/-- The events of a tree. -/
def Tree.events : Tree → List Event
  | .leaf event => [event]
  | .node tag children => .start tag :: (Tree.eventsOfList children ++ [.finish tag.toEnd])

/-- The events of trees, one after the other. -/
def Tree.eventsOfList : List Tree → List Event
  | [] => []
  | tree :: rest => tree.events ++ Tree.eventsOfList rest

end

/-- The leaf of a text. -/
def Tree.text (s : Text) : Tree := .leaf (.text s)

/-- A tree in front of others, joined to a text that comes next if it is a text itself. -/
def Tree.consJoined : Tree → List Tree → List Tree
  | .leaf (.text s), .leaf (.text t) :: rest => .leaf (.text (s ++ t)) :: rest
  | tree, rest => tree :: rest

/-- Trees with neighbouring texts **joined**. -/
def Tree.joinTexts (trees : List Tree) : List Tree := trees.foldr Tree.consJoined []

end Lectern.Markdown
