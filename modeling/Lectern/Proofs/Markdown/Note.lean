import Lectern.Proofs.Markdown.Shape

/-!
# Footnote Definitions in Documents

Where footnote definitions stand in a stream that is well nested, whatever else it holds, and the
stream without them. The page writer keeps one output waiting, so it matters whether a definition
stands in another one; it keeps one heading, one image, one code block and one table as well, so it
matters whether a definition stands in one of those.

* `NotesApart` — no definition stands in another.
* `StandsFree` — nor does one stand in anything that the writer has to remember.
* `Tree.dropNotes` and `Tree.notes` — a document without its definitions, and its definitions.
-/

namespace Lectern.Markdown

/-! ### Positions -/

/-- Whether an event is the **edge** of an element, its start or its end. -/
def Event.isEdge : Event → Bool
  | .start _ | .finish _ => true
  | _ => false

/-- Whether the footnote definitions in a well-nested tree stand **apart**: none stands in another,
and there is none at all if the tree stands within one. -/
inductive NotesApart : (inNote : Bool) → Tree → Prop
  | leaf {inNote : Bool} {event : Event} : event.isEdge = false → NotesApart inNote (.leaf event)
  | note {label : Text} {children : List Tree} :
      (∀ child ∈ children, NotesApart true child) →
      NotesApart false (.node (.footnote label) children)
  | node {inNote : Bool} {tag : Tag} {children : List Tree} :
      (∀ label, tag ≠ .footnote label) → (∀ child ∈ children, NotesApart inNote child) →
      NotesApart inNote (.node tag children)

/-- Whether an event **suits** a text, or the body of a footnote definition without headings and
references. Definitions themselves suit neither. -/
def Event.suits (inNote : Bool) : Event → Bool
  | .start (.footnote _) | .finish .footnote => false
  | .start (.heading _) | .finish (.heading _) | .footnoteReference _ => !inNote
  | _ => true

/-- Whether an element is a table. -/
def Tag.isTable : Tag → Bool
  | .table _ => true
  | _ => false

/-- Whether an element is a part of a table. -/
def Tag.isTablePart : Tag → Bool
  | .tableHead | .tableRow | .tableCell => true
  | _ => false

/-- A well-nested tree whose events all suit a text or the body of a footnote definition. Parts of
a table stand in a table. -/
inductive IsPlain (inNote : Bool) : (inTable : Bool) → Tree → Prop
  | leaf {inTable : Bool} {event : Event} : event.isEdge = false → event.suits inNote = true →
      IsPlain inNote inTable (.leaf event)
  | node {inTable : Bool} {tag : Tag} {children : List Tree} :
      (Event.start tag).suits inNote = true → (tag.isTablePart = true → inTable = true) →
      (∀ child ∈ children, IsPlain inNote (inTable || tag.isTable) child) →
      IsPlain inNote inTable (.node tag children)

/-- Whether the footnote definitions in a well-nested tree stand **free**, between the parts of a
text or in elements that only surround their content, and hold no definitions, no headings and no
references themselves. -/
inductive StandsFree : Tree → Prop
  | plain {tree : Tree} : IsPlain false false tree → StandsFree tree
  | container {tag : Tag} {children : List Tree} : IsContainer tag →
      (∀ child ∈ children, StandsFree child) →
      StandsFree (.node tag children)
  | note {label : Text} {children : List Tree} : (∀ child ∈ children, IsPlain true false child) →
      StandsFree (.node (.footnote label) children)

/-- A footnote definition suits neither. -/
theorem Event.ne_footnote_of_suits {inNote : Bool} {tag : Tag}
    (h : (Event.start tag).suits inNote = true) (label : Text) : tag ≠ .footnote label := by
  rintro rfl
  cases h

/-- The end of an element suits where its start does. -/
theorem Event.suits_finish {inNote : Bool} {tag : Tag} (h : (Event.start tag).suits inNote = true) :
    (Event.finish tag.toEnd).suits inNote = true := by
  cases tag with
  | footnote label => cases h
  | heading level => exact h
  | _ => rfl

/-- What suits a text holds no definitions, so none stands in another. -/
theorem IsPlain.notesApart {inNote inTable : Bool} {tree : Tree} (h : IsPlain inNote inTable tree)
    (among : Bool) : NotesApart among tree := by
  induction h with
  | leaf hedge _ => exact .leaf hedge
  | node hsuits _ _ ih => exact .node (Event.ne_footnote_of_suits hsuits) ih

/-- The events of trees, one tree after the other. -/
theorem Tree.eventsOfList_eq (trees : List Tree) :
    Tree.eventsOfList trees = trees.flatMap Tree.events := by
  induction trees with
  | nil => rfl
  | cons tree trees ih => rw [Tree.eventsOfList, ih, List.flatMap_cons]

/-- The events of an element are its edges and the events of its children. -/
theorem Tree.mem_events_node {tag : Tag} {children : List Tree} {event : Event} :
    event ∈ (Tree.node tag children).events ↔ event = .start tag ∨
      (∃ child ∈ children, event ∈ child.events) ∨ event = .finish tag.toEnd := by
  simp [Tree.events, Tree.eventsOfList_eq, List.mem_flatMap]

/-- The events of a plain tree suit. -/
theorem IsPlain.suits_of_mem {inNote inTable : Bool} {tree : Tree}
    (h : IsPlain inNote inTable tree) : ∀ event ∈ tree.events, event.suits inNote = true := by
  induction h with
  | leaf _ hsuits => simpa [Tree.events] using hsuits
  | @node inTable tag children hsuits _ _ ih =>
    intro event hevent
    rcases Tree.mem_events_node.1 hevent with rfl | ⟨child, hchild, hevent⟩ | rfl
    · exact hsuits
    · exact ih child hchild event hevent
    · exact Event.suits_finish hsuits

/-- The events of plain trees suit. -/
theorem Tree.suits_of_mem_eventsOfList {inNote inTable : Bool} {trees : List Tree}
    (h : ∀ tree ∈ trees, IsPlain inNote inTable tree) :
    ∀ event ∈ Tree.eventsOfList trees, event.suits inNote = true := by
  intro event hevent
  rw [Tree.eventsOfList_eq] at hevent
  obtain ⟨tree, htree, hevent⟩ := List.mem_flatMap.1 hevent
  exact (h tree htree).suits_of_mem event hevent

/-! ### Removal -/

mutual

/-- A tree **without** its footnote definitions. -/
def Tree.dropNotes : Tree → List Tree
  | .leaf event => [.leaf event]
  | .node (.footnote _) _ => []
  | .node tag children => [.node tag (Tree.dropNotesOf children)]

/-- Trees without their footnote definitions. -/
def Tree.dropNotesOf : List Tree → List Tree
  | [] => []
  | tree :: trees => tree.dropNotes ++ Tree.dropNotesOf trees

end

mutual

/-- The **footnote definitions** of a tree in order, each with its label and its content. -/
def Tree.notes : Tree → List (Text × List Tree)
  | .leaf _ => []
  | .node (.footnote label) children => [(label, children)]
  | .node _ children => Tree.notesOf children

/-- The footnote definitions of trees. -/
def Tree.notesOf : List Tree → List (Text × List Tree)
  | [] => []
  | tree :: trees => tree.notes ++ Tree.notesOf trees

end

/-- The events of trees after trees. -/
theorem Tree.eventsOfList_append (first second : List Tree) :
    Tree.eventsOfList (first ++ second) = Tree.eventsOfList first ++ Tree.eventsOfList second := by
  simp only [Tree.eventsOfList_eq, List.flatMap_append]

/-- Any other element than a footnote definition stays, without those in it. -/
theorem Tree.dropNotes_node {tag : Tag} (htag : ∀ label, tag ≠ .footnote label)
    (children : List Tree) :
    (Tree.node tag children).dropNotes = [.node tag (Tree.dropNotesOf children)] ∧
      (Tree.node tag children).notes = Tree.notesOf children := by
  cases tag with
  | footnote label => exact absurd rfl (htag label)
  | _ => exact ⟨rfl, rfl⟩

/-- A footnote definition surrounds no part of the text. -/
theorem IsContainer.ne_footnote {tag : Tag} (h : IsContainer tag) (label : Text) :
    tag ≠ .footnote label := by
  rintro rfl
  cases h with
  | span h => cases h

/-- Trees without definitions lose nothing. -/
theorem Tree.dropNotesOf_eq_self {trees : List Tree}
    (h : ∀ tree ∈ trees, tree.dropNotes = [tree] ∧ tree.notes = []) :
    Tree.dropNotesOf trees = trees ∧ Tree.notesOf trees = [] := by
  induction trees with
  | nil => exact ⟨rfl, rfl⟩
  | cons tree trees ih =>
    obtain ⟨⟨hdrop, hnotes⟩, hothers⟩ := List.forall_mem_cons.1 h
    obtain ⟨hdrops, hnone⟩ := ih hothers
    rw [Tree.dropNotesOf, Tree.notesOf, hdrop, hnotes, hdrops, hnone]
    exact ⟨rfl, rfl⟩

/-- A plain tree has no definitions to lose. -/
theorem IsPlain.dropNotes {inNote inTable : Bool} {tree : Tree} (h : IsPlain inNote inTable tree) :
    tree.dropNotes = [tree] ∧ tree.notes = [] := by
  induction h with
  | leaf _ _ => exact ⟨rfl, rfl⟩
  | @node inTable tag children hsuits _ _ ih =>
    obtain ⟨hdrop, hnotes⟩ := Tree.dropNotes_node
      (Event.ne_footnote_of_suits hsuits) children
    obtain ⟨hdrops, hnone⟩ := Tree.dropNotesOf_eq_self ih
    rw [hdrop, hnotes, hdrops, hnone]
    exact ⟨rfl, rfl⟩

end Lectern.Markdown
