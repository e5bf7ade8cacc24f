import Lectern.Markdown.Document
import Lectern.Proofs.Markdown.Line

/-!
# Footnotes and their Definitions

A label becomes a footnote reference only if a definition of it is known, and the parser knows of a
definition from the label that stands before it. Here both ends are tied together over whole
documents: what the builder holds in its open containers and its finished blocks includes, for each
label that it has noted, a definition of that label. Each operation of the builder keeps this,
because a block that is held stays held when its container ends.

Labels are compared without regard to case, so the reference and the definition may be spelled
differently.

## Main results

* `Builder.Grows`: what an operation keeps; `grows_readBlock`: the blocks of one line keep it.
* `isPart_of_mem_trees`: where footnote definitions stand in the trees of a document.
* `exists_start_of_reference`: each reference of a document has a definition in it.
-/

namespace Lectern.Markdown

/-! ### Blocks in blocks -/

/-- The blocks that stand in a block. -/
def Block.children : Block → List Block
  | .quote children | .list _ _ children | .item children | .footnote _ children => children
  | _ => []

/-- What holds of a block if it holds of the blocks in it holds of all blocks. -/
theorem Block.induction {P : Block → Prop}
    (h : ∀ block : Block, (∀ child ∈ block.children, P child) → P block) (block : Block) :
    P block :=
  h block fun child _hchild => Block.induction h child
termination_by block
decreasing_by
  cases block with
  | quote children | list _ _ children | item children | footnote _ children =>
    have hlt := List.sizeOf_lt_of_mem _hchild
    simp only [Block.children] at hlt
    simp
    omega
  | _ => cases _hchild

/-- Whether a block **holds** a footnote definition with that label. -/
inductive Block.Holds (label : Text) : Block → Prop
  | here {children : List Block} : Holds label (.footnote label children)
  | child {block child : Block} : child ∈ block.children → Holds label child → Holds label block

/-! ### The builder -/

namespace Builder

/-- Whether an open container holds a footnote definition, or is one. -/
def FrameHolds (label : Text) (frame : Frame) : Prop :=
  frame.container = .footnote label ∨ ∃ block ∈ frame.content, block.Holds label

/-- Whether a builder **holds** a footnote definition. -/
def Holds (label : Text) (builder : Builder) : Prop :=
  (∃ frame ∈ builder.frames, FrameHolds label frame) ∨ ∃ block ∈ builder.root, block.Holds label

/-- Whether a builder has what another one has, and a footnote definition for each further label
that it knows of. -/
structure Grows (builder builder' : Builder) : Prop where
  holds : ∀ label, builder.Holds label → builder'.Holds label
  notes : ∀ note ∈ builder'.definitions.notes,
    note ∈ builder.definitions.notes ∨ ∃ label, Unicode.caseFold label = note ∧ builder'.Holds label

variable {builder builder' last : Builder} {label : Text}

/-- Nothing changes. -/
theorem Grows.refl (builder : Builder) : Grows builder builder :=
  ⟨fun _ h => h, fun _ h => .inl h⟩

/-- One change after the other. -/
theorem Grows.trans (h : Grows builder builder') (h' : Grows builder' last) :
    Grows builder last where
  holds label hlabel := h'.holds label (h.holds label hlabel)
  notes note hnote := by
    rcases h'.notes note hnote with hearlier | hheld
    · rcases h.notes note hearlier with hfirst | ⟨label, hfold, hheld⟩
      · exact .inl hfirst
      · exact .inr ⟨label, hfold, h'.holds label hheld⟩
    · exact .inr hheld

/-- A change that leaves the definitions alone. -/
theorem Grows.of_holds (hnotes : builder'.definitions.notes = builder.definitions.notes)
    (h : ∀ label, builder.Holds label → builder'.Holds label) : Grows builder builder' :=
  ⟨h, fun _ hnote => .inl (hnotes ▸ hnote)⟩

/-- A change of anything else after a change. -/
theorem Grows.of_eq (h : Grows builder builder') (hframes : last.frames = builder'.frames)
    (hroot : last.root = builder'.root) (hdefinitions : last.definitions = builder'.definitions) :
    Grows builder last := by
  refine h.trans (.of_holds (congrArg _ hdefinitions) fun label hlabel => ?_)
  unfold Holds
  rwa [hframes, hroot]

/-- The block of a container holds what the container holds. -/
theorem holds_toBlock {frame : Frame} (h : FrameHolds label frame) :
    (Frame.toBlock frame).Holds label := by
  obtain ⟨container, content⟩ := frame
  rcases h with hlabel | ⟨block, hblock, hheld⟩
  · obtain rfl : container = .footnote label := hlabel
    exact .here
  · cases container <;> exact .child (List.mem_reverse.2 hblock) hheld

/-- What a builder holds after one more block. -/
theorem holds_append {block : Block} (h : builder.Holds label ∨ block.Holds label) :
    (builder.append block).Holds label := by
  unfold append
  split
  next frame outer heq =>
    rcases h with (⟨other, hother, hheld⟩ | hroot) | hblock
    · rcases List.mem_cons.1 (heq ▸ hother) with rfl | houter
      · refine .inl ⟨_, List.mem_cons_self, hheld.imp_right ?_⟩
        exact fun ⟨inner, hinner, hheld⟩ => ⟨inner, List.mem_cons_of_mem _ hinner, hheld⟩
      · exact .inl ⟨other, List.mem_cons_of_mem _ houter, hheld⟩
    · exact .inr hroot
    · exact .inl ⟨_, List.mem_cons_self, .inr ⟨block, List.mem_cons_self, hblock⟩⟩
  next =>
    rcases h with (hframe | ⟨other, hother, hheld⟩) | hblock
    · exact .inl hframe
    · exact .inr ⟨other, List.mem_cons_of_mem _ hother, hheld⟩
    · exact .inr ⟨block, List.mem_cons_self, hblock⟩

/-- One more block. -/
theorem grows_append (builder : Builder) (block : Block) :
    Grows builder (builder.append block) := by
  refine .of_holds ?_ fun label h => holds_append (.inl h)
  unfold append
  split <;> rfl

/-- One more open container. -/
theorem grows_openFrame (builder : Builder) (container : Container) :
    Grows builder (builder.openFrame container) := by
  refine .of_holds rfl fun label h => ?_
  rcases h with ⟨frame, hframe, hheld⟩ | hroot
  · exact .inl ⟨frame, List.mem_cons_of_mem _ hframe, hheld⟩
  · exact .inr hroot

/-- Containers that change, but hold what they have held. -/
theorem Grows.of_frames (hnotes : builder'.definitions.notes = builder.definitions.notes)
    (hroot : builder'.root = builder.root)
    (h : ∀ label, (∃ frame ∈ builder.frames, FrameHolds label frame) →
      ∃ frame ∈ builder'.frames, FrameHolds label frame) : Grows builder builder' :=
  .of_holds hnotes fun label hlabel => hlabel.imp (h label) fun hheld => by rwa [hroot]

/-- **The end of a container**: its block holds what the container has held. -/
theorem grows_closeFrame (builder : Builder) : Grows builder builder.closeFrame := by
  unfold closeFrame
  split
  · exact .refl builder
  next frame outer heq =>
    refine ⟨fun label h => ?_, (grows_append _ _).notes⟩
    rcases h with ⟨other, hother, hheld⟩ | hroot
    · rcases List.mem_cons.1 (heq ▸ hother) with rfl | houter
      · exact holds_append (.inr (holds_toBlock hheld))
      · exact holds_append (.inl (.inl ⟨other, houter, hheld⟩))
    · exact holds_append (.inl (.inr hroot))

/-- The ends of containers. -/
theorem grows_closeFrames (count : Nat) (builder : Builder) :
    Grows builder (closeFrames count builder) := by
  induction count generalizing builder with
  | zero => exact .refl builder
  | succ count ih => exact (grows_closeFrame builder).trans (ih _)

/-- A blank line. -/
theorem grows_passBlank (builder : Builder) : Grows builder builder.passBlank := by
  unfold passBlank
  split
  · exact .refl builder
  next heq => exact .of_frames rfl rfl fun label h => by simpa [heq, FrameHolds] using h
  · exact (Grows.refl builder).of_eq rfl rfl rfl

/-- A blank line before a further block. -/
theorem grows_settleLooseness (builder : Builder) : Grows builder builder.settleLooseness := by
  unfold settleLooseness
  split
  · split
    next heq => exact .of_frames rfl rfl fun label h => by simpa [heq, FrameHolds] using h
    · exact (Grows.refl builder).of_eq rfl rfl rfl
  · exact .refl builder

/-- The end of an item without content. -/
theorem grows_finishEmptyItem (builder : Builder) : Grows builder builder.finishEmptyItem := by
  unfold finishEmptyItem
  split
  · split
    · exact (grows_closeFrame builder).of_eq rfl rfl rfl
    · exact (Grows.refl builder).of_eq rfl rfl rfl
  · exact (Grows.refl builder).of_eq rfl rfl rfl

/-- The end of a list before a block that is no item. -/
theorem grows_finishList (builder : Builder) : Grows builder builder.finishList := by
  unfold finishList
  refine (grows_finishEmptyItem builder).trans (.trans ?_ (grows_settleLooseness _))
  split
  · exact grows_closeFrame _
  · exact .refl _

/-- The list of an item. -/
theorem grows_continueList (builder : Builder) (sign : Char) (start : Nat) :
    Grows builder (builder.continueList sign start) := by
  have hfresh : ∀ builder : Builder, Grows builder
      { builder.openFrame (.list true sign start) with afterBlank := false } := fun builder =>
    (grows_openFrame builder _).of_eq rfl rfl rfl
  refine (grows_finishEmptyItem builder).trans ?_
  unfold continueList
  dsimp only
  split
  · exact hfresh _
  next heq =>
    split
    · exact .of_frames rfl rfl fun label h => by simpa [heq, FrameHolds] using h
    · exact (grows_finishList _).trans (hfresh _)
  · exact (grows_finishList _).trans (hfresh _)

/-- **A label that is noted** is held at once, by the container that it opens. -/
theorem grows_addNote (builder : Builder) (label : Text) :
    Grows builder ({ builder with definitions := builder.definitions.addNote label }.openFrame
      (.footnote label)) := by
  refine ⟨(grows_openFrame builder (.footnote label)).holds, fun note hnote => ?_⟩
  rcases List.mem_cons.1 hnote with rfl | hearlier
  · exact .inr ⟨label, rfl, .inl ⟨_, List.mem_cons_self, .inl rfl⟩⟩
  · exact .inl hearlier

/-- **A footnote definition** that starts. -/
theorem grows_openFootnote (builder : Builder) (label : Text) :
    Grows builder (builder.openFootnote label) := by
  unfold openFootnote
  refine (grows_finishList builder).trans (.trans ?_ (grows_addNote _ label))
  split
  · exact grows_closeFrame _
  · exact .refl _

/-- A further block leaves the number of open containers as it is. -/
theorem length_frames_append (builder : Builder) (block : Block) :
    (builder.append block).frames.length = builder.frames.length := by
  unfold append
  split
  next heq => simp [heq]
  next => rfl

/-- One container less is open after the end of one. -/
theorem length_frames_closeFrame (builder : Builder) :
    builder.closeFrame.frames.length = builder.frames.length - 1 := by
  unfold closeFrame
  split
  next heq => simp [heq]
  next heq => rw [length_frames_append, heq, List.length_cons, Nat.add_sub_cancel]

/-- **At the end of the document** the blocks hold what the builder has held. -/
theorem exists_block_of_holds (h : builder.Holds label) :
    ∃ block ∈ builder.finish, block.Holds label := by
  have hopen : ∀ count, ∀ builder : Builder, builder.frames.length = count →
      (closeFrames count builder).frames = [] := by
    intro count
    induction count with
    | zero => exact fun builder hlength => List.length_eq_zero_iff.1 hlength
    | succ count ih =>
      intro builder hlength
      exact ih _ (by rw [length_frames_closeFrame, hlength, Nat.add_sub_cancel])
  rcases (grows_closeFrames builder.frames.length builder).holds label h with
    ⟨frame, hframe, -⟩ | ⟨block, hblock, hheld⟩
  · rw [hopen _ builder rfl] at hframe
    cases hframe
  · exact ⟨block, List.mem_reverse.2 hblock, hheld⟩

end Builder

/-! ### Lines -/

namespace Document

open Builder

/-- The containers that a line opens. -/
theorem grows_openContainers (steps : Nat) (builder : Builder) (place : Cursor) :
    Grows builder (openContainers steps builder place).1 := by
  induction steps generalizing builder place with
  | zero => exact .refl builder
  | succ steps ih =>
    unfold openContainers
    dsimp only
    split
    · exact .refl builder
    split
    · exact (grows_openFootnote builder _).trans (ih _ _)
    split
    next marker _ =>
      have hitem : Grows builder ((builder.continueList marker.sign marker.start).openFrame
          (.item ((place.skipUpTo 4).1 + (itemStart marker (place.skipUpTo 4).2).1))) :=
        (grows_continueList builder _ _).trans (grows_openFrame _ _)
      split
      · exact hitem.of_eq rfl rfl rfl
      split
      next checked _ _ =>
        split
        · exact (hitem.trans (grows_append _ (.taskMarker checked))).of_eq rfl rfl rfl
        · refine .trans ?_ (ih _ _)
          exact hitem.of_eq rfl rfl rfl
      · exact hitem.trans (ih _ _)
    · split
      · exact (grows_finishList builder).trans ((grows_openFrame _ _).trans (ih _ _))
      · exact .refl builder

/-- A paragraph or a table. -/
theorem grows_readParagraph (builder : Builder) (s : Text) (rest : List Text) :
    Grows builder (readParagraph builder s rest).1 := by
  have hmark : Grows builder { builder with task := none } :=
    (Grows.refl builder).of_eq rfl rfl rfl
  unfold readParagraph
  dsimp only
  split
  · exact hmark.trans (grows_append _ _)
  · split <;> exact hmark.trans (grows_append _ _)

/-- A block that holds no other blocks. -/
theorem grows_readLeaf (builder : Builder) (place : Cursor) (rest : List Text) :
    Grows builder (readLeaf builder place rest).1 := by
  refine (grows_finishList builder).trans ?_
  unfold readLeaf
  dsimp only
  generalize builder.finishList = builder
  split
  · exact (grows_append builder _).of_eq rfl rfl rfl
  split
  · exact grows_append builder _
  split
  · exact grows_append builder _
  split
  · exact grows_append builder _
  split
  · exact grows_append builder _
  split
  · exact ⟨fun _ h => h, fun _ h => .inl h⟩
  · exact grows_readParagraph builder _ _

/-- **The blocks of a line**. -/
theorem grows_readBlock (builder : Builder) (line : Text) (rest : List Text) :
    Grows builder (readBlock builder line rest).1 := by
  unfold readBlock
  dsimp only
  generalize continued builder.containers { rest := line } = kept
  have hopened := grows_openContainers (line.length + 1)
    (closeFrames (builder.frames.length - kept.1) builder) kept.2
  refine (grows_closeFrames _ builder).trans (hopened.trans ?_)
  split
  next heq =>
    rw [heq]
    exact .refl _
  next heq =>
    rw [heq]
    split
    · exact grows_passBlank _
    · exact grows_readLeaf _ _ _

/-- All blocks of a source. -/
theorem grows_readAll (steps : Nat) (builder : Builder) (source : List Text) :
    Grows builder (readAll steps builder source) := by
  induction steps generalizing builder source with
  | zero => exact .refl builder
  | succ steps ih =>
    cases source with
    | nil => exact .refl builder
    | cons line rest => exact (grows_readBlock builder line rest).trans (ih _ _)

/-- **The blocks of a source hold** a definition of each footnote label that is known. -/
theorem exists_block_of_hasNote {source label : Text}
    (h : (blocks source).2.hasNote label = true) :
    ∃ defined, Unicode.caseFold defined = Unicode.caseFold label ∧
      ∃ block ∈ (blocks source).1, block.Holds defined := by
  have hmem : Unicode.caseFold label ∈ (blocks source).2.notes := by
    simpa [Definitions.hasNote] using h
  rcases (grows_readAll (lines (unifyLineEnds source)).length {}
    (lines (unifyLineEnds source))).notes _ hmem with hnone | ⟨defined, hfold, hheld⟩
  · cases hnone
  · exact ⟨defined, hfold, exists_block_of_holds hheld⟩

end Document

/-! ### Trees -/

/-- A **part of a document**: a part of a line, a heading around parts of a line, or any element but
a heading and an image around other parts. Footnote definitions stand in no heading and no image. -/
inductive IsPart (definitions : Definitions) : Tree → Prop
  | line {tree : Tree} : IsLine definitions tree → IsPart definitions tree
  | heading {level : Nat} {children : List Tree} : (∀ child ∈ children, IsLine definitions child) →
      IsPart definitions (.node (.heading level) children)
  | node {tag : Tag} {children : List Tree} : (∀ level, tag ≠ .heading level) →
      (∀ url title, tag ≠ .image url title) → (∀ child ∈ children, IsPart definitions child) →
      IsPart definitions (.node tag children)

variable {definitions : Definitions} {tree : Tree}

/-- A leaf that is neither an edge nor a reference. -/
theorem isPart_leaf {event : Event} (hedge : event.isEdge = false)
    (hreference : ∀ label, event ≠ .footnoteReference label) :
    IsPart definitions (.leaf event) :=
  .line (.leaf hedge fun label heq => absurd heq (hreference label))

/-- The references of a part have notes. -/
theorem IsPart.hasNote {label : Text} (h : IsPart definitions tree)
    (hmem : .footnoteReference label ∈ tree.events) : definitions.hasNote label = true := by
  induction h with
  | line hline => exact hline.hasNote hmem
  | heading hchildren =>
    rcases Tree.mem_events_node.1 hmem with heq | ⟨child, hchild, hevent⟩ | heq
    · cases heq
    · exact (hchildren child hchild).hasNote hevent
    · cases heq
  | node _ _ _ ih =>
    rcases Tree.mem_events_node.1 hmem with heq | ⟨child, hchild, hevent⟩ | heq
    · cases heq
    · exact ih child hchild hevent
    · cases heq

/-- The parts of a document stand in one: no heading ends in an image. -/
theorem IsPart.standsInText (h : IsPart definitions tree) :
    StandsInText (fun event => ∀ level, event ≠ .finish (.heading level)) tree := by
  induction h with
  | line hline => exact .line hline.standsInLine
  | heading hchildren => exact .heading fun child hchild => (hchildren child hchild).standsInLine
  | @node tag children hheading himage _ ih =>
    cases tag with
    | footnote label => exact .footnote ih
    | heading level => exact absurd rfl (hheading level)
    | image url title => exact absurd rfl (himage url title)
    | _ => exact .node rfl ih

/-- The trees of blocks, block by block. -/
theorem Block.treesOfList_eq (tight : Bool) (blocks : List Block) :
    Block.treesOfList definitions tight blocks = blocks.flatMap (·.trees definitions tight) := by
  induction blocks with
  | nil => rfl
  | cons block blocks ih => rw [Block.treesOfList, ih, List.flatMap_cons]

/-- The content of a paragraph, a heading or a cell, with the mark of a task. -/
theorem isLine_content (definitions : Definitions) (task : Option Bool) (source : Text) :
    ∀ tree ∈ taskLeaf task ++ Inline.parse definitions source, IsLine definitions tree := by
  refine List.forall_mem_append.2 ⟨fun tree htree => ?_, fun _ => isLine_of_mem_parse⟩
  obtain ⟨checked, -, rfl⟩ : ∃ checked, task = some checked ∧
      .leaf (.taskMarker checked) = tree := by
    simpa [taskLeaf] using htree
  exact .leaf rfl nofun

/-- The cells of a row. -/
theorem isPart_cellTrees (cells : List Text) :
    ∀ tree ∈ cellTrees definitions cells, IsPart definitions tree := by
  intro tree htree
  obtain ⟨source, -, rfl⟩ := List.mem_map.1 htree
  exact .node nofun nofun fun child hchild => .line (isLine_of_mem_parse hchild)

/-- **The trees of a block** are parts of a document. -/
theorem isPart_trees (block : Block) (tight : Bool) :
    ∀ tree ∈ block.trees definitions tight, IsPart definitions tree := by
  induction block using Block.induction generalizing tight with
  | h block ih =>
    have hchildren : ∀ tight, ∀ tree ∈ Block.treesOfList definitions tight block.children,
        IsPart definitions tree := by
      intro tight tree htree
      rw [Block.treesOfList_eq] at htree
      obtain ⟨child, hchild, hmem⟩ := List.mem_flatMap.1 htree
      exact ih child hchild tight tree hmem
    cases block with
    | paragraph task source =>
      have hcontent := isLine_content definitions task source
      unfold Block.trees
      dsimp only
      split
      · exact fun tree htree => .line (hcontent tree htree)
      · exact List.forall_mem_singleton.2
          (.node nofun nofun fun child hchild => .line (hcontent child hchild))
    | heading level task source =>
      exact List.forall_mem_singleton.2 (.heading (isLine_content _ task source))
    | rule => exact List.forall_mem_singleton.2 (isPart_leaf rfl nofun)
    | code info content =>
      refine List.forall_mem_singleton.2
        (.line (.node (fun label => ?_) (fun level => ?_) fun child hchild => ?_))
      · split <;> nofun
      · split <;> nofun
      · obtain ⟨-, rfl⟩ : content ≠ [] ∧ child = .text content := by simpa [textLeaf] using hchild
        exact isLine_text content
    | html content =>
      exact List.forall_mem_singleton.2
        (.node nofun nofun (List.forall_mem_singleton.2 (isPart_leaf rfl nofun)))
    | quote children | list start tight items | item children | footnote label children =>
      exact List.forall_mem_singleton.2 (.node nofun nofun (hchildren _))
    | table alignments head rows =>
      refine List.forall_mem_singleton.2 (.node nofun nofun (List.forall_mem_cons.2 ⟨?_, ?_⟩))
      · exact .node nofun nofun (isPart_cellTrees head)
      · intro tree htree
        obtain ⟨row, -, rfl⟩ := List.mem_map.1 htree
        exact .node nofun nofun (isPart_cellTrees row)
    | taskMarker checked => exact List.forall_mem_singleton.2 (isPart_leaf rfl nofun)

/-- The trees of a block that stands in another one are among the children of that one's tree. -/
theorem Block.exists_tree_of_child (definitions : Definitions) {block child : Block}
    (h : child ∈ block.children) (tight : Bool) :
    ∃ tag children tight', block.trees definitions tight = [.node tag children] ∧
      ∀ tree ∈ child.trees definitions tight', tree ∈ children := by
  have hmem : ∀ {blocks tight}, child ∈ blocks → ∀ tree ∈ child.trees definitions tight,
      tree ∈ Block.treesOfList definitions tight blocks := by
    intro blocks tight hchild tree htree
    rw [Block.treesOfList_eq]
    exact List.mem_flatMap.2 ⟨child, hchild, htree⟩
  cases block with
  | quote children | list start tight items | item children | footnote label children =>
    exact ⟨_, _, _, rfl, hmem h⟩
  | _ => cases h

/-- **A definition that a block holds** starts in its trees. -/
theorem Block.Holds.exists_tree {label : Text} {block : Block} (h : block.Holds label)
    (definitions : Definitions) (tight : Bool) :
    ∃ tree ∈ block.trees definitions tight, .start (.footnote label) ∈ tree.events := by
  induction h generalizing tight with
  | here => exact ⟨_, List.mem_singleton_self _, Tree.mem_events_node.2 (.inl rfl)⟩
  | child hchild _ ih =>
    obtain ⟨tag, children, tight', htrees, hmem⟩ :=
      Block.exists_tree_of_child definitions hchild tight
    obtain ⟨tree, htree, hevent⟩ := ih tight'
    refine ⟨_, htrees ▸ List.mem_singleton_self _, ?_⟩
    exact Tree.mem_events_node.2 (.inr (.inl ⟨tree, hmem tree htree, hevent⟩))

namespace Document

/-- The trees of a document, block by block. -/
theorem trees_eq (source : Text) :
    trees source = (blocks source).1.flatMap (·.trees (blocks source).2 false) :=
  Block.treesOfList_eq false _

/-- The trees of a document are its parts. -/
theorem isPart_of_mem_trees {source : Text} (htree : tree ∈ trees source) :
    IsPart (blocks source).2 tree := by
  rw [trees_eq] at htree
  obtain ⟨block, -, hmem⟩ := List.mem_flatMap.1 htree
  exact isPart_trees block false tree hmem

/-- **Each reference has a definition** in the document, with the same label but for case. -/
theorem exists_start_of_reference {source label : Text}
    (h : .footnoteReference label ∈ parse source) : ∃ defined,
      Unicode.caseFold defined = Unicode.caseFold label ∧
        .start (.footnote defined) ∈ parse source := by
  rw [parse, Tree.eventsOfList_eq] at h
  obtain ⟨tree, htree, hevent⟩ := List.mem_flatMap.1 h
  obtain ⟨defined, hfold, block, hblock, hheld⟩ :=
    exists_block_of_hasNote ((isPart_of_mem_trees htree).hasNote hevent)
  obtain ⟨tree, htree, hstart⟩ := hheld.exists_tree (blocks source).2 false
  refine ⟨defined, hfold, ?_⟩
  rw [parse, trees_eq, Tree.eventsOfList_eq]
  exact List.mem_flatMap.2 ⟨tree, List.mem_flatMap.2 ⟨block, hblock, htree⟩, hstart⟩

end Document

end Lectern.Markdown
