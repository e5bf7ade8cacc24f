import Lectern.Markdown.Inline
import Lectern.Proofs.Markdown.Layout

/-!
# The Content of Lines

What the inline parser makes of a source, whatever the source is: its trees hold no headings and no
footnote definitions, and their footnote references all have a definition. The invariant is said of
the two states that the parser goes through, of the parts behind open brackets and of the trees
behind open runs of emphasis, and kept by each of their operations. References arise at one place
only, where a bracket closes and its label is looked up.

## Main results

* `resolveBrackets_eq_note`: a pair of brackets becomes a reference only if its label has a note.
* `InlineState.IsLine.step`: one step through a source.
* `isLine_of_mem_parse`: all trees of a source.
-/

namespace Lectern.Markdown

/-- A part of a **line**: it holds no headings and no footnote definitions, and its references have
theirs among the definitions of the document. -/
inductive IsLine (definitions : Definitions) : Tree → Prop
  | leaf {event : Event} : event.isEdge = false →
      (∀ label, event = .footnoteReference label → definitions.hasNote label = true) →
      IsLine definitions (.leaf event)
  | node {tag : Tag} {children : List Tree} : (∀ label, tag ≠ .footnote label) →
      (∀ level, tag ≠ .heading level) → (∀ child ∈ children, IsLine definitions child) →
      IsLine definitions (.node tag children)

variable {definitions : Definitions} {tree : Tree} {trees : List Tree}

/-- A text is a part of a line. -/
theorem isLine_text (s : Text) : IsLine definitions (.text s) := .leaf rfl nofun

/-- In a line there are no footnote definitions. -/
theorem IsLine.notesApart (h : IsLine definitions tree) (inNote : Bool) :
    NotesApart inNote tree := by
  induction h with
  | leaf hedge _ => exact .leaf hedge
  | node htag _ _ ih => exact .node htag ih

/-- The references of a line have notes. -/
theorem IsLine.hasNote {label : Text} (h : IsLine definitions tree)
    (hmem : .footnoteReference label ∈ tree.events) : definitions.hasNote label = true := by
  induction h with
  | leaf _ hnote => exact hnote label (List.mem_singleton.1 hmem).symm
  | node _ _ _ ih =>
    rcases Tree.mem_events_node.1 hmem with heq | ⟨child, hchild, hevent⟩ | heq
    · cases heq
    · exact ih child hchild hevent
    · cases heq

/-- No heading ends in a line. -/
theorem IsLine.ne_finish_heading {event : Event} (h : IsLine definitions tree)
    (hmem : event ∈ tree.events) (level : Nat) : event ≠ .finish (.heading level) := by
  rintro rfl
  induction h with
  | leaf hedge _ =>
    obtain rfl := List.mem_singleton.1 hmem
    cases hedge
  | @node tag children _ hheading _ ih =>
    rcases Tree.mem_events_node.1 hmem with heq | ⟨child, hchild, hevent⟩ | heq
    · cases heq
    · exact ih child hchild hevent
    · cases tag <;> first | exact hheading _ rfl | cases heq

/-- The parts of a line stand in one. -/
theorem IsLine.standsInLine (h : IsLine definitions tree) :
    StandsInLine (fun event => ∀ level, event ≠ .finish (.heading level)) tree := by
  induction h with
  | leaf hedge _ => exact .leaf hedge
  | @node tag children hfootnote hheading hchildren ih =>
    cases tag with
    | footnote label => exact absurd rfl (hfootnote label)
    | heading level => exact absurd rfl (hheading level)
    | image url title =>
      refine .image (fun event hevent => ?_) ih
      rw [Tree.eventsOfList_eq] at hevent
      obtain ⟨child, hchild, hmem⟩ := List.mem_flatMap.1 hevent
      exact (hchildren child hchild).ne_finish_heading hmem
    | _ => exact .node rfl ih

/-! ### Texts that are joined -/

/-- A part of a line before parts of a line, joined to them. -/
theorem IsLine.consJoined (h : IsLine definitions tree)
    (htrees : ∀ tree ∈ trees, IsLine definitions tree) :
    ∀ joined ∈ Tree.consJoined tree trees, IsLine definitions joined := by
  unfold Tree.consJoined
  split
  · exact List.forall_mem_cons.2 ⟨isLine_text _, (List.forall_mem_cons.1 htrees).2⟩
  · exact List.forall_mem_cons.2 ⟨h, htrees⟩

/-- Parts of a line, joined. -/
theorem isLine_joinTexts (h : ∀ tree ∈ trees, IsLine definitions tree) :
    ∀ joined ∈ Tree.joinTexts trees, IsLine definitions joined := by
  induction trees with
  | nil => simp [Tree.joinTexts]
  | cons tree trees ih =>
    obtain ⟨htree, htrees⟩ := List.forall_mem_cons.1 h
    exact htree.consJoined (ih htrees)

/-! ### Emphasis -/

namespace EmphasisState

/-- Whether all trees of a state are parts of a line. -/
structure IsLine (definitions : Definitions) (state : EmphasisState) : Prop where
  openers : ∀ opener ∈ state.openers, ∀ tree ∈ opener.content, Markdown.IsLine definitions tree
  base : ∀ tree ∈ state.base, Markdown.IsLine definitions tree

variable {state : EmphasisState}

/-- One more tree. -/
theorem IsLine.push (h : state.IsLine definitions) (htree : Markdown.IsLine definitions tree) :
    (state.push tree).IsLine definitions := by
  unfold EmphasisState.push
  split
  next opener outer heq =>
    obtain ⟨hopener, houter⟩ := List.forall_mem_cons.1 (heq ▸ h.openers)
    exact ⟨List.forall_mem_cons.2 ⟨List.forall_mem_cons.2 ⟨htree, hopener⟩, houter⟩, h.base⟩
  next => exact ⟨h.openers, List.forall_mem_cons.2 ⟨htree, h.base⟩⟩

/-- More trees, one after the other. -/
theorem IsLine.foldl_push (h : state.IsLine definitions)
    (htrees : ∀ tree ∈ trees, Markdown.IsLine definitions tree) :
    (trees.foldl EmphasisState.push state).IsLine definitions := by
  induction trees generalizing state with
  | nil => exact h
  | cons tree trees ih =>
    obtain ⟨htree, hrest⟩ := List.forall_mem_cons.1 htrees
    exact ih (h.push htree) hrest

/-- An opener as trees. -/
theorem isLine_flatten {opener : Opener}
    (h : ∀ tree ∈ opener.content, Markdown.IsLine definitions tree) :
    ∀ tree ∈ flatten opener, Markdown.IsLine definitions tree :=
  List.forall_mem_append.2 ⟨h, List.forall_mem_singleton.2 (isLine_text _)⟩

/-- Openers as trees. -/
theorem isLine_flatMap_flatten {openers : List Opener}
    (h : ∀ opener ∈ openers, ∀ tree ∈ opener.content, Markdown.IsLine definitions tree) :
    ∀ tree ∈ openers.flatMap flatten, Markdown.IsLine definitions tree := by
  intro tree htree
  obtain ⟨opener, hopener, hmem⟩ := List.mem_flatMap.1 htree
  exact isLine_flatten (h opener hopener) tree hmem

/-- The elements of emphasis around parts of a line. -/
theorem isLine_wrap (mark : Char) (count : Nat)
    (h : ∀ tree ∈ trees, Markdown.IsLine definitions tree) :
    ∀ tree ∈ wrap mark count trees, Markdown.IsLine definitions tree := by
  induction count, trees using wrap.induct mark with
  | case1 => exact h
  | case2 =>
    refine List.forall_mem_singleton.2 (.node (fun label => ?_) (fun level => ?_) h) <;>
      split <;> nofun
  | case3 count trees ih =>
    refine ih (List.forall_mem_singleton.2 (.node (fun label => ?_) (fun level => ?_) h)) <;>
      split <;> nofun

/-- **A closing run** only builds elements around what is there. -/
theorem IsLine.closeRun (h : state.IsLine definitions) (mark : Char) (length : Nat) (both : Bool)
    (steps count : Nat) :
    (EmphasisState.closeRun mark length both steps count state).1.IsLine definitions := by
  induction steps generalizing count state with
  | zero => exact h
  | succ steps ih =>
    unfold EmphasisState.closeRun
    split
    · exact h
    split
    · exact h
    split
    · exact h
    next index _ _ opener hopener =>
      have hcontent := h.openers opener (List.mem_of_getElem? hopener)
      have hinner := isLine_flatMap_flatten fun other hother =>
        h.openers other (List.mem_of_mem_take (show other ∈ state.openers.take index from hother))
      have hwrapped : ∀ tree ∈ wrap mark (min count opener.count)
          (((state.openers.take index).flatMap flatten ++ opener.content).reverse),
          Markdown.IsLine definitions tree :=
        isLine_wrap _ _ fun tree htree =>
          List.forall_mem_append.2 ⟨hinner, hcontent⟩ tree (List.mem_reverse.1 htree)
      have houter : EmphasisState.IsLine definitions
          { state with openers := state.openers.drop (index + 1) } :=
        ⟨fun other hother => h.openers other (List.mem_of_mem_drop hother), h.base⟩
      dsimp only
      split
      · refine ih ?_ _
        refine ⟨List.forall_mem_cons.2 ⟨fun tree htree => ?_, houter.openers⟩, h.base⟩
        exact hwrapped tree (List.mem_reverse.1 htree)
      · exact ih (houter.foldl_push hwrapped) _

end EmphasisState

/-- Whether a part of a line is one before its emphasis is resolved. -/
def InlineNode.IsLine (definitions : Definitions) : InlineNode → Prop
  | .tree tree => Markdown.IsLine definitions tree
  | .run _ => True

/-- One more part of a line. -/
theorem EmphasisState.IsLine.step {state : EmphasisState} (h : state.IsLine definitions)
    {node : InlineNode} (hnode : node.IsLine definitions) :
    (state.step node).IsLine definitions := by
  cases node with
  | tree tree => exact h.push hnode
  | run run =>
    have hclosed : (if run.canClose then EmphasisState.closeRun run.mark run.count
        (run.canOpen && run.canClose) run.count run.count state
          else (state, run.count)).1.IsLine definitions := by
      split
      · exact h.closeRun _ _ _ _ _
      · exact h
    unfold EmphasisState.step
    dsimp only
    generalize (if run.canClose then EmphasisState.closeRun run.mark run.count
      (run.canOpen && run.canClose) run.count run.count state else (state, run.count)) = closed
      at hclosed
    obtain ⟨state, left⟩ := closed
    dsimp only
    split
    · exact hclosed
    split
    · exact ⟨List.forall_mem_cons.2 ⟨by simp, hclosed.openers⟩, hclosed.base⟩
    · exact hclosed.push (isLine_text _)

/-- **Emphasis** is resolved within the line. -/
theorem isLine_emphasize {nodes : List InlineNode} (h : ∀ node ∈ nodes, node.IsLine definitions) :
    ∀ tree ∈ emphasize nodes, IsLine definitions tree := by
  have hstate : ∀ state : EmphasisState, state.IsLine definitions →
      (nodes.foldl EmphasisState.step state).IsLine definitions := by
    induction nodes with
    | nil => exact fun state hstate => hstate
    | cons node nodes ih =>
      obtain ⟨hnode, hnodes⟩ := List.forall_mem_cons.1 h
      exact fun state hstate => ih hnodes _ (hstate.step hnode)
  obtain ⟨hopeners, hbase⟩ := hstate {} ⟨by simp, by simp⟩
  refine isLine_joinTexts fun tree htree => ?_
  exact List.forall_mem_append.2 ⟨EmphasisState.isLine_flatMap_flatten hopeners, hbase⟩ tree
    (List.mem_reverse.1 htree)

/-! ### Brackets -/

namespace InlineState

/-- Whether all parts of a state are parts of a line. -/
structure IsLine (definitions : Definitions) (state : InlineState) : Prop where
  brackets : ∀ bracket ∈ state.brackets, ∀ node ∈ bracket.content, node.IsLine definitions
  base : ∀ node ∈ state.base, node.IsLine definitions

variable {state : InlineState} {nodes : List InlineNode} {bracket : Bracket}

/-- More parts. -/
theorem IsLine.pushAll (h : state.IsLine definitions)
    (hnodes : ∀ node ∈ nodes, node.IsLine definitions) :
    (state.pushAll nodes).IsLine definitions := by
  unfold InlineState.pushAll
  split
  next bracket outer heq =>
    obtain ⟨hbracket, houter⟩ := List.forall_mem_cons.1 (heq ▸ h.brackets)
    exact ⟨List.forall_mem_cons.2 ⟨List.forall_mem_append.2 ⟨hnodes, hbracket⟩, houter⟩, h.base⟩
  next => exact ⟨h.brackets, List.forall_mem_append.2 ⟨hnodes, h.base⟩⟩

/-- One more run of emphasis. -/
theorem IsLine.pushRun (h : state.IsLine definitions) (run : DelimiterRun) :
    (state.push (.run run)).IsLine definitions :=
  h.pushAll (List.forall_mem_singleton.2 trivial)

/-- One more tree. -/
theorem IsLine.pushTree (h : state.IsLine definitions) (htree : Markdown.IsLine definitions tree) :
    (state.pushTree tree).IsLine definitions :=
  h.pushAll (List.forall_mem_singleton.2 htree)

/-- One more text. -/
theorem IsLine.pushText (h : state.IsLine definitions) (s : Text) :
    (state.pushText s).IsLine definitions :=
  h.pushTree (isLine_text s)

/-- One more leaf that is neither an edge nor a reference. -/
theorem IsLine.pushLeaf (h : state.IsLine definitions) {event : Event}
    (hedge : event.isEdge = false) (hreference : ∀ label, event ≠ .footnoteReference label) :
    (state.pushTree (.leaf event)).IsLine definitions :=
  h.pushTree (.leaf hedge fun label heq => absurd heq (hreference label))

/-- One more open bracket. -/
theorem IsLine.openBracket (h : state.IsLine definitions) (image enabled : Bool) (source : Text) :
    IsLine definitions { state with brackets := ⟨image, enabled, source, []⟩ :: state.brackets } :=
  ⟨List.forall_mem_cons.2 ⟨by simp, h.brackets⟩, h.base⟩

/-- A bracket that is text after all. -/
theorem isLine_flatten (h : ∀ node ∈ bracket.content, node.IsLine definitions) :
    ∀ node ∈ flatten bracket, node.IsLine definitions :=
  List.forall_mem_append.2 ⟨h, List.forall_mem_singleton.2 (isLine_text _)⟩

/-- All parts, with the open brackets as text. -/
theorem IsLine.flattenAll (h : state.IsLine definitions) :
    ∀ node ∈ state.flattenAll, node.IsLine definitions := by
  refine List.forall_mem_append.2 ⟨fun node hnode => ?_, h.base⟩
  obtain ⟨bracket, hbracket, hmem⟩ := List.mem_flatMap.1 hnode
  exact isLine_flatten (h.brackets bracket hbracket) node hmem

/-- A bracket that has become a link or an image. -/
theorem IsLine.pushLink (h : state.IsLine definitions)
    (hbracket : ∀ node ∈ bracket.content, node.IsLine definitions) (target : Text × Text) :
    (state.pushLink bracket target).IsLine definitions := by
  have hchildren : ∀ tree ∈ emphasize bracket.content.reverse, Markdown.IsLine definitions tree :=
    isLine_emphasize fun node hnode => hbracket node (List.mem_reverse.1 hnode)
  have hdisabled : state.disableLinks.IsLine definitions := by
    refine ⟨fun other hother => ?_, h.base⟩
    obtain ⟨original, horiginal, rfl⟩ := List.mem_map.1 hother
    exact h.brackets original horiginal
  unfold InlineState.pushLink
  split
  · exact h.pushTree (.node nofun nofun hchildren)
  · exact hdisabled.pushTree (.node nofun nofun hchildren)

end InlineState

/-- A label that is a reference has a note. -/
theorem resolveLabel_eq_note {label? : Option Label} {rest label : Text}
    (h : resolveLabel definitions label? rest = .note label) :
    definitions.hasNote label = true := by
  unfold resolveLabel at h
  split at h
  · split at h
    next hnote =>
      obtain rfl := BracketResult.note.inj h
      exact hnote
    next => cases h
  · split at h <;> cases h
  · cases h

/-- **A pair of brackets** becomes a reference only if its label has a note. -/
theorem resolveBrackets_eq_note {bracket : Bracket} {rest label : Text}
    (h : resolveBrackets definitions bracket rest = .note label) :
    definitions.hasNote label = true := by
  unfold resolveBrackets at h
  split at h
  · cases h
  split at h
  · cases h
  dsimp only at h
  split at h
  · exact resolveLabel_eq_note h
  · split at h <;> exact resolveLabel_eq_note h
  · exact resolveLabel_eq_note h

/-! ### The line -/

namespace InlineState

variable {state : InlineState}

/-- **A closing bracket** pushes a reference only if its label has a note. -/
theorem IsLine.closeBracket (h : state.IsLine definitions) (rest : Text) :
    (Markdown.closeBracket definitions state rest).1.IsLine definitions := by
  unfold Markdown.closeBracket
  split
  · exact h.pushText _
  next bracket outer heq =>
    obtain ⟨hbracket, hbrackets⟩ := List.forall_mem_cons.1 (heq ▸ h.brackets)
    have houter : IsLine definitions { state with brackets := outer } := ⟨hbrackets, h.base⟩
    dsimp only
    split
    · exact houter.pushLink hbracket _
    next label hnote =>
      have hbefore : IsLine definitions
          ⟨[], InlineState.flattenAll { state with brackets := outer }⟩ :=
        ⟨by simp, houter.flattenAll⟩
      refine IsLine.pushTree ?_ (.leaf rfl fun other hother => ?_)
      · split
        · exact hbefore.pushText _
        · exact hbefore
      · obtain rfl := Event.footnoteReference.inj hother
        exact resolveBrackets_eq_note hnote
    · exact (houter.pushAll (isLine_flatten hbracket)).pushText _

/-- **One step** through a source. -/
theorem IsLine.step (h : state.IsLine definitions) (before : Option Char) (c : Char)
    (rest : Text) : (inlineStep definitions state before c rest).1.IsLine definitions := by
  unfold inlineStep
  split
  · split
    · exact h.pushLeaf rfl nofun
    · split <;> exact h.pushText _
    · exact h.pushText _
  · dsimp only
    split
    · exact h.pushLeaf rfl nofun
    · exact h.pushText _
  · split
    · exact h.pushTree (.node nofun nofun (List.forall_mem_singleton.2 (isLine_text _)))
    · split
      · exact h.pushLeaf rfl nofun
      · exact h.pushText _
  · split
    · exact h.openBracket _ _ _
    · exact h.pushText _
  · exact h.openBracket _ _ _
  · exact h.closeBracket _
  · split <;> exact h.pushText _
  · exact h.pushLeaf rfl nofun
  · split
    · dsimp only
      split
      · exact h.pushRun _
      · exact h.pushText _
    · split
      · dsimp only
        split
        · exact h
        · dsimp only
          split <;> exact h.pushLeaf rfl nofun
        · exact h.pushText _
      · exact h.pushText _

/-- All steps through a source. -/
theorem IsLine.run (h : state.IsLine definitions) (steps : Nat) (before : Option Char)
    (source : Text) : (inlineRun definitions steps state before source).IsLine definitions := by
  induction steps generalizing state before source with
  | zero => cases source <;> exact h
  | succ steps ih =>
    cases source with
    | nil => exact h
    | cons c rest => exact ih (h.step before c rest) _ _

end InlineState

/-- **The content of a source** has no footnote definitions, and only references that have one. -/
theorem isLine_of_mem_parse {source : Text} (htree : tree ∈ Inline.parse definitions source) :
    IsLine definitions tree := by
  have hstart : InlineState.IsLine definitions {} := ⟨by simp, by simp⟩
  refine isLine_emphasize (fun node hnode => ?_) tree htree
  exact (hstart.run source.length none source).flattenAll node (List.mem_reverse.1 hnode)

end Lectern.Markdown
