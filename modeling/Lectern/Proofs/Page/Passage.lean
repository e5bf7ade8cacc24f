import Lectern.Proofs.Markdown.Shape
import Lectern.Proofs.Page.Ledger

/-!
# Passages

Where the references of a document stand. References are numbered in the order in which they come,
but they do not stay together: those of a footnote definition are put away with its body. A passage
is a run of references that share their fate, the references of one definition or one that stands in
the text.

## Main results

* `told_append`: passages are numbered one after the other.
* `flatMap_told`: the tokens of all passages are those of all references.
* `note_eq_none`: a footnote definition holds no other.
-/

namespace Lectern.Page

open Markdown

/-- A **passage**: references that stand in the text, or all those of one footnote definition. -/
structure Passage where
  /-- The label of the footnote definition. -/
  note : Option Text
  /-- The labels that are referred to. -/
  labels : List Text
deriving DecidableEq, Repr

/-- The labels that are referred to in passages. -/
def labelsOf (passages : List Passage) : List Text := passages.flatMap (·.labels)

/-- The labels of a passage come before those of the next ones. -/
@[simp] theorem labelsOf_cons (passage : Passage) (passages : List Passage) :
    labelsOf (passage :: passages) = passage.labels ++ labelsOf passages := List.flatMap_cons

/-- The labels of passages after passages. -/
@[simp] theorem labelsOf_append (first second : List Passage) :
    labelsOf (first ++ second) = labelsOf first ++ labelsOf second := List.flatMap_append

mutual

/-- The **passages** of a tree, in order. -/
def passages : Markdown.Tree → List Passage
  | .leaf (.footnoteReference label) => [⟨none, [label]⟩]
  | .leaf _ => []
  | .node (.footnote label) children => [⟨some label, labelsOf (passagesOf children)⟩]
  | .node _ children => passagesOf children

/-- The passages of trees. -/
def passagesOf : List Markdown.Tree → List Passage
  | [] => []
  | tree :: trees => passages tree ++ passagesOf trees

end

/-- The passages of trees, one after the other. -/
theorem passagesOf_eq (trees : List Markdown.Tree) : passagesOf trees = trees.flatMap passages := by
  induction trees with
  | nil => rfl
  | cons tree trees ih => rw [passagesOf, ih, List.flatMap_cons]

/-! ### Numbers -/

/-- The **tokens of passages** behind `earlier` references: for each its footnote definition and
its tokens. -/
def told (earlier : List Text) : List Passage → List (Option Text × List FootnoteToken)
  | [] => []
  | passage :: rest =>
    (passage.note, numbered earlier passage.labels) :: told (earlier ++ passage.labels) rest

/-- The tokens of the references in the text. -/
def flowTokens (parts : List (Option Text × List FootnoteToken)) : List FootnoteToken :=
  parts.flatMap fun (note, tokens) => if note.isNone then tokens else []

/-- The tokens of each footnote definition, with its label. -/
def noteTokens (parts : List (Option Text × List FootnoteToken)) :
    List (Text × List FootnoteToken) :=
  parts.filterMap fun (note, tokens) => note.map (·, tokens)

/-- The tokens in the text, part after part. -/
theorem flowTokens_append (first second : List (Option Text × List FootnoteToken)) :
    flowTokens (first ++ second) = flowTokens first ++ flowTokens second :=
  List.flatMap_append

/-- The tokens of footnote definitions, part after part. -/
theorem noteTokens_append (first second : List (Option Text × List FootnoteToken)) :
    noteTokens (first ++ second) = noteTokens first ++ noteTokens second :=
  List.filterMap_append

/-- **Passages after passages**. -/
theorem told_append (earlier : List Text) (first second : List Passage) :
    told earlier (first ++ second) =
      told earlier first ++ told (earlier ++ labelsOf first) second := by
  induction first generalizing earlier with
  | nil => simp [told, labelsOf]
  | cons passage first ih => simp [told, ih]

/-- The tokens of all passages are those of their references. -/
theorem flatMap_told (earlier : List Text) (passages : List Passage) :
    (told earlier passages).flatMap (·.2) = numbered earlier (labelsOf passages) := by
  induction passages generalizing earlier with
  | nil => rfl
  | cons passage rest ih =>
    rw [told, List.flatMap_cons, ih, labelsOf_cons, numbered_append]

/-- Passages in the text have all tokens there and none in footnote definitions. -/
theorem told_of_note_eq_none (earlier : List Text) {passages : List Passage}
    (h : ∀ passage ∈ passages, passage.note = none) :
    flowTokens (told earlier passages) = numbered earlier (labelsOf passages) ∧
      noteTokens (told earlier passages) = [] := by
  induction passages generalizing earlier with
  | nil => exact ⟨rfl, rfl⟩
  | cons passage rest ih =>
    obtain ⟨hpassage, hrest⟩ := List.forall_mem_cons.1 h
    obtain ⟨hflow, hnotes⟩ := ih (earlier ++ passage.labels) hrest
    constructor
    · rw [labelsOf_cons, numbered_append, ← hflow, told, hpassage]
      rfl
    · rw [told, hpassage, ← hnotes]
      rfl

/-! ### Documents -/

/-- The passages of trees stand in the text if those of each tree do. -/
theorem note_eq_none_of_children {trees : List Markdown.Tree}
    (h : ∀ tree ∈ trees, ∀ passage ∈ passages tree, passage.note = none) :
    ∀ passage ∈ passagesOf trees, passage.note = none := by
  rw [passagesOf_eq]
  intro passage hpassage
  obtain ⟨tree, htree, hmem⟩ := List.mem_flatMap.1 hpassage
  exact h tree htree passage hmem

/-- A container adds no passages. -/
theorem passages_container {tag : Tag} (h : IsContainer tag) (children : List Markdown.Tree) :
    passages (.node tag children) = passagesOf children := by
  cases h with
  | span h => cases h <;> rfl
  | _ => rfl

/-- Texts have no references. -/
theorem passagesOf_texts (texts : List Text) : passagesOf (texts.map Markdown.Tree.text) = [] := by
  induction texts with
  | nil => rfl
  | cons s texts ih => rw [List.map_cons, passagesOf, ih]; rfl

/-- A code block has no references. -/
theorem passages_codeBlock {tag : Tag} (h : IsCodeBlock tag) (texts : List Text) :
    passages (.node tag (texts.map Markdown.Tree.text)) = [] := by
  cases h <;> exact passagesOf_texts texts

/-- No footnote definition stands in a line. -/
theorem note_eq_none_of_isInline {tree : Markdown.Tree} (h : IsInline tree) :
    ∀ passage ∈ passages tree, passage.note = none := by
  induction h with
  | leaf h => cases h <;> simp [passages]
  | span htag _ ih =>
    rw [passages_container (.span htag)]
    exact note_eq_none_of_children ih
  | @image url title texts =>
    have himage : passages (.node (.image url title) (texts.map Markdown.Tree.text)) = [] :=
      passagesOf_texts texts
    simp [himage]

/-- No footnote definition stands in a row of cells. -/
theorem note_eq_none_of_cells {cells : List Markdown.Tree} (h : ∀ cell ∈ cells, IsCell cell) :
    ∀ passage ∈ passagesOf cells, passage.note = none := by
  refine note_eq_none_of_children fun cell hcell => ?_
  obtain ⟨hchildren⟩ := h cell hcell
  exact note_eq_none_of_children fun child hchild =>
    note_eq_none_of_isInline (hchildren child hchild)

/-- **No footnote definition stands in another.** -/
theorem note_eq_none {tree : Markdown.Tree} (h : IsFlow true tree) :
    ∀ passage ∈ passages tree, passage.note = none := by
  generalize hnote : true = inNote at h
  induction h with
  | inline h => exact note_eq_none_of_isInline h
  | rule => simp [passages]
  | container htag _ ih =>
    rw [passages_container htag]
    exact note_eq_none_of_children fun child hchild => ih child hchild hnote
  | heading hchildren =>
    exact note_eq_none_of_children fun child hchild =>
      note_eq_none_of_isInline (hchildren child hchild)
  | codeBlock h => simp [passages_codeBlock h]
  | table hcells hrows =>
    refine note_eq_none_of_children (List.forall_mem_cons.2 ⟨note_eq_none_of_cells hcells, ?_⟩)
    intro row hrow
    obtain ⟨hcells⟩ := hrows row hrow
    exact note_eq_none_of_cells hcells
  | footnote => exact absurd hnote (by decide)

end Lectern.Page
