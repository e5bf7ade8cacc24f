import Lectern.Proofs.Page.Frame
import Mathlib.Data.List.Forall2

/-!
# Footnote Definitions and the Text Around Them

The page writer puts the body of a footnote definition away for the footnote section. The text
around the definition is written as if the definition were not there, and its body as if it were a
document of its own, as long as definitions stand free: the writer can keep one output waiting, so
a definition within another one loses the text around both.

## Main results

* `exists_run_plain`: a part of a document leaves nothing open behind it.
* `run_dropNotes`: a document is written like the one without its definitions, and each
  definition is kept with its label and its own body.
* `run_nestedNotes`: this fails where definitions are nested.
-/

namespace Lectern.Page

open Markdown

namespace Writer

variable {style : PageStyle} {w w' : Writer} {inNote inTable : Bool} {tree : Markdown.Tree}

/-! ### Open elements -/

/-- The elements that the writer keeps **open** until they end. -/
inductive Pending where
  | heading
  | code
  | image
  | note
deriving DecidableEq

/-- What the start of an element opens. -/
def opens : Tag → Option Pending
  | .heading _ => some .heading
  | .fencedCode _ | .indentedCode => some .code
  | .image _ _ => some .image
  | .footnote _ => some .note
  | _ => none

/-- Whether an element is open. -/
def isOpen (w : Writer) : Pending → Bool
  | .heading => w.heading.isSome
  | .code => w.code.isSome
  | .image => w.imageStart.isSome || w.image.isSome
  | .note => w.outer.isSome

/-- What the end of a heading leaves alone. -/
theorem eq_of_finishHeading (h : w.finishHeading style = .ok w') :
    ∃ output title toc slugs, w' = { w with output, heading := none, title, toc, slugs } := by
  unfold finishHeading at h
  cases hheading : w.heading with
  | none =>
    simp only [hheading, Except.ok.injEq] at h
    exact ⟨w.output, w.title, w.toc, w.slugs, by rw [← hheading, h]⟩
  | some heading =>
    simp only [hheading] at h
    obtain ⟨parts, -, hrest⟩ := exists_of_bind_eq_ok h
    split at hrest <;> exact ⟨_, _, _, _, (Except.ok.inj hrest).symm⟩

/-- What the end of an image leaves alone. -/
theorem eq_of_finishImage (h : w.finishImage = .ok w') :
    ∃ output, w' = { w with output, imageStart := none, image := none } := by
  unfold finishImage at h
  cases hstart : w.imageStart with
  | none =>
    rw [hstart] at h
    exact ⟨_, (Except.ok.inj h).symm⟩
  | some place =>
    rw [hstart] at h
    obtain ⟨parts, -, hrest⟩ := exists_of_bind_eq_ok h
    exact ⟨_, (Except.ok.inj hrest).symm⟩

/-- What the end of a code block leaves alone. -/
theorem eq_of_finishCodeBlock (h : w.finish style .codeBlock = .ok w') :
    ∃ output, w' = { w with output, code := none } := by
  rw [finish] at h
  cases hcode : w.code <;> rw [hcode] at h
  · exact ⟨w.output, by rw [← hcode, Except.ok.inj h]⟩
  · exact ⟨_, (Except.ok.inj h).symm⟩

/-- What the end of a footnote definition leaves alone. -/
theorem eq_of_finishFootnote (h : w.finish style .footnote = .ok w') :
    ∃ output footnotes, w' = { w with output, footnotes, outer := none } := by
  rw [finish] at h
  cases houter : w.outer <;> rw [houter] at h
  · exact ⟨w.output, w.footnotes, by rw [← houter, Except.ok.inj h]⟩
  · exact ⟨_, _, (Except.ok.inj h).symm⟩

/-- The start of an element opens no other. -/
theorem isOpen_start {tag : Tag} {k : Pending} (h : (w.start tag).isOpen k = true) :
    w.isOpen k = true ∨ opens tag = some k := by
  cases tag with
  | heading | fencedCode | indentedCode | image | footnote =>
    cases k with
    | heading | code | image | note => first | exact .inl h | exact .inr rfl
  | list start => rcases start with _ | _ | _ | n <;> exact .inl (by cases k <;> exact h)
  | _ => exact .inl (by cases k <;> exact h)

/-- The end of an element closes it, and opens no other. -/
theorem isOpen_finish {tag : Tag} {k : Pending} (hfinish : w.finish style tag.toEnd = .ok w')
    (h : w'.isOpen k = true) : w.isOpen k = true ∧ opens tag ≠ some k := by
  cases tag with
  | heading level =>
    obtain ⟨output, title, toc, slugs, rfl⟩ := eq_of_finishHeading hfinish
    cases k with
    | heading => cases h
    | _ => exact ⟨h, by simp [opens]⟩
  | image url title =>
    obtain ⟨output, rfl⟩ := eq_of_finishImage hfinish
    cases k with
    | image => cases h
    | _ => exact ⟨h, by simp [opens]⟩
  | fencedCode | indentedCode =>
    obtain ⟨output, rfl⟩ := eq_of_finishCodeBlock hfinish
    cases k with
    | code => cases h
    | _ => exact ⟨h, by simp [opens]⟩
  | footnote label =>
    obtain ⟨output, footnotes, rfl⟩ := eq_of_finishFootnote hfinish
    cases k with
    | note => cases h
    | _ => exact ⟨h, by simp [opens]⟩
  | _ =>
    obtain rfl := Except.ok.inj hfinish
    exact ⟨by cases k <;> exact h, by simp [opens]⟩

/-- Another event opens nothing. -/
theorem isOpen_step {event : Event} {k : Pending} (hedge : event.isEdge = false)
    (hstep : step style w event = .ok w') (h : w'.isOpen k = true) : w.isOpen k = true := by
  cases event with
  | start tag | finish tag => cases hedge
  | text content =>
    obtain rfl := Except.ok.inj hstep
    cases hcode : w.code with
    | none =>
      cases k with
      | code => simp [isOpen, text, hcode, push, pushHeadingText] at h
      | _ => simpa [isOpen, text, hcode, push, pushHeadingText] using h
    | some block =>
      cases k with
      | code => simp [isOpen, hcode]
      | _ => simpa [isOpen, text, hcode] using h
  | code content | inlineHtml content =>
    obtain rfl := Except.ok.inj hstep
    cases k with
    | heading => simpa [isOpen, push, pushHeadingText] using h
    | _ => exact h
  | _ =>
    obtain rfl := Except.ok.inj hstep
    cases k <;> exact h

/-- Trees that each leave nothing open do so together. -/
theorem isOpen_of_runs {k : Pending} {trees : List Markdown.Tree}
    (htrees : ∀ tree ∈ trees, ∀ w w', run style w tree.events = .ok w' →
      w'.isOpen k = true → w.isOpen k = true)
    (hrun : run style w (Markdown.Tree.eventsOfList trees) = .ok w') (hopen : w'.isOpen k = true) :
    w.isOpen k = true := by
  induction trees generalizing w with
  | nil =>
    obtain rfl := Except.ok.inj hrun
    exact hopen
  | cons tree trees ih =>
    obtain ⟨htree, hrest⟩ := List.forall_mem_cons.1 htrees
    rw [Markdown.Tree.eventsOfList] at hrun
    obtain ⟨w₁, hfirst, hsecond⟩ := exists_run_of_append hrun
    exact htree w w₁ hfirst (ih hrest hsecond)

/-- **A part of a document** leaves nothing open that was not. -/
theorem isOpen_of_run {k : Pending} (h : NotesApart inNote tree)
    (hrun : run style w tree.events = .ok w') (hopen : w'.isOpen k = true) :
    w.isOpen k = true := by
  have hnode : ∀ (tag : Tag) (children : List Markdown.Tree) (w w' : Writer),
      (∀ child ∈ children, ∀ w w', run style w child.events = .ok w' →
        w'.isOpen k = true → w.isOpen k = true) →
      run style w (Markdown.Tree.node tag children).events = .ok w' →
      w'.isOpen k = true → w.isOpen k = true := by
    intro tag children w w' hchildren hrun hopen
    rw [run_node] at hrun
    obtain ⟨w₁, hinside, hfinish⟩ := exists_of_bind_eq_ok hrun
    obtain ⟨hopen₁, hother⟩ := isOpen_finish hfinish hopen
    exact (isOpen_start (isOpen_of_runs hchildren hinside hopen₁)).resolve_right hother
  induction h generalizing w w' with
  | leaf hedge =>
    rw [Markdown.Tree.events, run_singleton] at hrun
    exact isOpen_step hedge hrun hopen
  | note _ ih => exact hnode _ _ _ _ (fun child hchild w w' => ih child hchild) hrun hopen
  | node _ _ ih => exact hnode _ _ _ _ (fun child hchild w w' => ih child hchild) hrun hopen

/-! ### Whole parts -/

/-- Whether nothing is open. -/
def IsIdle (w : Writer) : Prop := ∀ k, w.isOpen k = false

/-- Nothing is open at the start. -/
theorem isIdle_empty : IsIdle {} := fun k => by cases k <;> rfl

/-- Nothing is open in an idle writer. -/
theorem IsIdle.eq_none (h : w.IsIdle) : w.heading = none ∧ w.code = none ∧ w.imageStart = none ∧
    w.image = none ∧ w.outer = none := by
  have himage := h .image
  simp only [isOpen, Bool.or_eq_false_iff, Option.isSome_eq_false_iff, Option.isNone_iff_eq_none]
    at himage
  exact ⟨by simpa [isOpen] using h .heading, by simpa [isOpen] using h .code, himage.1, himage.2,
    by simpa [isOpen] using h .note⟩

/-- More markup opens nothing. -/
theorem IsIdle.push (h : w.IsIdle) (markup : Text) : (w.push markup).IsIdle := fun k => by
  rw [← h k]
  cases k <;> rfl

/-- Nothing is open that could have a place. -/
theorem IsIdle.tracks (h : w.IsIdle) : Tracks {} w where
  near := trivial
  waits := by simpa [isOpen] using (h .note).symm
  waiting := by simp
  known k hk := by
    have hheading := h .heading
    have himage := h .image
    cases k <;> simp_all [isOpen, place?]

/-- **Trees without definitions** are written, and leave nothing open. -/
theorem exists_run_plain (style : PageStyle) {trees : List Markdown.Tree}
    (h : ∀ tree ∈ trees, IsPlain inNote inTable tree) (hw : w.IsIdle) :
    ∃ w', run style w (Markdown.Tree.eventsOfList trees) = .ok w' ∧ w'.IsIdle := by
  have hstart : Places.IsOrdered false {} := ⟨rfl, fun _ => rfl⟩
  obtain ⟨p, hplaces, -⟩ := Places.within_list
    (fun tree htree _ => Places.within_tree ((h tree htree).notesApart false)) hstart
  obtain ⟨w', hrun, -⟩ := hw.tracks.run style hplaces
  refine ⟨w', hrun, fun k => Bool.eq_false_iff.2 fun hopen => ?_⟩
  have hclosed := isOpen_of_runs (fun tree htree _ _ hrun =>
    isOpen_of_run ((h tree htree).notesApart false) hrun) hrun hopen
  exact Bool.false_ne_true ((hw k).symm.trans hclosed)

/-- The **note** that a footnote definition leaves: its label, and its content as a document of its
own. -/
def IsNoteOf (style : PageStyle) (definition : Text × List Markdown.Tree) (note : Text × Text) :
    Prop :=
  note.1 = definition.1 ∧ ∃ w, run style {} (Markdown.Tree.eventsOfList definition.2) = .ok w ∧
    note.2 = Text.trimEnd w.output

/-- Whether a stream `all` is **written like** a stream `kept`: it leaves the same output, and
besides only notes of definitions, the latest first, and perhaps another table. -/
def WritesLike (style : PageStyle) (all kept : List Event)
    (definitions : List (Text × List Markdown.Tree)) : Prop :=
  ∀ (v : Writer) (notes : List (Text × Text)) (table : TableState), v.IsIdle →
    ∃ v' notes' table', v'.IsIdle ∧ run style v kept = .ok v' ∧
      run style ((v.withNotes notes).withTable table) all =
        .ok ((v'.withNotes (notes' ++ notes)).withTable table') ∧
      List.Forall₂ (IsNoteOf style) definitions notes'.reverse

variable {all all' kept kept' : List Event} {definitions more : List (Text × List Markdown.Tree)}

/-- Streams after streams. -/
theorem WritesLike.append (hfirst : WritesLike style all kept definitions)
    (hsecond : WritesLike style all' kept' more) :
    WritesLike style (all ++ all') (kept ++ kept') (definitions ++ more) := by
  intro v notes table hv
  obtain ⟨v₁, notes₁, table₁, hv₁, hkept₁, hall₁, hnotes₁⟩ := hfirst v notes table hv
  obtain ⟨v₂, notes₂, table₂, hv₂, hkept₂, hall₂, hnotes₂⟩ :=
    hsecond v₁ (notes₁ ++ notes) table₁ hv₁
  refine ⟨v₂, notes₂ ++ notes₁, table₂, hv₂, ?_, ?_, ?_⟩
  · rw [run_append, hkept₁]
    exact hkept₂
  · rw [run_append, hall₁, List.append_assoc]
    exact hall₂
  · rw [List.reverse_append]
    exact List.rel_append hnotes₁ hnotes₂

/-- Trees without definitions are written like themselves. -/
theorem writesLike_plain (h : IsPlain false false tree) :
    WritesLike style tree.events tree.events [] := by
  intro v notes table hv
  have htree : ∀ child ∈ [tree], IsPlain false false child := List.forall_mem_singleton.2 h
  have hevents : Markdown.Tree.eventsOfList [tree] = tree.events := by
    rw [Markdown.Tree.eventsOfList_eq, List.flatMap_singleton]
  obtain ⟨v', hrun, hv'⟩ := exists_run_plain style htree hv
  rw [hevents] at hrun
  have hnotes : run style (v.withNotes notes) tree.events = .ok (v'.withNotes notes) := by
    rw [run_withNotes h, hrun]
    rfl
  obtain ⟨table', htable⟩ := exists_run_withTable h rfl table hnotes
  exact ⟨v', [], table', hv', hrun, htable, .nil⟩

/-- **A footnote definition** is written like nothing, and leaves its note. -/
theorem writesLike_note {label : Text} {children : List Markdown.Tree}
    (h : ∀ child ∈ children, IsPlain true false child) :
    WritesLike style (Markdown.Tree.node (.footnote label) children).events []
      [(label, children)] := by
  intro v notes table hv
  obtain ⟨hheading, hcode, hstart, himage, houter⟩ := hv.eq_none
  -- the writer in which the body is written, seen from the empty one
  let inside : Writer := ((v.withNotes notes).withTable table).start (.footnote label)
  have hinside : inside = (({} : Writer).within inside).withTable table := by
    simp [inside, start, within, withNotes, withTable, hheading, hcode, hstart, himage]
  obtain ⟨body, hbody, hclosed⟩ := exists_run_plain style h isIdle_empty
  obtain ⟨hheading', hcode', hstart', himage', -⟩ := hclosed.eq_none
  have hframe : run style (({} : Writer).within inside) (Markdown.Tree.eventsOfList children) =
      .ok (body.within inside) := by
    rw [run_within h, hbody]
    rfl
  obtain ⟨table', htable⟩ := exists_runs_withTable
    (fun child hchild w w' table => exists_run_withTable (h child hchild) rfl table) table hframe
  refine ⟨v, [(label, Text.trimEnd body.output)], table', hv, rfl, ?_,
    .cons ⟨rfl, body, hbody, rfl⟩ .nil⟩
  rw [run_node]
  show (run style inside _).bind _ = _
  rw [hinside, htable]
  simp [Except.bind, finish, Tag.toEnd, within, withTable, withNotes, inside, start,
    FootnoteLedger.define, hheading, hcode, hstart, himage, houter, hheading', hcode', hstart',
    himage']

/-- **An element that only surrounds its content** is written like the same element around the
content that is kept. -/
theorem writesLike_container {tag : Tag} {children keptChildren : List Markdown.Tree}
    (htag : IsContainer tag)
    (h : WritesLike style (Markdown.Tree.eventsOfList children)
      (Markdown.Tree.eventsOfList keptChildren) definitions) :
    WritesLike style (Markdown.Tree.node tag children).events
      (Markdown.Tree.node tag keptChildren).events definitions := by
  intro v notes table hv
  obtain ⟨before, after, hstart, hfinish, -⟩ := @exists_surround style _ htag
  obtain ⟨v₁, notes₁, table₁, hv₁, hkept, hall, hnotes⟩ :=
    h (v.push before) notes table (hv.push before)
  refine ⟨v₁.push after, notes₁, table₁, hv₁.push after, ?_, ?_, hnotes⟩
  · rw [run_node, hstart, hkept]
    exact hfinish v₁
  · rw [run_node, hstart]
    exact (congrArg (Except.bind · _) hall).trans (hfinish _)

/-- Trees that are each written like what is kept of them. -/
theorem writesLike_list {trees : List Markdown.Tree}
    (h : ∀ tree ∈ trees, WritesLike style tree.events
      (Markdown.Tree.eventsOfList tree.dropNotes) tree.notes) :
    WritesLike style (Markdown.Tree.eventsOfList trees)
      (Markdown.Tree.eventsOfList (Markdown.Tree.dropNotesOf trees))
      (Markdown.Tree.notesOf trees) := by
  induction trees with
  | nil => exact fun v notes table hv => ⟨v, [], table, hv, rfl, rfl, .nil⟩
  | cons tree trees ih =>
    obtain ⟨htree, hrest⟩ := List.forall_mem_cons.1 h
    rw [Markdown.Tree.eventsOfList, Markdown.Tree.dropNotesOf, Markdown.Tree.notesOf,
      Markdown.Tree.eventsOfList_append]
    exact htree.append (ih hrest)

/-- **A part of a document** whose definitions stand free is written like the same part without
them. -/
theorem writesLike_free (h : StandsFree tree) : WritesLike style tree.events
    (Markdown.Tree.eventsOfList tree.dropNotes) tree.notes := by
  induction h with
  | @plain tree h =>
    rw [h.dropNotes.1, h.dropNotes.2, Markdown.Tree.eventsOfList_eq, List.flatMap_singleton]
    exact writesLike_plain h
  | @container tag children htag _ ih =>
    obtain ⟨hdrop, hnotes⟩ := Markdown.Tree.dropNotes_node htag.ne_footnote children
    rw [hdrop, hnotes, Markdown.Tree.eventsOfList_eq, List.flatMap_singleton]
    exact writesLike_container htag (writesLike_list ih)
  | note h => exact writesLike_note h

end Writer

/-- **Definitions do not disturb the text**: a document whose footnote definitions stand free is
written like the same document without them, and each definition is kept under its label. -/
theorem run_dropNotes {style : PageStyle} {trees : List Markdown.Tree}
    (h : ∀ tree ∈ trees, StandsFree tree) :
    ∃ w v, Writer.run style {} (Markdown.Tree.eventsOfList trees) = .ok w ∧
      Writer.run style {} (Markdown.Tree.eventsOfList (Markdown.Tree.dropNotesOf trees)) = .ok v ∧
      w.output = v.output ∧ w.title = v.title ∧ w.toc = v.toc ∧
      w.footnotes.references = v.footnotes.references ∧
      List.Forall₂ (Writer.IsNoteOf style) (Markdown.Tree.notesOf trees)
        w.footnotes.definitions.reverse := by
  obtain ⟨v, notes, table, -, hkept, hall, hnotes⟩ :=
    Writer.writesLike_list (fun tree htree => Writer.writesLike_free (h tree htree)) {} [] {}
      Writer.isIdle_empty
  refine ⟨_, v, hall, hkept, rfl, rfl, rfl, rfl, ?_⟩
  simpa [Writer.withTable, Writer.withNotes] using hnotes

/-- A document with a definition in a quotation. -/
def quotedNote : List Markdown.Tree :=
  [.node .paragraph [.text "main".toList],
    .node .blockQuote [.node (.footnote ['a']) [.node .paragraph [.text ['x']]],
      .node .paragraph [.text "more".toList]]]

/-- The quotation is written as if the definition were not in it. -/
theorem run_dropNotes_quotedNote : ∃ w v,
    Writer.run {} {} (Markdown.Tree.eventsOfList quotedNote) = .ok w ∧
      Writer.run {} {} (Markdown.Tree.eventsOfList [.node .paragraph [.text "main".toList],
        .node .blockQuote [.node .paragraph [.text "more".toList]]]) = .ok v ∧
      w.output = v.output ∧
      List.Forall₂ (Writer.IsNoteOf {}) [(['a'], [.node .paragraph [.text ['x']]])]
        w.footnotes.definitions.reverse := by
  have hparagraph : ∀ inNote s, IsPlain inNote false (.node .paragraph [.text s]) :=
    fun _ s => .node rfl (by decide) (List.forall_mem_singleton.2 (.leaf rfl rfl))
  have hfree : ∀ tree ∈ quotedNote, StandsFree tree := by
    refine List.forall_mem_cons.2 ⟨.plain (hparagraph _ _), List.forall_mem_singleton.2
      (.container .blockQuote (List.forall_mem_cons.2 ⟨.note ?_, ?_⟩))⟩
    · exact List.forall_mem_singleton.2 (hparagraph _ _)
    · exact List.forall_mem_singleton.2 (.plain (hparagraph _ _))
  obtain ⟨w, v, hw, hv, houtput, -, -, -, hnotes⟩ := @run_dropNotes {} quotedNote hfree
  exact ⟨w, v, hw, hv, houtput, hnotes⟩

/-- A document with a definition in the quotation of another definition. -/
def nestedNotes : List Markdown.Tree :=
  [.node .paragraph [.text "main".toList],
    .node (.footnote ['a']) [.node .blockQuote
      [.node (.footnote ['b']) [.node .paragraph [.text ['y']]]]]]

/-- The end of the inner definition brings back the output of the outer one as if it were the
text, and the text is lost. -/
theorem run_nestedNotes :
    renderEvents {} (Markdown.Tree.eventsOfList nestedNotes) =
      .ok { html := "<blockquote>\n</blockquote>\n".toList, title := none, toc := [] } ∧
    renderEvents {} (Markdown.Tree.eventsOfList (Markdown.Tree.dropNotesOf nestedNotes)) =
      .ok { html := "<p>main</p>\n".toList, title := none, toc := [] } := by
  constructor <;> rfl

end Lectern.Page
