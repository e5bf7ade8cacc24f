import Lectern.Proofs.Page.Place

/-!
# Frames of the Writer

A footnote definition is written by the same writer as the text around it, with another output.
What it may touch of the writer and what may touch it is settled here, event by event: a change of
the writer that a stream neither reads nor writes may be made before the stream or behind it.

## Main results

* `exists_run_of_append`: a run over two streams goes over the first.
* `run_withNotes`: a stream without definitions does not look at the notes so far.
* `run_within`: nor does the body of a definition look at the text around it.
* `exists_run_withTable`: nor does a part of a document look at the table before it.
-/

namespace Lectern.Page

open Markdown

namespace Writer

variable {style : PageStyle} {w w' : Writer} {inNote inTable : Bool} {tree : Markdown.Tree}

/-! ### Streams -/

/-- A computation that goes through has gone through its first part. -/
theorem exists_of_bind_eq_ok {α β : Type} {first : Except Fault α} {rest : α → Except Fault β}
    {b : β} (h : first.bind rest = .ok b) : ∃ a, first = .ok a ∧ rest a = .ok b := by
  cases first with
  | error fault => cases h
  | ok a => exact ⟨a, rfl, h⟩

/-- A run over one event. -/
theorem run_singleton (w : Writer) (event : Event) :
    run style w [event] = step style w event := by
  rw [run, List.foldlM_cons]
  cases step style w event <;> rfl

/-- A run over two streams, one after the other. -/
theorem run_append (w : Writer) (first second : List Event) :
    run style w (first ++ second) = (run style w first).bind (run style · second) :=
  List.foldlM_append

/-- **A run over two streams** goes over the first, and then over the second. -/
theorem exists_run_of_append {first second : List Event}
    (h : run style w (first ++ second) = .ok w') :
    ∃ between, run style w first = .ok between ∧ run style between second = .ok w' := by
  rw [run_append] at h
  exact exists_of_bind_eq_ok h

/-- A run over one event more. -/
theorem run_concat {event : Event} {events : List Event} (h : run style w events = .ok w')
    {last : Writer} (hstep : step style w' event = .ok last) :
    run style w (events ++ [event]) = .ok last := by
  rw [run_append, h]
  exact (run_singleton w' event).trans hstep

/-- A run over an element: its start, its content and its end. -/
theorem run_node (w : Writer) (tag : Tag) (children : List Markdown.Tree) :
    run style w (Markdown.Tree.node tag children).events =
      (run style (w.start tag) (Markdown.Tree.eventsOfList children)).bind
        (·.finish style tag.toEnd) := by
  have hend : (run style · [.finish tag.toEnd]) = (·.finish style tag.toEnd) :=
    funext fun w => run_singleton w _
  rw [← hend, ← run_append]
  rfl

/-! ### Changes that a stream does not notice -/

/-- Whether an event **commutes** with a change of the writer. -/
def Commutes (style : PageStyle) (change : Writer → Writer) (event : Event) : Prop :=
  ∀ w, step style (change w) event = (step style w event).map change

/-- A run commutes with a change if its events do. -/
theorem run_of_commutes {change : Writer → Writer} {events : List Event}
    (h : ∀ event ∈ events, Commutes style change event) (w : Writer) :
    run style (change w) events = (run style w events).map change := by
  induction events generalizing w with
  | nil => rfl
  | cons event events ih =>
    obtain ⟨hevent, hrest⟩ := List.forall_mem_cons.1 h
    simp only [run, List.foldlM_cons]
    rw [hevent w]
    cases step style w event with
    | error fault => rfl
    | ok w₁ => exact ih hrest w₁

/-- The writer with other notes. -/
def withNotes (w : Writer) (definitions : List (Text × Text)) : Writer :=
  { w with footnotes := { w.footnotes with definitions } }

/-- The writer with another table. -/
def withTable (w : Writer) (table : TableState) : Writer := { w with table }

/-- What is being written by one writer, **within** what another one knows of the document. -/
def within (w frame : Writer) : Writer :=
  { w with
    footnotes := frame.footnotes
    outer := frame.outer
    title := frame.title
    toc := frame.toc
    slugs := frame.slugs }

/-- The end of an image commutes with a change that leaves alone the output and the image. -/
theorem finishImage_commutes (change : Writer → Writer)
    (hkeeps : ∀ w, (change w).output = w.output ∧ (change w).imageStart = w.imageStart ∧
      (change w).image = w.image)
    (hchange : ∀ w output, change { w with output, imageStart := none, image := none } =
      { change w with output, imageStart := none, image := none }) (w : Writer) :
    (change w).finishImage = w.finishImage.map change := by
  obtain ⟨houtput, hstart, himage⟩ := hkeeps w
  unfold finishImage cutAt
  rw [hstart, himage, houtput]
  cases w.imageStart with
  | none => exact congrArg Except.ok (hchange w _).symm
  | some place =>
    dsimp only
    cases Text.cutAtByte? place w.output with
    | none => rfl
    | some parts => exact congrArg Except.ok (hchange w _).symm

/-- The end of a heading commutes with a change that leaves alone the output, the heading and what
is known of the headings before. -/
theorem finishHeading_commutes (change : Writer → Writer)
    (hkeeps : ∀ w, (change w).output = w.output ∧ (change w).heading = w.heading ∧
      (change w).title = w.title ∧ (change w).toc = w.toc ∧ (change w).slugs = w.slugs)
    (hchange : ∀ w output title toc slugs,
      change { w with output, heading := none, title, toc, slugs } =
        { change w with output, heading := none, title, toc, slugs }) (w : Writer) :
    (change w).finishHeading style = (w.finishHeading style).map change := by
  obtain ⟨houtput, hheading, htitle, htoc, hslugs⟩ := hkeeps w
  have hall : ∀ output title toc slugs,
      ({ change w with output, heading := none, title, toc, slugs } : Writer) =
        change { w with output, heading := none, title, toc, slugs } :=
    fun _ _ _ _ => (hchange w _ _ _ _).symm
  unfold finishHeading cutAt
  rw [hheading, houtput, hslugs]
  cases w.heading with
  | none => rfl
  | some heading =>
    dsimp only
    cases Text.cutAtByte? heading.start w.output with
    | none => rfl
    | some parts =>
      by_cases hfirst : (style.extractTitle && heading.level == 1 && w.title.isNone) = true
      · simp only [htitle, htoc, hfirst]
        exact congrArg Except.ok (hall _ _ _ _)
      · simp only [htitle, htoc, hfirst]
        exact congrArg Except.ok (hall _ _ _ _)

/-- **The notes so far** are not looked at by what suits a text. -/
theorem commutes_withNotes (style : PageStyle) {event : Event} (h : event.suits false = true)
    (definitions : List (Text × Text)) : Commutes style (·.withNotes definitions) event := by
  intro w
  cases event with
  | start tag =>
    cases tag with
    | footnote label => cases h
    | list start => rcases start with _ | _ | _ | n <;> rfl
    | _ => rfl
  | finish tag =>
    cases tag with
    | footnote => cases h
    | heading level =>
      exact finishHeading_commutes (·.withNotes definitions) (fun _ => ⟨rfl, rfl, rfl, rfl, rfl⟩)
        (fun _ _ _ _ _ => rfl) w
    | image =>
      exact finishImage_commutes (·.withNotes definitions) (fun _ => ⟨rfl, rfl, rfl⟩)
        (fun _ _ => rfl) w
    | codeBlock => cases hcode : w.code <;> simp [step, finish, withNotes, hcode, Except.map, push]
    | _ => rfl
  | text content =>
    cases hcode : w.code <;>
      simp [step, text, withNotes, hcode, Except.map, push, pushHeadingText]
  | footnoteReference label =>
    cases hnumber : w.footnotes.references.findIdx? (·.1 = label) <;>
      simp [step, withNotes, FootnoteLedger.reference, hnumber, Except.map, push]
  | _ => rfl

/-- **The text around** a footnote definition is not looked at by what suits its body. -/
theorem commutes_within (style : PageStyle) {event : Event} (h : event.suits true = true)
    (frame : Writer) : Commutes style (·.within frame) event := by
  intro w
  cases event with
  | start tag =>
    cases tag with
    | footnote label | heading level => cases h
    | list start => rcases start with _ | _ | _ | n <;> rfl
    | _ => rfl
  | finish tag =>
    cases tag with
    | footnote | heading level => cases h
    | image =>
      exact finishImage_commutes (·.within frame) (fun _ => ⟨rfl, rfl, rfl⟩) (fun _ _ => rfl) w
    | codeBlock => cases hcode : w.code <;> simp [step, finish, within, hcode, Except.map, push]
    | _ => rfl
  | text content =>
    cases hcode : w.code <;> simp [step, text, within, hcode, Except.map, push, pushHeadingText]
  | footnoteReference label => cases h
  | _ => rfl

/-- Whether an event **turns** to the table, to start it or to write a part of it. -/
def turnsToTable : Event → Bool
  | .start tag => tag.isTable || tag.isTablePart
  | .finish .tableHead | .finish .tableRow | .finish .tableCell => true
  | _ => false

/-- **The table** is not looked at but by its parts. -/
theorem commutes_withTable (style : PageStyle) {event : Event} (h : event.suits inNote = true)
    (hturns : turnsToTable event = false) (table : TableState) :
    Commutes style (·.withTable table) event := by
  intro w
  cases event with
  | start tag =>
    cases tag with
    | footnote label => cases h
    | table | tableHead | tableRow | tableCell => cases hturns
    | list start => rcases start with _ | _ | _ | n <;> rfl
    | _ => rfl
  | finish tag =>
    cases tag with
    | footnote => cases h
    | heading level =>
      exact finishHeading_commutes (·.withTable table) (fun _ => ⟨rfl, rfl, rfl, rfl, rfl⟩)
        (fun _ _ _ _ _ => rfl) w
    | image =>
      exact finishImage_commutes (·.withTable table) (fun _ => ⟨rfl, rfl, rfl⟩) (fun _ _ => rfl) w
    | codeBlock => cases hcode : w.code <;> simp [step, finish, withTable, hcode, Except.map, push]
    | tableHead | tableRow | tableCell => cases hturns
    | _ => rfl
  | text content =>
    cases hcode : w.code <;>
      simp [step, text, withTable, hcode, Except.map, push, pushHeadingText]
  | footnoteReference label => rfl
  | _ => rfl

/-! ### Parts of a document -/

/-- **The notes so far** are not looked at. -/
theorem run_withNotes (h : IsPlain false inTable tree) (w : Writer)
    (definitions : List (Text × Text)) : run style (w.withNotes definitions) tree.events =
      (run style w tree.events).map (·.withNotes definitions) :=
  run_of_commutes
    (fun event hevent => commutes_withNotes style (h.suits_of_mem event hevent) definitions) w

/-- **The text around** the body of a footnote definition is not looked at. -/
theorem run_within {trees : List Markdown.Tree} (h : ∀ tree ∈ trees, IsPlain true false tree)
    (w frame : Writer) : run style (w.within frame) (Markdown.Tree.eventsOfList trees) =
      (run style w (Markdown.Tree.eventsOfList trees)).map (·.within frame) :=
  run_of_commutes (fun event hevent =>
    commutes_within style (Markdown.Tree.suits_of_mem_eventsOfList h event hevent) frame) w

/-- A run over parts that each do not look at the table before them. -/
theorem exists_runs_withTable {trees : List Markdown.Tree}
    (htrees : ∀ tree ∈ trees, ∀ w w' table, run style w tree.events = .ok w' →
      ∃ table', run style (w.withTable table) tree.events = .ok (w'.withTable table'))
    {w w' : Writer} (table : TableState)
    (hrun : run style w (Markdown.Tree.eventsOfList trees) = .ok w') :
    ∃ table', run style (w.withTable table) (Markdown.Tree.eventsOfList trees) =
      .ok (w'.withTable table') := by
  induction trees generalizing w table with
  | nil =>
    obtain rfl := Except.ok.inj hrun
    exact ⟨table, rfl⟩
  | cons tree trees ih =>
    obtain ⟨htree, hrest⟩ := List.forall_mem_cons.1 htrees
    rw [Markdown.Tree.eventsOfList, run_append] at hrun ⊢
    obtain ⟨w₁, hfirst, hsecond⟩ := exists_of_bind_eq_ok hrun
    obtain ⟨table₁, htable⟩ := htree w w₁ table hfirst
    rw [htable]
    exact ih hrest table₁ hsecond

/-- **The table before** a part of a document is not looked at. -/
theorem exists_run_withTable (h : IsPlain inNote inTable tree) (hout : inTable = false)
    (table : TableState) (hrun : run style w tree.events = .ok w') :
    ∃ table', run style (w.withTable table) tree.events = .ok (w'.withTable table') := by
  induction h generalizing w w' table with
  | @leaf inTable event hedge hsuits =>
    have hturns : turnsToTable event = false := by
      cases event with
      | start tag | finish tag => cases hedge
      | _ => rfl
    have hleaf := run_of_commutes
      (List.forall_mem_singleton.2 (commutes_withTable style hsuits hturns table)) w
    rw [Markdown.Tree.events] at hrun ⊢
    exact ⟨table, by rw [hleaf, hrun]; rfl⟩
  | @node inTable tag children hsuits hpart _ ih =>
    rw [run_node] at hrun ⊢
    by_cases htable : tag.isTable = true
    · -- a table starts afresh
      obtain ⟨alignments, rfl⟩ : ∃ alignments, tag = .table alignments := by
        cases tag <;> simp_all [Tag.isTable]
      exact ⟨w'.table, hrun⟩
    · have hturns : turnsToTable (.start tag) = false ∧
          turnsToTable (.finish tag.toEnd) = false := by
        cases tag <;> simp_all [turnsToTable, Tag.isTable, Tag.isTablePart, Tag.toEnd]
      obtain ⟨w₁, hchildren, hfinish⟩ := exists_of_bind_eq_ok hrun
      obtain ⟨table₁, htable₁⟩ := exists_runs_withTable (fun child hchild w w' table hrun =>
        ih child hchild (by simp [hout, htable]) table hrun) table hchildren
      have hstart := Except.ok.inj (commutes_withTable style hsuits hturns.1 table w)
      have hend := commutes_withTable style (Event.suits_finish hsuits) hturns.2 table₁ w₁
      refine ⟨table₁, ?_⟩
      rw [hstart, htable₁]
      exact hend.trans (congrArg _ hfinish)

end Writer

end Lectern.Page
