import Lectern.Proofs.Page.MainFlow

/-!
# Documents Behind One Another

The writer keeps a heading, a code block, an image, a table and a saved output between events. A
part of a document that is over leaves at most the table behind, and no part looks at the table of
another one. So parts of a document without headings and footnotes, whose numbers go on from part to
part, are written behind one another as each of them is written alone.

## Main results

* `commutes_behind`: the output before a part of a document is not looked at.
* `exists_run_behind`: a part is written behind an output as it is written alone.
* `renderEvents_append`: the page of two documents is the page of one and that of the other.
-/

namespace Lectern.Page

open Markdown

namespace Writer

variable {style : PageStyle} {w : Writer} {before : Text} {event : Event}

/-! ### Output before the output -/

/-- The writer with output **before** its own; the place of an open image moves with its output. -/
def behind (w : Writer) (before : Text) : Writer :=
  { w with
    output := before ++ w.output
    imageStart := w.imageStart.map (Text.byteLength before + ·) }

/-- Markup is appended behind the output before as well. -/
theorem push_behind (w : Writer) (before markup : Text) :
    (w.behind before).push markup = (w.push markup).behind before := by
  simp [push, behind]

/-- The end of an image does not look at the output before its place. -/
theorem finishImage_behind (w : Writer) (before : Text) :
    (w.behind before).finishImage = w.finishImage.map (·.behind before) := by
  cases hstart : w.imageStart with
  | none => simp [finishImage, behind, hstart, bind, Except.bind, pure, Except.pure, Except.map]
  | some place =>
    simp only [finishImage, behind, cutAt, hstart, Option.map_some, Text.cutAtByte?_add_append]
    cases Text.cutAtByte? place w.output with
    | none => rfl
    | some parts => simp [bind, Except.bind, pure, Except.pure, Except.map]

/-- **The output before** a part of a document is not looked at. -/
theorem commutes_behind (style : PageStyle) (h : event.suits true = true) (before : Text) :
    Commutes style (·.behind before) event := by
  intro w
  have hpush : ∀ markup, Except.ok (ε := Fault) ((w.behind before).push markup) =
      (Except.ok (w.push markup)).map (·.behind before) := fun markup =>
    congrArg Except.ok (push_behind w before markup)
  cases event with
  | start tag =>
    cases tag with
    | footnote label | heading level => cases h
    | list start => rcases start with _ | _ | _ | n <;> exact hpush _
    | table | tableHead | tableRow => simp [step, start, behind, push, Except.map]
    | fencedCode | indentedCode | htmlBlock | metadata => rfl
    | image url title => simp [step, start, behind, Except.map, Text.byteLength_append]
    | _ => exact hpush _
  | finish tag =>
    cases tag with
    | footnote | heading level => cases h
    | image => exact finishImage_behind w before
    | codeBlock => cases hcode : w.code <;> simp [step, finish, behind, hcode, Except.map, push]
    | tableHead | tableCell => simp [step, finish, behind, push, Except.map]
    | htmlBlock | metadata => rfl
    | _ => exact hpush _
  | text content =>
    cases hcode : w.code <;> simp [step, text, behind, hcode, Except.map, push, pushHeadingText]
  | code content | inlineHtml content =>
    exact congrArg Except.ok (push_behind (w.pushHeadingText _) before _)
  | footnoteReference label => cases h
  | _ => exact hpush _

/-! ### Whole parts -/

variable {w' : Writer} {first second : List Event}

/-- An idle writer is the empty one behind the output, within what is known of the document. -/
theorem IsIdle.eq_behind (h : w.IsIdle) :
    w = ((({} : Writer).behind w.output).within w).withTable w.table := by
  obtain ⟨output, footnotes, outer, title, toc, slugs, heading, code, imageStart, image, table⟩ := w
  obtain ⟨rfl, rfl, rfl, rfl, -⟩ := h.eq_none
  simp [behind, within, withTable]

/-- **A part of a document** is written behind an output as it is written alone. -/
theorem exists_run_behind (style : PageStyle) {trees : List Markdown.Tree}
    (h : ∀ tree ∈ trees, IsPlain true false tree) (hw : w.IsIdle) : ∃ v table,
      run style {} (Markdown.Tree.eventsOfList trees) = .ok v ∧ v.IsIdle ∧
      run style w (Markdown.Tree.eventsOfList trees) =
        .ok (((v.behind w.output).within w).withTable table) := by
  obtain ⟨v, hrun, hv⟩ := exists_run_plain style h isIdle_empty
  have hbehind : run style (({} : Writer).behind w.output) (Markdown.Tree.eventsOfList trees) =
      .ok (v.behind w.output) := by
    rw [run_of_commutes (fun event hevent =>
      commutes_behind style (Tree.suits_of_mem_eventsOfList h event hevent) w.output), hrun]
    rfl
  have hwithin : run style ((({} : Writer).behind w.output).within w)
      (Markdown.Tree.eventsOfList trees) = .ok ((v.behind w.output).within w) := by
    rw [run_within h, hbehind]
    rfl
  obtain ⟨table, htable⟩ := exists_runs_withTable
    (fun tree htree w w' table => exists_run_withTable (h tree htree) rfl table) w.table hwithin
  rw [← hw.eq_behind] at htable
  exact ⟨v, table, hrun, hv, htable⟩

/-- What is written alone is known by its output. -/
theorem page_of_run {trees : List Markdown.Tree} (h : ∀ tree ∈ trees, IsPlain true false tree)
    (hrun : run style {} (Markdown.Tree.eventsOfList trees) = .ok w) :
    w = w.within {} ∧ w.page style = { html := w.output, title := none, toc := [] } := by
  have hwithin : run style {} (Markdown.Tree.eventsOfList trees) = .ok (w.within {}) := by
    rw [show ({} : Writer) = ({} : Writer).within {} from rfl, run_within h, hrun]
    rfl
  have hw : w = w.within {} := Except.ok.inj (hrun.symm.trans hwithin)
  refine ⟨hw, ?_⟩
  rw [hw]
  rfl

end Writer

/-- The events of **plain parts** of a document, one after the other: well nested, with the parts of
tables in tables, and without headings, footnote references and footnote definitions. -/
def ArePlain (events : List Event) : Prop :=
  ∃ trees, events = Markdown.Tree.eventsOfList trees ∧ ∀ tree ∈ trees, IsPlain true false tree

/-- **Documents behind one another** are written as each of them is written alone. -/
theorem renderEvents_append (style : PageStyle) {first second : List Event}
    (hfirst : ArePlain first) (hsecond : ArePlain second) : ∃ page page',
      renderEvents style first = .ok page ∧ renderEvents style second = .ok page' ∧
      renderEvents style (first ++ second) =
        .ok { html := page.html ++ page'.html, title := none, toc := [] } := by
  obtain ⟨trees, rfl, htrees⟩ := hfirst
  obtain ⟨trees', rfl, htrees'⟩ := hsecond
  obtain ⟨v, hv, hidle⟩ := Writer.exists_run_plain style htrees Writer.isIdle_empty
  obtain ⟨v', table, hv', -, hbehind⟩ := Writer.exists_run_behind style htrees' hidle
  obtain ⟨heq, hpage⟩ := Writer.page_of_run htrees hv
  obtain ⟨-, hpage'⟩ := Writer.page_of_run htrees' hv'
  refine ⟨v.page style, v'.page style, by rw [renderEvents, hv]; rfl,
    by rw [renderEvents, hv']; rfl, ?_⟩
  rw [renderEvents, Writer.run_append, hv]
  show (Writer.run style v _).map _ = _
  rw [hbehind, hpage, hpage', heq]
  rfl

/-- A table of one cell. -/
def oneCell : List Markdown.Tree :=
  [.node (.table [.right]) [.node .tableHead [.node .tableCell [.text ['x']]]]]

/-- A tag, and a block of code. -/
def tagAndCode : List Markdown.Tree :=
  [.leaf (.html "<hr>".toList), .node .indentedCode [.text ['y']]]

/-- A tag and a block of code behind a table. -/
theorem renderEvents_append_table :
    ArePlain (Markdown.Tree.eventsOfList oneCell) ∧
    ArePlain (Markdown.Tree.eventsOfList tagAndCode) ∧
    renderEvents {}
        (Markdown.Tree.eventsOfList oneCell ++ Markdown.Tree.eventsOfList tagAndCode) = .ok {
      html :=
        "<table><thead><tr><th style=\"text-align: right\">x</th></tr></thead><tbody>".toList ++
          "</tbody></table>\n".toList ++ "<hr><pre><code>y</code></pre>\n".toList
      title := none
      toc := [] } := by
  have htext : ∀ inTable s, ∀ tree ∈ [Markdown.Tree.text s], IsPlain true inTable tree :=
    fun _ _ => List.forall_mem_singleton.2 (.leaf rfl rfl)
  have hcell : IsPlain true true (.node .tableHead [.node .tableCell [.text ['x']]]) :=
    .node rfl (fun _ => rfl) (List.forall_mem_singleton.2 (.node rfl (fun _ => rfl) (htext _ _)))
  have hfirst : ArePlain (Markdown.Tree.eventsOfList oneCell) :=
    ⟨oneCell, rfl, List.forall_mem_singleton.2
      (.node rfl (by decide) (List.forall_mem_singleton.2 hcell))⟩
  have hsecond : ArePlain (Markdown.Tree.eventsOfList tagAndCode) :=
    ⟨tagAndCode, rfl, List.forall_mem_cons.2
      ⟨.leaf rfl rfl, List.forall_mem_singleton.2 (.node rfl (by decide) (htext _ _))⟩⟩
  obtain ⟨page, page', hpage, hpage', happend⟩ := renderEvents_append {} hfirst hsecond
  obtain rfl := Except.ok.inj (hpage.symm.trans (by rfl))
  obtain rfl := Except.ok.inj (hpage'.symm.trans (by rfl))
  exact ⟨hfirst, hsecond, happend⟩

end Lectern.Page
