import Lectern.Page.Writer
import Lectern.Proofs.Page.Body
import Lectern.Proofs.Page.Course

/-!
# The Outline of a Stream

The headings that the events of a stream close, with their levels, plain texts and ids, read off the
events alone. The writer keeps the same book: what it has of the title and the table of contents is
the outline so far, with the first heading of level one as the title if that is asked for. Where the
markup of the headings has gone plays no part.

## Main results

* `entries_outline`: the outline has what the single events close.
* `KnowsOutline.step`, `KnowsOutline.of_run`: what the writer knows of headings behind a stream.
-/

namespace Lectern.Page

open Markdown Markup

/-- What a stream has said of **headings** so far. -/
structure Outline where
  /-- The level of the open heading, and its plain text so far. -/
  current : Option (Nat × Text) := none
  /-- Whether a code block is open, which keeps texts to itself. -/
  inCode : Bool := false
  slugs : SlugLedger := []
  /-- The closed headings, in the order of their ends. -/
  entries : List TocEntry := []
deriving DecidableEq, Repr

namespace Outline

/-- More plain text of an open heading. -/
def addText (o : Outline) (s : Text) : Outline :=
  { o with current := o.current.map fun (level, text) => (level, text ++ s) }

/-- The heading that an event closes. -/
def closed (o : Outline) : Event → Option TocEntry
  | .finish (.heading _) => o.current.map fun (level, text) =>
    ⟨level, Text.collapse text, (o.slugs.next (Text.collapse text)).1⟩
  | _ => none

/-- The outline after one event. -/
def step (o : Outline) : Event → Outline
  | .start (.heading level) => { o with current := some (level, []) }
  | .finish (.heading level) =>
    match o.closed (.finish (.heading level)) with
    | some entry =>
      { o with
        current := none
        slugs := (o.slugs.next entry.title).2
        entries := o.entries ++ [entry] }
    | none => o
  | .start (.fencedCode _) | .start .indentedCode => { o with inCode := true }
  | .finish .codeBlock => { o with inCode := false }
  | .text s => if o.inCode then o else o.addText s
  | .code s => o.addText s
  | .inlineHtml s => o.addText (((Writer.expressionProperty? s).map unescapeAttribute).getD [])
  | _ => o

/-- The title of a page with these headings. -/
def titleOf (extractTitle : Bool) (entries : List TocEntry) : Option Text :=
  if extractTitle then (entries.find? (·.level == 1)).map (·.title) else none

/-- The table of contents of a page with these headings. -/
def tocOf (extractTitle : Bool) (entries : List TocEntry) : List TocEntry :=
  if extractTitle then entries.eraseP (·.level == 1) else entries

end Outline

/-- The **outline of a stream**. -/
def outline (events : List Event) : Outline := events.foldl Outline.step {}

/-- The heading that an event closes behind others. -/
def headingLeft (before : List Event) (event : Event) : List TocEntry :=
  ((outline before).closed event).toList

namespace Outline

variable {before events : List Event} {event : Event} {o : Outline}

/-- Only the end of a heading closes one. -/
theorem closed_eq_none (h : ∀ level, event ≠ .finish (.heading level)) : o.closed event = none := by
  cases event with
  | finish tag =>
    cases tag with
    | heading level => exact absurd rfl (h level)
    | _ => rfl
  | _ => rfl

/-- An event that closes no heading leaves the closed ones alone. -/
theorem entries_step (o : Outline) (event : Event) :
    (o.step event).entries = o.entries ++ (o.closed event).toList := by
  cases event with
  | start tag => cases tag <;> simp [step, closed]
  | finish tag =>
    cases tag with
    | heading level =>
      rw [step]
      cases hclosed : o.closed (.finish (.heading level)) <;> simp
    | _ => simp [step, closed]
  | text s =>
    rw [step]
    split <;> simp [addText, closed]
  | _ => simp [step, addText, closed]

/-- The outline of a longer stream. -/
theorem outline_concat (before : List Event) (event : Event) :
    outline (before ++ [event]) = (outline before).step event := by
  simp [outline]

/-- **The outline has what the single events close.** -/
theorem entries_outline (events : List Event) :
    (outline events).entries = leftBehind headingLeft [] events := by
  have hfrom : ∀ before, (outline (before ++ events)).entries =
      (outline before).entries ++ leftBehind headingLeft before events := by
    induction events with
    | nil => simp [leftBehind]
    | cons event events ih =>
      intro before
      have hnext := ih (before ++ [event])
      rw [outline_concat, entries_step] at hnext
      simpa [leftBehind, headingLeft] using hnext
  simpa [outline] using hfrom []

/-- The title, with one heading more. -/
theorem titleOf_concat (extractTitle : Bool) (entries : List TocEntry) (entry : TocEntry) :
    titleOf extractTitle (entries ++ [entry]) =
      if extractTitle && entry.level == 1 && (titleOf extractTitle entries).isNone then
        some entry.title
      else titleOf extractTitle entries := by
  cases extractTitle with
  | false => rfl
  | true =>
    cases hfind : entries.find? (·.level == 1) <;>
      cases hlevel : entry.level == 1 <;> simp [titleOf, List.find?_append, hfind, hlevel]

/-- The table of contents, with one heading more. -/
theorem tocOf_concat (extractTitle : Bool) (entries : List TocEntry) (entry : TocEntry) :
    tocOf extractTitle (entries ++ [entry]) =
      tocOf extractTitle entries ++
        if extractTitle && entry.level == 1 && (titleOf extractTitle entries).isNone then []
        else [entry] := by
  cases extractTitle with
  | false => rfl
  | true =>
    cases hfind : entries.find? (·.level == 1) with
    | none =>
      have hall := List.find?_eq_none.1 hfind
      have hnone : entries.eraseP (·.level == 1) = entries := List.eraseP_of_forall_not hall
      cases hlevel : entry.level == 1 <;>
        simp [tocOf, titleOf, List.eraseP_append_right _ hall, hnone, hfind, hlevel]
    | some first =>
      have hmem := List.mem_of_find?_eq_some hfind
      have hlevel := List.find?_some hfind
      have herase := List.eraseP_append_left (p := (·.level == 1)) hlevel [entry] hmem
      simp [tocOf, titleOf, herase, hfind]

end Outline

/-! ### The writer -/

/-- Whether the writer **knows** an outline. -/
structure KnowsOutline (style : PageStyle) (o : Outline) (w : Writer) : Prop where
  current : w.heading.map (fun heading => (heading.level, heading.text)) = o.current
  inCode : w.code.isSome = o.inCode
  slugs : w.slugs = o.slugs
  title : w.title = Outline.titleOf style.extractTitle o.entries
  toc : w.toc = Outline.tocOf style.extractTitle o.entries

namespace KnowsOutline

variable {style : PageStyle} {o : Outline} {w w' : Writer} {event : Event} {events : List Event}

/-- The outline of no events. -/
theorem empty (style : PageStyle) : KnowsOutline style {} {} where
  current := rfl
  inCode := rfl
  slugs := rfl
  title := by simp [Outline.titleOf]
  toc := by simp [Outline.tocOf]

/-- The start of an element. -/
theorem start (h : KnowsOutline style o w) (tag : Tag) :
    KnowsOutline style (o.step (.start tag)) (w.start tag) := by
  obtain ⟨hcurrent, hcode, hslugs, htitle, htoc⟩ := h
  cases tag with
  | heading level => exact ⟨rfl, hcode, hslugs, htitle, htoc⟩
  | fencedCode | indentedCode => exact ⟨hcurrent, rfl, hslugs, htitle, htoc⟩
  | list start =>
    rcases start with _ | _ | _ | n <;> exact ⟨hcurrent, hcode, hslugs, htitle, htoc⟩
  | _ => exact ⟨hcurrent, hcode, hslugs, htitle, htoc⟩

/-- **The end of a heading** becomes the title or an entry. -/
theorem finishHeading (h : KnowsOutline style o w) (level : Nat)
    (hfinish : w.finishHeading style = .ok w') :
    KnowsOutline style (o.step (.finish (.heading level))) w' := by
  obtain ⟨hcurrent, hcode, hslugs, htitle, htoc⟩ := h
  unfold Writer.finishHeading at hfinish
  cases hopen : w.heading with
  | none =>
    rw [hopen] at hfinish hcurrent
    obtain rfl := Except.ok.inj hfinish
    rw [Outline.step, Outline.closed, ← hcurrent]
    exact ⟨by rw [hopen]; exact hcurrent, hcode, hslugs, htitle, htoc⟩
  | some heading =>
    rw [hopen] at hfinish hcurrent
    obtain ⟨⟨before, content⟩, -, hrest⟩ := Writer.exists_of_bind_eq_ok hfinish
    rw [Outline.step, Outline.closed, ← hcurrent]
    have hnewTitle := Outline.titleOf_concat style.extractTitle o.entries
      ⟨heading.level, Text.collapse heading.text, (o.slugs.next (Text.collapse heading.text)).1⟩
    have hnewToc := Outline.tocOf_concat style.extractTitle o.entries
      ⟨heading.level, Text.collapse heading.text, (o.slugs.next (Text.collapse heading.text)).1⟩
    have hnext := congrArg (fun slugs => (slugs.next (Text.collapse heading.text)).2) hslugs
    simp only [← htitle, ← htoc] at hnewTitle hnewToc
    dsimp only at hrest
    split at hrest
    next hfirst =>
      obtain rfl := Except.ok.inj hrest
      rw [if_pos hfirst] at hnewTitle hnewToc
      exact ⟨rfl, hcode, hnext, hnewTitle.symm, by simpa using hnewToc.symm⟩
    next hother =>
      obtain rfl := Except.ok.inj hrest
      rw [if_neg hother] at hnewTitle hnewToc
      exact ⟨rfl, hcode, hnext, hnewTitle.symm, by simpa [hslugs] using hnewToc.symm⟩

/-- The end of an element. -/
theorem finish (h : KnowsOutline style o w) {tag : TagEnd} (hfinish : w.finish style tag = .ok w') :
    KnowsOutline style (o.step (.finish tag)) w' := by
  cases tag with
  | heading level => exact h.finishHeading level hfinish
  | codeBlock =>
    obtain ⟨output, rfl⟩ := @Writer.eq_of_finishCodeBlock style _ _ hfinish
    exact ⟨h.current, rfl, h.slugs, h.title, h.toc⟩
  | image =>
    obtain ⟨output, rfl⟩ := Writer.eq_of_finishImage hfinish
    exact ⟨h.current, h.inCode, h.slugs, h.title, h.toc⟩
  | footnote =>
    rw [Writer.finish] at hfinish
    split at hfinish <;> obtain rfl := Except.ok.inj hfinish
    · exact ⟨h.current, h.inCode, h.slugs, h.title, h.toc⟩
    · exact h
  | _ =>
    obtain rfl := Except.ok.inj hfinish
    exact ⟨h.current, h.inCode, h.slugs, h.title, h.toc⟩

/-- More text of a heading. -/
theorem pushHeadingText (h : KnowsOutline style o w) (s : Text) :
    KnowsOutline style (o.addText s) (w.pushHeadingText s) where
  current := by
    rw [Outline.addText, ← h.current]
    cases hopen : w.heading <;> simp [Writer.pushHeadingText, hopen]
  inCode := h.inCode
  slugs := h.slugs
  title := h.title
  toc := h.toc

/-- More markup. -/
theorem push (h : KnowsOutline style o w) (markup : Text) :
    KnowsOutline style o (w.push markup) :=
  ⟨h.current, h.inCode, h.slugs, h.title, h.toc⟩

/-- **One event.** -/
theorem step (h : KnowsOutline style o w) (hstep : Writer.step style w event = .ok w') :
    KnowsOutline style (o.step event) w' := by
  cases event with
  | start tag =>
    obtain rfl := Except.ok.inj hstep
    exact h.start tag
  | finish tag => exact h.finish hstep
  | text s =>
    obtain rfl := Except.ok.inj hstep
    rw [Outline.step, ← h.inCode, Writer.text]
    cases hopen : w.code with
    | none => exact (h.pushHeadingText s).push _
    | some code =>
      exact ⟨h.current, (congrArg Option.isSome hopen).symm.trans h.inCode, h.slugs, h.title, h.toc⟩
  | code s =>
    obtain rfl := Except.ok.inj hstep
    exact (h.pushHeadingText s).push _
  | inlineHtml s =>
    obtain rfl := Except.ok.inj hstep
    exact (h.pushHeadingText _).push s
  | _ =>
    obtain rfl := Except.ok.inj hstep
    exact ⟨h.current, h.inCode, h.slugs, h.title, h.toc⟩

/-- **A stream**: the writer knows its outline. -/
theorem of_run (h : Writer.run style {} events = .ok w) :
    KnowsOutline style (outline events) w := by
  induction events using List.reverseRecOn generalizing w with
  | nil =>
    obtain rfl := Except.ok.inj h
    exact .empty style
  | append_singleton events event ih =>
    obtain ⟨w₁, hrun, hlast⟩ := Writer.exists_run_of_append h
    rw [Outline.outline_concat]
    exact (ih hrun).step ((Writer.run_singleton w₁ event).symm.trans hlast)

end KnowsOutline

end Lectern.Page
