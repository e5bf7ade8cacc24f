import Lectern.Proofs.Directive.Markup
import Lectern.Proofs.Page.HeadingId
import Lectern.Proofs.Page.Image
import Lectern.Proofs.Text.Words

/-!
# The Text of a Heading

A heading is known by its plain text: its texts and codes, and the expressions of the component tags
in it, one behind the other. A line break adds nothing, so where no blank character stands beside
it, the last word of a line and the first one of the next line become a single word. The title with
a space for each line break is therefore another one if and only if there is such a place, and has
more words then.

## Main results

* `words_plainText`: the words of the plain text, and those with a space for each line break.
* `Outline.entries_heading`: the entry of a heading, behind any other events.
* `headingText_renderEvents`: the title of every heading of a page, and when no words are glued.
-/

namespace Lectern.Page

open Markdown
open Text (Joins words collapse)

/-! ### Plain text -/

/-- Whether an event ends a line of text. -/
def isBreak : Event → Bool
  | .softBreak | .hardBreak => true
  | _ => false

/-- The **plain text** of an event in a heading. -/
def plainText : Event → Text
  | .text s | .code s => s
  | .inlineHtml tag => Writer.expressionText tag
  | _ => []

/-- The plain text of an event, with a space for a line break. -/
def spacedText (event : Event) : Text := if isBreak event then [' '] else plainText event

/-- Whether a line break **glues words** of the plain text behind `lead`: no blank character stands
on either side of it. -/
def GluesWords (lead : Text) (content : List Event) : Prop :=
  ∃ before event after, content = before ++ event :: after ∧ isBreak event = true ∧
    Joins (lead ++ before.flatMap plainText) (after.flatMap plainText)

section Words

variable {lead : Text} {event : Event} {content : List Event}

/-- A line break has no plain text. -/
theorem plainText_of_isBreak (h : isBreak event = true) : plainText event = [] := by
  cases event with
  | softBreak | hardBreak => rfl
  | _ => cases h

/-- No line break, no glue. -/
theorem not_gluesWords_nil (lead : Text) : ¬ GluesWords lead [] := by
  rintro ⟨before, event, after, heq, -⟩
  simp at heq

/-- Words are glued at the first event or behind it. -/
theorem gluesWords_cons :
    GluesWords lead (event :: content) ↔
      (isBreak event = true ∧ Joins lead (content.flatMap plainText)) ∨
        GluesWords (lead ++ plainText event) content := by
  constructor
  · rintro ⟨_ | ⟨first, before⟩, break', after, heq, hbreak, hjoins⟩
    · obtain ⟨rfl, rfl⟩ := List.cons.inj heq
      exact .inl ⟨hbreak, by simpa using hjoins⟩
    · obtain ⟨rfl, rfl⟩ := List.cons.inj heq
      exact .inr ⟨before, break', after, rfl, hbreak, by simpa using hjoins⟩
  · rintro (⟨hbreak, hjoins⟩ | ⟨before, break', after, rfl, hbreak, hjoins⟩)
    · exact ⟨[], event, content, rfl, hbreak, by simpa using hjoins⟩
    · exact ⟨event :: before, break', after, rfl, hbreak, by simpa using hjoins⟩

/-- A text whose last word does not go on plays no part in what is glued behind it. -/
theorem gluesWords_of_not_joins (h : ¬ Joins lead (content.flatMap plainText)) :
    GluesWords lead content ↔ GluesWords [] content := by
  refine exists_congr fun before => exists_congr fun event => exists_congr fun after =>
    and_congr_right fun heq => and_congr_right fun hbreak => ?_
  by_cases hbefore : before.flatMap plainText = []
  · have hplain : content.flatMap plainText = after.flatMap plainText := by
      rw [heq, List.flatMap_append, hbefore, List.flatMap_cons, plainText_of_isBreak hbreak]
      rfl
    rw [hplain] at h
    simp [hbefore, h]
  · rw [Text.joins_append_left hbefore, List.nil_append]

/-- **The words of the plain text** are those with a space for each line break, unless some are
glued; then there are fewer of them. -/
theorem words_plainText (lead : Text) (content : List Event) :
    (words (lead ++ content.flatMap plainText)).length ≤
        (words (lead ++ content.flatMap spacedText)).length ∧
      (words (lead ++ content.flatMap plainText) = words (lead ++ content.flatMap spacedText) ↔
        ¬ GluesWords lead content) := by
  induction content generalizing lead with
  | nil => simp [not_gluesWords_nil]
  | cons event content ih =>
    rw [gluesWords_cons, List.flatMap_cons, List.flatMap_cons]
    cases hbreak : isBreak event with
    | false =>
      have hrest := ih (lead ++ plainText event)
      simpa [spacedText, hbreak, List.append_assoc] using hrest
    | true =>
      obtain ⟨hlength, hwords⟩ := ih []
      have hspaced : words (lead ++ (spacedText event ++ content.flatMap spacedText)) =
          words lead ++ words (content.flatMap spacedText) := by
        rw [spacedText, if_pos hbreak]
        exact Text.words_append_cons (by decide) lead _
      rw [hspaced, plainText_of_isBreak hbreak, List.nil_append, List.append_nil]
      simp only [List.nil_append] at hlength hwords
      by_cases hjoins : Joins lead (content.flatMap plainText)
      · -- two words become one here, and behind this place there are no more than with spaces
        obtain ⟨front, last, first, back, hlead, hcontent, hall⟩ :=
          Text.words_append_of_joins hjoins
        have hfewer : (words (lead ++ content.flatMap plainText)).length <
            (words lead ++ words (content.flatMap spacedText)).length := by
          rw [hcontent, List.length_cons] at hlength
          simp only [hall, hlead, List.length_append, List.length_cons, List.length_nil]
          omega
        have hne : words (lead ++ content.flatMap plainText) ≠
            words lead ++ words (content.flatMap spacedText) := fun heq =>
          absurd (congrArg List.length heq) (Nat.ne_of_lt hfewer)
        exact ⟨hfewer.le, by simp [hne, hjoins]⟩
      · rw [Text.words_append_of_not_joins hjoins, gluesWords_of_not_joins hjoins,
          List.append_cancel_left_eq, hwords]
        simp [hjoins, hlength]

/-- **No words are glued** if and only if the plain text collapses as it does with a space for each
line break. -/
theorem collapse_plainText_iff (content : List Event) :
    collapse (content.flatMap plainText) = collapse (content.flatMap spacedText) ↔
      ¬ GluesWords [] content :=
  Text.collapse_eq_collapse_iff.trans (words_plainText [] content).2

end Words

/-! ### Outlines -/

/-- Whether an event **stays in a heading**: it neither begins nor ends one, and begins no code
block. -/
def staysInHeading : Event → Bool
  | .start (.heading _) | .finish (.heading _) => false
  | .start (.fencedCode _) | .start .indentedCode => false
  | _ => true

namespace Outline

variable {o : Outline} {event : Event} {content before : List Event} {entry : TocEntry}
  {entries : List TocEntry}

/-- No more text. -/
@[simp] theorem addText_nil (o : Outline) : o.addText [] = o := by
  obtain ⟨_ | ⟨level, text⟩, inCode, slugs, entries⟩ := o
  · rfl
  · simp [addText]

/-- More text behind more text. -/
@[simp] theorem addText_addText (o : Outline) (s t : Text) :
    (o.addText s).addText t = o.addText (s ++ t) := by
  cases hcurrent : o.current <;> simp [addText, hcurrent]

/-- An event in a heading adds its plain text. -/
theorem step_of_staysInHeading (h : staysInHeading event = true) (hcode : o.inCode = false) :
    o.step event = o.addText (plainText event) := by
  cases event with
  | start tag =>
    cases tag with
    | heading level | fencedCode info | indentedCode => cases h
    | _ => exact (addText_nil o).symm
  | finish tag =>
    cases tag with
    | heading level => cases h
    | codeBlock =>
      have hsame : o.step (.finish .codeBlock) = o := by rw [step, ← hcode]
      exact hsame.trans (addText_nil o).symm
    | _ => exact (addText_nil o).symm
  | text s => rw [step, hcode]; rfl
  | code s | inlineHtml s => rfl
  | _ => exact (addText_nil o).symm

/-- **The content of a heading** adds its plain text. -/
theorem foldl_step_of_staysInHeading (h : ∀ event ∈ content, staysInHeading event = true)
    (hcode : o.inCode = false) :
    content.foldl step o = o.addText (content.flatMap plainText) := by
  induction content generalizing o with
  | nil => exact (addText_nil o).symm
  | cons event content ih =>
    obtain ⟨hevent, hcontent⟩ := List.forall_mem_cons.1 h
    rw [List.foldl_cons, step_of_staysInHeading hevent hcode,
      ih (o := o.addText (plainText event)) hcontent hcode, addText_addText, List.flatMap_cons]

/-- The slugs of the closed headings are recorded. -/
theorem records_outline (events : List Event) :
    (outline events).slugs.Records ((outline events).entries.map fun entry =>
      slugify entry.title) := by
  induction events using List.reverseRecOn with
  | nil => exact SlugLedger.records_nil
  | append_singleton events event ih =>
    rw [outline_concat]
    by_cases hclosed : ∃ level, event = .finish (.heading level)
    · obtain ⟨level, rfl⟩ := hclosed
      rw [step]
      split
      · next entry _ => simpa using (ih.next entry.title).2
      · exact ih
    · have hnone : (outline events).closed event = none :=
        closed_eq_none fun level heq => hclosed ⟨level, heq⟩
      have hslugs : ((outline events).step event).slugs = (outline events).slugs := by
        cases event with
        | start tag => cases tag <;> rfl
        | finish tag =>
          cases tag with
          | heading level => exact absurd ⟨level, rfl⟩ hclosed
          | _ => rfl
        | text s => rw [step]; split <;> rfl
        | _ => rfl
      rw [hslugs, entries_step, hnone]
      simpa using ih

/-- A closed heading stays where it is in the outline. -/
theorem entries_append (before after : List Event) :
    (outline (before ++ after)).entries =
      (outline before).entries ++ leftBehind headingLeft before after := by
  rw [entries_outline, entries_outline, leftBehind_append, List.nil_append]

/-- **The entry of a heading**, behind any other events: its title is its plain text, collapsed, and
its id is the slug of the title, with the number of headings before that have the same one. -/
theorem entries_heading (hcontent : ∀ event ∈ content, staysInHeading event = true)
    (hcode : (outline before).inCode = false) (level last : Nat) (after : List Event) :
    let title := collapse (content.flatMap plainText)
    let earlier := (outline before).entries
    (outline (before ++ .start (.heading level) ::
        (content ++ .finish (.heading last) :: after))).entries[earlier.length]? =
      some ⟨level, title, numberedSlug (slugify title)
        ((earlier.map fun entry => slugify entry.title).count (slugify title))⟩ := by
  intro title earlier
  let inside := before ++ .start (.heading level) :: content
  have hsplit : before ++ .start (.heading level) :: (content ++ .finish (.heading last) :: after) =
      (inside ++ [.finish (.heading last)]) ++ after := by
    simp [inside]
  have hinside : outline inside =
      { outline before with current := some (level, content.flatMap plainText) } := by
    let opened := (outline before).step (.start (.heading level))
    have hfold : outline inside = content.foldl step opened := by simp [inside, opened, outline]
    rw [hfold, foldl_step_of_staysInHeading (o := opened) hcontent hcode]
    rfl
  have hid := ((records_outline before).next title).1
  have hclosed : (outline inside).closed (.finish (.heading last)) = some ⟨level, title,
      numberedSlug (slugify title)
        ((earlier.map fun entry => slugify entry.title).count (slugify title))⟩ := by
    rw [hinside, ← hid]
    rfl
  have hentries : (outline inside).entries = earlier := by rw [hinside]
  rw [hsplit, entries_append, outline_concat, entries_step, hclosed, hentries]
  simp

/-- A heading gives the page its title or has an entry. -/
theorem recorded_of_mem (extractTitle : Bool) (h : entry ∈ entries) :
    titleOf extractTitle entries = some entry.title ∨ entry ∈ tocOf extractTitle entries := by
  cases extractTitle with
  | false => exact .inr h
  | true =>
    cases hfind : entries.find? (·.level == 1) with
    | none => exact .inr (by
        rwa [tocOf, if_pos rfl, List.eraseP_of_forall_not (List.find?_eq_none.1 hfind)])
    | some first =>
      obtain ⟨hlevel, left, right, rfl, hleft⟩ := List.find?_eq_some_iff_append.1 hfind
      have hlater : ∀ other ∈ left, ¬ (other.level == 1) = true := by simpa using hleft
      have herase : (first :: right).eraseP (·.level == 1) = right :=
        List.eraseP_cons_of_pos hlevel
      rw [titleOf, tocOf, if_pos rfl, if_pos rfl, hfind, List.eraseP_append_right _ hlater, herase]
      rcases List.mem_append.1 h with h | h
      · exact .inr (List.mem_append_left _ h)
      · rcases List.mem_cons.1 h with rfl | h
        · exact .inl rfl
        · exact .inr (List.mem_append_right _ h)

end Outline

/-! ### Pages -/

/-- **The text of every heading of a page**, for a well-nested stream in which headings and images
hold lines. Whatever precedes and follows a heading, it gives the page its title or has an entry.
Its title is its plain text, collapsed: that of its texts and codes and of the expressions of its
component tags, in order. Its id is the slug of the title, with the number of headings before that
have the same one. The title is the one with a space for each line break if and only if no line
break stands between two words without a blank character on either side. -/
theorem headingText_renderEvents (style : PageStyle) {trees : List Markdown.Tree}
    (htrees : ∀ tree ∈ trees, StandsInText (fun _ => True) tree) :
    let events := Markdown.Tree.eventsOfList trees
    ∃ page, renderEvents style events = .ok page ∧
      page.title = Outline.titleOf style.extractTitle (outline events).entries ∧
      page.toc = Outline.tocOf style.extractTitle (outline events).entries ∧
      (∀ before level content last after,
        events = before ++
            .start (.heading level) :: (content ++ .finish (.heading last) :: after) →
        (∀ event ∈ content, staysInHeading event = true) → (outline before).inCode = false →
        ∃ entry, (outline events).entries[(outline before).entries.length]? = some entry ∧
          (page.title = some entry.title ∨ entry ∈ page.toc) ∧
          entry.level = level ∧
          entry.title = collapse (content.flatMap plainText) ∧
          entry.id = numberedSlug (slugify entry.title)
            (((outline before).entries.map fun entry => slugify entry.title).count
              (slugify entry.title)) ∧
          (entry.title = collapse (content.flatMap spacedText) ↔ ¬ GluesWords [] content)) ∧
      ∀ (names : ComponentNames) (directive : Directive), Settings.componentProblems names = [] →
        directive.isMisleading = false →
        plainText (.inlineHtml (directive.componentTag names)) =
          directive.payloadExpression?.getD [] := by
  intro events
  obtain ⟨w, hrun⟩ := exists_run_of_standsInText style htrees
  have hknows := KnowsOutline.of_run hrun
  refine ⟨w.page style, by rw [renderEvents, hrun]; rfl, hknows.title, hknows.toc, ?_, ?_⟩
  · intro before level content last after hsplit hcontent hcode
    have hentry := Outline.entries_heading hcontent hcode level last after
    rw [← hsplit] at hentry
    refine ⟨_, hentry, ?_, rfl, rfl, rfl, collapse_plainText_iff content⟩
    have hrecorded := Outline.recorded_of_mem style.extractTitle (List.mem_of_getElem? hentry)
    rwa [← hknows.title, ← hknows.toc] at hrecorded
  · intro names directive hnames hmisleading
    rw [plainText, Directive.expressionText_componentTag hnames, Directive.foundExpression?,
      hmisleading]
    rfl

/-- Two headings with one text: blank characters stand beside both line breaks, and the second
heading gets a number. -/
theorem headingText_repeated :
    let content := [.text "Pairs & ".toList, .softBreak, .code "K".toList, .hardBreak,
      .inlineHtml "<LambdaStatic exp=\" x\" />".toList]
    let trees : List Markdown.Tree :=
      [.node (.heading 2) (content.map .leaf), .node (.heading 3) (content.map .leaf)]
    (∀ tree ∈ trees, StandsInText (fun _ => True) tree) ∧
      (∀ event ∈ content, staysInHeading event = true) ∧
      ∃ page, renderEvents {} (Markdown.Tree.eventsOfList trees) = .ok page ∧
        page.toc = [⟨2, "Pairs & K x".toList, "pairs-k-x".toList⟩,
          ⟨3, "Pairs & K x".toList, "pairs-k-x-1".toList⟩] ∧
        collapse (content.flatMap spacedText) = "Pairs & K x".toList ∧
        ¬ GluesWords [] content := by
  intro content trees
  have hline : ∀ child ∈ content.map Markdown.Tree.leaf, StandsInLine (fun _ => True) child := by
    intro child hchild
    obtain ⟨event, hevent, rfl⟩ := List.mem_map.1 hchild
    have hedge : ∀ event ∈ content, event.isEdge = false := by decide
    exact .leaf (hedge event hevent)
  have htrees : ∀ tree ∈ trees, StandsInText (fun _ => True) tree :=
    List.forall_mem_cons.2 ⟨.heading hline, List.forall_mem_singleton.2 (.heading hline)⟩
  have hcontent : ∀ event ∈ content, staysInHeading event = true := by decide
  let second := Markdown.Tree.eventsOfList [.node (.heading 3) (content.map .leaf)]
  have hsplit : Markdown.Tree.eventsOfList trees =
      [] ++ .start (.heading 2) :: (content ++ .finish (.heading 2) :: second) := rfl
  have hentries : (outline (Markdown.Tree.eventsOfList trees)).entries =
      [⟨2, "Pairs & K x".toList, "pairs-k-x".toList⟩,
        ⟨3, "Pairs & K x".toList, "pairs-k-x-1".toList⟩] := by
    decide +kernel
  have hspaced : collapse (content.flatMap spacedText) = "Pairs & K x".toList := by decide +kernel
  obtain ⟨page, hpage, -, htoc, htext, -⟩ := headingText_renderEvents {} htrees
  obtain ⟨entry, hentry, -, -, -, -, hglue⟩ := htext [] 2 content 2 _ hsplit hcontent rfl
  rw [hentries] at htoc hentry
  obtain rfl := Option.some.inj hentry
  exact ⟨htrees, hcontent, page, hpage, htoc, hspaced, hglue.1 hspaced.symm⟩

/-- **A heading on two lines**: the last word of the one and the first word of the other are
glued. -/
theorem headingText_twoLines :
    let events := Document.parse "a\nb\n===\n".toList
    let content := [.text "a".toList, .softBreak, .text "b".toList]
    events = .start (.heading 1) :: (content ++ [.finish (.heading 1)]) ∧
      (renderEvents {} events).toOption.map (·.toc) =
        some [⟨1, "ab".toList, "ab".toList⟩] ∧
      collapse (content.flatMap spacedText) = "a b".toList := by
  decide +kernel

end Lectern.Page
