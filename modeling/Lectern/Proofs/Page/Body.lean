import Lectern.Proofs.Markdown.Definition
import Lectern.Proofs.Page.Footnote
import Lectern.Proofs.Page.MainFlow
import Mathlib.Data.List.Induction

/-!
# The Bodies of Footnotes

Where the body in the item of a footnote comes from. A reference and a definition meet in the ledger
by their labels as they are spelled, and the body is what has been written since the start of the
definition when its end comes. So the item shows the body of a definition that is spelled like the
reference and holds no other definition, and nothing if there is none. The parser compares labels
without regard to case: it may have found a definition that is spelled otherwise.

The bodies are followed over any stream, event by event: behind each event, the ledger holds
bodies of definitions that have ended, and the writer is either in a definition that has no other
one in it so far, or in none that it will keep.

## Main results

* `KnowsNotes.step`, `KnowsNotes.of_run`: what the writer knows of footnotes behind a stream.
* `exists_bodies_of_run`: the section of any stream that is written.
* `exists_run_parse`: each document is written.
* `renderEvents_parse_bodies`: the numbers and the bodies of the footnotes of a document.
* `renderEvents_parse_bodies_lost`: a footnote without its body.
-/

namespace Lectern.Markdown

/-- Whether an event is an edge of a footnote definition. -/
def Event.isNoteEdge : Event → Bool
  | .start (.footnote _) | .finish .footnote => true
  | _ => false

/-- The edges of definitions are their starts and their ends. -/
theorem Event.eq_of_isNoteEdge {event : Event} (h : event.isNoteEdge = true) :
    (∃ label, event = .start (.footnote label)) ∨ event = .finish .footnote := by
  cases event with
  | start tag =>
    cases tag with
    | footnote label => exact .inl ⟨label, rfl⟩
    | _ => cases h
  | finish tag =>
    cases tag with
    | footnote => exact .inr rfl
    | _ => cases h
  | _ => cases h

/-- The label of a footnote reference. -/
def Event.reference? : Event → Option Text
  | .footnoteReference label => some label
  | _ => none

/-- The labels of the footnote references of a stream, in order. -/
def referenceLabels (events : List Event) : List Text := events.filterMap Event.reference?

/-- The references of a stream with one more event. -/
theorem referenceLabels_concat (events : List Event) (event : Event) :
    referenceLabels (events ++ [event]) = referenceLabels events ++ event.reference?.toList := by
  unfold referenceLabels
  rw [List.filterMap_append]
  cases h : event.reference? <;> simp [h]

/-- Whether a stream **holds a footnote definition** behind `before`, with that label and that
content, and with no other definition in it. -/
def HoldsNote (events : List Event) (label : Text) (before content : List Event) : Prop :=
  (before ++ .start (.footnote label) :: content ++ [.finish .footnote]) <+: events ∧
    ∀ event ∈ content, event.isNoteEdge = false

/-- A longer stream holds the same definitions. -/
theorem HoldsNote.append {events before content : List Event} {label : Text}
    (h : HoldsNote events label before content) (more : List Event) :
    HoldsNote (events ++ more) label before content :=
  ⟨h.1.trans (List.prefix_append _ _), h.2⟩

end Lectern.Markdown

namespace Lectern.Page

open Markdown

variable {style : PageStyle} {events before content : List Event} {event : Event}
  {label body : Text} {w w' : Writer}

/-! ### One event -/

namespace Writer

/-- What is neither an edge of a definition nor a reference leaves the footnotes alone. -/
theorem footnotes_step (hedge : event.isNoteEdge = false) (hreference : event.reference? = none)
    (h : step style w event = .ok w') : w'.footnotes = w.footnotes ∧ w'.outer = w.outer := by
  cases event with
  | start tag =>
    obtain rfl := Except.ok.inj h
    cases tag with
    | footnote => cases hedge
    | list start => rcases start with _ | _ | _ | n <;> exact ⟨rfl, rfl⟩
    | _ => exact ⟨rfl, rfl⟩
  | finish tag =>
    cases tag with
    | footnote => cases hedge
    | heading level =>
      obtain ⟨output, title, toc, slugs, rfl⟩ := eq_of_finishHeading h
      exact ⟨rfl, rfl⟩
    | image =>
      obtain ⟨output, rfl⟩ := eq_of_finishImage h
      exact ⟨rfl, rfl⟩
    | codeBlock =>
      obtain ⟨output, rfl⟩ := @eq_of_finishCodeBlock style _ _ h
      exact ⟨rfl, rfl⟩
    | _ =>
      obtain rfl := Except.ok.inj h
      exact ⟨rfl, rfl⟩
  | text content =>
    obtain rfl := Except.ok.inj h
    unfold text
    split <;> exact ⟨rfl, rfl⟩
  | footnoteReference label => cases hreference
  | _ =>
    obtain rfl := Except.ok.inj h
    exact ⟨rfl, rfl⟩

/-- What is no edge of a definition leaves the bodies alone, and the definition that is open. -/
theorem definitions_step (hedge : event.isNoteEdge = false) (h : step style w event = .ok w') :
    w'.footnotes.definitions = w.footnotes.definitions ∧ w'.outer = w.outer := by
  cases hreference : event.reference? with
  | none =>
    obtain ⟨hfootnotes, houter⟩ := footnotes_step hedge hreference h
    exact ⟨congrArg _ hfootnotes, houter⟩
  | some label =>
    cases event with
    | footnoteReference label =>
      obtain rfl := Except.ok.inj h
      exact ⟨w.footnotes.definitions_reference label, rfl⟩
    | _ => cases hreference

/-- **The tally of references** is kept by each event. -/
theorem references_step {labels : List Text} (htally : w.footnotes.references = tally labels)
    (h : step style w event = .ok w') :
    w'.footnotes.references = tally (labels ++ event.reference?.toList) := by
  cases hreference : event.reference? with
  | some label =>
    cases event with
    | footnoteReference label =>
      obtain rfl := Option.some.inj hreference
      obtain rfl := Except.ok.inj h
      exact congrArg (·.2.references) (FootnoteLedger.reference_eq htally label)
    | _ => cases hreference
  | none =>
    rw [Option.toList_none, List.append_nil, ← htally]
    cases hedge : event.isNoteEdge with
    | false => rw [(footnotes_step hedge hreference h).1]
    | true =>
      rcases Event.eq_of_isNoteEdge hedge with ⟨label, rfl⟩ | rfl
      · obtain rfl := Except.ok.inj h
        rfl
      · rw [step, finish] at h
        split at h <;> obtain rfl := Except.ok.inj h <;> rfl

/-- A stream without edges of definitions leaves the definition that is open. -/
theorem outer_run (hedges : ∀ event ∈ content, event.isNoteEdge = false)
    (h : run style w content = .ok w') : w'.outer = w.outer := by
  induction content generalizing w with
  | nil => rw [Except.ok.inj h]
  | cons event content ih =>
    obtain ⟨hedge, hrest⟩ := List.forall_mem_cons.1 hedges
    obtain ⟨w₁, hstep, hrun⟩ := exists_of_bind_eq_ok h
    rw [ih hrest hrun, (definitions_step hedge hstep).2]

/-- Bodies are only added. -/
theorem suffix_step (h : step style w event = .ok w') :
    w.footnotes.definitions <:+ w'.footnotes.definitions := by
  cases hedge : event.isNoteEdge with
  | false => exact (definitions_step hedge h).1 ▸ List.suffix_refl _
  | true =>
    rcases Event.eq_of_isNoteEdge hedge with ⟨label, rfl⟩ | rfl
    · obtain rfl := Except.ok.inj h
      exact List.suffix_refl _
    · rw [step, finish] at h
      split at h <;> obtain rfl := Except.ok.inj h
      · exact List.suffix_cons _ _
      · exact List.suffix_refl _

/-- Bodies are only added by a stream. -/
theorem suffix_run (h : run style w events = .ok w') :
    w.footnotes.definitions <:+ w'.footnotes.definitions := by
  induction events generalizing w with
  | nil =>
    obtain rfl := Except.ok.inj h
    exact List.suffix_refl _
  | cons event events ih =>
    obtain ⟨w₁, hstep, hrun⟩ := exists_of_bind_eq_ok h
    exact (suffix_step hstep).trans (ih hrun)

end Writer

/-! ### Streams -/

/-- Whether a text is the **body** of a footnote definition of a stream: what is written for its
content, where it stands. -/
def IsBody (style : PageStyle) (events : List Event) (label body : Text) : Prop :=
  ∃ before content w w', HoldsNote events label before content ∧
    Writer.run style {} before = .ok w ∧
    Writer.run style (w.start (.footnote label)) content = .ok w' ∧
    body = Text.trimEnd w'.output

/-- What the writer **knows of footnotes** behind a stream. If a definition is open whose end will
be kept, no other one has begun or ended since its start. -/
structure KnowsNotes (style : PageStyle) (events : List Event) (w : Writer) : Prop where
  run : Writer.run style {} events = .ok w
  references : w.footnotes.references = tally (referenceLabels events)
  bodies : ∀ label body, (label, body) ∈ w.footnotes.definitions → IsBody style events label body
  current : ∀ label output, w.outer = some (label, output) → ∃ before content w₀,
    events = before ++ .start (.footnote label) :: content ∧
    (∀ event ∈ content, event.isNoteEdge = false) ∧
    Writer.run style {} before = .ok w₀ ∧
    Writer.run style (w₀.start (.footnote label)) content = .ok w

/-- A longer stream has the same bodies. -/
theorem IsBody.append (h : IsBody style events label body) (more : List Event) :
    IsBody style (events ++ more) label body := by
  obtain ⟨before, content, w, w', hholds, hrun⟩ := h
  exact ⟨before, content, w, w', hholds.append more, hrun⟩

namespace KnowsNotes

open Writer

/-- Nothing is known at the start. -/
theorem start (style : PageStyle) : KnowsNotes style [] {} where
  run := rfl
  references := rfl
  bodies := by simp
  current := by simp

/-- The references, with one more event. -/
theorem references_concat (h : KnowsNotes style events w) (hstep : step style w event = .ok w') :
    w'.footnotes.references = tally (referenceLabels (events ++ [event])) := by
  rw [referenceLabels_concat]
  exact references_step h.references hstep

/-- What is no edge of a definition goes into the one that is open, if there is one. -/
theorem inside (h : KnowsNotes style events w) (hedge : event.isNoteEdge = false)
    (hstep : step style w event = .ok w') : KnowsNotes style (events ++ [event]) w' := by
  obtain ⟨hdefinitions, houter⟩ := definitions_step hedge hstep
  refine ⟨run_concat h.run hstep, h.references_concat hstep, fun label body hbody => ?_,
    fun label output hopen => ?_⟩
  · rw [hdefinitions] at hbody
    exact (h.bodies label body hbody).append _
  · rw [houter] at hopen
    obtain ⟨before, content, w₀, rfl, hedges, hbefore, hcontent⟩ := h.current label output hopen
    refine ⟨before, content ++ [event], w₀, by simp, ?_, hbefore, run_concat hcontent hstep⟩
    exact List.forall_mem_append.2 ⟨hedges, List.forall_mem_singleton.2 hedge⟩

/-- A definition that starts. One that is open is given up. -/
theorem open_note (h : KnowsNotes style events w) (label : Text) :
    KnowsNotes style (events ++ [.start (.footnote label)]) (w.start (.footnote label)) := by
  have hstep : Writer.step style w (.start (.footnote label)) =
      .ok (w.start (.footnote label)) := rfl
  refine ⟨run_concat h.run hstep, h.references_concat hstep,
    fun other body hbody => (h.bodies other body hbody).append _, fun other output hopen => ?_⟩
  obtain ⟨rfl, -⟩ := Prod.mk.inj (Option.some.inj hopen)
  exact ⟨events, [], w, rfl, by simp, h.run, rfl⟩

/-- **A definition that ends**: what has been written is its body. -/
theorem close_note (h : KnowsNotes style events w)
    (hstep : Writer.step style w (.finish .footnote) = .ok w') :
    KnowsNotes style (events ++ [.finish .footnote]) w' := by
  have hrun := run_concat h.run hstep
  have hreferences := h.references_concat hstep
  cases hopen : w.outer with
  | none =>
    -- the start of another definition has taken the place of the one that ends
    rw [Writer.step, Writer.finish, hopen] at hstep
    obtain rfl := Except.ok.inj hstep
    exact ⟨hrun, hreferences, fun label body hbody => (h.bodies label body hbody).append _,
      by simp [hopen]⟩
  | some note =>
    obtain ⟨label, output⟩ := note
    rw [Writer.step, Writer.finish, hopen] at hstep
    obtain rfl := Except.ok.inj hstep
    obtain ⟨before, content, w₀, rfl, hedges, hbefore, hcontent⟩ := h.current label output hopen
    refine ⟨hrun, hreferences, fun other body hbody => ?_, by simp⟩
    rcases List.mem_cons.1 hbody with heq | hearlier
    · obtain ⟨rfl, rfl⟩ := Prod.mk.inj heq
      exact ⟨before, content, w₀, w, ⟨by simp, hedges⟩, hbefore, hcontent, rfl⟩
    · exact (h.bodies other body hearlier).append _

/-- **One event** more. -/
theorem step (h : KnowsNotes style events w) (hstep : step style w event = .ok w') :
    KnowsNotes style (events ++ [event]) w' := by
  cases hedge : event.isNoteEdge with
  | false => exact h.inside hedge hstep
  | true =>
    rcases Event.eq_of_isNoteEdge hedge with ⟨label, rfl⟩ | rfl
    · obtain rfl := Except.ok.inj hstep
      exact h.open_note label
    · exact h.close_note hstep

/-- **Any stream**, event by event. -/
theorem of_run (h : Writer.run style {} events = .ok w) : KnowsNotes style events w := by
  induction events using List.reverseRecOn generalizing w with
  | nil =>
    obtain rfl := Except.ok.inj h
    exact .start style
  | append_singleton events event ih =>
    obtain ⟨w₁, hrun, hlast⟩ := exists_run_of_append h
    exact (ih hrun).step ((run_singleton w₁ event).symm.trans hlast)

end KnowsNotes

/-- **A definition that holds no other one** has left a body. -/
theorem exists_body_of_holdsNote (hrun : Writer.run style {} events = .ok w)
    (h : HoldsNote events label before content) :
    ∃ body, (label, body) ∈ w.footnotes.definitions := by
  obtain ⟨⟨after, rfl⟩, hedges⟩ := h
  obtain ⟨w₃, hrun, hafter⟩ := Writer.exists_run_of_append hrun
  obtain ⟨w₂, hrun, hfinish⟩ := Writer.exists_run_of_append hrun
  obtain ⟨w₁, -, hcontent⟩ := Writer.exists_run_of_append hrun
  have hopen : w₂.outer = some (label, w₁.output) :=
    @Writer.outer_run style content (w₁.start (.footnote label)) w₂ hedges hcontent
  rw [Writer.run_singleton, Writer.step, Writer.finish, hopen] at hfinish
  obtain rfl := Except.ok.inj hfinish
  exact ⟨_, (Writer.suffix_run hafter).subset List.mem_cons_self⟩

/-- **The section of a page**: one item for each label that is referred to, with the body of a
definition of that label if there is one without others in it, and nothing otherwise. -/
theorem exists_bodies_of_run (h : Writer.run style {} events = .ok w) : ∃ bodies : Text → Text,
    w.footnotes.renderSection style.context style.naming style.anchor =
      noteSection (referenceLabels events).eraseDups (fun label =>
        noteItem style.context style.naming style.anchor
          (tokensOf (numbered [] (referenceLabels events)) label) (bodies label)) ∧
    ∀ label, IsBody style events label (bodies label) ∨
      bodies label = [] ∧ ∀ before content, ¬ HoldsNote events label before content := by
  have hknows := KnowsNotes.of_run h
  refine ⟨fun label => (w.footnotes.definitions.lookup label).getD [],
    renderSection_of_tally hknows.references _ _ _, fun label => ?_⟩
  dsimp only
  cases hlookup : w.footnotes.definitions.lookup label with
  | none =>
    refine .inr ⟨rfl, fun before content hholds => ?_⟩
    obtain ⟨body, hbody⟩ := exists_body_of_holdsNote h hholds
    have hother : (label != label) = true := List.lookup_eq_none_iff.1 hlookup _ hbody
    simp at hother
  | some body =>
    obtain ⟨earlier, later, heq, -⟩ := List.lookup_eq_some_iff.1 hlookup
    exact .inl (hknows.bodies label body (by simp [heq]))

/-- Whether a reference behind a stream **is written with** a token. -/
def IsWrittenWith (style : PageStyle) (before : List Event) (label : Text) (token : FootnoteToken) :
    Prop :=
  ∃ w w', Writer.run style {} before = .ok w ∧
    w.step style (.footnoteReference label) = .ok w' ∧
    w'.output = w.output ++ referenceMarkup token style.context style.naming

/-- **A reference of a stream** is written with one of the tokens that the item of its label is made
of. -/
theorem exists_token_of_run {after : List Event}
    (h : Writer.run style {} (before ++ .footnoteReference label :: after) = .ok w) :
    ∃ token ∈ tokensOf
        (numbered [] (referenceLabels (before ++ .footnoteReference label :: after))) label,
      IsWrittenWith style before label token := by
  obtain ⟨w₁, hrun, -⟩ := Writer.exists_run_of_append h
  have hreference := FootnoteLedger.reference_eq (KnowsNotes.of_run hrun).references label
  have hstep := congrArg (fun result => (.ok ({ w₁ with footnotes := result.2 }.push
    (referenceMarkup result.1 style.context style.naming)) : Except Fault Writer)) hreference
  refine ⟨nextToken (referenceLabels before) label, List.mem_filter.2 ⟨?_, by simp [nextToken]⟩,
    w₁, _, hrun, hstep, rfl⟩
  have hlabels : referenceLabels (before ++ .footnoteReference label :: after) =
      referenceLabels before ++ label :: referenceLabels after := by
    simp [referenceLabels, Event.reference?]
  rw [hlabels, numbered_append, List.nil_append, numbered]
  exact List.mem_append_right _ List.mem_cons_self

/-! ### Documents -/

namespace Places

variable {definitions : Definitions} {p : Places} {tree : Markdown.Tree}

/-- Whether no places are remembered at all. -/
structure IsClear (p : Places) : Prop where
  near : p.near = []
  waiting : p.waiting.getD [] = []
  lost : p.lost = []

/-- Trees that each leave no place behind do so together. -/
theorem clear_list {trees : List Markdown.Tree}
    (htrees : ∀ tree ∈ trees, ∀ p : Places, p.IsClear →
      ∃ p', p.run tree.events = some p' ∧ p'.IsClear)
    (hp : p.IsClear) : ∃ p', p.run (Markdown.Tree.eventsOfList trees) = some p' ∧ p'.IsClear := by
  induction trees generalizing p with
  | nil => exact ⟨p, rfl, hp⟩
  | cons tree trees ih =>
    obtain ⟨htree, hrest⟩ := List.forall_mem_cons.1 htrees
    obtain ⟨q, hrun, hq⟩ := htree p hp
    obtain ⟨p', hrun', hp'⟩ := ih hrest hq
    refine ⟨p', ?_, hp'⟩
    rw [Markdown.Tree.eventsOfList, run_append, hrun]
    exact hrun'

/-- **The parts of a document** leave no place behind: headings and images close what they open, and
between them there is nothing that a footnote definition could take away. -/
theorem clear_tree (h : IsPart definitions tree) (hp : p.IsClear) :
    ∃ p', p.run tree.events = some p' ∧ p'.IsClear := by
  have hapart : ∀ {tree : Markdown.Tree} {p : Places}, NotesApart true tree → p.IsClear →
      ∃ p', p.run tree.events = some p' ∧ p'.IsClear := by
    intro tree p htree hp
    have hordered : IsOrdered true p := ⟨hp.lost, nofun⟩
    obtain ⟨p', hrun, hwithin⟩ := within_tree htree hordered
    have hnear := hwithin.near
    have hwaiting := hwithin.waiting
    rw [hp.near] at hnear
    rw [hp.waiting] at hwaiting
    exact ⟨p', hrun, List.sublist_nil.1 hnear, List.sublist_nil.1 hwaiting, hwithin.lost⟩
  induction h generalizing p with
  | line hline => exact hapart (hline.notesApart true) hp
  | heading hchildren =>
    exact hapart (.node nofun fun child hchild => (hchildren child hchild).notesApart true) hp
  | @node tag children hheading himage _ ih =>
    have hchildren : ∀ {p : Places}, p.IsClear →
        ∃ p', p.run (Markdown.Tree.eventsOfList children) = some p' ∧ p'.IsClear :=
      fun hp => clear_list (fun child hchild _ => ih child hchild) hp
    rw [run_node]
    cases tag with
    | heading level => exact absurd rfl (hheading level)
    | image url title => exact absurd rfl (himage url title)
    | footnote label =>
      have hsuspended : p.suspended.IsClear :=
        ⟨rfl, hp.near, by simp [suspended, hp.waiting, hp.lost]⟩
      obtain ⟨q, hrun, hq⟩ := hchildren hsuspended
      refine ⟨q.resumed, congrArg (Option.bind · (step · (.finish .footnote))) hrun, ?_⟩
      unfold resumed
      split
      next places hplaces =>
        exact ⟨by simpa [hplaces] using hq.waiting, rfl, by simp [hq.near, hq.lost]⟩
      next => exact hq
    | _ =>
      obtain ⟨q, hrun, hq⟩ := hchildren hp
      exact ⟨q, congrArg (Option.bind · _) hrun, hq⟩

end Places

/-- **Each document is written**, whatever stands in its footnote definitions. -/
theorem exists_run_parse (style : PageStyle) (source : Text) :
    ∃ w, Writer.run style {} (Document.parse source) = .ok w := by
  have hclear : Places.IsClear {} := ⟨rfl, rfl, rfl⟩
  obtain ⟨p, hp, -⟩ := Places.clear_list (fun tree htree _ hp =>
    Places.clear_tree (Document.isPart_of_mem_trees htree) hp) hclear
  obtain ⟨w, hrun, -⟩ := Writer.isIdle_empty.tracks.run style hp
  exact ⟨w, hrun⟩

/-- **The footnotes of a document.** Each reference has a definition with its label but for case,
and is written with a token of the item of its label; two of them have one number if their labels
are spelled alike. The body of the item is that of a definition spelled like the label without other
definitions in it, and empty if there is none. -/
theorem renderEvents_parse_bodies (style : PageStyle) (source : Text) :
    let events := Document.parse source
    let labels := referenceLabels events
    let tokens := numbered [] labels
    ∃ page, ∃ bodies : Text → Text, renderEvents style events = .ok page ∧
      noteSection labels.eraseDups (fun label =>
        noteItem style.context style.naming style.anchor (tokensOf tokens label) (bodies label)) <:+
          page.html ∧
      (∀ label ∈ labels,
        (∃ defined, Unicode.caseFold defined = Unicode.caseFold label ∧
          .start (.footnote defined) ∈ events) ∧
        (IsBody style events label (bodies label) ∨
          bodies label = [] ∧ ∀ before content, ¬ HoldsNote events label before content)) ∧
      (∀ before label after, events = before ++ .footnoteReference label :: after →
        ∃ token ∈ tokensOf tokens label, IsWrittenWith style before label token) ∧
      ∀ first ∈ tokens, ∀ second ∈ tokens,
        first.number = second.number ↔ first.label = second.label := by
  intro events labels tokens
  obtain ⟨w, hrun⟩ := exists_run_parse style source
  obtain ⟨bodies, hsection, hbodies⟩ := exists_bodies_of_run hrun
  refine ⟨w.page style, bodies, ?_, ?_, fun label hlabel => ⟨?_, hbodies label⟩, ?_, ?_⟩
  · rw [renderEvents, hrun]
    rfl
  · unfold Writer.page
    rw [hsection]
    dsimp only
    split
    next hempty =>
      rw [List.isEmpty_iff.1 hempty]
      exact List.nil_suffix
    next => exact List.suffix_append_of_suffix (List.suffix_cons _ _)
  · obtain ⟨event, hevent, heq⟩ := List.mem_filterMap.1 hlabel
    cases event with
    | footnoteReference written =>
      obtain rfl := Option.some.inj heq
      exact Document.exists_start_of_reference hevent
    | _ => cases heq
  · intro before label after hevents
    rw [show Document.parse source = _ from hevents] at hrun
    have htoken := exists_token_of_run hrun
    rwa [← hevents] at htoken
  · intro first hfirst second hsecond
    obtain ⟨hfirst, hrank⟩ := number_of_mem_numbered hfirst
    obtain ⟨hsecond, hrank'⟩ := number_of_mem_numbered hsecond
    rw [hrank, hrank']
    exact List.idxOf_inj (List.mem_eraseDups.2 hfirst)

/-- The footnote section of a page with one reference to one note, which has no body. -/
def emptySection (label : Text) : Text :=
  noteSection [label] fun label => noteItem {} standardNaming stockAnchor [⟨0, 0, label⟩] []

/-- **Footnotes without their bodies.** The only definition is spelled otherwise than the reference
that it belongs to, or has another definition in it; and two references to one definition have two
numbers. -/
theorem renderEvents_parse_bodies_lost :
    (Document.parse "x[^A]\n\n[^a]: note\n".toList = [.start .paragraph, .text ['x'],
        .footnoteReference ['A'], .finish .paragraph, .start (.footnote ['a']), .start .paragraph,
        .text "note".toList, .finish .paragraph, .finish .footnote] ∧
      ((renderEvents {} (Document.parse "x[^A]\n\n[^a]: note\n".toList)).toOption.map
        fun page => (emptySection ['A']).isSuffixOf page.html) = some true) ∧
    (.start (.footnote ['a']) ∈ Document.parse "x[^a]\n\n[^a]: note\n\n    > [^b]: y\n".toList ∧
      ((renderEvents {} (Document.parse
        "x[^a]\n\n[^a]: note\n\n    > [^b]: y\n".toList)).toOption.map
          fun page => (emptySection ['a']).isSuffixOf page.html) = some true) ∧
    (numbered [] (referenceLabels (Document.parse "[^A] [^a]\n\n[^a]: note\n".toList))).map
      (·.number) = [0, 1] := by
  decide +kernel

end Lectern.Page
