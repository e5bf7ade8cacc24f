import Lectern.Page.Writer
import Lectern.Proofs.Markdown.Shape

/-!
# Runs of the Writer

How a run of the writer over the events of a tree is put together from runs over its parts.
`Yields` states that a run ends without a fault, and in which state; its rules follow the lists of
events.

## Main results

* `Yields.append`, `Yields.node`, `yields_each`: the rules for streams, elements and lists.
* `yields_texts`: texts that follow each other are written as one.
-/

namespace Lectern.Page

open Markdown

namespace Writer

variable {style : PageStyle} {w w' : Writer}

/-! ### Runs -/

/-- Whether a run over `events` ends, and in a state that meets `post`. -/
def Yields (style : PageStyle) (w : Writer) (events : List Event) (post : Writer → Prop) : Prop :=
  ∃ w', run style w events = .ok w' ∧ post w'

/-- The run over no events. -/
theorem yields_nil {post : Writer → Prop} (h : post w) : Yields style w [] post := ⟨w, rfl, h⟩

/-- A run over one event. -/
theorem yields_singleton {event : Event} {post : Writer → Prop}
    (hstep : step style w event = .ok w') (hpost : post w') : Yields style w [event] post := by
  refine ⟨w', ?_, hpost⟩
  rw [run, List.foldlM_cons, hstep]
  rfl

/-- A run over two streams, one after the other. -/
theorem Yields.append {first second : List Event} {mid post : Writer → Prop}
    (hfirst : Yields style w first mid) (hsecond : ∀ w', mid w' → Yields style w' second post) :
    Yields style w (first ++ second) post := by
  obtain ⟨w₁, hrun₁, hmid⟩ := hfirst
  obtain ⟨w₂, hrun₂, hpost⟩ := hsecond w₁ hmid
  refine ⟨w₂, ?_, hpost⟩
  rw [run] at hrun₁ hrun₂ ⊢
  rw [List.foldlM_append, hrun₁]
  exact hrun₂

/-- What a run is known to end in may be less than it does. -/
theorem Yields.imp {events : List Event} {post post' : Writer → Prop}
    (h : Yields style w events post) (himp : ∀ w', post w' → post' w') :
    Yields style w events post' := by
  obtain ⟨w', hrun, hpost⟩ := h
  exact ⟨w', hrun, himp w' hpost⟩

/-- A run over an element: its start, its content and its end. -/
theorem Yields.node {tag : Tag} {children : List Markdown.Tree} {mid post : Writer → Prop}
    (hchildren : Yields style (w.start tag) (Markdown.Tree.eventsOfList children) mid)
    (hfinish : ∀ w₁, mid w₁ → ∃ w₂, w₁.finish style tag.toEnd = .ok w₂ ∧ post w₂) :
    Yields style w (Markdown.Tree.node tag children).events post := by
  rw [Markdown.Tree.events]
  have hstart : Yields style w [.start tag] (· = w.start tag) := yields_singleton rfl rfl
  refine hstart.append ?_
  rintro _ rfl
  refine hchildren.append fun w₁ hmid => ?_
  obtain ⟨w₂, hstep, hpost⟩ := hfinish w₁ hmid
  exact yields_singleton hstep hpost

/-- A run over trees, one after the other, when what they do adds up in the order of an `index`. -/
theorem yields_each {α : Type} (index : Markdown.Tree → List α) {pre : Writer → Prop}
    {does : List α → Writer → Writer → Prop} (hnil : ∀ w, does [] w w)
    (happend : ∀ {s t u v w}, does s u v → does t v w → does (s ++ t) u w)
    (hpre : ∀ {s w w'}, pre w → does s w w' → pre w') {trees : List Markdown.Tree}
    (htrees : ∀ tree ∈ trees, ∀ w, pre w → Yields style w tree.events (does (index tree) w))
    (hw : pre w) :
    Yields style w (Markdown.Tree.eventsOfList trees) (does (trees.flatMap index) w) := by
  induction trees generalizing w with
  | nil => exact yields_nil (hnil w)
  | cons tree trees ih =>
    obtain ⟨htree, hrest⟩ := List.forall_mem_cons.1 htrees
    rw [Markdown.Tree.eventsOfList, List.flatMap_cons]
    refine (htree w hw).append fun w₁ hfirst => ?_
    exact (ih hrest (hpre hw hfirst)).imp fun w₂ hsecond => happend hfirst hsecond

/-- A run over trees, one after the other, when each does what is done once and again. -/
theorem yields_list {pre : Writer → Prop} {does : Writer → Writer → Prop}
    (hrefl : ∀ w, does w w) (htrans : ∀ {u v w}, does u v → does v w → does u w)
    (hpre : ∀ {w w'}, pre w → does w w' → pre w') {trees : List Markdown.Tree}
    (htrees : ∀ tree ∈ trees, ∀ w, pre w → Yields style w tree.events (does w)) (hw : pre w) :
    Yields style w (Markdown.Tree.eventsOfList trees) (does w) := by
  let always : List Unit → Writer → Writer → Prop := fun _ => does
  exact @yields_each style w Unit (fun _ => []) pre always hrefl htrans hpre trees htrees hw

/-! ### Texts -/

/-- An empty text changes nothing. -/
theorem text_nil : w.text [] = w := by
  obtain ⟨output, footnotes, outer, title, toc, slugs, heading, code, imageStart, image, table⟩ := w
  cases code <;> cases heading <;> simp [text, push, pushHeadingText, Markup.escapeHtml]

/-- A text after a text is the text of both. -/
theorem text_text (s t : Text) : (w.text s).text t = w.text (s ++ t) := by
  obtain ⟨output, footnotes, outer, title, toc, slugs, heading, code, imageStart, image, table⟩ := w
  cases code <;> cases heading <;> simp [text, push, pushHeadingText, Markup.escapeHtml]

/-- **Texts** that follow each other are written as one. -/
theorem yields_texts (texts : List Text) :
    Yields style w (Markdown.Tree.eventsOfList (texts.map Markdown.Tree.text))
      (· = w.text texts.flatten) := by
  induction texts generalizing w with
  | nil => exact yields_nil text_nil.symm
  | cons s texts ih =>
    have hfirst : Yields style w [.text s] (· = w.text s) := yields_singleton rfl rfl
    refine hfirst.append ?_
    rintro _ rfl
    exact ih.imp fun w' h => by rw [h, text_text, List.flatten_cons]

end Writer

end Lectern.Page
