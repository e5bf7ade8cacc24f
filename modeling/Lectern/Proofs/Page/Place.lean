import Lectern.Proofs.Markdown.Note
import Lectern.Proofs.Page.Flow

/-!
# Places in the Output

The writer remembers where the content of an open heading and of an open image starts, and cuts
the output there when the element ends. Events may come in any order, so a place can be lost
before it is needed: a footnote definition takes the output away that it lies in, or the end of
the other element rewrites what stands there.

`Places` follows a stream and keeps book of that, from the kinds of its events alone. Where it
finds every place, the writer does so too, whatever the texts are.

## Main results

* `Tracks.step`: one event, with the places it may take away.
* `renderEvents_of_keepsPlaces`: a stream that keeps its places is written.
* `renderEvents_lostPlace`: a stream that does not keep them may stop the writer.
* `keepsPlaces_of_notesApart`: a well-nested stream keeps its places, unless a footnote definition
  stands in another.
-/

namespace Lectern.Page

open Markdown

/-- The elements whose start is **remembered** as a place in the output. -/
inductive Remembered where
  | heading
  | image
deriving DecidableEq, Repr

/-- What a stream does to the **places** of its open elements. -/
structure Places where
  /-- The elements whose places lie in the output, the latest first. -/
  near : List Remembered := []
  /-- Those of the output that waits for the end of a footnote definition, if there is one. -/
  waiting : Option (List Remembered) := none
  /-- Those whose places are gone. -/
  lost : List Remembered := []
deriving DecidableEq, Repr

namespace Places

variable {p p' : Places} {k : Remembered}

/-- Whether an element is in one of the lists. -/
def Knows (p : Places) (k : Remembered) : Prop :=
  k ∈ p.near ∨ k ∈ p.waiting.getD [] ∨ k ∈ p.lost

/-- The places without that of an element. -/
def forget (p : Places) (k : Remembered) : Places where
  near := p.near.filter (· ≠ k)
  waiting := p.waiting.map (·.filter (· ≠ k))
  lost := p.lost.filter (· ≠ k)

/-- The places after the start of an element; only the latest of its kind is remembered. -/
def opened (p : Places) (k : Remembered) : Places :=
  { p.forget k with near := k :: (p.forget k).near }

/-- The places after the end of an element. What was opened within the element and is still open
has its place in the part of the output that is rewritten. -/
def closed (p : Places) (k : Remembered) : Option Places :=
  if k ∈ p.waiting.getD [] ∨ k ∈ p.lost then none
  else if k ∈ p.near then
    some { p with
      near := (p.near.dropWhile (· ≠ k)).tail
      lost := p.near.takeWhile (· ≠ k) ++ p.lost }
  else some p

/-- The places after the start of a footnote definition. -/
def suspended (p : Places) : Places :=
  { near := [], waiting := some p.near, lost := p.waiting.getD [] ++ p.lost }

/-- The places after the end of a footnote definition. -/
def resumed (p : Places) : Places :=
  match p.waiting with
  | some places => { near := places, waiting := none, lost := p.near ++ p.lost }
  | none => p

/-- The places after **one event**; there are none if the event needs a place that is not in the
output. -/
def step (p : Places) : Event → Option Places
  | .start (.heading _) => some (p.opened .heading)
  | .start (.image _ _) => some (p.opened .image)
  | .start (.footnote _) => some p.suspended
  | .finish (.heading _) => p.closed .heading
  | .finish .image => p.closed .image
  | .finish .footnote => some p.resumed
  | _ => some p

/-- The places after a stream of events. -/
def run (p : Places) (events : List Event) : Option Places := events.foldlM step p

end Places

/-- Whether a stream **keeps its places**: each heading and each image that ends finds the place
of its start in the output. -/
def KeepsPlaces (events : List Event) : Prop := (Places.run {} events).isSome

instance (events : List Event) : Decidable (KeepsPlaces events) :=
  inferInstanceAs (Decidable (_ = true))

/-! ### Places of a writer -/

namespace Writer

/-- The place that the writer remembers for an element. -/
def place? (w : Writer) : Remembered → Option Nat
  | .heading => w.heading.map (·.start)
  | .image => w.imageStart

variable {style : PageStyle} {w : Writer} {written rest : Text}

/-- The end of a heading whose place, if there is one, is known. -/
theorem exists_finishHeading (style : PageStyle) (houtput : w.output = written ++ rest)
    (hplace : ∀ n, w.place? .heading = some n → n = Text.byteLength written) :
    ∃ s slugs title toc, w.finishHeading style = .ok
      { w with output := written ++ s, heading := none, slugs, title, toc } := by
  cases hheading : w.heading with
  | none =>
    refine ⟨rest, w.slugs, w.title, w.toc, ?_⟩
    simp only [finishHeading, hheading, ← houtput]
    rw [← hheading]
  | some heading =>
    have hstart := hplace heading.start (by simp [place?, hheading])
    obtain ⟨title, toc, hfinish⟩ := finishHeading_eq style hheading hstart houtput
    exact ⟨_, _, title, toc, hfinish⟩

/-- The end of an image whose place, if there is one, is known. -/
theorem exists_finishImage (houtput : w.output = written ++ rest)
    (hplace : ∀ n, w.place? .image = some n → n = Text.byteLength written) :
    ∃ s, w.finishImage = .ok
      { w with output := written ++ s, imageStart := none, image := none } := by
  cases himage : w.imageStart with
  | none =>
    have hpush : ∀ s, w.output ++ s = written ++ (rest ++ s) := by simp [houtput]
    exact ⟨_, by rw [finishImage, himage, ← hpush]; rfl⟩
  | some place =>
    have hcut : w.cutAt place = .ok (written, rest) := by
      rw [cutAt, houtput, hplace place himage, Text.cutAtByte?_append]
    exact ⟨_, by rw [finishImage, himage]; simp only [hcut]; rfl⟩

end Writer

/-- Whether the places of elements **lie** in a text, each in what was written before the one of
the element opened next. -/
def Lie (place? : Remembered → Option Nat) : List Remembered → Text → Prop
  | [], _ => True
  | k :: earlier, s => ∃ written rest, s = written ++ rest ∧
      (∀ n, place? k = some n → n = Text.byteLength written) ∧ Lie place? earlier written

section Lie

variable {place? place?' : Remembered → Option Nat} {ks : List Remembered} {s t : Text}

/-- Places stay where they are when more is written. -/
theorem Lie.append (h : Lie place? ks s) (t : Text) : Lie place? ks (s ++ t) := by
  cases ks with
  | nil => trivial
  | cons k earlier =>
    obtain ⟨written, rest, rfl, hplace, hearlier⟩ := h
    exact ⟨written, rest ++ t, by simp, hplace, hearlier⟩

/-- Only the places of the elements in question matter, as far as they are remembered. -/
theorem Lie.imp (h : Lie place? ks s)
    (hplace : ∀ k ∈ ks, ∀ n, place?' k = some n → place? k = some n) : Lie place?' ks s := by
  induction ks generalizing s with
  | nil => trivial
  | cons k earlier ih =>
    obtain ⟨hk, hearlier⟩ := List.forall_mem_cons.1 hplace
    obtain ⟨written, rest, hs, hlength, hlie⟩ := h
    exact ⟨written, rest, hs, fun n hn => hlength n (hk n hn), ih hlie hearlier⟩

/-- Places stay where they are when that of one element is forgotten. -/
theorem Lie.forget {k : Remembered} (h : Lie place? ks s) (hk : place?' k = none)
    (hothers : ∀ j, j ≠ k → place?' j = place? j) : Lie place?' ks s := by
  refine h.imp fun j _ n hn => ?_
  by_cases hjk : j = k
  · rw [hjk, hk] at hn
    cases hn
  · rwa [hothers j hjk] at hn

/-- Fewer elements have their places in the same text. -/
theorem Lie.sublist {fewer : List Remembered} (h : Lie place? ks s) (hsub : fewer.Sublist ks) :
    Lie place? fewer s := by
  induction hsub generalizing s with
  | slnil => trivial
  | cons k _ ih =>
    obtain ⟨written, rest, rfl, -, hlie⟩ := h
    exact (ih hlie).append rest
  | cons_cons k _ ih =>
    obtain ⟨written, rest, hs, hlength, hlie⟩ := h
    exact ⟨written, rest, hs, hlength, ih hlie⟩

/-- The elements opened after one of them, and those opened before it. -/
theorem takeWhile_append_cons {k : Remembered} (hk : k ∈ ks) :
    ks.takeWhile (· ≠ k) ++ k :: (ks.dropWhile (· ≠ k)).tail = ks := by
  induction ks with
  | nil => simp at hk
  | cons first ks ih =>
    by_cases hfirst : first = k
    · simp [hfirst]
    · have hrest : k ∈ ks := by simpa [Ne.symm hfirst] using hk
      simpa [hfirst] using ih hrest

/-- The place of an element, with those of the elements opened before it. -/
theorem Lie.cut {k : Remembered} (h : Lie place? ks s) (hk : k ∈ ks) : ∃ written rest,
    s = written ++ rest ∧ (∀ n, place? k = some n → n = Text.byteLength written) ∧
      Lie place? (ks.dropWhile (· ≠ k)).tail written := by
  rw [← takeWhile_append_cons hk] at h
  exact h.sublist (List.sublist_append_right _ _)

end Lie

/-- Whether `p` **tracks** the writer: the places that it takes to lie in an output do so, and it
knows of every place that the writer remembers. -/
structure Tracks (p : Places) (w : Writer) : Prop where
  near : Lie w.place? p.near w.output
  waits : p.waiting.isSome = w.outer.isSome
  waiting : ∀ places label outer, p.waiting = some places → w.outer = some (label, outer) →
    Lie w.place? places outer
  known : ∀ k, w.place? k ≠ none → p.Knows k

namespace Tracks

variable {style : PageStyle} {p p' : Places} {w w' : Writer} {k : Remembered}

/-- A writer that has only written more is tracked by the same places. -/
theorem extend (h : Tracks p w) {s : Text} (houtput : w'.output = w.output ++ s)
    (houter : w'.outer = w.outer) (hplace : w'.place? = w.place?) : Tracks p w' := by
  refine ⟨?_, ?_, ?_, ?_⟩
  · rw [houtput, hplace]
    exact h.near.append s
  · rw [houter]
    exact h.waits
  · rw [houter, hplace]
    exact h.waiting
  · rw [hplace]
    exact h.known

/-- **An element that starts** has its place at the end of the output. -/
theorem opened (h : Tracks p w) (houtput : w'.output = w.output) (houter : w'.outer = w.outer)
    (hk : w'.place? k = some (Text.byteLength w.output))
    (hothers : ∀ j, j ≠ k → w'.place? j = w.place? j) : Tracks (p.opened k) w' := by
  have hfilter : ∀ {places s}, Lie w.place? places s → Lie w'.place? (places.filter (· ≠ k)) s := by
    intro places s hlie
    refine (hlie.sublist List.filter_sublist).imp fun j hj n hn => ?_
    have hjk : j ≠ k := by simpa using (List.mem_filter.1 hj).2
    rwa [hothers j hjk] at hn
  refine ⟨⟨w.output, [], by simp [houtput], fun n hn => ?_, hfilter h.near⟩, ?_, ?_, ?_⟩
  · rw [hk] at hn
    exact (Option.some.inj hn).symm
  · simpa [Places.opened, Places.forget, houter] using h.waits
  · intro places label outer hplaces hwaits
    obtain ⟨places', hplaces', rfl⟩ := Option.map_eq_some_iff.1 hplaces
    rw [houter] at hwaits
    exact hfilter (h.waiting places' label outer hplaces' hwaits)
  · intro j hj
    by_cases hjk : j = k
    · exact .inl (by simp [Places.opened, hjk])
    · rw [hothers j hjk] at hj
      have hknows := h.known j hj
      unfold Places.Knows Places.opened Places.forget at *
      cases hp : p.waiting <;> simp_all

/-- When an element that has its place in the output ends, the places before it are those that still
lie there. -/
theorem cut (h : Tracks p w) (hnear : k ∈ p.near) {written s : Text}
    (hlie : Lie w.place? (p.near.dropWhile (· ≠ k)).tail written)
    (houtput : w'.output = written ++ s) (houter : w'.outer = w.outer) (hk : w'.place? k = none)
    (hothers : ∀ j, j ≠ k → w'.place? j = w.place? j) :
    Tracks { p with near := (p.near.dropWhile (· ≠ k)).tail,
                    lost := p.near.takeWhile (· ≠ k) ++ p.lost } w' := by
  refine ⟨?_, ?_, ?_, fun j hj => ?_⟩
  · rw [houtput]
    exact (hlie.forget hk hothers).append s
  · rw [houter]
    exact h.waits
  · rw [houter]
    exact fun places label outer hplaces hwaits =>
      (h.waiting places label outer hplaces hwaits).forget hk hothers
  · have hjk : j ≠ k := fun hjk => hj (hjk ▸ hk)
    rw [hothers j hjk] at hj
    rcases h.known j hj with hknown | hknown | hknown
    · rw [← takeWhile_append_cons hnear] at hknown
      rcases List.mem_append.1 hknown with hlater | hearlier
      · exact .inr (.inr (List.mem_append_left _ hlater))
      · exact .inl ((List.mem_cons.1 hearlier).resolve_left hjk)
    · exact .inr (.inl hknown)
    · exact .inr (.inr (List.mem_append_right _ hknown))

/-- **An element that ends** finds its place in the output if it has one, and what was opened
before it keeps its own. -/
theorem closed (h : Tracks p w) (hp : p.closed k = some p') : ∃ written rest,
    w.output = written ++ rest ∧ (∀ n, w.place? k = some n → n = Text.byteLength written) ∧
      ∀ w' s, w'.output = written ++ s → w'.outer = w.outer → w'.place? k = none →
        (∀ j, j ≠ k → w'.place? j = w.place? j) → Tracks p' w' := by
  unfold Places.closed at hp
  split at hp
  · cases hp
  next hgone =>
  obtain ⟨hwaiting, hlost⟩ := not_or.1 hgone
  split at hp
  next hnear =>
    obtain rfl := Option.some.inj hp
    obtain ⟨written, rest, houtput, hlength, hlie⟩ := h.near.cut hnear
    exact ⟨written, rest, houtput, hlength, fun w' s => h.cut hnear hlie⟩
  next hnear =>
    obtain rfl := Option.some.inj hp
    have hnone : w.place? k = none := by
      refine Classical.byContradiction fun hk => ?_
      rcases h.known k hk with hk | hk | hk
      · exact hnear hk
      · exact hwaiting hk
      · exact hlost hk
    refine ⟨w.output, [], by simp, fun n hn => by simp [hnone] at hn,
      fun w' s hs houter hk hothers => h.extend hs houter (funext fun j => ?_)⟩
    by_cases hjk : j = k
    · rw [hjk, hk, hnone]
    · exact hothers j hjk

/-- **A footnote definition that starts** takes the output away with all its places. -/
theorem suspended (h : Tracks p w) (label : Text) :
    Tracks p.suspended { w with output := [], outer := some (label, w.output) } where
  near := trivial
  waits := rfl
  waiting := by
    rintro places _ outer hplaces hwaits
    obtain ⟨-, rfl⟩ := Prod.mk.inj (Option.some.inj hwaits)
    obtain rfl := Option.some.inj hplaces
    exact h.near
  known k hk := by
    rcases h.known k hk with hk | hk | hk
    · exact .inr (.inl hk)
    · exact .inr (.inr (List.mem_append_left _ hk))
    · exact .inr (.inr (List.mem_append_right _ hk))

/-- **A footnote definition that ends** brings back the output that waited, with its places. -/
theorem resumed (h : Tracks p w) :
    ∃ w', w.finish style .footnote = .ok w' ∧ Tracks p.resumed w' := by
  have hwaits := h.waits
  cases houter : w.outer with
  | none =>
    rw [houter] at hwaits
    have hnone : p.waiting = none := by simpa using hwaits
    have hresumed : p.resumed = p := by rw [Places.resumed, hnone]
    refine ⟨w, by simp only [Writer.finish, houter], ?_⟩
    rwa [hresumed]
  | some outer =>
    obtain ⟨label, outer⟩ := outer
    rw [houter] at hwaits
    obtain ⟨places, hplaces⟩ := Option.isSome_iff_exists.1 hwaits
    refine ⟨_, by simp only [Writer.finish, houter]; rfl, ?_⟩
    rw [Places.resumed, hplaces]
    refine ⟨h.waiting places label outer hplaces houter, rfl, by simp, fun k hk => ?_⟩
    rcases h.known k hk with hk | hk | hk
    · exact .inr (.inr (List.mem_append_left _ hk))
    · rw [hplaces] at hk
      exact .inl hk
    · exact .inr (.inr (List.mem_append_right _ hk))

/-! ### Events -/

/-- The end of a heading whose place is known. -/
theorem closed_heading (h : Tracks p w) (hp : p.closed .heading = some p') :
    ∃ w', w.finishHeading style = .ok w' ∧ Tracks p' w' := by
  obtain ⟨written, rest, houtput, hplace, htracks⟩ := h.closed hp
  obtain ⟨s, slugs, title, toc, hfinish⟩ := Writer.exists_finishHeading style houtput hplace
  refine ⟨_, hfinish, htracks _ s rfl rfl rfl fun j hj => ?_⟩
  cases j with
  | heading => exact absurd rfl hj
  | image => rfl

/-- The end of an image whose place is known. -/
theorem closed_image (h : Tracks p w) (hp : p.closed .image = some p') :
    ∃ w', w.finishImage = .ok w' ∧ Tracks p' w' := by
  obtain ⟨written, rest, houtput, hplace, htracks⟩ := h.closed hp
  obtain ⟨s, hfinish⟩ := Writer.exists_finishImage houtput hplace
  refine ⟨_, hfinish, htracks _ s rfl rfl rfl fun j hj => ?_⟩
  cases j with
  | heading => rfl
  | image => exact absurd rfl hj

/-- Markup takes no place away. -/
theorem push (h : Tracks p w) (s : Text) : Tracks p (w.push s) :=
  h.extend rfl rfl (funext fun k => by cases k <;> rfl)

/-- Plain text of a heading takes no place away. -/
theorem pushHeadingText (h : Tracks p w) (s : Text) : Tracks p (w.pushHeadingText s) := by
  refine h.extend (s := []) (by simp [Writer.pushHeadingText]) rfl (funext fun k => ?_)
  cases k with
  | heading => cases hw : w.heading <;> simp [Writer.place?, Writer.pushHeadingText, hw]
  | image => rfl

/-- What is known of footnotes, of the table and of a code block takes no place away. -/
theorem aside (h : Tracks p w) (footnotes : FootnoteLedger) (table : TableState)
    (code : Option (Option Text × Text)) : Tracks p { w with footnotes, table, code } :=
  h.extend (s := []) (by simp) rfl (funext fun k => by cases k <;> rfl)

/-- **The start of an element.** -/
theorem start {tag : Tag} (h : Tracks p w) (hp : p.step (.start tag) = some p') :
    Tracks p' (w.start tag) := by
  cases tag with
  | heading level =>
    obtain rfl := Option.some.inj hp
    refine h.opened rfl rfl rfl fun j hj => ?_
    cases j with
    | heading => exact absurd rfl hj
    | image => rfl
  | image url title =>
    obtain rfl := Option.some.inj hp
    refine h.opened rfl rfl rfl fun j hj => ?_
    cases j with
    | heading => rfl
    | image => exact absurd rfl hj
  | footnote label =>
    obtain rfl := Option.some.inj hp
    exact h.suspended label
  | fencedCode | indentedCode =>
    obtain rfl := Option.some.inj hp
    exact h.aside _ _ _
  | htmlBlock | metadata =>
    obtain rfl := Option.some.inj hp
    exact h
  | list start =>
    obtain rfl := Option.some.inj hp
    rcases start with _ | _ | _ | n <;> exact h.push _
  | table | tableHead | tableRow =>
    obtain rfl := Option.some.inj hp
    exact (h.aside _ _ _).push _
  | _ =>
    obtain rfl := Option.some.inj hp
    exact h.push _

/-- **The end of an element.** -/
theorem finish {tag : TagEnd} (h : Tracks p w) (hp : p.step (.finish tag) = some p') :
    ∃ w', w.finish style tag = .ok w' ∧ Tracks p' w' := by
  cases tag with
  | heading level => exact h.closed_heading hp
  | image => exact h.closed_image hp
  | footnote =>
    obtain rfl := Option.some.inj hp
    exact h.resumed
  | codeBlock =>
    obtain rfl := Option.some.inj hp
    rcases hcode : w.code with _ | ⟨language, content⟩
    · exact ⟨w, by simp only [Writer.finish, hcode], h⟩
    · exact ⟨_, by simp only [Writer.finish, hcode]; rfl,
        (h.aside w.footnotes w.table none).push _⟩
  | htmlBlock | metadata =>
    obtain rfl := Option.some.inj hp
    exact ⟨w, rfl, h⟩
  | tableHead | tableCell =>
    obtain rfl := Option.some.inj hp
    exact ⟨_, rfl, (h.aside _ _ _).push _⟩
  | _ =>
    obtain rfl := Option.some.inj hp
    exact ⟨_, rfl, h.push _⟩

/-- **One event**: if it finds the place that it needs, the writer goes on, and its places are
tracked again. -/
theorem step (style : PageStyle) {event : Event} (h : Tracks p w) (hp : p.step event = some p') :
    ∃ w', Writer.step style w event = .ok w' ∧ Tracks p' w' := by
  cases event with
  | start tag => exact ⟨_, rfl, h.start hp⟩
  | finish tag => exact h.finish hp
  | text content =>
    obtain rfl := Option.some.inj hp
    refine ⟨_, rfl, ?_⟩
    unfold Writer.text
    split
    · exact h.aside _ _ _
    · exact (h.pushHeadingText content).push _
  | code content | inlineHtml content =>
    obtain rfl := Option.some.inj hp
    exact ⟨_, rfl, (h.pushHeadingText _).push _⟩
  | footnoteReference label =>
    obtain rfl := Option.some.inj hp
    exact ⟨_, rfl, (h.aside _ _ _).push _⟩
  | _ =>
    obtain rfl := Option.some.inj hp
    exact ⟨_, rfl, h.push _⟩

/-- A stream of events: the places are tracked to its end. -/
theorem run (style : PageStyle) {events : List Event} (h : Tracks p w)
    (hp : p.run events = some p') :
    ∃ w', Writer.run style w events = .ok w' ∧ Tracks p' w' := by
  induction events generalizing p w with
  | nil =>
    obtain rfl := Option.some.inj hp
    exact ⟨w, rfl, h⟩
  | cons event events ih =>
    rw [Places.run, List.foldlM_cons] at hp
    obtain ⟨q, hstep, hrest⟩ := Option.bind_eq_some_iff.1 hp
    obtain ⟨u, hu, htracks⟩ := h.step style hstep
    obtain ⟨w', hw', hend⟩ := ih htracks hrest
    refine ⟨w', ?_, hend⟩
    rw [Writer.run, List.foldlM_cons, hu]
    exact hw'

end Tracks

/-- **A stream that keeps its places is written**, whether or not it is well nested. -/
theorem renderEvents_of_keepsPlaces {style : PageStyle} {events : List Event}
    (h : KeepsPlaces events) : ∃ page, renderEvents style events = .ok page := by
  obtain ⟨p, hp⟩ := Option.isSome_iff_exists.1 h
  have hstart : Tracks {} {} := by
    refine ⟨trivial, rfl, by simp, fun k hk => absurd ?_ hk⟩
    cases k <;> rfl
  obtain ⟨w, hrun, -⟩ := hstart.run style hp
  exact ⟨w.page style, by rw [renderEvents, hrun]; rfl⟩

/-- The heading that ends is the second one: the first one is gone with the footnote definition
that it stands in, whose end comes too early. -/
theorem renderEvents_of_keepsPlaces_reopened :
    KeepsPlaces [.start (.footnote ['a']), .start (.heading 1), .finish .footnote,
      .start (.heading 2), .finish (.heading 1), .finish (.heading 2), .finish .image] ∧
    ∃ page, renderEvents {} [.start (.footnote ['a']), .start (.heading 1), .finish .footnote,
      .start (.heading 2), .finish (.heading 1), .finish (.heading 2), .finish .image] = .ok page :=
  ⟨by decide, renderEvents_of_keepsPlaces (by decide)⟩

/-- A heading that ends while a footnote definition is open, which took away the text that the
heading began behind: its place is lost. -/
theorem renderEvents_lostPlace :
    renderEvents {} [.text "abc".toList, .start (.heading 1), .start (.footnote ['a']),
      .finish (.heading 1)] = .error .lostPlace := by
  rfl

/-! ### Well-nested streams -/

namespace Places

variable {p q p' : Places} {k : Remembered} {inNote : Bool}

/-- Whether no place is lost, and none but the places of the output waits unless the stream is
within a footnote definition. -/
structure IsOrdered (inNote : Bool) (p : Places) : Prop where
  lost : p.lost = []
  waiting : inNote = false → p.waiting = none

/-- Whether `p'` has places of `p` and no others, each in the output where it was. -/
structure Within (p p' : Places) : Prop where
  near : p'.near.Sublist p.near
  waits : p'.waiting.isSome = p.waiting.isSome
  waiting : (p'.waiting.getD []).Sublist (p.waiting.getD [])
  lost : p'.lost = []

/-- Places stay ordered when some of them are given up. -/
theorem IsOrdered.of_within (h : IsOrdered inNote p) (hwithin : Within p p') :
    IsOrdered inNote p' where
  lost := hwithin.lost
  waiting hnote := by
    have hnone := hwithin.waits
    rw [h.waiting hnote] at hnone
    simpa using hnone

/-- All of the places. -/
theorem Within.refl (hp : IsOrdered inNote p) : Within p p :=
  ⟨.refl _, rfl, .refl _, hp.lost⟩

/-- Some of some places. -/
theorem Within.trans (hpq : Within p q) (hqp : Within q p') : Within p p' where
  near := hqp.near.trans hpq.near
  waits := hqp.waits.trans hpq.waits
  waiting := hqp.waiting.trans hpq.waiting
  lost := hqp.lost

/-- A stream after a stream. -/
theorem run_append (p : Places) (first second : List Event) :
    p.run (first ++ second) = (p.run first).bind (·.run second) :=
  List.foldlM_append

/-- Places stay ordered when an element is opened. -/
theorem IsOrdered.opened (hp : IsOrdered inNote p) (k : Remembered) :
    IsOrdered inNote (p.opened k) where
  lost := by simp [Places.opened, forget, hp.lost]
  waiting hnote := by simp [Places.opened, forget, hp.waiting hnote]

/-- Parts that each give up places do so together. -/
theorem within_list {trees : List Markdown.Tree}
    (htrees : ∀ tree ∈ trees, ∀ p, IsOrdered inNote p →
      ∃ p', p.run tree.events = some p' ∧ Within p p') (hp : IsOrdered inNote p) :
    ∃ p', p.run (Markdown.Tree.eventsOfList trees) = some p' ∧ Within p p' := by
  induction trees generalizing p with
  | nil => exact ⟨p, rfl, .refl hp⟩
  | cons tree trees ih =>
    obtain ⟨htree, hrest⟩ := List.forall_mem_cons.1 htrees
    obtain ⟨q, hrun, hwithin⟩ := htree p hp
    obtain ⟨p', hrun', hwithin'⟩ := ih hrest (hp.of_within hwithin)
    refine ⟨p', ?_, hwithin.trans hwithin'⟩
    rw [Markdown.Tree.eventsOfList, run_append, hrun]
    exact hrun'

/-- Without the place of an element there are no more places than before. -/
theorem within_forget (hp : IsOrdered inNote p) (k : Remembered) : Within p (p.forget k) where
  near := List.filter_sublist
  waits := by simp [forget]
  waiting := by
    cases hplaces : p.waiting with
    | none => simp [forget, hplaces]
    | some places => simp [forget, hplaces]
  lost := by simp [forget, hp.lost]

/-- An element closes the place that it has opened, or finds that an element of its kind within it
has closed it already. -/
theorem within_closed (hp : IsOrdered inNote p) (hq : Within (p.opened k) q) :
    ∃ p', q.closed k = some p' ∧ Within p p' := by
  have hforget := within_forget hp k
  have hgone : ¬ (k ∈ q.waiting.getD [] ∨ k ∈ q.lost) := by
    rintro (hk | hk)
    · have hopened : k ∈ (p.forget k).waiting.getD [] := hq.waiting.subset hk
      cases hplaces : p.waiting <;> simp [forget, hplaces] at hopened
    · simp [hq.lost] at hk
  have hwaits : q.waiting.isSome = p.waiting.isSome := hq.waits.trans hforget.waits
  have hwaiting : (q.waiting.getD []).Sublist (p.waiting.getD []) :=
    hq.waiting.trans hforget.waiting
  -- the element was opened last: its place is the latest one, or it is not there any more
  rcases List.sublist_cons_iff.1 hq.near with hsub | ⟨rest, hsplit, hsub⟩
  · have hnear : k ∉ q.near := fun hk => by simpa [forget] using hsub.subset hk
    exact ⟨q, by rw [closed, if_neg hgone, if_neg hnear],
      hsub.trans hforget.near, hwaits, hwaiting, hq.lost⟩
  · have hnear : k ∈ q.near := by simp [hsplit]
    rw [closed, if_neg hgone, if_pos hnear]
    refine ⟨_, rfl, ?_, hwaits, hwaiting, ?_⟩
    · simpa [hsplit] using hsub.trans hforget.near
    · simp [hsplit, hq.lost]

/-- The end of a tree after its start and its children. -/
theorem run_node (p : Places) (tag : Tag) (children : List Markdown.Tree) :
    p.run (Markdown.Tree.node tag children).events = ((p.step (.start tag)).bind
      (·.run (Markdown.Tree.eventsOfList children))).bind (·.step (.finish tag.toEnd)) := by
  rw [Markdown.Tree.events, run, List.foldlM_cons, Option.bind_assoc]
  refine congrArg _ (funext fun q => ?_)
  rw [List.foldlM_append]
  refine congrArg _ (funext fun q' => ?_)
  simp

/-- **A part of a document** gives up no places but its own. -/
theorem within_tree {tree : Markdown.Tree} (h : NotesApart inNote tree)
    (hp : IsOrdered inNote p) : ∃ p', p.run tree.events = some p' ∧ Within p p' := by
  induction h generalizing p with
  | @leaf inNote event hedge =>
    refine ⟨p, ?_, .refl hp⟩
    cases event with
    | start tag | finish tag => cases hedge
    | _ => rfl
  | @note label children _ ih =>
    have hnone := hp.waiting rfl
    have hsuspended : IsOrdered true p.suspended :=
      ⟨by simp [suspended, hnone, hp.lost], fun h => Bool.noConfusion h⟩
    obtain ⟨q, hrun, hwithin⟩ := within_list (fun child hchild _ => ih child hchild) hsuspended
    obtain ⟨places, hplaces⟩ := Option.isSome_iff_exists.1 hwithin.waits
    have hnear : q.near = [] := List.sublist_nil.1 hwithin.near
    refine ⟨q.resumed, ?_, ?_, ?_, ?_, ?_⟩
    · rw [run_node]
      exact congrArg (Option.bind · (step · (.finish .footnote))) hrun
    · simpa [resumed, hplaces, suspended] using hwithin.waiting
    · simp [resumed, hplaces, hnone]
    · simp [resumed, hplaces]
    · simp [resumed, hplaces, hnear, hwithin.lost]
  | @node inNote tag children htag _ ih =>
    have hchildren : ∀ p, IsOrdered inNote p →
        ∃ p', p.run (Markdown.Tree.eventsOfList children) = some p' ∧ Within p p' :=
      fun p hp => within_list (fun child hchild _ => ih child hchild) hp
    rw [run_node]
    cases tag with
    | footnote label => exact absurd rfl (htag label)
    | heading | image =>
      obtain ⟨q, hrun, hwithin⟩ := hchildren _ (hp.opened _)
      obtain ⟨p', hclosed, hwithin'⟩ := within_closed hp hwithin
      exact ⟨p', (congrArg (Option.bind · _) hrun).trans hclosed, hwithin'⟩
    | _ =>
      obtain ⟨q, hrun, hwithin⟩ := hchildren p hp
      exact ⟨q, congrArg (Option.bind · _) hrun, hwithin⟩

end Places

/-- **A well-nested stream keeps its places** unless a footnote definition stands in another. -/
theorem keepsPlaces_of_notesApart {trees : List Markdown.Tree}
    (h : ∀ tree ∈ trees, NotesApart false tree) :
    KeepsPlaces (Markdown.Tree.eventsOfList trees) := by
  have hstart : Places.IsOrdered false {} := ⟨rfl, fun _ => rfl⟩
  obtain ⟨p, hp, -⟩ := Places.within_list (fun tree htree _ => Places.within_tree (h tree htree))
    hstart
  exact Option.isSome_iff_exists.2 ⟨p, hp⟩

end Lectern.Page
