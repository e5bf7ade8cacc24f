import Lectern.Proofs.Page.Body
import Mathlib.Data.List.Nodup
import Mathlib.Data.List.Perm.Basic

/-!
# Where Things Go

What a stream leaves on its page does not stay where it is written. The start of a footnote
definition puts the output away and its end brings it back; what was written in between is kept as a
note, and the footnote section shows the notes that are referred to. `Course` follows the stream and
keeps book of that: of what is in the output, in the output that waits, in the notes, and of what is
gone because a definition has begun in another one. What the things are is left open.

## Main results

* `course_append`, `Course.run_of_not_isNoteEdge`: the course of longer streams.
* `Course.perm_things`: no thing is forgotten.
* `Course.perm_shown_hidden`, `Course.shown_perm_iff`: each thing is shown or hidden.
-/

namespace Lectern.Page

open Markdown

variable {α : Type}

/-! ### The course of a stream -/

/-- **Where the things are** that a stream has left. -/
structure Course (α : Type) where
  /-- The things in the output. -/
  here : List α := []
  /-- The label of the open definition, and the things in the output that waits for its end. -/
  waiting : Option (Text × List α) := none
  /-- The things in each note, with its label; the latest note comes first. -/
  notes : List (Text × List α) := []
  /-- The things that are in no output any more. -/
  lost : List α := []
deriving DecidableEq, Repr

/-- The course after one event, with the things that the event leaves. -/
def Course.step (c : Course α) (left : List α) : Event → Course α
  | .start (.footnote label) =>
    { c with
      here := []
      waiting := some (label, c.here)
      lost := c.lost ++ (c.waiting.map (·.2)).getD [] }
  | .finish .footnote =>
    match c.waiting with
    | some (label, outer) =>
      { c with here := outer, waiting := none, notes := (label, c.here) :: c.notes }
    | none => c
  | _ => { c with here := c.here ++ left }

/-- The course after `events` behind others. -/
def Course.run (leaves : List Event → Event → List α) (before : List Event) (c : Course α) :
    List Event → Course α
  | [] => c
  | event :: events =>
    Course.run leaves (before ++ [event]) (c.step (leaves before event) event) events

/-- The **course of a stream**, from what each event leaves behind the events before it. -/
def course (leaves : List Event → Event → List α) (events : List Event) : Course α :=
  Course.run leaves [] {} events

/-- All the things that `events` behind others leave, in order. -/
def leftBehind (leaves : List Event → Event → List α) (before : List Event) :
    List Event → List α
  | [] => []
  | event :: events => leaves before event ++ leftBehind leaves (before ++ [event]) events

section Course

variable {leaves : List Event → Event → List α} {before events more : List Event}

/-- The course of a stream after a stream. -/
theorem Course.run_append (c : Course α) (events more : List Event) :
    Course.run leaves before c (events ++ more) =
      Course.run leaves (before ++ events) (Course.run leaves before c events) more := by
  induction events generalizing before c with
  | nil => simp [Course.run]
  | cons event events ih => simp [Course.run, ih]

/-- The course of a longer stream. -/
theorem course_append (events more : List Event) :
    course leaves (events ++ more) = Course.run leaves events (course leaves events) more := by
  rw [course, Course.run_append]
  rfl

/-- The things of a stream after a stream. -/
theorem leftBehind_append (before events more : List Event) :
    leftBehind leaves before (events ++ more) =
      leftBehind leaves before events ++ leftBehind leaves (before ++ events) more := by
  induction events generalizing before with
  | nil => simp [leftBehind]
  | cons event events ih => simp [leftBehind, ih]

/-- Events that leave nothing leave nothing together. -/
theorem leftBehind_eq_nil (h : ∀ event ∈ events, ∀ before, leaves before event = []) :
    leftBehind leaves before events = [] := by
  induction events generalizing before with
  | nil => rfl
  | cons event events ih =>
    obtain ⟨hevent, hrest⟩ := List.forall_mem_cons.1 h
    rw [leftBehind, hevent, ih hrest]
    rfl

/-- **Between the edges of definitions**, things stay in the output. -/
theorem Course.run_of_not_isNoteEdge (c : Course α)
    (h : ∀ event ∈ events, event.isNoteEdge = false) :
    Course.run leaves before c events =
      { c with here := c.here ++ leftBehind leaves before events } := by
  induction events generalizing before c with
  | nil => simp [Course.run, leftBehind]
  | cons event events ih =>
    obtain ⟨hevent, hrest⟩ := List.forall_mem_cons.1 h
    have hstep : c.step (leaves before event) event =
        { c with here := c.here ++ leaves before event } := by
      unfold Course.step
      split <;> first | rfl | cases hevent
    rw [Course.run, hstep, ih _ hrest, leftBehind]
    simp

end Course

/-! ### What is shown -/

namespace Course

/-- All the things that a course keeps book of. -/
def things (c : Course α) : List α :=
  c.here ++ (c.waiting.map (·.2)).getD [] ++ c.notes.flatMap (·.2) ++ c.lost

/-- The things that are **shown** with the notes of the given labels: those in the output, and for
each label those of the latest note. -/
def shown (labels : List Text) (c : Course α) : List α :=
  c.here ++ labels.flatMap fun label => (c.notes.lookup label).getD []

/-- The things of the notes that are not shown: no label leads to them, or a later note has taken
their place. -/
def hiddenNotes (labels : List Text) : List (Text × List α) → List α
  | [] => []
  | (label, things) :: older =>
    (if labels.contains label then [] else things) ++ hiddenNotes (labels.filter (· != label)) older

/-- The things that are **hidden**: gone, behind a definition that has not ended, or in a note that
is not shown. -/
def hidden (labels : List Text) (c : Course α) : List α :=
  c.lost ++ (c.waiting.map (·.2)).getD [] ++ hiddenNotes labels c.notes

variable {leaves : List Event → Event → List α} {events : List Event}

/-- **One event** adds what it leaves. -/
theorem perm_things_step (c : Course α) {left : List α} {event : Event}
    (h : event.isNoteEdge = true → left = []) :
    (c.step left event).things.Perm (c.things ++ left) := by
  classical
  refine List.perm_iff_count.2 fun thing => ?_
  unfold Course.step
  split
  · simp [h rfl, things]
    omega
  · rw [h rfl]
    split
    next hwaiting =>
      simp [things, hwaiting]
      omega
    next => simp
  · simp [things]
    omega

/-- What events leave behind others is added. -/
theorem perm_things_run (h : ∀ before event, event.isNoteEdge = true → leaves before event = [])
    (before : List Event) (c : Course α) :
    (Course.run leaves before c events).things.Perm
      (c.things ++ leftBehind leaves before events) := by
  induction events generalizing before c with
  | nil => simp [Course.run, leftBehind]
  | cons event events ih =>
    have hstep := c.perm_things_step (h before event)
    refine (ih _ _).trans ((hstep.append_right _).trans ?_)
    simp [leftBehind]

/-- **No thing is forgotten**: the course of a stream has what the events leave. -/
theorem perm_things (h : ∀ before event, event.isNoteEdge = true → leaves before event = []) :
    (course leaves events).things.Perm (leftBehind leaves [] events) :=
  perm_things_run h [] {}

/-- **Each note is shown or hidden**. -/
theorem perm_notes {labels : List Text} (hlabels : labels.Nodup) (notes : List (Text × List α)) :
    (notes.flatMap (·.2)).Perm ((labels.flatMap fun label => (notes.lookup label).getD []) ++
      hiddenNotes labels notes) := by
  induction notes generalizing labels with
  | nil => simp [hiddenNotes]
  | cons note older ih =>
    obtain ⟨label, things⟩ := note
    have holder := ih (hlabels.filter (· != label))
    -- the other labels look past the first note
    have hpast : ((labels.filter (· != label)).flatMap fun other =>
        (((label, things) :: older).lookup other).getD []) =
          (labels.filter (· != label)).flatMap fun other => (older.lookup other).getD [] := by
      refine List.flatMap_congr fun other hother => ?_
      have hne : (other == label) = false := by simpa using (List.mem_filter.1 hother).2
      rw [List.lookup_cons, hne]
    rw [hiddenNotes, List.flatMap_cons]
    by_cases hmem : label ∈ labels
    · have hfirst : (labels.flatMap fun other =>
          (((label, things) :: older).lookup other).getD []).Perm
            (things ++ (labels.filter (· != label)).flatMap fun other =>
              (older.lookup other).getD []) := by
        have hperm := (List.perm_cons_erase hmem).flatMap_right fun other =>
          (((label, things) :: older).lookup other).getD []
        rw [hlabels.erase_eq_filter, List.flatMap_cons] at hperm
        rw [hpast] at hperm
        simpa using hperm
      rw [if_pos (List.contains_iff_mem.2 hmem), List.nil_append]
      refine (holder.append_left things).trans ?_
      rw [← List.append_assoc]
      exact (hfirst.symm).append_right _
    · have hall : labels.filter (· != label) = labels :=
        List.filter_eq_self.2 fun other hother => bne_iff_ne.2 fun heq => hmem (heq ▸ hother)
      rw [hall] at hpast holder ⊢
      rw [if_neg (mt List.contains_iff_mem.1 hmem), hpast]
      refine (holder.append_left things).trans ?_
      rw [← List.append_assoc, ← List.append_assoc]
      exact List.perm_append_comm.append_right _

/-- **Each thing is shown or hidden**, and no thing is both. -/
theorem perm_shown_hidden (h : ∀ before event, event.isNoteEdge = true → leaves before event = [])
    {labels : List Text} (hlabels : labels.Nodup) :
    (leftBehind leaves [] events).Perm
      ((course leaves events).shown labels ++ (course leaves events).hidden labels) := by
  classical
  refine (perm_things h).symm.trans (List.perm_iff_count.2 fun thing => ?_)
  have hnotes := (perm_notes hlabels (course leaves events).notes).count_eq thing
  simp only [things, shown, hidden, List.count_append] at hnotes ⊢
  omega

/-- **All things are shown** exactly if none is hidden. -/
theorem shown_perm_iff (h : ∀ before event, event.isNoteEdge = true → leaves before event = [])
    {labels : List Text} (hlabels : labels.Nodup) :
    ((course leaves events).shown labels).Perm (leftBehind leaves [] events) ↔
      (course leaves events).hidden labels = [] := by
  have hall := @perm_shown_hidden _ leaves events h labels hlabels
  constructor
  · intro hperm
    have hlength := (hperm.trans hall).length_eq
    rw [List.length_append] at hlength
    exact List.length_eq_zero_iff.1 (by omega)
  · intro hnone
    rw [hnone, List.append_nil] at hall
    exact hall.symm

end Course

end Lectern.Page
