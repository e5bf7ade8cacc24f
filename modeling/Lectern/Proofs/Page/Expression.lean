import Mathlib.Data.List.TakeWhile
import Lectern.Page.Writer
import Lectern.Proofs.Text.Basic

/-!
# Expressions in Headings

The tag of a component adds the value of its property `exp` to the text of an open heading. The
value is looked for in the text of the tag: it stands behind a blank character, `exp` and an equals
sign, between double quotes. Three results say where the search ends in a text that is cut at its
double quotes.

## Main results

* `expressionProperty?_of_isLead`: a lead to the value, and the value behind it.
* `expressionProperty?_append_quote`: another lead, which is passed over with its quote.
* `expressionProperty?_of_one_quote`: with one quote there is no value.
* `run_inlineEvents`: what the tags of a markup add to a heading.
-/

namespace Lectern.Page.Writer

open Markdown Markup
open Unicode (isBlank)

variable {c : Char} {s t value : Text}

/-- Whether a text **leads to the value**: it ends with a blank character and the name of the
property. -/
def IsLead (s : Text) : Prop :=
  ∃ front blank, isBlank blank = true ∧ s = front ++ blank :: "exp=".toList

/-- A longer text leads to the value if its end does. -/
theorem IsLead.append (h : IsLead t) (s : Text) : IsLead (s ++ t) := by
  obtain ⟨front, blank, hblank, rfl⟩ := h
  exact ⟨s ++ front, blank, hblank, (List.append_assoc ..).symm⟩

/-! ### The search -/

/-- The text in front of a value, taken apart at its quote. -/
theorem name_append (value : Text) :
    "exp=\"".toList ++ value = "exp=".toList ++ '"' :: value := by
  simp

/-- The search at a character. -/
theorem expressionProperty?_cons (c : Char) (t : Text) :
    expressionProperty? (c :: t) =
      match (if isBlank c then Text.after? "exp=\"".toList t else none) with
      | some value =>
        match value.dropWhile (· != '"') with
        | _ :: _ => some (value.takeWhile (· != '"'))
        | [] => expressionProperty? t
      | none => expressionProperty? t := by
  cases t <;> rfl

/-- A character at which the property does not start is passed over. -/
theorem expressionProperty?_cons_of_not
    (h : isBlank c = true → ∀ value, t ≠ "exp=".toList ++ '"' :: value) :
    expressionProperty? (c :: t) = expressionProperty? t := by
  have hhere : (if isBlank c then Text.after? "exp=\"".toList t else none) = none := by
    split
    · next hblank =>
      refine Option.eq_none_iff_forall_ne_some.2 fun value hvalue => h hblank value ?_
      rw [Text.after?_eq_some_iff.1 hvalue, name_append]
    · rfl
  rw [expressionProperty?_cons, hhere]

/-- The search where the property starts. -/
theorem expressionProperty?_cons_of_isBlank (hblank : isBlank c = true) (value : Text) :
    expressionProperty? (c :: ("exp=".toList ++ '"' :: value)) =
      match value.dropWhile (· != '"') with
      | _ :: _ => some (value.takeWhile (· != '"'))
      | [] => expressionProperty? ("exp=".toList ++ '"' :: value) := by
  have hhere : Text.after? "exp=\"".toList ("exp=".toList ++ '"' :: value) = some value :=
    Text.after?_eq_some_iff.2 (name_append value).symm
  rw [expressionProperty?_cons, if_pos hblank, hhere]

/-- **A text that does not lead to the value** is passed over with the quote behind it. -/
theorem expressionProperty?_append_quote (hs : '"' ∉ s) (hlead : ¬ IsLead s) (t : Text) :
    expressionProperty? (s ++ '"' :: t) = expressionProperty? t := by
  induction s with
  | nil => exact expressionProperty?_cons_of_not fun hblank => absurd hblank (by decide)
  | cons c s ih =>
    have hs' := List.not_mem_of_not_mem_cons hs
    rw [List.cons_append, expressionProperty?_cons_of_not, ih hs' fun h => hlead (h.append [c])]
    intro hblank value heq
    have hend := (Text.append_cons_inj_of_not_mem hs' (by decide) heq).1
    exact hlead ⟨[], c, hblank, by rw [hend]; rfl⟩

/-- **A text that leads to the value**, with the value between quotes behind it. -/
theorem expressionProperty?_of_isLead (hs : '"' ∉ s) (hlead : IsLead s) (hvalue : '"' ∉ value)
    (t : Text) : expressionProperty? (s ++ '"' :: (value ++ '"' :: t)) = some value := by
  obtain ⟨front, blank, hblank, rfl⟩ := hlead
  induction front with
  | nil =>
    have hinside : ∀ c ∈ value, (c != '"') = true := fun c hc => by
      simpa using fun heq : c = '"' => hvalue (heq ▸ hc)
    have htake : (value ++ '"' :: t).takeWhile (· != '"') = value :=
      Text.takeWhile_append_of_head hinside (by simp)
    have hdrop : (value ++ '"' :: t).dropWhile (· != '"') = '"' :: t := by
      rw [List.dropWhile_append_of_pos hinside]
      rfl
    have hhere := expressionProperty?_cons_of_isBlank hblank (value ++ '"' :: t)
    rw [htake, hdrop] at hhere
    exact hhere
  | cons c front ih =>
    have hs' := List.not_mem_of_not_mem_cons hs
    rw [List.cons_append, List.cons_append, expressionProperty?_cons_of_not, ih hs']
    intro _ value heq
    -- the name of the property is at the end, so it is not here as well
    have hlength := congrArg List.length (Text.append_cons_inj_of_not_mem hs' (by decide) heq).1
    simp at hlength

/-- In a text without quotes there is no value. -/
theorem expressionProperty?_of_not_mem (hs : '"' ∉ s) : expressionProperty? s = none := by
  induction s with
  | nil => rfl
  | cons c s ih =>
    have hs' := List.not_mem_of_not_mem_cons hs
    rw [expressionProperty?_cons_of_not, ih hs']
    rintro - value rfl
    simp at hs'

/-- **With one quote there is no value.** -/
theorem expressionProperty?_of_one_quote (hs : '"' ∉ s) (ht : '"' ∉ t) :
    expressionProperty? (s ++ '"' :: t) = none := by
  induction s with
  | nil =>
    rw [List.nil_append, expressionProperty?_cons_of_not fun hblank => absurd hblank (by decide),
      expressionProperty?_of_not_mem ht]
  | cons c s ih =>
    have hs' := List.not_mem_of_not_mem_cons hs
    by_cases hhere : isBlank c = true ∧ s = "exp=".toList
    · obtain ⟨hblank, rfl⟩ := hhere
      have hopen : t.dropWhile (· != '"') = [] := by
        refine List.dropWhile_eq_nil_iff.2 fun d hd => ?_
        simpa using fun heq : d = '"' => ht (heq ▸ hd)
      rw [List.cons_append, expressionProperty?_cons_of_isBlank hblank, hopen]
      exact ih hs'
    · rw [List.cons_append, expressionProperty?_cons_of_not, ih hs']
      exact fun hblank value heq =>
        hhere ⟨hblank, (Text.append_cons_inj_of_not_mem hs' (by decide) heq).1⟩

/-! ### Tags in a heading -/

/-- The text that a tag adds to a heading. -/
def expressionText (tag : Text) : Text :=
  ((expressionProperty? tag).map unescapeAttribute).getD []

/-- The **events of markup in a line of text**: its lines, and a break between two of them. -/
def inlineEvents (markup : Text) : List Event :=
  ((Text.splitOnChar '\n' markup).map .inlineHtml).intersperse .softBreak

/-- One line is one event. -/
theorem inlineEvents_of_not_mem (hs : '\n' ∉ s) : inlineEvents s = [.inlineHtml s] := by
  rw [inlineEvents, Text.splitOnChar_of_not_mem hs]
  rfl

/-- The first line, a break and the other lines. -/
theorem inlineEvents_append_cons (hs : '\n' ∉ s) (t : Text) :
    inlineEvents (s ++ '\n' :: t) = .inlineHtml s :: .softBreak :: inlineEvents t := by
  obtain ⟨line, lines, hlines⟩ := List.exists_cons_of_ne_nil (Text.splitOnChar_ne_nil '\n' t)
  rw [inlineEvents, inlineEvents, Text.splitOnChar_append_cons, Text.splitOnChar_of_not_mem hs,
    hlines]
  rfl

/-- **Markup in a line of text** is written as it stands, and its tags add their expressions to the
open heading. -/
theorem run_inlineEvents (style : PageStyle) (w : Writer) (markup : Text) :
    w.run style (inlineEvents markup) =
      .ok ((w.pushHeadingText ((Text.splitOnChar '\n' markup).flatMap expressionText)).push
        markup) := by
  -- the induction is on the number of lines, by the length of the markup
  induction hn : markup.length using Nat.strongRecOn generalizing w markup with
  | ind n ih =>
    by_cases hfeed : '\n' ∈ markup
    · obtain ⟨line, rest, rfl, hline⟩ := List.eq_append_cons_of_mem hfeed
      have hshorter : rest.length < n := by
        rw [List.length_append, List.length_cons] at hn
        omega
      have hfirst : w.run style (inlineEvents (line ++ '\n' :: rest)) =
          (((w.pushHeadingText (expressionText line)).push line).push ['\n']).run style
            (inlineEvents rest) := by
        rw [inlineEvents_append_cons hline]
        rfl
      rw [hfirst, ih _ hshorter _ _ rfl, Text.splitOnChar_append_cons,
        Text.splitOnChar_of_not_mem hline]
      simp [pushHeadingText, push, Function.comp_def]
    · rw [inlineEvents_of_not_mem hfeed, Text.splitOnChar_of_not_mem hfeed,
        List.flatMap_singleton]
      rfl

end Lectern.Page.Writer
