import Lectern.Proofs.Directive.Shape
import Lectern.Proofs.Text.Element

/-!
# Inline Directives

In a text of which no line begins with the opening fence of a directive, only the two inline shapes
are found, and their markup is an element for the quoted source that it stands for. Rewriting by
inert parts opens no fence.

## Main results

* `BeginsLine.of_inertlyRecast`: lines that begin with a pattern without signs were there before.
* `occurrence?_eq_inline?`: where no fence opens a line, only the inline shapes are found.
* `isElement_of_inline?`: the markup of an inline directive is an element.
-/

namespace Lectern.Directive

open Text
open Markup (escapeAttribute escapeAttributeChar)

/-! ### Lines -/

/-- Whether a line of `s` begins with `start`. -/
def BeginsLine (start s : Text) : Prop :=
  ∃ before after, s = before ++ after ∧ StartsLine before ∧ start <+: after

/-- The line is the first one, or it follows a line end. -/
theorem beginsLine_iff {start s : Text} :
    BeginsLine start s ↔ start <+: s ∨ '\n' :: start <:+: s := by
  constructor
  · rintro ⟨before, after, rfl, hline, hstart⟩
    rcases startsLine_iff.1 hline with rfl | ⟨before, rfl⟩
    · exact .inl hstart
    · obtain ⟨rest, rfl⟩ := hstart
      exact .inr ⟨before, rest, by simp⟩
  · rintro (hstart | ⟨before, rest, rfl⟩)
    · exact ⟨[], s, rfl, nofun, hstart⟩
    · exact ⟨before ++ ['\n'], start ++ rest, by simp, startsLine_iff.2 (.inr ⟨before, rfl⟩),
        List.prefix_append _ _⟩

/-- **Lines that begin with a pattern without signs** were there before. -/
theorem BeginsLine.of_inertlyRecast {start s t : Text} (h : InertlyRecast s t)
    (hsigns : Avoids start signs) (hline : BeginsLine start t) : BeginsLine start s := by
  rcases beginsLine_iff.1 hline with hfirst | hlater
  · exact beginsLine_iff.2 (.inl (h.prefix_before (fun hinert => hinert.foreign hsigns) hfirst))
  · have hpattern : Avoids ('\n' :: start) signs := List.forall_mem_cons.2 ⟨by decide, hsigns⟩
    exact beginsLine_iff.2 (.inr (infix_of_inertlyRecast h (by decide) hpattern hlater))

/-! ### Inline directives -/

/-- The fences that open a directive, up to the end of their tags. -/
def openers : List Text :=
  ["```".toList ++ "lambda-defs".toList, "```".toList ++ "lambda-interactive".toList]

/-- The finder of the inline shapes. -/
def inline? : Finder Occurrence := fun before s =>
  (definition? before s).orElse fun _ => reference? before s

/-- **Where no fence opens a line**, only the inline shapes are found. -/
theorem occurrence?_eq_inline? {before s : Text}
    (h : ∀ opener ∈ openers, ¬ BeginsLine opener (before ++ s)) :
    occurrence? before.reverse s = inline? before.reverse s := by
  have hlisting : listing? before.reverse s = none := by
    refine Option.eq_none_iff_forall_ne_some.2 fun found hfound => ?_
    obtain ⟨source, after, content, rfl, hfenced, -⟩ := exists_isFenced_of_listing? hfound
    exact h _ (List.mem_cons_self ..) ⟨before, _, rfl, hfenced.1, hfenced.prefix⟩
  have hinteractive : interactive? before.reverse s = none := by
    refine Option.eq_none_iff_forall_ne_some.2 fun found hfound => ?_
    obtain ⟨source, after, context, title, body, rfl, hfenced, -⟩ :=
      exists_isFenced_of_interactive? hfound
    exact h _ (List.mem_cons_of_mem _ (List.mem_singleton_self _))
      ⟨before, _, rfl, hfenced.1, hfenced.prefix⟩
  rw [occurrence?, hlisting, hinteractive]
  rfl

/-- The finder of the inline shapes finds nothing where neither marker has a quoted source. -/
theorem inline?_eq_none_iff {before s : Text} : inline? before.reverse s = none ↔
    ¬ QuotedAt "dL".toList before s ∧ ¬ QuotedAt "l".toList before s := by
  rw [← quoted?_eq_none_iff, ← quoted?_eq_none_iff, inline?, Option.orElse_eq_or,
    Option.or_eq_none_iff, definition?, reference?, Option.map_eq_none_iff, Option.map_eq_none_iff]
  rfl

/-- A text without opening fences is walked for the inline shapes alone. -/
theorem walk_inline? {s : Text} (h : ∀ opener ∈ openers, ¬ BeginsLine opener s) :
    Walk inline? [] s (pieces occurrence? s) := by
  refine (walk_piecesFrom fits_occurrence? [] s).congr ?_
  rintro earlier later rfl
  rw [List.append_nil, occurrence?_eq_inline? h]

/-- **A text without directives** is kept whole. -/
theorem pieces_occurrence?_eq {s : Text} (h : ∀ opener ∈ openers, ¬ BeginsLine opener s)
    (hdefinition : ¬ HasQuoted "dL".toList s) (hreference : ¬ HasQuoted "l".toList s) :
    pieces occurrence? s = s.map .kept := by
  refine pieces_eq_map_kept ?_
  rintro earlier later rfl
  rw [occurrence?_eq_inline? h]
  exact inline?_eq_none_iff.2 ⟨fun hquoted => hdefinition ⟨earlier, later, rfl, hquoted⟩,
    fun hquoted => hreference ⟨earlier, later, rfl, hquoted⟩⟩

/-! ### The markup of inline directives -/

/-- Escaping writes inert entities. -/
theorem inertlyRecast_escapeAttribute (s : Text) : InertlyRecast s (escapeAttribute s) := by
  induction s with
  | nil => exact .nil
  | cons c s ih =>
    have hchar : InertlyRecast [c] (escapeAttributeChar c) := by
      unfold escapeAttributeChar
      split
      · exact .single (by decide)
      · exact .single (by decide)
      · exact .single (by decide)
      · exact .refl [c]
    exact hchar.append ih

/-- The markup of a reference, around its expression. -/
theorem toMarkup_reference (expression : Text) :
    toMarkup {} (.reference expression) =
      "<LambdaStatic exp=\"".toList ++ (escapeAttribute expression ++ "\" />".toList) := by
  simp only [toMarkup, tag, property, List.append_assoc]
  rfl

/-- What follows the expression in the markup of a definition. -/
def definitionEnd (alone : Bool) : Text :=
  if alone then "\" :block=\"true\" />".toList else "\" :block=\"false\" />".toList

/-- The markup of a definition, around its expression. -/
theorem toMarkup_definition (expression : Text) (alone : Bool) :
    toMarkup {} (.definition expression alone) =
      "<LambdaDef exp=\"".toList ++ (escapeAttribute expression ++ definitionEnd alone) := by
  cases alone
  all_goals
    simp only [toMarkup, tag, property, List.append_assoc]
    rfl

/-- **The markup of an inline directive** is an element for its source. -/
theorem isElement_of_inline? {before source after : Text} {occurrence : Occurrence}
    (h : inline? before (source ++ after) = some (occurrence, source.length)) :
    IsElement source (occurrence.expand {}) := by
  simp only [inline?, Option.orElse_eq_or, Option.or_eq_some_iff] at h
  rcases h with hdefinition | ⟨-, hreference⟩
  · obtain ⟨⟨body, length⟩, hfound, heq⟩ := Option.map_eq_some_iff.1 hdefinition
    obtain ⟨rfl, rfl⟩ := Prod.mk.inj heq
    have hquoted : IsQuoted "dL".toList before.reverse source body := isQuoted_of_quoted? hfound
    rw [Occurrence.expand, toMarkup_definition]
    refine .of_isQuoted hquoted (by decide) (by decide) (inertlyRecast_escapeAttribute body)
      (by decide) ?_ ?_
    · cases standsAlone _ _ <;> decide
    · cases standsAlone _ _ <;> decide
  · obtain ⟨⟨body, length⟩, hfound, heq⟩ := Option.map_eq_some_iff.1 hreference
    obtain ⟨rfl, rfl⟩ := Prod.mk.inj heq
    have hquoted : IsQuoted "l".toList before.reverse source body := isQuoted_of_quoted? hfound
    rw [Occurrence.expand, toMarkup_reference]
    exact .of_isQuoted hquoted (by decide) (by decide) (inertlyRecast_escapeAttribute body)
      (by decide) (by decide) (by decide)

/-- Inline directives are expanded by inert parts. -/
theorem inertlyRecast_expand {s : Text} (h : ∀ opener ∈ openers, ¬ BeginsLine opener s) :
    InertlyRecast s (expand {} s) :=
  (walk_inline? h).recast fun hfound => (isElement_of_inline? hfound).recast

end Lectern.Directive
