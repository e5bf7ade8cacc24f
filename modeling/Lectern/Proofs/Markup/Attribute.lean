import Lectern.Markup.Escape
import Mathlib.Data.List.Basic
import Mathlib.Data.List.Induction

/-!
# The Attributes of Components

The value of a component's attribute is written with three entities, and read back by three
replacements in turn. Reading takes the entity of `&` last, so an entity that stands in the text
itself comes back as it was. A value has neither double quotes nor line feeds, so the properties of
a tag can be found again between its quotes.

## Main results

* `Text.replace_flatMap`: a text is replaced character by character, if no occurrence begins
  elsewhere.
* `not_mem_escapeAttribute`: what a value does not have.
* `unescapeAttribute_escapeAttribute`: a value is read back.
* `exists_of_escapeAttribute_eq_append`: plain text at the end of a value is the end of the text.
-/

namespace Lectern.Text

variable {old new : Text} {c : Char} {s t : Text}

/-! ### Replacing -/

/-- An occurrence is replaced. -/
theorem replace_append_self (hold : old ≠ []) (new t : Text) :
    replace old new (old ++ t) = new ++ replace old new t := by
  have hskip : ∀ (s : Text), replaceAux old new s.length (s ++ t) = replace old new t := by
    intro s
    induction s with
    | nil => rfl
    | cons c s ih => exact ih
  obtain ⟨c, rest, rfl⟩ := List.exists_cons_of_ne_nil hold
  have hstarts : (c :: rest).isPrefixOf (c :: (rest ++ t)) = true :=
    List.isPrefixOf_iff_prefix.2 (List.prefix_append (c :: rest) t)
  rw [replace, List.cons_append, replaceAux, if_pos hstarts]
  exact congrArg (new ++ ·) (hskip rest)

/-- A character stays where no occurrence begins. -/
theorem replace_cons_of_not_prefix (new : Text) (h : ¬ old <+: c :: t) :
    replace old new (c :: t) = c :: replace old new t := by
  rw [replace, replaceAux, if_neg (mt List.isPrefixOf_iff_prefix.1 h)]
  rfl

/-- A text stays that does not have the first character of an occurrence. -/
theorem replace_append_of_not_mem {first : Char} {rest : Text} (new : Text) (h : first ∉ s)
    (t : Text) : replace (first :: rest) new (s ++ t) = s ++ replace (first :: rest) new t := by
  induction s with
  | nil => rfl
  | cons c s ih =>
    obtain ⟨hc, hs⟩ := List.ne_and_not_mem_of_not_mem_cons h
    have hnot : ¬ first :: rest <+: c :: (s ++ t) := fun hprefix =>
      hc (List.cons_prefix_cons.1 hprefix).1
    rw [List.cons_append, replace_cons_of_not_prefix new hnot, ih hs, List.cons_append]

/-- **A text is replaced character by character**, if its characters are written so that each is an
occurrence, or is passed over. -/
theorem replace_flatMap {f g : Char → Text} (hold : old ≠ [])
    (h : ∀ c, (f c = old ∧ g c = new) ∨
      (g c = f c ∧ ∀ t, replace old new (f c ++ t) = f c ++ replace old new t)) (s : Text) :
    replace old new (s.flatMap f) = s.flatMap g := by
  induction s with
  | nil => rfl
  | cons c s ih =>
    rw [List.flatMap_cons, List.flatMap_cons, ← ih]
    rcases h c with ⟨hf, hg⟩ | ⟨hg, hpass⟩
    · rw [hf, hg, replace_append_self hold]
    · rw [hg, hpass]

end Lectern.Text

namespace Lectern.Markup

/-! ### Values -/

/-- The form of a character in a value: an entity for each of three, and otherwise the character. -/
theorem escapeAttributeChar_cases (c : Char) :
    (c = '&' ∧ escapeAttributeChar c = ['&', 'a', 'm', 'p', ';']) ∨
    (c = '"' ∧ escapeAttributeChar c = ['&', 'q', 'u', 'o', 't', ';']) ∨
    (c = '\n' ∧ escapeAttributeChar c = ['&', '#', '1', '0', ';']) ∨
    (c ≠ '&' ∧ c ≠ '"' ∧ c ≠ '\n') ∧ escapeAttributeChar c = [c] := by
  unfold escapeAttributeChar
  split
  · exact .inl ⟨rfl, rfl⟩
  · exact .inr (.inl ⟨rfl, rfl⟩)
  · exact .inr (.inr (.inl ⟨rfl, rfl⟩))
  · next hamp hquote hfeed => exact .inr (.inr (.inr ⟨⟨hamp, hquote, hfeed⟩, rfl⟩))

/-- A value has no double quotes and no line feeds. -/
theorem not_mem_escapeAttribute (s : Text) :
    '"' ∉ escapeAttribute s ∧ '\n' ∉ escapeAttribute s := by
  have hchar : ∀ c, '"' ∉ escapeAttributeChar c ∧ '\n' ∉ escapeAttributeChar c := by
    intro c
    rcases escapeAttributeChar_cases c with ⟨-, h⟩ | ⟨-, h⟩ | ⟨-, h⟩ | ⟨⟨-, hquote, hfeed⟩, h⟩
    · rw [h]
      decide
    · rw [h]
      decide
    · rw [h]
      decide
    · rw [h]
      simp [Ne.symm hquote, Ne.symm hfeed]
  constructor <;> intro hmem <;> obtain ⟨c, -, hc⟩ := List.mem_flatMap.1 hmem
  · exact (hchar c).1 hc
  · exact (hchar c).2 hc

/-! ### Reading values -/

/-- The text of a value in which line feeds have been read back. -/
def keepLineFeed (c : Char) : Text := if c = '\n' then [c] else escapeAttributeChar c

/-- The text of a value in which double quotes have been read back as well. -/
def keepQuote (c : Char) : Text := if c = '"' then [c] else keepLineFeed c

/-- An entity is passed over by the replacement of another one. -/
theorem passes_entity {c d : Char} {name other : Text} (new : Text) (hname : '&' ∉ c :: name)
    (hne : d ≠ c) (t : Text) : Text.replace ('&' :: d :: other) new ('&' :: c :: name ++ t) =
      '&' :: c :: name ++ Text.replace ('&' :: d :: other) new t := by
  have hnot : ¬ '&' :: d :: other <+: '&' :: (c :: name ++ t) := fun hprefix =>
    hne (List.cons_prefix_cons.1 (List.cons_prefix_cons.1 hprefix).2).1
  rw [List.cons_append, Text.replace_cons_of_not_prefix new hnot,
    Text.replace_append_of_not_mem new hname]
  rfl

/-- Another character is passed over by the replacement of an entity. -/
theorem passes_char {c : Char} (other new : Text) (hc : c ≠ '&') (t : Text) :
    Text.replace ('&' :: other) new ([c] ++ t) = [c] ++ Text.replace ('&' :: other) new t :=
  Text.replace_append_of_not_mem new (by simpa using Ne.symm hc) t

/-- The entities of line feeds are read. -/
theorem replace_lineFeeds (s : Text) :
    Text.replace "&#10;".toList ['\n'] (escapeAttribute s) = s.flatMap keepLineFeed := by
  refine Text.replace_flatMap (by decide) (fun c => ?_) s
  rcases escapeAttributeChar_cases c with ⟨rfl, h⟩ | ⟨rfl, h⟩ | ⟨rfl, h⟩ | ⟨⟨hc, -, hfeed⟩, h⟩
  · exact .inr ⟨rfl, passes_entity _ (by decide) (by decide)⟩
  · exact .inr ⟨rfl, passes_entity _ (by decide) (by decide)⟩
  · exact .inl ⟨h, rfl⟩
  · rw [keepLineFeed, if_neg hfeed, h]
    exact .inr ⟨rfl, passes_char _ _ hc⟩

/-- The entities of double quotes are read behind those of line feeds. -/
theorem replace_quotes (s : Text) :
    Text.replace "&quot;".toList ['"'] (s.flatMap keepLineFeed) = s.flatMap keepQuote := by
  refine Text.replace_flatMap (by decide) (fun c => ?_) s
  rcases escapeAttributeChar_cases c with
    ⟨rfl, -⟩ | ⟨rfl, -⟩ | ⟨rfl, -⟩ | ⟨⟨hc, hquote, hfeed⟩, h⟩
  · exact .inr ⟨rfl, passes_entity _ (by decide) (by decide)⟩
  · exact .inl ⟨rfl, rfl⟩
  · exact .inr ⟨rfl, passes_char _ _ (by decide)⟩
  · rw [keepQuote, if_neg hquote, keepLineFeed, if_neg hfeed, h]
    exact .inr ⟨rfl, passes_char _ _ hc⟩

/-- The entities of `&` are read last. -/
theorem replace_ampersands (s : Text) :
    Text.replace "&amp;".toList ['&'] (s.flatMap keepQuote) = s := by
  have hreplaced : Text.replace "&amp;".toList ['&'] (s.flatMap keepQuote) =
      s.flatMap fun c => [c] := by
    refine Text.replace_flatMap (by decide) (fun c => ?_) s
    rcases escapeAttributeChar_cases c with
      ⟨rfl, -⟩ | ⟨rfl, -⟩ | ⟨rfl, -⟩ | ⟨⟨hc, hquote, hfeed⟩, h⟩
    · exact .inl ⟨rfl, rfl⟩
    · exact .inr ⟨rfl, passes_char _ _ (by decide)⟩
    · exact .inr ⟨rfl, passes_char _ _ (by decide)⟩
    · rw [keepQuote, if_neg hquote, keepLineFeed, if_neg hfeed, h]
      exact .inr ⟨rfl, passes_char _ _ hc⟩
  rw [hreplaced, List.flatMap_singleton']

/-- **A value is read back.** -/
theorem unescapeAttribute_escapeAttribute (s : Text) :
    unescapeAttribute (escapeAttribute s) = s := by
  rw [unescapeAttribute, replace_lineFeeds, replace_quotes, replace_ampersands]

/-! ### The ends of values -/

/-- Plain text is written as it stands. -/
theorem escapeAttribute_append_plain {plain : Text}
    (hplain : ∀ c ∈ plain, escapeAttributeChar c = [c]) (s : Text) :
    escapeAttribute (s ++ plain) = escapeAttribute s ++ plain := by
  have hkept : plain.flatMap escapeAttributeChar = plain.flatMap fun c => [c] :=
    List.flatMap_congr fun c hc => hplain c hc
  rw [escapeAttribute, List.flatMap_append, hkept, List.flatMap_singleton']
  rfl

/-- **Plain text at the end of a value** is the end of the text, and the rest is the value of the
rest. -/
theorem exists_of_escapeAttribute_eq_append {s value plain : Text}
    (hplain : ∀ c ∈ plain, escapeAttributeChar c = [c] ∧ c ≠ ';')
    (h : escapeAttribute s = value ++ plain) : ∃ t, s = t ++ plain ∧ escapeAttribute t = value := by
  induction plain using List.reverseRecOn generalizing s with
  | nil => exact ⟨s, by simp, by simpa using h⟩
  | append_singleton plain c ih =>
    obtain ⟨hbefore, hc⟩ := List.forall_mem_append.1 hplain
    obtain ⟨hkept, hend⟩ := List.forall_mem_singleton.1 hc
    rcases List.eq_nil_or_concat' s with rfl | ⟨t, d, rfl⟩
    · simp [escapeAttribute] at h
    · rw [escapeAttribute, List.flatMap_append, List.flatMap_singleton, ← List.append_assoc] at h
      -- only a character that is kept leaves a last one other than a semicolon
      have hd : d = c := by
        have hlast := congrArg List.getLast? h
        rw [List.getLast?_concat] at hlast
        rcases escapeAttributeChar_cases d with ⟨-, hd⟩ | ⟨-, hd⟩ | ⟨-, hd⟩ | ⟨-, hd⟩
        all_goals
          rw [hd] at hlast
          simp at hlast
        · exact absurd hlast.symm hend
        · exact absurd hlast.symm hend
        · exact absurd hlast.symm hend
        · exact hlast
      subst hd
      rw [hkept] at h
      obtain ⟨u, rfl, hu⟩ := ih hbefore (List.append_cancel_right h)
      exact ⟨u, by simp, hu⟩

end Lectern.Markup
