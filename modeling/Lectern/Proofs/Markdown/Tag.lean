import Lectern.Markdown.Inline
import Lectern.Proofs.Directive.Markup

/-!
# Component Tags in a Line

The tag of a component stands in the line of a paragraph, where Markdown has its own idea of a tag:
its name is a letter and then letters, digits and hyphens. Settings also allow underscores and dots
in the name of a component. With a name that both allow, the tag is taken whole, whatever its
properties hold and whatever is around it; with another name it is no tag to Markdown.

## Main results

* `IsPlainName`: the names that both allow.
* `afterInlineHtml?_componentTag`: what follows the tag of a component, if it is a tag.
* `inlineRun_componentTag`: what becomes of the tag of a component in a line.
-/

namespace Lectern.Markdown

open Directive (property writeProperties componentTag component properties)
open Settings (isTagName isTagChar)
open Text (dropWhile_append_cons exists_dropWhile_append_cons drop_length_takeWhile)

variable {name key value rest : Text}

/-! ### Properties -/

/-- Whether a key can be the name of a property in a tag. -/
def isPropertyName : Text → Bool
  | [] => false
  | c :: more =>
    (c.isAlpha || c == '_' || c == ':') &&
      more.all fun c => c.isAlphanum || "_.:-".toList.contains c

/-- The first character of the name of a property is neither white space nor an end sign. -/
theorem isPropertyName_head {c : Char} {more : Text} (h : isPropertyName (c :: more) = true) :
    isAsciiSpace c = false ∧ c ≠ '/' ∧ c ≠ '>' := by
  have hstart : (c.isAlpha || c == '_' || c == ':') = true := by
    simp only [isPropertyName, Bool.and_eq_true] at h
    exact h.1
  refine ⟨Bool.eq_false_iff.2 fun hspace => ?_, ?_, ?_⟩
  · have hmem : c ∈ [' ', '\t', '\x0B', '\x0C', '\n', '\r'] := by
      simpa [isAsciiSpace, isLineSpace, or_assoc] using hspace
    have hnone : [' ', '\t', '\x0B', '\x0C', '\n', '\r'].any
        (fun d => d.isAlpha || d == '_' || d == ':') = false := by decide
    exact List.any_eq_false.1 hnone c hmem hstart
  · rintro rfl
    exact absurd hstart (by decide)
  · rintro rfl
    exact absurd hstart (by decide)

/-- **A property** with its value in quotes is read up to the closing quote. -/
theorem afterProperty?_eq (hkey : isPropertyName key = true) (hvalue : '"' ∉ value) (rest : Text) :
    afterProperty? (key ++ '=' :: '"' :: (value ++ '"' :: rest)) = some rest := by
  cases key with
  | nil => cases hkey
  | cons c more =>
    simp only [isPropertyName, Bool.and_eq_true, List.all_eq_true] at hkey
    have hnamed := dropWhile_append_cons hkey.2 (c := '=') (by decide)
      ('"' :: (value ++ '"' :: rest))
    have hclosed : (value ++ '"' :: rest).dropWhile (· != '"') = '"' :: rest :=
      dropWhile_append_cons (fun d hd => bne_iff_ne.2 (ne_of_mem_of_not_mem hd hvalue))
        (by decide) _
    have hequals : isAsciiSpace '=' = false := by decide
    have hquote : isAsciiSpace '"' = false := by decide
    simp only [List.cons_append, afterProperty?, if_pos hkey.1, hnamed]
    simp [hequals, hquote, afterPropertyValue?, afterQuotedValue?, hclosed]

/-- A property as it is written. -/
theorem property_append (key value rest : Text) :
    property key value ++ rest =
      ' ' :: (key ++ '=' :: '"' :: (Markup.escapeAttribute value ++ '"' :: rest)) := by
  simp [property]

/-- **Properties** are read up to the sign that ends their tag. -/
theorem afterProperties?_writeProperties {properties : List (Text × Text)}
    (hkeys : ∀ p ∈ properties, isPropertyName p.1 = true) {steps : Nat}
    (hsteps : properties.length < steps) (rest : Text) :
    afterProperties? steps (writeProperties properties ++ " />".toList ++ rest) =
      some ('/' :: '>' :: rest) := by
  induction properties generalizing steps with
  | nil =>
    obtain ⟨steps, rfl⟩ : ∃ n, steps = n + 1 := ⟨steps - 1, by simp at hsteps; omega⟩
    rfl
  | cons first properties ih =>
    obtain ⟨key, value⟩ := first
    obtain ⟨hkey, hkeys⟩ := List.forall_mem_cons.1 hkeys
    obtain ⟨steps, rfl⟩ : ∃ n, steps = n + 1 := ⟨steps - 1, by simp at hsteps; omega⟩
    have hrest := ih hkeys (show properties.length < steps by simpa using hsteps)
    have hproperty := afterProperty?_eq hkey (Markup.not_mem_escapeAttribute value).1
      (writeProperties properties ++ " />".toList ++ rest)
    rw [Directive.writeProperties_cons, List.append_assoc, List.append_assoc, property_append,
      ← List.append_assoc (writeProperties properties)]
    cases key with
    | nil => cases hkey
    | cons c more =>
      obtain ⟨hspace, hslash, hbracket⟩ := isPropertyName_head hkey
      have hskip : ∀ t : Text, (' ' :: c :: t).dropWhile isAsciiSpace = c :: t := fun t => by
        simp [List.dropWhile, hspace, show isAsciiSpace ' ' = true by decide]
      rw [List.cons_append, afterProperties?, hskip]
      split
      next heq => exact absurd (List.cons.inj heq).1 hslash
      next heq => exact absurd (List.cons.inj heq).1 hbracket
      next => rw [if_neg (by simp), ← List.cons_append, hproperty, Option.bind_some, hrest]

/-! ### Names -/

/-- Whether a name is **plain**: without the two signs that settings allow in the name of a
component and Markdown does not allow in the name of a tag. -/
def IsPlainName (name : Text) : Prop := '_' ∉ name ∧ '.' ∉ name

instance (name : Text) : Decidable (IsPlainName name) := inferInstanceAs (Decidable (_ ∧ _))

/-- A tag name starts with a letter, and goes on with letters, digits and three signs. -/
theorem exists_of_isTagName (h : isTagName name = true) : ∃ first more, name = first :: more ∧
    first.isAlpha = true ∧ ∀ c ∈ name, isTagChar c = true := by
  cases name with
  | nil => cases h
  | cons first more =>
    have hchars := Directive.isTagChar_of_mem h
    simp only [isTagName, Bool.and_eq_true] at h
    exact ⟨first, more, rfl, h.1, hchars⟩

/-- The characters of plain names. -/
theorem isTagChar_iff {c : Char} : isTagChar c = true ↔
    (c.isAlphanum || c == '-') = true ∨ c = '_' ∨ c = '.' := by
  simp [isTagChar, or_assoc]

/-- A plain name is read whole. -/
theorem afterTagName?_of_isPlainName (hname : isTagName name = true) (hplain : IsPlainName name)
    (t : Text) : afterTagName? (name ++ ' ' :: t) = some (' ' :: t) := by
  obtain ⟨first, more, rfl, hfirst, hall⟩ := exists_of_isTagName hname
  have hmore : ∀ c ∈ more, (c.isAlphanum || c == '-') = true := fun c hmem => by
    have hc := List.mem_cons_of_mem first hmem
    exact (isTagChar_iff.1 (hall c hc)).resolve_right fun hsign =>
      hsign.elim (fun h => hplain.1 (h ▸ hc)) fun h => hplain.2 (h ▸ hc)
  rw [List.cons_append, afterTagName?, if_pos hfirst,
    dropWhile_append_cons hmore (by decide)]

/-- Any other name is read up to one of its two signs. -/
theorem exists_afterTagName? (hname : isTagName name = true) (hplain : ¬ IsPlainName name)
    (t : Text) : ∃ c more, (c = '_' ∨ c = '.') ∧ afterTagName? (name ++ t) = some (c :: more) := by
  obtain ⟨first, more, rfl, hfirst, hall⟩ := exists_of_isTagName hname
  obtain ⟨sign, hsign, hmem⟩ : ∃ sign, (sign = '_' ∨ sign = '.') ∧ sign ∈ more := by
    by_contra hnone
    refine hplain ⟨fun hmem => hnone ⟨'_', .inl rfl, ?_⟩, fun hmem => hnone ⟨'.', .inr rfl, ?_⟩⟩ <;>
    · refine (List.mem_cons.1 hmem).resolve_left ?_
      rintro rfl
      exact absurd hfirst (by decide)
  obtain ⟨front, back, rfl⟩ := List.append_of_mem hmem
  have hstop : (sign.isAlphanum || sign == '-') = false := by
    rcases hsign with rfl | rfl <;> decide
  obtain ⟨c, rest, hrest, hc⟩ := exists_dropWhile_append_cons
    (fun c => c.isAlphanum || c == '-') sign front hstop (back ++ t)
  have hnot : (c.isAlphanum || c == '-') = false := by
    have hhead := List.head?_dropWhile_not (fun c => c.isAlphanum || c == '-')
      (front ++ sign :: (back ++ t))
    rwa [hrest] at hhead
  refine ⟨c, rest, ?_, ?_⟩
  · have htag : isTagChar c = true := hall c (by simp at hc ⊢; tauto)
    exact (isTagChar_iff.1 htag).resolve_left (by simp [hnot])
  · rw [List.cons_append, afterTagName?, if_pos hfirst, List.append_assoc, List.cons_append, hrest]

/-! ### Tags -/

/-- What stands behind the name of a component in its tag starts with a space. -/
theorem exists_writeProperties (properties : List (Text × Text)) (rest : Text) :
    ∃ t, writeProperties properties ++ " />".toList ++ rest = ' ' :: t := by
  cases properties with
  | nil => exact ⟨_, rfl⟩
  | cons first properties => exact ⟨_, rfl⟩

/-- The names of the properties of a directive are names of properties. -/
theorem isPropertyName_of_mem_properties {directive : Directive} :
    ∀ p ∈ directive.properties, isPropertyName p.1 = true := by
  cases directive with
  | reference => simp [properties, isPropertyName]
  | definition => simp [properties, isPropertyName]
  | listing => simp [properties, isPropertyName]
  | interactive context title expression =>
    refine List.forall_mem_append.2 ⟨by simp [isPropertyName], fun p hp => ?_⟩
    unfold Directive.titleProperties at hp
    split at hp
    · simp at hp
    · obtain rfl := List.mem_singleton.1 hp
      simp [isPropertyName]

/-- There are no more properties than characters in which they are written. -/
theorem length_le_writeProperties (properties : List (Text × Text)) :
    properties.length ≤ (writeProperties properties).length := by
  induction properties with
  | nil => exact Nat.le_refl _
  | cons first properties ih =>
    have hfirst : 1 ≤ (property first.1 first.2).length := by simp [property]
    rw [Directive.writeProperties_cons, List.length_append, List.length_cons]
    omega

/-- **A tag** with a plain name is read to its end; one with another name is no tag. -/
theorem afterTag?_writeProperties {properties : List (Text × Text)}
    (hname : isTagName name = true) (hkeys : ∀ p ∈ properties, isPropertyName p.1 = true)
    (rest : Text) :
    afterTag? (name ++ (writeProperties properties ++ " />".toList ++ rest)) =
      if IsPlainName name then some rest else none := by
  obtain ⟨first, more, hfirst, halpha, -⟩ := exists_of_isTagName hname
  unfold afterTag?
  split
  next s heq =>
    rw [hfirst, List.cons_append, List.cons.injEq] at heq
    rw [heq.1] at halpha
    exact absurd halpha (by decide)
  next =>
    split_ifs with hplain
    · obtain ⟨t, ht⟩ := exists_writeProperties properties rest
      have hlength : properties.length < (' ' :: t).length + 1 := by
        have hle := length_le_writeProperties properties
        rw [← ht]
        simp only [List.length_append]
        omega
      have hread := afterProperties?_writeProperties hkeys hlength rest
      rw [ht] at hread ⊢
      rw [afterTagName?_of_isPlainName hname hplain, Option.bind_some, hread]
      rfl
    · obtain ⟨c, more, hsign, hread⟩ := exists_afterTagName? hname hplain
        (writeProperties properties ++ " />".toList ++ rest)
      have hnone : afterProperties? ((c :: more).length + 1) (c :: more) = none := by
        rcases hsign with rfl | rfl <;> simp [afterProperties?, isAsciiSpace, isLineSpace]
      rw [hread, Option.bind_some, hnone]

/-! ### Steps through a line -/

/-- Behind the start of a name and a space that passes a test, there is no sign that names do not
have. -/
theorem exists_drop_takeWhile (hname : isTagName name = true) (p : Char → Bool) (sign : Char)
    (hp : p ' ' = false) (hsign : isTagChar sign = false) (hspace : sign ≠ ' ') (t : Text) :
    ∃ d more, (name ++ ' ' :: t).drop ((name ++ ' ' :: t).takeWhile p).length = d :: more ∧
      d ≠ sign := by
  obtain ⟨-, -, -, -, hall⟩ := exists_of_isTagName hname
  obtain ⟨d, more, heq, hmem⟩ := exists_dropWhile_append_cons p ' ' name hp t
  refine ⟨d, more, by rw [drop_length_takeWhile, heq], ?_⟩
  rintro rfl
  rcases List.mem_append.1 hmem with hd | hd
  · simp [hall d hd] at hsign
  · exact hspace (List.mem_singleton.1 hd)

/-- **A component is no automatic link**, whatever its name is. -/
theorem autolink?_eq_none (hname : isTagName name = true) (t : Text) :
    autolink? (name ++ ' ' :: t) = none := by
  have hscheme : afterScheme? (name ++ ' ' :: t) = none := by
    obtain ⟨d, more, hrest, hd⟩ := exists_drop_takeWhile hname
      (fun c => c.isAlphanum || ".-+".toList.contains c) ':' (by decide) (by decide) (by decide) t
    unfold afterScheme?
    split
    · simp only [hrest]
      split
      · exact Option.eq_none_iff_forall_ne_some.2 fun u hu => hd
          (List.cons.inj (Text.after?_eq_some_iff.1 hu)).1
      · rfl
    · rfl
  have hmail : mailAddress? (name ++ ' ' :: t) = none := by
    obtain ⟨d, more, hrest, hd⟩ := exists_drop_takeWhile hname isMailboxChar '@'
      (by decide) (by decide) (by decide) t
    unfold mailAddress?
    simp only [hrest]
    split
    next heq => exact absurd (List.cons.inj heq).1 hd
    next => rfl
  simp [autolink?, uri?, hscheme, hmail]

/-- The tag of a component behind its first sign. -/
theorem tail_componentTag_append (names : ComponentNames) (directive : Directive) (rest : Text) :
    (directive.componentTag names).tail ++ rest =
      directive.component names ++
        (writeProperties directive.properties ++ " />".toList ++ rest) := by
  simp [componentTag]

/-- **What follows the tag of a component**: the rest of the line, if the name is plain. -/
theorem afterInlineHtml?_componentTag {names : ComponentNames} {directive : Directive}
    (hname : isTagName (directive.component names) = true) (rest : Text) :
    afterInlineHtml? ((directive.componentTag names).tail ++ rest) =
      if IsPlainName (directive.component names) then some rest else none := by
  rw [tail_componentTag_append,
    ← afterTag?_writeProperties hname isPropertyName_of_mem_properties rest]
  obtain ⟨first, more, hfirst, halpha, -⟩ := exists_of_isTagName hname
  have hbang : first ≠ '!' := by
    rintro rfl
    exact absurd halpha (by decide)
  have hquestion : first ≠ '?' := by
    rintro rfl
    exact absurd halpha (by decide)
  rw [hfirst, List.cons_append]
  unfold afterInlineHtml?
  split <;> simp_all

/-- **The step over the tag of a component** takes it as a part of its own, whatever has been read
and whatever follows, if its name is plain. -/
theorem inlineStep_componentTag {names : ComponentNames} {directive : Directive}
    (hname : isTagName (directive.component names) = true)
    (hplain : IsPlainName (directive.component names)) (definitions : Definitions)
    (state : InlineState) (before : Option Char) (rest : Text) :
    inlineStep definitions state before '<' ((directive.componentTag names).tail ++ rest) =
      (state.pushTree (.leaf (.inlineHtml (directive.componentTag names))), some '>', rest) := by
  have hlink : autolink? ((directive.componentTag names).tail ++ rest) = none := by
    obtain ⟨t, ht⟩ := exists_writeProperties directive.properties rest
    rw [tail_componentTag_append, ht]
    exact autolink?_eq_none hname t
  have htag := afterInlineHtml?_componentTag hname rest
  rw [if_pos hplain] at htag
  have hsource : '<' :: ((directive.componentTag names).tail ++ rest).take
      (((directive.componentTag names).tail ++ rest).length - rest.length) =
      directive.componentTag names := by
    rw [List.length_append, Nat.add_sub_cancel, List.take_left]
    rfl
  simp only [inlineStep, hlink, htag, hsource]

/-- The tag of a component in a line becomes a part of its own. -/
theorem inlineRun_componentTag {names : ComponentNames} {directive : Directive}
    (hname : isTagName (directive.component names) = true)
    (hplain : IsPlainName (directive.component names)) {definitions : Definitions}
    {state : InlineState} {before : Option Char} (rest : Text) (steps : Nat) :
    inlineRun definitions (steps + 1) state before (directive.componentTag names ++ rest) =
      inlineRun definitions steps
        (state.pushTree (.leaf (.inlineHtml (directive.componentTag names)))) (some '>') rest := by
  have hstep := inlineStep_componentTag hname hplain definitions state before rest
  have hfirst : directive.componentTag names = '<' :: (directive.componentTag names).tail := rfl
  rw [hfirst, List.cons_append]
  simp only [inlineRun, hstep]
  rfl

end Lectern.Markdown
