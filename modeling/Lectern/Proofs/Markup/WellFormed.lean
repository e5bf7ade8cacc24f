import Lectern.Markup.Escape
import Lectern.Proofs.Text.Basic

/-!
# Well-Formed Markup

The grammar of the markup that pages consist of: text without angle brackets, void tags, and
elements, whose open tag is closed by their own close tag around content that is well formed
itself. The values of properties have neither quotes nor angle brackets, so a tag ends where its
first closing bracket stands.

## Main results

* `WellFormed.append`, `WellFormed.enclose`: how well-formed markup is put together.
* `WellFormed.trim`, `WellFormed.trimEnd`: trimming takes nothing but text.
* `WellFormed.splice`: markup that goes in before a final close tag.
* `isValue_escapeHtml`: an escaped text has no quotes and no angle brackets.
-/

namespace Lectern.Markup

open Unicode (isBlank)

/-- Whether `c` can stand between tags. -/
def IsPlain (c : Char) : Prop := c ≠ '<' ∧ c ≠ '>'

instance (c : Char) : Decidable (IsPlain c) := inferInstanceAs (Decidable (_ ∧ _))

/-- Whether `c` can stand in the value of a property. -/
def IsValueChar (c : Char) : Prop := c ≠ '"' ∧ IsPlain c

instance (c : Char) : Decidable (IsValueChar c) := inferInstanceAs (Decidable (_ ∧ _))

/-- Whether a text can stand between tags. -/
def IsPlainText (s : Text) : Prop := ∀ c ∈ s, IsPlain c

instance (s : Text) : Decidable (IsPlainText s) :=
  decidable_of_iff (s.all fun c => decide (IsPlain c)) (by simp [IsPlainText])

/-- Whether a text can be the value of a property. -/
def IsValue (s : Text) : Prop := ∀ c ∈ s, IsValueChar c

instance (s : Text) : Decidable (IsValue s) :=
  decidable_of_iff (s.all fun c => decide (IsValueChar c)) (by simp [IsValue])

/-- Whether a text can be the name of an element or of a property. -/
def IsName (name : Text) : Prop := name ≠ [] ∧ name.all Char.isAlphanum = true

instance (name : Text) : Decidable (IsName name) := inferInstanceAs (Decidable (_ ∧ _))

/-- A property of a tag, with its value as it is written; a flag has none. -/
structure Property where
  name : Text
  value : Option Text

/-- The text of a property after the space that separates it. -/
def Property.text (property : Property) : Text :=
  ' ' :: property.name ++ match property.value with
    | some value => "=\"".toList ++ value ++ ['"']
    | none => []

/-- Whether a property ends where it is meant to end. -/
def Property.IsSafe (property : Property) : Prop :=
  IsName property.name ∧ ∀ value ∈ property.value, IsValue value

/-- Whether all properties of a tag are safe. -/
def AreSafe (properties : List Property) : Prop := ∀ property ∈ properties, property.IsSafe

/-- An open tag, or a void one. -/
def openTag (name : Text) (properties : List Property) : Text :=
  '<' :: (name ++ properties.flatMap Property.text ++ ['>'])

/-- A close tag. -/
def closeTag (name : Text) : Text := "</".toList ++ name ++ ['>']

/-- The elements without content, which no close tag follows. -/
def voidElements : List Text :=
  ["area", "base", "br", "col", "embed", "hr", "img", "input", "link", "meta", "source", "track",
    "wbr"].map String.toList

/-- **Well-formed markup.** -/
inductive WellFormed : Text → Prop
  | nil : WellFormed []
  | text {c : Char} {rest : Text} : IsPlain c → WellFormed rest → WellFormed (c :: rest)
  | void {name : Text} {properties : List Property} {rest : Text} :
      name ∈ voidElements → AreSafe properties → WellFormed rest →
      WellFormed (openTag name properties ++ rest)
  | element {name : Text} {properties : List Property} {content rest : Text} :
      IsName name → name ∉ voidElements → AreSafe properties →
      WellFormed content → WellFormed rest →
      WellFormed (openTag name properties ++ content ++ closeTag name ++ rest)

/-! ### Composition -/

/-- Well-formed markup after well-formed markup. -/
theorem WellFormed.append {s t : Text} (hs : WellFormed s) (ht : WellFormed t) :
    WellFormed (s ++ t) := by
  induction hs with
  | nil => exact ht
  | text hc _ ih => exact .text hc ih
  | void hname hproperties _ ih =>
    rw [List.append_assoc]
    exact .void hname hproperties ih
  | element hname hvoid hproperties hcontent _ _ ih =>
    rw [List.append_assoc]
    exact .element hname hvoid hproperties hcontent ih

/-- Markup of well-formed parts. -/
theorem wellFormed_flatMap {α : Type} (parts : List α) {f : α → Text}
    (h : ∀ part ∈ parts, WellFormed (f part)) : WellFormed (parts.flatMap f) := by
  induction parts with
  | nil => exact .nil
  | cons part parts ih =>
    rw [List.flatMap_cons]
    exact (h part (by simp)).append (ih fun p hp => h p (by simp [hp]))

/-- Text without angle brackets. -/
theorem wellFormed_of_plain {s : Text} (h : IsPlainText s) : WellFormed s := by
  induction s with
  | nil => exact .nil
  | cons c s ih =>
    obtain ⟨hc, hs⟩ := List.forall_mem_cons.1 h
    exact .text hc (ih hs)

/-- An element around well-formed content. -/
theorem WellFormed.enclose {content : Text} (hcontent : WellFormed content) (name : Text)
    (properties : List Property) (hname : IsName name ∧ name ∉ voidElements)
    (hproperties : AreSafe properties) :
    WellFormed (openTag name properties ++ content ++ closeTag name) := by
  simpa using WellFormed.element hname.1 hname.2 hproperties hcontent .nil

/-- A void tag. -/
theorem wellFormed_void (name : Text) (properties : List Property) (hname : name ∈ voidElements)
    (hproperties : AreSafe properties) :
    WellFormed (openTag name properties) := by
  simpa using WellFormed.void hname hproperties .nil

/-! ### Values -/

/-- A value after a value. -/
theorem IsValue.append {s t : Text} (hs : IsValue s) (ht : IsValue t) : IsValue (s ++ t) :=
  List.forall_mem_append.2 ⟨hs, ht⟩

/-- A value is plain text. -/
theorem IsValue.isPlainText {s : Text} (h : IsValue s) : IsPlainText s := fun c hc => (h c hc).2

/-- **An escaped text** has no quotes and no angle brackets. -/
theorem isValue_escapeHtml (s : Text) : IsValue (escapeHtml s) := by
  intro c hc
  obtain ⟨d, -, hd⟩ := List.mem_flatMap.1 hc
  unfold escapeHtmlChar at hd
  split at hd
  · exact (by decide : IsValue "&amp;".toList) c hd
  · exact (by decide : IsValue "&lt;".toList) c hd
  · exact (by decide : IsValue "&gt;".toList) c hd
  · exact (by decide : IsValue "&quot;".toList) c hd
  · next hlt hgt hquot =>
    obtain rfl : c = d := by simpa using hd
    exact ⟨hquot, hlt, hgt⟩

/-- The digits of a number. -/
theorem isValue_decimal (n : Nat) : IsValue (Text.decimal n) := by
  intro c hc
  have hdigit := Text.isDigit_of_mem_decimal hc
  refine ⟨?_, ?_, ?_⟩ <;> rintro rfl <;> simp at hdigit

/-- A character that escaping leaves alone is neither a quote nor an angle bracket. -/
theorem isValueChar_of_isHtmlSpecial_eq_false {c : Char} (h : isHtmlSpecial c = false) :
    IsValueChar c := by
  simp only [isHtmlSpecial, Bool.or_eq_false_iff, beq_eq_false_iff_ne] at h
  obtain ⟨⟨⟨-, hlt⟩, hgt⟩, hquot⟩ := h
  exact ⟨hquot, hlt, hgt⟩

/-! ### Safe properties -/

/-- A tag without properties. -/
theorem areSafe_nil : AreSafe [] := by
  intro property h
  simp at h

/-- A property with a value is safe, in front of others that are. -/
theorem AreSafe.cons {properties : List Property} (h : AreSafe properties) (name : Text)
    {value : Text} (hname : IsName name) (hvalue : IsValue value) :
    AreSafe (⟨name, some value⟩ :: properties) := by
  refine List.forall_mem_cons.2 ⟨⟨hname, ?_⟩, h⟩
  rintro _ ⟨⟩
  exact hvalue

/-! ### Trimming -/

/-- A blank character is text. -/
theorem isPlain_of_isBlank {c : Char} (h : isBlank c = true) : IsPlain c := by
  constructor <;> rintro rfl <;> simp [isBlank] at h

/-- Well-formed markup without a blank character at its start. -/
theorem WellFormed.of_cons {c : Char} {s : Text} (h : WellFormed (c :: s)) (hc : isBlank c = true) :
    WellFormed s := by
  have hplain := isPlain_of_isBlank hc
  generalize ht : c :: s = t at h
  cases h with
  | nil => simp at ht
  | text _ hrest =>
    obtain ⟨-, rfl⟩ := List.cons.inj ht
    exact hrest
  | void =>
    obtain ⟨rfl, -⟩ := List.cons.inj ht
    exact absurd rfl hplain.1
  | element =>
    obtain ⟨rfl, -⟩ := List.cons.inj ht
    exact absurd rfl hplain.1

/-- A plain character at the end of what follows a tag: it is the end of the rest. -/
theorem exists_concat_of_concat_eq (tag : Text) {rest s : Text} {c : Char} (hc : IsPlain c)
    (h : s ++ [c] = tag ++ ['>'] ++ rest) :
    ∃ rest', rest = rest' ++ [c] ∧ s = tag ++ ['>'] ++ rest' := by
  rcases List.eq_nil_or_concat rest with rfl | ⟨rest', d, rfl⟩
  · rw [List.append_nil] at h
    obtain ⟨-, hlast⟩ := List.append_inj' h rfl
    exact absurd (List.cons.inj hlast).1 hc.2
  · rw [List.concat_eq_append, ← List.append_assoc] at h
    obtain ⟨rfl, hlast⟩ := List.append_inj' h rfl
    obtain ⟨rfl, -⟩ := List.cons.inj hlast
    exact ⟨rest', by simp, rfl⟩

/-- Well-formed markup without a blank character at its end. -/
theorem WellFormed.of_concat {c : Char} {s : Text} (h : WellFormed (s ++ [c]))
    (hc : isBlank c = true) : WellFormed s := by
  have hplain := isPlain_of_isBlank hc
  generalize ht : s ++ [c] = t at h
  induction h generalizing s with
  | nil => simp at ht
  | text hd _ ih =>
    cases s with
    | nil => exact .nil
    | cons d s =>
      obtain ⟨rfl, rfl⟩ := List.cons.inj ht
      exact .text hd (ih rfl)
  | @void name properties rest hname hproperties _ ih =>
    obtain ⟨rest', rfl, rfl⟩ := exists_concat_of_concat_eq
      ('<' :: (name ++ properties.flatMap Property.text)) hplain (by simpa [openTag] using ht)
    simpa [openTag] using WellFormed.void hname hproperties (ih rfl)
  | @element name properties content rest hname hvoid hproperties hcontent _ _ ih =>
    obtain ⟨rest', rfl, rfl⟩ := exists_concat_of_concat_eq
      (openTag name properties ++ content ++ "</".toList ++ name) hplain
      (by simpa [closeTag] using ht)
    simpa [closeTag] using WellFormed.element hname hvoid hproperties hcontent (ih rfl)

/-- Well-formed markup without blank characters at its start. -/
theorem WellFormed.of_blank_append {blank s : Text} (h : WellFormed (blank ++ s))
    (hblank : ∀ c ∈ blank, isBlank c = true) : WellFormed s := by
  induction blank with
  | nil => exact h
  | cons c blank ih =>
    obtain ⟨hc, hrest⟩ := List.forall_mem_cons.1 hblank
    exact ih (h.of_cons hc) hrest

/-- Well-formed markup without blank characters at its end. -/
theorem WellFormed.of_append_blank {s blank : Text} (h : WellFormed (s ++ blank))
    (hblank : ∀ c ∈ blank, isBlank c = true) : WellFormed s := by
  induction blank generalizing s with
  | nil => simpa using h
  | cons c blank ih =>
    obtain ⟨hc, hrest⟩ := List.forall_mem_cons.1 hblank
    exact (ih (s := s ++ [c]) (by simpa using h) hrest).of_concat hc

/-- **Trimming at the end** takes nothing but text. -/
theorem WellFormed.trimEnd {s : Text} (h : WellFormed s) : WellFormed (Text.trimEnd s) := by
  obtain ⟨blank, hs, hblank⟩ := Text.exists_trimEnd_append s
  rw [hs] at h
  exact h.of_append_blank hblank

/-- **Trimming** takes nothing but text. -/
theorem WellFormed.trim {s : Text} (h : WellFormed s) : WellFormed (Text.trim s) := by
  obtain ⟨blank, hs, hblank⟩ := Text.exists_append_trimStart s
  rw [hs] at h
  exact (h.of_blank_append hblank).trimEnd

/-! ### Splicing -/

/-- The characters of a name. -/
theorem IsName.isPlain {name : Text} (h : IsName name) : ∀ c ∈ name, c ≠ '/' ∧ IsPlain c := by
  intro c hc
  have halphanum := List.all_eq_true.1 h.2 c hc
  refine ⟨?_, ?_, ?_⟩ <;> rintro rfl <;> simp at halphanum

/-- The names of void elements. -/
theorem isName_of_mem_voidElements {name : Text} (h : name ∈ voidElements) : IsName name :=
  (by decide : ∀ name ∈ voidElements, IsName name) name h

/-- A property has no angle brackets. -/
theorem Property.IsSafe.isPlain {property : Property} (h : property.IsSafe) :
    ∀ c ∈ property.text, IsPlain c := by
  obtain ⟨hname, hvalue⟩ := h
  intro c hc
  cases hv : property.value with
  | none =>
    simp only [Property.text, hv, List.append_nil, List.mem_cons] at hc
    rcases hc with rfl | hc
    · decide
    · exact (hname.isPlain c hc).2
  | some value =>
    simp [Property.text, hv] at hc
    rcases hc with rfl | hc | rfl | rfl | hc | rfl <;> try decide
    · exact (hname.isPlain c hc).2
    · exact (hvalue value hv c hc).2

/-- A tag has no opening bracket but its first character. -/
theorem bracket_not_mem_tag {name : Text} {properties : List Property} (hname : IsName name)
    (hproperties : AreSafe properties) :
    '<' ∉ name ++ properties.flatMap Property.text ++ ['>'] := by
  intro h
  simp only [List.mem_append, List.mem_flatMap, List.mem_cons, List.not_mem_nil, or_false] at h
  rcases h with (h | ⟨property, hmem, h⟩) | h
  · exact (hname.isPlain _ h).2.1 rfl
  · exact ((hproperties property hmem).isPlain _ h).1 rfl
  · exact absurd h (by decide)

/-- A close tag has no opening bracket but its first character. -/
theorem bracket_not_mem_closeTag {name : Text} (hname : IsName name) :
    '<' ∉ '/' :: (name ++ ['>']) := by
  simpa using fun h => (hname.isPlain _ h).2.1 rfl

/-- A close tag does not start inside a void tag. -/
theorem closeTag_not_in_openTag {name tag head between rest : Text} {properties : List Property}
    (hname : IsName name) (htag : IsName tag)
    (hproperties : AreSafe properties)
    (hopen : openTag tag properties = head ++ '<' :: between)
    (hclose : '/' :: (name ++ ['>']) = between ++ rest) : False := by
  have hbetween : '<' ∉ between := fun h =>
    bracket_not_mem_closeTag hname (hclose ▸ List.mem_append_left _ h)
  obtain ⟨-, rfl⟩ := Text.append_cons_inj_of_last (s := []) hopen
    (bracket_not_mem_tag htag hproperties) hbetween
  obtain ⟨c, tail, rfl⟩ := List.exists_cons_of_ne_nil htag.1
  obtain ⟨rfl, -⟩ := List.cons.inj hclose
  exact absurd rfl (htag.isPlain '/' (by simp)).1

/-- A close tag that starts with a close tag is that one. -/
theorem eq_of_closeTag_append {name name' rest : Text} (hname : IsName name)
    (hname' : IsName name') (h : name ++ ['>'] = name' ++ '>' :: rest) :
    name = name' ∧ rest = [] := by
  have hplain : ∀ {n : Text}, IsName n → ∀ c ∈ n, (c != '>') = true := fun hn c hc => by
    simpa using (hn.isPlain c hc).2.2
  have hread := congrArg (List.takeWhile (· != '>')) h
  rw [Text.takeWhile_append_of_head (hplain hname) (by simp),
    Text.takeWhile_append_of_head (hplain hname') (by simp)] at hread
  subst hread
  simpa [eq_comm] using List.append_cancel_left h

/-- **Markup goes in before a final close tag**: the tag closes the last element of the markup. -/
theorem WellFormed.splice (name : Text) {head insert : Text}
    (h : WellFormed (head ++ closeTag name)) (hname : IsName name) (hinsert : WellFormed insert) :
    WellFormed (head ++ insert ++ closeTag name) := by
  have hclose : closeTag name = '<' :: '/' :: (name ++ ['>']) := rfl
  generalize ht : head ++ closeTag name = t at h
  induction h generalizing head with
  | nil => simp [hclose] at ht
  | text hc _ ih =>
    cases head with
    | nil =>
      obtain ⟨rfl, -⟩ := List.cons.inj ht
      exact absurd rfl hc.1
    | cons d head =>
      obtain ⟨rfl, rfl⟩ := List.cons.inj ht
      exact .text hc (ih rfl)
  | @void tag properties rest hvoid hproperties _ ih =>
    rw [hclose] at ht
    rcases Text.append_cons_eq_append ht with ⟨between, rfl, rfl⟩ | ⟨between, hopen, htail⟩
    · simpa [List.append_assoc] using WellFormed.void hvoid hproperties (ih rfl)
    · exact (closeTag_not_in_openTag hname (isName_of_mem_voidElements hvoid) hproperties hopen
        htail).elim
  | @element tag properties content rest htag hvoid hproperties hcontent _ _ ih =>
    rw [hclose] at ht
    rcases Text.append_cons_eq_append ht with ⟨between, rfl, rfl⟩ | ⟨between, helement, htail⟩
    · simpa [List.append_assoc] using WellFormed.element htag hvoid hproperties hcontent (ih rfl)
    · -- the last opening bracket of the element is that of its own close tag
      have hbetween : '<' ∉ between := fun h =>
        bracket_not_mem_closeTag hname (htail ▸ List.mem_append_left _ h)
      obtain ⟨rfl, rfl⟩ := Text.append_cons_inj_of_last (u := '/' :: (tag ++ ['>'])) helement
        (bracket_not_mem_closeTag htag) hbetween
      have hnames : name ++ ['>'] = tag ++ '>' :: rest := by simpa using htail
      obtain ⟨rfl, rfl⟩ := eq_of_closeTag_append hname htag hnames
      have hmore := (hcontent.append hinsert).enclose name properties ⟨hname, hvoid⟩ hproperties
      simpa [List.append_assoc] using hmore

end Lectern.Markup
