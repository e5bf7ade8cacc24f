import Lectern.Proofs.Markup.Reading

/-!
# Reading Quoted Values

Markup as a reader takes it who knows quotes: in a tag, a double quote opens a value and the next
one closes it, and a tag ends at the first closing bracket outside values. So the values of a tag
may have brackets, but no quotes. The reader goes through a markup character by character, and what
is appended to a markup is read for itself if the reader stands between tags behind it.

* `Reader` — the tags read so far, and where the reader stands.
* `StandsQuoted` — a text that leaves a reader in the value in which it stands.
* `HasTags` — a markup that is read to its end, with its tags.

## Main results

* `hasTags_iff`: the tags of a markup are those that a reader finds in it.
* `hasTags_openTag`: a tag whose values have no quotes is one tag.
* `HasTags.trim`, `HasTags.trimEnd`: trimming takes no tags.
* `HasTags.of_append_closeTag`: what stands before a final close tag.
-/

namespace Lectern.Markup

open Unicode (isBlank)

/-- Where a reader stands, with what it has read of an open tag. -/
inductive Spot where
  | text
  | tag (front : Text)
  | value (front : Text)
  /-- A tag has begun in another one. -/
  | lost
deriving DecidableEq, Repr

/-- A **reader** of markup. -/
structure Reader where
  /-- The tags read so far, each as the text between its brackets. -/
  tags : List Text := []
  spot : Spot := .text
deriving DecidableEq, Repr

namespace Reader

/-- The reader after one character. -/
def step : Reader → Char → Reader
  | ⟨tags, .text⟩, c => if c = '<' then ⟨tags, .tag []⟩ else ⟨tags, .text⟩
  | ⟨tags, .tag front⟩, c =>
    if c = '"' then ⟨tags, .value (front ++ [c])⟩
    else if c = '>' then ⟨tags ++ [front], .text⟩
    else if c = '<' then ⟨tags, .lost⟩
    else ⟨tags, .tag (front ++ [c])⟩
  | ⟨tags, .value front⟩, c =>
    if c = '"' then ⟨tags, .tag (front ++ [c])⟩ else ⟨tags, .value (front ++ [c])⟩
  | ⟨tags, .lost⟩, _ => ⟨tags, .lost⟩

/-- The reader after a text. -/
def read (r : Reader) (s : Text) : Reader := s.foldl step r

variable {r : Reader} {s : Text} {c : Char}

/-- Nothing is read. -/
@[simp] theorem read_nil (r : Reader) : r.read [] = r := rfl

/-- A character before a text. -/
theorem read_cons (r : Reader) (c : Char) (s : Text) : r.read (c :: s) = (r.step c).read s := rfl

/-- A text after a text. -/
theorem read_append (r : Reader) (s t : Text) : r.read (s ++ t) = (r.read s).read t :=
  List.foldl_append

/-- The tags read before do not matter. -/
theorem read_tags_append (earlier tags : List Text) (spot : Spot) (s : Text) :
    read ⟨earlier ++ tags, spot⟩ s =
      ⟨earlier ++ (read ⟨tags, spot⟩ s).tags, (read ⟨tags, spot⟩ s).spot⟩ := by
  induction s generalizing tags spot with
  | nil => rfl
  | cons c s ih =>
    have hstep : step ⟨earlier ++ tags, spot⟩ c =
        ⟨earlier ++ (step ⟨tags, spot⟩ c).tags, (step ⟨tags, spot⟩ c).spot⟩ := by
      cases spot with
      | lost => rfl
      | _ =>
        simp only [step]
        repeat' split
        all_goals simp
    rw [read_cons, hstep]
    exact ih _ _

/-- Between tags, text is passed over. -/
theorem read_text (tags : List Text) (h : '<' ∉ s) : read ⟨tags, .text⟩ s = ⟨tags, .text⟩ := by
  induction s with
  | nil => rfl
  | cons c s ih =>
    obtain ⟨hc, hs⟩ := List.ne_and_not_mem_of_not_mem_cons h
    rw [read_cons, step, if_neg hc.symm]
    exact ih hs

/-- In a tag, what has neither quotes nor brackets is read on. -/
theorem read_tag (tags : List Text) (front : Text) (h : IsValue s) :
    read ⟨tags, .tag front⟩ s = ⟨tags, .tag (front ++ s)⟩ := by
  induction s generalizing front with
  | nil => simp
  | cons c s ih =>
    obtain ⟨⟨hquote, hopen, hclose⟩, hs⟩ := List.forall_mem_cons.1 h
    rw [read_cons, step, if_neg hquote, if_neg hclose, if_neg hopen]
    simpa using ih (front ++ [c]) hs

/-- In a value, what has no quotes is read on. -/
theorem read_value (tags : List Text) (front : Text) (h : '"' ∉ s) :
    read ⟨tags, .value front⟩ s = ⟨tags, .value (front ++ s)⟩ := by
  induction s generalizing front with
  | nil => simp
  | cons c s ih =>
    obtain ⟨hc, hs⟩ := List.ne_and_not_mem_of_not_mem_cons h
    rw [read_cons, step, if_neg hc.symm]
    simpa using ih (front ++ [c]) hs

/-- A reader that is lost stays so. -/
theorem read_lost (tags : List Text) (s : Text) : read ⟨tags, .lost⟩ s = ⟨tags, .lost⟩ := by
  induction s with
  | nil => rfl
  | cons c s ih => exact ih

/-- A blank character is read only between tags without leaving a trace; elsewhere the reader stays
within the tag. -/
theorem eq_of_step_blank (hc : isBlank c = true) (h : (r.step c).spot = .text) : r.step c = r := by
  obtain ⟨hopen, hclose⟩ := isPlain_of_isBlank hc
  have hquote : c ≠ '"' := by
    rintro rfl
    simp [isBlank] at hc
  obtain ⟨tags, spot⟩ := r
  cases spot <;> simp_all [step]

/-- A reader that is between tags behind blank characters was there before them. -/
theorem eq_of_read_blank {blank : Text} (hblank : ∀ c ∈ blank, isBlank c = true)
    (h : (r.read blank).spot = .text) : r.read blank = r := by
  induction blank generalizing r with
  | nil => rfl
  | cons c blank ih =>
    obtain ⟨hc, hrest⟩ := List.forall_mem_cons.1 hblank
    have hread := @ih (r.step c) hrest h
    have hspot : (r.step c).spot = .text := by
      rw [← hread]
      exact h
    exact hread.trans (eq_of_step_blank hc hspot)

end Reader

open Reader

variable {tags more : List Text} {s t name : Text} {properties : List Property}

/-! ### Values -/

/-- Whether a text **stands in a value** of a tag: a reader in the value reads it on. -/
def StandsQuoted (s : Text) : Prop :=
  ∀ tags front, read ⟨tags, .value front⟩ s = ⟨tags, .value (front ++ s)⟩

/-- A text without quotes stands in a value. -/
theorem standsQuoted_of_not_mem (h : '"' ∉ s) : StandsQuoted s :=
  fun tags front => read_value tags front h

/-- A quoted text in a tag is a value. -/
theorem StandsQuoted.read (h : StandsQuoted s) (tags : List Text) (front : Text) :
    read ⟨tags, .tag front⟩ ('"' :: (s ++ ['"'])) =
      ⟨tags, .tag (front ++ '"' :: (s ++ ['"']))⟩ := by
  have hopen : step ⟨tags, .tag front⟩ '"' = ⟨tags, .value (front ++ ['"'])⟩ := rfl
  rw [read_cons, hopen, read_append, h, read_cons]
  simp [step]

/-- Texts that stand in a value do so together. -/
theorem StandsQuoted.append (hs : StandsQuoted s) (ht : StandsQuoted t) :
    StandsQuoted (s ++ t) := fun tags front => by
  rw [read_append, hs, ht, List.append_assoc]

/-- The characters of a name are neither quotes nor brackets. -/
theorem IsName.isValue (h : IsName name) : IsValue name := fun c hc =>
  ⟨fun heq => h.not_mem (by decide) (heq ▸ hc), (h.isPlain c hc).2⟩

/-- **The properties of a tag** are read on as a whole. -/
theorem read_properties (tags : List Text) (front : Text) {properties : List Property}
    (h : AreQuoted properties) :
    read ⟨tags, .tag front⟩ (properties.flatMap Property.text) =
      ⟨tags, .tag (front ++ properties.flatMap Property.text)⟩ := by
  induction properties generalizing front with
  | nil => simp
  | cons property properties ih =>
    obtain ⟨⟨hname, hvalue⟩, hrest⟩ := List.forall_mem_cons.1 h
    obtain ⟨name, value⟩ := property
    have hblank : IsValue [' '] := by decide
    have hflag : IsValue (' ' :: name) := hblank.append hname.isValue
    have hproperty : read ⟨tags, .tag front⟩ (Property.text ⟨name, value⟩) =
        ⟨tags, .tag (front ++ Property.text ⟨name, value⟩)⟩ := by
      cases value with
      | none => simpa [Property.text] using read_tag tags front hflag
      | some value =>
        have hequals : IsValue ['='] := by decide
        have htext : Property.text ⟨name, some value⟩ =
            (' ' :: name ++ ['=']) ++ '"' :: (value ++ ['"']) := by
          simp [Property.text]
        rw [htext, read_append, read_tag tags front (hflag.append hequals),
          (standsQuoted_of_not_mem (hvalue value rfl)).read]
        simp
    rw [List.flatMap_cons, read_append, hproperty, ih _ hrest, List.append_assoc]

/-- A value in a value: outside quotes stands what was meant to stand in them, which has no
brackets. -/
theorem standsQuoted_quoted (h : IsValue s) : StandsQuoted ('"' :: (s ++ ['"'])) := by
  intro tags front
  have hclose : step ⟨tags, .value front⟩ '"' = ⟨tags, .tag (front ++ ['"'])⟩ := rfl
  rw [read_cons, hclose, read_append, read_tag tags _ h, read_cons]
  simp [step]

/-- **A tag with safe properties** stands in a value. -/
theorem standsQuoted_openTag (hname : IsName name) (hproperties : AreSafe properties) :
    StandsQuoted (openTag name properties) := by
  have hnames : ∀ {n : Text}, IsName n → '"' ∉ n := fun hn => hn.isValue.quote_not_mem
  have hproperty : ∀ property : Property, property.IsSafe → StandsQuoted property.text := by
    rintro ⟨key, value⟩ ⟨hkey, hvalue⟩
    cases value with
    | none => exact standsQuoted_of_not_mem (by simpa [Property.text] using hnames hkey)
    | some value =>
      have hlead : '"' ∉ ' ' :: key ++ ['='] := by simpa using hnames hkey
      have htext : Property.text ⟨key, some value⟩ =
          (' ' :: key ++ ['=']) ++ '"' :: (value ++ ['"']) := by
        simp [Property.text]
      rw [htext]
      exact (standsQuoted_of_not_mem hlead).append (standsQuoted_quoted (hvalue value rfl))
  have hall : StandsQuoted (properties.flatMap Property.text) := by
    induction properties with
    | nil => exact standsQuoted_of_not_mem (by simp)
    | cons property properties ih =>
      obtain ⟨hfirst, hrest⟩ := List.forall_mem_cons.1 hproperties
      exact (hproperty property hfirst).append (ih hrest)
  have hopen : '"' ∉ '<' :: name := by simpa using hnames hname
  have hsplit : openTag name properties =
      ('<' :: name) ++ properties.flatMap Property.text ++ ['>'] := by
    simp [openTag]
  rw [hsplit]
  exact ((standsQuoted_of_not_mem hopen).append hall).append
    (standsQuoted_of_not_mem (by decide))

/-! ### Tags -/

/-- Whether a markup is **read to its end**, and has the given tags. -/
def HasTags (tags : List Text) (s : Text) : Prop :=
  ∀ earlier, Reader.read ⟨earlier, .text⟩ s = ⟨earlier ++ tags, .text⟩

/-- **The tags of a markup** are those that a reader finds in it. -/
theorem hasTags_iff : HasTags tags s ↔ Reader.read {} s = ⟨tags, .text⟩ := by
  refine ⟨fun h => h [], fun h earlier => ?_⟩
  have hframe := read_tags_append earlier [] .text s
  rw [List.append_nil] at hframe
  rw [hframe, h]

/-- Markup behind markup that is read to its end. -/
theorem HasTags.append (hs : HasTags tags s) (ht : HasTags more t) :
    HasTags (tags ++ more) (s ++ t) := fun earlier => by
  rw [read_append, hs, ht, List.append_assoc]

/-- Text has no tags. -/
theorem hasTags_text (h : '<' ∉ s) : HasTags [] s := fun earlier => by
  rw [read_text earlier h, List.append_nil]

/-- A bracket, something in which no quotes are open, and a bracket. -/
theorem hasTags_bracket {tag : Text}
    (h : ∀ earlier, Reader.read ⟨earlier, .tag []⟩ tag = ⟨earlier, .tag tag⟩) :
    HasTags [tag] ('<' :: (tag ++ ['>'])) := fun earlier => by
  have hopen : step ⟨earlier, .text⟩ '<' = ⟨earlier, .tag []⟩ := rfl
  rw [read_cons, hopen, read_append, h]
  rfl

/-- **A tag** whose values have no quotes is one tag. -/
theorem hasTags_openTag (hname : IsName name) (hproperties : AreQuoted properties) :
    HasTags [name ++ properties.flatMap Property.text] (openTag name properties) := by
  refine hasTags_bracket fun earlier => ?_
  rw [read_append, read_tag earlier [] hname.isValue]
  exact read_properties earlier _ hproperties

/-- A close tag. -/
theorem hasTags_closeTag (hname : IsName name) : HasTags ['/' :: name] (closeTag name) := by
  have hslash : IsValue ['/'] := by decide
  exact hasTags_bracket fun earlier => read_tag earlier [] (hslash.append hname.isValue)

/-- **Trimming at the end** takes no tags. -/
theorem HasTags.trimEnd (h : HasTags tags s) : HasTags tags (Text.trimEnd s) := by
  obtain ⟨blank, hs, hblank⟩ := Text.exists_trimEnd_append s
  rw [hasTags_iff, hs, read_append] at h
  rw [hasTags_iff, ← h]
  exact (eq_of_read_blank hblank (by rw [h])).symm

/-- **Trimming** takes no tags. -/
theorem HasTags.trim (h : HasTags tags s) : HasTags tags (Text.trim s) := by
  obtain ⟨blank, hs, hblank⟩ := Text.exists_append_trimStart s
  have hplain : '<' ∉ blank := fun hmem => (isPlain_of_isBlank (hblank _ hmem)).1 rfl
  rw [hasTags_iff, hs, read_append, read_text [] hplain, ← hasTags_iff] at h
  exact h.trimEnd

/-- **What stands before a final close tag** is read to its end: the tag does not begin in a value
or in another tag. -/
theorem HasTags.of_append_closeTag (h : HasTags tags (s ++ closeTag name)) (hname : IsName name) :
    ∃ before, tags = before ++ ['/' :: name] ∧ HasTags before s := by
  rw [hasTags_iff, read_append] at h
  generalize hr : read {} s = r at h
  obtain ⟨before, spot⟩ := r
  have hclose : closeTag name = '<' :: ('/' :: name ++ ['>']) := by simp [closeTag]
  cases spot with
  | text =>
    rw [hasTags_closeTag hname] at h
    obtain ⟨rfl, -⟩ := Reader.mk.inj h
    exact ⟨before, rfl, hasTags_iff.2 hr⟩
  | tag front =>
    have hlost : step ⟨before, .tag front⟩ '<' = ⟨before, .lost⟩ := rfl
    rw [hclose, read_cons, hlost, read_lost] at h
    cases h
  | value front =>
    have hquote : '"' ∉ closeTag name := by
      rw [hclose]
      simpa using hname.not_mem (by decide)
    rw [read_value before front hquote] at h
    cases h
  | lost =>
    rw [read_lost] at h
    cases h

end Lectern.Markup
