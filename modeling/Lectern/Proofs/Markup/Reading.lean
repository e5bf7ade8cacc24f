import Lectern.Proofs.Markup.WellFormed

/-!
# Reading Markup

What a reader of a page finds in it: its tags, and in a tag what links are made of, the id of the
element, the target of the link and the class. Markup is read from left to right, so what is
appended to it is read for itself if no tag is open: that is so behind well-formed markup, and
before every tag in it.

## Main results

* `IsClosed.anchors_append`: the anchors of markup behind closed markup.
* `anchors_openTag_append`, `anchors_closeTag_append`: the anchors of a tag in front of markup.
* `readTag_properties`: a tag is read back from its properties.
* `WellFormed.anchors_trim`: trimming takes no anchors.
-/

namespace Lectern.Markup

open Unicode (isBlank)

/-- The **tags** of a markup, each as the text between its brackets. -/
def tags : Text → List Text
  | [] => []
  | c :: rest => if c = '<' then rest.takeWhile (· != '>') :: tags rest else tags rest

/-- The quoted ones among pieces that were cut at double quotes, each with the piece before it. -/
def quotedPieces : List Text → List (Text × Text)
  | lead :: value :: pieces => (lead, value) :: quotedPieces pieces
  | _ => []

/-- The value of the property `key` in a tag: what is quoted behind its name and an equals sign. -/
def value? (key tag : Text) : Option Text :=
  ((quotedPieces (Text.splitOnChar '"' tag)).find? fun piece =>
    Text.endsWith piece.1 (' ' :: (key ++ ['=']))).map (·.2)

/-- What a tag has to do with links. -/
structure Anchor where
  /-- The id that links can lead to. -/
  id : Option Text
  /-- The target of the link. -/
  href : Option Text
  /-- The class. -/
  kind : Option Text
deriving DecidableEq, Repr

/-- The anchor of a tag. -/
def readTag (tag : Text) : Anchor where
  id := value? "id".toList tag
  href := value? "href".toList tag
  kind := value? "class".toList tag

/-- The **anchors** of a markup, one for each of its tags. -/
def anchors (s : Text) : List Anchor := (tags s).map readTag

example : anchors "<p>1 &lt; 2 <a href=\"#x\" class=\"y\">".toList =
    [⟨none, none, none⟩, ⟨none, some "#x".toList, some "y".toList⟩] := by
  decide +kernel

/-! ### Tags -/

/-- Text is not read. -/
theorem tags_append_of_isPlainText {s : Text} (h : IsPlainText s) (t : Text) :
    tags (s ++ t) = tags t := by
  induction s with
  | nil => rfl
  | cons c s ih =>
    obtain ⟨hc, hs⟩ := List.forall_mem_cons.1 h
    rw [List.cons_append, tags, if_neg hc.1, ih hs]

/-- **A tag** is read up to its closing bracket. -/
theorem tags_bracket_append {tag : Text} (h : IsPlainText tag) (t : Text) :
    tags ('<' :: (tag ++ '>' :: t)) = tag :: tags t := by
  have hread : (tag ++ '>' :: t).takeWhile (· != '>') = tag :=
    Text.takeWhile_append_of_head (fun c hc => by simpa using (h c hc).2) (by simp)
  rw [tags, if_pos rfl, hread, tags_append_of_isPlainText h, tags, if_neg (by decide)]

/-- The text between the brackets of a tag with safe properties. -/
theorem isPlainText_tag {name : Text} {properties : List Property} (hname : IsName name)
    (hproperties : AreSafe properties) :
    IsPlainText (name ++ properties.flatMap Property.text) := by
  refine List.forall_mem_append.2 ⟨fun c hc => (hname.isPlain c hc).2, fun c hc => ?_⟩
  obtain ⟨property, hmem, hc⟩ := List.mem_flatMap.1 hc
  exact (hproperties property hmem).isPlain c hc

/-- An open tag before other markup. -/
theorem tags_openTag_append {name : Text} {properties : List Property} (hname : IsName name)
    (hproperties : AreSafe properties) (t : Text) :
    tags (openTag name properties ++ t) =
      (name ++ properties.flatMap Property.text) :: tags t := by
  rw [← tags_bracket_append (isPlainText_tag hname hproperties)]
  simp [openTag]

/-- A close tag before other markup. -/
theorem tags_closeTag_append {name : Text} (hname : IsName name) (t : Text) :
    tags (closeTag name ++ t) = ('/' :: name) :: tags t := by
  have hplain : IsPlainText ('/' :: name) :=
    List.forall_mem_cons.2 ⟨by decide, fun c hc => (hname.isPlain c hc).2⟩
  rw [← tags_bracket_append hplain]
  simp [closeTag]

/-! ### Markup behind markup -/

/-- Whether markup behind a text is read for itself: no tag of the text is open. -/
def IsClosed (s : Text) : Prop := ∀ t, tags (s ++ t) = tags s ++ tags t

/-- Closed markup behind closed markup. -/
theorem IsClosed.append {s t : Text} (hs : IsClosed s) (ht : IsClosed t) : IsClosed (s ++ t) := by
  intro u
  rw [List.append_assoc, hs, ht, hs t, List.append_assoc]

/-- Text is closed. -/
theorem isClosed_of_isPlainText {s : Text} (h : IsPlainText s) : IsClosed s := by
  intro t
  have hs := tags_append_of_isPlainText h []
  rw [List.append_nil] at hs
  rw [tags_append_of_isPlainText h, hs]
  rfl

/-- An open tag is closed by its bracket. -/
theorem isClosed_openTag {name : Text} {properties : List Property} (hname : IsName name)
    (hproperties : AreSafe properties) : IsClosed (openTag name properties) := by
  intro t
  have hself := tags_openTag_append hname hproperties []
  rw [List.append_nil] at hself
  rw [tags_openTag_append hname hproperties, hself]
  rfl

/-- A close tag is closed by its bracket. -/
theorem isClosed_closeTag {name : Text} (hname : IsName name) : IsClosed (closeTag name) := by
  intro t
  have hself := tags_closeTag_append hname []
  rw [List.append_nil] at hself
  rw [tags_closeTag_append hname, hself]
  rfl

/-- **Well-formed markup is closed.** -/
theorem WellFormed.isClosed {s : Text} (h : WellFormed s) : IsClosed s := by
  induction h with
  | nil => exact fun _ => rfl
  | text hc _ ih => exact (isClosed_of_isPlainText (List.forall_mem_singleton.2 hc)).append ih
  | void hname hproperties _ ih =>
    exact (isClosed_openTag (isName_of_mem_voidElements hname) hproperties).append ih
  | element hname _ hproperties _ _ ihcontent ih =>
    exact (((isClosed_openTag hname hproperties).append ihcontent).append
      (isClosed_closeTag hname)).append ih

/-- **Well-formed markup is closed before each of its tags.** -/
theorem WellFormed.isClosed_before_tag {s rest : Text} (h : WellFormed (s ++ '<' :: rest)) :
    IsClosed s := by
  have hnil : IsClosed [] := fun _ => rfl
  generalize ht : s ++ '<' :: rest = t at h
  induction h generalizing s rest with
  | nil => simp at ht
  | text hc _ ih =>
    cases s with
    | nil => exact hnil
    | cons d s =>
      obtain ⟨rfl, rfl⟩ := List.cons.inj ht
      exact (isClosed_of_isPlainText (List.forall_mem_singleton.2 hc)).append (ih rfl)
  | @void tag properties behind hvoid hproperties _ ih =>
    have htag := isName_of_mem_voidElements hvoid
    rcases Text.append_cons_eq_append ht with ⟨between, rfl, rfl⟩ | ⟨between, hopen, -⟩
    · exact (isClosed_openTag htag hproperties).append (ih rfl)
    · -- a tag has no opening bracket but its first character
      obtain rfl := Text.eq_nil_of_cons_eq_append_cons hopen (bracket_not_mem_tag htag hproperties)
      exact hnil
  | @element tag properties content behind htag _ hproperties hcontent _ ihcontent ih =>
    have hopened := isClosed_openTag htag hproperties
    have hfilled := hopened.append hcontent.isClosed
    rcases Text.append_cons_eq_append ht with ⟨between, rfl, rfl⟩ | ⟨between, helement, -⟩
    · exact (hfilled.append (isClosed_closeTag htag)).append (ih rfl)
    rcases Text.append_cons_eq_append helement.symm with
      ⟨between, rfl, hclose⟩ | ⟨between, hfront, -⟩
    · obtain rfl := Text.eq_nil_of_cons_eq_append_cons hclose (bracket_not_mem_closeTag htag)
      simpa using hfilled
    rcases Text.append_cons_eq_append hfront.symm with
      ⟨between, rfl, hinside⟩ | ⟨between, hopen, -⟩
    · exact hopened.append (ihcontent hinside.symm)
    · obtain rfl := Text.eq_nil_of_cons_eq_append_cons hopen (bracket_not_mem_tag htag hproperties)
      exact hnil

/-! ### Properties -/

/-- A character that is no letter and no digit is not in a name. -/
theorem IsName.not_mem {name : Text} (h : IsName name) {c : Char} (hc : c.isAlphanum = false) :
    c ∉ name := by
  intro hmem
  rw [List.all_eq_true.1 h.2 c hmem] at hc
  exact absurd hc (by decide)

/-- A lead ends with the name of the property that it leads to. -/
theorem endsWith_lead_iff (lead : Text) {name key : Text} (hname : IsName name)
    (hkey : IsName key) :
    Text.endsWith (lead ++ ' ' :: (name ++ ['='])) (' ' :: (key ++ ['='])) = true ↔
      name = key := by
  have hspace : ∀ {n : Text}, IsName n → ' ' ∉ n ++ ['='] := fun hn =>
    List.not_mem_append (hn.not_mem (by decide)) (by decide)
  rw [Text.endsWith_iff]
  constructor
  · rintro ⟨front, h⟩
    exact (List.append_cancel_right
      (Text.append_cons_inj_of_last h (hspace hkey) (hspace hname)).2).symm
  · rintro rfl
    exact List.suffix_append _ _

/-- The value of a property, if it is the one with the name. -/
def Property.value? (key : Text) (property : Property) : Option Text :=
  if property.name = key then property.value else none

/-- Whether the values of properties end at the quotes that they are written in: brackets may stand
in them. -/
def AreQuoted (properties : List Property) : Prop :=
  ∀ property ∈ properties, IsName property.name ∧ ∀ value ∈ property.value, '"' ∉ value

/-- A tag without properties. -/
theorem areQuoted_nil : AreQuoted [] := by
  intro property h
  simp at h

/-- A property with a value without quotes, in front of others. -/
theorem AreQuoted.cons {properties : List Property} (h : AreQuoted properties) (name : Text)
    {value : Text} (hname : IsName name) (hvalue : '"' ∉ value) :
    AreQuoted (⟨name, some value⟩ :: properties) := by
  refine List.forall_mem_cons.2 ⟨⟨hname, ?_⟩, h⟩
  rintro _ ⟨⟩
  exact hvalue

/-- A value has no quotes. -/
theorem IsValue.quote_not_mem {value : Text} (h : IsValue value) : '"' ∉ value :=
  fun hmem => (h _ hmem).1 rfl

/-- Safe properties end at their quotes. -/
theorem AreSafe.areQuoted {properties : List Property} (h : AreSafe properties) :
    AreQuoted properties := fun property hproperty =>
  ⟨(h property hproperty).1,
    fun value hvalue => ((h property hproperty).2 value hvalue).quote_not_mem⟩

/-- **The value of a property** is read back from the properties of a tag. -/
theorem value?_append_properties {key lead : Text} {properties : List Property} (hkey : IsName key)
    (hproperties : AreQuoted properties) (hlead : '"' ∉ lead) :
    value? key (lead ++ properties.flatMap Property.text) =
      properties.findSome? (Property.value? key) := by
  induction properties generalizing lead with
  | nil =>
    rw [List.flatMap_nil, List.append_nil, value?, Text.splitOnChar_of_not_mem hlead]
    rfl
  | cons property properties ih =>
    obtain ⟨⟨hname, hvalue⟩, hrest⟩ := List.forall_mem_cons.1 hproperties
    obtain ⟨name, value⟩ := property
    have hquote : '"' ∉ ' ' :: name := by simpa using hname.not_mem (by decide)
    cases value with
    | none =>
      -- a flag is not quoted: it belongs to the lead of the next value
      have hflag : lead ++ (⟨name, none⟩ :: properties).flatMap Property.text =
          (lead ++ ' ' :: name) ++ properties.flatMap Property.text := by
        simp [Property.text]
      rw [hflag, ih hrest (List.not_mem_append hlead hquote)]
      simp [Property.value?]
    | some value =>
      have hpieces : lead ++ (⟨name, some value⟩ :: properties).flatMap Property.text =
          (lead ++ ' ' :: (name ++ ['='])) ++ '"' :: (value ++ '"' ::
            ([] ++ properties.flatMap Property.text)) := by
        simp [Property.text]
      have hfront : '"' ∉ lead ++ ' ' :: (name ++ ['=']) :=
        List.not_mem_append hlead (List.not_mem_append hquote (by decide))
      have hinner : '"' ∉ value := hvalue value rfl
      have hrest := @ih [] hrest (by simp)
      unfold Markup.value? at hrest ⊢
      rw [hpieces, Text.splitOnChar_append_cons, Text.splitOnChar_append_cons,
        Text.splitOnChar_of_not_mem hfront, Text.splitOnChar_of_not_mem hinner]
      simp only [List.cons_append, List.nil_append, quotedPieces, List.find?_cons,
        List.findSome?_cons]
      have hends := endsWith_lead_iff lead hname hkey
      by_cases hsame : name = key
      · rw [hends.2 hsame, Property.value?, if_pos hsame]
        rfl
      · rw [Bool.eq_false_iff.2 (mt hends.1 hsame), Property.value?, if_neg hsame]
        exact hrest

/-- The anchor of a tag with the given properties. -/
def readProperties (properties : List Property) : Anchor where
  id := properties.findSome? (Property.value? "id".toList)
  href := properties.findSome? (Property.value? "href".toList)
  kind := properties.findSome? (Property.value? "class".toList)

/-- **A tag is read back** from its properties. -/
theorem readTag_properties {name : Text} {properties : List Property} (hname : IsName name)
    (hproperties : AreQuoted properties) :
    readTag (name ++ properties.flatMap Property.text) = readProperties properties := by
  have hquote : '"' ∉ name := hname.not_mem (by decide)
  have hvalue : ∀ key, IsName key → value? key (name ++ properties.flatMap Property.text) =
      properties.findSome? (Property.value? key) := fun key hkey =>
    value?_append_properties hkey hproperties hquote
  rw [readTag, hvalue _ (by decide), hvalue _ (by decide), hvalue _ (by decide)]
  rfl

/-- The anchors of a tag in front of other markup. -/
theorem anchors_openTag_append {name : Text} {properties : List Property} (hname : IsName name)
    (hproperties : AreSafe properties) (t : Text) :
    anchors (openTag name properties ++ t) = readProperties properties :: anchors t := by
  rw [anchors, tags_openTag_append hname hproperties, List.map_cons,
    readTag_properties hname hproperties.areQuoted]
  rfl

/-- A close tag has no properties. -/
theorem readTag_slash {name : Text} (hname : IsName name) :
    readTag ('/' :: name) = ⟨none, none, none⟩ := by
  have hquote : '"' ∉ '/' :: name := by simpa using hname.not_mem (by decide)
  have hvalue : ∀ key, value? key ('/' :: name) = none := fun key => by
    rw [value?, Text.splitOnChar_of_not_mem hquote]
    rfl
  rw [readTag, hvalue, hvalue, hvalue]

/-- The anchors of a close tag in front of other markup. -/
theorem anchors_closeTag_append {name : Text} (hname : IsName name) (t : Text) :
    anchors (closeTag name ++ t) = ⟨none, none, none⟩ :: anchors t := by
  rw [anchors, tags_closeTag_append hname, List.map_cons, readTag_slash hname]
  rfl

/-! ### Anchors -/

/-- Text has no anchors. -/
theorem anchors_append_of_isPlainText {s : Text} (h : IsPlainText s) (t : Text) :
    anchors (s ++ t) = anchors t :=
  congrArg (List.map readTag) (tags_append_of_isPlainText h t)

/-- The anchors of markup behind closed markup. -/
theorem IsClosed.anchors_append {s : Text} (h : IsClosed s) (t : Text) :
    anchors (s ++ t) = anchors s ++ anchors t :=
  (congrArg (List.map readTag) (h t)).trans List.map_append

/-- Trimming at the end takes no anchors. -/
theorem WellFormed.anchors_trimEnd {s : Text} (h : WellFormed s) :
    anchors (Text.trimEnd s) = anchors s := by
  obtain ⟨blank, hs, hblank⟩ := Text.exists_trimEnd_append s
  have htrail := anchors_append_of_isPlainText (fun c hc => isPlain_of_isBlank (hblank c hc)) []
  have hsplit := h.trimEnd.isClosed.anchors_append blank
  rw [← hs, ← List.append_nil blank, htrail] at hsplit
  exact (hsplit.trans (List.append_nil _)).symm

/-- **Trimming** takes no anchors. -/
theorem WellFormed.anchors_trim {s : Text} (h : WellFormed s) :
    anchors (Text.trim s) = anchors s := by
  obtain ⟨blank, hs, hblank⟩ := Text.exists_append_trimStart s
  have hlead := anchors_append_of_isPlainText (fun c hc => isPlain_of_isBlank (hblank c hc))
    (Text.trimStart s)
  rw [hs] at h
  rw [← hs] at hlead
  exact (h.of_blank_append hblank).anchors_trimEnd.trans hlead.symm

end Lectern.Markup
