import Lectern.Proofs.Markup.Quoted
import Lectern.Proofs.Page.Filler
import Lectern.Proofs.Page.Section

/-!
# Finding Tags on a Page

A reader who knows quotes goes through the markup of the writer and keeps what it looks for. What it
keeps is up to a function on tags; if that passes over filler, the finds of a page are those of its
headings, references and notes, in the order in which these are put together. The id of the document
may have brackets here, but no quotes.

## Main results

* `Finds.append`, `Finds.enclose`: how finds are put together.
* `Finds.trim`, `Finds.trimEnd`: trimming takes no finds.
* `Finds.splice`: markup that goes in before a final close tag.
* `finds_referenceMarkup`, `finds_noteItem`: the finds of references and notes.
-/

namespace Lectern.Page

open Markdown Markup

variable {α : Type} {keep : Text → Option α} {found more : List α} {s t name : Text}
  {properties : List Property} {context : PageContext}

/-- Whether a reader who knows quotes reads a markup to its end, and **finds** what is given in
it. -/
def Finds (keep : Text → Option α) (found : List α) (s : Text) : Prop :=
  (Reader.read {} s).spot = .text ∧ (Reader.read {} s).tags.filterMap keep = found

instance [DecidableEq α] (keep : Text → Option α) (found : List α) (s : Text) :
    Decidable (Finds keep found s) :=
  inferInstanceAs (Decidable (_ ∧ _))

/-- The text of a tag between its brackets. -/
def tagText (name : Text) (properties : List Property) : Text :=
  name ++ properties.flatMap Property.text

/-- Whether what is looked for **passes over** filler: close tags, images, and tags that are neither
of headings nor marks of footnotes. -/
structure PassesOver (keep : Text → Option α) : Prop where
  closeTag : ∀ name, keep ('/' :: name) = none
  image : ∀ rest, keep ("img".toList ++ rest) = none
  openTag : ∀ {name properties}, IsName name → isHeadingName name = false → AreSafe properties →
    tagMarks properties = [] → keep (tagText name properties) = none

/-! ### Pieces of markup -/

/-- What is found in a markup is kept of its tags. -/
theorem finds_iff : Finds keep found s ↔ ∃ tags, HasTags tags s ∧ tags.filterMap keep = found := by
  unfold Finds
  constructor
  · generalize hread : Reader.read {} s = r
    obtain ⟨tags, spot⟩ := r
    rintro ⟨rfl, hfound⟩
    exact ⟨tags, hasTags_iff.2 hread, hfound⟩
  · rintro ⟨tags, htags, hfound⟩
    rw [hasTags_iff] at htags
    exact ⟨by rw [htags], by rw [htags]; exact hfound⟩

/-- Finds after finds. -/
theorem Finds.append (hs : Finds keep found s) (ht : Finds keep more t) :
    Finds keep (found ++ more) (s ++ t) := by
  obtain ⟨first, hfirst, rfl⟩ := finds_iff.1 hs
  obtain ⟨second, hsecond, rfl⟩ := finds_iff.1 ht
  exact finds_iff.2 ⟨_, hfirst.append hsecond, List.filterMap_append⟩

/-- Nothing is found in text. -/
theorem finds_text (h : '<' ∉ s) : Finds keep [] s := finds_iff.2 ⟨[], hasTags_text h, rfl⟩

/-- A tag is kept or not. -/
theorem finds_tag {tag : Text} (h : HasTags [tag] s) : Finds keep (keep tag).toList s :=
  finds_iff.2 ⟨_, h, by cases hkeep : keep tag <;> simp [hkeep]⟩

/-- **A tag** whose values have no quotes. -/
theorem finds_openTag (hname : IsName name) (hproperties : AreQuoted properties) :
    Finds keep (keep (tagText name properties)).toList (openTag name properties) :=
  finds_tag (hasTags_openTag hname hproperties)

/-- Trimming at the end takes no finds. -/
theorem Finds.trimEnd (h : Finds keep found s) : Finds keep found (Text.trimEnd s) := by
  obtain ⟨tags, htags, hfound⟩ := finds_iff.1 h
  exact finds_iff.2 ⟨tags, htags.trimEnd, hfound⟩

/-- Trimming takes no finds. -/
theorem Finds.trim (h : Finds keep found s) : Finds keep found (Text.trim s) := by
  obtain ⟨tags, htags, hfound⟩ := finds_iff.1 h
  exact finds_iff.2 ⟨tags, htags.trim, hfound⟩

/-- The text between the brackets of the tag of an image. -/
def imageText (url title alternative : Text) : Text :=
  "img".toList ++ ([(⟨"src".toList, some (escapeHtml url)⟩ : Property)].flatMap Property.text ++
    " alt=".toList ++ '"' :: (alternative ++ ['"']) ++
    (Writer.titleProperties title).flatMap Property.text)

/-- The tag of an image, with its brackets. -/
theorem imageTag_eq (url title alternative : Text) :
    Writer.imageTag url title alternative = '<' :: (imageText url title alternative ++ ['>']) := by
  unfold Writer.imageTag imageText
  simp only [Property.text, Writer.flatMap_titleProperties, List.flatMap_cons, List.flatMap_nil,
    String.reduceToList, List.append_assoc, List.cons_append, List.nil_append]

/-- **The tag of an image** is one, whatever stands in its alternative text. -/
theorem hasTags_imageTag (url title : Text) {alternative : Text} (h : StandsQuoted alternative) :
    HasTags [imageText url title alternative] (Writer.imageTag url title alternative) := by
  have hname : IsValue "img".toList := by decide
  have hkey : IsValue " alt=".toList := by decide
  have hsource := areQuoted_nil.cons "src".toList (by decide)
    (isValue_escapeHtml url).quote_not_mem
  have htitle := (Writer.areSafe_titleProperties title).areQuoted
  rw [imageTag_eq]
  refine hasTags_bracket fun earlier => ?_
  rw [imageText, Reader.read_append, Reader.read_append, Reader.read_append, Reader.read_append,
    Reader.read_tag earlier [] hname, read_properties earlier _ hsource,
    Reader.read_tag earlier _ hkey, h.read, read_properties earlier _ htitle]
  simp

section PassesOver

variable (hkeep : PassesOver keep)

include hkeep

/-- Close tags are passed over. -/
theorem finds_closeTag (hname : IsName name) : Finds keep [] (closeTag name) := by
  have htag : Finds keep _ (closeTag name) := finds_tag (hasTags_closeTag hname)
  rwa [hkeep.closeTag] at htag

/-- Tags of filler are passed over. -/
theorem finds_openTag_filler (hname : IsName name) (hheading : isHeadingName name = false)
    (hproperties : AreSafe properties) (hmark : tagMarks properties = []) :
    Finds keep [] (openTag name properties) := by
  have htag : Finds keep _ (openTag name properties) :=
    finds_openTag hname hproperties.areQuoted
  rwa [hkeep.openTag hname hheading hproperties hmark] at htag

/-- Images are passed over. -/
theorem finds_imageTag (url title : Text) {alternative : Text} (h : StandsQuoted alternative) :
    Finds keep [] (Writer.imageTag url title alternative) := by
  have htag : Finds keep _ (Writer.imageTag url title alternative) :=
    finds_tag (hasTags_imageTag url title h)
  rwa [imageText, hkeep.image] at htag

/-- **Filler** is passed over, and can stand in a value. -/
theorem finds_filler (h : IsFiller s) : Finds keep [] s ∧ StandsQuoted s := by
  have hchar : ∀ {c}, IsValueChar c → '<' ∉ [c] ∧ '"' ∉ [c] := by
    rintro c ⟨hquote, hopen, -⟩
    exact ⟨by simpa using Ne.symm hopen, by simpa using Ne.symm hquote⟩
  induction h with
  | nil => exact ⟨finds_text (by simp), standsQuoted_of_not_mem (by simp)⟩
  | text hc _ ih =>
    exact ⟨(finds_text (hchar hc).1).append ih.1,
      (standsQuoted_of_not_mem (hchar hc).2).append ih.2⟩
  | openTag hname hheading hproperties hmark _ ih =>
    exact ⟨(finds_openTag_filler hkeep hname hheading hproperties hmark).append ih.1,
      (standsQuoted_openTag hname hproperties).append ih.2⟩
  | @closeTag name rest hname _ ih =>
    have hquote : '"' ∉ closeTag name := by
      simpa [closeTag] using hname.isValue.quote_not_mem
    exact ⟨(finds_closeTag hkeep hname).append ih.1, (standsQuoted_of_not_mem hquote).append ih.2⟩

/-- **An element** has the finds of its content behind its own tag. -/
theorem Finds.enclose (hs : Finds keep found s) (name : Text) (hname : IsName name)
    (hproperties : AreQuoted properties) :
    Finds keep ((keep (tagText name properties)).toList ++ found)
      (openTag name properties ++ s ++ closeTag name) := by
  simpa using ((finds_openTag hname hproperties).append hs).append (finds_closeTag hkeep hname)

/-- Markup goes in before a final close tag. -/
theorem Finds.splice (name : Text) (h : Finds keep found (s ++ closeTag name))
    (hname : IsName name) (ht : Finds keep more t) :
    Finds keep (found ++ more) (s ++ t ++ closeTag name) := by
  obtain ⟨tags, htags, rfl⟩ := finds_iff.1 h
  obtain ⟨before, rfl, hbefore⟩ := htags.of_append_closeTag hname
  have hs : Finds keep ((before ++ ['/' :: name]).filterMap keep) s :=
    finds_iff.2 ⟨before, hbefore, by simp [hkeep.closeTag]⟩
  simpa using (hs.append ht).append (finds_closeTag hkeep hname)

/-- **The element of a heading** has the finds of its content behind its own tag. -/
theorem finds_headingElement (level : Nat) {id content : Text} (hid : IsValue id)
    (hcontent : Finds keep found content) :
    Finds keep ((keep (tagText ('h' :: Text.decimal level) [⟨"id".toList, some id⟩])).toList ++
      found) (Writer.headingElement level id content) := by
  have helement := hcontent.trim.enclose hkeep _ (Writer.isName_headingName level)
    (areQuoted_nil.cons "id".toList (by decide) hid.quote_not_mem)
  have hnewline : '<' ∉ ['\n'] := by decide
  unfold Writer.headingElement
  simpa [openTag, closeTag, Property.text] using helement.append (finds_text hnewline)

end PassesOver

/-! ### Names -/

/-- The characters of the anchor name of a note are those of the id of the document, and others that
can stand in a value. -/
theorem mem_anchorName {tokens : List FootnoteToken} {index : Nat} {c : Char}
    (h : c ∈ standardNaming.anchorName tokens index context) :
    (∃ docId ∈ context.docId, c ∈ docId) ∨ IsValueChar c := by
  simp only [standardNaming] at h
  split at h
  · simp at h
  · next token _ =>
    have hnumber := isValue_decimal (token.number + 1)
    split at h
    · next docId hdocId =>
      simp only [List.cons_append, List.mem_cons, List.mem_append] at h
      rcases h with rfl | h | rfl | h
      · exact .inr (by decide)
      · exact .inl ⟨docId, hdocId, h⟩
      · exact .inr (by decide)
      · exact .inr (hnumber c h)
    · exact .inr (hnumber c h)

section Quotes

variable (hdocId : ∀ docId ∈ context.docId, '"' ∉ docId)

include hdocId

/-- An anchor name has no quotes if the id of the document has none. -/
theorem quote_not_mem_anchorName (tokens : List FootnoteToken) (index : Nat) :
    '"' ∉ standardNaming.anchorName tokens index context := by
  intro h
  rcases mem_anchorName h with ⟨docId, hmem, hquote⟩ | hvalue
  · exact hdocId docId hmem hquote
  · exact hvalue.1 rfl

/-- Nor has the id of an item. -/
theorem quote_not_mem_itemId (tokens : List FootnoteToken) :
    '"' ∉ itemId context tokens :=
  List.not_mem_append (by decide) (quote_not_mem_anchorName hdocId tokens 0)

/-- Nor has the id of a reference. -/
theorem quote_not_mem_referenceId (token : FootnoteToken) :
    '"' ∉ referenceId context token := by
  refine List.not_mem_append (by decide) ?_
  have hname := quote_not_mem_anchorName hdocId [token] 0
  simp only [referenceName?, List.getElem?_cons_zero, Option.map_some, Option.getD_some,
    FootnoteToken.withSubNumber_eq]
  refine List.not_mem_append hname ?_
  unfold subNumberSuffix
  split
  · simp
  · exact List.not_mem_cons_of_ne_of_not_mem (by decide) (isValue_decimal _).quote_not_mem

end Quotes

/-! ### Footnotes -/

/-- The properties of the tag of a reference, which link it to its item. -/
def referenceProperties (context : PageContext) (token : FootnoteToken) : List Property :=
  [⟨"href".toList, some (['#'] ++ itemId context [token])⟩,
    ⟨"id".toList, some (referenceId context token)⟩]

/-- The properties of the tag of a link back. -/
def backProperties (context : PageContext) (token : FootnoteToken) : List Property :=
  [⟨"href".toList, some (['#'] ++ referenceId context token)⟩,
    ⟨"class".toList, some "footnote-backref".toList⟩]

/-- The properties of the tag of an item. -/
def itemProperties (context : PageContext) (tokens : List FootnoteToken) : List Property :=
  [⟨"id".toList, some (itemId context tokens)⟩, ⟨"class".toList, some "footnote-item".toList⟩]

/-- The markup of a reference, tag by tag. -/
theorem referenceMarkup_eq (token : FootnoteToken) :
    referenceMarkup token context standardNaming =
      openTag "sup".toList [⟨"class".toList, some "footnote-ref".toList⟩] ++
        (openTag "a".toList (referenceProperties context token) ++ captionAt [token] 0 ++
            closeTag "a".toList) ++ closeTag "sup".toList := by
  have hstandard : standardNaming.caption [token] 0 context = captionAt [token] 0 := rfl
  unfold referenceMarkup
  rw [hstandard]
  simp [openTag, closeTag, Property.text, referenceProperties, itemId, referenceId]

section Notes

variable (hkeep : PassesOver keep) (hdocId : ∀ docId ∈ context.docId, '"' ∉ docId)

include hkeep hdocId

/-- **A reference**: the tag of its link is found, if it is looked for. -/
theorem finds_referenceMarkup (token : FootnoteToken) :
    Finds keep (keep (tagText "a".toList (referenceProperties context token))).toList
      (referenceMarkup token context standardNaming) := by
  have htarget : '"' ∉ ['#'] ++ itemId context [token] :=
    List.not_mem_append (by decide) (quote_not_mem_itemId hdocId [token])
  have hcaption : '<' ∉ captionAt [token] 0 := fun h => (isPlainText_captionAt _ _ _ h).1 rfl
  have hlink := (finds_text hcaption).enclose hkeep "a".toList (by decide)
    ((areQuoted_nil.cons "id".toList (by decide) (quote_not_mem_referenceId hdocId token)).cons
      "href".toList (by decide) htarget)
  have hclass : IsValue "footnote-ref".toList := by decide
  have hsup : IsName "sup".toList := by decide
  have hopen := finds_openTag_filler hkeep hsup (by decide)
    (areSafe_nil.cons "class".toList (by decide) hclass) rfl
  rw [referenceMarkup_eq]
  simpa [referenceProperties] using (hopen.append hlink).append (finds_closeTag hkeep hsup)

/-- A link back: its tag is found, if it is looked for. -/
theorem finds_linkBack (token : FootnoteToken) :
    Finds keep (keep (tagText "a".toList (backProperties context token))).toList
      (linkBack (referenceId context token)) := by
  have htarget : '"' ∉ ['#'] ++ referenceId context token :=
    List.not_mem_append (by decide) (quote_not_mem_referenceId hdocId token)
  have harrow : '<' ∉ "↩\uFE0E".toList := by decide
  have hclass : '"' ∉ "footnote-backref".toList := by decide
  have hlink := (finds_text harrow).enclose hkeep "a".toList (by decide)
    ((areQuoted_nil.cons "class".toList (by decide) hclass).cons "href".toList (by decide) htarget)
  unfold linkBack
  simpa [openTag, closeTag, Property.text, backProperties] using hlink

/-- The anchors of a note are links back to its references. -/
theorem finds_anchors {anchor : FootnoteAnchor}
    (hanchor : anchor = stockAnchor ∨ anchor = backrefAnchor) (tokens : List FootnoteToken) :
    Finds keep
      (tokens.flatMap fun token =>
        (keep (tagText "a".toList (backProperties context token))).toList)
      ((List.range tokens.length).flatMap fun index =>
        anchor tokens index context standardNaming) := by
  have hlinks : ∀ lead : Text, '<' ∉ lead →
      Finds keep (tokens.flatMap fun token =>
          (keep (tagText "a".toList (backProperties context token))).toList)
        (tokens.flatMap fun token => lead ++ linkBack (referenceId context token)) := by
    intro lead hlead
    induction tokens with
    | nil => exact finds_text (by simp)
    | cons token tokens ih =>
      exact ((finds_text hlead).append (finds_linkBack hkeep hdocId token)).append ih
  rcases hanchor with rfl | rfl
  · rw [flatMap_stockAnchor]
    exact hlinks [' '] (by decide)
  · rw [flatMap_backrefAnchor]
    exact hlinks [] (by simp)

/-- **A note** has the finds of its body, behind its own tag and before its links back. -/
theorem finds_noteItem {anchor : FootnoteAnchor}
    (hanchor : anchor = stockAnchor ∨ anchor = backrefAnchor) (tokens : List FootnoteToken)
    {body : Text} (hbody : Finds keep found body) :
    Finds keep ((keep (tagText "li".toList (itemProperties context tokens))).toList ++ (found ++
        tokens.flatMap fun token =>
          (keep (tagText "a".toList (backProperties context token))).toList))
      (noteItem context standardNaming anchor tokens body) := by
  have hanchors := finds_anchors hkeep hdocId hanchor tokens
  have hclosed : Finds keep (found ++ tokens.flatMap fun token =>
        (keep (tagText "a".toList (backProperties context token))).toList)
      (FootnoteLedger.closeBody body ((List.range tokens.length).flatMap fun index =>
        anchor tokens index context standardNaming)) := by
    unfold FootnoteLedger.closeBody
    split
    · next head hhead =>
      obtain rfl := Text.before?_eq_some_iff.1 hhead
      exact Finds.splice hkeep "p".toList hbody (by decide) hanchors
    · exact hbody.append hanchors
  have hclass : '"' ∉ "footnote-item".toList := by decide
  have hitem := hclosed.enclose hkeep "li".toList (by decide)
    ((areQuoted_nil.cons "class".toList (by decide) hclass).cons "id".toList (by decide)
      (quote_not_mem_itemId hdocId tokens))
  have hnewline : '<' ∉ ['\n'] := by decide
  unfold noteItem
  simpa [openTag, closeTag, Property.text, itemProperties, itemId] using
    hitem.append (finds_text hnewline)

end Notes

end Lectern.Page
