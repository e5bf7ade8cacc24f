import Lectern.Markdown.Document
import Lectern.Proofs.Page.Shown
import Lectern.Proofs.Page.WellFormed
import Mathlib.Data.List.Perm.Basic

/-!
# Links between References and Notes

Whether the links of footnotes lead somewhere on the page. A reference links to the item of its
note, and the section has an item for each label that is referred to, so these links always do. The
links back are made of the number of references, and references that were counted may have gone: the
body of a footnote definition is put away, and only the latest definition of each label that is
referred to comes back. So the links back lead to one element each exactly for those documents in
which no definition with references in it is left out.

## Main results

* `marks_page`: the marks of a page.
* `footnoteLinks_iff`: where the links of a page lead.
-/

namespace Lectern.Page

open Markdown Markup

/-! ### The marks of a page -/

variable {parts : List (Option Text × List FootnoteToken)}

/-- What is looked up in a list whose values are mapped. -/
theorem lookup_map_snd {β γ : Type} (f : β → γ) (entries : List (Text × β)) (label : Text) :
    (entries.map fun (key, value) => (key, f value)).lookup label =
      (entries.lookup label).map f := by
  induction entries with
  | nil => rfl
  | cons entry entries ih =>
    obtain ⟨key, value⟩ := entry
    rw [List.map_cons, List.lookup_cons, List.lookup_cons, ih]
    split <;> rfl

/-- The body of the latest note with a label has the marks of its tokens. -/
theorem marks_lookup {mark : FootnoteToken → List Anchor} {notes : List (Text × Text)}
    (h : notes.map Writer.readNote = ((noteTokens parts).map fun (label, tokens) =>
      (label, tokens.flatMap mark)).reverse) (label : Text) :
    marks ((notes.lookup label).getD []) =
      ((latestTokens label parts).getD []).flatMap mark := by
  have hread : (notes.lookup label).map marks =
      (latestTokens label parts).map (·.flatMap mark) := by
    rw [← lookup_map_snd, latestTokens, ← lookup_map_snd, List.map_reverse, ← h]
    rfl
  cases hlookup : notes.lookup label <;> cases hlatest : latestTokens label parts <;>
    simp_all [marks, anchors, tags]

/-- The marks of the page of passages: the references in the text, and for each label that is
referred to its item, the references in its latest definition and the links back. -/
def pageMarks (context : PageContext) (passages : List Passage) : List Anchor :=
  (flowTokens (told [] passages)).map (referenceAnchor context) ++
    (labelsOf passages).eraseDups.flatMap fun label =>
      let tokens := tokensOf (numbered [] (labelsOf passages)) label
      itemAnchor context tokens ::
        ((latestTokens label (told [] passages)).getD []).map (referenceAnchor context) ++
        tokens.map (backAnchor context)

section Page

variable {style : PageStyle} {trees : List Markdown.Tree}
  (hflow : ∀ tree ∈ trees, IsFlow false tree) (hnaming : style.naming = standardNaming)
  (hanchor : style.anchor = stockAnchor ∨ style.anchor = backrefAnchor)
  (hdocId : ∀ docId ∈ style.context.docId, ∀ c ∈ docId, isHtmlSpecial c = false)

include hflow hnaming hanchor hdocId

/-- **The marks of a page.** -/
theorem marks_page : ∃ page, renderEvents style (Markdown.Tree.eventsOfList trees) = .ok page ∧
    marks page.html = pageMarks style.context (passagesOf trees) := by
  have hreference : ∀ token, Reads [referenceAnchor style.context token]
      (referenceMarkup token style.context style.naming) := by
    rw [hnaming]
    exact reads_referenceMarkup hdocId
  have hready : Writer.IsReady false {} := ⟨rfl, rfl, rfl, fun _ => rfl⟩
  obtain ⟨w, hrun, hrecords⟩ : Writer.Yields style {} _
      (Writer.Records (fun token => [referenceAnchor style.context token]) (passagesOf trees) {}) :=
    Writer.yields_parts (fun tree htree _ => Writer.yields_part (hflow tree htree) hreference)
      hready
  obtain ⟨markup, happends, htells⟩ := hrecords.appends
  have hkeeps := htells.keeps [] rfl
  have hnotes := happends.notes (by intro note hnote; simp at hnote)
  have houtput : w.output = markup := happends.output
  have htally : w.footnotes.references = tally (labelsOf (passagesOf trees)) := hkeeps.references
  have hbody : ∀ label, Reads
      (((latestTokens label (told [] (passagesOf trees))).getD []).map
        (referenceAnchor style.context))
      ((w.footnotes.definitions.lookup label).getD []) := by
    intro label
    refine ⟨wellFormed_lookup hnotes label, ?_⟩
    rw [marks_lookup (hkeeps.notes.trans (List.append_nil _)) label, List.map_eq_flatMap]
  have hsection := reads_noteSection (labelsOf (passagesOf trees)).eraseDups
    fun label _ => reads_noteItem hdocId hanchor
      (tokensOf (numbered [] (labelsOf (passagesOf trees))) label) (hbody label)
  rw [← renderSection_of_tally htally] at hsection
  have hmarkup : marks w.output =
      (flowTokens (told [] (passagesOf trees))).map (referenceAnchor style.context) := by
    rw [houtput, hkeeps.marks_eq, List.map_eq_flatMap]
  refine ⟨w.page style, by rw [renderEvents, hrun]; rfl, ?_⟩
  have hclosed : IsClosed w.output := by
    rw [houtput]
    exact htells.wellFormed.isClosed
  have hboth : pageMarks style.context (passagesOf trees) = marks w.output ++
      marks (w.footnotes.renderSection style.context standardNaming style.anchor) := by
    rw [hmarkup, hsection.marks_eq]
    rfl
  rw [Writer.page, hnaming]
  split
  · next hempty => rw [hboth, List.isEmpty_iff.1 hempty]; exact (List.append_nil _).symm
  · rw [hboth, marks_append hclosed]
    exact congrArg _ ((reads_newline.append hsection).marks_eq.trans hsection.marks_eq.symm)

end Page

/-! ### Links -/

/-- The place on the page that an anchor links to. -/
def target? (anchor : Anchor) : Option Text := anchor.href.bind (Text.after? ['#'])

/-- The **ids** of the elements of a page. -/
def ids (html : Text) : List Text := (anchors html).filterMap (·.id)

/-- The targets of the links back. -/
def backTargets (html : Text) : List Text :=
  (anchors html).filterMap fun anchor =>
    if anchor.kind = some backrefKind then target? anchor else none

/-- The targets of the references, which are the links that have an id. -/
def linkTargets (html : Text) : List Text :=
  (anchors html).filterMap fun anchor => if anchor.id.isSome then target? anchor else none

/-- The ids of the items of notes. -/
def itemIds (html : Text) : List Text :=
  (anchors html).filterMap fun anchor => if anchor.kind = some itemKind then anchor.id else none

/-- The ids of the elements that are no links and have no class, such as headings. -/
def plainIds (html : Text) : List Text :=
  (anchors html).filterMap fun anchor =>
    if anchor.href.isNone && anchor.kind.isNone then anchor.id else none

/-- What is read of the marks only. -/
theorem filterMap_anchors {f : Anchor → Option Text}
    (h : ∀ anchor, isMark anchor = false → f anchor = none) (html : Text) :
    (anchors html).filterMap f = (marks html).filterMap f := by
  rw [marks, List.filterMap_filter]
  congr 1
  funext anchor
  cases hmark : isMark anchor with
  | false => simp [h anchor hmark]
  | true => simp

/-- **The ids of a page** are those of its marks and the plain ones. -/
theorem count_ids (html id : Text) :
    (ids html).count id =
      (plainIds html).count id + ((marks html).filterMap (·.id)).count id := by
  have hplain : ∀ anchor : Anchor,
      (if anchor.href.isNone && anchor.kind.isNone then anchor.id else none) =
        if isMark anchor then none else anchor.id := by
    rintro ⟨_ | _, _ | _, _ | _⟩ <;> simp [isMark]
  simp only [ids, plainIds, marks, hplain]
  induction anchors html with
  | nil => rfl
  | cons anchor rest ih =>
    cases hmark : isMark anchor <;> cases hid : anchor.id <;>
      simp [List.count_cons, hmark, hid, ih] <;> omega

/-- What is read of the marks of a page. -/
theorem filterMap_pageMarks (f : Anchor → Option Text) (context : PageContext)
    (passages : List Passage) :
    (pageMarks context passages).filterMap f =
      (flowTokens (told [] passages)).filterMap (fun token => f (referenceAnchor context token)) ++
        (labelsOf passages).eraseDups.flatMap fun label =>
          let tokens := tokensOf (numbered [] (labelsOf passages)) label
          (f (itemAnchor context tokens)).toList ++
            ((latestTokens label (told [] passages)).getD []).filterMap
              (fun token => f (referenceAnchor context token)) ++
            tokens.filterMap (fun token => f (backAnchor context token)) := by
  have hcons : ∀ (anchor : Anchor) (rest : List Anchor),
      (anchor :: rest).filterMap f = (f anchor).toList ++ rest.filterMap f := by
    intro anchor rest
    cases hf : f anchor <;> simp [hf]
  simp only [pageMarks, List.filterMap_append, List.filterMap_map, List.filterMap_flatMap,
    List.cons_append, hcons, List.append_assoc]
  rfl

/-- No token is told of twice. -/
theorem nodup_told (passages : List Passage) : ((told [] passages).flatMap (·.2)).Nodup := by
  rw [flatMap_told]
  exact (nodup_map_referenceId (labelsOf passages) {}).of_map

section Marks

variable {context : PageContext} {passages : List Passage} {html : Text}

/-- A reference links to its item. -/
theorem target?_referenceAnchor (token : FootnoteToken) :
    target? (referenceAnchor context token) = some (itemId context [token]) := by
  simp [target?, referenceAnchor, Text.after?]

/-- A link back leads to its reference. -/
theorem target?_backAnchor (token : FootnoteToken) :
    target? (backAnchor context token) = some (referenceId context token) := by
  simp [target?, backAnchor, Text.after?]

variable (h : marks html = pageMarks context passages)

include h

/-- **The targets of the references** are the items of those that stay. -/
theorem linkTargets_eq :
    linkTargets html = (shownTokens (labelsOf passages).eraseDups (told [] passages)).map
      fun token => itemId context [token] := by
  have hmark : ∀ anchor : Anchor, isMark anchor = false →
      (if anchor.id.isSome then target? anchor else none) = none := by
    rintro ⟨_ | _, _ | _, _⟩ <;> simp [isMark, target?]
  unfold linkTargets
  rw [filterMap_anchors hmark, h, filterMap_pageMarks]
  simp only [target?_referenceAnchor]
  simp [shownTokens, referenceAnchor, itemAnchor, backAnchor, target?, List.map_flatMap]

/-- **The ids of the items** are those of the labels that are referred to. -/
theorem itemIds_eq :
    itemIds html = (labelsOf passages).eraseDups.map fun label =>
      itemId context (tokensOf (numbered [] (labelsOf passages)) label) := by
  have hmark : ∀ anchor : Anchor, isMark anchor = false →
      (if anchor.kind = some itemKind then anchor.id else none) = none := by
    rintro ⟨_ | _, _, _ | _⟩ <;> simp [isMark]
  have hkinds : backrefKind ≠ itemKind := by decide
  unfold itemIds
  rw [filterMap_anchors hmark, h, filterMap_pageMarks]
  simp [referenceAnchor, itemAnchor, backAnchor, hkinds, List.map_eq_flatMap]

/-- **The targets of the links back** are the references of all tokens. -/
theorem backTargets_eq :
    backTargets html = (labelsOf passages).eraseDups.flatMap fun label =>
      (tokensOf (numbered [] (labelsOf passages)) label).map (referenceId context) := by
  have hmark : ∀ anchor : Anchor, isMark anchor = false →
      (if anchor.kind = some backrefKind then target? anchor else none) = none := by
    rintro ⟨_, _, _ | _⟩ <;> simp +contextual [isMark]
  have hkinds : itemKind ≠ backrefKind := by decide
  unfold backTargets
  rw [filterMap_anchors hmark, h, filterMap_pageMarks]
  simp only [target?_backAnchor]
  simp [referenceAnchor, itemAnchor, backAnchor, hkinds]

/-- The links back lead to the ids of all references that were counted. -/
theorem forall_mem_backTargets_iff {p : Text → Prop} :
    (∀ target ∈ backTargets html, p target) ↔
      ∀ token ∈ numbered [] (labelsOf passages), p (referenceId context token) := by
  rw [backTargets_eq h]
  constructor
  · intro hall token htoken
    have hlabel := List.mem_eraseDups.2 (number_of_mem_numbered htoken).1
    refine hall _ (List.mem_flatMap.2 ⟨token.label, hlabel, List.mem_map_of_mem ?_⟩)
    exact List.mem_filter.2 ⟨htoken, by simp⟩
  · intro hall target htarget
    obtain ⟨label, -, hmem⟩ := List.mem_flatMap.1 htarget
    obtain ⟨token, htoken, rfl⟩ := List.mem_map.1 hmem
    exact hall token (List.mem_filter.1 htoken).1

/-- **The ids of the marks** are those of the references that stay and of the items. -/
theorem markIds_perm :
    ((marks html).filterMap (·.id)).Perm
      ((shownTokens (labelsOf passages).eraseDups (told [] passages)).map (referenceId context) ++
        itemIds html) := by
  have hids : (marks html).filterMap (·.id) =
      (flowTokens (told [] passages)).map (referenceId context) ++
        (labelsOf passages).eraseDups.flatMap fun label =>
          [itemId context (tokensOf (numbered [] (labelsOf passages)) label)] ++
            ((latestTokens label (told [] passages)).getD []).map (referenceId context) := by
    rw [h, filterMap_pageMarks]
    simp [referenceAnchor, itemAnchor, backAnchor]
  have hitems := (itemIds_eq h).trans List.map_eq_flatMap
  rw [hids, hitems, shownTokens, List.map_append, List.append_assoc, List.map_flatMap]
  exact ((List.flatMap_append_perm _ _ _).symm.trans List.perm_append_comm).append_left _

/-- The reference of a token is on a page once if it stays, and not otherwise; other elements may
have its id. -/
theorem count_referenceId {token : FootnoteToken}
    (htoken : token ∈ numbered [] (labelsOf passages)) :
    (ids html).count (referenceId context token) =
      (plainIds html).count (referenceId context token) +
        if token ∈ shownTokens (labelsOf passages).eraseDups (told [] passages) then 1 else 0 := by
  have hids := nodup_map_referenceId (labelsOf passages) context
  have hinj : ∀ other ∈ shownTokens (labelsOf passages).eraseDups (told [] passages),
      other ∈ numbered [] (labelsOf passages) := by
    intro other hother
    rw [← flatMap_told]
    exact mem_of_mem_shownTokens hother
  have hitem : referenceId context token ∉ itemIds html := by
    rw [itemIds_eq h]
    intro hmem
    obtain ⟨label, hlabel, heq⟩ := List.mem_map.1 hmem
    exact itemId_ne_referenceId (head?_tokensOf (List.mem_eraseDups.1 hlabel)) token heq
  rw [count_ids, (markIds_perm h).count_eq, List.count_append, List.count_eq_zero_of_not_mem hitem]
  congr 1
  split
  · next hshown =>
    refine List.count_eq_one_of_mem ?_ (List.mem_map_of_mem hshown)
    have hnodup := nodup_shownTokens (nodup_eraseDups (labelsOf passages)) (nodup_told passages)
    exact hnodup.map_on fun first hfirst second hsecond =>
      List.inj_on_of_nodup_map hids (hinj first hfirst) (hinj second hsecond)
  · next hshown =>
    refine List.count_eq_zero_of_not_mem fun hmem => hshown ?_
    obtain ⟨other, hother, heq⟩ := List.mem_map.1 hmem
    exact List.inj_on_of_nodup_map hids (hinj other hother) htoken heq ▸ hother

end Marks

section Page

variable {style : PageStyle} {trees : List Markdown.Tree}
  (hflow : ∀ tree ∈ trees, IsFlow false tree) (hnaming : style.naming = standardNaming)
  (hanchor : style.anchor = stockAnchor ∨ style.anchor = backrefAnchor)
  (hdocId : ∀ docId ∈ style.context.docId, ∀ c ∈ docId, isHtmlSpecial c = false)

include hflow hnaming hanchor hdocId

/-- **Where the links of footnotes lead**, on the page of any document with the standard names and
either of the anchor rules of a site.

Each reference links to exactly one item. If no heading has an id that begins like those of
references, each link back leads to exactly one element if and only if every footnote definition
with a reference in it is referred to and is the last one with its label. -/
theorem footnoteLinks_iff :
    ∃ page, renderEvents style (Markdown.Tree.eventsOfList trees) = .ok page ∧
      (∀ target ∈ linkTargets page.html, (itemIds page.html).count target = 1) ∧
      ((∀ id ∈ plainIds page.html, ¬ "fnref".toList <+: id) →
        ((∀ target ∈ backTargets page.html, (ids page.html).count target = 1) ↔
          KeepsReferences (labelsOf (passagesOf trees)) (passagesOf trees))) := by
  obtain ⟨page, hpage, hmarks⟩ := marks_page hflow hnaming hanchor hdocId
  have htokens := flatMap_told [] (passagesOf trees)
  refine ⟨page, hpage, ?_, fun hplain => ?_⟩
  · rw [linkTargets_eq hmarks, itemIds_eq hmarks]
    intro target htarget
    obtain ⟨token, hshown, rfl⟩ := List.mem_map.1 htarget
    have hmem := mem_of_mem_shownTokens hshown
    rw [htokens] at hmem
    refine List.count_eq_one_of_mem (nodup_map_itemId _ _) ?_
    rw [itemId_singleton hmem]
    exact List.mem_map_of_mem (List.mem_eraseDups.2 (number_of_mem_numbered hmem).1)
  · have hcount : ∀ token ∈ numbered [] (labelsOf (passagesOf trees)),
        ((ids page.html).count (referenceId style.context token) = 1 ↔
          token ∈ shownTokens (labelsOf (passagesOf trees)).eraseDups
            (told [] (passagesOf trees))) := by
      intro token htoken
      have hother : referenceId style.context token ∉ plainIds page.html :=
        fun hmem => hplain _ hmem (List.prefix_append _ _)
      rw [count_referenceId hmarks htoken, List.count_eq_zero_of_not_mem hother]
      split <;> simp_all
    have hlabels : KeepsReferences (labelsOf (passagesOf trees)).eraseDups (passagesOf trees) ↔
        KeepsReferences (labelsOf (passagesOf trees)) (passagesOf trees) := by
      simp [KeepsReferences, List.mem_eraseDups]
    rw [forall_mem_backTargets_iff hmarks, forall₂_congr hcount, ← htokens,
      forall_mem_shownTokens_iff (nodup_told _), hlabels]

end Page

/-- A heading, a reference, and a note that refers to another one. -/
def linkedNotes : List Markdown.Tree :=
  [.node (.heading 1) [.text "Notes".toList],
    .node .paragraph [.text "One".toList, .leaf (.footnoteReference ['a'])],
    .node (.footnote ['a']) [.node .paragraph
      [.text "see".toList, .leaf (.footnoteReference ['b'])]],
    .node (.footnote ['b']) [.node .paragraph [.text "two".toList]]]

/-- A reference in a note that is shown: both links back lead to one element. -/
theorem footnoteLinks_lead : ∃ page,
    renderEvents {} (Markdown.Tree.eventsOfList linkedNotes) = .ok page ∧
      backTargets page.html = ["fnref1".toList, "fnref2".toList] ∧
      ∀ target ∈ backTargets page.html, (ids page.html).count target = 1 := by
  have hflow : ∀ tree ∈ linkedNotes, IsFlow false tree := by
    have htext : ∀ s : Text, IsInline (.text s) := fun s => .leaf (.text s)
    have hline : ∀ inNote s label,
        IsFlow inNote (.node .paragraph [.text s, .leaf (.footnoteReference label)]) :=
      fun _ s label => .container .paragraph (List.forall_mem_cons.2 ⟨.inline (htext s),
        List.forall_mem_singleton.2 (.inline (.leaf (.footnoteReference label)))⟩)
    refine List.forall_mem_cons.2 ⟨.heading (List.forall_mem_singleton.2 (htext _)),
      List.forall_mem_cons.2 ⟨hline _ _ _, List.forall_mem_cons.2 ⟨.footnote ?_,
        List.forall_mem_singleton.2 (.footnote ?_)⟩⟩⟩
    · exact List.forall_mem_singleton.2 (hline _ _ _)
    · exact List.forall_mem_singleton.2 (.container .paragraph
        (List.forall_mem_singleton.2 (.inline (htext _))))
  obtain ⟨page, hpage, -, hback⟩ :=
    @footnoteLinks_iff {} linkedNotes hflow rfl (.inl rfl) (by simp)
  have hread : (renderEvents {} (Markdown.Tree.eventsOfList linkedNotes)).toOption.map
      (fun page => (plainIds page.html, backTargets page.html)) =
        some (["notes".toList], ["fnref1".toList, "fnref2".toList]) := by
    decide +kernel
  rw [hpage] at hread
  obtain ⟨hplain, htargets⟩ := Prod.mk.inj (Option.some.inj hread)
  refine ⟨page, hpage, htargets, (hback ?_).2 (by decide +kernel)⟩
  rw [hplain]
  decide

/-- A note that no reference leads to is left out, but the reference in it is counted: nothing on
the page has the id that the link back leads to. -/
theorem footnoteLinks_dangle :
    (renderEvents {} (Document.parse "[^a]: see[^b]\n\n[^b]: note\n".toList)).toOption.map
      (fun page => (backTargets page.html, ids page.html)) =
        some (["fnref1".toList], ["fn1".toList]) := by
  decide +kernel

end Lectern.Page
