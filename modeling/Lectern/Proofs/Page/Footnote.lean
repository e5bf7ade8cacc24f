import Lectern.Proofs.Page.Ledger
import Lectern.Proofs.Text.Basic

/-!
# Footnotes and their Back-Links

The section at the end of a page is made of the ledger, and its anchors of tokens that are built
anew from the counts in it. They are the tokens that the references returned, so each note leads
back to its own references and to no others: names of different references are different, because a
number in decimal ends at the colon before the sub-number, and names of notes are no names of
references.

## Main results

* `renderSection_of_tally`, `renderSection_collect`: the footnote section after any calls.
* `referenceId_inj`: the names of references tell them apart.
* `footnotes_agree`: numbers, section and back-links after any calls.
-/

namespace Lectern.Page

/-! ### The section -/

/-- The tokens of one label, in order. -/
def tokensOf (tokens : List FootnoteToken) (label : Text) : List FootnoteToken :=
  tokens.filter (·.label = label)

/-- The body of the latest definition of a label; empty if there is none. -/
def latestBody (calls : List LedgerCall) (label : Text) : Text :=
  ((definedNotes calls.reverse).lookup label).getD []

/-- The item of a note whose references have the given **tokens**: their anchors go into its
body. -/
def noteItem (context : PageContext) (naming : FootnoteNaming) (anchor : FootnoteAnchor)
    (tokens : List FootnoteToken) (body : Text) : Text :=
  "<li id=\"fn".toList ++ naming.anchorName tokens 0 context ++
    "\" class=\"footnote-item\">".toList ++
    FootnoteLedger.closeBody body
      ((List.range tokens.length).flatMap fun index => anchor tokens index context naming) ++
    "</li>\n".toList

/-- The section of the notes with the given labels; nothing without notes. -/
def noteSection (labels : List Text) (item : Text → Text) : Text :=
  if labels.isEmpty then []
  else
    "<hr class=\"footnotes-sep\">\n<section class=\"footnotes\">\n".toList ++
      "<ol class=\"footnotes-list\">\n".toList ++ labels.flatMap item ++
      "</ol>\n</section>\n".toList

/-- The section is made of the items of its labels. -/
theorem noteSection_congr {labels : List Text} {item item' : Text → Text}
    (h : ∀ label ∈ labels, item label = item' label) :
    noteSection labels item = noteSection labels item' := by
  unfold noteSection
  rw [List.flatMap_def, List.flatMap_def, List.map_congr_left h]

/-- The parts of a text that are written for the places of a list. -/
theorem flatMap_zipIdx_eq {α : Type} {l : List α} {f : α × Nat → Text} {g : α → Text}
    (h : ∀ i, ∀ hi : i < l.length, f (l[i], i) = g l[i]) : l.zipIdx.flatMap f = l.flatMap g := by
  rw [List.flatMap_def, List.flatMap_def]
  congr 1
  refine List.ext_getElem (by simp) fun i hi _ => ?_
  simpa using h i (by simpa using hi)

/-- The tokens of one label, as the section builds them anew. -/
theorem tokensOf_numbered (labels : List Text) (label : Text) :
    tokensOf (numbered [] labels) label =
      FootnoteLedger.tokens (labels.eraseDups.idxOf label) label (labels.count label) := by
  rw [tokensOf, filter_numbered, FootnoteLedger.tokens, List.range_eq_range']
  rfl

/-- The parts of a text that are written for the numbers of the places of a list. -/
theorem flatMap_range_eq {α : Type} {l : List α} {f : Nat → Text} {g : α → Text}
    (h : ∀ i, ∀ hi : i < l.length, f i = g l[i]) :
    (List.range l.length).flatMap f = l.flatMap g := by
  rw [List.range_eq_range', ← List.zipIdx_map_snd 0 l, List.flatMap_map]
  exact flatMap_zipIdx_eq h

/-- **The section of a ledger** that holds the tally of references: one item for each of the
different labels, in the order of their first references, made of the tokens of its references. -/
theorem renderSection_of_tally {ledger : FootnoteLedger} {labels : List Text}
    (h : ledger.references = tally labels) (context : PageContext) (naming : FootnoteNaming)
    (anchor : FootnoteAnchor) :
    ledger.renderSection context naming anchor =
      noteSection labels.eraseDups fun label =>
        noteItem context naming anchor (tokensOf (numbered [] labels) label)
          ((ledger.definitions.lookup label).getD []) := by
  have hitems : (tally labels).zipIdx.flatMap (ledger.entryItem context naming anchor) =
      labels.eraseDups.flatMap fun label =>
        noteItem context naming anchor (tokensOf (numbered [] labels) label)
          ((ledger.definitions.lookup label).getD []) := by
    rw [tally, List.zipIdx_map, List.flatMap_map]
    refine flatMap_zipIdx_eq fun place hplace => ?_
    have hrank := (nodup_eraseDups labels).idxOf_getElem place hplace
    rw [tokensOf_numbered, hrank]
    rfl
  have hempty : (tally labels).isEmpty = labels.eraseDups.isEmpty := by simp [tally]
  unfold noteSection
  rw [FootnoteLedger.renderSection_eq, h, hitems, hempty]

/-- **The section after calls** is made of the tokens that the references returned, and of the
latest definitions. -/
theorem renderSection_collect (calls : List LedgerCall) (context : PageContext)
    (naming : FootnoteNaming) (anchor : FootnoteAnchor) :
    (collect {} calls).2.renderSection context naming anchor =
      noteSection (referencedLabels calls).eraseDups fun label =>
        noteItem context naming anchor (tokensOf (collect {} calls).1 label)
          (latestBody calls label) := by
  have hdefinitions : (collect {} calls).2.definitions = definedNotes calls.reverse := by
    rw [definedNotes, List.filterMap_reverse]
    exact (definitions_collect {} calls).trans (List.append_nil _)
  rw [renderSection_of_tally (references_collect_fresh calls), tokens_collect_fresh, hdefinitions]
  rfl

/-- A definition of another label is passed over. -/
theorem lookup_definedNotes_of_ne {label other : Text} (h : label ≠ other) (html : Text)
    (calls : List LedgerCall) :
    (definedNotes (.define other html :: calls)).lookup label =
      (definedNotes calls).lookup label := by
  have hcons : definedNotes (.define other html :: calls) = (other, html) :: definedNotes calls :=
    rfl
  rw [hcons, List.lookup_cons, beq_false_of_ne h]

/-- The latest definition of a label stays so among some of the calls, if these keep the definitions
of the label. -/
theorem latestBody_filter {calls : List LedgerCall} {keep : LedgerCall → Bool} {label : Text}
    (h : ∀ html, keep (.define label html) = true) :
    latestBody (calls.filter keep) label = latestBody calls label := by
  have hlookup : ∀ calls : List LedgerCall,
      (definedNotes (calls.filter keep)).lookup label = (definedNotes calls).lookup label := by
    intro calls
    induction calls with
    | nil => rfl
    | cons call calls ih =>
      cases call with
      | reference other =>
        rw [List.filter_cons]
        split <;> exact ih
      | define other html =>
        by_cases hlabel : label = other
        · subst hlabel
          rw [List.filter_cons_of_pos (h html)]
          simp [definedNotes, LedgerCall.defined?]
        · rw [lookup_definedNotes_of_ne hlabel, ← ih, List.filter_cons]
          split
          · exact lookup_definedNotes_of_ne hlabel html _
          · rfl
  rw [latestBody, latestBody, ← List.filter_reverse, hlookup]

/-! ### Names -/

/-- What the standard rule puts before the number of a note. -/
def docPrefix (context : PageContext) : Text :=
  match context.docId with
  | some docId => '-' :: docId ++ ['-']
  | none => []

/-- The standard name of a note. -/
def noteName (context : PageContext) (number : Nat) : Text :=
  docPrefix context ++ Text.decimal (number + 1)

/-- The standard rule names a token after the number of its note, whatever stands around it. -/
theorem anchorName_eq {tokens : List FootnoteToken} {index : Nat} {token : FootnoteToken}
    (h : tokens[index]? = some token) (context : PageContext) :
    standardNaming.anchorName tokens index context = noteName context token.number := by
  simp only [standardNaming, h, noteName, docPrefix]
  cases context.docId <;> simp

/-- The id of the item of the note that has the given tokens. -/
def itemId (context : PageContext) (tokens : List FootnoteToken) : Text :=
  "fn".toList ++ standardNaming.anchorName tokens 0 context

/-- The id of a reference. -/
def referenceId (context : PageContext) (token : FootnoteToken) : Text :=
  "fnref".toList ++ (referenceName? [token] 0 context standardNaming).getD []

/-- The name of a reference is that of its note, with its sub-number. -/
theorem referenceName?_eq {tokens : List FootnoteToken} {index : Nat} {token : FootnoteToken}
    (h : tokens[index]? = some token) (context : PageContext) :
    referenceName? tokens index context standardNaming =
      some (token.withSubNumber (noteName context token.number)) := by
  rw [referenceName?, anchorName_eq h, h]
  rfl

/-- What a sub-number adds to a name. -/
def subNumberSuffix (subNumber : Nat) : Text :=
  if subNumber = 0 then [] else ':' :: Text.decimal subNumber

/-- A name with a sub-number. -/
theorem FootnoteToken.withSubNumber_eq (token : FootnoteToken) (name : Text) :
    token.withSubNumber name = name ++ subNumberSuffix token.subNumber := by
  unfold FootnoteToken.withSubNumber subNumberSuffix
  split <;> simp

/-- Different sub-numbers are written differently. -/
theorem subNumberSuffix_inj {m n : Nat} (h : subNumberSuffix m = subNumberSuffix n) : m = n := by
  cases m with
  | zero => cases n <;> simp [subNumberSuffix] at h ⊢
  | succ m =>
    cases n with
    | zero => simp [subNumberSuffix] at h
    | succ n => exact Text.decimal_inj (List.cons.inj h).2

/-- **A number and a sub-number** are read back from what is written: the number ends at the first
character that is no digit. -/
theorem decimal_append_suffix_inj {m n s t : Nat}
    (h : Text.decimal m ++ subNumberSuffix s = Text.decimal n ++ subNumberSuffix t) :
    m = n ∧ s = t := by
  have hsuffix : ∀ s, ∀ c ∈ (subNumberSuffix s).head?, c.isDigit = false := by
    intro s
    unfold subNumberSuffix
    split <;> simp
  have hdigits : Text.decimal m = Text.decimal n := by
    have hread := congrArg (List.takeWhile Char.isDigit) h
    rwa [Text.takeWhile_append_of_head (fun _ => Text.isDigit_of_mem_decimal) (hsuffix s),
      Text.takeWhile_append_of_head (fun _ => Text.isDigit_of_mem_decimal) (hsuffix t)] at hread
  rw [hdigits] at h
  exact ⟨Text.decimal_inj hdigits, subNumberSuffix_inj (List.append_cancel_left h)⟩

/-- The id of a reference, written out. -/
theorem referenceId_eq (context : PageContext) (token : FootnoteToken) :
    referenceId context token = "fnref".toList ++ (docPrefix context ++
      (Text.decimal (token.number + 1) ++ subNumberSuffix token.subNumber)) := by
  rw [referenceId, referenceName?_eq rfl, Option.getD_some, FootnoteToken.withSubNumber_eq,
    noteName, List.append_assoc]

/-- **The ids of references** tell their numbers and sub-numbers apart. -/
theorem referenceId_inj {context : PageContext} {first second : FootnoteToken}
    (h : referenceId context first = referenceId context second) :
    first.number = second.number ∧ first.subNumber = second.subNumber := by
  rw [referenceId_eq, referenceId_eq] at h
  have h := decimal_append_suffix_inj (List.append_cancel_left (List.append_cancel_left h))
  exact ⟨by omega, h.2⟩

/-- The id of an item, written out. -/
theorem itemId_eq {tokens : List FootnoteToken} {token : FootnoteToken}
    (h : tokens.head? = some token) (context : PageContext) :
    itemId context tokens = "fn".toList ++ noteName context token.number := by
  rw [itemId, anchorName_eq (by rwa [← List.head?_eq_getElem?])]

/-- **The ids of items** tell the numbers of their notes apart. -/
theorem itemId_inj {context : PageContext} {first second : List FootnoteToken}
    {token other : FootnoteToken} (hfirst : first.head? = some token)
    (hsecond : second.head? = some other) (h : itemId context first = itemId context second) :
    token.number = other.number := by
  rw [itemId_eq hfirst, itemId_eq hsecond] at h
  have h := Text.decimal_inj (List.append_cancel_left (List.append_cancel_left h))
  omega

/-- **No item has the id of a reference**: a name starts with a hyphen or a digit. -/
theorem itemId_ne_referenceId {context : PageContext} {tokens : List FootnoteToken}
    {first : FootnoteToken} (h : tokens.head? = some first) (token : FootnoteToken) :
    itemId context tokens ≠ referenceId context token := by
  intro heq
  rw [itemId_eq h, referenceId] at heq
  -- behind the two letters that both share, the id of a reference has a third
  have hsplit : "fnref".toList = "fn".toList ++ ['r', 'e', 'f'] := rfl
  rw [hsplit, List.append_assoc] at heq
  have hletter : (noteName context first.number).head? = some 'r' :=
    congrArg List.head? (List.append_cancel_left heq)
  obtain ⟨digit, digits, hdigits⟩ :=
    List.exists_cons_of_ne_nil (Text.decimal_ne_nil (first.number + 1))
  have hdigit : digit.isDigit = true :=
    Text.isDigit_of_mem_decimal (n := first.number + 1) (by simp [hdigits])
  rw [noteName, docPrefix, hdigits] at hletter
  split at hletter
  · simp at hletter
  · obtain rfl : digit = 'r' := by simpa using hletter
    simp at hdigit

/-! ### Back-links -/

/-- A link back to the place with the given id. -/
def linkBack (id : Text) : Text :=
  "<a href=\"#".toList ++ id ++ "\" class=\"footnote-backref\">↩\uFE0E</a>".toList

/-- The link of the token at a place leads to the id of its reference. -/
theorem backLink_referenceName {tokens : List FootnoteToken} {index : Nat} {token : FootnoteToken}
    (h : tokens[index]? = some token) (context : PageContext) :
    (referenceName? tokens index context standardNaming).map backLink =
      some (linkBack (referenceId context token)) := by
  rw [referenceName?_eq h, referenceId, referenceName?_eq rfl]
  rfl

/-- **The anchors of the site** lead back to the references of the tokens, one after the other. -/
theorem flatMap_backrefAnchor (context : PageContext) (tokens : List FootnoteToken) :
    ((List.range tokens.length).flatMap fun index =>
        backrefAnchor tokens index context standardNaming) =
      tokens.flatMap fun token => linkBack (referenceId context token) := by
  refine flatMap_range_eq fun index hindex => ?_
  rw [backrefAnchor, backLink_referenceName (List.getElem?_eq_getElem hindex)]
  rfl

/-- **The stock anchors** lead back to the same references, each after a space. -/
theorem flatMap_stockAnchor (context : PageContext) (tokens : List FootnoteToken) :
    ((List.range tokens.length).flatMap fun index =>
        stockAnchor tokens index context standardNaming) =
      tokens.flatMap fun token => ' ' :: linkBack (referenceId context token) := by
  refine flatMap_range_eq fun index hindex => ?_
  have hlink := backLink_referenceName (List.getElem?_eq_getElem hindex) context
  obtain ⟨name, hname, hback⟩ := Option.map_eq_some_iff.1 hlink
  rw [stockAnchor, hname, ← hback]
  rfl

/-! ### Any calls -/

/-- A label that is referred to has a first token, which has the rank of the label. -/
theorem head?_tokensOf {labels : List Text} {label : Text} (h : label ∈ labels) :
    (tokensOf (numbered [] labels) label).head? =
      some ⟨labels.eraseDups.idxOf label, 0, label⟩ := by
  have hcount := List.count_pos_iff.2 h
  obtain ⟨count, hsucc⟩ : ∃ count, labels.count label = count + 1 :=
    ⟨_, (Nat.succ_pred_eq_of_pos hcount).symm⟩
  rw [tokensOf_numbered, hsucc, FootnoteLedger.tokens, List.range_succ_eq_map]
  rfl

/-- The ids of references are different. -/
theorem nodup_map_referenceId (labels : List Text) (context : PageContext) :
    ((numbered [] labels).map (referenceId context)).Nodup := by
  rw [List.Nodup, List.pairwise_map]
  refine (pairwise_numbered [] _).imp fun hlater heq => ?_
  obtain ⟨hnumber, hsub⟩ := referenceId_inj heq
  exact absurd hsub (Nat.ne_of_lt (hlater hnumber))

/-- The ids of items are different. -/
theorem nodup_map_itemId (labels : List Text) (context : PageContext) :
    (labels.eraseDups.map fun label =>
      itemId context (tokensOf (numbered [] labels) label)).Nodup := by
  rw [List.Nodup, List.pairwise_map]
  refine (nodup_eraseDups _).imp_of_mem fun hfirst hsecond hne heq => hne ?_
  refine (List.idxOf_inj hfirst).1 ?_
  rw [List.mem_eraseDups] at hfirst hsecond
  exact itemId_inj (head?_tokensOf hfirst) (head?_tokensOf hsecond) heq

/-- The item of a token has the id of the item of its label. -/
theorem itemId_singleton {labels : List Text} {token : FootnoteToken}
    (h : token ∈ numbered [] labels) (context : PageContext) :
    itemId context [token] = itemId context (tokensOf (numbered [] labels) token.label) := by
  obtain ⟨hlabel, hnumber⟩ := number_of_mem_numbered h
  rw [itemId_eq (head?_tokensOf hlabel), itemId_eq rfl, hnumber]
  rfl

/-- The first token of a label after calls. -/
theorem head?_tokensOf_collect {calls : List LedgerCall} {label : Text}
    (h : label ∈ referencedLabels calls) : (tokensOf (collect {} calls).1 label).head? =
      some ⟨(referencedLabels calls).eraseDups.idxOf label, 0, label⟩ := by
  rw [tokens_collect_fresh, head?_tokensOf h]

/-- The ids of the references of any calls are different. -/
theorem nodup_referenceId (calls : List LedgerCall) (context : PageContext) :
    ((collect {} calls).1.map (referenceId context)).Nodup := by
  rw [tokens_collect_fresh]
  exact nodup_map_referenceId _ context

/-- The ids of the items of any calls are different. -/
theorem nodup_itemId (calls : List LedgerCall) (context : PageContext) :
    ((referencedLabels calls).eraseDups.map fun label =>
      itemId context (tokensOf (collect {} calls).1 label)).Nodup := by
  rw [tokens_collect_fresh]
  exact nodup_map_itemId _ context

/-- A reference links to the item of its note and has its own id. -/
theorem referenceMarkup_collect {calls : List LedgerCall} {token : FootnoteToken}
    (h : token ∈ (collect {} calls).1) (context : PageContext) :
    referenceMarkup token context standardNaming =
      "<sup class=\"footnote-ref\"><a href=\"#".toList ++
        itemId context (tokensOf (collect {} calls).1 token.label) ++ "\" id=\"".toList ++
        referenceId context token ++ "\">".toList ++ captionAt [token] 0 ++
        "</a></sup>".toList := by
  rw [tokens_collect_fresh] at h
  have hname : itemId context (tokensOf (collect {} calls).1 token.label) =
      "fn".toList ++ standardNaming.anchorName [token] 0 context := by
    rw [tokens_collect_fresh, ← itemId_singleton h]
    rfl
  have hhref : "<sup class=\"footnote-ref\"><a href=\"#fn".toList =
      "<sup class=\"footnote-ref\"><a href=\"#".toList ++ "fn".toList := rfl
  have hid : "\" id=\"fnref".toList = "\" id=\"".toList ++ "fnref".toList := rfl
  have hcaption : standardNaming.caption [token] 0 context = captionAt [token] 0 := rfl
  unfold referenceMarkup
  rw [hname, hhref, hid, hcaption, referenceId]
  simp only [List.append_assoc]

/-- Whether a call is a reference, or the definition of one of the labels. -/
def LedgerCall.isNeeded (labels : List Text) : LedgerCall → Bool
  | .reference _ => true
  | .define label _ => labels.contains label

/-- Needed calls have all references. -/
theorem referencedLabels_filter_isNeeded (labels : List Text) (calls : List LedgerCall) :
    referencedLabels (calls.filter (·.isNeeded labels)) = referencedLabels calls := by
  induction calls with
  | nil => rfl
  | cons call calls ih =>
    cases call with
    | reference label => exact congrArg (label :: ·) ih
    | define label html =>
      rw [List.filter_cons]
      split <;> exact ih

/-- The section has nothing of the definitions of other labels. -/
theorem renderSection_filter_isNeeded (calls : List LedgerCall) (context : PageContext)
    (naming : FootnoteNaming) (anchor : FootnoteAnchor) :
    (collect {} (calls.filter (·.isNeeded (referencedLabels calls)))).2.renderSection
        context naming anchor =
      (collect {} calls).2.renderSection context naming anchor := by
  have hlabels := referencedLabels_filter_isNeeded (referencedLabels calls) calls
  rw [renderSection_collect, renderSection_collect, tokens_collect_fresh, tokens_collect_fresh,
    hlabels]
  refine noteSection_congr fun label hlabel => ?_
  rw [latestBody_filter fun html => ?_]
  simpa [LedgerCall.isNeeded] using List.mem_eraseDups.1 hlabel

end Lectern.Page
