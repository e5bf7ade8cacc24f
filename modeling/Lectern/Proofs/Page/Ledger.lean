import Lectern.Page.Footnote
import Mathlib.Data.List.Basic

/-!
# The Numbers of Footnotes

What the ledger of footnotes hands out and what it keeps, over any sequence of references and
definitions. The invariant is an equation: behind references to `labels`, the ledger holds `tally
labels`, the different labels in the order of their first references, each with its number of
references. One reference keeps it and returns the next token of the sequence; a definition does not
touch it.

## Main results

* `FootnoteLedger.reference_eq`: one reference behind others.
* `references_collect`, `tokens_collect`: the ledger and the tokens after any calls.
* `numbered_eq`: the tokens by their places.
* `filter_numbered`: the tokens of one label.
-/

namespace Lectern.Page

/-! ### Different labels -/

/-- A further occurrence of a label leaves the different labels as they are. -/
theorem eraseDups_concat_of_mem {labels : List Text} {label : Text} (h : label ∈ labels) :
    (labels ++ [label]).eraseDups = labels.eraseDups := by
  simp [List.eraseDups_append, List.removeAll, h]

/-- A new label comes last. -/
theorem eraseDups_concat_of_not_mem {labels : List Text} {label : Text} (h : label ∉ labels) :
    (labels ++ [label]).eraseDups = labels.eraseDups ++ [label] := by
  simp [List.eraseDups_append, List.removeAll, h, List.eraseDups_cons]

/-- The different labels are different. Each label comes behind those before it, if it is new. -/
theorem nodup_eraseDups (labels : List Text) : labels.eraseDups.Nodup := by
  have hbehind : ∀ earlier : List Text, earlier.eraseDups.Nodup →
      (earlier ++ labels).eraseDups.Nodup := by
    induction labels with
    | nil => simp
    | cons label labels ih =>
      intro earlier hnodup
      rw [List.append_cons]
      refine ih (earlier ++ [label]) ?_
      by_cases hmem : label ∈ earlier
      · rwa [eraseDups_concat_of_mem hmem]
      · rw [eraseDups_concat_of_not_mem hmem, List.nodup_append]
        refine ⟨hnodup, by simp, fun other hother => ?_⟩
        have hne : other ≠ label := fun heq => hmem (heq ▸ List.mem_eraseDups.1 hother)
        simpa using hne
  simpa using hbehind [] (by simp)

/-- **The rank of a label** among the different labels is settled by its first occurrence. -/
theorem idxOf_eraseDups_append (labels rest : List Text) {label : Text} (h : label ∈ labels) :
    (labels ++ rest).eraseDups.idxOf label = labels.eraseDups.idxOf label := by
  rw [List.eraseDups_append, List.idxOf_append, if_pos (List.mem_eraseDups.2 h)]

/-! ### One reference -/

/-- A reference leaves the definitions alone. -/
theorem FootnoteLedger.definitions_reference (ledger : FootnoteLedger) (label : Text) :
    (ledger.reference label).2.definitions = ledger.definitions := by
  unfold FootnoteLedger.reference
  split <;> rfl

/-- The different labels in the order of their first occurrences, each with its number of
occurrences. -/
def tally (labels : List Text) : List (Text × Nat) :=
  labels.eraseDups.map fun label => (label, labels.count label)

/-- The token of a reference to `label` behind references to `labels`. -/
def nextToken (labels : List Text) (label : Text) : FootnoteToken :=
  ⟨(labels ++ [label]).eraseDups.idxOf label, labels.count label, label⟩

/-- The place of a label that the tally has. -/
theorem findIdx?_tally_of_mem {labels : List Text} {label : Text} (h : label ∈ labels) :
    (tally labels).findIdx? (·.1 = label) = some (labels.eraseDups.idxOf label) := by
  rw [tally, List.findIdx?_map, List.findIdx?_eq_some_iff_findIdx_eq]
  refine ⟨List.idxOf_lt_length_of_mem (List.mem_eraseDups.2 h), ?_⟩
  have hsame : (fun other : Text => decide (other = label)) = (· == label) := by
    funext other
    by_cases heq : other = label <;> simp [heq]
  simp only [List.idxOf, Function.comp_def, hsame]

/-- A label that the tally does not have. -/
theorem findIdx?_tally_of_not_mem {labels : List Text} {label : Text} (h : label ∉ labels) :
    (tally labels).findIdx? (·.1 = label) = none := by
  rw [tally, List.findIdx?_map, List.findIdx?_eq_none_iff]
  intro other hother
  have hne : other ≠ label := fun heq => h (heq ▸ List.mem_eraseDups.1 hother)
  simp [hne]

/-- The tally after one more occurrence of a label that it has. -/
theorem tally_concat_of_mem {labels : List Text} {label : Text} (h : label ∈ labels) :
    tally (labels ++ [label]) =
      (tally labels).modify (labels.eraseDups.idxOf label) fun (l, n) => (l, n + 1) := by
  rw [tally, eraseDups_concat_of_mem h]
  refine List.ext_getElem (by simp [tally]) fun i hi _ => ?_
  have hi' : i < labels.eraseDups.length := by simpa using hi
  rw [List.getElem_modify]
  simp only [tally, List.getElem_map, List.count_append]
  split
  · next heq =>
    have hlabel : labels.eraseDups[i] = label := by
      subst heq
      exact List.getElem_idxOf hi'
    simp [hlabel]
  · next hne =>
    have hlabel : label ≠ labels.eraseDups[i] := by
      rintro rfl
      exact hne ((nodup_eraseDups labels).idxOf_getElem i hi')
    simp [hlabel]

/-- **One reference** returns the next token and keeps the tally. -/
theorem FootnoteLedger.reference_eq {ledger : FootnoteLedger} {labels : List Text}
    (h : ledger.references = tally labels) (label : Text) :
    ledger.reference label =
      (nextToken labels label, { ledger with references := tally (labels ++ [label]) }) := by
  unfold FootnoteLedger.reference
  by_cases hmem : label ∈ labels
  · rw [h, findIdx?_tally_of_mem hmem]
    have hcount : (tally labels)[labels.eraseDups.idxOf label]? =
        some (label, labels.count label) := by
      have hlt := List.idxOf_lt_length_of_mem (List.mem_eraseDups.2 hmem)
      rw [tally, List.getElem?_map, List.getElem?_eq_getElem hlt, List.getElem_idxOf hlt]
      rfl
    simp only [hcount, nextToken, eraseDups_concat_of_mem hmem, tally_concat_of_mem hmem]
    rfl
  · rw [h, findIdx?_tally_of_not_mem hmem]
    have hlength : (tally labels).length = (labels.eraseDups ++ [label]).idxOf label := by
      rw [List.idxOf_append, if_neg (by simpa [List.mem_eraseDups] using hmem)]
      simp [tally]
    have htally : tally labels ++ [(label, 1)] = tally (labels ++ [label]) := by
      have hcount : ∀ other ∈ labels.eraseDups, other ≠ label := fun other hother heq =>
        hmem (heq ▸ List.mem_eraseDups.1 hother)
      rw [tally, tally, eraseDups_concat_of_not_mem hmem, List.map_append]
      congr 1
      · refine List.map_congr_left fun other hother => ?_
        simp [List.count_append, (hcount other hother).symm]
      · simp [List.count_append, List.count_eq_zero_of_not_mem hmem]
    simp only [nextToken, eraseDups_concat_of_not_mem hmem, hlength, htally,
      List.count_eq_zero_of_not_mem hmem]

/-- The item of an entry of the ledger, which stands at the place of its number. -/
def FootnoteLedger.entryItem (ledger : FootnoteLedger) (context : PageContext)
    (naming : FootnoteNaming) (anchor : FootnoteAnchor) (entry : (Text × Nat) × Nat) : Text :=
  ledger.item context naming anchor entry.2 entry.1.1 entry.1.2

/-- The section is written entry by entry. -/
theorem FootnoteLedger.renderSection_eq (ledger : FootnoteLedger) (context : PageContext)
    (naming : FootnoteNaming) (anchor : FootnoteAnchor) :
    ledger.renderSection context naming anchor =
      if ledger.references.isEmpty then []
      else
        "<hr class=\"footnotes-sep\">\n<section class=\"footnotes\">\n".toList ++
          "<ol class=\"footnotes-list\">\n".toList ++
          ledger.references.zipIdx.flatMap (ledger.entryItem context naming anchor) ++
          "</ol>\n</section>\n".toList :=
  rfl

/-! ### Calls -/

/-- A call of the ledger. -/
inductive LedgerCall where
  | reference (label : Text)
  | define (label html : Text)
deriving DecidableEq, Repr

/-- The label of a reference. -/
def LedgerCall.referenced? : LedgerCall → Option Text
  | .reference label => some label
  | .define _ _ => none

/-- The label and the body of a definition. -/
def LedgerCall.defined? : LedgerCall → Option (Text × Text)
  | .reference _ => none
  | .define label html => some (label, html)

/-- The labels of the references among the calls, in order. -/
def referencedLabels (calls : List LedgerCall) : List Text :=
  calls.filterMap LedgerCall.referenced?

/-- The definitions among the calls, in order. -/
def definedNotes (calls : List LedgerCall) : List (Text × Text) :=
  calls.filterMap LedgerCall.defined?

/-- The tokens that a ledger returns over **calls**, and the ledger behind them. -/
def collect (ledger : FootnoteLedger) : List LedgerCall → List FootnoteToken × FootnoteLedger
  | [] => ([], ledger)
  | .reference label :: calls =>
    let (token, ledger) := ledger.reference label
    let (tokens, ledger) := collect ledger calls
    (token :: tokens, ledger)
  | .define label html :: calls => collect (ledger.define label html) calls

/-- The tokens of references to `labels`, one after the other, behind `earlier` ones. -/
def numbered (earlier : List Text) : List Text → List FootnoteToken
  | [] => []
  | label :: labels => nextToken earlier label :: numbered (earlier ++ [label]) labels

/-- References behind references. -/
theorem numbered_append (earlier first second : List Text) :
    numbered earlier (first ++ second) =
      numbered earlier first ++ numbered (earlier ++ first) second := by
  induction first generalizing earlier with
  | nil => simp [numbered]
  | cons label first ih => simp [numbered, ih]

/-- **The ledger after calls**: it holds the tally of all references. -/
theorem references_collect {ledger : FootnoteLedger} {earlier : List Text}
    (h : ledger.references = tally earlier) (calls : List LedgerCall) :
    (collect ledger calls).2.references = tally (earlier ++ referencedLabels calls) := by
  induction calls generalizing ledger earlier with
  | nil => simpa [collect, referencedLabels] using h
  | cons call calls ih =>
    cases call with
    | reference label =>
      simp only [collect, FootnoteLedger.reference_eq h]
      rw [ih rfl]
      simp [referencedLabels, LedgerCall.referenced?]
    | define label html => exact ih h

/-- The ledger after calls holds the definitions, the latest first. -/
theorem definitions_collect (ledger : FootnoteLedger) (calls : List LedgerCall) :
    (collect ledger calls).2.definitions = (definedNotes calls).reverse ++ ledger.definitions := by
  induction calls generalizing ledger with
  | nil => rfl
  | cons call calls ih =>
    cases call with
    | reference label =>
      rw [collect, ih, ledger.definitions_reference label]
      rfl
    | define label html =>
      simp [collect, ih, FootnoteLedger.define, definedNotes, LedgerCall.defined?]

/-- **The tokens of calls** depend on the references alone. -/
theorem tokens_collect {ledger : FootnoteLedger} {earlier : List Text}
    (h : ledger.references = tally earlier) (calls : List LedgerCall) :
    (collect ledger calls).1 = numbered earlier (referencedLabels calls) := by
  induction calls generalizing ledger earlier with
  | nil => rfl
  | cons call calls ih =>
    cases call with
    | reference label =>
      simp only [collect, FootnoteLedger.reference_eq h]
      rw [ih rfl]
      rfl
    | define label html => exact ih h

/-- What a fresh ledger holds after calls. -/
theorem references_collect_fresh (calls : List LedgerCall) :
    (collect {} calls).2.references = tally (referencedLabels calls) := by
  have hfresh : ({} : FootnoteLedger).references = tally [] := rfl
  exact references_collect hfresh calls

/-- The tokens that a fresh ledger returns. -/
theorem tokens_collect_fresh (calls : List LedgerCall) :
    (collect {} calls).1 = numbered [] (referencedLabels calls) :=
  tokens_collect rfl calls

example : (collect {} [.reference ['a'], .define ['b'] [], .reference ['b'], .reference ['a']]).1 =
    [⟨0, 0, ['a']⟩, ⟨1, 0, ['b']⟩, ⟨0, 1, ['a']⟩] := by
  decide

/-! ### Numbers -/

/-- **The tokens by their places**: the rank of the label among the different ones, and the number
of references to it before the place. -/
theorem numbered_eq (earlier labels : List Text) :
    numbered earlier labels = labels.mapIdx fun place label =>
      ⟨(earlier ++ labels).eraseDups.idxOf label,
        ((earlier ++ labels).take (earlier.length + place)).count label, label⟩ := by
  induction labels generalizing earlier with
  | nil => rfl
  | cons label labels ih =>
    have hsplit : earlier ++ label :: labels = earlier ++ [label] ++ labels := by simp
    have hplace : ∀ place, (earlier ++ [label]).length + place = earlier.length + (place + 1) := by
      intro place
      rw [List.length_append, List.length_singleton]
      omega
    rw [numbered, ih, List.mapIdx_cons, ← hsplit]
    simp only [hplace]
    have hrank : (earlier ++ label :: labels).eraseDups.idxOf label =
        (earlier ++ [label]).eraseDups.idxOf label := by
      rw [hsplit]
      exact idxOf_eraseDups_append _ labels (by simp)
    congr 1
    simp [nextToken, hrank]

/-- **The tokens of one label**: its rank, and the sub-numbers from zero. -/
theorem filter_numbered (earlier labels : List Text) (label : Text) :
    (numbered earlier labels).filter (·.label = label) =
      (List.range' (earlier.count label) (labels.count label)).map fun subNumber =>
        ⟨(earlier ++ labels).eraseDups.idxOf label, subNumber, label⟩ := by
  induction labels generalizing earlier with
  | nil => rfl
  | cons other labels ih =>
    have hsplit : earlier ++ other :: labels = earlier ++ [other] ++ labels := by simp
    rw [numbered, hsplit]
    by_cases hlabel : other = label
    · subst hlabel
      rw [List.filter_cons_of_pos (by simp [nextToken]), ih, List.count_cons_self,
        List.range'_succ, List.map_cons, nextToken,
        idxOf_eraseDups_append (earlier ++ [other]) labels (by simp)]
      simp
    · rw [List.filter_cons_of_neg (by simp [nextToken, hlabel]), ih]
      simp [hlabel]

/-- The label of a token is one of those referred to, and its number is the rank of the label. -/
theorem number_of_mem_numbered {earlier labels : List Text} {token : FootnoteToken}
    (h : token ∈ numbered earlier labels) : token.label ∈ labels ∧
      token.number = (earlier ++ labels).eraseDups.idxOf token.label := by
  rw [numbered_eq] at h
  obtain ⟨place, hplace, rfl⟩ := List.mem_mapIdx.1 h
  exact ⟨List.getElem_mem hplace, rfl⟩

/-- **No two tokens** have the same number and the same sub-number. -/
theorem pairwise_numbered (earlier labels : List Text) :
    (numbered earlier labels).Pairwise fun first second =>
      first.number = second.number → first.subNumber < second.subNumber := by
  induction labels generalizing earlier with
  | nil => exact .nil
  | cons label labels ih =>
    refine .cons ?_ (ih (earlier ++ [label]))
    intro token htoken hnumber
    obtain ⟨hmem, hrank⟩ := number_of_mem_numbered htoken
    have hlabel : label = token.label := by
      have hfirst := idxOf_eraseDups_append (earlier ++ [label]) labels (List.mem_concat_self)
      exact (List.idxOf_inj (by simp)).1 (hfirst.trans (hnumber.trans hrank))
    have hsame : token ∈ (numbered (earlier ++ [label]) labels).filter (·.label = label) :=
      List.mem_filter.2 ⟨htoken, by simp [hlabel]⟩
    rw [filter_numbered] at hsame
    obtain ⟨subNumber, hrange, rfl⟩ := List.mem_map.1 hsame
    have := (List.mem_range'_1.1 hrange).1
    simp only [List.count_append, List.count_singleton_self] at this
    exact this

end Lectern.Page
