import Lectern.Proofs.Page.Passage
import Mathlib.Data.List.Flatten
import Mathlib.Data.List.Nodup
import Mathlib.Data.List.Pairwise

/-!
# References that Stay

Which references are still on a page when the footnote section has been written. Those in the text
are. Those of a footnote definition come back with the body of its note, if the note is shown, and
if no later definition has taken its place. All the same they have been counted.

## Main results

* `forall_mem_shownTokens_iff`: all references stay exactly if no definition with references in
  it is left out.
* `nodup_shownTokens`: no reference stays twice.
-/

namespace Lectern.Page

/-- The tokens of the latest footnote definition with a label. -/
def latestTokens (label : Text) (parts : List (Option Text × List FootnoteToken)) :
    Option (List FootnoteToken) :=
  (noteTokens parts).reverse.lookup label

/-- The tokens of the references that stay when the definitions with the given labels are shown:
those in the text, and those of the latest definitions. -/
def shownTokens (labels : List Text) (parts : List (Option Text × List FootnoteToken)) :
    List FootnoteToken :=
  flowTokens parts ++ labels.flatMap fun label => (latestTokens label parts).getD []

/-- Whether the references of all passages stay: each footnote definition with a reference in it
has one of the labels, and no later definition has its label. -/
def KeepsReferences (labels : List Text) (passages : List Passage) : Prop :=
  (∀ passage ∈ passages, passage.labels ≠ [] → ∀ label ∈ passage.note, label ∈ labels) ∧
    passages.Pairwise fun passage later =>
      passage.labels ≠ [] → ∀ label ∈ passage.note, later.note ≠ some label

instance (labels : List Text) (passages : List Passage) :
    Decidable (KeepsReferences labels passages) := inferInstanceAs (Decidable (_ ∧ _))

variable {label : Text} {labels : List Text} {note : Option Text}
  {tokens : List FootnoteToken} {token : FootnoteToken}
  {parts : List (Option Text × List FootnoteToken)}

/-- An earlier definition is the latest if no later one has its label. -/
theorem latestTokens_cons : latestTokens label ((note, tokens) :: parts) =
    (latestTokens label parts).or (if note = some label then some tokens else none) := by
  cases note with
  | none => simp [latestTokens, noteTokens]
  | some other =>
    have hnotes : noteTokens ((some other, tokens) :: parts) =
        (other, tokens) :: noteTokens parts := rfl
    rw [latestTokens, hnotes, List.reverse_cons, List.lookup_append]
    by_cases hlabel : label = other
    · simp [latestTokens, hlabel]
    · have hne : (label == other) = false := by simpa using hlabel
      simp [latestTokens, List.lookup_cons, hne, Ne.symm hlabel]

/-- There is no latest definition exactly if there is none. -/
theorem latestTokens_eq_none_iff :
    latestTokens label parts = none ↔ ∀ part ∈ parts, part.1 ≠ some label := by
  induction parts with
  | nil => simp [latestTokens, noteTokens]
  | cons part parts ih =>
    obtain ⟨note, tokens⟩ := part
    rw [latestTokens_cons, Option.or_eq_none_iff, ih, List.forall_mem_cons, and_comm]
    simp

/-- The latest definition is one of them. -/
theorem mem_of_latestTokens (h : latestTokens label parts = some tokens) :
    (some label, tokens) ∈ parts := by
  obtain ⟨left, right, hnotes, -⟩ := List.lookup_eq_some_iff.1 h
  have hmem : (label, tokens) ∈ noteTokens parts := by
    rw [← List.mem_reverse, hnotes]
    simp
  obtain ⟨⟨note, tokens'⟩, hpart, hsome⟩ := List.mem_filterMap.1 hmem
  obtain ⟨label', rfl, hpair⟩ := Option.map_eq_some_iff.1 hsome
  cases hpair
  exact hpart

/-- What the latest definition has is in a part with its label. -/
theorem exists_part_of_mem_latestTokens (h : token ∈ (latestTokens label parts).getD []) :
    ∃ tokens, (some label, tokens) ∈ parts ∧ token ∈ tokens := by
  cases hlatest : latestTokens label parts with
  | none => simp [hlatest] at h
  | some tokens => exact ⟨tokens, mem_of_latestTokens hlatest, by simpa [hlatest] using h⟩

/-- What stands in the text is in a part without a label. -/
theorem exists_part_of_mem_flowTokens (h : token ∈ flowTokens parts) :
    ∃ tokens, (none, tokens) ∈ parts ∧ token ∈ tokens := by
  obtain ⟨⟨note, tokens⟩, hpart, hmem⟩ := List.mem_flatMap.1 h
  cases note with
  | none => exact ⟨tokens, hpart, hmem⟩
  | some label => simp at hmem

/-- What stays is one of the references. -/
theorem mem_of_mem_shownTokens (h : token ∈ shownTokens labels parts) :
    token ∈ parts.flatMap (·.2) := by
  rw [List.mem_flatMap]
  rcases List.mem_append.1 h with h | h
  · obtain ⟨tokens, hpart, hmem⟩ := exists_part_of_mem_flowTokens h
    exact ⟨_, hpart, hmem⟩
  · obtain ⟨label, -, h⟩ := List.mem_flatMap.1 h
    obtain ⟨tokens, hpart, hmem⟩ := exists_part_of_mem_latestTokens h
    exact ⟨_, hpart, hmem⟩

/-- **What stays of a part in front of others**: it stands in the text, or its definition is shown
and no later one takes its place. -/
theorem mem_shownTokens_cons : token ∈ shownTokens labels ((note, tokens) :: parts) ↔
    token ∈ shownTokens labels parts ∨
      token ∈ tokens ∧ ∀ label ∈ note, label ∈ labels ∧ ∀ part ∈ parts, part.1 ≠ some label := by
  have hflow : token ∈ flowTokens ((note, tokens) :: parts) ↔
      token ∈ flowTokens parts ∨ note = none ∧ token ∈ tokens := by
    cases note <;> simp [flowTokens, or_comm]
  have hlatest : ∀ label, token ∈ (latestTokens label ((note, tokens) :: parts)).getD [] ↔
      token ∈ (latestTokens label parts).getD [] ∨
        latestTokens label parts = none ∧ note = some label ∧ token ∈ tokens := by
    intro label
    rw [latestTokens_cons]
    cases latestTokens label parts with
    | none => by_cases hnote : note = some label <;> simp [hnote]
    | some tokens' => simp
  simp only [shownTokens, List.mem_append, List.mem_flatMap, hflow, hlatest,
    latestTokens_eq_none_iff]
  constructor
  · rintro ((hmem | ⟨rfl, hmem⟩) | ⟨label, hlabel, hmem | ⟨hlater, rfl, hmem⟩⟩)
    · exact .inl (.inl hmem)
    · exact .inr ⟨hmem, by simp⟩
    · exact .inl (.inr ⟨label, hlabel, hmem⟩)
    · refine .inr ⟨hmem, fun other hother => ?_⟩
      obtain rfl := Option.some.inj hother
      exact ⟨hlabel, hlater⟩
  · rintro ((hmem | ⟨label, hlabel, hmem⟩) | ⟨hmem, hshown⟩)
    · exact .inl (.inl hmem)
    · exact .inr ⟨label, hlabel, .inl hmem⟩
    · cases note with
      | none => exact .inl (.inr ⟨rfl, hmem⟩)
      | some label =>
        obtain ⟨hlabel, hlater⟩ := hshown label rfl
        exact .inr ⟨label, hlabel, .inr ⟨hlater, rfl, hmem⟩⟩

/-- The footnote definitions of passages are those of the tokens that they are told by. -/
theorem forall_mem_told_iff {earlier : List Text} {passages : List Passage}
    {p : Option Text → Prop} :
    (∀ part ∈ told earlier passages, p part.1) ↔ ∀ passage ∈ passages, p passage.note := by
  induction passages generalizing earlier with
  | nil => simp [told]
  | cons passage rest ih => rw [told, List.forall_mem_cons, List.forall_mem_cons, ih]

/-- There are as many tokens as references. -/
theorem numbered_eq_nil_iff {earlier labels : List Text} : numbered earlier labels = [] ↔
    labels = [] := by
  cases labels <;> simp [numbered]

/-- What holds of every token, holds if there is a reference. -/
theorem forall_mem_numbered_iff {earlier labels : List Text} {p : Prop} :
    (∀ token ∈ numbered earlier labels, p) ↔ (labels ≠ [] → p) := by
  constructor
  · intro hall hlabels
    obtain ⟨token, htoken⟩ := List.exists_mem_of_ne_nil _ (mt numbered_eq_nil_iff.1 hlabels)
    exact hall token htoken
  · intro hp token htoken
    exact hp fun hlabels => by simp [hlabels, numbered] at htoken

/-- The first passage of those whose references stay. -/
theorem keepsReferences_cons {passage : Passage} {rest : List Passage} :
    KeepsReferences labels (passage :: rest) ↔
      (passage.labels ≠ [] → ∀ label ∈ passage.note,
        label ∈ labels ∧ ∀ later ∈ rest, later.note ≠ some label) ∧
        KeepsReferences labels rest := by
  simp only [KeepsReferences, List.forall_mem_cons, List.pairwise_cons]
  constructor
  · rintro ⟨⟨hshown, hmem⟩, hlast, hpairs⟩
    exact ⟨fun hlabels label hlabel => ⟨hshown hlabels label hlabel,
      fun later hlater => hlast later hlater hlabels label hlabel⟩, hmem, hpairs⟩
  · rintro ⟨hhead, hmem, hpairs⟩
    exact ⟨⟨fun hlabels label hlabel => (hhead hlabels label hlabel).1, hmem⟩,
      fun later hlater hlabels label hlabel => (hhead hlabels label hlabel).2 later hlater, hpairs⟩

/-- **All references stay** exactly if no footnote definition with one in it is left out. -/
theorem forall_mem_shownTokens_iff {earlier : List Text} {passages : List Passage}
    (h : ((told earlier passages).flatMap (·.2)).Nodup) :
    (∀ token ∈ (told earlier passages).flatMap (·.2),
        token ∈ shownTokens labels (told earlier passages)) ↔
      KeepsReferences labels passages := by
  induction passages generalizing earlier with
  | nil => simp [told, KeepsReferences]
  | cons passage rest ih =>
    rw [told, List.flatMap_cons, List.nodup_append'] at h
    obtain ⟨-, hrest, hdisjoint⟩ := h
    -- a reference of the first passage is none of the others, and the other way round
    have hfirst : ∀ token ∈ numbered earlier passage.labels,
        (token ∈ shownTokens labels (told earlier (passage :: rest)) ↔
          ∀ label ∈ passage.note, label ∈ labels ∧
            ∀ later ∈ rest, later.note ≠ some label) := by
      intro token htoken
      have hother : token ∉ shownTokens labels (told (earlier ++ passage.labels) rest) :=
        fun hmem => hdisjoint htoken (mem_of_mem_shownTokens hmem)
      rw [told, mem_shownTokens_cons, or_iff_right hother, and_iff_right htoken]
      refine forall₂_congr fun label _ => and_congr_right fun _ => ?_
      exact forall_mem_told_iff (p := (· ≠ some label))
    have hothers : ∀ token ∈ (told (earlier ++ passage.labels) rest).flatMap (·.2),
        (token ∈ shownTokens labels (told earlier (passage :: rest)) ↔
          token ∈ shownTokens labels (told (earlier ++ passage.labels) rest)) := by
      intro token htoken
      have hother : token ∉ numbered earlier passage.labels := fun hmem => hdisjoint hmem htoken
      rw [told, mem_shownTokens_cons, or_iff_left fun hmem => hother hmem.1]
    have hsplit : (told earlier (passage :: rest)).flatMap (·.2) =
        numbered earlier passage.labels ++
          (told (earlier ++ passage.labels) rest).flatMap (·.2) := rfl
    rw [hsplit, List.forall_mem_append, forall₂_congr hfirst, forall_mem_numbered_iff,
      forall₂_congr hothers, ih hrest, keepsReferences_cons]

/-- A token is in one part only. -/
theorem eq_of_mem_parts (h : (parts.flatMap (·.2)).Nodup)
    {first second : Option Text × List FootnoteToken} (hfirst : first ∈ parts)
    (hsecond : second ∈ parts) (hmem : token ∈ first.2) (hmem' : token ∈ second.2) :
    first = second := by
  have hsymm : Std.Symm fun first second : Option Text × List FootnoteToken =>
      List.Disjoint first.2 second.2 :=
    ⟨fun _ _ hdisjoint _ hfirst hsecond => hdisjoint hsecond hfirst⟩
  by_contra hne
  exact (List.nodup_flatMap.1 h).2.forall hfirst hsecond hne hmem hmem'

/-- **What stays, stays once.** -/
theorem nodup_shownTokens (hlabels : labels.Nodup) (h : (parts.flatMap (·.2)).Nodup) :
    (shownTokens labels parts).Nodup := by
  obtain ⟨hparts, hpairs⟩ := List.nodup_flatMap.1 h
  refine List.nodup_append'.2 ⟨?_, List.nodup_flatMap.2 ⟨fun label _ => ?_, ?_⟩, ?_⟩
  · refine h.sublist (List.Sublist.flatMap_right parts fun ⟨note, tokens⟩ _ => ?_)
    cases note with
    | none => exact .refl tokens
    | some label => exact List.nil_sublist tokens
  · cases hlatest : latestTokens label parts with
    | none => exact .nil
    | some tokens => exact hparts _ (mem_of_latestTokens hlatest)
  · refine hlabels.imp fun hne token hfirst hsecond => hne ?_
    obtain ⟨tokens, hpart, hmem⟩ := exists_part_of_mem_latestTokens hfirst
    obtain ⟨tokens', hpart', hmem'⟩ := exists_part_of_mem_latestTokens hsecond
    exact Option.some.inj (congrArg Prod.fst (eq_of_mem_parts h hpart hpart' hmem hmem'))
  · intro token hflow hkept
    obtain ⟨label, -, hkept⟩ := List.mem_flatMap.1 hkept
    obtain ⟨tokens, hpart, hmem⟩ := exists_part_of_mem_flowTokens hflow
    obtain ⟨tokens', hpart', hmem'⟩ := exists_part_of_mem_latestTokens hkept
    exact nomatch congrArg Prod.fst (eq_of_mem_parts h hpart hpart' hmem hmem')

end Lectern.Page
