import Lectern.Proofs.Page.Slug
import Mathlib.Data.List.Nodup

/-!
# The Ids of Headings

The ids that one document's headings get, over any sequence of headings. The ledger records the
slugs alone and hands out slugs with numbers, so an id is a slug with the number of headings before
it that have the same one. What keeps such ids apart is that a number is read back from behind the
last hyphen: they are distinct unless the slug of a heading is that of a repeated one with a number,
which a heading is free to be.

## Main results

* `SlugLedger.Records.next`: one heading behind others.
* `headingIds_eq`: the ids of a sequence of headings.
* `numberedSlug_inj_of_pos`: slugs and numbers are read back.
* `slugify_eq_nil_iff`: the headings without a slug.
* `headingIds_distinct_iff`: the sequences of headings that get distinct ids, none of them empty.
-/

namespace Lectern.Page

open Unicode (isAlphanumeric isBlank toLowercase)

/-! ### The ledger over a sequence of headings -/

/-- The ids that headings get behind a ledger, one after the other. -/
def SlugLedger.ids (ledger : SlugLedger) : List Text → List Text
  | [] => []
  | s :: headings => (ledger.next s).1 :: (ledger.next s).2.ids headings

/-- The **ids of the headings** of a document. -/
def headingIds (headings : List Text) : List Text := SlugLedger.ids [] headings

/-- The ledger **records** the slugs of the headings so far: it has each of them, with the number of
headings that repeat it. -/
def SlugLedger.Records (ledger : SlugLedger) (slugs : List Text) : Prop :=
  ∀ slug, ledger.lookup slug = if slug ∈ slugs then some (slugs.count slug - 1) else none

/-- A slug with the number of headings before that have the same one. -/
def numberedSlug (slug : Text) (number : Nat) : Text :=
  slug ++ if number = 0 then [] else '-' :: Text.decimal number

/-- A fresh ledger records no slug. -/
theorem SlugLedger.records_nil : SlugLedger.Records [] [] := fun _ => rfl

/-- One more repetition is looked up under its slug only. -/
theorem SlugLedger.lookup_repeated (ledger : SlugLedger) (base slug : Text) :
    (ledger.repeated base).lookup slug =
      if slug = base then (ledger.lookup slug).map (· + 1) else ledger.lookup slug := by
  induction ledger with
  | nil => simp [SlugLedger.repeated]
  | cons entry ledger ih =>
    obtain ⟨first, count⟩ := entry
    have hcons : SlugLedger.repeated ((first, count) :: ledger) base =
        (first, if first = base then count + 1 else count) :: SlugLedger.repeated ledger base := by
      by_cases hfirst : first = base <;> simp [SlugLedger.repeated, hfirst]
    rw [hcons, List.lookup_cons, List.lookup_cons, ih]
    by_cases hslug : slug = first
    · subst hslug
      by_cases hbase : slug = base <;> simp [hbase]
    · have hne : (slug == first) = false := by simpa using hslug
      simp [hne]

/-- **One heading behind others**: its id is its slug with the number of those that have the same
one, and its slug is recorded. -/
theorem SlugLedger.Records.next {ledger : SlugLedger} {slugs : List Text} (h : ledger.Records slugs)
    (s : Text) :
    (ledger.next s).1 = numberedSlug (slugify s) (slugs.count (slugify s)) ∧
      (ledger.next s).2.Records (slugs ++ [slugify s]) := by
  have hbase := h (slugify s)
  by_cases hmem : slugify s ∈ slugs
  · have hpos := List.count_pos_iff.2 hmem
    rw [if_pos hmem] at hbase
    simp only [SlugLedger.next, hbase]
    refine ⟨?_, fun slug => ?_⟩
    · rw [numberedSlug, if_neg (by omega), Nat.sub_add_cancel hpos]
    · rw [SlugLedger.lookup_repeated, h slug]
      by_cases hslug : slug = slugify s
      · subst hslug
        simp [hmem, Nat.sub_add_cancel hpos]
      · have hne : (slugify s == slug) = false := by simpa using fun heq => hslug heq.symm
        simp [hslug, List.count_singleton, hne]
  · rw [if_neg hmem] at hbase
    simp only [SlugLedger.next, hbase]
    refine ⟨by simp [numberedSlug, List.count_eq_zero_of_not_mem hmem], fun slug => ?_⟩
    rw [List.lookup_append, h slug]
    by_cases hslug : slug = slugify s
    · simp [hslug, hmem, List.count_eq_zero_of_not_mem hmem]
    · have hne : (slugify s == slug) = false := by simpa using fun heq => hslug heq.symm
      by_cases hold : slug ∈ slugs <;> simp [hold, hslug, hne, List.count_singleton]

/-- Each slug of a sequence with the number of places before that have the same one. -/
def occurrences (earlier : List Text) : List Text → List (Text × Nat)
  | [] => []
  | slug :: slugs => (slug, earlier.count slug) :: occurrences (earlier ++ [slug]) slugs

/-- The ids of headings behind others. -/
theorem SlugLedger.Records.ids_eq {ledger : SlugLedger} {slugs : List Text}
    (h : ledger.Records slugs) (headings : List Text) :
    ledger.ids headings =
      (occurrences slugs (headings.map slugify)).map fun (slug, number) =>
        numberedSlug slug number := by
  induction headings generalizing ledger slugs with
  | nil => rfl
  | cons s headings ih =>
    obtain ⟨hid, hrecords⟩ := h.next s
    rw [SlugLedger.ids, ih hrecords, hid]
    rfl

/-- **The ids of a sequence of headings**: the slug of each, with the number of headings before it
that have the same one. -/
theorem headingIds_eq (headings : List Text) :
    headingIds headings =
      (occurrences [] (headings.map slugify)).map fun (slug, number) => numberedSlug slug number :=
  SlugLedger.records_nil.ids_eq headings

/-! ### Occurrences -/

/-- A slug occurs with the numbers from that of the places before on, once for each of its
places. -/
theorem mem_occurrences {earlier slugs : List Text} {slug : Text} {number : Nat} :
    (slug, number) ∈ occurrences earlier slugs ↔
      earlier.count slug ≤ number ∧ number < earlier.count slug + slugs.count slug := by
  induction slugs generalizing earlier with
  | nil => simp [occurrences]
  | cons first slugs ih =>
    rw [occurrences, List.mem_cons, ih]
    by_cases hfirst : slug = first
    · subst hfirst
      simp
      omega
    · have hne : (first == slug) = false := by simpa using fun heq => hfirst heq.symm
      simp [hfirst, List.count_cons, hne]

/-- No slug occurs twice with the same number. -/
theorem nodup_occurrences (earlier slugs : List Text) : (occurrences earlier slugs).Nodup := by
  induction slugs generalizing earlier with
  | nil => exact .nil
  | cons slug slugs ih =>
    refine List.nodup_cons.2 ⟨fun hmem => ?_, ih _⟩
    have hlater := (mem_occurrences.1 hmem).1
    rw [List.count_append, List.count_singleton_self] at hlater
    omega

/-! ### Slugs with numbers -/

/-- **A slug and a number are read back** from an id with a number: the number is the digits behind
the last hyphen. -/
theorem numberedSlug_inj_of_pos {first second : Text} {m n : Nat} (hm : 0 < m) (hn : 0 < n)
    (h : numberedSlug first m = numberedSlug second n) : first = second ∧ m = n := by
  simp only [numberedSlug, if_neg (Nat.ne_of_gt hm), if_neg (Nat.ne_of_gt hn)] at h
  have hdigits : ∀ k, ∀ c ∈ (Text.decimal k).reverse, c.isDigit = true := fun k c hc =>
    Text.isDigit_of_mem_decimal (List.mem_reverse.1 hc)
  have hhyphen : ∀ slug : Text, ∀ c ∈ ('-' :: slug.reverse).head?, c.isDigit = false := by simp
  have hreverse : (Text.decimal m).reverse ++ '-' :: first.reverse =
      (Text.decimal n).reverse ++ '-' :: second.reverse := by
    simpa using congrArg List.reverse h
  have hnumber : (Text.decimal m).reverse = (Text.decimal n).reverse := by
    have hread := congrArg (List.takeWhile Char.isDigit) hreverse
    rwa [Text.takeWhile_append_of_head (hdigits m) (hhyphen first),
      Text.takeWhile_append_of_head (hdigits n) (hhyphen second)] at hread
  rw [hnumber] at hreverse
  have hslug := (List.cons.inj (List.append_cancel_left hreverse)).2
  exact ⟨List.reverse_inj.1 hslug, Text.decimal_inj (List.reverse_inj.1 hnumber)⟩

/-- An id that two occurrences have is the slug of one of them, and the slug of the other with its
number. -/
theorem eq_numberedSlug_of_eq {first second : Text} {m n : Nat}
    (h : numberedSlug first m = numberedSlug second n) :
    (first = second ∧ m = n) ∨ (m = 0 ∧ 0 < n ∧ first = numberedSlug second n) ∨
      (n = 0 ∧ 0 < m ∧ second = numberedSlug first m) := by
  rcases Nat.eq_zero_or_pos m with rfl | hm <;> rcases Nat.eq_zero_or_pos n with rfl | hn
  · exact .inl ⟨by simpa [numberedSlug] using h, rfl⟩
  · exact .inr (.inl ⟨rfl, hn, by simpa [numberedSlug] using h⟩)
  · exact .inr (.inr ⟨rfl, hm, by simpa [numberedSlug] using h.symm⟩)
  · exact .inl (numberedSlug_inj_of_pos hm hn h)

/-- Some slug **looks numbered**: it is a slug that is repeated, with the number of one of its
repetitions. -/
def LooksNumbered (slugs : List Text) : Prop :=
  ∃ slug number, 0 < number ∧ number < slugs.count slug ∧ numberedSlug slug number ∈ slugs

/-- **Distinct ids**: those of all sequences of slugs of which none looks numbered. -/
theorem nodup_numberedSlug_iff (slugs : List Text) :
    ((occurrences [] slugs).map fun (slug, number) => numberedSlug slug number).Nodup ↔
      ¬ LooksNumbered slugs := by
  have hmem : ∀ slug number, (slug, number) ∈ occurrences [] slugs ↔ number < slugs.count slug := by
    simp [mem_occurrences]
  rw [List.nodup_map_iff_inj_on (nodup_occurrences [] slugs)]
  constructor
  · rintro hinj ⟨slug, number, hpos, hlt, hlooks⟩
    have hplain := (hmem (numberedSlug slug number) 0).2 (List.count_pos_iff.2 hlooks)
    have hsame := hinj _ hplain _ ((hmem slug number).2 hlt) (by simp [numberedSlug])
    exact absurd (Prod.mk.inj hsame).2 (by omega)
  · rintro hlooks ⟨first, m⟩ hfirst ⟨second, n⟩ hsecond heq
    rw [hmem] at hfirst hsecond
    rcases eq_numberedSlug_of_eq heq with ⟨rfl, rfl⟩ | ⟨rfl, hpos, rfl⟩ | ⟨rfl, hpos, rfl⟩
    · rfl
    · exact absurd ⟨second, n, hpos, hsecond, List.count_pos_iff.1 hfirst⟩ hlooks
    · exact absurd ⟨first, m, hpos, hfirst, List.count_pos_iff.1 hsecond⟩ hlooks

/-- An id is empty only if it is the empty slug, without a number. -/
theorem numberedSlug_eq_nil {slug : Text} {number : Nat} (h : numberedSlug slug number = []) :
    slug = [] ∧ number = 0 := by
  by_cases hnumber : number = 0 <;> simp_all [numberedSlug]

/-! ### Headings without a slug -/

/-- A blank character is neither a letter nor a number. -/
theorem isAlphanumeric_of_isBlank {c : Char} (h : isBlank c = true) : isAlphanumeric c = false := by
  have hcodes : ∀ n ∈ [9, 10, 11, 12, 13, 0x20, 0x85, 0xA0, 0x1680, 0x2000, 0x2001, 0x2002, 0x2003,
      0x2004, 0x2005, 0x2006, 0x2007, 0x2008, 0x2009, 0x200A, 0x2028, 0x2029, 0x202F, 0x205F,
      0x3000], isAlphanumeric (Char.ofNat n) = false := by
    decide +kernel
  rw [← Char.ofNat_toNat c]
  refine hcodes _ ?_
  simp only [isBlank, Bool.or_eq_true, Bool.and_eq_true, decide_eq_true_eq, beq_iff_eq] at h
  simp only [List.mem_cons, List.not_mem_nil, or_false]
  omega

/-- Every character has a lower-case form. -/
theorem toLowercase_ne_nil (c : Char) : toLowercase c ≠ [] := by
  unfold toLowercase
  split
  · simp
  · split <;> simp

/-- Nothing is kept of a text without letters and numbers, and something of every other. -/
theorem slugChars_eq_nil_iff {started pending : Bool} {s : Text} :
    slugChars started pending s = [] ↔ ∀ c ∈ s, isAlphanumeric c = false := by
  fun_induction slugChars started pending s with
  | case1 => simp
  | case2 started pending c rest hc ih => simp [hc, toLowercase_ne_nil]
  | case3 started pending c rest hc ih => simp [hc, ih]

/-- **The headings without a slug** are those without letters and numbers. -/
theorem slugify_eq_nil_iff {s : Text} :
    slugify s = [] ↔ ∀ c ∈ s, isAlphanumeric c = false := by
  obtain ⟨left, right, hs, hleft, hright⟩ := Text.exists_append_trim_append s
  have houter : ∀ c ∈ left ++ right, isAlphanumeric c = false := fun c hc =>
    isAlphanumeric_of_isBlank ((List.mem_append.1 hc).elim (hleft c) (hright c))
  rw [slugify, slugChars_eq_nil_iff]
  constructor
  · intro h c hc
    rw [hs, List.append_assoc, List.mem_append, List.mem_append] at hc
    rcases hc with hc | hc | hc
    · exact houter c (List.mem_append_left _ hc)
    · exact h c hc
    · exact houter c (List.mem_append_right _ hc)
  · intro h c hc
    exact h c (hs ▸ by simp [hc])

/-! ### Distinct ids -/

/-- An id of a heading is empty exactly if some heading has no letters and no numbers: the first of
them gets the empty slug. -/
theorem nil_mem_headingIds_iff (headings : List Text) :
    [] ∈ headingIds headings ↔ ∃ s ∈ headings, ∀ c ∈ s, isAlphanumeric c = false := by
  have hslugs : [] ∈ headings.map slugify ↔ ∃ s ∈ headings, ∀ c ∈ s, isAlphanumeric c = false := by
    simp [slugify_eq_nil_iff]
  rw [headingIds_eq, ← hslugs, List.mem_map]
  constructor
  · rintro ⟨⟨slug, number⟩, hmem, heq⟩
    obtain ⟨rfl, rfl⟩ := numberedSlug_eq_nil heq
    exact List.count_pos_iff.1 (by simpa using (mem_occurrences.1 hmem).2)
  · intro hmem
    have hpos := List.count_pos_iff.2 hmem
    exact ⟨([], 0), mem_occurrences.2 ⟨by simp, by simpa using hpos⟩, rfl⟩

/-- **The ids of headings are distinct and none is empty** exactly for those sequences in which
every heading has a letter or a number, and no slug is that of a repeated heading with the number of
one of its repetitions. -/
theorem headingIds_distinct_iff (headings : List Text) :
    (headingIds headings).Nodup ∧ (∀ id ∈ headingIds headings, id ≠ []) ↔
      ¬ LooksNumbered (headings.map slugify) ∧
        ∀ s ∈ headings, ∃ c ∈ s, isAlphanumeric c = true := by
  have hnil : (∀ id ∈ headingIds headings, id ≠ []) ↔ [] ∉ headingIds headings :=
    ⟨fun h hmem => h _ hmem rfl, fun h id hmem heq => h (heq ▸ hmem)⟩
  rw [hnil, nil_mem_headingIds_iff, headingIds_eq, nodup_numberedSlug_iff]
  simp

/-- A heading whose text is a repeated one with its number gets the id of the repetition, and a
heading of signs alone gets no id. -/
theorem headingIds_collide :
    headingIds ["a".toList, "a".toList, "a-1".toList] = ["a".toList, "a-1".toList, "a-1".toList] ∧
      headingIds ["!".toList] = [[]] := by
  decide +kernel

end Lectern.Page
