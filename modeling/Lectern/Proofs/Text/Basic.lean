import Lectern.Text

/-!
# Operations on Texts

What the operations of `Lectern.Text` do, as equations between texts: a text that is trimmed is the
text without blank characters around it, and so on. The proofs about scanning, settings and pages
use these and do not open the operations.
-/

namespace Lectern.Text

open Unicode (isBlank)

/-! ### Starts and ends -/

/-- What follows a text at the start of another. -/
theorem after?_eq_some_iff {start s rest : Text} :
    after? start s = some rest ↔ s = start ++ rest := by
  unfold after?
  split
  · next h =>
    obtain ⟨t, rfl⟩ := List.isPrefixOf_iff_prefix.1 h
    simp [eq_comm]
  · next h =>
    refine ⟨fun h => (nomatch h), ?_⟩
    rintro rfl
    exact absurd (List.isPrefixOf_iff_prefix.2 (List.prefix_append _ _)) h

/-- What comes before a text at the end of another. -/
theorem before?_eq_some_iff {tail s head : Text} :
    before? tail s = some head ↔ s = head ++ tail := by
  unfold before? endsWith
  split
  · next h =>
    obtain ⟨t, rfl⟩ := List.reverse_prefix.1 (List.isPrefixOf_iff_prefix.1 h)
    simp [eq_comm]
  · next h =>
    refine ⟨fun h => (nomatch h), ?_⟩
    rintro rfl
    exact absurd (List.isPrefixOf_iff_prefix.2 (List.reverse_prefix.2 (List.suffix_append _ _))) h

/-- A text at the end of another. -/
theorem endsWith_iff {s tail : Text} : endsWith s tail = true ↔ tail <:+ s := by
  rw [endsWith, List.isPrefixOf_iff_prefix, List.reverse_prefix]

/-- A text that is part of another. -/
theorem includes_iff {part s : Text} : includes part s = true ↔ part <:+: s := by
  induction s with
  | nil => simp [includes, List.isEmpty_iff]
  | cons c s ih =>
    rw [includes, Bool.or_eq_true, ih, List.isPrefixOf_iff_prefix, List.infix_cons_iff]

/-- The characters before the first that fails a test, when that one is known. -/
theorem takeWhile_append_of_head {p : Char → Bool} {s t : Text} (hs : ∀ c ∈ s, p c = true)
    (ht : ∀ c ∈ t.head?, p c = false) : (s ++ t).takeWhile p = s := by
  rw [List.takeWhile_append_of_pos hs]
  cases t with
  | nil => simp
  | cons c t => simp [ht c rfl]

/-- The characters that pass a test are skipped up to one that does not. -/
theorem dropWhile_append_cons {p : Char → Bool} {s : Text} (hs : ∀ c ∈ s, p c = true) {c : Char}
    (hc : p c = false) (t : Text) : (s ++ c :: t).dropWhile p = c :: t := by
  rw [List.dropWhile_append_of_pos hs, List.dropWhile_cons_of_neg (by simp [hc])]

/-- What is skipped of a text and a character that stops it ends in the text, or at that
character. -/
theorem exists_dropWhile_append_cons (p : Char → Bool) (c : Char) (s : Text) (hc : p c = false)
    (t : Text) : ∃ d more, (s ++ c :: t).dropWhile p = d :: more ∧ d ∈ s ++ [c] := by
  induction s with
  | nil => exact ⟨c, t, by simp [hc], by simp⟩
  | cons first s ih =>
    by_cases hfirst : p first = true
    · obtain ⟨d, more, heq, hmem⟩ := ih
      exact ⟨d, more, by simpa [List.dropWhile_cons, hfirst] using heq, by simp_all⟩
    · exact ⟨first, s ++ c :: t, by simp [hfirst], by simp⟩

/-- What is dropped with the characters that pass a test are these characters. -/
theorem drop_length_takeWhile (p : Char → Bool) (s : Text) :
    s.drop (s.takeWhile p).length = s.dropWhile p := by
  have hcut : (s.takeWhile p ++ s.dropWhile p).drop (s.takeWhile p).length = s.dropWhile p :=
    List.drop_left
  rwa [List.takeWhile_append_dropWhile] at hcut

/-- The place of a character in two texts that follow each other: it is in the second, or in the
first. This is `List.append_eq_append_iff` with the character on one side of the cut. -/
theorem append_cons_eq_append {c : Char} {s t u v : Text} (h : s ++ c :: u = t ++ v) :
    (∃ w, s = t ++ w ∧ v = w ++ c :: u) ∨ ∃ w, t = s ++ c :: w ∧ u = w ++ v := by
  rcases List.append_eq_append_iff.1 h with ⟨between, rfl, heq⟩ | hsecond
  · rcases List.cons_eq_append_iff.1 heq with ⟨rfl, rfl⟩ | ⟨inside, rfl, rfl⟩
    · exact .inl ⟨[], by simp, rfl⟩
    · exact .inr ⟨inside, rfl, rfl⟩
  · exact .inl hsecond

/-- A text is cut at the first of its characters that is a given one. -/
theorem append_cons_inj_of_not_mem {c : Char} {s t u v : Text} (hs : c ∉ s) (ht : c ∉ t)
    (h : s ++ c :: u = t ++ c :: v) : s = t ∧ u = v := by
  rcases append_cons_eq_append h with ⟨between, rfl, hv⟩ | ⟨between, rfl, -⟩
  · cases between with
    | nil => simpa [eq_comm] using hv
    | cons d between =>
      obtain ⟨rfl, -⟩ := List.cons.inj hv
      exact absurd (by simp) hs
  · exact absurd (by simp) ht

/-- A text is cut at the last of its characters that is a given one. -/
theorem append_cons_inj_of_last {c : Char} {s t u v : Text} (h : s ++ c :: u = t ++ c :: v)
    (hu : c ∉ u) (hv : c ∉ v) : s = t ∧ u = v := by
  rcases append_cons_eq_append h with ⟨between, rfl, heq⟩ | ⟨between, -, rfl⟩
  · cases between with
    | nil => simpa [eq_comm] using heq
    | cons d between =>
      obtain ⟨-, rfl⟩ := List.cons.inj heq
      simp at hv
  · simp at hu

/-- A character that comes once, at the start of a text, has nothing before it. -/
theorem eq_nil_of_cons_eq_append_cons {c : Char} {s t u : Text} (h : c :: t = s ++ c :: u)
    (ht : c ∉ t) : s = [] := by
  cases s with
  | nil => rfl
  | cons d s =>
    obtain ⟨-, rfl⟩ := List.cons.inj h
    simp at ht

/-! ### Trimming -/

/-- A text is blank characters and what is left when they are taken from its start. -/
theorem exists_append_trimStart (s : Text) :
    ∃ blank, s = blank ++ trimStart s ∧ ∀ c ∈ blank, isBlank c = true :=
  ⟨s.takeWhile isBlank, List.takeWhile_append_dropWhile.symm,
    List.all_eq_true.1 List.all_takeWhile⟩

/-- A text is what is left when blank characters are taken from its end, and these. -/
theorem exists_trimEnd_append (s : Text) :
    ∃ blank, s = trimEnd s ++ blank ∧ ∀ c ∈ blank, isBlank c = true := by
  obtain ⟨blank, hs, hblank⟩ := exists_append_trimStart s.reverse
  refine ⟨blank.reverse, ?_, by simpa using hblank⟩
  simpa [trimEnd, trimStart] using congrArg List.reverse hs

/-- A text is what is left when it is trimmed, between blank characters. -/
theorem exists_append_trim_append (s : Text) :
    ∃ left right, s = left ++ trim s ++ right ∧ (∀ c ∈ left, isBlank c = true) ∧
      ∀ c ∈ right, isBlank c = true := by
  obtain ⟨left, hs, hleft⟩ := exists_append_trimStart s
  obtain ⟨right, ht, hright⟩ := exists_trimEnd_append (trimStart s)
  refine ⟨left, right, ?_, hleft, hright⟩
  rw [trim, List.append_assoc, ← ht, ← hs]

/-- A text of which trimming leaves nothing is blank. -/
theorem isBlank_of_trim_eq_nil {s : Text} (h : trim s = []) : ∀ c ∈ s, isBlank c = true := by
  obtain ⟨left, right, hs, hleft, hright⟩ := exists_append_trim_append s
  rw [h, List.append_nil] at hs
  rw [hs]
  exact List.forall_mem_append.2 ⟨hleft, hright⟩

/-- Nothing is left of a blank text. -/
theorem trimEnd_of_isBlank {s : Text} (h : ∀ c ∈ s, isBlank c = true) : trimEnd s = [] := by
  have hall : ∀ c ∈ s.reverse, isBlank c = true := by simpa using h
  rw [trimEnd, ← List.append_nil s.reverse, List.dropWhile_append_of_pos hall]
  rfl

/-- A text that does not end with a blank character stays whole before what is trimmed. -/
theorem trimEnd_append {s t : Text} (h : ∀ c ∈ s.getLast?, isBlank c = false) :
    trimEnd (s ++ t) = s ++ trimEnd t := by
  have hs : s.reverse.dropWhile isBlank = s.reverse := by
    rw [← List.head?_reverse] at h
    cases hrev : s.reverse with
    | nil => rfl
    | cons c rest => rw [List.dropWhile_cons_of_neg (by simpa using h c (by simp [hrev]))]
  rw [trimEnd, trimEnd, List.reverse_append, List.dropWhile_append, hs]
  split
  · next hempty => simp [List.isEmpty_iff.1 hempty]
  · simp

/-! ### Pieces -/

/-- There is a piece before the first separator. -/
theorem splitOnChar_ne_nil (sep : Char) (s : Text) : splitOnChar sep s ≠ [] := by
  fun_cases splitOnChar sep s <;> simp_all

/-- A text without the separator is one piece. -/
theorem splitOnChar_of_not_mem {sep : Char} {s : Text} (h : sep ∉ s) : splitOnChar sep s = [s] := by
  induction s with
  | nil => rfl
  | cons c s ih =>
    have hc : c ≠ sep := fun heq => h (heq ▸ List.mem_cons_self)
    rw [splitOnChar, if_neg hc, ih (List.not_mem_of_not_mem_cons h)]

/-- **A separator** divides the pieces before it from those behind it. -/
theorem splitOnChar_append_cons (sep : Char) (s t : Text) :
    splitOnChar sep (s ++ sep :: t) = splitOnChar sep s ++ splitOnChar sep t := by
  induction s with
  | nil => simp [splitOnChar]
  | cons c s ih =>
    rw [List.cons_append, splitOnChar, splitOnChar, ih]
    split
    · rfl
    · cases hs : splitOnChar sep s with
      | nil => exact absurd hs (splitOnChar_ne_nil sep s)
      | cons piece more => rfl

/-- The pieces of a text, each behind a separator, are the text behind one. -/
theorem flatMap_cons_splitOnChar (sep : Char) (s : Text) :
    (splitOnChar sep s).flatMap (sep :: ·) = sep :: s := by
  induction s with
  | nil => rfl
  | cons c s ih =>
    rw [splitOnChar]
    split
    next h => rw [List.flatMap_cons, ih, h]; rfl
    next =>
      cases hs : splitOnChar sep s with
      | nil => exact absurd hs (splitOnChar_ne_nil sep s)
      | cons piece more =>
        rw [hs, List.flatMap_cons, List.cons_append, List.cons.injEq] at ih
        simp [← ih.2]

/-- What has no separator only lengthens the last piece. -/
theorem exists_splitOnChar_append (sep : Char) (s t : Text) (ht : sep ∉ t) :
    ∃ init last, splitOnChar sep s = init ++ [last] ∧
      splitOnChar sep (s ++ t) = init ++ [last ++ t] := by
  induction s with
  | nil => exact ⟨[], [], rfl, splitOnChar_of_not_mem ht⟩
  | cons c s ih =>
    obtain ⟨init, last, hs, hboth⟩ := ih
    rw [List.cons_append, splitOnChar, splitOnChar, hs, hboth]
    by_cases hc : c = sep
    · exact ⟨[] :: init, last, by simp [hc], by simp [hc]⟩
    · cases init with
      | nil => exact ⟨[], c :: last, by simp [hc], by simp [hc]⟩
      | cons piece init => exact ⟨(c :: piece) :: init, last, by simp [hc], by simp [hc]⟩

/-! ### Numbers -/

/-- The characters of a decimal number. -/
theorem isDigit_of_mem_decimal {n : Nat} {c : Char} (h : c ∈ decimal n) : c.isDigit = true :=
  Nat.isDigit_of_mem_toDigits (by decide) (by decide) h

/-- A decimal number has a digit. -/
theorem decimal_ne_nil (n : Nat) : decimal n ≠ [] := Nat.toDigits_ne_nil

/-- Different numbers are written differently. -/
theorem decimal_inj {m n : Nat} (h : decimal m = decimal n) : m = n := by
  rw [← Nat.ofDigitChars_ten_toDigits (n := m), ← Nat.ofDigitChars_ten_toDigits (n := n)]
  exact congrArg (Nat.ofDigitChars 10 · 0) h

/-! ### Bytes -/

/-- The bytes of a text and of another one behind it. -/
theorem byteLength_append (s t : Text) : byteLength (s ++ t) = byteLength s + byteLength t := by
  induction s with
  | nil => simp [byteLength]
  | cons c s ih => simp [byteLength, ih, Nat.add_assoc]

/-- A place behind a text is as far from there as it was before the text came. -/
theorem cutAtByte?_add_append (s : Text) (n : Nat) (t : Text) :
    cutAtByte? (byteLength s + n) (s ++ t) =
      (cutAtByte? n t).map fun parts => (s ++ parts.1, parts.2) := by
  induction s with
  | nil => simp [byteLength]
  | cons c s ih =>
    have hsize := Char.utf8Size_pos c
    obtain ⟨m, hm⟩ : ∃ m, byteLength (c :: s) + n = m + 1 :=
      ⟨byteLength (c :: s) + n - 1, by simp only [byteLength]; omega⟩
    rw [hm, List.cons_append, cutAtByte?]
    simp only [byteLength] at hm
    have hfits : c.utf8Size ≤ m + 1 := by omega
    have hrest : m + 1 - c.utf8Size = byteLength s + n := by omega
    rw [if_pos hfits, hrest, ih, Option.map_map]
    rfl

/-- **A text is cut where one of its parts ends**, at the length of that part. -/
theorem cutAtByte?_append (s t : Text) : cutAtByte? (byteLength s) (s ++ t) = some (s, t) := by
  simpa [cutAtByte?] using cutAtByte?_add_append s 0 t

end Lectern.Text
