import Lectern.Text
import Mathlib.Data.List.Basic
import Mathlib.Data.List.TakeWhile

/-!
# Words

Blank characters divide the words of a text from each other. A text that is put behind another one
leaves the words of both as they are, unless the last word of the one and the first word of the
other become a single word. Collapsing keeps the words and nothing else.

## Main results

* `words_append_cons`: the words on both sides of a blank character.
* `words_append_of_not_joins`, `words_append_of_joins`: the words of text behind text.
* `collapse_eq_collapse_iff`: collapsed texts are told by their words.
-/

namespace Lectern.Text

open Unicode (isBlank)

variable {s t w : Text} {c : Char} {ws : List Text}

/-! ### Single words -/

/-- Whether a text is one **word**. -/
def IsWord (w : Text) : Prop := w ≠ [] ∧ ∀ c ∈ w, isBlank c = false

/-- An empty text has no words. -/
@[simp] theorem words_nil : words [] = [] := rfl

/-- A word that has begun goes on through characters that are not blank. -/
theorem wordsAux_append (pending : Text) (hw : ∀ c ∈ w, isBlank c = false) (t : Text) :
    wordsAux pending (w ++ t) = wordsAux (w.reverse ++ pending) t := by
  induction w generalizing pending with
  | nil => rfl
  | cons c w ih =>
    obtain ⟨hc, hrest⟩ := List.forall_mem_cons.1 hw
    rw [List.cons_append, wordsAux, hc, if_neg Bool.false_ne_true, ih _ hrest]
    simp

/-- A word has one word. -/
theorem words_of_isWord (h : IsWord w) : words w = [w] := by
  have hall := wordsAux_append [] h.2 []
  rw [List.append_nil, List.append_nil] at hall
  rw [words, hall, wordsAux, if_neg (by simpa using h.1), List.reverse_reverse]

/-! ### Blank characters -/

/-- A blank character ends the word before it. -/
theorem wordsAux_append_cons (pending : Text) (hc : isBlank c = true) (s t : Text) :
    wordsAux pending (s ++ c :: t) = wordsAux pending s ++ words t := by
  induction s generalizing pending with
  | nil => cases pending <;> simp [wordsAux, hc, words]
  | cons d s ih => simp only [List.cons_append, wordsAux, ih]; split <;> (try split) <;> simp

/-- **A blank character** divides the words before it from those behind it. -/
theorem words_append_cons (hc : isBlank c = true) (s t : Text) :
    words (s ++ c :: t) = words s ++ words t :=
  wordsAux_append_cons [] hc s t

/-! ### Text behind text -/

/-- Whether the last word of `s` goes on in `t`. -/
def Joins (s t : Text) : Prop :=
  (∃ c ∈ s.getLast?, isBlank c = false) ∧ ∃ c ∈ t.head?, isBlank c = false

instance (s t : Text) : Decidable (Joins s t) :=
  decidable_of_iff ((s.getLast?.any fun c => !isBlank c) ∧ (t.head?.any fun c => !isBlank c)) (by
    simp [Joins, Option.any_eq_true])

/-- Nothing goes on behind an empty text. -/
@[simp] theorem not_joins_nil_left (t : Text) : ¬ Joins [] t := by simp [Joins]

/-- Nothing goes on in an empty text. -/
@[simp] theorem not_joins_nil_right (s : Text) : ¬ Joins s [] := by simp [Joins]

/-- Only the end of the first text counts. -/
theorem joins_append_left (h : s ≠ []) (r t : Text) : Joins (r ++ s) t ↔ Joins s t := by
  rw [Joins, Joins, List.getLast?_append_of_ne_nil r h]

/-- **Text behind text** that does not go on with its last word has the words of both. -/
theorem words_append_of_not_joins (h : ¬ Joins s t) : words (s ++ t) = words s ++ words t := by
  -- a blank character on one of the two sides divides the words, if there is any character
  cases t with
  | nil => simp
  | cons d t =>
    cases hd : isBlank d with
    | true =>
      have hhead := words_append_cons hd [] t
      rw [words_append_cons hd, ← List.nil_append (d :: t), hhead, words_nil, List.nil_append]
    | false =>
      rcases s.eq_nil_or_concat with rfl | ⟨front, c, rfl⟩
      · simp
      · have hc : isBlank c = true := by simpa [Joins, hd] using h
        rw [List.concat_eq_append, List.append_assoc, List.singleton_append, words_append_cons hc,
          words_append_cons hc, words_nil, List.append_nil]

/-- The first word of a text that begins with one. -/
theorem exists_first_word (h : ∃ c ∈ t.head?, isBlank c = false) :
    ∃ w back, t = w ++ back ∧ IsWord w ∧ ∀ s, ¬ Joins s back := by
  refine ⟨t.takeWhile (!isBlank ·), t.dropWhile (!isBlank ·), List.takeWhile_append_dropWhile.symm,
    ⟨?_, fun c hc => by simpa using List.mem_takeWhile_imp hc⟩, ?_⟩
  · obtain ⟨c, hc, hblank⟩ := h
    obtain ⟨rest, rfl⟩ := List.head?_eq_some_iff.1 hc
    simp [hblank]
  · rintro s ⟨-, c, hc, hblank⟩
    have hstop := List.head?_dropWhile_not (fun c => !isBlank c) t
    rw [hc] at hstop
    simp [hblank] at hstop

/-- The last word of a text that ends with one. -/
theorem exists_last_word (h : ∃ c ∈ s.getLast?, isBlank c = false) :
    ∃ front w, s = front ++ w ∧ IsWord w ∧ ∀ t, ¬ Joins front t := by
  obtain ⟨w, back, hs, ⟨hne, hword⟩, hstop⟩ := @exists_first_word s.reverse (by simpa using h)
  refine ⟨back.reverse, w.reverse, by simpa using congrArg List.reverse hs,
    ⟨by simpa using hne, by simpa using hword⟩, ?_⟩
  rintro t ⟨hlast, -⟩
  exact hstop ['-'] ⟨⟨'-', rfl, by decide⟩, by simpa using hlast⟩

/-- **Text behind text that goes on with its last word**: the two words become one. -/
theorem words_append_of_joins (h : Joins s t) :
    ∃ front last first back, words s = front ++ [last] ∧ words t = first :: back ∧
      words (s ++ t) = front ++ (last ++ first) :: back := by
  obtain ⟨front, last, rfl, hlast, hfront⟩ := exists_last_word h.1
  obtain ⟨first, back, rfl, hfirst, hback⟩ := exists_first_word h.2
  have hword : IsWord (last ++ first) :=
    ⟨by simp [hlast.1], List.forall_mem_append.2 ⟨hlast.2, hfirst.2⟩⟩
  have hall : words ((front ++ last) ++ (first ++ back)) =
      words front ++ (words (last ++ first) ++ words back) := by
    rw [List.append_assoc, words_append_of_not_joins (hfront _), ← List.append_assoc last,
      words_append_of_not_joins (hback _)]
  refine ⟨words front, last, first, words back, ?_, ?_, ?_⟩
  · rw [words_append_of_not_joins (hfront _), words_of_isWord hlast]
  · rw [words_append_of_not_joins (hback _), words_of_isWord hfirst, List.singleton_append]
  · rw [hall, words_of_isWord hword, List.singleton_append]

/-! ### Collapsed texts -/

/-- A word that has begun, in the order of its characters. -/
theorem isWord_reverse {pending : Text} (hne : ¬ pending.isEmpty = true)
    (hpending : ∀ c ∈ pending, isBlank c = false) : IsWord pending.reverse :=
  ⟨by simpa using hne, by simpa using hpending⟩

/-- The words of a text are words. -/
theorem isWord_of_mem_wordsAux {pending : Text} (hpending : ∀ c ∈ pending, isBlank c = false)
    (h : w ∈ wordsAux pending s) : IsWord w := by
  fun_induction wordsAux pending s with
  | case1 => simp at h
  | case2 pending hne =>
    obtain rfl := List.mem_singleton.1 h
    exact isWord_reverse hne hpending
  | case3 pending c rest hblank hempty ih => exact ih (by simp) h
  | case4 pending c rest hblank hne ih =>
    rcases List.mem_cons.1 h with rfl | h
    · exact isWord_reverse hne hpending
    · exact ih (by simp) h
  | case5 pending c rest hc ih =>
    exact ih (List.forall_mem_cons.2 ⟨by simpa using hc, hpending⟩) h

/-- Words with a space between two of them are divided again. -/
theorem words_intercalate (h : ∀ w ∈ ws, IsWord w) : words ([' '].intercalate ws) = ws := by
  induction ws with
  | nil => rfl
  | cons w ws ih =>
    obtain ⟨hw, hws⟩ := List.forall_mem_cons.1 h
    cases ws with
    | nil => simpa using words_of_isWord hw
    | cons v ws =>
      have hspace : [' '].intercalate (w :: v :: ws) = w ++ ' ' :: [' '].intercalate (v :: ws) := by
        simp
      rw [hspace, words_append_cons (by decide), words_of_isWord hw, ih hws, List.singleton_append]

/-- Collapsing keeps the words. -/
@[simp] theorem words_collapse (s : Text) : words (collapse s) = words s :=
  words_intercalate fun _ hw => isWord_of_mem_wordsAux (by simp) hw

/-- **Collapsed texts** are the same if and only if the texts have the same words. -/
theorem collapse_eq_collapse_iff : collapse s = collapse t ↔ words s = words t := by
  refine ⟨fun h => ?_, fun h => by rw [collapse, collapse, h]⟩
  rw [← words_collapse s, h, words_collapse]

end Lectern.Text
