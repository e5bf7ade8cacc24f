import Lectern.Page.Slug
import Lectern.Proofs.Markup.WellFormed

/-!
# The Characters of Heading Ids

An id is made of lower-case letters, digits and hyphens, so it can stand in an attribute as it is.

## Main results

* `isValue_next`: the id of a heading has neither quotes nor angle brackets.
-/

namespace Lectern.Page

open Markup (IsValue IsValueChar)
open Unicode (isAlphanumeric toLowercase)

/-- The lower-case form of a character below 128 that is a letter or a digit. -/
theorem isValueChar_toLower {c : Char} (hc : c.val < 128) (h : c.isAlphanum = true) :
    IsValueChar c.toLower := by
  have hall : ∀ n : Fin 128, (Char.ofNat n).isAlphanum = true →
      IsValueChar (Char.ofNat n).toLower := by
    decide +kernel
  have hlt : c.toNat < 128 := hc
  have := hall ⟨c.toNat, hlt⟩
  rw [Char.ofNat_toNat] at this
  exact this h

/-- The lower-case runs lead to characters behind the signs of ASCII. -/
theorem le_of_mem_lowercaseRuns :
    ∀ run ∈ Unicode.lowercaseRuns, (0x40 : Int) ≤ (run.first : Int) + run.delta := by
  decide +kernel

/-- A character behind the signs of ASCII, or none at all. -/
theorem isValueChar_ofNat {n : Nat} (h : 0x40 ≤ n) : IsValueChar (Char.ofNat n) := by
  by_cases hvalid : n.isValidChar
  · have hnat : (Char.ofNat n).toNat = n := by
      rw [Char.ofNat, dif_pos hvalid]
      rfl
    refine ⟨?_, ?_, ?_⟩
    all_goals
      intro heq
      rw [heq] at hnat
      simp at hnat
      omega
  · rw [Char.ofNat, dif_neg hvalid]
    decide

/-- **The lower-case form of a letter or a digit** can stand in an attribute. -/
theorem isValueChar_of_mem_toLowercase {c d : Char} (hc : isAlphanumeric c = true)
    (hd : d ∈ toLowercase c) : IsValueChar d := by
  unfold toLowercase at hd
  split at hd
  · next hlt =>
    obtain rfl : d = c.toLower := by simpa using hd
    exact isValueChar_toLower hlt (by simpa [isAlphanumeric, hlt] using hc)
  · next hge =>
    split at hd
    · exact (by decide : IsValue ['i', Char.ofNat 0x307]) d hd
    · obtain rfl : d = Unicode.mapByRuns Unicode.lowercaseRuns c := by simpa using hd
      unfold Unicode.mapByRuns
      split
      · next run hrun =>
        have hcovers := List.find?_some hrun
        have hdelta := le_of_mem_lowercaseRuns run (List.mem_of_find?_eq_some hrun)
        simp only [Unicode.CaseRun.covers, Bool.and_eq_true, decide_eq_true_eq] at hcovers
        exact isValueChar_ofNat (by omega)
      · have hlarge : 0x40 ≤ c.toNat := by
          have : ¬ c.toNat < 128 := hge
          omega
        simpa using isValueChar_ofNat hlarge

/-- The characters of a slug. -/
theorem isValue_slugChars (started pending : Bool) (s : Text) :
    IsValue (slugChars started pending s) := by
  intro c h
  fun_induction slugChars started pending s with
  | case1 => simp at h
  | case2 started pending d rest hd ih =>
    rcases List.mem_append.1 h with h | h
    · rcases List.mem_append.1 h with h | h
      · split at h
        · obtain rfl : c = '-' := by simpa using h
          decide
        · simp at h
      · exact isValueChar_of_mem_toLowercase hd h
    · exact ih h
  | case3 _ _ _ _ _ ih => exact ih h

/-- **The id of a heading** has neither quotes nor angle brackets. -/
theorem isValue_next (ledger : SlugLedger) (s : Text) : IsValue (ledger.next s).1 := by
  have hslug : IsValue (slugify s) := isValue_slugChars false false (Text.trim s)
  simp only [SlugLedger.next]
  split
  · next count _ =>
    have hhyphen : IsValue ['-'] := by decide
    exact hslug.append (hhyphen.append (Markup.isValue_decimal (count + 1)))
  · exact hslug

end Lectern.Page
