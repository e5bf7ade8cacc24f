import Lectern.Proofs.FileUrl.Spelling
import Lectern.Proofs.Text.Basic

/-!
# Encoded Names

The names of a path are spelled in its URL byte by byte. Nothing is lost by that, and no slash comes
up in a name, so the pieces of a URL between slashes are the names of its path. What ends a name
also ends its spelling; the converse needs some care, since the digits behind a percent sign may
look like the start of an ending.

## Main results

* `decodeName_encodeName`: an encoded name is read back.
* `suffix_encodeName_iff`: how a name ends can be seen in its spelling.
* `splitOnChar_url`: the pieces of a URL between slashes.
-/

namespace Lectern.FileUrl

open Text (splitOnChar)

/-! ### Single bytes -/

/-- How a byte is spelled: as a character of its own, or as a percent sign and two digits. -/
theorem encodeByte_cases (b : UInt8) :
    (∃ c, encodeByte b = [c] ∧ c ≠ '%' ∧ Text.encodeChar c = [b]) ∨
      ∃ high low, encodeByte b = ['%', high, low] ∧ Text.isHexDigit high = true ∧
        Text.isHexDigit low = true ∧
        UInt8.ofNat (16 * Text.hexDigitValue high + Text.hexDigitValue low) = b := by
  have hplain : ∀ n : Fin 256, isPlain (UInt8.ofFin n) = true →
      Char.ofNat (UInt8.ofFin n).toNat ≠ '%' ∧
        Text.encodeChar (Char.ofNat (UInt8.ofFin n).toNat) = [UInt8.ofFin n] := by
    decide +kernel
  have hcoded : ∀ n : Fin 256,
      Text.isHexDigit (upperDigit ((UInt8.ofFin n).toNat / 16)) = true ∧
        Text.isHexDigit (upperDigit ((UInt8.ofFin n).toNat % 16)) = true ∧
        UInt8.ofNat (16 * Text.hexDigitValue (upperDigit ((UInt8.ofFin n).toNat / 16)) +
          Text.hexDigitValue (upperDigit ((UInt8.ofFin n).toNat % 16))) = UInt8.ofFin n := by
    decide +kernel
  unfold encodeByte
  split
  next h => exact .inl ⟨_, rfl, hplain b.toFin h⟩
  next => exact .inr ⟨_, _, rfl, hcoded b.toFin⟩

/-- A byte is read back. -/
theorem decodeName_encodeByte_append (b : UInt8) (rest : Text) :
    decodeName (encodeByte b ++ rest) = b :: decodeName rest := by
  rcases encodeByte_cases b with ⟨c, hspelled, hpercent, hbyte⟩ |
    ⟨high, low, hspelled, hhigh, hlow, hvalue⟩
  · rw [hspelled, List.singleton_append, decodeName, hbyte, List.singleton_append]
    rintro - - - rfl -
    exact hpercent rfl
  · rw [hspelled]
    simp [decodeName, hhigh, hlow, hvalue]

/-- No slash comes up in the spelling of a byte. -/
theorem slash_not_mem_encodeByte (b : UInt8) : '/' ∉ encodeByte b := by
  have hall : ∀ n : Fin 256, '/' ∉ encodeByte (UInt8.ofFin n) := by decide +kernel
  exact hall b.toFin

/-- What follows the first character in the spelling of a byte are digits. -/
theorem isHexDigit_of_mem_tail {b : UInt8} {c : Char} (h : c ∈ (encodeByte b).tail) :
    Text.isHexDigit c = true := by
  rcases encodeByte_cases b with ⟨_, hspelled, -⟩ | ⟨high, low, hspelled, hhigh, hlow, -⟩
  · simp [hspelled] at h
  · rw [hspelled, List.tail_cons] at h
    rcases List.mem_pair.1 h with rfl | rfl
    exacts [hhigh, hlow]

/-! ### Names -/

/-- **An encoded name is read back.** -/
theorem decodeName_encodeName (name : Bytes) : decodeName (encodeName name) = name := by
  induction name with
  | nil => rfl
  | cons b name ih =>
    rw [encodeName, List.flatMap_cons, decodeName_encodeByte_append]
    exact congrArg (b :: ·) ih

/-- Names with the same spelling are the same. -/
theorem encodeName_inj {name other : Bytes} (h : encodeName name = encodeName other) :
    name = other := by
  rw [← decodeName_encodeName name, h, decodeName_encodeName]

/-- No slash comes up in the spelling of a name. -/
theorem slash_not_mem_encodeName (name : Bytes) : '/' ∉ encodeName name := by
  intro hmem
  obtain ⟨b, -, hb⟩ := List.mem_flatMap.1 hmem
  exact slash_not_mem_encodeByte b hb

/-- **How a name ends** can be seen in its spelling, unless the ending starts with a character that
may also be a digit behind a percent sign. -/
theorem suffix_encodeName_iff {name ending : Bytes}
    (hstart : ∀ c ∈ (encodeName ending).head?, Text.isHexDigit c = false) :
    encodeName ending <:+ encodeName name ↔ ending <:+ name := by
  constructor
  · rintro ⟨front, heq⟩
    have hflatten : (name.map encodeByte).flatten = front ++ encodeName ending := heq.symm
    rcases List.flatten_eq_append_iff.1 hflatten with ⟨before, after, hmap, -, hending⟩ |
      ⟨before, first, c, more, after, hmap, -, hending⟩
    · obtain ⟨bytes, rest, rfl, -, rfl⟩ := List.map_eq_append_iff.1 hmap
      rw [encodeName_inj hending]
      exact List.suffix_append _ _
    · obtain ⟨bytes, rest, rfl, -, hrest⟩ := List.map_eq_append_iff.1 hmap
      obtain ⟨b, rest, rfl, hb, rfl⟩ := List.map_eq_cons_iff.1 hrest
      cases first with
      | nil =>
        have hwhole : encodeName ending = encodeName (b :: rest) := by
          rw [hending, encodeName, List.flatMap_cons, hb]
          rfl
        rw [encodeName_inj hwhole]
        exact List.suffix_append _ _
      | cons d first =>
        -- the ending would start inside the spelling of a byte, with one of its digits
        have hdigit : Text.isHexDigit c = true := isHexDigit_of_mem_tail (b := b) (by simp [hb])
        have hnot := hstart c (by rw [hending]; rfl)
        simp [hdigit] at hnot
  · rintro ⟨stem, rfl⟩
    exact ⟨encodeName stem, (encodeName_append stem ending).symm⟩

/-! ### URLs -/

/-- Names that are spelled behind slashes are pieces between slashes. -/
theorem splitOnChar_append_flatMap (s : Text) (names : List Bytes) :
    splitOnChar '/' (s ++ names.flatMap fun name => '/' :: encodeName name) =
      splitOnChar '/' s ++ names.map encodeName := by
  induction names generalizing s with
  | nil => simp
  | cons name names ih =>
    rw [List.flatMap_cons, List.cons_append, Text.splitOnChar_append_cons, ih,
      Text.splitOnChar_of_not_mem (slash_not_mem_encodeName name)]
    rfl

/-- **The pieces of a URL** are those of its start, and behind them the names of the path. -/
theorem splitOnChar_url {names : List Bytes} (hnames : ∀ name ∈ names, Path.IsName name)
    (hne : names ≠ []) {url : Text} (h : ofPath? (Path.ofNames true names) = some url) :
    splitOnChar '/' url = splitOnChar '/' start ++ names.map encodeName := by
  obtain ⟨-, rfl⟩ := ofPath?_eq_some_iff.1 h
  have hspelled : spelled (Path.ofNames true names) =
      names.flatMap fun name => '/' :: encodeName name := by
    rw [spelled, Path.components_ofNames hnames, List.drop_succ_cons, List.drop_zero,
      if_neg (by simpa using hne), List.flatMap_map]
    rfl
  rw [hspelled, splitOnChar_append_flatMap]

end Lectern.FileUrl
