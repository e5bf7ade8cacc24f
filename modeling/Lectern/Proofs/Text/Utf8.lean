import Lectern.Text.Utf8
import Mathlib.Algebra.Group.Nat.Defs

/-!
# UTF-8 is Read Back

A text is read back from its bytes, and only the bytes of a text are read as one. The bytes of a
character behind the first are the digits of its number to the base 64; the first byte announces
how many there are, and its bounds for the second keep out all spellings but the shortest.

## Main results

* `decodeParts_encodeChar`: the bytes of a character are read as this character.
* `decode?_eq_some_iff`: the bytes that are read as a text are its encoding.
* `decodeLossy_encode`: reading an encoding without care gives the text as well.
-/

namespace Lectern.Text

/-! ### Bytes -/

/-- A byte of a character that is not its first has six bits of the character. -/
theorem toNat_continuationByte (n : Nat) : (continuationByte n).toNat = 0x80 + n % 0x40 := by
  rw [continuationByte, UInt8.toNat_ofNat_of_lt' (show _ < 256 by omega)]

/-- The last bytes of the character with a number, so many. -/
def continuation (n : Nat) : Nat → Bytes
  | 0 => []
  | more + 1 => continuationByte (n / 0x40 ^ more) :: continuation n more

/-- The bytes that a character covers are passed over. -/
theorem decodeParts_continuation (n more : Nat) (rest : Bytes) :
    decodeParts more (continuation n more ++ rest) = decodeParts 0 rest := by
  induction more with
  | zero => rfl
  | succ more ih => exact ih

/-! ### Characters -/

/-- The last bytes of a character are read to its end. -/
theorem continueChar_continuation {low high : Nat} (n more taken : Nat) (rest : Bytes)
    (hrange : ∀ k, more = k + 1 → low ≤ 0x80 + n / 0x40 ^ k % 0x40 ∧
      0x80 + n / 0x40 ^ k % 0x40 ≤ high) :
    continueChar (n / 0x40 ^ more) low high more taken (continuation n more ++ rest) =
      (some (Char.ofNat n), taken + more) := by
  induction more generalizing low high taken with
  | zero => simp [continueChar]
  | succ more ih =>
    obtain ⟨hlow, hhigh⟩ := hrange more rfl
    simp only [continuation, List.cons_append, continueChar, toNat_continuationByte, hlow, hhigh,
      decide_true, Bool.and_self, if_true]
    have hbits : 0x40 * (n / 0x40 ^ (more + 1)) + (0x80 + n / 0x40 ^ more % 0x40) % 0x40 =
        n / 0x40 ^ more := by
      rw [Nat.pow_succ, ← Nat.div_div_eq_div_mul]
      omega
    rw [hbits, ih (taken + 1) fun k _ => by omega, Nat.add_assoc, Nat.add_comm 1]

/-- A first byte and the last bytes that it announces are read as their character. -/
theorem decodeParts_cons {byte : UInt8} {lead : Lead} (hlead : lead? byte = some lead) {n : Nat}
    (hbits : n / 0x40 ^ lead.more = lead.bits)
    (hrange : ∀ k, lead.more = k + 1 → lead.low ≤ 0x80 + n / 0x40 ^ k % 0x40 ∧
      0x80 + n / 0x40 ^ k % 0x40 ≤ lead.high) (rest : Bytes) :
    decodeParts 0 (byte :: continuation n lead.more ++ rest) =
      some (Char.ofNat n) :: decodeParts 0 rest := by
  simp only [List.cons_append, decodeParts, hlead, ← hbits,
    continueChar_continuation n lead.more 0 rest hrange, Nat.zero_add, decodeParts_continuation]

/-- The announcement of the first of three bytes. -/
def leadOfThree (bits : Nat) : Lead where
  bits
  more := 2
  low := if bits = 0 then 0xA0 else 0x80
  high := if bits = 0xD then 0x9F else 0xBF

/-- The announcement of the first of four bytes. -/
def leadOfFour (bits : Nat) : Lead where
  bits
  more := 3
  low := if bits = 0 then 0x90 else 0x80
  high := if bits = 4 then 0x8F else 0xBF

/-- What the first of three bytes announces. -/
theorem lead?_three {bits : Nat} (h : bits < 0x10) :
    lead? (UInt8.ofNat (0xE0 + bits)) = some (leadOfThree bits) := by
  rw [lead?, UInt8.toNat_ofNat_of_lt' (show _ < 256 by omega), leadOfThree]
  grind

/-- What the first of four bytes announces. -/
theorem lead?_four {bits : Nat} (h : bits < 5) :
    lead? (UInt8.ofNat (0xF0 + bits)) = some (leadOfFour bits) := by
  rw [lead?, UInt8.toNat_ofNat_of_lt' (show _ < 256 by omega), leadOfFour]
  grind

/-- **The bytes of a character** are read as this character. -/
theorem decodeParts_encodeChar (c : Char) (rest : Bytes) :
    decodeParts 0 (encodeChar c ++ rest) = some c :: decodeParts 0 rest := by
  have hvalid : c.toNat < 0xD800 ∨ 0xDFFF < c.toNat ∧ c.toNat < 0x110000 := c.valid
  have hread : ∀ (byte : UInt8) (lead : Lead), lead? byte = some lead →
      encodeChar c = byte :: continuation c.toNat lead.more →
      c.toNat / 0x40 ^ lead.more = lead.bits →
      (∀ k, lead.more = k + 1 → lead.low ≤ 0x80 + c.toNat / 0x40 ^ k % 0x40 ∧
        0x80 + c.toNat / 0x40 ^ k % 0x40 ≤ lead.high) →
      decodeParts 0 (encodeChar c ++ rest) = some c :: decodeParts 0 rest := by
    intro byte lead hlead hbytes hbits hrange
    rw [hbytes, decodeParts_cons hlead hbits hrange, Char.ofNat_toNat]
  generalize hn : c.toNat = n at *
  by_cases h1 : n < 0x80
  · refine hread (UInt8.ofNat n) { bits := n, more := 0 } ?_ ?_ (by simp) (by simp)
    · simp [lead?, UInt8.toNat_ofNat_of_lt' (show n < 256 by omega), h1]
    · simp [encodeChar, continuation, hn, h1]
  by_cases h2 : n < 0x800
  · refine hread (UInt8.ofNat (0xC0 + n / 0x40)) { bits := n / 0x40, more := 1 } ?_ ?_ rfl ?_
    · rw [lead?, UInt8.toNat_ofNat_of_lt' (show _ < 256 by omega)]
      grind
    · simp [encodeChar, continuation, hn, h1, h2]
    · simp
      omega
  by_cases h3 : n < 0x10000
  · refine hread (UInt8.ofNat (0xE0 + n / 0x1000)) (leadOfThree (n / 0x1000))
      (lead?_three (by omega)) ?_ rfl ?_
    · simp [encodeChar, continuation, hn, h1, h2, h3, leadOfThree]
    · simp [leadOfThree]
      grind
  · refine hread (UInt8.ofNat (0xF0 + n / 0x40000)) (leadOfFour (n / 0x40000))
      (lead?_four (by omega)) ?_ rfl ?_
    · simp [encodeChar, continuation, hn, h1, h2, h3, leadOfFour]
    · simp [leadOfFour]
      grind

/-! ### Nothing else is read -/

/-- What is read to the end of a character are its last bytes. -/
theorem exists_of_continueChar {bits low high more taken : Nat} {rest : Bytes} {c : Char}
    {t : Nat} (hlow : 0x80 ≤ low) (hhigh : high ≤ 0xBF)
    (h : continueChar bits low high more taken rest = (some c, t)) :
    ∃ n unread, rest = continuation n more ++ unread ∧ t = taken + more ∧ c = Char.ofNat n ∧
      n / 0x40 ^ more = bits ∧ ∀ k, more = k + 1 → low ≤ 0x80 + n / 0x40 ^ k % 0x40 ∧
        0x80 + n / 0x40 ^ k % 0x40 ≤ high := by
  induction more generalizing bits low high taken rest with
  | zero =>
    obtain ⟨hc, ht⟩ := Prod.mk.inj h
    exact ⟨bits, rest, rfl, ht.symm, (Option.some.inj hc).symm, by simp, by simp⟩
  | succ more ih =>
    cases rest with
    | nil => simp [continueChar] at h
    | cons byte rest =>
      simp only [continueChar] at h
      split at h
      · next hrange =>
        simp only [Bool.and_eq_true, decide_eq_true_eq] at hrange
        obtain ⟨n, unread, hrest, ht, hc, hbits, -⟩ := ih (Nat.le_refl _) (Nat.le_refl _) h
        have hbyte : byte = continuationByte (n / 0x40 ^ more) := by
          rw [← UInt8.toNat_inj, toNat_continuationByte, hbits]
          omega
        refine ⟨n, unread, by rw [hbyte, hrest]; rfl, by omega, hc, ?_, ?_⟩
        · rw [Nat.pow_succ, ← Nat.div_div_eq_div_mul, hbits]
          omega
        · intro k hk
          obtain rfl : more = k := by omega
          rw [hbits]
          omega
      · cases h

/-- The four kinds of first bytes. -/
theorem lead?_eq_some {byte : UInt8} {lead : Lead} (h : lead? byte = some lead) :
    byte.toNat < 0x80 ∧ lead = { bits := byte.toNat, more := 0 } ∨
    0xC2 ≤ byte.toNat ∧ byte.toNat < 0xE0 ∧ lead = { bits := byte.toNat - 0xC0, more := 1 } ∨
    0xE0 ≤ byte.toNat ∧ byte.toNat < 0xF0 ∧ lead = leadOfThree (byte.toNat - 0xE0) ∨
    0xF0 ≤ byte.toNat ∧ byte.toNat < 0xF5 ∧ lead = leadOfFour (byte.toNat - 0xF0) := by
  simp only [lead?] at h
  unfold leadOfThree leadOfFour
  grind

/-- The bounds for the second byte lie in those for the others. -/
theorem bounds_of_lead? {byte : UInt8} {lead : Lead} (h : lead? byte = some lead) :
    0x80 ≤ lead.low ∧ lead.high ≤ 0xBF := by
  rcases lead?_eq_some h with ⟨-, rfl⟩ | ⟨-, -, rfl⟩ | ⟨-, -, rfl⟩ | ⟨-, -, rfl⟩ <;>
    simp only [leadOfThree, leadOfFour] <;> grind

/-- A character that is read has the bytes from which it was read. -/
theorem encodeChar_ofNat {byte : UInt8} {lead : Lead} (hlead : lead? byte = some lead) {n : Nat}
    (hbits : n / 0x40 ^ lead.more = lead.bits)
    (hrange : ∀ k, lead.more = k + 1 → lead.low ≤ 0x80 + n / 0x40 ^ k % 0x40 ∧
      0x80 + n / 0x40 ^ k % 0x40 ≤ lead.high) :
    encodeChar (Char.ofNat n) = byte :: continuation n lead.more := by
  have hbyte : ∀ m, byte.toNat = m → UInt8.ofNat m = byte := fun m hm => by
    rw [← hm, UInt8.ofNat_toNat]
  have hchar : n < 0xD800 ∨ 0xDFFF < n ∧ n < 0x110000 → (Char.ofNat n).toNat = n := by
    intro hvalid
    rw [Char.ofNat, dif_pos hvalid]
    rfl
  rcases lead?_eq_some hlead with ⟨h1, rfl⟩ | ⟨hlow, hhigh, rfl⟩ | ⟨hlow, hhigh, rfl⟩ |
    ⟨hlow, hhigh, rfl⟩
  · have hn : n = byte.toNat := by simpa using hbits
    rw [encodeChar, hchar (by omega)]
    simp [hn, h1, continuation]
  · have hn : n / 0x40 = byte.toNat - 0xC0 := by simpa using hbits
    rw [encodeChar, hchar (by omega)]
    simp [continuation, show ¬ n < 0x80 by omega, show n < 0x800 by omega,
      hbyte (0xC0 + n / 0x40) (by omega)]
  · have hn : n / 0x1000 = byte.toNat - 0xE0 := by simpa [leadOfThree] using hbits
    obtain ⟨hfirst, hlast⟩ := hrange 1 rfl
    have hrange3 : 0x800 ≤ n ∧ n < 0x10000 ∧ (n < 0xD800 ∨ 0xDFFF < n) := by
      simp only [leadOfThree] at hfirst hlast
      grind
    rw [encodeChar, hchar (by omega)]
    simp [continuation, leadOfThree, show ¬ n < 0x80 by omega, show ¬ n < 0x800 by omega,
      hrange3.2.1, hbyte (0xE0 + n / 0x1000) (by omega)]
  · have hn : n / 0x40000 = byte.toNat - 0xF0 := by simpa [leadOfFour] using hbits
    obtain ⟨hfirst, hlast⟩ := hrange 2 rfl
    have hrange4 : 0x10000 ≤ n ∧ n < 0x110000 := by
      simp only [leadOfFour] at hfirst hlast
      grind
    rw [encodeChar, hchar (by omega)]
    simp [continuation, leadOfFour, show ¬ n < 0x80 by omega, show ¬ n < 0x800 by omega,
      show ¬ n < 0x10000 by omega, hbyte (0xF0 + n / 0x40000) (by omega)]

/-- Bytes that are read as characters throughout are the bytes of these. -/
theorem eq_encode_of_decodeParts {bytes : Bytes} {s : Text}
    (h : decodeParts 0 bytes = s.map some) : bytes = encode s := by
  induction s generalizing bytes with
  | nil =>
    cases bytes with
    | nil => rfl
    | cons byte rest =>
      rw [decodeParts] at h
      split at h <;> simp at h
  | cons c s ih =>
    cases bytes with
    | nil => simp [decodeParts] at h
    | cons byte rest =>
      rw [decodeParts] at h
      split at h
      · simp at h
      · next lead hlead =>
        generalize hresult :
          continueChar lead.bits lead.low lead.high lead.more 0 rest = result at h
        obtain ⟨char?, taken⟩ := result
        obtain ⟨rfl, hrest⟩ := List.cons.inj h
        obtain ⟨hlow, hhigh⟩ := bounds_of_lead? hlead
        obtain ⟨n, unread, hread, rfl, rfl, hbits, hrange⟩ :=
          exists_of_continueChar hlow hhigh hresult
        rw [Nat.zero_add, hread, decodeParts_continuation] at hrest
        rw [encode, List.flatMap_cons, encodeChar_ofNat hlead hbits hrange, hread, ih hrest]
        rfl

/-! ### Texts -/

/-- The bytes of a text are read as its characters. -/
theorem decodeParts_encode (s : Text) : decodeParts 0 (encode s) = s.map some := by
  induction s with
  | nil => rfl
  | cons c s ih =>
    rw [encode, List.flatMap_cons, decodeParts_encodeChar, ← encode, ih, List.map_cons]

/-- **The bytes that are read as a text** are its encoding, and they are read as this text. -/
theorem decode?_eq_some_iff {bytes : Bytes} {s : Text} :
    decode? bytes = some s ↔ bytes = encode s := by
  have hparts : ∀ parts : List (Option Char), parts.mapM id = some s ↔ parts = s.map some := by
    intro parts
    induction parts generalizing s with
    | nil => cases s <;> simp
    | cons part parts ih =>
      cases s <;> cases part <;> simp [List.mapM_cons, Option.bind_eq_some_iff, ih, and_comm,
        and_assoc]
  rw [decode?, hparts]
  exact ⟨eq_encode_of_decodeParts, fun h => h ▸ decodeParts_encode s⟩

/-- **A text is read back** from its bytes, also without care. -/
@[simp] theorem decodeLossy_encode (s : Text) : decodeLossy (encode s) = s := by
  rw [decodeLossy, decodeParts_encode, List.map_map]
  exact List.map_id s

/-- Texts with the same bytes are the same. -/
theorem encode_inj {s t : Text} (h : encode s = encode t) : s = t := by
  rw [← decodeLossy_encode s, h, decodeLossy_encode]

end Lectern.Text
