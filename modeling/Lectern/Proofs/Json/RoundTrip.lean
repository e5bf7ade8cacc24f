import Lectern.Json.Parser
import Lectern.Json.Printer
import Lectern.Proofs.Text.Basic
import Mathlib.Data.List.Basic
import Mathlib.Tactic.SplitIfs

/-!
# Reading What Was Written as JSON

Every value is read back from its compact form and from the form with one item or member a line:
strings of any characters, of which the control characters and the quotes are escaped; strings that
are no texts; numbers of any size, with their signs and exponents; arrays and objects of any depth,
with their members in order, also those that repeat. So each of the forms names one value only.

The two forms differ in their spaces only. What the proofs need is that there is nothing else
between the signs (`IsLayout`). A reader is shown to take just the text of what it reads, whatever
follows. Only a number can be continued by what follows, and in a document no number is.

## Main results

* `string?_printText`, `exists_printString`: strings.
* `unsigned?_printed`: numbers.
* `IsLayout.readsAs`: values in any layout.
* `parse?_compact`, `parse?_pretty`: documents.
-/

namespace Lectern

/-! ### Decimal numbers -/

namespace Text

/-- The value of a number in decimal digits. -/
theorem decimalValue_decimal (n : Nat) : decimalValue (decimal n) = n :=
  Nat.ofDigitChars_ten_toDigits

/-- Only the number zero starts with that digit. -/
theorem head?_decimal_ne_zero {n : Nat} (h : n ≠ 0) : (decimal n).head? ≠ some '0' := by
  induction n using Nat.strongRecOn with
  | ind n ih =>
    rw [decimal, Nat.toDigits_eq_if (by decide)]
    split
    next hlt =>
      have hdigits : ∀ n < 10, n ≠ 0 → Nat.digitChar n ≠ '0' := by decide
      simpa using hdigits n hlt h
    next hge =>
      rw [List.head?_append_of_ne_nil _ Nat.toDigits_ne_nil]
      exact ih (n / 10) (by omega) (by omega)

end Text

namespace Json

variable {s rest : Text} {fuel : Nat}

/-! ### Strings -/

/-- A control character in four digits. -/
theorem exists_fourDigits {n : Nat} (h : n < 0x20) : ∃ a b c d, fourDigits n = [a, b, c, d] ∧
    [a, b, c, d].all Text.isHexDigit = true ∧ Text.hexValue [a, b, c, d] = n := by
  have hdigits : ∀ n < 0x20, (fourDigits n).length = 4 ∧
      (fourDigits n).all Text.isHexDigit = true ∧ Text.hexValue (fourDigits n) = n := by decide
  obtain ⟨hlength, hhex, hvalue⟩ := hdigits n h
  obtain ⟨a, b, c, d, heq⟩ := List.length_eq_four.1 hlength
  exact ⟨a, b, c, d, heq, heq ▸ hhex, heq ▸ hvalue⟩

/-- A character that stands for itself. -/
theorem units?_cons {c : Char} (hquote : c ≠ '"') (hslash : c ≠ '\\') (hcontrol : ¬ c.toNat < 0x20)
    (rest : Text) :
    units? (c :: rest) = (units? rest).map fun (units, after) => (c.toNat :: units, after) := by
  rw [units?.eq_def]
  split
  next heq => exact absurd (List.cons.inj heq).1 hquote
  next heq => exact absurd (List.cons.inj heq).1 hslash
  next heq => exact absurd (List.cons.inj heq).1 hslash
  next heq =>
    obtain ⟨rfl, rfl⟩ := List.cons.inj heq
    rw [if_neg (by simp [hslash, hcontrol])]
  next heq => cases heq

/-- **A character** gives its number. -/
theorem units?_printChar (c : Char) (rest : Text) :
    units? (printChar c ++ rest) =
      (units? rest).map fun (units, after) => (c.toNat :: units, after) := by
  unfold printChar
  split_ifs with hquote hslash hback hfeed hline hreturn htab hcontrol
  · subst hquote; rfl
  · subst hslash; rfl
  · subst hback; rfl
  · subst hfeed; rfl
  · subst hline; rfl
  · subst hreturn; rfl
  · subst htab; rfl
  -- a control character without a letter of its own
  · obtain ⟨a, b, c', d, heq, hhex, hvalue⟩ := exists_fourDigits hcontrol
    rw [heq]
    simp only [List.cons_append, List.nil_append]
    rw [units?, if_pos hhex, hvalue]
  · exact units?_cons hquote hslash hcontrol rest

/-- The units of a text are its characters. -/
theorem units?_flatMap_printChar (s rest : Text) :
    units? (s.flatMap printChar ++ '"' :: rest) = some (s.map Char.toNat, rest) := by
  induction s with
  | nil => rfl
  | cons c s ih =>
    rw [List.flatMap_cons, List.append_assoc, units?_printChar, ih]
    rfl

/-- A character is no half of a pair. -/
theorem isHalf_toNat (c : Char) : (isHighHalf c.toNat || isLowHalf c.toNat) = false := by
  have hvalid : c.toNat < 0xD800 ∨ (0xDFFF < c.toNat ∧ c.toNat < 0x110000) := c.valid
  simp only [isHighHalf, isLowHalf, Bool.or_eq_false_iff, Bool.and_eq_false_imp,
    decide_eq_true_eq, decide_eq_false_iff_not]
  omega

/-- The characters of a text make that text. -/
theorem joinUnits?_map_toNat (s : Text) : joinUnits? (s.map Char.toNat) = some s := by
  induction s with
  | nil => rfl
  | cons c s ih =>
    have hhalf := isHalf_toNat c
    have hhigh := (Bool.or_eq_false_iff.1 hhalf).1
    cases s with
    | nil => simp [joinUnits?, hhalf]
    | cons d s =>
      rw [List.map_cons] at ih
      have hlow := (Bool.or_eq_false_iff.1 hhalf).2
      simp [joinUnits?, hhigh, hlow, ih, Char.ofNat_toNat]

/-- **A text** is read back. -/
theorem string?_printText (s rest : Text) :
    string? (s.flatMap printChar ++ '"' :: rest) = some (some s, rest) := by
  rw [string?, units?_flatMap_printChar]
  exact congrArg (fun text? => some (text?, rest)) (joinUnits?_map_toNat s)

/-- A string and its opening quote. -/
theorem exists_printString (text? : Option Text) : ∃ body, printString text? = '"' :: body ∧
    ∀ rest, string? (body ++ rest) = some (text?, rest) := by
  cases text? with
  | none => exact ⟨"\\ud800\"".toList, rfl, fun rest => rfl⟩
  | some s =>
    refine ⟨s.flatMap printChar ++ ['"'], rfl, fun rest => ?_⟩
    rw [List.append_assoc]
    exact string?_printText s rest

/-! ### Numbers -/

/-- Whether a text does not **continue a number**. -/
def EndsNumber (s : Text) : Prop :=
  ∀ c ∈ s.head?, c.isDigit = false ∧ c ≠ '.' ∧ c ≠ 'e' ∧ c ≠ 'E'

/-- A decimal number and its first digit. -/
theorem exists_decimal_eq_cons (n : Nat) : ∃ c s, Text.decimal n = c :: s ∧ c.isDigit = true := by
  obtain ⟨c, s, heq⟩ := List.exists_cons_of_ne_nil (Text.decimal_ne_nil n)
  exact ⟨c, s, heq, Text.isDigit_of_mem_decimal (n := n) (heq ▸ List.mem_cons_self)⟩

/-- A run of digits is read to its end. -/
theorem digits?_decimal (n : Nat) (hrest : ∀ c ∈ rest.head?, c.isDigit = false) :
    digits? (Text.decimal n ++ rest) = some (Text.decimal n, rest) := by
  rw [digits?, Text.takeWhile_append_of_head (fun _ => Text.isDigit_of_mem_decimal) hrest]
  obtain ⟨c, s, heq, -⟩ := exists_decimal_eq_cons n
  simp [heq]

/-- The digits before the point have no zero before them. -/
theorem whole?_decimal (n : Nat) (hrest : ∀ c ∈ rest.head?, c.isDigit = false) :
    whole? (Text.decimal n ++ rest) = some (Text.decimal n, rest) := by
  by_cases hzero : n = 0
  · subst hzero
    rfl
  · rw [← digits?_decimal n hrest]
    unfold whole?
    split
    next heq =>
      have hhead := congrArg List.head? heq
      rw [List.head?_append_of_ne_nil _ (Text.decimal_ne_nil n)] at hhead
      exact absurd hhead (Text.head?_decimal_ne_zero hzero)
    next => rfl

/-- The exponent of a number, with its letter. -/
def printExponent (exponent : Int) : Text :=
  if exponent = 0 then []
  else if exponent < 0 then 'e' :: '-' :: Text.decimal exponent.natAbs
  else 'e' :: Text.decimal exponent.natAbs

/-- An exponent ends the digits of a number. -/
theorem head?_printExponent_append (exponent : Int) (hrest : EndsNumber rest) :
    ∀ c ∈ (printExponent exponent ++ rest).head?, c.isDigit = false ∧ c ≠ '.' := by
  unfold printExponent
  split_ifs
  · exact fun c hc => ⟨(hrest c hc).1, (hrest c hc).2.1⟩
  · simp
  · simp

/-- The digits of an exponent without a sign. -/
theorem signedExponent?_decimal (n : Nat) (hrest : ∀ c ∈ rest.head?, c.isDigit = false) :
    signedExponent? (Text.decimal n ++ rest) = some ((n : Int), rest) := by
  have hdigits := digits?_decimal n hrest
  obtain ⟨c, s, heq, hdigit⟩ := exists_decimal_eq_cons n
  unfold signedExponent?
  split
  next hsign =>
    rw [heq] at hsign
    obtain ⟨rfl, -⟩ := List.cons.inj hsign
    cases hdigit
  next hsign =>
    rw [heq] at hsign
    obtain ⟨rfl, -⟩ := List.cons.inj hsign
    cases hdigit
  next =>
    rw [hdigits]
    simp [Text.decimalValue_decimal]

/-- An exponent is read back. -/
theorem exponent?_printExponent (exponent : Int) (hrest : EndsNumber rest) :
    exponent? (printExponent exponent ++ rest) = some (exponent, rest) := by
  have hdigits : ∀ c ∈ rest.head?, c.isDigit = false := fun c hc => (hrest c hc).1
  unfold printExponent
  split_ifs with hzero hneg
  · subst hzero
    cases rest with
    | nil => rfl
    | cons c rest =>
      obtain ⟨-, -, he, hE⟩ := hrest c rfl
      unfold exponent?
      split
      next heq => exact absurd (List.cons.inj heq).1 he
      next heq => exact absurd (List.cons.inj heq).1 hE
      next => rfl
  · have hvalue : -(exponent.natAbs : Int) = exponent := by omega
    simp only [List.cons_append, exponent?, signedExponent?, digits?_decimal _ hdigits,
      Option.map_some, Text.decimalValue_decimal, hvalue]
  · have hvalue : (exponent.natAbs : Int) = exponent := by omega
    simp only [List.cons_append, exponent?, signedExponent?_decimal _ hdigits, hvalue]

/-- **A number after its sign** is read back. -/
theorem unsigned?_printed (n : Decimal) (hrest : EndsNumber rest) :
    unsigned? n.negative (Text.decimal n.digits ++ (printExponent n.exponent ++ rest)) =
      some (.number n, rest) := by
  have hhead := head?_printExponent_append n.exponent hrest
  have hwhole := whole?_decimal n.digits fun c hc => (hhead c hc).1
  have hfraction : fraction? (printExponent n.exponent ++ rest) =
      some ([], printExponent n.exponent ++ rest) := by
    unfold fraction?
    split
    next heq => exact absurd rfl (hhead '.' (by rw [heq]; rfl)).2
    next => rfl
  simp [unsigned?, hwhole, hfraction, exponent?_printExponent _ hrest, Text.decimalValue_decimal]

/-- **A number** is read back. -/
theorem scalar?_printNumber (n : Decimal) (hrest : EndsNumber rest) :
    scalar? (printNumber n ++ rest) = some (.number n, rest) := by
  have hprinted : printNumber n ++ rest = (if n.negative then ['-'] else []) ++
      (Text.decimal n.digits ++ (printExponent n.exponent ++ rest)) := by
    simp only [printNumber, printExponent, List.append_assoc]
  have hread := unsigned?_printed n hrest
  rw [hprinted]
  cases hsign : n.negative with
  | true =>
    rw [hsign] at hread
    exact hread
  | false =>
    rw [hsign] at hread
    obtain ⟨c, s, heq, hdigit⟩ := exists_decimal_eq_cons n.digits
    rw [heq, List.cons_append] at hread ⊢
    rw [if_neg Bool.false_ne_true, List.nil_append]
    unfold scalar?
    split
    all_goals first
      | exact hread
      | next hword =>
        obtain ⟨rfl, -⟩ := List.cons.inj hword
        cases hdigit

/-! ### Spaces -/

/-- Whether a text is nothing but **spaces**. -/
def IsSpaces (gap : Text) : Prop := ∀ c ∈ gap, isSpace c = true

/-- What follows spaces, where there are none. -/
theorem skipSpaces_cons {c : Char} (h : isSpace c = false) (s : Text) :
    skipSpaces (c :: s) = c :: s :=
  List.dropWhile_cons_of_neg (by simp [h])

/-- Spaces are skipped. -/
theorem skipSpaces_append {gap : Text} (hgap : IsSpaces gap) (s : Text) :
    skipSpaces (gap ++ s) = skipSpaces s :=
  List.dropWhile_append_of_pos hgap

/-- Spaces end a number, and so does what comes behind them. -/
theorem EndsNumber.append {gap : Text} (hgap : IsSpaces gap) (hs : EndsNumber s) :
    EndsNumber (gap ++ s) := by
  cases gap with
  | nil => exact hs
  | cons c gap =>
    have hspace := hgap c List.mem_cons_self
    rintro _ ⟨⟩
    simp only [isSpace, Bool.or_eq_true, beq_iff_eq] at hspace
    obtain ((rfl | rfl) | rfl) | rfl := hspace <;> decide

/-- Spaces before a value do not matter. -/
theorem value?_append {gap : Text} (hgap : IsSpaces gap) (fuel : Nat) (s : Text) :
    value? fuel (gap ++ s) = value? fuel s := by
  cases fuel with
  | zero => rfl
  | succ fuel => rw [value?, skipSpaces_append hgap, ← value?]

/-! ### Values -/

/-- A value that starts with none of the opening signs is a word or a number. -/
theorem value?_eq_scalar? {c : Char} (hspace : isSpace c = false) (harray : c ≠ '[')
    (hobject : c ≠ '\x7b') (hstring : c ≠ '"') (fuel : Nat) (s : Text) :
    value? (fuel + 1) (c :: s) = scalar? (c :: s) := by
  rw [value?, skipSpaces_cons hspace]
  split
  next heq => exact absurd (List.cons.inj heq).1 harray
  next heq => exact absurd (List.cons.inj heq).1 hobject
  next heq => exact absurd (List.cons.inj heq).1 hstring
  next => rfl

/-- The value behind a quote is a string. -/
theorem value?_quote (fuel : Nat) (s : Text) : value? (fuel + 1) ('"' :: s) =
    (string? s).map fun (text?, after) => (.string text?, after) := rfl

/-- The value behind a bracket is an array, empty only if the next sign ends it. -/
theorem value?_bracket {c : Char} (hs : skipSpaces s = c :: rest) (hend : c ≠ ']') (fuel : Nat) :
    value? (fuel + 1) ('[' :: s) =
      (items? fuel s).map fun (items, after) => (.array items, after) := by
  rw [value?, skipSpaces_cons (by decide)]
  split
  next heq =>
    obtain ⟨-, rfl⟩ := List.cons.inj heq
    rw [hs]
    split
    next hclosed => exact absurd (List.cons.inj hclosed).1 hend
    next => rfl
  next heq => exact absurd (List.cons.inj heq).1 (by decide)
  next heq => exact absurd (List.cons.inj heq).1 (by decide)
  next harray _ _ => exact absurd rfl (harray _)

/-- The value behind a brace is an object, empty only if the next sign ends it. -/
theorem value?_brace {c : Char} (hs : skipSpaces s = c :: rest) (hend : c ≠ '\x7d') (fuel : Nat) :
    value? (fuel + 1) ('\x7b' :: s) =
      (members? fuel s).map fun (members, after) => (.object members, after) := by
  rw [value?, skipSpaces_cons (by decide)]
  split
  next heq => exact absurd (List.cons.inj heq).1 (by decide)
  next heq =>
    obtain ⟨-, rfl⟩ := List.cons.inj heq
    rw [hs]
    split
    next hclosed => exact absurd (List.cons.inj hclosed).1 hend
    next => rfl
  next heq => exact absurd (List.cons.inj heq).1 (by decide)
  next hobject _ => exact absurd rfl (hobject _)

/-- The first character of a number. -/
theorem exists_printNumber_eq_cons (n : Decimal) : ∃ c s, printNumber n = c :: s ∧
    (c = '-' ∨ c.isDigit = true) := by
  obtain ⟨c, s, heq, hdigit⟩ := exists_decimal_eq_cons n.digits
  unfold printNumber
  cases n.negative with
  | true => exact ⟨'-', _, rfl, .inl rfl⟩
  | false => exact ⟨c, _, by rw [heq]; rfl, .inr hdigit⟩

/-- A digit, or a sign, is no other sign. -/
theorem ne_of_isDigit {c d : Char} (hc : c = '-' ∨ c.isDigit = true) (hd : d ≠ '-')
    (hdigit : d.isDigit = false) : c ≠ d := by
  rintro rfl
  rcases hc with rfl | hc
  · exact hd rfl
  · rw [hdigit] at hc
    cases hc

/-- Whether a text is **read as** a value, with any budget that is greater than its length and
before anything that does not continue a number. -/
def ReadsAs (written : Text) (value : Json) : Prop :=
  ∀ fuel rest, written.length < fuel → EndsNumber rest →
    value? fuel (written ++ rest) = some (value, rest)

/-- A budget that suffices is not zero. -/
theorem readsAs_of_succ {written : Text} {value : Json}
    (h : ∀ fuel rest, written.length ≤ fuel → EndsNumber rest →
      value? (fuel + 1) (written ++ rest) = some (value, rest)) : ReadsAs written value := by
  intro fuel rest hfuel hrest
  cases fuel with
  | zero => cases hfuel
  | succ fuel => exact h fuel rest (Nat.le_of_lt_succ hfuel) hrest

/-- **A number** is read back as a value. -/
theorem readsAs_printNumber (n : Decimal) : ReadsAs (printNumber n) (.number n) := by
  refine readsAs_of_succ fun fuel rest _ hrest => ?_
  obtain ⟨c, s, heq, hc⟩ := exists_printNumber_eq_cons n
  have hread := scalar?_printNumber n hrest
  rw [heq, List.cons_append] at hread ⊢
  rw [value?_eq_scalar? (by simp [isSpace, ne_of_isDigit hc]) (ne_of_isDigit hc (by decide) rfl)
    (ne_of_isDigit hc (by decide) rfl) (ne_of_isDigit hc (by decide) rfl), hread]

/-- A string is read back as a value. -/
theorem readsAs_printString (text? : Option Text) :
    ReadsAs (printString text?) (.string text?) := by
  refine readsAs_of_succ fun fuel rest _ _ => ?_
  obtain ⟨body, heq, hbody⟩ := exists_printString text?
  rw [heq, List.cons_append, value?_quote, hbody, Option.map_some]

/-! ### Layouts -/

/-- The items of an array after the first, and its end, with spaces before each of them and before
the end. -/
def followingItems (gap last : Text) (write : Json → Text) (items : List Json) : Text :=
  items.flatMap (fun item => ',' :: (gap ++ write item)) ++ (last ++ [']'])

/-- A member of an object, with spaces behind the colon. -/
def writtenMember (blank : Text) (write : Json → Text) (member : Option Text × Json) : Text :=
  printString member.1 ++ ':' :: (blank ++ write member.2)

/-- The members of an object after the first, and its end, with spaces before each of them and
before the end. -/
def followingMembers (gap last blank : Text) (write : Json → Text)
    (members : List (Option Text × Json)) : Text :=
  members.flatMap (fun member => ',' :: (gap ++ writtenMember blank write member)) ++
    (last ++ ['\x7d'])

/-- Whether `write` is a **layout** of values, in which the spaces `line level` stand before what is
at a level, and the spaces `blank` behind each colon. -/
structure IsLayout (write : Nat → Json → Text) (line : Nat → Text) (blank : Text) : Prop where
  line_isSpaces : ∀ level, IsSpaces (line level)
  blank_isSpaces : IsSpaces blank
  null : ∀ level, write level .null = "null".toList
  bool : ∀ level value, write level (.bool value) = if value then "true".toList else "false".toList
  number : ∀ level n, write level (.number n) = printNumber n
  string : ∀ level text?, write level (.string text?) = printString text?
  array_nil : ∀ level, write level (.array []) = ['[', ']']
  array_cons : ∀ level item items, write level (.array (item :: items)) =
    '[' :: (line (level + 1) ++ (write (level + 1) item ++
      followingItems (line (level + 1)) (line level) (write (level + 1)) items))
  object_nil : ∀ level, write level (.object []) = ['\x7b', '\x7d']
  object_cons : ∀ level member members, write level (.object (member :: members)) =
    '\x7b' :: (line (level + 1) ++ (writtenMember blank (write (level + 1)) member ++
      followingMembers (line (level + 1)) (line level) blank (write (level + 1)) members))

/-- The items of an array in the compact form. -/
theorem compactItems_eq (items : List Json) :
    compactItems items = followingItems [] [] compact items := by
  induction items with
  | nil => rfl
  | cons item items ih => simp [compactItems, followingItems, ih]

/-- The members of an object in the compact form. -/
theorem compactMembers_eq (members : List (Option Text × Json)) :
    compactMembers members = followingMembers [] [] [] compact members := by
  induction members with
  | nil => rfl
  | cons member members ih => simp [compactMembers, followingMembers, writtenMember, ih]

/-- The compact form is a layout without spaces. -/
theorem isLayout_compact : IsLayout (fun _ => compact) (fun _ => []) [] where
  line_isSpaces _ := nofun
  blank_isSpaces := nofun
  null _ := rfl
  bool _ value := by cases value <;> rfl
  number _ _ := rfl
  string _ _ := rfl
  array_nil _ := rfl
  array_cons _ item items := by simp [compact, compactItems_eq]
  object_nil _ := rfl
  object_cons _ member members := by simp [compact, writtenMember, compactMembers_eq]

/-- The items of an array, one a line. -/
theorem prettyItems_eq (level : Nat) (items : List Json) : prettyItems level items =
    followingItems (lineAt (level + 1)) (lineAt level) (prettyAt (level + 1)) items := by
  induction items with
  | nil => rfl
  | cons item items ih => simp [prettyItems, followingItems, ih]

/-- The members of an object, one a line. -/
theorem prettyMembers_eq (level : Nat) (members : List (Option Text × Json)) :
    prettyMembers level members = followingMembers (lineAt (level + 1)) (lineAt level) [' ']
      (prettyAt (level + 1)) members := by
  induction members with
  | nil => rfl
  | cons member members ih => simp [prettyMembers, followingMembers, writtenMember, ih]

/-- What begins a line is spaces. -/
theorem isSpaces_lineAt (level : Nat) : IsSpaces (lineAt level) :=
  List.forall_mem_cons.2 ⟨rfl, fun _ hc => (List.eq_of_mem_replicate hc) ▸ rfl⟩

/-- The form with one item or member a line is a layout. -/
theorem isLayout_prettyAt : IsLayout prettyAt lineAt [' '] where
  line_isSpaces := isSpaces_lineAt
  blank_isSpaces := List.forall_mem_singleton.2 rfl
  null _ := rfl
  bool _ value := by cases value <;> rfl
  number _ _ := rfl
  string _ _ := rfl
  array_nil _ := rfl
  array_cons level item items := by simp [prettyAt, prettyItems_eq]
  object_nil _ := rfl
  object_cons level member members := by simp [prettyAt, writtenMember, prettyMembers_eq]

section Layout

variable {gap last blank : Text} {write : Json → Text}

/-- **Items** are read back if each of them is. -/
theorem items?_followingItems (hgap : IsSpaces gap) (hlast : IsSpaces last) {item : Json}
    {items : List Json} (h : ∀ value ∈ item :: items, ReadsAs (write value) value)
    (hfuel : (write item).length + (followingItems gap last write items).length < fuel)
    (rest : Text) :
    items? fuel (gap ++ (write item ++ (followingItems gap last write items ++ rest))) =
      some (item :: items, rest) := by
  induction items generalizing item fuel with
  | nil =>
    cases fuel with
    | zero => cases hfuel
    | succ fuel =>
      simp only [followingItems, List.flatMap_nil, List.nil_append, List.length_append,
        List.length_singleton, List.append_assoc] at hfuel ⊢
      have hitem := h item List.mem_cons_self fuel (last ++ ([']'] ++ rest)) (by omega)
        (.append hlast (by simp [EndsNumber]))
      rw [items?, value?_append hgap, hitem]
      simp (disch := decide) only [skipSpaces_append hlast, List.singleton_append, skipSpaces_cons]
  | cons next items ih =>
    cases fuel with
    | zero => cases hfuel
    | succ fuel =>
      have hfollowing : followingItems gap last write (next :: items) =
          ',' :: (gap ++ (write next ++ followingItems gap last write items)) := by
        simp [followingItems]
      simp only [hfollowing, List.length_cons, List.length_append, List.cons_append,
        List.append_assoc] at hfuel ⊢
      have hitem := h item List.mem_cons_self fuel
        (',' :: (gap ++ (write next ++ (followingItems gap last write items ++ rest)))) (by omega)
        (by simp [EndsNumber])
      have hitems := @ih fuel next (List.forall_mem_cons.1 h).2 (by omega)
      rw [items?, value?_append hgap, hitem]
      simp (disch := decide) only [hitems, skipSpaces_cons, Option.map_some]

/-- **Members** are read back if the value of each of them is. -/
theorem members?_followingMembers (hgap : IsSpaces gap) (hlast : IsSpaces last)
    (hblank : IsSpaces blank) {member : Option Text × Json} {members : List (Option Text × Json)}
    (h : ∀ entry ∈ member :: members, ReadsAs (write entry.2) entry.2)
    (hfuel : (writtenMember blank write member).length +
      (followingMembers gap last blank write members).length < fuel) (rest : Text) :
    members? fuel (gap ++ (writtenMember blank write member ++
        (followingMembers gap last blank write members ++ rest))) =
      some (member :: members, rest) := by
  induction members generalizing member fuel with
  | nil =>
    cases fuel with
    | zero => cases hfuel
    | succ fuel =>
      obtain ⟨body, hkey, hbody⟩ := exists_printString member.1
      simp only [followingMembers, writtenMember, List.flatMap_nil, List.nil_append, hkey,
        List.length_append, List.length_cons, List.length_nil, List.cons_append,
        List.append_assoc] at hfuel ⊢
      have hvalue := h member List.mem_cons_self fuel (last ++ '\x7d' :: rest) (by omega)
        (.append hlast (by simp [EndsNumber]))
      rw [members?]
      simp (disch := decide) only [skipSpaces_append hgap, hbody, skipSpaces_cons,
        value?_append hblank, hvalue, skipSpaces_append hlast]
  | cons next members ih =>
    cases fuel with
    | zero => cases hfuel
    | succ fuel =>
      obtain ⟨body, hkey, hbody⟩ := exists_printString member.1
      have hfollowing : followingMembers gap last blank write (next :: members) =
          ',' :: (gap ++ (writtenMember blank write next ++
            followingMembers gap last blank write members)) := by
        simp [followingMembers]
      have hwritten : writtenMember blank write member =
          '"' :: (body ++ ':' :: (blank ++ write member.2)) := by
        rw [writtenMember, hkey, List.cons_append]
      simp only [hfollowing, hwritten, List.length_append, List.length_cons, List.cons_append,
        List.append_assoc] at hfuel ⊢
      have hvalue := h member List.mem_cons_self fuel
        (',' :: (gap ++ (writtenMember blank write next ++
          (followingMembers gap last blank write members ++ rest))))
        (by omega) (by simp [EndsNumber])
      have hmore := @ih fuel next (List.forall_mem_cons.1 h).2 (by omega)
      rw [members?]
      simp (disch := decide) only [skipSpaces_append hgap, hbody, skipSpaces_cons,
        value?_append hblank, hvalue, hmore, Option.map_some]

end Layout

namespace IsLayout

variable {write : Nat → Json → Text} {line : Nat → Text} {blank : Text}
  (h : IsLayout write line blank)
include h

/-- What is written of a value starts with no space, and not as the end of an array. -/
theorem exists_write_eq_cons (level : Nat) (value : Json) : ∃ c s, write level value = c :: s ∧
    isSpace c = false ∧ c ≠ ']' := by
  cases value with
  | null => exact ⟨'n', _, h.null level, rfl, by decide⟩
  | bool value => cases value <;> exact ⟨_, _, h.bool level _, rfl, by decide⟩
  | number n =>
    obtain ⟨c, s, heq, hc⟩ := exists_printNumber_eq_cons n
    exact ⟨c, s, (h.number level n).trans heq, by simp [isSpace, ne_of_isDigit hc],
      ne_of_isDigit hc (by decide) rfl⟩
  | string text? =>
    obtain ⟨body, heq, -⟩ := exists_printString text?
    exact ⟨'"', body, (h.string level text?).trans heq, rfl, by decide⟩
  | array items =>
    cases items with
    | nil => exact ⟨'[', _, h.array_nil level, rfl, by decide⟩
    | cons item items => exact ⟨'[', _, h.array_cons level item items, rfl, by decide⟩
  | object members =>
    cases members with
    | nil => exact ⟨'\x7b', _, h.object_nil level, rfl, by decide⟩
    | cons member members => exact ⟨'\x7b', _, h.object_cons level member members, rfl, by decide⟩

/-- **An array** is read back if its items are. -/
theorem readsAs_array (level : Nat) {items : List Json}
    (hitems : ∀ item ∈ items, ReadsAs (write (level + 1) item) item) :
    ReadsAs (write level (.array items)) (.array items) := by
  refine readsAs_of_succ fun fuel rest hfuel _ => ?_
  cases items with
  | nil =>
    rw [h.array_nil]
    rfl
  | cons item items =>
    rw [h.array_cons] at hfuel ⊢
    simp only [List.cons_append, List.length_cons, List.length_append, List.append_assoc] at hfuel ⊢
    have hread := @items?_followingItems fuel _ _ _ (h.line_isSpaces (level + 1))
      (h.line_isSpaces level) _ _ hitems (by omega) rest
    obtain ⟨c, s, heq, hspace, hend⟩ := h.exists_write_eq_cons (level + 1) item
    have hstart : ∀ t, skipSpaces (line (level + 1) ++ (write (level + 1) item ++ t)) =
        c :: (s ++ t) := fun t => by
      rw [skipSpaces_append (h.line_isSpaces _), heq, List.cons_append, skipSpaces_cons hspace]
    rw [value?_bracket (hstart _) hend, hread, Option.map_some]

/-- **An object** is read back if the values of its members are. -/
theorem readsAs_object (level : Nat) {members : List (Option Text × Json)}
    (hmembers : ∀ entry ∈ members, ReadsAs (write (level + 1) entry.2) entry.2) :
    ReadsAs (write level (.object members)) (.object members) := by
  refine readsAs_of_succ fun fuel rest hfuel _ => ?_
  cases members with
  | nil =>
    rw [h.object_nil]
    rfl
  | cons member members =>
    rw [h.object_cons] at hfuel ⊢
    simp only [List.cons_append, List.length_cons, List.length_append, List.append_assoc] at hfuel ⊢
    have hread := @members?_followingMembers fuel _ _ _ _ (h.line_isSpaces (level + 1))
      (h.line_isSpaces level) h.blank_isSpaces _ _ hmembers (by omega) rest
    obtain ⟨body, hkey, -⟩ := exists_printString member.1
    have hstart : ∀ t, skipSpaces (line (level + 1) ++
        (writtenMember blank (write (level + 1)) member ++ t)) =
          '"' :: (body ++ (':' :: (blank ++ write (level + 1) member.2) ++ t)) := fun t => by
      rw [skipSpaces_append (h.line_isSpaces _), writtenMember, hkey, List.cons_append,
        List.cons_append, skipSpaces_cons (by decide), List.append_assoc]
    rw [value?_brace (hstart _) (by decide), hread, Option.map_some]

/-- **Each value** is read back from its layout. -/
theorem readsAs (level : Nat) (value : Json) : ReadsAs (write level value) value := by
  induction value using inductionOnAll generalizing level with
  | null =>
    rw [h.null]
    exact readsAs_of_succ fun _ _ _ _ => rfl
  | bool value =>
    rw [h.bool]
    cases value <;> exact readsAs_of_succ fun _ _ _ _ => rfl
  | number n =>
    rw [h.number]
    exact readsAs_printNumber n
  | string text? =>
    rw [h.string]
    exact readsAs_printString text?
  | array items ih => exact h.readsAs_array level fun item hitem => ih item hitem (level + 1)
  | object members ih =>
    exact h.readsAs_object level fun member hmember => ih member hmember (level + 1)

end IsLayout

/-- A text that is read as a value is a document. -/
theorem ReadsAs.parse?_eq {written : Text} {document : Json} (h : ReadsAs written document) :
    parse? written = some document := by
  have hread := h (written.length + 1) [] (Nat.lt_succ_self _) (by simp [EndsNumber])
  rw [List.append_nil] at hread
  rw [parse?, hread]
  rfl

/-- **A document** is the value of its compact form. -/
theorem parse?_compact (document : Json) : parse? document.compact = some document :=
  (isLayout_compact.readsAs 0 document).parse?_eq

/-- **A document** is the value of its form with one item or member a line. -/
theorem parse?_pretty (document : Json) : parse? document.pretty = some document :=
  (isLayout_prettyAt.readsAs 0 document).parse?_eq

end Json

end Lectern
