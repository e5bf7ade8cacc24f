import Lectern.Proofs.Text.Scan
import Lectern.Settings.Draft
import Mathlib.Control.Monad.Basic

/-!
# References and Signs

What the text of a setting means is said here by its **reading**: from the left, a text is taken
apart into references in braces and into characters that stand for themselves. A reference stands
for the value of its variable or for its fallback, and there is no meaning if it has neither.

Settings are expanded by a scan that knows more signs than braces. Values without any opening brace
behind a dollar sign are not scanned; in all others a name right behind a dollar sign is taken for a
variable, a doubled dollar sign for one, and braces around nothing for a variable without a name. So
a value is expanded to what it means exactly if it is not scanned, or if no dollar sign that stands
for itself is followed by one of these.

## Main results

* `IsRead.unique`, `exists_isRead`: each text has one reading.
* `exists_meaning_iff`: a text has a meaning if its variables without a fallback are set.
* `scanned_eq_meaning`, `scanned_ne_meaning`: the texts of which a scan gives the meaning.
* `expandField_eq_meaning_iff`: the values of which expansion gives the meaning.
* `expandField_signs`: values of which it does not.
-/

namespace Lectern.Settings

open Text (Piece)

variable {environment : Environment} {inner span span' name name' s rest rest' : Text}
  {fallback fallback' : Option Text}

/-! ### References in braces -/

/-- The signs before a fallback. -/
def fallbackSigns : Text := [':', '-']

/-- The text in the braces of a reference. -/
def innerText (name : Text) : Option Text → Text
  | none => name
  | some fallback => name ++ fallbackSigns ++ fallback

/-- Whether a name **ends** where the first signs of a fallback stand, or goes on to the brace if
there are none. Signs with no name before them are part of a name. -/
def EndsName (name : Text) : Option Text → Prop
  | none => fallbackSigns <:+: name → fallbackSigns <+: name
  | some _ => ¬ fallbackSigns <:+: name ++ [':']

/-- Whether `span` is a **reference in braces**, to a variable and with a fallback or without. The
first closing brace is that of the reference. -/
structure IsReference (span name : Text) (fallback : Option Text) : Prop where
  span_eq : span = openingSigns ++ innerText name fallback ++ ['\x7d']
  name_ne_nil : name ≠ []
  brace_not_mem : '\x7d' ∉ innerText name fallback
  endsName : EndsName name fallback

/-- The signs of a fallback at a place before which they do not stand. -/
theorem splitFallback?_eq_some_iff {fallback : Text} :
    splitFallback? inner = some (name, fallback) ↔
      inner = name ++ fallbackSigns ++ fallback ∧ ¬ fallbackSigns <:+: name ++ [':'] := by
  fun_induction splitFallback? inner generalizing name with
  | case1 => simp [fallbackSigns]
  | case2 rest =>
    constructor
    · intro h
      obtain ⟨rfl, rfl⟩ := Prod.mk.inj (Option.some.inj h)
      exact ⟨rfl, by decide⟩
    · rintro ⟨heq, hfirst⟩
      rcases name with _ | ⟨c, _ | ⟨d, name⟩⟩
      · simpa [fallbackSigns, eq_comm] using heq
      · simp [fallbackSigns] at heq
      · obtain ⟨rfl, htail⟩ := List.cons.inj heq
        obtain ⟨rfl, -⟩ := List.cons.inj htail
        exact absurd (List.prefix_append fallbackSigns (name ++ [':'])).isInfix hfirst
  | case3 c rest hsigns ih =>
    have hstart : ∀ {t : Text}, fallbackSigns <+: c :: t → ∃ t', c = ':' ∧ t = '-' :: t' := by
      rintro t ⟨t', heq⟩
      obtain ⟨rfl, rfl⟩ := List.cons.inj heq
      exact ⟨t', rfl, rfl⟩
    rw [Option.map_eq_some_iff]
    constructor
    · rintro ⟨⟨name, fallback⟩, hrest, heq⟩
      obtain ⟨rfl, rfl⟩ := Prod.mk.inj heq
      obtain ⟨rfl, hfirst⟩ := ih.1 hrest
      refine ⟨rfl, fun hinfix => ?_⟩
      rcases List.infix_cons_iff.1 hinfix with hprefix | hinfix
      · obtain ⟨t, rfl, ht⟩ := hstart hprefix
        rcases name with _ | ⟨d, name⟩
        · cases ht
        · obtain ⟨rfl, -⟩ := List.cons.inj ht
          exact hsigns _ rfl rfl
      · exact hfirst hinfix
    · rintro ⟨heq, hfirst⟩
      cases name with
      | nil =>
        obtain ⟨rfl, rfl⟩ := List.cons.inj heq
        exact absurd rfl (hsigns _ rfl)
      | cons d name =>
        obtain ⟨rfl, rfl⟩ := List.cons.inj heq
        refine ⟨(name, fallback), ih.2 ⟨rfl, fun hinfix => hfirst ?_⟩, rfl⟩
        exact List.infix_cons_iff.2 (.inr hinfix)

/-- A text without the signs of a fallback. -/
theorem splitFallback?_eq_none (h : splitFallback? inner = none) : ¬ fallbackSigns <:+: inner := by
  fun_induction splitFallback? inner with
  | case1 => simp [fallbackSigns]
  | case2 rest => cases h
  | case3 c rest hsigns ih =>
    intro hinfix
    rcases List.infix_cons_iff.1 hinfix with ⟨t, heq⟩ | hinfix
    · obtain ⟨rfl, rfl⟩ := List.cons.inj heq
      exact hsigns t rfl rfl
    · exact ih (Option.map_eq_none_iff.1 h) hinfix

/-- **The text in braces** is read as the name and the fallback that it is written from. -/
theorem inBraces_innerText (hne : name ≠ []) (h : EndsName name fallback) :
    inBraces (innerText name fallback) = .variable name fallback := by
  obtain ⟨c, name, rfl⟩ := List.exists_cons_of_ne_nil hne
  cases fallback with
  | some fallback =>
    have hsplit : splitFallback? (innerText (c :: name) (some fallback)) =
        some (c :: name, fallback) := splitFallback?_eq_some_iff.2 ⟨rfl, h⟩
    rw [inBraces, hsplit]
  | none =>
    rw [innerText, inBraces]
    split
    next d name' fallback hsplit =>
      -- signs that stand behind something are not at the start
      obtain ⟨heq, hfirst⟩ := splitFallback?_eq_some_iff.1 hsplit
      obtain ⟨t, ht⟩ := h (heq ▸ (List.infix_append _ _ _))
      rw [heq] at ht
      obtain ⟨rfl, htail⟩ := List.cons.inj ht
      rcases name' with _ | ⟨d, name'⟩
      · cases htail
      · obtain ⟨rfl, -⟩ := List.cons.inj htail
        exact absurd (List.prefix_append fallbackSigns (name' ++ [':'])).isInfix hfirst
    next => rfl

/-- **Any text in braces** is that of a reference, unless it is empty. -/
theorem exists_isReference (hne : inner ≠ []) (hbrace : '\x7d' ∉ inner) :
    ∃ name fallback, IsReference (openingSigns ++ inner ++ ['\x7d']) name fallback := by
  cases hsplit : splitFallback? inner with
  | none =>
    exact ⟨inner, none, rfl, hne, hbrace, fun h => absurd h (splitFallback?_eq_none hsplit)⟩
  | some parts =>
    obtain ⟨name, fallback⟩ := parts
    obtain ⟨rfl, hfirst⟩ := splitFallback?_eq_some_iff.1 hsplit
    by_cases hname : name = []
    · subst hname
      exact ⟨_, none, rfl, hne, hbrace, fun _ => List.prefix_append _ _⟩
    · exact ⟨name, some fallback, rfl, hname, hbrace, hfirst⟩

/-- **One text** starts with one reference at most. -/
theorem IsReference.unique (h : IsReference span name fallback)
    (h' : IsReference span' name' fallback') (heq : span ++ rest = span' ++ rest') :
    span = span' ∧ name = name' ∧ fallback = fallback' ∧ rest = rest' := by
  obtain ⟨rfl, hne, hbrace, hends⟩ := h
  obtain ⟨rfl, hne', hbrace', hends'⟩ := h'
  simp only [List.append_assoc, List.singleton_append] at heq
  obtain ⟨hinner, rfl⟩ :=
    Text.append_cons_inj_of_not_mem hbrace hbrace' (List.append_cancel_left heq)
  have hread := inBraces_innerText hne hends
  rw [hinner, inBraces_innerText hne' hends'] at hread
  obtain ⟨rfl, rfl⟩ := Reference.variable.inj hread
  exact ⟨rfl, rfl, rfl, rfl⟩

/-- A reference has a first sign. -/
theorem IsReference.exists_cons (h : IsReference span name fallback) :
    ∃ more, span = '$' :: '\x7b' :: more := ⟨_, h.span_eq⟩

/-! ### Readings -/

/-- A **part** of a text: a character that stands for itself, or a reference. -/
inductive Part where
  | char (c : Char)
  | reference (name : Text) (fallback : Option Text)
deriving DecidableEq, Repr

namespace Part

/-- The text that a part is read from. -/
def source : Part → Text
  | .char c => [c]
  | .reference name fallback => openingSigns ++ innerText name fallback ++ ['\x7d']

/-- The variable that a part needs and does not have. -/
def unset? (environment : Environment) : Part → Option Text
  | .reference name none => if (environment name).isNone then some name else none
  | _ => none

/-- The text that a part stands for. -/
def value (environment : Environment) : Part → Text
  | .char c => [c]
  | .reference name fallback => (environment name).getD (fallback.getD [])

end Part

/-- What parts **mean**: the texts that they stand for, one after the other; the error is the first
variable that is needed and not set. -/
def meaning (environment : Environment) (parts : List Part) : Except Text Text :=
  match parts.findSome? (·.unset? environment) with
  | some name => .error name
  | none => .ok (parts.flatMap (·.value environment))

/-- Whether a text starts with a reference. -/
def StartsReference (s : Text) : Prop :=
  ∃ span name fallback, IsReference span name fallback ∧ span <+: s

/-- The **reading** of a text, from the left. -/
inductive IsRead : Text → List Part → Prop
  | nil : IsRead [] []
  | reference {span name rest : Text} {fallback : Option Text} {parts : List Part} :
      IsReference span name fallback → IsRead rest parts →
      IsRead (span ++ rest) (.reference name fallback :: parts)
  | char {c : Char} {rest : Text} {parts : List Part} :
      ¬ StartsReference (c :: rest) → IsRead rest parts → IsRead (c :: rest) (.char c :: parts)

variable {parts parts' : List Part} {c : Char}

/-- A text is what its parts are read from. -/
theorem IsRead.flatMap_source (h : IsRead s parts) : parts.flatMap Part.source = s := by
  induction h with
  | nil => rfl
  | reference hreference _ ih => rw [List.flatMap_cons, ih, hreference.span_eq, Part.source]
  | char _ _ ih => rw [List.flatMap_cons, ih]; rfl

/-- **No text has two readings.** -/
theorem IsRead.unique (h : IsRead s parts) (h' : IsRead s parts') : parts = parts' := by
  induction h generalizing parts' with
  | nil =>
    generalize hs : ([] : Text) = s at h'
    cases h' with
    | nil => rfl
    | reference hreference =>
      obtain ⟨more, rfl⟩ := hreference.exists_cons
      cases hs
    | char => cases hs
  | @reference span name rest fallback parts hreference _ ih =>
    generalize hs : span ++ rest = s at h'
    cases h' with
    | nil =>
      obtain ⟨more, rfl⟩ := hreference.exists_cons
      cases hs
    | reference hreference' hrest =>
      obtain ⟨-, rfl, rfl, rfl⟩ := hreference.unique hreference' hs
      rw [ih hrest]
    | char hnone => exact absurd ⟨span, name, fallback, hreference, ⟨rest, hs⟩⟩ hnone
  | @char c rest parts hnone _ ih =>
    generalize hs : c :: rest = s at h'
    cases h' with
    | nil => cases hs
    | reference hreference => exact absurd ⟨_, _, _, hreference, ⟨_, hs.symm⟩⟩ hnone
    | char _ hrest =>
      obtain ⟨rfl, rfl⟩ := List.cons.inj hs
      rw [ih hrest]

/-- **Every text has a reading.** -/
theorem exists_isRead (s : Text) : ∃ parts, IsRead s parts := by
  by_cases hstarts : StartsReference s
  · obtain ⟨span, name, fallback, hreference, rest, rfl⟩ := hstarts
    obtain ⟨parts, hparts⟩ := exists_isRead rest
    exact ⟨_, .reference hreference hparts⟩
  · match s with
    | [] => exact ⟨_, .nil⟩
    | c :: rest =>
      obtain ⟨parts, hparts⟩ := exists_isRead rest
      exact ⟨_, .char hstarts hparts⟩
termination_by s.length
decreasing_by
  · rename_i hreference _ hspan
    obtain ⟨more, rfl⟩ := hreference.exists_cons
    rw [← hspan, List.length_append]
    simp
  · exact Nat.lt_succ_self rest.length

/-- A text **without an opening brace** behind a dollar sign stands for itself. -/
theorem isRead_map_char (h : ¬ openingSigns <:+: s) : IsRead s (s.map .char) := by
  induction s with
  | nil => exact .nil
  | cons c s ih =>
    refine .char ?_ (ih fun hinfix => h (List.infix_cons hinfix))
    rintro ⟨span, name, fallback, hreference, hprefix⟩
    obtain ⟨more, rfl⟩ := hreference.exists_cons
    exact h ((List.prefix_append openingSigns more).trans hprefix).isInfix

/-! ### Meanings -/

/-- The variable that a reference needs and does not have. -/
theorem unset?_reference : (Part.reference name fallback).unset? environment =
    if (environment name).isNone && fallback.isNone then some name else none := by
  cases fallback <;> simp [Part.unset?]

/-- **There is a meaning** exactly if each variable without a fallback is set. -/
theorem exists_meaning_iff :
    (∃ value, meaning environment parts = .ok value) ↔
      ∀ name, Part.reference name none ∈ parts → (environment name).isSome := by
  have hunset : (∃ value, meaning environment parts = .ok value) ↔
      ∀ part ∈ parts, part.unset? environment = none := by
    rw [← List.findSome?_eq_none_iff, meaning]
    cases parts.findSome? (·.unset? environment) <;> simp
  rw [hunset]
  constructor
  · intro h name hmem
    simpa [unset?_reference, Option.isSome_iff_ne_none] using h _ hmem
  · intro h part hmem
    match part with
    | .char c => rfl
    | .reference name (some fallback) => rfl
    | .reference name none =>
      simpa [unset?_reference, Option.isSome_iff_ne_none] using h name hmem

/-- A character at the start stands for itself. -/
theorem meaning_char :
    meaning environment (.char c :: parts) = (meaning environment parts).map (c :: ·) := by
  have hskip : (Part.char c :: parts).findSome? (·.unset? environment) =
      parts.findSome? (·.unset? environment) := rfl
  rw [meaning, meaning, hskip]
  cases parts.findSome? (·.unset? environment) <;> rfl

/-- The value of a reference in a scan is the text that it stands for, if there is one. -/
theorem value_variable :
    (Reference.variable name fallback).value environment =
      if (environment name).isNone && fallback.isNone then .error name
      else .ok ((Part.reference name fallback).value environment) := by
  simp only [Reference.value, Part.value]
  cases environment name <;> cases fallback <;> rfl

/-- A reference at the start stands for its value. -/
theorem meaning_reference :
    meaning environment (.reference name fallback :: parts) =
      ((Reference.variable name fallback).value environment).bind fun value =>
        (meaning environment parts).map (value ++ ·) := by
  rw [meaning, meaning, List.findSome?_cons, unset?_reference, value_variable]
  by_cases hset : (environment name).isNone && fallback.isNone
  · rw [if_pos hset, if_pos hset]
    rfl
  · rw [if_neg hset, if_neg hset]
    cases parts.findSome? (·.unset? environment) <;> rfl

/-- A text without an opening brace behind a dollar sign **means itself**. -/
theorem IsRead.meaning_eq_self (h : IsRead s parts) (hsigns : ¬ openingSigns <:+: s) :
    meaning environment parts = .ok s := by
  rw [h.unique (isRead_map_char hsigns)]
  clear h hsigns
  induction s with
  | nil => rfl
  | cons c s ih =>
    rw [List.map_cons, meaning_char, ih]
    rfl

/-! ### Scans -/

/-- Whether a dollar sign before `rest` is **mistaken** by a scan, for the first of two or for the
sign of a variable without braces or without a name. -/
def IsMistaken (rest : Text) : Prop :=
  ['$'] <+: rest ∨ ['\x7b', '\x7d'] <+: rest ∨ ∃ c, isNameChar c ∧ [c] <+: rest

/-- Whether no dollar sign that stands for itself is mistaken. -/
def SignsAlone (parts : List Part) : Prop :=
  ∀ before after, parts = before ++ .char '$' :: after → ¬ IsMistaken (after.flatMap Part.source)

/-- No sign is mistaken if neither the first part nor a later one is. -/
theorem signsAlone_cons {part : Part} :
    SignsAlone (part :: parts) ↔
      (part = .char '$' → ¬ IsMistaken (parts.flatMap Part.source)) ∧ SignsAlone parts := by
  constructor
  · intro h
    exact ⟨fun heq => h [] parts (by rw [heq]; rfl),
      fun before after heq => h (part :: before) after (by rw [heq]; rfl)⟩
  · rintro ⟨hfirst, hrest⟩ before after heq
    rcases before with _ | ⟨_, before⟩
    · obtain ⟨rfl, rfl⟩ := List.cons.inj heq
      exact hfirst rfl
    · obtain ⟨rfl, rfl⟩ := List.cons.inj heq
      exact hrest before after rfl

/-- A scan **finds** a reference in braces as it is. -/
theorem reference?_span {before : Text} (h : IsReference span name fallback) :
    reference? before (span ++ rest) = some (.variable name fallback, span.length) := by
  obtain ⟨rfl, hne, hbrace, hends⟩ := h
  have hinner : (innerText name fallback ++ '\x7d' :: rest).takeWhile (· != '\x7d') =
      innerText name fallback :=
    Text.takeWhile_append_of_head (fun c hc => by simpa using ne_of_mem_of_not_mem hc hbrace)
      (by simp)
  have hspan : openingSigns ++ innerText name fallback ++ ['\x7d'] ++ rest =
      '$' :: '\x7b' :: (innerText name fallback ++ '\x7d' :: rest) := by
    simp [openingSigns]
  rw [hspan, reference?]
  simp [hinner, inBraces_innerText hne hends, openingSigns]

/-- A scan **finds nothing** where a dollar sign stands for itself and is not mistaken. -/
theorem reference?_eq_none {before : Text} (hstarts : ¬ StartsReference (c :: rest))
    (halone : c = '$' → ¬ IsMistaken rest) : reference? before (c :: rest) = none := by
  unfold reference?
  split
  next heq =>
    obtain ⟨rfl, rfl⟩ := List.cons.inj heq
    exact absurd (.inl (List.prefix_append ['$'] _)) (halone rfl)
  next rest' heq =>
    obtain ⟨rfl, rfl⟩ := List.cons.inj heq
    have hopen : '\x7d' ∉ rest' := by
      intro hmem
      obtain ⟨inner, after, rfl, hfirst⟩ := List.eq_append_cons_of_mem hmem
      by_cases hne : inner = []
      · subst hne
        exact halone rfl (.inr (.inl (List.prefix_append ['\x7b', '\x7d'] after)))
      · obtain ⟨name, fallback, hreference⟩ := exists_isReference hne hfirst
        exact hstarts ⟨_, _, _, hreference, after, by simp [openingSigns]⟩
    have hall : (rest' ++ []).takeWhile (· != '\x7d') = rest' :=
      Text.takeWhile_append_of_head (fun c hc => by simpa using ne_of_mem_of_not_mem hc hopen)
        (by simp)
    rw [List.append_nil] at hall
    simp [hall]
  next heq =>
    obtain ⟨rfl, rfl⟩ := List.cons.inj heq
    have hname : rest.takeWhile isNameChar = [] := by
      cases rest with
      | nil => rfl
      | cons c after =>
        refine List.takeWhile_cons_of_neg fun hc => halone rfl ?_
        exact .inr (.inr ⟨c, hc, List.prefix_append [c] after⟩)
    rw [hname]
  next => rfl

/-- Where a dollar sign is mistaken and is not the first of two, a scan **finds** the sign of a
variable. -/
theorem exists_reference?_of_isMistaken (hmistaken : IsMistaken rest)
    (hsign : ¬ ['$'] <+: rest) :
    ∃ name span after, '$' :: rest = span ++ after ∧ span ≠ [] ∧
      reference? [] ('$' :: rest) = some (.variable name none, span.length) := by
  obtain hmistaken | ⟨after, rfl⟩ | ⟨c, hc, after, rfl⟩ := hmistaken
  · exact absurd hmistaken hsign
  · exact ⟨[], openingSigns ++ ['\x7d'], after, rfl, by decide, rfl⟩
  · rw [List.singleton_append] at hsign ⊢
    have hname : (c :: after).takeWhile isNameChar = c :: after.takeWhile isNameChar :=
      List.takeWhile_cons_of_pos hc
    refine ⟨c :: after.takeWhile isNameChar, '$' :: c :: after.takeWhile isNameChar,
      after.dropWhile isNameChar, by simp, by simp, ?_⟩
    unfold reference?
    split
    next heq =>
      obtain ⟨rfl, -⟩ := List.cons.inj (List.cons.inj heq).2
      exact absurd (List.prefix_append ['$'] after) hsign
    next heq =>
      obtain ⟨rfl, -⟩ := List.cons.inj (List.cons.inj heq).2
      exact absurd hc (by decide)
    next heq =>
      obtain ⟨-, rfl⟩ := List.cons.inj heq
      rw [hname]
      rfl
    next hother => exact absurd rfl (hother _)

/-- The value of a text that is **scanned**. -/
def scanned (environment : Environment) (s : Text) : Except Text Text :=
  substitute environment (Text.pieces reference? s)

/-- What a scan finds does not depend on the text before it. -/
theorem piecesFrom_reference? (before : Text) (covered : Nat) (s : Text) :
    Text.piecesFrom reference? before covered s = Text.piecesFrom reference? [] covered s := by
  induction s generalizing before covered with
  | nil => rfl
  | cons c s ih =>
    cases covered with
    | succ covered => rw [Text.piecesFrom, Text.piecesFrom, ih, ih [c]]
    | zero =>
      have hsame : reference? before (c :: s) = reference? [] (c :: s) := rfl
      rw [Text.piecesFrom, Text.piecesFrom, hsame]
      split
      next => rw [ih, ih [c]]
      next => rw [ih, ih [c]]

/-- A reference that is found has its value. -/
theorem scanned_append {reference : Reference} (hne : span ≠ [])
    (h : reference? [] (span ++ rest) = some (reference, span.length)) :
    scanned environment (span ++ rest) =
      (reference.value environment).bind fun value =>
        (scanned environment rest).map (value ++ ·) := by
  rw [scanned, Text.pieces, Text.piecesFrom_hit hne h, piecesFrom_reference?, substitute]
  cases reference.value environment <;> rfl

/-- A character where nothing is found is kept. -/
theorem scanned_cons (h : reference? [] (c :: rest) = none) :
    scanned environment (c :: rest) = (scanned environment rest).map (c :: ·) := by
  rw [scanned, Text.pieces, Text.piecesFrom_kept h, piecesFrom_reference?, substitute]
  rfl

/-- Two dollar signs are scanned as one. -/
theorem scanned_signs : scanned environment ('$' :: '$' :: rest) =
    (scanned environment rest).map ('$' :: ·) :=
  scanned_append (List.cons_ne_nil '$' ['$']) rfl

/-- **A scan gives the meaning** where no dollar sign is mistaken. -/
theorem scanned_eq_meaning (h : IsRead s parts) (halone : SignsAlone parts) :
    scanned environment s = meaning environment parts := by
  induction h with
  | nil => rfl
  | reference hreference _ ih =>
    have hne := hreference.exists_cons
    rw [scanned_append (by rintro rfl; simp at hne) (reference?_span hreference),
      meaning_reference, ih (signsAlone_cons.1 halone).2]
  | @char c rest parts hstarts hrest ih =>
    obtain ⟨hsign, halone⟩ := signsAlone_cons.1 halone
    rw [hrest.flatMap_source] at hsign
    rw [scanned_cons (reference?_eq_none hstarts fun hc => hsign (hc ▸ rfl)), meaning_char,
      ih halone]

/-! ### Mistaken signs -/

/-- An environment in which each variable has the same letter for its value. -/
def lettered : Environment := fun _ => some ['z']

/-- In this environment all texts have a meaning. -/
theorem exists_meaning_lettered (parts : List Part) : ∃ t, meaning lettered parts = .ok t :=
  exists_meaning_iff.2 fun _ _ => rfl

/-- Each reference stands for the letter. -/
theorem meaning_lettered_reference :
    meaning lettered (.reference name fallback :: parts) =
      (meaning lettered parts).map ('z' :: ·) := meaning_reference

/-- Texts with different first characters differ, and so do texts with the same. -/
theorem map_cons_ne {d : Char} {x y : Except Text Text} {t : Text} (hy : y = .ok t)
    (hne : c ≠ d ∨ x ≠ y) : x.map (c :: ·) ≠ y.map (d :: ·) := by
  subst hy
  cases x with
  | error name => simp [Except.map]
  | ok u =>
    simp only [Except.map, ne_eq, Except.ok.injEq, List.cons.injEq] at hne ⊢
    grind

/-- A mistaken sign is scanned as the letter, unless it is the first of two. -/
theorem scanned_lettered_of_isMistaken (hmistaken : IsMistaken rest) (hsign : ¬ ['$'] <+: rest) :
    ∃ x : Except Text Text, scanned lettered ('$' :: rest) = x.map ('z' :: ·) := by
  obtain ⟨name, span, after, hspan, hne, hfound⟩ :=
    exists_reference?_of_isMistaken hmistaken hsign
  rw [hspan] at hfound ⊢
  exact ⟨_, scanned_append hne hfound⟩

/-- A reference is scanned as the letter. -/
theorem IsReference.scanned_lettered (h : IsReference span name fallback) :
    scanned lettered (span ++ rest) = (scanned lettered rest).map ('z' :: ·) := by
  obtain ⟨more, hspan⟩ := h.exists_cons
  exact scanned_append (by rw [hspan]; simp) (reference?_span h)

/-- A reading that starts with two dollar signs. -/
theorem IsRead.exists_sign (h : IsRead ('$' :: '$' :: rest) parts) :
    ∃ parts', parts = .char '$' :: parts' ∧ IsRead ('$' :: rest) parts' := by
  generalize hs : '$' :: '$' :: rest = s at h
  cases h with
  | nil => cases hs
  | reference hreference =>
    obtain ⟨more, rfl⟩ := hreference.exists_cons
    cases hs
  | char _ hrest =>
    obtain ⟨rfl, rfl⟩ := List.cons.inj hs
    exact ⟨_, rfl, hrest⟩

/-- What a text means that starts with a dollar sign, in this environment. -/
theorem IsRead.meaning_lettered (h : IsRead ('$' :: rest) parts) :
    (∃ parts', meaning lettered parts = (meaning lettered parts').map ('$' :: ·)) ∨
      ∃ parts', meaning lettered parts = (meaning lettered parts').map ('z' :: ·) ∧
        ['\x7b'] <+: rest := by
  generalize hs : '$' :: rest = s at h
  cases h with
  | nil => cases hs
  | @reference span name after fallback parts' hreference =>
    obtain ⟨more, rfl⟩ := hreference.exists_cons
    obtain rfl := (List.cons.inj hs).2
    exact .inr ⟨parts', meaning_lettered_reference, List.prefix_append ['\x7b'] (more ++ after)⟩
  | @char c rest parts' =>
    obtain ⟨rfl, -⟩ := List.cons.inj hs
    exact .inl ⟨parts', meaning_char⟩

/-- One more character of those that stand before a text. -/
theorem replicate_append_cons (k : Nat) (r : Text) :
    List.replicate k c ++ c :: r = c :: (List.replicate k c ++ r) := by
  rw [← List.cons_append, ← List.replicate_succ, List.replicate_succ', List.append_assoc,
    List.singleton_append]

/-- **Dollar signs that a scan leaves out** are missed: what stands behind one or more of them is
not scanned to what it means together with them. Strong induction on what stands behind, since a
scan takes two more of them at once. -/
theorem scanned_ne_meaning_signs (k : Nat) (r : Text) (parts : List Part)
    (h : IsRead ('$' :: (List.replicate k '$' ++ r)) parts) :
    scanned lettered r ≠ meaning lettered parts := by
  match r with
  | [] =>
    obtain ⟨parts', hmeaning⟩ | ⟨parts', hmeaning, -⟩ := h.meaning_lettered <;>
    · obtain ⟨t, ht⟩ := exists_meaning_lettered parts'
      rw [hmeaning, ht]
      simp [scanned, Text.pieces, Text.piecesFrom, substitute, Except.map]
  | c :: r =>
    by_cases hc : c = '$'
    · subst hc
      rw [replicate_append_cons] at h
      obtain ⟨parts', rfl, hrest⟩ := h.exists_sign
      obtain ⟨t, ht⟩ := exists_meaning_lettered parts'
      rw [meaning_char]
      by_cases hmistaken : IsMistaken r
      · by_cases hsign : ['$'] <+: r
        · obtain ⟨r, rfl⟩ := hsign
          rw [List.singleton_append, replicate_append_cons, ← List.cons_append,
            ← List.replicate_succ] at hrest
          rw [List.singleton_append, scanned_signs]
          exact map_cons_ne ht (.inr (scanned_ne_meaning_signs (k + 1) r parts' hrest))
        · obtain ⟨x, hx⟩ := scanned_lettered_of_isMistaken hmistaken hsign
          rw [hx]
          exact map_cons_ne ht (.inl (by decide))
      by_cases hstarts : StartsReference ('$' :: r)
      · obtain ⟨span, name, fallback, hreference, after, hspan⟩ := hstarts
        rw [← hspan, hreference.scanned_lettered]
        exact map_cons_ne ht (.inl (by decide))
      · rw [scanned_cons (reference?_eq_none hstarts fun _ => hmistaken)]
        exact map_cons_ne ht (.inr (scanned_ne_meaning_signs k r parts' hrest))
    · have hstarts : ¬ StartsReference (c :: r) := by
        rintro ⟨span, name, fallback, hreference, hprefix⟩
        obtain ⟨more, rfl⟩ := hreference.exists_cons
        exact hc (List.cons_prefix_cons.1 hprefix).1.symm
      rw [scanned_cons (reference?_eq_none hstarts fun h => absurd h hc)]
      obtain ⟨parts', hmeaning⟩ | ⟨parts', hmeaning, hbrace⟩ := h.meaning_lettered
      · obtain ⟨t, ht⟩ := exists_meaning_lettered parts'
        rw [hmeaning]
        exact map_cons_ne ht (.inl hc)
      · obtain ⟨t, ht⟩ := exists_meaning_lettered parts'
        rw [hmeaning]
        refine map_cons_ne ht (.inl ?_)
        rintro rfl
        cases k <;> simp [List.replicate_succ] at hbrace
termination_by r.length

/-- **A scan does not give the meaning** where a dollar sign is mistaken. -/
theorem scanned_ne_meaning (h : IsRead s parts) (hmistaken : ¬ SignsAlone parts) :
    scanned lettered s ≠ meaning lettered parts := by
  induction h with
  | nil => exact absurd (fun before after heq => by simp at heq) hmistaken
  | @reference span name rest fallback parts hreference _ ih =>
    obtain ⟨t, ht⟩ := exists_meaning_lettered parts
    rw [hreference.scanned_lettered, meaning_lettered_reference]
    refine map_cons_ne ht (.inr (ih fun halone => hmistaken ?_))
    exact signsAlone_cons.2 ⟨nofun, halone⟩
  | @char c rest parts hstarts hrest ih =>
    obtain ⟨t, ht⟩ := exists_meaning_lettered parts
    rw [meaning_char]
    by_cases hfirst : c = '$' ∧ IsMistaken rest
    · obtain ⟨rfl, hfirst⟩ := hfirst
      by_cases hsign : ['$'] <+: rest
      · obtain ⟨r, rfl⟩ := hsign
        rw [List.singleton_append] at hrest ⊢
        rw [scanned_signs]
        exact map_cons_ne ht (.inr (scanned_ne_meaning_signs 0 r parts hrest))
      · obtain ⟨x, hx⟩ := scanned_lettered_of_isMistaken hfirst hsign
        rw [hx]
        exact map_cons_ne ht (.inl (by decide))
    · rw [scanned_cons (reference?_eq_none hstarts fun hc hrest => hfirst ⟨hc, hrest⟩)]
      refine map_cons_ne ht (.inr (ih fun halone => hmistaken ?_))
      refine signsAlone_cons.2 ⟨fun hc hrest' => hfirst ⟨?_, ?_⟩, halone⟩
      · simpa using hc
      · rwa [hrest.flatMap_source] at hrest'

/-! ### Expansion -/

/-- **Expansion is the meaning** of the values that are not scanned and of those without a
mistaken sign, and of no others. -/
theorem expand_eq_meaning_iff (h : IsRead s parts) :
    (∀ environment, expand environment s = meaning environment parts) ↔
      (openingSigns <:+: s → SignsAlone parts) := by
  by_cases hscan : openingSigns <:+: s
  · have hexpand : ∀ environment, expand environment s = scanned environment s := fun _ =>
      if_pos (Text.includes_iff.2 hscan)
    simp only [hexpand]
    constructor
    · intro hmeaning _
      exact Classical.byContradiction fun hmistaken =>
        scanned_ne_meaning h hmistaken (hmeaning lettered)
    · intro halone environment
      exact scanned_eq_meaning h (halone hscan)
  · have hexpand : ∀ environment, expand environment s = .ok s := fun _ =>
      if_neg fun h => hscan (Text.includes_iff.1 h)
    exact ⟨fun _ h => absurd h hscan, fun _ environment => by
      rw [hexpand, h.meaning_eq_self hscan]⟩

/-- The error of a field tells that of its value. -/
theorem mapError_unset_inj {field : Field} {x y : Except Text Text} :
    x.mapError (SettingsError.unset field) = y.mapError (.unset field) ↔ x = y := by
  cases x <;> cases y <;> simp [Except.mapError]

/-- **The values of fields that expansion takes for what they mean.** Each value has one reading,
and a value is what this means in every environment, with the first variable that is needed and
not set for the error, exactly if it has no opening brace behind a dollar sign, or if no dollar sign
that stands for itself is mistaken. -/
theorem expandField_eq_meaning_iff (value : Text) :
    ∃ parts, IsRead value parts ∧ (∀ parts', IsRead value parts' → parts' = parts) ∧
      ((∀ environment field, Draft.expandField environment field value =
          (meaning environment parts).mapError (.unset field)) ↔
        (openingSigns <:+: value → SignsAlone parts)) := by
  obtain ⟨parts, hread⟩ := exists_isRead value
  refine ⟨parts, hread, fun parts' h => h.unique hread, ?_⟩
  rw [← expand_eq_meaning_iff hread]
  constructor
  · intro h environment
    exact mapError_unset_inj.1 (h environment .title)
  · intro h environment field
    rw [Draft.expandField, h environment]

/-- **A price behind a reference** is taken for a variable, and one of two dollar signs behind it is
gone. -/
theorem expandField_signs :
    (∃ parts, IsRead "$\x7bA:-x\x7d costs $5".toList parts ∧
      meaning (fun _ => none) parts = .ok "x costs $5".toList ∧
      Draft.expandField (fun _ => none) .title "$\x7bA:-x\x7d costs $5".toList =
        .error (.unset .title "5".toList)) ∧
    ∃ parts, IsRead "$\x7bA:-x\x7d has $$".toList parts ∧
      meaning (fun _ => none) parts = .ok "x has $$".toList ∧
      Draft.expandField (fun _ => none) .title "$\x7bA:-x\x7d has $$".toList =
        .ok "x has $".toList := by
  have hends : ¬ fallbackSigns <:+: ['A', ':'] := by decide +kernel
  have hreference : IsReference "$\x7bA:-x\x7d".toList ['A'] (some ['x']) :=
    ⟨by decide, by decide, by decide, hends⟩
  have hprice : ¬ openingSigns <:+: " costs $5".toList := by decide +kernel
  have hsigns : ¬ openingSigns <:+: " has $$".toList := by decide +kernel
  have hfirst : "$\x7bA:-x\x7d".toList ++ " costs $5".toList =
      "$\x7bA:-x\x7d costs $5".toList := by decide +kernel
  have hsecond : "$\x7bA:-x\x7d".toList ++ " has $$".toList =
      "$\x7bA:-x\x7d has $$".toList := by decide +kernel
  constructor
  · have hread := IsRead.reference hreference (isRead_map_char hprice)
    rw [hfirst] at hread
    exact ⟨_, hread, by decide +kernel, by decide +kernel⟩
  · have hread := IsRead.reference hreference (isRead_map_char hsigns)
    rw [hsecond] at hread
    exact ⟨_, hread, by decide +kernel, by decide +kernel⟩

end Lectern.Settings
