import Lectern.Proofs.Directive.Recoded
import Lectern.Proofs.Pipeline.Settled
import Lectern.Proofs.Text.Place

/-!
# Inline Code beside Inline Directives

The rule for the older form of inline code runs over the source before directives are looked for in
it, and does not know of them. Where the two forms stand apart it leaves all inline directives as
they are. They need not: the closing backtick of either can be the opening backtick of the other,
and then the rule takes the directive apart.

The two walks over a source are compared place by place. At each place both arrive at, either a
directive is found, and the rule stays out of it unless it is a block; or the rule finds inline
code, and no directive starts in that; or nothing is found, and then nothing is found in the
rewritten text either.

## Main results

* `SharesBacktick`: where the two forms do not stand apart.
* `walksAgree_of_directive`, `walksAgree_of_code`, `walksAgree_cons`: what is found at a place.
* `walksAgree_of_arrives`: the two walks from a place at which both arrive.
* `inline_directives_kept`: the inline directives of a rewritten source.
* `inline_directives_lost`: a directive ahead of inline code, and one behind it, that are lost.
-/

namespace Lectern.Pipeline

open Text
open Directive (Occurrence IsFence SameEdge Recoded IsCode inlineMarkers occurrence?
  fits_occurrence? scan)
open Shorthand (codeElement codeMarker fits_quotedCode? quotedCode?)

/-! ### Shared backticks -/

/-- Whether an inline directive and inline code **share a backtick** that closes one of them and
opens the other. -/
def SharesBacktick (s : Text) : Prop :=
  ∃ earlier source later occurrence, Takes occurrence? s earlier source later occurrence ∧
    occurrence.isInline = true ∧
    ∃ earlier' source' later' body, Takes quotedCode? s earlier' source' later' body ∧
      (earlier ++ source = earlier' ++ (codeMarker ++ ['\x60']) ∨
        ∃ marker ∈ inlineMarkers, earlier' ++ source' = earlier ++ (marker ++ ['\x60']))

/-- The two forms stand apart if no place of one with its length is that of the other, less a marker
with its backtick. -/
theorem not_sharesBacktick_of_spots {s : Text}
    (h : ∀ directive ∈ spots occurrence? s, ∀ code ∈ spots quotedCode? s,
      directive.1 + directive.2 ≠ code.1 + 2 ∧ code.1 + code.2 ≠ directive.1 + 2 ∧
        code.1 + code.2 ≠ directive.1 + 3) : ¬ SharesBacktick s := by
  rintro ⟨earlier, source, later, occurrence, hdirective, -, earlier', source', later', body, hcode,
    hshared⟩
  obtain ⟨hbehind, hreference, hdefinition⟩ := h _ hdirective.mem_spots _ hcode.mem_spots
  rcases hshared with hend | ⟨marker, hmarker, hend⟩
  · exact hbehind (by simpa [codeMarker] using congrArg List.length hend)
  · rcases List.mem_pair.1 hmarker with rfl | rfl
    · exact hdefinition (by simpa using congrArg List.length hend)
    · exact hreference (by simpa using congrArg List.length hend)

section Overlap

variable {s earlier source later body : Text} {occurrence : Occurrence}

/-- What is taken for a directive spells it. -/
theorem spelledBy_of_takes (h : Takes occurrence? s earlier source later occurrence) :
    occurrence.SpelledBy earlier source later := by
  obtain ⟨source', later', heq, hlength, hspelled⟩ := Directive.spelledBy_of_occurrence? h.found
  obtain ⟨rfl, rfl⟩ := List.append_inj heq hlength.symm
  exact hspelled

/-- What is taken for inline code is quoted. -/
theorem isQuoted_of_takes (h : Takes quotedCode? s earlier source later body) :
    IsQuoted codeMarker earlier source body := by
  have hquoted : IsQuoted codeMarker earlier.reverse.reverse source body :=
    isQuoted_of_quoted? h.found
  rwa [List.reverse_reverse] at hquoted

/-- **A marker inside a quoted source** is the end of its own marker, or it takes the closing
backtick for its own. -/
theorem marker_of_overlap {marker marker' front rest tail : Text} (hmarker : '\x60' ∉ marker)
    (hmarker' : '\x60' ∉ marker') (hbody : '\x60' ∉ body)
    (hsource : marker ++ '\x60' :: (body ++ ['\x60']) = front ++ rest) (hne : rest ≠ [])
    (hinside : rest ++ later = marker' ++ '\x60' :: tail) :
    marker = front ++ marker' ∨
      marker ++ '\x60' :: (body ++ ['\x60']) = front ++ (marker' ++ ['\x60']) := by
  rcases append_cons_eq_append hsource with ⟨inside, rfl, rfl⟩ | ⟨inside, rfl, hrest⟩
  · obtain ⟨-, hinner⟩ : '\x60' ∉ front ∧ '\x60' ∉ inside := by simpa using hmarker
    rw [List.append_assoc, List.cons_append] at hinside
    obtain ⟨rfl, -⟩ := append_cons_inj_of_not_mem hinner hmarker' hinside
    exact .inl rfl
  · rcases append_cons_eq_append hrest with ⟨last, rfl, rfl⟩ | ⟨last, -, hlast⟩
    · obtain ⟨-, hinner⟩ : '\x60' ∉ inside ∧ '\x60' ∉ last := by simpa using hbody
      rw [List.append_assoc, List.singleton_append] at hinside
      obtain ⟨rfl, -⟩ := append_cons_inj_of_not_mem hinner hmarker' hinside
      exact .inr (by simp)
    · exact absurd (List.append_eq_nil_iff.1 hlast.symm).2 hne

/-- A body in backticks has none. -/
theorem backtick_not_mem_of_isQuoted {marker before : Text}
    (h : IsQuoted marker before source body) : '\x60' ∉ body := fun hmem => (h.2.2.2 _ hmem).1 rfl

/-- What follows a place inside a part that is taken, as another walk takes it. -/
theorem append_eq_append_of_takes {α β : Type} {find : Finder α} {find' : Finder β} {found : α}
    {found' : β} {front rest source' later' : Text}
    (h : Takes find s earlier (front ++ rest) later found)
    (h' : Takes find' s (earlier ++ front) source' later' found') :
    rest ++ later = source' ++ later' := by
  have heq := h.eq_append.symm.trans h'.eq_append
  simpa using heq

/-- **Inline code starts inside an inline directive** only at a backtick that both share. -/
theorem sharesBacktick_of_code_inside {front rest source' later' body' : Text}
    (hinline : occurrence.isInline = true)
    (h : Takes occurrence? s earlier (front ++ rest) later occurrence) (hne : rest ≠ [])
    (h' : Takes quotedCode? s (earlier ++ front) source' later' body') : SharesBacktick s := by
  have hinside := append_eq_append_of_takes h h'
  obtain ⟨marker, hmarker, body, hquoted⟩ := (spelledBy_of_takes h).exists_isQuoted hinline
  have hquoted' := isQuoted_of_takes h'
  have hbody := backtick_not_mem_of_isQuoted hquoted
  have hmarkers : ∀ marker ∈ inlineMarkers, '\x60' ∉ marker := by decide
  obtain ⟨-, hsource, -⟩ := hquoted
  obtain ⟨hword, hsource', -⟩ := hquoted'
  have hcode : rest ++ later =
      codeMarker ++ '\x60' :: (body' ++ ['\x60'] ++ later') := by
    rw [hinside, hsource']
    simp
  rcases marker_of_overlap (hmarkers marker hmarker) (by decide) hbody hsource.symm hne hcode
    with hown | hshared
  · -- the `L` of a definition's marker is behind a letter, so no inline code starts there
    rcases List.mem_pair.1 hmarker with rfl | rfl
    · obtain rfl : front = ['d'] := by
        have hsplit : ['d'] ++ codeMarker = front ++ codeMarker := hown
        exact (List.append_cancel_right hsplit).symm
      exact absurd (hword 'd' (by simp)) (by decide)
    · cases front <;> simp [codeMarker] at hown
  · refine ⟨earlier, front ++ rest, later, occurrence, h, hinline, earlier ++ front, source',
      later', body', h', .inl ?_⟩
    rw [hsource, hshared, List.append_assoc]

/-- **A directive starts inside inline code** only at a backtick that both share. -/
theorem sharesBacktick_of_directive_inside {front rest source' later' : Text}
    (h : Takes quotedCode? s earlier (front ++ rest) later body) (hne : rest ≠ [])
    (h' : Takes occurrence? s (earlier ++ front) source' later' occurrence) : SharesBacktick s := by
  have hinside := append_eq_append_of_takes h h'
  have hquoted := isQuoted_of_takes h
  have hbody := backtick_not_mem_of_isQuoted hquoted
  have hmarkers : ∀ marker ∈ inlineMarkers, '\x60' ∉ marker ∧
      ∀ front ∈ codeMarker.inits, codeMarker ≠ front ++ marker := by decide
  obtain ⟨-, hsource, -, hquotable⟩ := hquoted
  cases hinline : occurrence.isInline with
  | true =>
    obtain ⟨marker, hmarker, body', hquoted'⟩ := (spelledBy_of_takes h').exists_isQuoted hinline
    obtain ⟨-, hsource', -⟩ := hquoted'
    obtain ⟨hbacktick, hforeign⟩ := hmarkers marker hmarker
    have hdirective : rest ++ later = marker ++ '\x60' :: (body' ++ ['\x60'] ++ later') := by
      rw [hinside, hsource']
      simp
    rcases marker_of_overlap (by decide) hbacktick hbody hsource.symm hne hdirective
      with hown | hshared
    · exact absurd hown (hforeign front ((List.mem_inits _ _).2 ⟨marker, hown.symm⟩))
    · refine ⟨earlier ++ front, source', later', occurrence, h', hinline, earlier, front ++ rest,
        later, body, h, .inr ⟨marker, hmarker, ?_⟩⟩
      rw [hsource, hshared, List.append_assoc]
  | false =>
    -- a block starts a line, with a backtick; inline code lies within its line and starts otherwise
    obtain ⟨tag, content, hline, -, padding, fence, -, -, rfl⟩ :=
      (spelledBy_of_takes h').exists_isFenced hinline
    rcases List.eq_nil_or_concat front with rfl | ⟨front, c, rfl⟩
    · rw [List.nil_append] at hsource
      simp [hsource, codeMarker] at hinside
    · obtain rfl : c = '\n' := hline c (by simp)
      have hmem : '\n' ∈ codeMarker ++ '\x60' :: (body ++ ['\x60']) := by simp [← hsource]
      simp only [codeMarker, List.mem_append, List.mem_cons, List.not_mem_nil, or_false] at hmem
      have hnot : '\n' ∉ body := fun hmem => (hquotable _ hmem).2 rfl
      simp [hnot] at hmem

end Overlap

/-! ### The walks from a place -/

/-- The inline directives of the text behind a place. -/
def inlineFrom (before s : Text) : List Directive :=
  ((hits (piecesFrom occurrence? before.reverse 0 s)).filterMap (·.directive?)).filter (!·.isBlock)

/-- The text behind a place, with inline code of the older form rewritten. -/
def codeFrom (before s : Text) : Text :=
  rewriteHits codeElement (piecesFrom quotedCode? before.reverse 0 s)

section Walks

variable {before s source later part body : Text} {occurrence : Occurrence}

/-- No directive starts in a part of the text. -/
theorem inlineFrom_append_of_none
    (h : ∀ front rest, part = front ++ rest → rest ≠ [] →
      occurrence? (before ++ front).reverse (rest ++ later) = none) :
    inlineFrom before (part ++ later) = inlineFrom (before ++ part) later := by
  have hpieces : piecesFrom occurrence? before.reverse 0 (part ++ later) =
      part.map .kept ++ piecesFrom occurrence? (part.reverse ++ before.reverse) 0 later :=
    piecesFrom_append_of_none fun front rest heq hne => by simpa using h front rest heq hne
  rw [inlineFrom, hpieces]
  simp [inlineFrom]

/-- A character is kept. -/
theorem inlineFrom_cons {c : Char} (h : occurrence? before.reverse (c :: s) = none) :
    inlineFrom before (c :: s) = inlineFrom (before ++ [c]) s := by
  rw [inlineFrom, piecesFrom_kept h]
  simp [inlineFrom]

/-- An inline directive is found. -/
theorem inlineFrom_inline (hinline : occurrence.isInline = true)
    (h : occurrence.SpelledBy before source later) :
    inlineFrom before (source ++ later) =
      occurrence.directive?.toList ++ inlineFrom (before ++ source) later := by
  rw [inlineFrom, piecesFrom_hit h.ne_nil (Directive.occurrence?_of_spelledBy _ h), hits_hit]
  match occurrence with
  | .usable directive =>
    have hkept : (!directive.isBlock) = true := hinline
    simp [inlineFrom, Occurrence.directive?, hkept]
  | .hollow _ => contradiction

/-- A block is found. -/
theorem inlineFrom_block (hblock : occurrence.isInline = false)
    (h : occurrence.SpelledBy before source later) :
    inlineFrom before (source ++ later) = inlineFrom (before ++ source) later := by
  rw [inlineFrom, piecesFrom_hit h.ne_nil (Directive.occurrence?_of_spelledBy _ h), hits_hit]
  match occurrence with
  | .usable directive =>
    have hkept : (!directive.isBlock) = false := hblock
    simp [inlineFrom, Occurrence.directive?, hkept]
  | .hollow _ => simp [inlineFrom, Occurrence.directive?]

/-- A character is kept. -/
theorem codeFrom_cons {c : Char} (h : quotedCode? before.reverse (c :: s) = none) :
    codeFrom before (c :: s) = c :: codeFrom (before ++ [c]) s := by
  rw [codeFrom, piecesFrom_kept h]
  simp [codeFrom]

/-- Inline code is rewritten. -/
theorem codeFrom_append (hne : source ≠ [])
    (h : quotedCode? before.reverse (source ++ later) = some (body, source.length)) :
    codeFrom before (source ++ later) = codeElement body ++ codeFrom (before ++ source) later := by
  rw [codeFrom, piecesFrom_hit hne h]
  simp [codeFrom]

/-- Inline code has the look of inline code in both forms. -/
theorem isCode_of_quotedCode?
    (h : quotedCode? before (source ++ later) = some (body, source.length)) :
    IsCode source ∧ IsCode (codeElement body) := by
  obtain ⟨-, rfl, -, hbody⟩ : IsQuoted codeMarker before.reverse source body :=
    isQuoted_of_quoted? h
  have hnewline : '\n' ∉ body := fun hmem => (hbody _ hmem).2 rfl
  have helement : codeElement body = "<code>".toList ++ body ++ ("</code".toList ++ ['>']) := rfl
  have hlines : '\n' ∉ "<code>".toList ∧ '\n' ∉ "</code>".toList := by decide
  refine ⟨⟨⟨'L', _, rfl, .inl rfl⟩, ⟨codeMarker ++ '\x60' :: body, '\x60', by simp, .inl rfl⟩, ?_⟩,
    ⟨⟨'<', _, rfl, .inr rfl⟩, ⟨"<code>".toList ++ body ++ "</code".toList, '>', ?_, .inr rfl⟩, ?_⟩⟩
  · simpa [codeMarker] using hnewline
  · exact helement.trans (List.append_assoc _ _ _).symm
  · exact List.not_mem_append (List.not_mem_append hlines.1 hnewline) hlines.2

/-- Rewriting inline code recodes a text. -/
theorem recoded_codeFrom (before s : Text) : Recoded s (codeFrom before s) :=
  (walk_piecesFrom fits_quotedCode? before.reverse s).recast fun h =>
    .single (isCode_of_quotedCode? h)

/-- Rewriting inline code writes elements. -/
theorem recast_codeFrom (before s : Text) : Recast IsElement s (codeFrom before s) :=
  (walk_piecesFrom fits_quotedCode? before.reverse s).recast fun h =>
    .single (Shorthand.isElement_of_quotedCode? h)

/-- **No directive starts in an element.** -/
theorem inlineFrom_element {written : Text} (h : IsElement source written) :
    inlineFrom before (written ++ later) = inlineFrom (before ++ written) later := by
  refine inlineFrom_append_of_none fun front rest heq hne => ?_
  have hbacktick := h.backtick_not_mem
  obtain ⟨whole, hwhole⟩ := h.exists_concat
  obtain ⟨inside, rfl⟩ : ∃ inside, rest = inside ++ ['>'] := by
    obtain ⟨inside, last, rfl⟩ := (List.eq_nil_or_concat' rest).resolve_left hne
    rw [heq, ← List.append_assoc] at hwhole
    obtain ⟨-, rfl⟩ : front ++ inside = whole ∧ last = '>' := by
      simpa using List.append_inj' hwhole rfl
    exact ⟨inside, rfl⟩
  obtain ⟨-, hinside⟩ : '\x60' ∉ front ∧ '\x60' ∉ inside := by simpa [heq] using hbacktick
  refine Option.eq_none_iff_forall_ne_some.2 fun ⟨occurrence, length⟩ hfound => ?_
  obtain ⟨source', later', heq', -, hspelled⟩ := Directive.spelledBy_of_occurrence? hfound
  cases hinline : occurrence.isInline with
  | true =>
    obtain ⟨marker, hmarker, body, hquoted⟩ := hspelled.exists_isQuoted hinline
    have hmarkers : ∀ marker ∈ inlineMarkers, '>' ∉ marker := by decide
    exact not_quotedAt_append (hmarkers marker hmarker) hinside ⟨_, _, body, heq', hquoted⟩
  | false =>
    obtain ⟨tag, content, -, -, padding, fence, -, -, rfl⟩ := hspelled.exists_isFenced hinline
    cases inside with
    | nil => simp at heq'
    | cons c inside =>
      obtain rfl : c = '\x60' := by simpa using congrArg List.head? heq'
      simp at hinside

end Walks

/-! ### Both walks -/

section Both

variable {s earlier source later : Text} {occurrence : Occurrence}

/-- Inline code ends within a block, if it starts in it: it lies within a line, and the last line of
the block has no `L`. -/
theorem length_le_of_code_in_block {tag content front rest source' later' body : Text}
    (hfenced : Directive.IsFenced tag earlier (front ++ rest) later content) (hne : rest ≠ [])
    (hsplit : rest ++ later = source' ++ later')
    (hquoted : IsQuoted codeMarker (earlier ++ front) source' body) :
    source'.length ≤ rest.length := by
  obtain ⟨-, -, padding, fence, -, hfence, hsource⟩ := hfenced
  obtain ⟨-, rfl, -, hbody⟩ := hquoted
  have hnewline : '\n' ∉ codeMarker ++ '\x60' :: (body ++ ['\x60']) := by
    have hnot : '\n' ∉ body := fun hmem => (hbody _ hmem).2 rfl
    simpa [codeMarker] using hnot
  by_contra hlong
  -- otherwise what is left of the block is the start of inline code
  obtain ⟨inside, hinside⟩ : rest <+: codeMarker ++ '\x60' :: (body ++ ['\x60']) :=
    List.prefix_of_prefix_length_le (List.prefix_append rest later)
      (hsplit ▸ List.prefix_append _ later') (by omega)
  have hrest : '\n' ∉ rest := fun hmem => hnewline (hinside ▸ List.mem_append_left _ hmem)
  have hlast : ∃ inner, fence = inner ++ rest := by
    have hlines : front ++ rest =
        ("```".toList ++ tag ++ padding ++ '\n' :: content) ++ '\n' :: fence := by
      simp [hsource]
    rcases append_cons_eq_append hlines.symm with ⟨inner, -, hrest'⟩ | ⟨inner, -, hfence'⟩
    · exact absurd (by simp [hrest']) hrest
    · exact ⟨inner, hfence'⟩
  obtain ⟨inner, rfl⟩ := hlast
  obtain ⟨c, rest, rfl⟩ := List.exists_cons_of_ne_nil hne
  obtain rfl : c = 'L' := by simpa [codeMarker] using congrArg List.head? hinside
  exact hfence.isPlain.1 (by simp)

/-- **Inline code stays out of inline directives** with which it shares no backtick. -/
theorem codeFrom_inline (hshares : ¬ SharesBacktick s) (hinline : occurrence.isInline = true)
    (h : Takes occurrence? s earlier source later occurrence)
    (hcode : Arrives quotedCode? s earlier (source ++ later)) :
    Arrives quotedCode? s (earlier ++ source) later ∧
      codeFrom earlier (source ++ later) = source ++ codeFrom (earlier ++ source) later := by
  obtain ⟨hcode', hpieces⟩ := hcode.pass fits_quotedCode?
    fun front rest heq hne source' behind body htaken => hshares
      (sharesBacktick_of_code_inside hinline (heq ▸ h) hne htaken)
  refine ⟨hcode', ?_⟩
  rw [codeFrom, hpieces]
  simp [codeFrom]

/-- **Inline code stays within blocks** in which it starts. -/
theorem codeFrom_block (hblock : occurrence.isInline = false)
    (h : Takes occurrence? s earlier source later occurrence)
    (hcode : Arrives quotedCode? s earlier (source ++ later)) :
    Arrives quotedCode? s (earlier ++ source) later ∧ ∃ written, Recoded source written ∧
      codeFrom earlier (source ++ later) = written ++ codeFrom (earlier ++ source) later := by
  obtain ⟨tag, content, hfenced⟩ := (spelledBy_of_takes h).exists_isFenced hblock
  have hwithin : ∀ front rest, source = front ++ rest → rest ≠ [] → ∀ source' behind body,
      Takes quotedCode? s (earlier ++ front) source' behind body →
        source'.length ≤ rest.length := by
    rintro front rest rfl hne source' behind body htaken
    exact length_le_of_code_in_block hfenced hne (append_eq_append_of_takes h htaken)
      (isQuoted_of_takes htaken)
  have hthrough : Arrives quotedCode? s (earlier ++ source) later ∧
      ∃ ps, piecesFrom quotedCode? earlier.reverse 0 (source ++ later) =
          ps ++ piecesFrom quotedCode? (earlier ++ source).reverse 0 later ∧
        Recoded source (rewriteHits codeElement ps) :=
    hcode.through fits_quotedCode? hwithin isCode_of_quotedCode?
  obtain ⟨hcode', ps, hpieces, hrecoded⟩ := hthrough
  refine ⟨hcode', rewriteHits codeElement ps, hrecoded, ?_⟩
  rw [codeFrom, hpieces]
  simp [codeFrom]

/-- **Directives stay out of inline code** with which they share no backtick. -/
theorem inlineFrom_code {body : Text} (hshares : ¬ SharesBacktick s)
    (h : Takes quotedCode? s earlier source later body)
    (hdirective : Arrives occurrence? s earlier (source ++ later)) :
    Arrives occurrence? s (earlier ++ source) later ∧
      inlineFrom earlier (source ++ later) = inlineFrom (earlier ++ source) later := by
  obtain ⟨hdirective', hpieces⟩ := hdirective.pass fits_occurrence?
    fun front rest heq hne source' behind occurrence htaken => hshares
      (sharesBacktick_of_directive_inside (heq ▸ h) hne htaken)
  refine ⟨hdirective', ?_⟩
  rw [inlineFrom, hpieces]
  simp [inlineFrom]

/-- Whether the **two walks agree** from a place: the inline directives of the rewritten text are
those of the text, behind whatever has the same edge. -/
def WalksAgree (earlier rest : Text) : Prop :=
  ∀ before', SameEdge earlier.reverse before'.reverse →
    inlineFrom before' (codeFrom earlier rest) = inlineFrom earlier rest

/-- **Where a directive is found**, the walk for inline code comes out behind it, and the walks
agree if they do so from there. -/
theorem walksAgree_of_directive (hshares : ¬ SharesBacktick s)
    (h : Takes occurrence? s earlier source later occurrence)
    (hcode : Arrives quotedCode? s earlier (source ++ later)) :
    Arrives quotedCode? s (earlier ++ source) later ∧
      (WalksAgree (earlier ++ source) later → WalksAgree earlier (source ++ later)) := by
  have hspelled := spelledBy_of_takes h
  have hbehind := recoded_codeFrom (earlier ++ source) later
  cases hinline : occurrence.isInline with
  | true =>
    obtain ⟨hcode', hsame⟩ := codeFrom_inline hshares hinline h hcode
    refine ⟨hcode', fun hagree before' hedge => ?_⟩
    have hspelled' := hspelled.of_sameEdge hinline hedge hbehind
    have hedge' : SameEdge (earlier ++ source).reverse (before' ++ source).reverse := by
      simpa using hedge.append source.reverse
    rw [hsame, inlineFrom_inline hinline hspelled', inlineFrom_inline hinline hspelled,
      hagree _ hedge']
  | false =>
    obtain ⟨hcode', written, hrecoded, hsplit⟩ := codeFrom_block hinline h hcode
    refine ⟨hcode', fun hagree before' hedge => ?_⟩
    obtain ⟨occurrence', hblock, hspelled'⟩ := hspelled.recoded hinline hedge hrecoded hbehind
    have hedge' : SameEdge (earlier ++ source).reverse (before' ++ written).reverse := by
      simpa using hrecoded.sameEdge hedge
    rw [hsplit, inlineFrom_block hblock hspelled', inlineFrom_block hinline hspelled,
      hagree _ hedge']

/-- **Where inline code is found** and no directive, the walk for directives comes out behind it,
and the walks agree if they do so from there. -/
theorem walksAgree_of_code {body : Text} (hshares : ¬ SharesBacktick s)
    (h : Takes quotedCode? s earlier source later body) (hne : source ≠ [])
    (hdirective : Arrives occurrence? s earlier (source ++ later)) :
    Arrives occurrence? s (earlier ++ source) later ∧
      (WalksAgree (earlier ++ source) later → WalksAgree earlier (source ++ later)) := by
  obtain ⟨hdirective', hsame⟩ := inlineFrom_code hshares h hdirective
  refine ⟨hdirective', fun hagree before' _ => ?_⟩
  have hedge' : SameEdge (earlier ++ source).reverse (before' ++ codeElement body).reverse := by
    obtain ⟨hsource, hwritten⟩ := isCode_of_quotedCode? h.found
    simpa using SameEdge.of_isCode hsource hwritten
  rw [hsame, codeFrom_append hne h.found,
    inlineFrom_element (Shorthand.isElement_of_quotedCode? h.found), hagree _ hedge']

/-- **Where nothing is found**, nothing is found in the rewritten text either. -/
theorem walksAgree_cons {rest : Text} {c : Char}
    (hdirective : occurrence? earlier.reverse (c :: rest) = none)
    (hcode : quotedCode? earlier.reverse (c :: rest) = none)
    (hagree : WalksAgree (earlier ++ [c]) rest) : WalksAgree earlier (c :: rest) := by
  intro before' hedge
  have hnone := Directive.occurrence?_eq_none_of_recoded hdirective hedge
    (recoded_codeFrom (earlier ++ [c]) rest) (recast_codeFrom (earlier ++ [c]) rest)
  have hedge' : SameEdge (earlier ++ [c]).reverse (before' ++ [c]).reverse := by
    simpa using hedge.cons c
  rw [codeFrom_cons hcode, inlineFrom_cons hnone, inlineFrom_cons hdirective, hagree _ hedge']

/-- **The two walks agree** from a place at which both arrive. Strong induction on the length of the
text, since an occurrence takes many characters at once. -/
theorem walksAgree_of_arrives {earlier rest : Text} (hshares : ¬ SharesBacktick s)
    (hdirective : Arrives occurrence? s earlier rest) (hcode : Arrives quotedCode? s earlier rest) :
    WalksAgree earlier rest := by
  have hshort : ∀ {source later : Text}, source ≠ [] →
      later.length < (source ++ later).length := fun hne => by
    have := List.length_pos_iff.2 hne
    rw [List.length_append]
    omega
  match hfound : occurrence? earlier.reverse rest with
  | some (occurrence, length) =>
    obtain ⟨source, later, rfl, rfl, hne⟩ := fits_occurrence?.exists_source hfound
    obtain ⟨hcode', hbehind⟩ := walksAgree_of_directive hshares ⟨hdirective, hfound⟩ hcode
    have := @hshort _ later hne
    exact hbehind (walksAgree_of_arrives hshares (hdirective.hit hfound) hcode')
  | none =>
    match hquoted : quotedCode? earlier.reverse rest with
    | some (body, length) =>
      obtain ⟨source, later, rfl, rfl, hne⟩ := fits_quotedCode?.exists_source hquoted
      obtain ⟨hdirective', hbehind⟩ := walksAgree_of_code hshares ⟨hcode, hquoted⟩ hne hdirective
      have := @hshort _ later hne
      exact hbehind (walksAgree_of_arrives hshares hdirective' (hcode.hit hquoted))
    | none =>
      match rest with
      | [] => exact fun _ _ => rfl
      | c :: rest =>
        exact walksAgree_cons hfound hquoted
          (walksAgree_of_arrives hshares (hdirective.kept hfound) (hcode.kept hquoted))
termination_by rest.length

end Both

/-! ### Sources without tokens -/

/-- The inline directives of a text, in order. -/
def inlineDirectives (s : Text) : List Directive := (scan s).filter (!·.isBlock)

/-- **The standard shorthands keep inline directives**, with their payloads and in order, in every
source without tokens in which no inline directive and no inline code share a backtick. -/
theorem inline_directives_kept {s : Text} (htokens : ∀ token ∈ tokens, ¬ token <:+: s)
    (hshares : ¬ SharesBacktick s) :
    inlineDirectives (ShorthandSet.standard.apply s) = inlineDirectives s := by
  have hname : calculusName.apply s = s :=
    Shorthand.apply_literal_eq_self (by decide) (htokens _ (by decide))
  have hletter : calculusLetter.apply s = s :=
    Shorthand.apply_literal_eq_self (by decide) (htokens _ (by decide))
  rw [standard_apply, hname, hletter]
  have hwhole : inlineFrom [] (codeFrom [] s) = inlineFrom [] s :=
    walksAgree_of_arrives hshares .start .start [] (.refl _)
  exact hwhole

/-- A source with inline code beside inline directives, some of them in a block. -/
theorem inline_directives_kept_line :
    let source : Text := "L`a`l`b`, dL`c`".toList
    (∀ token ∈ tokens, ¬ token <:+: source) ∧ ¬ SharesBacktick source ∧
      ShorthandSet.standard.apply source = "<code>a</code>l`b`, dL`c`".toList ∧
      inlineDirectives (ShorthandSet.standard.apply source) = inlineDirectives source ∧
      inlineDirectives source = [.reference ['b'], .definition ['c'] false] := by
  intro source
  have htokens : ∀ token ∈ tokens, ¬ token <:+: source := by decide +kernel
  have hshares : ¬ SharesBacktick source := not_sharesBacktick_of_spots (by decide +kernel)
  exact ⟨htokens, hshares, by decide +kernel, inline_directives_kept htokens hshares,
    by decide +kernel⟩

/-- **Shared backticks**: inline code behind a directive takes the backtick that closes it, and
inline code ahead of one ends at the backtick that opens it. The directive is lost. -/
theorem inline_directives_lost :
    inlineDirectives "l`a L` b`".toList = [.reference "a L".toList] ∧
      ShorthandSet.standard.apply "l`a L` b`".toList = "l`a <code> b</code>".toList ∧
      inlineDirectives "l`a <code> b</code>".toList = [] ∧
      inlineDirectives "L`l`x`".toList = [.reference "x".toList] ∧
      ShorthandSet.standard.apply "L`l`x`".toList = "<code>l</code>x`".toList ∧
      inlineDirectives "<code>l</code>x`".toList = [] := by
  decide +kernel

end Lectern.Pipeline
