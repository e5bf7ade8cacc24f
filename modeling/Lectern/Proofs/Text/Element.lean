import Lectern.Proofs.Text.Recast

/-!
# Elements for Quoted Sources

The rules for inline markers write elements: an opening, the body in a form of its own, and a
closing, in the place of the marker and the two backticks. Elements are made of **inert** parts,
which start with a sign that no marker and no token has, and hold neither a backtick nor a line end.

Writing elements leaves no quoted source behind that was not there before. A marker with its
backtick is never part of an element, nor does it begin in one; and if an element stands in what
looks like a quoted body, then its own marker was part of that body before, so there was a body.

## Main results

* `IsElement.recast`: an element is recast from its source by inert parts.
* `Opens.of_recast`: what looks like a quoted body among elements was one before.
* `Walk.not_quotedAt`, `Walk.not_hasQuoted`: writing elements brings no quoted source about.
-/

namespace Lectern.Text

/-! ### Inert parts -/

/-- The signs with which inert parts start. -/
def signs : Text := ['λ', '<', '&', '"', '\uFFFD']

/-- The characters that inert parts do not hold. -/
def edges : Text := ['\x7b', '\x60', '\n', '\r']

/-- Whether a text has none of some characters. -/
def Avoids (s excluded : Text) : Prop := ∀ c ∈ s, c ∉ excluded

-- Decided along the text. The quantifier on its own may be decided over all characters there are.
instance (s excluded : Text) : Decidable (Avoids s excluded) :=
  decidable_of_iff (s.all fun c => !excluded.contains c) (by simp [Avoids])

/-- Whether a part is **inert**: it starts with a sign, and holds no brace, backtick or line end. -/
structure IsInert (written : Text) : Prop where
  first : ∃ c ∈ signs, written.head? = some c
  others : Avoids written edges

instance (written : Text) : Decidable (IsInert written) :=
  decidable_of_iff ((signs.any fun c => written.head? = some c) ∧ Avoids written edges)
    ⟨fun h => ⟨by simpa using h.1, h.2⟩, fun h => ⟨by simpa using h.first, h.others⟩⟩

/-- Texts that are recast by inert parts. -/
abbrev InertlyRecast : Text → Text → Prop := Recast fun _ written => IsInert written

/-- An inert part starts with a sign. -/
theorem IsInert.exists_cons {written : Text} (h : IsInert written) :
    ∃ c rest, written = c :: rest ∧ c ∈ signs := by
  obtain ⟨c, hc, hfirst⟩ := h.first
  obtain ⟨rest, rfl⟩ := List.head?_eq_some_iff.1 hfirst
  exact ⟨c, rest, rfl, hc⟩

/-- An inert part is no start of a pattern without signs. -/
theorem IsInert.foreign {written pattern : Text} (h : IsInert written)
    (hpattern : Avoids pattern signs) : ∃ c rest, written = c :: rest ∧ c ∉ pattern := by
  obtain ⟨c, rest, heq, hc⟩ := h.exists_cons
  exact ⟨c, rest, heq, fun hmem => hpattern c hmem hc⟩

/-- **A pattern without signs** that starts with a character which inert parts do not hold was there
before. -/
theorem infix_of_inertlyRecast {s t pattern : Text} {c : Char} (h : InertlyRecast s t)
    (hc : c ∈ edges) (hpattern : Avoids (c :: pattern) signs) (hfound : c :: pattern <:+: t) :
    c :: pattern <:+: s :=
  h.infix_before (fun hinert => ⟨fun hmem => hinert.others c hmem hc, hinert.foreign hpattern⟩)
    hfound

/-! ### Quoted sources -/

/-- Whether a **quoted source** with this marker starts at the place between two texts. -/
def QuotedAt (marker before s : Text) : Prop :=
  ∃ source after body, s = source ++ after ∧ IsQuoted marker before source body

/-- Whether `s` has a quoted source with this marker anywhere. -/
def HasQuoted (marker s : Text) : Prop :=
  ∃ before after, s = before ++ after ∧ QuotedAt marker before after

/-- Whether a quoted body starts here, behind its first backtick. -/
def Opens (s : Text) : Prop :=
  ∃ body after, s = body ++ '\x60' :: after ∧ body ≠ [] ∧ ∀ c ∈ body, c ≠ '\x60' ∧ c ≠ '\n'

/-- The finder of quoted bodies finds nothing where no quoted source starts. -/
theorem quoted?_eq_none_iff {marker before s : Text} :
    quoted? (marker ++ ['\x60']) before.reverse s = none ↔ ¬ QuotedAt marker before s := by
  rw [Option.eq_none_iff_forall_ne_some]
  constructor
  · rintro hnone ⟨source, after, body, heq, hquoted⟩
    exact hnone _ (quoted?_eq_some_iff.2 ⟨source, after, heq, rfl, hquoted⟩)
  · rintro hnone ⟨body, length⟩ hfound
    obtain ⟨source, after, heq, -, hquoted⟩ := quoted?_eq_some_iff.1 hfound
    exact hnone ⟨source, after, body, heq, hquoted⟩

/-- A quoted source is a marker at the edge of a word, and a quoted body. -/
theorem quotedAt_iff {marker before s : Text} : QuotedAt marker before s ↔
    StartsWord before ∧ ∃ rest, s = marker ++ '\x60' :: rest ∧ Opens rest := by
  constructor
  · rintro ⟨_, after, body, rfl, hedge, rfl, hbody⟩
    exact ⟨hedge, body ++ '\x60' :: after, by simp, body, after, rfl, hbody⟩
  · rintro ⟨hedge, _, rfl, body, after, rfl, hbody⟩
    exact ⟨marker ++ '\x60' :: (body ++ ['\x60']), after, body, by simp, hedge, rfl, hbody⟩

/-- What the finder of quoted bodies finds, with its source. -/
theorem isQuoted_of_quoted? {marker before source after body : Text}
    (h : quoted? (marker ++ ['\x60']) before (source ++ after) = some (body, source.length)) :
    IsQuoted marker before.reverse source body := by
  rw [← List.reverse_reverse before] at h
  obtain ⟨source', after', heq, hlength, hquoted⟩ := quoted?_eq_some_iff.1 h
  obtain ⟨rfl, -⟩ := List.append_inj heq hlength.symm
  exact hquoted

/-! ### Elements -/

/-- Whether `written` is an **element** for a quoted source: an opening instead of the marker and
its backtick, the body, recast, and a closing instead of the last backtick. -/
inductive IsElement : Text → Text → Prop
  | mk {marker body content opening closing : Text} :
      marker ≠ [] → Avoids marker ['\x60', '\n'] → '\x60' ∉ body →
      InertlyRecast body content → IsInert opening → IsInert closing →
      closing.getLast? = some '>' →
      IsElement (marker ++ '\x60' :: (body ++ ['\x60'])) (opening ++ (content ++ closing))

namespace IsElement

variable {source written : Text}

/-- An element for what the finder of quoted bodies finds. -/
theorem of_isQuoted {marker before body content opening closing : Text}
    (hquoted : IsQuoted marker before source body) (hne : marker ≠ [])
    (hmarker : Avoids marker ['\x60', '\n']) (hcontent : InertlyRecast body content)
    (hopening : IsInert opening) (hclosing : IsInert closing)
    (hend : closing.getLast? = some '>') :
    IsElement source (opening ++ (content ++ closing)) := by
  obtain ⟨-, rfl, -, hbody⟩ := hquoted
  exact .mk hne hmarker (fun hmem => (hbody _ hmem).1 rfl) hcontent hopening hclosing hend

/-- **An element** is recast from its source by inert parts. -/
theorem recast (h : IsElement source written) : InertlyRecast source written := by
  obtain ⟨-, -, -, hbody, hopening, hclosing, -⟩ := h
  rw [List.append_cons]
  exact (Recast.single hopening).append (hbody.append (.single hclosing))

/-- An element starts with a sign. -/
theorem foreign {pattern : Text} (h : IsElement source written)
    (hpattern : Avoids pattern signs) : ∃ c rest, written = c :: rest ∧ c ∉ pattern := by
  obtain ⟨-, -, -, -, hopening, -, -⟩ := h
  obtain ⟨c, rest, rfl, hc⟩ := hopening.foreign hpattern
  exact ⟨c, _, rfl, hc⟩

/-- An element has no backtick. -/
theorem backtick_not_mem (h : IsElement source written) : '\x60' ∉ written := by
  obtain ⟨-, -, hbacktick, hbody, hopening, hclosing, -⟩ := h
  have hedge : '\x60' ∈ edges := by decide
  intro hmem
  rcases List.mem_append.1 hmem with hopen | hrest
  · exact hopening.others _ hopen hedge
  rcases List.mem_append.1 hrest with hcontent | hclose
  · exact hbacktick (hbody.mem (fun hinert hwritten => hinert.others _ hwritten hedge) hcontent)
  · exact hclosing.others _ hclose hedge

/-- An element ends with its last bracket. -/
theorem exists_concat (h : IsElement source written) : ∃ front, written = front ++ ['>'] := by
  obtain ⟨-, -, -, -, -, -, hend⟩ := h
  obtain ⟨front, rfl⟩ := List.getLast?_eq_some_iff.1 hend
  exact ⟨_, by simp only [← List.append_assoc]; rfl⟩

/-- The source of an element has a marker before its first backtick. -/
theorem exists_marker (h : IsElement source written) : ∃ marker rest,
    source = marker ++ '\x60' :: rest ∧ marker ≠ [] ∧ ∀ c ∈ marker, c ≠ '\x60' ∧ c ≠ '\n' := by
  obtain ⟨hne, hmarker, -, -, -, -, -⟩ := h
  exact ⟨_, _, rfl, hne, fun c hc => by simpa using hmarker c hc⟩

/-- Behind the source of an element is the edge of a word. -/
theorem startsWord_append (h : IsElement source written) (before : Text) :
    StartsWord (before ++ source) := by
  obtain ⟨-, -, -, -, -, -, -⟩ := h
  intro c hc
  rw [List.append_cons, ← List.append_assoc, ← List.append_assoc, List.getLast?_concat] at hc
  obtain rfl : '\x60' = c := Option.some.inj hc
  decide

end IsElement

/-! ### Quoted bodies among elements -/

/-- **What looks like a quoted body among elements** was one before. Up to its first element the
body is as it was; the element has the place of a marker, and a backtick followed that. -/
theorem Opens.of_recast {s t : Text} (h : Recast IsElement s t) (hopens : Opens t) : Opens s := by
  obtain ⟨body, after, rfl, hne, hbody⟩ := hopens
  -- The induction passes bodies of which nothing is left.
  suffices hgeneral : ∃ body' after', s = body' ++ '\x60' :: after' ∧
      (body ≠ [] → body' ≠ []) ∧ ∀ c ∈ body', c ≠ '\x60' ∧ c ≠ '\n' by
    obtain ⟨body', after', heq, hne', hbody'⟩ := hgeneral
    exact ⟨body', after', heq, hne' hne, hbody'⟩
  clear hne
  generalize hwhole : body ++ '\x60' :: after = whole at h
  induction h generalizing body with
  | nil => simp at hwhole
  | @keep c s t _ ih =>
    cases body with
    | nil =>
      obtain ⟨rfl, rfl⟩ := List.cons.inj hwhole
      exact ⟨[], s, rfl, nofun, nofun⟩
    | cons d body =>
      obtain ⟨rfl, hrest⟩ := List.cons.inj hwhole
      obtain ⟨hd, hbody⟩ := List.forall_mem_cons.1 hbody
      obtain ⟨body', after', rfl, -, hbody'⟩ := ih body hbody hrest
      exact ⟨d :: body', after', rfl, nofun, List.forall_mem_cons.2 ⟨hd, hbody'⟩⟩
  | @swap source written s t helement _ _ =>
    obtain ⟨marker, rest, rfl, hmarker, hquotable⟩ := helement.exists_marker
    exact ⟨marker, rest ++ s, by simp, fun _ => hmarker, hquotable⟩

/-- **A quoted source at a character that is kept** was there before. -/
theorem QuotedAt.of_recast {marker before before' s t : Text} {c : Char}
    (hmarker : Avoids marker signs) (h : Recast IsElement s t)
    (hedge : StartsWord before' → StartsWord before) (hquoted : QuotedAt marker before' (c :: t)) :
    QuotedAt marker before (c :: s) := by
  obtain ⟨hstart, rest, heq, hopens⟩ := quotedAt_iff.1 hquoted
  have hbacktick : Avoids ['\x60'] signs := by decide
  have hpattern : Avoids (marker ++ ['\x60']) signs :=
    List.forall_mem_append.2 ⟨hmarker, hbacktick⟩
  have hwhole : Recast IsElement (c :: s) (marker ++ ['\x60'] ++ rest) := by
    rw [← List.append_cons, ← heq]
    exact .keep h
  obtain ⟨s', hs', h'⟩ := hwhole.exists_append fun helement => helement.foreign hpattern
  exact quotedAt_iff.2 ⟨hedge hstart, s', by simp [hs'], hopens.of_recast h'⟩

/-- **A marker does not begin in an element**: the element ends with a bracket, and has no backtick.
-/
theorem not_quotedAt_append {marker before front t : Text} (hmarker : '>' ∉ marker)
    (hfront : '\x60' ∉ front) : ¬ QuotedAt marker before (front ++ ['>'] ++ t) := by
  intro hquoted
  obtain ⟨-, rest, heq, -⟩ := quotedAt_iff.1 hquoted
  rw [List.append_cons marker] at heq
  rcases List.append_eq_append_iff.1 heq with ⟨gap, hgap, -⟩ | ⟨gap, hgap, -⟩
  · have hmem : '>' ∈ marker ++ ['\x60'] := by simp [hgap]
    simp [hmarker] at hmem
  · have hmem : '\x60' ∈ front ++ ['>'] := by simp [hgap]
    simp [hfront] at hmem

/-- A quoted source in what begins with an element stands **behind the element**. -/
theorem IsElement.exists_behind {marker source written before earlier later t : Text}
    (h : IsElement source written) (hmarker : '>' ∉ marker) (heq : written ++ t = earlier ++ later)
    (hquoted : QuotedAt marker before later) :
    ∃ inside, earlier = written ++ inside ∧ t = inside ++ later := by
  rcases List.append_eq_append_iff.1 heq with hbehind | ⟨inside, hinside, rfl⟩
  · exact hbehind
  rcases inside.eq_nil_or_concat' with rfl | ⟨front, last, rfl⟩
  · exact ⟨[], by simp [hinside], rfl⟩
  -- The place splits the element, whose last character is the bracket.
  obtain ⟨whole, hwhole⟩ := h.exists_concat
  have hbacktick := h.backtick_not_mem
  rw [hinside, ← List.append_assoc] at hwhole hbacktick
  obtain ⟨-, rfl⟩ : earlier ++ front = whole ∧ last = '>' := by
    simpa using List.append_inj' hwhole rfl
  exact absurd hquoted (not_quotedAt_append hmarker fun hmem => hbacktick (by simp [hmem]))

/-- **Writing elements brings no quoted source about**, if there is none where a character is kept.
Induction on the walk; what has been written leads up to the edge of a word only where the text did,
since an element has the place of a source that ends with a backtick. -/
theorem Walk.not_quotedAt {α : Type} {find : Finder α} {write : α → Text} {before s : Text}
    {ps : List (Piece α)} {marker : Text} (h : Walk find before s ps)
    (hwrite : ∀ {before source after occurrence},
      find before (source ++ after) = some (occurrence, source.length) →
      IsElement source (write occurrence))
    (hmarker : Avoids marker ('>' :: signs))
    (hkept : ∀ earlier c later, s = earlier ++ c :: later →
      find (earlier.reverse ++ before) (c :: later) = none →
      ¬ QuotedAt marker (before.reverse ++ earlier) (c :: later))
    {before' : Text} (hedge : StartsWord before' → StartsWord before.reverse) :
    ∀ earlier later, rewriteHits write ps = earlier ++ later →
      ¬ QuotedAt marker (before' ++ earlier) later := by
  induction h generalizing before' with
  | nil =>
    intro earlier later heq hquoted
    obtain ⟨-, rest, hrest, -⟩ := quotedAt_iff.1 hquoted
    simp [hrest] at heq
  | @kept before rest c ps hnone hwalk ih =>
    intro earlier later heq hquoted
    cases earlier with
    | nil =>
      obtain rfl : c :: rewriteHits write ps = later := heq
      have hrecast : Recast IsElement rest (rewriteHits write ps) :=
        hwalk.recast fun hfound => .single (hwrite hfound)
      rw [List.append_nil] at hquoted
      refine hkept [] c rest rfl hnone ?_
      rw [List.append_nil]
      exact hquoted.of_recast (fun c hc => List.not_mem_of_not_mem_cons (hmarker c hc)) hrecast
        hedge
    | cons d earlier =>
      obtain ⟨rfl, hrest⟩ : c = d ∧ rewriteHits write ps = earlier ++ later := List.cons.inj heq
      have hedge' : StartsWord (before' ++ [c]) → StartsWord (c :: before).reverse := by
        simp [StartsWord]
      refine ih (fun earlier' c' later' heq' hnone' => ?_) hedge' earlier later hrest
        (by simpa using hquoted)
      simpa using hkept (c :: earlier') c' later' (by simp [heq']) (by simpa using hnone')
  | @hit before source after occurrence ps hfound _ _ ih =>
    intro earlier later heq hquoted
    have helement := hwrite hfound
    rw [rewriteHits_hit] at heq
    obtain ⟨inside, rfl, hrest⟩ :=
      helement.exists_behind (fun hmem => hmarker _ hmem List.mem_cons_self) heq hquoted
    have hedge' : StartsWord (before' ++ write occurrence) →
        StartsWord (source.reverse ++ before).reverse :=
      fun _ => by simpa using helement.startsWord_append before.reverse
    refine ih (fun earlier' c' later' heq' hnone' => ?_) hedge' inside later hrest
      (by simpa using hquoted)
    simpa using hkept (source ++ earlier') c' later' (by simp [heq']) (by simpa using hnone')

/-- **A text with elements for what has been found** has no quoted source, if the marker is one
whose sources are found, or one of which the text has none. -/
theorem Walk.not_hasQuoted {α : Type} {find : Finder α} {write : α → Text} {s : Text}
    {ps : List (Piece α)} {marker : Text} (h : Walk find [] s ps)
    (hwrite : ∀ {before source after occurrence},
      find before (source ++ after) = some (occurrence, source.length) →
      IsElement source (write occurrence))
    (hmarker : Avoids marker ('>' :: signs))
    (hkept : ∀ earlier later, s = earlier ++ later → find earlier.reverse later = none →
      ¬ QuotedAt marker earlier later) :
    ¬ HasQuoted marker (rewriteHits write ps) := by
  rintro ⟨before, after, heq, hquoted⟩
  refine h.not_quotedAt hwrite hmarker (fun earlier c later hs hnone => ?_) id before after heq
    hquoted
  exact hkept earlier (c :: later) hs (by simpa using hnone)

end Lectern.Text
