import Lectern.Directive.Scan
import Lectern.Proofs.Text.Scan

/-!
# The Shapes of Directives

What a directive looks like in a source, said without the finders: `SpelledBy` relates a directive
to the text that stands for it and to what stands before and after that text. A fence is three
backticks with only spaces and tabs after them on the line; the opening fence has its tag in
between.

## Main results

* `listing?_of_isFenced`, `exists_isFenced_of_listing?`: the finder of the listings finds the fenced
  ones and nothing else; likewise for the other shapes.
* `occurrence?_eq_some_iff`: the finder of all shapes finds exactly what is spelled, and the
  listings that name no file.
-/

namespace Lectern.Directive

open Text
open Unicode (isBlank)

/-! ### Lines -/

/-- Whether the place after `before` is at the start of a line. -/
def StartsLine (before : Text) : Prop := ∀ c ∈ before.getLast?, c = '\n'

/-- Whether the place before `after` is at the end of a line. -/
def EndsLine (after : Text) : Prop := ∀ c ∈ after.head?, c = '\n'

/-- Whether a text is only what can follow a fence on its line. -/
def IsPadding (s : Text) : Prop := ∀ c ∈ s, c = ' ' ∨ c = '\t'

/-- Whether a line is a **closing fence**. -/
def IsFence (s : Text) : Prop := ∃ padding, IsPadding padding ∧ s = "```".toList ++ padding

/-- Whether no line of `s` after its first one is a closing fence. -/
def HasNoFence (s : Text) : Prop :=
  ∀ earlier line later, s = earlier ++ '\n' :: (line ++ later) → IsFence line → ¬ EndsLine later

/-- Whether only blank characters stand on the line around a place. -/
def StandsAlone (before after : Text) : Prop :=
  (∃ earlier margin, before = earlier ++ margin ∧ StartsLine earlier ∧
    ∀ c ∈ margin, c ≠ '\n' ∧ isBlank c = true) ∧
  ∃ margin later, after = margin ++ later ∧ EndsLine later ∧
    ∀ c ∈ margin, c ≠ '\n' ∧ isBlank c = true

/-! ### Shapes -/

/-- **Fenced source**: whole lines, of which the first is an opening fence with the tag, the last
a closing fence, and those between are the content. -/
def IsFenced (tag before source after content : Text) : Prop :=
  StartsLine before ∧ EndsLine after ∧ ∃ padding fence, IsPadding padding ∧ IsFence fence ∧
    source = "```".toList ++ tag ++ padding ++ '\n' :: (content ++ '\n' :: fence)

/-- The content of an interactive block. -/
def interactiveContent (context title expression : Text) : Text :=
  context ++ "\n---".toList ++ title ++ '\n' :: expression

/-- The directive that `source` **spells** between `before` and `after`. -/
def SpelledBy (directive : Directive) (before source after : Text) : Prop :=
  match directive with
  | .reference expression => IsQuoted "l".toList before source expression
  | .definition expression alone =>
    IsQuoted "dL".toList before source expression ∧ (alone = true ↔ StandsAlone before after)
  | .listing file => file ≠ [] ∧ ∃ content,
      IsFenced "lambda-defs".toList before source after content ∧
      '\n' ∉ content ∧ file = trim content
  | .interactive context title expression => ∃ contextLine titleLine body,
      IsFenced "lambda-interactive".toList before source after
        (interactiveContent contextLine titleLine body) ∧
      '\n' ∉ contextLine ∧ '\n' ∉ titleLine ∧ HasNoFence body ∧
      context = trim contextLine ∧ title = trim titleLine ∧ expression = trimEnd body

/-- A listing that names no file. -/
def IsHollow (before source after : Text) : Prop :=
  ∃ content, IsFenced "lambda-defs".toList before source after content ∧ '\n' ∉ content ∧
    trim content = []

/-- What stands between `before` and `after` for an occurrence. -/
def Occurrence.SpelledBy : Occurrence → Text → Text → Text → Prop
  | .usable directive, before, source, after => directive.SpelledBy before source after
  | .hollow kept, before, source, after => kept = source ∧ IsHollow before source after

/-! ### Lines as the finders see them -/

/-- The start of a line is the end of one when the text before it is read backwards. -/
theorem startsLine_iff_endsLine_reverse {before : Text} :
    StartsLine before ↔ EndsLine before.reverse := by
  rw [StartsLine, EndsLine, List.head?_reverse]

/-- A line is the first one, or it follows a line end. -/
theorem startsLine_iff {before : Text} :
    StartsLine before ↔ before = [] ∨ ∃ earlier, before = earlier ++ ['\n'] := by
  constructor
  · intro h
    rcases List.eq_nil_or_concat before with rfl | ⟨earlier, c, rfl⟩
    · exact .inl rfl
    · obtain rfl : c = '\n' := h c (by simp)
      exact .inr ⟨earlier, List.concat_eq_append⟩
  · rintro (rfl | ⟨earlier, rfl⟩) <;> simp [StartsLine]

/-- The starts of lines. -/
theorem atLineStart_iff {before : Text} :
    atLineStart before.reverse = true ↔ StartsLine before := by
  rw [startsLine_iff_endsLine_reverse, EndsLine]
  cases before.reverse <;> simp [atLineStart]

/-- The line up to the place where it ends. -/
theorem line_append {s t : Text} (hs : '\n' ∉ s) (ht : EndsLine t) : line (s ++ t) = s := by
  refine takeWhile_append_of_head ?_ ?_
  · intro c hc
    simpa using ne_of_mem_of_not_mem hc hs
  · intro c hc
    simpa using ht c hc

/-- Every text is its first line and what follows from the end of that. -/
theorem exists_line_append (s : Text) :
    ∃ first rest, s = first ++ rest ∧ '\n' ∉ first ∧ EndsLine rest := by
  refine ⟨s.takeWhile (· != '\n'), s.dropWhile (· != '\n'),
    List.takeWhile_append_dropWhile.symm, ?_, ?_⟩
  · intro h
    have := List.all_eq_true.1 List.all_takeWhile _ h
    simp at this
  · intro c hc
    have hstop := List.head?_dropWhile_not (· != '\n') s
    rw [Option.mem_def.1 hc] at hstop
    simpa using hstop

/-- The text after a line. -/
theorem nextLine?_eq_some_iff {s rest : Text} :
    nextLine? s = some rest ↔ ∃ first, '\n' ∉ first ∧ s = first ++ '\n' :: rest := by
  obtain ⟨first, t, rfl, hfirst, ht⟩ := exists_line_append s
  have hdrop : (first ++ t).dropWhile (· != '\n') = t := by
    rw [List.dropWhile_append_of_pos (fun c hc => by simpa using ne_of_mem_of_not_mem hc hfirst)]
    cases t with
    | nil => rfl
    | cons c t => simp [ht c rfl]
  unfold nextLine?
  rw [hdrop]
  constructor
  · cases t with
    | nil => simp
    | cons c t =>
      obtain rfl : c = '\n' := ht c rfl
      rintro ⟨⟩
      exact ⟨first, hfirst, rfl⟩
  · rintro ⟨first', hfirst', heq⟩
    have hline := congrArg line heq
    rw [line_append hfirst ht, line_append hfirst' (by simp [EndsLine])] at hline
    subst hline
    rw [List.append_cancel_left heq]

/-- Paddings as the finders see them. -/
theorem all_isFencePadding_iff {s : Text} : s.all isFencePadding = true ↔ IsPadding s := by
  simp [isFencePadding, IsPadding]

/-- A padding has no line end. -/
theorem IsPadding.newline_not_mem {s : Text} (h : IsPadding s) : '\n' ∉ s := fun hmem => by
  have := h _ hmem
  simp at this

/-- A closing fence has no line end. -/
theorem IsFence.newline_not_mem {s : Text} (h : IsFence s) : '\n' ∉ s := by
  obtain ⟨padding, hpadding, rfl⟩ := h
  simpa using hpadding.newline_not_mem

/-- **Closing fences** as the finders see them. -/
theorem startsWithCloser_iff {s : Text} : startsWithCloser s = true ↔
    ∃ fence after, s = fence ++ after ∧ IsFence fence ∧ EndsLine after := by
  unfold startsWithCloser
  constructor
  · intro h
    split at h <;> try contradiction
    next rest hrest =>
    rw [after?_eq_some_iff] at hrest
    obtain ⟨padding, after, rfl, hpadding, hafter⟩ := exists_line_append rest
    rw [line_append hpadding hafter, all_isFencePadding_iff] at h
    exact ⟨"```".toList ++ padding, after, by simp [hrest], ⟨padding, h, rfl⟩, hafter⟩
  · rintro ⟨_, after, rfl, ⟨padding, hpadding, rfl⟩, hafter⟩
    rw [after?_eq_some_iff.2 (List.append_assoc ..)]
    simp only
    rwa [line_append hpadding.newline_not_mem hafter, all_isFencePadding_iff]

/-- **Opening fences** as the finders see them. -/
theorem afterOpener?_eq_some_iff {tag s rest : Text} : afterOpener? tag s = some rest ↔
    ∃ padding, IsPadding padding ∧ s = "```".toList ++ tag ++ padding ++ '\n' :: rest := by
  unfold afterOpener?
  constructor
  · intro h
    split at h <;> try contradiction
    next t ht =>
    rw [after?_eq_some_iff] at ht
    split at h <;> try contradiction
    next hpadding =>
    obtain ⟨padding, hline, rfl⟩ := nextLine?_eq_some_iff.1 h
    rw [line_append hline (by simp [EndsLine]), all_isFencePadding_iff] at hpadding
    exact ⟨padding, hpadding, by simp [ht]⟩
  · rintro ⟨padding, hpadding, rfl⟩
    rw [after?_eq_some_iff.2 (List.append_assoc ..)]
    simp only
    rw [line_append hpadding.newline_not_mem (by simp [EndsLine]),
      if_pos (all_isFencePadding_iff.2 hpadding)]
    exact nextLine?_eq_some_iff.2 ⟨padding, hpadding.newline_not_mem, rfl⟩

/-- The expression of an interactive block: what comes before the first closing fence. -/
theorem expression?_eq_some_iff {s body last : Text} : expression? s = some (body, last) ↔
    s = body ++ '\n' :: last ∧ startsWithCloser last = true ∧
      ∀ earlier later, body = earlier ++ '\n' :: later →
        startsWithCloser (later ++ '\n' :: last) = false := by
  induction s generalizing body with
  | nil => simp [expression?]
  | cons c rest ih =>
    unfold expression?
    split
    · next hcloser =>
      obtain ⟨rfl, hcloser⟩ : c = '\n' ∧ startsWithCloser rest = true := by simpa using hcloser
      constructor
      · rintro ⟨⟩
        exact ⟨rfl, hcloser, by simp⟩
      · rintro ⟨heq, -, hfirst⟩
        match body with
        | [] =>
          obtain rfl : rest = last := by simpa using heq
          rfl
        | b :: body =>
          obtain ⟨rfl, rfl⟩ : '\n' = b ∧ rest = body ++ '\n' :: last := by simpa using heq
          rw [hfirst [] body rfl] at hcloser
          contradiction
    · next hcloser =>
      constructor
      · intro h
        obtain ⟨⟨b, l⟩, hb, ⟨⟩⟩ := Option.map_eq_some_iff.1 h
        obtain ⟨rfl, hlast, hfirst⟩ := ih.1 hb
        refine ⟨rfl, hlast, fun earlier later heq => ?_⟩
        match earlier with
        | [] =>
          obtain ⟨rfl, rfl⟩ : c = '\n' ∧ b = later := by simpa using heq
          simpa using hcloser
        | e :: earlier =>
          obtain ⟨-, rfl⟩ : c = e ∧ b = earlier ++ '\n' :: later := by simpa using heq
          exact hfirst earlier later rfl
      · rintro ⟨heq, hlast, hfirst⟩
        match body with
        | [] =>
          obtain ⟨rfl, rfl⟩ : c = '\n' ∧ rest = last := by simpa using heq
          simp [hlast] at hcloser
        | b :: body =>
          obtain ⟨rfl, rfl⟩ : c = b ∧ rest = body ++ '\n' :: last := by simpa using heq
          rw [ih.2 ⟨rfl, hlast, fun earlier later h =>
            hfirst (c :: earlier) later (by rw [h]; rfl)⟩]
          rfl

/-- A body without a closing fence among its later lines, as the finders see it. -/
theorem hasNoFence_iff {body last : Text} : HasNoFence body ↔
    ∀ earlier later, body = earlier ++ '\n' :: later →
      startsWithCloser (later ++ '\n' :: last) = false := by
  constructor
  · intro h earlier later heq
    refine Bool.eq_false_iff.2 fun hcloser => ?_
    obtain ⟨fence, after, hfence, hisFence, hafter⟩ := startsWithCloser_iff.1 hcloser
    obtain ⟨first, rest, rfl, hfirst, hrest⟩ := exists_line_append later
    have hline := congrArg line hfence
    rw [List.append_assoc, line_append hfirst, line_append hisFence.newline_not_mem hafter] at hline
    · subst hline
      exact h earlier first rest heq hisFence hrest
    · intro c hc
      cases rest with
      | nil => simpa [eq_comm] using hc
      | cons r rest => exact hrest c hc
  · rintro h earlier fence later heq hfence hlater
    have := h earlier (fence ++ later) heq
    rw [Bool.eq_false_iff] at this
    refine this (startsWithCloser_iff.2 ⟨fence, later ++ '\n' :: last, by simp, hfence, ?_⟩)
    intro c hc
    cases later with
    | nil => simpa [eq_comm] using hc
    | cons r rest => exact hlater c hc

/-! ### The finders -/

/-- The length of an occurrence whose last line is a fence. -/
theorem lengthThroughLine_append {source fence after : Text} (hlast : fence <:+ source)
    (hfence : IsFence fence) (hafter : EndsLine after) :
    lengthThroughLine (source ++ after) (fence ++ after) = source.length := by
  obtain ⟨start, rfl⟩ := hlast
  unfold lengthThroughLine
  rw [line_append hfence.newline_not_mem hafter]
  simp only [List.length_append]
  omega

/-- The occurrence of a listing whose only line is `content`. -/
def Occurrence.ofListing (source content : Text) : Occurrence :=
  if trim content = [] then .hollow source else .usable (.listing (trim content))

/-- The finder of listings finds a fenced line. -/
theorem listing?_of_isFenced {before source after content : Text}
    (h : IsFenced "lambda-defs".toList before source after content) (hcontent : '\n' ∉ content) :
    listing? before.reverse (source ++ after) =
      some (.ofListing source content, source.length) := by
  obtain ⟨hstart, hafter, padding, fence, hpadding, hfence, hsource⟩ := h
  have hbody : afterOpener? "lambda-defs".toList (source ++ after) =
      some (content ++ '\n' :: (fence ++ after)) :=
    afterOpener?_eq_some_iff.2 ⟨padding, hpadding, by simp [hsource]⟩
  have hlast : nextLine? (content ++ '\n' :: (fence ++ after)) = some (fence ++ after) :=
    nextLine?_eq_some_iff.2 ⟨content, hcontent, rfl⟩
  have hcloser : startsWithCloser (fence ++ after) = true :=
    startsWithCloser_iff.2 ⟨fence, after, rfl, hfence, hafter⟩
  have hsuffix : fence <:+ source := ⟨"```".toList ++ "lambda-defs".toList ++ padding ++
    '\n' :: (content ++ ['\n']), by simp [hsource]⟩
  unfold listing?
  rw [if_pos (atLineStart_iff.2 hstart), hbody]
  simp only
  rw [hlast]
  simp only
  rw [if_pos hcloser, line_append hcontent (by simp [EndsLine]),
    lengthThroughLine_append hsuffix hfence hafter, Occurrence.ofListing, List.take_left]
  by_cases hfile : trim content = [] <;> simp [hfile]

/-- What the finder of listings finds is a fenced line. -/
theorem exists_isFenced_of_listing? {before s : Text} {found : Occurrence × Nat}
    (h : listing? before.reverse s = some found) :
    ∃ source after content, s = source ++ after ∧
      IsFenced "lambda-defs".toList before source after content ∧ '\n' ∉ content := by
  unfold listing? at h
  split at h <;> try contradiction
  next hstart =>
  split at h <;> try contradiction
  next body hbody =>
  obtain ⟨padding, hpadding, rfl⟩ := afterOpener?_eq_some_iff.1 hbody
  split at h <;> try contradiction
  next last hlast =>
  obtain ⟨content, hcontent, rfl⟩ := nextLine?_eq_some_iff.1 hlast
  split at h <;> try contradiction
  next hcloser =>
  obtain ⟨fence, after, rfl, hfence, hafter⟩ := startsWithCloser_iff.1 hcloser
  exact ⟨_, after, content, by simp, ⟨atLineStart_iff.1 hstart, hafter, padding, fence, hpadding,
    hfence, rfl⟩, hcontent⟩

/-- The finder of interactive blocks finds fenced lines with a context, a title and a body. -/
theorem interactive?_of_isFenced {before source after context title body : Text}
    (h : IsFenced "lambda-interactive".toList before source after
      (interactiveContent context title body))
    (hcontext : '\n' ∉ context) (htitle : '\n' ∉ title) (hbody : HasNoFence body) :
    interactive? before.reverse (source ++ after) =
      some (.usable (.interactive (trim context) (trim title) (trimEnd body)), source.length) := by
  obtain ⟨hstart, hafter, padding, fence, hpadding, hfence, hsource⟩ := h
  have hopener : afterOpener? "lambda-interactive".toList (source ++ after) =
      some (context ++ '\n' ::
        ("---".toList ++ (title ++ '\n' :: (body ++ '\n' :: (fence ++ after))))) :=
    afterOpener?_eq_some_iff.2 ⟨padding, hpadding, by simp [hsource, interactiveContent]⟩
  have hcloser : startsWithCloser (fence ++ after) = true :=
    startsWithCloser_iff.2 ⟨fence, after, rfl, hfence, hafter⟩
  have hexpression : expression? (body ++ '\n' :: (fence ++ after)) = some (body, fence ++ after) :=
    expression?_eq_some_iff.2 ⟨rfl, hcloser, hasNoFence_iff.1 hbody⟩
  have hsuffix : fence <:+ source := ⟨"```".toList ++ "lambda-interactive".toList ++ padding ++
    '\n' :: (interactiveContent context title body ++ ['\n']), by simp [hsource]⟩
  unfold interactive?
  rw [if_pos (atLineStart_iff.2 hstart), hopener]
  simp only
  rw [nextLine?_eq_some_iff.2 ⟨context, hcontext, rfl⟩, Option.bind_some, after?_eq_some_iff.2 rfl]
  simp only
  rw [nextLine?_eq_some_iff.2 ⟨title, htitle, rfl⟩, Option.bind_some, hexpression]
  simp only
  rw [line_append hcontext (by simp [EndsLine]), line_append htitle (by simp [EndsLine]),
    lengthThroughLine_append hsuffix hfence hafter]

/-- What the finder of interactive blocks finds is fenced, with a context, a title and a body. -/
theorem exists_isFenced_of_interactive? {before s : Text} {found : Occurrence × Nat}
    (h : interactive? before.reverse s = some found) :
    ∃ source after context title body, s = source ++ after ∧
      IsFenced "lambda-interactive".toList before source after
        (interactiveContent context title body) ∧
      '\n' ∉ context ∧ '\n' ∉ title ∧ HasNoFence body := by
  unfold interactive? at h
  split at h <;> try contradiction
  next hstart =>
  split at h <;> try contradiction
  next contextOn hopener =>
  obtain ⟨padding, hpadding, rfl⟩ := afterOpener?_eq_some_iff.1 hopener
  split at h <;> try contradiction
  next titleOn htitleOn =>
  obtain ⟨dashes, hdashes, hafterDashes⟩ := Option.bind_eq_some_iff.1 htitleOn
  obtain ⟨context, hcontext, rfl⟩ := nextLine?_eq_some_iff.1 hdashes
  obtain rfl := after?_eq_some_iff.1 hafterDashes
  split at h <;> try contradiction
  next body last hexpression =>
  obtain ⟨bodyOn, hbodyOn, hbody⟩ := Option.bind_eq_some_iff.1 hexpression
  obtain ⟨title, htitle, rfl⟩ := nextLine?_eq_some_iff.1 hbodyOn
  obtain ⟨rfl, hcloser, hfirst⟩ := expression?_eq_some_iff.1 hbody
  obtain ⟨fence, after, rfl, hfence, hafter⟩ := startsWithCloser_iff.1 hcloser
  exact ⟨_, after, context, title, body, by simp [interactiveContent],
    ⟨atLineStart_iff.1 hstart, hafter, padding, fence, hpadding, hfence, rfl⟩, hcontext, htitle,
    hasNoFence_iff.2 hfirst⟩

/-- Blank lines as the finders see them. -/
theorem all_isBlank_line_iff {s : Text} : (line s).all isBlank = true ↔
    ∃ margin later, s = margin ++ later ∧ EndsLine later ∧
      ∀ c ∈ margin, c ≠ '\n' ∧ isBlank c = true := by
  constructor
  · intro h
    obtain ⟨first, rest, rfl, hfirst, hrest⟩ := exists_line_append s
    rw [line_append hfirst hrest, List.all_eq_true] at h
    exact ⟨first, rest, rfl, hrest, fun c hc => ⟨ne_of_mem_of_not_mem hc hfirst, h c hc⟩⟩
  · rintro ⟨margin, later, rfl, hlater, hmargin⟩
    rw [line_append (fun h => (hmargin _ h).1 rfl) hlater, List.all_eq_true]
    exact fun c hc => (hmargin c hc).2

/-- A directive that has its line for itself, as the finder of definitions sees it. -/
theorem standsAlone_iff {before after : Text} :
    standsAlone before.reverse after = true ↔ StandsAlone before after := by
  unfold standsAlone StandsAlone
  rw [Bool.and_eq_true, all_isBlank_line_iff, all_isBlank_line_iff]
  refine and_congr_left fun _ => ⟨?_, ?_⟩
  · rintro ⟨margin, later, h, hlater, hmargin⟩
    refine ⟨later.reverse, margin.reverse, ?_, ?_, by simpa using hmargin⟩
    · rw [← List.reverse_append, ← h, List.reverse_reverse]
    · rwa [startsLine_iff_endsLine_reverse, List.reverse_reverse]
  · rintro ⟨earlier, margin, rfl, hearlier, hmargin⟩
    exact ⟨margin.reverse, earlier.reverse, by simp, startsLine_iff_endsLine_reverse.1 hearlier,
      by simpa using hmargin⟩

/-- **The finder of definitions** finds the quoted sources after `dL`. -/
theorem definition?_eq_some_iff {before s : Text} {occurrence : Occurrence} {length : Nat} :
    definition? before.reverse s = some (occurrence, length) ↔
      ∃ source after body, s = source ++ after ∧ source.length = length ∧
        IsQuoted "dL".toList before source body ∧
        occurrence = .usable (.definition body (standsAlone before.reverse after)) := by
  unfold definition?
  rw [show "dL`".toList = "dL".toList ++ ['\x60'] from rfl, Option.map_eq_some_iff]
  constructor
  · rintro ⟨⟨body, n⟩, hquoted, ⟨⟩⟩
    obtain ⟨source, after, rfl, rfl, h⟩ := quoted?_eq_some_iff.1 hquoted
    exact ⟨source, after, body, rfl, rfl, h, by rw [List.drop_left]⟩
  · rintro ⟨source, after, body, rfl, rfl, h, rfl⟩
    exact ⟨(body, source.length), quoted?_eq_some_iff.2 ⟨source, after, rfl, rfl, h⟩,
      by simp only [List.drop_left]⟩

/-- **The finder of references** finds the quoted sources after `l`. -/
theorem reference?_eq_some_iff {before s : Text} {occurrence : Occurrence} {length : Nat} :
    reference? before.reverse s = some (occurrence, length) ↔
      ∃ source after body, s = source ++ after ∧ source.length = length ∧
        IsQuoted "l".toList before source body ∧ occurrence = .usable (.reference body) := by
  unfold reference?
  rw [show "l`".toList = "l".toList ++ ['\x60'] from rfl, Option.map_eq_some_iff]
  constructor
  · rintro ⟨⟨body, n⟩, hquoted, ⟨⟩⟩
    obtain ⟨source, after, rfl, rfl, h⟩ := quoted?_eq_some_iff.1 hquoted
    exact ⟨source, after, body, rfl, rfl, h, rfl⟩
  · rintro ⟨source, after, body, rfl, rfl, h, rfl⟩
    exact ⟨(body, source.length), quoted?_eq_some_iff.2 ⟨source, after, rfl, rfl, h⟩, rfl⟩

/-! ### All shapes -/

/-- Fenced source starts with its opening fence. -/
theorem IsFenced.prefix {tag before source after content : Text}
    (h : IsFenced tag before source after content) : "```".toList ++ tag <+: source ++ after := by
  obtain ⟨-, -, padding, fence, -, -, rfl⟩ := h
  exact ⟨padding ++ '\n' :: (content ++ '\n' :: fence) ++ after, by simp⟩

/-- No listing is found where its opening fence does not stand. -/
theorem listing?_eq_none (before : Text) {s : Text}
    (h : ¬ "```".toList ++ "lambda-defs".toList <+: s) :
    listing? before.reverse s = none := by
  refine Option.eq_none_iff_forall_ne_some.2 fun found hfound => h ?_
  obtain ⟨source, after, content, rfl, hfenced, -⟩ := exists_isFenced_of_listing? hfound
  exact hfenced.prefix

/-- No interactive block is found where its opening fence does not stand. -/
theorem interactive?_eq_none (before : Text) {s : Text}
    (h : ¬ "```".toList ++ "lambda-interactive".toList <+: s) :
    interactive? before.reverse s = none := by
  refine Option.eq_none_iff_forall_ne_some.2 fun found hfound => h ?_
  obtain ⟨source, after, context, title, body, rfl, hfenced, -⟩ :=
    exists_isFenced_of_interactive? hfound
  exact hfenced.prefix

/-- No definition is found where its marker does not stand. -/
theorem definition?_eq_none (before : Text) {s : Text} (h : ¬ "dL".toList <+: s) :
    definition? before.reverse s = none := by
  refine Option.eq_none_iff_forall_ne_some.2 fun found hfound => h ?_
  obtain ⟨source, after, body, rfl, -, ⟨-, rfl, -⟩, -⟩ := definition?_eq_some_iff.1 hfound
  exact ⟨_, (List.append_assoc ..).symm⟩

/-- A fenced line spells the listing that it names, if it names one. -/
theorem Occurrence.spelledBy_ofListing {before source after content : Text}
    (hfenced : IsFenced "lambda-defs".toList before source after content)
    (hcontent : '\n' ∉ content) :
    (Occurrence.ofListing source content).SpelledBy before source after := by
  unfold ofListing
  split
  · next hfile => exact ⟨rfl, content, hfenced, hcontent, hfile⟩
  · next hfile => exact ⟨hfile, content, hfenced, hcontent, rfl⟩

/-- **What is spelled is found.** Where one shape stands, no other does: they start with different
characters. -/
theorem occurrence?_of_spelledBy (occurrence : Occurrence) {before source after : Text}
    (h : occurrence.SpelledBy before source after) :
    occurrence? before.reverse (source ++ after) = some (occurrence, source.length) := by
  unfold occurrence?
  match occurrence with
  | .hollow kept =>
    obtain ⟨rfl, content, hfenced, hcontent, hfile⟩ := h
    simp [listing?_of_isFenced hfenced hcontent, Occurrence.ofListing, hfile]
  | .usable (.listing file) =>
    obtain ⟨hfile, content, hfenced, hcontent, rfl⟩ := h
    simp [listing?_of_isFenced hfenced hcontent, Occurrence.ofListing, hfile]
  | .usable (.interactive _ _ _) =>
    obtain ⟨context, title, body, hfenced, hcontext, htitle, hbody, rfl, rfl, rfl⟩ := h
    have hlisting : listing? before.reverse (source ++ after) = none := by
      obtain ⟨t, ht⟩ := hfenced.prefix
      exact listing?_eq_none before (by simp [← ht])
    simp [hlisting, interactive?_of_isFenced hfenced hcontext htitle hbody]
  | .usable (.definition expression alone) =>
    obtain ⟨hquoted, halone⟩ := h
    have hdefinition : definition? before.reverse (source ++ after) =
        some (.usable (.definition expression alone), source.length) := by
      refine definition?_eq_some_iff.2 ⟨source, after, expression, rfl, rfl, hquoted, ?_⟩
      rw [Bool.eq_iff_iff.2 (halone.trans standsAlone_iff.symm)]
    obtain ⟨-, rfl, -⟩ := hquoted
    have hlisting := listing?_eq_none before
      (s := "dL".toList ++ '\x60' :: (expression ++ ['\x60']) ++ after) (by simp)
    have hinteractive := interactive?_eq_none before
      (s := "dL".toList ++ '\x60' :: (expression ++ ['\x60']) ++ after) (by simp)
    rw [hlisting, hinteractive, hdefinition]
    rfl
  | .usable (.reference expression) =>
    have hreference := reference?_eq_some_iff.2 ⟨source, after, expression, rfl, rfl, h, rfl⟩
    obtain ⟨-, rfl, -⟩ := h
    have hlisting := listing?_eq_none before
      (s := "l".toList ++ '\x60' :: (expression ++ ['\x60']) ++ after) (by simp)
    have hinteractive := interactive?_eq_none before
      (s := "l".toList ++ '\x60' :: (expression ++ ['\x60']) ++ after) (by simp)
    have hdefinition := definition?_eq_none before
      (s := "l".toList ++ '\x60' :: (expression ++ ['\x60']) ++ after) (by simp)
    rw [hlisting, hinteractive, hdefinition, hreference]
    rfl

/-- **What is found is spelled.** -/
theorem spelledBy_of_occurrence? {occurrence : Occurrence} {before s : Text} {length : Nat}
    (h : occurrence? before.reverse s = some (occurrence, length)) :
    ∃ source after, s = source ++ after ∧ source.length = length ∧
      occurrence.SpelledBy before source after := by
  simp only [occurrence?, Option.orElse_eq_or, Option.or_eq_some_iff] at h
  rcases h with hlisting | ⟨-, hinteractive | ⟨-, hdefinition | ⟨-, hreference⟩⟩⟩
  · obtain ⟨source, after, content, rfl, hfenced, hcontent⟩ := exists_isFenced_of_listing? hlisting
    rw [listing?_of_isFenced hfenced hcontent] at hlisting
    obtain ⟨rfl, rfl⟩ : _ = occurrence ∧ _ = length := by simpa using hlisting
    exact ⟨source, after, rfl, rfl, Occurrence.spelledBy_ofListing hfenced hcontent⟩
  · obtain ⟨source, after, context, title, body, rfl, hfenced, hcontext, htitle, hbody⟩ :=
      exists_isFenced_of_interactive? hinteractive
    rw [interactive?_of_isFenced hfenced hcontext htitle hbody] at hinteractive
    obtain ⟨rfl, rfl⟩ : _ = occurrence ∧ _ = length := by simpa using hinteractive
    exact ⟨source, after, rfl, rfl, context, title, body, hfenced, hcontext, htitle, hbody, rfl,
      rfl, rfl⟩
  · obtain ⟨source, after, body, rfl, rfl, hquoted, rfl⟩ := definition?_eq_some_iff.1 hdefinition
    exact ⟨source, after, rfl, rfl, hquoted, standsAlone_iff⟩
  · obtain ⟨source, after, body, rfl, rfl, hquoted, rfl⟩ := reference?_eq_some_iff.1 hreference
    exact ⟨source, after, rfl, rfl, hquoted⟩

/-- **The finder of all shapes** finds exactly what is spelled. -/
theorem occurrence?_eq_some_iff {occurrence : Occurrence} {before s : Text} {length : Nat} :
    occurrence? before.reverse s = some (occurrence, length) ↔
      ∃ source after, s = source ++ after ∧ source.length = length ∧
        occurrence.SpelledBy before source after := by
  refine ⟨spelledBy_of_occurrence?, ?_⟩
  rintro ⟨source, after, rfl, rfl, h⟩
  exact occurrence?_of_spelledBy _ h

/-- Nothing is spelled by an empty source. -/
theorem Occurrence.SpelledBy.ne_nil {occurrence : Occurrence} {before source after : Text}
    (h : occurrence.SpelledBy before source after) : source ≠ [] := by
  have hfenced {tag content : Text} (h : IsFenced tag before source after content) :
      source ≠ [] := by
    obtain ⟨-, -, padding, fence, -, -, rfl⟩ := h
    simp
  match occurrence with
  | .hollow _ =>
    obtain ⟨-, content, h, -⟩ := h
    exact hfenced h
  | .usable (.listing _) =>
    obtain ⟨-, content, h, -⟩ := h
    exact hfenced h
  | .usable (.interactive _ _ _) =>
    obtain ⟨_, _, _, h, -⟩ := h
    exact hfenced h
  | .usable (.definition _ _) =>
    obtain ⟨⟨-, rfl, -⟩, -⟩ := h
    simp
  | .usable (.reference _) =>
    obtain ⟨-, rfl, -⟩ := h
    simp

/-- The finder of all shapes fits. -/
theorem fits_occurrence? : Fits occurrence? := by
  intro before s occurrence length h
  rw [← List.reverse_reverse before] at h
  obtain ⟨source, after, rfl, rfl, hspelled⟩ := spelledBy_of_occurrence? h
  exact ⟨List.length_pos_iff.2 hspelled.ne_nil, by simp⟩

end Lectern.Directive
