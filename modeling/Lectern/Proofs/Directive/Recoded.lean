import Lectern.Proofs.Directive.Extent
import Lectern.Proofs.Directive.Inline

/-!
# Directives in Recoded Texts

A text is **recoded** if parts of it that have the look of inline code are swapped for others of
that look. Such a part starts and ends with a sign of its own and lies within one line, so recoding
keeps what directives go by: where lines start and end, which of them are fences, what is blank, and
where words have their edges. A block of a recoded text is one of the text before, and an inline
directive that no swapped part touches stays what it is.

## Main results

* `Recoded.sameEdge`, `Recoded.all_isBlank_line`: what recoding keeps at the ends of a text.
* `IsFenced.recoded`, `Occurrence.SpelledBy.recoded`: blocks stay blocks.
* `Occurrence.SpelledBy.of_sameEdge`: an inline directive between recoded texts.
* `occurrence?_eq_none_of_recoded`: no directive comes about at a character that is kept.
-/

namespace Lectern.Directive

open Text
open Unicode (isBlank isWord)

/-! ### Recoding -/

/-- Whether a part has the look of **inline code**, be it quoted after a capital `L` or an element:
it starts with the `L` or a bracket, ends with a backtick or a bracket, and has no line end. -/
structure IsCode (part : Text) : Prop where
  first : ∃ c rest, part = c :: rest ∧ (c = 'L' ∨ c = '<')
  last : ∃ front c, part = front ++ [c] ∧ (c = '\x60' ∨ c = '>')
  newline_not_mem : '\n' ∉ part

/-- Texts that are recast by parts with the look of inline code, on both sides. -/
abbrev Recoded : Text → Text → Prop := Recast fun source written => IsCode source ∧ IsCode written

/-- A text without the characters with which inline code starts. -/
def IsPlain (s : Text) : Prop := 'L' ∉ s ∧ '<' ∉ s

instance (s : Text) : Decidable (IsPlain s) := inferInstanceAs (Decidable (_ ∧ _))

namespace Recoded

variable {s t s' : Text}

/-- Recoding goes back. -/
theorem symm (h : Recoded s t) : Recoded t s := by
  induction h with
  | nil => exact .nil
  | keep _ ih => exact .keep ih
  | swap hswap _ ih => exact .swap ⟨hswap.2, hswap.1⟩ ih

/-- Nothing becomes nothing. -/
theorem eq_nil (h : Recoded [] t) : t = [] := by
  generalize hs : [] = s at h
  induction h with
  | nil => rfl
  | keep => contradiction
  | swap hswap =>
    obtain ⟨c, rest, rfl, -⟩ := hswap.1.first
    contradiction

/-- A plain text at the start of a text stays there. -/
theorem exists_append_of_isPlain (h : Recoded (s ++ s') t) (hs : IsPlain s) :
    ∃ t', t = s ++ t' ∧ Recoded s' t' := by
  obtain ⟨t', rfl, h'⟩ := h.symm.exists_append fun hswap => by
    obtain ⟨c, rest, heq, hc⟩ := hswap.2.first
    refine ⟨c, rest, heq, fun hmem => ?_⟩
    rcases hc with rfl | rfl
    · exact hs.1 hmem
    · exact hs.2 hmem
  exact ⟨t', rfl, Recoded.symm h'⟩

/-- A plain text stays as it is. -/
theorem eq_of_isPlain (h : Recoded s t) (hs : IsPlain s) : t = s := by
  rw [← List.append_nil s] at h
  obtain ⟨t', rfl, h'⟩ := h.exists_append_of_isPlain hs
  rw [h'.eq_nil, List.append_nil]

/-- **A text is recoded line by line.** -/
theorem exists_append_newline (h : Recoded (s ++ '\n' :: s') t) :
    ∃ u u', t = u ++ '\n' :: u' ∧ Recoded s u ∧ Recoded s' u' :=
  h.exists_append_cons fun hswap => hswap.1.newline_not_mem

/-- A line stays a line. -/
theorem newline_not_mem (h : Recoded s t) (hs : '\n' ∉ s) : '\n' ∉ t := fun hmem =>
  hs (h.mem (fun hswap => hswap.2.newline_not_mem) hmem)

/-- The end of a line stays one. -/
theorem endsLine (h : Recoded s t) (hs : EndsLine s) : EndsLine t := by
  match s with
  | [] =>
    rw [h.eq_nil]
    exact hs
  | c :: s =>
    obtain rfl : c = '\n' := hs c rfl
    obtain ⟨t', rfl, -⟩ := exists_append_of_isPlain (s := ['\n']) h (by decide)
    exact hs

/-- A text is recoded on both sides of the end of a line. -/
theorem exists_append_of_endsLine (h : Recoded (s ++ s') t) (hs' : EndsLine s') :
    ∃ u u', t = u ++ u' ∧ Recoded s u ∧ Recoded s' u' := by
  match s' with
  | [] => exact ⟨t, [], by simp, by simpa using h, .nil⟩
  | c :: s' =>
    obtain rfl : c = '\n' := hs' c rfl
    obtain ⟨u, u', rfl, hu, hu'⟩ := h.exists_append_newline
    exact ⟨u, '\n' :: u', rfl, hu, .keep hu'⟩

/-- **Blank margins stay**: inline code is not blank, in whatever form. -/
theorem all_isBlank_line (h : Recoded s t) : (line s).all isBlank = (line t).all isBlank := by
  have hcode : ∀ {part rest : Text}, IsCode part → (line (part ++ rest)).all isBlank = false := by
    intro part rest hpart
    obtain ⟨c, more, rfl, rfl | rfl⟩ := hpart.first <;> simp [line, isBlank]
  induction h with
  | nil => rfl
  | @keep c s t _ ih =>
    by_cases hc : c = '\n'
    · simp [line, hc]
    · simpa [line, hc] using congrArg (isBlank c && ·) ih
  | swap hswap => rw [hcode hswap.1, hcode hswap.2]

end Recoded

/-! ### Edges -/

/-- Two texts, nearest characters first, lead up to the **same edge** if directives start alike
behind both: at the edge of a word, at the start of a line, or behind a blank margin. -/
structure SameEdge (before before' : Text) : Prop where
  atWordEdge : atWordEdge before = Text.atWordEdge before'
  atLineStart : atLineStart before = Directive.atLineStart before'
  margin : (line before).all isBlank = (line before').all isBlank

namespace SameEdge

variable {before before' : Text}

/-- The edge of a text is its own. -/
theorem refl (before : Text) : SameEdge before before := ⟨rfl, rfl, rfl⟩

/-- The edges of two texts are compared either way. -/
theorem symm (h : SameEdge before before') : SameEdge before' before :=
  ⟨h.atWordEdge.symm, h.atLineStart.symm, h.margin.symm⟩

/-- One more character. -/
theorem cons (h : SameEdge before before') (c : Char) : SameEdge (c :: before) (c :: before') := by
  refine ⟨rfl, rfl, ?_⟩
  by_cases hc : c = '\n'
  · simp [line, hc]
  · simpa [line, hc] using congrArg (isBlank c && ·) h.margin

/-- More characters. -/
theorem append (h : SameEdge before before') (s : Text) :
    SameEdge (s ++ before) (s ++ before') := by
  induction s with
  | nil => exact h
  | cons c s ih => exact ih.cons c

/-- Behind inline code no word goes on, no line starts and no margin is blank. -/
theorem of_isCode {part part' : Text} (hpart : IsCode part) (hpart' : IsCode part') :
    SameEdge (part.reverse ++ before) (part'.reverse ++ before') := by
  have hsign : ∀ {c : Char}, c = '\x60' ∨ c = '>' →
      isWord c = false ∧ c ≠ '\n' ∧ isBlank c = false := by
    rintro c (rfl | rfl) <;> decide
  obtain ⟨front, c, rfl, hc⟩ := hpart.last
  obtain ⟨front', c', rfl, hc'⟩ := hpart'.last
  obtain ⟨hword, hnewline, hblank⟩ := hsign hc
  obtain ⟨hword', hnewline', hblank'⟩ := hsign hc'
  constructor
  · simp [Text.atWordEdge, hword, hword']
  · simp [Directive.atLineStart, hnewline, hnewline']
  · simp [line, hnewline, hnewline', hblank, hblank']

end SameEdge

/-- **Recoding keeps edges.** -/
theorem Recoded.sameEdge {s t before before' : Text} (h : Recoded s t)
    (hedge : SameEdge before before') : SameEdge (s.reverse ++ before) (t.reverse ++ before') := by
  induction h generalizing before before' with
  | nil => exact hedge
  | @keep c s t _ ih => simpa using ih (hedge.cons c)
  | @swap source written s t hswap _ ih =>
    have hpart : SameEdge (source.reverse ++ before) (written.reverse ++ before') :=
      .of_isCode hswap.1 hswap.2
    simpa using ih hpart

/-- A place that has its line for itself keeps it. -/
theorem SameEdge.standsAlone {before before' after after' : Text} (hedge : SameEdge before before')
    (hafter : Recoded after after') : standsAlone before after = standsAlone before' after' := by
  rw [Directive.standsAlone, Directive.standsAlone, hedge.margin, hafter.all_isBlank_line]

/-! ### Blocks -/

/-- A closing fence is plain. -/
theorem IsFence.isPlain {fence : Text} (h : IsFence fence) : IsPlain fence := by
  obtain ⟨padding, hpadding, rfl⟩ := h
  have hnot : ∀ c, c = 'L' ∨ c = '<' → c ∉ padding := fun c hc hmem => by
    rcases hpadding c hmem with rfl | rfl <;> simp at hc
  exact ⟨by simpa using hnot 'L' (.inl rfl), by simpa using hnot '<' (.inr rfl)⟩

/-- A body in which no closing fence stands among the later lines gets none. -/
theorem HasNoFence.recoded {body body' : Text} (h : HasNoFence body) (hbody : Recoded body body') :
    HasNoFence body' := by
  rintro earlier fence later rfl hfence hlater
  obtain ⟨earlier', rest, rfl, -, hrest⟩ := hbody.symm.exists_append_newline
  obtain ⟨later', rfl, hlater'⟩ := hrest.exists_append_of_isPlain hfence.isPlain
  exact h earlier' fence later' rfl hfence (hlater'.endsLine hlater)

section Block

variable {before before' source source' after after' : Text}

/-- **Fenced source stays fenced**, around its recoded content. -/
theorem IsFenced.recoded {tag content : Text} (htag : IsPlain tag)
    (h : IsFenced tag before source after content) (hstart : StartsLine before')
    (hsource : Recoded source source') (hafter : Recoded after after') :
    ∃ content', IsFenced tag before' source' after' content' ∧ Recoded content content' := by
  obtain ⟨-, hend, padding, fence, hpadding, hfence, rfl⟩ := h
  have hopening : IsPlain ("```".toList ++ tag ++ padding) := by
    obtain ⟨hL, hbracket⟩ := (show IsFence ("```".toList ++ padding) from
      ⟨padding, hpadding, rfl⟩).isPlain
    simp_all [IsPlain]
  obtain ⟨opening, rest, rfl, hline, hrest⟩ := hsource.exists_append_newline
  obtain rfl := hline.eq_of_isPlain hopening
  obtain ⟨content', last, rfl, hcontent, hlast⟩ := hrest.exists_append_newline
  obtain rfl := hlast.eq_of_isPlain hfence.isPlain
  exact ⟨content', ⟨hstart, hafter.endsLine hend, padding, last, hpadding, hfence, rfl⟩, hcontent⟩

/-- The content of an interactive block stays one. -/
theorem exists_interactiveContent_of_recoded {context title body content' : Text}
    (hcontext : '\n' ∉ context) (htitle : '\n' ∉ title)
    (h : Recoded (interactiveContent context title body) content') :
    ∃ context' title' body', content' = interactiveContent context' title' body' ∧
      '\n' ∉ context' ∧ '\n' ∉ title' ∧ Recoded body body' := by
  have hlines : interactiveContent context title body =
      context ++ '\n' :: ("---".toList ++ (title ++ '\n' :: body)) := by
    simp [interactiveContent]
  rw [hlines] at h
  obtain ⟨context', rest, rfl, hcontext', hrest⟩ := h.exists_append_newline
  obtain ⟨rest', rfl, hrest'⟩ := hrest.exists_append_of_isPlain (by decide)
  obtain ⟨title', body', rfl, htitle', hbody⟩ := hrest'.exists_append_newline
  exact ⟨context', title', body', by simp [interactiveContent], hcontext'.newline_not_mem hcontext,
    htitle'.newline_not_mem htitle, hbody⟩

/-- Whether an occurrence is of an inline shape. -/
def Occurrence.isInline : Occurrence → Bool
  | .usable directive => !directive.isBlock
  | .hollow _ => false

/-- A block is fenced source. -/
theorem Occurrence.SpelledBy.exists_isFenced {occurrence : Occurrence}
    (hblock : occurrence.isInline = false) (h : occurrence.SpelledBy before source after) :
    ∃ tag content, IsFenced tag before source after content := by
  match occurrence with
  | .hollow _ =>
    obtain ⟨-, content, hfenced, -⟩ := h
    exact ⟨_, content, hfenced⟩
  | .usable (.listing _) =>
    obtain ⟨-, content, hfenced, -⟩ := h
    exact ⟨_, content, hfenced⟩
  | .usable (.interactive _ _ _) =>
    obtain ⟨_, _, _, hfenced, -⟩ := h
    exact ⟨_, _, hfenced⟩
  | .usable (.definition _ _) => contradiction
  | .usable (.reference _) => contradiction

/-- An occurrence of a listing, with or without a file, is none of an inline shape. -/
theorem Occurrence.isInline_ofListing (source content : Text) :
    (Occurrence.ofListing source content).isInline = false := by
  unfold ofListing
  split <;> rfl

/-- **A block stays a block.** -/
theorem Occurrence.SpelledBy.recoded {occurrence : Occurrence}
    (hblock : occurrence.isInline = false) (h : occurrence.SpelledBy before source after)
    (hedge : SameEdge before.reverse before'.reverse) (hsource : Recoded source source')
    (hafter : Recoded after after') :
    ∃ occurrence' : Occurrence, occurrence'.isInline = false ∧
      occurrence'.SpelledBy before' source' after' := by
  have hstart : StartsLine before → StartsLine before' := fun hline => by
    rw [← atLineStart_iff, hedge.atLineStart] at hline
    exact atLineStart_iff.1 hline
  have hlisting : ∀ content, IsFenced "lambda-defs".toList before source after content →
      '\n' ∉ content → ∃ occurrence' : Occurrence, occurrence'.isInline = false ∧
        occurrence'.SpelledBy before' source' after' := by
    intro content hfenced hcontent
    obtain ⟨content', hfenced', hcontent'⟩ :=
      hfenced.recoded (by decide) (hstart hfenced.1) hsource hafter
    exact ⟨_, isInline_ofListing source' content',
      spelledBy_ofListing hfenced' (hcontent'.newline_not_mem hcontent)⟩
  match occurrence with
  | .hollow _ =>
    obtain ⟨-, content, hfenced, hcontent, -⟩ := h
    exact hlisting content hfenced hcontent
  | .usable (.listing _) =>
    obtain ⟨-, content, hfenced, hcontent, -⟩ := h
    exact hlisting content hfenced hcontent
  | .usable (.interactive _ _ _) =>
    obtain ⟨context, title, body, hfenced, hcontext, htitle, hbody, -⟩ := h
    obtain ⟨content', hfenced', hcontent⟩ :=
      hfenced.recoded (by decide) (hstart hfenced.1) hsource hafter
    obtain ⟨context', title', body', rfl, hcontext', htitle', hbody'⟩ :=
      exists_interactiveContent_of_recoded hcontext htitle hcontent
    exact ⟨.usable (.interactive (trim context') (trim title') (trimEnd body')), rfl, context',
      title', body', hfenced', hcontext', htitle', hbody.recoded hbody', rfl, rfl, rfl⟩
  | .usable (.definition _ _) => contradiction
  | .usable (.reference _) => contradiction

/-! ### Inline directives -/

/-- The markers of inline directives. -/
def inlineMarkers : List Text := ["dL".toList, "l".toList]

/-- An inline directive is a quoted source. -/
theorem Occurrence.SpelledBy.exists_isQuoted {occurrence : Occurrence}
    (hinline : occurrence.isInline = true) (h : occurrence.SpelledBy before source after) :
    ∃ marker ∈ inlineMarkers, ∃ body, IsQuoted marker before source body := by
  match occurrence with
  | .usable (.definition expression _) => exact ⟨_, List.mem_cons_self, expression, h.1⟩
  | .usable (.reference expression) => exact ⟨_, List.mem_cons_of_mem _ List.mem_cons_self, _, h⟩
  | .usable (.listing _) => contradiction
  | .usable (.interactive _ _ _) => contradiction
  | .hollow _ => contradiction

/-- **An inline directive stays what it is** between recoded texts. -/
theorem Occurrence.SpelledBy.of_sameEdge {occurrence : Occurrence}
    (hinline : occurrence.isInline = true) (h : occurrence.SpelledBy before source after)
    (hedge : SameEdge before.reverse before'.reverse) (hafter : Recoded after after') :
    occurrence.SpelledBy before' source after' := by
  have hquoted : ∀ {marker body : Text}, IsQuoted marker before source body →
      IsQuoted marker before' source body := fun ⟨hword, hbody⟩ => by
    rw [← atWordEdge_iff, hedge.atWordEdge] at hword
    exact ⟨atWordEdge_iff.1 hword, hbody⟩
  match occurrence with
  | .usable (.definition _ _) =>
    obtain ⟨hspelled, halone⟩ := h
    refine ⟨hquoted hspelled, ?_⟩
    rw [halone, ← standsAlone_iff, ← standsAlone_iff, hedge.standsAlone hafter]
  | .usable (.reference _) => exact hquoted h
  | .usable (.listing _) => contradiction
  | .usable (.interactive _ _ _) => contradiction
  | .hollow _ => contradiction

end Block

/-! ### Places without directives -/

/-- **No directive comes about** at a character that is kept. -/
theorem occurrence?_eq_none_of_recoded {before before' s t : Text} {c : Char}
    (h : occurrence? before.reverse (c :: s) = none)
    (hedge : SameEdge before.reverse before'.reverse)
    (hrecoded : Recoded s t) (helements : Recast IsElement s t) :
    occurrence? before'.reverse (c :: t) = none := by
  refine Option.eq_none_iff_forall_ne_some.2 fun found hfound => ?_
  obtain ⟨occurrence, length⟩ := found
  obtain ⟨source, after, heq, -, hspelled⟩ := spelledBy_of_occurrence? hfound
  cases hinline : occurrence.isInline with
  | true =>
    obtain ⟨marker, hmarker, body, hquoted⟩ := hspelled.exists_isQuoted hinline
    have hnone : inline? before.reverse (c :: s) = none := by
      simp only [occurrence?, Option.orElse_eq_or, Option.or_eq_none_iff] at h
      simp only [inline?, Option.orElse_eq_or, Option.or_eq_none_iff]
      exact h.2.2
    have hmarkers : ∀ marker ∈ inlineMarkers, Avoids marker signs := by decide
    have hword : StartsWord before' → StartsWord before := fun hword => by
      rw [← atWordEdge_iff, ← hedge.atWordEdge] at hword
      exact atWordEdge_iff.1 hword
    have hbehind : QuotedAt marker before' (c :: t) := ⟨source, after, body, heq, hquoted⟩
    have hbefore : QuotedAt marker before (c :: s) :=
      hbehind.of_recast (hmarkers marker hmarker) helements hword
    obtain ⟨hdefinition, hreference⟩ := inline?_eq_none_iff.1 hnone
    rcases List.mem_pair.1 hmarker with rfl | rfl
    · exact hdefinition hbefore
    · exact hreference hbefore
  | false =>
    obtain ⟨tag, content, hfenced⟩ := hspelled.exists_isFenced hinline
    have hback : Recoded (source ++ after) (c :: s) := heq ▸ Recoded.symm (.keep hrecoded)
    obtain ⟨source', after', heq', hsource, hafter⟩ := hback.exists_append_of_endsLine hfenced.2.1
    obtain ⟨occurrence', -, hspelled'⟩ := hspelled.recoded hinline hedge.symm hsource hafter
    rw [heq', occurrence?_of_spelledBy occurrence' hspelled'] at h
    exact Option.some_ne_none _ h

end Lectern.Directive
