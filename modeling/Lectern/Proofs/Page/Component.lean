import Lectern.Proofs.Directive.Recoded
import Lectern.Proofs.Markdown.Paragraph
import Lectern.Proofs.Markdown.Tag
import Lectern.Proofs.Settings.Validity
import Lectern.Proofs.Text.Place
import Lectern.Settings.Pipeline

/-!
# Components on Pages

The names that settings allow for components are not all names of tags to Markdown: an underscore or
a dot makes the tag of a component plain text, and its signs are escaped on the page. With any other
allowed name, an inline directive between two words gives exactly its markup, whatever its
expression is, both when the markup stands in the source and when the directive does.

## Main results

* `parse_componentTag`: the content of a line with the tag of a component between two words.
* `expand_of_spelledBy`: the only directive in a line is expanded where it stands.
* `render_component`: the page of a line with an inline directive.
* `render_component_escaped`: a component with an allowed name whose markup is escaped.
-/

namespace Lectern

open Markdown (IsWord IsPlainName)
open Directive (component componentTag)

variable {names : ComponentNames} {directive : Directive} {before after : Text}

/-! ### The line -/

namespace Markdown

open Unicode (isAlphanumeric)

/-- **A line with the tag of a component** between two words has the tag as a part of its own. -/
theorem parse_componentTag (definitions : Definitions) (hbefore : IsWord before)
    (hafter : IsWord after) (hname : Settings.isTagName (directive.component names) = true)
    (hplain : IsPlainName (directive.component names)) :
    Inline.parse definitions (before ++ ' ' :: (directive.componentTag names ++ ' ' :: after)) =
      [.text (before ++ [' ']), .leaf (.inlineHtml (directive.componentTag names)),
        .text (' ' :: after)] := by
  have hsign : ∀ rest : Text, ∀ d ∈ (' ' :: rest).head?, isInlineSign d = true := by
    rintro rest d hd
    obtain rfl := Option.some.inj hd
    decide
  obtain ⟨t, ht⟩ : ∃ t, directive.componentTag names = '<' :: t := ⟨_, rfl⟩
  obtain ⟨c, more, hafters⟩ := List.exists_cons_of_ne_nil hafter.1
  have hc : isAlphanumeric c = true := hafter.2 c (hafters ▸ List.mem_cons_self)
  have hplainSign := isInlineSign_of_isAlphanumeric hc
  rw [isInlineSign, Bool.or_eq_false_iff] at hplainSign
  obtain ⟨steps, hsteps⟩ : ∃ n,
      (before ++ ' ' :: (directive.componentTag names ++ ' ' :: after)).length = n + 5 := by
    have hpos := List.length_pos_iff.2 hbefore.1
    refine ⟨before.length + t.length + more.length - 1, ?_⟩
    simp only [ht, hafters, List.length_append, List.length_cons]
    omega
  have hrun : inlineRun definitions (steps + 5) {} none
      (before ++ ' ' :: (directive.componentTag names ++ ' ' :: after)) =
        ((((InlineState.pushText {} before).pushText [' ']).pushTree
          (.leaf (.inlineHtml (directive.componentTag names)))).pushText [' ']).pushText after := by
    rw [inlineRun_word hbefore (hsign _), ht, List.cons_append,
      inlineRun_space (by decide) (by decide), ← List.cons_append, ← ht,
      inlineRun_componentTag hname hplain, hafters,
      inlineRun_space hplainSign.2 (ne_of_isAlphanumeric hc _ (by decide)), ← hafters,
      inlineRun_lastWord hafter]
  rw [Inline.parse, hsteps, hrun]
  rfl

end Markdown

/-! ### The page -/

namespace Page

open Markdown

/-- Letters and numbers are not escaped. -/
theorem escapeHtml_of_isWord {word : Text} (h : IsWord word) : Markup.escapeHtml word = word := by
  have hchar : ∀ c ∈ word, Markup.escapeHtmlChar c = [c] := by
    intro c hc
    have hnot := not_mem_signs_of_isAlphanumeric (h.2 c hc) ['&', '<', '>', '"']
      (by decide)
    simp only [List.mem_cons, List.not_mem_nil, or_false, not_or] at hnot
    unfold Markup.escapeHtmlChar
    split <;> simp_all
  rw [Markup.escapeHtml, List.flatMap_congr hchar]
  simp

/-- The page of a paragraph with a tag between two words. -/
theorem renderEvents_tag (style : PageStyle) (hbefore : IsWord before) (hafter : IsWord after)
    (tag : Text) :
    ∃ page, renderEvents style [.start .paragraph, .text (before ++ [' ']), .inlineHtml tag,
        .text (' ' :: after), .finish .paragraph] = .ok page ∧
      page.html = "<p>".toList ++ (before ++ ' ' :: (tag ++ ' ' :: after)) ++ "</p>\n".toList := by
  refine ⟨_, rfl, ?_⟩
  have hescape : ∀ {s : Text}, IsWord s → Markup.escapeHtml (s ++ [' ']) = s ++ [' '] ∧
      Markup.escapeHtml (' ' :: s) = ' ' :: s := fun {s} hs => by
    have hspace : Markup.escapeHtml [' '] = [' '] := by decide
    have happend : Markup.escapeHtml (s ++ [' ']) =
        Markup.escapeHtml s ++ Markup.escapeHtml [' '] := List.flatMap_append
    have hcons : Markup.escapeHtml (' ' :: s) =
        Markup.escapeHtml [' '] ++ Markup.escapeHtml s := List.flatMap_cons
    rw [happend, hcons, hspace, escapeHtml_of_isWord hs]
    exact ⟨rfl, rfl⟩
  calc _ = "<p>".toList ++ Markup.escapeHtml (before ++ [' ']) ++ tag ++
        Markup.escapeHtml (' ' :: after) ++ "</p>\n".toList := rfl
    _ = _ := by
        rw [(hescape hbefore).1, (hescape hafter).2]
        simp only [List.append_assoc, List.cons_append, List.nil_append]

end Page

/-! ### The directive -/

namespace Directive

open Text

variable {source : Text}

/-- The source of an occurrence has a backtick behind its marker. -/
theorem Occurrence.SpelledBy.exists_backtick {occurrence : Occurrence}
    (h : occurrence.SpelledBy before source after) :
    ∃ marker rest, source = marker ++ '\x60' :: rest ∧ ' ' ∉ marker := by
  by_cases hinline : occurrence.isInline = true
  · obtain ⟨marker, hmarker, body, -, rfl, -⟩ := h.exists_isQuoted hinline
    have hmarkers : ∀ marker ∈ inlineMarkers, ' ' ∉ marker := by decide
    exact ⟨marker, _, rfl, hmarkers marker hmarker⟩
  · obtain ⟨tag, content, -, -, padding, fence, -, -, rfl⟩ :=
      h.exists_isFenced (Bool.eq_false_iff.2 hinline)
    exact ⟨[], _, rfl, List.not_mem_nil⟩

/-- Nothing is found in a text without backticks, if it is the last one or a space ends it. -/
theorem occurrence?_eq_none (front : Text) {gap : Text} (hgap : '\x60' ∉ gap)
    (hend : gap.getLast? = some ' ' ∨ after = []) :
    occurrence? front.reverse (gap ++ after) = none := by
  refine Option.eq_none_iff_forall_ne_some.2 fun ⟨occurrence, length⟩ hfound => ?_
  obtain ⟨source, rest, heq, -, hspelled⟩ := spelledBy_of_occurrence? hfound
  obtain ⟨marker, tail, rfl, hmarker⟩ := hspelled.exists_backtick
  rw [List.append_assoc, List.cons_append] at heq
  rcases append_cons_eq_append heq.symm with ⟨inside, rfl, hafter⟩ | ⟨inside, rfl, -⟩
  · rcases hend with hlast | rfl
    · exact hmarker (List.mem_append_left _ (List.mem_of_getLast? hlast))
    · simp at hafter
  · exact hgap (by simp)

/-- **The only directive of a line**, between two texts without backticks, is expanded where it
stands. -/
theorem expand_of_spelledBy (names : ComponentNames) (hbefore : '\x60' ∉ before)
    (hafter : '\x60' ∉ after) (h : directive.SpelledBy (before ++ [' ']) source after) :
    expand names (before ++ ' ' :: (source ++ after)) =
      before ++ ' ' :: (directive.toMarkup names ++ after) := by
  have hspelled : (Occurrence.usable directive).SpelledBy (before ++ [' ']) source after := h
  have hline : before ++ ' ' :: (source ++ after) = (before ++ [' ']) ++ (source ++ after) := by
    simp
  have hgap : '\x60' ∉ before ++ [' '] := by simpa using hbefore
  have hpieces : pieces occurrence? (before ++ ' ' :: (source ++ after)) =
      (before ++ [' ']).map .kept ++ .hit (.usable directive) :: after.map .kept := by
    rw [hline, pieces, piecesFrom_append_of_none, List.append_nil,
      piecesFrom_hit hspelled.ne_nil (occurrence?_of_spelledBy _ hspelled),
      piecesFrom_eq_map_kept]
    · rintro earlier later rfl -
      have hlater : '\x60' ∉ later := fun hmem => hafter (List.mem_append_right _ hmem)
      have hnone := occurrence?_eq_none (before ++ [' '] ++ source ++ earlier) hlater
        (.inr (rfl : ([] : Text) = []))
      simpa using hnone
    · intro front rest heq hne
      have hlast : rest.getLast? = some ' ' := by
        have hgaps := congrArg List.getLast? heq
        rw [List.getLast?_concat, List.getLast?_append_of_ne_nil _ hne] at hgaps
        exact hgaps.symm
      rw [List.append_nil]
      exact occurrence?_eq_none _ (fun hmem => hgap (heq ▸ List.mem_append_right _ hmem))
        (.inl hlast)
  rw [expand, hpieces, rewriteHits_append, rewriteHits_map_kept, rewriteHits_hit,
    rewriteHits_map_kept, Occurrence.expand]
  simp

/-- The expression of an inline directive. -/
def inlineExpression? : Directive → Option Text
  | .reference expression => some expression
  | .definition expression _ => some expression
  | .listing _ => none
  | .interactive _ _ _ => none

/-- The markup of an inline directive is its tag. -/
theorem toMarkup_eq_componentTag (names : ComponentNames) {expression : Text}
    (h : directive.inlineExpression? = some expression) :
    directive.toMarkup names = directive.componentTag names := by
  rw [toMarkup_eq]
  cases directive with
  | reference | definition => exact List.append_nil _
  | listing | interactive => cases h

/-- The characters that are unified before a page is read. -/
def unified : Text := ['\n', '\r', '\x00']

/-- What holds of the unified characters, one by one. -/
theorem forall_mem_unified {P : Char → Prop} :
    (∀ c ∈ unified, P c) ↔ P '\n' ∧ P '\r' ∧ P '\x00' := by
  simp [unified]

/-- A value has no unified characters that its text does not have, and no line feeds. -/
theorem mem_of_mem_escapeAttribute {c : Char} (hc : c ∈ unified) {s : Text}
    (h : c ∈ Markup.escapeAttribute s) : c ∈ s ∧ c ≠ '\n' := by
  have hentity : ∀ c ∈ unified, ∀ entity ∈ ["&amp;", "&quot;", "&#10;"].map String.toList,
      c ∉ entity := forall_mem_unified.2 (by decide)
  obtain ⟨d, hd, hmem⟩ := List.mem_flatMap.1 h
  rcases Markup.escapeAttributeChar_cases d with
    ⟨-, heq⟩ | ⟨-, heq⟩ | ⟨-, heq⟩ | ⟨⟨-, -, hfeed⟩, heq⟩
  · exact absurd (heq ▸ hmem) (hentity c hc _ (by decide))
  · exact absurd (heq ▸ hmem) (hentity c hc _ (by decide))
  · exact absurd (heq ▸ hmem) (hentity c hc _ (by decide))
  · obtain rfl := List.mem_singleton.1 (heq ▸ hmem)
    exact ⟨hd, hfeed⟩

/-- A property has no unified characters that its key and its value do not have. -/
theorem mem_of_mem_property {key value : Text} {c : Char} (hc : c ∈ unified) (hkey : c ∉ key)
    (h : c ∈ property key value) : c ∈ value ∧ c ≠ '\n' := by
  have hsigns : ∀ c ∈ unified, c ∉ [' ', '=', '"'] := forall_mem_unified.2 (by decide)
  have hnot := hsigns c hc
  simp only [List.mem_cons, List.not_mem_nil, or_false, not_or] at hnot
  refine mem_of_mem_escapeAttribute hc ?_
  simpa [property, hkey, hnot] using h

/-- **The markup of an inline directive** has no unified characters that its expression does not
have, and no line feeds. -/
theorem mem_of_mem_toMarkup {names : ComponentNames} {expression : Text}
    (hname : Settings.isTagName (directive.component names) = true)
    (h : directive.inlineExpression? = some expression) {c : Char} (hc : c ∈ unified)
    (hmem : c ∈ directive.toMarkup names) : c ∈ expression ∧ c ≠ '\n' := by
  have hsigns : ∀ c ∈ unified, Settings.isTagChar c = false ∧ c ∉ "< />".toList ∧
      c ∉ "exp".toList ∧ c ∉ ":block".toList ∧ ∀ alone, c ∉ aloneText alone :=
    forall_mem_unified.2 (by decide)
  obtain ⟨htag, hsign, hexp, hblock, halone⟩ := hsigns c hc
  have hcomponent : c ∉ directive.component names := fun hmem => by
    obtain ⟨-, -, -, -, hall⟩ := Markdown.exists_of_isTagName hname
    simp [hall c hmem] at htag
  obtain ⟨p, hp, hmem⟩ : ∃ p ∈ directive.properties, c ∈ property p.1 p.2 := by
    rw [toMarkup_eq_componentTag names h, componentTag] at hmem
    rcases List.mem_append.1 hmem with hmem | hmem
    · rcases List.mem_append.1 hmem with hmem | hmem
      · rcases List.mem_cons.1 hmem with rfl | hmem
        · exact absurd (by decide) hsign
        · exact absurd hmem hcomponent
      · exact List.mem_flatMap.1 hmem
    · exact absurd (List.mem_cons_of_mem '<' hmem) hsign
  cases directive with
  | reference =>
    obtain rfl := Option.some.inj h
    obtain rfl := List.mem_singleton.1 hp
    exact mem_of_mem_property hc hexp hmem
  | definition written alone =>
    obtain rfl := Option.some.inj h
    rcases List.mem_pair.1 hp with rfl | rfl
    · exact mem_of_mem_property hc hexp hmem
    · exact absurd (mem_of_mem_property hc hblock hmem).1 (halone alone)
  | listing | interactive => cases h

end Directive

/-! ### Components under settings -/

namespace Settings

open Page Markdown

/-- **An inline directive between two words** gives a paragraph with its markup, as it is, if the
name of its component is plain. It does so for every expression without a return, in whatever style
the page is written; and for every lesson that has the directive in this line when its shorthands
are replaced. -/
theorem render_component {settings : Settings} (hvalid : settings.IsValid) {expression : Text}
    (hinline : directive.inlineExpression? = some expression) (hreturn : '\r' ∉ expression)
    (hplain : IsPlainName (directive.component settings.components)) (hbefore : IsWord before)
    (hafter : IsWord after) :
    let line := before ++ ' ' :: (directive.toMarkup settings.components ++ ' ' :: after)
    let html := "<p>".toList ++ line ++ "</p>\n".toList
    (∀ style, ∃ page, renderEvents style (Document.parse line) = .ok page ∧ page.html = html) ∧
    ∀ lesson source, directive.SpelledBy (before ++ [' ']) source (' ' :: after) →
      '\x00' ∉ expression →
      settings.shorthands.apply lesson = before ++ ' ' :: (source ++ ' ' :: after) →
      ∃ page, settings.render lesson = .ok page ∧ page.html = html := by
  intro line html
  have hname := (Directive.isTagName_component (isValid_iff.1 hvalid).2.2.2.1 directive).1
  have hnot : ∀ c ∈ Directive.unified, (c ≠ '\n' → c ∉ expression) → c ∉ line := by
    intro c hc hexpression hmem
    have hsigns : ∀ c ∈ Directive.unified, Unicode.isAlphanumeric c = false ∧ c ≠ ' ' :=
      Directive.forall_mem_unified.2 (by decide)
    obtain ⟨hword, hspace⟩ := hsigns c hc
    have hmarkup : c ∉ directive.toMarkup settings.components := fun hmem => by
      obtain ⟨hinside, hfeed⟩ := Directive.mem_of_mem_toMarkup hname hinline hc hmem
      exact hexpression hfeed hinside
    simp [line, hbefore.not_mem hword, hafter.not_mem hword, hmarkup, hspace] at hmem
  have hfeed : '\n' ∉ line := hnot _ (by decide) fun h => absurd rfl h
  have hline : '\r' ∉ line := hnot _ (by decide) fun _ => hreturn
  have hparse : Document.parse line = [.start .paragraph, .text (before ++ [' ']),
      .inlineHtml (directive.toMarkup settings.components), .text (' ' :: after),
      .finish .paragraph] := by
    rw [parse_of_isWord hbefore (fun hmem => hfeed (by simp [line, hmem]))
        (fun hmem => hline (by simp [line, hmem])),
      Directive.toMarkup_eq_componentTag settings.components hinline,
      parse_componentTag {} hbefore hafter hname hplain]
    rfl
  have hpage : ∀ style, ∃ page, renderEvents style (Document.parse line) = .ok page ∧
      page.html = html := fun style => by
    rw [hparse]
    exact renderEvents_tag style hbefore hafter _
  refine ⟨hpage, fun lesson source hspelled hnull hlesson => ?_⟩
  have hpreprocess : settings.pipeline.preprocess lesson = line := by
    have hexpand := Directive.expand_of_spelledBy settings.components
      (hbefore.not_mem (by decide)) (by simpa using hafter.not_mem (by decide)) hspelled
    calc settings.pipeline.preprocess lesson
        = Pipeline.normalize (Directive.expand settings.components
            (settings.shorthands.apply lesson)) := rfl
      _ = Pipeline.normalize line := by rw [hlesson, hexpand]
      _ = line := by
          rw [Pipeline.normalize_eq_map hline,
            Pipeline.map_unifyNull_eq_self (hnot _ (by decide) fun _ => hnull)]
  obtain ⟨page, hrender, hhtml⟩ := hpage (settings.pipeline.style settings.pageContext)
  refine ⟨page, ?_, hhtml⟩
  rw [render, Pipeline.render, hpreprocess, hrender]

/-- Settings that display expressions with a component of that name. -/
def displayedBy (name : String) : Settings :=
  { Settings.inDirectory [Path.slash] with components := { reference := name.toList } }

/-- A component with a hyphen in its name, and an expression with signs that Markdown knows. -/
theorem render_component_hyphen : (displayedBy "My-Tag").IsValid ∧
    ∃ page, (displayedBy "My-Tag").render "see l`*λ* & \"<b>\"` here".toList = .ok page ∧
      page.html = "<p>see <My-Tag exp=\"*λ* &amp; &quot;<b>&quot;\" /> here</p>\n".toList := by
  have hvalid : (displayedBy "My-Tag").IsValid := by decide
  let directive : Directive := .reference "*λ* & \"<b>\"".toList
  have hspelled : directive.SpelledBy ("see".toList ++ [' ']) "l`*λ* & \"<b>\"`".toList
      (' ' :: "here".toList) := by
    refine ⟨fun c hc => ?_, by decide, by decide, fun c hc =>
      ⟨ne_of_mem_of_not_mem hc (by decide), ne_of_mem_of_not_mem hc (by decide)⟩⟩
    obtain rfl := Option.some.inj hc
    decide +kernel
  have hplain : IsPlainName (directive.component (displayedBy "My-Tag").components) := by decide
  have hbefore : IsWord "see".toList := ⟨by decide, List.all_eq_true.1 (by decide)⟩
  have hafter : IsWord "here".toList := ⟨by decide, List.all_eq_true.1 (by decide)⟩
  obtain ⟨-, hrender⟩ := render_component hvalid (show directive.inlineExpression? = _ from rfl)
    (by decide) hplain hbefore hafter
  obtain ⟨page, hpage, hhtml⟩ := hrender "see l`*λ* & \"<b>\"` here".toList _ hspelled (by decide)
    (by decide +kernel)
  exact ⟨hvalid, page, hpage, hhtml.trans (by decide +kernel)⟩

/-- **Allowed names that are no names of tags**: the markup of the directive is escaped. -/
theorem render_component_escaped :
    ((displayedBy "My.Tag").IsValid ∧ (displayedBy "My_Tag").IsValid) ∧
    (Directive.reference "x".toList).toMarkup (displayedBy "My.Tag").components =
      "<My.Tag exp=\"x\" />".toList ∧
    ((displayedBy "My.Tag").render "see l`x` here".toList).map Page.html =
      .ok "<p>see &lt;My.Tag exp=&quot;x&quot; /&gt; here</p>\n".toList ∧
    ((displayedBy "My_Tag").render "see l`x` here".toList).map Page.html =
      .ok "<p>see &lt;My_Tag exp=&quot;x&quot; /&gt; here</p>\n".toList := by
  decide +kernel

end Settings

end Lectern
