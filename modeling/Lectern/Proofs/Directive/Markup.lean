import Mathlib.Data.List.DropRight
import Lectern.Proofs.Markup.Attribute
import Lectern.Proofs.Markup.Reading
import Lectern.Proofs.Page.Expression
import Lectern.Settings.Basic

/-!
# The Markup of Directives

The markup of a directive is one component tag, which may stand inside the client-only boundary. The
properties of the tag are the payload of the directive, and they are read back from the quotes of
the markup, whatever the payload is. The page writer looks for the expression in another way, by its
name: a context that ends with that name is then taken for the lead to the expression.

## Main results

* `toMarkup_eq`: the markup of a directive, made of the properties of its tag.
* `writtenProperties_toMarkup`: the properties are read back.
* `expressionProperty?_properties`: the expression that the page writer finds in a tag.
* `toMarkup_payload`: what markup does with the payload of a directive.
-/

namespace Lectern.Directive

open Markup Page.Writer
open Unicode (isBlank)

variable {names : ComponentNames} {before tail : Text} {directive : Directive}

/-! ### Tags -/

/-- The value that tells whether a definition stands alone. -/
def aloneText (alone : Bool) : Text := if alone then "true".toList else "false".toList

/-- The property for a title, left out when the title is empty. -/
def titleProperties (title : Text) : List (Text × Text) :=
  if title.isEmpty then [] else [("title".toList, title)]

/-- The **properties** of the tag of a directive: its payload. -/
def properties : Directive → List (Text × Text)
  | .reference expression => [("exp".toList, expression)]
  | .definition expression alone =>
    [("exp".toList, expression), (":block".toList, aloneText alone)]
  | .listing file => [("file".toList, file)]
  | .interactive context title expression =>
    [("file".toList, context), ("exp".toList, expression)] ++ titleProperties title

/-- The expression of a directive that has one. -/
def payloadExpression? : Directive → Option Text
  | .reference expression => some expression
  | .definition expression _ => some expression
  | .listing _ => none
  | .interactive _ _ expression => some expression

/-- The name of the component. -/
def component (names : ComponentNames) : Directive → Text
  | .reference _ => names.reference
  | .definition _ _ => names.definition
  | .listing _ => names.listing
  | .interactive _ _ _ => names.interactive

/-- What stands before the tag: the start of the client-only boundary, or nothing. -/
def boundaryStart (names : ComponentNames) : Directive → Text
  | .interactive _ _ _ => '<' :: names.clientOnly ++ ">\n".toList
  | .reference _ | .definition _ _ | .listing _ => []

/-- What stands behind the tag: the end of the client-only boundary, or nothing. -/
def boundaryEnd (names : ComponentNames) : Directive → Text
  | .interactive _ _ _ => "\n</".toList ++ names.clientOnly ++ ['>']
  | .reference _ | .definition _ _ | .listing _ => []

/-- Properties as they are written. -/
def writeProperties (properties : List (Text × Text)) : Text :=
  properties.flatMap fun (key, value) => property key value

/-- The **tag** of a directive. -/
def componentTag (names : ComponentNames) (directive : Directive) : Text :=
  '<' :: directive.component names ++ writeProperties directive.properties ++ " />".toList

/-- The title as it is written. -/
theorem writeProperties_titleProperties (title : Text) :
    writeProperties (titleProperties title) =
      if title.isEmpty then [] else property "title".toList title := by
  unfold titleProperties
  split
  · rfl
  · exact List.append_nil _

/-- Properties that follow another one. -/
@[simp] theorem writeProperties_cons (key value : Text) (properties : List (Text × Text)) :
    writeProperties ((key, value) :: properties) =
      property key value ++ writeProperties properties := rfl

/-- No properties. -/
@[simp] theorem writeProperties_nil : writeProperties [] = [] := rfl

/-- **The markup of a directive** is its tag, and the boundary around it. -/
theorem toMarkup_eq (names : ComponentNames) (directive : Directive) :
    directive.toMarkup names =
      directive.boundaryStart names ++ directive.componentTag names ++
        directive.boundaryEnd names := by
  cases directive with
  | reference expression =>
    simp [toMarkup, boundaryStart, boundaryEnd, componentTag, component, properties, tag]
  | definition expression alone =>
    rw [toMarkup, ← aloneText]
    simp [boundaryStart, boundaryEnd, componentTag, component, properties, tag]
  | listing file =>
    simp [toMarkup, boundaryStart, boundaryEnd, componentTag, component, properties, tag]
  | interactive context title expression =>
    rw [toMarkup, ← writeProperties_titleProperties]
    simp [boundaryStart, boundaryEnd, componentTag, component, properties, tag]

/-! ### Component names -/

/-- A name that is no problem is a tag name. -/
theorem isTagName_of_tagProblem {field : Settings.Field} {name : Text}
    (h : Settings.tagProblem field name = []) : Settings.isTagName name = true := by
  unfold Settings.tagProblem at h
  split at h
  · simp at h
  · split at h
    · assumption
    · simp at h

/-- The characters of a tag name. -/
theorem isTagChar_of_mem {name : Text} (h : Settings.isTagName name = true) :
    ∀ c ∈ name, Settings.isTagChar c = true := by
  cases name with
  | nil => simp
  | cons first rest =>
    simp only [Settings.isTagName, Bool.and_eq_true, List.all_eq_true] at h
    refine List.forall_mem_cons.2 ⟨?_, h.2⟩
    simp [Settings.isTagChar, Char.isAlphanum, h.1]

/-- A tag name has neither quotes nor line feeds. -/
theorem not_mem_of_isTagName {name : Text} (h : Settings.isTagName name = true) :
    '"' ∉ name ∧ '\n' ∉ name :=
  ⟨fun hmem => absurd (isTagChar_of_mem h _ hmem) (by decide),
    fun hmem => absurd (isTagChar_of_mem h _ hmem) (by decide)⟩

/-- The names of components that are no problem. -/
theorem isTagName_component (h : Settings.componentProblems names = []) (directive : Directive) :
    Settings.isTagName (directive.component names) = true ∧
      Settings.isTagName names.clientOnly = true := by
  simp only [Settings.componentProblems, List.append_eq_nil_iff] at h
  obtain ⟨⟨⟨⟨hreference, hdefinition⟩, hlisting⟩, hinteractive⟩, hclient⟩ := h
  refine ⟨?_, isTagName_of_tagProblem hclient⟩
  cases directive with
  | reference => exact isTagName_of_tagProblem hreference
  | definition => exact isTagName_of_tagProblem hdefinition
  | listing => exact isTagName_of_tagProblem hlisting
  | interactive => exact isTagName_of_tagProblem hinteractive

/-- There are no quotes around the properties. -/
theorem quote_not_mem (h : Settings.componentProblems names = []) (directive : Directive) :
    '"' ∉ directive.boundaryStart names ++ '<' :: directive.component names ∧
      '"' ∉ " />".toList ++ directive.boundaryEnd names := by
  obtain ⟨hcomponent, hclient⟩ := isTagName_component h directive
  have hname := (not_mem_of_isTagName hcomponent).1
  have hboundary := (not_mem_of_isTagName hclient).1
  cases directive <;> simp [boundaryStart, boundaryEnd, hname, hboundary]

/-! ### Reading properties -/

/-- The name of a property, from the text in front of its value. -/
def propertyName (lead : Text) : Text := (lead.rtakeWhile (· != ' ')).dropLast

/-- The **properties in a markup**: what is quoted in it, each with the name in front of it. -/
def writtenProperties (markup : Text) : List (Text × Text) :=
  (quotedPieces (Text.splitOnChar '"' markup)).map fun (lead, value) => (propertyName lead, value)

example : writtenProperties (toMarkup {} (.definition "a \"b\"".toList true)) =
    [("exp".toList, "a &quot;b&quot;".toList), (":block".toList, "true".toList)] := by
  decide +kernel

/-- Whether a text can be the name of a property. -/
def IsKey (key : Text) : Prop := ' ' ∉ key ∧ '"' ∉ key ∧ '\n' ∉ key

/-- The properties of directives have such names. -/
theorem isKey_of_mem_properties : ∀ p ∈ directive.properties, IsKey p.1 := by
  cases directive with
  | reference => simp [properties, IsKey]
  | definition => simp [properties, IsKey]
  | listing => simp [properties, IsKey]
  | interactive context title expression =>
    refine List.forall_mem_append.2 ⟨by simp [IsKey], fun p hp => ?_⟩
    unfold titleProperties at hp
    split at hp
    · simp at hp
    · obtain rfl := List.mem_singleton.1 hp
      simp [IsKey]

/-- A name is read back. -/
theorem propertyName_append {key : Text} (h : IsKey key) (before : Text) :
    propertyName (before ++ ' ' :: (key ++ ['='])) = key := by
  have hsplit : before ++ ' ' :: (key ++ ['=']) = (before ++ [' ']) ++ (key ++ ['=']) := by simp
  have hkey : ∀ c ∈ key ++ ['='], (c != ' ') = true := by
    intro c hc
    have hc' : c ≠ ' ' := by
      rintro rfl
      exact List.not_mem_append h.1 (by decide) hc
    simpa using hc'
  have hlast : (before ++ ' ' :: (key ++ ['='])).rtakeWhile (· != ' ') = key ++ ['='] := by
    rw [hsplit, List.rtakeWhile, List.reverse_append,
      List.takeWhile_append_of_pos fun c hc => hkey c (List.mem_reverse.1 hc)]
    simp
  rw [propertyName, hlast, List.dropLast_concat]

/-- **Properties are read back** from their quotes. -/
theorem writtenProperties_append {properties : List (Text × Text)} (hbefore : '"' ∉ before)
    (hkeys : ∀ p ∈ properties, IsKey p.1) (htail : '"' ∉ tail) :
    writtenProperties (before ++ writeProperties properties ++ tail) =
      properties.map fun (key, value) => (key, escapeAttribute value) := by
  induction properties generalizing before with
  | nil =>
    have hquote : '"' ∉ before ++ writeProperties [] ++ tail := by
      simpa [writeProperties] using ⟨hbefore, htail⟩
    rw [writtenProperties, Text.splitOnChar_of_not_mem hquote]
    rfl
  | cons p properties ih =>
    obtain ⟨hkey, hothers⟩ := List.forall_mem_cons.1 hkeys
    obtain ⟨key, value⟩ := p
    have hpieces : before ++ writeProperties ((key, value) :: properties) ++ tail =
        (before ++ ' ' :: (key ++ ['='])) ++ '"' :: (escapeAttribute value ++ '"' ::
          ([] ++ writeProperties properties ++ tail)) := by
      simp [writeProperties, property]
    have hlead : '"' ∉ before ++ ' ' :: (key ++ ['=']) := by
      simpa [hbefore] using hkey.2.1
    have hrest := @ih [] (by simp) hothers
    rw [writtenProperties] at hrest ⊢
    rw [hpieces, Text.splitOnChar_append_cons, Text.splitOnChar_append_cons,
      Text.splitOnChar_of_not_mem hlead,
      Text.splitOnChar_of_not_mem (not_mem_escapeAttribute value).1]
    simp only [List.cons_append, List.nil_append, quotedPieces, List.map_cons] at hrest ⊢
    rw [hrest, propertyName_append hkey]

/-- **The payload of a directive** is read back from its markup. -/
theorem writtenProperties_toMarkup (h : Settings.componentProblems names = [])
    (directive : Directive) : writtenProperties (directive.toMarkup names) =
      directive.properties.map fun (key, value) => (key, escapeAttribute value) := by
  obtain ⟨hbefore, htail⟩ := quote_not_mem h directive
  rw [← writtenProperties_append hbefore isKey_of_mem_properties htail, toMarkup_eq, componentTag]
  simp only [List.append_assoc, List.cons_append]

/-- The value that tells whether a definition stands alone does so. -/
theorem aloneText_injective : Function.Injective aloneText := by
  intro alone other h
  cases alone with
  | true =>
    cases other with
    | true => rfl
    | false => exact absurd h (by decide)
  | false =>
    cases other with
    | true => exact absurd h (by decide)
    | false => rfl

/-- The property for a title tells the title. -/
theorem titleProperties_injective : Function.Injective titleProperties := by
  intro title other h
  cases title <;> cases other <;> simp [titleProperties] at h ⊢
  exact h

/-- A directive is known by its payload. -/
theorem properties_injective : Function.Injective properties := by
  intro directive other h
  cases directive with
  | reference expression =>
    cases other with
    | reference => simpa [properties] using h
    | definition => simp [properties] at h
    | listing => simp [properties] at h
    | interactive => simp [properties] at h
  | definition expression alone =>
    cases other with
    | reference => simp [properties] at h
    | definition => simpa [properties, aloneText_injective.eq_iff] using h
    | listing => simp [properties] at h
    | interactive => simp [properties] at h
  | listing file =>
    cases other with
    | reference => simp [properties] at h
    | definition => simp [properties] at h
    | listing => simpa [properties] using h
    | interactive => simp [properties] at h
  | interactive context title expression =>
    cases other with
    | reference => simp [properties] at h
    | definition => simp [properties] at h
    | listing => simp [properties] at h
    | interactive =>
      simpa [properties, titleProperties_injective.eq_iff, and_comm, and_left_comm] using h

/-- The properties of a directive, read back from its markup. -/
theorem unescaped_writtenProperties (h : Settings.componentProblems names = [])
    (directive : Directive) : (writtenProperties (directive.toMarkup names)).map
      (fun (key, value) => (key, unescapeAttribute value)) = directive.properties := by
  rw [writtenProperties_toMarkup h, List.map_map]
  refine (List.map_congr_left fun p _ => ?_).trans (List.map_id _)
  simp [unescapeAttribute_escapeAttribute]

/-! ### Reading the expression -/

/-- Whether a **context misleads** those who look for the expression: it ends like the lead to it.
A line feed does not count as a blank character here, because it is written as an entity. -/
def isMisleading : Directive → Bool
  | .interactive context _ _ => (Text.before? "exp=".toList context).any fun front =>
      front.getLast?.any fun c => isBlank c && c != '\n'
  | _ => false

/-- The expression that is found in the tag of a directive. -/
def foundExpression? (directive : Directive) : Option Text :=
  if directive.isMisleading then some " exp=".toList else directive.payloadExpression?

/-- Whether the context of an interactive block misleads. -/
theorem isMisleading_interactive_iff {context title expression : Text} :
    (interactive context title expression).isMisleading = true ↔
      ∃ front blank, isBlank blank = true ∧ blank ≠ '\n' ∧
        context = front ++ blank :: "exp=".toList := by
  simp only [isMisleading, Option.any_eq_true, Text.before?_eq_some_iff, Bool.and_eq_true,
    bne_iff_ne]
  constructor
  · rintro ⟨front, rfl, c, hlast, hblank, hfeed⟩
    obtain ⟨before, rfl⟩ := List.getLast?_eq_some_iff.1 hlast
    exact ⟨before, c, hblank, hfeed, by simp⟩
  · rintro ⟨front, blank, hblank, hfeed, rfl⟩
    exact ⟨front ++ [blank], by simp, blank, by simp, hblank, hfeed⟩

/-- The lead to the expression is written as it stands, unless it starts with a line feed. -/
theorem escapeAttributeChar_lead {blank : Char} (hblank : isBlank blank = true)
    (hfeed : blank ≠ '\n') :
    ∀ c ∈ blank :: "exp=".toList, escapeAttributeChar c = [c] ∧ c ≠ ';' := by
  have hname : ∀ c ∈ ['e', 'x', 'p', '='], escapeAttributeChar c = [c] ∧ c ≠ ';' := by
    simp only [List.forall_mem_cons]
    exact ⟨by decide, by decide, by decide, by decide, List.forall_mem_nil _⟩
  refine List.forall_mem_cons.2 ⟨⟨?_, ?_⟩, hname⟩
  · rcases escapeAttributeChar_cases blank with ⟨rfl, -⟩ | ⟨rfl, -⟩ | ⟨rfl, -⟩ | ⟨-, hkept⟩
    · exact absurd hblank (by decide)
    · exact absurd hblank (by decide)
    · exact absurd rfl hfeed
    · exact hkept
  · rintro rfl
    exact absurd hblank (by decide)

/-- The value of a context leads to the expression if the context misleads. -/
theorem isLead_escapeAttribute_iff {context title expression : Text} :
    IsLead (escapeAttribute context) ↔
      (interactive context title expression).isMisleading = true := by
  rw [isMisleading_interactive_iff]
  constructor
  · rintro ⟨front, blank, hblank, hvalue⟩
    have hfeed : blank ≠ '\n' := by
      rintro rfl
      exact (not_mem_escapeAttribute context).2 (by simp [hvalue])
    obtain ⟨before, rfl, -⟩ :=
      exists_of_escapeAttribute_eq_append (escapeAttributeChar_lead hblank hfeed) hvalue
    exact ⟨before, blank, hblank, hfeed, rfl⟩
  · rintro ⟨front, blank, hblank, hfeed, rfl⟩
    refine ⟨escapeAttribute front, blank, hblank, escapeAttribute_append_plain ?_ front⟩
    exact fun c hc => (escapeAttributeChar_lead hblank hfeed c hc).1

/-- The text in front of another property is no lead to the expression. -/
theorem not_isLead_file (before : Text) : ¬ IsLead (before ++ " file=".toList) := by
  rintro ⟨front, blank, -, h⟩
  have hends : (before ++ " f".toList) ++ "ile=".toList = (front ++ [blank]) ++ "exp=".toList := by
    simpa using h
  exact absurd (List.append_inj' hends rfl).2 (by decide)

/-- The text in front of the expression is a lead to it. -/
theorem isLead_exp (before : Text) : IsLead (before ++ " exp=".toList) :=
  ⟨before, ' ', by decide, rfl⟩

/-- **The expression that is found in a tag** is that of the directive, unless the context
misleads. -/
theorem expressionProperty?_properties (directive : Directive) (hbefore : '"' ∉ before)
    (htail : '"' ∉ tail) :
    (expressionProperty? (before ++ writeProperties directive.properties ++ tail)).map
      unescapeAttribute = directive.foundExpression? := by
  have hquote : ∀ name, '"' ∉ name → '"' ∉ before ++ name := fun name hname =>
    List.not_mem_append hbefore hname
  cases directive with
  | reference expression =>
    have htext : before ++ writeProperties (reference expression).properties ++ tail =
        (before ++ " exp=".toList) ++ '"' :: (escapeAttribute expression ++ '"' :: tail) := by
      simp [properties, writeProperties, property]
    rw [htext, expressionProperty?_of_isLead (hquote _ (by decide)) (isLead_exp before)
      (not_mem_escapeAttribute expression).1]
    simp [foundExpression?, isMisleading, payloadExpression?, unescapeAttribute_escapeAttribute]
  | definition expression alone =>
    have htext : ∃ rest,
        before ++ writeProperties (definition expression alone).properties ++ tail =
          (before ++ " exp=".toList) ++ '"' :: (escapeAttribute expression ++ '"' :: rest) := by
      simp [properties, writeProperties, property]
    obtain ⟨rest, htext⟩ := htext
    rw [htext, expressionProperty?_of_isLead (hquote _ (by decide)) (isLead_exp before)
      (not_mem_escapeAttribute expression).1]
    simp [foundExpression?, isMisleading, payloadExpression?, unescapeAttribute_escapeAttribute]
  | listing file =>
    have htext : before ++ writeProperties (listing file).properties ++ tail =
        (before ++ " file=".toList) ++ '"' :: (escapeAttribute file ++ '"' :: tail) := by
      simp [properties, writeProperties, property]
    rw [htext, expressionProperty?_append_quote (hquote _ (by decide)) (not_isLead_file before),
      expressionProperty?_of_one_quote (not_mem_escapeAttribute file).1 htail]
    rfl
  | interactive context title expression =>
    have htext : ∃ rest,
        before ++ writeProperties (interactive context title expression).properties ++ tail =
          (before ++ " file=".toList) ++ '"' :: (escapeAttribute context ++ '"' ::
            (" exp=".toList ++ '"' :: (escapeAttribute expression ++ '"' :: rest))) := by
      simp [properties, writeProperties, property]
    obtain ⟨rest, htext⟩ := htext
    have hcontext := (not_mem_escapeAttribute context).1
    rw [htext, expressionProperty?_append_quote (hquote _ (by decide)) (not_isLead_file before)]
    by_cases hmisleading : (interactive context title expression).isMisleading = true
    · rw [expressionProperty?_of_isLead hcontext (isLead_escapeAttribute_iff.2 hmisleading)
        (by decide), foundExpression?, if_pos hmisleading]
      rfl
    · have hexp : IsLead " exp=".toList := isLead_exp []
      rw [expressionProperty?_append_quote hcontext (mt isLead_escapeAttribute_iff.1 hmisleading),
        expressionProperty?_of_isLead (by decide) hexp (not_mem_escapeAttribute expression).1,
        foundExpression?, if_neg hmisleading]
      simp [payloadExpression?, unescapeAttribute_escapeAttribute]

/-- The expression that is found in the markup of a directive. -/
theorem expressionProperty?_toMarkup (h : Settings.componentProblems names = [])
    (directive : Directive) :
    (expressionProperty? (directive.toMarkup names)).map unescapeAttribute =
      directive.foundExpression? := by
  obtain ⟨hbefore, htail⟩ := quote_not_mem h directive
  rw [← expressionProperty?_properties directive hbefore htail, toMarkup_eq, componentTag]
  simp only [List.append_assoc, List.cons_append]

/-! ### Markup in a heading -/

/-- The tag of a directive is on one line. -/
theorem lineFeed_not_mem_componentTag (h : Settings.componentProblems names = [])
    (directive : Directive) : '\n' ∉ directive.componentTag names := by
  have hname := (not_mem_of_isTagName (isTagName_component h directive).1).2
  have hproperties : '\n' ∉ writeProperties directive.properties := by
    intro hmem
    obtain ⟨⟨key, value⟩, hp, hmem⟩ := List.mem_flatMap.1 hmem
    have hkey := (isKey_of_mem_properties _ hp).2.2
    simp [property, hkey, (not_mem_escapeAttribute value).2] at hmem
  simp [componentTag, hname, hproperties]

/-- What the tag of a directive adds to a heading. -/
theorem expressionText_componentTag (h : Settings.componentProblems names = [])
    (directive : Directive) : expressionText (directive.componentTag names) =
      directive.foundExpression?.getD [] := by
  have hname := (not_mem_of_isTagName (isTagName_component h directive).1).1
  rw [expressionText, componentTag, expressionProperty?_properties directive (by simpa using hname)
    (by decide)]

/-- The lines of markup add to a heading what the tag adds. -/
theorem flatMap_expressionText_toMarkup (h : Settings.componentProblems names = [])
    (directive : Directive) :
    (Text.splitOnChar '\n' (directive.toMarkup names)).flatMap expressionText =
      directive.foundExpression?.getD [] := by
  have htag := lineFeed_not_mem_componentTag h directive
  have hadded := expressionText_componentTag h directive
  have halone : directive.toMarkup names = directive.componentTag names →
      (Text.splitOnChar '\n' (directive.toMarkup names)).flatMap expressionText =
        directive.foundExpression?.getD [] := by
    intro heq
    rw [heq, Text.splitOnChar_of_not_mem htag, List.flatMap_singleton, hadded]
  cases directive with
  | reference expression => exact halone (by simp [toMarkup_eq, boundaryStart, boundaryEnd])
  | definition expression alone => exact halone (by simp [toMarkup_eq, boundaryStart, boundaryEnd])
  | listing file => exact halone (by simp [toMarkup_eq, boundaryStart, boundaryEnd])
  | interactive context title expression =>
    obtain ⟨hquote, hfeed⟩ := not_mem_of_isTagName
      (isTagName_component h (interactive context title expression)).2
    have hlines : (interactive context title expression).toMarkup names =
        ('<' :: names.clientOnly ++ ['>']) ++ '\n' ::
          ((interactive context title expression).componentTag names ++ '\n' ::
            ("</".toList ++ names.clientOnly ++ ['>'])) := by
      simp [toMarkup_eq, boundaryStart, boundaryEnd]
    have hempty : ∀ {line : Text}, '"' ∉ line → expressionText line = [] := fun hline => by
      rw [expressionText, expressionProperty?_of_not_mem hline]
      rfl
    rw [hlines, Text.splitOnChar_append_cons, Text.splitOnChar_append_cons,
      Text.splitOnChar_of_not_mem (by simpa using hfeed), Text.splitOnChar_of_not_mem htag,
      Text.splitOnChar_of_not_mem (by simpa using hfeed)]
    simp only [List.flatMap_append, List.flatMap_singleton, hadded]
    rw [hempty (by simpa using hquote), hempty (by simpa using hquote)]
    simp

/-! ### Payloads -/

/-- **Markup carries the payload of a directive.** Directives with different payloads have different
markup; the values in it have neither quotes nor line feeds, and they are the payload, read back.
The expression that is found, and that a heading around the markup receives, is that of the
directive, unless the context misleads. -/
theorem toMarkup_payload (names : ComponentNames) (h : Settings.componentProblems names = []) :
    Function.Injective (toMarkup names) ∧
    ∀ directive : Directive,
      (∀ p ∈ writtenProperties (directive.toMarkup names), '"' ∉ p.2 ∧ '\n' ∉ p.2) ∧
      (writtenProperties (directive.toMarkup names)).map
        (fun (key, value) => (key, unescapeAttribute value)) = directive.properties ∧
      (expressionProperty? (directive.toMarkup names)).map unescapeAttribute =
        directive.foundExpression? ∧
      ∀ (style : Page.PageStyle) (w : Page.Writer),
        w.run style (inlineEvents (directive.toMarkup names)) =
          .ok ((w.pushHeadingText (directive.foundExpression?.getD [])).push
            (directive.toMarkup names)) := by
  refine ⟨fun directive other heq => properties_injective ?_, fun directive =>
    ⟨fun p hp => ?_, unescaped_writtenProperties h directive,
      expressionProperty?_toMarkup h directive, fun style w => ?_⟩⟩
  · rw [← unescaped_writtenProperties h directive, heq, unescaped_writtenProperties h other]
  · rw [writtenProperties_toMarkup h] at hp
    obtain ⟨⟨key, value⟩, -, rfl⟩ := List.mem_map.1 hp
    exact not_mem_escapeAttribute value
  · rw [run_inlineEvents, flatMap_expressionText_toMarkup h]

/-- The names that are used if no others are set are no problem. -/
theorem toMarkup_payload_standard : Settings.componentProblems {} = [] ∧
    expressionProperty? (toMarkup {} (.definition "a &amp; \"b\"".toList true)) =
      some "a &amp;amp; &quot;b&quot;".toList ∧
    (expressionProperty? (toMarkup {} (.definition "a &amp; \"b\"".toList true))).map
      unescapeAttribute = some "a &amp; \"b\"".toList :=
  ⟨by decide, by decide +kernel,
    ((toMarkup_payload {} (by decide)).2 (.definition "a &amp; \"b\"".toList true)).2.2.1⟩

/-- A context that misleads: the text between two values is taken for the expression. -/
theorem toMarkup_misread : Settings.componentProblems {} = [] ∧
    (interactive "a exp=".toList [] "e".toList).payloadExpression? = some "e".toList ∧
    (expressionProperty? (toMarkup {} (.interactive "a exp=".toList [] "e".toList))).map
      unescapeAttribute = some " exp=".toList := by
  decide +kernel

end Lectern.Directive
