import Lectern.Pipeline
import Lectern.Proofs.Directive.Markup
import Lectern.Proofs.Directive.Split
import Lectern.Proofs.Pipeline.Settled

/-!
# Lines of Components

Markup escapes the line feeds of a payload, so that the tag of a component stays on one line. But
line ends are unified behind the directives, and a carriage return is none yet when markup is made:
it passes into the tag as it is, and becomes a line feed there. So a tag goes over as many lines
more as its payload has carriage returns, and it stays on its line if there are none. The text
around it plays no part: markup begins and ends with brackets, so no line end reaches over its
edges.

## Main results

* `normalize_append`: normalizing text after text.
* `normalize_expansion`: normalizing a text whose directives are expanded.
* `lineCount_normalize_toMarkup`: how many lines the markup of a directive goes over.
* `preprocess_lines`: the lines of components behind the directives of a pipeline.
* `preprocess_splitTag`: a tag on two lines.
-/

namespace Lectern.Pipeline

open Markup
open Markdown.Document (unifyLineEnds)

variable {names : ComponentNames} {s t : Text}

/-! ### Line ends -/

/-- Line ends of text after text, unless one of them reaches over the edge. -/
theorem unifyLineEnds_append (h : s.getLast? = some '\r' → t.head? ≠ some '\n') :
    unifyLineEnds (s ++ t) = unifyLineEnds s ++ unifyLineEnds t := by
  have hlast : ∀ {c : Char} {rest : Text}, rest.getLast? = some '\r' →
      (c :: rest).getLast? = some '\r' := fun hrest => by simp [List.getLast?_cons, hrest]
  fun_induction unifyLineEnds s with
  | case1 => rfl
  | case2 rest ih =>
    rw [List.cons_append, List.cons_append, unifyLineEnds, ih fun hrest => h (hlast (hlast hrest))]
    rfl
  | case3 rest hrest ih =>
    have hnext : ∀ more, rest ++ t ≠ '\n' :: more := by
      intro more heq
      cases rest with
      | nil => exact h rfl (by simpa using congrArg List.head? heq)
      | cons c rest => exact hrest rest (by simp_all)
    rw [List.cons_append, unifyLineEnds.eq_3 _ hnext, ih fun hrest => h (hlast hrest)]
    rfl
  | case4 c rest _ hreturn ih =>
    rw [List.cons_append, unifyLineEnds.eq_4 _ _ (fun _ hc => absurd hc hreturn) hreturn,
      ih fun hrest => h (hlast hrest)]
    rfl

/-- Without line feeds, each carriage return is a line end of its own. -/
theorem count_unifyLineEnds (h : '\n' ∉ s) :
    (unifyLineEnds s).count '\n' = s.count '\r' := by
  fun_induction unifyLineEnds s with
  | case1 => rfl
  | case2 => simp at h
  | case3 rest _ ih =>
    rw [List.count_cons_self, List.count_cons_self, ih (List.not_mem_of_not_mem_cons h)]
  | case4 c rest _ hreturn ih =>
    have hfeed : c ≠ '\n' := fun hc => h (hc ▸ List.mem_cons_self)
    rw [List.count_cons_of_ne hfeed, List.count_cons_of_ne hreturn,
      ih (List.not_mem_of_not_mem_cons h)]

/-- **Normalizing text after text**, unless a line end reaches over the edge. -/
theorem normalize_append (h : s.getLast? = some '\r' → t.head? ≠ some '\n') :
    normalize (s ++ t) = normalize s ++ normalize t := by
  rw [normalize, unifyLineEnds_append h, List.map_append]
  rfl

/-- A line feed ends a line, behind anything but a carriage return. -/
theorem normalize_append_newline (h : s.getLast? ≠ some '\r') (t : Text) :
    normalize (s ++ '\n' :: t) = normalize s ++ '\n' :: normalize t := by
  rw [normalize_append (absurd · h)]
  congr 1

/-- Unifying null characters leaves line feeds alone. -/
theorem count_map_unifyNull (s : Text) : (s.map unifyNull).count '\n' = s.count '\n' := by
  induction s with
  | nil => rfl
  | cons c s ih =>
    have hfeed : (unifyNull c == '\n') = (c == '\n') := by
      unfold unifyNull
      split
      · next hnull =>
        obtain rfl : c = '\x00' := by simpa using hnull
        rfl
      · rfl
    rw [List.map_cons, List.count_cons, List.count_cons, ih, hfeed]

/-- **A text on one line** goes over one line more for each carriage return in it. -/
theorem count_normalize (h : '\n' ∉ s) : (normalize s).count '\n' = s.count '\r' :=
  (count_map_unifyNull _).trans (count_unifyLineEnds h)

/-! ### Markup -/

/-- The number of **lines** that a text goes over. -/
def lineCount (s : Text) : Nat := s.count '\n' + 1

/-- The number of lines that markup takes by itself: the tags of the client-only boundary have lines
of their own. -/
def ownLines : Directive → Nat
  | .reference _ | .definition _ _ | .listing _ => 1
  | .interactive _ _ _ => 3

/-- The number of carriage returns in the payload of a directive. -/
def returnCount (directive : Directive) : Nat :=
  (directive.properties.flatMap (·.2)).count '\r'

/-- A payload without carriage returns. -/
theorem returnCount_eq_zero_iff {directive : Directive} :
    returnCount directive = 0 ↔ ∀ p ∈ directive.properties, '\r' ∉ p.2 := by
  rw [returnCount, List.count_eq_zero]
  simp

/-- Carriage returns are not escaped. -/
theorem count_escapeAttribute (s : Text) : (escapeAttribute s).count '\r' = s.count '\r' := by
  induction s with
  | nil => rfl
  | cons c s ih =>
    have hchar : (escapeAttributeChar c).count '\r' = [c].count '\r' := by
      rcases escapeAttributeChar_cases c with ⟨rfl, h⟩ | ⟨rfl, h⟩ | ⟨rfl, h⟩ | ⟨-, h⟩ <;>
        rw [h] <;> rfl
    rw [escapeAttribute, List.flatMap_cons, List.count_append, hchar, ← escapeAttribute, ih,
      ← List.count_append]
    rfl

/-- A tag name has no carriage returns. -/
theorem return_not_mem_of_isTagName {name : Text} (h : Settings.isTagName name = true) :
    '\r' ∉ name := fun hmem => absurd (Directive.isTagChar_of_mem h _ hmem) (by decide)

/-- The tag of a directive has the carriage returns of the payload. -/
theorem count_componentTag (h : Settings.componentProblems names = []) (directive : Directive) :
    (directive.componentTag names).count '\r' = returnCount directive := by
  have hname : (directive.component names).count '\r' = 0 := List.count_eq_zero.2
    (return_not_mem_of_isTagName (Directive.isTagName_component h directive).1)
  have hkey : ∀ p ∈ directive.properties, p.1.count '\r' = 0 := by
    cases directive with
    | interactive context title expression =>
      rw [Directive.properties, Directive.titleProperties]
      split <;> simp
    | _ => simp [Directive.properties]
  have hproperties : (Directive.writeProperties directive.properties).count '\r' =
      returnCount directive := by
    rw [Directive.writeProperties, returnCount, List.count_flatMap, List.count_flatMap]
    refine congrArg List.sum (List.map_congr_left fun p hp => ?_)
    simp [Directive.property, List.count_append, hkey p hp, count_escapeAttribute]
  simp [Directive.componentTag, List.count_append, hname, hproperties]

/-- Markup begins and ends with brackets. -/
theorem brackets_toMarkup (names : ComponentNames) (directive : Directive) :
    (directive.toMarkup names).head? = some '<' ∧
      (directive.toMarkup names).getLast? = some '>' := by
  cases directive <;> simp [Directive.toMarkup, Directive.tag, List.getLast?_cons]

/-- Markup is normalized by itself, whatever stands around it. -/
theorem normalize_around_toMarkup (names : ComponentNames) (directive : Directive) (s t : Text) :
    normalize (s ++ (directive.toMarkup names ++ t)) =
      normalize s ++ (normalize (directive.toMarkup names) ++ normalize t) := by
  obtain ⟨hfirst, hlast⟩ := brackets_toMarkup names directive
  rw [normalize_append, normalize_append]
  · simp [hlast]
  · simp [hfirst]

/-- **Normalizing expanded directives** normalizes the markup of each and each gap. -/
theorem normalize_expansion (names : ComponentNames) (split : Directive.Split) :
    normalize (split.expansion names) = normalize split.opening ++
      split.marks.flatMap fun mark =>
        normalize (mark.directive.toMarkup names) ++ normalize mark.gap := by
  obtain ⟨opening, marks⟩ := split
  unfold Directive.Split.expansion
  induction marks generalizing opening with
  | nil => simp
  | cons mark marks ih =>
    have hrest := ih mark.gap
    simp only [List.flatMap_cons, List.append_assoc] at hrest ⊢
    rw [normalize_around_toMarkup, hrest]

/-- **How many lines the markup of a directive goes over**: its own ones, and one more for each
carriage return in the payload. -/
theorem lineCount_normalize_toMarkup (h : Settings.componentProblems names = [])
    (directive : Directive) : lineCount (normalize (directive.toMarkup names)) =
      ownLines directive + returnCount directive := by
  have htag : (normalize (directive.componentTag names)).count '\n' = returnCount directive :=
    (count_normalize (Directive.lineFeed_not_mem_componentTag h directive)).trans
      (count_componentTag h directive)
  have halone : directive.toMarkup names = directive.componentTag names →
      lineCount (normalize (directive.toMarkup names)) = 1 + returnCount directive := fun heq => by
    rw [heq, lineCount, htag, Nat.add_comm]
  cases directive with
  | interactive context title expression =>
    -- the tags of the boundary have lines of their own
    have hclient := (Directive.isTagName_component h (.interactive context title expression)).2
    have hedge : ∀ lead : Text, '\n' ∉ lead ∧ '\r' ∉ lead →
        (normalize (lead ++ names.clientOnly ++ ['>'])).count '\n' = 0 := by
      rintro lead ⟨hfeed, hreturn⟩
      rw [count_normalize (by simp [hfeed, (Directive.not_mem_of_isTagName hclient).2])]
      simp [List.count_append, List.count_eq_zero.2 hreturn,
        List.count_eq_zero.2 (return_not_mem_of_isTagName hclient)]
    have hlines : (Directive.interactive context title expression).toMarkup names =
        (['<'] ++ names.clientOnly ++ ['>']) ++ '\n' ::
          ((Directive.interactive context title expression).componentTag names ++ '\n' ::
            ("</".toList ++ names.clientOnly ++ ['>'])) := by
      simp [Directive.toMarkup_eq, Directive.boundaryStart, Directive.boundaryEnd]
    rw [hlines, normalize_append_newline (by simp [List.getLast?_cons]),
      normalize_append_newline (by simp [Directive.componentTag, List.getLast?_cons]), lineCount]
    simp only [List.count_append, List.count_cons_self, hedge ['<'] (by decide),
      hedge "</".toList (by decide), htag, ownLines]
    omega
  | _ => exact halone (by simp [Directive.toMarkup_eq, Directive.boundaryStart,
      Directive.boundaryEnd])

/-! ### Pipelines -/

/-- A pipeline whose last rule expands directives. -/
theorem preprocess_concat (names : ComponentNames) (earlier : List SourceRule) (source : Text) :
    preprocess { rules := earlier ++ [Directive.rule names] } source =
      normalize (Directive.expand names (earlier.foldl (fun s rule => rule.apply s) source)) := by
  unfold preprocess
  dsimp only
  rw [List.foldl_append]
  rfl

/-- **The lines of components behind the directives of a pipeline**, whatever rules come before
them. What the parser reads is the text in which each directive is replaced, with the markup of each
and each gap normalized by itself. The markup of a directive goes over one line, or over three if it
is an interactive block, and over one more for each carriage return in its payload: so it keeps to
its own lines if and only if the payload has no carriage returns. -/
theorem preprocess_lines (names : ComponentNames) (h : Settings.componentProblems names = [])
    (earlier : List SourceRule) (source : Text) :
    ∃ split : Directive.Split,
      split.IsOf (earlier.foldl (fun s rule => rule.apply s) source) ∧
      preprocess { rules := earlier ++ [Directive.rule names] } source =
        normalize split.opening ++ split.marks.flatMap (fun mark =>
          normalize (mark.directive.toMarkup names) ++ normalize mark.gap) ∧
      ∀ mark ∈ split.marks,
        lineCount (normalize (mark.directive.toMarkup names)) =
          ownLines mark.directive + returnCount mark.directive ∧
        (lineCount (normalize (mark.directive.toMarkup names)) = ownLines mark.directive ↔
          ∀ p ∈ mark.directive.properties, '\r' ∉ p.2) := by
  obtain ⟨split, hsplit, -, hexpand⟩ :=
    Directive.exists_split (earlier.foldl (fun s rule => rule.apply s) source)
  have hpage := preprocess_concat names earlier source
  rw [hexpand, normalize_expansion] at hpage
  refine ⟨split, hsplit, hpage, fun mark _ => ?_⟩
  have hlines := lineCount_normalize_toMarkup h mark.directive
  refine ⟨hlines, ?_⟩
  rw [hlines, ← returnCount_eq_zero_iff]
  omega

/-- The names that are used if no others are set: line feeds and null characters in an expression do
no harm. -/
theorem preprocess_lines_interactive :
    let source := "```lambda-interactive\nc\n---t\na\n\x00b\n```".toList
    Settings.componentProblems {} = [] ∧
    ∃ split : Directive.Split, split.IsOf source ∧
      preprocess { rules := [Directive.rule {}] } source =
        normalize split.opening ++ split.marks.flatMap (fun mark =>
          normalize (mark.directive.toMarkup {}) ++ normalize mark.gap) ∧
      ∀ mark ∈ split.marks,
        lineCount (normalize (mark.directive.toMarkup {})) = ownLines mark.directive ↔
          ∀ p ∈ mark.directive.properties, '\r' ∉ p.2 := by
  intro source
  have hnames : Settings.componentProblems {} = [] := by decide
  obtain ⟨split, hsplit, hpage, hlines⟩ := preprocess_lines {} hnames [] source
  rw [List.foldl_nil] at hsplit
  rw [List.nil_append] at hpage
  exact ⟨hnames, split, hsplit, hpage, fun mark hmark => (hlines mark hmark).2⟩

/-- **A tag on two lines**: the carriage return in an expression becomes a line feed. -/
theorem preprocess_splitTag :
    Directive.scan "l`a\rb`".toList = [.reference "a\rb".toList] ∧
      preprocess { rules := [Directive.rule {}] } "l`a\rb`".toList =
        "<LambdaStatic exp=\"a\nb\" />".toList := by
  decide +kernel

end Lectern.Pipeline
