import Lectern.Pipeline
import Lectern.Proofs.Directive.Inline
import Lectern.Proofs.Shorthand

/-!
# Texts That Are Settled

One pass of the standard pipeline leaves nothing for a second one, as long as the source has no
fenced directives. A text is **settled** if it has nothing that the pipeline rewrites: no opening
fence of a directive, no token, no quoted source, and no character that is unified away. A settled
text stays as it is, and the pipeline makes settled texts of inline sources.

Each stage keeps what the stages before it have reached. What a stage writes is inert, so no token
and no fence comes about, neither in it nor at its edges; and the elements of the inline stages
bring no quoted source about.

## Main results

* `IsSettled.preprocess_eq`, `IsSettled.scan_eq_nil`: the pipeline leaves a settled text as it is.
* `IsInline.isSettled_preprocess`: the pipeline makes settled texts of inline sources.
* `preprocess_idempotent`: a second pass changes nothing.
-/

namespace Lectern.Pipeline

open Text
open Directive (BeginsLine openers)

/-! ### Unified characters -/

/-- The character that stands for `c` when null characters are unified. -/
def unifyNull (c : Char) : Char := if c == '\x00' then '\uFFFD' else c

/-- Only null characters become the replacement character. -/
theorem eq_of_unifyNull_eq {c d : Char} (h : unifyNull c = d) (hd : d ≠ '\uFFFD') : c = d := by
  unfold unifyNull at h
  split at h
  · exact absurd h.symm hd
  · exact h

/-- A text without carriage returns has its line ends unified. -/
theorem unifyLineEnds_eq_self {s : Text} (h : '\r' ∉ s) :
    Markdown.Document.unifyLineEnds s = s := by
  fun_induction Markdown.Document.unifyLineEnds s <;> simp_all

/-- Normalizing changes single characters of a text without carriage returns. -/
theorem normalize_eq_map {s : Text} (h : '\r' ∉ s) : normalize s = s.map unifyNull := by
  rw [normalize, unifyLineEnds_eq_self h]
  rfl

/-- Unifying null characters writes inert parts. -/
theorem inertlyRecast_map_unifyNull (s : Text) : InertlyRecast s (s.map unifyNull) := by
  induction s with
  | nil => exact .nil
  | cons c s ih =>
    have hchar : InertlyRecast [c] [unifyNull c] := by
      unfold unifyNull
      split
      · exact .single (by decide)
      · exact .refl [c]
    exact hchar.append ih

/-- A text without null characters stays as it is. -/
theorem map_unifyNull_eq_self {s : Text} (h : '\x00' ∉ s) : s.map unifyNull = s := by
  have hsame : ∀ c ∈ s, unifyNull c = c := fun c hc =>
    if_neg (by simpa using ne_of_mem_of_not_mem hc h)
  rw [List.map_congr_left hsame, List.map_id']

/-- No null character is left. -/
theorem null_not_mem_map_unifyNull (s : Text) : '\x00' ∉ s.map unifyNull := by
  intro hmem
  obtain ⟨c, -, hc⟩ := List.mem_map.1 hmem
  obtain rfl := eq_of_unifyNull_eq hc (by decide)
  exact absurd hc (by decide)

/-- What has no replacement character was there before null characters were unified. -/
theorem eq_of_map_unifyNull_eq {s t : Text} (h : s.map unifyNull = t) (ht : '\uFFFD' ∉ t) :
    s = t := by
  have hsame : ∀ c ∈ s, unifyNull c = c := fun c hc => by
    have hmem : unifyNull c ∈ t := h ▸ List.mem_map_of_mem hc
    exact (eq_of_unifyNull_eq rfl (ne_of_mem_of_not_mem hmem ht)).symm
  rw [← h, List.map_congr_left hsame, List.map_id']

/-- The edges of words were there before null characters were unified. -/
theorem startsWord_of_map_unifyNull {before : Text} (h : StartsWord (before.map unifyNull)) :
    StartsWord before := by
  intro c hc
  have hlast : unifyNull c ∈ (before.map unifyNull).getLast? := by
    rw [List.getLast?_map]
    exact Option.mem_map_of_mem _ hc
  have hedge := h _ hlast
  -- A null character is no part of a word, and neither is its replacement.
  unfold unifyNull at hedge
  split at hedge
  · next hnull =>
    obtain rfl : c = '\x00' := by simpa using hnull
    decide
  · exact hedge

/-- Quoted bodies were there before null characters were unified. -/
theorem opens_of_map_unifyNull {s : Text} (h : Opens (s.map unifyNull)) : Opens s := by
  obtain ⟨body, after, heq, hne, hbody⟩ := h
  obtain ⟨body', rest, rfl, rfl, hrest⟩ := List.map_eq_append_iff.1 heq
  obtain ⟨c, after', rfl, hc, -⟩ := List.map_eq_cons_iff.1 hrest
  obtain rfl := eq_of_unifyNull_eq hc (by decide)
  refine ⟨body', after', rfl, by simpa using hne, fun c hc => ?_⟩
  have hkept := hbody _ (List.mem_map_of_mem hc)
  refine ⟨?_, ?_⟩
  · rintro rfl
    exact hkept.1 rfl
  · rintro rfl
    exact hkept.2 rfl

/-- **Quoted sources** were there before null characters were unified. -/
theorem hasQuoted_of_map_unifyNull {marker s : Text} (hmarker : '\uFFFD' ∉ marker)
    (h : HasQuoted marker (s.map unifyNull)) : HasQuoted marker s := by
  obtain ⟨_, after, heq, hquoted⟩ := h
  obtain ⟨before, rest, rfl, rfl, rfl⟩ := List.map_eq_append_iff.1 heq
  obtain ⟨hedge, behind, hrest, hopens⟩ := quotedAt_iff.1 hquoted
  obtain ⟨front, _, rfl, hfront, hlater⟩ := List.map_eq_append_iff.1 hrest
  obtain rfl := eq_of_map_unifyNull_eq hfront hmarker
  obtain ⟨c, later, rfl, hc, rfl⟩ := List.map_eq_cons_iff.1 hlater
  obtain rfl := eq_of_unifyNull_eq hc (by decide)
  exact ⟨before, _, rfl, quotedAt_iff.2
    ⟨startsWord_of_map_unifyNull hedge, later, rfl, opens_of_map_unifyNull hopens⟩⟩

/-! ### Settled texts -/

/-- The tokens of the standard shorthands. -/
def tokens : List Text := ["\x7bL\x7d".toList, "\x7bl\x7d".toList]

/-- The markers of quoted sources: for inline code of the older form, definitions and references. -/
def markers : List Text := ["L".toList, "dL".toList, "l".toList]

/-- An **inline** source: no carriage return, and no line that begins with the opening fence of a
directive. -/
structure IsInline (s : Text) : Prop where
  no_return : '\r' ∉ s
  no_opener : ∀ opener ∈ openers, ¬ BeginsLine opener s

/-- A **settled** text: an inline one without null characters, tokens and quoted sources. -/
structure IsSettled (s : Text) : Prop extends IsInline s where
  no_null : '\x00' ∉ s
  no_token : ∀ token ∈ tokens, ¬ token <:+: s
  no_quoted : ∀ marker ∈ markers, ¬ HasQuoted marker s

section Stage

variable {s t : Text}

/-- Rewriting by inert parts keeps a source inline. -/
theorem IsInline.of_inertlyRecast (hs : IsInline s) (h : InertlyRecast s t) : IsInline t where
  no_return hmem :=
    hs.no_return (h.mem (fun hinert hwritten => hinert.others _ hwritten (by decide)) hmem)
  no_opener opener hopener hline := by
    have hsigns : ∀ opener ∈ openers, Avoids opener signs := by decide
    exact hs.no_opener opener hopener (hline.of_inertlyRecast h (hsigns opener hopener))

/-- Rewriting by inert parts brings no token about. -/
theorem not_infix_of_inertlyRecast {token : Text} (htoken : token ∈ tokens)
    (hs : ¬ token <:+: s) (h : InertlyRecast s t) : ¬ token <:+: t := by
  have hshape : ∀ token ∈ tokens, token.head? = some '\x7b' ∧ Avoids token signs := by decide
  obtain ⟨hfirst, hsigns⟩ := hshape token htoken
  obtain ⟨rest, rfl⟩ := List.head?_eq_some_iff.1 hfirst
  exact fun hfound => hs (infix_of_inertlyRecast h (by decide) hsigns hfound)

/-- The shorthand for the name of the calculus. -/
def calculusName : Shorthand := .literal "\x7bL\x7d".toList "λ-calculus".toList

/-- The shorthand for the letter of the calculus. -/
def calculusLetter : Shorthand := .literal "\x7bl\x7d".toList "λ".toList

/-- The standard shorthands, one after the other. -/
theorem standard_apply (s : Text) : ShorthandSet.standard.apply s =
    Shorthand.quotedCode.apply (calculusLetter.apply (calculusName.apply s)) := rfl

/-- **The standard shorthands** leave no token and no inline code of the older form. -/
theorem IsInline.shorthands (h : IsInline s) : IsInline (ShorthandSet.standard.apply s) ∧
    (∀ token ∈ tokens, ¬ token <:+: ShorthandSet.standard.apply s) ∧
    ¬ HasQuoted "L".toList (ShorthandSet.standard.apply s) := by
  have hname : InertlyRecast s (calculusName.apply s) :=
    Shorthand.inertlyRecast_literal (by decide) (by decide) s
  have hnameless : ¬ "\x7bL\x7d".toList <:+: calculusName.apply s :=
    Shorthand.not_infix_literal (by decide) (by decide) (by decide) s
  rw [standard_apply]
  -- A rule is forgotten as soon as it is known what it leaves; the next one starts from any text.
  generalize calculusName.apply s = s₁ at *
  have hletter : InertlyRecast s₁ (calculusLetter.apply s₁) :=
    Shorthand.inertlyRecast_literal (by decide) (by decide) s₁
  have hletterless : ¬ "\x7bl\x7d".toList <:+: calculusLetter.apply s₁ :=
    Shorthand.not_infix_literal (by decide) (by decide) (by decide) s₁
  generalize calculusLetter.apply s₁ = s₂ at *
  have hcode := Shorthand.inertlyRecast_quotedCode s₂
  refine ⟨((h.of_inertlyRecast hname).of_inertlyRecast hletter).of_inertlyRecast hcode,
    fun token htoken => not_infix_of_inertlyRecast htoken ?_ hcode,
    Shorthand.not_hasQuoted_quotedCode s₂⟩
  rcases List.mem_pair.1 htoken with rfl | rfl
  · exact not_infix_of_inertlyRecast htoken hnameless hletter
  · exact hletterless

/-- **Expanding directives** leaves no quoted source, and no token that there was not before. -/
theorem IsInline.expand (h : IsInline s) (htokens : ∀ token ∈ tokens, ¬ token <:+: s)
    (hcode : ¬ HasQuoted "L".toList s) : IsInline (Directive.expand {} s) ∧
    (∀ token ∈ tokens, ¬ token <:+: Directive.expand {} s) ∧
    ∀ marker ∈ markers, ¬ HasQuoted marker (Directive.expand {} s) := by
  have hrecast := Directive.inertlyRecast_expand h.no_opener
  refine ⟨h.of_inertlyRecast hrecast, fun token htoken =>
    not_infix_of_inertlyRecast htoken (htokens token htoken) hrecast, fun marker hmarker => ?_⟩
  have hsigns : ∀ marker ∈ markers, Avoids marker ('>' :: signs) := by decide
  refine (Directive.walk_inline? h.no_opener).not_hasQuoted Directive.isElement_of_inline?
    (hsigns marker hmarker) fun earlier later heq hnone => ?_
  obtain ⟨hdefinition, hreference⟩ := Directive.inline?_eq_none_iff.1 hnone
  -- No inline code of the older form was left before; the other two markers are looked for here.
  rcases List.mem_cons.1 hmarker with rfl | hmarker
  · exact fun hquoted => hcode ⟨earlier, later, heq, hquoted⟩
  rcases List.mem_pair.1 hmarker with rfl | rfl
  · exact hdefinition
  · exact hreference

/-- **Normalizing** settles a text without tokens and quoted sources. -/
theorem IsInline.isSettled_normalize (h : IsInline s) (htokens : ∀ token ∈ tokens, ¬ token <:+: s)
    (hmarkers : ∀ marker ∈ markers, ¬ HasQuoted marker s) : IsSettled (normalize s) := by
  have hforeign : ∀ marker ∈ markers, '\uFFFD' ∉ marker := by decide
  have hrecast := inertlyRecast_map_unifyNull s
  rw [normalize_eq_map h.no_return]
  exact {
    h.of_inertlyRecast hrecast with
    no_null := null_not_mem_map_unifyNull s
    no_token := fun token htoken =>
      not_infix_of_inertlyRecast htoken (htokens token htoken) hrecast
    no_quoted := fun marker hmarker hquoted =>
      hmarkers marker hmarker (hasQuoted_of_map_unifyNull (hforeign marker hmarker) hquoted) }

/-- The stages of the standard pipeline. -/
theorem standard_preprocess (s : Text) : standard.preprocess s =
    normalize (Directive.expand {} (ShorthandSet.standard.apply s)) := by
  have hrules : standard.rules = [ShorthandSet.standard.rule, Directive.rule {}] := rfl
  rw [preprocess, hrules]
  rfl

/-- **The standard pipeline settles inline sources.** -/
theorem IsInline.isSettled_preprocess (h : IsInline s) : IsSettled (standard.preprocess s) := by
  rw [standard_preprocess]
  obtain ⟨hinline, htokens, hcode⟩ := h.shorthands
  obtain ⟨hinline', htokens', hmarkers⟩ := hinline.expand htokens hcode
  exact hinline'.isSettled_normalize htokens' hmarkers

end Stage

/-! ### A second pass -/

namespace IsSettled

variable {s : Text}

/-- No directive is found in a settled text. -/
theorem pieces_eq (h : IsSettled s) : pieces Directive.occurrence? s = s.map .kept :=
  Directive.pieces_occurrence?_eq h.no_opener (h.no_quoted _ (by decide))
    (h.no_quoted _ (by decide))

/-- **A settled text has no directives.** -/
theorem scan_eq_nil (h : IsSettled s) : Directive.scan s = [] := by
  rw [Directive.scan, h.pieces_eq, hits_map_kept]
  rfl

/-- **The standard pipeline leaves a settled text as it is.** -/
theorem preprocess_eq (h : IsSettled s) : standard.preprocess s = s := by
  have hname : calculusName.apply s = s :=
    Shorthand.apply_literal_eq_self (by decide) (h.no_token _ (by decide))
  have hletter : calculusLetter.apply s = s :=
    Shorthand.apply_literal_eq_self (by decide) (h.no_token _ (by decide))
  have hcode : Shorthand.quotedCode.apply s = s :=
    Shorthand.apply_quotedCode_eq_self (h.no_quoted _ (by decide))
  have hexpand : Directive.expand {} s = s := by
    rw [Directive.expand, h.pieces_eq, rewriteHits_map_kept]
  rw [standard_preprocess, standard_apply, hname, hletter, hcode, hexpand,
    normalize_eq_map h.no_return, map_unifyNull_eq_self h.no_null]

end IsSettled

/-- **Preprocessing is idempotent on inline sources**: the standard pipeline leaves no directive
behind, and nothing else that it would rewrite, so a second pass changes nothing. -/
theorem preprocess_idempotent {s : Text} (h : IsInline s) :
    standard.preprocess (standard.preprocess s) = standard.preprocess s ∧
      Directive.scan (standard.preprocess s) = [] ∧ IsSettled (standard.preprocess s) := by
  have hsettled := h.isSettled_preprocess
  exact ⟨hsettled.preprocess_eq, hsettled.scan_eq_nil, hsettled⟩

/-- A line with each of the shorthands and inline directives, and with markers that are none. -/
theorem preprocess_idempotent_line :
    let source : Text :=
      "\x7bL\x7d: \x7bl\x7dx, dL`I := \"x\"`, l`a & b`, L`\x7bl\x7d`; not zl`a` or l``\x00".toList
    let settled : Text :=
      "λ-calculus: λx, <LambdaDef exp=\"I := &quot;x&quot;\" :block=\"false\" />, ".toList ++
        "<LambdaStatic exp=\"a &amp; b\" />, <code>λ</code>; not zl`a` or l``\uFFFD".toList
    IsInline source ∧ standard.preprocess source = settled ∧
      standard.preprocess settled = settled ∧ Directive.scan settled = [] := by
  intro source settled
  have hopeners : ∀ opener ∈ openers, ¬ (opener <+: source ∨ '\n' :: opener <:+: source) := by
    decide +kernel
  have hinline : IsInline source := ⟨by decide +kernel, fun opener hopener hline =>
    hopeners opener hopener (Directive.beginsLine_iff.1 hline)⟩
  have hpass : standard.preprocess source = settled := by decide +kernel
  obtain ⟨hagain, hscan, -⟩ := preprocess_idempotent hinline
  rw [hpass] at hagain hscan
  exact ⟨hinline, hpass, hagain, hscan⟩

end Lectern.Pipeline
