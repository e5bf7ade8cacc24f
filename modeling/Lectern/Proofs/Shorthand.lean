import Lectern.Proofs.Text.Element
import Lectern.Shorthand

/-!
# What Shorthands Leave Behind

A rule for a token with an inert replacement leaves no occurrence of the token behind: none starts
where a character is kept, since the rule would have found it, and none starts in a replacement. The
rule for the older form of inline code writes elements.

## Main results

* `not_infix_literal`, `not_hasQuoted_quotedCode`: what has been rewritten is gone.
* `apply_literal_eq_self`, `apply_quotedCode_eq_self`: a text without occurrences stays as it is.
-/

namespace Lectern.Shorthand

open Text

/-! ### Tokens -/

/-- What the finder of a token finds. -/
theorem token?_eq_some_iff {token before s : Text} {occurrence : Unit} {length : Nat} :
    token? token before s = some (occurrence, length) ↔ token <+: s ∧ token.length = length := by
  unfold token?
  split
  · next h => simp [List.isPrefixOf_iff_prefix.1 h]
  · next h => simp [mt List.isPrefixOf_iff_prefix.2 h]

/-- The finder of a token finds nothing where the token does not stand. -/
theorem token?_eq_none_iff {token before s : Text} :
    token? token before s = none ↔ ¬ token <+: s := by
  rw [Option.eq_none_iff_forall_ne_some]
  exact ⟨fun h hstart => h ((), _) (token?_eq_some_iff.2 ⟨hstart, rfl⟩),
    fun h found hfound => h (token?_eq_some_iff.1 hfound).1⟩

/-- The finder of a token fits. -/
theorem fits_token? {token : Text} (hne : token ≠ []) : Fits (token? token) := by
  intro before s occurrence length h
  obtain ⟨hstart, rfl⟩ := token?_eq_some_iff.1 h
  exact ⟨List.length_pos_iff.2 hne, hstart.length_le⟩

/-- The rule of a token rewrites what its finder finds. -/
theorem apply_literal {token : Text} (hne : token ≠ []) (replacement s : Text) :
    (literal token replacement).apply s =
      rewriteHits (fun _ => replacement) (pieces (token? token) s) := by
  cases token with
  | nil => contradiction
  | cons c token => rfl

/-- The rule of a token writes inert parts, if its replacement is inert. -/
theorem inertlyRecast_literal {token replacement : Text} (hne : token ≠ [])
    (hinert : IsInert replacement) (s : Text) :
    InertlyRecast s ((literal token replacement).apply s) := by
  rw [apply_literal hne]
  exact (walk_piecesFrom (fits_token? hne) [] s).recast fun _ => .single hinert

/-- **A token that has been rewritten is gone**, if its replacement is inert. Induction on the walk:
where a character is kept no token starts, and none starts in a replacement. -/
theorem not_infix_literal {c : Char} {rest replacement : Text} (hinert : IsInert replacement)
    (hc : c ∈ edges) (hsigns : Avoids (c :: rest) signs) (s : Text) :
    ¬ c :: rest <:+: (literal (c :: rest) replacement).apply s := by
  rw [apply_literal (List.cons_ne_nil c rest)]
  have hwalk : Walk (token? (c :: rest)) [] s (pieces (token? (c :: rest)) s) :=
    walk_piecesFrom (fits_token? (List.cons_ne_nil c rest)) [] s
  generalize pieces (token? (c :: rest)) s = ps at hwalk
  generalize [] = before at hwalk
  induction hwalk with
  | nil => simp
  | @kept before later d ps hnone hwalk ih =>
    intro hfound
    rw [rewriteHits_kept] at hfound
    rcases List.infix_cons_iff.1 hfound with hfirst | hlater
    · have hrecast : InertlyRecast (d :: later)
          (d :: rewriteHits (fun _ => replacement) ps) :=
        .keep (hwalk.recast fun _ => .single hinert)
      exact token?_eq_none_iff.1 hnone
        (hrecast.prefix_before (fun hinert => hinert.foreign hsigns) hfirst)
    · exact ih hlater
  | hit _ _ _ ih =>
    intro hfound
    rw [rewriteHits_hit] at hfound
    exact ih (Recast.infix_of_infix_append (fun hmem => hinert.others c hmem hc) hfound)

/-- A text without a token stays as it is. -/
theorem apply_literal_eq_self {token replacement s : Text} (hne : token ≠ [])
    (h : ¬ token <:+: s) : (literal token replacement).apply s = s := by
  have hnone : ∀ earlier later, s = earlier ++ later →
      token? token earlier.reverse later = none := by
    rintro earlier later rfl
    exact token?_eq_none_iff.2 fun hstart =>
      h (hstart.isInfix.trans (List.suffix_append _ _).isInfix)
  rw [apply_literal hne, pieces_eq_map_kept hnone, rewriteHits_map_kept]

/-! ### The older form of inline code -/

/-- The marker of the older form of inline code. -/
def codeMarker : Text := "L".toList

/-- A `code` element for its source. -/
theorem isElement_of_quotedCode? {before source after body : Text}
    (h : quotedCode? before (source ++ after) = some (body, source.length)) :
    IsElement source (codeElement body) := by
  have hquoted : IsQuoted codeMarker before.reverse source body := isQuoted_of_quoted? h
  have helement : codeElement body = "<code>".toList ++ (body ++ "</code>".toList) :=
    List.append_assoc _ _ _
  rw [helement]
  exact .of_isQuoted hquoted (by decide) (by decide) (.refl body) (by decide)
    (by decide) (by decide)

/-- The finder of the older form of inline code fits. -/
theorem fits_quotedCode? : Fits quotedCode? := by
  intro before s body length h
  rw [← List.reverse_reverse before] at h
  have h' : quoted? (codeMarker ++ ['\x60']) before.reverse.reverse s = some (body, length) := h
  obtain ⟨source, after, rfl, rfl, -, rfl, -⟩ := quoted?_eq_some_iff.1 h'
  exact ⟨List.length_pos_iff.2 (by simp), by simp⟩

/-- The walk of the older form of inline code. -/
theorem walk_quotedCode? (s : Text) : Walk quotedCode? [] s (pieces quotedCode? s) :=
  walk_piecesFrom fits_quotedCode? [] s

/-- The older form of inline code is rewritten by inert parts. -/
theorem inertlyRecast_quotedCode (s : Text) : InertlyRecast s (quotedCode.apply s) :=
  (walk_quotedCode? s).recast fun hfound => (isElement_of_quotedCode? hfound).recast

/-- **Inline code of the older form that has been rewritten is gone.** -/
theorem not_hasQuoted_quotedCode (s : Text) : ¬ HasQuoted codeMarker (quotedCode.apply s) := by
  refine (walk_quotedCode? s).not_hasQuoted isElement_of_quotedCode? (by decide) ?_
  exact fun earlier later _ hnone => quoted?_eq_none_iff.1 hnone

/-- A text without inline code of the older form stays as it is. -/
theorem apply_quotedCode_eq_self {s : Text} (h : ¬ HasQuoted codeMarker s) :
    quotedCode.apply s = s := by
  have hnone : ∀ earlier later, s = earlier ++ later → quotedCode? earlier.reverse later = none :=
    fun earlier later heq => quoted?_eq_none_iff.2 fun hquoted => h ⟨earlier, later, heq, hquoted⟩
  rw [apply, pieces_eq_map_kept hnone, rewriteHits_map_kept]

end Lectern.Shorthand
