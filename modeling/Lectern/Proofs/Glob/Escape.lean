import Lectern.Glob
import Lectern.Proofs.Path.Display

/-!
# Escaped Globs

An escaped text is a glob that leaves nothing open. Its steps are those of the text, and each of
them matches the name that it is and no other.

## Main results

* `splitOnChar_escape`: escaping a path escapes its steps.
* `isNameMatch_escape`: an escaped text matches itself alone.
-/

namespace Lectern.Glob

/-! ### Steps -/

variable {s t : Text} {c : Char} {name : Bytes}

/-- **Escaping** a text escapes its pieces between slashes. -/
theorem splitOnChar_escape (s : Text) :
    Text.splitOnChar '/' (escape s) = (Text.splitOnChar '/' s).map escape := by
  rw [Text.splitOnChar_eq_splitOn, Text.splitOnChar_eq_splitOn]
  refine @Text.splitOn_flatMap Char Char _ _ _ '/' '/' rfl (fun c hc => ?_) s
  split <;> simp [Ne.symm hc]

/-! ### Patterns -/

/-- The token of an escaped character. -/
def escapedToken (c : Char) : Token := if isSpecial c then .quoted c else .plain c

/-- A character that is not special stands for itself. -/
theorem tokens_cons (hc : isSpecial c = false) (s : Text) :
    tokens (c :: s) = .plain c :: tokens s := by
  simp only [isSpecial, Bool.or_eq_false_iff, beq_eq_false_iff_ne, ne_eq] at hc
  rw [tokens] <;> simp_all

/-- The pattern of an escaped text. -/
theorem tokens_escape (s : Text) : tokens (escape s) = s.map escapedToken := by
  induction s with
  | nil => rfl
  | cons c s ih =>
    have hescape : escape (c :: s) = escape [c] ++ escape s := by simp [escape]
    rw [hescape, List.map_cons, ← ih, escapedToken]
    by_cases hc : isSpecial c = true
    · simp [escape, hc, tokens]
    · rw [if_neg hc, ← tokens_cons (Bool.eq_false_iff.2 hc)]
      simp [escape, hc]

/-- An escaped text has open parts or brackets if it had to be escaped. -/
theorem literal?_escape (s : Text) :
    literal? (tokens (escape s)) = if s.any isSpecial then none else some s := by
  rw [tokens_escape]
  induction s with
  | nil => rfl
  | cons c s ih =>
    rw [List.map_cons, escapedToken]
    cases hc : isSpecial c with
    | true => simp [literal?, hc]
    | false => cases hs : s.any isSpecial <;> simp [literal?, ih, hc, hs]

/-- **An escaped text** matches itself alone. -/
theorem isMatch_escape : isMatch (tokens (escape s)) t = true ↔ t = s := by
  rw [tokens_escape]
  induction s generalizing t with
  | nil => cases t <;> simp [isMatch]
  | cons c s ih =>
    rw [List.map_cons, escapedToken]
    cases t with
    | nil => split <;> simp [isMatch]
    | cons d t => split <;> simp [isMatch, ih, @eq_comm _ c d]

/-- **The name** that matches an escaped text is the one with its bytes. -/
theorem isNameMatch_escape : isNameMatch (tokens (escape s)) name = true ↔
    name = Text.encode s := by
  rw [← Text.decode?_eq_some_iff, isNameMatch]
  cases Text.decode? name with
  | none => simp
  | some t => simpa using isMatch_escape

/-- An escaped text is one step. -/
theorem ofText_escape (s : Text) : Step.ofText (escape s) = .name (tokens (escape s)) := by
  rw [Step.ofText, if_neg]
  intro heq
  -- two stars would be two open parts, and an escaped text has none
  have htokens := tokens_escape s
  rw [heq] at htokens
  cases s with
  | nil => cases htokens
  | cons c s =>
    have hfirst : Token.gap = escapedToken c := (List.cons.inj htokens).1
    rw [escapedToken] at hfirst
    split at hfirst <;> cases hfirst

end Lectern.Glob
