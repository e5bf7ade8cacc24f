import Lectern.Proofs.Text.Basic
import Lectern.Text.Scan

/-!
# The Walk over a Text

`pieces` walks a text with a counter for the characters that the last occurrence still covers.
This module states the walk without the counter: `Walk` is the relation of a walk that either
keeps one character, where nothing is found, or takes a whole occurrence at once. The rules that
rewrite a source are proved by induction on it.

## Main results

* `walk_piecesFrom`: the pieces of a text are those of its walk, for every finder that fits.
* `quoted?_eq_some_iff`: what the finder of quoted bodies finds.
-/

namespace Lectern.Text

open Unicode (isWord)

/-! ### Walks -/

section Walk

variable {α : Type} {find : Finder α} {before s : Text} {ps : List (Piece α)}

/-- A finder **fits** if what it finds is not empty and lies within the text. -/
def Fits (find : Finder α) : Prop :=
  ∀ {before s occurrence length}, find before s = some (occurrence, length) →
    0 < length ∧ length ≤ s.length

/-- The **walk** over a text that follows `before` (nearest character first): it keeps a
character where nothing is found, and otherwise goes on behind the occurrence. -/
inductive Walk (find : Finder α) : Text → Text → List (Piece α) → Prop
  | nil {before : Text} : Walk find before [] []
  | kept {before rest : Text} {c : Char} {ps : List (Piece α)} :
      find before (c :: rest) = none → Walk find (c :: before) rest ps →
      Walk find before (c :: rest) (.kept c :: ps)
  | hit {before source after : Text} {occurrence : α} {ps : List (Piece α)} :
      find before (source ++ after) = some (occurrence, source.length) → source ≠ [] →
      Walk find (source.reverse ++ before) after ps →
      Walk find before (source ++ after) (.hit occurrence :: ps)

/-- There is nothing in no pieces. -/
@[simp] theorem hits_nil : hits ([] : List (Piece α)) = [] := rfl

/-- A character that is kept is no occurrence. -/
@[simp] theorem hits_kept {c : Char} : hits (.kept c :: ps) = hits ps := rfl

/-- An occurrence is found before those behind it. -/
@[simp] theorem hits_hit {occurrence : α} :
    hits (.hit occurrence :: ps) = occurrence :: hits ps := rfl

/-- No pieces make the empty text. -/
@[simp] theorem rewriteHits_nil {write : α → Text} : rewriteHits write [] = [] := rfl

/-- A character that is kept stands in the text. -/
@[simp] theorem rewriteHits_kept {write : α → Text} {c : Char} :
    rewriteHits write (.kept c :: ps) = c :: rewriteHits write ps := rfl

/-- An occurrence gives way to what is written for it. -/
@[simp] theorem rewriteHits_hit {write : α → Text} {occurrence : α} :
    rewriteHits write (.hit occurrence :: ps) = write occurrence ++ rewriteHits write ps := rfl

/-- Pieces behind each other have their occurrences behind each other. -/
@[simp] theorem hits_append (ps qs : List (Piece α)) : hits (ps ++ qs) = hits ps ++ hits qs :=
  List.filterMap_append

/-- Pieces behind each other are rewritten behind each other. -/
@[simp] theorem rewriteHits_append (write : α → Text) (ps qs : List (Piece α)) :
    rewriteHits write (ps ++ qs) = rewriteHits write ps ++ rewriteHits write qs :=
  List.flatMap_append

/-- The characters that an occurrence covers add nothing to the pieces. -/
theorem piecesFrom_append (find : Finder α) (before source after : Text) :
    piecesFrom find before source.length (source ++ after) =
      piecesFrom find (source.reverse ++ before) 0 after := by
  induction source generalizing before with
  | nil => rfl
  | cons c source ih => simpa [piecesFrom] using ih (c :: before)

/-- The piece of an occurrence, and those of the text behind it. -/
theorem piecesFrom_hit {source after : Text} {occurrence : α} (hne : source ≠ [])
    (h : find before (source ++ after) = some (occurrence, source.length)) :
    piecesFrom find before 0 (source ++ after) =
      .hit occurrence :: piecesFrom find (source.reverse ++ before) 0 after := by
  obtain ⟨c, source, rfl⟩ := List.exists_cons_of_ne_nil hne
  rw [List.cons_append] at h ⊢
  simp only [piecesFrom, h, List.length_cons, Nat.add_sub_cancel]
  rw [piecesFrom_append]
  simp

/-- The piece of a character where nothing is found, and those of the text behind it. -/
theorem piecesFrom_kept {c : Char} {rest : Text} (h : find before (c :: rest) = none) :
    piecesFrom find before 0 (c :: rest) = .kept c :: piecesFrom find (c :: before) 0 rest := by
  simp only [piecesFrom, h]

/-- **The pieces are those of the walk.** Strong induction on the length of the text, since an
occurrence takes many characters at once. -/
theorem walk_piecesFrom (fits : Fits find) (before s : Text) :
    Walk find before s (piecesFrom find before 0 s) := by
  match s with
  | [] => exact .nil
  | c :: rest =>
    match h : find before (c :: rest) with
    | none =>
      rw [piecesFrom_kept h]
      exact .kept h (walk_piecesFrom fits (c :: before) rest)
    | some (occurrence, length) =>
      obtain ⟨hpos, hle⟩ := fits h
      obtain ⟨source, after, hs, rfl⟩ :
          ∃ source after, c :: rest = source ++ after ∧ source.length = length :=
        ⟨_, _, (List.take_append_drop length _).symm, List.length_take_of_le hle⟩
      have hne : source ≠ [] := List.length_pos_iff.1 hpos
      have hshort : after.length < (c :: rest).length := by
        rw [hs, List.length_append]
        omega
      rw [hs] at h ⊢
      rw [piecesFrom_hit hne h]
      exact .hit h hne (walk_piecesFrom fits _ after)
termination_by s.length
decreasing_by
  · exact Nat.lt_succ_self rest.length
  · exact hshort

end Walk

/-! ### Quoted bodies -/

/-- Whether a place that `before` leads up to is at the edge of a word: no word character stands
right before it. -/
def StartsWord (before : Text) : Prop := ∀ c ∈ before.getLast?, isWord c = false

/-- **Quoted source**: at the edge of a word the marker, and in backticks a body that is not
empty and has neither a backtick nor a line end. -/
def IsQuoted (marker before source body : Text) : Prop :=
  StartsWord before ∧ source = marker ++ '\x60' :: (body ++ ['\x60']) ∧ body ≠ [] ∧
    ∀ c ∈ body, c ≠ '\x60' ∧ c ≠ '\n'

/-- The edges of words as the finders see them. -/
theorem atWordEdge_iff {before : Text} : atWordEdge before.reverse = true ↔ StartsWord before := by
  unfold StartsWord
  rw [← List.head?_reverse]
  cases before.reverse <;> simp [atWordEdge]

/-- The characters of quoted bodies. -/
theorem isQuotable_iff {c : Char} : isQuotable c = true ↔ c ≠ '\x60' ∧ c ≠ '\n' := by
  simp [isQuotable]

/-- **The finder of quoted bodies finds exactly the quoted sources.** -/
theorem quoted?_eq_some_iff {marker before s body : Text} {length : Nat} :
    quoted? (marker ++ ['\x60']) before.reverse s = some (body, length) ↔
      ∃ source after, s = source ++ after ∧ source.length = length ∧
        IsQuoted marker before source body := by
  constructor
  · intro h
    unfold quoted? at h
    split at h <;> try contradiction
    next hedge =>
    split at h <;> try contradiction
    next rest hrest =>
    rw [after?_eq_some_iff] at hrest
    simp only at h
    split at h <;> try contradiction
    next c body' after hbody hclose =>
    simp only [Option.some.injEq, Prod.mk.injEq] at h
    obtain ⟨rfl, rfl⟩ := h
    have hquotable : ∀ c ∈ rest.takeWhile isQuotable, c ≠ '\x60' ∧ c ≠ '\n' := fun c hc =>
      isQuotable_iff.1 (List.all_eq_true.1 List.all_takeWhile c hc)
    have hsplit : rest.takeWhile isQuotable ++ '\x60' :: after = rest := by
      rw [← hclose]
      exact List.prefix_iff_eq_append.1 (List.takeWhile_prefix _)
    generalize rest.takeWhile isQuotable = body at *
    subst hsplit hrest
    exact ⟨marker ++ '\x60' :: (body ++ ['\x60']), after, by simp, by simp; omega,
      atWordEdge_iff.1 hedge, rfl, by simp [hbody], hquotable⟩
  · rintro ⟨source, after, rfl, rfl, hedge, rfl, hne, hquotable⟩
    have hafter : after? (marker ++ ['\x60'])
        (marker ++ '\x60' :: (body ++ ['\x60']) ++ after) = some (body ++ '\x60' :: after) := by
      rw [after?_eq_some_iff]
      simp
    have htake : (body ++ '\x60' :: after).takeWhile isQuotable = body :=
      takeWhile_append_of_head (fun c hc => isQuotable_iff.2 (hquotable c hc))
        (by simp [isQuotable])
    obtain ⟨c, body, rfl⟩ := List.exists_cons_of_ne_nil hne
    unfold quoted?
    rw [if_pos (atWordEdge_iff.2 hedge), hafter]
    simp only [htake, List.drop_left']
    simp
    omega

end Lectern.Text
