import Lectern.Proofs.Text.Scan
import Mathlib.Data.List.Infix

/-!
# Recast Texts

A text is **recast** from another if characters have been kept and parts in between have been
swapped for other parts. What rewriting makes of a text is recast from it, and so is what several
rewritings in a row make of it, part by part.

The use of the relation is to go back: a pattern in the recast text that no swapped part can hold or
touch was in the text before, at characters that were kept.

## Main results

* `Recast.exists_append`, `Recast.infix_before`: patterns at the start of a recast text, and in it.
* `Recast.exists_append_cons`: a text that is recast on both sides of a character.
* `Walk.recast`: what a walk makes of a text is recast from it.
* `Walk.congr`: a walk depends on its finder only at the places of the text.
* `pieces_eq_map_kept`: a text in which nothing is found stays as it is.
-/

namespace Lectern.Text

/-! ### Recasting -/

/-- The second text is **recast** from the first: characters are kept, and between them parts are
swapped as `ok` allows. -/
inductive Recast (ok : Text → Text → Prop) : Text → Text → Prop
  | nil : Recast ok [] []
  | keep {c : Char} {s t : Text} : Recast ok s t → Recast ok (c :: s) (c :: t)
  | swap {source written s t : Text} :
      ok source written → Recast ok s t → Recast ok (source ++ s) (written ++ t)

namespace Recast

variable {ok : Text → Text → Prop} {s t s' t' pattern : Text}

/-- Every text is recast from itself. -/
theorem refl (s : Text) : Recast ok s s := by
  induction s with
  | nil => exact .nil
  | cons c s ih => exact .keep ih

/-- One part that is swapped. -/
theorem single {source written : Text} (h : ok source written) : Recast ok source written := by
  simpa using Recast.swap h .nil

/-- Texts are recast part by part. -/
theorem append (h : Recast ok s t) (h' : Recast ok s' t') : Recast ok (s ++ s') (t ++ t') := by
  induction h with
  | nil => exact h'
  | keep _ ih => exact .keep ih
  | swap hok _ ih => simpa using Recast.swap hok ih

/-- A character that no swapped part holds comes from the text before. -/
theorem mem (h : Recast ok s t) {c : Char}
    (hok : ∀ {source written}, ok source written → c ∉ written) (hmem : c ∈ t) : c ∈ s := by
  induction h with
  | nil => exact hmem
  | keep _ ih =>
    rcases List.mem_cons.1 hmem with rfl | hrest
    · exact List.mem_cons_self
    · exact List.mem_cons_of_mem _ (ih hrest)
  | swap hswap _ ih =>
    rcases List.mem_append.1 hmem with hwritten | hrest
    · exact absurd hwritten (hok hswap)
    · exact List.mem_append_right _ (ih hrest)

/-- A character with which no swapped part starts is kept at the start of a recast text. -/
theorem exists_cons {c : Char} (h : Recast ok s (c :: t))
    (hok : ∀ {source written}, ok source written → ∃ d rest, written = d :: rest ∧ d ≠ c) :
    ∃ s', s = c :: s' ∧ Recast ok s' t := by
  generalize hwhole : c :: t = whole at h
  cases h with
  | nil => contradiction
  | keep h =>
    obtain ⟨rfl, rfl⟩ := List.cons.inj hwhole
    exact ⟨_, rfl, h⟩
  | swap hswap h =>
    obtain ⟨d, rest, rfl, hd⟩ := hok hswap
    exact absurd (List.cons.inj hwhole).1.symm hd

/-- **A pattern at the start of a recast text**, with no character with which a swapped part starts,
was at the start of the text before. -/
theorem exists_append (h : Recast ok s (pattern ++ t))
    (hok : ∀ {source written}, ok source written → ∃ c rest, written = c :: rest ∧ c ∉ pattern) :
    ∃ s', s = pattern ++ s' ∧ Recast ok s' t := by
  induction pattern generalizing s with
  | nil => exact ⟨s, rfl, h⟩
  | cons c pattern ih =>
    obtain ⟨s', rfl, h'⟩ := h.exists_cons fun hswap => by
      obtain ⟨d, rest, hwritten, hd⟩ := hok hswap
      exact ⟨d, rest, hwritten, List.ne_of_not_mem_cons hd⟩
    obtain ⟨s'', rfl, h''⟩ := ih h' fun hswap => by
      obtain ⟨d, rest, hwritten, hd⟩ := hok hswap
      exact ⟨d, rest, hwritten, List.not_mem_of_not_mem_cons hd⟩
    exact ⟨s'', rfl, h''⟩

/-- The same, as a fact about prefixes. -/
theorem prefix_before (h : Recast ok s t)
    (hok : ∀ {source written}, ok source written → ∃ c rest, written = c :: rest ∧ c ∉ pattern)
    (hpattern : pattern <+: t) : pattern <+: s := by
  obtain ⟨rest, rfl⟩ := hpattern
  obtain ⟨s', rfl, -⟩ := h.exists_append hok
  exact List.prefix_append _ _

/-- A pattern is not in a part that does not hold its first character, and does not start there. -/
theorem infix_of_infix_append {c : Char} {written : Text} (hwritten : c ∉ written)
    (h : c :: pattern <:+: written ++ t) : c :: pattern <:+: t := by
  induction written with
  | nil => exact h
  | cons d written ih =>
    have hd := List.ne_of_not_mem_cons hwritten
    have hrest := List.not_mem_of_not_mem_cons hwritten
    rcases List.infix_cons_iff.1 h with hstart | hlater
    · exact absurd (List.cons_prefix_cons.1 hstart).1 hd
    · exact ih hrest hlater

/-- **A pattern in a recast text**, whose first character no swapped part holds, and with no
character with which a swapped part starts, was in the text before. -/
theorem infix_before (h : Recast ok s t) {c : Char}
    (hok : ∀ {source written}, ok source written →
      c ∉ written ∧ ∃ d rest, written = d :: rest ∧ d ∉ c :: pattern)
    (hpattern : c :: pattern <:+: t) : c :: pattern <:+: s := by
  induction h with
  | nil => exact hpattern
  | keep h ih =>
    rcases List.infix_cons_iff.1 hpattern with hstart | hlater
    · exact ((Recast.keep h).prefix_before (fun hswap => (hok hswap).2) hstart).isInfix
    · exact List.infix_cons (ih hlater)
  | @swap source written _ _ hswap h ih =>
    exact (ih (infix_of_infix_append (hok hswap).1 hpattern)).trans (List.suffix_append _ _).isInfix

/-- **A text is recast on both sides** of a character that no part to be swapped holds. -/
theorem exists_append_cons {c : Char} (h : Recast ok (s ++ c :: s') t)
    (hok : ∀ {source written}, ok source written → c ∉ source) :
    ∃ u u', t = u ++ c :: u' ∧ Recast ok s u ∧ Recast ok s' u' := by
  generalize hwhole : s ++ c :: s' = whole at h
  induction h generalizing s with
  | nil => simp at hwhole
  | @keep d whole t h ih =>
    match s with
    | [] =>
      obtain ⟨rfl, rfl⟩ := List.cons.inj hwhole
      exact ⟨[], t, rfl, .nil, h⟩
    | e :: s =>
      obtain ⟨rfl, hrest⟩ := List.cons.inj hwhole
      obtain ⟨u, u', rfl, hu, hu'⟩ := ih hrest
      exact ⟨e :: u, u', rfl, .keep hu, hu'⟩
  | @swap source written whole t hswap h ih =>
    -- the character is behind the part that is swapped, since that part does not hold it
    rcases append_cons_eq_append hwhole with ⟨inside, rfl, hrest⟩ | ⟨inside, hsource, -⟩
    · obtain ⟨u, u', rfl, hu, hu'⟩ := ih hrest.symm
      exact ⟨written ++ u, u', by simp, .swap hswap hu, hu'⟩
    · exact absurd (by simp [hsource]) (hok hswap)

end Recast

/-! ### Walks -/

section Walk

variable {α : Type} {find find' : Finder α} {write : α → Text} {before s : Text}
  {ps : List (Piece α)}

/-- **What a walk makes of a text** is recast from it, if what is written for an occurrence is
recast from its source. -/
theorem Walk.recast {ok : Text → Text → Prop} (h : Walk find before s ps)
    (hwrite : ∀ {before source after occurrence},
      find before (source ++ after) = some (occurrence, source.length) →
      Recast ok source (write occurrence)) :
    Recast ok s (rewriteHits write ps) := by
  induction h with
  | nil => exact .nil
  | kept _ _ ih => exact .keep ih
  | hit hfound _ _ ih => exact (hwrite hfound).append ih

/-- A walk depends on the finder only at the places of the text. -/
theorem Walk.congr (h : Walk find before s ps)
    (hsame : ∀ earlier later, s = earlier ++ later →
      find' (earlier.reverse ++ before) later = find (earlier.reverse ++ before) later) :
    Walk find' before s ps := by
  induction h with
  | nil => exact .nil
  | @kept before rest c ps hnone _ ih =>
    refine .kept ((hsame [] _ rfl).trans hnone) (ih fun earlier later heq => ?_)
    simpa using hsame (c :: earlier) later (by simp [heq])
  | @hit before source after occurrence ps hfound hne _ ih =>
    refine .hit ((hsame [] _ rfl).trans hfound) hne (ih fun earlier later heq => ?_)
    simpa using hsame (source ++ earlier) later (by simp [heq])

/-- The pieces of a text in which nothing is found. -/
theorem piecesFrom_eq_map_kept
    (hnone : ∀ earlier later, s = earlier ++ later → later ≠ [] →
      find (earlier.reverse ++ before) later = none) :
    piecesFrom find before 0 s = s.map .kept := by
  induction s generalizing before with
  | nil => rfl
  | cons c rest ih =>
    rw [piecesFrom_kept (by simpa using hnone [] (c :: rest) rfl (by simp)), List.map_cons]
    refine congrArg (Piece.kept c :: ·) (ih fun earlier later heq hne => ?_)
    simpa using hnone (c :: earlier) later (by simp [heq]) hne

/-- The same, for a whole text. -/
theorem pieces_eq_map_kept
    (hnone : ∀ earlier later, s = earlier ++ later → find earlier.reverse later = none) :
    pieces find s = s.map .kept := by
  refine piecesFrom_eq_map_kept fun earlier later heq _ => ?_
  rw [List.append_nil]
  exact hnone earlier later heq

/-- A text that is kept stays as it is. -/
@[simp] theorem rewriteHits_map_kept (write : α → Text) (s : Text) :
    rewriteHits write (s.map .kept) = s := by
  induction s with
  | nil => rfl
  | cons c s ih => simp [ih]

/-- Nothing is found in a text that is kept. -/
@[simp] theorem hits_map_kept (s : Text) : hits (s.map (Piece.kept (α := α))) = [] := by
  induction s with
  | nil => rfl
  | cons c s ih => simp [ih]

end Walk

end Lectern.Text
