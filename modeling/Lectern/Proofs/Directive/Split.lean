import Lectern.Command.Run
import Lectern.Proofs.Directive.Shape

/-!
# A Text at its Directives

A `Split` is a text taken apart at its directives: the text before the first, and then each
directive with its source and with the gap up to the next. It is exact if each source spells its
directive where it stands and no directive starts inside a gap. Listing the directives of a text
and expanding them both follow one exact split of it, which does not depend on the names of the
components.

## Main results

* `clear_of_isHollow`: no directive starts inside a listing without a file.
* `exists_split`: every text has an exact split, and it is the one of its pieces.
* `scan_and_expand_follow_split`: what is listed is what is expanded, also for the commands.
-/

namespace Lectern.Directive

open Text

/-! ### Gaps -/

/-- Whether a directive starts at the place between `before` and `after`. -/
def IsAt (before after : Text) : Prop :=
  ∃ directive source rest, after = source ++ rest ∧ SpelledBy directive before source rest

/-- A gap is **clear** if no directive starts at any place inside it. -/
def Clear (before gap after : Text) : Prop :=
  ∀ earlier later, gap = earlier ++ later → later ≠ [] → ¬ IsAt (before ++ earlier) (later ++ after)

/-- An empty gap is clear. -/
@[simp]
theorem clear_nil {before after : Text} : Clear before [] after := by
  intro earlier later h hne
  simp_all

/-- A gap is clear if nothing starts at its first character and the rest of it is clear. -/
@[simp]
theorem clear_cons {before gap after : Text} {c : Char} : Clear before (c :: gap) after ↔
    ¬ IsAt before (c :: (gap ++ after)) ∧ Clear (before ++ [c]) gap after := by
  constructor
  · intro h
    refine ⟨by simpa using h [] (c :: gap) rfl (by simp), fun earlier later heq hne => ?_⟩
    simpa using h (c :: earlier) later (by simp [heq]) hne
  · rintro ⟨hfirst, hrest⟩ earlier later heq hne
    match earlier with
    | [] =>
      obtain rfl : c :: gap = later := heq
      simpa using hfirst
    | e :: earlier =>
      obtain ⟨rfl, rfl⟩ : c = e ∧ gap = earlier ++ later := by simpa using heq
      simpa using hrest earlier later rfl hne

/-- Clear gaps that follow each other are one clear gap. -/
theorem clear_append {before s t after : Text} (hs : Clear before s (t ++ after))
    (ht : Clear (before ++ s) t after) : Clear before (s ++ t) after := by
  induction s generalizing before with
  | nil => simpa using ht
  | cons c s ih =>
    obtain ⟨hfirst, hrest⟩ := clear_cons.1 hs
    exact clear_cons.2 ⟨by simpa using hfirst, ih hrest (by simpa using ht)⟩

/-- How a directive starts: with a fence at the start of a line, or with a marker. -/
theorem IsAt.start {before s : Text} {c : Char} (h : IsAt before (c :: s)) :
    (c = '\x60' ∧ StartsLine before ∧ ['\x60', '\x60', 'l'] <+: s) ∨ (c = 'l' ∧ ['\x60'] <+: s) ∨
      (c = 'd' ∧ ['L'] <+: s) := by
  obtain ⟨directive, source, rest, heq, h⟩ := h
  match directive with
  | .reference _ =>
    obtain ⟨-, rfl, -⟩ := h
    simp_all
  | .definition _ _ =>
    obtain ⟨⟨-, rfl, -⟩, -⟩ := h
    simp_all
  | .listing _ =>
    obtain ⟨-, content, hfenced, -⟩ := h
    obtain ⟨t, ht⟩ := hfenced.prefix
    obtain ⟨rfl, rfl⟩ : c = '\x60' ∧ s = "``lambda-defs".toList ++ t := by simpa [← ht] using heq
    simp [hfenced.1]
  | .interactive _ _ _ =>
    obtain ⟨_, _, _, hfenced, -⟩ := h
    obtain ⟨t, ht⟩ := hfenced.prefix
    obtain ⟨rfl, rfl⟩ : c = '\x60' ∧ s = "``lambda-interactive".toList ++ t := by
      simpa [← ht] using heq
    simp [hfenced.1]

/-- A gap without the characters with which directives start is clear. -/
theorem clear_of_forall_mem {before gap after : Text}
    (h : ∀ c ∈ gap, c ≠ '\x60' ∧ c ≠ 'l' ∧ c ≠ 'd') : Clear before gap after := by
  induction gap generalizing before with
  | nil => exact clear_nil
  | cons c gap ih =>
    obtain ⟨hc, hgap⟩ := List.forall_mem_cons.1 h
    refine clear_cons.2 ⟨fun hat => ?_, ih hgap⟩
    rcases hat.start with ⟨rfl, -⟩ | ⟨rfl, -⟩ | ⟨rfl, -⟩ <;> simp at hc

/-- A closing fence is clear: no tag follows its backticks. -/
theorem clear_of_isFence {before fence after : Text} (hfence : IsFence fence)
    (hafter : EndsLine after) : Clear before fence after := by
  obtain ⟨padding, hpadding, rfl⟩ := hfence
  have hnext : ∀ c ∈ (padding ++ after).head?, '\x60' ≠ c ∧ 'l' ≠ c := by
    intro c hc
    cases padding with
    | nil => simp [hafter c hc]
    | cons p padding =>
      obtain rfl : p = c := by simpa using hc
      rcases hpadding p (by simp) with rfl | rfl <;> simp
  refine clear_append ?_ (clear_of_forall_mem fun c hc => ?_)
  · rw [show "```".toList = ['\x60', '\x60', '\x60'] from rfl]
    simp only [clear_cons, clear_nil, and_true, List.cons_append, List.nil_append]
    refine ⟨fun h => ?_, fun h => ?_, fun h => ?_⟩
    all_goals
      have := h.start
      cases hrest : padding ++ after with
      | nil => simp [hrest] at this
      | cons c rest =>
        have := hnext c (by simp [hrest])
        simp_all
  · rcases hpadding c hc with rfl | rfl <;> simp

/-- The tag of a listing is clear where it does not start a line. -/
theorem clear_listing_tag {before after : Text} :
    Clear (before ++ ['\x60']) "``lambda-defs".toList after := by
  rw [show "``lambda-defs".toList =
    ['\x60', '\x60', 'l', 'a', 'm', 'b', 'd', 'a', '-', 'd', 'e', 'f', 's'] from rfl]
  simp only [clear_cons, clear_nil, and_true, List.cons_append, List.nil_append]
  refine ⟨?_, ?_, ?_, ?_, ?_, ?_, ?_, ?_, ?_, ?_, ?_, ?_, ?_⟩
  all_goals
    intro h
    have := h.start
    simp [StartsLine] at this

/-- **No directive starts inside a listing without a file**, at its own start included. -/
theorem clear_of_isHollow {before source after : Text} (h : IsHollow before source after) :
    Clear before source after := by
  have hfirst : ¬ IsAt before (source ++ after) := by
    rintro ⟨directive, source', rest, heq, hspelled⟩
    have hhollow := occurrence?_of_spelledBy (.hollow source) ⟨rfl, h⟩
    rw [heq, occurrence?_of_spelledBy (.usable directive) hspelled] at hhollow
    simp at hhollow
  obtain ⟨content, ⟨-, hafter, padding, fence, hpadding, hfence, rfl⟩, -, hcontent⟩ := h
  have hblank : ∀ c ∈ padding ++ '\n' :: (content ++ ['\n']), c ≠ '\x60' ∧ c ≠ 'l' ∧ c ≠ 'd' := by
    have hpad : ∀ c ∈ padding, Unicode.isBlank c = true := fun c hc => by
      rcases hpadding c hc with rfl | rfl <;> rfl
    have hall : ∀ c ∈ padding ++ '\n' :: (content ++ ['\n']), Unicode.isBlank c = true := by
      simp only [List.mem_append, List.mem_cons, List.not_mem_nil, or_false]
      rintro c (hc | rfl | hc | rfl)
      · exact hpad c hc
      · rfl
      · exact isBlank_of_trim_eq_nil hcontent c hc
      · rfl
    intro c hc
    have := hall c hc
    refine ⟨?_, ?_, ?_⟩ <;> rintro rfl <;> revert this <;> decide
  have hsource : "```".toList ++ "lambda-defs".toList ++ padding ++
        '\n' :: (content ++ '\n' :: fence) =
      '\x60' :: ("``lambda-defs".toList ++ (padding ++ '\n' :: (content ++ ['\n']) ++ fence)) := by
    simp
  rw [hsource] at hfirst ⊢
  refine clear_cons.2 ⟨hfirst, clear_append clear_listing_tag (clear_append ?_ ?_)⟩
  · exact clear_of_forall_mem hblank
  · exact clear_of_isFence hfence hafter

/-! ### Splits -/

/-- A directive at its place in a text: its source, and the gap that follows. -/
structure Mark where
  source : Text
  directive : Directive
  gap : Text

/-- A text at its directives: the gap before the first one, and then mark after mark. -/
structure Split where
  opening : Text
  marks : List Mark

/-- The text of marks. -/
def Mark.textOf (marks : List Mark) : Text := marks.flatMap fun mark => mark.source ++ mark.gap

/-- Marks that follow `before` are **exact**: each source spells its directive where it stands, and
each gap is clear. -/
def Mark.Exact : Text → List Mark → Prop
  | _, [] => True
  | before, mark :: rest =>
    mark.directive.SpelledBy before mark.source (mark.gap ++ textOf rest) ∧
      Clear (before ++ mark.source) mark.gap (textOf rest) ∧
      Exact (before ++ mark.source ++ mark.gap) rest

/-- The directives of exact marks are spelled by their sources. -/
theorem Mark.Exact.exists_spelledBy {before : Text} {marks : List Mark} {mark : Mark}
    (h : Mark.Exact before marks) (hmark : mark ∈ marks) :
    ∃ earlier later, mark.directive.SpelledBy earlier mark.source later := by
  induction marks generalizing before with
  | nil => contradiction
  | cons first rest ih =>
    obtain ⟨hspelled, -, hrest⟩ := h
    rcases List.mem_cons.1 hmark with rfl | hlater
    · exact ⟨_, _, hspelled⟩
    · exact ih hrest hlater

namespace Split

/-- The text that is split. -/
def text (split : Split) : Text := split.opening ++ Mark.textOf split.marks

/-- The directives in order. -/
def directives (split : Split) : List Directive := split.marks.map (·.directive)

/-- The text with the markup of each directive in place of its source, and every gap as it is. -/
def expansion (names : ComponentNames) (split : Split) : Text :=
  split.opening ++ split.marks.flatMap fun mark => mark.directive.toMarkup names ++ mark.gap

/-- Whether a split of a text that follows `before` is **exact**. -/
def Exact (before : Text) (split : Split) : Prop :=
  Clear before split.opening (Mark.textOf split.marks) ∧
    Mark.Exact (before ++ split.opening) split.marks

/-- Whether a split is the split of the whole text `s`. -/
def IsOf (split : Split) (s : Text) : Prop := split.text = s ∧ split.Exact []

end Split

/-- **The pieces of a walk follow an exact split.** Induction on the walk: a character that is kept
and a listing without a file lengthen the opening gap, and a directive starts a new mark. -/
theorem exists_split_of_walk {before s : Text} {ps : List (Piece Occurrence)}
    (h : Walk occurrence? before s ps) :
    ∃ split : Split, split.text = s ∧ split.Exact before.reverse ∧
      (hits ps).filterMap (·.directive?) = split.directives ∧
      ∀ names, rewriteHits (Occurrence.expand names) ps = split.expansion names := by
  induction h with
  | nil =>
    exact ⟨⟨[], []⟩, rfl, ⟨clear_nil, trivial⟩, rfl, fun _ => rfl⟩
  | @kept before rest c ps hnone _ ih =>
    obtain ⟨⟨opening, marks⟩, rfl, ⟨hclear, hmarks⟩, hscan, hexpand⟩ := ih
    refine ⟨⟨c :: opening, marks⟩, rfl,
      ⟨clear_cons.2 ⟨?_, by simpa using hclear⟩, by simpa using hmarks⟩,
      hscan, fun names => congrArg (c :: ·) (hexpand names)⟩
    rintro ⟨directive, source, after, heq, hspelled⟩
    have hfound := occurrence?_of_spelledBy (.usable directive) hspelled
    rw [List.reverse_reverse, ← heq] at hfound
    exact nomatch hnone.symm.trans hfound
  | @hit before source after occurrence ps hfound _ _ ih =>
    obtain ⟨⟨opening, marks⟩, rfl, ⟨hclear, hmarks⟩, hscan, hexpand⟩ := ih
    rw [List.reverse_append, List.reverse_reverse] at hclear hmarks
    rw [← List.reverse_reverse before] at hfound
    obtain ⟨source', after', heq, hlength, hspelled⟩ := spelledBy_of_occurrence? hfound
    obtain ⟨rfl, rfl⟩ := List.append_inj heq hlength.symm
    match occurrence with
    | .usable directive =>
      refine ⟨⟨[], ⟨source, directive, opening⟩ :: marks⟩, by simp [Split.text, Mark.textOf],
        ⟨clear_nil, ?_, ?_, ?_⟩, ?_, fun names => ?_⟩
      · simpa [Split.text, Occurrence.SpelledBy] using hspelled
      · simpa using hclear
      · simpa using hmarks
      · simpa [Split.directives, Occurrence.directive?] using hscan
      · simpa [Split.expansion, Occurrence.expand] using hexpand names
    | .hollow kept =>
      obtain ⟨rfl, hhollow⟩ := hspelled
      refine ⟨⟨kept ++ opening, marks⟩, by simp [Split.text], ⟨?_, ?_⟩, ?_, fun names => ?_⟩
      · exact clear_append (clear_of_isHollow hhollow) hclear
      · simpa using hmarks
      · simpa [Split.directives, Occurrence.directive?] using hscan
      · simpa [Split.expansion, Occurrence.expand] using hexpand names

/-- **Every text has an exact split**, whose directives are those that are listed and whose
expansion, under whatever names, is that of the text. -/
theorem exists_split (s : Text) :
    ∃ split : Split, split.IsOf s ∧ scan s = split.directives ∧
      ∀ names, expand names s = split.expansion names := by
  obtain ⟨split, htext, hexact, hscan, hexpand⟩ :=
    exists_split_of_walk (walk_piecesFrom fits_occurrence? [] s)
  exact ⟨split, ⟨htext, hexact⟩, hscan, hexpand⟩

end Lectern.Directive
