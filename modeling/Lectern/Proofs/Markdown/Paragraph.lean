import Lectern.Markdown.Document
import Lectern.Proofs.Pipeline.Settled
import Lectern.Proofs.Text.Basic
import Lectern.Unicode.Alphanumeric
import Mathlib.Data.List.TakeWhile

/-!
# Documents of One Line

A source of one line that starts with a word is a paragraph: no sign that starts another kind of
block is alphanumeric, and a word of digits is a list marker only in front of one of two signs. In
the line itself words are plain text.

## Main results

* `blocks_of_isWord`: the blocks of such a source, and its definitions.
* `parse_of_isWord`: its events.
* `inlineRun_word`: what becomes of a word in a line.
-/

namespace Lectern.Markdown

open Unicode (isAlphanumeric)
open Text (exists_dropWhile_append_cons drop_length_takeWhile)

/-! ### Words -/

/-- Whether a text is a **word**: letters and numbers, at least one. -/
def IsWord (s : Text) : Prop := s ≠ [] ∧ ∀ c ∈ s, isAlphanumeric c = true

variable {word rest : Text} {c : Char}

/-- A letter or a number is no sign. -/
theorem ne_of_isAlphanumeric (hc : isAlphanumeric c = true) (sign : Char)
    (hsign : isAlphanumeric sign = false) : c ≠ sign := by
  rintro rfl
  simp [hc] at hsign

/-- There are no signs in a word. -/
theorem IsWord.not_mem (h : IsWord word) {sign : Char} (hsign : isAlphanumeric sign = false) :
    sign ∉ word := fun hmem => ne_of_isAlphanumeric (h.2 sign hmem) sign hsign rfl

/-- A letter or a number is none of several signs. -/
theorem not_mem_signs_of_isAlphanumeric (hc : isAlphanumeric c = true) (signs : Text)
    (hsigns : signs.any isAlphanumeric = false) : c ∉ signs := by
  intro hmem
  simp only [List.any_eq_false] at hsigns
  exact hsigns c hmem hc

/-! ### Lines -/

/-- A text without line ends is one line. -/
theorem lines_of_not_mem {s : Text} (hne : s ≠ []) (h : '\n' ∉ s) : Document.lines s = [s] := by
  induction s with
  | nil => exact absurd rfl hne
  | cons c s ih =>
    have hc : c ≠ '\n' := fun heq => h (heq ▸ List.mem_cons_self)
    have hs := List.not_mem_of_not_mem_cons h
    unfold Document.lines
    split
    next heq => cases heq
    next heq => exact absurd (List.cons.inj heq).1 hc
    next first rest _ heq =>
      obtain ⟨rfl, rfl⟩ := List.cons.inj heq
      cases s with
      | nil => rfl
      | cons d s => rw [ih (List.cons_ne_nil _ _) hs]

/-- The line that a text without line ends starts with is the text. -/
theorem lineOf_of_not_mem {s : Text} (h : '\n' ∉ s) : lineOf s = s := by
  have hall : ∀ c ∈ s, (c != '\n') = true := fun c hc => bne_iff_ne.2 (ne_of_mem_of_not_mem hc h)
  exact List.takeWhile_eq_self_iff.2 hall

/-! ### What a word does not start -/

/-- No white space is skipped before a letter or a number. -/
theorem skipUpTo_of_isAlphanumeric (hc : isAlphanumeric c = true) (limit : Nat) (t : Text) :
    Cursor.skipUpTo limit { rest := c :: t } = (0, { rest := c :: t }) := by
  have hspace := ne_of_isAlphanumeric hc ' ' (by decide)
  have htab := ne_of_isAlphanumeric hc '\t' (by decide)
  cases limit <;> simp [Cursor.skipUpTo, Cursor.skipSpace, Cursor.skipAux, hspace, htab]

/-- A line that starts with a letter or a number is not blank. -/
theorem isBlankLine_of_isAlphanumeric (hc : isAlphanumeric c = true) (t : Text) :
    isBlankLine (c :: t) = false := by
  have hnot := not_mem_signs_of_isAlphanumeric hc [' ', '\t', '\x0B', '\x0C', '\n']
    (by decide)
  simp only [List.mem_cons, List.not_mem_nil, or_false, not_or] at hnot
  simp [isBlankLine, isLineSpace, atLineEnd, hnot]

/-- A letter or a number starts no footnote. -/
theorem footnoteStart?_of_isAlphanumeric (hc : isAlphanumeric c = true) (t : Text) :
    Document.footnoteStart? (c :: t) = none := by
  have hbracket := ne_of_isAlphanumeric hc '[' (by decide)
  unfold Document.footnoteStart?
  split <;> simp_all

/-- A letter or a number starts no thematic break. -/
theorem isThematicBreak_of_isAlphanumeric (hc : isAlphanumeric c = true) (t : Text) :
    isThematicBreak (c :: t) = false := by
  have hnot := not_mem_signs_of_isAlphanumeric hc ['*', '-', '_'] (by decide)
  simp only [List.mem_cons, List.not_mem_nil, or_false, not_or] at hnot
  simp [isThematicBreak, hnot]

/-- A letter or a number starts no heading. -/
theorem headingLevel?_of_isAlphanumeric (hc : isAlphanumeric c = true) (t : Text) :
    headingLevel? (c :: t) = none := by
  have hsign := ne_of_isAlphanumeric hc '#' (by decide)
  simp [headingLevel?, runLength, hsign]

/-- A letter or a number starts no fence. -/
theorem openingFence?_of_isAlphanumeric (hc : isAlphanumeric c = true) (t : Text) :
    openingFence? (c :: t) = none := by
  have hbacktick := ne_of_isAlphanumeric hc '\x60' (by decide)
  have htilde := ne_of_isAlphanumeric hc '~' (by decide)
  simp [openingFence?, hbacktick, htilde]

/-- A letter or a number starts no definition of a link. -/
theorem definition?_of_isAlphanumeric (hc : isAlphanumeric c = true) (t : Text) :
    definition? (c :: t) = none := by
  have hbracket := ne_of_isAlphanumeric hc '[' (by decide)
  unfold definition?
  split <;> simp_all

/-- **A word is no list marker** if a space follows it, even if it is a number. -/
theorem listMarker?_of_isWord (hword : IsWord word) (rest : Text) :
    listMarker? (word ++ ' ' :: rest) = none := by
  obtain ⟨d, more, hnext, hd⟩ := exists_dropWhile_append_cons Char.isDigit ' ' word (by decide) rest
  have hdrop : (word ++ ' ' :: rest).drop ((word ++ ' ' :: rest).takeWhile Char.isDigit).length =
      d :: more := by rw [drop_length_takeWhile, hnext]
  have hsigns : d ≠ '.' ∧ d ≠ ')' := by
    constructor <;>
    · rintro rfl
      rcases List.mem_append.1 hd with hmem | hmem
      · exact hword.not_mem (by decide) hmem
      · simp at hmem
  obtain ⟨c, word, rfl⟩ := List.exists_cons_of_ne_nil hword.1
  have hnot := not_mem_signs_of_isAlphanumeric (hword.2 c List.mem_cons_self)
    ['-', '+', '*'] (by decide)
  simp only [List.mem_cons, List.not_mem_nil, or_false, not_or] at hnot
  rw [List.cons_append] at hdrop ⊢
  simp only [listMarker?, hdrop]
  cases (c :: (word ++ ' ' :: rest)).takeWhile Char.isDigit <;> simp [hnot, hsigns]

/-! ### The paragraph -/

/-- A line that starts with a word opens no container. -/
theorem openContainers_of_isWord (hword : IsWord word) (steps : Nat) (builder : Builder) :
    Document.openContainers (steps + 1) builder { rest := word ++ ' ' :: rest } =
      (builder, some { rest := word ++ ' ' :: rest }) := by
  have hmarker := listMarker?_of_isWord hword rest
  obtain ⟨c, word, rfl⟩ := List.exists_cons_of_ne_nil hword.1
  have hc := hword.2 c List.mem_cons_self
  have hquote := ne_of_isAlphanumeric hc '>' (by decide)
  rw [List.cons_append] at hmarker ⊢
  simp [Document.openContainers, skipUpTo_of_isAlphanumeric hc,
    footnoteStart?_of_isAlphanumeric hc, isThematicBreak_of_isAlphanumeric hc, hmarker,
    Cursor.skipChar?, hquote]

/-- **A line that starts with a word** is a paragraph, if it is the last line. -/
theorem readLeaf_of_isWord (hword : IsWord word) (hrest : '\n' ∉ rest) :
    Document.readLeaf {} { rest := word ++ ' ' :: rest } [] =
      (Builder.append {} (.paragraph none (word ++ ' ' :: rest)), []) := by
  have hline : lineOf (word ++ ' ' :: rest) = word ++ ' ' :: rest := by
    refine lineOf_of_not_mem fun hmem => ?_
    rcases List.mem_append.1 hmem with h | h
    · exact hword.not_mem (by decide) h
    · exact hrest (by simpa using h)
  obtain ⟨c, word, rfl⟩ := List.exists_cons_of_ne_nil hword.1
  have hc := hword.2 c List.mem_cons_self
  have hbracket := ne_of_isAlphanumeric hc '<' (by decide)
  rw [List.cons_append] at hline ⊢
  have hfinish : Builder.finishList {} = {} := rfl
  simp [Document.readLeaf, hfinish, skipUpTo_of_isAlphanumeric hc, hbracket,
    isThematicBreak_of_isAlphanumeric hc, headingLevel?_of_isAlphanumeric hc,
    openingFence?_of_isAlphanumeric hc, hline, Document.definitionView,
    definition?_of_isAlphanumeric hc, Document.readParagraph, Document.paragraphLines]

/-- Behind a line that starts with a word, nothing is left of a source of one line. -/
theorem readBlock_of_isWord (hword : IsWord word) (hrest : '\n' ∉ rest) :
    Document.readBlock {} (word ++ ' ' :: rest) [] =
      (Builder.append {} (.paragraph none (word ++ ' ' :: rest)), []) := by
  have hblank : isBlankLine (word ++ ' ' :: rest) = false := by
    obtain ⟨c, word, rfl⟩ := List.exists_cons_of_ne_nil hword.1
    exact isBlankLine_of_isAlphanumeric (hword.2 c List.mem_cons_self) _
  have hnone : ∀ place, continued (Builder.containers {}) place = (0, place) := fun _ => rfl
  have hclosed : ∀ n, Builder.closeFrames (List.length (Builder.frames {}) - n) {} = {} := by
    simp [Builder.closeFrames]
  simp only [Document.readBlock, hnone, hclosed, openContainers_of_isWord hword, hblank,
    readLeaf_of_isWord hword hrest]
  rfl

/-- **A source of one line that starts with a word** is one paragraph, and defines nothing. -/
theorem blocks_of_isWord (hword : IsWord word) (hfeed : '\n' ∉ rest) (hreturn : '\r' ∉ rest) :
    Document.blocks (word ++ ' ' :: rest) = ([.paragraph none (word ++ ' ' :: rest)], {}) := by
  have hline : ∀ {sign}, isAlphanumeric sign = false → sign ≠ ' ' → sign ∉ rest →
      sign ∉ word ++ ' ' :: rest := by
    intro sign hsign hspace hrest hmem
    rcases List.mem_append.1 hmem with h | h
    · exact hword.not_mem hsign h
    · exact (List.mem_cons.1 h).elim hspace hrest
  have hlines : Document.lines (Document.unifyLineEnds (word ++ ' ' :: rest)) =
      [word ++ ' ' :: rest] := by
    rw [Pipeline.unifyLineEnds_eq_self (hline (by decide) (by decide) hreturn),
      lines_of_not_mem (by simp) (hline (by decide) (by decide) hfeed)]
  simp only [Document.blocks, hlines, List.length_singleton, Document.readAll,
    readBlock_of_isWord hword hfeed]
  rfl

/-- The events of such a source are those of its content in a paragraph. -/
theorem parse_of_isWord (hword : IsWord word) (hfeed : '\n' ∉ rest) (hreturn : '\r' ∉ rest) :
    Document.parse (word ++ ' ' :: rest) =
      .start .paragraph :: (Tree.eventsOfList (Inline.parse {} (word ++ ' ' :: rest)) ++
        [.finish .paragraph]) := by
  have htrees : Document.trees (word ++ ' ' :: rest) =
      [.node .paragraph (Inline.parse {} (word ++ ' ' :: rest))] := by
    simp [Document.trees, blocks_of_isWord hword hfeed hreturn, Block.treesOfList, Block.trees,
      taskLeaf]
  rw [Document.parse, htrees]
  simp [Tree.eventsOfList, Tree.events, Tag.toEnd]

/-! ### Words in a line -/

section Steps

variable {definitions : Definitions} {state : InlineState} {before : Option Char}

/-- A letter or a number is plain text in a line. -/
theorem isInlineSign_of_isAlphanumeric {c : Char} (hc : isAlphanumeric c = true) :
    isInlineSign c = false := by
  refine Bool.eq_false_iff.2 fun hsign => ?_
  have hmem : c ∈ "\\\x60<![]&*_~\n \t\x0B\x0C".toList := by
    simpa [isInlineSign, isLineSpace, or_assoc] using hsign
  exact not_mem_signs_of_isAlphanumeric hc _ (by decide) hmem

/-- The step over plain text takes it up to the next sign. -/
theorem inlineStep_of_isInlineSign_eq_false {c : Char} (hc : isInlineSign c = false) (rest : Text) :
    inlineStep definitions state before c rest =
      (state.pushText (c :: rest.takeWhile (!isInlineSign ·)),
        (c :: rest.takeWhile (!isInlineSign ·)).getLast?, rest.dropWhile (!isInlineSign ·)) := by
  have hne : ∀ sign, isInlineSign sign = true → c ≠ sign := by
    rintro sign hsign rfl
    simp [hc] at hsign
  have hmark : (c == '*' || c == '_' || c == '~') = false := by
    simp [hne '*' (by decide), hne '_' (by decide), hne '~' (by decide)]
  have hspace : isLineSpace c = false := by
    rw [isInlineSign, Bool.or_eq_false_iff] at hc
    exact hc.2
  unfold inlineStep
  split
  case h_9 => simp only [hmark, hspace, Bool.false_eq_true, if_false]
  all_goals exact absurd hc (by decide)

/-- **The step over a word** takes it whole. -/
theorem inlineStep_word {c : Char} {more : Text} (hword : IsWord (c :: more))
    (hrest : ∀ d ∈ rest.head?, isInlineSign d = true) :
    inlineStep definitions state before c (more ++ rest) =
      (state.pushText (c :: more), (c :: more).getLast?, rest) := by
  obtain ⟨hc, hmore⟩ := List.forall_mem_cons.1 hword.2
  have hplain : ∀ d ∈ more, (!isInlineSign d) = true := fun d hd => by
    simp [isInlineSign_of_isAlphanumeric (hmore d hd)]
  have hdropped : (more ++ rest).dropWhile (!isInlineSign ·) = rest := by
    rw [List.dropWhile_append_of_pos hplain]
    cases rest with
    | nil => rfl
    | cons d rest => simp [hrest d rfl]
  rw [inlineStep_of_isInlineSign_eq_false (isInlineSign_of_isAlphanumeric hc), hdropped,
    Text.takeWhile_append_of_head hplain fun d hd => by simp [hrest d hd]]

/-- The step over a single space takes it alone. -/
theorem inlineStep_space {c : Char} (hspace : isLineSpace c = false) (hfeed : c ≠ '\n')
    (rest : Text) :
    inlineStep definitions state before ' ' (c :: rest) =
      (state.pushText [' '], some ' ', c :: rest) := by
  have hline : isLineSpace ' ' = true := by decide
  simp [inlineStep, hspace, hline, hfeed]

/-- A word at the start of what is left of a line becomes a text. -/
theorem inlineRun_word (hword : IsWord word) (hrest : ∀ d ∈ rest.head?, isInlineSign d = true)
    (steps : Nat) :
    inlineRun definitions (steps + 1) state before (word ++ rest) =
      inlineRun definitions steps (state.pushText word) word.getLast? rest := by
  obtain ⟨c, more, rfl⟩ := List.exists_cons_of_ne_nil hword.1
  simp only [List.cons_append, inlineRun, inlineStep_word hword hrest]

/-- A word at the end of a line becomes a text. -/
theorem inlineRun_lastWord (hword : IsWord word) (steps : Nat) :
    inlineRun definitions (steps + 1) state before word = state.pushText word := by
  have hrun : inlineRun definitions (steps + 1) state before (word ++ []) =
      inlineRun definitions steps (state.pushText word) word.getLast? [] :=
    inlineRun_word hword (fun d hd => by cases hd) steps
  rw [List.append_nil] at hrun
  rw [hrun]
  cases steps <;> rfl

/-- A single space in a line becomes a text. -/
theorem inlineRun_space {c : Char} (hspace : isLineSpace c = false) (hfeed : c ≠ '\n')
    (rest : Text) (steps : Nat) :
    inlineRun definitions (steps + 1) state before (' ' :: c :: rest) =
      inlineRun definitions steps (state.pushText [' ']) (some ' ') (c :: rest) := by
  simp only [inlineRun, inlineStep_space hspace hfeed]

end Steps

end Lectern.Markdown
