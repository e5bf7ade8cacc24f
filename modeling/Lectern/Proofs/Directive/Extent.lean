import Lectern.Proofs.Directive.Split

/-!
# Where Blocks End

A fenced directive is a block of lines, and its last line is a closing fence. Between its first and
its last line there is none, with an exception: a line that the shape takes as it stands may look
like one. These are the file of a listing, the context of an interactive block, and the first line
of its expression, since the expression only ends at a fence that stands behind a line end of its
own. So a block whose expression is empty runs on to the closing fence of a later block.

## Main results

* `exists_of_mem_linesOf`: the lines of a text are where its line ends say.
* `block_ends_at_first_closer`: the lines of a block that can be closing fences.
* `block_runs_past_closer`: a block that swallows another one.
-/

namespace Lectern.Directive

open Text
open Unicode (isBlank)

/-! ### Lines -/

/-- The **lines** of a text. -/
def linesOf (s : Text) : List Text := splitOnChar '\n' s

/-- The lines on both sides of a line end. -/
theorem linesOf_append_cons (s t : Text) : linesOf (s ++ '\n' :: t) = linesOf s ++ linesOf t :=
  splitOnChar_append_cons '\n' s t

/-- A text without line ends is a line. -/
theorem linesOf_of_not_mem {s : Text} (h : '\n' ∉ s) : linesOf s = [s] := splitOnChar_of_not_mem h

/-- The first line, and the lines behind its end. -/
theorem linesOf_line_append {first rest : Text} (h : '\n' ∉ first) :
    linesOf (first ++ '\n' :: rest) = first :: linesOf rest := by
  rw [linesOf_append_cons, linesOf_of_not_mem h, List.singleton_append]

/-- **The lines of a text** stand between starts and ends of lines. -/
theorem exists_of_mem_linesOf {s line : Text} (h : line ∈ linesOf s) :
    ∃ earlier later, s = earlier ++ (line ++ later) ∧ StartsLine earlier ∧ EndsLine later := by
  obtain ⟨first, rest, heq, hfirst, hrest⟩ := exists_line_append s
  match rest with
  | [] =>
    rw [List.append_nil] at heq
    rw [heq, linesOf_of_not_mem hfirst, List.mem_singleton] at h
    exact ⟨[], [], by simp [h, heq], nofun, nofun⟩
  | c :: rest =>
    obtain rfl : c = '\n' := hrest c rfl
    rw [heq, linesOf_line_append hfirst] at h
    rcases List.mem_cons.1 h with rfl | hlater
    · exact ⟨[], '\n' :: rest, heq, nofun, hrest⟩
    · have hshort : rest.length < s.length := by
        rw [heq, List.length_append, List.length_cons]
        omega
      obtain ⟨earlier, later, rfl, hstart, hend⟩ := exists_of_mem_linesOf hlater
      refine ⟨first ++ '\n' :: earlier, later, by simp [heq], ?_, hend⟩
      rcases startsLine_iff.1 hstart with rfl | ⟨earlier, rfl⟩
      · exact startsLine_iff.2 (.inr ⟨first, rfl⟩)
      · exact startsLine_iff.2 (.inr ⟨first ++ '\n' :: earlier, by simp⟩)
termination_by s.length

/-- The later lines of a body without a closing fence among them. -/
theorem HasNoFence.not_isFence {body line : Text} (h : HasNoFence body)
    (hline : line ∈ (linesOf body).tail) : ¬ IsFence line := by
  obtain ⟨first, rest, rfl, hfirst, hrest⟩ := exists_line_append body
  match rest with
  | [] => simp [linesOf_of_not_mem hfirst] at hline
  | c :: rest =>
    obtain rfl : c = '\n' := hrest c rfl
    rw [linesOf_line_append hfirst, List.tail_cons] at hline
    obtain ⟨earlier, later, rfl, hstart, hend⟩ := exists_of_mem_linesOf hline
    intro hfence
    rcases startsLine_iff.1 hstart with rfl | ⟨earlier, rfl⟩
    · exact h first line later rfl hfence hend
    · exact h (first ++ '\n' :: earlier) line later (by simp) hfence hend

/-- The lines of fenced source: those of its content stand between the fences. -/
theorem IsFenced.exists_linesOf {tag before source after content : Text} (htag : '\n' ∉ tag)
    (h : IsFenced tag before source after content) : ∃ opening closing,
      linesOf source = opening :: (linesOf content ++ [closing]) ∧ IsFence closing := by
  obtain ⟨-, -, padding, fence, hpadding, hfence, rfl⟩ := h
  have hopening : '\n' ∉ "```".toList ++ tag ++ padding := by
    simpa using ⟨htag, hpadding.newline_not_mem⟩
  refine ⟨"```".toList ++ tag ++ padding, fence, ?_, hfence⟩
  rw [linesOf_line_append hopening, linesOf_append_cons, linesOf_of_not_mem hfence.newline_not_mem]

/-- The lines of the content of an interactive block. -/
theorem linesOf_interactiveContent {context title expression : Text} (hcontext : '\n' ∉ context)
    (htitle : '\n' ∉ title) : linesOf (interactiveContent context title expression) =
      context :: ("---".toList ++ title) :: linesOf expression := by
  have hcontent : interactiveContent context title expression =
      context ++ '\n' :: ("---".toList ++ title ++ '\n' :: expression) := by
    simp [interactiveContent]
  rw [hcontent, linesOf_line_append hcontext, linesOf_line_append (by simpa using htitle)]

/-! ### Closing fences that are trimmed -/

/-- The backticks of a fence do not end with a blank character. -/
theorem not_isBlank_of_mem_getLast? : ∀ c ∈ "```".toList.getLast?, isBlank c = false := by
  simp [isBlank]

/-- A closing fence without the blank characters around it. -/
theorem trim_of_isFence {line : Text} (h : IsFence line) : trim line = "```".toList := by
  obtain ⟨padding, hpadding, rfl⟩ := h
  have hstart : trimStart ("```".toList ++ padding) = "```".toList ++ padding := by
    simp [trimStart, isBlank]
  have hblank : ∀ c ∈ padding, isBlank c = true := fun c hc => by
    rcases hpadding c hc with rfl | rfl <;> rfl
  rw [trim, hstart, trimEnd_append not_isBlank_of_mem_getLast?, trimEnd_of_isBlank hblank,
    List.append_nil]

/-- A text whose first line is a closing fence keeps it when blank characters are taken from its
end. -/
theorem startsWithCloser_trimEnd {s : Text} (h : startsWithCloser s = true) :
    startsWithCloser (trimEnd s) = true := by
  obtain ⟨_, later, rfl, ⟨padding, hpadding, rfl⟩, hlater⟩ := startsWithCloser_iff.1 h
  rw [List.append_assoc, trimEnd_append not_isBlank_of_mem_getLast?, startsWithCloser_iff]
  obtain ⟨blank, heq, -⟩ := exists_trimEnd_append (padding ++ later)
  generalize trimEnd (padding ++ later) = kept at *
  -- what is left ends within the padding, or behind it
  rcases List.append_eq_append_iff.1 heq with ⟨rest, hrest, hlater'⟩ | ⟨rest, hrest, -⟩
  · refine ⟨"```".toList ++ padding, rest, by simp [hrest], ⟨padding, hpadding, rfl⟩, ?_⟩
    intro c hc
    cases rest with
    | nil => simp at hc
    | cons d rest => exact hlater c (by simpa [hlater'] using hc)
  · refine ⟨"```".toList ++ kept, [], by simp, ⟨kept, ?_, rfl⟩, nofun⟩
    exact fun c hc => hpadding c (by simp [hrest, hc])

/-! ### Blocks -/

/-- Whether a directive is a block of lines between fences. -/
def isBlock : Directive → Bool
  | .listing _ => true
  | .interactive _ _ _ => true
  | .definition _ _ => false
  | .reference _ => false

/-- Whether a block can have a closing fence at a place behind its opening line: as its file, as its
context, or as the first line of its expression. -/
def HoldsFenceAt : Directive → Nat → Prop
  | .listing file, place => place = 0 ∧ file = "```".toList
  | .interactive context _ expression, place =>
    (place = 0 ∧ context = "```".toList) ∨ (place = 2 ∧ startsWithCloser expression = true)
  | _, _ => False

/-- The lines of the source of a block: the inner ones can be closing fences only where the block
can hold one. -/
theorem SpelledBy.exists_linesOf {directive : Directive} {before source after : Text}
    (h : directive.SpelledBy before source after) (hblock : directive.isBlock = true) :
    ∃ opening inner closing, linesOf source = opening :: (inner ++ [closing]) ∧
      IsFence closing ∧ ∀ place line, inner[place]? = some line → IsFence line →
        directive.HoldsFenceAt place := by
  match directive with
  | .listing file =>
    obtain ⟨-, content, hfenced, hcontent, rfl⟩ := h
    obtain ⟨opening, closing, hlines, hclosing⟩ := hfenced.exists_linesOf (by decide)
    refine ⟨opening, linesOf content, closing, hlines, hclosing, fun place line hline hfence => ?_⟩
    rw [linesOf_of_not_mem hcontent] at hline
    obtain ⟨rfl, rfl⟩ : place = 0 ∧ content = line := by
      cases place <;> simp_all
    exact ⟨rfl, trim_of_isFence hfence⟩
  | .interactive _ _ _ =>
    obtain ⟨context, title, body, hfenced, hcontext, htitle, hbody, rfl, rfl, rfl⟩ := h
    obtain ⟨opening, closing, hlines, hclosing⟩ := hfenced.exists_linesOf (by decide)
    refine ⟨opening, _, closing, hlines, hclosing, fun place line hline hfence => ?_⟩
    rw [linesOf_interactiveContent hcontext htitle] at hline
    match place with
    | 0 =>
      obtain rfl : context = line := by simpa using hline
      exact .inl ⟨rfl, trim_of_isFence hfence⟩
    | 1 =>
      -- the title stands behind its dashes
      obtain rfl : "---".toList ++ title = line := by simpa using hline
      obtain ⟨padding, -, heq⟩ := hfence
      simp at heq
    | 2 =>
      obtain ⟨first, rest, rfl, hfirst, hrest⟩ := exists_line_append body
      have hhead : linesOf (first ++ rest) = first :: (linesOf (first ++ rest)).tail := by
        match rest with
        | [] => rw [List.append_nil, linesOf_of_not_mem hfirst, List.tail_cons]
        | c :: rest =>
          obtain rfl : c = '\n' := hrest c rfl
          rw [linesOf_line_append hfirst, List.tail_cons]
      rw [hhead] at hline
      obtain rfl : first = line := by simpa using hline
      exact .inr ⟨rfl, startsWithCloser_trimEnd (startsWithCloser_iff.2 ⟨_, _, rfl, hfence, hrest⟩)⟩
    | place + 3 =>
      refine absurd hfence (hbody.not_isFence (List.mem_of_getElem? (show _[place]? = _ from ?_)))
      simpa using hline

/-- **A block ends at the first closing fence** behind its opening line, except that its file, its
context and the first line of its expression may look like one. -/
theorem block_ends_at_first_closer (s : Text) :
    ∃ split : Split, split.IsOf s ∧ scan s = split.directives ∧
      ∀ mark ∈ split.marks, mark.directive.isBlock = true →
        ∃ opening inner closing, linesOf mark.source = opening :: (inner ++ [closing]) ∧
          IsFence closing ∧ ∀ place line, inner[place]? = some line → IsFence line →
            mark.directive.HoldsFenceAt place := by
  obtain ⟨split, hsplit, hscan, -⟩ := exists_split s
  refine ⟨split, hsplit, hscan, fun mark hmark hblock => ?_⟩
  obtain ⟨before, after, hspelled⟩ := hsplit.2.2.exists_spelledBy hmark
  exact hspelled.exists_linesOf hblock

/-- An interactive block without an expression swallows the block behind it; and a closing fence is
taken for a context, and for a file. -/
theorem block_runs_past_closer :
    scan "```lambda-interactive\na\n---\n```\n\n```lambda-interactive\nb\n---\ny\n```".toList =
        [.interactive ['a'] [] "```\n\n```lambda-interactive\nb\n---\ny".toList] ∧
      scan "```lambda-interactive\n```\n---t\nx\n```".toList =
        [.interactive "```".toList ['t'] ['x']] ∧
      scan "```lambda-defs\n```\n```".toList = [.listing "```".toList] := by
  decide +kernel

end Lectern.Directive
