import Lectern.Proofs.Page.Flow
import Lectern.Proofs.Page.Section
import Lectern.Proofs.Text.Basic
import Mathlib.Data.List.Basic
import Mathlib.Data.List.Infix

/-!
# Pieces of a Page

Whether given things stand in a markup, each as a piece of it and one behind the other, whatever
else there is. What a piece of a thing looks like is left open; it only has to be delimited like a
tag. Then the writer takes no pieces when it trims a text, puts links back before the last close
tag of a note, or wraps a heading or a note.

## Main results

* `HasPieces.append`, `HasPieces.of_append`, `HasPieces.of_prepend`: pieces of texts that are put
  together and cut.
* `HasPieces.trim`, `HasPieces.trimEnd`: trimming.
* `HasPieces.headingElement`, `HasPieces.noteItem`: the elements of headings and notes.
-/

namespace Lectern.Page

open Markup

variable {α : Type} {IsPiece : α → Text → Prop} {thing : α} {things more : List α}
  {piece s t : Text}

/-- Whether a markup **has pieces** of the given things, one behind the other. -/
inductive HasPieces (IsPiece : α → Text → Prop) : List α → Text → Prop
  | nil (s : Text) : HasPieces IsPiece [] s
  | cons {thing : α} {things : List α} {piece rest : Text} (lead : Text) :
      IsPiece thing piece → HasPieces IsPiece things rest →
      HasPieces IsPiece (thing :: things) (lead ++ piece ++ rest)

namespace HasPieces

/-- A piece alone. -/
theorem single (h : IsPiece thing piece) : HasPieces IsPiece [thing] piece := by
  simpa using HasPieces.cons [] h (.nil [])

/-- A longer markup. -/
theorem prepend (h : HasPieces IsPiece things s) (lead : Text) :
    HasPieces IsPiece things (lead ++ s) := by
  cases h with
  | nil => exact .nil _
  | cons before hpiece hrest =>
    rw [← List.append_assoc, ← List.append_assoc]
    exact .cons (lead ++ before) hpiece hrest

/-- Pieces behind pieces. -/
theorem append (hs : HasPieces IsPiece things s) (ht : HasPieces IsPiece more t) :
    HasPieces IsPiece (things ++ more) (s ++ t) := by
  induction hs with
  | nil s => exact ht.prepend s
  | cons lead hpiece _ ih =>
    rw [List.append_assoc]
    exact .cons lead hpiece ih

/-- **What is cut off at the end** takes no pieces, if none can end in it. -/
theorem of_append (h : HasPieces IsPiece things (s ++ t))
    (hcut : ∀ thing piece, IsPiece thing piece →
      ∀ a b, t = a ++ b → a ≠ [] → ¬ piece <:+ s ++ a) :
    HasPieces IsPiece things s := by
  generalize hwhole : s ++ t = whole at h
  induction h generalizing s with
  | nil => exact .nil s
  | @cons thing things piece rest lead hpiece _ ih =>
    -- the pieces behind the first one do not end in what is cut off either
    have hbehind : ∀ {middle}, s = lead ++ piece ++ middle → middle ++ t = rest →
        HasPieces IsPiece (thing :: things) s := by
      rintro middle rfl hrest
      refine .cons lead hpiece (ih (fun other text htext a b ht ha hends => ?_) hrest)
      refine hcut other text htext a b ht ha (hends.trans ?_)
      rw [List.append_assoc]
      exact List.suffix_append _ _
    rcases List.append_eq_append_iff.1 hwhole with ⟨middle, hfront, ht⟩ | ⟨middle, hs, hrest⟩
    · by_cases hmiddle : middle = []
      · subst hmiddle
        exact @hbehind [] (by simpa using hfront.symm) (by simpa using ht)
      · exact absurd (hfront ▸ List.suffix_append lead piece)
          (hcut thing piece hpiece middle rest ht hmiddle)
    · exact hbehind hs hrest.symm

/-- **What is cut off at the start** takes no pieces, if none can begin in it. -/
theorem of_prepend {lead : Text} (h : HasPieces IsPiece things (lead ++ s))
    (hcut : ∀ thing piece, IsPiece thing piece → ∃ c ∈ piece.head?, c ∉ lead) :
    HasPieces IsPiece things s := by
  generalize hwhole : lead ++ s = whole at h
  cases h with
  | nil => exact .nil s
  | @cons thing things piece rest before hpiece hrest =>
    obtain ⟨c, hc, hmem⟩ := hcut thing piece hpiece
    obtain ⟨tail, rfl⟩ := List.head?_eq_some_iff.1 hc
    rw [List.append_assoc] at hwhole
    rcases List.append_eq_append_iff.1 hwhole with ⟨middle, rfl, hs⟩ | ⟨middle, rfl, hs⟩
    · rw [hs, ← List.append_assoc]
      exact .cons middle hpiece hrest
    · cases middle with
      | nil =>
        rw [List.nil_append] at hs
        exact hs ▸ .cons [] hpiece hrest
      | cons d middle =>
        obtain ⟨rfl, -⟩ := List.cons.inj hs
        simp at hmem

end HasPieces

/-! ### Pieces like tags -/

/-- Whether pieces are **delimited like tags**: no blank character at either end, and at the end
another close tag than that of a paragraph. -/
structure LikeTags (IsPiece : α → Text → Prop) : Prop where
  begins : ∀ {thing piece}, IsPiece thing piece → '<' ∈ piece.head?
  ends : ∀ {thing piece}, IsPiece thing piece → ∃ front c, c ≠ 'p' ∧ piece = front ++ [c, '>']

namespace HasPieces

variable (hlike : LikeTags IsPiece)

include hlike

/-- Trimming at the end takes no pieces. -/
theorem trimEnd (h : HasPieces IsPiece things s) : HasPieces IsPiece things (Text.trimEnd s) := by
  obtain ⟨blank, hs, hblank⟩ := Text.exists_trimEnd_append s
  rw [hs] at h
  refine h.of_append fun thing piece hpiece a b hblanks ha hends => ?_
  obtain ⟨front, c, -, rfl⟩ := hlike.ends hpiece
  obtain ⟨before, heq⟩ := hends
  have hlast := congrArg List.getLast? heq
  rw [List.getLast?_append_of_ne_nil _ ha] at hlast
  have hmem : '>' ∈ a := List.mem_of_getLast? (by simpa using hlast.symm)
  have hbracket := hblank '>' (hblanks ▸ List.mem_append_left b hmem)
  exact absurd hbracket (by decide)

/-- **Trimming** takes no pieces. -/
theorem trim (h : HasPieces IsPiece things s) : HasPieces IsPiece things (Text.trim s) := by
  obtain ⟨blank, hs, hblank⟩ := Text.exists_append_trimStart s
  rw [hs] at h
  refine (h.of_prepend fun thing piece hpiece => ⟨'<', hlike.begins hpiece, ?_⟩).trimEnd hlike
  exact fun hmem => absurd (hblank '<' hmem) (by decide)

/-- The element of a heading has the pieces of its content. -/
theorem headingElement (h : HasPieces IsPiece things s) (level : Nat) (id : Text) :
    HasPieces IsPiece things (Writer.headingElement level id s) := by
  have hcontent := (h.trim hlike).prepend
    ("<h".toList ++ Text.decimal level ++ " id=\"".toList ++ id ++ "\">".toList)
  have helement := hcontent.append (.nil ("</h".toList ++ Text.decimal level ++ ">\n".toList))
  rw [List.append_nil] at helement
  unfold Writer.headingElement
  rw [List.append_assoc _ "</h".toList, List.append_assoc _ ("</h".toList ++ _)]
  exact helement

/-- Markup goes in before a final close tag. -/
theorem of_append_closeTag (h : HasPieces IsPiece things (s ++ "</p>".toList)) :
    HasPieces IsPiece things s := by
  refine h.of_append fun thing piece hpiece a b htag ha hends => ?_
  obtain ⟨front, c, hc, rfl⟩ := hlike.ends hpiece
  obtain ⟨before, heq⟩ := hends
  have hlast : a.getLast? = some '>' := by
    have hboth := congrArg List.getLast? heq
    rw [List.getLast?_append_of_ne_nil _ ha] at hboth
    simpa using hboth.symm
  have hinits : a ∈ [[], "<".toList, "</".toList, "</p".toList, "</p>".toList] :=
    (List.mem_inits _ "</p>".toList).2 ⟨b, htag.symm⟩
  simp only [List.mem_cons, List.not_mem_nil, or_false] at hinits
  -- only the whole tag ends with a bracket, and another character stands before that
  rcases hinits with rfl | rfl | rfl | rfl | rfl
  · exact ha rfl
  · cases hlast
  · cases hlast
  · cases hlast
  · have hbefore := congrArg (fun text : Text => text.dropLast.getLast?) heq
    exact hc (by simpa [List.dropLast_append_of_ne_nil] using hbefore)

/-- An item has the pieces of its body. -/
theorem noteItem (h : HasPieces IsPiece things s) (context : PageContext) (naming : FootnoteNaming)
    (anchor : FootnoteAnchor) (tokens : List FootnoteToken) :
    HasPieces IsPiece things (noteItem context naming anchor tokens s) := by
  have hclosed : HasPieces IsPiece things (FootnoteLedger.closeBody s
      ((List.range tokens.length).flatMap fun index => anchor tokens index context naming)) := by
    unfold FootnoteLedger.closeBody
    split
    · next head hhead =>
      obtain rfl := Text.before?_eq_some_iff.1 hhead
      have hall := (h.of_append_closeTag hlike).append (.nil (((List.range
        tokens.length).flatMap fun index => anchor tokens index context naming) ++ "</p>".toList))
      simpa using hall
    · have hall := h.append (.nil ((List.range tokens.length).flatMap
        fun index => anchor tokens index context naming))
      simpa using hall
  unfold Page.noteItem
  have hitem := (hclosed.append (.nil "</li>\n".toList)).prepend ("<li id=\"fn".toList ++
    naming.anchorName tokens 0 context ++ "\" class=\"footnote-item\">".toList)
  simpa using hitem

end HasPieces

end Lectern.Page
