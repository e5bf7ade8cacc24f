import Lectern.Proofs.Text.Recast

/-!
# Places of a Walk

The places of a text at which a walk stops: it starts at the beginning, and goes on behind each
character that it keeps and behind each occurrence that it takes. What two walks over one text take
is compared by these places.

## Main results

* `Arrives.pass`: a walk passes a part of the text in which it takes nothing.
* `Arrives.through`: a walk stops at the end of a part beyond which it takes nothing.
-/

namespace Lectern.Text

variable {α : Type} {find : Finder α} {s earlier later part : Text}

/-- The walk over `s` **arrives** at the place between `earlier` and `later`. -/
inductive Arrives (find : Finder α) (s : Text) : (earlier later : Text) → Prop
  | start : Arrives find s [] s
  | kept {earlier later : Text} {c : Char} :
      Arrives find s earlier (c :: later) → find earlier.reverse (c :: later) = none →
      Arrives find s (earlier ++ [c]) later
  | hit {earlier source later : Text} {occurrence : α} :
      Arrives find s earlier (source ++ later) →
      find earlier.reverse (source ++ later) = some (occurrence, source.length) →
      Arrives find s (earlier ++ source) later

/-- The walk over `s` **takes** the part `source` between `earlier` and `later` as an occurrence. -/
structure Takes (find : Finder α) (s earlier source later : Text) (occurrence : α) : Prop where
  arrives : Arrives find s earlier (source ++ later)
  found : find earlier.reverse (source ++ later) = some (occurrence, source.length)

/-- The walk is between two parts of the text. -/
theorem Arrives.eq_append (h : Arrives find s earlier later) : s = earlier ++ later := by
  induction h with
  | start => rfl
  | kept _ _ ih => simp [ih]
  | hit _ _ ih => simp [ih]

/-- What is taken stands in the text. -/
theorem Takes.eq_append {source : Text} {occurrence : α}
    (h : Takes find s earlier source later occurrence) : s = earlier ++ (source ++ later) :=
  h.arrives.eq_append

/-- The places at which a finder finds something, with the lengths of what it finds. -/
def spots (find : Finder α) (s : Text) : List (Nat × Nat) :=
  (List.range (s.length + 1)).filterMap fun place =>
    (find (s.take place).reverse (s.drop place)).map fun (_, length) => (place, length)

/-- What is taken is at one of these places. -/
theorem Takes.mem_spots {source : Text} {occurrence : α}
    (h : Takes find s earlier source later occurrence) :
    (earlier.length, source.length) ∈ spots find s := by
  refine List.mem_filterMap.2 ⟨earlier.length, List.mem_range.2 ?_, ?_⟩
  · rw [h.eq_append, List.length_append]
    omega
  · rw [h.eq_append, List.take_left, List.drop_left, h.found]
    rfl

/-- What a finder that fits finds is a part of the text. -/
theorem Fits.exists_source {before rest : Text} {occurrence : α} {length : Nat} (fits : Fits find)
    (h : find before rest = some (occurrence, length)) :
    ∃ source later, rest = source ++ later ∧ source.length = length ∧ source ≠ [] := by
  obtain ⟨hpos, hle⟩ := fits h
  have hlength : (rest.take length).length = length := List.length_take_of_le hle
  refine ⟨_, _, (List.take_append_drop length rest).symm, hlength, ?_⟩
  exact List.length_pos_iff.1 (hlength.symm ▸ hpos)

/-- The pieces of a text that starts with a part in which nothing is found. -/
theorem piecesFrom_append_of_none {before : Text}
    (hnone : ∀ front rest, part = front ++ rest → rest ≠ [] →
      find (front.reverse ++ before) (rest ++ later) = none) :
    piecesFrom find before 0 (part ++ later) =
      part.map .kept ++ piecesFrom find (part.reverse ++ before) 0 later := by
  induction part generalizing before with
  | nil => rfl
  | cons c part ih =>
    have hfirst : find before (c :: (part ++ later)) = none := by
      simpa using hnone [] (c :: part) rfl (by simp)
    rw [List.cons_append, piecesFrom_kept hfirst, ih fun front rest heq hne => ?_]
    · simp
    · simpa using hnone (c :: front) rest (by simp [heq]) hne

/-- **A walk passes a part of the text** in which it takes nothing. -/
theorem Arrives.pass (fits : Fits find) (h : Arrives find s earlier (part ++ later))
    (hnothing : ∀ front rest, part = front ++ rest → rest ≠ [] → ∀ source behind occurrence,
      ¬ Takes find s (earlier ++ front) source behind occurrence) :
    Arrives find s (earlier ++ part) later ∧
      piecesFrom find earlier.reverse 0 (part ++ later) =
        part.map .kept ++ piecesFrom find (earlier ++ part).reverse 0 later := by
  induction part generalizing earlier with
  | nil => exact ⟨by simpa using h, by simp⟩
  | cons c part ih =>
    have hnone : find earlier.reverse (c :: (part ++ later)) = none := by
      refine Option.eq_none_iff_forall_ne_some.2 fun ⟨occurrence, length⟩ hfound => ?_
      obtain ⟨source, behind, heq, rfl, -⟩ := fits.exists_source hfound
      refine hnothing [] (c :: part) rfl (by simp) source behind occurrence ?_
      rw [List.append_nil]
      exact ⟨heq ▸ h, heq ▸ hfound⟩
    obtain ⟨harrives, hpieces⟩ := ih (h.kept hnone) fun front rest heq hne => by
      simpa using hnothing (c :: front) rest (by simp [heq]) hne
    refine ⟨by simpa using harrives, ?_⟩
    rw [List.cons_append, piecesFrom_kept hnone]
    simpa using hpieces

/-- **A walk stops at the end of a part** beyond which it takes nothing from inside. What is written
for its occurrences recasts the part. Strong induction on the length of the part, since an
occurrence takes many characters at once. -/
theorem Arrives.through {ok : Text → Text → Prop} {write : α → Text} {earlier part : Text}
    (fits : Fits find) (h : Arrives find s earlier (part ++ later))
    (hwithin : ∀ front rest, part = front ++ rest → rest ≠ [] → ∀ source behind occurrence,
      Takes find s (earlier ++ front) source behind occurrence → source.length ≤ rest.length)
    (hwrite : ∀ {before source after occurrence},
      find before (source ++ after) = some (occurrence, source.length) →
      ok source (write occurrence)) :
    Arrives find s (earlier ++ part) later ∧
      ∃ ps, piecesFrom find earlier.reverse 0 (part ++ later) =
          ps ++ piecesFrom find (earlier ++ part).reverse 0 later ∧
        Recast ok part (rewriteHits write ps) := by
  match part with
  | [] => exact ⟨by simpa using h, [], by simp, .nil⟩
  | c :: part =>
    match hfound : find earlier.reverse (c :: (part ++ later)) with
    | none =>
      obtain ⟨harrives, ps, hpieces, hrecast⟩ := (h.kept hfound).through fits
        (fun front rest heq hne => by simpa using hwithin (c :: front) rest (by simp [heq]) hne)
        hwrite
      refine ⟨by simpa using harrives, .kept c :: ps, ?_, .keep hrecast⟩
      rw [List.cons_append, piecesFrom_kept hfound]
      simpa using hpieces
    | some (occurrence, length) =>
      obtain ⟨source, behind, heq, rfl, hne⟩ := fits.exists_source hfound
      rw [List.cons_append, heq] at h
      rw [heq] at hfound
      have hle := hwithin [] (c :: part) rfl (by simp) source behind occurrence
        (by rw [List.append_nil]; exact ⟨h, hfound⟩)
      have hstart : c :: part <+: source ++ behind := heq ▸ List.prefix_append (c :: part) later
      obtain ⟨inside, hinside⟩ : source <+: c :: part :=
        List.prefix_of_prefix_length_le (List.prefix_append source behind) hstart hle
      obtain rfl : inside ++ later = behind := by
        rw [← List.cons_append, ← hinside, List.append_assoc] at heq
        exact List.append_cancel_left heq
      have hshort : inside.length < (c :: part).length := by
        have := List.length_pos_iff.2 hne
        rw [← hinside, List.length_append]
        omega
      obtain ⟨harrives, ps, hpieces, hrecast⟩ := (h.hit hfound).through fits
        (fun front rest heq hne => by
          simpa using hwithin (source ++ front) rest (by simp [← hinside, heq]) hne)
        hwrite
      rw [← hinside]
      refine ⟨by simpa using harrives, .hit occurrence :: ps, ?_, .swap (hwrite hfound) hrecast⟩
      rw [List.append_assoc, piecesFrom_hit hne hfound, List.cons_append, ← List.append_assoc]
      simpa using hpieces
termination_by part.length
decreasing_by
  · exact Nat.lt_succ_self part.length
  · exact hshort

end Lectern.Text
