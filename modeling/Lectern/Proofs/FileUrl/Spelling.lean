import Lectern.FileUrl
import Lectern.Proofs.Path.Normal

/-!
# How Paths Are Spelled in URLs

The URL of an absolute path has, behind the scheme and two slashes, the names of the path, each
behind a slash and with its bytes encoded one by one. This module has what can be seen in a URL
because of that, without reading it back.

## Main results

* `ofPath?_eq_some_iff`: the URL of a path.
* `printable_of_mem_encodeByte`: names are spelled in printable characters.
* `toPath?_eq_none`: a URL of another scheme leads to no path.
-/

namespace Lectern.FileUrl

/-! ### Spelling -/

/-- How the URLs of paths start: with the scheme, and with two slashes before a host without a
name. -/
def start : Text := "file://".toList

/-- A step of a path as it stands in a URL. -/
def spell (step : Path.Component) : Text := '/' :: encodeName step.bytes

/-- The steps of a path behind its root, as they stand in its URL. -/
def spelled (p : Path) : Text :=
  if (Path.components p).drop 1 = [] then ['/'] else ((Path.components p).drop 1).flatMap spell

/-- **The URL of a path** is its spelling behind the scheme. -/
theorem ofPath?_eq_some_iff {p : Path} {url : Text} :
    ofPath? p = some url ↔ Path.isAbsolute p = true ∧ url = start ++ spelled p := by
  have hspelled : (if (((Path.components p).drop 1).map fun c =>
        '/' :: encodeName c.bytes).isEmpty then ['/'] else
        (((Path.components p).drop 1).map fun c => '/' :: encodeName c.bytes).flatten) =
      spelled p := by
    unfold spelled
    rcases (Path.components p).drop 1 with _ | ⟨step, steps⟩ <;> rfl
  unfold ofPath?
  simp only [hspelled]
  by_cases habsolute : Path.isAbsolute p = true
  · rw [if_pos habsolute, Option.some.injEq]
    exact ⟨fun h => ⟨habsolute, h.symm⟩, fun h => h.2.symm⟩
  · rw [if_neg habsolute]
    exact ⟨nofun, fun h => absurd h.1 habsolute⟩

/-- The bytes of a name are encoded one by one. -/
theorem encodeName_append (first second : Bytes) :
    encodeName (first ++ second) = encodeName first ++ encodeName second :=
  List.flatMap_append

/-- **Bytes are spelled in printable characters** of ASCII. -/
theorem printable_of_mem_encodeByte {b : UInt8} {c : Char} (h : c ∈ encodeByte b) :
    0x20 < c.toNat ∧ c.toNat < 0x7F := by
  have hall : ∀ n : Fin 256, (encodeByte (UInt8.ofFin n)).all fun c =>
      decide (0x20 < c.toNat ∧ c.toNat < 0x7F) := by
    decide +kernel
  exact of_decide_eq_true (List.all_eq_true.1 (hall b.toFin) c h)

/-- Steps are spelled on one line. -/
theorem newline_not_mem_flatMap_spell (steps : List Path.Component) :
    '\n' ∉ steps.flatMap spell := by
  intro hmem
  obtain ⟨step, -, hstep⟩ := List.mem_flatMap.1 hmem
  rcases List.mem_cons.1 hstep with hslash | hname
  · exact absurd hslash (by decide)
  · obtain ⟨b, -, hb⟩ := List.mem_flatMap.1 hname
    exact absurd (printable_of_mem_encodeByte hb).1 (by decide)

/-- Steps to a name that ends like this are spelled behind a slash, up to this ending. -/
theorem exists_flatMap_spell_eq (front : List Path.Component) (stem ending : Bytes) :
    ∃ inner, (front ++ [Path.Component.name (stem ++ ending)]).flatMap spell =
      '/' :: (inner ++ encodeName ending) := by
  have hlast : spell (.name (stem ++ ending)) = '/' :: (encodeName stem ++ encodeName ending) := by
    rw [spell, Path.Component.bytes, encodeName_append]
  cases front with
  | nil => exact ⟨encodeName stem, by simp [hlast]⟩
  | cons step front =>
    refine ⟨encodeName step.bytes ++ (front.flatMap spell ++ '/' :: encodeName stem), ?_⟩
    have hstep : spell step = '/' :: encodeName step.bytes := rfl
    simp [hlast, hstep]

/-- **The URL of a path through directories** spells these, and then leads on, on one line, to the
end of the name. -/
theorem exists_spelled_eq {p : Path} (habsolute : Path.isAbsolute p = true)
    {directories : List Bytes} (hne : directories ≠ [])
    (hthrough : Path.PassesThrough p directories) {ending : Bytes}
    (hname : Path.NameEndsWith p ending) :
    ∃ before inner,
      spelled p = before ++ (directories.map Path.Component.name).flatMap spell ++
        '/' :: (inner ++ encodeName ending) ∧
      '\n' ∉ inner ++ encodeName ending := by
  obtain ⟨above, below, hcomponents, hbelow⟩ := hthrough.exists_root habsolute hne
  obtain ⟨front, stem, rfl⟩ := hname.exists_concat
    (.root :: (above ++ directories.map Path.Component.name)) hcomponents hbelow
  obtain ⟨inner, hinner⟩ := exists_flatMap_spell_eq front stem ending
  refine ⟨above.flatMap spell, inner, ?_, fun hmem => ?_⟩
  · rw [← hinner]
    simp [spelled, hcomponents]
  · have hline := newline_not_mem_flatMap_spell (front ++ [Path.Component.name (stem ++ ending)])
    rw [hinner] at hline
    exact hline (List.mem_cons_of_mem _ hmem)

/-! ### Other schemes -/

/-- What a URL starts with is still there when it is cleaned, if it is all printable. -/
theorem exists_clean_append {first : Text} (hne : first ≠ [])
    (hfirst : ∀ c ∈ first, isEdge c = false) (rest : Text) :
    ∃ rest', clean (first ++ rest) = first ++ rest' := by
  have hkept : first.filter (fun c => c != '\t' && c != '\n' && c != '\r') = first := by
    refine List.filter_eq_self.2 fun c hmem => ?_
    have hedge := hfirst c hmem
    simp only [Bool.and_eq_true, bne_iff_ne]
    refine ⟨⟨?_, ?_⟩, ?_⟩ <;> rintro rfl <;> revert hedge <;> decide
  have hstart : (first ++ rest).dropWhile isEdge = first ++ rest := by
    obtain ⟨c, first, rfl⟩ := List.exists_cons_of_ne_nil hne
    simp [hfirst c (by simp)]
  have hend : first.reverse.dropWhile isEdge = first.reverse := by
    obtain ⟨c, last, hreverse⟩ := List.exists_cons_of_ne_nil (List.reverse_ne_nil_iff.2 hne)
    have hc : isEdge c = false := hfirst c (List.mem_reverse.1 (by simp [hreverse]))
    simp [hreverse, hc]
  obtain ⟨tail, htail⟩ : ∃ tail, ((first ++ rest).reverse.dropWhile isEdge).reverse =
      first ++ tail := by
    rw [List.reverse_append, List.dropWhile_append]
    split
    · exact ⟨[], by simp [hend]⟩
    · exact ⟨(rest.reverse.dropWhile isEdge).reverse, by simp⟩
  exact ⟨tail.filter _, by rw [clean, hstart, htail, List.filter_append, hkept]⟩

/-- **A URL of another scheme** leads to no path. -/
theorem toPath?_eq_none {first : Text} (hlength : first.length = 5)
    (hprintable : first.any isEdge = false) (hother : first.map lowerLetter ≠ "file:".toList)
    (rest : Text) : toPath? (first ++ rest) = none := by
  have hfirst : ∀ c ∈ first, isEdge c = false := by simpa using hprintable
  obtain ⟨rest', hclean⟩ :=
    exists_clean_append (List.ne_nil_of_length_pos (by omega)) hfirst rest
  have hscheme : afterScheme? (first ++ rest') = none := by
    rw [afterScheme?, List.take_left' hlength, if_neg hother]
  simp [toPath?, hclean, hscheme]

/-! ### Reading back -/

/-- Whether a path is **read back** from its URL. -/
def RoundTrips (p : Path) : Prop := (ofPath? p).bind toPath? = some p

instance (p : Path) : Decidable (RoundTrips p) := inferInstanceAs (Decidable (_ = _))

/-- A path that is read back is the path of its URL. -/
theorem RoundTrips.toPath?_eq {p : Path} {url : Text} (h : RoundTrips p)
    (hurl : ofPath? p = some url) : toPath? url = some p := by
  rwa [RoundTrips, hurl] at h

end Lectern.FileUrl
