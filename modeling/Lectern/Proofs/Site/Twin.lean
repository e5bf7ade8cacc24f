import Lectern.Proofs.Path.Display
import Lectern.Proofs.Site.Place
import Mathlib.Data.List.Nodup

/-!
# Lessons with the Same Page

A page has the name of its lesson with another ending. A dot at the start of a name divides nothing,
so the name `.md` has no ending that could be replaced: its page is called `.md.html`, which is also
the page of `.md.md`. Two lessons of these names in one folder are twins, and only twins have the
same page.

## Main results

* `pageName_append_ending`: the name of the page of a Markdown file.
* `page_eq_iff`: which lessons have the same page.
* `place_page_eq_iff`: which lessons have pages with the same path.
* `nodup_map_display_iff`: when a manifest shows all pages in different ways.
-/

namespace Lectern.Lesson

variable {lesson other : Lesson} {lessons : List Lesson} {names others : List Bytes} {name : Bytes}

/-! ### Pages -/

/-- The page of a lesson in a folder. -/
theorem page_concat (folder : Location) (name : Bytes) :
    page (folder ++ [name]) = folder ++ [pageName name] := by
  simp [page]

/-- **The name of a page** is that of the Markdown file with another ending, if the file has a name
before its ending. -/
theorem pageName_append_ending (stem : Bytes) : pageName (stem ++ Path.ofText nameEnding) =
    (if stem = [] then Path.ofText nameEnding else stem) ++ pageEnding := by
  have hending : Path.ofText nameEnding = [Path.dot, 0x6D, 0x64] := by decide
  have hextension : ((stem ++ Path.ofText nameEnding).reverse.takeWhile (· != Path.dot)).reverse =
      [0x6D, 0x64] := by
    rw [hending]
    simp [Path.dot]
  have hlength : (stem ++ Path.ofText nameEnding).length = stem.length + 3 := by
    rw [List.length_append, hending]
    rfl
  have hstem : (stem ++ Path.ofText nameEnding).take (stem.length + 3 - 2 - 1) = stem :=
    List.take_left' (by omega)
  simp only [pageName, Path.splitExtension, hextension, hlength, List.length_cons, List.length_nil,
    Nat.zero_add, hstem]
  by_cases hempty : stem = []
  · subst hempty
    simp
  · simp [hempty]

/-- Whether a lesson and another one are **twins**: they are in one folder, and one of them has no
name before its ending, the other one that ending. -/
def AreTwins (lesson other : Lesson) : Prop :=
  ∃ folder, (lesson = folder ++ [Path.ofText ".md".toList] ∧
      other = folder ++ [Path.ofText ".md.md".toList]) ∨
    (other = folder ++ [Path.ofText ".md".toList] ∧
      lesson = folder ++ [Path.ofText ".md.md".toList])

/-- Twins have the same page. -/
theorem AreTwins.page_eq (h : AreTwins lesson other) : page lesson = page other := by
  have hname : pageName (Path.ofText ".md".toList) = pageName (Path.ofText ".md.md".toList) := by
    decide
  obtain ⟨folder, ⟨rfl, rfl⟩ | ⟨rfl, rfl⟩⟩ := h
  · rw [page_concat, page_concat, hname]
  · rw [page_concat, page_concat, hname]

/-- The names of Markdown files whose pages have the same name. -/
theorem eq_of_pageName_append_ending {stem stem' : Bytes}
    (h : pageName (stem ++ Path.ofText nameEnding) = pageName (stem' ++ Path.ofText nameEnding)) :
    stem = stem' ∨ (stem = [] ∧ stem' = Path.ofText nameEnding) ∨
      (stem' = [] ∧ stem = Path.ofText nameEnding) := by
  rw [pageName_append_ending, pageName_append_ending] at h
  have hstems := List.append_cancel_right h
  split_ifs at hstems with hempty hempty' hempty'
  · exact .inl (hempty.trans hempty'.symm)
  · exact .inr (.inl ⟨hempty, hstems.symm⟩)
  · exact .inr (.inr ⟨hempty', hstems⟩)
  · exact .inl hstems

/-- **The same page** belongs to twins only. -/
theorem page_eq_iff (hlesson : IsMarkdown lesson) (hother : IsMarkdown other) :
    page lesson = page other ↔ lesson = other ∨ AreTwins lesson other := by
  refine ⟨fun h => ?_, fun h => h.elim (congrArg page) AreTwins.page_eq⟩
  obtain ⟨stem, hlast⟩ := hlesson
  obtain ⟨stem', hlast'⟩ := hother
  obtain ⟨folder, rfl⟩ := List.getLast?_eq_some_iff.1 hlast
  obtain ⟨folder', rfl⟩ := List.getLast?_eq_some_iff.1 hlast'
  rw [page_concat, page_concat] at h
  obtain ⟨rfl, hname⟩ := List.append_inj' h rfl
  rcases eq_of_pageName_append_ending (List.cons.inj hname).1 with rfl | ⟨rfl, rfl⟩ | ⟨rfl, rfl⟩
  · exact .inl rfl
  · exact .inr ⟨folder, .inl ⟨rfl, rfl⟩⟩
  · exact .inr ⟨folder, .inr ⟨rfl, rfl⟩⟩

/-- Twins differ. -/
theorem AreTwins.ne (h : AreTwins lesson other) : lesson ≠ other := by
  have hname : Path.ofText ".md".toList ≠ Path.ofText ".md.md".toList := by decide
  obtain ⟨folder, ⟨rfl, rfl⟩ | ⟨rfl, rfl⟩⟩ := h
  · simpa using hname
  · simpa using hname.symm

/-! ### Paths -/

/-- Names that are seen from a directory have different paths. -/
theorem place_inj {here : Surroundings} {base : Path} (hne : names ≠ []) (hothersNe : others ≠ [])
    (hnames : ∀ name ∈ names, Path.IsName name) (hothers : ∀ name ∈ others, Path.IsName name)
    (h : here.place (pathIn base names) = here.place (pathIn base others)) : names = others := by
  obtain ⟨front, hfront, -⟩ := exists_segments_place here base
  have hsegments := hfront names hne hnames
  rw [h, hfront others hothersNe hothers] at hsegments
  exact (List.append_cancel_left hsegments).symm

/-- **The same path** belongs to the pages of twins only. -/
theorem place_page_eq_iff {here : Surroundings} {base : Path} (hlesson : IsSource lesson)
    (hother : IsSource other) (hnames : ∀ name ∈ lesson, Path.IsName name)
    (hothers : ∀ name ∈ other, Path.IsName name) :
    here.place (pathIn base (page lesson)) = here.place (pathIn base (page other)) ↔
      lesson = other ∨ AreTwins lesson other := by
  rw [← page_eq_iff hlesson.isMarkdown hother.isMarkdown]
  exact ⟨place_inj (page_ne_nil hlesson.ne_nil) (page_ne_nil hother.ne_nil)
    (isName_of_mem_page hlesson.ne_nil hnames) (isName_of_mem_page hother.ne_nil hothers),
    fun h => by rw [h]⟩

/-! ### What is shown -/

/-- Whether a name is a text. -/
def IsText (name : Bytes) : Prop := ∃ text, name = Text.encode text

/-- The page of a lesson has names that are texts if the lesson has. -/
theorem isText_of_mem_page (hlesson : IsSource lesson) (htexts : ∀ name ∈ lesson, IsText name) :
    ∀ name ∈ page lesson, IsText name := by
  obtain ⟨stem, hlast⟩ := hlesson
  obtain ⟨folder, rfl⟩ := List.getLast?_eq_some_iff.1 hlast
  rw [page_concat]
  refine List.forall_mem_append.2 ⟨(List.forall_mem_append.1 htexts).1, ?_⟩
  refine List.forall_mem_singleton.2
    ⟨(if Text.encode stem = [] then nameEnding else stem) ++ ".html".toList, ?_⟩
  have hname : Text.encode (stem ++ nameEnding) = Text.encode stem ++ Path.ofText nameEnding :=
    List.flatMap_append
  rw [hname, pageName_append_ending, Text.encode, Text.encode, List.flatMap_append]
  split <;> rfl

/-- Locations are **shown in the same way** if their names are. -/
theorem display_eq_iff (hne : names ≠ []) (hothersNe : others ≠ [])
    (hnames : ∀ name ∈ names, Path.IsName name) (hothers : ∀ name ∈ others, Path.IsName name) :
    display names = display others ↔ names.map Path.display = others.map Path.display := by
  have hpieces : ∀ {names : List Bytes}, names ≠ [] → (∀ name ∈ names, Path.IsName name) →
      (display names).splitOn '/' = names.map Path.display := by
    intro names hne hnames
    refine List.splitOn_intercalate '/' (fun piece hpiece => ?_) (by simpa using hne)
    obtain ⟨name, hname, rfl⟩ := List.mem_map.1 hpiece
    exact Text.slash_not_mem_decodeLossy (hnames name hname).slash_not_mem
  refine ⟨fun h => ?_, congrArg _⟩
  rw [← hpieces hne hnames, ← hpieces hothersNe hothers, h]

/-- Texts are shown as they are. -/
theorem eq_of_map_display (hnames : ∀ name ∈ names, IsText name)
    (hothers : ∀ name ∈ others, IsText name)
    (h : names.map Path.display = others.map Path.display) : names = others := by
  have hshown : ∀ {names : List Bytes}, (∀ name ∈ names, IsText name) →
      (names.map Path.display).map Text.encode = names := by
    intro names hnames
    rw [List.map_map]
    refine (List.map_congr_left fun name hname => ?_).trans (List.map_id _)
    obtain ⟨text, rfl⟩ := hnames name hname
    exact congrArg Text.encode (Text.decodeLossy_encode text)
  rw [← hshown hnames, h, hshown hothers]

/-- **A manifest shows all pages in different ways** if no lessons are twins and all names are
texts. -/
theorem nodup_map_display_iff (hnodup : lessons.Nodup)
    (hsources : ∀ lesson ∈ lessons, IsSource lesson)
    (hnames : ∀ lesson ∈ lessons, ∀ name ∈ lesson, Path.IsName name)
    (htexts : ∀ lesson ∈ lessons, ∀ name ∈ lesson, IsText name) :
    (lessons.map (display ∘ page)).Nodup ↔
      ∀ lesson ∈ lessons, ∀ other ∈ lessons, ¬ AreTwins lesson other := by
  have hshown : ∀ lesson ∈ lessons, ∀ other ∈ lessons,
      display (page lesson) = display (page other) ↔ lesson = other ∨ AreTwins lesson other := by
    intro lesson hmem other hmemOther
    have hne := (hsources lesson hmem).ne_nil
    have hotherNe := (hsources other hmemOther).ne_nil
    rw [← page_eq_iff (hsources lesson hmem).isMarkdown (hsources other hmemOther).isMarkdown,
      display_eq_iff (page_ne_nil hne) (page_ne_nil hotherNe)
        (isName_of_mem_page hne (hnames lesson hmem))
        (isName_of_mem_page hotherNe (hnames other hmemOther))]
    exact ⟨eq_of_map_display (isText_of_mem_page (hsources lesson hmem) (htexts lesson hmem))
      (isText_of_mem_page (hsources other hmemOther) (htexts other hmemOther)), congrArg _⟩
  rw [List.nodup_map_iff_inj_on hnodup]
  constructor
  · intro hinj lesson hmem other hmemOther htwins
    exact htwins.ne (hinj lesson hmem other hmemOther
      ((hshown lesson hmem other hmemOther).2 (.inr htwins)))
  · intro hnone lesson hmem other hmemOther heq
    exact ((hshown lesson hmem other hmemOther).1 heq).resolve_right
      (hnone lesson hmem other hmemOther)

end Lectern.Lesson
