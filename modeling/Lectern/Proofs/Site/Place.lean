import Lectern.Proofs.FileTree.Writing
import Lectern.Proofs.Site.Lesson

/-!
# Where Sources and Pages Stand

A lesson and its page are seen from two directories, and their paths are those of the directories
with the names of the lesson behind them. So the places of two pages differ if the pages do, and no
page stands in the place of a source, because its name ends in another way.

## Main results

* `exists_segments_place`: the segments of the place of names that are seen from a directory.
* `eq_of_locate_place`: one place is not that of different names.
* `locate_place_of_isSome`: the path of what stands below a directory leads to it.
* `IsMarkdown.not_isOutput`: what is written does not have the name of a source.
-/

namespace Lectern

variable {here : Surroundings} {base : Path} {names : List Bytes} {name : Bytes}
  {tree : FileTree} {location parent : Location} {lesson : Lesson}

namespace Path

/-- What is seen from a directory is as absolute as the directory. -/
theorem isAbsolute_join_of_relative {base p : Path} (hp : isAbsolute p = false) :
    isAbsolute (join base p) = isAbsolute base := by
  rw [join, if_neg (by simp [hp])]
  cases base with
  | nil => exact hp
  | cons b rest => split <;> rfl

/-- A path with a relative path behind it is not empty. -/
theorem join_ne_nil {base p : Path} (hp : p ≠ []) : join base p ≠ [] := by
  unfold join
  split
  · exact hp
  · split <;> simp [hp]

/-- A name is one segment. -/
theorem IsName.segments (h : IsName name) : segments name = [name] := by
  rw [segments_eq_splitOn, List.splitOn_eq_singleton h.slash_not_mem]

end Path

namespace Lesson

/-! ### Paths -/

/-- The path of names with one more. -/
theorem pathIn_concat (base : Path) (names : List Bytes) (name : Bytes) :
    pathIn base (names ++ [name]) = Path.join (pathIn base names) name := by
  rw [pathIn, List.foldl_append]
  rfl

/-- The path of names is as absolute as the directory. -/
theorem isAbsolute_pathIn (hnames : ∀ name ∈ names, Path.IsName name) :
    Path.isAbsolute (pathIn base names) = Path.isAbsolute base := by
  induction names using List.reverseRecOn with
  | nil => rfl
  | append_singleton names name ih =>
    obtain ⟨hbefore, hname⟩ := List.forall_mem_append.1 hnames
    have hrelative := (hname name (List.mem_singleton_self name)).isAbsolute_eq_false
    rw [pathIn_concat, Path.isAbsolute_join_of_relative hrelative, ih hbefore]

/-- The path of names is not empty. -/
theorem pathIn_ne_nil (hne : names ≠ []) (hnames : ∀ name ∈ names, Path.IsName name) :
    pathIn base names ≠ [] := by
  obtain ⟨before, last, rfl⟩ := (List.eq_nil_or_concat' names).resolve_left hne
  rw [pathIn_concat]
  exact Path.join_ne_nil (hnames last (by simp)).ne_nil

/-- **The segments** of the path of names that are seen from a directory. -/
theorem exists_segments_pathIn (base : Path) : ∃ front,
    (∀ names : List Bytes, names ≠ [] → (∀ name ∈ names, Path.IsName name) →
      Path.segments (pathIn base names) = front ++ names) ∧
    (base ≠ [] → Path.segments base = front ∨ Path.segments base = front ++ [[]]) := by
  obtain ⟨front, hfront, hbase⟩ := Path.exists_segments_join base
  refine ⟨front, fun names hne hnames => ?_, hbase⟩
  induction names using List.reverseRecOn with
  | nil => exact absurd rfl hne
  | append_singleton names name ih =>
    obtain ⟨hbefore, hname⟩ := List.forall_mem_append.1 hnames
    have hname := hname name (List.mem_singleton_self name)
    rw [pathIn_concat]
    by_cases hempty : names = []
    · rw [hempty, pathIn, List.foldl_nil, hfront name hname.isAbsolute_eq_false, hname.segments]
      rfl
    · -- the path so far ends with a name, so there is no empty segment at its end
      obtain ⟨before, last, rfl⟩ := (List.eq_nil_or_concat' names).resolve_left hempty
      have hpath := ih hempty hbefore
      have hlast := (hbefore last (by simp)).ne_nil
      obtain ⟨whole, hwhole, hends⟩ := Path.exists_segments_join (pathIn base (before ++ [last]))
      rw [hwhole name hname.isAbsolute_eq_false, hname.segments]
      rcases hends (pathIn_ne_nil hempty hbefore) with hends | hends
      · rw [← hends, hpath, List.append_assoc]
      · rw [hpath, ← List.append_assoc] at hends
        exact absurd (List.cons.inj (List.append_inj_right' hends rfl)).1 hlast

/-- **The segments of the place** of names that are seen from a directory. -/
theorem exists_segments_place (here : Surroundings) (base : Path) : ∃ front,
    (∀ names : List Bytes, names ≠ [] → (∀ name ∈ names, Path.IsName name) →
      Path.segments (here.place (pathIn base names)) = front ++ names) ∧
    (base ≠ [] → Path.segments (here.place base) = front ∨
      Path.segments (here.place base) = front ++ [[]]) := by
  obtain ⟨front, hfront, hbase⟩ := exists_segments_pathIn base
  cases habsolute : Path.isAbsolute base with
  | true =>
    refine ⟨front, fun names hne hnames => ?_, fun hne => ?_⟩
    · rw [Surroundings.place, if_neg (pathIn_ne_nil hne hnames), Path.join,
        if_pos ((isAbsolute_pathIn hnames).trans habsolute), hfront names hne hnames]
    · rw [Surroundings.place, if_neg hne, Path.join, if_pos habsolute]
      exact hbase hne
  | false =>
    obtain ⟨outer, houter, -⟩ := Path.exists_segments_join here.workingDirectory
    refine ⟨outer ++ front, fun names hne hnames => ?_, fun hne => ?_⟩
    · rw [Surroundings.place, if_neg (pathIn_ne_nil hne hnames),
        houter _ ((isAbsolute_pathIn hnames).trans habsolute), hfront names hne hnames,
        List.append_assoc]
    · rw [Surroundings.place, if_neg hne, houter base habsolute]
      exact (hbase hne).imp (congrArg (outer ++ ·)) fun h => by rw [h, List.append_assoc]

/-! ### Locations -/

/-- Names lead to the location that they spell, and they are short. -/
theorem eq_of_walk_names (hnames : ∀ name ∈ names, Path.IsName name)
    (h : tree.walk parent names = .ok location) :
    location = parent ++ names ∧ ∀ name ∈ names, name.length ≤ FileTree.maxName := by
  induction names generalizing parent with
  | nil => exact ⟨by simpa using (Except.ok.inj h).symm, by simp⟩
  | cons name names ih =>
    obtain ⟨hname, hrest⟩ := List.forall_mem_cons.1 hnames
    rw [FileTree.walk] at h
    split at h
    · next next hstep =>
      obtain ⟨-, hlength, -, rfl⟩ := (FileTree.step_eq_ok_iff hname).1 hstep
      obtain ⟨rfl, hlengths⟩ := ih hrest h
      exact ⟨by simp, List.forall_mem_cons.2 ⟨hlength, hlengths⟩⟩
    · cases h

/-- Names lead to what stands where they lead. -/
theorem walk_names_of_isSome (htree : tree.IsProper)
    (hlengths : ∀ name ∈ names, name.length ≤ FileTree.maxName)
    (h : (tree.entry? (parent ++ names)).isSome = true) :
    tree.walk parent names = .ok (parent ++ names) := by
  induction names generalizing parent with
  | nil => simp [FileTree.walk]
  | cons name names ih =>
    obtain ⟨hlength, hrest⟩ := List.forall_mem_cons.1 hlengths
    have hname : Path.IsName name := htree.isName_of_mem h (by simp)
    have hparent := htree.entry?_of_append (List.cons_ne_nil name names) h
    rw [List.append_cons] at h
    have hentry : (tree.entry? (parent ++ [name])).isSome = true := by
      by_cases hempty : names = []
      · simpa [hempty] using h
      · rw [htree.entry?_of_append hempty h]
        rfl
    have hstep : tree.step parent name = .ok (parent ++ [name]) :=
      (FileTree.step_eq_ok_iff hname).2 ⟨hparent, hlength, hentry, rfl⟩
    have hend := ih hrest h
    rw [← List.append_cons] at hend
    rw [FileTree.walk, hstep]
    exact hend

/-- **The place of names** is at the end of the names, behind where the other segments lead. -/
theorem exists_parent_of_locate {p : Path} {front : List Bytes}
    (hnames : ∀ name ∈ names, Path.IsName name) (hsegments : Path.segments p = front ++ names)
    (h : tree.locate p = .ok location) : ∃ parent, tree.walk [] front = .ok parent ∧
      location = parent ++ names ∧ ∀ name ∈ names, name.length ≤ FileTree.maxName := by
  obtain ⟨-, -, hwalk⟩ := FileTree.walk_of_locate h
  rw [hsegments, FileTree.walk_append] at hwalk
  cases hfront : tree.walk [] front with
  | error fault =>
    rw [hfront] at hwalk
    cases hwalk
  | ok parent =>
    rw [hfront] at hwalk
    obtain ⟨hlocation, hlengths⟩ := eq_of_walk_names hnames hwalk
    exact ⟨parent, rfl, hlocation, hlengths⟩

/-- The place of names has the last of them. -/
theorem getLast?_of_locate_place (hne : names ≠ []) (hnames : ∀ name ∈ names, Path.IsName name)
    (h : tree.locate (here.place (pathIn base names)) = .ok location) :
    location.getLast? = names.getLast? := by
  obtain ⟨front, hfront, -⟩ := exists_segments_place here base
  obtain ⟨parent, -, rfl, -⟩ := exists_parent_of_locate hnames (hfront names hne hnames) h
  obtain ⟨before, last, rfl⟩ := (List.eq_nil_or_concat' names).resolve_left hne
  rw [← List.append_assoc, List.getLast?_concat, List.getLast?_concat]

/-- **One place** is not that of different names. -/
theorem eq_of_locate_place {others : List Bytes} (hne : names ≠ []) (hothersNe : others ≠ [])
    (hnames : ∀ name ∈ names, Path.IsName name) (hothers : ∀ name ∈ others, Path.IsName name)
    (h : tree.locate (here.place (pathIn base names)) = .ok location)
    (h' : tree.locate (here.place (pathIn base others)) = .ok location) : names = others := by
  obtain ⟨front, hfront, -⟩ := exists_segments_place here base
  obtain ⟨parent, hparent, rfl, -⟩ := exists_parent_of_locate hnames (hfront names hne hnames) h
  obtain ⟨parent', hparent', heq, -⟩ :=
    exists_parent_of_locate hothers (hfront others hothersNe hothers) h'
  obtain rfl := Except.ok.inj (hparent.symm.trans hparent')
  exact List.append_cancel_left heq

/-- **What stands below a directory** is where its path leads, if the path leads anywhere after the
tree has grown. -/
theorem locate_place_of_isSome {written : Location → Prop} (htree : here.tree.IsProper)
    (hgrows : FileTree.GrowsAt written here.tree tree)
    (hbase : here.tree.locate (here.place base) = .ok parent) (hne : names ≠ [])
    (hentry : (here.tree.entry? (parent ++ names)).isSome = true)
    (h : tree.locate (here.place (pathIn base names)) = .ok location) :
    location = parent ++ names ∧
      here.tree.locate (here.place (pathIn base names)) = .ok (parent ++ names) := by
  have hnames : ∀ name ∈ names, Path.IsName name := fun name hmem =>
    htree.isName_of_mem hentry (List.mem_append_right _ hmem)
  have hbaseNe : base ≠ [] := by
    rintro rfl
    cases hbase
  obtain ⟨front, hfront, hends⟩ := exists_segments_place here base
  obtain ⟨-, -, hwalk⟩ := FileTree.walk_of_locate hbase
  have hparent : here.tree.walk [] front = .ok parent := by
    rcases hends hbaseNe with hends | hends
    · rwa [hends] at hwalk
    · rw [hends, FileTree.walk_append] at hwalk
      cases hfront : here.tree.walk [] front with
      | error fault =>
        rw [hfront] at hwalk
        cases hwalk
      | ok last =>
        have hsilent : here.tree.walk last [[]] = .ok parent := by rwa [hfront] at hwalk
        have hdirectory := FileTree.entry?_of_walk (List.cons_ne_nil [] []) hsilent
        simpa [FileTree.walk, FileTree.step, hdirectory, Path.isSilent] using hsilent
  obtain ⟨parent', hparent', hlocation, hlengths⟩ :=
    exists_parent_of_locate hnames (hfront names hne hnames) h
  obtain rfl : parent = parent' := Except.ok.inj ((hgrows.walk hparent).symm.trans hparent')
  obtain ⟨hplace, husable, -⟩ := FileTree.walk_of_locate h
  refine ⟨hlocation, ?_⟩
  rw [FileTree.locate, if_neg hplace, if_pos husable, hfront names hne hnames,
    FileTree.walk_append, hparent]
  exact walk_names_of_isSome htree hlengths hentry

/-! ### Names -/

/-- Whether a location has the name of a **Markdown file**. -/
def IsMarkdown (location : Location) : Prop :=
  ∃ stem, location.getLast? = some (stem ++ Path.ofText nameEnding)

/-- Whether a location has the name of what **building** a site writes: that of a page or of the
manifest. -/
def IsOutput (location : Location) : Prop :=
  (∃ name, location.getLast? = some (pageName name)) ∨
    location.getLast? = some Site.manifestName

/-- What has the name of a lesson has a name. -/
theorem IsSource.ne_nil (h : IsSource lesson) : lesson ≠ [] := by
  rintro rfl
  obtain ⟨stem, hstem⟩ := h
  cases hstem

/-- Lessons are Markdown files. -/
theorem IsSource.isMarkdown (h : IsSource lesson) : IsMarkdown lesson := by
  obtain ⟨stem, hlast⟩ := h
  refine ⟨Text.encode stem, ?_⟩
  rw [hlast, Text.encode, List.flatMap_append]
  rfl

/-- What stands below a directory has the names that it has. -/
theorem IsMarkdown.append (h : IsMarkdown location) (parent : Location) :
    IsMarkdown (parent ++ location) := by
  obtain ⟨stem, hstem⟩ := h
  exact ⟨stem, by rw [List.getLast?_append, hstem]; rfl⟩

/-- The manifest does not have the name of a page. -/
theorem pageName_ne_manifestName (name : Bytes) : pageName name ≠ Site.manifestName := by
  intro heq
  have hlast := congrArg List.getLast? heq
  rw [pageName, List.getLast?_append_of_ne_nil _ (by decide)] at hlast
  exact absurd hlast (by decide)

/-- **No Markdown file** is written. -/
theorem IsMarkdown.not_isOutput (h : IsMarkdown location) : ¬ IsOutput location := by
  obtain ⟨stem, hstem⟩ := h
  rintro (⟨name, hname⟩ | hname)
  · have hlast := congrArg List.getLast? (Option.some.inj (hstem.symm.trans hname))
    rw [pageName, List.getLast?_append_of_ne_nil _ (by decide),
      List.getLast?_append_of_ne_nil _ (by decide)] at hlast
    exact absurd hlast (by decide)
  · have hlast := congrArg List.getLast? (Option.some.inj (hstem.symm.trans hname))
    rw [List.getLast?_append_of_ne_nil _ (by decide)] at hlast
    exact absurd hlast (by decide)

/-! ### Pages -/

/-- The name of a page is a name. -/
theorem isName_pageName (h : Path.IsName name) : Path.IsName (pageName name) := by
  have hstem : (Path.splitExtension name).1 ⊆ name := by
    simp only [Path.splitExtension]
    split
    · exact List.Subset.refl name
    · exact List.take_subset _ _
  have hlength : ∀ other : Bytes, other.length < 5 → pageName name ≠ other := by
    rintro other hshort rfl
    rw [pageName, List.length_append, show pageEnding.length = 5 from rfl] at hshort
    omega
  refine ⟨hlength _ (by decide), hlength _ (by decide), hlength _ (by decide), fun hmem => ?_⟩
  rcases List.mem_append.1 hmem with hmem | hmem
  · exact h.slash_not_mem (hstem hmem)
  · exact absurd hmem (by decide)

/-- A page has the name of one. -/
theorem exists_page_eq (hne : lesson ≠ []) : ∃ before name, lesson = before ++ [name] ∧
    page lesson = before ++ [pageName name] := by
  obtain ⟨before, name, rfl⟩ := (List.eq_nil_or_concat' lesson).resolve_left hne
  exact ⟨before, name, rfl, by simp [page]⟩

/-- A page has a name. -/
theorem page_ne_nil (hne : lesson ≠ []) : page lesson ≠ [] := by
  obtain ⟨before, name, -, hpage⟩ := exists_page_eq hne
  simp [hpage]

/-- There are names on the way to a page. -/
theorem isName_of_mem_page (hne : lesson ≠ []) (hnames : ∀ name ∈ lesson, Path.IsName name) :
    ∀ name ∈ page lesson, Path.IsName name := by
  obtain ⟨before, last, rfl, hpage⟩ := exists_page_eq hne
  rw [hpage]
  obtain ⟨hbefore, hlast⟩ := List.forall_mem_append.1 hnames
  refine List.forall_mem_append.2 ⟨hbefore, fun name hmem => ?_⟩
  rw [List.mem_singleton.1 hmem]
  exact isName_pageName (hlast last (by simp))

end Lesson

end Lectern
