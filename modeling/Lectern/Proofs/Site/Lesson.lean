import Lectern.Proofs.Site.Search
import Lectern.Site.Build

/-!
# The Lessons of a Site

The lessons of a site are put in the order of the names on the way to them. If they can be found at
all, they are everything that has the name of a lesson in the source directory or below it, and
directories with such names too.

## Main results

* `pairwise_sort`: lessons are put in order.
* `mem_allBelow`, `pairwise_allBelow`: the lessons below a directory.
* `Site.lessons_of_find`: the lessons of a site, in order and each of them once.
-/

namespace Lectern

variable {tree : FileTree} {here : Surroundings} {settings : Settings}
  {directory workingDirectory : Path} {location : Location} {lesson : Lesson}
  {found : List Lesson}

namespace Lesson

/-! ### Order -/

/-- What is inserted comes to what was there. -/
theorem mem_insertOrdered {other : Lesson} :
    other ∈ insertOrdered lesson found ↔ other = lesson ∨ other ∈ found := by
  induction found with
  | nil => simp [insertOrdered]
  | cons first rest ih =>
    rw [insertOrdered]
    split
    · rw [List.mem_cons, ih, List.mem_cons, or_left_comm]
    · exact List.mem_cons

/-- Ordered lessons with a new one are ordered. -/
theorem pairwise_insertOrdered (hfound : found.Pairwise (· < ·)) (hnew : lesson ∉ found) :
    (insertOrdered lesson found).Pairwise (· < ·) := by
  induction found with
  | nil => exact List.pairwise_singleton _ _
  | cons first rest ih =>
    obtain ⟨hfirst, hrest⟩ := List.pairwise_cons.1 hfound
    obtain ⟨hne, hnew⟩ := not_or.1 (mt List.mem_cons.2 hnew)
    rw [insertOrdered]
    split
    · next hlt =>
      refine List.pairwise_cons.2 ⟨fun other hother => ?_, ih hrest hnew⟩
      rcases mem_insertOrdered.1 hother with rfl | hother
      · exact hlt
      · exact hfirst other hother
    · next hnot =>
      have hlt : lesson < first :=
        Std.Trichotomous.rel_or_eq_or_rel_swap.elim id fun h =>
          h.elim (absurd · hne) (absurd · hnot)
      refine List.pairwise_cons.2 ⟨fun other hother => ?_, hfound⟩
      rcases List.mem_cons.1 hother with rfl | hother
      · exact hlt
      · exact List.lt_trans hlt (hfirst other hother)

/-- Sorting keeps the lessons. -/
theorem mem_sort : lesson ∈ sort found ↔ lesson ∈ found := by
  induction found with
  | nil => rfl
  | cons first rest ih =>
    show lesson ∈ insertOrdered first (sort rest) ↔ _
    rw [mem_insertOrdered, ih, List.mem_cons]

/-- **Sorting** puts distinct lessons in order. -/
theorem pairwise_sort (hfound : found.Nodup) : (sort found).Pairwise (· < ·) := by
  induction found with
  | nil => exact List.Pairwise.nil
  | cons first rest ih =>
    obtain ⟨hfirst, hrest⟩ := List.nodup_cons.1 hfound
    exact pairwise_insertOrdered (ih hrest) (mt mem_sort.1 hfirst)

/-! ### Below a directory -/

/-- Whether a location has the **name of a lesson**: a text that ends with the ending of lessons. -/
def IsSource (lesson : Lesson) : Prop :=
  ∃ stem, lesson.getLast? = some (Text.encode (stem ++ nameEnding))

/-- The names that match are those of lessons. -/
theorem isSource_iff : IsSource lesson ↔
    ∃ name, lesson.getLast? = some name ∧ Glob.isNameMatch namePattern name = true := by
  simp only [IsSource, namePattern, Glob.isNameMatch_gap_escape]
  constructor
  · rintro ⟨stem, hlast⟩
    exact ⟨_, hlast, stem, rfl⟩
  · rintro ⟨_, hlast, stem, rfl⟩
    exact ⟨stem, hlast⟩

section Below

variable (htree : tree.IsProper) (hne : directory ≠ [])
  (hlocate : tree.locate (Path.join workingDirectory directory) = .ok location)
  (hdirectory : tree.entry? location = some .directory)
include htree hne hlocate hdirectory

/-- **The lessons below a directory** are all that has the name of one, or none. -/
theorem mem_allBelow : lesson ∈ allBelow tree workingDirectory directory ↔
    IsFindable directory ∧ IsSource lesson ∧
      (tree.entry? (location ++ lesson)).isSome = true := by
  rw [allBelow, mem_sort]
  by_cases hfindable : IsFindable directory
  · rw [filterMap_search htree hne hlocate hdirectory hfindable,
      Glob.mem_waysBelow htree hdirectory, isSource_iff]
    exact (and_iff_right hfindable).symm
  · rw [filterMap_search_eq_nil htree hne hfindable]
    simp [hfindable]

/-- The lessons below a directory are in order. -/
theorem pairwise_allBelow :
    (allBelow tree workingDirectory directory).Pairwise (· < ·) := by
  rw [allBelow]
  by_cases hfindable : IsFindable directory
  · rw [filterMap_search htree hne hlocate hdirectory hfindable]
    exact pairwise_sort (Glob.nodup_waysBelow htree _ _)
  · rw [filterMap_search_eq_nil htree hne hfindable]
    exact List.Pairwise.nil

end Below

end Lesson

open Lesson

/-! ### The lessons of a site -/

/-- What is the place of a directory that is there. -/
theorem Surroundings.place_of_find {p : Path} {entry : Entry} (h : here.find p = .ok entry) :
    p ≠ [] ∧ here.place p = Path.join here.workingDirectory p := by
  have hne : p ≠ [] := by
    rintro rfl
    cases h
  exact ⟨hne, if_neg hne⟩

/-- **The lessons of a site** are found in order, each of them once. If its source directory can
have lessons, they are all that has the name of a lesson there or below; otherwise there are
none. -/
theorem Site.lessons_of_find (htree : here.tree.IsProper)
    (hsource : here.find settings.directories.source = .ok .directory) :
    ∃ location found, here.tree.locate (here.place settings.directories.source) = .ok location ∧
      lessons here settings = .ok found ∧ found.Pairwise (· < ·) ∧
      ∀ lesson, lesson ∈ found ↔ IsFindable settings.directories.source ∧ IsSource lesson ∧
        (here.tree.entry? (location ++ lesson)).isSome = true := by
  obtain ⟨hne, hplace⟩ := Surroundings.place_of_find hsource
  obtain ⟨location, hlocate, hdirectory⟩ := FileTree.exists_locate_of_find hsource
  have hlessons : lessons here settings = .ok (allBelow here.tree here.workingDirectory
      settings.directories.source) := by
    simp only [lessons, hsource]
  rw [hplace] at hlocate ⊢
  exact ⟨location, _, hlocate, hlessons, pairwise_allBelow htree hne hlocate hdirectory,
    fun lesson => mem_allBelow htree hne hlocate hdirectory⟩

/-- A directory with a lesson, and in it a directory with the name of one. -/
def nestedLessons : Surroundings where
  tree := ⟨[
    (["docs"].map (Path.ofText ·.toList), .directory),
    (["docs", "x.md"].map (Path.ofText ·.toList), .directory),
    (["docs", "x.md", "a.md"].map (Path.ofText ·.toList), .file [])]⟩
  workingDirectory := [Path.slash]
  environment := fun _ => none

/-- Settings with a source directory. -/
def settingsOf (source : String) : Settings where
  directories := ⟨Path.ofText source.toList, []⟩

/-- Both names of lessons are found, that of a file and that of a directory. -/
theorem Site.lessons_of_find_nestedLessons :
    nestedLessons.tree.IsProper ∧
    nestedLessons.find (settingsOf "docs").directories.source = .ok .directory ∧
    ∃ found, lessons nestedLessons (settingsOf "docs") = .ok found ∧
      ["x.md"].map (Path.ofText ·.toList) ∈ found ∧
      ["x.md", "a.md"].map (Path.ofText ·.toList) ∈ found := by
  have htree : nestedLessons.tree.IsProper := by decide
  have hsource : nestedLessons.find (settingsOf "docs").directories.source = .ok .directory := by
    decide
  obtain ⟨location, found, hlocate, hfound, -, hmem⟩ := Site.lessons_of_find htree hsource
  obtain rfl : location = ["docs"].map (Path.ofText ·.toList) :=
    Except.ok.inj (hlocate.symm.trans (by decide))
  have hfindable : IsFindable (settingsOf "docs").directories.source := ⟨by decide, by decide⟩
  exact ⟨htree, hsource, found, hfound,
    (hmem _).2 ⟨hfindable, ⟨"x".toList, by decide⟩, by decide⟩,
    (hmem _).2 ⟨hfindable, ⟨"a".toList, by decide⟩, by decide⟩⟩

/-- **With a dot before it**, nothing is found in the same directory. -/
theorem Site.lessons_none_nestedLessons :
    nestedLessons.tree.IsProper ∧
    nestedLessons.find (settingsOf "./docs").directories.source = .ok .directory ∧
    nestedLessons.readText? (Path.ofText "./docs/x.md/a.md".toList) = some [] ∧
    lessons nestedLessons (settingsOf "./docs") = .ok [] := by
  decide

end Lectern
