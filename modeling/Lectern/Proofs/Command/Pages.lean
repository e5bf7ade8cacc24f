import Lectern.Proofs.Command.Ending
import Lectern.Proofs.Site.Twin

/-!
# The Pages of a Site

Lessons that are no twins have pages of their own: the pages stand in different places, each is made
of its lesson, and the manifest lists them under different paths as far as their names are texts.
Twins share a page, and one of the two lessons is lost in it.

## Main results

* `run_build_pages`: the pages of a site without twins.
* `run_build_twins`: a site with twins.
-/

namespace Lectern.Command

open FileTree Lesson

variable {here : Surroundings} {settings : Settings} {file : Option Path}
  {overrides : Settings.Overrides} {lesson other : Lesson} {lessons : List Lesson}
  {after : FileTree} {location : Location}

/-- A page that stands in the place of another one belongs to a twin. -/
theorem eq_or_areTwins_of_locate (hlessons : Site.AreSources here settings lessons)
    (hmem : lesson ∈ lessons) (hother : other ∈ lessons)
    (hplace : after.locate (Site.pagePlace here settings lesson) = .ok location)
    (hplace' : after.locate (Site.pagePlace here settings other) = .ok location) :
    lesson = other ∨ AreTwins lesson other := by
  have hne := hlessons.ne_nil hmem
  have hotherNe := hlessons.ne_nil hother
  refine (page_eq_iff (hlessons.isSource lesson hmem).isMarkdown
    (hlessons.isSource other hother).isMarkdown).1 ?_
  exact eq_of_locate_place (page_ne_nil hne) (page_ne_nil hotherNe)
    (isName_of_mem_page hne (hlessons.isName hmem))
    (isName_of_mem_page hotherNe (hlessons.isName hother)) hplace hplace'

/-- **The pages of a site** after a build without an error, in whatever order the lessons have been
worked on. Two lessons have one path, or one place, for their pages only if they are twins. The page
of a lesson without a twin is made of this lesson. The manifest lists each page once if no lessons
are twins, as far as the names of lessons are texts. -/
theorem run_build_pages (htree : here.tree.IsProper)
    (h : BuildEnds here file overrides after (.ok ())) : ∃ settings lessons version entries,
    Settings.load here file overrides = .ok settings ∧ Site.lessons here settings = .ok lessons ∧
    (∀ lesson ∈ lessons, ∀ other ∈ lessons,
      (Site.pagePlace here settings lesson = Site.pagePlace here settings other ↔
        lesson = other ∨ AreTwins lesson other) ∧
      ∀ location, after.locate (Site.pagePlace here settings lesson) = .ok location →
        after.locate (Site.pagePlace here settings other) = .ok location →
        lesson = other ∨ AreTwins lesson other) ∧
    (∀ lesson ∈ lessons, (∀ other ∈ lessons, ¬ AreTwins lesson other) →
      ∃ html, Site.IsPageOf here settings lesson html ∧
        after.read (Site.pagePlace here settings lesson) = .ok (Text.encode html)) ∧
    Site.Publishes here settings after version entries ∧
    entries.map (·.path) = lessons.map (Lesson.display ∘ Lesson.page) ∧
    ((∀ lesson ∈ lessons, ∀ name ∈ lesson, IsText name) →
      ((entries.map (·.path)).Nodup ↔
        ∀ lesson ∈ lessons, ∀ other ∈ lessons, ¬ AreTwins lesson other)) := by
  obtain ⟨settings, lessons, count, hload, hlessons, hends⟩ := h.exists_of_ok
  have hsources := (Site.areSources_of_lessons htree hlessons).1
  obtain ⟨version, entries, hpublishes, hentries, hpages⟩ := hends.exists_of_ok hsources
  have hpaths := Site.map_path_of_isEntryOf hentries
  refine ⟨settings, lessons, version, entries, hload, hlessons, fun lesson hmem other hother =>
    ⟨?_, fun location => eq_or_areTwins_of_locate hsources hmem hother⟩,
    fun lesson hmem hnone => ?_, hpublishes, hpaths, fun htexts => ?_⟩
  · exact place_page_eq_iff (hsources.isSource lesson hmem) (hsources.isSource other hother)
      (hsources.isName hmem) (hsources.isName hother)
  · obtain ⟨-, other, hother, hpage, html, hhtml, hread⟩ := hpages lesson hmem
    have hsame := (page_eq_iff (hsources.isSource lesson hmem).isMarkdown
      (hsources.isSource other hother).isMarkdown).1 hpage.symm
    obtain rfl := hsame.resolve_right (hnone other hother)
    exact ⟨html, hhtml, hread⟩
  · rw [hpaths]
    exact nodup_map_display_iff hsources.nodup hsources.isSource
      (fun lesson hmem => hsources.isName hmem) htexts

/-- A site with two lessons. -/
def twoLessons (first second : String) : Surroundings where
  tree := ⟨[
    (["docs"].map (Path.ofText ·.toList), .directory),
    (["docs", first].map (Path.ofText ·.toList), .file (Text.encode "# A".toList)),
    (["docs", second].map (Path.ofText ·.toList), .file (Text.encode "# B".toList))]⟩
  workingDirectory := [Path.slash]
  environment := fun _ => none

/-- A lesson whose name is only an ending has a page of its own beside another lesson. -/
theorem run_build_pages_twoLessons : (twoLessons ".md" "a.md").tree.IsProper ∧
    BuildEnds (twoLessons ".md" "a.md") none {}
      (run (twoLessons ".md" "a.md") (.build none {})).tree (.ok ()) ∧
    ∃ html, (run (twoLessons ".md" "a.md") (.build none {})).tree.read
      (Path.ofText "/dist/.md.html".toList) = .ok (Text.encode html) := by
  have htree : (twoLessons ".md" "a.md").tree.IsProper := by decide
  have hresult : (run (twoLessons ".md" "a.md") (.build none {})).result = .ok () := by
    decide +kernel
  have hends := @buildEnds_run (twoLessons ".md" "a.md") none {} htree
  rw [hresult] at hends
  obtain ⟨settings, lessons, version, entries, hload, hlessons, -, hpages, -⟩ :=
    run_build_pages htree hends
  obtain rfl : settings = .inDirectory (twoLessons ".md" "a.md").workingDirectory :=
    Except.ok.inj (hload.symm.trans (by decide +kernel))
  obtain rfl : lessons = [".md", "a.md"].map fun name => [Path.ofText name.toList] :=
    Except.ok.inj (hlessons.symm.trans (by decide +kernel))
  have hnone : ∀ other ∈ [".md", "a.md"].map fun name => [Path.ofText name.toList],
      ¬ AreTwins [Path.ofText ".md".toList] other := by
    refine List.forall_mem_cons.2 ⟨fun htwins => htwins.ne rfl, ?_⟩
    exact List.forall_mem_singleton.2 fun htwins => absurd htwins.page_eq (by decide)
  obtain ⟨html, -, hread⟩ := hpages _ List.mem_cons_self hnone
  exact ⟨htree, hends, html, hread⟩

/-- **Twins** share a page: the second of two lessons is the one that is left in it, and the
manifest lists the page twice. -/
theorem run_build_twins : (twoLessons ".md" ".md.md").tree.IsProper ∧
    (run (twoLessons ".md" ".md.md") (.build none {})).result = .ok () ∧
    Site.lessons (twoLessons ".md" ".md.md") (.inDirectory [Path.slash]) =
      .ok ([".md", ".md.md"].map fun name => [Path.ofText name.toList]) ∧
    (twoLessons ".md" ".md.md").readText? (Path.ofText "/docs/.md".toList) = some "# A".toList ∧
    (run (twoLessons ".md" ".md.md") (.build none {})).tree.read
      (Path.ofText "/dist/.md.html".toList) =
        .ok (Text.encode "<h1 id=\"b\">B</h1>\n".toList) ∧
    [".md", ".md.md"].map (fun name => Lesson.display (Lesson.page [Path.ofText name.toList])) =
      [".md.html".toList, ".md.html".toList] := by
  decide +kernel

end Lectern.Command
