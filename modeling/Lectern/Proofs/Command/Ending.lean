import Lectern.Command.Run
import Lectern.Proofs.Site.Ending

/-!
# How Building Ends

A site is built if its settings make sense, its source directory is there and the work on its
lessons ends without an error, in whatever order the lessons are worked on. The manifest is the last
file that is written, so a build that fails leaves the manifest of an earlier build as it was, and
it leaves no manifest where there was none.

## Main results

* `buildEnds_run`: the outcome of the command is one of the endings.
* `BuildEnds.growsAt_of_error`: a build that fails changes nothing but pages.
* `BuildEnds.isHonest`: what the ending of a build tells.
* `run_build_honest`: a manifest is a sign that all its pages are there.
-/

namespace Lectern.Command

open FileTree Lesson

variable {here : Surroundings} {settings : Settings} {file : Option Path}
  {overrides : Settings.Overrides} {lesson : Lesson} {lessons : List Lesson} {after : FileTree}
  {result : Except CommandError Unit}

/-! ### Endings -/

/-- **How building a site can end**, with the tree that it leaves behind and its result. -/
inductive BuildEnds (here : Surroundings) (file : Option Path) (overrides : Settings.Overrides) :
    FileTree → Except CommandError Unit → Prop
  /-- There are no settings. -/
  | noSettings {error : SettingsError} (hload : Settings.load here file overrides = .error error) :
    BuildEnds here file overrides here.tree (.error (.settings error))
  /-- There are no lessons to work on. -/
  | noLessons {settings : Settings} {error : Site.BuildError}
    (hload : Settings.load here file overrides = .ok settings)
    (hlessons : Site.lessons here settings = .error error) :
    BuildEnds here file overrides here.tree (.error (.build error))
  /-- The work ends with an error. -/
  | failed {settings : Settings} {lessons : List Lesson} {after : FileTree}
    {error : Site.BuildError} (hload : Settings.load here file overrides = .ok settings)
    (hlessons : Site.lessons here settings = .ok lessons)
    (hends : Site.Ends here settings lessons after (.error error)) :
    BuildEnds here file overrides after (.error (.build error))
  /-- The work ends without an error. -/
  | finished {settings : Settings} {lessons : List Lesson} {after : FileTree} {count : Nat}
    (hload : Settings.load here file overrides = .ok settings)
    (hlessons : Site.lessons here settings = .ok lessons)
    (hends : Site.Ends here settings lessons after (.ok count)) :
    BuildEnds here file overrides after (.ok ())

/-- **The outcome of the command** is one of the endings. -/
theorem buildEnds_run (htree : here.tree.IsProper) :
    BuildEnds here file overrides (run here (.build file overrides)).tree
      (run here (.build file overrides)).result := by
  simp only [run, settingsFile, Command.overrides]
  cases hload : Settings.load here file overrides with
  | error error => exact .noSettings hload
  | ok settings =>
    simp only [runWith, building]
    cases hlessons : Site.lessons here settings with
    | error error => exact .noLessons hload hlessons
    | ok lessons =>
      have hends : Site.Ends here settings lessons (Site.build here settings lessons).1
          (Site.build here settings lessons).2 :=
        Site.ends_build (Site.areSources_of_lessons htree hlessons).1.nodup
      simp only
      generalize Site.build here settings lessons = built at hends
      obtain ⟨tree, result⟩ := built
      cases result with
      | error error => exact .failed hload hlessons hends
      | ok count => exact .finished hload hlessons hends

/-- A build that ends without an error has worked on all lessons. -/
theorem BuildEnds.exists_of_ok (h : BuildEnds here file overrides after (.ok ())) :
    ∃ settings lessons count, Settings.load here file overrides = .ok settings ∧
      Site.lessons here settings = .ok lessons ∧
      Site.Ends here settings lessons after (.ok count) := by
  cases h with
  | finished hload hlessons hends => exact ⟨_, _, _, hload, hlessons, hends⟩

/-- **A build that fails** changes nothing but pages. -/
theorem BuildEnds.growsAt_of_error {error : CommandError} (htree : here.tree.IsProper)
    (h : BuildEnds here file overrides after (.error error)) :
    GrowsAt (fun location => ∃ name, location.getLast? = some (pageName name)) here.tree after := by
  cases h with
  | noSettings hload => exact .refl _
  | noLessons hload hlessons => exact .refl _
  | failed hload hlessons hends =>
    exact hends.growsAt_of_error (Site.areSources_of_lessons htree hlessons).1

/-! ### Manifests -/

/-- What the **ending of a build** tells. -/
structure IsHonest (here : Surroundings) (file : Option Path) (overrides : Settings.Overrides)
    (after : FileTree) (result : Except CommandError Unit) : Prop where
  /-- Settings that make no sense are an error. -/
  settings : ∀ error, Settings.load here file overrides = .error error →
    result = .error (.settings error)
  /-- A source directory that is not there is an error. -/
  source : ∀ settings error, Settings.load here file overrides = .ok settings →
    Site.lessons here settings = .error error → result = .error (.build error)
  /-- A lesson that cannot be read as a text is an error. -/
  lesson : ∀ settings lessons, Settings.load here file overrides = .ok settings →
    Site.lessons here settings = .ok lessons → ∀ lesson ∈ lessons,
      here.readText? (pathIn settings.directories.source lesson) = none → ∃ error,
        result = .error error
  /-- After an error, no file with the name of a manifest is new or has changed. -/
  unpublished : ∀ error, result = .error error → ∀ location,
    location.getLast? = some Site.manifestName → after.content? location =
      here.tree.content? location
  /-- After an error, the manifest of the site is read as before. -/
  kept : ∀ error settings bytes, result = .error error →
    Settings.load here file overrides = .ok settings →
    here.tree.read (Site.manifestPlace here settings) = .ok bytes →
    after.read (Site.manifestPlace here settings) = .ok bytes
  /-- Without an error, there is a manifest; it lists the pages of all lessons, and each of them has
  been written. -/
  published : result = .ok () → ∃ settings lessons version entries,
    Settings.load here file overrides = .ok settings ∧
    Site.lessons here settings = .ok lessons ∧
    Site.Publishes here settings after version entries ∧
    entries.map (·.path) = lessons.map (Lesson.display ∘ Lesson.page) ∧
    ∀ lesson ∈ lessons, ∃ other ∈ lessons, Lesson.page other = Lesson.page lesson ∧
      ∃ html, Site.IsPageOf here settings other html ∧
        after.read (Site.pagePlace here settings lesson) = .ok (Text.encode html)

/-- Nothing has changed about manifests if nothing has changed but pages. -/
theorem content?_eq_of_growsAt {before : FileTree} {location : Location}
    (hgrows : GrowsAt (fun location => ∃ name, location.getLast? = some (pageName name)) before
      after)
    (hname : location.getLast? = some Site.manifestName) :
    after.content? location = before.content? location := by
  refine hgrows.content location fun ⟨name, hpage⟩ => ?_
  exact pageName_ne_manifestName name (Option.some.inj (hpage.symm.trans hname))

namespace BuildEnds

variable (h : BuildEnds here file overrides after result)
include h

/-- A build with settings works on lessons, or it ends with an error. -/
theorem exists_error_of_not_read (htree : here.tree.IsProper)
    (hload : Settings.load here file overrides = .ok settings)
    (hlessons : Site.lessons here settings = .ok lessons) (hmem : lesson ∈ lessons)
    (hunread : here.readText? (pathIn settings.directories.source lesson) = none) :
    ∃ error, result = .error error := by
  cases h with
  | noSettings => exact ⟨_, rfl⟩
  | noLessons => exact ⟨_, rfl⟩
  | failed => exact ⟨_, rfl⟩
  | finished hload' hlessons' hends =>
    obtain rfl := Except.ok.inj (hload.symm.trans hload')
    obtain rfl := Except.ok.inj (hlessons.symm.trans hlessons')
    obtain ⟨version, entries, -, -, hpages⟩ :=
      hends.exists_of_ok (Site.areSources_of_lessons htree hlessons).1
    obtain ⟨⟨html, text, made, htext, -⟩, -⟩ := hpages lesson hmem
    rw [hunread] at htext
    cases htext

/-- **What the ending of a build tells** is so. -/
theorem isHonest (htree : here.tree.IsProper) :
    IsHonest here file overrides after result where
  settings error hload := by
    cases h with
    | noSettings hload' => rw [Except.error.inj (hload.symm.trans hload')]
    | noLessons hload' => cases hload.symm.trans hload'
    | failed hload' => cases hload.symm.trans hload'
    | finished hload' => cases hload.symm.trans hload'
  source settings error hload hlessons := by
    cases h with
    | noSettings hload' => cases hload.symm.trans hload'
    | noLessons hload' hlessons' =>
      obtain rfl := Except.ok.inj (hload.symm.trans hload')
      rw [Except.error.inj (hlessons.symm.trans hlessons')]
    | failed hload' hlessons' =>
      obtain rfl := Except.ok.inj (hload.symm.trans hload')
      cases hlessons.symm.trans hlessons'
    | finished hload' hlessons' =>
      obtain rfl := Except.ok.inj (hload.symm.trans hload')
      cases hlessons.symm.trans hlessons'
  lesson settings lessons hload hlessons lesson hmem hunread :=
    h.exists_error_of_not_read htree hload hlessons hmem hunread
  unpublished := by
    rintro error rfl location hname
    exact content?_eq_of_growsAt (h.growsAt_of_error htree) hname
  kept := by
    rintro error settings bytes rfl - hread
    obtain ⟨location, hlocate, hcontent⟩ := read_eq_ok_iff.1 hread
    have hgrows := h.growsAt_of_error htree
    exact read_eq_ok_iff.2 ⟨location, hgrows.locate hlocate,
      (content?_eq_of_growsAt hgrows (Site.getLast?_of_locate_manifest hlocate)).trans hcontent⟩
  published := by
    rintro rfl
    obtain ⟨settings, lessons, count, hload, hlessons, hends⟩ := h.exists_of_ok
    obtain ⟨version, entries, hpublishes, hentries, hpages⟩ :=
      hends.exists_of_ok (Site.areSources_of_lessons htree hlessons).1
    exact ⟨settings, lessons, version, entries, hload, hlessons, hpublishes,
      Site.map_path_of_isEntryOf hentries, fun lesson hmem => (hpages lesson hmem).2⟩

end BuildEnds

/-- **A manifest is a sign** that all its pages are there. However the work on lessons goes on, and
whatever fails, the ending of a build is honest; and the outcome of the command is one of the
endings. -/
theorem run_build_honest (htree : here.tree.IsProper) :
    BuildEnds here file overrides (run here (.build file overrides)).tree
      (run here (.build file overrides)).result ∧
    ∀ after result, BuildEnds here file overrides after result →
      IsHonest here file overrides after result :=
  ⟨buildEnds_run htree, fun _ _ h => h.isHonest htree⟩

/-- A site that has been built, to which a lesson has come that is no text. -/
def spoiltLesson : Surroundings where
  tree := ⟨[
    (["docs"].map (Path.ofText ·.toList), .directory),
    (["docs", "a.md"].map (Path.ofText ·.toList), .file (Text.encode "# A".toList)),
    (["docs", "b.md"].map (Path.ofText ·.toList), .file [0xFF]),
    (["dist"].map (Path.ofText ·.toList), .directory),
    (["dist", "manifest.json"].map (Path.ofText ·.toList), .file (Text.encode "old".toList))]⟩
  workingDirectory := [Path.slash]
  environment := fun _ => none

/-- The page before the one that fails is written, and the manifest is the old one. -/
theorem run_build_honest_spoiltLesson : spoiltLesson.tree.IsProper ∧
    (run spoiltLesson (.build none {})).result =
      .error (.build (.page (Path.ofText "/docs/b.md".toList))) ∧
    (run spoiltLesson (.build none {})).tree.read (Path.ofText "/dist/a.html".toList) =
      .ok (Text.encode "<h1 id=\"a\">A</h1>\n".toList) ∧
    (run spoiltLesson (.build none {})).tree.read (Path.ofText "/dist/manifest.json".toList) =
      .ok (Text.encode "old".toList) := by
  have htree : spoiltLesson.tree.IsProper := by decide
  have hresult : (run spoiltLesson (.build none {})).result =
      .error (.build (.page (Path.ofText "/docs/b.md".toList))) := by decide +kernel
  obtain ⟨hends, hhonest⟩ := @run_build_honest spoiltLesson none {} htree
  refine ⟨htree, hresult, by decide +kernel, ?_⟩
  exact (hhonest _ _ hends).kept _ (.inDirectory spoiltLesson.workingDirectory) _ hresult
    (by decide +kernel) (by decide +kernel)

end Lectern.Command
