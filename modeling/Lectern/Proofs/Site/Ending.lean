import Lectern.Proofs.Site.Manifest
import Lectern.Proofs.Site.Schedule

/-!
# How the Work on a Site Ends

When the work on a lesson has failed, the work on the site ends with its error. Otherwise all pages
are written in the end, and only then the manifest. So a manifest is a sign: there is a new one only
if all the pages that it lists are there.

Lessons that are worked on one after the other, in order, are one of the ways in which the work can
go on, and so a site that is built is one of its endings.

## Main results

* `Ends.growsAt_of_error`: an ending with an error, which changes nothing but pages.
* `Ends.exists_of_ok`, `Ends.isFaithful`: an ending without one.
* `exists_reaches_of_writeLessons`: lessons that are worked on one after the other.
* `ends_build`: a site that is built.
-/

namespace Lectern.Site

open FileTree Lesson
open Relation (ReflTransGen)

variable {here : Surroundings} {settings : Settings} {lessons rest : List Lesson}
  {lesson other : Lesson} {tree next last after : FileTree} {entry : PageEntry}
  {entries : List PageEntry} {location : Location} {work : Work}

/-! ### Endings -/

/-- Whether the pages of lessons are **written**, with the given entries. -/
def Work.AreWritten (work : Work) (lessons : List Lesson) (entries : List PageEntry) : Prop :=
  List.Forall₂ (fun lesson entry => ∃ page, work.stage lesson = .written page ∧
    entry = entryOf lesson page) lessons entries

/-- Whether directories on the way to the **output directory** have been made. -/
def MakesOutput (here : Surroundings) (settings : Settings) : FileTree → FileTree → Prop :=
  ReflTransGen (MakesDirectory
    (Path.ancestors (Path.join here.workingDirectory settings.directories.output)))

/-- **How the work on a site can end**, with the tree that it leaves behind and its result. -/
inductive Ends (here : Surroundings) (settings : Settings) (lessons : List Lesson) :
    FileTree → Except BuildError Nat → Prop
  /-- The work on a lesson has failed. -/
  | failed {work : Work} {lesson : Lesson} {error : BuildError}
    (hreaches : Work.Reaches here settings lessons (Work.start here.tree) work)
    (hmem : lesson ∈ lessons) (hfailed : work.stage lesson = .failed error) :
    Ends here settings lessons work.tree (.error error)
  /-- All pages are written, and the manifest cannot be. -/
  | refused {work : Work} {entries : List PageEntry} {next : FileTree} (error : BuildError)
    (hreaches : Work.Reaches here settings lessons (Work.start here.tree) work)
    (hentries : work.AreWritten lessons entries)
    (hmade : MakesOutput here settings work.tree next) :
    Ends here settings lessons next (.error error)
  /-- All pages and the manifest are written. -/
  | finished {work : Work} {entries : List PageEntry} {ready last : FileTree}
    (hreaches : Work.Reaches here settings lessons (Work.start here.tree) work)
    (hentries : work.AreWritten lessons entries)
    (hmade : MakesOutput here settings work.tree ready)
    (hwritten : ready.write (manifestPlace here settings) (Text.encode (manifest settings.site
      (settings.interpreterVersion { here with tree := work.tree }) entries).pretty) = .ok last) :
    Ends here settings lessons last (.ok entries.length)

/-- All lessons have pages that are written. -/
theorem Work.AreWritten.exists_written (h : work.AreWritten lessons entries)
    (hmem : lesson ∈ lessons) : ∃ page, work.stage lesson = .written page := by
  induction h with
  | nil => simp at hmem
  | cons hfirst _ ih =>
    rcases List.mem_cons.1 hmem with rfl | hmem
    · obtain ⟨page, hwritten, -⟩ := hfirst
      exact ⟨page, hwritten⟩
    · exact ih hmem

/-- **An ending with an error** has changed nothing but pages. -/
theorem Ends.growsAt_of_error {error : BuildError} (hlessons : AreSources here settings lessons)
    (h : Ends here settings lessons after (.error error)) :
    GrowsAt (fun location => ∃ name, location.getLast? = some (pageName name)) here.tree after := by
  cases h with
  | failed hreaches hmem hfailed =>
    exact (IsSound.of_reaches hlessons hreaches).growsAt_isPage hlessons
  | refused _ hreaches hentries hmade =>
    exact ((IsSound.of_reaches hlessons hreaches).growsAt_isPage hlessons).trans
      (growsAt_of_reflTransGen hmade)

/-- When all pages are written, every one of them has a page made of a lesson as its content. -/
theorem IsSound.exists_content (h : IsSound here settings lessons work)
    (hentries : work.AreWritten lessons entries) (hmem : lesson ∈ lessons) :
    ∃ location, work.tree.locate (pagePlace here settings lesson) = .ok location ∧
      ∃ other ∈ lessons, Lesson.page other = Lesson.page lesson ∧
        ∃ html, IsPageOf here settings other html ∧
          work.tree.content? location = some (Text.encode html) := by
  obtain ⟨page, hwritten⟩ := hentries.exists_written hmem
  obtain ⟨location, hlocate, hcontent⟩ := h.settled lesson hmem page hwritten
  have hclean : work.IsClean lessons lesson := by
    intro other hother _
    obtain ⟨made, hmade⟩ := hentries.exists_written hother
    rw [hmade]
    exact id
  obtain ⟨other, hother, made, hpage, hmade, hbytes⟩ := hcontent hclean
  obtain ⟨text, htext, hrendered⟩ := h.made other hother made (by rw [hmade]; rfl)
  exact ⟨location, hlocate, other, hother, hpage, made.html, ⟨text, made, htext, hrendered, rfl⟩,
    hbytes⟩

/-! ### Manifests -/

/-- Whether an entry is that **of a lesson** as it is found. -/
def IsEntryOf (here : Surroundings) (settings : Settings) (lesson : Lesson) (entry : PageEntry) :
    Prop :=
  ∃ page, IsMadeOf here settings lesson page ∧ entry = entryOf lesson page

/-- When all pages are written, their entries are those of the lessons as they were found. -/
theorem IsSound.forall₂_isEntryOf (h : IsSound here settings lessons work)
    (hentries : work.AreWritten lessons entries) :
    List.Forall₂ (IsEntryOf here settings) lessons entries := by
  have hboth := (List.forall₂_and_left lessons entries).2
    ⟨fun lesson (hmem : lesson ∈ lessons) => hmem, hentries⟩
  refine hboth.imp ?_
  rintro lesson entry ⟨hmem, page, hwritten, hentry⟩
  exact ⟨page, h.made lesson hmem page (by rw [hwritten]; rfl), hentry⟩

/-- The paths of the entries of lessons are those of their pages. -/
theorem map_path_of_isEntryOf (h : List.Forall₂ (IsEntryOf here settings) lessons entries) :
    entries.map (·.path) = lessons.map (Lesson.display ∘ Lesson.page) := by
  induction h with
  | nil => rfl
  | cons hfirst _ ih =>
    obtain ⟨page, -, rfl⟩ := hfirst
    rw [List.map_cons, List.map_cons, ih]
    rfl

/-- Whether the file of the manifest **publishes** the site with a version and entries of its pages:
it holds the manifest with one member a line, and this is what is read back from its bytes. -/
structure Publishes (here : Surroundings) (settings : Settings) (after : FileTree) (version : Text)
    (entries : List PageEntry) : Prop where
  written : after.read (manifestPlace here settings) =
    .ok (Text.encode (manifest settings.site version entries).pretty)
  readBack : ∃ bytes, after.read (manifestPlace here settings) = .ok bytes ∧
    Manifest.read? bytes = some
      { title := settings.site.title, description := settings.site.description, version
        pages := entries }

/-- A manifest that is written is read back. -/
theorem publishes_of_read {version : Text} (h : after.read (manifestPlace here settings) =
    .ok (Text.encode (manifest settings.site version entries).pretty)) :
    Publishes here settings after version entries :=
  ⟨h, _, h, Manifest.read?_manifest settings.site version entries⟩

/-! ### Endings without an error -/

/-- What an ending without an error has **written**: pages, and the manifest as the last file. -/
theorem Ends.exists_written {count : Nat} (hlessons : AreSources here settings lessons)
    (h : Ends here settings lessons after (.ok count)) : ∃ work version entries location,
      IsSound here settings lessons work ∧ work.AreWritten lessons entries ∧
      GrowsAt (· = location) work.tree after ∧
      after.locate (manifestPlace here settings) = .ok location ∧
      Publishes here settings after version entries := by
  cases h with
  | @finished work entries ready _ hreaches hentries hmade hwritten =>
    have hready : GrowsAt (fun _ => False) work.tree ready := growsAt_of_reflTransGen hmade
    obtain ⟨location, hlast, hlocate, hcontent⟩ := growsAt_write hwritten
    exact ⟨work, _, entries, location, .of_reaches hlessons hreaches, hentries,
      (hready.mono fun _ => False.elim).trans hlast, hlocate,
      publishes_of_read (read_eq_ok_iff.2 ⟨location, hlocate, hcontent⟩)⟩

/-- **An ending without an error**: all lessons have been read, the manifest lists their pages, and
each of these has been written. -/
theorem Ends.exists_of_ok {count : Nat} (hlessons : AreSources here settings lessons)
    (h : Ends here settings lessons after (.ok count)) : ∃ version entries,
      Publishes here settings after version entries ∧
      List.Forall₂ (IsEntryOf here settings) lessons entries ∧
      ∀ lesson ∈ lessons, (∃ html, IsPageOf here settings lesson html) ∧
        ∃ other ∈ lessons, Lesson.page other = Lesson.page lesson ∧
          ∃ html, IsPageOf here settings other html ∧
            after.read (pagePlace here settings lesson) = .ok (Text.encode html) := by
  obtain ⟨work, version, entries, location, hsound, hentries, hlast, hlocate, hpublishes⟩ :=
    h.exists_written hlessons
  refine ⟨version, entries, hpublishes, hsound.forall₂_isEntryOf hentries,
    fun lesson hmem => ⟨?_, ?_⟩⟩
  · obtain ⟨page, hpage⟩ := hentries.exists_written hmem
    obtain ⟨text, htext, hrendered⟩ := hsound.made lesson hmem page (by rw [hpage]; rfl)
    exact ⟨page.html, text, page, htext, hrendered, rfl⟩
  · obtain ⟨place, hplace, other, hother, hpage, html, hhtml, hbytes⟩ :=
      hsound.exists_content hentries hmem
    have hkept := hlast.locate hplace
    have hne := ne_of_locate_page (hlessons.ne_nil hmem) (hlessons.isName hmem) hkept hlocate
    exact ⟨other, hother, hpage, html, hhtml,
      read_eq_ok_iff.2 ⟨place, hkept, (hlast.content place hne).trans hbytes⟩⟩

/-- What a **faithful build** of a site leaves behind: a proper tree with everything that was there,
all sources as they were, new contents only for pages and for the manifest, and a manifest that
lists one entry for each source, in order, with the path of its page. -/
structure IsFaithful (here : Surroundings) (settings : Settings) (lessons : List Lesson)
    (after : FileTree) : Prop where
  proper : after.IsProper
  kept : ∀ location, (here.tree.entry? location).isSome = true →
    (after.entry? location).isSome = true
  sources : ∀ location, IsMarkdown location →
    after.content? location = here.tree.content? location
  others : ∀ location,
    (∀ lesson ∈ lessons, after.locate (pagePlace here settings lesson) ≠ .ok location) →
    after.locate (manifestPlace here settings) ≠ .ok location →
    after.content? location = here.tree.content? location
  manifest : ∃ version entries, Publishes here settings after version entries ∧
    entries.map (·.path) = lessons.map (Lesson.display ∘ page) ∧
    List.Forall₂ (IsEntryOf here settings) lessons entries

/-- **An ending without an error** is faithful, in whatever order the lessons were worked on. -/
theorem Ends.isFaithful {count : Nat} (hlessons : AreSources here settings lessons)
    (h : Ends here settings lessons after (.ok count)) :
    IsFaithful here settings lessons after := by
  obtain ⟨work, version, entries, location, hsound, hentries, hlast, hlocate, hpublishes⟩ :=
    h.exists_written hlessons
  have hchanged : ∀ other, other ≠ location →
      (∀ lesson ∈ lessons, work.tree.locate (pagePlace here settings lesson) ≠ .ok other) →
      after.content? other = here.tree.content? other := fun other hne hnot =>
    (hlast.content other hne).trans (hsound.grows.content other fun ⟨lesson, hmem, hplace⟩ =>
      hnot lesson hmem hplace)
  exact
    { proper := hlast.proper (hsound.grows.proper hlessons.proper)
      kept := fun other hother => hlast.kept other (hsound.grows.kept other hother)
      sources := fun other hother => by
        refine hchanged other (fun heq => ?_) fun lesson hmem hplace => ?_
        · exact hother.not_isOutput (heq ▸ .inr (getLast?_of_locate_manifest hlocate))
        · exact hother.not_isOutput
            (.inl (getLast?_of_locate_page (hlessons.ne_nil hmem) (hlessons.isName hmem) hplace))
      others := fun other hpages hnot =>
        hchanged other (fun heq => hnot (heq ▸ hlocate)) fun lesson hmem hplace =>
          hpages lesson hmem (hlast.locate hplace)
      manifest :=
        have hlessonEntries := hsound.forall₂_isEntryOf hentries
        ⟨version, entries, hpublishes, map_path_of_isEntryOf hlessonEntries, hlessonEntries⟩ }

/-! ### One after the other -/

/-- Two stages of one lesson, one after the other. -/
theorem Work.update_update (work : Work) (lesson : Lesson) (tree next : FileTree)
    (stage stage' : Stage) : (work.update lesson tree stage).update lesson next stage' =
      work.update lesson next stage' := by
  simp only [Work.update, Work.mk.injEq, true_and]
  funext other
  split <;> simp_all

/-- A lesson that is where it was. -/
theorem Work.update_self (work : Work) (lesson : Lesson) :
    work.update lesson work.tree (work.stage lesson) = work := by
  simp only [Work.update]
  congr 1
  funext other
  split <;> simp_all

/-- Steps of one lesson are steps of the work. -/
theorem reaches_of_lessonSteps (hmem : lesson ∈ lessons) {state : FileTree × Stage}
    (h : ReflTransGen (LessonStep here settings lesson) (work.tree, work.stage lesson) state) :
    Work.Reaches here settings lessons work (work.update lesson state.1 state.2) := by
  induction h with
  | refl =>
    rw [Work.update_self]
    exact .refl
  | @tail state state' _ hstep ih =>
    have hnext : LessonStep here settings lesson ((work.update lesson state.1 state.2).tree,
        (work.update lesson state.1 state.2).stage lesson) (state'.1, state'.2) := by
      rw [Work.update_stage_self]
      exact hstep
    have hof := Work.Step.of hmem hnext
    rw [Work.update_update] at hof
    exact ih.tail hof

/-- A lesson whose page is written, step by step. -/
theorem exists_lessonSteps_of_writeLesson
    (h : writeLesson { here with tree } settings lesson = .ok (next, entry)) :
    ∃ page, entry = entryOf lesson page ∧
      ReflTransGen (LessonStep here settings lesson) (tree, .waiting) (next, .written page) := by
  obtain ⟨text, made, htext, hmade, rfl, hwritten⟩ := exists_made_of_writeLesson h
  obtain ⟨ready, hready, hwritten⟩ := exists_ready_of_writePage hwritten
  have hread : ReflTransGen (LessonStep here settings lesson) (tree, .waiting) (tree, .made made) :=
    .single (.read htext hmade)
  have hdirectories : ReflTransGen (LessonStep here settings lesson) (tree, .made made)
      (ready, .made made) :=
    ReflTransGen.lift (fun tree => (tree, Stage.made made)) (fun _ _ hmade => .makeDirectory hmade)
      _ _ hready
  exact ⟨made, rfl, (hread.trans hdirectories).tail (.finish (.inl rfl) hwritten)⟩

/-- What the work on lessons has come to: all pages are written, or the work on one has failed. -/
def Work.HasCome (work : Work) (lessons : List Lesson) : Except BuildError (List PageEntry) → Prop
  | .ok entries => work.AreWritten lessons entries
  | .error error => ∃ lesson ∈ lessons, work.stage lesson = .failed error

/-- What the work on other lessons has come to, behind a lesson whose page is written. -/
theorem Work.HasCome.cons {result : Except BuildError (List PageEntry)} {page : Page}
    (h : work.HasCome rest result) (hwritten : work.stage lesson = .written page) :
    work.HasCome (lesson :: rest) (result.map (entryOf lesson page :: ·)) := by
  cases result with
  | error error =>
    obtain ⟨other, hother, hfailed⟩ := h
    exact ⟨other, List.mem_cons_of_mem lesson hother, hfailed⟩
  | ok entries => exact List.Forall₂.cons ⟨page, hwritten, rfl⟩ h

/-- **Lessons that are worked on in order**, none of which has been worked on before. -/
theorem exists_reaches_of_writeLessons {result : Except BuildError (List PageEntry)}
    (hnodup : rest.Nodup) (hsub : rest ⊆ lessons)
    (hwaiting : ∀ lesson ∈ rest, work.stage lesson = .waiting)
    (h : writeLessons here settings work.tree rest = (last, result)) : ∃ after,
      Work.Reaches here settings lessons work after ∧ after.tree = last ∧
      (∀ other, other ∉ rest → after.stage other = work.stage other) ∧
      after.HasCome rest result := by
  induction rest generalizing work result with
  | nil =>
    obtain ⟨rfl, rfl⟩ := Prod.mk.inj h
    exact ⟨work, .refl, rfl, fun _ _ => rfl, .nil⟩
  | cons lesson rest ih =>
    obtain ⟨hmem, hrest⟩ := List.cons_subset.1 hsub
    obtain ⟨hnew, hnodup⟩ := List.nodup_cons.1 hnodup
    obtain ⟨hfirst, hwaiting⟩ := List.forall_mem_cons.1 hwaiting
    rw [writeLessons] at h
    split at h
    · next error hfailed =>
      obtain ⟨rfl, rfl⟩ := Prod.mk.inj h
      have hstep : LessonStep here settings lesson (work.tree, work.stage lesson)
          (work.tree, .failed error) := .fail error (by simp [hfirst])
      refine ⟨_, .single (.of hmem hstep), rfl, fun other hother => ?_, lesson, List.mem_cons_self,
        work.update_stage_self lesson _ _⟩
      exact work.update_stage_of_ne _ _ fun heq => hother (heq ▸ List.mem_cons_self)
    · next next entry hwritten =>
      generalize hothers : writeLessons here settings next rest = others at h
      obtain ⟨last', result'⟩ := others
      obtain ⟨rfl, rfl⟩ := Prod.mk.inj h
      obtain ⟨page, rfl, hsteps⟩ := exists_lessonSteps_of_writeLesson hwritten
      rw [← hfirst] at hsteps
      have hone := reaches_of_lessonSteps hmem hsteps
      have hkept : ∀ other, other ≠ lesson →
          (work.update lesson next (.written page)).stage other = work.stage other :=
        fun other => work.update_stage_of_ne _ _
      have hothersWaiting : ∀ other ∈ rest,
          (work.update lesson next (.written page)).stage other = .waiting := fun other hother =>
        (hkept other fun heq => hnew (heq ▸ hother)).trans (hwaiting other hother)
      obtain ⟨after, hreaches, htree, hstages, hcome⟩ := ih hnodup hrest hothersWaiting hothers
      refine ⟨after, hone.trans hreaches, htree, fun other hother => ?_, ?_⟩
      · obtain ⟨hne, hother⟩ := List.ne_and_not_mem_of_not_mem_cons hother
        exact (hstages other hother).trans (hkept other hne)
      · exact hcome.cons ((hstages lesson hnew).trans (work.update_stage_self lesson _ _))

/-- **A site that is built** is one of its endings. -/
theorem ends_build (hnodup : lessons.Nodup) :
    Ends here settings lessons (build here settings lessons).1
      (build here settings lessons).2 := by
  rw [build]
  generalize hpages : writeLessons here settings here.tree lessons = result
  obtain ⟨tree, result⟩ := result
  have hwaiting : ∀ lesson ∈ lessons, (Work.start here.tree).stage lesson = .waiting :=
    fun _ _ => rfl
  obtain ⟨work, hreaches, rfl, -, hcome⟩ :=
    exists_reaches_of_writeLessons hnodup (List.Subset.refl lessons) hwaiting hpages
  cases result with
  | error error =>
    obtain ⟨lesson, hmem, hfailed⟩ := hcome
    exact .failed hreaches hmem hfailed
  | ok entries =>
    simp only
    split
    · next error hrefused => exact .refused error hreaches hcome .refl
    · next last hmanifest =>
      obtain ⟨ready, hmade, hwritten⟩ := exists_ready_of_writeManifest hmanifest
      exact .finished hreaches hcome (reflTransGen_of_makeChain hmade) hwritten

end Lectern.Site
