import Lectern.Proofs.Site.Build
import Mathlib.Data.List.Nodup
import Mathlib.Logic.Relation

/-!
# Lessons in Any Order

Lessons do not depend on each other, so they may be worked on at the same time. Here the work on
each of them goes on in small steps, which follow each other in any order: the lesson is read,
directories are made, and the page is written, piece by piece if need be. At every point before its
page is written, the work on a lesson may fail.

A state of this work is a file tree with the stage of each lesson. What holds in all states that are
reached is shown for one step of one lesson and, by induction, for a whole run.

## Main results

* `LessonStep.effect`: what one step of one lesson does to the tree.
* `IsSound.step`, `IsSound.of_reaches`: an invariant of the work, by where the page of the step
  stands.
-/

namespace Lectern.Site

open FileTree Lesson
open Relation (ReflTransGen)

variable {here : Surroundings} {settings : Settings} {lessons rest : List Lesson}
  {lesson other : Lesson} {tree next last : FileTree} {entry : PageEntry}
  {entries : List PageEntry} {location : Location}

/-! ### Steps -/

/-- How far the **work on a lesson** is. -/
inductive Stage where
  /-- The lesson has not been read. -/
  | waiting
  /-- The lesson has been read, and its page can be written. -/
  | made (page : Page)
  /-- The file of the page has some content, which need not be the whole page. -/
  | opened (page : Page)
  /-- The page is written. -/
  | written (page : Page)
  /-- The work has ended before the page was written. -/
  | failed (error : BuildError)

/-- The page that is made of a lesson. -/
def Stage.page? : Stage → Option Page
  | .made page | .opened page | .written page => some page
  | .waiting | .failed _ => none

/-- Whether the content of the file may be something else than a page. -/
def Stage.IsTorn : Stage → Prop
  | .opened _ | .failed _ => True
  | .waiting | .made _ | .written _ => False

/-- Whether a page is made and still has to be written. -/
def Stage.IsPending (stage : Stage) (page : Page) : Prop :=
  stage = .made page ∨ stage = .opened page

/-- **One step** of the work on a lesson, on the tree and its stage. -/
inductive LessonStep (here : Surroundings) (settings : Settings) (lesson : Lesson) :
    FileTree × Stage → FileTree × Stage → Prop
  /-- The lesson is read, and its page is made. -/
  | read {tree : FileTree} {text : Text} {page : Page}
    (htext : { here with tree }.readText? (pathIn settings.directories.source lesson) = some text)
    (hpage : settings.render text = .ok page) :
    LessonStep here settings lesson (tree, .waiting) (tree, .made page)
  /-- A directory is made. -/
  | makeDirectory {tree next : FileTree} {page : Page}
    (hmade : MakesDirectory
      (directoriesFor here (pathIn settings.directories.output lesson.page)) tree next) :
    LessonStep here settings lesson (tree, .made page) (next, .made page)
  /-- The file gets a content, which may be any. -/
  | spill {tree next : FileTree} {stage : Stage} {page : Page} {bytes : Bytes}
    (hpending : stage.IsPending page)
    (hwritten : tree.write (pagePlace here settings lesson) bytes = .ok next) :
    LessonStep here settings lesson (tree, stage) (next, .opened page)
  /-- The file gets the page as its content. -/
  | finish {tree next : FileTree} {stage : Stage} {page : Page} (hpending : stage.IsPending page)
    (hwritten : tree.write (pagePlace here settings lesson) (Text.encode page.html) = .ok next) :
    LessonStep here settings lesson (tree, stage) (next, .written page)
  /-- The work ends. -/
  | fail {tree : FileTree} {stage : Stage} (error : BuildError)
    (hunwritten : ∀ page, stage ≠ .written page) :
    LessonStep here settings lesson (tree, stage) (tree, .failed error)

/-- The **state of the work** on all lessons. -/
structure Work where
  tree : FileTree
  stage : Lesson → Stage

/-- The state before any work. -/
def Work.start (tree : FileTree) : Work := ⟨tree, fun _ => .waiting⟩

/-- The state in which one lesson has come to a stage. -/
def Work.update (work : Work) (lesson : Lesson) (next : FileTree) (stage : Stage) : Work :=
  ⟨next, fun other => if other = lesson then stage else work.stage other⟩

/-- The lesson that has come to a stage is there. -/
theorem Work.update_stage_self (work : Work) (lesson : Lesson) (next : FileTree) (stage : Stage) :
    (work.update lesson next stage).stage lesson = stage := if_pos rfl

/-- The other lessons are where they were. -/
theorem Work.update_stage_of_ne (work : Work) (next : FileTree) (stage : Stage)
    (h : other ≠ lesson) : (work.update lesson next stage).stage other = work.stage other :=
  if_neg h

/-- **One step** of the work on lessons is one on any of them. -/
inductive Work.Step (here : Surroundings) (settings : Settings) (lessons : List Lesson) :
    Work → Work → Prop
  | of {work : Work} {lesson : Lesson} {next : FileTree} {stage : Stage} (hmem : lesson ∈ lessons)
    (hstep : LessonStep here settings lesson (work.tree, work.stage lesson) (next, stage)) :
    Work.Step here settings lessons work (work.update lesson next stage)

/-- Whether one state of the work is **reached** from another. -/
def Work.Reaches (here : Surroundings) (settings : Settings) (lessons : List Lesson) :
    Work → Work → Prop :=
  ReflTransGen (Work.Step here settings lessons)

/-! ### What one step does -/

/-- A page that is pending is one that is made. -/
theorem Stage.IsPending.page? {stage : Stage} {page : Page} (h : stage.IsPending page) :
    stage.page? = some page := by
  obtain rfl | rfl := h <;> rfl

namespace LessonStep

variable {stage stage' : Stage}

/-- **One step of one lesson** either changes no file and leaves the file of the page as good as it
was, or it leaves the file in doubt, or it finishes the page. -/
theorem effect (h : LessonStep here settings lesson (tree, stage) (next, stage')) :
    (GrowsAt (fun _ => False) tree next ∧ ¬ stage.IsTorn ∧ ∀ page, stage' ≠ .written page) ∨
    (GrowsAt (fun location => next.locate (pagePlace here settings lesson) = .ok location)
      tree next ∧ stage'.IsTorn) ∨
    ∃ page location, stage' = .written page ∧ GrowsAt (· = location) tree next ∧
      next.locate (pagePlace here settings lesson) = .ok location ∧
      next.content? location = some (Text.encode page.html) := by
  cases h with
  | read htext hpage => exact .inl ⟨.refl tree, id, by simp⟩
  | makeDirectory hmade =>
    obtain ⟨p, -, hmade⟩ := hmade
    exact .inl ⟨growsAt_makeDirectory hmade, id, by simp⟩
  | spill hpending hwritten =>
    obtain ⟨location, hgrows, hlocate, -⟩ := growsAt_write hwritten
    refine .inr (.inl ⟨hgrows.mono ?_, trivial⟩)
    rintro _ rfl
    exact hlocate
  | finish hpending hwritten =>
    obtain ⟨location, hgrows, hlocate, hcontent⟩ := growsAt_write hwritten
    exact .inr (.inr ⟨_, location, rfl, hgrows, hlocate, hcontent⟩)
  | fail error hunwritten => exact .inr (.inl ⟨.refl tree, trivial⟩)

/-- A step changes no file but that of the page. -/
theorem growsAt (h : LessonStep here settings lesson (tree, stage) (next, stage')) :
    GrowsAt (fun location => next.locate (pagePlace here settings lesson) = .ok location)
      tree next := by
  obtain ⟨hgrows, -, -⟩ | ⟨hgrows, -⟩ | ⟨page, location, -, hgrows, hlocate, -⟩ := h.effect
  · exact hgrows.mono fun _ => False.elim
  · exact hgrows
  · refine hgrows.mono ?_
    rintro _ rfl
    exact hlocate

/-- Nothing is done for a page that is written. -/
theorem ne_written (h : LessonStep here settings lesson (tree, stage) (next, stage'))
    (page : Page) : stage ≠ .written page := by
  cases h with
  | read htext hrendered => exact nofun
  | makeDirectory hmade => exact nofun
  | spill hpending hwritten =>
    rintro rfl
    cases hpending <;> contradiction
  | finish hpending hwritten =>
    rintro rfl
    cases hpending <;> contradiction
  | fail error hunwritten => exact hunwritten page

/-- A page comes from before, or it is made of the lesson as it is read. -/
theorem page? (h : LessonStep here settings lesson (tree, stage) (next, stage')) {page : Page}
    (hpage : stage'.page? = some page) : stage.page? = some page ∨
      ∃ text, { here with tree }.readText? (pathIn settings.directories.source lesson) =
        some text ∧ settings.render text = .ok page := by
  cases h with
  | read htext hrendered =>
    obtain rfl := Option.some.inj hpage
    exact .inr ⟨_, htext, hrendered⟩
  | makeDirectory hmade => exact .inl hpage
  | spill hpending hwritten =>
    obtain rfl := Option.some.inj hpage
    exact .inl hpending.page?
  | finish hpending hwritten =>
    obtain rfl := Option.some.inj hpage
    exact .inl hpending.page?
  | fail error hunwritten => cases hpage

end LessonStep

/-! ### All lessons -/

/-- Whether `page` is **made of a lesson** as it is found. -/
def IsMadeOf (here : Surroundings) (settings : Settings) (lesson : Lesson) (page : Page) : Prop :=
  ∃ text, here.readText? (pathIn settings.directories.source lesson) = some text ∧
    settings.render text = .ok page

/-- Whether nobody has left the file of a page in doubt. -/
def Work.IsClean (work : Work) (lessons : List Lesson) (lesson : Lesson) : Prop :=
  ∀ other ∈ lessons, Lesson.page other = Lesson.page lesson → ¬ (work.stage other).IsTorn

/-- Whether the file in a place has the page of a lesson as its content, or that of another lesson
whose page stands there as well. -/
def Work.HoldsPage (work : Work) (lessons : List Lesson) (lesson : Lesson) (location : Location) :
    Prop :=
  ∃ other ∈ lessons, ∃ made, Lesson.page other = Lesson.page lesson ∧
    work.stage other = .written made ∧
    work.tree.content? location = some (Text.encode made.html)

/-- A file that is not in doubt after a step was not before, if the lesson of the step had not left
it so. -/
theorem Work.isClean_of_update {work : Work} {stage : Stage}
    (hclean : (work.update lesson next stage).IsClean lessons other)
    (hself : Lesson.page lesson = Lesson.page other → ¬ (work.stage lesson).IsTorn) :
    work.IsClean lessons other := by
  intro third hthird hpage
  by_cases hsame : third = lesson
  · subst hsame
    exact hself hpage
  · exact work.update_stage_of_ne next stage hsame ▸ hclean third hthird hpage

/-- A step on a lesson without a page keeps the page in a file, if it leaves the file alone. -/
theorem Work.HoldsPage.update {work : Work} {stage : Stage}
    (h : work.HoldsPage lessons other location)
    (hunwritten : ∀ page, work.stage lesson ≠ .written page)
    (hcontent : next.content? location = work.tree.content? location) :
    (work.update lesson next stage).HoldsPage lessons other location := by
  obtain ⟨third, hthird, made, hpage, hwritten, hmade⟩ := h
  have hne : third ≠ lesson := by
    rintro rfl
    exact hunwritten made hwritten
  exact ⟨third, hthird, made, hpage, (work.update_stage_of_ne next stage hne).trans hwritten,
    hcontent.trans hmade⟩

/-- Whether the page of a lesson is **settled**: its path leads to a place, and the file there has a
page as its content, unless somebody has left it in doubt. -/
def IsSettled (here : Surroundings) (settings : Settings) (lessons : List Lesson) (work : Work)
    (lesson : Lesson) : Prop :=
  ∃ location, work.tree.locate (pagePlace here settings lesson) = .ok location ∧
    (work.IsClean lessons lesson → work.HoldsPage lessons lesson location)

/-- Whether a state of the work is **sound**: only files of pages have changed, pages are made of
the lessons as they were found, and those that are written are settled. -/
structure IsSound (here : Surroundings) (settings : Settings) (lessons : List Lesson)
    (work : Work) : Prop where
  grows : GrowsAt (fun location => ∃ lesson ∈ lessons,
    work.tree.locate (pagePlace here settings lesson) = .ok location) here.tree work.tree
  made : ∀ lesson ∈ lessons, ∀ page, (work.stage lesson).page? = some page →
    IsMadeOf here settings lesson page
  settled : ∀ lesson ∈ lessons, ∀ page, work.stage lesson = .written page →
    IsSettled here settings lessons work lesson

/-- The state before any work is sound. -/
theorem isSound_start (here : Surroundings) (settings : Settings) (lessons : List Lesson) :
    IsSound here settings lessons (Work.start here.tree) :=
  ⟨.refl _, fun _ _ _ h => (nomatch h), fun _ _ _ h => (nomatch h)⟩

namespace IsSound

variable {work work' : Work}

/-- What is written has the name of a page. -/
theorem growsAt_isPage (h : IsSound here settings lessons work)
    (hlessons : AreSources here settings lessons) :
    GrowsAt (fun location => ∃ name, location.getLast? = some (pageName name)) here.tree
      work.tree := by
  refine h.grows.mono ?_
  rintro location ⟨lesson, hmem, hlocate⟩
  exact getLast?_of_locate_page (hlessons.ne_nil hmem) (hlessons.isName hmem) hlocate

/-- **A page that was written before** stays so, if the step leaves its file alone or in doubt. -/
theorem isSettled_of_ne (h : IsSound here settings lessons work) {stage : Stage}
    (hstep : LessonStep here settings lesson (work.tree, work.stage lesson) (next, stage))
    (hmemOther : other ∈ lessons) (hne : other ≠ lesson) {page : Page}
    (hwritten : (work.update lesson next stage).stage other = .written page)
    (hleft : ∀ location, next.locate (pagePlace here settings other) = .ok location →
      (work.update lesson next stage).IsClean lessons other →
      (Lesson.page lesson = Lesson.page other → ¬ (work.stage lesson).IsTorn) ∧
        next.content? location = work.tree.content? location) :
    IsSettled here settings lessons (work.update lesson next stage) other := by
  rw [work.update_stage_of_ne next stage hne] at hwritten
  obtain ⟨location, hlocate, hholds⟩ := h.settled other hmemOther page hwritten
  have hlocate' := hstep.growsAt.locate hlocate
  refine ⟨location, hlocate', fun hclean => ?_⟩
  obtain ⟨hbefore, hcontent⟩ := hleft location hlocate' hclean
  exact (hholds (Work.isClean_of_update hclean hbefore)).update hstep.ne_written hcontent

/-- A page that is written is not touched by a step on a lesson **whose page stands elsewhere**. -/
theorem isSettled_of_page_ne (h : IsSound here settings lessons work)
    (hlessons : AreSources here settings lessons) {stage : Stage} (hmem : lesson ∈ lessons)
    (hstep : LessonStep here settings lesson (work.tree, work.stage lesson) (next, stage))
    (hmemOther : other ∈ lessons) (hpage : Lesson.page lesson ≠ Lesson.page other) {page : Page}
    (hwritten : (work.update lesson next stage).stage other = .written page) :
    IsSettled here settings lessons (work.update lesson next stage) other := by
  have hne : other ≠ lesson := fun heq => hpage (by rw [heq])
  refine h.isSettled_of_ne hstep hmemOther hne hwritten fun location hlocate _ =>
    ⟨fun heq => absurd heq hpage, hstep.growsAt.content location fun hplace => hpage ?_⟩
  have hnonempty := hlessons.ne_nil hmem
  have hnonemptyOther := hlessons.ne_nil hmemOther
  exact eq_of_locate_place (page_ne_nil hnonempty) (page_ne_nil hnonemptyOther)
    (isName_of_mem_page hnonempty (hlessons.isName hmem))
    (isName_of_mem_page hnonemptyOther (hlessons.isName hmemOther)) hplace hlocate

/-- A step on a lesson **whose page stands in the same place** leaves the page as it is, or leaves
the file in doubt, or puts its own page there. -/
theorem isSettled_of_page_eq (h : IsSound here settings lessons work) {stage : Stage}
    (hmem : lesson ∈ lessons)
    (hstep : LessonStep here settings lesson (work.tree, work.stage lesson) (next, stage))
    (hmemOther : other ∈ lessons) (hpage : Lesson.page lesson = Lesson.page other) {page : Page}
    (hwritten : (work.update lesson next stage).stage other = .written page) :
    IsSettled here settings lessons (work.update lesson next stage) other := by
  have hself := work.update_stage_self lesson next stage
  obtain ⟨hquiet, hbefore, hunwritten⟩ | ⟨-, htorn⟩ |
    ⟨made, location, hstage, -, hlocate, hcontent⟩ := hstep.effect
  · have hne : other ≠ lesson := by
      rintro rfl
      exact hunwritten page (hself.symm.trans hwritten)
    exact h.isSettled_of_ne hstep hmemOther hne hwritten fun location _ _ =>
      ⟨fun _ => hbefore, hquiet.content location id⟩
  · have hne : other ≠ lesson := by
      rintro rfl
      rw [← hself, hwritten] at htorn
      exact htorn
    exact h.isSettled_of_ne hstep hmemOther hne hwritten fun location _ hclean =>
      absurd (hself.symm ▸ htorn) (hclean lesson hmem hpage)
  · rw [pagePlace, hpage, ← pagePlace] at hlocate
    exact ⟨location, hlocate, fun _ => ⟨lesson, hmem, made, hpage, hself.trans hstage, hcontent⟩⟩

/-- **One step** of the work keeps it sound. -/
theorem step (h : IsSound here settings lessons work) (hlessons : AreSources here settings lessons)
    (hstep : Work.Step here settings lessons work work') :
    IsSound here settings lessons work' := by
  cases hstep with
  | @of lesson next stage hmem hstep =>
    have hgrows := hstep.growsAt
    refine ⟨?_, fun other hother page hpage => ?_, fun other hother page hwritten => ?_⟩
    · refine (h.grows.mono ?_).trans (hgrows.mono ?_)
      · rintro location ⟨other, hother, hlocate⟩
        exact ⟨other, hother, hgrows.locate hlocate⟩
      · exact fun location hlocate => ⟨lesson, hmem, hlocate⟩
    · by_cases hsame : other = lesson
      · subst hsame
        rw [work.update_stage_self] at hpage
        rcases hstep.page? hpage with hbefore | ⟨text, htext, hrendered⟩
        · exact h.made other hother page hbefore
        · have hread := hlessons.readText? ((h.growsAt_isPage hlessons).mono fun _ => .inl) hother
            htext
          exact ⟨text, hread, hrendered⟩
      · rw [work.update_stage_of_ne next stage hsame] at hpage
        exact h.made other hother page hpage
    · by_cases hpage : Lesson.page lesson = Lesson.page other
      · exact h.isSettled_of_page_eq hmem hstep hother hpage hwritten
      · exact h.isSettled_of_page_ne hlessons hmem hstep hother hpage hwritten

/-- **All states that are reached** are sound. -/
theorem of_reaches (hlessons : AreSources here settings lessons)
    (hreaches : Work.Reaches here settings lessons (Work.start here.tree) work) :
    IsSound here settings lessons work := by
  induction hreaches with
  | refl => exact isSound_start here settings lessons
  | tail _ hstep ih => exact ih.step hlessons hstep

end IsSound

end Lectern.Site
