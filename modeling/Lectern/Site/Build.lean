import Lectern.FileTree.Writing
import Lectern.Json.Printer
import Lectern.Settings.Load
import Lectern.Settings.Pipeline
import Lectern.Site.Lesson

/-!
# Building a Site

A site is built lesson by lesson, in order; the page of a lesson is written before the next lesson
is read. The manifest comes last, so a site with a manifest is complete. The first failure ends
the build, and the pages that were written before it stay.

* `Site.lessons` — the lessons of the source directory.
* `Site.writeLesson` — one page.
* `Site.build` — the whole site.
-/

namespace Lectern

namespace Site

/-! ### Errors -/

/-- Why a site **cannot be built**: there is no source directory, a lesson cannot be read or its
page cannot be written, a directory or the manifest cannot be written, or a lesson makes no
page. -/
inductive BuildError where
  | noSource (directory : Path)
  | page (path : Path)
  | unwritable
  | fault
deriving DecidableEq, Repr

/-- The text of an error. What the system says about a file is not part of it. -/
def BuildError.message : BuildError → Text
  | .noSource directory => "Source directory not found: ".toList ++ Path.display directory
  | .page path => Path.display path ++ ": I/O error".toList
  | .unwritable => "I/O error".toList
  | .fault => "page cannot be rendered".toList

/-! ### Manifests -/

/-- A **page** in the manifest of a site. -/
structure PageEntry where
  path : Text
  title : Text
deriving DecidableEq, Repr

/-- The entry of a page as JSON. -/
def PageEntry.toJson (entry : PageEntry) : Json :=
  .ofMembers [("path".toList, .ofText entry.path), ("title".toList, .ofText entry.title)]

/-- The **manifest** of a site with the given pages. -/
def manifest (site : Site) (version : Text) (pages : List PageEntry) : Json :=
  .ofMembers [
    ("title".toList, .ofText site.title),
    ("description".toList, .ofText site.description),
    ("version".toList, .ofText version),
    ("pages".toList, .array (pages.map PageEntry.toJson))]

/-- The name of the file that holds the manifest of a site. -/
def manifestName : Path := Path.ofText "manifest.json".toList

/-! ### Lessons -/

/-- The lessons of the source directory of a site. -/
def lessons (here : Surroundings) (settings : Settings) : Except BuildError (List Lesson) :=
  let source := settings.directories.source
  match here.find source with
  | .ok .directory => .ok (Lesson.allBelow here.tree here.workingDirectory source)
  | _ => .error (.noSource source)

/-- The tree with a page, and with the directories on the way to it. -/
def writePage (here : Surroundings) (path : Path) (content : Text) :
    Except BuildError FileTree :=
  let made := match Path.parent? path with
    | some parent => here.tree.makeDirectories (Path.join here.workingDirectory parent)
    | none => .ok here.tree
  match made with
  | .error _ => .error .unwritable
  | .ok ready =>
    match ready.write (here.place path) (Text.encode content) with
    | .error _ => .error (.page path)
    | .ok written => .ok written

/-- The tree after the page of a **lesson**, and the entry of the page. -/
def writeLesson (here : Surroundings) (settings : Settings) (lesson : Lesson) :
    Except BuildError (FileTree × PageEntry) :=
  let source := Lesson.pathIn settings.directories.source lesson
  match here.readText? source with
  | none => .error (.page source)
  | some text =>
    match settings.render text with
    | .error _ => .error .fault
    | .ok page =>
      let written :=
        writePage here (Lesson.pathIn settings.directories.output lesson.page) page.html
      written.map fun tree =>
        (tree, { path := Lesson.display lesson.page, title := page.title.getD lesson.title })

/-- The tree after the pages of some lessons, up to the first failure, and their entries. -/
def writeLessons (here : Surroundings) (settings : Settings) :
    FileTree → List Lesson → FileTree × Except BuildError (List PageEntry)
  | tree, [] => (tree, .ok [])
  | tree, lesson :: rest =>
    match writeLesson { here with tree } settings lesson with
    | .error error => (tree, .error error)
    | .ok (next, entry) =>
      let (last, result) := writeLessons here settings next rest
      (last, result.map (entry :: ·))

/-! ### Sites -/

/-- The tree with the manifest of a site. -/
def writeManifest (here : Surroundings) (settings : Settings) (pages : List PageEntry) :
    Except BuildError FileTree :=
  let output := settings.directories.output
  let content := (manifest settings.site (settings.interpreterVersion here) pages).pretty
  let written := do
    let ready ← here.tree.makeDirectories (Path.join here.workingDirectory output)
    ready.write (here.place (Path.join output manifestName)) (Text.encode content)
  written.mapError fun _ => .unwritable

/-- The tree after the lessons and the manifest of a **site**, and the number of its pages. -/
def build (here : Surroundings) (settings : Settings) (lessons : List Lesson) :
    FileTree × Except BuildError Nat :=
  match writeLessons here settings here.tree lessons with
  | (tree, .error error) => (tree, .error error)
  | (tree, .ok pages) =>
    match writeManifest { here with tree } settings pages with
    | .error error => (tree, .error error)
    | .ok last => (last, .ok pages.length)

end Site

end Lectern
