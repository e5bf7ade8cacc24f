import Lectern.Proofs.Site.Place
import Lectern.Site.Build

/-!
# What Building a Site Writes

Pages are written while lessons are still read, in directories that may overlap. What is written
has the name of a page or of the manifest, and no lesson has such a name; so a lesson is read as it
was before the build.

## Main results

* `exists_made_of_writeLesson`, `exists_ready_of_writeManifest`: what is written, and where.
* `AreSources.readText?`: a lesson is read as it was before.
* `areSources_of_lessons`: the lessons of a site.
-/

namespace Lectern.Site

open Lesson FileTree

variable {here : Surroundings} {settings : Settings} {tree next last : FileTree}
  {lesson : Lesson} {lessons : List Lesson} {path : Path} {content html : Text}
  {entry : PageEntry} {entries : List PageEntry} {location : Location}

/-- The place of the **page** of a lesson. -/
def pagePlace (here : Surroundings) (settings : Settings) (lesson : Lesson) : Path :=
  here.place (pathIn settings.directories.output (page lesson))

/-- The place of the **manifest**. -/
def manifestPlace (here : Surroundings) (settings : Settings) : Path :=
  here.place (Path.join settings.directories.output manifestName)

/-- Whether `html` is the **page of a lesson** as it is found. -/
def IsPageOf (here : Surroundings) (settings : Settings) (lesson : Lesson) (html : Text) : Prop :=
  ∃ text made, here.readText? (pathIn settings.directories.source lesson) = some text ∧
    settings.render text = .ok made ∧ made.html = html

/-! ### One page -/

/-- The directories on the way to a file that is written. -/
def directoriesFor (here : Surroundings) (path : Path) : List Path :=
  match Path.parent? path with
  | some parent => Path.ancestors (Path.join here.workingDirectory parent)
  | none => []

/-- A page is written when the directories on the way to it have been made. -/
theorem exists_ready_of_writePage (h : writePage here path content = .ok next) : ∃ ready,
    Relation.ReflTransGen (MakesDirectory (directoriesFor here path)) here.tree ready ∧
      ready.write (here.place path) (Text.encode content) = .ok next := by
  simp only [writePage] at h
  split at h
  · cases h
  · next ready hmade =>
    have hready :
        Relation.ReflTransGen (MakesDirectory (directoriesFor here path)) here.tree ready := by
      rw [directoriesFor]
      cases hparent : Path.parent? path with
      | some parent =>
        rw [hparent] at hmade
        exact reflTransGen_of_makeChain hmade
      | none =>
        rw [hparent] at hmade
        exact Except.ok.inj hmade ▸ .refl
    split at h
    · cases h
    · next written hwritten => exact ⟨ready, hready, Except.ok.inj h ▸ hwritten⟩

/-- The entry of the page of a lesson. -/
def entryOf (lesson : Lesson) (page : Page) : PageEntry where
  path := Lesson.display (Lesson.page lesson)
  title := page.title.getD lesson.title

/-- What is written for a lesson is made of its text. -/
theorem exists_made_of_writeLesson (h : writeLesson here settings lesson = .ok (next, entry)) :
    ∃ text made, here.readText? (pathIn settings.directories.source lesson) = some text ∧
      settings.render text = .ok made ∧ entry = entryOf lesson made ∧
      writePage here (pathIn settings.directories.output (page lesson)) made.html = .ok next := by
  simp only [writeLesson] at h
  split at h
  · cases h
  · next text htext =>
    split at h
    · cases h
    · next made hmade =>
      cases hwritten :
          writePage here (pathIn settings.directories.output (page lesson)) made.html with
      | error error =>
        rw [hwritten] at h
        cases h
      | ok tree =>
        rw [hwritten] at h
        obtain ⟨rfl, rfl⟩ := Prod.mk.inj (Except.ok.inj h)
        exact ⟨text, made, htext, hmade, rfl, hwritten⟩

/-! ### Places -/

/-- A page stands where its name is. -/
theorem getLast?_of_locate_page (hlesson : lesson ≠ [])
    (hnames : ∀ name ∈ lesson, Path.IsName name)
    (h : last.locate (pagePlace here settings lesson) = .ok location) :
    ∃ name, location.getLast? = some (pageName name) := by
  obtain ⟨before, name, -, hpage⟩ := exists_page_eq hlesson
  refine ⟨name, ?_⟩
  rw [getLast?_of_locate_place (page_ne_nil hlesson) (isName_of_mem_page hlesson hnames) h, hpage,
    List.getLast?_concat]

/-- The manifest stands where its name is. -/
theorem getLast?_of_locate_manifest
    (h : last.locate (manifestPlace here settings) = .ok location) :
    location.getLast? = some manifestName :=
  @getLast?_of_locate_place here settings.directories.output [manifestName] last location
    (by decide) (by decide) h

/-- A page does not stand where the manifest does. -/
theorem ne_of_locate_page {place : Location} (hlesson : lesson ≠ [])
    (hnames : ∀ name ∈ lesson, Path.IsName name)
    (hpage : last.locate (pagePlace here settings lesson) = .ok place)
    (hmanifest : last.locate (manifestPlace here settings) = .ok location) : place ≠ location := by
  rintro rfl
  obtain ⟨name, hname⟩ := getLast?_of_locate_page hlesson hnames hpage
  exact pageName_ne_manifestName name
    (Option.some.inj (hname.symm.trans (getLast?_of_locate_manifest hmanifest)))

/-! ### Sources -/

/-- The text that is read is in the file to which the path leads. -/
theorem readText?_eq_some_iff {text : Text} : here.readText? path = some text ↔
    ∃ location bytes, here.tree.locate (here.place path) = .ok location ∧
      here.tree.content? location = some bytes ∧ Text.decode? bytes = some text := by
  have hread : here.readText? path = some text ↔ ∃ bytes,
      here.tree.read (here.place path) = .ok bytes ∧ Text.decode? bytes = some text := by
    unfold Surroundings.readText?
    cases here.tree.read (here.place path) <;> simp [Except.toOption]
  simp only [hread, read_eq_ok_iff]
  constructor
  · rintro ⟨bytes, ⟨location, hlocate, hcontent⟩, htext⟩
    exact ⟨location, bytes, hlocate, hcontent, htext⟩
  · rintro ⟨location, bytes, hlocate, hcontent, htext⟩
    exact ⟨bytes, ⟨location, hlocate, hcontent⟩, htext⟩

/-- The **sources** of lessons that are read: they have the name of a lesson, and they stand below
the source directory. -/
structure AreSources (here : Surroundings) (settings : Settings) (lessons : List Lesson) :
    Prop where
  proper : here.tree.IsProper
  nodup : lessons.Nodup
  isSource : ∀ lesson ∈ lessons, IsSource lesson
  exists_parent : ∃ parent, here.tree.locate (here.place settings.directories.source) = .ok parent ∧
    ∀ lesson ∈ lessons, (here.tree.entry? (parent ++ lesson)).isSome = true

namespace AreSources

variable (h : AreSources here settings lessons)
include h

/-- A lesson has a name. -/
theorem ne_nil (hmem : lesson ∈ lessons) : lesson ≠ [] := (h.isSource lesson hmem).ne_nil

/-- There are names on the way to a lesson. -/
theorem isName (hmem : lesson ∈ lessons) : ∀ name ∈ lesson, Path.IsName name := by
  obtain ⟨parent, -, hentry⟩ := h.exists_parent
  exact fun name hname =>
    h.proper.isName_of_mem (hentry lesson hmem) (List.mem_append_right _ hname)

/-- **A lesson is read** as it was before anything was written. -/
theorem readText? (hgrows : GrowsAt IsOutput here.tree tree) (hmem : lesson ∈ lessons) {text : Text}
    (htext : { here with tree }.readText? (pathIn settings.directories.source lesson) =
      some text) :
    here.readText? (pathIn settings.directories.source lesson) = some text := by
  obtain ⟨location, bytes, hlocate, hcontent, htext⟩ := readText?_eq_some_iff.1 htext
  obtain ⟨parent, hparent, hentry⟩ := h.exists_parent
  obtain ⟨rfl, hbefore⟩ := locate_place_of_isSome h.proper hgrows hparent (h.ne_nil hmem)
    (hentry lesson hmem) hlocate
  have hnot := ((h.isSource lesson hmem).isMarkdown.append parent).not_isOutput
  exact readText?_eq_some_iff.2
    ⟨_, bytes, hbefore, (hgrows.content _ hnot).symm.trans hcontent, htext⟩

end AreSources

/-- **The lessons of a site** are sources, in order. -/
theorem areSources_of_lessons (htree : here.tree.IsProper)
    (h : Site.lessons here settings = .ok lessons) :
    AreSources here settings lessons ∧ lessons.Pairwise (· < ·) := by
  simp only [Site.lessons] at h
  split at h
  · next hsource =>
    obtain ⟨hne, hplace⟩ := Surroundings.place_of_find hsource
    obtain ⟨parent, hparent, hdirectory⟩ := exists_locate_of_find hsource
    have hjoined := hparent
    rw [hplace] at hjoined
    obtain rfl := Except.ok.inj h
    have hordered := pairwise_allBelow htree hne hjoined hdirectory
    refine ⟨⟨htree, hordered.imp fun hlt heq => ?_, fun lesson hlesson => ?_, parent, hparent,
      fun lesson hlesson => ?_⟩, hordered⟩
    · exact List.lt_irrefl _ (heq ▸ hlt)
    · exact ((mem_allBelow htree hne hjoined hdirectory).1 hlesson).2.1
    · exact ((mem_allBelow htree hne hjoined hdirectory).1 hlesson).2.2
  · cases h

/-! ### The manifest -/

/-- The manifest is written when the output directory has been made. -/
theorem exists_ready_of_writeManifest (h : writeManifest here settings entries = .ok next) :
    ∃ ready, here.tree.makeDirectories
        (Path.join here.workingDirectory settings.directories.output) = .ok ready ∧
      ready.write (manifestPlace here settings) (Text.encode
        (manifest settings.site (settings.interpreterVersion here) entries).pretty) = .ok next := by
  simp only [writeManifest] at h
  cases hmade : here.tree.makeDirectories
      (Path.join here.workingDirectory settings.directories.output) with
  | error error =>
    rw [hmade] at h
    cases h
  | ok ready =>
    simp only [hmade, bind, Except.bind] at h
    refine ⟨ready, rfl, ?_⟩
    unfold manifestPlace
    cases hwritten : ready.write (here.place (Path.join settings.directories.output manifestName))
        (Text.encode
          (manifest settings.site (settings.interpreterVersion here) entries).pretty) with
    | error error =>
      rw [hwritten] at h
      cases h
    | ok written =>
      rw [hwritten] at h
      exact congrArg Except.ok (Except.ok.inj h)

end Lectern.Site
