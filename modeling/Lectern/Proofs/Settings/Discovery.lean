import Lectern.Proofs.Path.Parent
import Lectern.Proofs.Settings.Validity
import Lectern.Proofs.Site.Place
import Mathlib.Data.List.Infix

/-!
# The Closest Settings File

A program that is not told where its settings are looks for them in its working directory and in
the directories above it. This module shows that the working directory counts only for which file
is the **closest**: all programs with the same closest file load the same settings or meet the same
error, and so does one that is told the path of the file, wherever it works. The relative paths in
the file start in the directory of the file.

Working directories are paths of names from the root. Whether a directory has a settings file is
asked of its path, as a program does it; on a disk, there is one if an entry with that name stands
in the directory and the path is not too long.

## Main results

* `hasFile_iff`: the directories of a disk that have a settings file.
* `discover?_of_isClosest`: the search finds the closest file.
* `load_of_isClosest`: the settings that are loaded with a given closest file.
* `load_of_isClosest_nestedProject`: a project with a directory for lessons, below other settings.
-/

namespace Lectern.FileTree

variable {tree : FileTree} {names : List Bytes} {entry : Entry}

/-- **What stands on a disk** is where its path leads, unless that is too long for a path. -/
theorem find_ofNames (htree : tree.IsProper) (hne : names ≠ [])
    (hnames : ∀ name ∈ names, Path.IsName name) (hlengths : ∀ name ∈ names, name.length ≤ maxName) :
    tree.find (Path.ofNames true names) = .ok entry ↔
      isUsable (Path.ofNames true names) = true ∧ tree.entry? names = some entry := by
  have hsegments := Path.segments_ofNames hne hnames
  have hwalk : tree.walk [] ([] :: names) = tree.walk [] names := by
    simp [walk, step, Path.isSilent]
  constructor
  · intro h
    obtain ⟨location, hlocate, hentry⟩ := exists_locate_of_find h
    obtain ⟨-, husable, hlocation⟩ := walk_of_locate hlocate
    rw [hsegments, hwalk] at hlocation
    obtain ⟨rfl, -⟩ := Lesson.eq_of_walk_names hnames hlocation
    exact ⟨husable, hentry⟩
  · rintro ⟨husable, hentry⟩
    have hplace : Path.ofNames true names ≠ [] := by simp [Path.ofNames]
    have hlocation : tree.walk [] names = .ok names := by
      refine Lesson.walk_names_of_isSome htree hlengths ?_
      rw [List.nil_append, hentry]
      rfl
    rw [find, locate, if_neg hplace, if_pos husable, hsegments, hwalk, hlocation]
    simp [hentry]

end Lectern.FileTree

namespace Lectern.Settings

variable {tree : FileTree} {environment : Environment} {directory between names : List Bytes}

/-! ### Settings files -/

/-- The path of the settings file in a directory. -/
def fileIn (directory : List Bytes) : Path := Path.ofNames true (directory ++ [fileName])

/-- Whether there **is a settings file** in a directory: its path leads to something. -/
def HasFile (tree : FileTree) (directory : List Bytes) : Prop :=
  ∃ entry, tree.find (fileIn directory) = .ok entry

/-- Whether the settings file in `directory` is the **closest** to a working directory: there is
one, in that directory or above it, and none in between. -/
structure IsClosest (tree : FileTree) (directory names : List Bytes) : Prop where
  isName : ∀ name ∈ names, Path.IsName name
  encloses : directory <+: names
  hasFile : HasFile tree directory
  closest : ∀ between, directory <+: between → between <+: names → HasFile tree between →
    between = directory

instance : Decidable (HasFile tree directory) :=
  decidable_of_iff ((tree.find (fileIn directory)).toOption.isSome = true) <| by
    unfold HasFile
    cases tree.find (fileIn directory) <;> simp [Except.toOption]

instance : Decidable (IsClosest tree directory names) :=
  decidable_of_iff ((∀ name ∈ names, Path.IsName name) ∧ directory <+: names ∧
      HasFile tree directory ∧ ∀ between ∈ names.inits, directory <+: between →
        HasFile tree between → between = directory)
    ⟨fun h => ⟨h.1, h.2.1, h.2.2.1, fun between habove hbelow =>
        h.2.2.2 between ((List.mem_inits _ _).2 hbelow) habove⟩,
      fun h => ⟨h.isName, h.encloses, h.hasFile, fun between hbelow habove =>
        h.closest between habove ((List.mem_inits _ _).1 hbelow)⟩⟩

/-- A directory above a working directory is one of names. -/
theorem IsClosest.isName_directory (h : IsClosest tree directory names) :
    ∀ name ∈ directory, Path.IsName name :=
  fun name hmem => h.isName name (h.encloses.subset hmem)

/-- The name of a settings file is a name. -/
theorem isName_fileName : Path.IsName fileName := by decide

/-- The names on the way to a settings file. -/
theorem isName_of_mem_fileIn (h : ∀ name ∈ directory, Path.IsName name) :
    ∀ name ∈ directory ++ [fileName], Path.IsName name :=
  List.forall_mem_append.2 ⟨h, List.forall_mem_singleton.2 isName_fileName⟩

/-- **On a disk** there is a settings file in a directory if an entry stands there that has its
name, unless its path is too long. -/
theorem hasFile_iff (htree : tree.IsProper) (hnames : ∀ name ∈ directory, Path.IsName name)
    (hlengths : ∀ name ∈ directory, name.length ≤ FileTree.maxName) :
    HasFile tree directory ↔ FileTree.isUsable (fileIn directory) = true ∧
      (tree.entry? (directory ++ [fileName])).isSome = true := by
  have hshort : ∀ name ∈ directory ++ [fileName], name.length ≤ FileTree.maxName :=
    List.forall_mem_append.2 ⟨hlengths, List.forall_mem_singleton.2 (by decide)⟩
  have hfind := fun entry => @FileTree.find_ofNames tree _ entry htree (by simp)
    (isName_of_mem_fileIn hnames) hshort
  simp only [HasFile, fileIn, hfind, exists_and_left, Option.isSome_iff_exists]

/-! ### The search -/

/-- An absolute path is its own place. -/
theorem place_ofNames (here : Surroundings) (names : List Bytes) :
    here.place (Path.ofNames true names) = Path.ofNames true names := by
  have hne : Path.ofNames true names ≠ [] := by simp [Path.ofNames]
  rw [Surroundings.place, if_neg hne, Path.join, if_pos (Path.isAbsolute_ofNames names)]

/-- What a program sees of a settings file. -/
theorem has_fileIn (here : Surroundings) :
    here.has (fileIn directory) = true ↔ HasFile here.tree directory := by
  unfold Surroundings.has Surroundings.find HasFile fileIn
  rw [place_ofNames]
  cases here.tree.find (Path.ofNames true (directory ++ [fileName])) <;> simp [Except.toOption]

/-- The closest file stays so above a directory without one. -/
theorem IsClosest.above {name : Bytes} (h : IsClosest tree directory (names ++ [name]))
    (hne : directory ≠ names ++ [name]) : IsClosest tree directory names where
  isName part hmem := h.isName part (List.mem_append_left _ hmem)
  encloses := (List.prefix_concat_iff.1 h.encloses).resolve_left hne
  hasFile := h.hasFile
  closest between habove hbelow := h.closest between habove (hbelow.trans (List.prefix_append _ _))

/-- **The way up** from a working directory meets the closest file first. Induction on the names of
the working directory from their end, as the way takes off one after the other. -/
theorem find?_ancestorsAux (here : Surroundings) (h : IsClosest here.tree directory names)
    {fuel : Nat} (hfuel : names.length ≤ fuel) :
    ((Path.ancestorsAux fuel (Path.ofNames true names)).map fun p => Path.join p fileName).find?
      here.has = some (fileIn directory) := by
  have hjoin : Path.join (Path.ofNames true names) fileName = fileIn names :=
    Path.join_ofNames h.isName isName_fileName
  induction names using List.reverseRecOn generalizing fuel with
  | nil =>
    obtain rfl : directory = [] := List.prefix_nil.1 h.encloses
    have hhas : here.has (fileIn []) = true := (has_fileIn here).2 h.hasFile
    cases fuel <;> simp [Path.ancestorsAux, hjoin, hhas]
  | append_singleton names name ih =>
    obtain ⟨fuel, rfl⟩ : ∃ n, fuel = n + 1 := Nat.exists_eq_add_one.2 (by simp at hfuel; omega)
    rw [Path.ancestorsAux, Path.parent?_ofNames h.isName, List.map_cons, List.find?_cons, hjoin]
    by_cases hlast : directory = names ++ [name]
    · rw [(has_fileIn here).2 (hlast ▸ h.hasFile), hlast]
    · have hnone : here.has (fileIn (names ++ [name])) = false :=
        Bool.eq_false_iff.2 fun hhas => hlast
          (h.closest _ h.encloses (List.prefix_refl _) ((has_fileIn here).1 hhas)).symm
      have habove := h.above hlast
      rw [hnone]
      exact ih habove (by simpa using hfuel) (Path.join_ofNames habove.isName isName_fileName)

/-- A path of names is longer than their number. -/
theorem length_le_length_ofNames (hnames : ∀ name ∈ names, Path.IsName name) :
    names.length ≤ (Path.ofNames true names).length := by
  induction names using List.reverseRecOn with
  | nil => simp
  | append_singleton names name ih =>
    obtain ⟨hbefore, hname⟩ := List.forall_mem_append.1 hnames
    have hlength := List.length_pos_iff.2 (List.forall_mem_singleton.1 hname).ne_nil
    have hrest := ih hbefore
    by_cases hempty : names = []
    · rw [hempty, List.nil_append, Path.ofNames_singleton]
      simp
    · rw [Path.ofNames_concat hempty]
      simp only [List.length_append, List.length_cons, List.length_nil]
      omega

/-- **The search finds the closest file.** -/
theorem discover?_of_isClosest (h : IsClosest tree directory names) :
    discover? ⟨tree, Path.ofNames true names, environment⟩ = some (fileIn directory) :=
  find?_ancestorsAux _ h (length_le_length_ofNames h.isName)

/-! ### Relative paths -/

/-- Whether a path is what is written in a file in `directory`: a relative path **starts in the
directory**. -/
def StartsIn (directory : Path) (written : Text) (p : Path) : Prop :=
  if Path.isAbsolute (Path.ofText written) then p = Path.ofText written
  else Path.components p = Path.components directory ++
    (Path.segments (Path.ofText written)).filterMap Path.Component.ofSegment?

/-- **Written paths** start in the directory of the file. -/
theorem startsIn_pathIn {directory : Path} (hne : directory ≠ []) (written : Text) :
    StartsIn directory written (Draft.pathIn directory written) := by
  have hdot : Path.ofText ['.'] = [Path.dot] := by decide
  by_cases hhere : written = [] ∨ written = ['.']
  · rw [Draft.pathIn, if_pos (by simpa using hhere)]
    obtain rfl | rfl := hhere
    · simp [StartsIn, Path.ofText, Text.encode, Path.isAbsolute, Path.segments,
        Path.Component.ofSegment?]
    · simp [StartsIn, hdot, Path.isAbsolute, Path.segments, Path.Component.ofSegment?, Path.dot,
        Path.slash]
  · rw [Draft.pathIn, if_neg (by simpa using hhere), StartsIn]
    split
    next habsolute => rw [Path.join, if_pos habsolute]
    next hrelative => exact Path.components_join hne (Bool.eq_false_iff.2 hrelative)

/-- Whether settings are those of the settings file in a directory: the paths that it has, or the
defaults for them, **start in that directory**. -/
structure IsLoadedFrom (directory : List Bytes) (draft : Draft) (settings : Settings) : Prop where
  file : settings.file = some (fileIn directory)
  source : StartsIn (Path.ofNames true directory) (draft.source.getD "docs".toList)
    settings.directories.source
  output : StartsIn (Path.ofNames true directory) (draft.output.getD "dist".toList)
    settings.directories.output
  root : Option.Rel (StartsIn (Path.ofNames true directory)) draft.root settings.interpreter.root

/-! ### Reading -/

/-- The settings in the settings file of a directory, **seen from nowhere**. -/
def settingsIn (tree : FileTree) (environment : Environment) (directory : List Bytes) :
    Except SettingsError Settings :=
  match (tree.read (fileIn directory)).toOption.bind Text.decode? with
  | none => .error .unreadable
  | some text => ofText environment (fileIn directory) text

/-- **Reading a settings file** does not depend on the working directory. -/
theorem readFile_fileIn (here : Surroundings) (hnames : ∀ name ∈ directory, Path.IsName name) :
    readFile here (fileIn directory) = settingsIn here.tree here.environment directory := by
  have habsolute : Path.absolute? here.workingDirectory (fileIn directory) =
      some (fileIn directory) :=
    Path.absolute?_ofNames (by simp) (isName_of_mem_fileIn hnames) _
  have hplace : here.place (fileIn directory) = fileIn directory := place_ofNames here _
  cases hread : (here.tree.read (fileIn directory)).toOption.bind Text.decode? <;>
    simp [readFile, habsolute, Surroundings.readText?, hplace, settingsIn, hread]

/-- Whether a draft is what the settings file in a directory **says**, with its references
replaced. -/
def Says (tree : FileTree) (environment : Environment) (directory : List Bytes) (draft : Draft) :
    Prop :=
  ∃ content text written, tree.read (fileIn directory) = .ok content ∧
    Text.decode? content = some text ∧ Draft.parse? text = some written ∧
      written.expand environment = .ok draft

/-- **The settings in a file** are what it says. -/
theorem exists_says {settings : Settings} (hnames : ∀ name ∈ directory, Path.IsName name)
    (h : settingsIn tree environment directory = .ok settings) :
    ∃ draft, Says tree environment directory draft ∧ IsLoadedFrom directory draft settings := by
  have hne : Path.ofNames true directory ≠ [] := by simp [Path.ofNames]
  have hparent : Path.parent? (fileIn directory) = some (Path.ofNames true directory) :=
    Path.parent?_ofNames (isName_of_mem_fileIn hnames)
  unfold settingsIn at h
  split at h
  next => cases h
  next text htext =>
    obtain ⟨content, hcontent, hdecode⟩ := Option.bind_eq_some_iff.1 htext
    unfold ofText at h
    split at h
    next => cases h
    next written hwritten =>
      cases hdraft : written.expand environment with
      | error problem => simp [hdraft, bind, Except.bind] at h
      | ok draft =>
        simp only [hdraft, hparent, bind, Except.bind, Option.getD_some] at h
        obtain ⟨-, rfl⟩ := check_eq_ok_iff.1 h
        refine ⟨draft, ⟨content, text, written, ?_, hdecode, hwritten, hdraft⟩, rfl,
          startsIn_pathIn hne _, startsIn_pathIn hne _, ?_⟩
        · cases hread : tree.read (fileIn directory) <;> simp_all [Except.toOption]
        · cases hroot : draft.root with
          | none => simp [Draft.resolve, hroot]
          | some root => simpa [Draft.resolve, hroot] using startsIn_pathIn hne root

/-! ### Loading -/

/-- What is loaded with a given closest file is what is read from that file. -/
theorem load_eq_of_isClosest (h : IsClosest tree directory names) (overrides : Overrides) :
    load ⟨tree, Path.ofNames true names, environment⟩ none overrides =
      (settingsIn tree environment directory).map (override overrides) := by
  rw [load, locate, discover?_of_isClosest h]
  exact congrArg _ (readFile_fileIn _ h.isName_directory)

/-- **The working directory does not matter** to what is loaded, but for which settings file is
closest to it: from all working directories with the same closest file the same settings are loaded,
or the same error is met, and so they are if that file is asked for by its path, wherever. The
settings are what the file says, and its relative paths start in its directory. -/
theorem load_of_isClosest {here there : List Bytes} (hhere : IsClosest tree directory here)
    (hthere : IsClosest tree directory there) (elsewhere : Path) (overrides : Overrides) :
    load ⟨tree, Path.ofNames true here, environment⟩ none overrides =
        load ⟨tree, Path.ofNames true there, environment⟩ none overrides ∧
      load ⟨tree, Path.ofNames true here, environment⟩ none overrides =
        load ⟨tree, elsewhere, environment⟩ (some (fileIn directory)) overrides ∧
      ∀ settings, load ⟨tree, Path.ofNames true here, environment⟩ none overrides = .ok settings →
        ∃ found draft, settings = override overrides found ∧ Says tree environment directory draft ∧
          IsLoadedFrom directory draft found := by
  have hnames := hhere.isName_directory
  rw [load_eq_of_isClosest hhere, load_eq_of_isClosest hthere]
  refine ⟨rfl, ?_, fun settings hload => ?_⟩
  · have hhas : Surroundings.has ⟨tree, elsewhere, environment⟩ (fileIn directory) = true :=
      (has_fileIn _).2 hhere.hasFile
    rw [load, locate, if_pos hhas, readFile_fileIn _ hnames]
  · cases hfound : settingsIn tree environment directory with
    | error problem => simp [hfound, Except.map] at hload
    | ok found =>
      obtain ⟨draft, hsays, hloaded⟩ := exists_says hnames hfound
      rw [hfound] at hload
      exact ⟨found, draft, (Except.ok.inj hload).symm, hsays, hloaded⟩

/-- The names that are written. -/
def named (parts : List String) : List Bytes := parts.map (Path.ofText ·.toList)

/-- A project in the directory `p`, with lessons in a directory of its own, and a settings file
above it that is not its own. -/
def nestedProject : FileTree :=
  ⟨[(named ["p"], .directory), (named ["p", "a"], .directory),
    (named ["p", "lamdocs.toml"], .file (Text.encode "docs.source_dir = 'a'".toList)),
    (named ["lamdocs.toml"], .file [])]⟩

/-- A program that works in a directory of this project. -/
def inNestedProject (parts : List String) : Surroundings :=
  ⟨nestedProject, Path.ofNames true (named parts), fun _ => none⟩

/-- **A nested project** has the same settings for programs that work in its directory, among its
lessons, or elsewhere with the path of its settings. -/
theorem load_of_isClosest_nestedProject :
    IsClosest nestedProject (named ["p"]) (named ["p"]) ∧
    IsClosest nestedProject (named ["p"]) (named ["p", "a"]) ∧
    load (inNestedProject ["p"]) none {} = load (inNestedProject ["p", "a"]) none {} ∧
    load (inNestedProject ["p"]) none {} =
      load (inNestedProject []) (some (fileIn (named ["p"]))) {} ∧
    (load (inNestedProject ["p"]) none {}).map (·.directories.source) =
      .ok (Path.ofNames true (named ["p", "a"])) := by
  have hhere : IsClosest nestedProject (named ["p"]) (named ["p"]) := by decide +kernel
  have hthere : IsClosest nestedProject (named ["p"]) (named ["p", "a"]) := by decide +kernel
  obtain ⟨hsame, hpath, -⟩ := @load_of_isClosest nestedProject (fun _ => none) _ _ _ hhere hthere
    (Path.ofNames true (named [])) {}
  exact ⟨hhere, hthere, hsame, hpath, by decide +kernel⟩

end Lectern.Settings
