import Lectern.Proofs.FileTree.Normalize
import Lectern.Proofs.Import.Importer

/-!
# The Entry Files of Packages

A package whose exports have nothing to say is entered at the file that `main` designates, or else
at its index. The host does not come to the index in this way: it takes what the manifest names, or
the directory of the package if it names nothing, and asks for that as for any other path. So
behind a `main` that leads nowhere, the index does not get its turn; and without `main`, a script
that is named like the directory and lies beside it comes first.

Where neither is the case, a package is entered where it should be.

## Main results

* `entryFile?_eq_iff`: the packages that are entered where they should be.
* `formatOf_ne_moduleNotFound`: inferring a format never fails like the search for a module.
* `resolve_package`: the answer to an import of a package.
* `resolve_package_lostIndex`: a package whose index does not get its turn.
-/

namespace Lectern.Import.Disk

variable {disk : Disk} {tree : FileTree} {specifier : Text} {context : ResolveContext}
  {lookup directory : Path} {manifest : Manifest}

/-! ### Packages -/

/-- The file that the `main` field of a manifest designates. -/
def mainFile? (tree : FileTree) (directory : Path) (manifest : Manifest) : Option Path :=
  manifest.main.bind fun main =>
    fileAt? tree (Path.normalize (Path.join directory (Path.ofText main)))

/-- The index of a package. -/
def indexPath (directory : Path) : Path :=
  Path.join (Path.normalize directory) (Path.ofText "index.js".toList)

/-- The script that is named like the directory of a package, and lies beside it. -/
def namesake (directory : Path) : Path := Path.normalize directory ++ Path.ofText ".js".toList

/-- The file at which a package **should be entered**: that of `main`, or else the index. -/
def packageFile? (tree : FileTree) (directory : Path) (manifest : Manifest) : Option Path :=
  (mainFile? tree directory manifest).or ([indexPath directory].find? tree.isFile)

/-- Whether the index **does not get its turn**: `main` leads nowhere although there is an index, or
there is no `main`, but a namesake of the directory. -/
def SkipsIndex (tree : FileTree) (directory : Path) (manifest : Manifest) : Prop :=
  manifest.main.isSome = true ∧ mainFile? tree directory manifest = none ∧
      tree.isFile (indexPath directory) = true ∨
    manifest.main = none ∧ tree.isFile (namesake directory) = true

/-- The path that a package without exports names as its entry. -/
def entryPath (directory : Path) (manifest : Manifest) : Path :=
  (manifest.main.map fun main => Path.join directory (Path.ofText main)).getD directory

/-- **The file** at which a package without exports is entered. -/
def entryFile? (tree : FileTree) (directory : Path) (manifest : Manifest) : Option Path :=
  fileAt? tree (Path.normalize (entryPath directory manifest))

/-- The namesake of a directory is not its index. -/
theorem namesake_ne_indexPath (directory : Path) : namesake directory ≠ indexPath directory := by
  unfold namesake indexPath Path.join
  split
  · next habsolute => exact absurd habsolute (by decide)
  · split
    · simpa using (by decide : Path.ofText ".js".toList ≠ Path.ofText "index.js".toList)
    · simpa using (by decide : Path.ofText ".js".toList ≠
        Path.slash :: Path.ofText "index.js".toList)

/-- What a directory designates: its namesake, or else its index. -/
theorem fileAt?_directory (habsolute : Path.isAbsolute directory = true)
    (h : tree.isDirectory directory = true) : fileAt? tree (Path.normalize directory) =
      [namesake directory, indexPath directory].find? tree.isFile := by
  have hfile := FileTree.isFile_eq_false_of_isDirectory
    (FileTree.isDirectory_normalize habsolute h)
  rw [fileAt?, List.find?_cons, hfile]
  rfl

/-- With `main`, a package is entered at the file that it designates, or not at all. -/
theorem entryFile?_of_main {main : Text} (hmain : manifest.main = some main) :
    entryFile? tree directory manifest = mainFile? tree directory manifest := by
  rw [entryFile?, entryPath, mainFile?, hmain]
  rfl

/-- Without `main`, a package is entered at the namesake of its directory, or else at its index. -/
theorem entryFile?_of_no_main (hmain : manifest.main = none)
    (habsolute : Path.isAbsolute directory = true) (h : tree.isDirectory directory = true) :
    entryFile? tree directory manifest =
      [namesake directory, indexPath directory].find? tree.isFile := by
  rw [← fileAt?_directory habsolute h, entryFile?, entryPath, hmain]
  rfl

/-- **The packages that are entered where they should be** are those whose index gets its turn. Of
the others, those with `main` are not entered at all, and those without are entered at the namesake
of their directory. -/
theorem entryFile?_eq_iff (habsolute : Path.isAbsolute directory = true)
    (h : tree.isDirectory directory = true) :
    (entryFile? tree directory manifest = packageFile? tree directory manifest ↔
      ¬ SkipsIndex tree directory manifest) ∧
    (SkipsIndex tree directory manifest → entryFile? tree directory manifest =
      if manifest.main.isSome then none else some (namesake directory)) := by
  unfold SkipsIndex packageFile?
  cases hmain : manifest.main with
  | some main =>
    rw [entryFile?_of_main hmain]
    cases mainFile? tree directory manifest with
    | some file => simp
    | none => cases hindex : tree.isFile (indexPath directory) <;> simp [hindex]
  | none =>
    have hnone : mainFile? tree directory manifest = none := by rw [mainFile?, hmain]; rfl
    rw [entryFile?_of_no_main hmain habsolute h, hnone, Option.none_or, List.find?_cons]
    cases hnamesake : tree.isFile (namesake directory) with
    | false => simp
    | true =>
      have hindex : [indexPath directory].find? tree.isFile ≠ some (namesake directory) := by
        intro hfind
        have hmem := List.mem_of_find?_eq_some hfind
        exact namesake_ne_indexPath directory (List.mem_singleton.1 hmem)
      simpa using hindex.symm

/-! ### Requests for packages -/

/-- Whether a request **asks for the entry of a package** whose manifest can be read, and whose
exports have nothing to say: its specifier is the name of the package and names nothing else, and
the package is seen from the importer. -/
structure AsksForEntry (disk : Disk) (specifier : Text) (context : ResolveContext)
    (lookup directory : Path) (manifest : Manifest) : Prop where
  ne_nil : specifier ≠ []
  builtinUrl?_eq_none : builtinUrl? specifier = none
  not_namesFile : ¬ NamesFile specifier
  isRelative_eq_false : isRelative specifier = false
  lookupDirectory : disk.lookupDirectory specifier context = .ok lookup
  packageDirectory? : ∃ name, splitPackage? specifier = some (name, []) ∧
    packageDirectory? disk.tree name lookup = some directory
  read : ∃ found, Manifest.read disk.tree directory = .ok found ∧ manifest = found.getD {}
  exportTarget? : manifest.exportTarget? [] context.conditions = none

/-- Directories from which packages are looked up are absolute. -/
theorem isAbsolute_of_lookupDirectory (hdisk : Path.isAbsolute disk.workingDirectory = true)
    (h : disk.lookupDirectory specifier context = .ok lookup) : Path.isAbsolute lookup = true := by
  obtain ⟨directory, p, -, habsolute, rfl⟩ := lookupDirectory_eq_ok_iff.1 h
  exact (Path.isNormal_normalize (Path.isAbsolute_of_absolute? hdisk habsolute)).isAbsolute

/-- The directory of a package is an absolute path, and a directory. -/
theorem directory_of_packageDirectory? {name : Text} (hlookup : Path.isAbsolute lookup = true)
    (h : packageDirectory? tree name lookup = some directory) :
    Path.isAbsolute directory = true ∧ tree.isDirectory directory = true := by
  obtain ⟨above, habove, rfl⟩ := List.mem_map.1 (List.mem_of_find?_eq_some h)
  have habsolute := Path.isAbsolute_of_mem_ancestors hlookup habove
  exact ⟨Path.isAbsolute_join (Path.isAbsolute_join habsolute _) _, List.find?_some h⟩

/-- The path that a request for an entry names. -/
theorem AsksForEntry.targetPath_eq
    (h : disk.AsksForEntry specifier context lookup directory manifest) :
    targetPath disk.tree specifier lookup context.conditions =
      .ok (entryPath directory manifest) := by
  have hscheme : ¬ "file:".toList.isPrefixOf specifier = true := fun hprefix =>
    h.not_namesFile (.inl (List.isPrefixOf_iff_prefix.1 hprefix))
  have hslash : ¬ specifier.head? = some '/' := fun hhead => h.not_namesFile (.inr hhead)
  obtain ⟨name, hname, hdirectory⟩ := h.packageDirectory?
  obtain ⟨found, hread, rfl⟩ := h.read
  rw [targetPath, if_neg hscheme, if_neg hslash, h.isRelative_eq_false, if_neg (by simp),
    packagePath, hname]
  simp only [hdirectory, hread, Except.map, packageTarget, h.exportTarget?]
  rfl

/-- The file at which a package is entered has a URL. -/
theorem exists_ofPath?_entryFile? (habsolute : Path.isAbsolute directory = true) {file : Path}
    (h : entryFile? tree directory manifest = some file) :
    ∃ url, FileUrl.ofPath? file = some url := by
  have hentry : Path.isAbsolute (entryPath directory manifest) = true := by
    unfold entryPath
    cases manifest.main with
    | none => exact habsolute
    | some main => exact Path.isAbsolute_join habsolute _
  have hnormal := isNormal_of_fileAt? (Path.isNormal_normalize hentry) h
  exact ⟨_, FileUrl.ofPath?_eq_some_iff.2 ⟨hnormal.isAbsolute, rfl⟩⟩

/-- Reading a manifest never fails like the search for a module. -/
theorem read_ne_moduleNotFound {origin : Text} :
    Manifest.read tree directory ≠ .error (.moduleNotFound specifier origin) := by
  unfold Manifest.read
  dsimp only
  repeat' split
  all_goals simp

/-- **Inferring a format** never fails like the search for a module. -/
theorem formatOf_ne_moduleNotFound {p : Path} {origin : Text} :
    formatOf tree p ≠ .error (.moduleNotFound specifier origin) := by
  have hbelow : ∀ directories,
      scriptFormatBelow tree directories ≠ .error (.moduleNotFound specifier origin) := by
    intro directories
    induction directories with
    | nil => simp [scriptFormatBelow]
    | cons directory rest ih =>
      rw [scriptFormatBelow]
      cases hread : Manifest.read tree directory with
      | error e =>
        rintro ⟨⟩
        exact read_ne_moduleNotFound hread
      | ok found =>
        cases found with
        | none => exact ih
        | some manifest => simp
  unfold formatOf
  split
  · simp
  · split
    · cases hformat : scriptFormatBelow tree (Path.ancestors p).tail with
      | error e =>
        rintro ⟨⟩
        exact hbelow _ hformat
      | ok format => simp [Except.map]
    · simp

/-- A request for an entry is settled by the file at which the package is entered. -/
theorem AsksForEntry.resolve_eq
    (h : disk.AsksForEntry specifier context lookup directory manifest) :
    disk.resolve specifier context = match entryFile? disk.tree directory manifest with
      | none => .error (.moduleNotFound specifier (Path.display lookup))
      | some file => (urlOf file).bind fun url =>
          (formatOf disk.tree file).map fun format => { url, format } := by
  have hempty : specifier.isEmpty = false := List.isEmpty_eq_false_iff.2 h.ne_nil
  rw [resolve, hempty, if_neg (by simp), h.builtinUrl?_eq_none]
  simp only [resolveFile, h.lookupDirectory, h.targetPath_eq, bind, Except.bind, entryFile?]
  cases fileAt? disk.tree (Path.normalize (entryPath directory manifest)) with
  | none => rfl
  | some file => cases urlOf file <;> cases formatOf disk.tree file <;> rfl

/-- **The answer for a package that is entered** is that for the file, with its format. -/
theorem AsksForEntry.exists_url (hdisk : Path.isAbsolute disk.workingDirectory = true)
    (h : disk.AsksForEntry specifier context lookup directory manifest) {file : Path}
    (hfile : entryFile? disk.tree directory manifest = some file) :
    ∃ url, FileUrl.ofPath? file = some url ∧ disk.resolve specifier context =
      (formatOf disk.tree file).map fun format => { url, format } := by
  have hlookup := isAbsolute_of_lookupDirectory hdisk h.lookupDirectory
  obtain ⟨name, -, hname⟩ := h.packageDirectory?
  obtain ⟨habsolute, -⟩ := directory_of_packageDirectory? hlookup hname
  obtain ⟨url, hurl⟩ := exists_ofPath?_entryFile? habsolute hfile
  refine ⟨url, hurl, ?_⟩
  have hurlOf : urlOf file = .ok url := by rw [urlOf, hurl]
  rw [h.resolve_eq, hfile]
  simp only [hurlOf, Except.bind]

/-- **No file is found** only for a package that is not entered. -/
theorem AsksForEntry.entryFile?_eq_none (hdisk : Path.isAbsolute disk.workingDirectory = true)
    (h : disk.AsksForEntry specifier context lookup directory manifest) {origin : Text}
    (herror : disk.resolve specifier context = .error (.moduleNotFound specifier origin)) :
    entryFile? disk.tree directory manifest = none := by
  by_contra hsome
  obtain ⟨file, hfile⟩ := Option.ne_none_iff_exists'.1 hsome
  obtain ⟨url, -, hanswer⟩ := h.exists_url hdisk hfile
  rw [herror] at hanswer
  cases hformat : formatOf disk.tree file with
  | error e =>
    rw [hformat] at hanswer
    cases hanswer
    exact formatOf_ne_moduleNotFound hformat
  | ok format => simp [hformat, Except.map] at hanswer

/-- **The answer to an import of a package** whose exports have nothing to say. There is a file at
which it is entered, or there is none: it has a URL, and the format is inferred from its path; or
the module is not found. The package is entered where it should be if and only if its index gets its
turn. -/
theorem resolve_package (hdisk : Path.isAbsolute disk.workingDirectory = true)
    (h : disk.AsksForEntry specifier context lookup directory manifest) :
    ∃ found : Option Path,
      (∀ file, found = some file → ∃ url, FileUrl.ofPath? file = some url ∧
        disk.resolve specifier context =
          (formatOf disk.tree file).map fun format => { url, format }) ∧
      (found = none → disk.resolve specifier context =
        .error (.moduleNotFound specifier (Path.display lookup))) ∧
      ((∃ origin, disk.resolve specifier context = .error (.moduleNotFound specifier origin)) →
        found = none) ∧
      (found = packageFile? disk.tree directory manifest ↔
        ¬ SkipsIndex disk.tree directory manifest) ∧
      (SkipsIndex disk.tree directory manifest →
        found = if manifest.main.isSome then none else some (namesake directory)) := by
  have hlookup := isAbsolute_of_lookupDirectory hdisk h.lookupDirectory
  obtain ⟨name, -, hname⟩ := h.packageDirectory?
  obtain ⟨habsolute, hdirectory⟩ := directory_of_packageDirectory? hlookup hname
  refine ⟨entryFile? disk.tree directory manifest, fun file => h.exists_url hdisk, fun hnone => ?_,
    fun ⟨origin, herror⟩ => h.entryFile?_eq_none hdisk herror,
    entryFile?_eq_iff habsolute hdirectory⟩
  rw [h.resolve_eq, hnone]

/-- The manifest that is read, if it has this `main` and no exports. -/
theorem exists_manifest_of_main {main : Option Text}
    (h : (Manifest.read tree directory).map (·.map fun m => (m.main, m.exports.isNone)) =
      .ok (some (main, true))) :
    ∃ manifest, Manifest.read tree directory = .ok (some manifest) ∧ manifest.main = main ∧
      manifest.exports = none := by
  cases hread : Manifest.read tree directory with
  | error e => simp [hread, Except.map] at h
  | ok found =>
    cases found with
    | none => simp [hread, Except.map] at h
    | some manifest =>
      obtain ⟨hmain, hexports⟩ : manifest.main = main ∧ manifest.exports = none := by
        simpa [hread, Except.map] using h
      exact ⟨manifest, rfl, hmain, hexports⟩

/-- The name of a package, as a request for the entry of a package with such a manifest. -/
theorem exists_asksForEntry {main : Option Text} (hname : specifier ≠ [] ∧
      builtinUrl? specifier = none ∧ ¬ NamesFile specifier ∧ isRelative specifier = false ∧
      splitPackage? specifier = some (specifier, []))
    (hlookup : disk.lookupDirectory specifier context = .ok lookup)
    (hdirectory : packageDirectory? disk.tree specifier lookup = some directory)
    (hread : (Manifest.read disk.tree directory).map
      (·.map fun m => (m.main, m.exports.isNone)) = .ok (some (main, true))) :
    ∃ manifest, disk.AsksForEntry specifier context lookup directory manifest ∧
      manifest.main = main := by
  obtain ⟨hne, hbuiltin, hfile, hrelative, hsplit⟩ := hname
  obtain ⟨manifest, hread, hmain, hexports⟩ := exists_manifest_of_main hread
  have htarget : manifest.exportTarget? [] context.conditions = none := by
    rw [Manifest.exportTarget?, hexports]
    rfl
  exact ⟨manifest, ⟨hne, hbuiltin, hfile, hrelative, hlookup, ⟨specifier, hsplit, hdirectory⟩,
    ⟨some manifest, hread, rfl⟩, htarget⟩, hmain⟩

/-- A package that is entered at the index of the directory that `main` names, from a page in
another directory. -/
theorem resolve_package_main :
    let entry := Path.ofText "/srv/node_modules/pairs/lib/index.js".toList
    let tree := (FileTree.plantFile {} (Path.segments entry).tail []).plantFile
      (Path.segments (Path.ofText "srv/node_modules/pairs/package.json".toList))
      (Text.encode "\x7b\"main\":\"./lib/\"\x7d".toList)
    let disk : Disk :=
      { tree, workingDirectory := [Path.slash], baseDirectory := Path.ofText "/srv".toList }
    let context : ResolveContext := { parentUrl := some "file:///srv/pages/p.html".toList }
    let directory := Path.ofText "/srv/node_modules/pairs".toList
    ∃ manifest,
      disk.AsksForEntry "pairs".toList context (Path.ofText "/srv/pages".toList) directory
        manifest ∧
      packageFile? tree directory manifest = some entry ∧
      disk.resolve "pairs".toList context = .ok
        { url := "file:///srv/node_modules/pairs/lib/index.js".toList,
          format := some .commonjs } := by
  intro entry tree disk context directory
  obtain ⟨manifest, hasks, hmain⟩ : ∃ manifest, disk.AsksForEntry "pairs".toList context
      (Path.ofText "/srv/pages".toList) directory manifest ∧
      manifest.main = some "./lib/".toList :=
    exists_asksForEntry (by decide) (by decide +kernel) (by decide +kernel) (by decide +kernel)
  have hfile : mainFile? tree directory manifest = some entry := by
    rw [mainFile?, hmain]
    decide +kernel
  have hentry : packageFile? tree directory manifest = some entry := by
    rw [packageFile?, hfile, Option.some_or]
  have hshown : ¬ SkipsIndex tree directory manifest := by
    simp [SkipsIndex, hfile, hmain]
  obtain ⟨found, hanswer, -, -, hpackage, -⟩ := resolve_package (by decide) hasks
  obtain ⟨url, hurl, hresolve⟩ := hanswer entry ((hpackage.2 hshown).trans hentry)
  have hspelled : FileUrl.ofPath? entry =
      some "file:///srv/node_modules/pairs/lib/index.js".toList := by decide +kernel
  have hformat : formatOf tree entry = .ok (some .commonjs) := by decide +kernel
  obtain rfl := Option.some.inj (hurl.symm.trans hspelled)
  exact ⟨manifest, hasks, hentry, hresolve.trans (by rw [hformat]; rfl)⟩

/-- **A package whose `main` leads nowhere**: it should be entered at its index, and is not
found. -/
theorem resolve_package_lostIndex :
    let index := Path.ofText "/srv/node_modules/p/index.js".toList
    let tree := (FileTree.plantFile {} (Path.segments index).tail []).plantFile
      (Path.segments (Path.ofText "srv/node_modules/p/package.json".toList))
      (Text.encode "\x7b\"main\":\"gone.js\"\x7d".toList)
    let srv := Path.ofText "/srv".toList
    let disk : Disk := { tree, workingDirectory := [Path.slash], baseDirectory := srv }
    let directory := Path.ofText "/srv/node_modules/p".toList
    ∃ manifest, disk.AsksForEntry "p".toList {} srv directory manifest ∧
      packageFile? tree directory manifest = some index ∧
      disk.resolve "p".toList {} = .error (.moduleNotFound "p".toList "/srv".toList) := by
  intro index tree srv disk directory
  obtain ⟨manifest, hasks, hmain⟩ : ∃ manifest,
      disk.AsksForEntry "p".toList {} srv directory manifest ∧
      manifest.main = some "gone.js".toList :=
    exists_asksForEntry (by decide) (by decide +kernel) (by decide +kernel) (by decide +kernel)
  have hindex : packageFile? tree directory manifest = some index := by
    rw [packageFile?, mainFile?, hmain]
    decide +kernel
  exact ⟨manifest, hasks, hindex, by decide +kernel⟩

end Lectern.Import.Disk
