import Lectern.Proofs.FileUrl.Reading
import Lectern.Proofs.Import.Resolution
import Lectern.Proofs.Path.Absolute

/-!
# Requests That Need No Importer

A `file:` URL and an absolute path name a file by themselves, wherever they are asked for. The host
settles the place of the importing module first, though, for every request. If that place can be
told, it plays no part in the answer; if it cannot be told, there is no answer at all, whatever the
request is.

So two contexts give the same answers to such a request if both importers have a place, or neither
has one, and else only if the request has no answer anyway.

## Main results

* `exists_lookupDirectory_iff`: the importers that have a place.
* `resolve_eq_ok_iff_of_namesFile`: the answer to a request that needs no importer.
* `resolve_of_remoteImporter`: a request from a module that is not on the disk.
* `resolve_congr_iff`: when two contexts make no difference to such a request.
* `resolve_remoteImporter`: an importer without a place does make a difference.
-/

namespace Lectern.Import.Disk

variable {disk : Disk} {specifier : Text} {context other : ResolveContext} {resolved : Resolved}

/-! ### Importers -/

/-- Whether an importer **has a place** on the disk: its URL leads to a path, or it is not named and
there is a directory for such imports. -/
def HasPlace (disk : Disk) (context : ResolveContext) : Prop :=
  match context.parentUrl with
  | some parent => ∃ p, FileUrl.toPath? parent = some p
  | none => disk.baseDirectory ≠ []

/-- The directory of a module is not the empty path. -/
theorem directory_ne_nil {url : Text} {p : Path} (h : FileUrl.toPath? url = some p) :
    (Path.parent? p).getD [Path.slash] ≠ [] := by
  have habsolute := FileUrl.isAbsolute_of_toPath? h
  cases hparent : Path.parent? p with
  | none => simp
  | some directory =>
    rintro rfl
    cases Path.isAbsolute_of_parent? habsolute hparent

/-- What the path of the importer's directory comes to. -/
theorem lookupDirectory_eq_ok_iff {lookup : Path} :
    disk.lookupDirectory specifier context = .ok lookup ↔
      ∃ directory p, disk.importerDirectory specifier context = .ok directory ∧
        Path.absolute? disk.workingDirectory directory = some p ∧ lookup = Path.normalize p := by
  unfold lookupDirectory
  cases disk.importerDirectory specifier context with
  | error e => simp
  | ok directory =>
    cases habsolute : Path.absolute? disk.workingDirectory directory with
    | none => simp [habsolute]
    | some p => simp [habsolute, eq_comm]

/-- **The importers that have a place** are those whose directory can be told. -/
theorem exists_lookupDirectory_iff :
    (∃ lookup, disk.lookupDirectory specifier context = .ok lookup) ↔ disk.HasPlace context := by
  have hnormal : ∀ directory, directory ≠ [] →
      ∃ p, Path.absolute? disk.workingDirectory directory = some p := fun directory hne =>
    Option.ne_none_iff_exists'.1 (mt Path.absolute?_eq_none_iff.1 hne)
  simp only [lookupDirectory_eq_ok_iff, HasPlace, importerDirectory]
  cases context.parentUrl with
  | none =>
    constructor
    · rintro ⟨_, _, p, ⟨⟩, habsolute, -⟩ hempty
      rw [Path.absolute?_eq_none_iff.2 hempty] at habsolute
      cases habsolute
    · intro hbase
      obtain ⟨p, hp⟩ := hnormal _ hbase
      exact ⟨_, _, p, rfl, hp, rfl⟩
  | some parent =>
    cases hpath : FileUrl.toPath? parent with
    | none => simp [hpath]
    | some importer =>
      obtain ⟨p, hp⟩ := hnormal _ (directory_ne_nil hpath)
      simp [hpath, hp]

/-! ### Requests -/

/-- Whether a specifier **names a file** by itself: it is a `file:` URL or an absolute path. -/
def NamesFile (specifier : Text) : Prop :=
  "file:".toList <+: specifier ∨ specifier.head? = some '/'

instance (specifier : Text) : Decidable (NamesFile specifier) :=
  inferInstanceAs (Decidable (_ ∨ _))

/-- The path that such a specifier names. -/
def namedPath? (specifier : Text) : Option Path :=
  if "file:".toList.isPrefixOf specifier then FileUrl.toPath? specifier
  else some (Path.ofText specifier)

/-- **The file** that such a specifier designates in a tree. -/
def namedFile? (tree : FileTree) (specifier : Text) : Option Path :=
  (namedPath? specifier).bind fun p => fileAt? tree (Path.normalize p)

/-- A specifier that names a file is not taken for a built-in module. -/
theorem NamesFile.builtinUrl?_eq_none (h : NamesFile specifier) :
    specifier ≠ [] ∧ builtinUrl? specifier = none := by
  rcases h with ⟨rest, rfl⟩ | hslash
  · have hnames : ∀ name ∈ builtinNames, ¬ "file:".toList <+: name := by decide
    have hfirst : ("file:".toList ++ rest).takeWhile (· != '/') =
        "file:".toList ++ rest.takeWhile (· != '/') := rfl
    have hcontains :
        builtinNames.contains (("file:".toList ++ rest).takeWhile (· != '/')) = false := by
      rw [hfirst]
      simpa using fun hmem => hnames _ hmem (List.prefix_append _ _)
    exact ⟨by simp, by rw [builtinUrl?, hcontains]; rfl⟩
  · obtain ⟨rest, rfl⟩ := List.head?_eq_some_iff.1 hslash
    exact ⟨by simp, rfl⟩

/-- The path of a specifier that names a file is the same from any directory. -/
theorem NamesFile.targetPath_eq_ok_iff (h : NamesFile specifier) {tree : FileTree}
    {lookup target : Path} {conditions : List Text} :
    targetPath tree specifier lookup conditions = .ok target ↔
      namedPath? specifier = some target := by
  unfold targetPath namedPath?
  by_cases hscheme : "file:".toList.isPrefixOf specifier = true
  · rw [if_pos hscheme, if_pos hscheme]
    cases FileUrl.toPath? specifier <;> simp
  · have hslash := h.resolve_left fun hprefix => hscheme (List.isPrefixOf_iff_prefix.2 hprefix)
    rw [if_neg hscheme, if_neg hscheme, if_pos hslash]
    simp

/-- **What a request finds that names a file**: this file, if the importer has a place. -/
theorem found?_eq_some_iff_of_namesFile (h : NamesFile specifier) {file : Path} :
    disk.found? specifier context = some file ↔
      disk.HasPlace context ∧ namedFile? disk.tree specifier = some file := by
  have hplace : disk.HasPlace context ↔
      ∃ lookup, disk.lookupDirectory specifier context = .ok lookup :=
    exists_lookupDirectory_iff.symm
  rw [found?_eq_some_iff, hplace, namedFile?]
  simp [h.builtinUrl?_eq_none.2, h.targetPath_eq_ok_iff, Option.bind_eq_some_iff]

/-- **The answer to a request that names a file** is that for the file, if the importer has a
place. -/
theorem resolve_eq_ok_iff_of_namesFile (h : NamesFile specifier) :
    disk.resolve specifier context = .ok resolved ↔ disk.HasPlace context ∧
      ∃ file, namedFile? disk.tree specifier = some file ∧
        FileUrl.ofPath? file = some resolved.url ∧
        formatOf disk.tree file = .ok resolved.format ∧ resolved.shortCircuit = false := by
  obtain ⟨hne, hbuiltin⟩ := h.builtinUrl?_eq_none
  rw [resolve_eq_ok_iff]
  constructor
  · rintro ⟨-, hanswers⟩
    cases hanswers with
    | builtin hurl => simp [hbuiltin] at hurl
    | @file file url format hfound hurl hformat =>
      obtain ⟨hplace, hfile⟩ := (found?_eq_some_iff_of_namesFile h).1 hfound
      exact ⟨hplace, file, hfile, hurl, hformat, rfl⟩
  · rintro ⟨hplace, file, hfile, hurl, hformat, hasked⟩
    obtain ⟨url, format, shortCircuit⟩ := resolved
    obtain rfl : shortCircuit = false := hasked
    exact ⟨hne, .file ((found?_eq_some_iff_of_namesFile h).2 ⟨hplace, hfile⟩) hurl hformat⟩

/-- **A module that is not on the disk** has no place: nothing but built-in modules is resolved for
it, and the request is told why. -/
theorem resolve_of_remoteImporter {parent : Text} (hne : specifier ≠ [])
    (hbuiltin : builtinUrl? specifier = none) (hparent : context.parentUrl = some parent)
    (hremote : FileUrl.toPath? parent = none) :
    disk.resolve specifier context = .error (.invalidSpecifier specifier
      ("parent URL '".toList ++ parent ++ "' is not a file URL".toList)) := by
  have hempty : specifier.isEmpty = false := List.isEmpty_eq_false_iff.2 hne
  simp only [resolve, hempty, hbuiltin, resolveFile, lookupDirectory, importerDirectory, hparent,
    hremote]
  rfl

/-! ### Two importers -/

/-- **When two contexts make no difference** to a request that names a file: either both importers
have a place, or neither has one; or the request has no answer from any importer. An importer that
is not on the disk is refused, whatever file is named. -/
theorem resolve_congr_iff (h : NamesFile specifier) (context other : ResolveContext) :
    ((∀ resolved, disk.resolve specifier context = .ok resolved ↔
        disk.resolve specifier other = .ok resolved) ↔
      (disk.HasPlace context ↔ disk.HasPlace other) ∨
        ∀ any resolved, disk.resolve specifier any ≠ .ok resolved) ∧
    ∀ parent, context.parentUrl = some parent → FileUrl.toPath? parent = none →
      disk.resolve specifier context = .error (.invalidSpecifier specifier
        ("parent URL '".toList ++ parent ++ "' is not a file URL".toList)) := by
  obtain ⟨hne, hbuiltin⟩ := h.builtinUrl?_eq_none
  refine ⟨⟨fun hsame => ?_, ?_⟩, fun parent => resolve_of_remoteImporter hne hbuiltin⟩
  · by_cases hanswer : ∃ any resolved, disk.resolve specifier any = .ok resolved
    · obtain ⟨any, resolved, hany⟩ := hanswer
      -- an answer to anyone is the answer to each importer with a place
      obtain ⟨-, hfile⟩ := (resolve_eq_ok_iff_of_namesFile h).1 hany
      have hplace : ∀ importer, disk.HasPlace importer ↔
          disk.resolve specifier importer = .ok resolved := fun importer => by
        rw [resolve_eq_ok_iff_of_namesFile h]
        exact (and_iff_left hfile).symm
      exact .inl (by rw [hplace context, hplace other, hsame resolved])
    · exact .inr fun any resolved hany => hanswer ⟨any, resolved, hany⟩
  · rintro (hplace | hnone) resolved
    · rw [resolve_eq_ok_iff_of_namesFile h, resolve_eq_ok_iff_of_namesFile h, hplace]
    · exact iff_of_false (hnone context resolved) (hnone other resolved)

/-- A script that is named by its path, from a page of the site and from no module, with conditions
that only matter to packages. -/
theorem resolve_congr_iff_page :
    let tree := FileTree.plantFile {} (["srv", "a.js"].map fun name => Path.ofText name.toList) []
    let disk : Disk :=
      { tree, workingDirectory := [Path.slash], baseDirectory := Path.ofText "/srv".toList }
    let page : ResolveContext :=
      { parentUrl := some "file:///srv/pages/p.html".toList, conditions := ["browser".toList] }
    let resolved : Resolved := { url := "file:///srv/a.js".toList, format := some .commonjs }
    disk.resolve "/srv/./a".toList {} = .ok resolved ∧
      disk.resolve "/srv/./a".toList page = .ok resolved := by
  intro tree disk page resolved
  have hnone : disk.HasPlace {} := (by decide : Path.ofText "/srv".toList ≠ [])
  have hpage : disk.HasPlace page := ⟨Path.ofText "/srv/pages/p.html".toList, by decide +kernel⟩
  have hresolve : disk.resolve "/srv/./a".toList {} = .ok resolved := by decide +kernel
  have hnames : NamesFile "/srv/./a".toList := by decide
  have hsame := (resolve_congr_iff hnames {} page).1.2 (.inl (iff_of_true hnone hpage))
  exact ⟨hresolve, (hsame resolved).1 hresolve⟩

/-- **An importer that is not on the disk** makes a difference to a path that is. -/
theorem resolve_remoteImporter :
    let tree := FileTree.plantFile {} (["srv", "a.js"].map fun name => Path.ofText name.toList) []
    let disk : Disk :=
      { tree, workingDirectory := [Path.slash], baseDirectory := Path.ofText "/srv".toList }
    let remote : ResolveContext := { parentUrl := some "https://x.test/b.js".toList }
    NamesFile "/srv/a.js".toList ∧
      disk.resolve "/srv/a.js".toList {} =
        .ok { url := "file:///srv/a.js".toList, format := some .commonjs } ∧
      disk.resolve "/srv/a.js".toList remote = .error (.invalidSpecifier "/srv/a.js".toList
        "parent URL 'https://x.test/b.js' is not a file URL".toList) := by
  decide +kernel

end Lectern.Import.Disk
