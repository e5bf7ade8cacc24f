import Lectern.Import.Disk
import Lectern.Proofs.FileUrl.Spelling
import Lectern.Proofs.Path.Normal

/-!
# Resolving and Loading

What the host on disk answers to a request to resolve, and what it makes of its own answers. An
answer is the URL of a built-in module, or that of a file which the request finds; `Answers` says
which, with the format that goes with it. The file is at a normal path, so a request for its URL
finds it again, and loading the URL takes the same format from the same path.

A path and its URL belong together only as far as the URL is read back as the path. Every result
about files asks that for the one path that is found.

## Main results

* `resolve_eq_ok_iff`: where the answers of the host come from.
* `isNormal_of_found?`: what is found is at a normal path, if at an absolute one.
* `load_resolved`: resolving and loading agree on source and format.
* `resolve_resolved`: an answer is its own answer.
-/

namespace Lectern.Import.Disk

variable {disk : Disk} {specifier : Text} {context : ResolveContext} {resolved : Resolved}

/-! ### Built-in modules -/

/-- The URL of a built-in module has the scheme of its own. -/
theorem prefix_of_builtinUrl? {url : Text} (h : builtinUrl? specifier = some url) :
    builtinScheme <+: url := by
  unfold builtinUrl? at h
  split at h
  · next hprefix =>
    obtain rfl : specifier = url := by simpa using h
    exact List.isPrefixOf_iff_prefix.1 hprefix
  · split at h
    · obtain rfl : builtinScheme ++ specifier = url := by simpa using h
      exact List.prefix_append _ _
    · contradiction

/-- The URL of a built-in module stands for itself. -/
theorem builtinUrl?_eq_self {url : Text} (h : builtinScheme <+: url) :
    builtinUrl? url = some url := by
  rw [builtinUrl?, if_pos (List.isPrefixOf_iff_prefix.2 h)]

/-- The URL of a path has another scheme. -/
theorem not_prefix_of_ofPath? {p : Path} {url : Text} (h : FileUrl.ofPath? p = some url) :
    ¬ builtinScheme <+: url := by
  obtain ⟨-, rfl⟩ := FileUrl.ofPath?_eq_some_iff.1 h
  rintro ⟨rest, hrest⟩
  have hfirst : some 'n' = some 'f' := congrArg List.head? hrest
  exact absurd hfirst (by decide)

/-- The URL of a path is not taken for a built-in module. -/
theorem builtinUrl?_of_ofPath? {p : Path} {url : Text} (h : FileUrl.ofPath? p = some url) :
    builtinUrl? url = none := by
  have hscheme : builtinScheme.isPrefixOf url = false :=
    Bool.eq_false_iff.2 fun hprefix =>
      not_prefix_of_ofPath? h (List.isPrefixOf_iff_prefix.1 hprefix)
  obtain ⟨-, rfl⟩ := FileUrl.ofPath?_eq_some_iff.1 h
  have hfirst : (FileUrl.start ++ FileUrl.spelled p).takeWhile (· != '/') = "file:".toList := rfl
  have hname : builtinNames.contains "file:".toList = false := by decide
  rw [builtinUrl?, hscheme, hfirst, hname]
  rfl

/-- The URL of a built-in module leads to no path. -/
theorem toPath?_builtin_eq_none {url : Text} (h : builtinScheme <+: url) :
    FileUrl.toPath? url = none := by
  obtain ⟨rest, rfl⟩ := h
  exact FileUrl.toPath?_eq_none (by decide) (by decide) (by decide) rest

/-! ### Files -/

/-- A path leads to a file. -/
theorem isFile_iff {tree : FileTree} {p : Path} :
    tree.isFile p = true ↔ ∃ content, tree.find p = .ok (.file content) := by
  unfold FileTree.isFile
  split <;> simp_all

/-- The content of a file is read. -/
theorem read_of_find {tree : FileTree} {p : Path} {content : Bytes}
    (h : tree.find p = .ok (.file content)) : tree.read p = .ok content := by
  simp [FileTree.read, h]

/-- A file designates itself. -/
theorem fileAt?_of_isFile {tree : FileTree} {p : Path} (h : tree.isFile p = true) :
    fileAt? tree p = some p := by
  simp [fileAt?, h]

/-- What a path designates is a file. -/
theorem isFile_of_fileAt? {tree : FileTree} {p file : Path} (h : fileAt? tree p = some file) :
    tree.isFile file = true :=
  List.find?_some h

/-- The places where a path designates a file. -/
theorem eq_of_fileAt? {tree : FileTree} {p file : Path} (h : fileAt? tree p = some file) :
    file = p ∨ file = p ++ Path.ofText ".js".toList ∨
      file = Path.join p (Path.ofText "index.js".toList) := by
  simpa using List.mem_of_find?_eq_some h

/-- The extension of a script is a name, as the end of a longer one. -/
theorem isName_extension : Path.IsName (Path.ofText ".js".toList) :=
  ⟨by decide, by decide, by decide, by decide⟩

/-- The index of a directory is a name. -/
theorem isName_index : Path.IsName (Path.ofText "index.js".toList) :=
  ⟨by decide, by decide, by decide, by decide⟩

/-- **What a normal path designates** is at a normal path. -/
theorem isNormal_of_fileAt? {tree : FileTree} {p file : Path} (hp : Path.IsNormal p)
    (h : fileAt? tree p = some file) : Path.IsNormal file := by
  rcases eq_of_fileAt? h with rfl | rfl | rfl
  · exact hp
  · exact hp.append isName_extension
  · exact hp.join isName_index

/-- A path designates no file at an absolute path if it is relative. -/
theorem isAbsolute_of_fileAt? {tree : FileTree} {p file : Path} (h : fileAt? tree p = some file)
    (hfile : Path.isAbsolute file = true) : Path.isAbsolute p = true := by
  cases p with
  | nil =>
    rcases eq_of_fileAt? h with rfl | rfl | rfl <;> revert hfile <;> decide
  | cons b p =>
    by_cases hb : b = Path.slash
    · exact Path.isAbsolute_iff.2 ⟨p, by rw [hb]⟩
    · have hrelative : Path.isAbsolute (Path.ofText "index.js".toList) = false := by decide
      rcases eq_of_fileAt? h with rfl | rfl | rfl
      · exact hfile
      · simpa [Path.isAbsolute] using hfile
      · rw [Path.join, hrelative, if_neg (by simp)] at hfile
        split at hfile <;> simpa [Path.isAbsolute] using hfile

/-! ### Where answers come from -/

/-- The file that a request **finds**, at the path that its specifier names. Built-in modules are
not looked for. -/
def found? (disk : Disk) (specifier : Text) (context : ResolveContext) : Option Path :=
  if (builtinUrl? specifier).isSome then none
  else do
    let lookup ← (disk.lookupDirectory specifier context).toOption
    let target ← (targetPath disk.tree specifier lookup context.conditions).toOption
    fileAt? disk.tree (Path.normalize target)

/-- **Where an answer comes from**: a built-in module, or a file that the request finds. -/
inductive Answers (disk : Disk) (specifier : Text) (context : ResolveContext) : Resolved → Prop
  | builtin {url : Text} : builtinUrl? specifier = some url →
      Answers disk specifier context { url, format := some .builtin }
  | file {file : Path} {url : Text} {format : Option Format} :
      disk.found? specifier context = some file → FileUrl.ofPath? file = some url →
      formatOf disk.tree file = .ok format → Answers disk specifier context { url, format }

/-- The answer for a specifier that names no built-in module. -/
theorem resolveFile_eq_ok_iff (hbuiltin : builtinUrl? specifier = none) :
    disk.resolveFile specifier context = .ok resolved ↔
      ∃ file, disk.found? specifier context = some file ∧
        FileUrl.ofPath? file = some resolved.url ∧
        formatOf disk.tree file = .ok resolved.format ∧ resolved.shortCircuit = false := by
  unfold resolveFile found?
  rw [hbuiltin]
  cases disk.lookupDirectory specifier context with
  | error e => simp [Except.toOption, bind, Except.bind]
  | ok lookup =>
    cases htarget : targetPath disk.tree specifier lookup context.conditions with
    | error e => simp [Except.toOption, bind, Except.bind, htarget]
    | ok target =>
      cases hfile : fileAt? disk.tree (Path.normalize target) with
      | none => simp [Except.toOption, bind, Except.bind, htarget, hfile]
      | some file =>
        cases hurl : FileUrl.ofPath? file with
        | none => simp [Except.toOption, bind, Except.bind, htarget, hfile, urlOf, hurl]
        | some url =>
          cases hformat : formatOf disk.tree file with
          | error e =>
            simp [Except.toOption, bind, Except.bind, htarget, hfile, urlOf, hurl, hformat]
          | ok format =>
            obtain ⟨url', format', shortCircuit⟩ := resolved
            simp [Except.toOption, bind, Except.bind, htarget, hfile, urlOf, hurl, hformat,
              eq_comm (a := false)]

/-- **Where the answers of the host come from.** -/
theorem resolve_eq_ok_iff : disk.resolve specifier context = .ok resolved ↔
    specifier ≠ [] ∧ disk.Answers specifier context resolved := by
  by_cases hempty : specifier = []
  · simp [resolve, hempty]
  rw [resolve, if_neg (by simpa using hempty)]
  cases hbuiltin : builtinUrl? specifier with
  | some url =>
    constructor
    · rintro ⟨⟩
      exact ⟨hempty, .builtin hbuiltin⟩
    · rintro ⟨-, hanswers⟩
      cases hanswers with
      | builtin hurl =>
        obtain rfl : url = _ := Option.some.inj (hbuiltin.symm.trans hurl)
        rfl
      | file hfound => simp [found?, hbuiltin] at hfound
  | none =>
    refine (resolveFile_eq_ok_iff hbuiltin).trans ⟨?_, ?_⟩
    · rintro ⟨file, hfound, hurl, hformat, hasked⟩
      obtain ⟨url, format, shortCircuit⟩ := resolved
      obtain rfl : shortCircuit = false := hasked
      exact ⟨hempty, .file hfound hurl hformat⟩
    · rintro ⟨-, hanswers⟩
      cases hanswers with
      | builtin hurl => simp [hbuiltin] at hurl
      | file hfound hurl hformat => exact ⟨_, hfound, hurl, hformat, rfl⟩

/-- The steps to what a request finds. -/
theorem found?_eq_some_iff {file : Path} : disk.found? specifier context = some file ↔
    builtinUrl? specifier = none ∧ ∃ lookup target,
      disk.lookupDirectory specifier context = .ok lookup ∧
      targetPath disk.tree specifier lookup context.conditions = .ok target ∧
      fileAt? disk.tree (Path.normalize target) = some file := by
  unfold found?
  cases builtinUrl? specifier with
  | some url => simp
  | none =>
    cases disk.lookupDirectory specifier context with
    | error e => simp [Except.toOption]
    | ok lookup =>
      cases htarget : targetPath disk.tree specifier lookup context.conditions with
      | error e => simp [Except.toOption, htarget]
      | ok target => simp [Except.toOption, htarget]

/-- What a request finds is a file. -/
theorem isFile_of_found? {file : Path} (h : disk.found? specifier context = some file) :
    disk.tree.isFile file = true := by
  obtain ⟨-, lookup, target, -, -, hfile⟩ := found?_eq_some_iff.1 h
  exact isFile_of_fileAt? hfile

/-- **What a request finds is at a normal path**, if it has a URL. -/
theorem isNormal_of_found? {file : Path} (h : disk.found? specifier context = some file)
    (habsolute : Path.isAbsolute file = true) : Path.IsNormal file := by
  obtain ⟨-, lookup, target, -, -, hfile⟩ := found?_eq_some_iff.1 h
  have htarget : Path.isAbsolute target = true :=
    Path.isAbsolute_of_normalize (isAbsolute_of_fileAt? hfile habsolute)
  exact isNormal_of_fileAt? (Path.isNormal_normalize htarget) hfile

/-! ### Answers as requests -/

/-- The request for a file by its URL needs a directory to look from, but not what is in it. -/
theorem exists_lookupDirectory (hbase : disk.baseDirectory ≠ []) (specifier : Text) :
    ∃ lookup, disk.lookupDirectory specifier {} = .ok lookup := by
  simp [lookupDirectory, importerDirectory, Path.absolute?, hbase]

/-- **A file is found by its URL**, if the URL is read back. -/
theorem found?_url (hbase : disk.baseDirectory ≠ []) {file : Path} {url : Text}
    (hurl : FileUrl.ofPath? file = some url) (hread : FileUrl.toPath? url = some file)
    (hnormal : Path.IsNormal file) (hfile : disk.tree.isFile file = true) :
    disk.found? url {} = some file := by
  obtain ⟨lookup, hlookup⟩ := exists_lookupDirectory hbase url
  refine found?_eq_some_iff.2 ⟨builtinUrl?_of_ofPath? hurl, lookup, file, hlookup, ?_, ?_⟩
  · obtain ⟨-, hspelled⟩ := FileUrl.ofPath?_eq_some_iff.1 hurl
    have hscheme : "file:".toList.isPrefixOf url = true := by
      rw [hspelled]
      rfl
    rw [targetPath, hscheme, if_pos rfl, hread]
  · rw [hnormal.normalize_eq, fileAt?_of_isFile hfile]

/-- **An answer is its own answer**: to ask for the URL that was answered gives the same URL and the
same format. -/
theorem resolve_resolved (hbase : disk.baseDirectory ≠ [])
    (hresolve : disk.resolve specifier context = .ok resolved)
    (hround : ∀ file ∈ disk.found? specifier context, FileUrl.RoundTrips file) :
    disk.resolve resolved.url {} = .ok resolved ∧ resolved.shortCircuit = false := by
  obtain ⟨-, hanswers⟩ := resolve_eq_ok_iff.1 hresolve
  cases hanswers with
  | @builtin url hurl =>
    have hprefix := prefix_of_builtinUrl? hurl
    have hne : url ≠ [] := by
      rintro rfl
      exact absurd (List.prefix_nil.1 hprefix) (by decide)
    exact ⟨resolve_eq_ok_iff.2 ⟨hne, .builtin (builtinUrl?_eq_self hprefix)⟩, rfl⟩
  | @file file url format hfound hurl hformat =>
    have hread := (hround file hfound).toPath?_eq hurl
    obtain ⟨habsolute, hspelled⟩ := FileUrl.ofPath?_eq_some_iff.1 hurl
    have hagain := found?_url hbase hurl hread (isNormal_of_found? hfound habsolute)
      (isFile_of_found? hfound)
    have hne : url ≠ [] := by
      rintro rfl
      exact absurd (congrArg List.head? hspelled) (nomatch ·)
    exact ⟨resolve_eq_ok_iff.2 ⟨hne, .file hagain hurl hformat⟩, rfl⟩

/-- The index of a directory, imported as the directory by a page two levels deeper: its URL is not
written like that. -/
theorem resolve_resolved_index :
    let index := Path.ofText "/srv/my site/unit/index.js".toList
    let tree := FileTree.plantFile {} (Path.segments index).tail []
    let disk : Disk :=
      { tree, workingDirectory := [Path.slash], baseDirectory := Path.ofText "/srv".toList }
    let context : ResolveContext :=
      { parentUrl := some "file:///srv/my%20site/pages/a.js".toList }
    let resolved : Resolved :=
      { url := "file:///srv/my%20site/unit/index.js".toList, format := some .commonjs }
    disk.resolve "../unit/./".toList context = .ok resolved ∧
      disk.resolve resolved.url {} = .ok resolved ∧ resolved.shortCircuit = false := by
  intro index tree disk context resolved
  have hresolve : disk.resolve "../unit/./".toList context = .ok resolved := by decide +kernel
  have hfound : disk.found? "../unit/./".toList context = some index := by decide +kernel
  refine ⟨hresolve, resolve_resolved (by decide) hresolve fun file hmem => ?_⟩
  obtain rfl : index = file := Option.some.inj (hfound.symm.trans hmem)
  decide +kernel

/-! ### Answers as requests to load -/

/-- Whether `source` is the **source** that a URL stands for: a built-in module has none, and any
other URL has to be that of a file, whose content it is. -/
inductive IsSource (disk : Disk) (url : Text) : Option Bytes → Prop
  | builtin : builtinScheme <+: url → IsSource disk url none
  | file {file : Path} {content : Bytes} : ¬ builtinScheme <+: url →
      FileUrl.ofPath? file = some url → FileUrl.toPath? url = some file →
      disk.tree.find file = .ok (.file content) → IsSource disk url (some content)

/-- A built-in module is loaded without a source. -/
theorem load_builtin {url : Text} (h : builtinScheme <+: url) (request : LoadContext) :
    disk.load url request = .ok { format := .builtin, source := none } := by
  rw [load, if_pos (List.isPrefixOf_iff_prefix.2 h)]

/-- **A file is loaded** with its content, in the format of the request or else in its own. -/
theorem load_file {url : Text} {file : Path} {content : Bytes} (hscheme : ¬ builtinScheme <+: url)
    (hread : FileUrl.toPath? url = some file) (hfind : disk.tree.find file = .ok (.file content))
    (request : LoadContext) :
    disk.load url request = (loadFormat disk.tree url file request.format).map
      fun format => { format, source := some content } := by
  rw [load, if_neg (fun h => hscheme (List.isPrefixOf_iff_prefix.1 h)), hread]
  simp only [read_of_find hfind]
  cases loadFormat disk.tree url file request.format <;> rfl

/-- The format of a request decides. -/
theorem loadFormat_some (tree : FileTree) (url : Text) (p : Path) (format : Format) :
    loadFormat tree url p (some format) = .ok format := rfl

/-- Without a format in the request, that of the path decides. -/
theorem loadFormat_own {tree : FileTree} {p : Path} {format : Format}
    (h : formatOf tree p = .ok (some format)) (url : Text) :
    loadFormat tree url p none = .ok format := by
  rw [loadFormat, h]

/-- Without a format in the request, a path of unknown format is refused. -/
theorem loadFormat_unknown {tree : FileTree} {p : Path} (h : formatOf tree p = .ok none)
    (url : Text) : loadFormat tree url p none =
      .error (.invalidSpecifier url "unknown file extension".toList) := by
  rw [loadFormat, h]

/-- **Resolving and loading agree.** The URL of an answer can be loaded, and gives the content of an
existing file, or no source if it is that of a built-in module. If the answer has a format, a
request to load without a format gets the same one, and so does a request with it. If it has none, a
request without a format is refused as invalid, and one with a format gets what it asks for. -/
theorem load_resolved (hresolve : disk.resolve specifier context = .ok resolved)
    (hround : ∀ file ∈ disk.found? specifier context, FileUrl.RoundTrips file) :
    ∃ source, disk.IsSource resolved.url source ∧
      (∀ format, resolved.format = some format →
        ∀ request : LoadContext, request.format = none ∨ request.format = some format →
          disk.load resolved.url request = .ok { format, source }) ∧
      (resolved.format = none →
        (∀ request : LoadContext, request.format = none → ∃ reason,
          disk.load resolved.url request = .error (.invalidSpecifier resolved.url reason)) ∧
        ∀ (request : LoadContext) (format : Format), request.format = some format →
          disk.load resolved.url request = .ok { format, source }) := by
  obtain ⟨-, hanswers⟩ := resolve_eq_ok_iff.1 hresolve
  cases hanswers with
  | builtin hurl =>
    have hprefix := prefix_of_builtinUrl? hurl
    refine ⟨none, .builtin hprefix, ?_, nofun⟩
    rintro format ⟨⟩ request -
    exact load_builtin hprefix request
  | @file file url format hfound hurl hformat =>
    have hscheme := not_prefix_of_ofPath? hurl
    have hread := (hround file hfound).toPath?_eq hurl
    obtain ⟨content, hfind⟩ := isFile_iff.1 (isFile_of_found? hfound)
    have hload := load_file hscheme hread hfind
    have hhint : ∀ (request : LoadContext) (hint : Format), request.format = some hint →
        disk.load url request = .ok { format := hint, source := some content } := by
      intro request hint hrequest
      rw [hload, hrequest, loadFormat_some]
      rfl
    refine ⟨some content, .file hscheme hurl hread hfind, ?_, ?_⟩
    · rintro own rfl request (hnone | hsome)
      · rw [hload, hnone, loadFormat_own hformat]
        rfl
      · exact hhint request own hsome
    · rintro rfl
      refine ⟨fun request hnone => ⟨"unknown file extension".toList, ?_⟩, hhint⟩
      rw [hload, hnone, loadFormat_unknown hformat]
      rfl

/-- The entry of a package of modules, given by a condition of its exports. -/
theorem load_resolved_package :
    let entry := Path.ofText "/srv/my site/node_modules/pairs/lib/pairs.js".toList
    let tree := (FileTree.plantFile {} (Path.segments entry).tail [0x78]).plantFile
      (Path.segments (Path.ofText "srv/my site/node_modules/pairs/package.json".toList))
      (Text.encode
        "\x7b\"type\":\"module\",\"exports\":\x7b\"import\":\"./lib/pairs.js\"\x7d\x7d".toList)
    let disk : Disk :=
      { tree, workingDirectory := [], baseDirectory := Path.ofText "/srv/my site".toList }
    let resolved : Resolved :=
      { url := "file:///srv/my%20site/node_modules/pairs/lib/pairs.js".toList,
        format := some .module }
    disk.resolve "pairs".toList {} = .ok resolved ∧
      ∃ source, disk.IsSource resolved.url source ∧
        disk.load resolved.url {} = .ok { format := .module, source } := by
  intro entry tree disk resolved
  have hresolve : disk.resolve "pairs".toList {} = .ok resolved := by decide +kernel
  have hfound : disk.found? "pairs".toList {} = some entry := by decide +kernel
  obtain ⟨source, hsource, hload, -⟩ := load_resolved hresolve fun file hmem => by
    obtain rfl : entry = file := Option.some.inj (hfound.symm.trans hmem)
    decide +kernel
  exact ⟨hresolve, source, hsource, hload .module rfl {} (.inl rfl)⟩

end Lectern.Import.Disk
