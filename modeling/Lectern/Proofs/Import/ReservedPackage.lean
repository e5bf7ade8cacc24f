import Lectern.Proofs.Import.Chain
import Lectern.Proofs.Import.Resolution
import Lectern.Proofs.Text.Basic

/-!
# The Reserved Package on Disk

The hook of the reserved package in front of the host on disk. It knows the scripts of the package
by their URLs alone: `owns_iff` says which URLs these are. A URL that the chain answers is spelled
from a path, so the URL of a script in the directory of the package is among them, and the script is
loaded as a module, whatever the request says and whatever the manifests on its way say.

## Main results

* `ReservedPackage.owns_iff`: the URLs that belong to a package.
* `ReservedPackage.owns_of_passesThrough`: the URLs of scripts in its directory do.
* `ReservedPackage.owns_url`: the URL to which its name resolves does.
* `Chain.load_reserved_script`: what the chain loads from a URL that it has resolved.
-/

namespace Lectern.Import

/-! ### URLs of a package -/

namespace ReservedPackage

variable {package : ReservedPackage} {url : Text}

/-- The directory of a package is something to look for. -/
theorem directory_ne_nil (package : ReservedPackage) : package.directory ≠ [] := fun h =>
  absurd (congrArg List.head? h) (nomatch ·)

/-- A place from which a URL leads into the package and on to a script. -/
theorem startsOwned_iff {s : Text} : package.startsOwned s = true ↔
    ∃ after, s = package.directory ++ after ∧ ".js".toList <:+ after ∧ '\n' ∉ after := by
  have hline : ∀ after : Text, after.all (· != '\n') = true ↔ '\n' ∉ after := fun after => by
    rw [List.all_eq_true]
    refine ⟨fun h hmem => by simpa using h _ hmem, fun h c hmem => ?_⟩
    exact bne_iff_ne.2 (ne_of_mem_of_not_mem hmem h)
  unfold startsOwned
  constructor
  · intro h
    split at h
    · next after hafter =>
      obtain ⟨hend, hall⟩ := Bool.and_eq_true_iff.1 h
      exact ⟨after, Text.after?_eq_some_iff.1 hafter, Text.endsWith_iff.1 hend,
        (hline after).1 hall⟩
    · contradiction
  · rintro ⟨after, rfl, hend, hnone⟩
    rw [Text.after?_eq_some_iff.2 rfl]
    exact Bool.and_eq_true_iff.2 ⟨Text.endsWith_iff.2 hend, (hline after).2 hnone⟩

/-- **The URLs that belong to a package** lead into its directory, and on to a script. -/
theorem owns_iff : package.owns url = true ↔ ∃ before after,
    url = before ++ package.directory ++ after ∧ ".js".toList <:+ after ∧ '\n' ∉ after := by
  induction url with
  | nil =>
    refine ⟨nofun, ?_⟩
    rintro ⟨before, after, heq, -⟩
    exact absurd (List.append_eq_nil_iff.1 (List.append_eq_nil_iff.1 heq.symm).1).2
      package.directory_ne_nil
  | cons c rest ih =>
    rw [owns, Bool.or_eq_true, startsOwned_iff, ih]
    constructor
    · rintro (⟨after, heq, h⟩ | ⟨before, after, rfl, h⟩)
      · exact ⟨[], after, heq, h⟩
      · exact ⟨c :: before, after, by simp, h⟩
    · rintro ⟨before, after, heq, h⟩
      cases before with
      | nil => exact .inl ⟨after, heq, h⟩
      | cons first before =>
        obtain ⟨-, rfl⟩ : c = first ∧ rest = before ++ package.directory ++ after := by
          simpa using heq
        exact .inr ⟨before, after, rfl, h⟩

/-- A URL without the directory of a package does not belong to it. -/
theorem owns_eq_false (h : ¬ package.directory <:+: url) : package.owns url = false := by
  refine Bool.eq_false_iff.2 fun howns => h ?_
  obtain ⟨before, after, rfl, -⟩ := owns_iff.1 howns
  exact List.infix_append _ _ _

/-- The directory of a package: the names through which the paths of its files pass. -/
def folders (package : ReservedPackage) : List Bytes :=
  ["node_modules".toList, package.name].map Text.encode

/-- The directory of a package in a URL, if the name of the package is spelled as it is. -/
theorem flatMap_spell_folders (package : ReservedPackage)
    (hspelled : FileUrl.encodeName (Text.encode package.name) = package.name) :
    (package.folders.map Path.Component.name).flatMap FileUrl.spell ++ ['/'] =
      '/' :: package.directory := by
  have hmodules : FileUrl.encodeName (Text.encode "node_modules".toList) ++ ['/'] =
    "node_modules/".toList := by decide
  calc (package.folders.map Path.Component.name).flatMap FileUrl.spell ++ ['/']
      = '/' :: (FileUrl.encodeName (Text.encode "node_modules".toList) ++
          '/' :: (FileUrl.encodeName (Text.encode package.name) ++ [])) ++ ['/'] := rfl
    _ = '/' :: ((FileUrl.encodeName (Text.encode "node_modules".toList) ++ ['/']) ++
          package.name ++ ['/']) := by
        simp only [hspelled, List.append_assoc, List.cons_append, List.nil_append, List.append_nil]
    _ = '/' :: package.directory := by
        rw [hmodules]
        rfl

/-- **The URL of a script in the directory of a package** belongs to it, if the name of the package
is spelled in URLs as it is. -/
theorem owns_of_passesThrough {p : Path}
    (hspelled : FileUrl.encodeName (Text.encode package.name) = package.name)
    (hurl : FileUrl.ofPath? p = some url) (hthrough : p.PassesThrough package.folders)
    (hname : p.NameEndsWith (Path.ofText ".js".toList)) : package.owns url = true := by
  obtain ⟨habsolute, rfl⟩ := FileUrl.ofPath?_eq_some_iff.1 hurl
  obtain ⟨before, inner, heq, hline⟩ :=
    FileUrl.exists_spelled_eq habsolute (by simp [folders]) hthrough hname
  refine owns_iff.2 ⟨FileUrl.start ++ before ++ ['/'], inner ++ ".js".toList, ?_,
    List.suffix_append _ _, hline⟩
  have hending : FileUrl.encodeName (Path.ofText ".js".toList) = ".js".toList := by decide
  have hfolders := package.flatMap_spell_folders hspelled
  calc FileUrl.start ++ FileUrl.spelled p
      = FileUrl.start ++ (before ++
          ((package.folders.map Path.Component.name).flatMap FileUrl.spell ++ ['/']) ++
            (inner ++ ".js".toList)) := by
        rw [heq, hending]
        simp only [List.append_assoc, List.singleton_append]
    _ = FileUrl.start ++ before ++ ['/'] ++ package.directory ++ (inner ++ ".js".toList) := by
        rw [hfolders]
        simp only [List.append_assoc, List.cons_append, List.nil_append]

/-- The name of the stock package is spelled in URLs as it is. -/
theorem encodeName_stock :
    FileUrl.encodeName (Text.encode "lamcalc".toList) = "lamcalc".toList := by decide

/-- The entry file of the stock package, seen from the directory where it is installed. -/
theorem components_entry {root : Path} (hroot : root ≠ []) :
    Path.components (Path.join root (Path.ofEntry ({ root } : ReservedPackage).entry)) =
      Path.components root ++ [.name (Path.ofText "node_modules".toList),
        .name (Path.ofText "lamcalc".toList), .name (Path.ofText "lamcalc.js".toList)] := by
  have hrelative :
      Path.isAbsolute (Path.ofEntry "node_modules/lamcalc/lamcalc.js".toList) = false := by decide
  exact Path.components_join hroot hrelative

/-- **The URL to which the stock package resolves** belongs to it, wherever it is installed. -/
theorem owns_url {root : Path} (hroot : Path.isAbsolute root = true) :
    ({ root } : ReservedPackage).owns ({ root } : ReservedPackage).url = true := by
  have hne : root ≠ [] := by
    rintro rfl
    contradiction
  have hcomponents := components_entry hne
  have hurl : FileUrl.ofPath? (Path.join root (Path.ofEntry ({ root } : ReservedPackage).entry)) =
      some ({ root } : ReservedPackage).url := by
    have hsome := FileUrl.ofPath?_eq_some_iff.2 ⟨Path.isAbsolute_join hroot
      (Path.ofEntry ({ root } : ReservedPackage).entry), rfl⟩
    rw [url, entryUrl, hsome]
    rfl
  refine owns_of_passesThrough encodeName_stock hurl ?_ ?_
  · refine ⟨Path.components root, [.name (Path.ofText "lamcalc.js".toList)], ?_,
      List.cons_ne_nil _ _⟩
    rw [hcomponents, List.append_assoc]
    rfl
  · refine ⟨Path.ofText "lamcalc".toList, ?_⟩
    rw [Path.fileName?, hcomponents, List.getLast?_append]
    rfl

end ReservedPackage

/-! ### The chain on disk -/

/-- A chain with one reserved package serves it. -/
theorem Chain.serves_singleton {m : Type → Type} [Pure m] (host : Host m)
    (package : ReservedPackage) : Serves (registered host [.reserved package]) host [package] :=
  serves_registered host (by simp [reservedPackages, Registration.package?])

/-- **A script of the package** reaches the host with the format of modules. -/
theorem LoadContext.corrected_of_owns {package : ReservedPackage} {url : Text}
    (h : package.owns url = true) (request : LoadContext) :
    (request.corrected [package] url).format = some .module := by
  by_cases hformat : request.format = some .module
  · simp [corrected, hformat]
  · simp [corrected, hformat, h, withFormat]

/-- Other requests reach the host as they are. -/
theorem LoadContext.corrected_of_not_owns {package : ReservedPackage} {url : Text}
    (h : package.owns url = false) (request : LoadContext) :
    request.corrected [package] url = request := by
  simp [corrected, h]

/-- **A URL that the chain has resolved** belongs to the stock package if it leads to a script in
the directory of the package. -/
theorem Chain.owns_resolved {disk : Disk} {root : Path} (hroot : Path.isAbsolute root = true)
    {specifier : Text} {context : ResolveContext} {resolved : Resolved}
    (hresolve : (registered disk.host [.reserved { root }]).resolve specifier context =
      .ok resolved)
    (hround : specifier ≠ "lamcalc".toList → ∀ found ∈ disk.found? specifier context,
      FileUrl.RoundTrips found)
    {file : Path} (hread : FileUrl.toPath? resolved.url = some file)
    (hthrough : file.PassesThrough (["node_modules".toList, "lamcalc".toList].map Path.ofText))
    (hname : file.NameEndsWith (Path.ofText ".js".toList)) :
    ({ root } : ReservedPackage).owns resolved.url = true := by
  have hserves := serves_singleton disk.host { root }
  by_cases hspecifier : specifier = "lamcalc".toList
  · rw [hspecifier, hserves.resolve_reserved { root } (List.mem_singleton_self _)] at hresolve
    obtain rfl : ({ root } : ReservedPackage).answer = resolved := Except.ok.inj hresolve
    exact ReservedPackage.owns_url hroot
  · rw [hserves.resolve_other specifier context (List.forall_mem_singleton.2 hspecifier)]
      at hresolve
    obtain ⟨-, hanswers⟩ := Disk.resolve_eq_ok_iff.1 hresolve
    cases hanswers with
    | builtin hurl =>
      have hnone := Disk.toPath?_builtin_eq_none (Disk.prefix_of_builtinUrl? hurl)
      exact nomatch hnone.symm.trans hread
    | @file found url format hfound hurl hformat =>
      have hsame := (hround hspecifier found hfound).toPath?_eq hurl
      obtain rfl : found = file := Option.some.inj (hsame.symm.trans hread)
      exact ReservedPackage.owns_of_passesThrough ReservedPackage.encodeName_stock hurl hthrough
        hname

/-- **What the chain loads from a URL that it has resolved.** With the stock package installed under
`root`, the URL of a script in the directory of the package gives the content of the file, as a
module, whatever specifier has led to it, whatever format the request names, and whatever manifests
the tree has. A URL without the directory of the package is loaded as by the host alone. -/
theorem Chain.load_reserved_script (tree : FileTree) (workingDirectory : Path) {root : Path}
    (hroot : Path.isAbsolute root = true) :
    let disk : Disk := { tree, workingDirectory, baseDirectory := root }
    let chain := registered disk.host [.reserved { root }]
    (∀ specifier context resolved file content,
      chain.resolve specifier context = .ok resolved →
      (specifier ≠ "lamcalc".toList → ∀ found ∈ disk.found? specifier context,
        FileUrl.RoundTrips found) →
      FileUrl.toPath? resolved.url = some file → tree.find file = .ok (.file content) →
      file.PassesThrough (["node_modules".toList, "lamcalc".toList].map Path.ofText) →
      file.NameEndsWith (Path.ofText ".js".toList) →
      ∀ request, chain.load resolved.url request =
        .ok { format := .module, source := some content }) ∧
    ∀ url, ¬ "node_modules/lamcalc/".toList <:+: url →
      ∀ request, chain.load url request = disk.load url request := by
  intro disk chain
  have hserves : Serves chain disk.host [{ root }] := serves_singleton disk.host { root }
  constructor
  · intro specifier context resolved file content hresolve hround hread hfind hthrough hname request
    have howns := owns_resolved hroot hresolve hround hread hthrough hname
    have hbuiltin : ¬ Disk.builtinScheme <+: resolved.url := fun hprefix =>
      nomatch (Disk.toPath?_builtin_eq_none hprefix).symm.trans hread
    have hload : disk.load resolved.url (request.corrected [{ root }] resolved.url) = _ :=
      Disk.load_file hbuiltin hread hfind _
    rw [LoadContext.corrected_of_owns howns, Disk.loadFormat_some] at hload
    rw [hserves.load]
    exact hload
  · intro url hurl request
    have howns : ({ root } : ReservedPackage).owns url = false :=
      ReservedPackage.owns_eq_false hurl
    rw [hserves.load, LoadContext.corrected_of_not_owns howns]
    rfl

/-- A script of the package whose manifest says otherwise, imported by another of its scripts from a
directory with a space in its name. -/
theorem Chain.load_reserved_script_space :
    let script := Path.ofText "/srv/my site/node_modules/lamcalc/eval.js".toList
    let tree := (FileTree.plantFile {} (Path.segments script).tail [0x78]).plantFile
      (Path.segments (Path.ofText "srv/my site/node_modules/lamcalc/package.json".toList))
      (Text.encode "\x7b\"type\":\"commonjs\"\x7d".toList)
    let root := Path.ofText "/srv/my site".toList
    let disk : Disk := { tree, workingDirectory := root, baseDirectory := root }
    let chain := registered disk.host [.reserved { root }]
    let context : ResolveContext :=
      { parentUrl := some "file:///srv/my%20site/node_modules/lamcalc/lamcalc.js".toList }
    let url := "file:///srv/my%20site/node_modules/lamcalc/eval.js".toList
    chain.resolve "./eval.js".toList context = .ok { url, format := some .commonjs } ∧
      chain.load url { format := some .commonjs } =
        .ok { format := .module, source := some [0x78] } := by
  intro script tree root disk chain context url
  have hresolve : chain.resolve "./eval.js".toList context =
      .ok { url, format := some .commonjs } := by decide +kernel
  have hfound : disk.found? "./eval.js".toList context = some script := by decide +kernel
  refine ⟨hresolve, (load_reserved_script tree root (by decide)).1 _ _ _ script _ hresolve ?_ ?_ ?_
    ?_ ?_ _⟩
  · rintro - found hmem
    obtain rfl : script = found := Option.some.inj (hfound.symm.trans hmem)
    decide +kernel
  · decide +kernel
  · decide +kernel
  · exact ⟨[.root, .name (Path.ofText "srv".toList), .name (Path.ofText "my site".toList)],
      [.name (Path.ofText "eval.js".toList)], by decide +kernel, by decide⟩
  · exact ⟨Path.ofText "eval".toList, by decide +kernel⟩

end Lectern.Import
