import Lectern.Proofs.FileUrl.Encoding
import Lectern.Proofs.Import.ReservedPackage
import Lectern.Proofs.Path.Display

/-!
# The Files of the Reserved Package

A reserved package knows its files by their URLs: it looks for its name, as it is written, behind
`node_modules/`. So it reads URLs as texts, while its files are those that lie in its directory. For
a normal path, both can be compared name by name. They agree on packages whose names are spelled in
URLs as they are, up to two slips: the directory of packages may be any whose name ends like it, and
a file that has only an ending for its name counts too. The files of a package whose name is spelled
in another way are not known at all.

## Main results

* `owns_iff_of_isNormal`: the files that belong to a package, and when they are its scripts.
* `owns_mistaken`: a script that does not belong to its package, and two files that do although they
  are no scripts of it.
-/

namespace Lectern.Import.ReservedPackage

open Lectern.Path (dot IsName)
open Lectern.FileUrl (encodeName)
open Text (splitOnChar)

variable {package : ReservedPackage} {p : Path} {url : Text}

/-! ### Scripts of a package -/

/-- The directory of all packages. -/
def modules : Bytes := Path.ofText "node_modules".toList

/-- How the names of scripts end. -/
def scriptEnding : Bytes := Path.ofText ".js".toList

/-- The parts of the name of a package: its scope, if it has one, and its own name. -/
def parts (package : ReservedPackage) : List Text := splitOnChar '/' package.name

/-- Whether a path leads to a **script of the package**: to a file in its directory, or below, with
the extension of scripts. -/
def HasScript (package : ReservedPackage) (p : Path) : Prop :=
  p.PassesThrough (modules :: package.parts.map Path.ofText) ∧
    Path.extension? p = some (Path.ofText "js".toList)

/-- Whether the name of a package is **spelled in URLs as it is**. -/
def IsPlain (package : ReservedPackage) : Prop :=
  ∀ part ∈ package.parts, encodeName (Path.ofText part) = part

instance (package : ReservedPackage) : Decidable package.IsPlain :=
  inferInstanceAs (Decidable (∀ part ∈ package.parts, _))

/-- The path of a script has the extension of scripts, and something before it. -/
theorem extension?_eq_js_iff : Path.extension? p = some (Path.ofText "js".toList) ↔
    p.NameEndsWith scriptEnding ∧ Path.fileName? p ≠ some scriptEnding :=
  Path.extension?_eq_some_iff (by decide)

/-! ### Names in URLs -/

/-- The directory of all packages is spelled as it is. -/
theorem encodeName_modules : encodeName modules = "node_modules".toList := by decide

/-- The ending of scripts is spelled as it is. -/
theorem encodeName_scriptEnding : encodeName scriptEnding = ".js".toList := by decide

/-- A name is spelled like the directory of all packages at its end if it ends like that. -/
theorem modules_suffix_iff {name : Bytes} :
    "node_modules".toList <:+ encodeName name ↔ modules <:+ name := by
  rw [← encodeName_modules]
  exact FileUrl.suffix_encodeName_iff fun c hc => by
    obtain rfl := Option.some.inj hc
    decide

/-- A name is spelled like a script at its end if it ends like that. -/
theorem scriptEnding_suffix_iff {name : Bytes} :
    ".js".toList <:+ encodeName name ↔ scriptEnding <:+ name := by
  rw [← encodeName_scriptEnding]
  exact FileUrl.suffix_encodeName_iff fun c hc => by
    obtain rfl := Option.some.inj hc
    decide

/-- The directory of a package lies in that of all packages. -/
theorem directory_eq (package : ReservedPackage) :
    package.directory = "node_modules".toList ++ '/' :: (package.name ++ ['/']) := rfl

/-- **The pieces of a URL that belongs to a package**: one that ends like the directory of all
packages, the parts of the name of the package, and a last one that ends like a script. -/
theorem exists_pieces_of_owns (h : package.owns url = true) : ∃ above folder below file,
    splitOnChar '/' url =
      above ++ (folder ++ "node_modules".toList) ::
        (package.parts ++ (below ++ [file ++ ".js".toList])) := by
  obtain ⟨before, after, rfl, ⟨stem, rfl⟩, -⟩ := owns_iff.1 h
  obtain ⟨above, folder, -, hfolder⟩ :=
    Text.exists_splitOnChar_append '/' before "node_modules".toList (by decide)
  obtain ⟨below, file, -, hfile⟩ :=
    Text.exists_splitOnChar_append '/' stem ".js".toList (by decide)
  refine ⟨above, folder, below, file, ?_⟩
  have hurl : before ++ package.directory ++ (stem ++ ".js".toList) =
      before ++ "node_modules".toList ++
        '/' :: (package.name ++ '/' :: (stem ++ ".js".toList)) := by
    rw [directory_eq]
    simp only [List.append_assoc, List.cons_append, List.nil_append]
  rw [hurl, Text.splitOnChar_append_cons, Text.splitOnChar_append_cons, hfolder, hfile,
    List.append_assoc]
  rfl

/-- **The names on the way to a file of a package**, read from its URL. -/
theorem exists_names_of_owns {names : List Bytes} (hnames : ∀ name ∈ names, IsName name)
    (hurl : FileUrl.ofPath? (Path.ofNames true names) = some url) (h : package.owns url = true) :
    ∃ above folder inside below file,
      names = above ++ folder :: (inside ++ (below ++ [file])) ∧ modules <:+ folder ∧
        inside.map encodeName = package.parts ∧ scriptEnding <:+ file := by
  obtain ⟨above, folder, below, file, hpieces⟩ := exists_pieces_of_owns h
  have hne : names ≠ [] := by
    rintro rfl
    obtain ⟨-, rfl⟩ := FileUrl.ofPath?_eq_some_iff.1 hurl
    have hlast := congrArg List.getLast? hpieces
    rw [List.append_cons, ← List.append_assoc, ← List.append_assoc, List.getLast?_concat] at hlast
    have hroot : (splitOnChar '/'
        (FileUrl.start ++ FileUrl.spelled (Path.ofNames true []))).getLast? = some [] := by decide
    simp [hroot] at hlast
  rw [FileUrl.splitOnChar_url hnames hne hurl] at hpieces
  have hstart : ∀ piece ∈ splitOnChar '/' FileUrl.start, ¬ "node_modules".toList <:+ piece := by
    decide
  -- the directory of all packages is no piece of the start of a URL, so it is one of the names
  obtain ⟨front, hfront⟩ : ∃ front, names.map encodeName =
      front ++ (folder ++ "node_modules".toList) ::
        (package.parts ++ (below ++ [file ++ ".js".toList])) := by
    rcases List.append_eq_append_iff.1 hpieces with ⟨front, -, hnamed⟩ | ⟨front, hsplit, hnamed⟩
    · exact ⟨front, hnamed⟩
    · cases front with
      | nil => exact ⟨[], hnamed.symm⟩
      | cons piece front =>
        obtain ⟨rfl, -⟩ := List.cons.inj hnamed
        have hmem : folder ++ "node_modules".toList ∈ splitOnChar '/' FileUrl.start := by
          rw [hsplit]
          exact List.mem_append_right _ List.mem_cons_self
        exact absurd (List.suffix_append _ _) (hstart _ hmem)
  obtain ⟨above, names, rfl, -, hrest⟩ := List.map_eq_append_iff.1 hfront
  obtain ⟨folder, names, rfl, hfolder, hrest⟩ := List.map_eq_cons_iff.1 hrest
  obtain ⟨inside, names, rfl, hinside, hrest⟩ := List.map_eq_append_iff.1 hrest
  obtain ⟨below, names, rfl, -, hrest⟩ := List.map_eq_append_iff.1 hrest
  obtain ⟨file, rfl, hfile⟩ := List.map_eq_singleton_iff.1 hrest
  refine ⟨above, folder, inside, below, file, rfl, modules_suffix_iff.1 ?_, hinside,
    scriptEnding_suffix_iff.1 ?_⟩
  · rw [hfolder]
    exact List.suffix_append _ _
  · rw [hfile]
    exact List.suffix_append _ _

/-! ### The files of a package -/

/-- The names of a directory inside another, as a URL spells them. -/
theorem flatMap_spell_inside {inside : List Bytes} (h : inside.map encodeName = package.parts) :
    (inside.map Path.Component.name).flatMap FileUrl.spell = '/' :: package.name := by
  have hspell : (inside.map Path.Component.name).flatMap FileUrl.spell =
      (inside.map encodeName).flatMap ('/' :: ·) := by
    rw [List.flatMap_map, List.flatMap_map]
    rfl
  rw [hspell, h, parts, Text.flatMap_cons_splitOnChar]

/-- **A file behind the name of a package**, as a URL spells it, belongs to the package. -/
theorem owns_of_spelled (habsolute : Path.isAbsolute p = true)
    (hurl : FileUrl.ofPath? p = some url) {folder : Bytes} {inside : List Bytes}
    (hthrough : p.PassesThrough (folder :: inside)) (hfolder : modules <:+ folder)
    (hinside : inside.map encodeName = package.parts) (hname : p.NameEndsWith scriptEnding) :
    package.owns url = true := by
  obtain ⟨-, rfl⟩ := FileUrl.ofPath?_eq_some_iff.1 hurl
  obtain ⟨before, inner, hspelled, hline⟩ :=
    FileUrl.exists_spelled_eq habsolute (List.cons_ne_nil _ _) hthrough hname
  obtain ⟨stem, hstem⟩ := modules_suffix_iff.2 hfolder
  rw [encodeName_scriptEnding] at hspelled hline
  refine owns_iff.2 ⟨FileUrl.start ++ before ++ '/' :: stem, inner ++ ".js".toList, ?_,
    List.suffix_append _ _, hline⟩
  have hfolders : ((folder :: inside).map Path.Component.name).flatMap FileUrl.spell =
      '/' :: (stem ++ "node_modules".toList ++ '/' :: package.name) := by
    rw [List.map_cons, List.flatMap_cons, flatMap_spell_inside hinside, hstem]
    rfl
  rw [hspelled, hfolders, directory_eq]
  simp only [List.append_assoc, List.cons_append, List.nil_append]

/-- **The files that belong to a package.** Behind a directory whose name ends like that of all
packages, their names spell the name of the package, and the last one ends like a script. For a
package with a name that is spelled as it is, these are its scripts, as long as there is no other
directory with such an ending on the way and the file has something before its ending. -/
theorem owns_iff_of_isNormal (hnormal : p.IsNormal) (hurl : FileUrl.ofPath? p = some url) :
    (package.owns url = true ↔ ∃ folder inside, p.PassesThrough (folder :: inside) ∧
      modules <:+ folder ∧ inside.map encodeName = package.parts ∧
      p.NameEndsWith scriptEnding) ∧
    (package.IsPlain →
      (∀ folder, p.PassesThrough [folder] → modules <:+ folder → folder = modules) →
      Path.fileName? p ≠ some scriptEnding → (package.owns url = true ↔ package.HasScript p)) := by
  have howns : package.owns url = true ↔ ∃ folder inside, p.PassesThrough (folder :: inside) ∧
      modules <:+ folder ∧ inside.map encodeName = package.parts ∧
      p.NameEndsWith scriptEnding := by
    constructor
    · intro h
      obtain ⟨names, hnames, rfl⟩ := hnormal
      obtain ⟨above, folder, inside, below, file, rfl, hfolder, hinside, stem, rfl⟩ :=
        exists_names_of_owns hnames hurl h
      have hcomponents := Path.components_ofNames hnames
      refine ⟨folder, inside, ⟨.root :: above.map .name,
        (below ++ [stem ++ scriptEnding]).map .name, ?_, by simp⟩, hfolder, hinside, stem, ?_⟩
      · simp [hcomponents]
      · rw [Path.fileName?, hcomponents]
        simp [List.getLast?_cons]
    · rintro ⟨folder, inside, hthrough, hfolder, hinside, hname⟩
      exact owns_of_spelled hnormal.isAbsolute hurl hthrough hfolder hinside hname
  refine ⟨howns, fun hplain honly hstem => ?_⟩
  have hparts : (package.parts.map Path.ofText).map encodeName = package.parts := by
    rw [List.map_map]
    exact List.map_congr_left hplain |>.trans (List.map_id _)
  rw [howns, HasScript, extension?_eq_js_iff]
  constructor
  · rintro ⟨folder, inside, hthrough, hfolder, hinside, hname⟩
    obtain rfl := honly folder hthrough.head hfolder
    obtain rfl : inside = package.parts.map Path.ofText :=
      List.map_injective_iff.2 (fun _ _ => FileUrl.encodeName_inj) (hinside.trans hparts.symm)
    exact ⟨hthrough, hname, hstem⟩
  · rintro ⟨hthrough, hname, -⟩
    exact ⟨_, _, hthrough, List.suffix_rfl, hparts, hname⟩

/-- A script of a package with a scope, under a directory with a space in its name. -/
theorem owns_iff_of_isNormal_scope :
    let script := Path.ofText "/srv/my site/node_modules/@scope/a.b/eval.js".toList
    let url := "file:///srv/my%20site/node_modules/@scope/a.b/eval.js".toList
    let package : ReservedPackage := { root := [Path.slash], name := "@scope/a.b".toList }
    script.IsNormal ∧ FileUrl.ofPath? script = some url ∧ package.IsPlain ∧
      package.HasScript script ∧ package.owns url = true := by
  intro script url package
  have hnormal : script.IsNormal :=
    ⟨["srv", "my site", "node_modules", "@scope", "a.b", "eval.js"].map (Path.ofText ·.toList),
      by decide +kernel, by decide +kernel⟩
  have hurl : FileUrl.ofPath? script = some url := by decide +kernel
  have hplain : package.IsPlain := by decide +kernel
  have honly : ∀ step ∈ Path.components script, modules <:+ step.bytes → step.bytes = modules := by
    decide +kernel
  have hscript : package.HasScript script := by
    refine ⟨⟨[.root, .name (Path.ofText "srv".toList), .name (Path.ofText "my site".toList)],
      [.name (Path.ofText "eval.js".toList)], ?_, List.cons_ne_nil _ _⟩, ?_⟩ <;> decide +kernel
  refine ⟨hnormal, hurl, hplain, hscript, ?_⟩
  exact ((owns_iff_of_isNormal hnormal hurl).2 hplain
    (fun folder hthrough => honly _ (hthrough.mem_components List.mem_cons_self))
    (by decide +kernel)).2 hscript

/-- **Mistaken files.** A script does not belong to its package if the name of that has a space.
Files in another directory whose name ends like that of all packages do belong to a package, and so
do files without an extension. -/
theorem owns_mistaken :
    let root := Path.ofText "/r".toList
    let spaced : ReservedPackage := { root, name := "a b".toList }
    let stock : ReservedPackage := { root }
    let script := Path.ofText "/r/node_modules/a b/i.js".toList
    let stranger := Path.ofText "/r/xnode_modules/lamcalc/i.js".toList
    let nameless := Path.ofText "/r/node_modules/lamcalc/.js".toList
    (script.IsNormal ∧ spaced.HasScript script ∧
      (FileUrl.ofPath? script).map spaced.owns = some false) ∧
    (stranger.IsNormal ∧ ¬ stranger.PassesThrough [modules] ∧
      (FileUrl.ofPath? stranger).map stock.owns = some true) ∧
    (nameless.IsNormal ∧ Path.extension? nameless = none ∧
      (FileUrl.ofPath? nameless).map stock.owns = some true) := by
  intro root spaced stock script stranger nameless
  refine ⟨⟨?_, ?_, by decide +kernel⟩, ⟨?_, ?_, by decide +kernel⟩, ?_, by decide +kernel,
    by decide +kernel⟩
  · exact ⟨["r", "node_modules", "a b", "i.js"].map (Path.ofText ·.toList), by decide +kernel,
      by decide +kernel⟩
  · refine ⟨⟨[.root, .name (Path.ofText "r".toList)], [.name (Path.ofText "i.js".toList)], ?_,
      List.cons_ne_nil _ _⟩, ?_⟩ <;> decide +kernel
  · exact ⟨["r", "xnode_modules", "lamcalc", "i.js"].map (Path.ofText ·.toList), by decide +kernel,
      by decide +kernel⟩
  · exact fun hthrough => absurd (hthrough.mem_components List.mem_cons_self) (by decide +kernel)
  · exact ⟨["r", "node_modules", "lamcalc", ".js"].map (Path.ofText ·.toList), by decide +kernel,
      by decide +kernel⟩

end Lectern.Import.ReservedPackage
