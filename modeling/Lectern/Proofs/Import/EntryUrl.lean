import Lectern.Import.ReservedPackage
import Lectern.Proofs.FileUrl.Drive
import Lectern.Settings.Basic

/-!
# The Entry of the Reserved Package

The URL of the reserved package leads to the entry file that the settings name, as it is seen from
the root of the site. The settings are checked as they are written, but steps `./` at the start of
the entry are dropped before it is joined to the root. Where a slash stands behind them, what is
left is an absolute path, and the root is lost: the URL leads out of the site.

For any other entry that passes the check, dropping the steps changes no component. The URL then
leads to where the entry is written to be, unless a drive is in the way.

## Main results

* `isAbsolute_ofEntry`: the entries that are taken for absolute paths.
* `components_join_ofEntry`: any other entry is where it is written to be.
* `toPath?_url`: where the URL of the package leads.
* `toPath?_url_hidden`: an entry that passes the check, and a URL that leads out of the site.
-/

namespace Lectern.Path

variable {root p : Path} {entry : Text}

/-! ### Entries as they are written -/

/-- Whether an entry **hides its root**: a slash stands at its start, or behind steps `./`. -/
def HidesRoot (entry : Text) : Prop :=
  ∃ steps rest, entry = (List.replicate steps "./".toList).flatten ++ '/' :: rest

/-- The path of a text is absolute if the text starts with a slash. -/
theorem isAbsolute_ofText {s : Text} : isAbsolute (ofText s) = true ↔ ∃ rest, s = '/' :: rest := by
  constructor
  · intro h
    obtain ⟨rest, hrest⟩ := isAbsolute_iff.1 h
    have hslash : Text.decodeParts 0 (slash :: rest) = some '/' :: Text.decodeParts 0 rest :=
      Text.decodeParts_encodeChar '/' rest
    have hread := Text.decodeParts_encode s
    rw [← ofText, hrest, hslash] at hread
    obtain ⟨c, rest, rfl, hc, -⟩ := List.map_eq_cons_iff.1 hread.symm
    exact ⟨rest, by rw [Option.some.inj hc]⟩
  · rintro ⟨rest, rfl⟩
    rfl

/-- **The entries that are taken for absolute paths** are those that hide their root. -/
theorem isAbsolute_ofEntry : isAbsolute (ofEntry entry) = true ↔ HidesRoot entry := by
  induction entry using stripHere.induct with
  | case1 rest ih =>
    rw [ofEntry, stripHere, ← ofEntry, ih]
    constructor
    · rintro ⟨steps, after, rfl⟩
      exact ⟨steps + 1, after, rfl⟩
    · rintro ⟨_ | steps, after, heq⟩
      · exact absurd (List.cons.inj heq).1 (by decide)
      · exact ⟨steps, after, (List.cons.inj (List.cons.inj heq).2).2⟩
  | case2 s hstart =>
    have hkept : stripHere s = s := by
      rw [stripHere]
      exact hstart
    rw [ofEntry, hkept, isAbsolute_ofText]
    constructor
    · rintro ⟨rest, rfl⟩
      exact ⟨0, rest, rfl⟩
    · rintro ⟨_ | steps, after, heq⟩
      · exact ⟨after, heq⟩
      · exact absurd heq (hstart _)

/-- The steps `./` that are dropped are no steps from a directory. -/
theorem filterMap_segments_ofEntry (entry : Text) :
    (segments (ofEntry entry)).filterMap Component.ofSegment? =
      (segments (ofText entry)).filterMap Component.ofSegment? := by
  induction entry using stripHere.induct with
  | case1 rest ih =>
    have hsegments : segments (ofText ('.' :: '/' :: rest)) = [dot] :: segments (ofText rest) := rfl
    have hstep : Component.ofSegment? [dot] = none := by decide
    rw [ofEntry, stripHere, ← ofEntry, ih, hsegments, List.filterMap_cons_none hstep]
  | case2 s hstart =>
    rw [ofEntry, stripHere]
    exact hstart

/-- **An entry that does not hide its root** is where it is written to be. -/
theorem components_join_ofEntry (hroot : root ≠ []) (hentry : ¬ HidesRoot entry) :
    components (join root (ofEntry entry)) = components (join root (ofText entry)) := by
  have hstripped : isAbsolute (ofEntry entry) = false :=
    Bool.eq_false_iff.2 fun h => hentry (isAbsolute_ofEntry.1 h)
  have hwritten : isAbsolute (ofText entry) = false := by
    refine Bool.eq_false_iff.2 fun h => hentry ?_
    obtain ⟨rest, rfl⟩ := isAbsolute_ofText.1 h
    exact ⟨0, rest, rfl⟩
  rw [components_join hroot hstripped, components_join hroot hwritten, filterMap_segments_ofEntry]

/-! ### Where paths lead -/

/-- **Absolute paths lead to the same place** if their names are the same when dots are resolved. -/
theorem normalize_eq_iff {q : Path} (hp : isAbsolute p = true) (hq : isAbsolute q = true) :
    normalize p = normalize q ↔ normalizedNames p = normalizedNames q := by
  rw [normalize, normalize, hp, hq]
  refine ⟨fun heq => ?_, fun heq => by rw [heq]⟩
  have hcomponents := congrArg components heq
  rw [components_ofNames isName_of_mem_normalizedNames,
    components_ofNames isName_of_mem_normalizedNames] at hcomponents
  exact List.map_injective_iff.2 (fun _ _ => Component.name.inj) (List.cons.inj hcomponents).2

/-- The steps of a path that is seen from a directory are its components. -/
theorem mem_components_of_mem_filterMap {step : Component}
    (h : step ∈ (segments p).filterMap Component.ofSegment?) : step ∈ components p := by
  obtain ⟨segment, hmem, hstep⟩ := List.mem_filterMap.1 h
  obtain ⟨first, rest, hsegments⟩ : ∃ first rest, segments p = first :: rest :=
    List.exists_cons_of_ne_nil (by simp [segments_eq_splitOn])
  rw [hsegments] at hmem
  simp only [components, hsegments]
  rcases List.mem_cons.1 hmem with rfl | hrest
  · have hempty : segment ≠ [] := by
      rintro rfl
      cases hstep
    have hdot : segment ≠ [dot] := by
      rintro rfl
      cases hstep
    simp [hempty, hdot, hstep]
  · exact List.mem_append_right _ (List.mem_filterMap.2 ⟨segment, hrest, hstep⟩)

/-- **A relative path without two dots** stays in the directory from which it is seen. -/
theorem normalizedNames_join_prefix (hroot : root ≠ []) (hrelative : isAbsolute p = false)
    (hup : .up ∉ components p) : normalizedNames root <+: normalizedNames (join root p) := by
  obtain ⟨below, hbelow⟩ := exists_foldl_normalizeStep
    (fun hmem => hup (mem_components_of_mem_filterMap hmem))
    ((components root).foldl normalizeStep [])
  refine ⟨below.reverse, ?_⟩
  rw [normalizedNames, normalizedNames, components_join hroot hrelative, List.foldl_append, hbelow,
    List.reverse_append]

end Lectern.Path

namespace Lectern.Import.ReservedPackage

open FileUrl (MeetsDrive readNames readBack)

variable {root : Path}

/-! ### Where the URL leads -/

/-- **What the URL of a package is read as**: its entry, seen from the root without steps. -/
theorem toPath?_url_eq {package : ReservedPackage} (hroot : Path.isAbsolute package.root = true) :
    FileUrl.toPath? package.url =
      some (readBack (Path.join package.root (Path.ofEntry package.entry))) := by
  have hurl := FileUrl.ofPath?_eq_some_iff.2
    ⟨Path.isAbsolute_join hroot (Path.ofEntry package.entry), rfl⟩
  have hread := FileUrl.toPath?_ofPath? hurl
  rwa [url, entryUrl, hurl, Option.getD_some]

/-- An entry that passes the check is no absolute path. -/
theorem isAbsolute_eq_false_of_checked {interpreter : Interpreter}
    (h : Settings.interpreterProblems interpreter = []) :
    Path.isAbsolute (Path.ofText interpreter.entry) = false := by
  by_contra habsolute
  simp [Settings.interpreterProblems, habsolute] at h

/-- **Where the URL of a package leads**, if its entry passes the check. Unless the entry hides the
root, the URL leads to where the entry is written to be if and only if no drive is in the way; and
then it stays under the root, if the entry has no two dots. If the entry hides the root, the root
plays no part. -/
theorem toPath?_url (hroot : Path.isAbsolute root = true) {interpreter : Interpreter}
    (hchecked : Settings.interpreterProblems interpreter = []) :
    let package : ReservedPackage :=
      { root, name := interpreter.package, entry := interpreter.entry }
    let entry := Path.ofText interpreter.entry
    let target := Path.join root entry
    ∃ found, FileUrl.toPath? package.url = some found ∧
      (¬ Path.HidesRoot interpreter.entry →
        (Path.normalize found = Path.normalize target ↔ ¬ MeetsDrive target) ∧
        (¬ MeetsDrive target → .up ∉ Path.components entry →
          Path.normalizedNames root <+: Path.normalizedNames found)) ∧
      (Path.HidesRoot interpreter.entry → found = readBack (Path.ofEntry interpreter.entry)) := by
  intro package entry target
  have hne : root ≠ [] := by
    rintro rfl
    cases hroot
  have htarget : Path.isAbsolute target = true := Path.isAbsolute_join hroot entry
  have hstripped := Path.isAbsolute_join hroot (Path.ofEntry interpreter.entry)
  have hread : FileUrl.toPath? package.url =
      some (readBack (Path.join root (Path.ofEntry interpreter.entry))) := toPath?_url_eq hroot
  refine ⟨_, hread, fun hentry => ?_, fun hentry => ?_⟩
  · have hsame :
        readNames (Path.join root (Path.ofEntry interpreter.entry)) = readNames target := by
      rw [readNames, readNames, Path.components_join_ofEntry hne hentry]
    have hnames := (FileUrl.normalizedNames_readBack hstripped).trans hsame
    rw [Path.normalize_eq_iff (FileUrl.isAbsolute_readBack _) htarget, hnames,
      FileUrl.readNames_eq_iff]
    refine ⟨Iff.rfl, fun hdrive hup => ?_⟩
    rw [FileUrl.readNames_eq_iff.2 hdrive]
    exact Path.normalizedNames_join_prefix hne (isAbsolute_eq_false_of_checked hchecked) hup
  · rw [Path.join, Path.isAbsolute_ofEntry.2 hentry, if_pos rfl]

/-- An entry with steps and slashes that go nowhere, in a directory that needs marks in a URL. -/
theorem toPath?_url_steps :
    let root := Path.ofText "/srv/my site/".toList
    let interpreter : Interpreter :=
      { package := "pairs".toList, entry := "././a//b/./c.js".toList }
    let package : ReservedPackage :=
      { root, name := interpreter.package, entry := interpreter.entry }
    ∃ found, FileUrl.toPath? package.url = some found ∧
      Path.normalize found = Path.ofText "/srv/my site/a/b/c.js".toList := by
  intro root interpreter package
  have hroot : Path.isAbsolute root = true := by decide
  have hchecked : Settings.interpreterProblems interpreter = [] := by decide
  obtain ⟨found, hread, hwritten, -⟩ := toPath?_url hroot hchecked
  have hentry : ¬ Path.HidesRoot interpreter.entry := by
    rw [← Path.isAbsolute_ofEntry]
    decide
  have hdrive : ¬ MeetsDrive (Path.join root (Path.ofText interpreter.entry)) :=
    FileUrl.readNames_eq_iff.1 (by decide +kernel)
  refine ⟨found, hread, ((hwritten hentry).1.2 hdrive).trans ?_⟩
  decide +kernel

/-- **An entry that passes the check, and hides its root**: it has no two dots, and its URL leads
out of the root. -/
theorem toPath?_url_hidden :
    let root := Path.ofText "/r".toList
    let interpreter : Interpreter := { package := "p".toList, entry := ".//i.js".toList }
    let package : ReservedPackage :=
      { root, name := interpreter.package, entry := interpreter.entry }
    let entry := Path.ofText interpreter.entry
    let found := Path.ofText "/i.js".toList
    Settings.interpreterProblems interpreter = [] ∧ .up ∉ Path.components entry ∧
      package.url = "file:///i.js".toList ∧ FileUrl.toPath? package.url = some found ∧
      Path.normalize found ≠ Path.normalize (Path.join root entry) ∧
      ¬ Path.normalizedNames root <+: Path.normalizedNames found := by
  decide +kernel

end Lectern.Import.ReservedPackage
