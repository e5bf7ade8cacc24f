import Lectern.Settings.Load
import Mathlib.Control.Monad.Basic

/-!
# Validity of Loaded Settings

Settings are checked once, when their file has been read, its references have been replaced and its
paths resolved. The defaults need no check, and what is asked for on the command line comes after
it. Directories cannot be wrong, but the name of the document can, so it is the only problem that
loaded settings may have.

## Main results

* `problems_of_load`: the problems of loaded settings are those of the name that is asked for.
* `load_unchecked`: settings that are loaded although a file with the same name is refused.
-/

namespace Lectern.Settings

variable {here : Surroundings} {environment : Environment} {settings : Settings}

/-! ### The parts of the check -/

/-- Whether a text can be the **name of a document**: it has no blanks, and is not empty. -/
def IsDocId (docId : Text) : Prop := docId ≠ [] ∧ ∀ c ∈ docId, Unicode.isBlank c = false

/-- A name for the document has no problem if it can be one. -/
theorem docIdProblem_eq_nil_iff {docId : Option Text} :
    docIdProblem docId = [] ↔ ∀ name ∈ docId, IsDocId name := by
  cases docId <;> simp [docIdProblem, IsDocId]

/-- Settings are valid if none of their parts has a problem. -/
theorem isValid_iff : settings.IsValid ↔
    emptyProblem .title settings.site.title = [] ∧ docIdProblem settings.docId = [] ∧
      macrosProblem settings.macros = [] ∧ componentProblems settings.components = [] ∧
      interpreterProblems settings.interpreter = [] := by
  simp only [IsValid, problems, List.append_eq_nil_iff, and_assoc]

/-! ### Where settings come from -/

/-- The check lets valid settings through, and nothing else. -/
theorem check_eq_ok_iff {checked : Settings} :
    check settings = .ok checked ↔ settings.IsValid ∧ settings = checked := by
  unfold check
  split
  next hnone => simp [IsValid, hnone]
  next problem rest hsome => simp [IsValid, hsome]

/-- The defaults are valid, wherever their directories lie. -/
theorem isValid_inDirectory (base : Path) : (inDirectory base).IsValid := rfl

/-- **Settings from a text** are valid, whatever its references stand for. -/
theorem isValid_of_ofText {file : Path} {s : Text}
    (h : ofText environment file s = .ok settings) : settings.IsValid := by
  unfold ofText at h
  cases hdraft : Draft.parse? s with
  | none => simp [hdraft] at h
  | some draft =>
    rw [hdraft] at h
    cases hexpanded : draft.expand environment with
    | error problem => simp [hexpanded, bind, Except.bind] at h
    | ok expanded =>
      simp only [hexpanded, bind, Except.bind] at h
      obtain ⟨hvalid, rfl⟩ := check_eq_ok_iff.1 h
      exact hvalid

/-- Settings from a file are valid, as the text in it is what counts. -/
theorem isValid_of_readFile {p : Path} (h : readFile here p = .ok settings) :
    settings.IsValid := by
  unfold readFile at h
  split at h
  next => cases h
  next file habsolute =>
    split at h
    next => cases h
    next s hread => exact isValid_of_ofText h

/-- **Settings that are found** are valid, in the file that is asked for, in the closest one, and
without a file. -/
theorem isValid_of_locate {file : Option Path} (h : locate here file = .ok settings) :
    settings.IsValid := by
  unfold locate at h
  split at h
  next p =>
    split at h
    next => exact isValid_of_readFile h
    next => cases h
  next =>
    split at h
    next p hdiscovered => exact isValid_of_readFile h
    next hnone =>
      obtain rfl := Except.ok.inj h
      exact isValid_inDirectory _

/-! ### What is asked for -/

/-- **Nothing else can go wrong** when valid settings are changed as asked for. -/
theorem problems_override (overrides : Overrides) (h : settings.IsValid) :
    (override overrides settings).problems = docIdProblem overrides.docId := by
  obtain ⟨htitle, hdocId, hmacros, hcomponents, hinterpreter⟩ := isValid_iff.1 h
  simp only [override, problems, htitle, hmacros, hcomponents, hinterpreter, List.nil_append,
    List.append_nil]
  cases overrides.docId with
  | none => simpa [docIdProblem] using hdocId
  | some docId => rfl

/-- **Loaded settings are found settings**, changed as asked for. The found ones are valid; the
loaded ones have the problems of the name that is asked for, so they are valid unless that name is
empty or has a blank. -/
theorem problems_of_load {file : Option Path} {overrides : Overrides}
    (h : load here file overrides = .ok settings) :
    (∃ found, locate here file = .ok found ∧ found.IsValid ∧
      settings = override overrides found) ∧
    settings.problems = docIdProblem overrides.docId ∧
    (settings.IsValid ↔ ∀ docId ∈ overrides.docId, IsDocId docId) := by
  unfold load at h
  cases hfound : locate here file with
  | error problem => simp [hfound, Except.map] at h
  | ok found =>
    rw [hfound] at h
    obtain rfl := Except.ok.inj h
    have hvalid := isValid_of_locate hfound
    have hproblems := problems_override overrides hvalid
    refine ⟨⟨found, rfl, hvalid, rfl⟩, hproblems, ?_⟩
    rw [IsValid, hproblems, docIdProblem_eq_nil_iff]

/-- A working directory with a settings file in the directory above it. -/
def settingsAbove (content : String) : Surroundings where
  tree := ⟨[
    (["site"].map (Path.ofText ·.toList), .directory),
    (["lamdocs.toml"].map (Path.ofText ·.toList), .file (Text.encode content.toList))]⟩
  workingDirectory := Path.ofText "/site".toList
  environment := fun name => if name = "TITLE".toList then some "λ".toList else none

/-- Settings for a document, from a file above the working directory. -/
def settingsFrom (site : Site) (docId : String) : Settings where
  site
  directories := { source := Path.ofText "/docs".toList, output := Path.ofText "/dist".toList }
  docId := some docId.toList
  file := some (Path.ofText "/lamdocs.toml".toList)

/-- Settings whose title comes from the environment, and whose name for the document is replaced. -/
theorem problems_of_load_environment :
    load (settingsAbove "site.title = '$\x7bTITLE\x7d'\nmarkdown.doc_id = 'a'") none
      { docId := some "b".toList } = .ok (settingsFrom { title := "λ".toList } "b") ∧
    (settingsFrom { title := "λ".toList } "b").IsValid := by
  have hload : load (settingsAbove "site.title = '$\x7bTITLE\x7d'\nmarkdown.doc_id = 'a'") none
      { docId := some "b".toList } = .ok (settingsFrom { title := "λ".toList } "b") := by
    decide +kernel
  obtain ⟨-, -, hvalid⟩ := problems_of_load hload
  exact ⟨hload, hvalid.2 (docIdProblem_eq_nil_iff.1 (by decide))⟩

/-- **A name that a file may not give** is taken from the command line, and the settings that are
loaded with it are not valid. -/
theorem load_unchecked :
    load (settingsAbove "markdown.doc_id = 'two words'") none {} = .error (.invalid .blankDocId) ∧
    load (settingsAbove "") none { docId := some "two words".toList } =
      .ok (settingsFrom {} "two words") ∧
    ¬ (settingsFrom {} "two words").IsValid := by
  decide +kernel

end Lectern.Settings
