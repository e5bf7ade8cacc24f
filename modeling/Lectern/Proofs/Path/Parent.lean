import Lectern.Proofs.Path.Normal
import Mathlib.Data.List.Induction

/-!
# Paths of Names

The working directory of a program is a path of names from the root. Its parent is that of the names
before the last, a name in it is one more, and it is the same path for a program that works
elsewhere: nothing that is found from such a path depends on where the program works.

## Main results

* `parent?_ofNames`: the parent of a path of names.
* `absolute?_ofNames`: a path of names is the same from any working directory.
-/

namespace Lectern.Path

variable {names : List Bytes} {name : Bytes}

/-- A path of names is absolute. -/
theorem isAbsolute_ofNames (names : List Bytes) : isAbsolute (ofNames true names) = true :=
  isAbsolute_iff.2 ⟨_, rfl⟩

/-- A path of names has each of them behind a slash. -/
theorem flatMap_slash {parts : List Bytes} (hne : parts ≠ []) :
    parts.flatMap (slash :: ·) = ofNames true parts := by
  induction parts with
  | nil => exact absurd rfl hne
  | cons first parts ih =>
    cases parts with
    | nil => simp [ofNames, ofSegments]
    | cons second parts =>
      rw [List.flatMap_cons, ih (by simp)]
      simp [ofNames, ofSegments]

/-- The segments of a path of names: the names, behind an empty one for the root. -/
theorem segments_ofNames (hne : names ≠ []) (hnames : ∀ name ∈ names, IsName name) :
    segments (ofNames true names) = [] :: names := by
  have hparts : segments (ofSegments names) = names :=
    segments_ofSegments hne fun name hmem => (hnames name hmem).slash_not_mem
  simp [ofNames, segments, hparts]

/-- No segment that is a name is silent. -/
theorem IsName.isSilent_eq_false (h : IsName name) : isSilent name = false := by
  simp [isSilent, h.ne_nil, h.ne_dot]

/-- Names at the end are not trimmed. -/
theorem trimmedSegments_names (hnames : ∀ name ∈ names, IsName name) :
    trimmedSegments ([] :: names) = [] :: names := by
  rcases names.eq_nil_or_concat' with rfl | ⟨before, last, rfl⟩
  · rfl
  · have hlast := (hnames last (by simp)).isSilent_eq_false
    simp [trimmedSegments, hlast]

/-- Names behind the root, as segments of a path. -/
theorem ofTrimmed_names (names : List Bytes) : ofTrimmed ([] :: names) = ofNames true names := by
  cases names with
  | nil => rfl
  | cons first rest => simp [ofTrimmed, ofNames, ofSegments]

/-- **The parent** of a path of names is that of the names before the last. -/
theorem parent?_ofNames (hnames : ∀ part ∈ names ++ [name], IsName part) :
    parent? (ofNames true (names ++ [name])) = some (ofNames true names) := by
  have hbefore : ∀ name ∈ names, IsName name := (List.forall_mem_append.1 hnames).1
  have hdrop : ([] :: (names ++ [name])).dropLast = [] :: names := by
    rw [← List.cons_append, List.dropLast_concat]
  unfold parent?
  simp only [segments_ofNames (by simp) hnames, trimmedSegments_names hnames, hdrop,
    trimmedSegments_names hbefore, ofTrimmed_names]
  simp

/-- Names are put together one by one. -/
theorem foldl_join_names (hnames : ∀ name ∈ names, IsName name) :
    (names.map Component.name).foldl (fun base c => join base c.bytes) [slash] =
      ofNames true names := by
  induction names using List.reverseRecOn with
  | nil => rfl
  | append_singleton names name ih =>
    obtain ⟨hbefore, hname⟩ := List.forall_mem_append.1 hnames
    rw [List.map_append, List.foldl_append, ih hbefore]
    exact join_ofNames hbefore (List.forall_mem_singleton.1 hname)

/-- **A path of names is the same** from any working directory. -/
theorem absolute?_ofNames (hne : names ≠ []) (hnames : ∀ name ∈ names, IsName name) (cwd : Path) :
    absolute? cwd (ofNames true names) = some (ofNames true names) := by
  have hsteps : (components (ofNames true names)).filter (fun c => c != .root && c != .here) =
      names.map .name := by
    rw [components_ofNames hnames]
    simp
  have hslash : ((ofNames true names).takeWhile (· = slash)).length ≠ 2 := by
    obtain ⟨first, rest, rfl⟩ := List.exists_cons_of_ne_nil hne
    obtain ⟨b, more, rfl⟩ := List.exists_cons_of_ne_nil (hnames first (by simp)).ne_nil
    have hb : b ≠ slash := fun h =>
      (hnames (b :: more) (by simp)).slash_not_mem (h ▸ List.mem_cons_self)
    cases rest <;> simp [ofNames, ofSegments, hb]
  have hend : (ofNames true names).getLast? ≠ some slash := by
    obtain ⟨before, last, rfl⟩ := names.eq_nil_or_concat'.resolve_left hne
    exact getLast?_ofNames_concat (hnames last (by simp)) before
  have hnonempty : ofNames true names ≠ [] := by simp [ofNames]
  unfold absolute?
  simp only [if_neg hnonempty, hsteps, isAbsolute_ofNames, if_neg hslash, if_neg hend]
  simp [foldl_join_names hnames]

end Lectern.Path
