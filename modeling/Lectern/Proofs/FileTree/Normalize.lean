import Lectern.Proofs.FileTree.Walk
import Lectern.Proofs.Path.Absolute
import Lectern.Proofs.Path.Parent
import Mathlib.Data.List.Flatten

/-!
# Walking along Normalized Paths

A path without its dots is written differently, and yet leads to the same entry, if the path leads
to one at all: whatever two dots take back has been walked through before, so it is a directory
there. A path that leads nowhere may lead somewhere when its dots are resolved, for instance if it
goes through a missing directory and back.

## Main results

* `normalize_sublist`: a normalized path is what is left of the path.
* `eq_of_locate`: the location to which a path leads.
* `find_normalize`: the normalized path leads to the same entry.
-/

namespace Lectern.Path

variable {p : Path} {names stack : List Bytes} {steps : List Component}

/-! ### What is left of a path -/

/-- A component is written as the segment from which it is read. -/
theorem bytes_of_ofSegment? {segment : Bytes} {step : Component}
    (h : Component.ofSegment? segment = some step) : step.bytes = segment := by
  unfold Component.ofSegment? at h
  split at h
  · cases h
  · split at h
    · cases h
    · split at h
      · next hdots =>
        obtain rfl := Option.some.inj h
        exact hdots.symm
      · obtain rfl := Option.some.inj h
        rfl

/-- The segments that are components are some of the segments. -/
theorem map_bytes_filterMap_sublist (segments : List Bytes) :
    ((segments.filterMap Component.ofSegment?).map Component.bytes).Sublist segments := by
  induction segments with
  | nil => exact List.Sublist.slnil
  | cons segment segments ih =>
    cases hstep : Component.ofSegment? segment with
    | none =>
      rw [List.filterMap_cons_none hstep]
      exact ih.cons segment
    | some step =>
      rw [List.filterMap_cons_some hstep, List.map_cons, bytes_of_ofSegment? hstep]
      exact ih.cons_cons segment

/-- The names that are left behind steps are some of those before, and some of the steps. -/
theorem foldl_normalizeStep_sublist (steps : List Component) (stack : List Bytes) :
    (steps.foldl normalizeStep stack).reverse.Sublist
      (stack.reverse ++ steps.map Component.bytes) := by
  induction steps generalizing stack with
  | nil => simp
  | cons step steps ih =>
    refine (ih (normalizeStep stack step)).trans ?_
    rw [List.map_cons]
    cases step with
    | root | here => exact (List.sublist_cons_self _ _).append_left stack.reverse
    | up =>
      exact (List.tail_sublist stack).reverse.append (List.sublist_cons_self _ _)
    | name bytes => simp [normalizeStep, Component.bytes]

/-- A path has each of its segments behind a slash, but for the first. -/
theorem flatMap_segments (rest : Path) : (segments rest).flatMap (slash :: ·) = slash :: rest := by
  induction rest with
  | nil => rfl
  | cons b rest ih =>
    unfold segments
    split
    · next hb => rw [List.flatMap_cons, ih, hb]; rfl
    · cases hsegments : segments rest with
      | nil => simp [hsegments] at ih
      | cons first more => simpa [hsegments] using ih

/-- **A normalized path** is what is left of the path. -/
theorem normalize_sublist (hp : isAbsolute p = true) : (normalize p).Sublist p := by
  obtain ⟨rest, rfl⟩ := isAbsolute_iff.1 hp
  have hnames : (normalizedNames (slash :: rest)).Sublist (segments rest) := by
    rw [normalizedNames, components_slash_cons, List.foldl_cons]
    exact (foldl_normalizeStep_sublist _ []).trans (map_bytes_filterMap_sublist _)
  rw [normalize, hp]
  by_cases hne : normalizedNames (slash :: rest) = []
  · rw [hne]
    exact (List.nil_sublist rest).cons_cons slash
  · have hwhole := hnames.flatMap (slash :: ·)
    rwa [flatMap_slash hne, flatMap_segments] at hwhole

end Lectern.Path

namespace Lectern.FileTree

variable {tree : FileTree} {location next : Location} {p : Path} {entry : Entry}

/-! ### Walking without dots -/

/-- Whether a location, and all above it, is **reached** by the names on the way. -/
def IsReached (tree : FileTree) (location : Location) : Prop :=
  ∀ front, front <+: location → tree.walk [] front = .ok front

/-- **The ways of a step**: it stays, goes up, or goes to an entry. -/
theorem eq_of_step {segment : Bytes} (h : tree.step location segment = .ok next) :
    Path.Component.ofSegment? segment = none ∧ next = location ∨
      Path.Component.ofSegment? segment = some .up ∧ next = location.dropLast ∨
      Path.Component.ofSegment? segment = some (.name segment) ∧ next = location ++ [segment] := by
  unfold step at h
  split at h
  · split at h
    · next hsilent =>
      refine .inl ⟨?_, (Except.ok.inj h).symm⟩
      rcases (by simpa [Path.isSilent] using hsilent) with rfl | rfl <;> decide
    · next hsilent =>
      obtain ⟨hnil, hdot⟩ : segment ≠ [] ∧ segment ≠ [Path.dot] := by
        simpa [Path.isSilent] using hsilent
      split at h
      · next hdots => exact .inr (.inl ⟨by rw [hdots]; decide, (Except.ok.inj h).symm⟩)
      · next hdots =>
        refine .inr (.inr ⟨by simp [Path.Component.ofSegment?, hnil, hdot, hdots], ?_⟩)
        split at h
        · cases h
        · split at h
          · exact (Except.ok.inj h).symm
          · cases h
  all_goals cases h

/-- What is above a reached location is reached. -/
theorem IsReached.of_prefix {above : Location} (h : tree.IsReached location)
    (habove : above <+: location) : tree.IsReached above :=
  fun front hfront => h front (hfront.trans habove)

/-- **A step from a reached location** leads to a reached one. -/
theorem IsReached.step {segment : Bytes} (h : tree.IsReached location)
    (hstep : tree.step location segment = .ok next) : tree.IsReached next := by
  have hwalk : tree.walk [] (location ++ [segment]) = .ok next := by
    rw [walk_append, h location List.prefix_rfl]
    simp [Except.bind, walk, hstep]
  rcases eq_of_step hstep with ⟨-, rfl⟩ | ⟨-, rfl⟩ | ⟨-, rfl⟩
  · exact h
  · exact h.of_prefix (List.dropLast_prefix location)
  · intro front hfront
    rcases List.prefix_concat_iff.1 hfront with rfl | hfront
    · exact hwalk
    · exact h front hfront

/-- The root is reached. -/
theorem isReached_nil (tree : FileTree) : tree.IsReached [] := by
  intro front hfront
  rw [List.prefix_nil.1 hfront]
  rfl

/-- A step leads to the names that are left, and the way goes on from these. -/
theorem exists_names_of_step {stack : List Bytes} {segment : Bytes}
    (h : tree.step stack.reverse segment = .ok next) (segments : List Bytes) :
    ∃ names : List Bytes, next = names.reverse ∧
      ((segment :: segments).filterMap Path.Component.ofSegment?).foldl Path.normalizeStep stack =
        (segments.filterMap Path.Component.ofSegment?).foldl Path.normalizeStep names := by
  rcases eq_of_step h with ⟨hnone, rfl⟩ | ⟨hup, rfl⟩ | ⟨hname, rfl⟩
  · exact ⟨stack, rfl, by rw [List.filterMap_cons_none hnone]⟩
  · refine ⟨stack.tail, by simp, ?_⟩
    rw [List.filterMap_cons_some hup]
    rfl
  · refine ⟨segment :: stack, by simp, ?_⟩
    rw [List.filterMap_cons_some hname]
    rfl

/-- **A walk from a reached location** leads to a reached one: that of the names that are left. -/
theorem IsReached.walk {stack segments : List Bytes} (h : tree.IsReached stack.reverse)
    (hwalk : tree.walk stack.reverse segments = .ok next) :
    next = ((segments.filterMap Path.Component.ofSegment?).foldl Path.normalizeStep stack).reverse ∧
      tree.IsReached next := by
  induction segments generalizing stack with
  | nil =>
    obtain rfl := Except.ok.inj hwalk
    exact ⟨rfl, h⟩
  | cons segment segments ih =>
    rw [FileTree.walk] at hwalk
    cases hstep : tree.step stack.reverse segment with
    | error fault => simp [hstep] at hwalk
    | ok middle =>
      rw [hstep] at hwalk
      have hmiddle := h.step hstep
      obtain ⟨names, rfl, hfold⟩ := exists_names_of_step hstep segments
      rw [hfold]
      exact ih hmiddle hwalk

/-- What is left of a usable path is usable. -/
theorem isUsable_of_sublist {q : Path} (hq : q.Sublist p) (h : isUsable p = true) :
    isUsable q = true := by
  simp only [isUsable, Bool.and_eq_true, decide_eq_true_eq, Bool.not_eq_true',
    List.contains_eq_mem, decide_eq_false_iff_not] at h ⊢
  exact ⟨hq.length_le.trans h.1, fun hmem => h.2 (hq.subset hmem)⟩

/-- **The location of a path** is spelled by its names, without dots, and is reached. -/
theorem eq_of_locate (hp : Path.isAbsolute p = true) (h : tree.locate p = .ok location) :
    location = Path.normalizedNames p ∧ tree.IsReached location := by
  obtain ⟨-, -, hwalk⟩ := walk_of_locate h
  obtain ⟨rest, rfl⟩ := Path.isAbsolute_iff.1 hp
  have hempty : Path.Component.ofSegment? [] = none := rfl
  have hroot : tree.IsReached ([] : List Bytes).reverse := isReached_nil tree
  obtain ⟨hlocation, hreached⟩ := hroot.walk hwalk
  refine ⟨hlocation.trans ?_, hreached⟩
  rw [Path.segments_slash_cons, List.filterMap_cons_none hempty, Path.normalizedNames,
    Path.components_slash_cons]
  rfl

/-- **A path leads to the location** to which it leads without its dots. -/
theorem locate_normalize (hp : Path.isAbsolute p = true) (h : tree.locate p = .ok location) :
    tree.locate (Path.normalize p) = .ok location := by
  obtain ⟨-, husable, -⟩ := walk_of_locate h
  obtain ⟨rfl, hreached⟩ := eq_of_locate hp h
  have hwalk : tree.walk [] (Path.segments (Path.normalize p)) =
      .ok (Path.normalizedNames p) := by
    rw [Path.normalize, hp]
    by_cases hne : Path.normalizedNames p = []
    · rw [hne]
      rfl
    · rw [Path.segments_ofNames hne Path.isName_of_mem_normalizedNames]
      exact hreached _ List.prefix_rfl
  have hnonempty : Path.normalize p ≠ [] := by
    rw [Path.normalize, hp]
    exact List.cons_ne_nil _ _
  rw [locate, if_neg hnonempty, if_pos (isUsable_of_sublist (Path.normalize_sublist hp) husable),
    hwalk]

/-- **A path leads to the entry** to which it leads without its dots. -/
theorem find_normalize (hp : Path.isAbsolute p = true) (h : tree.find p = .ok entry) :
    tree.find (Path.normalize p) = .ok entry := by
  obtain ⟨location, hlocate, hentry⟩ := exists_locate_of_find h
  simp [find, locate_normalize hp hlocate, hentry]

/-- A directory is a directory without the dots of its path. -/
theorem isDirectory_normalize (hp : Path.isAbsolute p = true) (h : tree.isDirectory p = true) :
    tree.isDirectory (Path.normalize p) = true := by
  unfold isDirectory at h
  split at h
  · next hfind => rw [isDirectory, find_normalize hp hfind]
  · cases h

/-- A directory is no file. -/
theorem isFile_eq_false_of_isDirectory (h : tree.isDirectory p = true) : tree.isFile p = false := by
  unfold isDirectory at h
  split at h
  · next hfind => rw [isFile, hfind]
  · cases h

end Lectern.FileTree
