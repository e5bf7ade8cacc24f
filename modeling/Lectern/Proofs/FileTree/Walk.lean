import Lectern.FileTree
import Lectern.Proofs.Path.Normal

/-!
# Walking along Paths

Where a path leads is settled segment by segment, so a path that is seen from a directory goes on
where the path of the directory has led.

## Main results

* `walk_append`: the segments of a path, in two parts.
* `exists_segments_join`: the segments of a path that is seen from a directory.
* `exists_locate_here`: where it leads, from where a dot leads.
-/

namespace Lectern.FileTree

variable {tree : FileTree} {location next : Location} {segment : Bytes}

/-- A step that leads anywhere starts in a directory. -/
theorem entry?_of_step (h : tree.step location segment = .ok next) :
    tree.entry? location = some .directory := by
  unfold step at h
  split at h
  · assumption
  all_goals cases h

/-- A step of a name leads to an entry of the directory. -/
theorem step_eq_ok_iff (hname : Path.IsName segment) : tree.step location segment = .ok next ↔
    tree.entry? location = some .directory ∧ segment.length ≤ maxName ∧
      (tree.entry? (location ++ [segment])).isSome = true ∧ next = location ++ [segment] := by
  have hsilent : Path.isSilent segment = false := by
    simp [Path.isSilent, hname.ne_nil, hname.ne_dot]
  unfold step
  cases tree.entry? location with
  | none => simp
  | some entry =>
    cases entry with
    | file content => simp
    | directory =>
      simp only [hsilent, Bool.false_eq_true, if_false, hname.ne_dots, true_and]
      by_cases hlong : maxName < segment.length
      · simp [hlong, Nat.not_le.2 hlong]
      · by_cases hentry : (tree.entry? (location ++ [segment])).isSome = true
        · simp [hlong, hentry, Nat.not_lt.1 hlong, eq_comm]
        · simp [hlong, hentry]

/-- **Two parts of a way** are walked one after the other. -/
theorem walk_append (tree : FileTree) (location : Location) (first second : List Bytes) :
    tree.walk location (first ++ second) =
      (tree.walk location first).bind (tree.walk · second) := by
  induction first generalizing location with
  | nil => rfl
  | cons segment first ih =>
    simp only [List.cons_append, walk]
    cases tree.step location segment with
    | error fault => rfl
    | ok next => exact ih next

/-- A directory that is left along segments is a directory. -/
theorem entry?_of_walk {segments : List Bytes} (hne : segments ≠ [])
    (h : tree.walk location segments = .ok next) : tree.entry? location = some .directory := by
  obtain ⟨segment, rest, rfl⟩ := List.exists_cons_of_ne_nil hne
  rw [walk] at h
  split at h
  · next hstep => exact entry?_of_step hstep
  · cases h

end Lectern.FileTree

namespace Lectern.Path

/-- **The segments of a relative path** follow those of the directory from which it is seen, but for
an empty one at its end. -/
theorem exists_segments_join (base : Path) : ∃ front,
    (∀ p, isAbsolute p = false → segments (join base p) = front ++ segments p) ∧
      (base ≠ [] → segments base = front ∨ segments base = front ++ [[]]) := by
  by_cases hbase : base = []
  · exact ⟨[], fun p hp => by simp [join, hp, hbase], absurd hbase⟩
  by_cases hslash : base.getLast? = some slash
  · obtain ⟨front, rfl⟩ := List.getLast?_eq_some_iff.1 hslash
    refine ⟨segments front, fun p hp => ?_, fun _ => .inr ?_⟩
    · simp [join, hp, segments_eq_splitOn, List.splitOn_append_cons_self]
    · simp [segments_eq_splitOn, List.splitOn_append_cons_self]
  · refine ⟨segments base, fun p hp => ?_, fun _ => .inl rfl⟩
    simp [join, hp, hbase, hslash, segments_eq_splitOn, List.splitOn_append_cons_self]

end Lectern.Path

namespace Lectern.FileTree

variable {tree : FileTree} {location : Location} {base p : Path}

/-- There is a segment before the first slash. -/
theorem segments_ne_nil (p : Path) : Path.segments p ≠ [] := by
  rw [Path.segments_eq_splitOn]
  exact List.splitOn_ne_nil _ _

/-- An absolute path is walked along its segments. -/
theorem walk_of_locate (h : tree.locate p = .ok location) :
    p ≠ [] ∧ isUsable p = true ∧ tree.walk [] (Path.segments p) = .ok location := by
  unfold locate at h
  split at h
  · cases h
  · split at h
    · exact ⟨‹_›, ‹_›, h⟩
    · cases h

/-- What a path leads to stands at a location. -/
theorem exists_locate_of_find {entry : Entry} (h : tree.find p = .ok entry) :
    ∃ location, tree.locate p = .ok location ∧ tree.entry? location = some entry := by
  unfold find at h
  split at h
  · next location hlocation =>
    refine ⟨location, hlocation, ?_⟩
    cases hentry : tree.entry? location with
    | none => simp [hentry] at h
    | some found => simpa [hentry] using h
  · cases h

/-- What is left of a usable path is usable. -/
theorem isUsable_join_here (hp : Path.isAbsolute p = false) (hne : p ≠ [])
    (h : isUsable (Path.join base p) = true) : isUsable (Path.join base [Path.dot]) = true := by
  have hlength : 0 < p.length := List.length_pos_iff.2 hne
  have hdot : Path.isAbsolute [Path.dot] = false := rfl
  simp only [isUsable, Bool.and_eq_true, decide_eq_true_eq, Bool.not_eq_true',
    List.contains_eq_mem, decide_eq_false_iff_not] at h ⊢
  unfold Path.join at h ⊢
  rw [if_neg (by simp [hp])] at h
  rw [if_neg (by simp [hdot])]
  split at h
  · next hbase =>
    rw [if_pos hbase]
    simp only [List.length_append, List.mem_append, not_or] at h ⊢
    exact ⟨by simp; omega, h.2.1, by decide⟩
  · next hbase =>
    rw [if_neg hbase]
    simp only [List.length_append, List.length_cons, List.mem_append, List.mem_cons,
      not_or] at h ⊢
    exact ⟨by simp; omega, h.2.1, by decide⟩

/-- The working directory is where a dot leads, if anything that is seen from it is there. -/
theorem exists_locate_here (hp : Path.isAbsolute p = false) (hne : p ≠ [])
    (h : tree.locate (Path.join base p) = .ok location) : ∃ here,
    tree.locate (Path.join base [Path.dot]) = .ok here ∧
      tree.walk here (Path.segments p) = .ok location := by
  obtain ⟨front, hfront, -⟩ := Path.exists_segments_join base
  obtain ⟨-, husable, hwalk⟩ := walk_of_locate h
  rw [hfront p hp, walk_append] at hwalk
  cases hhere : tree.walk [] front with
  | error fault =>
    rw [hhere] at hwalk
    cases hwalk
  | ok here =>
    rw [hhere] at hwalk
    have hdirectory := entry?_of_walk (segments_ne_nil p) hwalk
    have hdot : Path.join base [Path.dot] ≠ [] := by
      unfold Path.join
      split
      · simp
      · split <;> simp
    refine ⟨here, ?_, hwalk⟩
    rw [locate, if_neg hdot, if_pos (isUsable_join_here hp hne husable), hfront _ rfl, walk_append,
      hhere]
    show tree.walk here [[Path.dot]] = .ok here
    simp [walk, step, hdirectory, Path.isSilent]

end Lectern.FileTree
