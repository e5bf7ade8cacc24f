import Lectern.FileTree.Listing
import Lectern.Proofs.Path.Normal
import Mathlib.Data.List.Induction
import Mathlib.Data.List.Nodup
import Mathlib.Data.List.Flatten

/-!
# Proper File Trees

A file tree is **proper** if it could be one on a disk: each location has one entry, the names on
the way to it are names, and it stands in a directory. In such a tree nothing is missed by listing
directories: what stands below a directory is reached through the directories in it, and in one way
only.

## Main results

* `mem_names`: the names in a directory are those of its entries.
* `mem_directoriesBelow`: the ways to the directories below a directory.
* `nodup_directoriesBelow`: there is one way to each of them.
-/

namespace Lectern.FileTree

variable {tree : FileTree} {location directory : Location} {name : Bytes} {entry : Entry}

/-- Whether a tree is **proper**: one that can stand on a disk. -/
structure IsProper (tree : FileTree) : Prop where
  /-- No location has two entries. -/
  unique : (tree.entries.map (·.1)).Nodup
  /-- The way to an entry is one of names. -/
  isName : ∀ entry ∈ tree.entries, ∀ name ∈ entry.1, Path.IsName name
  /-- An entry stands in a directory. -/
  parent : ∀ location, (tree.entry? location).isSome = true →
    tree.entry? location.dropLast = some .directory

/-! ### Entries -/

/-- The root is a directory. -/
@[simp] theorem entry?_nil (tree : FileTree) : tree.entry? [] = some .directory := by
  unfold entry?
  exact if_pos rfl

/-- What stands at a location below the root is one of the entries. -/
theorem isSome_entry?_iff (hne : location ≠ []) :
    (tree.entry? location).isSome = true ↔ ∃ entry, (location, entry) ∈ tree.entries := by
  unfold entry?
  rw [if_neg hne, Option.isSome_map, List.find?_isSome]
  constructor
  · rintro ⟨⟨location', entry⟩, hmem, heq⟩
    exact ⟨entry, by rwa [← eq_of_beq heq]⟩
  · rintro ⟨entry, hmem⟩
    exact ⟨_, hmem, beq_self_eq_true location⟩

/-- **Proper trees** are known by their entries. -/
theorem isProper_iff : tree.IsProper ↔ (tree.entries.map (·.1)).Nodup ∧
    ∀ entry ∈ tree.entries, (∀ name ∈ entry.1, Path.IsName name) ∧
      tree.entry? entry.1.dropLast = some .directory := by
  constructor
  · intro htree
    refine ⟨htree.unique, fun entry hmem => ⟨htree.isName entry hmem, ?_⟩⟩
    by_cases hroot : entry.1 = []
    · simp [hroot]
    · exact htree.parent _ ((isSome_entry?_iff hroot).2 ⟨entry.2, hmem⟩)
  · rintro ⟨hunique, hentries⟩
    refine ⟨hunique, fun entry hmem => (hentries entry hmem).1, fun location h => ?_⟩
    by_cases hroot : location = []
    · simp [hroot]
    · obtain ⟨entry, hmem⟩ := (isSome_entry?_iff hroot).1 h
      exact (hentries _ hmem).2

instance (tree : FileTree) : Decidable tree.IsProper := decidable_of_iff' _ isProper_iff

/-- The names on the way to an entry are names. -/
theorem IsProper.isName_of_mem (htree : tree.IsProper)
    (h : (tree.entry? location).isSome = true) (hname : name ∈ location) : Path.IsName name := by
  by_cases hne : location = []
  · simp [hne] at hname
  · obtain ⟨entry, hmem⟩ := (isSome_entry?_iff hne).1 h
    exact htree.isName _ hmem name hname

/-- Everything on the way to an entry is a directory. -/
theorem IsProper.entry?_of_append (htree : tree.IsProper) {way : Location} (hway : way ≠ [])
    (h : (tree.entry? (location ++ way)).isSome = true) :
    tree.entry? location = some .directory := by
  induction way using List.reverseRecOn with
  | nil => exact absurd rfl hway
  | append_singleton way name ih =>
    have hparent := htree.parent _ h
    rw [← List.append_assoc, List.dropLast_concat] at hparent
    by_cases hempty : way = []
    · simpa [hempty] using hparent
    · exact ih hempty (by rw [hparent]; rfl)

/-! ### Directories -/

/-- The entries in a directory. -/
theorem nameIn?_eq_some_iff : nameIn? directory location = some name ↔
    location = directory ++ [name] := by
  unfold nameIn?
  constructor
  · intro h
    split at h
    · next hdirectory => rw [← hdirectory, List.dropLast_append_getLast? _ h]
    · cases h
  · rintro rfl
    simp

/-- **The names in a directory** are those of the entries in it. -/
theorem mem_names :
    name ∈ tree.names directory ↔ (tree.entry? (directory ++ [name])).isSome = true := by
  rw [isSome_entry?_iff (by simp), names, List.mem_filterMap]
  constructor
  · rintro ⟨⟨location, entry⟩, hmem, hname⟩
    exact ⟨entry, nameIn?_eq_some_iff.1 hname ▸ hmem⟩
  · rintro ⟨entry, hmem⟩
    exact ⟨_, hmem, nameIn?_eq_some_iff.2 rfl⟩

/-- No name is listed twice. -/
theorem IsProper.nodup_names (htree : tree.IsProper) (directory : Location) :
    (tree.names directory).Nodup := by
  have hnames : tree.names directory = (tree.entries.map (·.1)).filterMap (nameIn? directory) := by
    rw [FileTree.names, List.filterMap_map]
    rfl
  rw [hnames]
  refine htree.unique.filterMap fun first second found hfirst hsecond => ?_
  rw [nameIn?_eq_some_iff.1 hfirst, nameIn?_eq_some_iff.1 hsecond]

/-- No way is longer than the tree is deep. -/
theorem length_le_depth (h : (tree.entry? location).isSome = true) :
    location.length ≤ tree.depth := by
  by_cases hne : location = []
  · simp [hne]
  · obtain ⟨entry, hmem⟩ := (isSome_entry?_iff hne).1 h
    have hle : ∀ lengths : List Nat, ∀ n ∈ lengths, n ≤ lengths.foldr max 0 := by
      intro lengths n hn
      induction lengths with
      | nil => cases hn
      | cons m lengths ih =>
        rcases List.mem_cons.1 hn with rfl | hn
        · exact Nat.le_max_left _ _
        · exact Nat.le_trans (ih hn) (Nat.le_max_right _ _)
    exact hle _ _ (List.mem_map_of_mem (f := fun entry => entry.1.length) hmem)

/-- **The ways to the directories below a directory** are those of entries. -/
theorem IsProper.mem_directoriesBelow (htree : tree.IsProper) {depth : Nat} {way : Location}
    (hdirectory : tree.entry? directory = some .directory) :
    way ∈ tree.directoriesBelow depth directory ↔
      way.length ≤ depth ∧ tree.entry? (directory ++ way) = some .directory := by
  induction depth generalizing directory way with
  | zero => cases way <;> simp [directoriesBelow, hdirectory]
  | succ depth ih =>
    cases way with
    | nil => simp [directoriesBelow, hdirectory]
    | cons name way =>
      have hsplit : directory ++ name :: way = directory ++ [name] ++ way := by simp
      -- a way goes on below the first directory on it
      have hinside : name :: way ∈ tree.directoriesBelow (depth + 1) directory ↔
          tree.entry? (directory ++ [name]) = some .directory ∧
            way ∈ tree.directoriesBelow depth (directory ++ [name]) := by
        simp only [directoriesBelow, List.mem_cons, reduceCtorEq, false_or, List.mem_flatMap,
          List.mem_filter, decide_eq_true_eq, List.mem_map, List.cons.injEq]
        constructor
        · rintro ⟨_, ⟨-, hentry⟩, _, hway, rfl, rfl⟩
          exact ⟨hentry, hway⟩
        · rintro ⟨hentry, hway⟩
          exact ⟨name, ⟨mem_names.2 (by rw [hentry]; rfl), hentry⟩, way, hway, rfl, rfl⟩
      rw [hinside, hsplit]
      constructor
      · rintro ⟨hentry, hway⟩
        obtain ⟨hlength, hend⟩ := (ih hentry).1 hway
        exact ⟨Nat.succ_le_succ hlength, hend⟩
      · rintro ⟨hlength, hend⟩
        have hentry : tree.entry? (directory ++ [name]) = some .directory := by
          by_cases hempty : way = []
          · simpa [hempty] using hend
          · exact htree.entry?_of_append hempty (by rw [hend]; rfl)
        exact ⟨hentry, (ih hentry).2 ⟨Nat.le_of_succ_le_succ hlength, hend⟩⟩

/-- **There is one way** to each directory. -/
theorem IsProper.nodup_directoriesBelow (htree : tree.IsProper) (depth : Nat)
    (directory : Location) : (tree.directoriesBelow depth directory).Nodup := by
  induction depth generalizing directory with
  | zero => simp [directoriesBelow]
  | succ depth ih =>
    rw [directoriesBelow, List.nodup_cons]
    refine ⟨by simp, List.nodup_flatMap.2 ⟨fun name _ => ?_, ?_⟩⟩
    · exact (ih _).map fun _ _ h => (List.cons.inj h).2
    · refine ((htree.nodup_names directory).filter _).imp fun {first second} hne => ?_
      intro way hfirst hsecond
      obtain ⟨_, -, rfl⟩ := List.mem_map.1 hfirst
      obtain ⟨_, -, heq⟩ := List.mem_map.1 hsecond
      exact hne (List.cons.inj heq).1.symm

end Lectern.FileTree
