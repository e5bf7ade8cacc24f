import Mathlib.Logic.Relation
import Lectern.FileTree.Writing
import Lectern.Proofs.FileTree.Listing
import Lectern.Proofs.FileTree.Walk

/-!
# What Writing Changes

Writing adds to a tree: directories stay where they are, nothing gets lost, and a file gets a new
content only where one is written. So a path leads where it led before, and a file that has been
written is read back until another one is written in its place.

## Main results

* `GrowsAt.locate`: a path that leads anywhere leads there after the tree has grown.
* `growsAt_write`: a new file is the only change, and its path leads to it.
* `growsAt_of_reflTransGen`: new directories change no file.
* `reflTransGen_of_makeChain`: the directories that a path needs are made one after the other.
* `IsProper.plantFile`: trees that are planted are proper.
-/

namespace Lectern.FileTree

variable {tree before between after next : FileTree} {location other : Location} {entry : Entry}
  {written more : Location → Prop} {p : Path} {content : Bytes}

/-! ### Files -/

/-- The **content** of the file at a location, if there is one. -/
def content? (tree : FileTree) (location : Location) : Option Bytes :=
  match tree.entry? location with
  | some (.file content) => some content
  | _ => none

/-- A file is where it has a content. -/
theorem content?_eq_some_iff :
    tree.content? location = some content ↔ tree.entry? location = some (.file content) := by
  unfold content?
  split
  · next found hentry => simp [hentry]
  · next hnot =>
    simp only [reduceCtorEq, false_iff]
    exact hnot content

/-- What is read is the content of the file to which the path leads. -/
theorem read_eq_ok_iff : tree.read p = .ok content ↔
    ∃ location, tree.locate p = .ok location ∧ tree.content? location = some content := by
  simp only [content?_eq_some_iff]
  constructor
  · intro h
    unfold read at h
    split at h
    · next found hfind =>
      obtain ⟨location, hlocate, hentry⟩ := exists_locate_of_find hfind
      exact ⟨location, hlocate, Except.ok.inj h ▸ hentry⟩
    all_goals cases h
  · rintro ⟨location, hlocate, hentry⟩
    simp [read, find, hlocate, hentry]

/-- Where a new entry is found. -/
theorem lookup_set (hne : location ≠ []) : FileTree.entry? (tree.set location entry) other =
    if other = location then some entry else tree.entry? other := by
  by_cases hroot : other = []
  · rw [hroot, entry?_nil, entry?_nil, if_neg (Ne.symm hne)]
  unfold entry?
  rw [if_neg hroot, if_neg hroot, set]
  by_cases hother : other = location
  · simp [hother]
  · rw [if_neg hother, List.find?_cons_of_neg (by simpa using Ne.symm hother), List.find?_filter]
    congr 2
    funext e
    by_cases he : e.1 = other
    · simp [he, hother]
    · simp [he]

/-- A new entry in a directory, where no directory is, leaves a tree proper. -/
theorem IsProper.set (htree : tree.IsProper) {parent : Location} {name : Bytes}
    (hname : Path.IsName name) (hparent : tree.entry? parent = some .directory)
    (hnot : tree.entry? (parent ++ [name]) ≠ some .directory) :
    (tree.set (parent ++ [name]) entry).IsProper := by
  have hne : parent ++ [name] ≠ [] := by simp
  have hparentNe : parent ≠ parent ++ [name] := by simp
  refine ⟨?_, fun e hmem other hother => ?_, fun other h => ?_⟩
  · rw [FileTree.set, List.map_cons, List.nodup_cons]
    refine ⟨fun hmem => ?_, htree.unique.sublist (List.filter_sublist.map _)⟩
    obtain ⟨e, he, heq⟩ := List.mem_map.1 hmem
    simpa [heq] using (List.mem_filter.1 he).2
  · rcases List.mem_cons.1 hmem with rfl | hmem
    · rcases List.mem_append.1 hother with hother | hother
      · exact htree.isName_of_mem (by rw [hparent]; rfl) hother
      · exact List.mem_singleton.1 hother ▸ hname
    · exact htree.isName e (List.mem_filter.1 hmem).1 other hother
  · rw [lookup_set hne] at h ⊢
    by_cases heq : other = parent ++ [name]
    · rw [heq, List.dropLast_concat, if_neg hparentNe, hparent]
    · rw [if_neg heq] at h
      have hdirectory := htree.parent other h
      have hdrop : other.dropLast ≠ parent ++ [name] := fun hdrop => hnot (hdrop ▸ hdirectory)
      rw [if_neg hdrop, hdirectory]

/-! ### Growing -/

/-- Whether a tree has **grown** to another one: directories stay, nothing gets lost, and files
have changed at the `written` locations only. -/
structure GrowsAt (written : Location → Prop) (before after : FileTree) : Prop where
  directory : ∀ location, before.entry? location = some .directory →
    after.entry? location = some .directory
  kept : ∀ location, (before.entry? location).isSome = true →
    (after.entry? location).isSome = true
  content : ∀ location, ¬ written location → after.content? location = before.content? location
  proper : before.IsProper → after.IsProper

namespace GrowsAt

/-- A tree grows to itself. -/
theorem refl (tree : FileTree) : GrowsAt written tree tree :=
  ⟨fun _ => id, fun _ => id, fun _ _ => rfl, id⟩

/-- More locations may be written. -/
theorem mono (h : GrowsAt written before after) (hmore : ∀ location, written location →
    more location) : GrowsAt more before after :=
  ⟨h.directory, h.kept, fun location hnot => h.content location (mt (hmore location) hnot),
    h.proper⟩

/-- **Growth** goes on. -/
theorem trans (hfirst : GrowsAt written before between) (hsecond : GrowsAt written between after) :
    GrowsAt written before after :=
  ⟨fun location h => hsecond.directory location (hfirst.directory location h),
    fun location h => hsecond.kept location (hfirst.kept location h),
    fun location h => (hsecond.content location h).trans (hfirst.content location h),
    fun h => hsecond.proper (hfirst.proper h)⟩

/-- A step leads where it led. -/
theorem step (h : GrowsAt written before after) {segment : Bytes} {last : Location}
    (hstep : before.step location segment = .ok last) :
    after.step location segment = .ok last := by
  have hbefore := entry?_of_step hstep
  have hafter := h.directory location hbefore
  simp only [FileTree.step, hbefore] at hstep
  simp only [FileTree.step, hafter]
  split
  · next hsilent => rwa [if_pos hsilent] at hstep
  · next hsilent =>
    rw [if_neg hsilent] at hstep
    split
    · next hdots => rwa [if_pos hdots] at hstep
    · next hdots =>
      rw [if_neg hdots] at hstep
      split
      · next hlong => rwa [if_pos hlong] at hstep
      · next hlong =>
        rw [if_neg hlong] at hstep
        split at hstep
        · next hentry => rwa [if_pos (h.kept _ hentry)]
        · cases hstep

/-- Segments lead where they led. -/
theorem walk (h : GrowsAt written before after) {segments : List Bytes} {last : Location}
    (hwalk : before.walk location segments = .ok last) :
    after.walk location segments = .ok last := by
  induction segments generalizing location with
  | nil => exact hwalk
  | cons segment segments ih =>
    rw [FileTree.walk] at hwalk ⊢
    split at hwalk
    · next next hstep =>
      rw [h.step hstep]
      exact ih hwalk
    · cases hwalk

/-- **A path** leads where it led. -/
theorem locate (h : GrowsAt written before after) (hlocate : before.locate p = .ok location) :
    after.locate p = .ok location := by
  obtain ⟨hne, husable, hwalk⟩ := walk_of_locate hlocate
  rw [FileTree.locate, if_neg hne, if_pos husable]
  exact h.walk hwalk

/-- A new entry in a directory, where no directory is. -/
theorem set {parent : Location} {name : Bytes} (hname : Path.IsName name)
    (hparent : tree.entry? parent = some .directory)
    (hnot : tree.entry? (parent ++ [name]) ≠ some .directory)
    (hcontent : written (parent ++ [name]) ∨
      (tree.entry? (parent ++ [name]) = none ∧ entry = .directory)) :
    GrowsAt written tree (tree.set (parent ++ [name]) entry) := by
  have hne : parent ++ [name] ≠ [] := by simp
  have hother : ∀ other, other ≠ parent ++ [name] →
      FileTree.entry? (tree.set (parent ++ [name]) entry) other = tree.entry? other :=
    fun other hne' => by rw [lookup_set hne, if_neg hne']
  refine ⟨fun other h => ?_, fun other h => ?_, fun other hwritten => ?_,
    fun htree => htree.set hname hparent hnot⟩
  · rw [hother other fun heq => hnot (heq ▸ h), h]
  · by_cases heq : other = parent ++ [name]
    · rw [lookup_set hne, if_pos heq]
      rfl
    · rwa [hother other heq]
  · by_cases heq : other = parent ++ [name]
    · subst heq
      obtain ⟨hnone, rfl⟩ := hcontent.resolve_left hwritten
      simp [content?, lookup_set hne, hnone]
    · rw [content?, hother other heq, content?]

end GrowsAt

/-! ### Targets -/

/-- **Where a path may be written**, its last segment is a name in the directory to which the
others lead. -/
theorem exists_of_target (h : tree.target p = .ok location) : ∃ front name parent,
    Path.segments p = front ++ [name] ∧ tree.walk [] front = .ok parent ∧
      tree.entry? parent = some .directory ∧ Path.IsName name ∧ name.length ≤ maxName ∧
      location = parent ++ [name] ∧ p ≠ [] ∧ isUsable p = true := by
  obtain ⟨front, name, hsegments⟩ : ∃ front name, Path.segments p = front ++ [name] :=
    (List.eq_nil_or_concat' _).resolve_left (segments_ne_nil p)
  have hmem : name ∈ Path.segments p := hsegments ▸ List.mem_append_right _ (by simp)
  have hslash := Path.slash_not_mem_of_mem_segments hmem
  simp only [target, hsegments, List.getLast?_concat, Option.getD_some,
    List.dropLast_concat] at h
  split at h
  · cases h
  · next husable =>
    split at h
    · cases h
    · next parent hwalk =>
      split at h
      · cases h
      · cases h
      · next hparent =>
        split at h
        · cases h
        · next hsilent =>
          split at h
          · cases h
          · next hlong =>
            simp only [Path.isSilent, Bool.or_eq_true, decide_eq_true_eq, not_or] at hsilent
            have hname : Path.IsName name :=
              ⟨hsilent.1.1, hsilent.1.2, hsilent.2, hslash⟩
            have hne : p ≠ [] := by
              rintro rfl
              exact hname.ne_nil (List.mem_singleton.1 hmem)
            exact ⟨front, name, parent, hsegments, hwalk, hparent, hname, Nat.not_lt.1 hlong,
              (Except.ok.inj h).symm, hne, by simpa using husable⟩

/-- Where a path may be written, it leads once something is there. -/
theorem locate_of_target (h : tree.target p = .ok location)
    (hgrows : GrowsAt written tree next) (hentry : (next.entry? location).isSome = true) :
    next.locate p = .ok location := by
  obtain ⟨front, name, parent, hsegments, hwalk, hparent, hname, hlong, rfl, hne, husable⟩ :=
    exists_of_target h
  have hlast : next.step parent name = .ok (parent ++ [name]) :=
    (step_eq_ok_iff hname).2 ⟨hgrows.directory _ hparent, hlong, hentry, rfl⟩
  rw [locate, if_neg hne, if_pos husable, hsegments, walk_append, hgrows.walk hwalk]
  show next.walk parent [name] = _
  rw [walk, hlast]
  rfl

/-- **A new file** is the only one that changes. -/
theorem growsAt_write (h : tree.write p content = .ok next) : ∃ location,
    GrowsAt (· = location) tree next ∧ next.locate p = .ok location ∧
      next.content? location = some content := by
  unfold write at h
  split at h
  · cases h
  · next location htarget =>
    split at h
    · cases h
    · next hdirectory =>
      obtain rfl := Except.ok.inj h
      obtain ⟨front, name, parent, -, -, hparent, hname, -, rfl, -⟩ := exists_of_target htarget
      have hne : parent ++ [name] ≠ [] := by simp
      have hgrows : GrowsAt (· = parent ++ [name]) tree
          (tree.set (parent ++ [name]) (.file content)) := .set hname hparent hdirectory (.inl rfl)
      have hentry : FileTree.entry? (tree.set (parent ++ [name]) (.file content))
          (parent ++ [name]) = some (.file content) := by rw [lookup_set hne, if_pos rfl]
      exact ⟨_, hgrows, locate_of_target htarget hgrows (by rw [hentry]; rfl),
        content?_eq_some_iff.2 hentry⟩

/-! ### Directories -/

/-- A new directory changes no file. -/
theorem growsAt_makeDirectory (h : tree.makeDirectory p = .ok next) :
    GrowsAt written tree next := by
  unfold makeDirectory at h
  split at h
  · cases h
  · next location htarget =>
    split at h
    · next hnone =>
      obtain rfl := Except.ok.inj h
      obtain ⟨front, name, parent, -, -, hparent, hname, -, rfl, -⟩ := exists_of_target htarget
      exact .set hname hparent (by simp [hnone]) (.inr ⟨hnone, rfl⟩)
    all_goals cases h

/-- Whether a tree becomes another one by **one new directory**, at the end of one of the paths. -/
def MakesDirectory (paths : List Path) (tree next : FileTree) : Prop :=
  ∃ p ∈ paths, tree.makeDirectory p = .ok next

/-- Directories on the way of a path are made one after the other. -/
theorem reflTransGen_of_makeChain {paths : List Path} (h : tree.makeChain paths = .ok next) :
    Relation.ReflTransGen (MakesDirectory paths) tree next := by
  induction paths generalizing next with
  | nil => cases h
  | cons p above ih =>
    rw [makeChain] at h
    split at h
    · next made hmade =>
      obtain rfl := Except.ok.inj h
      exact .single ⟨p, List.mem_cons_self, hmade⟩
    · split at h
      · next ready hready =>
        have habove : Relation.ReflTransGen (MakesDirectory (p :: above)) tree ready :=
          Relation.ReflTransGen.mono (fun _ _ ⟨q, hq, hmade⟩ =>
            ⟨q, List.mem_cons_of_mem p hq, hmade⟩) _ _ (ih hready)
        unfold keepDirectory at h
        split at h
        · next made hmade =>
          obtain rfl := Except.ok.inj h
          exact habove.tail ⟨p, List.mem_cons_self, hmade⟩
        · split at h
          · exact Except.ok.inj h ▸ habove
          · cases h
      · cases h
    · split at h
      · exact Except.ok.inj h ▸ .refl
      · cases h

/-- New directories, one after the other, change no file. -/
theorem growsAt_of_reflTransGen {paths : List Path}
    (h : Relation.ReflTransGen (MakesDirectory paths) tree next) : GrowsAt written tree next := by
  induction h with
  | refl => exact .refl tree
  | tail _ hstep ih =>
    obtain ⟨p, -, hmade⟩ := hstep
    exact ih.trans (growsAt_makeDirectory hmade)

/-! ### Planting -/

/-- A directory is planted in the one before it. -/
theorem plantDirectory_concat (tree : FileTree) (front : Location) (name : Bytes) :
    tree.plantDirectory (front ++ [name]) =
      if (FileTree.entry? (tree.plantDirectory front) (front ++ [name])).isSome then
        tree.plantDirectory front
      else (tree.plantDirectory front).set (front ++ [name]) .directory := by
  have hways : waysTo (front ++ [name]) = waysTo front ++ [front ++ [name]] := by
    have hfront : ∀ n ∈ List.range front.length,
        (front ++ [name]).take (n + 1) = front.take (n + 1) := fun n hn =>
      List.take_append_of_le_length (List.mem_range.1 hn)
    rw [waysTo, List.length_append, List.length_singleton, List.range_succ, List.map_append,
      List.map_congr_left hfront, List.map_singleton, List.take_of_length_le (by simp)]
    rfl
  rw [plantDirectory, hways, List.foldl_append]
  rfl

/-- A location does not lead to one above it. -/
theorem not_concat_above (front : List Bytes) (name : Bytes) : ¬ front ++ [name] <+: front := by
  intro habove
  have hlength := habove.length_le
  rw [List.length_append, List.length_singleton] at hlength
  omega

/-- **A planted directory** leaves a tree proper, if no file is in its way. -/
theorem IsProper.plantDirectory (htree : tree.IsProper)
    (hnames : ∀ segment ∈ location, Path.IsName segment)
    (hfree : ∀ way, way <+: location → ∀ content, tree.entry? way ≠ some (.file content)) :
    (tree.plantDirectory location).IsProper ∧
    FileTree.entry? (tree.plantDirectory location) location = some .directory ∧
    ∀ other, ¬ other <+: location →
      FileTree.entry? (tree.plantDirectory location) other = tree.entry? other := by
  induction location using List.reverseRecOn with
  | nil => exact ⟨htree, entry?_nil _, fun _ _ => rfl⟩
  | append_singleton front name ih =>
    obtain ⟨hbefore, hname⟩ := List.forall_mem_append.1 hnames
    have hname := hname name (List.mem_singleton_self name)
    obtain ⟨hproper, hdirectory, hothers⟩ := ih hbefore fun way hway =>
      hfree way (hway.trans (List.prefix_append front [name]))
    have hlast := hothers (front ++ [name]) (not_concat_above front name)
    rw [plantDirectory_concat, hlast]
    cases hentry : tree.entry? (front ++ [name]) with
    | none =>
      have hne : front ++ [name] ≠ [] := by simp
      refine ⟨hproper.set hname hdirectory (by simp [hlast, hentry]), ?_, fun other hother => ?_⟩
      · simp [lookup_set hne]
      · have hneOther : other ≠ front ++ [name] := fun heq => hother (heq ▸ List.prefix_rfl)
        have hnot : ¬ other <+: front := fun habove =>
          hother (habove.trans (List.prefix_append front [name]))
        simp [lookup_set hne, hneOther, hothers other hnot]
    | some entry =>
      cases entry with
      | file content => exact absurd hentry (hfree _ List.prefix_rfl content)
      | directory =>
        refine ⟨hproper, hlast.trans hentry, fun other hother => hothers other fun habove => ?_⟩
        exact hother (habove.trans (List.prefix_append front [name]))

/-- **A planted file** leaves a tree proper, if nothing is in its way. -/
theorem IsProper.plantFile (htree : tree.IsProper) {front : List Bytes} {name : Bytes}
    (hnames : ∀ segment ∈ front ++ [name], Path.IsName segment)
    (hfree : ∀ way, way <+: front → ∀ content, tree.entry? way ≠ some (.file content))
    (hnot : tree.entry? (front ++ [name]) ≠ some .directory) (content : Bytes) :
    (tree.plantFile (front ++ [name]) content).IsProper := by
  obtain ⟨hbefore, hname⟩ := List.forall_mem_append.1 hnames
  obtain ⟨hproper, hdirectory, hothers⟩ := htree.plantDirectory hbefore hfree
  have hlast := hothers (front ++ [name]) (not_concat_above front name)
  rw [FileTree.plantFile, List.dropLast_concat]
  exact hproper.set (hname name (List.mem_singleton_self name)) hdirectory (hlast ▸ hnot)

end Lectern.FileTree
