import Lectern.Proofs.Path.Normal

/-!
# Normalizing Joined Paths

A path is normalized step by step, on a stack of names, and what is seen from a directory only adds
steps. So it makes no difference whether the directory has been normalized before. Two dots take one
name off the stack, and leave the empty stack as it is: however many of them there are, they lead no
further up than to the root.

## Main results

* `normalizedNames_join`: a joined path is normalized from where its directory has led.
* `normalize_normalize`: normalizing twice.
* `normalize_join_ups`: steps upwards from a directory.
* `normalize_joined`: normalizing what is seen from an absolute directory.
-/

namespace Lectern.Path

variable {p q ups : Path} {names : List Bytes} {steps : List Component}

/-! ### Components of what is normalized -/

/-- The names of a path that is built from names from a working directory are its components. -/
theorem components_ofNames_false (hnames : ∀ name ∈ names, IsName name) :
    components (ofNames false names) = names.map .name := by
  match names with
  | [] => rfl
  | first :: rest =>
    obtain ⟨hfirst, hrest⟩ := List.forall_mem_cons.1 hnames
    have hsegments : segments (ofNames false (first :: rest)) = first :: rest :=
      segments_ofSegments (by simp) fun name hmem => (hnames name hmem).slash_not_mem
    have hothers : rest.filterMap Component.ofSegment? = rest.map .name :=
      List.filterMap_eq_map_iff_forall_eq_some.2 fun name hmem => (hrest name hmem).ofSegment?
    unfold components
    simp [hsegments, hothers, hfirst.ne_nil, hfirst.ne_dot, hfirst.ofSegment?]

/-- **The components of a normalized path** are names, behind the root if there is one. -/
theorem components_normalize (p : Path) : components (normalize p) =
    (if isAbsolute p then [.root] else []) ++ (normalizedNames p).map .name := by
  unfold normalize
  cases isAbsolute p with
  | false => exact components_ofNames_false isName_of_mem_normalizedNames
  | true => exact components_ofNames isName_of_mem_normalizedNames

/-- Normalizing makes no path absolute, and none relative. -/
theorem isAbsolute_normalize (p : Path) : isAbsolute (normalize p) = isAbsolute p := by
  cases hp : isAbsolute p with
  | true => exact (isNormal_normalize hp).isAbsolute
  | false =>
    rw [Bool.eq_false_iff] at hp ⊢
    exact mt isAbsolute_of_normalize hp

/-- The names that are left are left again. -/
theorem normalizedNames_normalize (p : Path) :
    normalizedNames (normalize p) = normalizedNames p := by
  have hroot : ∀ stack, (if isAbsolute p then [Component.root] else []).foldl normalizeStep stack =
      stack := fun stack => by split <;> rfl
  rw [normalizedNames, components_normalize, List.foldl_append, hroot, foldl_normalizeStep_names]
  simp

/-- **Normalizing twice** is normalizing once. -/
theorem normalize_normalize (p : Path) : normalize (normalize p) = normalize p := by
  rw [normalize, isAbsolute_normalize, normalizedNames_normalize, ← normalize]

/-! ### What is seen from a directory -/

/-- The empty path is relative. -/
theorem ne_nil_of_isAbsolute (hp : isAbsolute p = true) : p ≠ [] := by
  rintro rfl
  cases hp

/-- **A joined path** is normalized from where its directory has led. -/
theorem normalizedNames_join (hp : p ≠ []) (hq : isAbsolute q = false) :
    normalizedNames (join p q) = (((segments q).filterMap Component.ofSegment?).foldl normalizeStep
      (normalizedNames p).reverse).reverse := by
  rw [normalizedNames, components_join hp hq, List.foldl_append, normalizedNames,
    List.reverse_reverse]

/-- A relative path is read segment by segment, unless it starts with a dot. -/
theorem components_eq_filterMap (hq : isAbsolute q = false) (hhere : .here ∉ components q) :
    components q = (segments q).filterMap Component.ofSegment? := by
  cases q with
  | nil => rfl
  | cons b rest =>
    have hb : b ≠ slash := by
      rintro rfl
      cases hq
    obtain ⟨first, more, hsegments⟩ : ∃ first more,
        segments (b :: rest) = (b :: first) :: more := by
      cases hrest : segments rest <;> simp [segments, hb, hrest]
    unfold components at hhere ⊢
    rw [hsegments] at hhere ⊢
    by_cases hdot : b :: first = [dot]
    · simp [hdot] at hhere
    · cases hstep : Component.ofSegment? (b :: first) <;> simp [hdot, hstep]

/-- Two dots take one name after the other off the stack. -/
theorem foldl_normalizeStep_ups (hups : ∀ step ∈ steps, step = .up) (names : List Bytes) :
    steps.foldl normalizeStep names = names.drop steps.length := by
  induction steps generalizing names with
  | nil => rfl
  | cons step steps ih =>
    obtain ⟨rfl, hrest⟩ := List.forall_mem_cons.1 hups
    rw [List.foldl_cons, ih hrest, normalizeStep, List.drop_tail, List.length_cons]

/-- **Steps upwards** from an absolute directory lead to one above it, and to the root if there are
more of them than names on the way. -/
theorem normalize_join_ups (hp : isAbsolute p = true) (hups : ∀ step ∈ components ups, step = .up) :
    normalize (join p ups) = ofNames true
      ((normalizedNames p).take ((normalizedNames p).length - (components ups).length)) := by
  have hrelative : isAbsolute ups = false := by
    refine Bool.eq_false_iff.2 fun habsolute => ?_
    obtain ⟨rest, rfl⟩ := isAbsolute_iff.1 habsolute
    rw [components_slash_cons] at hups
    cases hups .root List.mem_cons_self
  have hsteps := components_eq_filterMap hrelative fun hhere => by cases hups _ hhere
  rw [normalize, isAbsolute_join hp, normalizedNames_join (ne_nil_of_isAbsolute hp) hrelative,
    ← hsteps, foldl_normalizeStep_ups hups, List.drop_reverse, List.reverse_reverse]

/-! ### Absolute directories -/

/-- **Normalizing what is seen from an absolute directory.** The directory may be normalized before;
what is normalized stays as it is; a normalized directory is absolute, and behind the root it has
names only, whatever dots there were; and steps upwards take its last names away, as many as there
are, and never the root. -/
theorem normalize_joined (hp : isAbsolute p = true) (hq : isAbsolute q = false) :
    normalize (join p q) = normalize (join (normalize p) q) ∧
      (∀ r, normalize (normalize r) = normalize r) ∧
      isAbsolute (normalize p) = true ∧
      components (normalize p) = .root :: (normalizedNames p).map .name ∧
      ∀ ups, (∀ step ∈ components ups, step = .up) →
        normalize (join p ups) = ofNames true
          ((normalizedNames p).take ((normalizedNames p).length - (components ups).length)) := by
  have habsolute : isAbsolute (normalize p) = true := (isAbsolute_normalize p).trans hp
  refine ⟨?_, normalize_normalize, habsolute, ?_, fun ups => normalize_join_ups hp⟩
  · rw [normalize, normalize, isAbsolute_join hp, isAbsolute_join habsolute,
      normalizedNames_join (ne_nil_of_isAbsolute hp) hq,
      normalizedNames_join (ne_nil_of_isAbsolute habsolute) hq, normalizedNames_normalize]
  · rw [components_normalize, hp]
    rfl

/-- A directory with more dots than names before them, and a path that leads above the root. -/
theorem normalize_joined_aboveRoot :
    let p := ofText "/a/../../b//./c".toList
    let q := ofText "./../../../d/".toList
    isAbsolute p = true ∧ isAbsolute q = false ∧
      normalize p = ofText "/b/c".toList ∧
      normalize (join p q) = ofText "/d".toList ∧
      normalize (join (normalize p) q) = ofText "/d".toList ∧
      normalize (join p (ofText "..".toList)) = ofText "/b".toList ∧
      normalize (join p (ofText "../../..".toList)) = ofText "/".toList := by
  intro p q
  have hp : isAbsolute p = true := by decide
  have hq : isAbsolute q = false := by decide
  have hnames : normalizedNames p = [ofText ['b'], ofText ['c']] := by decide
  have hwhole : normalize (join p q) = ofText "/d".toList := by decide
  obtain ⟨hjoin, -, -, -, hups⟩ := normalize_joined hp hq
  have hone := hups (ofText "..".toList) (by decide)
  have hthree := hups (ofText "../../..".toList) (by decide)
  rw [hnames] at hone hthree
  exact ⟨hp, hq, by decide, hwhole, hjoin.symm.trans hwhole, hone, hthree⟩

end Lectern.Path
