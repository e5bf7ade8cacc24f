import Lectern.Proofs.Path.Normal

/-!
# Absolute Paths

Nothing that is made of an absolute path is relative: not its parent or what lies above it, and not
a path that is seen from it. A working directory is absolute, and so every path that is seen from
one is.

## Main results

* `isAbsolute_of_parent?`, `isAbsolute_of_mem_ancestors`: the directories above an absolute path.
* `absolute?_eq_none_iff`, `isAbsolute_of_absolute?`: a path that is seen from a working directory.
-/

namespace Lectern.Path

variable {p q cwd : Path}

/-! ### Above a path -/

/-- Behind the root, there are segments. -/
theorem segments_slash_cons (rest : Path) : segments (slash :: rest) = [] :: segments rest := by
  simp [segments]

/-- The path of trimmed segments behind the root is absolute. -/
theorem isAbsolute_ofTrimmed (rest : List Bytes) : isAbsolute (ofTrimmed ([] :: rest)) = true := by
  cases rest with
  | nil => rfl
  | cons second rest => simp [ofTrimmed, ofSegments, isAbsolute]

/-- **The parent of an absolute path** is absolute. -/
theorem isAbsolute_of_parent? (hp : isAbsolute p = true) (h : parent? p = some q) :
    isAbsolute q = true := by
  obtain ⟨rest, rfl⟩ := isAbsolute_iff.1 hp
  simp only [parent?, segments_slash_cons, trimmedSegments] at h
  split at h
  · cases h
  · next hroot =>
    have hne : ((segments rest).reverse.dropWhile isSilent).reverse ≠ [] := fun hnil =>
      hroot (by rw [hnil])
    rw [List.dropLast_cons_of_ne_nil hne] at h
    obtain rfl := Option.some.inj h
    exact isAbsolute_ofTrimmed _

/-- What lies above an absolute path is absolute, as far as one looks. -/
theorem isAbsolute_of_mem_ancestorsAux {fuel : Nat} (hp : isAbsolute p = true)
    (hq : q ∈ ancestorsAux fuel p) : isAbsolute q = true := by
  induction fuel generalizing p with
  | zero =>
    obtain rfl := List.mem_singleton.1 hq
    exact hp
  | succ fuel ih =>
    rcases List.mem_cons.1 hq with rfl | habove
    · exact hp
    · cases hparent : parent? p with
      | none => simp [hparent] at habove
      | some parent =>
        rw [hparent] at habove
        exact ih (isAbsolute_of_parent? hp hparent) habove

/-- **The ancestors of an absolute path** are absolute. -/
theorem isAbsolute_of_mem_ancestors (hp : isAbsolute p = true) (hq : q ∈ ancestors p) :
    isAbsolute q = true :=
  isAbsolute_of_mem_ancestorsAux hp hq

/-! ### From a working directory -/

/-- Only the empty path has no absolute one. -/
theorem absolute?_eq_none_iff : absolute? cwd p = none ↔ p = [] := by
  simp [absolute?]

/-- Steps from an absolute path lead to absolute ones. -/
theorem isAbsolute_foldl_join (hp : isAbsolute p = true) (steps : List Component) :
    isAbsolute (steps.foldl (fun base step => join base step.bytes) p) = true := by
  induction steps generalizing p with
  | nil => exact hp
  | cons step steps ih => exact ih (isAbsolute_join hp step.bytes)

/-- **What is seen from a working directory** is absolute. -/
theorem isAbsolute_of_absolute? (hcwd : isAbsolute cwd = true) (h : absolute? cwd p = some q) :
    isAbsolute q = true := by
  unfold absolute? at h
  split at h
  · cases h
  · obtain rfl := Option.some.inj h
    have hstart : isAbsolute (if !isAbsolute p then cwd
        else if (p.takeWhile (· = slash)).length = 2 then [slash, slash] else [slash]) = true := by
      split
      · exact hcwd
      · split <;> rfl
    have hwhole := isAbsolute_foldl_join hstart
      ((components p).filter fun c => c != .root && c != .here)
    split
    · exact isAbsolute_join hwhole []
    · exact hwhole

end Lectern.Path
