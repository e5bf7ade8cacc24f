import Lectern.Text

/-!
# Dictionaries

Texts under texts. A dictionary keeps its pairs in the order of the keys, each key once, and that
is part of its type: two dictionaries are equal when they have the same values, in whatever order
those were given.
-/

namespace Lectern

/-- The pairs of `entries` with `value` under `key`, where `entries` are ordered by their keys. -/
def insertPair (key value : Text) : List (Text × Text) → List (Text × Text)
  | [] => [(key, value)]
  | (k, v) :: rest =>
    if key < k then (key, value) :: (k, v) :: rest
    else if key = k then (key, value) :: rest
    else (k, v) :: insertPair key value rest

/-- A key below all others is below them still when one more above it has been inserted. -/
theorem lt_of_mem_insertPair {key value bound : Text} {entries : List (Text × Text)}
    (hkey : bound < key) (h : ∀ e ∈ entries, bound < e.1) :
    ∀ e ∈ insertPair key value entries, bound < e.1 := by
  induction entries with
  | nil => simpa [insertPair] using hkey
  | cons head rest ih =>
    obtain ⟨k, v⟩ := head
    simp only [List.mem_cons, forall_eq_or_imp] at h
    unfold insertPair
    split
    · simpa using ⟨hkey, h.1, fun a b hab => h.2 _ hab⟩
    · split
      · simpa using ⟨hkey, fun a b hab => h.2 _ hab⟩
      · simpa using ⟨h.1, fun a b hab => ih h.2 _ hab⟩

/-- An insertion keeps the order of the keys. -/
theorem pairwise_insertPair (key value : Text) {entries : List (Text × Text)}
    (h : entries.Pairwise fun a b => a.1 < b.1) :
    (insertPair key value entries).Pairwise fun a b => a.1 < b.1 := by
  induction entries with
  | nil => simp [insertPair]
  | cons head rest ih =>
    obtain ⟨k, v⟩ := head
    rw [List.pairwise_cons] at h
    unfold insertPair
    split
    · next hlt =>
      refine List.pairwise_cons.2 ⟨?_, List.pairwise_cons.2 h⟩
      intro e he
      rcases List.mem_cons.1 he with rfl | he
      · exact hlt
      · exact List.lt_trans hlt (h.1 e he)
    · split
      · next heq => exact List.pairwise_cons.2 ⟨fun e he => heq ▸ h.1 e he, h.2⟩
      · next hlt hne =>
        have hgt : k < key := by
          have three : key < k ∨ key = k ∨ k < key := Std.Trichotomous.rel_or_eq_or_rel_swap
          rcases three with h | h | h
          · exact absurd h hlt
          · exact absurd h hne
          · exact h
        exact List.pairwise_cons.2 ⟨lt_of_mem_insertPair hgt h.1, ih h.2⟩

/-- A **dictionary**: values under keys, in the order of the keys. -/
structure Dictionary where
  entries : List (Text × Text)
  ordered : entries.Pairwise fun a b => a.1 < b.1
deriving DecidableEq, Repr

namespace Dictionary

/-- The dictionary without any pairs. -/
def empty : Dictionary := ⟨[], .nil⟩

/-- The dictionary with `value` under `key`, instead of what was there. -/
def insert (dictionary : Dictionary) (key value : Text) : Dictionary :=
  ⟨insertPair key value dictionary.entries, pairwise_insertPair key value dictionary.ordered⟩

/-- The dictionary of pairs, of which the last with a key counts. -/
def ofList (entries : List (Text × Text)) : Dictionary :=
  entries.foldl (fun dictionary (key, value) => dictionary.insert key value) .empty

end Dictionary

end Lectern
