import Lectern.Json.Value
import Mathlib.Data.List.Basic

/-!
# Records in JSON

A record is written as an object with its fields under their names, and it is read by these names.
If no name is written twice, each field is found where it was written.

## Main results

* `filter_ofMembers`: the member with a name.
* `fields?_ofMembers`: the fields of a record by their names.
* `member?_ofMembers`: one field by its name.
-/

namespace Lectern

/-- A reader that succeeds on each of several things. -/
theorem mapM_eq_some_map {α β : Type} {l : List α} {read : α → Option β} {f : α → β}
    (h : ∀ x ∈ l, read x = some (f x)) : l.mapM read = some (l.map f) := by
  induction l with
  | nil => rfl
  | cons x l ih =>
    obtain ⟨hx, hl⟩ := List.forall_mem_cons.1 h
    rw [List.mapM_cons, hx, ih hl]
    rfl

namespace Json

/-- A name that no member has. -/
theorem filter_ofMembers_eq_nil {name : Text} {members : List (Text × Json)}
    (h : name ∉ members.map (·.1)) :
    (members.map fun (key, value) => (some key, value)).filter (·.1 == some name) = [] := by
  refine List.filter_eq_nil_iff.2 fun member hmember => ?_
  obtain ⟨⟨key, value⟩, hmem, rfl⟩ := List.mem_map.1 hmember
  have hne : key ≠ name := fun heq => h (heq ▸ List.mem_map.2 ⟨_, hmem, rfl⟩)
  simpa using hne

/-- The member with a name that only one has. -/
theorem filter_ofMembers {members : List (Text × Json)} (h : (members.map (·.1)).Nodup)
    {name : Text} {value : Json} (hmem : (name, value) ∈ members) :
    (members.map fun (key, value) => (some key, value)).filter (·.1 == some name) =
      [(some name, value)] := by
  induction members with
  | nil => cases hmem
  | cons member members ih =>
    obtain ⟨hnew, hrest⟩ := List.nodup_cons.1 h
    rcases List.mem_cons.1 hmem with rfl | hlater
    · rw [List.map_cons, List.filter_cons_of_pos (by simp), filter_ofMembers_eq_nil hnew]
    · have hne : member.1 ≠ name := fun heq =>
        hnew (List.mem_map.2 ⟨_, hlater, heq.symm⟩)
      rw [List.map_cons, List.filter_cons_of_neg (by simpa using hne), ih hrest hlater]

/-- **The fields of a record** that is written under different names are found by these names. -/
theorem fields?_ofMembers {members : List (Text × Json)} (h : (members.map (·.1)).Nodup) :
    fields? (members.map (·.1)) (ofMembers members) =
      some (members.map fun member => some member.2) := by
  have hnames : (members.map fun (key, value) => ((some key : Option Text), value)).all
      (fun member => member.1.isSome) = true := by
    simp
  rw [ofMembers, fields?, if_pos hnames, List.mapM_map]
  refine mapM_eq_some_map fun member hmember => ?_
  rw [Function.comp_apply, field?, filter_ofMembers h hmember]

/-- The value of the only member with a name. -/
def member? (name : Text) : Json → Option Json
  | .object members => (field? members name).join
  | _ => none

/-- The elements of an array. -/
def elements? : Json → Option (List Json)
  | .array elements => some elements
  | _ => none

/-- **One field of a record** that is written under different names. -/
theorem member?_ofMembers {members : List (Text × Json)} (h : (members.map (·.1)).Nodup)
    {name : Text} {value : Json} (hmem : (name, value) ∈ members) :
    (ofMembers members).member? name = some value := by
  rw [ofMembers, member?, field?, filter_ofMembers h hmem]
  rfl

/-- An array of strings is read back. -/
theorem texts?_map_ofText (texts : List Text) :
    texts? (.array (texts.map ofText)) = some texts := by
  rw [texts?, List.mapM_map]
  exact (mapM_eq_some_map fun _ _ => rfl).trans (congrArg some (List.map_id' texts))

/-- A value that may be missing is read back, if it is not written as null. -/
theorem optional?_ofOption {α : Type} {write : α → Json} {read : Json → Option α}
    (hread : ∀ value, read (write value) = some value) (hnull : read .null = none)
    (value? : Option α) : optional? read (some (ofOption write value?)) = some value? := by
  cases value? with
  | none => rfl
  | some value =>
    have hvalue := hread value
    rw [ofOption, Option.elim_some, optional?, hvalue]
    · rfl
    · intro heq
      rw [heq, hnull] at hvalue
      cases hvalue

end Json

end Lectern
