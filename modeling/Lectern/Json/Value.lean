import Lectern.Decimal

/-!
# JSON Values

A document as it was written: members keep their order and may repeat, and numbers are kept as
digits and an exponent. Reading a document into a type of the library is a second step, and it
looks only at the members it knows. The rest may hold what no type of the library could: strings
that name half of a surrogate pair, and numbers of any size.

* `Json.fields?` — a record by the names of its fields.
* `Json.isSound` — whether a value can be kept as it is, because all of it has a meaning.
-/

namespace Lectern

/-- A **JSON value**. A string or a key is `none` if it names half of a surrogate pair and so is
no text. -/
inductive Json where
  | null
  | bool (value : Bool)
  | number (value : Decimal)
  | string (text? : Option Text)
  | array (items : List Json)
  | object (members : List (Option Text × Json))
deriving Repr, Inhabited

namespace Json

/-- **Induction on values**, from all items of an array and from all members of an object. -/
theorem inductionOnAll {motive : Json → Prop}
    (array : ∀ items, (∀ item ∈ items, motive item) → motive (.array items))
    (object : ∀ members, (∀ member ∈ members, motive member.2) → motive (.object members))
    (null : motive .null) (bool : ∀ value, motive (.bool value))
    (number : ∀ value, motive (.number value)) (string : ∀ text?, motive (.string text?))
    (value : Json) : motive value :=
  match value with
  | .null => null
  | .bool value => bool value
  | .number value => number value
  | .string text? => string text?
  | .array items => array items fun item hitem =>
    have := List.sizeOf_lt_of_mem hitem
    inductionOnAll array object null bool number string item
  | .object members => object members fun member hmember =>
    have := List.sizeOf_lt_of_mem hmember
    inductionOnAll array object null bool number string member.2
termination_by sizeOf value
decreasing_by
  · simp only [Json.array.sizeOf_spec]
    omega
  · obtain ⟨key, value⟩ := member
    simp only [Json.object.sizeOf_spec, Prod.mk.sizeOf_spec] at *
    omega

/-- The string of `s`. -/
def ofText (s : Text) : Json := .string (some s)

/-- The whole number `n`. -/
def ofNat (n : Nat) : Json := .number { digits := n }

/-- The value `f` makes of `x`, or null. -/
def ofOption {α : Type} (f : α → Json) (x : Option α) : Json := x.elim .null f

/-- The object with the given members. -/
def ofMembers (members : List (Text × Json)) : Json :=
  .object (members.map fun (key, value) => (some key, value))

/-- The text of a string. -/
def text? : Json → Option Text
  | .string text? => text?
  | _ => none

/-- The value of the last member with the key `key`, where the last of several counts. -/
def lastMember? {α : Type} (key : Text) (members : List (Option Text × α)) : Option α :=
  (members.reverse.find? fun member => member.1 == some key).map (·.2)

/-! ### Depth and soundness -/

mutual

/-- How many arrays and objects lie around the innermost value. -/
def depth : Json → Nat
  | .array items => itemsDepth items + 1
  | .object members => membersDepth members + 1
  | _ => 0

/-- The depth of the deepest item. -/
def itemsDepth : List Json → Nat
  | [] => 0
  | item :: rest => max (depth item) (itemsDepth rest)

/-- The depth of the deepest member. -/
def membersDepth : List (Option Text × Json) → Nat
  | [] => 0
  | (_, value) :: rest => max (depth value) (membersDepth rest)

end

mutual

/-- Whether every string and key in a value is a text and every number is in range. -/
def isSound : Json → Bool
  | .number value => value.isFinite
  | .string text? => text?.isSome
  | .array items => areSound items
  | .object members => areSoundMembers members
  | _ => true

/-- Whether all items are sound. -/
def areSound : List Json → Bool
  | [] => true
  | item :: rest => isSound item && areSound rest

/-- Whether all members are sound. -/
def areSoundMembers : List (Option Text × Json) → Bool
  | [] => true
  | (key, value) :: rest => key.isSome && isSound value && areSoundMembers rest

end

/-- The deepest nesting in which a value is read. -/
def maxDepth : Nat := 127

/-! ### Records -/

/-- The value of the field `name`, if it is there. A field may stand only once. -/
def field? (members : List (Option Text × Json)) (name : Text) : Option (Option Json) :=
  match members.filter fun member => member.1 == some name with
  | [] => some none
  | [(_, value)] => some (some value)
  | _ => none

/-- The fields of a **record**, by name, each present or not. A record is an object whose other
members do not count, or an array of the first of its fields in order. -/
def fields? (names : List Text) : Json → Option (List (Option Json))
  | .object members =>
    if members.all fun member => member.1.isSome then names.mapM (field? members) else none
  | .array items =>
    if items.length ≤ names.length then
      some (items.map some ++ List.replicate (names.length - items.length) none)
    else none
  | _ => none

/-- Reads a field that may be missing or null. -/
def optional? {α : Type} (read : Json → Option α) : Option Json → Option (Option α)
  | none | some .null => some none
  | some value => (read value).map some

/-- Reads a field that has the value `default` when it is missing, but is never null. -/
def required? {α : Type} (default : α) (read : Json → Option α) : Option Json → Option α
  | none => some default
  | some value => read value

/-- Reads an array of strings. -/
def texts? : Json → Option (List Text)
  | .array items => items.mapM text?
  | _ => none

end Json

end Lectern
