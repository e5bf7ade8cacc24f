import Lectern.Import.Manifest
import Mathlib.Data.List.Basic

/-!
# Searching Exports

Exports are a tree of choices: an object offers one of the conditions that are asked for, an array
any of its items, and a string is a target. `targets` lists all the targets that choices lead to,
those of the condition that is asked for first before the others and those of an item before later
items, so that the first of them is the one to take, and a choice that leads nowhere gives way to
the next.

The search of a manifest goes on to the next item of an array in this way, but in an object it
settles for the first condition that is there. So what it finds is always a target, but it can miss
the first one, or all of them, if the condition that it settles for leads nowhere.

## Main results

* `mem_targets_iff`: the targets that are listed are those that choices lead to.
* `reaches_of_target?`: what is found is one of them.
* `target?_eq_head?_targets`: the first is found where no condition stands in the way of another.
* `target?_search`: with which exports the search finds what it should.
* `target?_deadEnd`: a condition in the way of a default.
-/

namespace Lectern

namespace Json

/-- A member that counts is a member. -/
theorem mem_of_lastMember? {key : Text} {members : List (Option Text × Json)} {value : Json}
    (h : lastMember? key members = some value) : ∃ member ∈ members, member.2 = value := by
  obtain ⟨member, hfind, hvalue⟩ := Option.map_eq_some_iff.1 h
  exact ⟨member, List.mem_reverse.1 (List.mem_of_find?_eq_some hfind), hvalue⟩

/-- **Induction on values**, from the items of an array and from the members of an object that
count. -/
theorem inductionOnParts {motive : Json → Prop}
    (array : ∀ items, (∀ item ∈ items, motive item) → motive (.array items))
    (object : ∀ members, (∀ key value, lastMember? key members = some value → motive value) →
      motive (.object members))
    (null : motive .null) (bool : ∀ value, motive (.bool value))
    (number : ∀ value, motive (.number value)) (string : ∀ text?, motive (.string text?))
    (value : Json) : motive value := by
  refine inductionOnAll array (fun members ih => object members ?_) null bool number string value
  intro key value hvalue
  obtain ⟨member, hmember, rfl⟩ := mem_of_lastMember? hvalue
  exact ih member hmember

/-- The last member with a key, when the values are replaced. -/
theorem lastMember?_map {α β : Type} (f : α → β) (key : Text) (members : List (Option Text × α)) :
    lastMember? key (members.map fun member => (member.1, f member.2)) =
      (lastMember? key members).map f := by
  simp only [lastMember?, ← List.map_reverse, List.find?_map, Option.map_map]
  rfl

end Json

namespace Import.Manifest

variable {conditions : List Text} {exports part : Json} {members : List (Option Text × Json)}
  {target : Text}

/-! ### Choices -/

/-- Whether choices lead from exports to a part of them: the choice of a condition that is tried
in an object, and of any item in an array. -/
inductive Reaches (conditions : List Text) : Json → Json → Prop
  | here (exports : Json) : Reaches conditions exports exports
  | item {items : List Json} {item part : Json} :
      item ∈ items → Reaches conditions item part → Reaches conditions (.array items) part
  | member {members : List (Option Text × Json)} {key : Text} {value part : Json} :
      key ∈ triedConditions conditions → Json.lastMember? key members = some value →
      Reaches conditions value part → Reaches conditions (.object members) part

/-- Choices after choices. -/
theorem Reaches.trans {middle : Json} (h : Reaches conditions exports middle)
    (h' : Reaches conditions middle part) : Reaches conditions exports part := by
  induction h with
  | here => exact h'
  | item hitem _ ih => exact .item hitem (ih h')
  | member hkey hvalue _ ih => exact .member hkey hvalue (ih h')

mutual

/-- The **targets** that choices lead to: first those of the condition that is tried first, and
those of the first item. -/
def targets (conditions : List Text) : Json → List Text
  | .string text? => text?.toList
  | .array items => itemTargets conditions items
  | .object members => (triedConditions conditions).flatMap fun key =>
    (Json.lastMember? key (memberTargetLists conditions members)).getD []
  | _ => []

/-- The targets of items, one after the other. -/
def itemTargets (conditions : List Text) : List Json → List Text
  | [] => []
  | item :: rest => targets conditions item ++ itemTargets conditions rest

/-- The members of an object with the targets of each of them. -/
def memberTargetLists (conditions : List Text) :
    List (Option Text × Json) → List (Option Text × List Text)
  | [] => []
  | (key, value) :: rest => (key, targets conditions value) :: memberTargetLists conditions rest

end

/-- The member that **decides** in an object, for the search of a manifest. -/
def decider? (conditions : List Text) (members : List (Option Text × Json)) : Option Json :=
  firstMember? (triedConditions conditions) members

/-- Whether an object is a **dead end** for the search although it has a target: the condition that
decides leads nowhere, and another one would not. -/
def IsDeadEnd (conditions : List Text) (members : List (Option Text × Json)) : Prop :=
  ∃ value, decider? conditions members = some value ∧ targets conditions value = [] ∧
    targets conditions (.object members) ≠ []

/-! ### Equations -/

/-- The targets of an array. -/
theorem targets_array (conditions : List Text) (items : List Json) :
    targets conditions (.array items) = items.flatMap (targets conditions) := by
  rw [targets]
  induction items with
  | nil => rfl
  | cons item items ih => rw [itemTargets, ih, List.flatMap_cons]

/-- The targets of an object. -/
theorem targets_object (conditions : List Text) (members : List (Option Text × Json)) :
    targets conditions (.object members) = (triedConditions conditions).flatMap fun key =>
      ((Json.lastMember? key members).map (targets conditions)).getD [] := by
  have hlists : memberTargetLists conditions members =
      members.map fun member => (member.1, targets conditions member.2) := by
    induction members with
    | nil => rfl
    | cons member members ih => rw [memberTargetLists, ih, List.map_cons]
  simp only [targets, hlists, Json.lastMember?_map]

/-- What is found in an array. -/
theorem target?_array (conditions : List Text) (items : List Json) :
    target? conditions (.array items) = items.findSome? (target? conditions) := by
  rw [target?]
  induction items with
  | nil => rfl
  | cons item items ih =>
    rw [firstTarget?, ih, List.findSome?_cons]
    cases target? conditions item <;> rfl

/-- What is found in an object: what is found in the member that decides. -/
theorem target?_object (conditions : List Text) (members : List (Option Text × Json)) :
    target? conditions (.object members) =
      (decider? conditions members).bind (target? conditions) := by
  have htargets : memberTargets conditions members =
      members.map fun member => (member.1, target? conditions member.2) := by
    induction members with
    | nil => rfl
    | cons member members ih => rw [memberTargets, ih, List.map_cons]
  simp only [target?, decider?, firstMember?, htargets, Json.lastMember?_map]
  induction triedConditions conditions with
  | nil => rfl
  | cons key keys ih =>
    rw [List.findSome?_cons, List.findSome?_cons]
    cases Json.lastMember? key members with
    | none => exact ih
    | some value => rfl

/-- The member that decides is one that can be chosen, and its targets come first. -/
theorem exists_of_decider? {value : Json} (h : decider? conditions members = some value) :
    (∃ key ∈ triedConditions conditions, Json.lastMember? key members = some value) ∧
      ∃ others, targets conditions (.object members) = targets conditions value ++ others := by
  obtain ⟨earlier, key, later, hkeys, hvalue, hearlier⟩ := List.findSome?_eq_some_iff.1 h
  refine ⟨⟨key, by simp [hkeys], hvalue⟩, later.flatMap fun key =>
    ((Json.lastMember? key members).map (targets conditions)).getD [], ?_⟩
  have hnothing : (earlier.flatMap fun key =>
      ((Json.lastMember? key members).map (targets conditions)).getD []) = [] :=
    List.flatMap_eq_nil_iff.2 fun key hkey => by rw [hearlier key hkey]; rfl
  rw [targets_object, hkeys, List.flatMap_append, hnothing, List.flatMap_cons, hvalue]
  rfl

/-- An object in which nothing decides has no targets. -/
theorem targets_object_of_decider?_eq_none (h : decider? conditions members = none) :
    targets conditions (.object members) = [] := by
  rw [targets_object]
  refine List.flatMap_eq_nil_iff.2 fun key hkey => ?_
  rw [List.findSome?_eq_none_iff.1 h key hkey]
  rfl

/-! ### What is found -/

/-- **The targets that are listed** are those that choices lead to. -/
theorem mem_targets_iff :
    target ∈ targets conditions exports ↔ Reaches conditions exports (Json.ofText target) := by
  constructor
  · intro h
    induction exports using Json.inductionOnParts with
    | array items ih =>
      rw [targets_array] at h
      obtain ⟨item, hitem, hmem⟩ := List.mem_flatMap.1 h
      exact .item hitem (ih item hitem hmem)
    | object members ih =>
      rw [targets_object] at h
      obtain ⟨key, hkey, hmem⟩ := List.mem_flatMap.1 h
      cases hvalue : Json.lastMember? key members with
      | none => simp [hvalue] at hmem
      | some value =>
        rw [hvalue] at hmem
        exact .member hkey hvalue (ih key value hvalue hmem)
    | string text? =>
      obtain rfl : text? = some target := by simpa [targets] using h
      exact .here _
    | null | bool | number => simp [targets] at h
  · intro h
    generalize hend : Json.ofText target = last at h
    induction h with
    | here =>
      subst hend
      simp [targets, Json.ofText]
    | item hitem _ ih =>
      rw [targets_array]
      exact List.mem_flatMap.2 ⟨_, hitem, ih hend⟩
    | member hkey hvalue _ ih =>
      rw [targets_object]
      exact List.mem_flatMap.2 ⟨_, hkey, by rw [hvalue]; exact ih hend⟩

/-- **What is found** is a target that choices lead to. -/
theorem reaches_of_target? (h : target? conditions exports = some target) :
    Reaches conditions exports (Json.ofText target) := by
  induction exports using Json.inductionOnParts with
  | array items ih =>
    rw [target?_array] at h
    obtain ⟨item, hitem, hfound⟩ := List.exists_of_findSome?_eq_some h
    exact .item hitem (ih item hitem hfound)
  | object members ih =>
    rw [target?_object] at h
    obtain ⟨value, hdecider, hfound⟩ := Option.bind_eq_some_iff.1 h
    obtain ⟨⟨key, hkey, hvalue⟩, -⟩ := exists_of_decider? hdecider
    exact .member hkey hvalue (ih key value hvalue hfound)
  | string text? =>
    obtain rfl : text? = some target := by simpa [target?] using h
    exact .here _
  | null | bool | number => simp [target?] at h

/-- **The first target is found** where no object that choices lead to is a dead end. -/
theorem target?_eq_head?_targets
    (h : ∀ members, Reaches conditions exports (.object members) → ¬ IsDeadEnd conditions members) :
    target? conditions exports = (targets conditions exports).head? := by
  induction exports using Json.inductionOnParts with
  | array items ih =>
    have hitems : ∀ item ∈ items,
        target? conditions item = (targets conditions item).head? := fun item hitem =>
      ih item hitem fun members hreaches => h members (.item hitem hreaches)
    rw [target?_array, targets_array, List.head?_flatMap, ← List.head?_filterMap,
      ← List.head?_filterMap, List.filterMap_congr hitems]
  | object members ih =>
    rw [target?_object]
    cases hdecider : decider? conditions members with
    | none =>
      rw [targets_object_of_decider?_eq_none hdecider]
      rfl
    | some value =>
      obtain ⟨⟨key, hkey, hvalue⟩, others, htargets⟩ := exists_of_decider? hdecider
      have hfound : target? conditions value = (targets conditions value).head? :=
        ih key value hvalue fun inner hreaches => h inner (.member hkey hvalue hreaches)
      have hopen : targets conditions value = [] → targets conditions (.object members) = [] :=
        fun hnothing => Classical.byContradiction fun hothers =>
          h members (.here _) ⟨value, hdecider, hnothing, hothers⟩
      rw [Option.bind_some, hfound]
      cases hvalues : targets conditions value with
      | nil => rw [hopen hvalues]
      | cons first rest => rw [htargets, hvalues]; rfl
  | string text? => cases text? <;> rfl
  | null | bool | number => rfl

/-- **With which exports the search finds what it should.** The targets that are listed are those
that choices lead to, and what is found is one of them. On all that choices lead to, the search
finds the first target if there is any, if and only if no object there is a dead end. -/
theorem target?_search (conditions : List Text) (exports : Json) :
    (∀ target, target ∈ targets conditions exports ↔
      Reaches conditions exports (Json.ofText target)) ∧
    (∀ target, target? conditions exports = some target →
      Reaches conditions exports (Json.ofText target)) ∧
    ((∀ part, Reaches conditions exports part →
        target? conditions part = (targets conditions part).head?) ↔
      ∀ members, Reaches conditions exports (.object members) →
        ¬ IsDeadEnd conditions members) := by
  refine ⟨fun _ => mem_targets_iff, fun _ => reaches_of_target?, fun h members hreaches => ?_,
    fun h part hreaches => target?_eq_head?_targets fun members hinner => ?_⟩
  · rintro ⟨value, hdecider, hnothing, hothers⟩
    obtain ⟨⟨key, hkey, hvalue⟩, -⟩ := exists_of_decider? hdecider
    have hfound := h value (hreaches.trans (.member hkey hvalue (.here _)))
    have hobject := h (.object members) hreaches
    rw [target?_object, hdecider, Option.bind_some, hfound, hnothing] at hobject
    exact hothers (List.head?_eq_none_iff.1 hobject.symm)
  · exact h members (hreaches.trans hinner)

/-- **A condition in the way of a default.** What is imported is offered to browsers alone, so the
search ends there, although the default is a target; and in an array, a later target is taken. -/
theorem target?_deadEnd :
    let target : Json := .ofText "./d.js".toList
    let exports : Json := .ofMembers
      [("import".toList, .ofMembers [("browser".toList, .ofText "./b.js".toList)]),
        ("default".toList, target)]
    target? [] exports = none ∧ Reaches [] exports target ∧
      target? [] (.array [exports, .ofText "./e.js".toList]) = some "./e.js".toList ∧
      (targets [] (.array [exports, .ofText "./e.js".toList])).head? = some "./d.js".toList := by
  intro target exports
  have hdefault : "default".toList ∈ triedConditions [] := by decide
  exact ⟨rfl, .member hdefault rfl (.here target), rfl, rfl⟩

end Import.Manifest

end Lectern
