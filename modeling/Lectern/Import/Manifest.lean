import Lectern.FileTree
import Lectern.Import.Request

/-!
# Package Manifests

The manifest of a package says which of its files answer to which import. Its `exports` are a
target, or give targets by condition or by part of the package; `main` is the entry file of
packages without exports; and `type` tells the format of plain scripts.

* `Manifest.read` — the manifest of a directory.
* `Manifest.exportTarget?` — the target of a part of the package under given conditions.
-/

namespace Lectern.Import

/-- The part of a **manifest** that matters for imports. -/
structure Manifest where
  type : Option Text := none
  main : Option Text := none
  exports : Option Json := none
deriving Repr

namespace Manifest

/-- The names of the fields, in order. -/
def fieldNames : List Text := ["type".toList, "main".toList, "exports".toList]

/-- Reads exports, which may be any value that has a meaning and lies one level inside the
manifest. -/
def exports? (value : Json) : Option Json :=
  if value.isSound && decide (value.depth < Json.maxDepth) then some value else none

/-- A manifest from a record. -/
def ofJson? (document : Json) : Option Manifest := do
  let [type, main, exports] ← document.fields? fieldNames | none
  some {
    type := ← Json.optional? Json.text? type
    main := ← Json.optional? Json.text? main
    exports := ← Json.optional? exports? exports }

/-- The name of the file that holds a manifest. -/
def fileName : Path := Path.ofText "package.json".toList

/-- The **manifest** in a directory, if there is one. -/
def read (tree : FileTree) (directory : Path) : Except ImportError (Option Manifest) :=
  let path := Path.join directory fileName
  match tree.read path with
  | .error .missing => .ok none
  | .error _ => .error (.unreadable path)
  | .ok content =>
    match Text.decode? content with
    | none => .error (.unreadable path)
    | some s =>
      match (Json.parse? s).bind ofJson? with
      | some manifest => .ok (some manifest)
      | none => .error (.malformedManifest path)

/-! ### Exports -/

/-- The conditions of a request that names none. -/
def stockConditions : List Text := ["node".toList, "import".toList]

/-- The keys that are tried in an object of conditions, in order. -/
def triedConditions (conditions : List Text) : List Text :=
  (if conditions.isEmpty then stockConditions else conditions) ++ ["default".toList]

/-- The value under the first of `keys` that is there. -/
def firstMember? {α : Type} (keys : List Text) (members : List (Option Text × α)) : Option α :=
  keys.findSome? fun key => Json.lastMember? key members

mutual

/-- The **target** that exports give under conditions. Of an object, the first condition that it
has decides; of an array, the first item that gives a target. -/
def target? (conditions : List Text) : Json → Option Text
  | .string text? => text?
  | .array items => firstTarget? conditions items
  | .object members =>
    (firstMember? (triedConditions conditions) (memberTargets conditions members)).join
  | _ => none

/-- The target of the first item that gives one. -/
def firstTarget? (conditions : List Text) : List Json → Option Text
  | [] => none
  | item :: rest => (target? conditions item).or (firstTarget? conditions rest)

/-- The members of an object with what each of them gives. -/
def memberTargets (conditions : List Text) :
    List (Option Text × Json) → List (Option Text × Option Text)
  | [] => []
  | (key, value) :: rest => (key, target? conditions value) :: memberTargets conditions rest

end

/-- Whether an object gives targets by parts of the package: all its keys start with a dot. -/
def isPartMap (members : List (Option Text × Json)) : Bool :=
  members.all fun member => (member.1.getD []).head? == some '.'

/-- The key of a part of a package; the empty part is the package itself. -/
def partKey (part : Text) : Text := if part.isEmpty then ['.'] else '.' :: '/' :: part

/-- The exports that apply to a part of the package. -/
def exportsOf? (part : Text) : Json → Option Json
  | .object members =>
    if isPartMap members then Json.lastMember? (partKey part) members
    else if part.isEmpty then some (.object members) else none
  | exports => if part.isEmpty then some exports else none

/-- The **target** of a part of the package under conditions. -/
def exportTarget? (manifest : Manifest) (part : Text) (conditions : List Text) : Option Text :=
  (manifest.exports.bind (exportsOf? part)).bind (target? conditions)

end Manifest

end Lectern.Import
