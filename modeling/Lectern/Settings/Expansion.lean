import Lectern.Text.Scan
import Lectern.Unicode.Alphanumeric

/-!
# References to Variables

A setting may refer to variables of the environment. In braces a reference can give a fallback
for a variable that is not set, after the signs `:-`; the braces end at the first closing one. A
value with at least one opening brace after a dollar sign is scanned as a whole: then names
directly after a dollar sign are references too, and a doubled dollar sign stands for one. All
other values are taken as they are.

* `expand` — a value with its references replaced, or the name of a variable that is not set.
-/

namespace Lectern.Settings

open Text (Finder Piece)

/-- An **environment**: the values of the variables that are set. -/
abbrev Environment := Text → Option Text

/-- A **reference** in a value: a doubled dollar sign, or a variable with its fallback. -/
inductive Reference where
  | sign
  | variable (name : Text) (fallback : Option Text)
deriving DecidableEq, Repr

/-- Whether `c` can be part of a name without braces. -/
def isNameChar (c : Char) : Bool := Unicode.isAlphanumeric c || c == '_'

/-- The two sides of the first `:-`. -/
def splitFallback? : Text → Option (Text × Text)
  | [] => none
  | ':' :: '-' :: rest => some ([], rest)
  | c :: rest => (splitFallback? rest).map fun (name, fallback) => (c :: name, fallback)

/-- The reference with the given text in its braces. A text that starts with `:-` has no name
before these signs, so it is a name as a whole. -/
def inBraces (inner : Text) : Reference :=
  match splitFallback? inner with
  | some (c :: name, fallback) => .variable (c :: name) (some fallback)
  | _ => .variable inner none

/-- The finder of references. -/
def reference? : Finder Reference := fun _ s =>
  match s with
  | '$' :: '$' :: _ => some (.sign, 2)
  | '$' :: '\x7b' :: rest =>
    let inner := rest.takeWhile (· != '\x7d')
    if inner.length < rest.length then some (inBraces inner, inner.length + 3) else none
  | '$' :: rest =>
    match rest.takeWhile isNameChar with
    | [] => none
    | name => some (.variable name none, name.length + 1)
  | _ => none

/-- The **value** of a reference; the error is the name of its variable. -/
def Reference.value (environment : Environment) : Reference → Except Text Text
  | .sign => .ok ['$']
  | .variable name fallback =>
    match environment name, fallback with
    | some value, _ => .ok value
    | none, some value => .ok value
    | none, none => .error name

/-- The text of pieces with the values of their references. -/
def substitute (environment : Environment) : List (Piece Reference) → Except Text Text
  | [] => .ok []
  | .kept c :: rest => (substitute environment rest).map (c :: ·)
  | .hit reference :: rest =>
    match reference.value environment with
    | .error name => .error name
    | .ok value => (substitute environment rest).map (value ++ ·)

/-- The signs without which a value has no references. -/
def openingSigns : Text := "$\x7b".toList

/-- A value with its references **replaced**; the values of variables are not scanned again. The
error is the name of the first variable that is not set and has no fallback. -/
def expand (environment : Environment) (value : Text) : Except Text Text :=
  if Text.includes openingSigns value then
    substitute environment (Text.pieces reference? value)
  else .ok value

/-- The variables that a value refers to. -/
def variableNames (value : Text) : List Text :=
  (Text.hits (Text.pieces reference? value)).filterMap fun
    | .sign => none
    | .variable name _ => some name

end Lectern.Settings
