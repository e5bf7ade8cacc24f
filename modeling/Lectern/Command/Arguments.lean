import Lectern.Text

/-!
# Arguments

What stands on a command line after the name of the command: options with a long name and perhaps
a letter, and operands. The value of an option is the next argument, or it is attached, after an
equals sign to a long name and with or without one to a letter. Letters without values may stand
together. After two dashes alone there are only operands.

* `Arguments.read?` — the options and operands of a command line.
-/

namespace Lectern

/-- An **option** that a command knows. -/
structure CommandOption where
  name : Text
  letter : Option Char := none
  takesValue : Bool := true
  repeats : Bool := false
deriving DecidableEq, Repr

/-- What a command line **gives**: options with their values in order, where the value of a switch
is empty, and operands. -/
structure Arguments where
  options : List (Text × Text) := []
  operands : List Text := []
deriving DecidableEq, Repr

namespace Arguments

/-- The arguments with options before them. -/
def withOptions (options : List (Text × Text)) (arguments : Arguments) : Arguments :=
  { arguments with options := options ++ arguments.options }

/-- The arguments with an operand before them. -/
def withOperand (operand : Text) (arguments : Arguments) : Arguments :=
  { arguments with operands := operand :: arguments.operands }

/-! ### Reading -/

/-- The argument after which there are only operands. -/
def endOfOptions : Text := "--".toList

/-- Whether an argument can be an operand, or the value of the option before it. -/
def isPlain (argument : Text) : Bool := argument.head? != some '-' || argument = ['-']

/-- What a single argument gives: options with their values, and the name of an option whose value
is the next argument. -/
abbrev Given := List (Text × Text) × Option Text

/-- What an argument with a long name gives; `written` is the argument without its dashes. -/
def longName? (known : List CommandOption) (written : Text) : Option Given :=
  let name := written.takeWhile (· != '=')
  let attached := (written.drop name.length).tail?
  match known.find? fun option => option.name == name with
  | none => none
  | some option =>
    match option.takesValue, attached with
    | true, some value => some ([(name, value)], none)
    | true, none => some ([], some name)
    | false, none => some ([(name, [])], none)
    | false, some _ => none

/-- What an argument with letters gives. -/
def letters? (known : List CommandOption) : Text → Option Given
  | [] => some ([], none)
  | c :: rest =>
    match known.find? fun option => option.letter == some c with
    | none => none
    | some option =>
      if option.takesValue then
        match rest with
        | [] => some ([], some option.name)
        | '=' :: value => some ([(option.name, value)], none)
        | value => some ([(option.name, value)], none)
      else
        (letters? known rest).map fun (options, waiting) => ((option.name, []) :: options, waiting)

/-- What an argument that starts with a dash gives. -/
def dashed? (known : List CommandOption) : Text → Option Given
  | '-' :: '-' :: written => longName? known written
  | '-' :: letters => letters? known letters
  | _ => none

/-- The arguments of a command line, when the option `waiting` has no value yet. -/
def readFrom? (known : List CommandOption) : Option Text → List Text → Option Arguments
  | none, [] => some {}
  | some _, [] => none
  | some name, value :: rest =>
    if isPlain value then (readFrom? known none rest).map (withOptions [(name, value)]) else none
  | none, argument :: rest =>
    if argument = endOfOptions then some { operands := rest }
    else if isPlain argument then (readFrom? known none rest).map (withOperand argument)
    else match dashed? known argument with
      | none => none
      | some (options, waiting) => (readFrom? known waiting rest).map (withOptions options)

/-- The values of an option, in order. -/
def values (arguments : Arguments) (name : Text) : List Text :=
  (arguments.options.filter fun option => option.1 == name).map (·.2)

/-- Whether no option is given more often than it may be. -/
def isModest (known : List CommandOption) (arguments : Arguments) : Bool :=
  known.all fun option => option.repeats || (arguments.values option.name).length ≤ 1

/-- The **arguments** of a command line, if they fit the options that the command knows. -/
def read? (known : List CommandOption) (line : List Text) : Option Arguments :=
  (readFrom? known none line).filter (isModest known)

/-! ### Values -/

/-- The value of an option that may be given once. -/
def value? (arguments : Arguments) (name : Text) : Option Text := (arguments.values name).head?

/-- Whether a switch is given. -/
def has (arguments : Arguments) (name : Text) : Bool := (arguments.value? name).isSome

end Arguments

end Lectern
