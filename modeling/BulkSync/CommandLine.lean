namespace BulkSync

/-- The arguments of a command: those that stand alone, and the options with their values. -/
structure Arguments where
  positional : List String
  options : List (String × String)

namespace Arguments

def empty : Arguments := ⟨[], []⟩

def addPositional (arguments : Arguments) (value : String) : Arguments :=
  { arguments with positional := arguments.positional ++ [value] }

/-- An option has to be known, and may be given once. -/
def addOption? (known : List String) (arguments : Arguments) (name value : String) :
    Option Arguments :=
  if name ∈ known ∧ name ∉ arguments.options.map Prod.fst then
    some { arguments with options := arguments.options ++ [(name, value)] }
  else none

def value? (arguments : Arguments) (name : String) : Option String :=
  arguments.options.lookup name

end Arguments

/-- What an argument announces by its dashes. -/
inductive ArgumentForm where
  | plain
  | endOfOptions
  | option (name : String)
  | optionWith (name value : String)
  | unknown

/-- A single dash is a plain argument; the value of a long option may follow an equals sign. -/
def ArgumentForm.of (argument : String) : ArgumentForm :=
  match argument.toList with
  | ['-'] => .plain
  | ['-', '-'] => .endOfOptions
  | '-' :: '-' :: cs =>
    let name := String.ofList (cs.takeWhile (· ≠ '='))
    match cs.dropWhile (· ≠ '=') with
    | [] => .option name
    | _ :: value => .optionWith name (String.ofList value)
  | '-' :: _ => .unknown
  | _ => .plain

/-- Whether an argument can be the value of the option before it. -/
def ArgumentForm.isPlain : ArgumentForm → Bool
  | .plain => true
  | _ => false

/-- Sorts arguments into positional ones and options, each option with a value. -/
def readArguments? (known : List String) : List String → Arguments → Option Arguments
  | [], arguments => some arguments
  | [argument], arguments =>
    match ArgumentForm.of argument with
    | .plain => some (arguments.addPositional argument)
    | .endOfOptions => some arguments
    | .optionWith name value => arguments.addOption? known name value
    | .option _ => none
    | .unknown => none
  | argument :: next :: rest, arguments =>
    match ArgumentForm.of argument with
    | .plain => readArguments? known (next :: rest) (arguments.addPositional argument)
    | .endOfOptions =>
      some { arguments with positional := arguments.positional ++ next :: rest }
    | .optionWith name value => do
      let arguments ← arguments.addOption? known name value
      readArguments? known (next :: rest) arguments
    | .option name =>
      if (ArgumentForm.of next).isPlain then do
        let arguments ← arguments.addOption? known name next
        readArguments? known rest arguments
      else none
    | .unknown => none

end BulkSync
