import Composer.Console.Line
/-!
# Composer.Console.Arguments

**The arguments of the program.** Every option may be given once. An option with a value takes it
from after an equals sign or from the next argument; then the value may not look like an option.
-/

namespace Composer.Console

/-- What the program was asked to do. -/
structure Arguments where
  /-- The file of the settings. -/
  settings : Option String
  /-- The one text to answer. -/
  once : Option String
  /-- Whether views are shown as records. -/
  records : Bool
  /-- For how many seconds a lookup is waited for. -/
  patience : Option Nat
deriving DecidableEq, Repr

/-- Why the arguments make no sense. -/
inductive ArgumentError where
  /-- There is no such option. -/
  | unexpected (argument : String)
  /-- An option without the value it needs. -/
  | missingValue (option : String)
  /-- An option that was given before. -/
  | repeated (option : String)
  /-- A value that is no number. -/
  | notNumber (value : String)
deriving DecidableEq, Repr

/-- The text of an error. -/
def ArgumentError.message : ArgumentError → String
  | unexpected argument => "unexpected argument '" ++ argument ++ "' found"
  | missingValue option => "a value is required for '" ++ option ++ "' but none was supplied"
  | repeated option => "the argument '" ++ option ++ "' cannot be used multiple times"
  | notNumber value =>
    "invalid value '" ++ value ++ "' for '--timeout': invalid digit found in string"

/-- An option of the program. -/
inductive ProgramOption where
  | settings
  | once
  | records
  | patience
deriving DecidableEq, Repr

/-- The name of an option. -/
def ProgramOption.name : ProgramOption → String
  | settings => "--config"
  | once => "--once"
  | records => "--json"
  | patience => "--timeout"

/-- Every option. -/
def ProgramOption.all : List ProgramOption :=
  [settings, once, records, patience]

/-- The option that an argument names, with the value after the equals sign. -/
def option? (argument : String) : Option (ProgramOption × Option String) :=
  match argument.toList with
  | '-' :: 'c' :: '=' :: value => some (.settings, some (String.ofList value))
  | ['-', 'c'] => some (.settings, none)
  | '-' :: 'c' :: value => some (.settings, some (String.ofList value))
  | s =>
    let name := String.ofList (s.takeWhile (· ≠ '='))
    let value := match s.dropWhile (· ≠ '=') with
      | [] => none
      | _ :: value => some (String.ofList value)
    (ProgramOption.all.find? (·.name = name)).map fun o => (o, value)

namespace Arguments

/-- Nothing was asked for. -/
def empty : Arguments :=
  ⟨none, none, false, none⟩

/-- The arguments with the value of an option. -/
def withValue (a : Arguments) (o : ProgramOption) (value : String) :
    Except ArgumentError Arguments :=
  match o with
  | .settings =>
    if a.settings.isSome then .error (.repeated o.name) else .ok { a with settings := value }
  | .once =>
    if a.once.isSome then .error (.repeated o.name) else .ok { a with once := value }
  | .records => .error (.unexpected value)
  | .patience =>
    if a.patience.isSome then .error (.repeated o.name)
    else match number? value.toList with
      | some seconds => .ok { a with patience := seconds }
      | none => .error (.notNumber value)

/-- The arguments with the option for records. -/
def withRecords (a : Arguments) : Except ArgumentError Arguments :=
  if a.records then .error (.repeated ProgramOption.records.name)
  else .ok { a with records := true }

/-- True of a text that is an option and no value. -/
def looksLikeOption (argument : String) : Bool :=
  match argument.toList with
  | '-' :: _ :: _ => true
  | _ => false

/-- The arguments after those in `a`. -/
def readFrom (a : Arguments) : List String → Except ArgumentError Arguments
  | [] => .ok a
  | argument :: rest =>
    match option? argument, rest with
    | none, _ => .error (.unexpected argument)
    | some (.records, none), rest => a.withRecords >>= fun a => a.readFrom rest
    | some (o, some value), rest => a.withValue o value >>= fun a => a.readFrom rest
    | some (o, none), [] => .error (.missingValue o.name)
    | some (o, none), value :: rest =>
      if looksLikeOption value then .error (.missingValue o.name)
      else a.withValue o value >>= fun a => a.readFrom rest
  termination_by arguments => arguments.length

/-- What the program was asked to do. -/
def read (arguments : List String) : Except ArgumentError Arguments :=
  empty.readFrom arguments

end Arguments

end Composer.Console
