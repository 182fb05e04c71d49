/-!
# Command lines

Arguments of a command with options that take one value, positional arguments, and subcommands. A
value may follow its option or be attached by `=`. An argument is settled when the next one is met:
then it is known whether its value is there, whether it was given before and whether the value is
accepted. After `--` there are positional arguments only.
-/

namespace Containment.Client

inductive UsageError where
  | help
  | missingEverything
  | missingSubcommand
  | unknownSubcommand
  | unknownArgument
  | missingArgument
  | missingValue
  | unwantedValue
  | invalidValue
  | conflict
  deriving DecidableEq

def UsageError.message : UsageError → String
  | .help => "usage: a command, its options and its arguments"
  | .missingEverything => "a command is required"
  | .missingSubcommand => "a subcommand is required"
  | .unknownSubcommand => "no such subcommand"
  | .unknownArgument => "no such argument"
  | .missingArgument => "an argument is missing"
  | .missingValue => "an option is without its value"
  | .unwantedValue => "a value is given where none is taken"
  | .invalidValue => "a value is not valid"
  | .conflict => "arguments exclude each other"

structure OptionRule where
  name : String
  accepts : String → Bool

structure CommandRule where
  options : List OptionRule := []
  /-- What each positional argument accepts. All of them are required. -/
  positionals : List (String → Bool) := []
  /-- Names of two options that exclude each other. -/
  exclusive : List (String × String) := []
  subcommands : List String := []

inductive Pending where
  | option (rule : OptionRule) (value : Option String)
  | positional (accepts : String → Bool) (value : String)

/-- What has been settled, and the argument that has not. -/
structure Given where
  options : List (String × String) := []
  positionals : List String := []
  pending : Option Pending := none

namespace Given

def isAwaitingValue (given : Given) : Bool :=
  match given.pending with
  | some (.option _ none) => true
  | _ => false

def addOption (given : Given) (rule : OptionRule) (value : String) : Except UsageError Given :=
  if (given.options.lookup rule.name).isSome then .error .conflict
  else if rule.accepts value then
    .ok { given with options := given.options ++ [(rule.name, value)] }
  else .error .invalidValue

def settle (given : Given) : Except UsageError Given :=
  let settled := { given with pending := none }
  match given.pending with
  | none => .ok settled
  | some (.option _ none) => .error .missingValue
  | some (.option rule (some value)) => settled.addOption rule value
  | some (.positional accepts value) =>
    if accepts value then .ok { settled with positionals := given.positionals ++ [value] }
    else .error .invalidValue

def positionalCount (given : Given) : Nat :=
  match given.pending with
  | some (.positional ..) => given.positionals.length + 1
  | _ => given.positionals.length

end Given

namespace CommandRule

variable (rule : CommandRule)

def option? (name : String) : Option OptionRule := rule.options.find? fun o => o.name == name

def readOption (given : Given) (text : List Char) : Except UsageError Given := do
  let name := String.ofList (text.takeWhile (· ≠ '='))
  let value :=
    match text.dropWhile (· ≠ '=') with
    | [] => none
    | _ :: value => some (String.ofList value)
  if name = "help" then
    if value.isSome then .error .unwantedValue
    else
      discard given.settle
      .error .help
  else
    match rule.option? name, value with
    | none, _ => .error .unknownArgument
    | some o, some value => (← given.settle).addOption o value
    | some o, none => return { ← given.settle with pending := some (.option o none) }

/-- The flags behind a single dash, of which only the one for help is known. -/
def readFlags (given : Given) : List Char → Except UsageError Given
  | 'h' :: _ => do
    discard given.settle
    .error .help
  | _ => .error .unknownArgument

def readPositional (given : Given) (behindDashes : Bool) (arg : String) :
    Except UsageError Given := do
  match rule.positionals[given.positionalCount]? with
  | some accepts => return { ← given.settle with pending := some (.positional accepts arg) }
  | none =>
    if rule.subcommands.isEmpty then .error .unknownArgument
    else if behindDashes && (arg = "help" || rule.subcommands.contains arg) then
      .error .unknownArgument
    else .error .unknownSubcommand

def readPlain (given : Given) (arg : String) : Except UsageError Given :=
  match given.pending with
  | some (.option o none) => .ok { given with pending := some (.option o (some arg)) }
  | _ => rule.readPositional given false arg

def readArgument (given : Given) (arg : String) : Except UsageError Given :=
  match arg.toList with
  | '-' :: '-' :: text => rule.readOption given text
  | '-' :: c :: flags => readFlags given (c :: flags)
  | _ => rule.readPlain given arg

def helpOn : List String → UsageError
  | [] => .help
  | [name] =>
    if name = "help" || rule.subcommands.contains name then .help else .unknownSubcommand
  | _ => .unknownSubcommand

/-- Reads the arguments up to a subcommand, which is given out with what follows it. -/
def readArguments (given : Given) (behindDashes : Bool) :
    List String → Except UsageError (Given × Option (String × List String))
  | [] => .ok (given, none)
  | arg :: args =>
    if behindDashes then do
      readArguments (← rule.readPositional given true arg) true args
    else if !given.isAwaitingValue && rule.subcommands.contains arg then
      .ok (given, some (arg, args))
    else if !given.isAwaitingValue && !rule.subcommands.isEmpty && arg = "help" then
      .error (rule.helpOn args)
    else if arg = "--" then readArguments given true args
    else do
      readArguments (← rule.readArgument given arg) false args

def complete (given : Given) : Except UsageError Given :=
  if rule.exclusive.any fun (a, b) =>
      (given.options.lookup a).isSome && (given.options.lookup b).isSome then .error .conflict
  else if given.positionals.length < rule.positionals.length then .error .missingArgument
  else .ok given

def readAll (args : List String) : Except UsageError Given := do
  let (given, _) ← rule.readArguments {} false args
  rule.complete (← given.settle)

/-- The arguments of a command that needs a subcommand, which is read first. -/
def readWithSubcommand (ruleOf : String → CommandRule) (args : List String) :
    Except UsageError (Given × String × Given) := do
  let (given, subcommand) ← rule.readArguments {} false args
  match subcommand with
  | none =>
    let given ← given.settle
    .error (if given.options.isEmpty then .missingEverything else .missingSubcommand)
  | some (name, args) =>
    let inner ← (ruleOf name).readAll args
    return (← rule.complete (← given.settle), name, inner)

end CommandRule

end Containment.Client
