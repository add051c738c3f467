import JavaAtlas.Config

namespace JavaAtlas.CommandLine

/-! # Reading arguments

A command has options, which are given by their names in any order, and arguments, which are given
in order. A value stands behind an equals sign or is the next argument; it is checked when the
next option or argument comes, or at the end. Behind `--` all are arguments.
-/

/-- Why arguments cannot be used, or need not be. -/
inductive UsageError where
  | displayHelp
  | displayVersion
  | helpOnMissingArgument
  | unknownArgument
  | invalidSubcommand
  | missingRequiredArgument
  | invalidValue
  | valueValidation
  | argumentConflict
  | tooManyValues
deriving DecidableEq, Inhabited, Repr

/-- The wording of an error. -/
def UsageError.message : UsageError → String
  | .displayHelp | .displayVersion => ""
  | .helpOnMissingArgument => "a subcommand is required but one was not provided"
  | .unknownArgument => "unexpected argument found"
  | .invalidSubcommand => "unrecognized subcommand"
  | .missingRequiredArgument => "the required arguments were not all provided"
  | .invalidValue => "invalid value for an argument"
  | .valueValidation => "a value could not be read"
  | .argumentConflict => "an argument cannot be used multiple times"
  | .tooManyValues => "unexpected value for an argument"

/-- The name of an error. -/
def UsageError.name : UsageError → String
  | .displayHelp => "DisplayHelp"
  | .displayVersion => "DisplayVersion"
  | .helpOnMissingArgument => "DisplayHelpOnMissingArgumentOrSubcommand"
  | .unknownArgument => "UnknownArgument"
  | .invalidSubcommand => "InvalidSubcommand"
  | .missingRequiredArgument => "MissingRequiredArgument"
  | .invalidValue => "InvalidValue"
  | .valueValidation => "ValueValidation"
  | .argumentConflict => "ArgumentConflict"
  | .tooManyValues => "TooManyValues"

/-- What values an option takes. -/
inductive ValueKind where
  /-- Any text. -/
  | text
  /-- A text that is not empty. -/
  | path
  /-- A number of 64 bits that is not negative. -/
  | count
  /-- One of some names. -/
  | choice (names : List String)
deriving DecidableEq, Inhabited, Repr

/-- Checks a value. -/
def ValueKind.check (value : String) : ValueKind → Except UsageError Unit
  | .text => .ok ()
  | .path => if value = "" then .error .invalidValue else .ok ()
  | .count =>
    if (parseNumber? 18446744073709551616 value).isSome then .ok () else .error .valueValidation
  | .choice names => if names.contains value then .ok () else .error .invalidValue

/-- How an option is given. -/
inductive OptionForm where
  /-- Without a value, at most once. -/
  | flag
  /-- With a value, at most once. -/
  | single (kind : ValueKind)
  /-- With a value, any number of times. -/
  | repeated (kind : ValueKind)
deriving DecidableEq, Inhabited, Repr

/-- An option. -/
structure OptionSpec where
  /-- The name without the two dashes in front of it. -/
  name : String
  form : OptionForm
  required : Bool := false
  /-- What stands for the value in help. -/
  placeholder : String := ""
  /-- The value if none is given. -/
  default : Option String := none
  /-- What help says about the option. -/
  note : String := ""
  /-- What help says about each of its values. -/
  choiceNotes : List (String × String) := []
deriving DecidableEq, Inhabited, Repr

/-- An argument that is given by its place. -/
structure ArgumentSpec where
  /-- What stands for it in help. -/
  placeholder : String
  /-- What help says about it. -/
  note : String := ""
deriving DecidableEq, Inhabited, Repr

/-- A command: what it does, its options and its arguments. -/
structure CommandSpec where
  name : String
  about : String
  options : List OptionSpec
  arguments : List ArgumentSpec := []
deriving DecidableEq, Inhabited, Repr

/-- An option of which the values are being read. -/
structure PendingOption where
  option : OptionSpec
  values : List String
deriving DecidableEq, Inhabited, Repr

/-- What has been read of the arguments of a command. -/
structure Reading where
  /-- The options that were given, with their values. -/
  options : List (String × List String) := []
  /-- The arguments that were given. -/
  arguments : List String := []
  pending : Option PendingOption := none
  /-- The next argument may be the value of the pending option. -/
  awaitsValue : Bool := false
  /-- All that follows are arguments. -/
  onlyArguments : Bool := false
deriving DecidableEq, Inhabited, Repr

namespace Reading

/-- Takes in an option with its values. -/
def give (r : Reading) (o : OptionSpec) (values : List String) : Except UsageError Reading := do
  let before := r.options.lookup o.name
  let store (values : List String) : Reading :=
    { r with options := (o.name, values) :: r.options.filter (·.1 ≠ o.name) }
  match o.form with
  | .flag => if before.isSome then throw .argumentConflict else return store []
  | .single kind =>
    if values.isEmpty then throw .invalidValue
    if before.isSome then throw .argumentConflict
    values.forM (kind.check ·)
    return store values
  | .repeated kind =>
    if values.isEmpty then throw .invalidValue
    values.forM (kind.check ·)
    return store (before.getD [] ++ values)

/-- Takes in the pending option. -/
def settle (r : Reading) : Except UsageError Reading :=
  match r.pending with
  | none => .ok r
  | some p => Reading.give { r with pending := none, awaitsValue := false } p.option p.values

/-- Reads an option by its name. -/
def readLong (c : CommandSpec) (r : Reading) (name : String) (value : Option String) :
    Except UsageError Reading := do
  if name = "help" then
    if value.isSome then throw .tooManyValues
    let _ ← r.settle
    throw .displayHelp
  match c.options.find? (·.name == name) with
  | none => throw .unknownArgument
  | some o =>
    match o.form, value with
    | .flag, some _ => throw .tooManyValues
    | .flag, none => (← r.settle).give o []
    | _, some value => (← r.settle).give o [value]
    | _, none =>
      let r ← r.settle
      return { r with pending := some { option := o, values := [] }, awaitsValue := true }

/-- Reads letters behind a single dash. Only that for help is known. -/
def readShort (r : Reading) : List Char → Except UsageError Reading
  | 'h' :: _ => do
    let _ ← r.settle
    throw .displayHelp
  | _ => throw .unknownArgument

/-- Reads an argument of the command. -/
def readArgument (c : CommandSpec) (r : Reading) (arg : String) : Except UsageError Reading :=
  if r.arguments.length < c.arguments.length then do
    let r ← r.settle
    return { r with arguments := r.arguments ++ [arg] }
  else .error .unknownArgument

/-- The name and the value of a long option. -/
def splitLong (rest : List Char) : String × Option String :=
  let name := String.ofList (rest.takeWhile (· != '='))
  match rest.dropWhile (· != '=') with
  | _ :: value => (name, some (String.ofList value))
  | [] => (name, none)

/-- Reads the next of the arguments given. -/
def next (c : CommandSpec) (r : Reading) (arg : String) : Except UsageError Reading :=
  if r.onlyArguments then r.readArgument c arg
  else
    match arg.toList with
    | [ '-', '-'] => .ok { r with onlyArguments := true }
    | '-' :: '-' :: rest =>
      let (name, value) := splitLong rest
      r.readLong c name value
    | '-' :: x :: rest => r.readShort (x :: rest)
    | _ =>
      match r.awaitsValue, r.pending with
      | true, some p =>
        .ok { r with pending := some { p with values := p.values ++ [arg] }, awaitsValue := false }
      | _, _ => r.readArgument c arg

/-- Fails if something is missing. -/
def complete (c : CommandSpec) (r : Reading) : Except UsageError Reading :=
  let missing := c.options.any fun o => o.required && (r.options.lookup o.name).isNone
  if missing || r.arguments.length < c.arguments.length then .error .missingRequiredArgument
  else .ok r

end Reading

/-- Reads the arguments of a command. -/
def CommandSpec.read (c : CommandSpec) (args : List String) : Except UsageError Reading := do
  let r ← args.foldlM (Reading.next c) {}
  (← r.settle).complete c

namespace Reading

/-- Whether a flag was given. -/
def flag (r : Reading) (name : String) : Bool := (r.options.lookup name).isSome

/-- All values of an option. -/
def values (r : Reading) (name : String) : List String := (r.options.lookup name).getD []

/-- The value of an option. -/
def value? (r : Reading) (name : String) : Option String := (r.values name).head?

/-- The value of an option that is a number. -/
def count? (r : Reading) (name : String) : Option Nat :=
  (r.value? name).bind (parseNumber? 18446744073709551616)

/-- The argument at a place. -/
def argument (r : Reading) (index : Nat) : String := (r.arguments[index]?).getD ""

end Reading

end JavaAtlas.CommandLine
