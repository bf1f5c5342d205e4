/-! # Arguments of a command line

Options have a long name and perhaps a short one. An option with a value takes what is attached to
it, or else the next argument, whatever that looks like; everything after `--` is positional.
Where a subcommand follows, the first positional argument ends the options.
-/

namespace SeededTesting.Command

/-- A value that an option or an argument takes. -/
structure ValueSpec where
  /-- What stands for the value in a help page. -/
  placeholder : String := "TEXT"
  required : Bool := false
  /-- What a help page says about a value that is not given. -/
  fallback : String := "None"
deriving DecidableEq, Repr

/-- An option that a command has. -/
structure OptionSpec where
  long : String
  short : Option Char := none
  /-- The value that the option takes, if any. -/
  value : Option ValueSpec := none
  help : String
deriving DecidableEq, Repr

def OptionSpec.takesValue (spec : OptionSpec) : Bool :=
  spec.value.isSome

/-- The option that every command has. -/
def helpOption : OptionSpec :=
  { long := "help", help := "Show this message and exit." }

/-- What one argument is taken for. -/
inductive ArgumentKind where
  | terminator
  | positional
  | flag (option : String)
  | option (option : String) (attached : Option String)
  | invalid
deriving DecidableEq, Repr

/-- Options, each with its value, and positional arguments, in the order of their occurrence. -/
structure Arguments where
  flags : List String := []
  options : List (String × String) := []
  positionals : List String := []
deriving DecidableEq, Repr

namespace Arguments

def hasFlag (a : Arguments) (option : String) : Bool :=
  a.flags.contains option

/-- All values of an option. -/
def values (a : Arguments) (option : String) : List String :=
  (a.options.filter (·.1 = option)).map (·.2)

/-- The value of an option that may be given once; the last one counts. -/
def value? (a : Arguments) (option : String) : Option String :=
  (a.values option).getLast?

end Arguments

namespace ArgumentKind

/-- The part of an argument before the first `=`, and the part after it. -/
def splitValue : List Char → List Char × Option (List Char)
  | [] => ([], none)
  | c :: rest =>
    if c = '=' then ([], some rest)
    else
      let (name, value) := splitValue rest
      (c :: name, value)

/-- An argument that starts with two dashes, which are left out here. -/
def ofLong (specs : List OptionSpec) (body : List Char) : ArgumentKind :=
  let (name, value) := splitValue body
  match specs.find? (·.long.toList = name), value with
  | some spec, value =>
    if spec.takesValue then .option spec.long (value.map String.ofList)
    else if value.isNone then .flag spec.long
    else .invalid
  | none, _ => .invalid

/-- An argument that starts with one dash: the letter of an option and what is attached to it. -/
def ofShort (specs : List OptionSpec) (letter : Char) (attached : List Char) : ArgumentKind :=
  match specs.find? (·.short = some letter) with
  | none => .invalid
  | some spec =>
    if spec.takesValue then
      .option spec.long (if attached.isEmpty then none else some (String.ofList attached))
    else if attached.isEmpty then .flag spec.long
    else .invalid

/-- What an argument is taken for. -/
def of (specs : List OptionSpec) (argument : String) : ArgumentKind :=
  match argument.toList with
  | ['-', '-'] => .terminator
  | '-' :: '-' :: body => ofLong specs body
  | '-' :: letter :: attached => ofShort specs letter attached
  | _ => .positional

end ArgumentKind

namespace Arguments

/-- Reads arguments. With `mixed`, options may follow positional arguments. There is no reading if
an option is unknown, lacks its value or has one that it does not take. -/
def parse? (specs : List OptionSpec) (mixed : Bool) : List String → Option Arguments
  | [] => some {}
  | argument :: rest =>
    match ArgumentKind.of specs argument with
    | .terminator => some { positionals := rest }
    | .invalid => none
    | .positional =>
      if mixed then
        (parse? specs mixed rest).map fun a => { a with positionals := argument :: a.positionals }
      else some { positionals := argument :: rest }
    | .flag option =>
      (parse? specs mixed rest).map fun a => { a with flags := option :: a.flags }
    | .option option (some value) =>
      (parse? specs mixed rest).map fun a => { a with options := (option, value) :: a.options }
    | .option option none =>
      match rest with
      | [] => none
      | value :: rest =>
        (parse? specs mixed rest).map fun a => { a with options := (option, value) :: a.options }

end Arguments

end SeededTesting.Command
