import SeededTesting.Command.Help
import SeededTesting.Text.Integer

/-! # Requests

The commands and their arguments. Help comes before any complaint about values and positional
arguments, but after one about options.
-/

namespace SeededTesting.Command

/-- The suite of a plan that names none. -/
def defaultSuite : String := "Suite"

/-- What the plan of a run is asked for. -/
structure PlanRequest where
  seed : String
  units : List String
  iterations : Option Int := none
  constantSeed : Bool := false
  suite : String := defaultSuite
  json : Bool := false
deriving DecidableEq, Repr

inductive Request where
  | version
  | parseChain (chain : String) (json : Bool)
  | stripName (name : String) (json : Bool)
  | plan (plan : PlanRequest)
deriving DecidableEq, Repr

/-- Why arguments are no request. -/
inductive Refusal where
  /-- The page of a command is asked for. -/
  | help (command : CommandSpec)
  | usage
deriving DecidableEq, Repr

/-! ## Commands -/

def jsonOption : OptionSpec :=
  { long := "json", help := "Output as JSON" }

def parseCommand : CommandSpec where
  path := ["seedrunner", "seed", "parse"]
  summary := "Decode a seed chain into its components."
  examples := ["seedrunner seed parse \"[1F:A3]\"", "seedrunner seed parse 1F --json"]
  arguments := [{ name := "chain", help := "Seed chain, e.g. [1F:A3]" }]
  ownOptions := [jsonOption]

def planCommand : CommandSpec where
  path := ["seedrunner", "seed", "plan"]
  summary := "Show the candidates and seeds a run with the given seed would produce."
  examples := ["seedrunner seed plan --seed \"[1]\" --unit testFoo --iters 3",
    "seedrunner seed plan --seed \"[1:A3]\" --unit testFoo --unit testBar"]
  ownOptions := [
    { long := "seed", short := some 's', value := some { required := true }
      help := "Master seed chain, e.g. [1] or [1:A3]" },
    { long := "unit", short := some 'u', value := some { required := true }
      help := "Test unit name (repeatable)" },
    { long := "iters", short := some 'i', value := some { placeholder := "INTEGER" }
      help := "Iterations per unit" },
    { long := "constant", help := "Reuse the unit seed for every iteration" },
    { long := "suite", value := some { fallback := defaultSuite }
      help := "Suite name used in display names" },
    jsonOption]

def stripCommand : CommandSpec where
  path := ["seedrunner", "seed", "strip"]
  summary := "Strip the iteration index and seed chain from a display name."
  examples := ["seedrunner seed strip \"testFoo#2 [1:A3](pkg.FooTest)\""]
  arguments := [{ name := "name", help := "Candidate display name" }]
  ownOptions := [jsonOption]

/-- The commands about seeds. -/
def seedCommand : CommandSpec where
  path := ["seedrunner", "seed"]
  summary := "Seed chain operations"
  subcommands := [("parse", parseCommand.summary), ("plan", planCommand.summary),
    ("strip", stripCommand.summary)]

def versionCommand : CommandSpec where
  path := ["seedrunner", "version"]
  summary := "Show version information."

/-- The command that all others belong to. -/
def rootCommand : CommandSpec where
  path := ["seedrunner"]
  summary := "Reproducible randomized test runner tools"
  subcommands := [("seed", seedCommand.summary), ("version", versionCommand.summary)]

/-! ## Reading -/

namespace Request

/-- Reads the arguments of a command. -/
def read (command : CommandSpec) (arguments : List String) : Except Refusal Arguments :=
  match Arguments.parse? command.options (!command.isGroup) arguments with
  | none => .error .usage
  | some a => if a.hasFlag helpOption.long then .error (.help command) else .ok a

/-- The only positional argument. -/
def single (a : Arguments) : Except Refusal String :=
  match a.positionals with
  | [argument] => .ok argument
  | _ => .error .usage

/-- Complains about positional arguments. -/
def noPositionals (a : Arguments) : Except Refusal Unit :=
  if a.positionals.isEmpty then .ok () else .error .usage

def ofVersion (arguments : List String) : Except Refusal Request := do
  noPositionals (← read versionCommand arguments)
  return .version

def ofParse (arguments : List String) : Except Refusal Request := do
  let a ← read parseCommand arguments
  return .parseChain (← single a) (a.hasFlag "json")

def ofStrip (arguments : List String) : Except Refusal Request := do
  let a ← read stripCommand arguments
  return .stripName (← single a) (a.hasFlag "json")

/-- The number of iterations that is asked for. -/
def iterations (a : Arguments) : Except Refusal (Option Int) :=
  match a.value? "iters" with
  | none => .ok none
  | some text =>
    match Text.Integer.parse? .decimal text.toList with
    | some n => .ok (some n)
    | none => .error .usage

/-- A plan needs a seed and at least one unit. -/
def ofPlan (arguments : List String) : Except Refusal Request := do
  let a ← read planCommand arguments
  noPositionals a
  let iterations ← iterations a
  match a.value? "seed", a.values "unit" with
  | some seed, unit :: units =>
    return .plan {
      seed, units := unit :: units, iterations
      constantSeed := a.hasFlag "constant"
      suite := (a.value? "suite").getD defaultSuite
      json := a.hasFlag "json" }
  | _, _ => .error .usage

/-- Goes on with the subcommand that is named, which reads the arguments after its name. -/
def dispatch (group : CommandSpec)
    (subcommands : List (String × (List String → Except Refusal Request)))
    (arguments : List String) : Except Refusal Request := do
  let a ← read group arguments
  match a.positionals with
  | [] => .error .usage
  | name :: rest =>
    match subcommands.lookup name with
    | some subcommand => subcommand rest
    | none => .error .usage

/-- The request of a command line. -/
def ofArguments : List String → Except Refusal Request :=
  dispatch rootCommand [("version", ofVersion),
    ("seed", dispatch seedCommand [("parse", ofParse), ("strip", ofStrip), ("plan", ofPlan)])]

end Request

end SeededTesting.Command
