import SeededTesting.Seed.Chain
import SeededTesting.Text.Integer
import SeededTesting.Text.Quoted

/-! # Run configuration

A run is configured by settings: a seed chain that fixes the master seed and perhaps the seed of
every unit, the nightly mode, a number of iterations for every unit, and two filters by name.
Settings come from a caller or from the variables of an environment; only settings that hold up
make a `RunConfig`.
-/

namespace SeededTesting

/-- What a caller or an environment asks of a run. -/
structure Settings where
  seed : Option String := none
  nightly : Bool := false
  iterations : Option Int := none
  targetSuite : Option String := none
  targetUnit : Option String := none
deriving DecidableEq, Repr

/-- Why settings cannot configure a run. -/
inductive ConfigError where
  | malformedSeed (text : String) (reason : SeedError)
  | seedCount (text : String)
  | tooFewIterations (iterations : Int)
  | iterationsNotInteger (text : String)
  | notBoolean (name value : String)
deriving DecidableEq, Repr

/-- The names of the environment variables that are read. -/
def Settings.seedVariable : String := "SEEDRUNNER_SEED"
def Settings.nightlyVariable : String := "SEEDRUNNER_NIGHTLY"
def Settings.iterationsVariable : String := "SEEDRUNNER_ITERS"
def Settings.suiteVariable : String := "SEEDRUNNER_CLASS"
def Settings.unitVariable : String := "SEEDRUNNER_METHOD"

def ConfigError.message : ConfigError → String
  | .malformedSeed text reason =>
    "Invalid " ++ Settings.seedVariable ++ " specification: " ++ text ++
      " (" ++ reason.message ++ ")"
  | .seedCount text => "Invalid " ++ Settings.seedVariable ++ " specification: " ++ text
  | .tooFewIterations n => Settings.iterationsVariable ++ " must be >= 1: " ++ toString n
  | .iterationsNotInteger text =>
    Settings.iterationsVariable ++ " must be an integer: " ++ Text.quote text
  | .notBoolean name value => name ++ " must be a boolean, got " ++ Text.quote value

namespace Settings

/-- The seeds of the chain, none if no chain is set. -/
def seeds (s : Settings) : Except ConfigError (List Seed) :=
  match s.seed with
  | none => .ok []
  | some text =>
    match SeedChain.parse text with
    | .error reason => .error (.malformedSeed text reason)
    | .ok chain => if chain.isEmpty || chain.length > 2 then .error (.seedCount text) else .ok chain

end Settings

/-- Settings that hold up, with the seeds of their chain. -/
structure RunConfig extends Settings where
  chain : List Seed
  seeds_eq : toSettings.seeds = .ok chain
  iterations_pos : ∀ n, iterations = some n → 1 ≤ n
deriving DecidableEq, Repr

/-- Checks settings: the chain has one or two seeds, and a number of iterations is positive. -/
def Settings.check (s : Settings) : Except ConfigError RunConfig :=
  match seeds_eq : s.seeds with
  | .error e => .error e
  | .ok chain =>
    match iterations_eq : s.iterations with
    | none => .ok { s with chain, seeds_eq, iterations_pos := by simp [iterations_eq] }
    | some n =>
      if small : n < 1 then .error (.tooFewIterations n)
      else .ok { s with chain, seeds_eq, iterations_pos := by simp [iterations_eq]; omega }

namespace RunConfig

/-- The seed that the configuration fixes for the run. -/
def masterSeed (c : RunConfig) : Option Seed :=
  c.chain[0]?

/-- The seed that the configuration fixes for every unit. -/
def unitSeed (c : RunConfig) : Option Seed :=
  c.chain[1]?

end RunConfig

/-! ## Environments -/

/-- Variables of an environment with their values. -/
abbrev Environment := List (String × String)

/-- Words for a flag that is set. -/
def Flag.trueWords : List String := ["true", "yes", "on", "1"]

/-- Words for a flag that is not set; a blank value is one of them. -/
def Flag.falseWords : List String := ["false", "no", "off", "0", ""]

/-- Reads a flag in either case between blanks; a missing one has its default. -/
def Flag.parse (name : String) (value : Option String) (default : Bool) :
    Except ConfigError Bool :=
  match value with
  | none => .ok default
  | some text =>
    let word := String.ofList ((Text.trim text.toList).map Char.toLower)
    if Flag.trueWords.contains word then .ok true
    else if Flag.falseWords.contains word then .ok false
    else .error (.notBoolean name text)

namespace Environment

/-- The value of a variable. -/
def value? (env : Environment) (name : String) : Option String :=
  env.lookup name

/-- The value of a variable that is set to something. -/
def text? (env : Environment) (name : String) : Option String :=
  (env.value? name).filter (· ≠ "")

/-- The number of iterations; a blank value sets none. -/
def iterations (env : Environment) : Except ConfigError (Option Int) :=
  match env.value? Settings.iterationsVariable with
  | none => .ok none
  | some text =>
    if (Text.trim text.toList).isEmpty then .ok none
    else match Text.Integer.parse? .decimal text.toList with
      | some n => .ok (some n)
      | none => .error (.iterationsNotInteger text)

/-- The settings that an environment asks for. -/
def settings (env : Environment) : Except ConfigError Settings := do
  let iterations ← env.iterations
  let nightly ← Flag.parse Settings.nightlyVariable (env.value? Settings.nightlyVariable) false
  return {
    seed := env.text? Settings.seedVariable
    nightly
    iterations
    targetSuite := env.text? Settings.suiteVariable
    targetUnit := env.text? Settings.unitVariable }

/-- The configuration that an environment asks for. -/
def config (env : Environment) : Except ConfigError RunConfig := do
  (← env.settings).check

end Environment

end SeededTesting
