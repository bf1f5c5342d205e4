import SeededTesting.Candidate
import SeededTesting.Failure.Kind
import SeededTesting.Suite.Validation

/-! # Runners

A runner is made for a suite that holds up to its checks and a configuration, given or taken from
an environment. All seeds and candidates are fixed then. A sequence number is used up only if
nothing else fixes the master seed.
-/

namespace SeededTesting

/-- Where a configuration comes from if none is given, and what the clock says. -/
structure Host where
  environment : Environment := []
  clock : Int := 0
deriving DecidableEq, Repr

/-- Why there is no runner. -/
inductive SetupError where
  | config (reason : ConfigError)
  | suite (violations : List Violation)
  | derivation (reason : DerivationError)
deriving DecidableEq, Repr

def DerivationError.complaint : DerivationError → Complaint
  | .chain reason => ⟨.named "SeedFormatError", some reason.message⟩
  | .name reason => ⟨.named "UnicodeEncodeError", some reason.message⟩
  | .tooMany => ⟨.named "OverflowError", some "cannot fit 'int' into an index-sized integer"⟩

namespace SetupError

/-- A chain that cannot be read. -/
@[match_pattern] def seed (reason : SeedError) : SetupError :=
  .derivation (.chain reason)

def complaint : SetupError → Complaint
  | .config reason => ⟨.configuration, some reason.message⟩
  | .suite violations => ⟨.configuration, some (Violation.report violations)⟩
  | .derivation reason => reason.complaint

/-- Whether the configuration or the suite is to blame; what is wrong with a chain is wrong with
either. -/
def blamesConfiguration : SetupError → Bool
  | .config _ | .suite _ | .seed _ => true
  | .derivation _ => false

end SetupError

structure Runner (Code : Type) where
  suite : Suite Code
  config : RunConfig
  derivation : Derivation
  blocks : List (UnitBlock Code)
deriving Repr

variable {Code : Type}

namespace Runner

/-- The master seed. -/
def master (r : Runner Code) : Seed :=
  r.derivation.master

/-- The master seed as a chain. -/
def seedChain (r : Runner Code) : String :=
  SeedChain.format [r.master]

def candidates (r : Runner Code) : List (Candidate Code) :=
  r.blocks.flatMap (·.candidates)

def description (r : Runner Code) : Description :=
  r.suite.describe r.blocks

/-- Derives the seeds of a suite and expands it; also gives the next sequence number. -/
def derive (suite : Suite Code) (config : RunConfig) (sequence : Nat) (clock : Int) :
    Except DerivationError (Runner Code × Nat) := do
  let (derivation, sequence) ←
    (Derivation.start suite.metadata config sequence clock).mapError .chain
  let blocks ← suite.expand derivation config
  return ({ suite, config, derivation, blocks }, sequence)

/-- Makes a runner from checked settings, or else from those of the environment. -/
def make (suite : Suite Code) (config : Option RunConfig) (host : Host) (sequence : Nat) :
    Except SetupError (Runner Code × Nat) := do
  unless suite.violations.isEmpty do throw (.suite suite.violations)
  let config ← match config with
    | some config => pure config
    | none => host.environment.config.mapError .config
  (derive suite config sequence host.clock).mapError .derivation

/-- Checks settings, if there are any, and makes a runner. -/
def setUp (suite : Suite Code) (settings : Option Settings) (host : Host) (sequence : Nat) :
    Except SetupError (Runner Code × Nat) := do
  let config ← match settings with
    | some settings => some <$> settings.check.mapError .config
    | none => pure none
  make suite config host sequence

/-! ## Filters -/

/-- Whether a candidate passes the filter of the configuration by unit and a test of its name. -/
def keeps (r : Runner Code) (predicate : Option (String → Bool)) (c : Candidate Code) : Bool :=
  r.config.targetUnit.all (· = c.unit.name) && predicate.all (· c.name)

/-- The candidates that are run: none if the configuration asks for another suite. -/
def survivors (r : Runner Code) (predicate : Option (String → Bool)) : List (Candidate Code) :=
  if r.config.targetSuite.all (· = r.suite.name) then r.candidates.filter (r.keeps predicate)
  else []

/-- Units are ignored on demand, and if they are for the nightly mode only, without it. -/
def ignores (r : Runner Code) (c : Candidate Code) : Bool :=
  c.unit.ignored ||
    (!r.config.nightly && (c.unit.metadata.nightly || r.suite.metadata.nightly))

end Runner

end SeededTesting
