import SeededTesting.Seed.Chain
import SeededTesting.Suite.Basic

/-! # Validation of suites

A suite is checked before any seed is derived. The check lists every violation, in a fixed order.
-/

namespace SeededTesting

/-- The part of a suite that a declaration belongs to. -/
inductive Place where
  | suite (name : String)
  | unit (suite name : String)
deriving DecidableEq, Repr

def Place.describe : Place → String
  | .suite name => "Suite " ++ name
  | .unit owner name => "Test unit " ++ owner ++ "#" ++ name

/-- One thing that is wrong with a suite. -/
inductive Violation where
  | emptySuiteName
  | factoryNotCallable (suite : String)
  | malformedSeed (place : Place) (reason : SeedError)
  | tooManySeeds (place : Place) (limit : Nat) (chain : String)
  | tooFewIterations (place : Place) (iterations : Int)
  | hookNotCallable (phase : Phase) (owner hook : String)
  | emptyUnitName (suite : String)
  | duplicateUnit (place : Place)
  | bodyNotCallable (place : Place)
deriving DecidableEq, Repr

def Violation.message : Violation → String
  | .emptySuiteName => "Suite name must not be empty"
  | .factoryNotCallable suite => "Suite " ++ suite ++ ": factory is not callable"
  | .malformedSeed place reason => place.describe ++ " seed: " ++ reason.message
  | .tooManySeeds place limit chain =>
    place.describe ++ " seed: at most " ++ toString limit ++ " seed(s) allowed, got " ++
      Text.quote chain
  | .tooFewIterations place n =>
    place.describe ++ " repeat: iterations must be >= 1, got " ++ toString n
  | .hookNotCallable phase owner hook =>
    phase.name ++ " hook " ++ owner ++ "#" ++ hook ++ " is not callable"
  | .emptyUnitName suite => "Suite " ++ suite ++ ": test unit with an empty name"
  | .duplicateUnit place => place.describe ++ ": duplicate name"
  | .bodyNotCallable place => place.describe ++ ": body is not callable"

/-- The message about a suite with violations, one line for each. -/
def Violation.report (violations : List Violation) : String :=
  "Invalid suite definition:\n  " ++ String.intercalate "\n  " (violations.map message)

/-- The violation `v`, if a condition is met. -/
def flag (condition : Bool) (v : Violation) : List Violation :=
  if condition then [v] else []

/-- What is wrong with a declared seed that may have so many components. -/
def Metadata.seedViolations (place : Place) (limit : Nat) (m : Metadata) : List Violation :=
  match m.seed with
  | none => []
  | some chain =>
    match SeedChain.parse chain with
    | .error reason => [.malformedSeed place reason]
    | .ok seeds => flag (seeds.length > limit) (.tooManySeeds place limit chain)

/-- What is wrong with a declared repetition. -/
def Metadata.repetitionViolations (place : Place) (m : Metadata) : List Violation :=
  match m.repetition with
  | none => []
  | some r => flag (r.iterations < 1) (.tooFewIterations place r.iterations)

/-- What is wrong with a seed and a repetition, in this order. -/
def Metadata.violations (place : Place) (limit : Nat) (m : Metadata) : List Violation :=
  m.seedViolations place limit ++ m.repetitionViolations place

variable {Code : Type}

/-- The hooks of a level that cannot be called, phase by phase. -/
def Level.violations (level : Level Code) : List Violation :=
  Phase.all.flatMap fun phase =>
    (level.hooks phase).flatMap fun hook =>
      flag hook.code.isNone (.hookNotCallable phase level.owner hook.name)

/-- What is wrong with a unit that comes after units of the given names. -/
def TestUnit.violations (suite : String) (earlier : List String) (unit : TestUnit Code) :
    List Violation :=
  let place := Place.unit suite unit.name
  flag (unit.name == "") (.emptyUnitName suite) ++
    flag (earlier.contains unit.name) (.duplicateUnit place) ++
    flag unit.body.isNone (.bodyNotCallable place) ++
    unit.metadata.violations place 1

/-- What is wrong with units that come after units of the given names. -/
def TestUnit.listViolations (suite : String) : (earlier : List String) → List (TestUnit Code) →
    List Violation
  | _, [] => []
  | earlier, unit :: rest =>
    unit.violations suite earlier ++ listViolations suite (unit.name :: earlier) rest

/-- Everything that is wrong with a suite. -/
def Suite.violations (suite : Suite Code) : List Violation :=
  flag (suite.name == "") .emptySuiteName ++
    flag suite.factory.isNone (.factoryNotCallable suite.name) ++
    suite.metadata.violations (.suite suite.name) 2 ++
    suite.levels.flatMap Level.violations ++
    TestUnit.listViolations suite.name [] suite.units

end SeededTesting
