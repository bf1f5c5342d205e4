import SeededTesting.Derivation
import SeededTesting.Description
import SeededTesting.DisplayName

/-! # Candidates

Every unit of a suite expands to one candidate for each of its iterations. Units that run more
than once group their candidates under a description of their own.
-/

namespace SeededTesting

/-- One execution of a unit under one seed. -/
structure Candidate (Code : Type) where
  unit : TestUnit Code
  iteration : Nat
  seed : Seed
  /-- The display name. -/
  name : String
deriving Repr

/-- The candidates of one unit. -/
structure UnitBlock (Code : Type) where
  unit : TestUnit Code
  count : Int
  candidates : List (Candidate Code)
deriving Repr

variable {Code : Type}

/-- The part of the description tree for the candidates of a unit. -/
def UnitBlock.descriptions (block : UnitBlock Code) : List Description :=
  let leaves := block.candidates.map fun c => Description.leaf c.name
  if block.count > 1 then [.node block.unit.name leaves] else leaves

/-- The block of a unit whose iterations have the given seeds. -/
def UnitBlock.ofSeeds (suite : String) (master : Seed) (unit : TestUnit Code) (count : Int)
    (seeds : List Seed) : UnitBlock Code where
  unit := unit
  count := count
  candidates := seeds.zipIdx.map fun (seed, iteration) =>
    { unit, iteration, seed
      name := DisplayName.format unit.name iteration count master seed suite }

/-- Expands a unit into its candidates. -/
def UnitBlock.expand (suite : String) (d : Derivation) (config : RunConfig) (unit : TestUnit Code) :
    Except DerivationError (UnitBlock Code) := do
  let count := iterationCount unit.metadata d.metadata config
  let seeds ← d.iterationSeeds unit.name unit.metadata count.toNat
  return .ofSeeds suite d.master unit count seeds

/-- Expands every unit of a suite, in declaration order. -/
def Suite.expand (suite : Suite Code) (d : Derivation) (config : RunConfig) :
    Except DerivationError (List (UnitBlock Code)) :=
  suite.units.mapM (UnitBlock.expand suite.name d config)

/-- The description tree of a suite with expanded units. -/
def Suite.describe (suite : Suite Code) (blocks : List (UnitBlock Code)) : Description :=
  .node suite.name (blocks.flatMap UnitBlock.descriptions)

end SeededTesting
