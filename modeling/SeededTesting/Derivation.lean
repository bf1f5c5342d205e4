import SeededTesting.Config
import SeededTesting.Seed.NameHash
import SeededTesting.Suite.Basic

/-! # Seed derivation

Every seed of a run follows from its master seed, unless it is fixed more precisely. The master
seed comes from the configuration, else from the suite, else from a number that no other run of
the process has and the clock.
-/

namespace SeededTesting

/-- Why the seeds of a unit cannot be had: a declared chain cannot be read, the name of the unit has
no hash, or one seed is to be repeated too often. -/
inductive DerivationError where
  | chain (reason : SeedError)
  | name (reason : Text.EncodingError)
  | tooMany
deriving DecidableEq, Repr

/-- The state from which the seeds of a run are derived. -/
structure Derivation where
  metadata : Metadata
  master : Seed
  /-- The seed that the configuration fixes for every unit. -/
  override : Option Seed
deriving DecidableEq, Repr

namespace Derivation

/-- The master seed of a run that nothing fixes. -/
def fallbackSeed (sequence : Nat) (clock : Int) : Seed :=
  Seed.mix (Seed.ofInt (Int.ofNat sequence + clock))

/-- The outermost seed of a declared chain. -/
def firstSeed (chain : String) : Except SeedError Seed := do
  return (← SeedChain.parse chain).headD 0

/-- Starts a derivation; also gives the next sequence number, which only a fallback uses up. -/
def start (metadata : Metadata) (config : RunConfig) (sequence : Nat) (clock : Int) :
    Except SeedError (Derivation × Nat) :=
  let override := config.unitSeed
  match config.masterSeed, metadata.seed with
  | some master, _ => .ok ({ metadata, master, override }, sequence)
  | none, some chain => do
    let master ← firstSeed chain
    return ({ metadata, master, override }, sequence)
  | none, none => .ok ({ metadata, master := fallbackSeed sequence clock, override }, sequence + 1)

/-- The seed that follows from the master seed and the name of a unit. -/
def hashedSeed (d : Derivation) (unit : Text.CodePoints) : Except DerivationError Seed :=
  (d.master ^^^ ·) <$> (nameHash unit).mapError .name

/-- The seed that follows from the suite: the second of its chain, else the master seed with the
name of the unit worked in. -/
def inheritedSeed (d : Derivation) (unit : Text.CodePoints) : Except DerivationError Seed := do
  match d.metadata.seed with
  | none => d.hashedSeed unit
  | some chain =>
    match (← (SeedChain.parse chain).mapError .chain)[1]? with
    | some seed => return seed
    | none => d.hashedSeed unit

/-- The base seed of a unit: the configured one, else the one it declares, else the inherited
one. -/
def unitSeed (d : Derivation) (unit : Text.CodePoints) (declared : Metadata) :
    Except DerivationError Seed :=
  match d.override, declared.seed with
  | some seed, _ => .ok seed
  | none, some chain => (firstSeed chain).mapError .chain
  | none, none => d.inheritedSeed unit

/-- Whether all iterations of a unit share its base seed. -/
def constantSeed (d : Derivation) (declared : Metadata) : Bool :=
  match d.override, declared.repetition, d.metadata.repetition with
  | some _, _, _ => true
  | none, some r, _ => r.constantSeed
  | none, none, some r => r.constantSeed
  | none, none, none => false

/-- The seed of an iteration, made from the base seed of its unit. -/
def iterationSeed (base : Seed) (iteration : Nat) : Seed :=
  base ^^^ Seed.mix (UInt64.ofNat iteration)

/-- A list of a given length has a word with a sign for its length. -/
def lengthLimit : Nat := Nat.pow 2 63

/-- The seeds of so many iterations of a unit. A base seed that they all share is repeated at once,
so their number must be the length of a list; that memory may run out before is left aside. -/
def iterationSeeds (d : Derivation) (unit : Text.CodePoints) (declared : Metadata) (count : Nat) :
    Except DerivationError (List Seed) := do
  let base ← d.unitSeed unit declared
  if d.constantSeed declared then
    if count < lengthLimit then return List.replicate count base else throw .tooMany
  else return (List.range count).map (iterationSeed base)

end Derivation

/-- How often a unit is run: as configured, else as it declares, else as the suite declares, else
once. -/
def iterationCount (declared suite : Metadata) (config : RunConfig) : Int :=
  match config.iterations, declared.repetition, suite.repetition with
  | some n, _, _ => n
  | none, some r, _ => r.iterations
  | none, none, some r => r.iterations
  | none, none, none => 1

end SeededTesting
