import SeededTesting.Random.Generator
import SeededTesting.Seed.Chain

/-! # Sources of randomness

A source is a seed with the generator that was started from it, if anything has been drawn yet.
Two sources with one seed and the same draws behind them give the same values from then on.
-/

namespace SeededTesting

structure RandomSource where
  seed : Seed
  generator : Option Twister := none
deriving DecidableEq, Repr

namespace RandomSource

/-- A source from which nothing has been drawn. -/
def fresh (seed : Seed) : RandomSource :=
  { seed }

/-- The generator of a source: the one in use, or a new one started from the seed. -/
def twister (s : RandomSource) : Twister :=
  s.generator.getD (Twister.ofNat s.seed.toNat)

/-- Draws from the generator of a source and keeps where the generator is left. -/
def draw (s : RandomSource) (take : Twister → α × Twister) : α × RandomSource :=
  let (value, t) := take s.twister
  (value, { s with generator := some t })

/-- A fraction in units of `2 ^ -53`. -/
def fraction (s : RandomSource) : Nat × RandomSource :=
  s.draw Twister.fraction

/-- A number of a given width in bits. -/
def bits (s : RandomSource) (width : Nat) : Nat × RandomSource :=
  s.draw (·.bits width)

/-- A child source whose seed is the next 64 bits. -/
def fork (s : RandomSource) : RandomSource × RandomSource :=
  let (n, s) := s.bits 64
  (fresh (UInt64.ofNat n), s)

/-- The text of a source is its seed as a chain. -/
def format (s : RandomSource) : String :=
  SeedChain.format [s.seed]

end RandomSource

end SeededTesting
