import SeededTesting.Text.Hex

/-! # Seeds

A seed is a 64-bit word. Integers of any sign and width stand for their residue modulo `2 ^ 64`,
and a seed is written in upper-case hexadecimal without padding.
-/

namespace SeededTesting

/-- What a stream of random numbers starts from. -/
abbrev Seed := UInt64

namespace Seed

/-- The residue of an integer modulo `2 ^ 64`. -/
def ofInt (n : Int) : Seed :=
  UInt64.ofInt n

/-- The hexadecimal text of a seed. -/
def format (seed : Seed) : String :=
  Text.Hex.write seed.toNat

/-- Folds the high bits of a word into its low bits. -/
def fold (k : Seed) : Seed :=
  k ^^^ (k >>> 33)

/-- Spreads every bit of a word over all bits of the result: two odd multiplications between
three folds. -/
def mix (k : Seed) : Seed :=
  fold (fold (fold k * 0xFF51AFD7ED558CCD) * 0xC4CEB9FE1A85EC53)

end Seed

end SeededTesting
