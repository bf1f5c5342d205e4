import SeededTesting.Random.Twister

/-! # Draws from a generator

Numbers of any width, fractions, numbers below a bound and shuffles, each drawn from the 32-bit
words of a `Twister`.
-/

namespace SeededTesting.Twister

/-- Draws whole words, the first in the lowest place, and the last reduced to the remaining
bits. -/
def drawWords (t : Twister) : (words remaining : Nat) → Nat × Twister
  | 0, remaining =>
    if remaining = 0 then (0, t)
    else
      let (word, t) := t.step
      ((word >>> UInt32.ofNat (32 - remaining)).toNat, t)
  | words + 1, remaining =>
    let (word, t) := t.step
    let (rest, t) := t.drawWords words remaining
    (word.toNat + UInt32.size * rest, t)

/-- A number of a given width in bits. -/
def bits (t : Twister) (width : Nat) : Nat × Twister :=
  t.drawWords (width / 32) (width % 32)

/-- A fraction in units of `2 ^ -53`. -/
def fraction (t : Twister) : Nat × Twister :=
  let (high, t) := t.step
  let (low, t) := t.step
  ((high >>> 5).toNat * 0x4000000 + (low >>> 6).toNat, t)

/-- Number of bits of a number. -/
def bitLength (n : Nat) : Nat :=
  if n = 0 then 0 else n.log2 + 1

/-- Draws of the width of a bound until one is below it. -/
def belowWithin (bound : Nat) : (attempts : Nat) → Twister → Nat × Twister
  | 0, t => (0, t)
  | attempts + 1, t =>
    let (n, t) := t.bits (bitLength bound)
    if n < bound then (n, t) else belowWithin bound attempts t

/-- How many draws at or above a bound are passed over. Each is as likely as not, so this many in
a row do not come up. -/
def attempts : Nat := 4096

/-- A number below a positive bound. -/
def below (t : Twister) (bound : Nat) : Nat × Twister :=
  t.belowWithin bound attempts

/-- Shuffles the entries up to a position: from the last on, each changes places with one that is
not behind it. -/
def shuffleUpTo : (last : Nat) → Array α → Twister → Array α × Twister
  | 0, entries, t => (entries, t)
  | last + 1, entries, t =>
    let (other, t) := t.below (last + 2)
    shuffleUpTo last (entries.swapIfInBounds (last + 1) other) t

/-- A random order of the entries of a list. -/
def shuffle (t : Twister) (entries : List α) : List α × Twister :=
  let (shuffled, t) := shuffleUpTo (entries.length - 1) entries.toArray t
  (shuffled.toList, t)

/-! ## Sequences of draws -/

/-- One draw; the width of a number in bits may be asked for as a negative number. -/
inductive Draw where
  | fraction
  | bits (width : Int)
deriving DecidableEq, Repr

/-- Makes a draw, unless it is one of a negative width. -/
def draw? (t : Twister) : Draw → Option (Nat × Twister)
  | .fraction => some t.fraction
  | .bits width => if width < 0 then none else some (t.bits width.toNat)

/-- Makes draws one after another, if all of them can be made. -/
def drawAll? (t : Twister) : List Draw → Option (List Nat)
  | [] => some []
  | draw :: rest => do
    let (n, t) ← t.draw? draw
    return n :: (← t.drawAll? rest)

end SeededTesting.Twister
