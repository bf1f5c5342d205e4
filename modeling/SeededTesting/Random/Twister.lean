/-! # The Mersenne twister

The 32-bit generator MT19937: a state of 624 words, started from a key of words of any length and
twisted as a whole when all its words have been given out.
-/

namespace SeededTesting

/-- The words of the state and the position of the next word to give out. -/
structure Twister where
  words : Array UInt32
  next : Nat
deriving DecidableEq, Repr

namespace Twister

/-- Number of words of a state. -/
def size : Nat := 624

/-- Distance of the word that a twist mixes in. -/
def offset : Nat := 397

/-- How each word of a linear start follows from the word before it. -/
def seedWord (before : UInt32) (position : Nat) : UInt32 :=
  (before ^^^ (before >>> 30)) * 1812433253 + UInt32.ofNat position

/-- Adds words to a linear start until their count is reached. -/
def seedWords : (count : Nat) → Array UInt32 → Array UInt32
  | 0, words => words
  | count + 1, words =>
    seedWords count (words.push (seedWord (words.getD (words.size - 1) 0) words.size))

/-- The linear start from one word. -/
def linearStart (seed : UInt32) : Array UInt32 :=
  seedWords (size - 1) #[seed]

/-- Wraps a position behind the last word around to the second, copying the last word in front. -/
def wrap (words : Array UInt32) (position : Nat) : Array UInt32 × Nat :=
  if position ≥ size then (words.setIfInBounds 0 (words.getD (size - 1) 0), 1)
  else (words, position)

/-- Works the words of the key into the state, from a position of the state and of the key on. -/
def absorbKey (key : Array UInt32) :
    (count : Nat) → (position keyPosition : Nat) → Array UInt32 → Array UInt32 × Nat
  | 0, position, _, words => (words, position)
  | count + 1, position, keyPosition, words =>
    let before := words.getD (position - 1) 0
    let mixed := (words.getD position 0 ^^^ ((before ^^^ (before >>> 30)) * 1664525)) +
      key.getD keyPosition 0 + UInt32.ofNat keyPosition
    let (words, position) := wrap (words.setIfInBounds position mixed) (position + 1)
    absorbKey key count position (if keyPosition + 1 ≥ key.size then 0 else keyPosition + 1) words

/-- Spreads what the key left in the state, from a position on. -/
def spread : (count : Nat) → (position : Nat) → Array UInt32 → Array UInt32
  | 0, _, words => words
  | count + 1, position, words =>
    let before := words.getD (position - 1) 0
    let mixed := (words.getD position 0 ^^^ ((before ^^^ (before >>> 30)) * 1566083941)) -
      UInt32.ofNat position
    let (words, position) := wrap (words.setIfInBounds position mixed) (position + 1)
    spread count position words

/-- The generator of a key. -/
def ofKey (key : Array UInt32) : Twister :=
  let (words, position) := absorbKey key (max size key.size) 1 0 (linearStart 19650218)
  ⟨(spread (size - 1) position words).setIfInBounds 0 0x80000000, size⟩

/-- The little-endian 32-bit words of a number; zero has no word. -/
def keyWords (n : Nat) : List UInt32 :=
  if n = 0 then [] else UInt32.ofNat (n % UInt32.size) :: keyWords (n / UInt32.size)
decreasing_by simp only [UInt32.size]; omega

/-- The generator of a number: its words are the key, and zero has the key of one zero word. -/
def ofNat (n : Nat) : Twister :=
  ofKey (if n = 0 then #[0] else (keyWords n).toArray)

/-- The word that a twist makes of two neighbours and the word at the offset. -/
def twistWord (current following distant : UInt32) : UInt32 :=
  let joined := (current &&& 0x80000000) ||| (following &&& 0x7fffffff)
  distant ^^^ (joined >>> 1) ^^^ (if joined &&& 1 = 1 then 0x9908b0df else 0)

/-- Twists the words of a state in place, from a position on. -/
def twistFrom : (count : Nat) → (position : Nat) → Array UInt32 → Array UInt32
  | 0, _, words => words
  | count + 1, position, words =>
    let twisted := twistWord (words.getD position 0) (words.getD ((position + 1) % size) 0)
      (words.getD ((position + offset) % size) 0)
    twistFrom count (position + 1) (words.setIfInBounds position twisted)

/-- Scrambles the bits of a word that is given out. -/
def temper (word : UInt32) : UInt32 :=
  let word := word ^^^ (word >>> 11)
  let word := word ^^^ ((word <<< 7) &&& 0x9d2c5680)
  let word := word ^^^ ((word <<< 15) &&& 0xefc60000)
  word ^^^ (word >>> 18)

/-- Gives out the next word. -/
def step (t : Twister) : UInt32 × Twister :=
  let t := if t.next ≥ size then ⟨twistFrom size 0 t.words, 0⟩ else t
  (temper (t.words.getD t.next 0), { t with next := t.next + 1 })

end Twister

end SeededTesting
