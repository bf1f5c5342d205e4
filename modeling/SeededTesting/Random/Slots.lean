import SeededTesting.Context.Stack

/-! # Programs over sources of randomness

A program makes sources, draws from them and compares them. Sources are numbered in the order in
which they are made; each keeps its own generator.
-/

namespace SeededTesting

/-- All sources of a program. -/
abbrev SourceTable := Array RandomSource

namespace SourceTable

def source (table : SourceTable) (slot : Nat) : RandomSource :=
  table.getD slot (.fresh 0)

/-- Draws from one source; the others stay as they are. -/
def draw {α : Type} (table : SourceTable) (slot : Nat) (take : RandomSource → α × RandomSource) :
    α × SourceTable :=
  let (value, s) := take (table.source slot)
  (value, table.setIfInBounds slot s)

/-- Forks a source; the child gets the next slot. -/
def fork (table : SourceTable) (slot : Nat) : RandomSource × SourceTable :=
  let (child, table) := table.draw slot RandomSource.fork
  (child, table.push child)

end SourceTable

/-- One operation on sources. -/
inductive SourceStep where
  | make (seed : Seed)
  | fork (slot : Nat)
  | fraction (slot : Nat)
  | bits (slot : Nat) (width : Int)
  | format (slot : Nat)
  | describe (slot : Nat)
  | keepsGenerator (slot : Nat)
  | compare (slot other : Nat)
deriving DecidableEq, Repr

/-- What an operation answers. -/
inductive SourceAnswer where
  | number (n : Nat)
  | text (text : String)
  | holds (b : Bool)
  /-- Whether two sources are equal; equal sources have equal hashes, and a source is never equal
  to its seed. -/
  | compared (equal : Bool)
  | complaint (c : Complaint)
deriving DecidableEq, Repr

namespace SourceStep

/-- Sources are equal if their seeds are, whatever was drawn from them. -/
def run (table : SourceTable) : SourceStep → SourceAnswer × SourceTable
  | .make seed => (.number seed.toNat, table.push (.fresh seed))
  | .fork slot =>
    let (child, table) := table.fork slot
    (.number child.seed.toNat, table)
  | .fraction slot =>
    let (n, table) := table.draw slot RandomSource.fraction
    (.number n, table)
  | .bits slot width =>
    if width < 0 then (.complaint negativeWidth, table)
    else
      let (n, table) := table.draw slot (·.bits width.toNat)
      (.number n, table)
  | .format slot => (.text (table.source slot).format, table)
  | .describe slot =>
    (.text ("Randomness(seed=" ++ toString (table.source slot).seed.toNat ++ ")"), table)
  | .keepsGenerator _ => (.holds true, table)
  | .compare slot other =>
    (.compared ((table.source slot).seed == (table.source other).seed), table)

/-- Runs operations one after another. -/
def runAll : List SourceStep → SourceTable → List SourceAnswer
  | [], _ => []
  | step :: rest, table =>
    let (answer, table) := step.run table
    answer :: runAll rest table

end SourceStep

end SeededTesting
