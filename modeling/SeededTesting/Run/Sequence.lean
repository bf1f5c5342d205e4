import SeededTesting.Run.Runner

/-! # Sequence numbers of a process

Runs of one process share a sequence. Whoever asks for the next number uses it up, and so does a
derivation that needs one for its master seed; the others leave the sequence alone.
-/

namespace SeededTesting

inductive SequenceStep where
  | next
  | derive (metadata : Metadata) (settings : Settings) (clock : Int)
deriving DecidableEq, Repr

/-- A sequence number, or the master seed of a derivation. -/
inductive SequenceAnswer where
  | number (n : Nat)
  | master (seed : Seed)
deriving DecidableEq, Repr

namespace SequenceStep

/-- Performs a step and gives the sequence number after it. -/
def perform (sequence : Nat) : SequenceStep → Except SetupError (SequenceAnswer × Nat)
  | .next => .ok (.number sequence, sequence + 1)
  | .derive metadata settings clock => do
    let config ← settings.check.mapError .config
    let (d, sequence) ← (Derivation.start metadata config sequence clock).mapError .seed
    return (.master d.master, sequence)

/-- Performs steps one after another; an error ends them all. -/
def performAll : (sequence : Nat) → List SequenceStep → Except SetupError (List SequenceAnswer)
  | _, [] => .ok []
  | sequence, step :: rest => do
    let (answer, sequence) ← step.perform sequence
    return answer :: (← performAll sequence rest)

end SequenceStep

end SeededTesting
