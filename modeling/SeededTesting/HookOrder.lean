import SeededTesting.Random.Generator
import SeededTesting.Seed.NameHash
import SeededTesting.Suite.Basic

/-! # The order of hooks

Before a test the hooks of ancestors are called first, after it those of descendants. Within one
level the hooks are shuffled by a generator of their own, which follows from the active seed and
the phase, so their order can be reproduced and takes nothing from the stream that tests draw
from.
-/

namespace SeededTesting

/-- What tells the generators of the phases apart. -/
def Phase.salt (phase : Phase) : Seed :=
  Seed.mix (Seed.ofBytes phase.name.toUTF8.toList)

/-- The number from which the hooks of a phase are shuffled. An active number wider than a seed
keeps its high bits, and a negative one, taken in two's complement, its sign. -/
def Phase.number (phase : Phase) : (active : Int) → Int
  | .ofNat n => .ofNat (n ^^^ phase.salt.toNat)
  | .negSucc n => .negSucc (n ^^^ phase.salt.toNat)

/-- The generator that shuffles the hooks of a phase. -/
def Phase.generator (phase : Phase) (active : Int) : Twister :=
  Twister.ofNat (phase.number active).natAbs

variable {Code : Type}

/-- The hooks of one level in the order of their names; hooks of one name keep their order. -/
def Level.sortedHooks (level : Level Code) (phase : Phase) : List (Hook Code) :=
  (level.hooks phase).mergeSort fun a b => a.name ≤ b.name

/-- The hooks of the levels, each group sorted, in the order of their calls for a phase. -/
def hookGroups (levels : List (Level Code)) (phase : Phase) : List (List (Hook Code)) :=
  let groups := levels.map (·.sortedHooks phase)
  if phase.ancestorsFirst then groups.reverse else groups

/-- Shuffles groups one after another with one generator. -/
def shuffleGroups {α : Type} : List (List α) → Twister → List (List α) × Twister
  | [], t => ([], t)
  | group :: groups, t =>
    let (shuffled, t) := t.shuffle group
    let (rest, t) := shuffleGroups groups t
    (shuffled :: rest, t)

/-- The hooks of a phase in the order of their calls, and where the generator is left. -/
def resolveHooks (levels : List (Level Code)) (phase : Phase) (t : Twister) :
    List (Hook Code) × Twister :=
  let (groups, t) := shuffleGroups (hookGroups levels phase) t
  (groups.flatten, t)

/-- The hooks of a phase in the order that follows from the active seed. -/
def hooksFor (levels : List (Level Code)) (phase : Phase) (active : Int) : List (Hook Code) :=
  (resolveHooks levels phase (phase.generator active)).1

/-- How the hooks of phases are shuffled one after another: for each phase as it follows from an
active number, or for all of them by one generator. -/
inductive Shuffling where
  | perPhase (active : Int)
  | shared (generator : Twister)
deriving DecidableEq, Repr

/-- The hooks of a phase in the order of their calls, and how those of the next one are shuffled. -/
def Shuffling.resolve (levels : List (Level Code)) (phase : Phase) :
    Shuffling → List (Hook Code) × Shuffling
  | .perPhase active => (hooksFor levels phase active, .perPhase active)
  | .shared t =>
    let (hooks, t) := resolveHooks levels phase t
    (hooks, .shared t)

end SeededTesting
