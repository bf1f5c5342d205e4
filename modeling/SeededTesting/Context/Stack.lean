import SeededTesting.Failure.Kind
import SeededTesting.Random.Source

/-! # Context stacks

A run keeps the randomness that is active in a stack, the innermost scope on top. Looking for the
active randomness outside of any scope, or for a run outside of any run, is an error of the caller.
-/

namespace SeededTesting

/-- What went wrong with a context. -/
inductive ContextError where
  | popOfEmpty
  | nothingActive
  | noRun
deriving DecidableEq, Repr

def ContextError.message : ContextError → String
  | .popOfEmpty => "pop() on an empty randomness stack"
  | .nothingActive => "No randomness is active on the context stack"
  | .noRun => "No run context is active; this code must execute inside a runner"

def ContextError.complaint (e : ContextError) : Complaint :=
  ⟨.context, some e.message⟩

/-- Active values, the innermost first. -/
abbrev ContextStack (α : Type) := List α

namespace ContextStack

variable {α : Type}

def push (stack : ContextStack α) (value : α) : ContextStack α :=
  value :: stack

def pop : ContextStack α → Except ContextError (α × ContextStack α)
  | [] => .error .popOfEmpty
  | value :: rest => .ok (value, rest)

def current : ContextStack α → Except ContextError α
  | [] => .error .nothingActive
  | value :: _ => .ok value

def depth (stack : ContextStack α) : Nat :=
  stack.length

end ContextStack

/-- A draw of a negative number of bits. -/
def negativeWidth : Complaint :=
  ⟨.value, some "number of bits must be non-negative"⟩

end SeededTesting
