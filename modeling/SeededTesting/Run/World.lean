import SeededTesting.Context.Stack
import SeededTesting.Log.Record
import SeededTesting.Run.Event

/-! # What a run works on

Runs change a world: the error objects that were made, the error that is being handled, the
contexts of all runs that have not ended, and the session of the innermost one. A session holds
what belongs to one runner and to those who listen to it.
-/

namespace SeededTesting

/-- The context of one run, with the randomness that is active in it. -/
structure RunContext where
  /-- The seed of the run. -/
  runner : Seed
  /-- The name of the suite. -/
  target : String
  nightly : Bool
  stack : ContextStack RandomSource := []
deriving DecidableEq, Repr

/-- A listener that is subscribed: one of the caller, or one that a declared factory made. Those
made by a factory are told apart by serial numbers, but for a shared one, which is always the
same. -/
inductive ListenerRef where
  | caller (index : Nat)
  | declared (index : Nat) (serial : Option Nat)
deriving DecidableEq, Repr

structure Session where
  trace : Array Event := #[]
  /-- How many test instances were made. -/
  instances : Nat := 0
  /-- How many listeners were made. -/
  listeners : Nat := 0
  state : RunState := .created
  /-- Which candidates are run, by display name. -/
  predicate : Option (String → Bool) := none
  /-- Those who are notified, in this order. -/
  subscribed : List ListenerRef := []
  /-- Those whom the run itself subscribed. -/
  declared : List ListenerRef := []
  /-- What recording listeners were told. -/
  recorded : Array (ListenerRef × Notification ErrorId) := #[]
  /-- The context of the last run, as it was left. -/
  lastContext : Option RunContext := none

/-- What one recording listener was told. -/
def Session.recordedBy (s : Session) (listener : ListenerRef) : List (Notification ErrorId) :=
  (s.recorded.toList.filter (·.1 = listener)).map (·.2)

/-- Adds a notification to what a recording listener was told, with its place there. -/
def Session.record (s : Session) (listener : ListenerRef) (n : Notification ErrorId) : Session :=
  let seq := (s.recordedBy listener).length
  { s with recorded := s.recorded.push (listener, { n with seq := some seq }) }

structure World where
  errors : ErrorStore := {}
  handling : Option ErrorId := none
  /-- The contexts of runs, the innermost first. -/
  contexts : List RunContext := []
  /-- The next sequence number for seeds that nothing fixes. -/
  sequence : Nat := 0
  journal : Array LogRecord := #[]
  session : Session := {}

end SeededTesting
