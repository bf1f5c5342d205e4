import SeededTesting.Description
import SeededTesting.Failure.Store
import SeededTesting.Notification
import SeededTesting.Seed.Basic

/-! # Events of a run

The trace of a run is the sequence of calls that the runner makes to its collaborators, together
with what their scripts observe and what listeners hear.
-/

namespace SeededTesting

/-- The state of a runner. -/
inductive RunState where
  | created
  | filtering
  | idle
  | classSetup
  | runningUnits
  | classTeardown
  | done
deriving DecidableEq, Repr

def RunState.name : RunState → String
  | .created => "created"
  | .filtering => "filtering"
  | .idle => "idle"
  | .classSetup => "class_setup"
  | .runningUnits => "running_units"
  | .classTeardown => "class_teardown"
  | .done => "done"

/-- The number of a test instance, unless the factory gave none. A factory counts from one, but
hooks can be invoked with any number. -/
abbrev Instance := Option Int

/-- What a script sees. -/
inductive Observation where
  | fraction (n : Nat)
  | bits (n : Nat)
  | seed (seed : Seed)
  | depth (n : Nat)
  | context (target : String) (nightly : Bool) (runner : Seed)
  | state (state : RunState)
  | forked (child : Seed)
  | popped (seed : Seed)
  | caught (error : Complaint)
deriving DecidableEq, Repr

/-- What is left when a run has come to its end. -/
structure RunReport where
  /-- The seed chain of the run. -/
  seed : String
  description : Description
  notifications : List (Notification ErrorInfo)
deriving Repr

/-- One event of a run. Labels tell whose script an observation belongs to. -/
inductive Event where
  | called (label : String) (arguments : List Instance)
  | instanceMade (number : Nat)
  | ruleBuilt (tag unit : String) (target : Instance)
  | ruleEntered (tag : String)
  | ruleCaught (tag : String) (error : Complaint)
  | ruleLeft (tag : String)
  | listenerMade (tag : String)
  /-- A listener hears of a failure with its summary and its seed chains. -/
  | heard (tag : String) (kind : NotificationKind) (name : String)
      (failure : Option (String × Option String))
  | observed (label : String) (observation : Observation)
  /-- Another suite was run within this run. -/
  | nested (label : String) (outcome : Except Complaint RunReport) (trace : List Event)

end SeededTesting
