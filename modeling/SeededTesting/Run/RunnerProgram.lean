import SeededTesting.Run.Script

/-! # Programs over one runner

A program sets up one runner and then runs it, perhaps several times and with filters changed in
between. Every run has a recording listener and listeners of its own, and is answered with what it
left behind.
-/

namespace SeededTesting.RunnerProgram

/-- A listener of the caller that acts by scripts. -/
structure Visitor where
  tag : String
  reactions : Reactions Script

def Visitor.listener (host : Host) (v : Visitor) : Listener :=
  .scripted v.tag (Script.reactionProcedures host v.reactions)

inductive Step where
  | filter (test : Option NameTest)
  | run (visitors : List Visitor)

/-- What a run left behind. -/
structure Outcome where
  state : RunState
  notifications : List (Notification ErrorInfo)
  trace : List Event
  /-- How many declared listeners are still subscribed. -/
  listenersLeft : Nat
  /-- Whether a context is still active. -/
  contextLeft : Bool
  /-- The error that left the run. -/
  raised : Option Complaint
  records : List LogRecord

inductive Answer where
  | filtered (state : RunState)
  | ran (outcome : Outcome)

/-- A session ahead of its next run, with so many listeners of the caller. -/
def nextSession (s : Session) (callers : Nat) : Session :=
  { s with
    trace := #[]
    recorded := #[]
    subscribed := (List.range callers).map .caller }

/-- Runs a runner and tells what it left behind. -/
def perform (r : Runner Procedure) (callers : List Listener) (w : World) : Outcome × World :=
  let start := { w with journal := #[], session := nextSession w.session callers.length }
  let (result, w) := (r.run (r.audienceOf callers)).runIn start
  let outcome := {
    state := w.session.state
    notifications := (w.session.recordedBy (.caller 0)).map (·.mapError w.errors.info)
    trace := w.session.trace.toList
    listenersLeft := w.session.subscribed.length - callers.length
    contextLeft := !w.contexts.isEmpty
    raised := match result with
      | .ok () => none
      | .error c => some c
    records := w.journal.toList }
  (outcome, w)

/-- Performs steps one after another. -/
def performAll (host : Host) (r : Runner Procedure) : List Step → World → List Answer
  | [], _ => []
  | .filter test :: rest, w =>
    let w := { w with session := { w.session with predicate := test.map NameTest.accepts } }
    .filtered w.session.state :: performAll host r rest w
  | .run visitors :: rest, w =>
    let (outcome, w) := perform r (.recording :: visitors.map (·.listener host)) w
    .ran outcome :: performAll host r rest w

/-- Sets up a runner, with a clock of its own if one is given, and performs steps on it. -/
def run (host : Host) (clock : Option Int) (sequence : Nat) (suite : Suite Script)
    (settings : Option Settings) (steps : List Step) :
    Except SetupError (Runner Procedure × List Answer) := do
  let suite := Script.suiteProcedures host suite
  let (r, sequence) ←
    Runner.setUp suite settings { host with clock := clock.getD host.clock } sequence
  return (r, performAll host r steps { sequence })

end SeededTesting.RunnerProgram
