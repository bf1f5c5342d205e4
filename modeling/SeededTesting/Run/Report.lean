import SeededTesting.Run.Lifecycle

/-! # Running a suite at one stroke

A suite can be set up and run with a single recording listener, alone or from within another run.
It then has a session of its own; what remains outside of it are the errors that were made, the
log and the sequence numbers that were used up.
-/

namespace SeededTesting

/-- The report of a session that has come to its end. -/
def Runner.report (r : Runner Procedure) (errors : ErrorStore) (s : Session) : RunReport where
  seed := r.seedChain
  description := r.description
  notifications := (s.recordedBy (.caller 0)).map (·.mapError errors.info)

/-- Runs a suite and gives the report, or else the error that kept it from starting or left the
run, together with the trace; interrupts pass. -/
def runSuite (host : Host) (suite : Suite Procedure) (settings : Option Settings)
    (predicate : Option (String → Bool)) : Act (Except Complaint RunReport × List Event) := do
  let before ← get
  match Runner.setUp suite settings host before.sequence with
  | .error e => return (.error e.complaint, [])
  | .ok (r, sequence) =>
    set { before with sequence, session := { predicate, subscribed := [.caller 0] } }
    let outcome ← Act.observe (r.run (r.audienceOf [.recording]))
    let after ← get
    set { after with session := before.session }
    let trace := after.session.trace.toList
    match outcome with
    | .ok () => return (.ok (r.report after.errors after.session), trace)
    | .error e =>
      let complaint := (after.errors.get e).toComplaint
      if complaint.kind.interrupt then throw e else return (.error complaint, trace)

end SeededTesting
