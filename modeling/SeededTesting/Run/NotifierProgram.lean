import SeededTesting.Run.Script

/-! # Programs over a notifier

A program subscribes listeners, cancels subscriptions and sends notifications; the listeners may
change who is subscribed while they are told. An error of a step is answered, an interrupt ends the
program.
-/

namespace SeededTesting.NotifierProgram

/-- A listener as a program declares it. -/
inductive Declaration where
  | recording
  | silent
  | scripted (tag : String) (reactions : Reactions Script)

def Declaration.listener (host : Host) : Declaration → Listener
  | .recording => .recording
  | .silent => .silent
  | .scripted tag reactions => .scripted tag (Script.reactionProcedures host reactions)

inductive Step where
  | add (listener : Nat)
  | remove (listener : Nat)
  /-- Sends a notification; seeds are recorded on its error before. -/
  | send (kind : NotificationKind) (name : String) (error : Option ErrorSource)
      (seeds : Option (List Seed))
deriving Repr

/-- Who is subscribed after a step, or the error that the step raised. -/
abbrev Answer := Except Complaint (List ListenerRef)

/-- Those who are behind the subscriptions of a program. -/
def audienceOf (listeners : List Listener) : Audience
  | .caller index => listeners.getD index .silent
  | .declared .. => .silent

def Step.perform (audience : Audience) : Step → Act Unit
  | .add listener => subscribe (.caller listener)
  | .remove listener => unsubscribe (.caller listener)
  | .send kind name source seeds => do
    let error ← source.mapM ErrorSource.make
    match error, seeds with
    | some e, some seeds => Act.augment e seeds
    | _, _ => pure ()
    audience.notify { kind, name, error }

/-- Performs a step and answers how it ended; interrupts pass. -/
def Step.settle (audience : Audience) (step : Step) : Act Answer :=
  Act.handle
    (do
      step.perform audience
      return .ok (← get).session.subscribed)
    fun e => return .error (← Act.complaint e)

/-- Performs each step on its own. -/
def settleAll (audience : Audience) : List Step → Act (List Answer)
  | [] => return []
  | step :: rest => do
    let answer ← step.settle audience
    return answer :: (← settleAll audience rest)

/-- What the steps of a program answer, the trace, and what each recording listener was told. -/
structure Outcome where
  answers : List Answer
  trace : List Event
  recorded : List (List (Notification ErrorInfo))

/-- Runs a program to its end, unless an interrupt ends it. -/
def run (host : Host) (sequence : Nat) (declarations : List Declaration) (steps : List Step) :
    Except Complaint Outcome := do
  let listeners := declarations.map (·.listener host)
  let (result, w) := (settleAll (audienceOf listeners) steps).runIn { sequence }
  let recorded := declarations.zipIdx.filterMap fun
    | (.recording, index) =>
      some ((w.session.recordedBy (.caller index)).map (·.mapError w.errors.info))
    | _ => none
  return { answers := ← result, trace := w.session.trace.toList, recorded }

end SeededTesting.NotifierProgram
