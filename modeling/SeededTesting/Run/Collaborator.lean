import SeededTesting.Run.Act
import SeededTesting.Suite.Basic

/-! # Calls to collaborators

What a hook, a factory, a test body, a rule or a listener does is a procedure, which is told the
label under which it is run. Every call leaves an event before the procedure is run.
-/

namespace SeededTesting

/-- What a collaborator does under a label. -/
abbrev Procedure := String → Act Unit

/-- The complaint when something is called that cannot be called. -/
def notCallable : Complaint :=
  ⟨.named "TypeError", some "'NoneType' object is not callable"⟩

/-- Calls something with arguments under a label. -/
def callProcedure (label : String) (arguments : List Instance) : Option Procedure → Act Unit
  | none => Act.complain notCallable
  | some procedure => do
    Act.emit (.called label arguments)
    procedure label

def Hook.call (hook : Hook Procedure) (arguments : List Instance) : Act Unit :=
  callProcedure hook.label arguments hook.code

/-- Calls hooks up to the first error. -/
def callHooks (arguments : List Instance) : List (Hook Procedure) → Act Unit
  | [] => return
  | hook :: rest => do
    hook.call arguments
    callHooks arguments rest

/-- Calls every hook and gives the errors of those that failed, whatever became of the others. -/
def invokeAll (arguments : List Instance) :
    List (Hook Procedure) → Act (List (Hook Procedure × Option ErrorId))
  | [] => return []
  | hook :: rest => do
    let error ← Act.handle (do hook.call arguments; return none) (return some ·)
    return (hook, error) :: (← invokeAll arguments rest)

def TestUnit.call (unit : TestUnit Procedure) (target : Instance) : Act Unit :=
  callProcedure ("body:" ++ unit.name) [target] unit.body

/-- Makes the next test instance. -/
def Factory.call (factory : Factory Procedure) : Act Instance := do
  let number := (← get).session.instances + 1
  Act.modifySession fun s => { s with instances := number }
  Act.emit (.instanceMade number)
  factory.code "factory"
  return if factory.yields then some number else none

/-! ## Rules -/

namespace Rule

def label (rule : Rule Procedure) : String :=
  "rule:" ++ rule.tag

/-- Runs a statement so many times, up to the first error. -/
def repeated (statement : Act Unit) : Nat → Act Unit
  | 0 => return
  | times + 1 => do
    statement
    repeated statement times

/-- The statement that a rule makes of another one. An error of the inner statement is heard of
and, unless it is swallowed, leaves the wrapper at once. -/
def around (rule : Rule Procedure) (statement : Act Unit) : Act Unit := do
  Act.emit (.ruleEntered rule.tag)
  rule.before rule.label
  Act.handle (repeated statement rule.times) fun e => do
    Act.emit (.ruleCaught rule.tag (← Act.complaint e))
    unless rule.swallow do throw e
  rule.after rule.label
  Act.emit (.ruleLeft rule.tag)

/-- Applies a rule, which happens before any statement is run. -/
def apply (rule : Rule Procedure) (unit : String) (target : Instance) : Act Unit := do
  Act.emit (.ruleBuilt rule.tag unit target)
  rule.build rule.label

/-- Applies rules in order and gives the statement that they make, the last rule outermost. -/
def applyAll (unit : String) (target : Instance) :
    List (Rule Procedure) → Act Unit → Act (Act Unit)
  | [], statement => return statement
  | rule :: rest, statement => do
    rule.apply unit target
    applyAll unit target rest (rule.around statement)

end Rule

/-! ## Listeners -/

/-- What becomes of a notification: it is kept, passed over, or heard and acted upon. -/
inductive Listener where
  | recording
  | silent
  | scripted (tag : String) (reactions : Reactions Procedure)

/-- What a listener does about a kind of notification. -/
def Reactions.on {Code : Type} (r : Reactions Code) : NotificationKind → Code
  | .started => r.started
  | .ignored => r.ignored
  | .assumptionFailed => r.assumptionFailed
  | .failed => r.failed
  | .finished => r.finished

def listenerLabel (tag : String) : String :=
  "listener:" ++ tag

/-- Who is behind a subscription. -/
abbrev Audience := ListenerRef → Listener

/-- The event of a listener that hears a notification. -/
def heardEvent (errors : ErrorStore) (tag : String) (n : Notification ErrorId) : Event :=
  .heard tag n.kind n.name (n.error.map fun e => ((errors.get e).summary, errors.extractSeed e))

/-- Tells one subscriber. -/
def Audience.tell (audience : Audience) (n : Notification ErrorId) (listener : ListenerRef) :
    Act Unit :=
  match audience listener with
  | .recording => Act.modifySession fun s => s.record listener n
  | .silent => return
  | .scripted tag reactions => do
    Act.emit (heardEvent (← get).errors tag n)
    reactions.on n.kind (listenerLabel tag)

/-- Tells subscribers one after another, up to the first error. -/
def Audience.tellAll (audience : Audience) (n : Notification ErrorId) :
    List ListenerRef → Act Unit
  | [] => return
  | listener :: rest => do
    audience.tell n listener
    audience.tellAll n rest

/-- Tells all who are subscribed when the notification is sent. -/
def Audience.notify (audience : Audience) (n : Notification ErrorId) : Act Unit := do
  audience.tellAll n (← get).session.subscribed

def subscribe (listener : ListenerRef) : Act Unit :=
  Act.modifySession fun s => { s with subscribed := s.subscribed ++ [listener] }

/-- Cancels the first subscription of a listener, if there is one. -/
def unsubscribe (listener : ListenerRef) : Act Unit :=
  Act.modifySession fun s => { s with subscribed := s.subscribed.erase listener }

/-- Makes the listener of a declared factory. -/
def ListenerFactory.call (factory : ListenerFactory Procedure) (index : Nat) :
    Act ListenerRef := do
  Act.emit (.listenerMade factory.tag)
  factory.create (listenerLabel factory.tag)
  if factory.shared then return .declared index none
  let serial := (← get).session.listeners
  Act.modifySession fun s => { s with listeners := serial + 1 }
  return .declared index (some serial)

end SeededTesting
