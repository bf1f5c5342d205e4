import SeededTesting.Failure.Augment
import SeededTesting.Run.World

/-! # Actions

An action changes the world and may end with an error, which keeps all changes made so far. The
error that is being handled while another one is raised becomes the context of the latter, so
handlers and clean-up that follows an error run with that error in hand.
-/

namespace SeededTesting

abbrev Act := ExceptT ErrorId (StateM World)

namespace Act

variable {α : Type}

/-! ## Errors -/

/-- Runs an action and gives how it ended. -/
def observe (body : Act α) : Act (Except ErrorId α) :=
  ExceptT.mk do return .ok (← body.run)

/-- Ends as an action did that was observed. -/
def resume : Except ErrorId α → Act α
  | .ok a => pure a
  | .error e => throw e

/-- Runs an action while an error is being handled. -/
def whileHandling (e : ErrorId) (body : Act α) : Act α := do
  let before := (← get).handling
  modify fun w => { w with handling := some e }
  let outcome ← observe body
  modify fun w => { w with handling := before }
  resume outcome

/-- Makes an error object that nothing is linked to. -/
def makeError (c : Complaint) : Act ErrorId :=
  modifyGet fun w =>
    let (e, errors) := w.errors.add c
    (e, { w with errors })

/-- Raises an error object. -/
def raise (e : ErrorId) : Act α := do
  modify fun w => { w with errors := w.errors.linkRaised w.handling e }
  throw e

/-- Raises a new error. -/
def complain (c : Complaint) : Act α := do
  raise (← makeError c)

/-- What can be said about an error object. -/
def complaint (e : ErrorId) : Act Complaint :=
  return ((← get).errors.get e).toComplaint

/-- Runs an action with a handler of its errors; interrupts pass. -/
def handle (body : Act α) (handler : ErrorId → Act α) : Act α := do
  match ← observe body with
  | .ok a => return a
  | .error e =>
    if (← complaint e).kind.interrupt then throw e else whileHandling e (handler e)

/-- Runs an action and then, however it ended, another one, whose error comes before its own. -/
def andFinally (body : Act Unit) (cleanup : Act Unit) : Act Unit := do
  match ← observe body with
  | .ok () => cleanup
  | .error e => do
    whileHandling e cleanup
    throw e

/-- Runs an action as a scope, which sets the trail of an error that leaves it. An error whose
object refuses that is replaced by the refusal, raised while the former is handled. -/
def leaving (body : Act Unit) : Act Unit := do
  match ← observe body with
  | .ok () => return
  | .error e =>
    match (← complaint e).kind.refusalToLeave with
    | none => throw e
    | some refusal => whileHandling e (complain refusal)

/-- Takes over the result of an operation on a stack. -/
def ofStack : Except ContextError α → Act α
  | .ok a => pure a
  | .error e => complain e.complaint

/-- Runs an action in a world and gives how it ended, an error by what can be said about it, and
the world that is left. -/
def runIn (body : Act α) (w : World) : Except Complaint α × World :=
  let (outcome, w) := body.run.run w
  (outcome.mapError fun e => (w.errors.get e).toComplaint, w)

/-! ## Sessions and logs -/

def modifySession (change : Session → Session) : Act Unit :=
  modify fun w => { w with session := change w.session }

/-- Adds an event to the trace. -/
def emit (event : Event) : Act Unit :=
  modifySession fun s => { s with trace := s.trace.push event }

def log (record : LogRecord) : Act Unit :=
  modify fun w => { w with journal := w.journal.push record }

/-- Records seeds on an error. -/
def augment (e : ErrorId) (seeds : List Seed) : Act Unit := do
  let w ← get
  let (recording, errors) := w.errors.augment e seeds
  set { w with errors }
  match recording with
  | .done => return
  | .refused text => log ((w.errors.get e).refusalRecord seeds text)
  | .failed c => complain c

/-! ## Contexts -/

/-- The innermost context. -/
def currentContext : Act RunContext := do
  match (← get).contexts with
  | [] => complain ContextError.noRun.complaint
  | context :: _ => return context

/-- The randomness that is active in the innermost context. -/
def currentSource : Act RandomSource := do
  ofStack (← currentContext).stack.current

/-- Replaces the stack of the innermost context. -/
def setStack (stack : ContextStack RandomSource) : Act Unit :=
  modify fun w =>
    match w.contexts with
    | [] => w
    | context :: outer => { w with contexts := { context with stack } :: outer }

/-- Draws from the active randomness. -/
def draw (take : RandomSource → α × RandomSource) : Act α := do
  let (value, source) := take (← currentSource)
  setStack (source :: (← currentContext).stack.tail)
  return value

def push (source : RandomSource) : Act Unit := do
  setStack ((← currentContext).stack.push source)

def pop : Act RandomSource := do
  let (source, rest) ← ofStack (← currentContext).stack.pop
  setStack rest
  return source

/-- Runs an action in the scope of a source, which is active until the action has ended. -/
def inScope (source : RandomSource) (body : Act Unit) : Act Unit := do
  push source
  leaving (andFinally body (discard pop))

/-- Makes a context the innermost one. -/
def enterContext (context : RunContext) : Act Unit :=
  modify fun w => { w with contexts := context :: w.contexts }

/-- Empties the innermost context and leaves it. -/
def leaveContext : Act Unit := do
  setStack []
  modify fun w => { w with
    contexts := w.contexts.tail
    session := { w.session with lastContext := w.contexts.head? } }

/-- Runs an action in a context of its own, which is emptied and left when the action has
ended. -/
def activate (context : RunContext) (body : Act Unit) : Act Unit := do
  enterContext context
  leaving (andFinally body leaveContext)

end Act

end SeededTesting
