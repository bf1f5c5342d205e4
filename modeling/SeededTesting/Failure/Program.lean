import SeededTesting.Failure.Augment

/-! # Programs over error objects

A program makes error objects, links them by hand and then records seeds on them and asks about
them. An object that refuses attributes also refuses to be linked, which ends the program.
-/

namespace SeededTesting.FailureProgram

/-- Which links of an object are set; `some none` removes one. -/
structure Link where
  source : ErrorId
  context : Option (Option ErrorId) := none
  cause : Option (Option ErrorId) := none
  suppressContext : Option Bool := none
deriving DecidableEq, Repr

inductive Step where
  | augment (error : ErrorId) (seeds : List Seed)
  | info (error : ErrorId)
  | failure (error : ErrorId)
deriving DecidableEq, Repr

inductive Answer where
  /-- The chain was recorded or passed over. -/
  | augmented
  | complaint (c : Complaint)
  | info (info : ErrorInfo)
  | failure (summary : String) (seed : Option String)
deriving DecidableEq, Repr

/-- Sets one link of an object, if it is given and the object allows it. -/
def setLink {α : Type} (name : String) (e : ErrorId) (link : Option α)
    (set : ErrorStore → α → ErrorStore) (s : ErrorStore) : Except Complaint ErrorStore :=
  match link, (s.get e).kind.refusalOf name with
  | none, _ => .ok s
  | some _, some complaint => .error complaint
  | some target, none => .ok (set s target)

/-- Sets the context, then the cause, then whether the context is hidden. -/
def Link.apply (link : Link) (s : ErrorStore) : Except Complaint ErrorStore := do
  let e := link.source
  let s ← setLink "__context__" e link.context (fun s c => s.setContext e c) s
  let s ← setLink "__cause__" e link.cause (fun s c => s.setCause e c) s
  setLink "__suppress_context__" e link.suppressContext
    (fun s b => s.update e fun o => { o with suppressContext := b }) s

/-- Runs one step; recording may leave a log record. -/
def Step.run (s : ErrorStore) : Step → Answer × List LogRecord × ErrorStore
  | .augment e seeds =>
    let (recording, next) := s.augment e seeds
    match recording with
    | .done => (.augmented, [], next)
    | .refused text => (.augmented, [(s.get e).refusalRecord seeds text], next)
    | .failed complaint => (.complaint complaint, [], next)
  | .info e => (.info (s.info e), [], s)
  | .failure e => (.failure (s.get e).summary (s.extractSeed e), [], s)

/-- Runs steps one after another. -/
def runSteps : List Step → ErrorStore → List Answer × List LogRecord
  | [], _ => ([], [])
  | step :: rest, s =>
    let (answer, records, s) := step.run s
    let (answers, later) := runSteps rest s
    (answer :: answers, records ++ later)

/-- Makes objects, links them and runs steps on them. -/
def run (errors : List Complaint) (links : List Link) (steps : List Step) :
    Except Complaint (List Answer × List LogRecord) := do
  let start := errors.foldl (fun s c => (s.add c).2) {}
  return runSteps steps (← links.foldlM (fun s link => link.apply s) start)

end SeededTesting.FailureProgram
