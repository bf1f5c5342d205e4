import SeededTesting.Failure.Store
import SeededTesting.Log.Record
import SeededTesting.Seed.Chain

/-! # Recording seeds on errors

An error that leaves a hook or a test is given the seed chain that reproduces it: as data in front
of the chains it carries already, and as a note that is printed with it.
-/

namespace SeededTesting

/-- The name of the attribute that holds the chains of an error. -/
def chainsAttribute : String := "__seed_chains__"

/-- The note about a seed chain. -/
def seedNote (chain : String) : String :=
  "__randomizedtesting.SeedInfo.seed(" ++ chain ++ ")"

/-- How recording a chain on an error ends. A refusal is passed over, save one that complains
about the value. -/
inductive Recording where
  | done
  | refused (text : String)
  | failed (complaint : Complaint)
deriving DecidableEq, Repr

/-- How an object takes what is written to it. -/
inductive Reception where
  | accepts
  | refuses (refusal : Refusal) (text : String)
deriving DecidableEq, Repr

/-- How an object takes a chain, which is set as an attribute, and the note about it. -/
structure Temper where
  toChain : Reception
  toNote : Reception
deriving DecidableEq, Repr

/-- How recording ends when it is refused. -/
def Refusal.recording (text : String) : Refusal → Recording
  | .attribute | .type => .refused text
  | .value => .failed ⟨.value, some text⟩

/-- The temper of an object as its kind and its notes make it. -/
def ErrorObject.temper (o : ErrorObject) : Temper where
  toChain := match o.kind.refusal with
    | some refusal => .refuses refusal chainsAttribute
    | none => .accepts
  toNote := match o.notes with
    | .entries _ => .accepts
    | .text _ => .refuses .type "Cannot add note: __notes__ is not a list"

/-- Notes with one more at the end, unless a text stands in their place. -/
def Notes.add (note : String) : Notes → Notes
  | .entries notes => .entries (notes ++ [note])
  | unlisted => unlisted

/-- What an error object of a temper answers to a chain and its note. The chain comes first, and
stays when the note is refused. -/
def ErrorObject.recordAs (o : ErrorObject) (temper : Temper) (chain : String) :
    Recording × ErrorObject :=
  match temper.toChain with
  | .refuses refusal text => (refusal.recording text, o)
  | .accepts =>
    let o := { o with chains := chain :: o.chains }
    match temper.toNote with
    | .refuses refusal text => (refusal.recording text, o)
    | .accepts => (.done, { o with notes := o.notes.add (seedNote chain) })

/-- What an error object answers to a chain and its note. -/
def ErrorObject.record (o : ErrorObject) (chain : String) : Recording × ErrorObject :=
  o.recordAs o.temper chain

/-- Records the chain of seeds on an error of a temper. -/
def ErrorStore.augmentAs (s : ErrorStore) (temper : Temper) (e : ErrorId)
    (seeds : List Seed) : Recording × ErrorStore :=
  let (recording, o) := (s.get e).recordAs temper (SeedChain.format seeds)
  (recording, s.update e fun _ => o)

/-- Records the chain of seeds on an error. -/
def ErrorStore.augment (s : ErrorStore) (e : ErrorId) (seeds : List Seed) :
    Recording × ErrorStore :=
  s.augmentAs (s.get e).temper e seeds

/-- The message about a chain that could not be recorded. -/
def ErrorObject.refusalMessage (o : ErrorObject) (seeds : List Seed) (text : String) : String :=
  "Could not augment " ++ o.describe ++ " with seed " ++ SeedChain.format seeds ++ ": " ++ text

/-- The log record about a chain that could not be recorded. -/
def ErrorObject.refusalRecord (o : ErrorObject) (seeds : List Seed) (text : String) :
    LogRecord where
  level := .debug
  logger := "seedrunner.runner.augment"
  message := o.refusalMessage seeds text
  trace := LogRecord.noTrace

end SeededTesting
