import SeededTesting.Run.Lifecycle

/-! # Runs that are opened by other means

The suite of a runner declares factories of listeners, and its filter is a test of names. What makes
the listeners of a run and what is asked about its candidates may also be any actions: a maker may
give a listener that was subscribed before, or one that another maker gives as well, and whoever is
asked may raise errors like other collaborators. A run in general is opened by such actions; those
that the runner has itself make it the run of the runner.
-/

namespace SeededTesting

/-- What makes a listener, with the tag that is told if it fails. -/
structure Maker where
  tag : String
  make : Act ListenerRef

/-- By what a run is opened: the makers of its listeners, and whether to run what has a name. -/
structure Opening where
  makers : List Maker
  ask : String → Act Bool

namespace Runner

variable (r : Runner Procedure) (audience : Audience)

/-- Makes a listener; an error of the maker is the cause of the one that is raised. -/
def makeBy (maker : Maker) : Act ListenerRef :=
  Act.handle maker.make fun cause => do
    let e ← Act.makeError (r.notInstantiable maker.tag)
    modify fun w => { w with errors := w.errors.setCause e (some cause) }
    Act.raise e

/-- Subscribes a listener on behalf of the run. -/
def enlist (listener : ListenerRef) : Act Unit := do
  Act.modifySession fun s => { s with declared := s.declared ++ [listener] }
  subscribe listener

/-- Makes listeners and subscribes each before the next one is made. -/
def subscribeBy : List Maker → Act Unit
  | [] => return
  | maker :: rest => do
    enlist (← r.makeBy maker)
    subscribeBy rest

/-- Asks about a candidate, unless the configuration wants another unit. -/
def keepsBy (ask : String → Act Bool) (c : Candidate Procedure) : Act Bool :=
  if r.config.targetUnit.all (· = c.unit.name) then ask c.name else return false

/-- Asks about candidates one after another and gives those that are kept. -/
def filterBy (ask : String → Act Bool) :
    List (Candidate Procedure) → Act (List (Candidate Procedure))
  | [] => return []
  | c :: rest => do
    let kept ← r.keepsBy ask c
    let others ← filterBy ask rest
    return if kept then c :: others else others

/-- The candidates that are run; nobody is asked if the configuration wants another suite. -/
def survivorsBy (ask : String → Act Bool) : Act (List (Candidate Procedure)) :=
  if r.config.targetSuite.all (· = r.suite.name) then r.filterBy ask r.candidates else return []

/-- Subscribes listeners, filters the candidates and gives those that are run. -/
def prepareBy (o : Opening) : Act (List (Candidate Procedure)) := do
  r.subscribeBy o.makers
  r.enter .filtering
  let survivors ← r.survivorsBy o.ask
  r.log .info "Running suite" (.suiteStarted r.suite.name survivors.length)
  return survivors

/-- Everything between the start of a run and its end. -/
def runSurvivorsBy (o : Opening) : Act Unit := do
  let survivors ← r.prepareBy o
  if survivors.isEmpty then r.enter .idle else r.runClass audience survivors

/-- Runs a suite from fresh generators. -/
def runOpened (o : Opening) : Act Unit :=
  Act.activate { runner := r.master, target := r.suite.name, nightly := r.config.nightly } do
    Act.push (.fresh r.master)
    Act.andFinally (r.runSurvivorsBy audience o) r.close

/-! ## The runner's own opening -/

/-- The factories of the suite from a place in their list on, as makers. -/
def makersFrom : (index : Nat) → List (ListenerFactory Procedure) → List Maker
  | _, [] => []
  | index, factory :: rest => ⟨factory.tag, factory.call index⟩ :: makersFrom (index + 1) rest

/-- The opening by the factories of the suite and by the filter that is installed. -/
def ownOpening : Opening where
  makers := makersFrom 0 r.suite.listeners
  ask name := return ((← get).session.predicate).all (· name)

end Runner

end SeededTesting
