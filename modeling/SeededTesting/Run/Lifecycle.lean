import SeededTesting.HookOrder
import SeededTesting.Run.Collaborator
import SeededTesting.Run.Runner

/-! # The life of a run

A run subscribes the declared listeners, filters the candidates, and unless none is left sets up
the class, runs every candidate in the scope of its own randomness, and tears the class down.
Every error of a collaborator is given its seed chain and reported on its own; an error of a
before-all hook ends the run, one of a candidate does not touch the others. Interrupts and errors
of listeners leave the run, but never without finishing the candidate that was started.
-/

namespace SeededTesting.Runner

variable (r : Runner Procedure) (audience : Audience)

/-! ## Logging and states -/

def log (level : LogLevel) (message : String) (detail : LogDetail := .none) : Act Unit :=
  Act.log { level, logger := "seedrunner.runner.scheduler", message, trace := r.seedChain, detail }

/-- Enters a state. -/
def enter (state : RunState) : Act Unit := do
  r.log .debug ((← get).session.state.name ++ " -> " ++ state.name)
  Act.modifySession fun s => { s with state }

/-! ## Declared listeners -/

/-- The complaint about a factory that makes no listener. -/
def notInstantiable (tag : String) : Complaint :=
  ⟨.configuration, some ("Could not initialize suite " ++ r.suite.name ++
    " because its listener is not instantiable: <factory " ++ tag ++ ">")⟩

/-- Makes a declared listener; an error of its factory is the cause of the one that is raised. -/
def makeListener (index : Nat) (factory : ListenerFactory Procedure) : Act ListenerRef :=
  Act.handle (factory.call index) fun cause => do
    let e ← Act.makeError (r.notInstantiable factory.tag)
    modify fun w => { w with errors := w.errors.setCause e (some cause) }
    Act.raise e

/-- Subscribes the declared listeners from a place in their list on. -/
def subscribeFrom : (index : Nat) → List (ListenerFactory Procedure) → Act Unit
  | _, [] => return
  | index, factory :: rest => do
    let listener ← r.makeListener index factory
    Act.modifySession fun s => { s with declared := s.declared ++ [listener] }
    subscribe listener
    subscribeFrom (index + 1) rest

/-- Cancels subscriptions one after another. -/
def unsubscribeAll : List ListenerRef → Act Unit
  | [] => return
  | listener :: rest => do
    unsubscribe listener
    unsubscribeAll rest

/-- Cancels the subscriptions that the run itself made. -/
def unsubscribeDeclared : Act Unit := do
  unsubscribeAll (← get).session.declared
  Act.modifySession fun s => { s with declared := [] }

/-! ## Reports -/

/-- Logs a failure and tells the listeners about it. -/
def reportFailure (name : String) (e : ErrorId) : Act Unit := do
  let errors := (← get).errors
  r.log .warning ("Failure in " ++ name ++ ": " ++ (errors.get e).summary)
    (.failure (errors.extractSeed e))
  audience.notify { kind := .failed, name, error := some e }

/-- Reports the hooks that failed, each with the given seeds. -/
def reportOutcomes (name : String) (seeds : List Seed) :
    List (Hook Procedure × Option ErrorId) → Act Unit
  | [] => return
  | (_, none) :: rest => reportOutcomes name seeds rest
  | (_, some e) :: rest => do
    Act.augment e seeds
    r.reportFailure audience name e
    reportOutcomes name seeds rest

/-! ## Class set-up and tear-down -/

/-- The hooks of a phase in the order that follows from the active seed. -/
def hooks (phase : Phase) : Act (List (Hook Procedure)) := do
  return hooksFor r.suite.levels phase (← Act.currentSource).seed.toNat

/-- Reports an error of the set-up. -/
def reportSuite (e : ErrorId) : Act Unit := do
  Act.augment e [r.master]
  r.reportFailure audience r.suite.name e

/-- Calls the before-all hooks and tells whether they succeeded; the first error is reported. -/
def setUpClass : Act Bool :=
  Act.handle
    (do
      callHooks [] (← r.hooks .beforeAll)
      return true)
    fun e => do
      r.reportSuite audience e
      return false

/-- Calls the after-all hooks and reports those that failed. -/
def tearDownClass : Act Unit := do
  let outcomes ← invokeAll [] (← r.hooks .afterAll)
  r.reportOutcomes audience r.suite.name [r.master] outcomes

/-! ## Candidates -/

variable (c : Candidate Procedure)

/-- The test body with the rules around it. -/
def callBody (target : Instance) : Act Unit := do
  let statement ← Rule.applyAll c.unit.name target r.suite.rules (c.unit.call target)
  statement

/-- Reports an error of a candidate, which is no failure if an assumption was not met. -/
def reportCandidate (e : ErrorId) : Act Unit := do
  Act.augment e [r.master, c.seed]
  if (← Act.complaint e).kind.assumption then
    audience.notify { kind := .assumptionFailed, name := c.name, error := some e }
  else r.reportFailure audience c.name e

/-- Makes the test instance of a candidate. -/
def makeInstance : Act Instance :=
  match r.suite.factory with
  | some factory => factory.call
  | none => Act.complain notCallable

/-- Executes a candidate; the after-each hooks are called if there is an instance. -/
def execute : Act Unit := do
  let made ← Act.observe r.makeInstance
  Act.handle
    (do
      let target ← Act.resume made
      callHooks [target] (← r.hooks .beforeEach)
      r.callBody c target)
    (r.reportCandidate audience c)
  match made with
  | .ok (some number) => do
    let outcomes ← invokeAll [some number] (← r.hooks .afterEach)
    r.reportOutcomes audience c.name [r.master, c.seed] outcomes
  | _ => return

/-- Notifies about a candidate from its start to its end. -/
def attend : Act Unit := do
  audience.notify { kind := .started, name := c.name }
  Act.andFinally
    (if r.ignores c then audience.notify { kind := .ignored, name := c.name }
      else r.execute audience c)
    (audience.notify { kind := .finished, name := c.name })

/-- Runs a candidate, or passes it over, in the scope of its own randomness. -/
def runCandidate : Act Unit :=
  Act.inScope (.fresh c.seed) (r.attend audience c)

/-- Runs candidates one after another. -/
def runCandidates : List (Candidate Procedure) → Act Unit
  | [] => return
  | c :: rest => do
    r.runCandidate audience c
    runCandidates rest

/-! ## Runs -/

/-- Runs candidates between the set-up and the tear-down of their class. -/
def runClass (survivors : List (Candidate Procedure)) : Act Unit := do
  r.enter .classSetup
  if ← r.setUpClass audience then do
    r.enter .runningUnits
    r.runCandidates audience survivors
    r.enter .classTeardown
    r.tearDownClass audience

/-- Subscribes the declared listeners, filters the candidates and gives those that are run. -/
def prepare : Act (List (Candidate Procedure)) := do
  r.subscribeFrom 0 r.suite.listeners
  r.enter .filtering
  let survivors := r.survivors (← get).session.predicate
  r.log .info "Running suite" (.suiteStarted r.suite.name survivors.length)
  return survivors

/-- Everything between the start of a run and its end. -/
def runSurvivors : Act Unit := do
  let survivors ← r.prepare
  if survivors.isEmpty then r.enter .idle else r.runClass audience survivors

/-- Ends a run. -/
def close : Act Unit := do
  unsubscribeDeclared
  discard Act.pop
  r.enter .done
  r.log .info "Suite finished" (.suiteFinished r.suite.name)

/-- Runs a suite from fresh generators. -/
def run : Act Unit :=
  Act.activate { runner := r.master, target := r.suite.name, nightly := r.config.nightly } do
    Act.push (.fresh r.master)
    Act.andFinally (r.runSurvivors audience) r.close

/-- The listeners of a caller together with the declared ones. -/
def audienceOf (callers : List Listener) : Audience
  | .caller index => callers.getD index .silent
  | .declared index _ =>
    match r.suite.listeners[index]? with
    | some factory => .scripted factory.tag factory.reactions
    | none => .silent

end SeededTesting.Runner
