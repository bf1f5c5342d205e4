import SeededTesting.Run.NameTest
import SeededTesting.Run.Report

/-! # Scripts

Scripts are collaborators as data. A step draws from the active randomness or asks about it, works
on the stack, raises errors and catches them, changes who is run and who listens, or runs another
suite, whose collaborators are scripts as well.
-/

namespace SeededTesting

/-- An error that a script makes; one with a key is made once and used again. -/
structure ErrorSource where
  complaint : Complaint
  key : Option String := none
deriving DecidableEq, Repr

/-- An error that is raised, and from which cause, if one is named; `some none` hides where the
error came from. -/
structure Raising where
  error : ErrorSource
  cause : Option (Option ErrorSource) := none
deriving DecidableEq, Repr

namespace Script

inductive Step where
  | fraction
  | bits (width : Int)
  | seed
  | depth
  | context
  | state
  | fork (body : List Step)
  | push (seed : Seed)
  | pop
  | clear
  | assume (condition : Bool) (message : String)
  /-- Raises errors in this order, each while the one before it is handled. -/
  | raise (raisings : List Raising)
  | attempt (body : List Step)
  | filter (test : Option NameTest)
  | nested (suite : Suite (List Step)) (settings : Option Settings) (test : Option NameTest)
  | subscribe (listener : Nat)
  | unsubscribe (listener : Nat)

end Script

/-- A script is a list of steps, run up to the first error. -/
abbrev Script := List Script.Step

/-- The object of an error that is raised. -/
def ErrorSource.make (source : ErrorSource) : Act ErrorId :=
  modifyGet fun w =>
    let (e, errors) := match source.key with
      | some key => w.errors.addShared key source.complaint
      | none => w.errors.add source.complaint
    (e, { w with errors })

/-- Raises an error from its cause. -/
def Raising.raise (raising : Raising) : Act Unit := do
  let e ← raising.error.make
  if let some source := raising.cause then
    let cause ← source.mapM ErrorSource.make
    modify fun w => { w with errors := w.errors.setCause e cause }
  Act.raise e

/-- Raises errors one after another, each while the one before it is handled, and ends with the
last. -/
def raiseInTurn : List Raising → Act Unit
  | [] => return
  | [last] => last.raise
  | raising :: rest => do
    match ← Act.observe raising.raise with
    | .ok () => raiseInTurn rest
    | .error e => Act.whileHandling e (raiseInTurn rest)

namespace Script

/-- Emits what a script sees. -/
def observe (label : String) (observation : Observation) : Act Unit :=
  Act.emit (.observed label observation)

mutual

/-- Runs a step under a label. -/
def Step.run (host : Host) (label : String) : Step → Act Unit
  | .fraction => do
    observe label (.fraction (← Act.draw RandomSource.fraction))
  | .bits width => do
    discard Act.currentSource
    if width < 0 then Act.complain negativeWidth
    observe label (.bits (← Act.draw (·.bits width.toNat)))
  | .seed => do
    observe label (.seed (← Act.currentSource).seed)
  | .depth => do
    observe label (.depth (← Act.currentContext).stack.depth)
  | .context => do
    let c ← Act.currentContext
    observe label (.context c.target c.nightly c.runner)
  | .state => do
    observe label (.state (← get).session.state)
  | .fork body => do
    let child ← Act.draw RandomSource.fork
    observe label (.forked child.seed)
    Act.inScope child (runSteps host label body)
  | .push seed => Act.push (.fresh seed)
  | .pop => do
    observe label (.popped (← Act.pop).seed)
  | .clear => do
    discard Act.currentContext
    Act.setStack []
  | .assume condition message =>
    match Complaint.ofAssumption condition message with
    | none => return
    | some complaint => Act.complain complaint
  | .raise raisings => raiseInTurn raisings
  | .attempt body =>
    Act.handle (runSteps host label body) fun e => do
      observe label (.caught (← Act.complaint e))
  | .filter test =>
    Act.modifySession fun s => { s with predicate := test.map NameTest.accepts }
  | .nested suite settings test => do
    let (outcome, trace) ←
      runSuite host (suiteProcedures host suite) settings (test.map NameTest.accepts)
    Act.emit (.nested label outcome trace)
  | .subscribe listener => SeededTesting.subscribe (.caller listener)
  | .unsubscribe listener => SeededTesting.unsubscribe (.caller listener)

/-- Runs steps one after another. -/
def runSteps (host : Host) (label : String) : List Step → Act Unit
  | [] => return
  | step :: rest => do
    step.run host label
    runSteps host label rest

/-- A suite whose collaborators run their scripts. -/
def suiteProcedures (host : Host) : Suite (List Step) → Suite Procedure
  | ⟨name, factory, units, levels, metadata, listeners, rules⟩ =>
    { name, metadata
      factory := factoryProcedure? host factory
      units := unitProcedures host units
      levels := levelProcedures host levels
      listeners := listenerProcedures host listeners
      rules := ruleProcedures host rules }

/-- What a script does, if there is one. -/
def procedure? (host : Host) : Option (List Step) → Option Procedure
  | none => none
  | some script => some fun label => runSteps host label script

/-- A factory that runs its script, if there is one. -/
def factoryProcedure? (host : Host) : Option (Factory (List Step)) → Option (Factory Procedure)
  | none => none
  | some factory => some (factoryProcedure host factory)

/-- A factory that runs its script. -/
def factoryProcedure (host : Host) : Factory (List Step) → Factory Procedure
  | ⟨script, yields⟩ => { code := fun label => runSteps host label script, yields }

/-- Units whose bodies run their scripts. -/
def unitProcedures (host : Host) : List (TestUnit (List Step)) → List (TestUnit Procedure)
  | [] => []
  | unit :: rest => unitProcedure host unit :: unitProcedures host rest

/-- A unit whose body runs its script. -/
def unitProcedure (host : Host) : TestUnit (List Step) → TestUnit Procedure
  | ⟨name, metadata, ignored, body⟩ => { name, metadata, ignored, body := procedure? host body }

/-- Levels whose hooks run their scripts. -/
def levelProcedures (host : Host) : List (Level (List Step)) → List (Level Procedure)
  | [] => []
  | level :: rest => levelProcedure host level :: levelProcedures host rest

/-- A level whose hooks run their scripts. -/
def levelProcedure (host : Host) : Level (List Step) → Level Procedure
  | ⟨owner, beforeAll, beforeEach, afterEach, afterAll⟩ =>
    { owner
      beforeAll := hookProcedures host beforeAll
      beforeEach := hookProcedures host beforeEach
      afterEach := hookProcedures host afterEach
      afterAll := hookProcedures host afterAll }

/-- Hooks that run their scripts. -/
def hookProcedures (host : Host) : List (Hook (List Step)) → List (Hook Procedure)
  | [] => []
  | hook :: rest => hookProcedure host hook :: hookProcedures host rest

/-- A hook that runs its script. -/
def hookProcedure (host : Host) : Hook (List Step) → Hook Procedure
  | ⟨name, label, code⟩ => { name, label, code := procedure? host code }

/-- Rules that run their scripts. -/
def ruleProcedures (host : Host) : List (Rule (List Step)) → List (Rule Procedure)
  | [] => []
  | rule :: rest => ruleProcedure host rule :: ruleProcedures host rest

/-- A rule that runs its scripts. -/
def ruleProcedure (host : Host) : Rule (List Step) → Rule Procedure
  | ⟨tag, build, before, times, after, swallow⟩ =>
    { tag, times, swallow
      build := fun label => runSteps host label build
      before := fun label => runSteps host label before
      after := fun label => runSteps host label after }

/-- Factories of listeners that run their scripts. -/
def listenerProcedures (host : Host) :
    List (ListenerFactory (List Step)) → List (ListenerFactory Procedure)
  | [] => []
  | factory :: rest => listenerProcedure host factory :: listenerProcedures host rest

/-- A factory of listeners that run their scripts. -/
def listenerProcedure (host : Host) : ListenerFactory (List Step) → ListenerFactory Procedure
  | ⟨tag, shared, create, reactions⟩ =>
    { tag, shared
      create := fun label => runSteps host label create
      reactions := reactionProcedures host reactions }

/-- Reactions by scripts. -/
def reactionProcedures (host : Host) : Reactions (List Step) → Reactions Procedure
  | ⟨started, ignored, assumptionFailed, failed, finished⟩ =>
    { started := fun label => runSteps host label started
      ignored := fun label => runSteps host label ignored
      assumptionFailed := fun label => runSteps host label assumptionFailed
      failed := fun label => runSteps host label failed
      finished := fun label => runSteps host label finished }

end

theorem Step.run_fork (host : Host) (label : String) (body : List Step) :
    Step.run host label (.fork body) = (do
      let child ← Act.draw RandomSource.fork
      observe label (.forked child.seed)
      Act.inScope child (runSteps host label body)) := by
  rw [Step.run]

end Script

end SeededTesting
