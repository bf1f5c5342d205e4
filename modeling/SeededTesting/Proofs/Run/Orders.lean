import SeededTesting.Proofs.Run.Segments

/-! # Stages under other orders of hooks

The stages of a run, told in which order the hooks of a phase are called. A run asks the active
source for it.
-/

namespace SeededTesting

/-- Gives the hooks of a phase in the order of their calls. -/
abbrev HookOrder := Phase → Act (List (Hook Procedure))

/-- An order that looks at nothing: the one that follows from a seed. -/
def HookOrder.fixed (levels : List (Level Procedure)) (active : Seed) : HookOrder :=
  fun phase => return hooksFor levels phase active.toNat

namespace Runner

variable (r : Runner Procedure) (audience : Audience) (order : HookOrder)

def setUpClassBy : Act Bool :=
  Act.handle
    (do
      callHooks [] (← order .beforeAll)
      return true)
    fun e => do
      r.reportSuite audience e
      return false

def tearDownClassBy : Act Unit := do
  let outcomes ← invokeAll [] (← order .afterAll)
  r.reportOutcomes audience r.suite.name [r.master] outcomes

def executeBy (c : Candidate Procedure) : Act Unit := do
  let made ← Act.observe r.makeInstance
  Act.handle
    (do
      let target ← Act.resume made
      callHooks [target] (← order .beforeEach)
      r.callBody c target)
    (r.reportCandidate audience c)
  match made with
  | .ok (some number) => do
    let outcomes ← invokeAll [some number] (← order .afterEach)
    r.reportOutcomes audience c.name [r.master, c.seed] outcomes
  | _ => return

def attendBy (c : Candidate Procedure) : Act Unit := do
  audience.notify { kind := .started, name := c.name }
  Act.andFinally
    (if r.ignores c then audience.notify { kind := .ignored, name := c.name }
      else r.executeBy audience order c)
    (audience.notify { kind := .finished, name := c.name })

/-- Performs a stage and tells whether the run goes on. -/
def performBy : Stage → Act Bool
  | .opening => do
    discard r.prepare
    return true
  | .setUp => do
    r.enter .classSetup
    if ← r.setUpClassBy audience order then do
      r.enter .runningUnits
      return true
    else return false
  | .candidate c => do
    Act.inScope (.fresh c.seed) (r.attendBy audience order c)
    return true
  | .tearDown => do
    r.enter .classTeardown
    r.tearDownClassBy audience order
    return true

/-- In a run hooks are called in the order that follows from the active source. -/
theorem performBy_hooks (stage : Stage) :
    r.performBy audience r.hooks stage = r.perform audience stage := by
  cases stage <;> rfl

end Runner
end SeededTesting
