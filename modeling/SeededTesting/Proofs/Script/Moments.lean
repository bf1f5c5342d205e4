import SeededTesting.Proofs.Act.Moments
import SeededTesting.Proofs.Act.Scopes
import SeededTesting.Proofs.Script.Induction

/-! # The moments of a script

The worlds that a script goes through are those that its steps leave, the steps within forks and
attempts among them. Suites that are run within are taken as one step, since they have contexts of
their own. The script that is taken with its moments is the script itself.
-/

namespace SeededTesting.Script

abbrev TracedAct := Traced ErrorId World World

mutual

/-- A step with the worlds that the steps within it leave. -/
def Step.traced (host : Host) (label : String) : Step → TracedAct Unit
  | .fork body => do
    let child ← Act.draw RandomSource.fork
    observe label (.forked child.seed)
    Act.push child
    ((tracedSteps host label body).around (Act.andFinally · (discard Act.pop))).around Act.leaving
  | .attempt body => (tracedSteps host label body).around (Act.handle · fun e => do
      observe label (.caught (← Act.complaint e)))
  | step => step.run host label

/-- Steps with the worlds that they leave. -/
def tracedSteps (host : Host) (label : String) : List Step → TracedAct Unit
  | [] => return
  | step :: rest => do
    (step.traced host label).mark fun _ _ w => w
    tracedSteps host label rest

end

/-- Whether steps within a step are moments as well. -/
def Step.encloses : Step → Bool
  | .fork _ | .attempt _ => true
  | _ => false

variable (host : Host) (label : String)

theorem Step.traced_of_leaf {step : Step} (h : step.encloses = false) :
    step.traced host label = liftM (step.run host label) := by
  cases step with
  | fork | attempt => cases h
  | _ => rfl

/-- A script that is taken with its moments is the script itself. -/
theorem act_tracedSteps (script : Script) :
    (tracedSteps host label script).act = runSteps host label script := by
  induction script using induction with
  | nil =>
      rw [tracedSteps, runSteps]
      rfl
  | cons step rest hinner ih =>
      have hstep : (step.traced host label).act = step.run host label := by
        cases step with
        | fork body =>
            have hbody := hinner body List.mem_cons_self
            simp [Step.traced, Step.run, Act.inScope, hbody]
        | attempt body =>
            have hbody := hinner body List.mem_cons_self
            simp [Step.traced, Step.run, hbody]
        | _ => rw [Step.traced_of_leaf host label rfl, Traced.act_lift]
      simp [tracedSteps, runSteps, hstep, ih]

theorem exec_tracedSteps (script : Script) (w : World) :
    (tracedSteps host label script).exec w = (runSteps host label script).exec w := by
  rw [← act_tracedSteps]
  rfl

theorem moments_lift_bind_of_ok {α β : Type} {first : Act α} {next : α → TracedAct β}
    {w v : World} {x : α} (h : first.exec w = (.ok x, v)) :
    ((liftM first : TracedAct α) >>= next).moments w = (next x).moments v :=
  Traced.moments_bind_of_ok h

end SeededTesting.Script
