import SeededTesting.HookOrder
import SeededTesting.Run.Script

/-! # Invoking hooks outside of a run

Hooks can be invoked all together where no run is active; each is answered with its error, if it
failed. The hooks of several phases can also be resolved and called, phase by phase, up to the first
error.
-/

namespace SeededTesting.HookProgram

/-- How a hook ended. -/
structure Outcome where
  hook : String
  error : Option ErrorInfo
deriving Repr

/-- Invokes every hook; interrupts end the program. -/
def run (host : Host) (sequence : Nat) (hooks : List (Hook Script)) (arguments : List Instance) :
    Except Complaint (List Outcome × List Event) := do
  let (result, w) := (invokeAll arguments (Script.hookProcedures host hooks)).runIn { sequence }
  let outcomes := (← result).map fun (hook, e) =>
    { hook := hook.name, error := e.map w.errors.info }
  return (outcomes, w.session.trace.toList)

/-- The complaint about a name that no phase has. -/
def unknownPhase (name : String) : Complaint :=
  ⟨.value, some (Phase.unknownName name)⟩

/-- Resolves the hooks of phases by name, calls those of a phase before the next one, and gives
their names. -/
def callPhases (levels : List (Level Procedure)) :
    List String → Shuffling → Act (List (List String))
  | [], _ => return []
  | phaseName :: rest, shuffling =>
    match Phase.ofName? phaseName with
    | none => Act.complain (unknownPhase phaseName)
    | some phase => do
      let (hooks, shuffling) := shuffling.resolve levels phase
      callHooks [] hooks
      return hooks.map (·.name) :: (← callPhases levels rest shuffling)

/-- The labels of the calls in a trace. -/
def callLabels (trace : List Event) : List String :=
  trace.filterMap fun
    | .called label _ => some label
    | _ => none

/-- Resolves and calls the hooks of phases, and gives their names and the labels of the calls; an
error ends the program. -/
def runPhases (host : Host) (sequence : Nat) (levels : List (Level Script)) (phases : List String)
    (shuffling : Shuffling) : Except Complaint (List (List String) × List String) := do
  let procedures := Script.levelProcedures host levels
  let (result, w) := (callPhases procedures phases shuffling).runIn { sequence }
  return (← result, callLabels w.session.trace.toList)

end SeededTesting.HookProgram
