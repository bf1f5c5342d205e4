import SeededTesting.Proofs.Run.Aloud
import SeededTesting.Proofs.Run.Homes

/-! # The states of a run

A run tells of every state that it enters, in a record that names the state that it leaves as well.
Which states an action passes through is what it tells of them, together with the state in which it
leaves the run. All that a run says besides tells of none.
-/

namespace SeededTesting

open Act

/-! ## States that are told -/

namespace RunState

def all : List RunState :=
  [.created, .filtering, .idle, .classSetup, .runningUnits, .classTeardown, .done]

/-- Steps from one state to the next. -/
def steps : RunState → List RunState → List (RunState × RunState)
  | _, [] => []
  | state, next :: rest => (state, next) :: steps next rest

theorem name_inj {state state' : RunState} : state.name = state'.name ↔ state = state' := by
  cases state <;> cases state' <;> decide

/-- A state is found by what is told of it. -/
theorem find?_named (before state : RunState) :
    (all.find? fun other =>
      before.name ++ " -> " ++ state.name = before.name ++ " -> " ++ other.name) = some state := by
  simp only [String.append_right_inj, name_inj]
  cases state <;> rfl

theorem steps_append (state : RunState) (states states' : List RunState) :
    state.steps (states ++ states') =
      state.steps states ++ (states.getLastD state).steps states' := by
  induction states generalizing state with
  | nil => rfl
  | cons next rest ih =>
      rw [List.cons_append, steps, ih, steps, List.getLastD_cons, List.cons_append]

end RunState

/-- The state that is left and the one that is entered, if a signal tells of them. -/
def Saying.transition? (saying : Saying) : Option (RunState × RunState) :=
  match saying.signal with
  | .sent _ => none
  | .logged record =>
    let before := saying.world.session.state
    if record.level = .debug then
      (RunState.all.find? fun state =>
        record.message = before.name ++ " -> " ++ state.name).map (before, ·)
    else none

namespace Aloud

variable {α β : Type}

/-- Started in a world, an action enters states one after another, tells of each, and stays in the
last one. -/
structure Passes (body : Aloud α) (w : World) (states : List RunState) : Prop where
  told : (body.said w).filterMap Saying.transition? = w.session.state.steps states
  left : (body.act.exec w).2.session.state = states.getLastD w.session.state

/-- An action tells of no state that is entered. -/
def Discreet (body : Aloud α) : Prop :=
  body.Only fun saying => saying.transition? = none

namespace Passes

variable {body : Aloud α} {next : α → Aloud β} {states states' : List RunState} {w v : World}

theorem lift {body : Act α} (h : (body.exec w).2.session.state = w.session.state) :
    Passes (liftM body : Aloud α) w [] :=
  ⟨rfl, h⟩

/-- What is discreet and leaves the state alone passes through none. -/
theorem rest (hbody : Discreet body) (hkeeps : Abides .resting body.act) (hw : w.Lawful) :
    Passes body w [] :=
  ⟨List.filterMap_eq_nil_iff.mpr (hbody w), (hkeeps w hw trivial).1.step⟩

theorem state_eq (h : Passes body w states) {outcome : Except ErrorId α}
    (hout : body.act.exec w = (outcome, v)) :
    v.session.state = states.getLastD w.session.state := by
  have hleft := h.left
  rwa [hout] at hleft

/-- What is told and left after a first part. -/
theorem append {rest : Aloud β} (h : Passes body w states) {outcome : Except ErrorId α}
    (hout : body.act.exec w = (outcome, v)) {u : World} (hu : u.session.state = v.session.state)
    (hrest : Passes rest u states') {γ : Type} {all : Aloud γ}
    (hsaid : all.said w = body.said w ++ rest.said u)
    (hleft : (all.act.exec w).2.session.state = (rest.act.exec u).2.session.state) :
    Passes all w (states ++ states') := by
  have hlast := hu.trans (h.state_eq hout)
  constructor
  · rw [hsaid, List.filterMap_append, h.told, hrest.told, hlast, RunState.steps_append]
  · rw [hleft, hrest.left, hlast, List.getLastD_eq_getLast?, List.getLastD_eq_getLast?,
      List.getLastD_eq_getLast?, List.getLast?_append, Option.getD_or]

theorem bind_of_ok {x : α} (h : Passes body w states) (hout : body.act.exec w = (.ok x, v))
    (hnext : Passes (next x) v states') : Passes (body >>= next) w (states ++ states') := by
  refine h.append hout rfl hnext (said_bind_of_ok hout) ?_
  rw [act_bind, exec_bind_of_ok hout]

theorem bind_of_error {e : ErrorId} (h : Passes body w states)
    (hout : body.act.exec w = (.error e, v)) : Passes (body >>= next) w states := by
  constructor
  · rw [said_bind_of_error hout, h.told]
  · rw [act_bind, exec_bind_of_error hout]
    exact h.state_eq hout

section Finally

variable {body cleanup : Aloud Unit}

theorem andFinally_of_ok (h : Passes body w states) (hout : body.act.exec w = (.ok (), v))
    (hcleanup : Passes cleanup v states') :
    Passes (.andFinally body cleanup) w (states ++ states') := by
  refine h.append hout rfl hcleanup ?_ ?_
  · rw [Aloud.andFinally]
    dsimp only
    rw [hout]
  · rw [act_andFinally, exec_andFinally, hout]

theorem andFinally_of_error {e : ErrorId} (h : Passes body w states)
    (hout : body.act.exec w = (.error e, v))
    (hcleanup : Passes cleanup { v with handling := some e } states') :
    Passes (.andFinally body cleanup) w (states ++ states') := by
  refine h.append (u := { v with handling := some e }) hout rfl hcleanup ?_ ?_
  · rw [Aloud.andFinally]
    dsimp only
    rw [hout]
  · rw [act_andFinally, exec_andFinally, hout]
    dsimp only
    rw [exec_bind, exec_whileHandling]
    rcases cleanup.act.exec { v with handling := some e } with ⟨_ | _, u⟩ <;> rfl

end Finally

end Passes

end Aloud

/-! ## Runs that are opened by other means, aloud -/

namespace Runner.Aloud

variable (r : Runner Procedure) (audience : Audience) (o : Opening)

def prepareBy : Aloud (List (Candidate Procedure)) := do
  r.subscribeBy o.makers
  enter r .filtering
  let survivors ← (r.survivorsBy o.ask : Act _)
  log r .info "Running suite" (.suiteStarted r.suite.name survivors.length)
  return survivors

/-- What is done of a class once its set-up is begun. -/
def runFromSetUp (survivors : List (Candidate Procedure)) : Aloud Unit := do
  if ← setUpClass r audience then do
    enter r .runningUnits
    runCandidates r audience survivors
    enter r .classTeardown
    tearDownClass r audience

def runSurvivorsBy : Aloud Unit := do
  let survivors ← prepareBy r o
  if survivors.isEmpty then enter r .idle else runClass r audience survivors

def runOpened : Aloud Unit :=
  .activate { runner := r.master, target := r.suite.name, nightly := r.config.nightly } do
    Act.push (.fresh r.master)
    .andFinally (runSurvivorsBy r audience o) (close r)

theorem act_runSurvivorsBy : (runSurvivorsBy r audience o).act = r.runSurvivorsBy audience o := by
  unfold runSurvivorsBy Runner.runSurvivorsBy
  simp only [Aloud.act_bind, Aloud.act_ite, act_runClass]
  rfl

/-- What a run says does not change it, by whatever means it is opened. -/
theorem act_runOpened : (runOpened r audience o).act = r.runOpened audience o := by
  unfold runOpened Runner.runOpened
  simp only [Aloud.act_activate, Aloud.act_bind, Aloud.act_andFinally, act_runSurvivorsBy]
  rfl

/-! ## What tells of no state -/

variable {r audience}

theorem discreet_log {level : LogLevel} (h : level ≠ .debug) (message : String)
    (detail : LogDetail) : (log r level message detail).Discreet := by
  intro w saying hmem
  cases List.mem_singleton.mp hmem
  exact if_neg h

theorem discreet_notify (n : Notification ErrorId) : (notify audience n).Discreet := by
  intro w saying hmem
  cases List.mem_singleton.mp hmem
  rfl

theorem discreet_reportFailure (name : String) (e : ErrorId) :
    (reportFailure r audience name e).Discreet :=
  .bind (.lift _) fun _ => .bind (discreet_log (by decide) _ _) fun _ => discreet_notify _

theorem discreet_reportOutcomes (name : String) (seeds : List Seed)
    (outcomes : List (Hook Procedure × Option ErrorId)) :
    (reportOutcomes r audience name seeds outcomes).Discreet := by
  induction outcomes with
  | nil => exact .lift _
  | cons outcome rest ih =>
      obtain ⟨hook, _ | e⟩ := outcome
      · exact ih
      · exact .bind (.lift _) fun _ => .bind (discreet_reportFailure _ _) fun _ => ih

theorem discreet_setUpClass : (setUpClass r audience).Discreet :=
  .handle (.lift _) fun _ =>
    .bind (.bind (.lift _) fun _ => discreet_reportFailure _ _) fun _ => .lift _

theorem discreet_tearDownClass : (tearDownClass r audience).Discreet :=
  .bind (.lift _) fun _ => .bind (.lift _) fun _ => discreet_reportOutcomes _ _ _

theorem discreet_reportCandidate (c : Candidate Procedure) (e : ErrorId) :
    (reportCandidate r audience c e).Discreet := by
  refine .bind (.lift _) fun _ => .bind (.lift _) fun _ => ?_
  split
  · exact discreet_notify _
  · exact discreet_reportFailure _ _

theorem discreet_execute (c : Candidate Procedure) : (execute r audience c).Discreet := by
  refine .bind (.lift _) fun made =>
    .bind (.handle (.lift _) fun e => discreet_reportCandidate c e) fun _ => ?_
  split
  · exact .bind (.lift _) fun _ => .bind (.lift _) fun _ => discreet_reportOutcomes _ _ _
  · exact .lift _

theorem discreet_runCandidates (cs : List (Candidate Procedure)) :
    (runCandidates r audience cs).Discreet := by
  induction cs with
  | nil => exact .lift _
  | cons c rest ih =>
      refine .bind (.inScope (.bind (discreet_notify _) fun _ => .andFinally ?_
        (discreet_notify _))) fun _ => ih
      split
      · exact discreet_notify _
      · exact discreet_execute c

/-- A state that is entered is told. -/
theorem passes_enter (state : RunState) (w : World) : (enter r state).Passes w [state] := by
  constructor
  · have htold : Saying.transition? ⟨.logged {
        level := .debug, logger := "seedrunner.runner.scheduler"
        message := w.session.state.name ++ " -> " ++ state.name, trace := r.seedChain }, w⟩ =
        some (w.session.state, state) := by
      unfold Saying.transition?
      dsimp only
      rw [if_pos rfl, RunState.find?_named, Option.map_some]
    exact List.filterMap_cons_some htold
  · rfl

end Runner.Aloud
end SeededTesting
