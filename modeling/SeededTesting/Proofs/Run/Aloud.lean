import SeededTesting.Proofs.Act.Execution
import SeededTesting.Run.Lifecycle

/-! # Runs aloud

A run logs records and sends notifications. This module goes through the life of a run once more
and takes down all that the run says itself, in order, each with the world in which it is said. What
collaborators say, and what runs within their scripts say, is not part of it.
-/

namespace SeededTesting

/-- A record that is logged, or a notification that is sent. -/
inductive Signal where
  | logged (record : LogRecord)
  | sent (n : Notification ErrorId)

/-- A signal, and the world at the moment in which it is given. -/
structure Saying where
  signal : Signal
  world : World

/-- An action together with what it says in a world. -/
structure Aloud (α : Type) where
  act : Act α
  said : World → List Saying

namespace Aloud

variable {α β : Type}

/-- An action that says nothing itself. -/
def quiet (body : Act α) : Aloud α where
  act := body
  said _ := []

/-- An action that gives a signal. -/
def say (signal : Signal) (body : Act Unit) : Aloud Unit where
  act := body
  said w := [⟨signal, w⟩]

instance : Monad Aloud where
  pure value := quiet (pure value)
  bind body next := {
    act := body.act >>= fun x => (next x).act
    said := fun w => body.said w ++ match body.act.exec w with
      | (.ok x, v) => (next x).said v
      | (.error _, _) => [] }

instance : MonadLift Act Aloud where
  monadLift := quiet

def handle (body : Aloud α) (handler : ErrorId → Aloud α) : Aloud α where
  act := Act.handle body.act fun e => (handler e).act
  said w := body.said w ++ match body.act.exec w with
    | (.ok _, _) => []
    | (.error e, v) =>
      if (v.errors.get e).kind.interrupt then [] else (handler e).said { v with handling := some e }

def andFinally (body cleanup : Aloud Unit) : Aloud Unit where
  act := Act.andFinally body.act cleanup.act
  said w := body.said w ++ match body.act.exec w with
    | (.ok _, v) => cleanup.said v
    | (.error e, v) => cleanup.said { v with handling := some e }

def leaving (body : Aloud Unit) : Aloud Unit where
  act := Act.leaving body.act
  said := body.said

def inScope (source : RandomSource) (body : Aloud Unit) : Aloud Unit := do
  Act.push source
  leaving (andFinally body (discard Act.pop : Act Unit))

def activate (context : RunContext) (body : Aloud Unit) : Aloud Unit := do
  Act.enterContext context
  leaving (andFinally body Act.leaveContext)

@[simp] theorem act_bind (body : Aloud α) (next : α → Aloud β) :
    (body >>= next).act = body.act >>= fun x => (next x).act := rfl

@[simp] theorem act_lift (body : Act α) : (liftM body : Aloud α).act = body := rfl

@[simp] theorem act_handle (body : Aloud α) (handler : ErrorId → Aloud α) :
    (handle body handler).act = Act.handle body.act fun e => (handler e).act := rfl

@[simp] theorem act_andFinally (body cleanup : Aloud Unit) :
    (andFinally body cleanup).act = Act.andFinally body.act cleanup.act := rfl

@[simp] theorem act_inScope (source : RandomSource) (body : Aloud Unit) :
    (inScope source body).act = Act.inScope source body.act := rfl

@[simp] theorem act_activate (context : RunContext) (body : Aloud Unit) :
    (activate context body).act = Act.activate context body.act := rfl

@[simp] theorem act_ite (condition : Prop) [Decidable condition] (body other : Aloud α) :
    (if condition then body else other).act = if condition then body.act else other.act := by
  split <;> rfl

section Bind

variable {body : Aloud α} {next : α → Aloud β} {w v : World}

theorem said_bind_of_ok {x : α} (hbody : body.act.exec w = (.ok x, v)) :
    (body >>= next).said w = body.said w ++ (next x).said v := by
  change body.said w ++ _ = _
  rw [hbody]

theorem said_bind_of_error {e : ErrorId} (hbody : body.act.exec w = (.error e, v)) :
    (body >>= next).said w = body.said w := by
  change body.said w ++ _ = _
  rw [hbody, List.append_nil]

/-! ## What is said -/

variable {saying : Saying}

theorem mem_said_bind : saying ∈ (body >>= next).said w ↔ saying ∈ body.said w ∨
    ∃ x v, body.act.exec w = (.ok x, v) ∧ saying ∈ (next x).said v := by
  rcases hbody : body.act.exec w with ⟨e | x, v⟩
  · rw [said_bind_of_error hbody]
    simp
  · rw [said_bind_of_ok hbody, List.mem_append]
    refine or_congr_right ⟨fun hmem => ⟨x, v, rfl, hmem⟩, ?_⟩
    rintro ⟨_, _, ⟨⟩, hmem⟩
    exact hmem

theorem mem_said_handle {handler : ErrorId → Aloud α} : saying ∈ (handle body handler).said w ↔
    saying ∈ body.said w ∨ ∃ e v, body.act.exec w = (.error e, v) ∧
      (v.errors.get e).kind.interrupt = false ∧
        saying ∈ (handler e).said { v with handling := some e } := by
  change saying ∈ body.said w ++ _ ↔ _
  rw [List.mem_append]
  rcases body.act.exec w with ⟨e | x, v⟩
  · dsimp only
    refine or_congr_right ⟨fun hmem => ?_, ?_⟩
    · split at hmem
      next => cases hmem
      next hcaught => exact ⟨e, v, rfl, Bool.eq_false_iff.mpr hcaught, hmem⟩
    · rintro ⟨_, _, ⟨⟩, hcaught, hmem⟩
      rwa [if_neg (Bool.eq_false_iff.mp hcaught)]
  · simp

theorem mem_said_andFinally {body cleanup : Aloud Unit} :
    saying ∈ (andFinally body cleanup).said w ↔ saying ∈ body.said w ∨
      (∃ v, body.act.exec w = (.ok (), v) ∧ saying ∈ cleanup.said v) ∨
      ∃ e v, body.act.exec w = (.error e, v) ∧
        saying ∈ cleanup.said { v with handling := some e } := by
  change saying ∈ body.said w ++ _ ↔ _
  rw [List.mem_append]
  rcases body.act.exec w with ⟨e | x, v⟩
  · refine or_congr_right ⟨fun hmem => .inr ⟨e, v, rfl, hmem⟩, ?_⟩
    rintro (⟨_, ⟨⟩, -⟩ | ⟨_, _, ⟨⟩, hmem⟩)
    exact hmem
  · refine or_congr_right ⟨fun hmem => .inl ⟨v, rfl, hmem⟩, ?_⟩
    rintro (⟨_, ⟨⟩, hmem⟩ | ⟨_, _, ⟨⟩, -⟩)
    exact hmem

end Bind

theorem ext {body other : Aloud α} (hact : body.act = other.act)
    (hsaid : ∀ w, body.said w = other.said w) : body = other := by
  obtain ⟨act, said⟩ := body
  obtain ⟨act', said'⟩ := other
  obtain rfl : act = act' := hact
  obtain rfl : said = said' := funext hsaid
  rfl

instance : LawfulMonad Aloud := by
  refine .mk' _ (fun body => ?_) (fun x next => ?_) fun body next last => ?_
  · refine ext (bind_pure body.act) fun w => ?_
    rcases hbody : body.act.exec w with ⟨e | x, v⟩
    · exact said_bind_of_error hbody
    · exact (said_bind_of_ok hbody).trans (List.append_nil _)
  · exact ext (pure_bind x _) fun w => List.nil_append _
  · refine ext (bind_assoc body.act _ _) fun w => ?_
    rcases hbody : body.act.exec w with ⟨e | x, v⟩
    · have hfirst : (body >>= next).act.exec w = (.error e, v) := Act.exec_bind_of_error hbody
      rw [said_bind_of_error hfirst, said_bind_of_error hbody, said_bind_of_error hbody]
    · have hfirst : (body >>= next).act.exec w = (next x).act.exec v := Act.exec_bind_of_ok hbody
      rw [said_bind_of_ok hbody]
      rcases hnext : (next x).act.exec v with ⟨e | y, u⟩
      · rw [said_bind_of_error (hfirst.trans hnext), said_bind_of_ok hbody,
          said_bind_of_error hnext]
      · rw [said_bind_of_ok (hfirst.trans hnext), said_bind_of_ok hbody,
          said_bind_of_ok hnext, List.append_assoc]

/-- All that an action says, wherever it starts, is of a sort. -/
def Only (p : Saying → Prop) (body : Aloud α) : Prop :=
  ∀ w, ∀ saying ∈ body.said w, p saying

namespace Only

variable {p q : Saying → Prop} {body : Aloud α}

theorem mono (h : Only p body) (hpq : ∀ saying, p saying → q saying) : Only q body :=
  fun w saying hmem => hpq saying (h w saying hmem)

theorem lift (body : Act α) : Only p (liftM body : Aloud α) :=
  fun _ => List.forall_mem_nil _

theorem say {signal : Signal} {body : Act Unit} (h : ∀ w, p ⟨signal, w⟩) :
    Only p (.say signal body) :=
  fun w _ hmem => List.mem_singleton.mp hmem ▸ h w

theorem bind {next : α → Aloud β} (h : Only p body) (hnext : ∀ x, Only p (next x)) :
    Only p (body >>= next) := by
  intro w saying hmem
  rcases mem_said_bind.mp hmem with hmem | ⟨x, v, -, hmem⟩
  · exact h w saying hmem
  · exact hnext x v saying hmem

theorem handle {handler : ErrorId → Aloud α} (h : Only p body)
    (hhandler : ∀ e, Only p (handler e)) : Only p (.handle body handler) := by
  intro w saying hmem
  rcases mem_said_handle.mp hmem with hmem | ⟨e, v, -, -, hmem⟩
  · exact h w saying hmem
  · exact hhandler e _ saying hmem

theorem andFinally {body cleanup : Aloud Unit} (h : Only p body) (hcleanup : Only p cleanup) :
    Only p (.andFinally body cleanup) := by
  intro w saying hmem
  rcases mem_said_andFinally.mp hmem with hmem | ⟨v, -, hmem⟩ | ⟨e, v, -, hmem⟩
  · exact h w saying hmem
  · exact hcleanup v saying hmem
  · exact hcleanup _ saying hmem

theorem inScope {source : RandomSource} {body : Aloud Unit} (h : Only p body) :
    Only p (.inScope source body) :=
  .bind (.lift _) fun _ => andFinally h (.lift _)

end Only

end Aloud

/-! ## The life of a run -/

namespace Runner.Aloud

variable (r : Runner Procedure) (audience : Audience)

def log (level : LogLevel) (message : String) (detail : LogDetail := .none) : Aloud Unit :=
  let record : LogRecord :=
    { level, logger := "seedrunner.runner.scheduler", message, trace := r.seedChain, detail }
  .say (.logged record) (Act.log record)

def enter (state : RunState) : Aloud Unit := do
  log r .debug ((← (get : Act World)).session.state.name ++ " -> " ++ state.name)
  Act.modifySession fun s => { s with state }

def notify (n : Notification ErrorId) : Aloud Unit :=
  .say (.sent n) (audience.notify n)

def reportFailure (name : String) (e : ErrorId) : Aloud Unit := do
  let errors := (← (get : Act World)).errors
  log r .warning ("Failure in " ++ name ++ ": " ++ (errors.get e).summary)
    (.failure (errors.extractSeed e))
  notify audience { kind := .failed, name, error := some e }

def reportOutcomes (name : String) (seeds : List Seed) :
    List (Hook Procedure × Option ErrorId) → Aloud Unit
  | [] => return
  | (_, none) :: rest => reportOutcomes name seeds rest
  | (_, some e) :: rest => do
    Act.augment e seeds
    reportFailure r audience name e
    reportOutcomes name seeds rest

def reportSuite (e : ErrorId) : Aloud Unit := do
  Act.augment e [r.master]
  reportFailure r audience r.suite.name e

def setUpClass : Aloud Bool :=
  .handle
    (.quiet do
      callHooks [] (← r.hooks .beforeAll)
      return true)
    fun e => do
      reportSuite r audience e
      return false

def tearDownClass : Aloud Unit := do
  let outcomes ← invokeAll [] (← r.hooks .afterAll)
  reportOutcomes r audience r.suite.name [r.master] outcomes

variable (c : Candidate Procedure)

def reportCandidate (e : ErrorId) : Aloud Unit := do
  Act.augment e [r.master, c.seed]
  if (← Act.complaint e).kind.assumption then
    notify audience { kind := .assumptionFailed, name := c.name, error := some e }
  else reportFailure r audience c.name e

def execute : Aloud Unit := do
  let made ← Act.observe r.makeInstance
  .handle
    (.quiet do
      let target ← Act.resume made
      callHooks [target] (← r.hooks .beforeEach)
      r.callBody c target)
    (reportCandidate r audience c)
  match made with
  | .ok (some number) => do
    let outcomes ← invokeAll [some number] (← r.hooks .afterEach)
    reportOutcomes r audience c.name [r.master, c.seed] outcomes
  | _ => return

def attend : Aloud Unit := do
  notify audience { kind := .started, name := c.name }
  .andFinally
    (if r.ignores c then notify audience { kind := .ignored, name := c.name }
      else execute r audience c)
    (notify audience { kind := .finished, name := c.name })

def runCandidate : Aloud Unit :=
  .inScope (.fresh c.seed) (attend r audience c)

def runCandidates : List (Candidate Procedure) → Aloud Unit
  | [] => return
  | c :: rest => do
    runCandidate r audience c
    runCandidates rest

def runClass (survivors : List (Candidate Procedure)) : Aloud Unit := do
  enter r .classSetup
  if ← setUpClass r audience then do
    enter r .runningUnits
    runCandidates r audience survivors
    enter r .classTeardown
    tearDownClass r audience

def prepare : Aloud (List (Candidate Procedure)) := do
  r.subscribeFrom 0 r.suite.listeners
  enter r .filtering
  let survivors := r.survivors (← (get : Act World)).session.predicate
  log r .info "Running suite" (.suiteStarted r.suite.name survivors.length)
  return survivors

def runSurvivors : Aloud Unit := do
  let survivors ← prepare r
  if survivors.isEmpty then enter r .idle else runClass r audience survivors

def close : Aloud Unit := do
  unsubscribeDeclared
  (discard Act.pop : Act Unit)
  enter r .done
  log r .info "Suite finished" (.suiteFinished r.suite.name)

def run : Aloud Unit :=
  .activate { runner := r.master, target := r.suite.name, nightly := r.config.nightly } do
    Act.push (.fresh r.master)
    .andFinally (runSurvivors r audience) (close r)

/-! ## A run aloud is the run -/

theorem act_reportOutcomes (name : String) (seeds : List Seed)
    (outcomes : List (Hook Procedure × Option ErrorId)) :
    (reportOutcomes r audience name seeds outcomes).act =
      r.reportOutcomes audience name seeds outcomes := by
  induction outcomes with
  | nil => rfl
  | cons outcome rest ih =>
      obtain ⟨hook, _ | e⟩ := outcome
      · exact ih
      · rw [reportOutcomes, Runner.reportOutcomes, ← ih]
        rfl

theorem act_tearDownClass : (tearDownClass r audience).act = r.tearDownClass audience := by
  unfold tearDownClass Runner.tearDownClass
  simp only [Aloud.act_bind, Aloud.act_lift, act_reportOutcomes]

theorem act_reportCandidate (e : ErrorId) :
    (reportCandidate r audience c e).act = r.reportCandidate audience c e := by
  unfold reportCandidate Runner.reportCandidate
  simp only [Aloud.act_bind, Aloud.act_lift, Aloud.act_ite]
  rfl

theorem act_execute : (execute r audience c).act = r.execute audience c := by
  unfold execute Runner.execute
  simp only [Aloud.act_bind, Aloud.act_lift, Aloud.act_handle, act_reportCandidate]
  refine bind_congr fun made => bind_congr fun _ => ?_
  obtain _ | _ | number := made
  · rfl
  · rfl
  · simp only [Aloud.act_bind, Aloud.act_lift, act_reportOutcomes]

theorem act_attend : (attend r audience c).act = r.attend audience c := by
  unfold attend Runner.attend
  simp only [Aloud.act_bind, Aloud.act_andFinally, Aloud.act_ite, act_execute]
  rfl

theorem act_runCandidate : (runCandidate r audience c).act = r.runCandidate audience c := by
  rw [runCandidate, Runner.runCandidate, Aloud.act_inScope, act_attend]

theorem act_runCandidates (cs : List (Candidate Procedure)) :
    (runCandidates r audience cs).act = r.runCandidates audience cs := by
  induction cs with
  | nil => rfl
  | cons c rest ih =>
      rw [runCandidates, Runner.runCandidates, Aloud.act_bind, act_runCandidate]
      exact bind_congr fun _ => ih

theorem act_runClass (cs : List (Candidate Procedure)) :
    (runClass r audience cs).act = r.runClass audience cs := by
  unfold runClass Runner.runClass
  simp only [Aloud.act_bind, Aloud.act_ite, act_runCandidates, act_tearDownClass]
  rfl

theorem act_runSurvivors : (runSurvivors r audience).act = r.runSurvivors audience := by
  unfold runSurvivors Runner.runSurvivors
  simp only [Aloud.act_bind, Aloud.act_ite, act_runClass]
  rfl

/-- What a run says does not change it. -/
theorem act_run : (run r audience).act = r.run audience := by
  unfold run Runner.run
  simp only [Aloud.act_activate, Aloud.act_bind, Aloud.act_andFinally, act_runSurvivors]
  rfl

end Runner.Aloud
end SeededTesting
