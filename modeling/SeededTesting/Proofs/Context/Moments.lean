import SeededTesting.Proofs.Act.Moments
import SeededTesting.Proofs.Context.Execution

/-! # The moments of a program over contexts

Every step that a program runs, at whatever depth, in a thread or in a copied context, is a moment
of it: the steps within which it stands, the states before and after it, and how it ended. The
program that is taken with its moments is the program itself.
-/

namespace SeededTesting.ContextProgram

theorem Step.sizeOf_lt_of_body? {step : Step} {body : List Step} (h : step.body? = some body) :
    sizeOf body < sizeOf step := by
  cases step with
  | scope | activate | attempt | thread | copyContext =>
      cases h
      simp only [scope.sizeOf_spec, activate.sizeOf_spec, attempt.sizeOf_spec, thread.sizeOf_spec,
        copyContext.sizeOf_spec]
      omega
  | _ => cases h

/-- What holds of the empty body, and of every body if it holds of the body of its first step and
of the rest, holds of all bodies. -/
theorem induction {motive : List Step → Prop} (nil : motive [])
    (cons : ∀ step rest, (∀ body, step.body? = some body → motive body) → motive rest →
      motive (step :: rest)) : ∀ body, motive body
  | [] => nil
  | step :: rest =>
      cons step rest (fun body h => by
        have := Step.sizeOf_lt_of_body? h
        exact induction nil cons body) (induction nil cons rest)
  termination_by body => sizeOf body
  decreasing_by
    · simp only [List.cons.sizeOf_spec]
      omega
    · simp only [List.cons.sizeOf_spec]
      omega

/-- A step that is run. -/
structure Moment where
  /-- The steps within whose bodies it stands, the innermost first. -/
  within : List Step
  step : Step
  before : State
  outcome : Except Complaint Unit
  after : State

abbrev TracedAction := Traced Complaint State Moment

/-- Runs a body with another ambient context and goes back to the one before. -/
def TracedAction.withAmbient (index : Option Nat) (body : TracedAction Unit) :
    TracedAction Unit := do
  let before := (← get).ambient
  modify fun s => { s with ambient := index }
  body.around (andFinally · (modify fun s => { s with ambient := before }))

mutual

/-- A step with the moments within it. -/
def Step.traced (within : List Step) : Step → TracedAction Unit
  | .scope site slot body => do
    let settled ← site.resolve
    settled.push slot
    let inside : TracedAction Unit := do
      answer (.seed (← seedOf slot))
      tracedBody (.scope site slot body :: within) body
    (inside.around (andFinally · (discard settled.pop))).around leaving
  | .activate index body =>
    let activated := (tracedBody (.activate index body :: within) body).around
      (andFinally · (modify (·.setStack index [])))
    (TracedAction.withAmbient (some index) activated).around leaving
  | .attempt body => (tracedBody (.attempt body :: within) body).around attempting
  | .thread body =>
    .withAmbient none ((tracedSettled (.thread body :: within) body).around threading)
  | .copyContext body => do
    .withAmbient (← get).ambient (tracedSettled (.copyContext body :: within) body)
  | step => step.run

/-- The moments of a body, up to its first error. -/
def tracedBody (within : List Step) : List Step → TracedAction Unit
  | [] => return
  | step :: rest => do
    (step.traced within).mark fun s outcome t => ⟨within, step, s, outcome, t⟩
    tracedBody within rest

/-- The moments of a body each of whose steps is run on its own. -/
def tracedSettled (within : List Step) : List Step → TracedAction Unit
  | [] => return
  | step :: rest => do
    ((step.traced within).mark fun s outcome t => ⟨within, step, s, outcome, t⟩).around settling
    tracedSettled within rest

end

theorem Step.traced_of_body? {step : Step} (h : step.body? = none) (within : List Step) :
    step.traced within = liftM step.run := by
  cases step with
  | scope | activate | attempt | thread | copyContext => cases h
  | _ => rfl

@[simp] theorem TracedAction.act_withAmbient (index : Option Nat) (body : TracedAction Unit) :
    (TracedAction.withAmbient index body).act = ContextProgram.withAmbient index body.act := rfl

theorem act_traced {step : Step} (within : List Step)
    (hbody : ∀ body, step.body? = some body → ∀ within,
      (tracedBody within body).act = runBody body ∧
        (tracedSettled within body).act = settleBody body) :
    (step.traced within).act = step.run := by
  cases step with
  | scope site slot body =>
      obtain ⟨hrun, -⟩ := hbody body rfl (.scope site slot body :: within)
      simp [Step.traced, Step.run, hrun]
  | activate index body =>
      obtain ⟨hrun, -⟩ := hbody body rfl (.activate index body :: within)
      simp [Step.traced, Step.run, hrun]
  | attempt body =>
      obtain ⟨hrun, -⟩ := hbody body rfl (.attempt body :: within)
      simp [Step.traced, Step.run, hrun]
  | thread body =>
      obtain ⟨-, hsettle⟩ := hbody body rfl (.thread body :: within)
      simp [Step.traced, Step.run, hsettle]
  | copyContext body =>
      obtain ⟨-, hsettle⟩ := hbody body rfl (.copyContext body :: within)
      simp only [Step.traced, Step.run, Traced.act_bind, TracedAction.act_withAmbient, hsettle]
      rfl
  | _ => rfl

/-- A body that is taken with its moments is the body itself. -/
theorem act_tracedBody (body : List Step) : ∀ within,
    (tracedBody within body).act = runBody body ∧
      (tracedSettled within body).act = settleBody body := by
  induction body using induction with
  | nil => exact fun _ => ⟨rfl, rfl⟩
  | cons step rest hstep ih =>
      intro within
      obtain ⟨hrun, hsettle⟩ := ih within
      have hfirst := act_traced within hstep
      simp [tracedBody, tracedSettled, runBody, settleBody, hrun, hsettle, hfirst]

/-- A step that is taken with its moments is the step itself. -/
theorem act_step (within : List Step) (step : Step) : (step.traced within).act = step.run :=
  act_traced within fun body _ => act_tracedBody body

theorem exec_traced (within : List Step) (step : Step) (s : State) :
    (step.traced within).exec s = exec step.run s := by
  rw [← act_step within]
  rfl

/-! ## What is said of moments, step by step -/

/-- Relations between a state, the moments from it on and the state after these: one for bodies that
stand within some steps, and one for what is within a single step. The rules lead from the body of a
step to the step and from the steps to a body. -/
structure Accounting (R : List Step → State → List Moment → State → Prop)
    (S : List Step → Step → State → List Moment → State → Prop) : Prop where
  composes : ∀ within, Traced.Composes (R within)
  answered : ∀ {within s ms t}, R within s ms t → ∀ a, R within s ms (t.answered a)
  /-- A step is a moment of the body in which it stands. -/
  mark : ∀ {within step s ms}, S within step s ms (exec step.run s).2 →
    R within s (ms ++ [⟨within, step, s, (exec step.run s).1, (exec step.run s).2⟩])
      (exec step.run s).2
  leaf : ∀ {within step}, step.body? = none → ∀ s, S within step s [] (exec step.run s).2
  unsettled : ∀ {within site slot body s}, site.settled? s = none →
    S within (.scope site slot body) s [] s
  scope : ∀ {within site settled slot body s ms t}, site.settled? s = some settled →
    R (.scope site slot body :: within) (s.entered settled slot) ms t →
      S within (.scope site slot body) s ms (exec settled.pop t).2
  activate : ∀ {within index body s ms t},
    R (.activate index body :: within) { s with ambient := some index } ms t →
      S within (.activate index body) s ms { t.setStack index [] with ambient := s.ambient }
  attempt : ∀ {within body s ms t}, R (.attempt body :: within) s ms t →
    S within (.attempt body) s ms t
  thread : ∀ {within body s ms t}, R (.thread body :: within) { s with ambient := none } ms t →
    S within (.thread body) s ms { t with ambient := s.ambient }
  copyContext : ∀ {within body s ms t}, R (.copyContext body :: within) s ms t →
    S within (.copyContext body) s ms { t with ambient := s.ambient }

section Body

variable (within : List Step) (body : List Step) (s : State)

theorem exec_tracedBody : (tracedBody within body).exec s = exec (runBody body) s := by
  rw [← (act_tracedBody body within).1]
  rfl

theorem exec_tracedSettled : (tracedSettled within body).exec s = exec (settleBody body) s := by
  rw [← (act_tracedBody body within).2]
  rfl

theorem moments_lift_bind {α β : Type} (first : Action α) (next : α → TracedAction β) :
    ((liftM first : TracedAction α) >>= next).moments s = match exec first s with
      | (.ok x, t) => (next x).moments t
      | (.error _, _) => [] := by
  rcases h : exec first s with ⟨e | x, t⟩
  · exact Traced.moments_bind_of_error h
  · exact Traced.moments_bind_of_ok h

/-- The moments within a scope are those of its body. -/
theorem moments_scope {site settled : Site} (h : site.settled? s = some settled) (slot : Nat) :
    (Step.traced within (.scope site slot body)).moments s =
      (tracedBody (.scope site slot body :: within) body).moments (s.entered settled slot) := by
  simp only [Step.traced, moments_lift_bind, exec_resolve, h, exec_push, Traced.moments_around,
    exec_seedOf, exec_answer]
  cases settled <;> rfl

theorem moments_scope_of_unsettled {site : Site} (h : site.settled? s = none) (slot : Nat) :
    (Step.traced within (.scope site slot body)).moments s = [] := by
  simp only [Step.traced, moments_lift_bind, exec_resolve, h]

theorem moments_activate (index : Nat) : (Step.traced within (.activate index body)).moments s =
    (tracedBody (.activate index body :: within) body).moments { s with ambient := some index } :=
  rfl

theorem moments_attempt : (Step.traced within (.attempt body)).moments s =
    (tracedBody (.attempt body :: within) body).moments s :=
  rfl

theorem moments_thread : (Step.traced within (.thread body)).moments s =
    (tracedSettled (.thread body :: within) body).moments { s with ambient := none } :=
  rfl

theorem moments_copyContext : (Step.traced within (.copyContext body)).moments s =
    (tracedSettled (.copyContext body :: within) body).moments s :=
  rfl

end Body

namespace Accounting

variable {R : List Step → State → List Moment → State → Prop}
  {S : List Step → Step → State → List Moment → State → Prop} {within : List Step}

/-- From the body of a step to the step. -/
theorem step (hA : Accounting R S) {step : Step}
    (hbody : ∀ body, step.body? = some body → ∀ within,
      (tracedBody within body).Accounts (R within) ∧
        (tracedSettled within body).Accounts (R within)) :
    (step.traced within).Accounts (S within step) := by
  intro s
  rw [exec_traced]
  cases step with
  | scope site slot body =>
      -- The body of a scope is not entered if there is no place to push on.
      cases hsettled : site.settled? s with
      | none =>
          rw [moments_scope_of_unsettled _ _ _ hsettled, exec_scope_of_unsettled hsettled]
          exact hA.unsettled hsettled
      | some settled =>
          have hinside := (hbody body rfl (.scope site slot body :: within)).1
            (s.entered settled slot)
          rw [exec_tracedBody] at hinside
          rw [moments_scope _ _ _ hsettled, exec_scope hsettled, after_andFinally, exec_discard]
          exact hA.scope hsettled hinside
  | activate index body =>
      have hinside := (hbody body rfl (.activate index body :: within)).1
        { s with ambient := some index }
      rw [exec_tracedBody] at hinside
      rw [moments_activate, after_activate]
      exact hA.activate hinside
  | attempt body =>
      have hinside := (hbody body rfl (.attempt body :: within)).1 s
      rw [exec_tracedBody] at hinside
      rw [moments_attempt, Step.run]
      -- An attempt answers how its body ended, unless an interrupt passes.
      obtain hafter | ⟨a, hafter⟩ := after_attempting (runBody body) s
      · rw [hafter]
        exact hA.attempt hinside
      · rw [hafter]
        exact hA.attempt (hA.answered hinside a)
  | thread body =>
      have hinside := (hbody body rfl (.thread body :: within)).2 { s with ambient := none }
      rw [exec_tracedSettled] at hinside
      rw [moments_thread, after_thread]
      exact hA.thread hinside
  | copyContext body =>
      have hinside := (hbody body rfl (.copyContext body :: within)).2 s
      rw [exec_tracedSettled] at hinside
      rw [moments_copyContext, after_copyContext]
      exact hA.copyContext hinside
  | _ =>
      rw [Step.traced_of_body? rfl]
      exact hA.leaf rfl s

/-- From a step to the moment that it is. -/
theorem marked (hA : Accounting R S) {step : Step}
    (hstep : (step.traced within).Accounts (S within step)) :
    ((step.traced within).mark fun s outcome t => ⟨within, step, s, outcome, t⟩).Accounts
      (R within) := by
  intro s
  have hinside := hstep s
  have hexec := exec_traced within step s
  rw [hexec] at hinside
  have hmark := hA.mark hinside
  rw [← hexec] at hmark
  exact hmark

/-- An error of a step that is run on its own leaves an answer. -/
theorem settling (hA : Accounting R S) {body : TracedAction Unit}
    (hbody : body.Accounts (R within)) :
    (body.around ContextProgram.settling).Accounts (R within) := by
  apply hbody.around
  intro s ms hbefore
  change R within s ms (exec (ContextProgram.settling body.act) s).2
  obtain hafter | ⟨a, hafter⟩ := after_settling body.act s
  · rw [hafter]
    exact hbefore
  · rw [hafter]
    exact hA.answered hbefore a

/-- From its steps to a body. -/
theorem body (hA : Accounting R S) (body : List Step) : ∀ within,
    (tracedBody within body).Accounts (R within) ∧
      (tracedSettled within body).Accounts (R within) := by
  induction body using induction with
  | nil => exact fun within => ⟨.value (hA.composes within) (), .value (hA.composes within) ()⟩
  | cons step rest hstep ih =>
      intro within
      obtain ⟨hrun, hsettle⟩ := ih within
      have hinside : (step.traced within).Accounts (S within step) := hA.step hstep
      have hfirst := hA.marked hinside
      rw [tracedBody, tracedSettled]
      exact ⟨.bind (hA.composes within) hfirst fun _ => hrun,
        .bind (hA.composes within) (hA.settling hfirst) fun _ => hsettle⟩

end Accounting

end SeededTesting.ContextProgram
