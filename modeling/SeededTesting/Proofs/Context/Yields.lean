import SeededTesting.Proofs.Context.Moments
import SeededTesting.Proofs.Random.Isolation

/-! # What the sources of a program over contexts yield

Sources are reached through the stacks of contexts, and one source may be on several of them. At
whatever moment and in whichever thread a source is asked, it yields what it would yield alone.
-/

namespace SeededTesting.ContextProgram

/-- Whose source a step asks, and for what. -/
def Step.request? : Step → Option (Owner × Request)
  | .fraction owner => some (owner, .fraction)
  | .bits owner width => if width < 0 then none else some (owner, .bits width.toNat)
  | .fork => some (.ambient, .fork)
  | _ => none

/-- The value that is told by an answer. -/
def Answer.value? : Answer → Option Nat
  | .number n => some n
  | .seed s => some s.toNat
  | _ => none

/-- What the source on top of the stack yields at a moment, which is what is answered there. -/
def Moment.yields (m : Moment) : List Yield :=
  match m.step.request? with
  | none => []
  | some (owner, request) =>
    match (exec owner.currentSlot m.before).1, m.after.answers.back?.bind Answer.value? with
    | .ok slot, some value =>
      if slot < m.before.sources.size then [⟨slot, request, value⟩] else []
    | _, _ => []

theorem Moment.yields_of_request?_none {m : Moment} (h : m.step.request? = none) :
    m.yields = [] := by
  rw [yields, h]

theorem exec_currentSlot_bind {α : Type} (owner : Owner) (next : Nat → Action α) (s : State) :
    exec (owner.currentSlot >>= next) s = match (exec owner.currentSlot s).1 with
      | .ok slot => exec (next slot) s
      | .error e => (.error e, s) := by
  have hasked : exec owner.currentSlot s = ((exec owner.currentSlot s).1, s) := by
    rw [exec_currentSlot]
  rw [exec_bind, hasked]
  cases (exec owner.currentSlot s).1 <;> rfl

/-- A step that asks a source fails to find one, or draws from it and answers what it has drawn. -/
theorem exec_asking {step : Step} {owner : Owner} {request : Request}
    (h : step.request? = some (owner, request)) (s : State) :
    match (exec owner.currentSlot s).1 with
    | .error _ => (exec step.run s).2 = s
    | .ok slot => ∃ (table : SourceTable) (value : Nat) (a : Answer), a.value? = some value ∧
        (exec step.run s).2 = { s with sources := table }.answered a ∧
        s.sources.Follows (if slot < s.sources.size then [⟨slot, request, value⟩] else [])
          table := by
  cases step with
  | fraction owner' =>
      cases h
      rw [Step.run, exec_currentSlot_bind]
      rcases (exec owner.currentSlot s).1 with e | slot
      · rfl
      · exact ⟨_, _, .number _, rfl, rfl, SourceTable.follows_draw fun _ => rfl⟩
  | bits owner' width =>
      -- A negative width is refused, and asks nothing of a source.
      by_cases hwidth : width < 0
      · simp only [Step.request?, hwidth, if_true] at h
        cases h
      · simp only [Step.request?, hwidth, if_false] at h
        cases h
        rw [Step.run, exec_currentSlot_bind]
        rcases (exec owner.currentSlot s).1 with e | slot
        · rfl
        · simp only [hwidth, if_false]
          exact ⟨_, _, .number _, rfl, rfl, SourceTable.follows_draw fun _ => rfl⟩
  | fork =>
      cases h
      rw [Step.run, exec_currentSlot_bind]
      rcases (exec Owner.ambient.currentSlot s).1 with e | slot
      · rfl
      · exact ⟨_, _, .seed _, rfl, rfl, SourceTable.follows_fork⟩
  | _ => cases h

/-- A step that asks no source, or asks one for a negative number of bits, draws nothing. -/
theorem fixes_sources {step : Step} (hstep : step.body? = none) (h : step.request? = none) :
    Fixes State.sources step.run := by
  by_cases hdraws : step.draws = true
  · cases step with
    | bits owner width =>
        by_cases hwidth : width < 0
        · intro s
          rw [Step.run, exec_currentSlot_bind]
          rcases (exec owner.currentSlot s).1 with e | slot
          · rfl
          · simp only [hwidth, if_true]
            rfl
        · simp only [Step.request?, hwidth, if_false] at h
          cases h
    | fraction | fork => cases h
    | _ => cases hdraws
  · refine fixes_step hstep (fun _ _ => rfl) (fun _ s stack site => ?_) (fun h => absurd h hdraws)
    cases site <;> rfl

theorem follows_step (within : List Step) {step : Step} (hstep : step.body? = none) (s : State)
    (outcome : Except Complaint Unit) :
    s.sources.Follows (Moment.yields ⟨within, step, s, outcome, (exec step.run s).2⟩)
      (exec step.run s).2.sources := by
  cases hrequest : step.request? with
  | none =>
      have hsame : (exec step.run s).2.sources = s.sources := fixes_sources hstep hrequest s
      rw [Moment.yields_of_request?_none hrequest, hsame]
      exact .done s.sources
  | some asked =>
      obtain ⟨owner, request⟩ := asked
      have hasking := exec_asking hrequest s
      simp only [Moment.yields, hrequest]
      generalize (exec owner.currentSlot s).1 = found at hasking ⊢
      cases found with
      | error e =>
          rw [show (exec step.run s).2 = s from hasking]
          exact .done s.sources
      | ok slot =>
          obtain ⟨table, value, a, hvalue, hafter, hfollows⟩ := hasking
          rw [hafter]
          simpa [State.answered, hvalue] using hfollows

/-- A step with a body asks no source by itself. -/
theorem follows_enclosing {table table' : SourceTable} {moments : List Moment} {m : Moment}
    (hm : m.step.request? = none) (h : table.Follows (moments.flatMap Moment.yields) table') :
    table.Follows (moments.flatMap Moment.yields ++ m.yields) table' := by
  rw [Moment.yields_of_request?_none hm, List.append_nil]
  exact h

/-- Until the end of a body, the sources follow what the moments yield. -/
theorem accounting_follows : Accounting
    (fun _ s ms t => s.sources.Follows (ms.flatMap Moment.yields) t.sources)
    (fun within step s ms t => ∀ outcome,
      s.sources.Follows (ms.flatMap Moment.yields ++ Moment.yields ⟨within, step, s, outcome, t⟩)
        t.sources) where
  composes _ := {
    nil := fun s => .done s.sources
    append := by
      intro s t u ms ns hfirst hnext
      rw [List.flatMap_append]
      exact hfirst.append hnext }
  answered h _ := h
  mark := by
    intro within step s ms h
    rw [List.flatMap_append, List.flatMap_singleton]
    exact h _
  leaf hstep s outcome := follows_step _ hstep s outcome
  unsettled _ _ := follows_enclosing rfl (.done _)
  scope := by
    intro within site settled slot body s ms t _ h outcome
    -- To enter and to leave a scope writes stacks only, and the sources are none of these.
    have hput : ∀ (s : State) stack site, (s.putStack stack site).sources = s.sources := by
      intro s stack site
      cases site <;> rfl
    have hentered : (s.entered settled slot).sources = s.sources := hput s _ settled
    have hpopped : (exec settled.pop t).2.sources = t.sources := Fixes.pop hput settled t
    apply follows_enclosing rfl
    rw [hpopped, ← hentered]
    exact h
  activate h _ := follows_enclosing rfl h
  attempt h _ := follows_enclosing rfl h
  thread h _ := follows_enclosing rfl h
  copyContext h _ := follows_enclosing rfl h

/-- What the sources yield in a program, in the order of time. -/
def log (program : List Step) (s : State) : List Yield :=
  ((tracedSettled [] program).moments s).flatMap Moment.yields

/-- In every program the sources are isolated from each other. -/
theorem isolated_sources (program : List Step) (s : State) :
    s.sources.Isolated (log program s) (exec (settleBody program) s).2.sources := by
  have hfollows := (accounting_follows.body program []).2 s
  rw [exec_tracedSettled] at hfollows
  exact hfollows.isolated

end SeededTesting.ContextProgram
