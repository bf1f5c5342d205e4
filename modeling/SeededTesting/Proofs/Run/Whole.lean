import SeededTesting.Proofs.Run.Soundness

/-! # Whole runs

A run enters a context of its own, does its work and closes, and leaves the context. The candidates
that it runs are those that survive the filters once its declared listeners have been made.
-/

namespace SeededTesting

open Act

/-- The regime under which nothing can be seen. -/
def Regime.silent : Regime where
  balanced := True
  step s t := t.trace = s.trace ∧ t.recorded = s.recorded
  refl _ := ⟨rfl, rfl⟩
  trans h h' := ⟨h'.1.trans h.1, h'.2.trans h.2⟩

theorem Regime.closes_silent : silent.Closes :=
  ⟨fun _ _ => ⟨rfl, rfl⟩, fun _ _ => ⟨rfl, rfl⟩, fun _ _ => ⟨rfl, rfl⟩⟩

namespace Runner

variable (r : Runner Procedure) {audience : Audience}

/-- The world in which a run takes up its work. -/
def entered (w : World) : World :=
  w.within ({
    runner := r.master, target := r.suite.name, nightly := r.config.nightly
    stack := [.fresh r.master] } :: w.contexts)

/-- The test of display names that is in force when the filters are applied: declared listeners
are made before. -/
def inForce (w : World) : Option (String → Bool) :=
  ((r.subscribeFrom 0 r.suite.listeners).exec (r.entered w)).2.session.predicate

theorem entered_lawful {w : World} (hw : w.Lawful) : (r.entered w).Lawful :=
  ⟨hw.errors, hw.handling⟩

theorem seeded_entered (w : World) : (r.entered w).Seeded r.master :=
  ⟨{ runner := r.master, target := r.suite.name, nightly := r.config.nightly }, w.contexts,
    .fresh r.master, [], rfl, rfl⟩

/-- What is done in the context of a run changes the session besides only by what it leaves of the
context. -/
theorem exec_within {body : Act Unit} (hbody : Sound body) {w : World} (hw : w.Lawful)
    {outcome : Except ErrorId Unit} {v : World} (hwork : body.exec (r.entered w) = (outcome, v)) :
    ∃ last : RunContext, last.stack = [] ∧
      (Act.activate { runner := r.master, target := r.suite.name, nightly := r.config.nightly } do
        Act.push (.fresh r.master)
        body).exec w = (leaving (resume outcome)).exec { v with
          contexts := w.contexts
          session := { v.session with lastContext := some last } } := by
  have hpushed : Sound (do Act.push (.fresh r.master); body) :=
    .bind (.push id complains_any.toTolerates _) fun _ => hbody
  have hexec : (do Act.push (.fresh r.master); body : Act Unit).exec (w.within ({
      runner := r.master, target := r.suite.name, nightly := r.config.nightly } ::
        w.contexts)) = (outcome, v) := by
    rw [exec_bind, exec_push]
    exact hwork
  have hgrows := (hpushed (w.within ({
    runner := r.master, target := r.suite.name, nightly := r.config.nightly } :: w.contexts))
    ⟨hw.errors, hw.handling⟩ trivial).1.grows
  rw [hexec] at hgrows
  exact exec_activate hexec hgrows

/-- In the context of a run, what does the same there does the same. -/
theorem exec_within_congr {body body' : Act Unit} {w : World}
    (h : body.exec (r.entered w) = body'.exec (r.entered w)) :
    (Act.activate { runner := r.master, target := r.suite.name, nightly := r.config.nightly } do
        Act.push (.fresh r.master)
        body).exec w =
      (Act.activate { runner := r.master, target := r.suite.name, nightly := r.config.nightly } do
        Act.push (.fresh r.master)
        body').exec w := by
  have hpushed : ∀ body : Act Unit, (do Act.push (.fresh r.master); body : Act Unit).exec
      (w.within ({ runner := r.master, target := r.suite.name, nightly := r.config.nightly } ::
        w.contexts)) = body.exec (r.entered w) := by
    intro body
    rw [exec_bind, exec_push]
    rfl
  rw [activate, activate, exec_bind, exec_bind, exec_enterContext]
  dsimp only
  rw [← World.within, exec_leaving, exec_leaving, exec_andFinally, exec_andFinally, hpushed,
    hpushed, h]

/-- What a run does before it takes up its work, and what it does in the end, changes the session
only by what it leaves of its context. -/
theorem exec_run (hcodes : ∀ code ∈ r.suite.codes, code.Conducts .free anyComplaint)
    (haudience : audience.Conducts .free anyComplaint) (hexpands : r.Expands) {w : World}
    (hw : w.Lawful) {outcome : Except ErrorId Unit} {v : World}
    (hwork : (Act.andFinally (r.runSurvivors audience) r.close).exec (r.entered w) =
      (outcome, v)) :
    ∃ last : RunContext, last.stack = [] ∧
      (r.run audience).exec w = (leaving (resume outcome)).exec { v with
        contexts := w.contexts
        session := { v.session with lastContext := some last } } :=
  r.exec_within (.andFinally (r.abides_runSurvivors .free hcodes haudience hexpands)
    (r.conduct_close id .free)) hw hwork

/-- A run is prepared once its declared listeners are subscribed. -/
theorem exec_prepare (w : World) :
    r.prepare.exec w = match (r.subscribeFrom 0 r.suite.listeners).exec w with
      | (.ok (), v) => (.ok (r.survivors v.session.predicate), { v with
          journal := (((r.enter .filtering).exec v).2.journal.push {
            level := .info, logger := "seedrunner.runner.scheduler", message := "Running suite"
            trace := r.seedChain
            detail := .suiteStarted r.suite.name (r.survivors v.session.predicate).length })
          session := { v.session with state := .filtering } })
      | (.error e, v) => (.error e, v) := by
  rw [prepare, exec_bind]
  rcases (r.subscribeFrom 0 r.suite.listeners).exec w with ⟨e | _, v⟩ <;> rfl

/-! ## The end of a run -/

theorem exec_unsubscribeAll (listeners : List ListenerRef) (w : World) :
    (unsubscribeAll listeners).exec w = (.ok (), { w with session :=
      { w.session with subscribed := w.session.subscribed.diff listeners } }) := by
  induction listeners generalizing w with
  | nil => rfl
  | cons listener rest ih =>
      have hcancel : (unsubscribe listener).exec w = (.ok (), { w with session :=
          { w.session with subscribed := w.session.subscribed.erase listener } }) := rfl
      rw [unsubscribeAll, exec_bind_of_ok hcancel, ih, List.diff_cons]

theorem exec_unsubscribeDeclared (w : World) :
    unsubscribeDeclared.exec w = (.ok (), { w with session := { w.session with
      subscribed := w.session.subscribed.diff w.session.declared
      declared := [] } }) := by
  rw [unsubscribeDeclared, exec_bind_of_ok (exec_get w),
    exec_bind_of_ok (exec_unsubscribeAll w.session.declared w)]
  rfl

/-- Where a source is active, a run can be closed. -/
theorem exec_close {w : World} {seed : Seed} (hseeded : w.Seeded seed) :
    ∃ v, r.close.exec w = (.ok (), v) ∧ v.session.trace = w.session.trace := by
  obtain ⟨context, outer, source, rest, hcontexts, -⟩ := hseeded
  rw [close, exec_bind_of_ok (exec_unsubscribeDeclared w), exec_bind, exec_discard, exec_pop]
  dsimp only
  rw [hcontexts]
  exact ⟨_, rfl, rfl⟩

end Runner
end SeededTesting
