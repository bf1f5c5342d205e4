import SeededTesting.Proofs.Run.Scripted

/-! # Runs are invisible to their callers

A run works in a context of its own, which it empties and leaves however it ends. Its caller finds
the contexts as they were, with every source where it had been left, and the runner has cancelled
the subscriptions that the run made by itself. This holds outside of all runs and within another
one, whatever the collaborators of the inner run do.
-/

namespace SeededTesting

open Act

/-! ## What the contexts answer -/

namespace Act

variable {α : Type}

theorem runIn_eq (body : Act α) (w : World) :
    body.runIn w = ((body.exec w).1.mapError fun e => ((body.exec w).2.errors.get e).toComplaint,
      (body.exec w).2) := rfl

/-- What is said about the error of a complaint is the complaint. -/
theorem runIn_complain (c : Complaint) (w : World) :
    ((complain c : Act α).runIn w).1 = .error c := by
  have hmade : w.errors.size < (w.errors.add c).2.size := by simp
  have hsaid := ((w.errors.add c).2.grows_linkRaised w.handling w.errors.size).complaint _ hmade
  rw [runIn_eq, exec_complain]
  dsimp only [Except.mapError]
  rw [hsaid, ErrorStore.get_add_self]
  rfl

theorem runIn_currentContext (w : World) :
    (currentContext.runIn w).1 = match w.contexts with
      | [] => .error ContextError.noRun.complaint
      | context :: _ => .ok context := by
  rw [runIn_eq, exec_currentContext]
  cases w.contexts with
  | nil => exact runIn_complain _ w
  | cons context outer => rfl

/-- What is drawn depends on the active source alone. -/
theorem runIn_draw (take : RandomSource → α × RandomSource) (w : World) :
    ((draw take).runIn w).1 = match w.contexts with
      | [] => .error ContextError.noRun.complaint
      | context :: _ => match context.stack with
        | [] => .error ContextError.nothingActive.complaint
        | source :: _ => .ok (take source).1 := by
  rw [runIn_eq, exec_draw]
  cases w.contexts with
  | nil => exact runIn_complain _ w
  | cons context outer =>
      dsimp only
      cases context.stack with
      | nil => exact runIn_complain _ w
      | cons source rest => rfl

end Act

/-- Resolving hooks changes nothing, and depends on the active seed alone. -/
theorem Runner.exec_hooks_eq (r : Runner Procedure) (phase : Phase) (w : World) :
    (r.hooks phase).exec w = match w.contexts with
      | [] => (complain ContextError.noRun.complaint : Act (List (Hook Procedure))).exec w
      | context :: _ => match context.stack with
        | [] => (complain ContextError.nothingActive.complaint : Act (List (Hook Procedure))).exec w
        | source :: _ => (.ok (hooksFor r.suite.levels phase source.seed.toNat), w) := by
  rw [hooks, exec_bind, exec_currentSource]
  cases w.contexts with
  | nil =>
      dsimp only
      rw [exec_complain, exec_complain]
  | cons context outer =>
      dsimp only
      cases context.stack with
      | nil =>
          dsimp only
          rw [exec_complain, exec_complain]
      | cons source rest => rfl

theorem Runner.runIn_hooks_congr (r : Runner Procedure) (phase : Phase) {w v : World}
    (h : v.contexts = w.contexts) :
    ((r.hooks phase).runIn v).1 = ((r.hooks phase).runIn w).1 := by
  rw [runIn_eq, runIn_eq, exec_hooks_eq, exec_hooks_eq, h]
  cases w.contexts with
  | nil => exact (runIn_complain _ v).trans (runIn_complain _ w).symm
  | cons context outer =>
      dsimp only
      cases context.stack with
      | nil => exact (runIn_complain _ v).trans (runIn_complain _ w).symm
      | cons source rest => rfl

/-! ## The end of a run -/

/-- The regime under which the run subscribes no more listeners of its own, and cancels none. -/
def Regime.enrolled : Regime where
  balanced := False
  step s t := t.declared = s.declared
  refl _ := rfl
  trans h h' := h'.trans h

namespace Runner

variable {r : Runner Procedure} {audience : Audience}

/-- However a run is closed, the subscriptions that it made are cancelled. -/
theorem triple_close :
    Triple .free (fun _ => True) r.close (fun _ w => w.session.declared = [])
      (fun _ w => w.session.declared = []) := by
  have hcancel : Triple .free (fun _ => True) unsubscribeDeclared
      (fun _ w => w.session.declared = []) (fun _ w => w.session.declared = []) := by
    refine Triple.bind Triple.world fun w => Triple.bind (U := fun _ _ => True) ?_ fun _ => ?_
    · have hnothing : Conduct .free noComplaint (unsubscribeAll w.session.declared) :=
        conduct_unsubscribeAll .free _
      exact Triple.conseq hnothing (fun _ _ _ => trivial) (fun _ _ _ h => h)
        fun _ _ _ _ h => h.2.elim
    · exact Triple.modifySession fun _ _ _ => ⟨trivial, rfl⟩
  have hrest : Conduct .enrolled anyComplaint (do
      discard Act.pop
      r.enter .done
      r.log .info "Suite finished" (.suiteFinished r.suite.name)) :=
    .bind (.discard (.pop id complains_any.toTolerates)) fun _ =>
      .bind (r.conduct_enter (fun _ _ => rfl) _) fun _ => r.conduct_log _ _ _
  have hkept := Triple.frame hrest (F := fun w => w.session.declared = [])
    fun _ _ _ hleads h => hleads.step.trans h
  refine Triple.bind hcancel fun _ => ?_
  refine Triple.under (hkept.conseq ?_ (fun _ _ _ h => h.2) fun _ _ _ _ h => h.2) .free
  exact fun _ _ h => ⟨trivial, h⟩

variable (hcodes : ∀ code ∈ r.suite.codes, code.Conducts .free anyComplaint)
  (haudience : audience.Conducts .free anyComplaint) (hexpands : r.Expands)

include hcodes haudience hexpands

theorem declared_of_closed {w : World} (hw : w.Lawful) :
    ((Act.andFinally (r.runSurvivors audience) r.close).exec w).2.session.declared = [] := by
  have hrun : Triple .free (fun _ => True) (Act.andFinally (r.runSurvivors audience) r.close)
      (fun _ w => w.session.declared = []) (fun _ w => w.session.declared = []) := by
    refine Triple.andFinally (U := fun _ => True) (Y := fun _ _ => True) ?_ triple_close
      (fun e => triple_close.pre fun _ _ _ => trivial) (fun _ => Triple.robust_true)
      fun _ => Triple.robust_session (·.declared = [])
    exact (r.abides_runSurvivors .free hcodes haudience hexpands).post (fun _ _ h => h)
      fun _ _ _ => trivial
  obtain ⟨-, hends⟩ := hrun w hw trivial
  revert hends
  cases ((Act.andFinally (r.runSurvivors audience) r.close).exec w).1 with
  | ok _ => exact id
  | error e => exact And.right

/-- A run leaves the contexts as they were, and nothing of its own behind. -/
theorem left_by_run {w : World} (hw : w.Lawful) :
    let v := ((r.run audience).exec w).2
    v.contexts = w.contexts ∧ v.handling = w.handling ∧ v.session.declared = [] ∧
      ∃ last, v.session.lastContext = some last ∧ last.stack = [] := by
  obtain ⟨last, hlast, hexec⟩ := r.exec_run hcodes haudience hexpands hw (Prod.eta _).symm
  have hdeclared := declared_of_closed hcodes haudience hexpands (r.entered_lawful hw)
  have hrun : Abides .still (r.run audience) :=
    r.abides_run .free hcodes haudience hexpands fun _ _ => trivial
  have hgrows := (hrun w hw trivial).1.grows
  refine ⟨?_, hgrows.handling, ?_, last, ?_, hlast⟩
  · rw [hexec, contexts_leaving_resume]
  · rw [hexec, session_leaving_resume]
    exact hdeclared
  · rw [hexec, session_leaving_resume]

end Runner

/-- A suite that is run within another run leaves the contexts and the session of the caller as
they were. -/
theorem left_by_runSuite {suite : Suite Procedure}
    (hcodes : ∀ code ∈ suite.codes, code.Conducts .free anyComplaint) (host : Host)
    (settings : Option Settings) (predicate : Option (String → Bool)) {w : World}
    (hw : w.Lawful) :
    let v := ((runSuite host suite settings predicate).exec w).2
    v.contexts = w.contexts ∧ v.session = w.session := by
  cases hsetUp : Runner.setUp suite settings host w.sequence with
  | error e =>
      rw [exec_runSuite_of_error predicate hsetUp]
      exact ⟨rfl, rfl⟩
  | ok made =>
      obtain ⟨r, sequence⟩ := made
      obtain ⟨rfl, hexpands⟩ := Runner.suite_of_setUp hsetUp
      have haudience : (r.audienceOf [.recording]).Conducts .free anyComplaint :=
        Runner.audienceOf_all hcodes fun tag reactions hmem => by simp at hmem
      have hnested : (w.nested sequence predicate).Lawful := ⟨hw.errors, hw.handling⟩
      rw [exec_runSuite predicate hsetUp]
      exact ⟨(Runner.left_by_run hcodes haudience hexpands hnested).1, rfl⟩

/-- Running a suite from a script shows nothing but, unless it is interrupted, how that went. -/
theorem Script.left_by_nested (host : Host) (label : String) (inner : Suite Script)
    (settings : Option Settings) (test : Option NameTest) {w : World} (hw : w.Lawful) :
    let v := ((Step.run host label (.nested inner settings test)).exec w).2
    v.contexts = w.contexts ∧
      ∃ events, v.session = { w.session with trace := w.session.trace ++ events } := by
  have hcodes : ∀ code ∈ (suiteProcedures host inner).codes, code.Conducts .free anyComplaint :=
    codes_suiteProcedures_all host (fun script _ => Script.sound host script) fun _ h => h
  obtain ⟨hcontexts, hsession⟩ :=
    left_by_runSuite hcodes host settings (test.map NameTest.accepts) hw
  rw [Step.run, exec_bind]
  generalize (runSuite host (suiteProcedures host inner) settings
    (test.map NameTest.accepts)).exec w = result at hcontexts hsession ⊢
  obtain ⟨e | ⟨outcome, trace⟩, v⟩ := result
  · refine ⟨hcontexts, #[], ?_⟩
    rw [Array.append_empty]
    exact hsession
  · refine ⟨hcontexts, #[.nested label outcome trace], ?_⟩
    rw [← hsession]
    rfl

/-! ## Callers -/

/-- However a run ends, its caller finds the contexts, the sources in them and the error that was
being handled as they were, and so draws, depths and orders of hooks are what they would have been
without the run. The context of the run is empty, and the runner has cancelled the subscriptions
that the run made. The same holds of a suite that is run from within a script, whose session is not
touched besides. -/
theorem Runner.run_invisible {host origin : Host} {suite : Suite Script}
    {config : Option RunConfig} {sequence sequence' : Nat} {r : Runner Procedure}
    (hmake : make (Script.suiteProcedures host suite) config origin sequence = .ok (r, sequence'))
    (declarations : List NotifierProgram.Declaration) {w : World} (hw : w.Lawful) :
    let v := ((r.run (r.audienceFor host declarations)).exec w).2
    (v.contexts = w.contexts ∧ v.handling = w.handling) ∧
      (v.session.declared = [] ∧ ∃ last, v.session.lastContext = some last ∧ last.stack = []) ∧
      ((∀ (α : Type) (take : RandomSource → α × RandomSource),
          ((Act.draw take).runIn v).1 = ((Act.draw take).runIn w).1) ∧
        (Act.currentContext.runIn v).1 = (Act.currentContext.runIn w).1 ∧
        ∀ (caller : Runner Procedure) phase,
          ((caller.hooks phase).runIn v).1 = ((caller.hooks phase).runIn w).1) ∧
      ∀ label inner settings test,
        let u := ((Script.Step.run host label (.nested inner settings test)).exec w).2
        u.contexts = w.contexts ∧
          ∃ events, u.session = { w.session with trace := w.session.trace ++ events } := by
  intro v
  have haudience : (r.audienceFor host declarations).Conducts .free anyComplaint :=
    audienceFor_of_make hmake (fun script _ => Script.sound host script)
      fun _ _ script _ => Script.sound host script
  obtain ⟨hcontexts, hhandling, hdeclared, hlast⟩ :=
    left_by_run (sound_codes_of_make hmake) haudience (expands_of_make hmake) hw
  refine ⟨⟨hcontexts, hhandling⟩, ⟨hdeclared, hlast⟩, ⟨fun α take => ?_, ?_, ?_⟩, ?_⟩
  · rw [runIn_draw, runIn_draw, hcontexts]
  · rw [runIn_currentContext, runIn_currentContext, hcontexts]
  · exact fun caller phase => caller.runIn_hooks_congr phase hcontexts
  · exact fun label inner settings test => Script.left_by_nested host label inner settings test hw

/-- A suite whose test empties the stack before it is interrupted. -/
def recklessSuite : Suite Script where
  name := "Reckless"
  factory := some { code := [.push 5] }
  units := [{ name := "spoils", body := some [.fork [.pop, .pop], .pop, .clear, .raise
    [{ error := { complaint := ⟨.named "KeyboardInterrupt", none⟩ } }]] }]
  levels := [{
    owner := "Reckless"
    beforeEach := [{ name := "draw", label := "draw", code := some [.fraction, .push 6] }] }]

/-- Within another run, which does not notice it, a run empties its stack; it ends with the error of
the pop that ends it. -/
theorem Runner.run_invisible_recklessSuite :
    let w : World := { contexts := [
      { runner := 7, target := "Outer", nightly := false, stack := [.fresh 1, .fresh 7] }] }
    ∃ r sequence,
      make (Script.suiteProcedures {} recklessSuite) (some .unset) {} 0 = .ok (r, sequence) ∧
        w.Lawful ∧
        let result := (r.run (r.audienceFor {} [])).runIn w
        result.1.toOption = none ∧ result.2.contexts = w.contexts ∧
          result.2.session.declared = [] ∧
          ((Act.draw RandomSource.fraction).runIn result.2).1 =
            ((Act.draw RandomSource.fraction).runIn w).1 := by
  intro w
  obtain ⟨⟨r, sequence⟩, hmake, hraised⟩ : ∃ made,
      make (Script.suiteProcedures {} recklessSuite) (some .unset) {} 0 = .ok made ∧
        ((made.1.run (made.1.audienceFor {} [])).runIn w).1.toOption.isNone = true :=
    exists_ok_of_any (by decide +kernel)
  rw [Option.isNone_iff_eq_none] at hraised
  have hw : w.Lawful := ⟨ErrorStore.closed_empty, fun _ h => by cases h⟩
  obtain ⟨⟨hcontexts, -⟩, ⟨hdeclared, -⟩, ⟨hdraw, -⟩, -⟩ := run_invisible hmake [] hw
  exact ⟨r, sequence, hmake, hw, hraised, hcontexts, hdeclared, hdraw Nat RandomSource.fraction⟩

end SeededTesting
