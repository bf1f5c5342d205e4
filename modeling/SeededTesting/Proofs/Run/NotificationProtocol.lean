import Mathlib.Algebra.Order.Monoid.Unbundled.Pow
import SeededTesting.Proofs.Run.Scripted
import SeededTesting.Proofs.Run.Telling
import SeededTesting.Proofs.Suite.Validity

/-! # The protocol of notifications

What a recording listener is told in a run is a word of a regular language, which is the protocol of
the run. However the run ends, every candidate that was started is finished, and candidates are
started in their order.
-/

namespace SeededTesting

open Act Computability

/-- The notification of a kind. -/
def told (kind : NotificationKind) (name : String) : Language (Notification ErrorId) :=
  {[{ kind, name }]}

/-- A notification of a kind about some error. -/
def toldError (kind : NotificationKind) (name : String) : Language (Notification ErrorId) :=
  {word | ∃ e, word = [{ kind, name, error := some e }]}

/-- At most so many failures. -/
def toldFailures (name : String) (most : Nat) : Language (Notification ErrorId) :=
  (1 + toldError .failed name) ^ most

theorem one_le_toldFailures (name : String) (most : Nat) : 1 ≤ toldFailures name most :=
  one_le_pow_of_one_le' (fun _ h => .inl h) most

namespace Runner

variable (r : Runner Procedure)

/-- What is told about the hooks of a phase that are all invoked: each of them fails at most
once. -/
def hooksProtocol (phase : Phase) (name : String) : Language (Notification ErrorId) :=
  toldFailures name (r.suite.levels.flatMap (·.hooks phase)).length

theorem one_le_hooksProtocol (phase : Phase) (name : String) : 1 ≤ r.hooksProtocol phase name :=
  one_le_toldFailures name _

/-- What is told about a candidate between its start and its end. -/
def executionProtocol (c : Candidate Procedure) : Language (Notification ErrorId) :=
  if r.ignores c then told .ignored c.name
  else (1 + toldError .assumptionFailed c.name + toldError .failed c.name) *
    r.hooksProtocol .afterEach c.name

/-- What is told about a candidate. -/
def candidateProtocol (c : Candidate Procedure) : Language (Notification ErrorId) :=
  told .started c.name * r.executionProtocol c * told .finished c.name

/-- What is told about candidates one after another. -/
def candidatesProtocol (cs : List (Candidate Procedure)) : Language (Notification ErrorId) :=
  (cs.map r.candidateProtocol).prod

/-- What is told about candidates if a run ends somewhere among them. -/
def partialProtocol (cs : List (Candidate Procedure)) : Language (Notification ErrorId) :=
  {word | ∃ ran rest, cs = ran ++ rest ∧ word ∈ r.candidatesProtocol ran}

/-- What is told in a run of candidates: nothing, one failure of the suite, candidates up to some
place, or all candidates and then the failures of after-all hooks as failures of the suite. -/
def protocol (cs : List (Candidate Procedure)) : Language (Notification ErrorId) :=
  1 + toldError .failed r.suite.name + r.partialProtocol cs +
    r.candidatesProtocol cs * r.hooksProtocol .afterAll r.suite.name

/-! ## Stages -/

section Stages

variable {audience : Audience} {index : Nat}
  (hcodes : ∀ code ∈ r.suite.codes, code.Conducts (.quiet (.caller index)) anyComplaint)
  (haudience : audience.Conducts (.quiet (.caller index)) noComplaint)
  (hlistener : audience (.caller index) = .recording)

include haudience hlistener

theorem tells_reportFailure (name : String) (e : ErrorId) :
    Tells (.caller index) (r.reportFailure audience name e)
      (fun _ => toldError .failed name) 0 := by
  refine .afterSilence (.calm .world) (fun _ => .afterSilence (.calm (r.conduct_log _ _ _))
    (fun _ => ?_) le_rfl) le_rfl
  refine (Tells.notify haudience hlistener _).mono (fun _ => ?_) le_rfl
  rintro word rfl
  exact ⟨e, rfl⟩

/-- Each hook that failed is reported once. -/
theorem tells_reportOutcomes (name : String) (seeds : List Seed)
    (outcomes : List (Hook Procedure × Option ErrorId)) :
    Tells (.caller index) (r.reportOutcomes audience name seeds outcomes)
      (fun _ => toldFailures name outcomes.length) (toldFailures name outcomes.length) := by
  induction outcomes with
  | nil => exact .value () le_rfl
  | cons outcome rest ih =>
      have hmore : toldError .failed name * toldFailures name rest.length ≤
          toldFailures name (rest.length + 1) := by
        rw [toldFailures, toldFailures, pow_succ']
        exact mul_le_mul_left (fun _ h => .inr h) _
      obtain ⟨hook, _ | e⟩ := outcome
      · have hless : toldFailures name rest.length ≤ toldFailures name (rest.length + 1) :=
          pow_le_pow_right' (fun _ h => .inl h) (Nat.le_succ _)
        exact ih.mono (fun _ => hless) hless
      · refine .afterSilence (.silent (B := anyComplaint) (.augment trivial e seeds))
          (fun _ => ?_) (one_le_toldFailures _ _)
        exact (r.tells_reportFailure haudience hlistener name e).bind (fun _ => ih)
          (fun _ _ => hmore) bot_le fun _ => hmore

theorem tells_reportCandidate (c : Candidate Procedure) (e : ErrorId) :
    Tells (.caller index) (r.reportCandidate audience c e)
      (fun _ => 1 + toldError .assumptionFailed c.name + toldError .failed c.name) 1 := by
  refine .afterSilence (.silent (B := anyComplaint) (.augment trivial e _)) (fun _ => ?_) le_rfl
  refine .afterSilence (.calm (.complaint e)) (fun _ => ?_) bot_le
  split
  · refine (Tells.notify haudience hlistener _).mono (fun _ => ?_) bot_le
    rintro word rfl
    exact .inl (.inr ⟨e, rfl⟩)
  · exact (r.tells_reportFailure haudience hlistener c.name e).mono
      (fun _ => fun word h => .inr h) bot_le

include hcodes

omit haudience hlistener in
/-- However the hooks of a phase are shuffled, there is one outcome for each of them. -/
theorem triple_outcomes (phase : Phase) (arguments : List Instance) :
    Triple (.quiet (.caller index)) (fun _ => True)
      (do invokeAll arguments (← r.hooks phase))
      (fun outcomes _ => outcomes.length = (r.suite.levels.flatMap (·.hooks phase)).length)
      (Blames anyComplaint) := by
  refine Triple.bind (r.conduct_hooks complains_any phase) fun hooks w hw ⟨active, heq⟩ => ?_
  subst heq
  have hcalls : ∀ hook ∈ hooksFor r.suite.levels phase active,
      Conduct (.quiet (.caller index)) anyComplaint (hook.call arguments) :=
    r.conduct_hookCall (Regime.traces_quiet _) complains_any hcodes
  have hinvoked := conduct_invokeAll (N := anyComplaint) hcalls fun _ _ _ => trivial
  rcases hinvoked.outcome hw trivial with
    ⟨outcomes, v, hout, hleads, -⟩ | ⟨e, v, hout, hleads, he, hblames⟩
  · have hlength := congrArg List.length (map_fst_of_invokeAll hout)
    rw [List.length_map, (hooksFor_perm _ _ _).length_eq] at hlength
    rw [hout]
    exact ⟨hleads, hlength⟩
  · rw [hout]
    exact ⟨hleads, he, hblames⟩

/-- Hooks that are all invoked tell failures only, and each of them at most one. -/
theorem tells_invokePhase (phase : Phase) (arguments : List Instance) (name : String)
    (seeds : List Seed) :
    Tells (.caller index)
      (do
        let outcomes ← invokeAll arguments (← r.hooks phase)
        r.reportOutcomes audience name seeds outcomes)
      (fun _ => r.hooksProtocol phase name) (r.hooksProtocol phase name) := by
  intro before told
  have hinvoked := (Tells.keep (r.triple_outcomes hcodes phase arguments) before told).conseq
    (fun _ _ h => ⟨trivial, h⟩) (fun _ _ _ h => h) fun _ w _ _ h =>
      (⟨[], r.one_le_hooksProtocol phase name rfl, by rw [List.append_nil]; exact h.2⟩ :
        ∃ word ∈ r.hooksProtocol phase name, Hears (.caller index) before (told ++ word) w)
  have hall := Triple.bind hinvoked fun outcomes w hw ⟨hlength, hhears⟩ => by
    have hreported := r.tells_reportOutcomes haudience hlistener name seeds outcomes
    rw [hlength] at hreported
    exact hreported before told w hw hhears
  rwa [bind_assoc] at hall

/-- The execution of a candidate tells at most one outcome before those of its after-each hooks,
even if an error leaves it. -/
theorem tells_execute {c : Candidate Procedure} (hunit : c.unit ∈ r.suite.units) :
    Tells (.caller index) (r.execute audience c)
      (fun _ => (1 + toldError .assumptionFailed c.name + toldError .failed c.name) *
        r.hooksProtocol .afterEach c.name)
      ((1 + toldError .assumptionFailed c.name + toldError .failed c.name) *
        r.hooksProtocol .afterEach c.name) := by
  have htraces := Regime.traces_quiet (.caller index)
  generalize hmain : 1 + toldError .assumptionFailed c.name + toldError .failed c.name = main
  have hone : 1 ≤ main := by
    rw [← hmain]
    exact fun word h => .inl (.inl h)
  have hmade := r.conduct_makeInstance htraces complains_any hcodes
  have htest : ∀ made, Triple (.quiet (.caller index))
      (Ends (fun _ _ => True) (Blames anyComplaint) made)
      (do
        let target ← Act.resume made
        callHooks [target] (← r.hooks .beforeEach)
        r.callBody c target) (fun _ _ => True) (Blames anyComplaint) := by
    intro made
    refine Triple.bind Triple.resume fun target => ?_
    have hbefore := r.conduct_callPhase htraces complains_any hcodes .beforeEach [target]
    have hbody := r.conduct_callBody htraces complains_any hcodes hunit target
    have hall := Conduct.bind hbefore fun _ => hbody
    rwa [bind_assoc] at hall
  intro before told
  -- Where an error leaves early, no hook after the candidate has failed yet.
  have hend : main ≤ main * r.hooksProtocol .afterEach c.name :=
    le_mul_of_one_le_right' (r.one_le_hooksProtocol _ _)
  refine Triple.bind ((Tells.keep (hmade.observe (Y := fun _ _ => False)) before told).conseq
    (fun _ _ h => ⟨trivial, h⟩) (fun _ _ _ h => h) fun _ _ _ _ h => h.1.elim) fun made =>
      Triple.bind ?_ fun _ => Tells.after ?_ before told main
  swap
  · split
    · exact r.tells_invokePhase hcodes haudience hlistener .afterEach _ c.name _
    · exact .value () (r.one_le_hooksProtocol _ _)
  refine Triple.handle ((Tells.keep (htest made) before told).post ?_ fun _ _ h => h.2) ?_ ?_
    (fun _ => robust_hears _ _ _) (fun _ => robust_exists_hears _ _ _ _)
    (fun _ => robust_exists_hears _ _ _ _)
  · exact fun _ w h => ⟨[], hone rfl, by rw [List.append_nil]; exact h.2⟩
  · intro e
    have hreport := r.tells_reportCandidate haudience hlistener c e
    rw [hmain] at hreport
    refine (hreport before told).conseq (fun _ _ h => h.1) (fun _ _ _ h => h) ?_
    exact fun i w _ _ ⟨word, hword, h⟩ => ⟨word, hend (hone hword), h⟩
  · exact fun e w h _ _ => ⟨[], hend (hone rfl), by rw [List.append_nil]; exact h⟩

/-- A candidate that was started is finished, whatever becomes of it. -/
theorem tells_attend {c : Candidate Procedure} (hunit : c.unit ∈ r.suite.units) :
    Tells (.caller index) (r.attend audience c) (fun _ => r.candidateProtocol c)
      (r.candidateProtocol c) := by
  have hexecution : Tells (.caller index)
      (if r.ignores c then audience.notify { kind := .ignored, name := c.name }
        else r.execute audience c)
      (fun _ => r.executionProtocol c) (r.executionProtocol c) := by
    unfold executionProtocol
    split
    · exact (Tells.notify haudience hlistener _).mono (fun _ => le_rfl) bot_le
    · exact r.tells_execute hcodes haudience hlistener hunit
  have hfinished := Tells.notify haudience hlistener { kind := .finished, name := c.name }
  have hrest := hexecution.andFinally hfinished le_rfl
    ((mul_zero _).trans_le bot_le) ((mul_zero _).trans_le bot_le)
  refine (Tells.notify haudience hlistener _).bind (fun _ => hrest) (fun _ _ => ?_) bot_le
    fun _ => ?_
  · exact (mul_assoc _ _ _).ge
  · exact (mul_assoc _ _ _).ge

theorem tells_runCandidate {c : Candidate Procedure} (hunit : c.unit ∈ r.suite.units) :
    Tells (.caller index) (r.runCandidate audience c) (fun _ => r.candidateProtocol c)
      (1 + r.candidateProtocol c) := by
  refine Tells.inScope ?_ (fun _ h => .inl h) (fun _ h => .inr h)
  exact (r.tells_attend hcodes haudience hlistener hunit).mono (fun _ => le_rfl) fun _ h => .inr h

theorem tells_runCandidates {cs : List (Candidate Procedure)}
    (hunits : ∀ c ∈ cs, c.unit ∈ r.suite.units) :
    Tells (.caller index) (r.runCandidates audience cs) (fun _ => r.candidatesProtocol cs)
      (r.partialProtocol cs) := by
  induction cs with
  | nil => exact .value () le_rfl
  | cons c rest ih =>
      have hc := r.tells_runCandidate hcodes haudience hlistener (hunits c List.mem_cons_self)
      have hrest := ih fun c hmem => hunits c (List.mem_cons_of_mem _ hmem)
      refine hc.bind (fun _ => hrest) (fun _ _ => ?_) ?_ fun _ => ?_
      · rw [candidatesProtocol, candidatesProtocol, List.map_cons, List.prod_cons]
      · rintro word (hword | hword)
        · exact ⟨[], c :: rest, rfl, hword⟩
        · refine ⟨[c], rest, rfl, ?_⟩
          rw [candidatesProtocol, List.map_singleton, List.prod_singleton]
          exact hword
      · rintro word ⟨a, ha, b, ⟨ran, left, heq, hb⟩, rfl⟩
        refine ⟨c :: ran, left, by rw [heq, List.cons_append], ?_⟩
        rw [candidatesProtocol, List.map_cons, List.prod_cons]
        exact Language.append_mem_mul ha hb

/-! ## Runs -/

/-- The set-up of a class tells a failure if it does not succeed. -/
theorem tells_setUpClass :
    Tells (.caller index) (r.setUpClass audience)
      (fun ready => if ready then 1 else toldError .failed r.suite.name) 1 := by
  have hbefore := r.conduct_callPhase (Regime.traces_quiet (.caller index)) complains_any hcodes
    .beforeAll []
  have hbody := (Tells.silent hbefore).returning true
    (W := fun ready => if ready then 1 else toldError .failed r.suite.name) le_rfl
  rw [bind_assoc] at hbody
  refine hbody.handle (fun e => ?_) (fun _ => le_rfl) (fun _ => (one_mul _).le) le_rfl
    (one_mul _).le
  have hreport : Tells (.caller index) (r.reportSuite audience e)
      (fun _ => toldError .failed r.suite.name) 1 := by
    refine .afterSilence (.silent (B := anyComplaint) (.augment trivial e _)) (fun _ => ?_) le_rfl
    exact (r.tells_reportFailure haudience hlistener r.suite.name e).mono (fun _ => le_rfl) bot_le
  exact hreport.returning false le_rfl

theorem tells_tearDownClass :
    Tells (.caller index) (r.tearDownClass audience)
      (fun _ => r.hooksProtocol .afterAll r.suite.name) (r.hooksProtocol .afterAll r.suite.name) :=
  r.tells_invokePhase hcodes haudience hlistener .afterAll [] r.suite.name [r.master]

/-- The candidates of a class are told about before the failures of its tear-down. -/
theorem tells_runClass {cs : List (Candidate Procedure)}
    (hunits : ∀ c ∈ cs, c.unit ∈ r.suite.units) :
    Tells (.caller index) (r.runClass audience cs) (fun _ => r.protocol cs) (r.protocol cs) := by
  have hquiet := Regime.prepares_quiet index
  have hpartial : r.partialProtocol cs ≤ r.protocol cs := fun word h => .inl (.inr h)
  have hone : 1 ≤ r.protocol cs := fun word h => .inl (.inl (.inl h))
  have hclosing : r.candidatesProtocol cs * r.hooksProtocol .afterAll r.suite.name ≤
      r.protocol cs := fun word h => .inr h
  refine .afterSilence (.silent (B := anyComplaint) (r.conduct_enter hquiet.state _))
    (fun _ => ?_) hone
  -- What is still to be told depends on whether the class was set up.
  refine (r.tells_setUpClass hcodes haudience hlistener).bind
    (Z := fun ready _ => if ready then r.protocol cs else 1)
    (Y := fun ready => if ready then r.protocol cs else 1) (fun ready => ?_)
    (fun ready _ => ?_) hone fun ready => ?_
  · cases ready with
    | false => exact .value () le_rfl
    | true =>
        refine .afterSilence (.silent (B := anyComplaint) (r.conduct_enter hquiet.state _))
          (fun _ => ?_) hone
        have hclose := (Tells.silent (B := anyComplaint)
          (r.conduct_enter hquiet.state .classTeardown)).afterSilence
          (fun _ => r.tells_tearDownClass hcodes haudience hlistener) (r.one_le_hooksProtocol _ _)
        exact (r.tells_runCandidates hcodes haudience hlistener hunits).bind (fun _ => hclose)
          (fun _ _ => hclosing) hpartial fun _ => hclosing
  · cases ready with
    | false => exact (mul_one _).trans_le fun word h => .inl (.inl (.inr h))
    | true => exact (one_mul _).le
  · cases ready with
    | false => exact (mul_one _).trans_le fun word h => .inl (.inl (.inr h))
    | true => exact (one_mul _).le

omit hcodes haudience hlistener in
theorem nil_mem_protocol (cs : List (Candidate Procedure)) : [] ∈ r.protocol cs :=
  .inl (.inl (.inl rfl))

theorem tells_survivors {cs : List (Candidate Procedure)}
    (hunits : ∀ c ∈ cs, c.unit ∈ r.suite.units) :
    Tells (.caller index) (if cs.isEmpty then r.enter .idle else r.runClass audience cs)
      (fun _ => r.protocol cs) (r.protocol cs) := by
  split
  · have hidle := Tells.silent (B := anyComplaint)
      (r.conduct_enter (Regime.prepares_quiet index).state .idle)
    refine hidle.mono (fun _ => ?_) ?_
    · rintro word rfl
      exact r.nil_mem_protocol cs
    · rintro word rfl
      exact r.nil_mem_protocol cs
  · exact r.tells_runClass hcodes haudience hlistener hunits

/-- The work of a run is told by the protocol of those who survive the filters. -/
theorem hears_runSurvivors (hexpands : r.Expands) {before : List (Notification ErrorId)}
    {w : World} (hhears : Hears (.caller index) before [] (r.entered w)) :
    Triple .free (fun v => v = r.entered w) (r.runSurvivors audience)
      (fun _ v => ∃ word ∈ r.protocol (r.survivors (r.inForce w)),
        Hears (.caller index) before word v)
      (fun _ v => ∃ word ∈ r.protocol (r.survivors (r.inForce w)),
        Hears (.caller index) before word v) := by
  have hcreate : ∀ factory ∈ r.suite.listeners,
      factory.create.Conducts (.quiet (.caller index)) anyComplaint :=
    fun factory hmem => hcodes _ (Suite.listener_mem_codes hmem List.mem_cons_self)
  have hsubscribe := Tells.keep
    (r.conduct_subscribeFrom (Regime.prepares_quiet index) hcreate 0) before []
  intro u hu heq
  subst heq
  rw [runSurvivors, exec_bind, exec_prepare, inForce]
  -- Makers may set the filter, so who survives is known once all listeners are subscribed.
  rcases hsubscribe.outcome hu ⟨trivial, hhears⟩ with
    ⟨_, v, hout, hleads, -, hhears⟩ | ⟨e, v, hout, hleads, he, -, hhears⟩
  · rw [hout]
    dsimp only
    generalize (((r.enter .filtering).exec v).2.journal.push _) = journal
    have hprepared : Regime.free.Leads v { v with
        journal, session := { v.session with state := .filtering } } :=
      ⟨⟨hleads.lawful.errors, hleads.lawful.handling⟩, ⟨.refl _, rfl, rfl, rfl⟩, trivial,
        False.elim⟩
    obtain ⟨hleads', hends⟩ := r.tells_survivors hcodes haudience hlistener
      (fun c hc => hexpands c (r.mem_candidates_of_mem_survivors hc)) before [] _
      hprepared.lawful ⟨hhears.once, hhears.recorded⟩
    exact ⟨(hleads.trans hprepared).trans hleads', hends⟩
  · rw [hout]
    exact ⟨hleads, he, [], r.nil_mem_protocol _, hhears⟩

omit hcodes haudience hlistener in
/-- Closing a run tells nothing. -/
theorem triple_close_mute {p : List (Notification ErrorId) → Prop} :
    Triple .free (fun w => p (w.session.recordedBy (.caller index))) r.close
      (fun _ w => p (w.session.recordedBy (.caller index)))
      (fun _ w => p (w.session.recordedBy (.caller index))) := by
  intro w hw hword
  obtain ⟨hleads, hends⟩ := r.conduct_close id (Regime.closes_mute (.caller index)) w hw trivial
  have hstill : p ((r.close.exec w).2.session.recordedBy (.caller index)) := by
    rw [hleads.step]
    exact hword
  refine ⟨⟨hleads.lawful, hleads.grows, trivial, False.elim⟩, ?_⟩
  cases hout : (r.close.exec w).1 with
  | ok _ => exact hstill
  | error e =>
      rw [hout] at hends
      exact ⟨hends.1, hstill⟩

/-- A run is told by its protocol, however it ends. -/
theorem recordedBy_run (hexpands : r.Expands)
    (hsound : ∀ code ∈ r.suite.codes, code.Conducts .free anyComplaint)
    (haudience' : audience.Conducts .free anyComplaint) {w : World} (hw : w.Lawful)
    (honce : w.session.subscribed.count (.caller index) = 1) :
    ∃ word ∈ r.protocol (r.survivors (r.inForce w)),
      ((r.run audience).exec w).2.session.recordedBy (.caller index) =
        w.session.recordedBy (.caller index) ++
          Notification.numberFrom (w.session.recordedBy (.caller index)).length word := by
  generalize hbefore : w.session.recordedBy (.caller index) = before
  have hentered : Hears (.caller index) before [] (r.entered w) :=
    ⟨honce, by rw [← hbefore]; exact (List.append_nil _).symm⟩
  have hsurvivors := r.hears_runSurvivors hcodes haudience hlistener hexpands hentered
  let p : List (Notification ErrorId) → Prop := fun recorded =>
    ∃ word ∈ r.protocol (r.survivors (r.inForce w)),
      recorded = before ++ Notification.numberFrom before.length word
  have hrobust : ∀ _ : ErrorId, Triple.Robust fun v =>
      p (v.session.recordedBy (.caller index)) :=
    fun _ => Triple.robust_session fun s => p (s.recordedBy (.caller index))
  -- Closing the run tells nobody, so the protocol of the survivors is that of the run.
  have hwork : Triple .free (fun v => v = r.entered w)
      (Act.andFinally (r.runSurvivors audience) r.close)
      (fun _ v => p (v.session.recordedBy (.caller index)))
      (fun _ v => p (v.session.recordedBy (.caller index))) := by
    refine Triple.andFinally (hsurvivors.post ?_ ?_) r.triple_close_mute ?_ hrobust hrobust
    · exact fun _ v ⟨word, hword, h⟩ => ⟨word, hword, h.recorded⟩
    · exact fun _ v ⟨word, hword, h⟩ => ⟨word, hword, h.recorded⟩
    · exact fun e => r.triple_close_mute.pre fun _ _ h => h.1
  obtain ⟨-, hends⟩ := hwork (r.entered w) (r.entered_lawful hw) rfl
  obtain ⟨last, -, hexec⟩ := r.exec_run hsound haudience' hexpands hw (Prod.eta _).symm
  rw [hexec, session_leaving_resume]
  cases hout : ((Act.andFinally (r.runSurvivors audience) r.close).exec (r.entered w)).1 with
  | ok _ =>
      rw [hout] at hends
      exact hends
  | error e =>
      rw [hout] at hends
      exact hends.2

end Stages
end Runner

/-- Scripts that do not change the subscriptions of a listener are quiet about it. -/
theorem Script.permits_quiet (index : Nat) :
    Permits (.quiet (.caller index)) anyComplaint (Step.enlistsOne index) := by
  apply permits_complaints
  case moves => exact fun _ _ _ => id
  case report => exact fun _ _ _ => ⟨rfl, rfl⟩
  case filter => exact fun _ _ _ _ => ⟨rfl, rfl⟩
  case subscribe =>
    intro other hother s
    have hne : other ≠ index := by simpa [Step.enlistsOne] using hother
    refine ⟨?_, rfl⟩
    rw [List.count_append, List.count_singleton]
    simp [hne]
  case unsubscribe =>
    intro other hother s
    have hne : other ≠ index := by simpa [Step.enlistsOne] using hother
    refine ⟨List.count_erase_of_ne ?_, rfl⟩
    simpa using Ne.symm hne

/-- In a run in which no listener raises, a recording listener that was subscribed once before is
told a word of the protocol, however the run ends, and whatever was raised or done to the stack.
What it was told is numbered in the order in which it arrived. -/
theorem Runner.recordedBy_mem_protocol {host : Host} {suite : Suite Script}
    {config : Option RunConfig} {sequence sequence' : Nat} {r : Runner Procedure}
    (hmake : make (Script.suiteProcedures host suite) config host sequence = .ok (r, sequence'))
    {declarations : List NotifierProgram.Declaration} {index : Nat}
    (hrecording : declarations[index]? = some .recording)
    (hsuite : ∀ script ∈ suite.codes, Script.avoids (Script.Step.enlistsOne index) script = true)
    (hdeclarations : ∀ declaration ∈ declarations, ∀ script ∈ declaration.scripts,
      Script.avoids (Script.Step.enlistsOne index) script = true)
    {w : World} (hw : w.Lawful) (honce : w.session.subscribed.count (.caller index) = 1)
    (hundisturbed : r.Undisturbed (r.audienceFor host declarations) w) :
    ∃ word ∈ r.protocol (r.survivors (r.inForce w)),
      ((r.run (r.audienceFor host declarations)).exec w).2.session.recordedBy (.caller index) =
        w.session.recordedBy (.caller index) ++
          Notification.numberFrom (w.session.recordedBy (.caller index)).length word := by
  have hquiet : ∀ script, Script.avoids (Script.Step.enlistsOne index) script = true →
      (Script.procedure host script).Conducts (.quiet (.caller index)) anyComplaint :=
    fun script h => Script.conducts (Script.permits_quiet index) h
  have hcodes := codes_of_make hmake fun script hscript =>
    hquiet script (hsuite script hscript)
  have haudience := audienceFor_of_make hmake
    (fun script hscript => hquiet script (hsuite script hscript))
    fun declaration hmem script hscript =>
      hquiet script (hdeclarations declaration hmem script hscript)
  have hlistener : r.audienceFor host declarations (.caller index) = .recording := by
    rw [audienceFor, audienceOf, List.getD_eq_getElem?_getD, List.getElem?_map, hrecording]
    rfl
  have hrun := r.recordedBy_run hcodes (Audience.conducts_calmed haudience)
    (Audience.calmed_recording hlistener) (expands_of_make hmake) (sound_codes_of_make hmake)
    (sound_calmed_of_make hmake declarations) hw honce
  rwa [hundisturbed] at hrun

/-- A suite whose first test clears the stack and is interrupted. -/
def interruptedSuite : Suite Script where
  name := "Interrupted"
  factory := some { code := [] }
  units := [
    { name := "stops", body := some [.clear, .raise
        [{ error := { complaint := ⟨.named "KeyboardInterrupt", none⟩ } }]] },
    { name := "waits", body := some [.fraction] }]

/-- The protocol is kept in a run that is interrupted. -/
theorem Runner.recordedBy_interruptedSuite :
    ∃ r sequence, make (Script.suiteProcedures {} interruptedSuite) (some .unset) {} 0 =
        .ok (r, sequence) ∧
      let w : World := { session := { subscribed := [.caller 0] } }
      ∃ word ∈ r.protocol (r.survivors (r.inForce w)),
        ((r.run (r.audienceFor {} [.recording])).exec w).2.session.recordedBy (.caller 0) =
          w.session.recordedBy (.caller 0) ++
            Notification.numberFrom (w.session.recordedBy (.caller 0)).length word := by
  obtain ⟨r, sequence, hmake⟩ : ∃ r sequence, make (Script.suiteProcedures {} interruptedSuite)
      (some .unset) {} 0 = .ok (r, sequence) := exists_make (by decide +kernel) (by decide) {} 0
  refine ⟨r, sequence, hmake, ?_⟩
  exact recordedBy_mem_protocol hmake rfl (by decide) (by decide) (World.lawful_initial _)
    (by decide) (undisturbed_of_make hmake rfl (by decide) _)

end SeededTesting
