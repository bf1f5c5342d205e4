import SeededTesting.Proofs.Run.Aloud
import SeededTesting.Proofs.Run.StackDiscipline

/-! # Candidates that are executed

A run executes the candidates that it begins and does not ignore, once their start has been told.
What it says is what its stages say, one after another: the notifications of a run are those of the
stages that it begins, and what a candidate is told to have failed of is said while it is executed.
-/

namespace SeededTesting

open Act

/-- A record that is logged. -/
def Saying.Logged (saying : Saying) : Prop :=
  ∃ record, saying.signal = .logged record

theorem Saying.Logged.ne_sent {saying : Saying} (h : saying.Logged) (n : Notification ErrorId) :
    saying.signal ≠ .sent n := by
  obtain ⟨record, hrecord⟩ := h
  rw [hrecord]
  exact Signal.noConfusion

/-- A notification of a failure is one about a name. -/
def Saying.Accuses (name : String) (saying : Saying) : Prop :=
  ∀ n, saying.signal = .sent n → n.kind = .failed → n.name = name

theorem Saying.Logged.accuses {saying : Saying} (h : saying.Logged) (name : String) :
    saying.Accuses name :=
  fun n hsent => absurd hsent (h.ne_sent n)

namespace Runner.Aloud

variable (r : Runner Procedure) (audience : Audience)

/-! ## Stages aloud -/

/-- Performs a stage and tells whether the run goes on. -/
def perform : Stage → Aloud Bool
  | .opening => do
    let _ ← prepare r
    return true
  | .setUp => do
    enter r .classSetup
    if ← setUpClass r audience then do
      enter r .runningUnits
      return true
    else return false
  | .candidate c => do
    runCandidate r audience c
    return true
  | .tearDown => do
    enter r .classTeardown
    tearDownClass r audience
    return true

/-- Performs stages one after another as long as the run goes on. -/
def performAll : List Stage → Aloud Unit
  | [] => return
  | stage :: rest => do
    if ← perform r audience stage then performAll rest else return

theorem act_perform (stage : Stage) :
    (perform r audience stage).act = r.perform audience stage := by
  cases stage with
  | opening =>
      change (do let _ ← r.prepare; return true : Act Bool) = (do discard r.prepare; return true)
      simp [discard, Functor.discard, map_const]
  | setUp =>
      unfold perform Runner.perform
      simp only [Aloud.act_bind, Aloud.act_ite]
      rfl
  | candidate c =>
      unfold perform Runner.perform
      rw [Aloud.act_bind, act_runCandidate]
      rfl
  | tearDown =>
      unfold perform Runner.perform
      simp only [Aloud.act_bind, act_tearDownClass]
      rfl

/-- Stages say what those say that are begun. -/
theorem said_performAll (list : List Stage) (w : World) :
    (performAll r audience list).said w =
      (r.begunFrom audience list w).flatMap fun begun =>
        (perform r audience begun.1).said begun.2 := by
  induction list generalizing w with
  | nil => rfl
  | cons stage rest ih =>
      have hact := act_perform r audience stage
      rw [begunFrom, List.flatMap_cons, performAll]
      rcases hout : (r.perform audience stage).exec w with ⟨e | go, v⟩
      · rw [← hact] at hout
        rw [Aloud.said_bind_of_error hout, List.flatMap_nil, List.append_nil]
      · rw [← hact] at hout
        rw [Aloud.said_bind_of_ok hout]
        cases go with
        | false => rfl
        | true =>
            rw [if_pos rfl, ih]

theorem performAll_candidates (cs : List (Candidate Procedure)) (rest : List Stage) :
    performAll r audience (cs.map Stage.candidate ++ rest) = (do
      runCandidates r audience cs
      performAll r audience rest) := by
  induction cs with
  | nil => rfl
  | cons c cs ih =>
      rw [List.map_cons, List.cons_append, performAll, perform, runCandidates, ih]
      simp only [bind_assoc, pure_bind, if_true]

theorem runClass_eq_performAll (cs : List (Candidate Procedure)) :
    runClass r audience cs =
      performAll r audience (.setUp :: (cs.map Stage.candidate ++ [.tearDown])) := by
  rw [performAll, performAll_candidates, performAll, performAll, perform, perform, runClass]
  simp only [bind_assoc, pure_bind, if_true]
  congr 1
  funext _
  congr 1
  funext ready
  cases ready <;> simp

/-! ## What a run says -/

theorem only_logged_log (level : LogLevel) (message : String) (detail : LogDetail) :
    (log r level message detail).Only Saying.Logged :=
  .say fun _ => ⟨_, rfl⟩

theorem only_logged_enter (state : RunState) : (enter r state).Only Saying.Logged :=
  .bind (.lift _) fun _ => .bind (only_logged_log r _ _ _) fun _ => .lift _

theorem only_logged_close : (close r).Only Saying.Logged :=
  .bind (.lift _) fun _ => .bind (.lift _) fun _ =>
    .bind (only_logged_enter r _) fun _ => only_logged_log r _ _ _

/-- From its opening on, a run says what its stages say, and logs at most that it is idle. -/
theorem said_runSurvivors (w : World) : ∃ idle, (∀ saying ∈ idle, saying.Logged) ∧
    (runSurvivors r audience).said (r.entered w) =
      ((r.begun audience w).flatMap fun begun => (perform r audience begun.1).said begun.2) ++
        idle := by
  have hopening : ∀ rest, performAll r audience (.opening :: rest) = (do
      let _ ← prepare r
      performAll r audience rest) := by
    intro rest
    rw [performAll, perform]
    simp only [bind_assoc, pure_bind, if_true]
  have hprepare := r.exec_prepare (r.entered w)
  rw [begun, ← said_performAll, stages, hopening, runSurvivors]
  rcases hsubscribed : (r.subscribeFrom 0 r.suite.listeners).exec (r.entered w) with ⟨e | _, v⟩
  · rw [hsubscribed] at hprepare
    have hraised : (prepare r).act.exec (r.entered w) = (.error e, v) := hprepare
    rw [Aloud.said_bind_of_error hraised, Aloud.said_bind_of_error hraised]
    exact ⟨[], List.forall_mem_nil _, (List.append_nil _).symm⟩
  · have hforce : v.session.predicate = r.inForce w := by
      rw [inForce, hsubscribed]
    rw [hsubscribed] at hprepare
    obtain ⟨u, hprepared⟩ : ∃ u, (prepare r).act.exec (r.entered w) =
        (.ok (r.survivors (r.inForce w)), u) := by
      rw [← hforce]
      exact ⟨_, hprepare⟩
    rw [Aloud.said_bind_of_ok hprepared, Aloud.said_bind_of_ok hprepared]
    -- Without survivors the run ends here, with a record that it is idle.
    by_cases hempty : (r.survivors (r.inForce w)).isEmpty = true
    · rw [if_pos hempty, if_pos hempty]
      refine ⟨_, only_logged_enter r .idle u, ?_⟩
      rw [List.append_assoc]
      rfl
    · rw [if_neg hempty, if_neg hempty, ← runClass_eq_performAll]
      exact ⟨[], List.forall_mem_nil _, (List.append_nil _).symm⟩

/-- All that a run says is said in its own context. -/
theorem said_within (body : Aloud Unit) (w : World) :
    (Aloud.activate { runner := r.master, target := r.suite.name, nightly := r.config.nightly } do
      Act.push (.fresh r.master)
      body).said w = body.said (r.entered w) := by
  let context : RunContext :=
    { runner := r.master, target := r.suite.name, nightly := r.config.nightly }
  let pushed : Aloud Unit := do
    Act.push (.fresh r.master)
    body
  have hpush : (liftM (Act.push (.fresh r.master)) : Aloud Unit).act.exec
      (w.within (context :: w.contexts)) = (.ok (), r.entered w) := by
    rw [Aloud.act_lift, exec_push]
    rfl
  have hbody : pushed.said (w.within (context :: w.contexts)) = body.said (r.entered w) :=
    Aloud.said_bind_of_ok hpush
  change pushed.said (w.within (context :: w.contexts)) ++ _ = _
  rw [hbody]
  split
  · exact List.append_nil _
  · exact List.append_nil _

/-- The notifications of a run are those of the stages that it begins. -/
theorem sent_run_iff {w v : World} {n : Notification ErrorId} :
    ⟨.sent n, v⟩ ∈ (run r audience).said w ↔
      ∃ stage u, (stage, u) ∈ r.begun audience w ∧
        ⟨.sent n, v⟩ ∈ (perform r audience stage).said u := by
  have hsilent : ∀ {list : List Saying}, (∀ saying ∈ list, saying.Logged) →
      ⟨.sent n, v⟩ ∉ list :=
    fun hlogged hmem => (hlogged _ hmem).ne_sent n rfl
  obtain ⟨idle, hidle, hsaid⟩ := said_runSurvivors r audience w
  have hclose : ∀ u, ⟨.sent n, v⟩ ∉ (close r).said u := fun u => hsilent (only_logged_close r u)
  rw [run, said_within, Aloud.mem_said_andFinally, hsaid, List.mem_append, List.mem_flatMap]
  constructor
  · rintro ((⟨begun, hbegun, hmem⟩ | hmem) | ⟨u, -, hmem⟩ | ⟨e, u, -, hmem⟩)
    · exact ⟨begun.1, begun.2, hbegun, hmem⟩
    · exact absurd hmem (hsilent hidle)
    · exact absurd hmem (hclose u)
    · exact absurd hmem (hclose _)
  · rintro ⟨stage, u, hbegun, hmem⟩
    exact .inl (.inl ⟨(stage, u), hbegun, hmem⟩)

end Runner.Aloud

/-! ## Executions -/

namespace Runner

variable (r : Runner Procedure) (audience : Audience)

/-- A candidate whose stage is begun in a world, and the world in which it is executed, if it is:
it is not ignored, and no listener objects to its start. -/
def executed? : Stage × World → Option (Candidate Procedure × World)
  | (.candidate c, s) =>
    if r.ignores c then none
    else
      let start : Act Unit := do
        Act.push (.fresh c.seed)
        audience.notify { kind := .started, name := c.name }
      match start.exec s with
      | (.ok (), u) => some (c, u)
      | (.error _, _) => none
  | _ => none

/-- The candidates that a run executes, each with the world in which it does. -/
def executed (w : World) : List (Candidate Procedure × World) :=
  (r.begun audience w).filterMap (r.executed? audience)

variable {r audience} {c : Candidate Procedure} {w s t u v : World}

theorem executed?_eq_some_iff {stage : Stage} :
    r.executed? audience (stage, s) = some (c, u) ↔
      stage = .candidate c ∧ r.ignores c = false ∧ ∃ t,
        (Act.push (.fresh c.seed)).exec s = (.ok (), t) ∧
          (audience.notify { kind := .started, name := c.name }).exec t = (.ok (), u) := by
  unfold executed?
  cases stage with
  | opening | setUp | tearDown => simp
  | candidate d =>
      dsimp only
      constructor
      · cases hignored : r.ignores d with
        | true => exact nofun
        | false =>
            rw [if_neg Bool.false_ne_true]
            intro h
            split at h
            next hstart =>
              cases h
              obtain ⟨_, t, hpush, hstarted⟩ := exec_bind_eq_ok_iff.mp hstart
              exact ⟨rfl, hignored, t, hpush, hstarted⟩
            next => cases h
      · rintro ⟨⟨⟩, hignored, t, hpush, hstarted⟩
        rw [if_neg (Bool.eq_false_iff.mp hignored),
          exec_bind_eq_ok_iff.mpr ⟨(), t, hpush, hstarted⟩]

theorem mem_executed_iff : (c, u) ∈ r.executed audience w ↔ ∃ s, (.candidate c, s) ∈
    r.begun audience w ∧ r.executed? audience (.candidate c, s) = some (c, u) := by
  rw [executed, List.mem_filterMap]
  constructor
  · rintro ⟨⟨stage, s⟩, hbegun, hexecuted⟩
    obtain ⟨rfl, -⟩ := executed?_eq_some_iff.mp hexecuted
    exact ⟨s, hbegun, hexecuted⟩
  · rintro ⟨s, hbegun, hexecuted⟩
    exact ⟨_, hbegun, hexecuted⟩

/-- Every stage that is begun is so on the way from the first one to the end of the last. -/
theorem leads_begunFrom {ρ : Regime} (hρ : ρ.Works)
    (hcodes : ∀ code ∈ r.suite.codes, code.Conducts ρ anyComplaint)
    (haudience : audience.Conducts ρ anyComplaint) {list : List Stage}
    (hunits : ∀ c, .candidate c ∈ list → c.unit ∈ r.suite.units) (hw : w.Lawful) {stage : Stage}
    (hbegun : (stage, s) ∈ r.begunFrom audience list w) :
    stage ∈ list ∧ ρ.Leads w s ∧
      ρ.Leads ((r.perform audience stage).exec s).2 ((r.performAll audience list).exec w).2 := by
  induction list generalizing w with
  | nil => exact absurd hbegun List.not_mem_nil
  | cons first rest ih =>
      have hrest : ∀ c, .candidate c ∈ rest → c.unit ∈ r.suite.units :=
        fun c hc => hunits c (List.mem_cons_of_mem _ hc)
      have hstage : Abides ρ (r.perform audience first) := abides_perform hρ hcodes haudience
        fun c hc => hunits c (by rw [hc]; exact List.mem_cons_self)
      have hfirst := (hstage w hw trivial).1
      -- A later stage is begun only if the first one has ended and goes on.
      rcases List.mem_cons.mp hbegun with heq | hlater
      · cases heq
        refine ⟨List.mem_cons_self, .refl hw, ?_⟩
        unfold performAll
        rw [exec_bind]
        generalize (r.perform audience stage).exec s = result at hfirst ⊢
        obtain ⟨e | _ | _, v⟩ := result
        · exact .refl hfirst.lawful
        · exact .refl hfirst.lawful
        · exact (abides_performAll hρ hcodes haudience hrest v hfirst.lawful trivial).1
      · unfold performAll
        rw [exec_bind]
        generalize (r.perform audience first).exec w = result at hfirst hlater ⊢
        obtain ⟨e | _ | _, v⟩ := result
        · exact absurd hlater List.not_mem_nil
        · exact absurd hlater List.not_mem_nil
        · obtain ⟨hmem, hleads, hend⟩ := ih hrest hfirst.lawful hlater
          exact ⟨List.mem_cons_of_mem _ hmem, hfirst.trans hleads, hend⟩

namespace Aloud

variable {saying : Saying}

theorem mem_said_candidate :
    saying ∈ (perform r audience (.candidate c)).said s ↔ ∃ t,
      (Act.push (.fresh c.seed)).exec s = (.ok (), t) ∧ saying ∈ (attend r audience c).said t := by
  constructor
  · intro hmem
    rcases Aloud.mem_said_bind.mp hmem with hmem | ⟨_, _, -, hmem⟩
    · obtain ⟨_, t, hpush, hmem⟩ := (Aloud.mem_said_bind.mp hmem).resolve_left List.not_mem_nil
      rcases Aloud.mem_said_andFinally.mp hmem with hmem | ⟨_, -, hmem⟩ | ⟨_, _, -, hmem⟩
      · exact ⟨t, hpush, hmem⟩
      · exact absurd hmem List.not_mem_nil
      · exact absurd hmem List.not_mem_nil
    · exact absurd hmem List.not_mem_nil
  · rintro ⟨t, hpush, hmem⟩
    refine Aloud.mem_said_bind.mpr (.inl (Aloud.mem_said_bind.mpr (.inr ⟨(), t, hpush, ?_⟩)))
    exact Aloud.mem_said_andFinally.mpr (.inl hmem)

/-- What is said of a candidate while it is executed is said in its stage. -/
theorem mem_said_of_executed {stage : Stage}
    (hexecuted : r.executed? audience (stage, s) = some (c, u))
    (hmem : saying ∈ (execute r audience c).said u) :
    saying ∈ (perform r audience stage).said s := by
  obtain ⟨rfl, hignored, t, hpush, hstart⟩ := executed?_eq_some_iff.mp hexecuted
  refine mem_said_candidate.mpr ⟨t, hpush, Aloud.mem_said_bind.mpr (.inr ⟨(), u, hstart, ?_⟩)⟩
  rw [if_neg (Bool.eq_false_iff.mp hignored)]
  exact Aloud.mem_said_andFinally.mpr (.inl hmem)

/-- What a candidate is told to have failed of is told while it is executed. -/
theorem failed_candidate {n : Notification ErrorId}
    (hmem : ⟨.sent n, v⟩ ∈ (perform r audience (.candidate c)).said s) (hkind : n.kind = .failed) :
    ∃ u, r.executed? audience (.candidate c, s) = some (c, u) ∧
      ⟨.sent n, v⟩ ∈ (execute r audience c).said u := by
  have hother : ∀ {kind} {t : World}, kind ≠ .failed →
      ⟨.sent n, v⟩ ∉ (notify audience { kind, name := c.name }).said t := by
    intro kind t hne hsent
    cases List.mem_singleton.mp hsent
    exact hne hkind
  obtain ⟨t, hpush, hattend⟩ := mem_said_candidate.mp hmem
  rcases Aloud.mem_said_bind.mp hattend with hstarted | ⟨_, u, hstart, hrest⟩
  · exact absurd hstarted (hother (by decide))
  rcases Aloud.mem_said_andFinally.mp hrest with hbody | ⟨_, -, hfinished⟩ | ⟨_, _, -, hfinished⟩
  · cases hignored : r.ignores c with
    | true =>
        rw [if_pos hignored] at hbody
        exact absurd hbody (hother (by decide))
    | false =>
        rw [if_neg (Bool.eq_false_iff.mp hignored)] at hbody
        exact ⟨u, executed?_eq_some_iff.mpr ⟨rfl, hignored, t, hpush, hstart⟩, hbody⟩
  · exact absurd hfinished (hother (by decide))
  · exact absurd hfinished (hother (by decide))

variable (r audience)

theorem only_accuses_reportFailure (name : String) (e : ErrorId) :
    (reportFailure r audience name e).Only (Saying.Accuses name) :=
  .bind (.lift _) fun _ => .bind ((only_logged_log r _ _ _).mono fun _ h => h.accuses _)
    fun _ => .say fun _ n hsignal _ => by cases hsignal; rfl

theorem only_accuses_reportOutcomes (name : String) (seeds : List Seed)
    (outcomes : List (Hook Procedure × Option ErrorId)) :
    (reportOutcomes r audience name seeds outcomes).Only (Saying.Accuses name) := by
  induction outcomes with
  | nil => exact .lift _
  | cons outcome rest ih =>
      obtain ⟨hook, _ | e⟩ := outcome
      · exact ih
      · exact .bind (.lift _) fun _ => .bind (only_accuses_reportFailure r audience _ _) fun _ => ih

/-- While a candidate is executed failures are told of it. -/
theorem only_accuses_execute (c : Candidate Procedure) :
    (execute r audience c).Only (Saying.Accuses c.name) := by
  refine .bind (.lift _) fun made => .bind (.handle (.lift _) fun e => ?_) fun _ => ?_
  · refine .bind (.lift _) fun _ => .bind (.lift _) fun complaint => ?_
    split
    · exact .say fun _ n hsignal _ => by cases hsignal; rfl
    · exact only_accuses_reportFailure r audience _ _
  · split
    · exact .bind (.lift _) fun _ => .bind (.lift _) fun _ =>
        only_accuses_reportOutcomes r audience _ _ _
    · exact .lift _

/-- Outside of candidates failures are told of the suite. -/
theorem only_accuses_perform {stage : Stage} (hstage : ∀ c, stage ≠ .candidate c) :
    (perform r audience stage).Only (Saying.Accuses r.suite.name) := by
  have henter : ∀ state, (enter r state).Only (Saying.Accuses r.suite.name) :=
    fun state => (only_logged_enter r state).mono fun _ h => h.accuses _
  cases stage with
  | opening =>
      exact .bind (.bind (.lift _) fun _ => .bind (henter _) fun _ => .bind (.lift _) fun _ =>
        .bind ((only_logged_log r _ _ _).mono fun _ h => h.accuses _) fun _ => .lift _)
          fun _ => .lift _
  | setUp =>
      refine .bind (henter _) fun _ => .bind (.handle (.lift _) fun e => ?_) fun ready => ?_
      · exact .bind (.bind (.lift _) fun _ => only_accuses_reportFailure r audience _ _)
          fun _ => .lift _
      · split
        · exact .bind (henter _) fun _ => .lift _
        · exact .lift _
  | candidate c => exact absurd rfl (hstage c)
  | tearDown =>
      exact .bind (henter _) fun _ => .bind (.bind (.lift _) fun _ => .bind (.lift _) fun _ =>
        only_accuses_reportOutcomes r audience _ _ _) fun _ => .lift _

variable {r audience}

/-- A failure that a run tells of is one of its suite, or of a candidate that it executes. -/
theorem failed_run {n : Notification ErrorId}
    (hmem : ⟨.sent n, v⟩ ∈ (run r audience).said w) (hkind : n.kind = .failed) :
    n.name = r.suite.name ∨ ∃ c u, (c, u) ∈ r.executed audience w ∧ n.name = c.name ∧
      ⟨.sent n, v⟩ ∈ (execute r audience c).said u := by
  obtain ⟨stage, s, hbegun, hsaid⟩ := (sent_run_iff r audience).mp hmem
  by_cases hstage : ∃ c, stage = .candidate c
  · obtain ⟨c, rfl⟩ := hstage
    obtain ⟨u, hexecuted, hsaid⟩ := failed_candidate hsaid hkind
    exact .inr ⟨c, u, mem_executed_iff.mpr ⟨s, hbegun, hexecuted⟩,
      only_accuses_execute r audience c u _ hsaid n rfl hkind, hsaid⟩
  · rw [not_exists] at hstage
    exact .inl (only_accuses_perform r audience hstage s _ hsaid n rfl hkind)

/-- What is sent of an executed candidate is sent by the run. -/
theorem sent_run_of_executed {n : Notification ErrorId} (hexecuted : (c, u) ∈ r.executed audience w)
    (hmem : ⟨.sent n, v⟩ ∈ (execute r audience c).said u) :
    ⟨.sent n, v⟩ ∈ (run r audience).said w := by
  obtain ⟨s, hbegun, hexecuted⟩ := mem_executed_iff.mp hexecuted
  exact (sent_run_iff r audience).mpr ⟨_, s, hbegun, mem_said_of_executed hexecuted hmem⟩

end Aloud
end Runner
end SeededTesting
