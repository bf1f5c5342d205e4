import SeededTesting.Proofs.Run.Openings
import SeededTesting.Proofs.Script.Soundness
import SeededTesting.Proofs.Suite.Map

/-! # Where collaborators are called

Hooks, factories and test bodies are at home in one state of a run each. A run does the same if they
look at its state before they do anything, whatever they would do in another one, so none of them is
ever called away from home.
-/

namespace SeededTesting

open Act

/-! ## Guards -/

/-- The state in which the hooks of a phase are called. -/
def Phase.home : Phase → RunState
  | .beforeAll => .classSetup
  | .beforeEach | .afterEach => .runningUnits
  | .afterAll => .classTeardown

/-- A collaborator that looks whether the run is in its home, and does something else if not. -/
def RunState.guard (home : RunState) (other procedure : Procedure) : Procedure := fun label => do
  if (← get).session.state = home then procedure label else other label

def Level.guarded (other : Procedure) (level : Level Procedure) : Level Procedure where
  owner := level.owner
  beforeAll := level.beforeAll.map (Hook.map (Phase.beforeAll.home.guard other))
  beforeEach := level.beforeEach.map (Hook.map (Phase.beforeEach.home.guard other))
  afterEach := level.afterEach.map (Hook.map (Phase.afterEach.home.guard other))
  afterAll := level.afterAll.map (Hook.map (Phase.afterAll.home.guard other))

/-- The runner whose factory, hooks and test bodies look whether they are called at home. -/
def Runner.guarded (other : Procedure) (r : Runner Procedure) : Runner Procedure where
  suite := { r.suite with
    factory := r.suite.factory.map (Factory.map (RunState.runningUnits.guard other))
    units := r.suite.units.map (TestUnit.map (RunState.runningUnits.guard other))
    levels := r.suite.levels.map (Level.guarded other) }
  config := r.config
  derivation := r.derivation
  blocks := r.blocks.map (UnitBlock.map (RunState.runningUnits.guard other))

/-! ## Runs that stay in their state -/

/-- The regime under which stacks are rewound and the run stays in its state. -/
def Regime.resting : Regime where
  balanced := True
  step s t := t.state = s.state
  refl _ := rfl
  trans h h' := h'.trans h

theorem Regime.calls_resting : resting.Calls where
  traces := ⟨fun _ _ => rfl, fun _ _ => rfl⟩
  record _ _ _ := rfl

theorem Regime.performs_still : still.Performs where
  traces := ⟨fun _ _ => trivial, fun _ _ => trivial⟩
  record _ _ _ := trivial
  state _ _ := trivial

/-- Scripts that do not move on the stack rewind it, and the state of a run is not theirs. -/
theorem Script.permits_resting : Permits .resting anyComplaint Step.moves := by
  apply permits_complaints
  case moves =>
    intro step hmoves hsort
    rw [hmoves] at hsort
    cases hsort
  all_goals
    intros
    rfl

/-! ## Actions that do the same in a state -/

/-- Where the run is in a state and `P` holds, two actions do the same. -/
def Act.SameIn {α : Type} (home : RunState) (P : World → Prop) (body body' : Act α) : Prop :=
  ∀ w, w.Lawful → w.session.state = home → P w → body.exec w = body'.exec w

namespace Act.SameIn

variable {α β : Type} {home state : RunState} {P : World → Prop} {body body' : Act α}

theorem refl : SameIn home P body body :=
  fun _ _ _ _ => rfl

/-- What is the same on any condition is the same on a given one. -/
theorem given (h : SameIn home (fun _ => True) body body') : SameIn home P body body' :=
  fun w hw hstate _ => h w hw hstate trivial

theorem bind {U : α → World → Prop} {X : ErrorId → World → Prop} {next next' : α → Act β}
    (h : SameIn home P body body') (hbody : Triple .resting P body U X)
    (hnext : ∀ x, SameIn home (U x) (next x) (next' x)) :
    SameIn home P (body >>= next) (body' >>= next') := by
  intro w hw hstate hP
  rw [exec_bind, exec_bind, ← h w hw hstate hP]
  rcases hbody.outcome hw hP with ⟨x, v, hout, hleads, hU⟩ | ⟨e, v, hout, -⟩
  · rw [hout]
    exact hnext x v hleads.lawful (hleads.step.trans hstate) hU
  · rw [hout]

/-- What is done afterwards is the same anyway. -/
theorem left (h : SameIn home P body body') (next : α → Act β) :
    SameIn home P (body >>= next) (body' >>= next) := by
  intro w hw hstate hP
  rw [exec_bind, exec_bind, h w hw hstate hP]

theorem observe (h : SameIn home P body body') :
    SameIn home P (Act.observe body) (Act.observe body') := by
  intro w hw hstate hP
  rw [exec_observe, exec_observe, h w hw hstate hP]

theorem handle (h : SameIn home P body body') (handler : ErrorId → Act α) :
    SameIn home P (Act.handle body handler) (Act.handle body' handler) := by
  intro w hw hstate hP
  rw [exec_handle, exec_handle, h w hw hstate hP]

theorem andFinally {body body' : Act Unit} (h : SameIn home P body body') (cleanup : Act Unit) :
    SameIn home P (Act.andFinally body cleanup) (Act.andFinally body' cleanup) := by
  intro w hw hstate hP
  rw [exec_andFinally, exec_andFinally, h w hw hstate hP]

theorem inScope {source : RandomSource} {body body' : Act Unit}
    (h : SameIn home (fun _ => True) body body') :
    SameIn home P (Act.inScope source body) (Act.inScope source body') := by
  intro w hw hstate _
  rw [Act.inScope, Act.inScope, exec_bind, exec_bind, exec_push]
  cases w.contexts with
  | nil => rfl
  | cons context outer =>
      have hinside := h.andFinally (discard Act.pop)
        (w.within ({ context with stack := source :: context.stack } :: outer))
        ⟨hw.errors, hw.handling⟩ hstate trivial
      dsimp only
      rw [exec_leaving, exec_leaving, hinside]

/-- A state is entered before. -/
theorem enter (r : Runner Procedure) (h : SameIn state (fun _ => True) body body') :
    SameIn home P (do r.enter state; body) (do r.enter state; body') := by
  intro w hw _ _
  have henter : (r.enter state).exec w = (.ok (), ((r.enter state).exec w).2) := rfl
  rw [exec_bind_of_ok henter, exec_bind_of_ok henter]
  exact h _ ⟨hw.errors, hw.handling⟩ rfl trivial

end Act.SameIn

/-! ## Calls at home -/

section Calls

variable {home : RunState} {P : World → Prop} {other : Procedure}

theorem sameIn_guard (procedure : Procedure) (label : String) :
    SameIn home P (procedure label) (home.guard other procedure label) := by
  intro w _ hstate _
  rw [RunState.guard, exec_bind_of_ok (exec_get w), if_pos hstate]

theorem sameIn_callProcedure (label : String) (arguments : List Instance)
    (code : Option Procedure) :
    SameIn home P (callProcedure label arguments code)
      (callProcedure label arguments (code.map (home.guard other))) := by
  cases code with
  | none => exact .refl
  | some procedure =>
      exact .bind .refl (Conduct.emit (B := anyComplaint) Regime.calls_resting.traces _).given
        fun _ => sameIn_guard procedure label

theorem Factory.sameIn_call (factory : Factory Procedure) :
    SameIn home P factory.call (factory.map (home.guard other)).call := by
  have hemit : ∀ event, Abides .resting (Act.emit event) :=
    Conduct.emit Regime.calls_resting.traces
  exact .bind .refl (Conduct.world (B := anyComplaint)).given fun _ =>
    .bind .refl (Conduct.modifySession (B := anyComplaint) fun _ => rfl) fun _ =>
      .bind .refl (hemit _) fun _ => .left (sameIn_guard factory.code "factory") _

section Hooks

variable {arguments : List Instance} {hooks : List (Hook Procedure)}
  (h : ∀ hook ∈ hooks, Abides .resting (hook.call arguments))

include h

theorem sameIn_callHooks :
    SameIn home P (callHooks arguments hooks)
      (callHooks arguments (hooks.map (Hook.map (home.guard other)))) := by
  induction hooks generalizing P with
  | nil => exact .refl
  | cons hook rest ih =>
      rw [List.forall_mem_cons] at h
      exact .bind (sameIn_callProcedure hook.label arguments hook.code) h.1.given fun _ => ih h.2

/-- The same errors leave hooks that are invoked with guards. -/
theorem sameIn_invokeAll :
    SameIn home P
      (List.map (Prod.map (Hook.map (home.guard other)) id) <$> invokeAll arguments hooks)
      (invokeAll arguments (hooks.map (Hook.map (home.guard other)))) := by
  induction hooks generalizing P with
  | nil => exact .refl
  | cons hook rest ih =>
      rw [List.forall_mem_cons] at h
      have hcall : SameIn home P (do hook.call arguments; return none)
          (do (hook.map (home.guard other)).call arguments; return none : Act (Option ErrorId)) :=
        .left (sameIn_callProcedure hook.label arguments hook.code) _
      have hhandled : Abides .resting
          (Act.handle (do hook.call arguments; return none) (return some ·)) :=
        .handle (.bind h.1 fun _ => .value none) (fun e => (Conduct.value (some e)).given)
          fun _ _ _ => trivial
      rw [invokeAll, List.map_cons, invokeAll, map_bind]
      refine .bind (.handle hcall _) hhandled.given fun error => ?_
      have hrest := (ih (P := fun _ => True) h.2).left fun outcomes =>
        (pure ((hook.map (home.guard other), error) :: outcomes) : Act _)
      rw [bind_map_left] at hrest
      rwa [map_bind]

end Hooks

section Rules

variable {statement statement' : Act Unit} (h : SameIn home (fun _ => True) statement statement')
  (hkeeps : Abides .resting statement)

include h hkeeps

theorem Rule.sameIn_repeated (times : Nat) :
    SameIn home P (repeated statement times) (repeated statement' times) := by
  induction times generalizing P with
  | zero => exact .refl
  | succ times ih =>
      exact .bind h.given hkeeps.given fun _ => ih

theorem Rule.sameIn_around {rule : Rule Procedure}
    (hrule : ∀ code ∈ rule.codes, code.Conducts .resting anyComplaint) :
    SameIn home P (rule.around statement) (rule.around statement') := by
  have hbefore : rule.before.Conducts .resting anyComplaint := hrule _ (by simp [codes])
  have hentered : Abides .resting (Act.emit (.ruleEntered rule.tag)) :=
    .emit Regime.calls_resting.traces _
  exact .bind .refl hentered.given fun _ => .bind .refl (hbefore _) fun _ =>
    .left (.handle (sameIn_repeated h hkeeps rule.times) _) _

/-- Rules make statements that do the same of such statements. -/
theorem Rule.sameIn_applyAll {rules : List (Rule Procedure)}
    (hrules : ∀ rule ∈ rules, ∀ code ∈ rule.codes, code.Conducts .resting anyComplaint)
    (unit : String) (target : Instance) :
    SameIn home P (do let made ← applyAll unit target rules statement; made)
      (do let made ← applyAll unit target rules statement'; made) := by
  induction rules generalizing P statement statement' with
  | nil => exact h.given
  | cons rule rest ih =>
      rw [List.forall_mem_cons] at hrules
      have happly : Abides .resting (rule.apply unit target) :=
        conduct_apply Regime.calls_resting.traces hrules.1 unit target
      rw [applyAll, applyAll, bind_assoc, bind_assoc]
      exact .bind .refl happly.given fun _ =>
        ih (sameIn_around h hkeeps hrules.1)
          (conduct_around Regime.calls_resting.traces hrules.1 hkeeps) hrules.2

end Rules

end Calls

/-! ## Guarded runners -/

/-- The hooks of a phase are guarded by its home, in whatever order they are called. -/
theorem hooksFor_guarded (other : Procedure) (levels : List (Level Procedure)) (phase : Phase)
    (active : Int) :
    hooksFor (levels.map (Level.guarded other)) phase active =
      (hooksFor levels phase active).map (Hook.map (phase.home.guard other)) := by
  have hsorted : (levels.map (Level.guarded other)).map (·.sortedHooks phase) =
      (levels.map (Level.map (phase.home.guard other))).map (·.sortedHooks phase) := by
    rw [List.map_map, List.map_map]
    refine List.map_congr_left fun level _ => ?_
    cases phase <;> rfl
  rw [← hooksFor_map]
  unfold hooksFor resolveHooks hookGroups
  rw [hsorted]

namespace Runner

variable (r : Runner Procedure) {audience : Audience} (other : Procedure)

theorem hooks_guarded (phase : Phase) :
    (r.guarded other).hooks phase =
      List.map (Hook.map (phase.home.guard other)) <$> r.hooks phase := by
  unfold hooks
  rw [map_bind]
  refine bind_congr fun source => ?_
  rw [map_pure, ← hooksFor_guarded]
  rfl

/-! ### What runners say -/

theorem log_guarded (level : LogLevel) (message : String) (detail : LogDetail) :
    (r.guarded other).log level message detail = r.log level message detail := rfl

theorem enter_guarded (state : RunState) : (r.guarded other).enter state = r.enter state := by
  simp only [enter, log_guarded]

theorem reportFailure_guarded (name : String) (e : ErrorId) :
    (r.guarded other).reportFailure audience name e = r.reportFailure audience name e := by
  simp only [reportFailure, log_guarded]

theorem reportSuite_guarded (e : ErrorId) :
    (r.guarded other).reportSuite audience e = r.reportSuite audience e := by
  rw [reportSuite, reportFailure_guarded]
  rfl

theorem close_guarded : (r.guarded other).close = r.close := by
  simp only [close, enter_guarded, log_guarded]
  rfl

theorem reportOutcomes_guarded (name : String) (seeds : List Seed)
    (outcomes : List (Hook Procedure × Option ErrorId)) (f : Hook Procedure → Hook Procedure) :
    (r.guarded other).reportOutcomes audience name seeds (outcomes.map (Prod.map f id)) =
      r.reportOutcomes audience name seeds outcomes := by
  induction outcomes with
  | nil => rfl
  | cons outcome rest ih =>
      obtain ⟨hook, _ | e⟩ := outcome
      · exact ih
      · rw [List.map_cons, reportOutcomes, ← ih, ← reportFailure_guarded]
        rfl

theorem candidates_guarded :
    (r.guarded other).candidates =
      r.candidates.map (Candidate.map (RunState.runningUnits.guard other)) := by
  rw [candidates, candidates, List.map_flatMap, guarded, List.flatMap_map]
  rfl

/-! ### Openings -/

theorem filterBy_guarded (ask : String → Act Bool) (cs : List (Candidate Procedure)) :
    (r.guarded other).filterBy ask (cs.map (Candidate.map (RunState.runningUnits.guard other))) =
      List.map (Candidate.map (RunState.runningUnits.guard other)) <$> r.filterBy ask cs := by
  induction cs with
  | nil => rfl
  | cons c rest ih =>
      rw [List.map_cons, filterBy, filterBy, ih, map_bind]
      refine bind_congr fun kept => ?_
      rw [bind_map_left, map_bind]
      refine bind_congr fun others => ?_
      cases kept <;> rfl

theorem survivorsBy_guarded (ask : String → Act Bool) :
    (r.guarded other).survivorsBy ask =
      List.map (Candidate.map (RunState.runningUnits.guard other)) <$> r.survivorsBy ask := by
  unfold survivorsBy
  rw [candidates_guarded, filterBy_guarded, apply_ite (List.map _ <$> ·)]
  rfl

theorem subscribeBy_guarded (makers : List Maker) :
    (r.guarded other).subscribeBy makers = r.subscribeBy makers := by
  induction makers with
  | nil => rfl
  | cons maker rest ih =>
      rw [subscribeBy, ih]
      rfl

/-- The candidates that are run are guarded, and are found as before. -/
theorem prepareBy_guarded (o : Opening) :
    (r.guarded other).prepareBy o =
      List.map (Candidate.map (RunState.runningUnits.guard other)) <$> r.prepareBy o := by
  rw [prepareBy, prepareBy, subscribeBy_guarded, survivorsBy_guarded, map_bind]
  refine bind_congr fun _ => ?_
  rw [map_bind]
  refine bind_congr fun _ => ?_
  rw [bind_map_left, map_bind]
  refine bind_congr fun survivors => ?_
  rw [map_bind, List.length_map]
  exact bind_congr fun _ => (map_pure _ _).symm

/-! ### Stages -/

section Stages

variable {r other} {P : World → Prop}

/-- Hooks are resolved from some active seed, whatever is done with them. -/
theorem sameIn_hooks {α : Type} {phase : Phase} {home : RunState}
    {next next' : List (Hook Procedure) → Act α}
    (h : ∀ active, SameIn home (fun _ => True) (next (hooksFor r.suite.levels phase active))
      (next' ((hooksFor r.suite.levels phase active).map (Hook.map (phase.home.guard other))))) :
    SameIn home P (r.hooks phase >>= next) ((r.guarded other).hooks phase >>= next') := by
  rw [hooks_guarded, bind_map_left]
  refine .bind .refl (Triple.pre (r.conduct_hooks complains_any phase) fun _ _ _ => trivial)
    fun hooks w hw hstate hhooks => ?_
  obtain ⟨active, rfl⟩ := hhooks
  exact h active w hw hstate trivial

theorem sameIn_makeInstance :
    SameIn .runningUnits P r.makeInstance (r.guarded other).makeInstance := by
  have hguarded : (r.guarded other).suite.factory =
      r.suite.factory.map (Factory.map (RunState.runningUnits.guard other)) := rfl
  rw [makeInstance, makeInstance, hguarded]
  cases r.suite.factory with
  | none => exact .refl
  | some factory => exact factory.sameIn_call

variable (hcodes : ∀ code ∈ r.suite.codes, code.Conducts .resting anyComplaint)

include hcodes

theorem sameIn_callPhase (phase : Phase) (arguments : List Instance) :
    SameIn phase.home P (do callHooks arguments (← r.hooks phase))
      (do callHooks arguments (← (r.guarded other).hooks phase)) :=
  sameIn_hooks fun _ => sameIn_callHooks
    (r.conduct_hookCall Regime.calls_resting.traces complains_any hcodes)

/-- Hooks of a phase are invoked and the same failures reported. -/
theorem sameIn_invokePhase (phase : Phase) (arguments : List Instance) (name : String)
    (seeds : List Seed) :
    SameIn phase.home P
      (do
        let outcomes ← invokeAll arguments (← r.hooks phase)
        r.reportOutcomes audience name seeds outcomes)
      (do
        let outcomes ← invokeAll arguments (← (r.guarded other).hooks phase)
        (r.guarded other).reportOutcomes audience name seeds outcomes) := by
  refine sameIn_hooks fun active => ?_
  have hinvoked : SameIn phase.home (fun _ => True)
      (List.map (Prod.map (Hook.map (phase.home.guard other)) id) <$>
        invokeAll arguments (hooksFor r.suite.levels phase active)) _ :=
    sameIn_invokeAll (r.conduct_hookCall Regime.calls_resting.traces complains_any hcodes)
  have hreported := hinvoked.left fun outcomes =>
    (r.guarded other).reportOutcomes audience name seeds outcomes
  rw [bind_map_left] at hreported
  simpa only [reportOutcomes_guarded] using hreported

section Candidates

variable {c : Candidate Procedure} (hunit : c.unit ∈ r.suite.units)

include hunit

theorem sameIn_callBody (target : Instance) :
    SameIn .runningUnits P (r.callBody c target)
      ((r.guarded other).callBody (c.map (RunState.runningUnits.guard other)) target) := by
  have hbody : Abides .resting (c.unit.call target) :=
    TestUnit.conduct_call Regime.calls_resting.traces complains_any
      (fun procedure hcode => hcodes procedure (Suite.body_mem_codes hunit hcode)) target
  exact Rule.sameIn_applyAll
    (sameIn_callProcedure ("body:" ++ c.unit.name) [target] c.unit.body) hbody
    (fun rule hrule code hcode => hcodes code (Suite.rule_mem_codes hrule hcode)) _ _

variable (haudience : audience.Conducts .resting anyComplaint)

include haudience

theorem sameIn_execute :
    SameIn .runningUnits P (r.execute audience c)
      ((r.guarded other).execute audience (c.map (RunState.runningUnits.guard other))) := by
  have hnotify := abides_notify Regime.calls_resting haudience
  have hmade :=
    (r.conduct_makeInstance Regime.calls_resting.traces complains_any hcodes).observe
      (Y := Blames anyComplaint)
  refine .bind sameIn_makeInstance.observe (hmade.pre fun _ _ _ => trivial) fun made =>
    .bind (.handle ?_ _) (r.conduct_attempt Regime.calls_resting.traces complains_any hcodes
      escapes_any hnotify hunit made) fun _ => ?_
  · refine .bind .refl Triple.resume fun target => ?_
    have hbefore : SameIn .runningUnits (fun _ => True)
        (do callHooks [target] (← r.hooks .beforeEach))
        (do callHooks [target] (← (r.guarded other).hooks .beforeEach)) :=
      sameIn_callPhase hcodes .beforeEach [target]
    have hbody : SameIn .runningUnits (fun _ => True) (r.callBody c target)
        ((r.guarded other).callBody (c.map (RunState.runningUnits.guard other)) target) :=
      sameIn_callBody hcodes hunit target
    have hcalled := hbefore.bind (r.conduct_callPhase Regime.calls_resting.traces complains_any
      hcodes .beforeEach [target]) fun _ => hbody
    rw [bind_assoc, bind_assoc] at hcalled
    exact hcalled.given
  · obtain _ | _ | number := made
    · exact .refl
    · exact .refl
    · exact sameIn_invokePhase hcodes .afterEach [some number] c.name [r.master, c.seed]

theorem sameIn_runCandidate :
    SameIn .runningUnits P (r.runCandidate audience c)
      ((r.guarded other).runCandidate audience (c.map (RunState.runningUnits.guard other))) := by
  have hnotify := abides_notify Regime.calls_resting haudience
  refine .inScope (.bind .refl (hnotify _).given fun _ => .andFinally ?_ _)
  change SameIn _ _ (if r.ignores c then _ else _) (if r.ignores c then _ else _)
  split
  · exact .refl
  · exact sameIn_execute hcodes hunit haudience

end Candidates

variable (haudience : audience.Conducts .resting anyComplaint)

include haudience

theorem sameIn_runCandidates {cs : List (Candidate Procedure)}
    (hunits : ∀ c ∈ cs, c.unit ∈ r.suite.units) :
    SameIn .runningUnits P (r.runCandidates audience cs)
      ((r.guarded other).runCandidates audience
        (cs.map (Candidate.map (RunState.runningUnits.guard other)))) := by
  induction cs generalizing P with
  | nil => exact .refl
  | cons c rest ih =>
      rw [List.forall_mem_cons] at hunits
      exact .bind (sameIn_runCandidate hcodes hunits.1 haudience)
        (r.abides_runCandidate Regime.calls_resting hcodes haudience hunits.1).given
          fun _ => ih hunits.2

omit haudience in
theorem sameIn_setUpClass :
    SameIn .classSetup P (r.setUpClass audience) ((r.guarded other).setUpClass audience) := by
  have hphase : SameIn .classSetup P (do callHooks [] (← r.hooks .beforeAll))
      (do callHooks [] (← (r.guarded other).hooks .beforeAll)) :=
    sameIn_callPhase hcodes .beforeAll []
  have hcalled := hphase.left fun _ => (pure true : Act Bool)
  rw [bind_assoc, bind_assoc] at hcalled
  unfold setUpClass
  simp only [reportSuite_guarded]
  exact .handle hcalled _

omit haudience in
theorem sameIn_tearDownClass :
    SameIn .classTeardown P (r.tearDownClass audience)
      ((r.guarded other).tearDownClass audience) :=
  sameIn_invokePhase hcodes .afterAll [] r.suite.name [r.master]

/-- The set-up, the candidates and the tear-down of a class are each done in a state of their
own. -/
theorem sameIn_runClass {cs : List (Candidate Procedure)}
    (hunits : ∀ c ∈ cs, c.unit ∈ r.suite.units) (home : RunState) :
    SameIn home P (r.runClass audience cs)
      ((r.guarded other).runClass audience
        (cs.map (Candidate.map (RunState.runningUnits.guard other)))) := by
  simp only [runClass, enter_guarded]
  refine .enter r (.bind (sameIn_setUpClass hcodes)
    (r.abides_setUpClass Regime.calls_resting hcodes haudience) fun ready => ?_)
  cases ready with
  | false =>
      rw [if_neg Bool.false_ne_true, if_neg Bool.false_ne_true]
      exact .refl
  | true =>
      exact .enter r (.bind (sameIn_runCandidates hcodes haudience hunits)
        (r.abides_runCandidates Regime.calls_resting hcodes haudience hunits) fun _ =>
          .enter r (sameIn_tearDownClass hcodes))

end Stages

/-- A run does the same with guards: nobody is called away from home. -/
theorem exec_runOpened_guarded
    (hcodes : ∀ code ∈ r.suite.codes, code.Conducts .resting anyComplaint)
    (haudience : audience.Conducts .resting anyComplaint) (hexpands : r.Expands) {o : Opening}
    (ho : o.Abides .resting) {w : World} (hw : w.Lawful) :
    ((r.guarded other).runOpened audience o).exec w = (r.runOpened audience o).exec w := by
  have hsurvivors : ((r.guarded other).runSurvivorsBy audience o).exec (r.entered w) =
      (r.runSurvivorsBy audience o).exec (r.entered w) := by
    have hprepare := r.conduct_prepareBy .free (fun _ _ => trivial) (fun _ _ => trivial)
      (ho.under .free)
    rw [runSurvivorsBy, runSurvivorsBy, prepareBy_guarded, bind_map_left, exec_bind, exec_bind]
    rcases hprepare.outcome (r.entered_lawful hw) trivial with
      ⟨cs, v, hout, hleads, hcs⟩ | ⟨e, v, hout, -⟩
    · rw [hout]
      dsimp only
      rw [List.isEmpty_map]
      split
      · rfl
      · exact (sameIn_runClass hcodes haudience (fun c hc => hexpands c (hcs c hc))
          v.session.state (P := fun _ => True) v hleads.lawful rfl trivial).symm
    · rw [hout]
  refine r.exec_within_congr ?_
  rw [exec_andFinally, exec_andFinally, hsurvivors, close_guarded]

end Runner
end SeededTesting
