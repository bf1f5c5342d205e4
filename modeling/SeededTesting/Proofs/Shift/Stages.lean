import SeededTesting.Proofs.Run.Making
import SeededTesting.Proofs.Run.Stages
import SeededTesting.Proofs.Shift.Scripts

/-! # Stages along a shift

What a run does in a stage depends on its suite, its master seed and its mode only, and not on what
else it has to do. So runners that agree in these do the same in related worlds, candidates of one
unit and one seed are executed alike, and only names and instance numbers tell them apart.
-/

namespace SeededTesting

open Shift

/-- An audience that reacts in the same way along every shift. -/
def Audience.Oblivious (audience : Audience) : Prop :=
  ∀ listener tag reactions, audience listener = .scripted tag reactions →
    ∀ kind, Procedure.Oblivious (reactions.on kind)

/-- Runners that agree in all that matters to a stage. -/
structure Runner.Akin (r r' : Runner Procedure) : Prop where
  suite : r'.suite = r.suite
  master : r'.master = r.master
  nightly : r'.config.nightly = r.config.nightly

/-- Candidates that differ in nothing but their names. -/
structure Shift.Alike (κ : Shift) (c c' : Candidate Procedure) : Prop where
  unit : c'.unit = c.unit
  seed : c'.seed = c.seed
  name : c'.name = κ.rename c.name

variable {κ : Shift} {n : Nat}

/-! ## Hooks, factories and bodies -/

theorem corresponds_callProcedure {code : Option Procedure}
    (h : ∀ procedure, code = some procedure → procedure.Oblivious) (label : String)
    (arguments : List Instance) :
    κ.Corresponds n (callProcedure label arguments code)
      (callProcedure label (arguments.map κ.target) code) Same := by
  cases code with
  | none => exact .complain _
  | some procedure =>
      exact (Corresponds.emit (.called label arguments)).andThen fun _ =>
        (h procedure rfl).corresponds label

theorem Hook.corresponds_call {hook : Hook Procedure}
    (h : ∀ procedure, hook.code = some procedure → procedure.Oblivious)
    (arguments : List Instance) :
    κ.Corresponds n (hook.call arguments) (hook.call (arguments.map κ.target)) Same :=
  corresponds_callProcedure h _ _

theorem TestUnit.corresponds_call {unit : TestUnit Procedure}
    (h : ∀ procedure, unit.body = some procedure → procedure.Oblivious) (target : Instance) :
    κ.Corresponds n (unit.call target) (unit.call (κ.target target)) Same :=
  corresponds_callProcedure h _ [target]

theorem corresponds_callHooks {arguments : List Instance} {hooks : List (Hook Procedure)}
    (h : ∀ hook ∈ hooks, ∀ procedure, hook.code = some procedure → procedure.Oblivious) :
    κ.Corresponds n (callHooks arguments hooks) (callHooks (arguments.map κ.target) hooks)
      Same := by
  induction hooks with
  | nil => exact .value fun _ _ => rfl
  | cons hook rest ih =>
      refine (Hook.corresponds_call (h hook List.mem_cons_self) arguments).andThen fun _ => ih ?_
      exact fun hook hmem => h hook (List.mem_cons_of_mem _ hmem)

/-- The errors of the hooks that failed, by their names in both worlds. -/
def Shift.Listed (κ : Shift) (outcomes outcomes' : List (Hook Procedure × Option ErrorId))
    (size : Nat) : Prop :=
  outcomes' = outcomes.map (fun outcome => (outcome.1, outcome.2.map κ.place)) ∧
    ∀ outcome ∈ outcomes, ∀ e, outcome.2 = some e → κ.Fresh size e

theorem corresponds_invokeAll {arguments : List Instance} {hooks : List (Hook Procedure)}
    (h : ∀ hook ∈ hooks, ∀ procedure, hook.code = some procedure → procedure.Oblivious) :
    κ.Corresponds n (invokeAll arguments hooks) (invokeAll (arguments.map κ.target) hooks)
      κ.Listed := by
  induction hooks generalizing n with
  | nil => exact .value fun _ _ => ⟨rfl, List.forall_mem_nil _⟩
  | cons hook rest ih =>
      have hcall : κ.Corresponds n
          (Act.handle (do hook.call arguments; return none) (return some ·))
          (Act.handle (do hook.call (arguments.map κ.target); return none) (return some ·))
          fun error error' m => error' = error.map κ.place ∧ ∀ e, error = some e → κ.Fresh m e := by
        refine .handle ?_ fun e e' m _ he => .value fun m' hm' => ?_
        · refine (Hook.corresponds_call (h hook List.mem_cons_self) arguments).andThen fun _ =>
            .value fun _ _ => ⟨rfl, fun e he => ?_⟩
          cases he
        · refine ⟨congrArg some he.2, fun i hi => ?_⟩
          cases hi
          exact he.1.mono hm'
      -- What one hook raised is kept while others are called, and is still fresh in the end.
      refine hcall.bind fun error error' m _ herror => ?_
      refine (ih fun hook hmem => h hook (List.mem_cons_of_mem _ hmem)).bind
        fun outcomes outcomes' m' hm' houtcomes => .value fun m'' hm'' => ?_
      obtain ⟨rfl, hfresh⟩ := herror
      obtain ⟨rfl, hrest⟩ := houtcomes
      refine ⟨rfl, fun outcome hmem e he => ?_⟩
      rcases List.mem_cons.mp hmem with rfl | hmem
      · exact (hfresh e he).mono (Nat.le_trans hm' hm'')
      · exact (hrest outcome hmem e he).mono hm''

theorem Factory.corresponds_call {factory : Factory Procedure} (h : factory.code.Oblivious) :
    κ.Corresponds n factory.call factory.call fun made made' _ => made' = κ.target made := by
  refine Corresponds.world.bind fun small large m _ ⟨hrelates, _⟩ => ?_
  have hnumber : large.session.instances + 1 = small.session.instances + 1 + κ.ahead := by
    rw [hrelates.session.instances]
    omega
  have hle : κ.near.session.instances ≤ small.session.instances + 1 :=
    Nat.le_succ_of_le hrelates.session.instances_le
  rw [hnumber]
  generalize small.session.instances + 1 = number at hle ⊢
  have hcount : κ.Corresponds m
      (Act.modifySession fun s => { s with instances := number })
      (Act.modifySession fun s => { s with instances := number + κ.ahead }) Same :=
    .modifySession fun _ _ _ _ h => { h with instances := rfl, instances_le := hle }
  refine hcount.andThen fun _ => (Corresponds.emit (.instanceMade number)).andThen fun _ =>
    (h.corresponds _).andThen fun _ => .value fun _ _ => ?_
  cases factory.yields <;> rfl

/-! ## Rules -/

section Rules

variable {rule : Rule Procedure} {statement statement' : Act Unit}

theorem Rule.corresponds_repeated (h : κ.Corresponds n statement statement' Same) (times : Nat) :
    κ.Corresponds n (Rule.repeated statement times) (Rule.repeated statement' times) Same := by
  induction times with
  | zero => exact .value fun _ _ => rfl
  | succ times ih => exact h.andThen fun _ => ih

theorem Rule.corresponds_around (hrule : ∀ code ∈ rule.codes, Procedure.Oblivious code)
    (h : κ.Corresponds n statement statement' Same) :
    κ.Corresponds n (rule.around statement) (rule.around statement') Same := by
  have hbefore : Procedure.Oblivious rule.before := hrule _ (by simp [codes])
  have hafter : Procedure.Oblivious rule.after := hrule _ (by simp [codes])
  refine (Corresponds.emit (.ruleEntered rule.tag)).andThen fun _ =>
    (hbefore.corresponds _).andThen fun _ => Corresponds.andThen ?_ fun _ =>
      (hafter.corresponds _).andThen fun _ => .emit (.ruleLeft rule.tag)
  refine .handle (corresponds_repeated h rule.times) fun e e' m _ he => ?_
  refine (Corresponds.complaint he).andThen fun c =>
    (Corresponds.emit (.ruleCaught rule.tag c)).andThen fun _ => ?_
  split
  · exact .value fun _ _ => rfl
  · exact .failure he

theorem Rule.corresponds_applyAll {rules : List (Rule Procedure)}
    (hrules : ∀ rule ∈ rules, ∀ code ∈ rule.codes, Procedure.Oblivious code)
    (h : κ.Corresponds n statement statement' Same) (unit : String) (target : Instance) :
    κ.Corresponds n (Rule.applyAll unit target rules statement)
      (Rule.applyAll unit (κ.target target) rules statement')
      fun made made' _ => κ.Corresponds n made made' Same := by
  induction rules generalizing statement statement' with
  | nil => exact .value fun _ _ => h
  | cons rule rest ih =>
      have hrule := hrules rule List.mem_cons_self
      have hbuild : Procedure.Oblivious rule.build := hrule _ (by simp [codes])
      have happly : κ.Corresponds n (rule.apply unit target)
          (rule.apply unit (κ.target target)) Same :=
        (Corresponds.emit (.ruleBuilt rule.tag unit target)).andThen fun _ =>
          hbuild.corresponds _
      refine happly.andThen fun _ => ih ?_ (corresponds_around hrule h)
      exact fun rule hmem => hrules rule (List.mem_cons_of_mem _ hmem)

end Rules

/-! ## Listeners -/

section Listeners

variable {audience : Audience} (haudience : audience.Oblivious)

theorem Shift.event_heardEvent {s t : ErrorStore} (h : κ.Matches s t) (tag : String)
    (note : Notification ErrorId) :
    heardEvent t tag (κ.notification note) = κ.event (heardEvent s tag note) := by
  obtain ⟨kind, name, error, seq⟩ := note
  cases error with
  | none => rfl
  | some e =>
      unfold heardEvent Shift.notification
      dsimp only [Option.map_some]
      rw [h.toComplaint, h.extractSeed]
      rfl

include haudience

theorem Audience.corresponds_tell {note : Notification ErrorId}
    (hnote : ∀ e, note.error = some e → κ.Fresh n e) (listener : ListenerRef) :
    κ.Corresponds n (audience.tell note listener)
      (audience.tell (κ.notification note) listener) Same := by
  unfold Audience.tell
  cases hlistener : audience listener with
  | recording =>
      refine .modifySession fun size s t hsize h => h.record listener fun e he => ?_
      exact (hnote e he).mono hsize
  | silent => exact .value fun _ _ => rfl
  | scripted tag reactions =>
      refine Corresponds.world.bind fun small large m _ ⟨hrelates, _⟩ => ?_
      rw [event_heardEvent hrelates.errors]
      exact (Corresponds.emit _).andThen fun _ =>
        (haudience listener tag reactions hlistener _).corresponds _

theorem Audience.corresponds_tellAll {note : Notification ErrorId}
    (hnote : ∀ e, note.error = some e → κ.Fresh n e) (listeners : List ListenerRef) :
    κ.Corresponds n (audience.tellAll note listeners)
      (audience.tellAll (κ.notification note) listeners) Same := by
  induction listeners with
  | nil => exact .value fun _ _ => rfl
  | cons listener rest ih =>
      exact (corresponds_tell haudience hnote listener).andThen fun _ => ih

theorem Audience.corresponds_notify {note : Notification ErrorId}
    (hnote : ∀ e, note.error = some e → κ.Fresh n e) :
    κ.Corresponds n (audience.notify note) (audience.notify (κ.notification note)) Same := by
  refine Corresponds.world.bind fun small large m hm ⟨hrelates, _⟩ => ?_
  rw [hrelates.session.subscribed]
  exact corresponds_tellAll haudience (fun e he => (hnote e he).mono hm) _

/-- What has no error may be told anywhere. -/
theorem Audience.corresponds_notifyOf (kind : NotificationKind) (name : String) :
    κ.Corresponds n (audience.notify { kind, name })
      (audience.notify { kind, name := κ.rename name }) Same := by
  have hnothing : ∀ e, ({ kind, name } : Notification ErrorId).error = some e → κ.Fresh n e := by
    intro e he
    cases he
  exact corresponds_notify haudience hnothing

theorem Audience.corresponds_notifyError {e e' : ErrorId} (he : κ.Named e e' n)
    (kind : NotificationKind) (name : String) :
    κ.Corresponds n (audience.notify { kind, name, error := some e })
      (audience.notify { kind, name := κ.rename name, error := some e' }) Same := by
  obtain ⟨hfresh, rfl⟩ := he
  have hnamed : ∀ i, ({ kind, name, error := some e } : Notification ErrorId).error = some i →
      κ.Fresh n i := by
    intro i hi
    cases hi
    exact hfresh
  exact corresponds_notify haudience hnamed

end Listeners

namespace Runner

variable {r r' : Runner Procedure} (hakin : r.Akin r') {audience : Audience}
  (haudience : audience.Oblivious)

/-! ## Reports -/

theorem corresponds_log (level level' : LogLevel) (message message' : String)
    (detail detail' : LogDetail) :
    κ.Corresponds n (r.log level message detail) (r'.log level' message' detail') Same :=
  .log _ _

theorem corresponds_enter (state : RunState) :
    κ.Corresponds n (r.enter state) (r'.enter state) Same := by
  refine Corresponds.world.bind fun _ _ _ _ _ => (corresponds_log _ _ _ _ _ _).andThen fun _ => ?_
  exact .modifySession fun _ _ _ _ h => { h with state := rfl }

section Reports

include haudience

theorem corresponds_reportFailure {e e' : ErrorId} (he : κ.Named e e' n) (name : String) :
    κ.Corresponds n (r.reportFailure audience name e)
      (r'.reportFailure audience (κ.rename name) e') Same :=
  Corresponds.world.bind fun _ _ _ hm _ => (corresponds_log _ _ _ _ _ _).andThen fun _ =>
    Audience.corresponds_notifyError haudience (he.mono hm) _ _

theorem corresponds_reportOutcomes {outcomes outcomes' : List (Hook Procedure × Option ErrorId)}
    (h : κ.Listed outcomes outcomes' n) (name : String) (seeds : List Seed) :
    κ.Corresponds n (r.reportOutcomes audience name seeds outcomes)
      (r'.reportOutcomes audience (κ.rename name) seeds outcomes') Same := by
  obtain ⟨rfl, hfresh⟩ := h
  induction outcomes with
  | nil => exact .value fun _ _ => rfl
  | cons outcome rest ih =>
      have hrest := ih fun outcome hmem => hfresh outcome (List.mem_cons_of_mem _ hmem)
      obtain ⟨hook, _ | e⟩ := outcome
      · exact hrest
      · have he : κ.Named e (κ.place e) n := ⟨hfresh (hook, some e) List.mem_cons_self e rfl, rfl⟩
        exact (Corresponds.augment he seeds).andThen fun _ =>
          (corresponds_reportFailure haudience he name).andThen fun _ => hrest

end Reports

/-! ## Class set-up and tear-down -/

section Stages

variable (hcodes : ∀ code ∈ r.suite.codes, Procedure.Oblivious code)

include hakin in
theorem corresponds_hooks (phase : Phase) :
    κ.Corresponds n (r.hooks phase) (r'.hooks phase) fun hooks hooks' _ =>
      hooks' = hooks ∧ ∃ active, hooks = hooksFor r.suite.levels phase active := by
  refine Corresponds.currentSource.andThen fun source => .value fun _ _ => ⟨?_, _, rfl⟩
  rw [hakin.suite]

include hcodes in
theorem oblivious_hooksFor (phase : Phase) (active : Int) :
    ∀ hook ∈ hooksFor r.suite.levels phase active, ∀ procedure, hook.code = some procedure →
      procedure.Oblivious := by
  intro hook hmem procedure hcode
  obtain ⟨level, hlevel, hhook⟩ := mem_hooksFor hmem
  exact hcodes procedure (Suite.hook_mem_codes hlevel hhook hcode)

include hakin hcodes

theorem corresponds_callPhase (phase : Phase) (arguments : List Instance) :
    κ.Corresponds n (do callHooks arguments (← r.hooks phase))
      (do callHooks (arguments.map κ.target) (← r'.hooks phase)) Same := by
  refine (corresponds_hooks hakin phase).bind fun hooks hooks' _ _ ⟨heq, active, hhooks⟩ => ?_
  subst heq hhooks
  exact corresponds_callHooks (oblivious_hooksFor hcodes phase active)

include haudience

theorem corresponds_invokePhase (phase : Phase) (arguments : List Instance) (name : String)
    (seeds : List Seed) :
    κ.Corresponds n
      (do
        let outcomes ← invokeAll arguments (← r.hooks phase)
        r.reportOutcomes audience name seeds outcomes)
      (do
        let outcomes ← invokeAll (arguments.map κ.target) (← r'.hooks phase)
        r'.reportOutcomes audience (κ.rename name) seeds outcomes) Same := by
  refine (corresponds_hooks hakin phase).bind fun hooks hooks' _ _ ⟨heq, active, hhooks⟩ => ?_
  subst heq hhooks
  refine (corresponds_invokeAll (oblivious_hooksFor hcodes phase active)).bind
    fun outcomes outcomes' _ _ h => ?_
  exact corresponds_reportOutcomes haudience h name seeds

variable (hname : κ.rename r.suite.name = r.suite.name)

include hname

theorem corresponds_setUpClass :
    κ.Corresponds n (r.setUpClass audience) (r'.setUpClass audience) Same := by
  refine .handle ?_ fun e e' m _ he => ?_
  · have hready : κ.Corresponds n (return true) (return true) Same := .value fun _ _ => rfl
    have hcalled := Corresponds.andThen (corresponds_callPhase hakin hcodes .beforeAll [])
      fun _ => hready
    rwa [bind_assoc, bind_assoc] at hcalled
  · have hreport : κ.Corresponds m (r.reportSuite audience e) (r'.reportSuite audience e')
        Same := by
      have hfailure : κ.Corresponds m (r.reportFailure audience r.suite.name e)
          (r'.reportFailure audience (κ.rename r.suite.name) e') Same :=
        corresponds_reportFailure haudience he r.suite.name
      rw [hname] at hfailure
      unfold reportSuite
      rw [hakin.master, hakin.suite]
      exact (Corresponds.augment he [r.master]).andThen fun _ => hfailure
    exact hreport.andThen fun _ => .value fun _ _ => rfl

theorem corresponds_tearDownClass :
    κ.Corresponds n (r.tearDownClass audience) (r'.tearDownClass audience) Same := by
  have hinvoked : κ.Corresponds n _ _ Same := corresponds_invokePhase hakin haudience hcodes
    .afterAll [] r.suite.name [r.master]
  rw [hname] at hinvoked
  unfold tearDownClass
  rw [hakin.master, hakin.suite]
  exact hinvoked

end Stages

/-! ## Candidates -/

section Candidates

variable {c c' : Candidate Procedure} (hcandidate : κ.Alike c c')
  (hcodes : ∀ code ∈ r.suite.codes, Procedure.Oblivious code)

include hakin hcodes

theorem corresponds_makeInstance :
    κ.Corresponds n r.makeInstance r'.makeInstance fun made made' _ => made' = κ.target made := by
  unfold makeInstance
  rw [hakin.suite]
  cases hfactory : r.suite.factory with
  | none => exact .complain _
  | some factory =>
      exact Factory.corresponds_call (hcodes _ (Suite.factory_mem_codes hfactory))

include hcandidate

theorem corresponds_callBody (hunit : c.unit ∈ r.suite.units) (target : Instance) :
    κ.Corresponds n (r.callBody c target) (r'.callBody c' (κ.target target)) Same := by
  have hbody : κ.Corresponds n (c.unit.call target) (c.unit.call (κ.target target)) Same :=
    TestUnit.corresponds_call
      (fun procedure hcode => hcodes procedure (Suite.body_mem_codes hunit hcode)) target
  unfold callBody
  rw [hakin.suite, hcandidate.unit]
  refine (Rule.corresponds_applyAll ?_ hbody c.unit.name target).bind fun _ _ _ hm h => h.mono hm
  exact fun rule hrule code hcode => hcodes code (Suite.rule_mem_codes hrule hcode)

include haudience

omit hcodes in
theorem corresponds_reportCandidate {e e' : ErrorId} (he : κ.Named e e' n) :
    κ.Corresponds n (r.reportCandidate audience c e) (r'.reportCandidate audience c' e') Same := by
  unfold reportCandidate
  rw [hakin.master, hcandidate.seed, hcandidate.name]
  refine (Corresponds.augment he _).andThen fun _ => ?_
  refine (Corresponds.complaint he).andThen fun said => ?_
  split
  · exact Audience.corresponds_notifyError haudience he _ _
  · exact corresponds_reportFailure haudience he _

theorem corresponds_execute (hunit : c.unit ∈ r.suite.units) :
    κ.Corresponds n (r.execute audience c) (r'.execute audience c') Same := by
  refine (corresponds_makeInstance hakin hcodes).observe.bind fun made made' m _ hmade => ?_
  -- The instance is needed twice, and by the second time more errors may have been made.
  have hmade' : ∀ k, m ≤ k → κ.Ends (fun x y _ => y = κ.target x) k made made' :=
    fun k hk => hmade.mono hk fun _ _ h => h
  refine Corresponds.andThen ?_ fun _ => ?_
  · refine .handle ?_ fun e e' k _ he => corresponds_reportCandidate hakin haudience hcandidate he
    refine (Corresponds.resume hmade').bind fun target target' k _ htarget => ?_
    subst htarget
    have hbody : κ.Corresponds k (r.callBody c target) (r'.callBody c' (κ.target target)) Same :=
      corresponds_callBody hakin hcandidate hcodes hunit target
    have hcalled := Corresponds.andThen (corresponds_callPhase hakin hcodes .beforeEach [target])
      fun _ => hbody
    rwa [bind_assoc, bind_assoc] at hcalled
  · obtain ⟨target, _, rfl, rfl, rfl⟩ | ⟨e, e', rfl, rfl, -⟩ := hmade.inversion
    · cases target with
      | none => exact .value fun _ _ => rfl
      | some number =>
          rw [hakin.master, hcandidate.seed, hcandidate.name]
          exact corresponds_invokePhase hakin haudience hcodes .afterEach [some number]
            c.name [r.master, c.seed]
    · exact .value fun _ _ => rfl

theorem corresponds_attend (hunit : c.unit ∈ r.suite.units) :
    κ.Corresponds n (r.attend audience c) (r'.attend audience c') Same := by
  have hignores : r'.ignores c' = r.ignores c := by
    rw [ignores, ignores, hakin.suite, hakin.nightly, hcandidate.unit]
  unfold attend
  rw [hignores, hcandidate.name]
  refine (Audience.corresponds_notifyOf haudience _ _).andThen fun _ => .andFinally ?_
    (Audience.corresponds_notifyOf haudience _ _)
  split
  · exact Audience.corresponds_notifyOf haudience _ _
  · exact corresponds_execute hakin haudience hcandidate hcodes hunit

/-- Candidates of one unit and one seed are run alike. -/
theorem corresponds_runCandidate (hunit : c.unit ∈ r.suite.units) :
    κ.Corresponds n (r.runCandidate audience c) (r'.runCandidate audience c') Same := by
  unfold runCandidate
  rw [hcandidate.seed]
  exact .inScope (corresponds_attend hakin haudience hcandidate hcodes hunit)

end Candidates

/-! ## Declared listeners -/

section Listeners

include hakin

theorem corresponds_makeListener {factory : ListenerFactory Procedure}
    (h : Procedure.Oblivious factory.create) (index : Nat) :
    κ.Corresponds n (r.makeListener index factory) (r'.makeListener index factory) Same := by
  refine .handle ?_ fun cause cause' m _ hcause => ?_
  · refine (Corresponds.emit (.listenerMade factory.tag)).andThen fun _ =>
      (h.corresponds _).andThen fun _ => ?_
    split
    · exact .value fun _ _ => rfl
    · refine Corresponds.world.bind fun small large m _ ⟨hrelates, _⟩ => ?_
      rw [hrelates.session.listeners]
      refine Corresponds.andThen ?_ fun _ => .value fun _ _ => rfl
      exact .modifySession fun _ _ _ _ h => { h with listeners := rfl }
  · have hcomplaint : r'.notInstantiable factory.tag = r.notInstantiable factory.tag := by
      rw [notInstantiable, notInstantiable, hakin.suite]
    rw [hcomplaint]
    refine (Corresponds.makeError _).bind fun e e' k hk he => ?_
    have hlinked : cause' = κ.place cause := hcause.2
    refine (Corresponds.setCause he (congrArg some hlinked)).bind fun _ _ _ hk' _ =>
      .raise (he.mono hk')

theorem corresponds_subscribeFrom {factories : List (ListenerFactory Procedure)}
    (h : ∀ factory ∈ factories, Procedure.Oblivious factory.create) (index : Nat) :
    κ.Corresponds n (r.subscribeFrom index factories) (r'.subscribeFrom index factories)
      Same := by
  induction factories generalizing index with
  | nil => exact .value fun _ _ => rfl
  | cons factory rest ih =>
      refine (corresponds_makeListener hakin (h factory List.mem_cons_self) index).andThen
        fun listener => Corresponds.andThen ?_ fun _ => Corresponds.andThen ?_ fun _ => ih ?_ _
      · refine .modifySession fun _ _ _ _ h => { h with declared := ?_ }
        rw [h.declared]
      · refine .modifySession fun _ _ _ _ h => { h with subscribed := ?_ }
        rw [h.subscribed]
      · exact fun factory hmem => h factory (List.mem_cons_of_mem _ hmem)

/-- Runners prepare alike, though they may have other candidates to run. -/
theorem corresponds_prepare (hcodes : ∀ code ∈ r.suite.codes, Procedure.Oblivious code) :
    κ.Corresponds n r.prepare r'.prepare fun cs cs' _ => ∃ test test',
      cs = r.survivors test ∧ cs' = r'.survivors test' ∧
        (κ.far.session.predicate = κ.near.session.predicate → test' = test) := by
  unfold prepare
  rw [hakin.suite]
  have hcreate : ∀ factory ∈ r.suite.listeners, Procedure.Oblivious factory.create :=
    fun factory hmem => hcodes _ (Suite.listener_mem_codes hmem List.mem_cons_self)
  exact (corresponds_subscribeFrom hakin hcreate 0).andThen fun _ =>
    (corresponds_enter _).andThen fun _ => Corresponds.world.bind fun _ _ _ _ h =>
      (corresponds_log _ _ _ _ _ _).andThen fun _ => .value fun _ _ =>
        ⟨_, _, rfl, rfl, h.1.session.predicate⟩

end Listeners

/-! ## Ends of runs -/

theorem corresponds_unsubscribeAll (listeners : List ListenerRef) :
    κ.Corresponds n (unsubscribeAll listeners) (unsubscribeAll listeners) Same := by
  induction listeners with
  | nil => exact .value fun _ _ => rfl
  | cons listener rest ih =>
      refine Corresponds.andThen ?_ fun _ => ih
      refine .modifySession fun _ _ _ _ h => { h with subscribed := ?_ }
      rw [h.subscribed]

theorem corresponds_close : κ.Corresponds n r.close r'.close Same := by
  have hunsubscribe : κ.Corresponds n unsubscribeDeclared unsubscribeDeclared Same := by
    refine Corresponds.world.bind fun small large m _ h => ?_
    rw [h.1.session.declared]
    exact (corresponds_unsubscribeAll _).andThen fun _ =>
      .modifySession fun _ _ _ _ h => { h with declared := rfl }
  exact hunsubscribe.andThen fun _ => Corresponds.pop.discard.andThen fun _ =>
    (corresponds_enter _).andThen fun _ => corresponds_log _ _ _ _ _ _

end Runner
end SeededTesting
