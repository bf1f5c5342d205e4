import SeededTesting.Proofs.Run.RuleEvents
import SeededTesting.Proofs.Run.Scripted
import SeededTesting.Proofs.Suite.Validity

/-! # The life of a run as a ledger

Which calls a run makes follows from the errors that its calls raise. The ledger of a run says so
without exceptions, and every run whose errors can be reported makes the calls of its ledger, in
their order, and returns.
-/

namespace SeededTesting

open Act

namespace Runner

variable (r : Runner Procedure) (audience : Audience)

/-! ## Ledgers of the stages -/

/-- The before-all hooks up to and including the first that raises, which is reported. -/
def setUpLedger : Bookkeeping Bool := do
  match ← Ledger.untilError [] (hooksFor r.suite.levels .beforeAll r.master.toNat) with
  | .ok () => return true
  | .error e => do
    Ledger.meanwhile (Act.whileHandling e (r.reportSuite audience e))
    return false

/-- All after-all hooks; those that raise are reported afterwards. -/
def tearDownLedger : Bookkeeping Unit := do
  let outcomes ← Ledger.each [] (hooksFor r.suite.levels .afterAll r.master.toNat)
  Ledger.meanwhile (r.reportOutcomes audience r.suite.name [r.master] outcomes)

variable (c : Candidate Procedure)

/-- If there is an instance, the before-each hooks up to and including the first that raises, and
the body with its rules if none does. -/
def testLedger : Except ErrorId Instance → Bookkeeping (Except ErrorId Unit)
  | .error e => return .error e
  | .ok target => do
    match ← Ledger.untilError [target] (hooksFor r.suite.levels .beforeEach c.seed.toNat) with
    | .ok () => Ledger.note (.body r c target) (r.callBody c target)
    | .error e => return .error e

/-- The error of a test is reported, if there is one. -/
def outcomeLedger : Except ErrorId Unit → Bookkeeping Unit
  | .ok () => return
  | .error e => Ledger.meanwhile (Act.whileHandling e (r.reportCandidate audience c e))

/-- All after-each hooks, if there is an instance; those that raise are reported afterwards. -/
def cleanUpLedger : Except ErrorId Instance → Bookkeeping Unit
  | .error _ => return
  | .ok target => do
    let outcomes ← Ledger.each [target] (hooksFor r.suite.levels .afterEach c.seed.toNat)
    Ledger.meanwhile (r.reportOutcomes audience c.name [r.master, c.seed] outcomes)

/-- The factory once, the test, whose error is reported, and the clean-up. -/
def executionLedger : Bookkeeping Unit := do
  let made ← Ledger.note .factory r.makeInstance
  r.outcomeLedger audience c (← r.testLedger c made)
  r.cleanUpLedger audience c made

/-- All after-each hooks, if the instance is a number; those that raise are reported afterwards. -/
def tidyLedger : Except ErrorId Instance → Bookkeeping Unit
  | .ok (some number) => r.cleanUpLedger audience c (.ok (some number))
  | .ok none | .error _ => return

/-- An execution whatever the factory makes: nothing tidies up after an instance that is none. -/
def visitLedger : Bookkeeping Unit := do
  let made ← Ledger.note .factory r.makeInstance
  r.outcomeLedger audience c (← r.testLedger c made)
  r.tidyLedger audience c made

/-- A candidate that is not ignored is executed. -/
def treatmentLedger : Bookkeeping Unit :=
  if r.ignores c then Ledger.meanwhile (audience.notify { kind := .ignored, name := c.name })
  else r.executionLedger audience c

def attendanceLedger : Bookkeeping Unit := do
  Ledger.meanwhile (audience.notify { kind := .started, name := c.name })
  r.treatmentLedger audience c
  Ledger.meanwhile (audience.notify { kind := .finished, name := c.name })

/-- A candidate in the scope of its seed. -/
def candidateLedger : Bookkeeping Unit := do
  Ledger.meanwhile (Act.push (.fresh c.seed))
  r.attendanceLedger audience c
  Ledger.meanwhile (discard Act.pop)

/-- Candidates one after another. -/
def candidatesLedger : List (Candidate Procedure) → Bookkeeping Unit
  | [] => return
  | c :: rest => do
    r.candidateLedger audience c
    candidatesLedger rest

/-- The candidates of a class, whatever becomes of each, and its tear-down, unless its set-up
failed. -/
def classLedger (survivors : List (Candidate Procedure)) : Bookkeeping Unit := do
  Ledger.meanwhile (r.enter .classSetup)
  if ← r.setUpLedger audience then do
    Ledger.meanwhile (r.enter .runningUnits)
    r.candidatesLedger audience survivors
    Ledger.meanwhile (r.enter .classTeardown)
    r.tearDownLedger audience

/-- Nothing is called if no candidate is left. -/
def survivorsLedger (survivors : List (Candidate Procedure)) : Bookkeeping Unit :=
  if survivors.isEmpty then Ledger.meanwhile (r.enter .idle) else r.classLedger audience survivors

/-- The ledger of a run, from the subscription of its listeners to its end. -/
def ledger (w : World) : Ledger :=
  let prepared := (r.prepare.exec (r.entered w)).2
  ((r.survivorsLedger audience (r.survivors (r.inForce w))).run { world := prepared }).2

end Runner

/-! ## Calls -/

/-- Observing an action observes its parts. -/
theorem Act.observe_bind {α β : Type} (body : Act α) (next : α → Act β) :
    Act.observe (body >>= next) = Act.observe body >>= fun
      | .ok x => Act.observe (next x)
      | .error e => pure (.error e) := by
  have hexec : ∀ w, (Act.observe (body >>= next)).exec w = (Act.observe body >>= fun
      | .ok x => Act.observe (next x)
      | .error e => pure (.error e)).exec w := by
    intro w
    rw [exec_bind, exec_observe, exec_observe, exec_bind]
    rcases body.exec w with ⟨_ | _, v⟩ <;> rfl
  exact funext hexec

variable {B : Complaint → Prop}

section Calls

variable (hB : Complains B) {P : Ledger → Prop}

include hB

/-- A hook that is called announces itself. -/
theorem Hook.announced_call {hook : Hook Procedure}
    (h : ∀ procedure, hook.code = some procedure → procedure.Conducts .uncalled B)
    (arguments : List Instance) {w : World} (hw : w.Lawful) :
    ((hook.call arguments).exec w).2.session.calls.drop w.session.calls.length =
      if hook.code.isSome then [.called hook.label arguments] else [] := by
  obtain ⟨-, hcalls⟩ := announced_callProcedure hB h hook.label arguments hw
  rw [Hook.call, hcalls, List.drop_left]
  cases hook.code <;> rfl

theorem Ledger.Follows.hook {hook : Hook Procedure}
    (h : ∀ procedure, hook.code = some procedure → procedure.Conducts .uncalled B)
    (arguments : List Instance) :
    Follows B P (Act.observe (hook.call arguments)) (Ledger.note (.hook hook arguments)
      (hook.call arguments)) fun outcome l => ∀ e, outcome = .error e → l.Recorded e :=
  .note (Hook.conduct_call Regime.traces_calling hB
    (fun procedure hcode label => (h procedure hcode label).calling) arguments)
    fun _ hw _ => Hook.announced_call hB h arguments hw

theorem Ledger.Follows.untilError {hooks : List (Hook Procedure)}
    (h : ∀ hook ∈ hooks, ∀ procedure, hook.code = some procedure →
      procedure.Conducts .uncalled B) (arguments : List Instance) :
    Follows B P (Act.observe (callHooks arguments hooks)) (Ledger.untilError arguments hooks)
      fun outcome l => ∀ e, outcome = .error e → l.Recorded e := by
  induction hooks generalizing P with
  | nil => exact .value fun _ _ e he => nomatch he
  | cons hook rest ih =>
      unfold callHooks Ledger.untilError
      rw [Act.observe_bind]
      refine .bind (.hook hB (h hook List.mem_cons_self) arguments) fun outcome => ?_
      cases outcome with
      | ok _ => exact ih fun hook hmem => h hook (List.mem_cons_of_mem _ hmem)
      | error e => exact .value fun l hl => hl

/-- The errors of hooks are recorded. -/
def Ledger.OutcomesRecorded (outcomes : List (Hook Procedure × Option ErrorId)) (l : Ledger) :
    Prop :=
  ∀ outcome ∈ outcomes, ∀ e, outcome.2 = some e → l.Recorded e

theorem Ledger.Follows.each {hooks : List (Hook Procedure)}
    (h : ∀ hook ∈ hooks, ∀ procedure, hook.code = some procedure →
      procedure.Conducts .uncalled B) (arguments : List Instance) :
    Follows B P (invokeAll arguments hooks) (Ledger.each arguments hooks) OutcomesRecorded := by
  induction hooks generalizing P with
  | nil => exact .value fun _ _ => List.forall_mem_nil _
  | cons hook rest ih =>
      unfold invokeAll Ledger.each
      refine .bind (.failure? (.hook hB (h hook List.mem_cons_self) arguments)) fun error => ?_
      have hrest := ih (P := fun _ => True) fun hook hmem => h hook (List.mem_cons_of_mem _ hmem)
      refine .bind ((hrest.keep (R := fun l => ∀ e, error = some e → l.Recorded e) ?_).conseq
        (fun l hl => ⟨trivial, hl⟩) fun _ _ hl => hl) fun outcomes => .value ?_
      · exact fun l l' hextends hl e he => hextends.recorded (hl e he)
      · rintro l ⟨houtcomes, herror⟩ outcome hmem
        rcases List.mem_cons.mp hmem with rfl | hmem
        · exact herror
        · exact houtcomes outcome hmem

end Calls

/-! ## Factories and active seeds -/

theorem Factory.exec_call (factory : Factory Procedure) (w : World) :
    factory.call.exec w = (do
      factory.code "factory"
      return if factory.yields then some ((w.session.instances + 1 : Nat) : Int) else none :
        Act Instance).exec { w with session := { w.session with
          instances := w.session.instances + 1
          trace := w.session.trace.push (.instanceMade (w.session.instances + 1)) } } := rfl

theorem Ledger.kept_seeded (seed : Seed) : Kept B fun l => l.world.Seeded seed :=
  fun _ _ hextends h => hextends.leads.seeded trivial h

/-- What follows a ledger where its own seed is active follows it in a scope of that seed, which
leaves the stack as it was. -/
theorem Ledger.Follows.inScope {body : Act Unit} {book : Bookkeeping Unit} {own : Seed}
    (h : Follows B (fun l => l.world.Seeded own) body book fun _ l => l.world.Seeded own)
    (seed : Seed) :
    Follows B (fun l => l.world.Seeded seed) (Act.inScope (.fresh own) body)
      (do
        Ledger.meanwhile (Act.push (.fresh own))
        book
        Ledger.meanwhile (discard Act.pop))
      fun _ l => l.world.Seeded seed := by
  intro l hl hseeded
  obtain ⟨context, outer, source, rest, hcontexts, hseed⟩ := hseeded
  let inner : RunContext := { context with stack := .fresh own :: source :: rest }
  let entered : Ledger := { l with world := l.world.within (inner :: outer) }
  obtain ⟨hextends, -, hexec⟩ := h entered ⟨hl.errors, hl.handling⟩
    ⟨context, outer, .fresh own, source :: rest, rfl, rfl⟩
  have hpush : (Ledger.meanwhile (Act.push (.fresh own))).run l = ((), entered) := by
    change ((), { l with world := ((Act.push (.fresh own)).exec l.world).2 }) = _
    rw [exec_push, hcontexts]
  rw [run_bind, hpush, run_bind]
  generalize (book.run entered).2 = left at *
  -- The regime says how the stack is left, whether or not all errors could be reported.
  have hrewound : Rewound (inner :: outer) left.world.contexts :=
    hextends.leads.rewound trivial
  obtain ⟨top, -, hleft⟩ := hrewound.of_active
  have hpop : (Ledger.meanwhile (discard Act.pop)).run left =
      ((), { left with world := left.world.within l.world.contexts }) := by
    change ((), { left with world := ((discard Act.pop).exec left.world).2 }) = _
    rw [exec_discard, exec_pop, hleft, hcontexts]
  rw [hpop]
  have hleads : Regime.calling.Leads l.world (left.world.within l.world.contexts) := by
    refine ⟨⟨hextends.leads.lawful.errors, hextends.leads.lawful.handling⟩, ?_,
      hextends.leads.step, fun _ => .same _⟩
    exact ⟨hextends.leads.grows.errors, hextends.leads.grows.handling, rfl, rfl⟩
  refine ⟨⟨hleads, hextends.records⟩, ?_, fun hreportable => ?_⟩
  · exact ⟨context, outer, source, rest, hcontexts, hseed⟩
  · rw [exec_inScope hcontexts (hexec hreportable) hrewound]
    rfl

namespace Runner

variable (r : Runner Procedure) {audience : Audience}

theorem exec_hooks {w : World} {seed : Seed} (hw : w.Seeded seed) (phase : Phase) :
    (r.hooks phase).exec w = (.ok (hooksFor r.suite.levels phase seed.toNat), w) := by
  obtain ⟨context, outer, source, rest, hcontexts, rfl⟩ := hw
  rw [hooks, exec_bind, exec_currentSource, hcontexts]
  rfl

/-- A factory that yields makes numbers. -/
theorem makeInstance_eq_some {factory : Factory Procedure}
    (hfactory : r.suite.factory = some factory) (hyields : factory.yields = true) {w : World}
    {target : Instance} (h : (r.makeInstance.exec w).1 = .ok target) :
    ∃ n : Int, target = some n := by
  rw [makeInstance, hfactory] at h
  dsimp only at h
  rw [Factory.exec_call, exec_bind] at h
  generalize (factory.code "factory").exec _ = result at h
  obtain ⟨_ | _, v⟩ := result
  · cases h
  · rw [hyields] at h
    cases h
    exact ⟨_, rfl⟩

/-- Where the factory makes numbers, it is always tidied up after the instance. -/
theorem run_executionLedger {factory : Factory Procedure}
    (hfactory : r.suite.factory = some factory) (hyields : factory.yields = true)
    (c : Candidate Procedure) (l : Ledger) :
    (r.executionLedger audience c).run l = (r.visitLedger audience c).run l := by
  unfold executionLedger visitLedger
  have hmade : ((Ledger.note .factory r.makeInstance).run l).1 = (r.makeInstance.exec l.world).1 :=
    rfl
  rw [Ledger.Follows.run_bind (Ledger.note .factory r.makeInstance),
    Ledger.Follows.run_bind (Ledger.note .factory r.makeInstance)]
  rw [hmade]
  rcases hout : (r.makeInstance.exec l.world).1 with _ | target
  · rfl
  · obtain ⟨n, rfl⟩ := r.makeInstance_eq_some hfactory hyields hout
    rfl

section Stages

variable (hB : Complains B) (hcodes : ∀ code ∈ r.suite.codes, code.Conducts .uncalled B)
  (haudience : audience.Conducts .uncalled noComplaint)

include hB hcodes

/-- A factory announces the instance that it makes. -/
theorem follows_makeInstance {factory : Factory Procedure}
    (hfactory : r.suite.factory = some factory) {P : Ledger → Prop} :
    Ledger.Follows B P (Act.observe r.makeInstance) (Ledger.note .factory r.makeInstance)
      fun made l => ∀ e, made = .error e → l.Recorded e := by
  have hcode : Conduct .uncalled B (factory.code "factory") :=
    hcodes _ (Suite.factory_mem_codes hfactory) _
  have hconduct := r.conduct_makeInstance Regime.traces_calling hB
    fun code hmem label => (hcodes code hmem label).calling
  have hmade : r.makeInstance = factory.call := by
    rw [makeInstance, hfactory]
  rw [hmade] at hconduct ⊢
  refine .note hconduct fun w hw error => ⟨w.session.instances + 1, ?_⟩
  have hbody : Conduct .uncalled B (do
      factory.code "factory"
      return if factory.yields then some ((w.session.instances + 1 : Nat) : Int) else none) :=
    .bind hcode fun _ => .value _
  have hcounted : Regime.calling.Leads w
      { w with session := { w.session with instances := w.session.instances + 1 } } :=
    hw.leads_session (Regime.traces_calling.instances w.session _)
  -- The factory itself calls nobody, so the instance is all that is announced.
  have hcall : Event.isCall (.instanceMade (w.session.instances + 1)) = true := rfl
  obtain ⟨-, hcalls⟩ :=
    Act.announced (fun v hv => (hbody v hv trivial).1) hcall hcounted.lawful
  have hexec : factory.call.exec w = _ := Factory.exec_call factory w
  dsimp only
  rw [hexec]
  exact (congrArg (List.drop _) hcalls).trans List.drop_left

omit hB in
/-- What the hooks that are called for a phase keep to. -/
theorem conducts_hooksFor (phase : Phase) (active : Int) :
    ∀ hook ∈ hooksFor r.suite.levels phase active, ∀ procedure, hook.code = some procedure →
      procedure.Conducts .uncalled B := by
  intro hook hmem procedure hcode
  obtain ⟨level, hlevel, hhook⟩ := mem_hooksFor hmem
  exact hcodes _ (Suite.hook_mem_codes hlevel hhook hcode)

theorem follows_test {c : Candidate Procedure} (hunit : c.unit ∈ r.suite.units)
    (made : Except ErrorId Instance) :
    Ledger.Follows B
      (fun l => (∀ e, made = .error e → l.Recorded e) ∧ l.world.Seeded c.seed)
      (Act.observe do
        let target ← Act.resume made
        callHooks [target] (← r.hooks .beforeEach)
        r.callBody c target)
      (r.testLedger c made) fun outcome l => ∀ e, outcome = .error e → l.Recorded e := by
  cases made with
  | error e =>
      intro l hl hPl
      refine ⟨.refl hl, fun i hi => ?_, fun _ => rfl⟩
      cases hi
      exact hPl.1 e rfl
  | ok target =>
      have hbody := r.conduct_callBody Regime.traces_calling hB
        (fun code hmem label => (hcodes code hmem label).calling) hunit target
      have hbefore := Ledger.Follows.untilError hB (P := fun l => l.world.Seeded c.seed)
        (r.conducts_hooksFor hcodes .beforeEach c.seed.toNat) [target]
      have hall : Ledger.Follows B (fun l => l.world.Seeded c.seed) (Act.observe do
          callHooks [target] (hooksFor r.suite.levels .beforeEach c.seed.toNat)
          r.callBody c target) (r.testLedger c (.ok target))
          fun outcome l => ∀ e, outcome = .error e → l.Recorded e := by
        rw [Act.observe_bind]
        refine .bind hbefore fun outcome => ?_
        cases outcome with
        | ok _ =>
            exact .note hbody fun _ hw _ => r.announced_callBody hB hcodes hunit target hw
        | error e => exact .value fun l hl => hl
      -- The seed of the candidate is active, so the hooks are those resolved from it.
      refine (hall.congr fun l hl => ?_).conseq (fun l hl => hl.2) fun _ _ h => h
      rw [exec_observe, exec_observe]
      have hresumed : (do
        let target ← Act.resume (.ok target)
        callHooks [target] (← r.hooks .beforeEach)
        r.callBody c target : Act Unit) = (do
        callHooks [target] (← r.hooks .beforeEach)
        r.callBody c target) := rfl
      rw [hresumed, exec_bind_of_ok (r.exec_hooks hl .beforeEach)]

include haudience

omit hB hcodes in
theorem uncalled_notify (n : Notification ErrorId) :
    Conduct .uncalled noComplaint (audience.notify n) :=
  Audience.conduct_notify Regime.heard_uncalled (fun _ _ _ => rfl) haudience n

omit hB hcodes in
/-- Reporting is no call, and succeeds if the errors can be reported. -/
theorem follows_report {P : Ledger → Prop} (hP : Ledger.Kept B P) {act : Act Unit}
    {F : (Complaint → Prop) → World → Prop}
    (hact : ∀ {C N : Complaint → Prop}, AdmitsValue C N →
      (∀ n, Conduct .uncalled N (audience.notify n)) →
        Triple .uncalled (F C) act (fun _ _ => True) (Blames N))
    (hany : ∀ l, P l → F anyComplaint l.world)
    (hreportable : ∀ l, P l → l.Reportable → F Complaint.Reportable l.world) :
    Ledger.Follows B P act (Ledger.meanwhile act) fun _ => P := by
  refine .meanwhile hP (fun l hl hPl => ?_) fun l hl hPl hrep => ?_
  · have hsound := hact (C := anyComplaint) (N := anyComplaint) (fun _ _ _ => trivial)
      fun n => (uncalled_notify haudience n).mono fun _ _ => trivial
    exact (hsound l.world hl (hany l hPl)).1
  · have hcalm := hact (C := Complaint.Reportable) (N := noComplaint)
      (fun _ hc hvalue => hc.2 hvalue) (uncalled_notify haudience)
    rcases hcalm.outcome hl (hreportable l hPl hrep) with
      ⟨_, v, hout, -, -⟩ | ⟨e, v, -, -, -, hnone⟩
    · rw [hout]
    · exact hnone.2.elim

omit hB hcodes in
/-- Reporting a recorded error while it is handled. -/
theorem follows_reportError {P : Ledger → Prop} (hP : Ledger.Kept B P)
    {act : ErrorId → Act Unit}
    (hact : ∀ {C N : Complaint → Prop} (e : ErrorId), AdmitsValue C N →
      (∀ n, Conduct .uncalled N (audience.notify n)) →
        Triple .uncalled (Blames C e) (act e) (fun _ _ => True) (Blames N)) (e : ErrorId) :
    Ledger.Follows B (fun l => l.Recorded e ∧ P l) (Act.whileHandling e (act e))
      (Ledger.meanwhile (Act.whileHandling e (act e))) fun _ => P := by
  have hreport : Ledger.Follows B (fun l => l.Recorded e ∧ P l) (Act.whileHandling e (act e))
      (Ledger.meanwhile (Act.whileHandling e (act e))) fun _ l => l.Recorded e ∧ P l := by
    refine follows_report haudience (F := fun C w => Blames C e w) ?_ ?_ ?_ ?_
    · exact fun l l' hextends hl => ⟨hextends.recorded hl.1, hP l l' hextends hl.2⟩
    · intro C N hvalue hnotify
      exact ((Triple.whileHandling (hact e hvalue hnotify) (robust_blames C e)
        (fun _ => Triple.robust_true) (robust_blames N))).pre fun _ _ h => ⟨h, h.1⟩
    · exact fun l hl => ⟨hl.1.1, trivial⟩
    · exact fun l hl hrep => (hl.1.blames hrep).mono fun _ hc => hc.1
  exact hreport.conseq (fun _ h => h) fun _ _ h => h.2

omit hB hcodes in
theorem follows_reportOutcomes {P : Ledger → Prop} (hP : Ledger.Kept B P) (name : String)
    (seeds : List Seed) (outcomes : List (Hook Procedure × Option ErrorId)) :
    Ledger.Follows B (fun l => Ledger.OutcomesRecorded outcomes l ∧ P l)
      (r.reportOutcomes audience name seeds outcomes)
      (Ledger.meanwhile (r.reportOutcomes audience name seeds outcomes)) fun _ => P := by
  have hreport : Ledger.Follows B (fun l => Ledger.OutcomesRecorded outcomes l ∧ P l)
      (r.reportOutcomes audience name seeds outcomes)
      (Ledger.meanwhile (r.reportOutcomes audience name seeds outcomes))
      fun _ l => Ledger.OutcomesRecorded outcomes l ∧ P l := by
    refine follows_report haudience (F := fun C w => OutcomesBlame C outcomes w) ?_ ?_ ?_ ?_
    · intro l l' hextends hl
      exact ⟨fun outcome hmem e he => hextends.recorded (hl.1 outcome hmem e he),
        hP l l' hextends hl.2⟩
    · exact fun hvalue hnotify => r.conduct_reportOutcomes hvalue hnotify name seeds outcomes
    · exact fun l hl outcome hmem e he => ⟨(hl.1 outcome hmem e he).1, trivial⟩
    · exact fun l hl hrep outcome hmem e he =>
        ((hl.1 outcome hmem e he).blames hrep).mono fun _ hc => hc.1
  exact hreport.conseq (fun _ h => h) fun _ _ h => h.2

/-- Hooks that are all invoked, and reported in the end. -/
theorem follows_invokePhase {seed : Seed} (phase : Phase) (arguments : List Instance)
    (name : String) (seeds : List Seed) :
    Ledger.Follows B (fun l => l.world.Seeded seed)
      (do
        let outcomes ← invokeAll arguments (← r.hooks phase)
        r.reportOutcomes audience name seeds outcomes)
      (do
        let outcomes ← Ledger.each arguments (hooksFor r.suite.levels phase seed.toNat)
        Ledger.meanwhile (r.reportOutcomes audience name seeds outcomes))
      fun _ l => l.world.Seeded seed := by
  have heach := Ledger.Follows.each hB (P := fun _ => True)
    (r.conducts_hooksFor hcodes phase seed.toNat) arguments
  have hall : Ledger.Follows B (fun l => l.world.Seeded seed)
      (invokeAll arguments (hooksFor r.suite.levels phase seed.toNat) >>= fun outcomes =>
        r.reportOutcomes audience name seeds outcomes) _ fun _ l => l.world.Seeded seed :=
    .bind ((heach.keep (Ledger.kept_seeded seed)).conseq (fun _ h => ⟨trivial, h⟩)
      fun _ _ h => h) fun outcomes =>
        r.follows_reportOutcomes haudience (Ledger.kept_seeded seed) name seeds outcomes
  refine hall.congr fun l hl => ?_
  rw [exec_bind_of_ok (r.exec_hooks hl phase)]

/-- The set-up of a class follows its ledger. -/
theorem follows_setUpClass :
    Ledger.Follows B (fun l => l.world.Seeded r.master) (r.setUpClass audience)
      (r.setUpLedger audience) fun _ l => l.world.Seeded r.master := by
  have hkept := Ledger.kept_seeded (B := B) r.master
  have hcall : Ledger.Follows B (fun l => l.world.Seeded r.master)
      (Act.observe do callHooks [] (← r.hooks .beforeAll))
      (Ledger.untilError [] (hooksFor r.suite.levels .beforeAll r.master.toNat))
      fun outcome l => (∀ e, outcome = .error e → l.Recorded e) ∧ l.world.Seeded r.master := by
    have hhooks := Ledger.Follows.untilError hB (P := fun _ => True)
      (r.conducts_hooksFor hcodes .beforeAll r.master.toNat) []
    refine ((hhooks.keep hkept).conseq (fun _ h => ⟨trivial, h⟩) fun _ _ h => h).congr
      fun l hl => ?_
    rw [exec_observe, exec_observe, exec_bind_of_ok (r.exec_hooks hl .beforeAll)]
  -- To report an error is no call, so the ledger records nothing of it.
  have hreport : ∀ e, Ledger.Follows B (fun l => l.Recorded e ∧ l.world.Seeded r.master)
      (Act.whileHandling e do
        r.reportSuite audience e
        return false)
      (do
        Ledger.meanwhile (Act.whileHandling e (r.reportSuite audience e))
        return false)
      fun _ l => l.world.Seeded r.master := by
    intro e
    refine Ledger.Follows.conseq (Ledger.Follows.handled ?_ fun _ => false) (fun _ h => h)
      fun _ _ ⟨_, _, h⟩ => h
    exact follows_reportError haudience hkept
      (fun e hvalue hnotify => r.conduct_reportSuite hvalue hnotify e) e
  have hall : Ledger.Follows B (fun l => l.world.Seeded r.master)
      (Act.handle (do
        let _ ← (do callHooks [] (← r.hooks .beforeAll))
        return true) fun e => do
          r.reportSuite audience e
          return false)
      (r.setUpLedger audience) fun _ l => l.world.Seeded r.master := by
    refine .handleGiving (fun _ => true) hcall (fun _ => ?_) (fun e => ?_) ?_
    · exact .value fun _ h => h.2
    · exact (hreport e).conseq (fun l hl => ⟨hl.1 e rfl, hl.2⟩) fun _ _ h => h
    · exact fun e _ hl => hl.1 e rfl
  rwa [bind_assoc] at hall

/-- The test of a candidate is reported if it fails. -/
theorem follows_reportedTest {c : Candidate Procedure} (hunit : c.unit ∈ r.suite.units)
    (made : Except ErrorId Instance) :
    Ledger.Follows B
      (fun l => (∀ e, made = .error e → l.Recorded e) ∧ l.world.Seeded c.seed)
      (Act.handle
        (do
          let target ← Act.resume made
          callHooks [target] (← r.hooks .beforeEach)
          r.callBody c target)
        (r.reportCandidate audience c))
      (r.testLedger c made >>= r.outcomeLedger audience c) fun _ l => l.world.Seeded c.seed := by
  have hkept := Ledger.kept_seeded (B := B) c.seed
  have htest := ((r.follows_test hB hcodes hunit made).keep hkept).conseq
    (R := fun l => (∀ e, made = .error e → l.Recorded e) ∧ l.world.Seeded c.seed)
    (fun _ h => ⟨h, h.2⟩) fun _ _ h => h
  refine .handle htest (fun _ => ?_) (fun e => ?_) ?_
  · exact .value fun _ h => h.2
  · refine (follows_reportError haudience hkept (fun e hvalue hnotify =>
      r.conduct_reportCandidate hvalue hnotify c e) e).conseq (fun l h => ?_) fun _ _ h => h
    exact ⟨h.1 e rfl, h.2⟩
  · exact fun e l h => h.1 e rfl

/-- The execution of a candidate follows its ledger, whatever its factory makes. -/
theorem follows_visit {factory : Factory Procedure} (hfactory : r.suite.factory = some factory)
    {c : Candidate Procedure} (hunit : c.unit ∈ r.suite.units) :
    Ledger.Follows B (fun l => l.world.Seeded c.seed) (r.execute audience c)
      (r.visitLedger audience c) fun _ l => l.world.Seeded c.seed := by
  have hmade := (r.follows_makeInstance hB hcodes hfactory (P := fun _ => True)).keep
    (Ledger.kept_seeded c.seed)
  refine .bind (hmade.conseq (fun _ h => ⟨trivial, h⟩) fun _ _ h => h) fun made => ?_
  rw [← bind_assoc (r.testLedger c made) (r.outcomeLedger audience c)]
  refine .bind (r.follows_reportedTest hB hcodes haudience hunit made) fun _ => ?_
  obtain e | _ | number := made
  · exact .value fun _ h => h
  · exact .value fun _ h => h
  · exact r.follows_invokePhase hB hcodes haudience .afterEach [some number] c.name
      [r.master, c.seed]

/-- The execution of a candidate follows its ledger. -/
theorem follows_execute {factory : Factory Procedure}
    (hfactory : r.suite.factory = some factory) (hyields : factory.yields = true)
    {c : Candidate Procedure} (hunit : c.unit ∈ r.suite.units) :
    Ledger.Follows B (fun l => l.world.Seeded c.seed) (r.execute audience c)
      (r.executionLedger audience c) fun _ l => l.world.Seeded c.seed := by
  intro l hl hseeded
  rw [r.run_executionLedger hfactory hyields]
  exact r.follows_visit hB hcodes haudience hfactory hunit l hl hseeded

theorem follows_attend {factory : Factory Procedure}
    (hfactory : r.suite.factory = some factory) (hyields : factory.yields = true)
    {c : Candidate Procedure} (hunit : c.unit ∈ r.suite.units) :
    Ledger.Follows B (fun l => l.world.Seeded c.seed) (r.attend audience c)
      (r.attendanceLedger audience c) fun _ l => l.world.Seeded c.seed := by
  have hkept := Ledger.kept_seeded (B := B) c.seed
  have hnotify := uncalled_notify haudience
  have hbody : Ledger.Follows B (fun l => l.world.Seeded c.seed)
      (if r.ignores c then audience.notify { kind := .ignored, name := c.name }
        else r.execute audience c)
      (r.treatmentLedger audience c) fun _ l => l.world.Seeded c.seed := by
    unfold treatmentLedger
    split
    · exact .calmly hkept (hnotify _)
    · exact r.follows_execute hB hcodes haudience hfactory hyields hunit
  exact .bind (.calmly hkept (hnotify _)) fun _ => .andFinally hbody (.calmly hkept (hnotify _))

/-- A candidate leaves the stack as it found it. -/
theorem follows_runCandidate {factory : Factory Procedure}
    (hfactory : r.suite.factory = some factory) (hyields : factory.yields = true)
    {c : Candidate Procedure} (hunit : c.unit ∈ r.suite.units) (seed : Seed) :
    Ledger.Follows B (fun l => l.world.Seeded seed) (r.runCandidate audience c)
      (r.candidateLedger audience c) fun _ l => l.world.Seeded seed :=
  .inScope (r.follows_attend hB hcodes haudience hfactory hyields hunit) seed

theorem follows_runCandidates {factory : Factory Procedure}
    (hfactory : r.suite.factory = some factory) (hyields : factory.yields = true)
    {cs : List (Candidate Procedure)} (hunits : ∀ c ∈ cs, c.unit ∈ r.suite.units) (seed : Seed) :
    Ledger.Follows B (fun l => l.world.Seeded seed) (r.runCandidates audience cs)
      (r.candidatesLedger audience cs) fun _ l => l.world.Seeded seed := by
  induction cs with
  | nil => exact .value fun _ h => h
  | cons c rest ih =>
      have hc := r.follows_runCandidate hB hcodes haudience hfactory hyields
        (hunits c List.mem_cons_self) seed
      exact .bind hc fun _ => ih fun c hmem => hunits c (List.mem_cons_of_mem _ hmem)

/-- The work of a run follows the ledger of its survivors. -/
theorem follows_survivors {factory : Factory Procedure}
    (hfactory : r.suite.factory = some factory) (hyields : factory.yields = true)
    {cs : List (Candidate Procedure)} (hunits : ∀ c ∈ cs, c.unit ∈ r.suite.units) :
    Ledger.Follows B (fun l => l.world.Seeded r.master)
      (if cs.isEmpty then r.enter .idle else r.runClass audience cs)
      (r.survivorsLedger audience cs) fun _ l => l.world.Seeded r.master := by
  have hkept := Ledger.kept_seeded (B := B) r.master
  have henter : ∀ state, Ledger.Follows B (fun l => l.world.Seeded r.master) (r.enter state)
      (Ledger.meanwhile (r.enter state)) fun _ l => l.world.Seeded r.master :=
    fun state => .calmly hkept (r.conduct_enter (fun _ _ => rfl) state)
  unfold survivorsLedger
  split
  · exact henter .idle
  · refine .bind (henter _) fun _ =>
      .bind (r.follows_setUpClass hB hcodes haudience) fun ready => ?_
    cases ready with
    | false => exact .value fun _ h => h
    | true =>
        exact .bind (henter _) fun _ =>
          .bind (r.follows_runCandidates hB hcodes haudience hfactory hyields hunits _) fun _ =>
            .bind (henter _) fun _ =>
              r.follows_invokePhase hB hcodes haudience .afterAll [] r.suite.name [r.master]

end Stages

/-! ## Runs -/

theorem prepares_uncalled : Regime.uncalled.Prepares where
  made s _ := s.calls_emit_of_not rfl
  state _ _ := rfl
  listeners _ _ := rfl
  declared _ _ := rfl
  subscribed _ _ _ := rfl

/-- Once its listeners are made, a run is prepared without a call. -/
theorem exec_prepare_uncalled
    (hcodes : ∀ code ∈ r.suite.codes, code.Conducts .uncalled anyComplaint) {w : World}
    (hw : w.Lawful)
    (hlisteners : ((r.subscribeFrom 0 r.suite.listeners).exec (r.entered w)).1 = .ok ()) :
    ∃ v, r.prepare.exec (r.entered w) = (.ok (r.survivors (r.inForce w)), v) ∧
      Regime.uncalled.Leads (r.entered w) v := by
  have hprepare := (r.conduct_prepare prepares_uncalled hcodes _ (r.entered_lawful hw) trivial).1
  have hexec := r.exec_prepare (r.entered w)
  rw [← Prod.eta ((r.subscribeFrom 0 r.suite.listeners).exec (r.entered w)), hlisteners] at hexec
  rw [hexec] at hprepare
  exact ⟨_, hexec, hprepare⟩

/-- The work of a run follows its ledger. -/
theorem ledger_spec (hB : Complains B) (hcodes : ∀ code ∈ r.suite.codes, code.Conducts .uncalled B)
    (haudience : audience.Conducts .uncalled noComplaint) (hexpands : r.Expands)
    {factory : Factory Procedure} (hfactory : r.suite.factory = some factory)
    (hyields : factory.yields = true) {w : World} (hw : w.Lawful)
    (hlisteners : ((r.subscribeFrom 0 r.suite.listeners).exec (r.entered w)).1 = .ok ()) :
    ∃ v, v.session.calls = w.session.calls ∧
      Ledger.Extends B { world := v } (r.ledger audience w) ∧
      (r.ledger audience w).world.Seeded r.master ∧
      ((r.ledger audience w).Reportable →
        (r.runSurvivors audience).exec (r.entered w) = (.ok (), (r.ledger audience w).world)) := by
  have hany : ∀ code ∈ r.suite.codes, code.Conducts .uncalled anyComplaint :=
    fun code hmem label => (hcodes code hmem label).mono fun _ _ => trivial
  obtain ⟨v, hexec, hleads⟩ := r.exec_prepare_uncalled hany hw hlisteners
  have hunits : ∀ c ∈ r.survivors (r.inForce w), c.unit ∈ r.suite.units :=
    fun c hc => hexpands c (r.mem_candidates_of_mem_survivors hc)
  obtain ⟨hextends, hseeded, hrun⟩ := r.follows_survivors hB hcodes haudience hfactory hyields
    hunits { world := v } hleads.lawful (hleads.seeded trivial (r.seeded_entered w))
  have hledger : r.ledger audience w =
      ((r.survivorsLedger audience (r.survivors (r.inForce w))).run { world := v }).2 := by
    rw [ledger, hexec]
  rw [hledger]
  refine ⟨v, hleads.step, hextends, hseeded, fun hreportable => ?_⟩
  rw [runSurvivors, exec_bind_of_ok hexec]
  exact hrun hreportable

end Runner

/-- Scripts that do not move on the stack rewind it, and call nothing. -/
theorem Script.permits_uncalled : Permits .uncalled anyComplaint Step.moves := by
  apply permits_complaints
  case moves =>
    intro step hmoves hsort
    rw [hmoves] at hsort
    cases hsort
  case report =>
    intro s event hevent
    apply s.calls_emit_of_not
    cases event <;> first | rfl | cases hevent
  all_goals
    intros
    rfl

/-- A suite that holds up to its checks has a factory. -/
theorem Suite.exists_factory {Code : Type} {suite : Suite Code} (h : suite.violations = []) :
    ∃ factory, suite.factory = some factory := by
  cases hfactory : suite.factory with
  | some factory => exact ⟨factory, rfl⟩
  | none =>
      unfold violations at h
      rw [hfactory] at h
      simp [flag] at h

/-- The factory of a suite that is run yields if that of its scripts does. -/
theorem Runner.exists_factory_of_make {host : Host} {suite : Suite Script}
    {config : Option RunConfig} {sequence sequence' : Nat} {r : Runner Procedure}
    (hmake : make (Script.suiteProcedures host suite) config host sequence = .ok (r, sequence'))
    (hyields : ∀ factory, suite.factory = some factory → factory.yields = true) :
    ∃ factory, r.suite.factory = some factory ∧ factory.yields = true := by
  obtain ⟨hviolations, checked, -, hmade⟩ := make_eq_ok hmake
  obtain ⟨factory, hfactory⟩ := Suite.exists_factory hviolations
  refine ⟨factory, by rw [hmade.suite_eq]; exact hfactory, ?_⟩
  obtain ⟨name, declared, units, levels, metadata, listeners, rules⟩ := suite
  rw [Script.suiteProcedures] at hfactory
  cases declared with
  | none => cases hfactory
  | some declared =>
      rw [Script.factoryProcedure?, Script.factoryProcedure] at hfactory
      cases hfactory
      exact hyields declared rfl

section Made

variable {host : Host} {suite : Suite Script} {config : Option RunConfig}
  {sequence sequence' : Nat} {r : Runner Procedure}
  (hmake : Runner.make (Script.suiteProcedures host suite) config host sequence =
    .ok (r, sequence'))
  {declarations : List NotifierProgram.Declaration}
  (hdeclarations : ∀ declaration ∈ declarations, ∀ script ∈ declaration.scripts,
    Script.avoids Script.Step.moves script = true)

include hmake hdeclarations

/-- Listeners do not call, and do not raise once they are calmed. -/
theorem Runner.uncalled_audienceFor_of_make
    (hsuite : ∀ script ∈ suite.codes, Script.avoids Script.Step.moves script = true) :
    (r.audienceFor host declarations).calmed.Conducts .uncalled noComplaint :=
  Audience.conducts_calmed
    (conducts_of_make hmake Script.permits_uncalled hsuite hdeclarations).2

/-- The errors of scripts that do not offend can be reported. -/
theorem Runner.reportable_ledger_of_make
    (hsuite : ∀ script ∈ suite.codes, Script.avoids Script.Step.moves script = true)
    (hoffends : ∀ script ∈ suite.codes,
      Script.avoids (fun step => step.moves || step.offends) script = true)
    (hyields : ∀ factory, suite.factory = some factory → factory.yields = true)
    {w : World} (hw : w.Lawful)
    (hlisteners : ((r.subscribeFrom 0 r.suite.listeners).exec (r.entered w)).1 = .ok ()) :
    (r.ledger (r.audienceFor host declarations).calmed w).Reportable := by
  have hcodes := codes_of_make hmake fun script hscript =>
    Script.conducts Script.permits_uncalled.reportable (hoffends script hscript)
  obtain ⟨factory, hfactory, hyield⟩ := exists_factory_of_make hmake hyields
  obtain ⟨v, -, hextends, -, -⟩ := r.ledger_spec complains_reportable hcodes
    (uncalled_audienceFor_of_make hmake hdeclarations hsuite) (expands_of_make hmake) hfactory
    hyield hw hlisteners
  exact hextends.reportable_of_sort (List.forall_mem_nil _)

end Made

/-- In a run in which no listener raises, all declared listeners are made, scripts do not move on
the stack and errors can be reported, the calls are those of the ledger, each with the events that
are due to it, and the run returns. -/
theorem Runner.run_follows_ledger {host : Host} {suite : Suite Script}
    {config : Option RunConfig} {sequence sequence' : Nat} {r : Runner Procedure}
    (hmake : make (Script.suiteProcedures host suite) config host sequence = .ok (r, sequence'))
    {declarations : List NotifierProgram.Declaration}
    (hsuite : ∀ script ∈ suite.codes, Script.avoids Script.Step.moves script = true)
    (hdeclarations : ∀ declaration ∈ declarations, ∀ script ∈ declaration.scripts,
      Script.avoids Script.Step.moves script = true)
    (hyields : ∀ factory, suite.factory = some factory → factory.yields = true)
    {w : World} (hw : w.Lawful)
    (hlisteners : ((r.subscribeFrom 0 r.suite.listeners).exec (r.entered w)).1 = .ok ())
    (hundisturbed : r.Undisturbed (r.audienceFor host declarations) w)
    (hreportable : (r.ledger (r.audienceFor host declarations).calmed w).Reportable) :
    ∃ v, (r.run (r.audienceFor host declarations)).exec w = (.ok (), v) ∧
      v.session.calls = w.session.calls ++
        (r.ledger (r.audienceFor host declarations).calmed w).records.flatMap (·.events) ∧
      ∀ record ∈ (r.ledger (r.audienceFor host declarations).calmed w).records,
        record.Announced := by
  have hcodes := codes_of_make hmake fun script hscript =>
    Script.conducts Script.permits_uncalled (hsuite script hscript)
  have haudience := uncalled_audienceFor_of_make hmake hdeclarations hsuite
  obtain ⟨factory, hfactory, hyield⟩ := exists_factory_of_make hmake hyields
  obtain ⟨v, hcalls, hextends, hseeded, hrun⟩ := r.ledger_spec complains_any hcodes haudience
    (expands_of_make hmake) hfactory hyield hw hlisteners
  rw [← hundisturbed]
  generalize r.ledger (r.audienceFor host declarations).calmed w = l at *
  obtain ⟨new, hnew, hall, hmade⟩ := hextends.records
  rw [List.nil_append] at hnew
  subst hnew
  obtain ⟨u, hclose, htrace⟩ := r.exec_close hseeded
  have hwork : (Act.andFinally (r.runSurvivors (r.audienceFor host declarations).calmed)
      r.close).exec (r.entered w) = (.ok (), u) := by
    rw [exec_andFinally, hrun hreportable]
    exact hclose
  obtain ⟨last, -, hexec⟩ := r.exec_run (sound_codes_of_make hmake)
    (sound_calmed_of_make hmake declarations) (expands_of_make hmake) hw hwork
  refine ⟨_, hexec, ?_, fun record hmem => (hmade record hmem).1⟩
  have hclosed : u.session.calls = l.world.session.calls := by
    rw [Session.calls, htrace]
    rfl
  change u.session.calls = _
  rw [hclosed, hall, hcalls]

/-- A suite with an error in every place: in its hooks, in a test, and in the tear-down. -/
def failingSuite : Suite Script where
  name := "Failing"
  factory := some { code := [.seed] }
  units := [
    { name := "refuses", body := some [.raise
        [{ error := { complaint := ⟨.named "Sealed", none⟩ } }]] },
    { name := "rests", ignored := true, body := some [.fraction] },
    { name := "draws", body := some [.fraction] }]
  levels := [{
    owner := "Failing"
    beforeEach := [{ name := "prepare", label := "prepare", code := some [.fraction] }]
    afterEach := [{
      name := "restore", label := "restore"
      code := some [.raise [{ error := { complaint := ⟨.named "RuntimeError", some "left"⟩ } }]] }]
    afterAll := [{ name := "finish", label := "finish", code := some [.assume false "done"] }] }]

/-- The calls of a failing suite are those of its ledger. -/
theorem Runner.run_failingSuite :
    ∃ r sequence, make (Script.suiteProcedures {} failingSuite) (some .unset) {} 0 =
        .ok (r, sequence) ∧
      let w : World := { session := { subscribed := [.caller 0] } }
      ∃ v, (r.run (r.audienceFor {} [.recording])).exec w = (.ok (), v) ∧
        v.session.calls = w.session.calls ++
          (r.ledger (r.audienceFor {} [.recording]).calmed w).records.flatMap (·.events) ∧
        ∀ record ∈ (r.ledger (r.audienceFor {} [.recording]).calmed w).records,
          record.Announced := by
  obtain ⟨r, sequence, hmake⟩ : ∃ r sequence, make (Script.suiteProcedures {} failingSuite)
      (some .unset) {} 0 = .ok (r, sequence) := exists_make (by decide +kernel) (by decide) {} 0
  refine ⟨r, sequence, hmake, ?_⟩
  have hlisteners : r.suite.listeners = [] := by
    obtain ⟨-, checked, -, hmade⟩ := make_eq_ok hmake
    rw [hmade.suite_eq]
    rfl
  have hyields : ∀ factory, failingSuite.factory = some factory → factory.yields = true := by
    rintro factory ⟨⟩
    rfl
  intro w
  have hsubscribed : ((r.subscribeFrom 0 r.suite.listeners).exec (r.entered w)).1 = .ok () := by
    rw [hlisteners]
    rfl
  exact run_follows_ledger hmake (by decide) (by decide) hyields (World.lawful_initial _)
    hsubscribed (undisturbed_of_make hmake rfl (by decide) _)
    (reportable_ledger_of_make hmake (by decide) (by decide) (by decide) hyields
      (World.lawful_initial _) hsubscribed)

end SeededTesting
