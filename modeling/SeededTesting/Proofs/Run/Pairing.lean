import SeededTesting.Proofs.DisplayName.Clashes
import SeededTesting.Proofs.Run.Executions
import SeededTesting.Proofs.Run.LifecycleRefinement

/-! # Set-up and tear-down

Once the factory has made an instance, a candidate is set up: hooks before it are called with the
instance, and its body is. Whichever of these raises, every hook after it is called with the same
instance, once, and only then is the end of the candidate told. An instance that is none is set up
all the same, but no hook after it is called.
-/

namespace SeededTesting

open Act

/-! ## Calls of ledgers -/

namespace Ledger

/-- The calls that were made. -/
def calls (l : Ledger) : List Call :=
  l.records.map (·.call)

@[simp]
theorem calls_note {α : Type} (call : Call) (act : Act α) (l : Ledger) :
    ((note call act).run l).2.calls = l.calls ++ [call] :=
  List.map_append

@[simp]
theorem calls_meanwhile (act : Act Unit) (l : Ledger) :
    ((meanwhile act).run l).2.calls = l.calls := rfl

/-- All hooks are called if each is to be. -/
theorem calls_each (arguments : List Instance) (hooks : List (Hook Procedure)) (l : Ledger) :
    ((each arguments hooks).run l).2.calls = l.calls ++ hooks.map (Call.hook · arguments) := by
  induction hooks generalizing l with
  | nil => exact (List.append_nil _).symm
  | cons hook rest ih =>
      have hrest : ((each arguments (hook :: rest)).run l).2 = ((each arguments rest).run
          ((note (.hook hook arguments) (hook.call arguments)).run l).2).2 := rfl
      rw [hrest, ih, calls_note, List.append_assoc]
      rfl

/-- Hooks are called up to one that raises, if one does. -/
theorem calls_untilError (arguments : List Instance) (hooks : List (Hook Procedure)) (l : Ledger) :
    ∃ called, called <+: hooks.map (Call.hook · arguments) ∧
      ((untilError arguments hooks).run l).2.calls = l.calls ++ called ∧
      match ((untilError arguments hooks).run l).1 with
      | .ok () => called = hooks.map (Call.hook · arguments)
      | .error _ => called ≠ [] := by
  induction hooks generalizing l with
  | nil => exact ⟨[], List.prefix_rfl, (List.append_nil _).symm, rfl⟩
  | cons hook rest ih =>
      have hcalls := calls_note (.hook hook arguments) (hook.call arguments) l
      unfold untilError
      rw [Follows.run_bind]
      generalize (note (.hook hook arguments) (hook.call arguments)).run l = result at hcalls ⊢
      obtain ⟨_ | _, l'⟩ := result
      · exact ⟨[.hook hook arguments], List.prefix_append _ _, hcalls, List.cons_ne_nil _ _⟩
      · obtain ⟨called, hprefix, hrest, houtcome⟩ := ih l'
        refine ⟨.hook hook arguments :: called, List.cons_prefix_cons.mpr ⟨rfl, hprefix⟩, ?_, ?_⟩
        · exact hrest.trans (by rw [hcalls, List.append_assoc]; rfl)
        · dsimp only
          generalize ((untilError arguments rest).run l').1 = outcome at houtcome ⊢
          cases outcome with
          | ok _ => exact congrArg (Call.hook hook arguments :: ·) houtcome
          | error _ => exact List.cons_ne_nil _ _

end Ledger

/-! ## Calls for a candidate -/

namespace Runner

variable (r : Runner Procedure) (audience : Audience) (c : Candidate Procedure)

/-- The calls that set an instance up: the hooks before the candidate, and its body. -/
def setUpCalls (target : Instance) : List Call :=
  (hooksFor r.suite.levels .beforeEach c.seed.toNat).map (Call.hook · [target]) ++ [.body r c target]

/-- The calls that tear an instance down: the hooks after the candidate. -/
def tearDownCalls (target : Instance) : List Call :=
  (hooksFor r.suite.levels .afterEach c.seed.toNat).map (Call.hook · [target])

/-- The calls that are made for a candidate, by what its factory made: an instance is set up by at
least one call, up to some call, and then torn down by all of them, unless it is none. -/
def Paired : Except ErrorId Instance → List Call → Prop
  | .error _, calls => calls = [.factory]
  | .ok target, calls => ∃ called, called ≠ [] ∧ called <+: r.setUpCalls c target ∧
    calls = .factory :: (called ++ if target.isSome then r.tearDownCalls c target else [])

theorem calls_testLedger (target : Instance) (l : Ledger) :
    ∃ called, called ≠ [] ∧ called <+: r.setUpCalls c target ∧
      ((r.testLedger c (.ok target)).run l).2.calls = l.calls ++ called := by
  obtain ⟨called, hprefix, hcalls, houtcome⟩ := Ledger.calls_untilError [target]
    (hooksFor r.suite.levels .beforeEach c.seed.toNat) l
  unfold testLedger setUpCalls
  rw [Ledger.Follows.run_bind]
  generalize (Ledger.untilError [target] _).run l = result at hcalls houtcome ⊢
  obtain ⟨_ | _, l'⟩ := result
  · exact ⟨called, houtcome, hprefix.trans (List.prefix_append _ _), hcalls⟩
  · refine ⟨called ++ [.body r c target], List.append_ne_nil_of_right_ne_nil _ (List.cons_ne_nil _ _),
      ?_, ?_⟩
    · dsimp only at houtcome
      rw [houtcome]
    · dsimp only at hcalls ⊢
      rw [Ledger.calls_note, hcalls, List.append_assoc]

theorem calls_outcomeLedger (outcome : Except ErrorId Unit) (l : Ledger) :
    ((r.outcomeLedger audience c outcome).run l).2.calls = l.calls := by
  cases outcome <;> rfl

theorem calls_tidyLedger (target : Instance) (l : Ledger) :
    ((r.tidyLedger audience c (.ok target)).run l).2.calls =
      l.calls ++ if target.isSome then r.tearDownCalls c target else [] := by
  cases target with
  | none => exact (List.append_nil _).symm
  | some number =>
      exact Ledger.calls_each [some number] (hooksFor r.suite.levels .afterEach c.seed.toNat) l

/-- In an execution every set-up is paired with a tear-down, unless the instance is none. -/
theorem paired_visitLedger (u : World) :
    r.Paired c (r.makeInstance.exec u).1
      ((r.visitLedger audience c).run { world := u }).2.calls := by
  let l : Ledger := ((Ledger.note .factory r.makeInstance).run { world := u }).2
  have hrun : (r.visitLedger audience c).run { world := u } = (do
      r.outcomeLedger audience c (← r.testLedger c (r.makeInstance.exec u).1)
      r.tidyLedger audience c (r.makeInstance.exec u).1 : Bookkeeping Unit).run l := rfl
  have hmade : l.calls = [.factory] := Ledger.calls_note .factory r.makeInstance { world := u }
  rw [hrun]
  -- What becomes of the test is reported, which is no call; only the factory decides the rest.
  rcases (r.makeInstance.exec u).1 with e | target
  · have htest : (r.testLedger c (.error e)).run l = (.error e, l) := rfl
    rw [Ledger.Follows.run_bind, htest, Ledger.Follows.run_bind]
    exact (r.calls_outcomeLedger audience c (.error e) l).trans hmade
  · obtain ⟨called, hne, hprefix, hcalls⟩ := r.calls_testLedger c target l
    refine ⟨called, hne, hprefix, ?_⟩
    rw [Ledger.Follows.run_bind, Ledger.Follows.run_bind, calls_tidyLedger, calls_outcomeLedger,
      hcalls, hmade, List.append_assoc]
    rfl

/-! ## Executions within runs -/

variable {r audience c} {s t u v w : World}

/-- While a candidate is executed its own seed is active. -/
theorem seeded_of_push {seed : Seed} (hs : s.Seeded seed)
    (hpush : (Act.push (.fresh c.seed)).exec s = (.ok (), t)) :
    ∃ context outer, s.contexts = context :: outer ∧
      t = s.within ({ context with stack := .fresh c.seed :: context.stack } :: outer) := by
  obtain ⟨context, outer, source, rest, hcontexts, -⟩ := hs
  rw [exec_push, hcontexts] at hpush
  cases hpush
  exact ⟨_, _, hcontexts, rfl⟩

section Executed

variable (haudience : audience.Conducts .uncalled noComplaint) (hs : s.Lawful) {seed : Seed}
  (hseeded : s.Seeded seed)
  (hexecuted : r.executed? audience (.candidate c, s) = some (c, u))

include haudience hs hseeded hexecuted

/-- A candidate is executed after its start was told, with its own seed active. -/
theorem leads_executed : ∃ t, (Act.push (.fresh c.seed)).exec s = (.ok (), t) ∧
    (audience.notify { kind := .started, name := c.name }).exec t = (.ok (), u) ∧
    Regime.uncalled.Leads t u ∧ u.Seeded c.seed := by
  obtain ⟨-, -, t, hpush, hstart⟩ := executed?_eq_some_iff.mp hexecuted
  obtain ⟨context, outer, hcontexts, ht⟩ := seeded_of_push hseeded hpush
  have hlawful : t.Lawful := by
    rw [ht]
    exact ⟨hs.errors, hs.handling⟩
  have hown : t.Seeded c.seed := by
    rw [ht]
    exact ⟨context, outer, .fresh c.seed, context.stack, rfl, rfl⟩
  have hstarted := (uncalled_notify haudience { kind := .started, name := c.name } t hlawful
    trivial).1
  rw [hstart] at hstarted
  exact ⟨t, hpush, hstart, hstarted, hstarted.seeded trivial hown⟩

/-- Where an execution returns the end of the candidate is told next, and nothing is called from
there on to the end of its stage. -/
theorem exec_of_executed (hexecute : (r.execute audience c).exec u = (.ok (), v))
    (hleads : Regime.calling.Leads u v) :
    (∃ t, (Act.push (.fresh c.seed)).exec s = (.ok (), t) ∧
        (audience.notify { kind := .started, name := c.name }).exec t = (.ok (), u) ∧
        (r.attend audience c).exec t =
          (audience.notify { kind := .finished, name := c.name }).exec v) ∧
      ((r.perform audience (.candidate c)).exec s).2.session.calls = v.session.calls := by
  obtain ⟨t, hpush, hstart, hstarted, -⟩ := leads_executed haudience hs hseeded hexecuted
  obtain ⟨-, hignored, -⟩ := executed?_eq_some_iff.mp hexecuted
  have hattend : (r.attend audience c).exec t =
      (audience.notify { kind := .finished, name := c.name }).exec v := by
    rw [attend, exec_bind_of_ok hstart, if_neg (Bool.eq_false_iff.mp hignored), exec_andFinally,
      hexecute]
  refine ⟨⟨t, hpush, hstart, hattend⟩, ?_⟩
  -- Nothing that is done for a candidate leaves its scope, so that only its seed is popped.
  have hfinished := (uncalled_notify haudience { kind := .finished, name := c.name } v
    hleads.lawful trivial).1
  have hrewound := (hstarted.calling.trans (hleads.trans hfinished.calling)).rewound trivial
  have hcalls : Session.calls _ = v.session.calls := hfinished.step
  rw [← hattend] at hrewound hcalls
  obtain ⟨context, outer, hcontexts, rfl⟩ := seeded_of_push hseeded hpush
  have hscope := exec_inScope hcontexts (Prod.eta _).symm hrewound
  have hstage : ((r.perform audience (.candidate c)).exec s).2 =
      ((r.runCandidate audience c).exec s).2 := by
    rw [perform, exec_bind]
    rcases (r.runCandidate audience c).exec s with ⟨_ | _, _⟩ <;> rfl
  rw [hstage, runCandidate, hscope, session_leaving_resume]
  exact hcalls

end Executed

section Made

variable {host : Host} {suite : Suite Script} {config : Option RunConfig}
  {sequence sequence' : Nat}
  (hmake : make (Script.suiteProcedures host suite) config host sequence = .ok (r, sequence'))
  (hsuite : ∀ script ∈ suite.codes, Script.avoids Script.Step.moves script = true)
  {declarations : List NotifierProgram.Declaration}
  (hdeclarations : ∀ declaration ∈ declarations, ∀ script ∈ declaration.scripts,
    Script.avoids Script.Step.moves script = true)
  (hw : w.Lawful)
  (hexecuted : (c, u) ∈ r.executed (r.audienceFor host declarations).calmed w)

include hmake hsuite hdeclarations hw hexecuted

/-- The stage of an executed candidate is begun with the seed of the run active, and the calls that
were made by its end are calls of the run. -/
theorem begun_of_executed :
    ∃ s, (.candidate c, s) ∈ r.begun (r.audienceFor host declarations).calmed w ∧
      r.executed? (r.audienceFor host declarations).calmed (.candidate c, s) = some (c, u) ∧
      c.unit ∈ r.suite.units ∧ s.Lawful ∧ s.Seeded r.master ∧
      ((r.perform (r.audienceFor host declarations).calmed (.candidate c)).exec s).2.session.calls
        <+: ((r.run (r.audienceFor host declarations).calmed).exec w).2.session.calls := by
  have hexpands := expands_of_make hmake
  have hcodes : ∀ code ∈ r.suite.codes, code.Conducts .calling anyComplaint :=
    codes_of_make hmake fun script hscript label =>
      (Script.conducts Script.permits_uncalled (hsuite script hscript) label).calling
  have haudience : (r.audienceFor host declarations).calmed.Conducts .calling anyComplaint :=
    fun listener tag reactions hlistener kind label =>
      ((uncalled_audienceFor_of_make hmake hdeclarations hsuite listener tag reactions hlistener
        kind label).mono fun _ _ => trivial).calling
  obtain ⟨s, hbegun, hcandidate⟩ := mem_executed_iff.mp hexecuted
  obtain ⟨hmem, hleads, hend⟩ := leads_begunFrom Regime.works_calling hcodes haudience
    (fun c hc => unit_mem_of_mem_stages hexpands hc) (r.entered_lawful hw) hbegun
  refine ⟨s, hbegun, hcandidate, unit_mem_of_mem_stages hexpands hmem, hleads.lawful,
    hleads.seeded trivial (r.seeded_entered w), ?_⟩
  -- After the last stage nothing more is called.
  have hquiet := quiet_performAll (sound_codes_of_make hmake)
    (sound_calmed_of_make hmake declarations) hexpands hw
  have hcalls : Session.calls _ <+: Session.calls _ := hend.step
  rw [Session.calls, Session.calls, ← hquiet.trace] at hcalls
  exact hcalls

/-- An execution follows its ledger. -/
theorem visit_of_executed {B : Complaint → Prop} (hB : Complains B)
    (hcodes : ∀ code ∈ r.suite.codes, code.Conducts .uncalled B) :
    let l := ((r.visitLedger (r.audienceFor host declarations).calmed c).run { world := u }).2
    Ledger.Extends B { world := u } l ∧ (l.Reportable →
      (r.execute (r.audienceFor host declarations).calmed c).exec u = (.ok (), l.world)) := by
  have haudience := uncalled_audienceFor_of_make hmake hdeclarations hsuite
  obtain ⟨s, -, hcandidate, hunit, hs, hseeded, -⟩ :=
    begun_of_executed hmake hsuite hdeclarations hw hexecuted
  obtain ⟨t, -, -, hstarted, hown⟩ := leads_executed haudience hs hseeded hcandidate
  obtain ⟨factory, hfactory⟩ : ∃ factory, r.suite.factory = some factory := by
    obtain ⟨hviolations, checked, -, hmade⟩ := make_eq_ok hmake
    rw [hmade.suite_eq]
    exact Suite.exists_factory hviolations
  obtain ⟨hextends, -, hexecute⟩ := r.follows_visit hB hcodes haudience hfactory hunit
    { world := u } hstarted.lawful hown
  exact ⟨hextends, hexecute⟩

/-- The errors of scripts that do not offend can be reported. -/
theorem reportable_visitLedger
    (hoffends : ∀ script ∈ suite.codes,
      Script.avoids (fun step => step.moves || step.offends) script = true) :
    ((r.visitLedger (r.audienceFor host declarations).calmed c).run
      { world := u }).2.Reportable := by
  have hcodes := codes_of_make hmake fun script hscript =>
    Script.conducts Script.permits_uncalled.reportable (hoffends script hscript)
  obtain ⟨hextends, -⟩ := visit_of_executed hmake hsuite hdeclarations hw hexecuted
    complains_reportable hcodes
  exact hextends.reportable_of_sort (List.forall_mem_nil _)

end Made

end Runner

/-- In a run in which no listener raises and scripts do not move on the stack, the candidates that
are executed are torn down as they were set up: if the errors of its collaborators can be reported,
an execution calls the factory, at least one of the hooks before the candidate and its body with the
instance, and then, unless the instance is none, every hook after it of every level, once, with the
same instance. It returns whichever of them raised, the end of the candidate is told next, and the
calls are those that can be seen of the run. -/
theorem Runner.executed_paired {host : Host} {suite : Suite Script} {config : Option RunConfig}
    {sequence sequence' : Nat} {r : Runner Procedure}
    (hmake : make (Script.suiteProcedures host suite) config host sequence = .ok (r, sequence'))
    {declarations : List NotifierProgram.Declaration}
    (hsuite : ∀ script ∈ suite.codes, Script.avoids Script.Step.moves script = true)
    (hdeclarations : ∀ declaration ∈ declarations, ∀ script ∈ declaration.scripts,
      Script.avoids Script.Step.moves script = true) {w : World} (hw : w.Lawful)
    (hundisturbed : r.Undisturbed (r.audienceFor host declarations) w)
    {c : Candidate Procedure} {u : World}
    (hexecuted : (c, u) ∈ r.executed (r.audienceFor host declarations).calmed w)
    (hreportable : ((r.visitLedger (r.audienceFor host declarations).calmed c).run
      { world := u }).2.Reportable) :
    let audience := (r.audienceFor host declarations).calmed
    let l := ((r.visitLedger audience c).run { world := u }).2
    r.Paired c (r.makeInstance.exec u).1 l.calls ∧
      (hooksFor r.suite.levels .afterEach c.seed.toNat).Perm
        (r.suite.levels.flatMap (·.hooks .afterEach)) ∧
      (r.execute audience c).exec u = (.ok (), l.world) ∧
      (∃ s t, (.candidate c, s) ∈ r.begun audience w ∧
        (Act.push (.fresh c.seed)).exec s = (.ok (), t) ∧
        (audience.notify { kind := .started, name := c.name }).exec t = (.ok (), u) ∧
        (r.attend audience c).exec t =
          (audience.notify { kind := .finished, name := c.name }).exec l.world) ∧
      (∀ record ∈ l.records, record.Announced) ∧
      l.world.session.calls = u.session.calls ++ l.records.flatMap (·.events) ∧
      l.world.session.calls <+:
        ((r.run (r.audienceFor host declarations)).exec w).2.session.calls := by
  intro audience l
  have haudience := uncalled_audienceFor_of_make hmake hdeclarations hsuite
  have hcodes := codes_of_make hmake fun script hscript =>
    Script.conducts Script.permits_uncalled (hsuite script hscript)
  obtain ⟨s, hbegun, hcandidate, -, hs, hseeded, hprefix⟩ :=
    begun_of_executed hmake hsuite hdeclarations hw hexecuted
  obtain ⟨hextends, hexecute⟩ := visit_of_executed hmake hsuite hdeclarations hw hexecuted
    complains_any hcodes
  obtain ⟨⟨t, hpush, hstart, hattend⟩, hcalls⟩ := exec_of_executed haudience hs hseeded hcandidate
    (hexecute hreportable) hextends.leads
  obtain ⟨new, hnew, hall, hmade⟩ := hextends.records
  rw [List.nil_append] at hnew
  subst hnew
  rw [hcalls, hundisturbed] at hprefix
  exact ⟨r.paired_visitLedger audience c u, hooksFor_perm _ _ _, hexecute hreportable,
    ⟨s, t, hbegun, hpush, hstart, hattend⟩, fun record hmem => (hmade record hmem).1, hall, hprefix⟩

/-- What was called with which arguments. -/
def Event.call? : Event → Option (String × List Instance)
  | .called label arguments => some (label, arguments)
  | _ => none

/-- A suite whose candidate fails while it is set up, and again while it is torn down. -/
def lendingSuite : Suite Script where
  name := "Lending"
  factory := some { code := [.seed] }
  units := [{ name := "reads", body := some [.fraction] }]
  levels := [
    { owner := "Lending"
      beforeEach := [{
        name := "lend", label := "lend"
        code := some [.raise [{ error := { complaint := ⟨.named "RuntimeError", some "lost"⟩ } }]] }]
      afterEach := [{
        name := "shelve", label := "shelve", code := some [.assume false "still reading"] }] },
    { owner := "Library"
      beforeEach := [{ name := "open", label := "open", code := some [.depth] }]
      afterEach := [{ name := "close", label := "close", code := some [.fraction] }] }]

/-- The hooks before the candidate fail at the second one, those after it are all called. -/
theorem Runner.executed_paired_lendingSuite : ∃ r sequence,
    make (Script.suiteProcedures {} lendingSuite) (some .pinned) {} 0 = .ok (r, sequence) ∧
      let audience := (r.audienceFor {} [.recording]).calmed
      (r.executed audience {}).length = 1 ∧
        ((r.run (r.audienceFor {} [.recording])).exec {}).2.session.calls.filterMap Event.call? =
          [("open", [some 1]), ("lend", [some 1]), ("shelve", [some 1]), ("close", [some 1])] ∧
        ∀ c u, (c, u) ∈ r.executed audience {} →
          r.Paired c (r.makeInstance.exec u).1
            ((r.visitLedger audience c).run { world := u }).2.calls := by
  obtain ⟨made, hmake⟩ : ∃ made,
      make (Script.suiteProcedures {} lendingSuite) (some .pinned) {} 0 = .ok made := ⟨_, rfl⟩
  refine ⟨made.1, made.2, hmake, ?_, ?_, fun c u hexecuted => ?_⟩
  · cases hmake
    decide +kernel
  · cases hmake
    decide +kernel
  · have hw := World.lawful_initial {}
    have hreportable :=
      reportable_visitLedger hmake (by decide) (by decide) hw hexecuted (by decide)
    exact (executed_paired hmake (by decide) (by decide) hw
      (undisturbed_of_make hmake rfl (by decide) _) hexecuted hreportable).1

/-- A suite whose factory makes none, and whose candidate fails while it is set up. -/
def bareSuite : Suite Script where
  name := "Bare"
  factory := some { code := [], yields := false }
  units := [{ name := "reads", body := some [.fraction] }]
  levels := [{
    owner := "Bare"
    beforeEach := [{
      name := "open", label := "open"
      code := some [.raise [{ error := { complaint := ⟨.named "RuntimeError", some "stuck"⟩ } }]] }]
    afterEach := [{ name := "close", label := "close", code := some [] }] }]

/-- An instance that is none is set up and never torn down, though the run returns. -/
theorem Runner.unpaired_bareSuite : ∃ r sequence,
    make (Script.suiteProcedures {} bareSuite) (some .pinned) {} 0 = .ok (r, sequence) ∧
      (∀ script ∈ bareSuite.codes,
        Script.avoids (fun step => step.moves || step.offends) script = true) ∧
      (r.executed (r.audienceFor {} [.recording]) {}).length = 1 ∧
      (r.suite.levels.flatMap (·.hooks .afterEach)).map (·.label) = ["close"] ∧
      ((r.run (r.audienceFor {} [.recording])).exec {}).1.toBool = true ∧
      ((r.run (r.audienceFor {} [.recording])).exec {}).2.session.calls.filterMap Event.call? =
        [("open", [none])] := by
  obtain ⟨made, hmake⟩ : ∃ made,
      make (Script.suiteProcedures {} bareSuite) (some .pinned) {} 0 = .ok made := ⟨_, rfl⟩
  refine ⟨made.1, made.2, hmake, by decide, ?_⟩
  cases hmake
  decide +kernel

end SeededTesting
