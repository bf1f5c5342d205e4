import SeededTesting.Proofs.Run.Draws
import SeededTesting.Proofs.Run.Glances

/-! # Hook orders and draws do not interfere

The order of hooks follows from the active seed, and to find it nothing is drawn from the active
source. So hooks may be added and taken away without a change to what tests draw, and tests may draw
more or less without a change to the order of hooks.
-/

namespace SeededTesting

open Act

/-- Two runners of one configuration and one master seed, for suites of scripts.

If the suites differ in their hooks only, and all of these only look, the runs are the same but for
calls and for what is looked at. In particular the same values are drawn.

If the scripts differ in draws only, the runs are the same but for these, as long as no script
clears the stack, pops more than it has pushed, or moves sources within forks. In particular the
same hooks are called in the same order.

To put the hooks of a phase in order leaves the world as it is, and the order depends on the levels,
the phase and the active seed alone. -/
theorem Runner.noninterference {host origin origin' : Host} {suite suite' : Suite Script}
    {config : RunConfig} {sequence sequence' next next' : Nat} {r r' : Runner Procedure}
    (hmake : make (Script.suiteProcedures host suite) (some config) origin sequence =
      .ok (r, sequence'))
    (hmake' : make (Script.suiteProcedures host suite') (some config) origin' next =
      .ok (r', next'))
    (hmaster : r'.master = r.master) (declarations : List NotifierProgram.Declaration) (w : World) :
    let run := r.run (r.audienceFor host declarations)
    let run' := r'.run (r'.audienceFor host declarations)
    (suite' = { suite with levels := suite'.levels } →
        (∀ level ∈ suite.levels ++ suite'.levels, ∀ script ∈ level.codes,
          Script.glances script = true) →
        run'.shown Event.isGlance w = run.shown Event.isGlance w) ∧
      (suite'.map Script.undrawn = suite.map Script.undrawn →
        (∀ script ∈ suite.codes ++ suite'.codes ++ declarations.flatMap (·.scripts),
          Script.rooted 0 0 script = true) →
        run'.shown Event.isDraw w = run.shown Event.isDraw w) ∧
      ∀ phase v, ((r.hooks phase).exec v).2.contexts = v.contexts ∧
        ∀ (context : RunContext) outer source rest,
          v.contexts = { context with stack := source :: rest } :: outer →
            (r.hooks phase).exec v =
              (.ok (hooksFor r.suite.levels phase source.seed.toNat), v) := by
  intro run run'
  refine ⟨fun hsuite hlooks => ?_, fun hsuite hrooted => ?_, fun phase v => ⟨?_, ?_⟩⟩
  · exact shown_run_of_glancing hmake hmake' hmaster hsuite hlooks declarations w
  · obtain ⟨hcodes, hdeclarations⟩ := List.forall_mem_append.mp hrooted
    refine shown_run_of_undrawn hmake hmake' hmaster hsuite hcodes (fun declaration hmem script h =>
      hdeclarations script (List.mem_flatMap.mpr ⟨declaration, hmem, h⟩)) w
  · rw [exec_hooks_eq]
    split
    · rw [exec_complain]
    · split
      · rw [exec_complain]
      · rfl
  · intro context outer source rest hcontexts
    rw [exec_hooks_eq, hcontexts]

/-- A suite with one test and one level of hooks. -/
def leafSuite (body : Script) (beforeEach afterEach : List (Hook Script)) : Suite Script where
  name := "Drawn"
  factory := some { code := [] }
  units := [{ name := "leaves", body := some body }]
  levels := [{ owner := "Drawn", beforeEach, afterEach }]

/-- A configuration with a master seed. -/
def seededConfig : RunConfig where
  seed := some "[1]"
  chain := [1]
  seeds_eq := by decide +kernel
  iterations_pos := RunConfig.unset.iterations_pos

/-- A test draws the same values with a hook before it that looks around, and its other hook is
called with draws and without. -/
theorem Runner.noninterference_leafSuite :
    let close : Hook Script := { name := "close", label := "close", code := some [.context] }
    let look : Hook Script := { name := "look", label := "look", code := some [.seed, .depth] }
    let body : Script := [.fraction, .fork [.bits 8], .push 3, .pop]
    let run (r : Runner Procedure) := r.run (r.audienceFor {} [.recording])
    ∃ plain looked undrawn n n' n'',
      make (Script.suiteProcedures {} (leafSuite body [] [close])) (some seededConfig) {} 0 =
          .ok (plain, n) ∧
        make (Script.suiteProcedures {} (leafSuite body [look] [close])) (some seededConfig) {} 0 =
          .ok (looked, n') ∧
        make (Script.suiteProcedures {} (leafSuite [.push 3, .pop] [] [close])) (some seededConfig)
          {} 0 = .ok (undrawn, n'') ∧
        (run looked).shown Event.isGlance {} = (run plain).shown Event.isGlance {} ∧
        ((run plain).shown Event.isGlance {}).2.length = 5 ∧
        (run undrawn).shown Event.isDraw {} = (run plain).shown Event.isDraw {} ∧
        ((run plain).shown Event.isDraw {}).2.length = 5 := by
  intro close look body run
  obtain ⟨⟨plain, n⟩, hplain, hmaster, hglances, hdraws⟩ : ∃ made,
      make (Script.suiteProcedures {} (leafSuite body [] [close])) (some seededConfig) {} 0 =
          .ok made ∧
        made.1.master = 1 ∧
        ((run made.1).shown Event.isGlance {}).2.length = 5 ∧
        ((run made.1).shown Event.isDraw {}).2.length = 5 :=
    exists_ok_of_any (by decide +kernel)
  obtain ⟨⟨looked, n'⟩, hlooked, hlookedMaster⟩ : ∃ made,
      make (Script.suiteProcedures {} (leafSuite body [look] [close])) (some seededConfig) {} 0 =
          .ok made ∧ made.1.master = 1 :=
    exists_ok_of_any (by decide +kernel)
  obtain ⟨⟨undrawn, n''⟩, hundrawn, hundrawnMaster⟩ : ∃ made,
      make (Script.suiteProcedures {} (leafSuite [.push 3, .pop] [] [close])) (some seededConfig)
          {} 0 = .ok made ∧ made.1.master = 1 :=
    exists_ok_of_any (by decide +kernel)
  have hlook := noninterference hplain hlooked (hlookedMaster.trans hmaster.symm) [.recording] {}
  have hdraw := noninterference hplain hundrawn (hundrawnMaster.trans hmaster.symm) [.recording] {}
  exact ⟨plain, looked, undrawn, n, n', n'', hplain, hlooked, hundrawn,
    hlook.1 rfl (by decide), hglances, hdraw.2.1 rfl (by decide), hdraws⟩

/-- The labels of what an action calls, in the order of the calls. -/
def Act.calls (body : Act Unit) (w : World) : List String :=
  (body.runIn w).2.session.trace.toList.filterMap fun
    | .called label _ => some label
    | _ => none

/-- A source that is pushed within a fork is popped in place of the fork, which stays active. -/
theorem Script.seeded_of_fork_push (host : Host) (label : String) (seed : Seed) {w : World}
    {context : RunContext} {outer : List RunContext} {source : RandomSource}
    {rest : ContextStack RandomSource}
    (hcontexts : w.contexts = { context with stack := source :: rest } :: outer) :
    ((runSteps host label [.fork [.push seed]]).exec w).2.Seeded source.fork.1.seed := by
  rw [runSteps_singleton, Step.run, exec_bind, exec_draw, hcontexts]
  dsimp only
  rw [exec_bind, observe, exec_emit]
  dsimp only [World.within]
  rw [runSteps_singleton, Step.run, inScope, exec_bind, exec_push]
  dsimp only [World.within]
  rw [exec_leaving, exec_andFinally, exec_push]
  dsimp only [World.within]
  rw [exec_discard, exec_pop]
  exact ⟨context, outer, _, _, rfl, rfl⟩

/-- A draw from a stack that was emptied fails. Nothing is pushed any more then, and no hook is put
in order. After a source was pushed within a fork, the order of hooks follows from the seed of the
fork, which is another one after a draw. -/
theorem Runner.calls_leafSuite :
    let close : Hook Script := { name := "close", label := "close", code := some [] }
    let suite := leafSuite [.clear, .push 9] [] [close]
    let suite' := leafSuite [.clear, .fraction, .push 9] [] [close]
    let run (r : Runner Procedure) := r.run (r.audienceFor {} [.recording])
    let body (script : Script) := Script.runSteps {} "body:leaves" script
    (suite'.map Script.undrawn = suite.map Script.undrawn ∧
        ∃ r r' n n',
          make (Script.suiteProcedures {} suite) (some seededConfig) {} 0 = .ok (r, n) ∧
            make (Script.suiteProcedures {} suite') (some seededConfig) {} 0 = .ok (r', n') ∧
            (run r).calls {} = ["body:leaves", "close"] ∧ (run r').calls {} = ["body:leaves"]) ∧
      ∀ (w : World) (context : RunContext) outer source rest,
        w.contexts = { context with stack := source :: rest } :: outer →
          ((body [.fork [.push 5]]).exec w).2.Seeded source.fork.1.seed ∧
            ((body [.fraction, .fork [.push 5]]).exec w).2.Seeded
              source.fraction.2.fork.1.seed := by
  intro close suite suite' run body
  refine ⟨⟨rfl, _, _, _, _, rfl, rfl, by decide +kernel, by decide +kernel⟩, ?_⟩
  intro w context outer source rest hcontexts
  refine ⟨Script.seeded_of_fork_push {} _ 5 hcontexts, ?_⟩
  change ((Script.runSteps {} "body:leaves" [.fraction, .fork [.push 5]]).exec w).2.Seeded _
  rw [Script.runSteps, Script.Step.run, bind_assoc, exec_bind, exec_draw, hcontexts]
  dsimp only
  rw [exec_bind, Script.observe, exec_emit]
  exact Script.seeded_of_fork_push {} _ 5 rfl

end SeededTesting
