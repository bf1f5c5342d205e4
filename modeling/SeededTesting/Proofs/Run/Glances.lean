import SeededTesting.Proofs.Bond.Scripts
import SeededTesting.Proofs.Run.Invisibility

/-! # Hooks that only look

A hook may look at the active seed, the stack, the context and the state of the runner, and change
the filter for runs to come. Whatever hooks of this sort a suite has, and in whatever order they are
called, a run shows the same but for what they look at.
-/

namespace SeededTesting

open Act Bond

/-- Whether an event only tells of a call, or of what there is to look at. -/
def Event.isGlance : Event → Bool
  | .called .. => true
  | .observed _ (.seed _) | .observed _ (.depth _) | .observed _ (.context ..)
  | .observed _ (.state _) => true
  | _ => false

namespace Script

mutual

/-- Whether a step neither draws nor forks, raises or moves the stack, runs no other suite, and
leaves the listeners alone. -/
def Step.glances : Step → Bool
  | .seed | .depth | .context | .state | .filter _ => true
  | .assume condition _ => condition
  | .attempt body => glances body
  | _ => false

/-- Whether a script has such steps only. -/
def glances : List Step → Bool
  | [] => true
  | step :: rest => step.glances && glances rest

end

end Script

/-- The one world is the other, but for glances that were taken and for the filter. -/
def World.Glanced (w v : World) : Prop :=
  ∃ (events : List Event) (predicate : Option (String → Bool)),
    (∀ event ∈ events, event.isGlance = true) ∧
      v = { w with session := { w.session with trace := w.session.trace ++ events, predicate } }

namespace World.Glanced

variable {w v u : World}

theorem refl (w : World) : w.Glanced w :=
  ⟨[], w.session.predicate, List.forall_mem_nil _, by rw [Array.appendList_nil]⟩

theorem trans (h : w.Glanced v) (h' : v.Glanced u) : w.Glanced u := by
  obtain ⟨events, predicate, hevents, rfl⟩ := h
  obtain ⟨events', predicate', hevents', rfl⟩ := h'
  refine ⟨events ++ events', predicate', ?_, ?_⟩
  · exact List.forall_mem_append.mpr ⟨hevents, hevents'⟩
  · have htrace :
        w.session.trace ++ events ++ events' = w.session.trace ++ (events ++ events') := by
      apply Array.ext'
      simp only [Array.toList_appendList, List.append_assoc]
    rw [← htrace]

theorem contexts (h : w.Glanced v) : v.contexts = w.contexts := by
  obtain ⟨events, predicate, -, rfl⟩ := h
  rfl

theorem emit {event : Event} (h : event.isGlance = true) (w : World) :
    w.Glanced { w with session := { w.session with trace := w.session.trace.push event } } := by
  refine ⟨[event], w.session.predicate, ?_, ?_⟩
  · exact fun e he => List.mem_singleton.mp he ▸ h
  · rw [Array.push_eq_append]
    rfl

/-- What holds worlds together does not mind glances that it does not see. -/
theorem holds {β : Bond} (hseen : ∀ event, event.isGlance = true → β.seen event = false)
    (hfilters : β.filters = false) {w v w' v' : World} (h : β.Holds w v) (hw : w.Glanced w')
    (hv : v.Glanced v') : β.Holds w' v' := by
  obtain ⟨events, predicate, hevents, rfl⟩ := hw
  obtain ⟨events', predicate', hevents', rfl⟩ := hv
  have hnothing : ∀ events : List Event, (∀ event ∈ events, event.isGlance = true) →
      events.filter β.seen = [] :=
    fun events hevents => List.filter_eq_nil_iff.mpr fun event hmem hsaw => by
      rw [hseen event (hevents event hmem)] at hsaw
      cases hsaw
  have hsame : events'.filter β.seen = events.filter β.seen :=
    (hnothing events' hevents').trans (hnothing events hevents).symm
  have haccords := h.session.append hsame
  refine h.withSession { haccords with predicate := fun htrue => ?_ }
  rw [hfilters] at htrue
  cases htrue

end World.Glanced

/-! ## Scripts -/

/-- An action that ends well after glances at a stack on which a source is active. -/
def Act.Glances {α : Type} (body : Act α) (value : α) : Prop :=
  ∀ (w : World) (context : RunContext) outer source rest,
    w.contexts = { context with stack := source :: rest } :: outer →
      ∃ v, body.exec w = (.ok value, v) ∧ w.Glanced v

namespace Act.Glances

variable {α β : Type} {body : Act α} {x : α}

theorem bind {next : α → Act β} {y : β} (h : body.Glances x) (hnext : (next x).Glances y) :
    (body >>= next).Glances y := by
  intro w context outer source rest hcontexts
  obtain ⟨v, hout, hv⟩ := h w context outer source rest hcontexts
  obtain ⟨u, hout', hu⟩ := hnext v context outer source rest (hv.contexts.trans hcontexts)
  exact ⟨u, (exec_bind_of_ok hout).trans hout', hv.trans hu⟩

theorem value (x : α) : (pure x : Act α).Glances x :=
  fun w _ _ _ _ _ => ⟨w, rfl, .refl w⟩

theorem handle {handler : ErrorId → Act α} (h : body.Glances x) :
    (Act.handle body handler).Glances x := by
  intro w context outer source rest hcontexts
  obtain ⟨v, hout, hv⟩ := h w context outer source rest hcontexts
  refine ⟨v, ?_, hv⟩
  rw [exec_handle, hout]

theorem emit {event : Event} (h : event.isGlance = true) : (Act.emit event).Glances () :=
  fun w _ _ _ _ _ => ⟨_, exec_emit event w, .emit h w⟩

end Act.Glances

namespace Script

variable {host : Host} {label : String}

theorem glances_step {step : Step} (hstep : step.glances = true)
    (hbody : ∀ body, step = .attempt body → (runSteps host label body).Glances ()) :
    (step.run host label).Glances () := by
  have hcontext : ∀ observe : RunContext → Event, (∀ c, (observe c).isGlance = true) →
      (do Act.emit (observe (← Act.currentContext)) : Act Unit).Glances () := by
    intro observe hobserve w context outer source rest hcontexts
    rw [exec_bind, exec_currentContext, hcontexts]
    exact ⟨_, rfl, .emit (hobserve _) w⟩
  cases step with
  | seed =>
      rw [Step.run]
      intro w context outer source rest hcontexts
      rw [exec_bind, exec_currentSource, hcontexts]
      exact ⟨_, rfl, .emit rfl w⟩
  | depth =>
      rw [Step.run]
      exact hcontext (fun c => .observed label (.depth c.stack.depth)) fun _ => rfl
  | context =>
      rw [Step.run]
      exact hcontext (fun c => .observed label (.context c.target c.nightly c.runner)) fun _ => rfl
  | state =>
      rw [Step.run]
      exact fun w _ _ _ _ _ => ⟨_, rfl, .emit rfl w⟩
  | filter test =>
      rw [Step.run]
      refine fun w _ _ _ _ _ => ⟨_, rfl, [], test.map NameTest.accepts, List.forall_mem_nil _, ?_⟩
      rw [Array.appendList_nil]
  | assume condition message =>
      obtain rfl : condition = true := hstep
      rw [Step.run]
      exact .value ()
  | attempt body =>
      rw [Step.run]
      exact .handle (hbody body rfl)
  | _ => cases hstep

/-- A script that only looks ends well, wherever a source is active. -/
theorem glances_runSteps (host : Host) (label : String) {script : Script}
    (h : glances script = true) : (runSteps host label script).Glances () := by
  induction script using induction with
  | nil =>
      rw [runSteps]
      exact .value ()
  | cons step rest hinner ih =>
      rw [glances, Bool.and_eq_true] at h
      rw [runSteps]
      refine .bind (glances_step h.1 fun body heq => ?_) (ih h.2)
      subst heq
      exact hinner body List.mem_cons_self h.1

end Script

/-! ## Hooks -/

/-- A hook that can be called, and only looks. -/
def Hook.Glances (hook : Hook Procedure) : Prop :=
  ∃ procedure, hook.code = some procedure ∧ ∀ label, (procedure label).Glances ()

variable {hooks : List (Hook Procedure)}

theorem Hook.Glances.call {hook : Hook Procedure} (h : hook.Glances) (arguments : List Instance) :
    (hook.call arguments).Glances () := by
  obtain ⟨procedure, hcode, hglances⟩ := h
  unfold Hook.call callProcedure
  rw [hcode]
  exact .bind (.emit rfl) (hglances _)

theorem glances_callHooks (h : ∀ hook ∈ hooks, hook.Glances) (arguments : List Instance) :
    (callHooks arguments hooks).Glances () := by
  induction hooks with
  | nil => exact .value ()
  | cons hook rest ih =>
      exact .bind ((h hook List.mem_cons_self).call arguments)
        (ih fun hook hmem => h hook (List.mem_cons_of_mem _ hmem))

theorem glances_invokeAll (h : ∀ hook ∈ hooks, hook.Glances) (arguments : List Instance) :
    (invokeAll arguments hooks).Glances (hooks.map fun hook => (hook, none)) := by
  induction hooks with
  | nil => exact .value []
  | cons hook rest ih =>
      have hcall : (do hook.call arguments; return none : Act (Option ErrorId)).Glances none :=
        .bind ((h hook List.mem_cons_self).call arguments) (.value none)
      exact .bind hcall.handle
        (.bind (ih fun hook hmem => h hook (List.mem_cons_of_mem _ hmem)) (.value _))

/-! ## Runs -/

section Runs

variable {β : Bond} {r r' : Runner Procedure} (hβ : β.Free)
  (hseen : ∀ event, event.isGlance = true → β.seen event = false) (hfilters : β.filters = false)

include hβ hseen hfilters

/-- Where no source is active the hooks can not be put in order; where one is, glances at their call
are not seen. -/
theorem inStep_looked {α : Type} {V : α → α → Prop} {next next' : List (Hook Procedure) → Act α}
    {phase : Phase} (h : ∀ active, ∃ x y,
      (next (hooksFor r.suite.levels phase active)).Glances x ∧
        (next' (hooksFor r'.suite.levels phase active)).Glances y ∧ V x y) :
    β.InStep (do next (← r.hooks phase)) (do next' (← r'.hooks phase)) V := by
  intro w v hwv
  obtain ⟨s, t, hst, hw, hv⟩ := hwv.contexts
  obtain rfl := hβ.tight.same s t hst
  rw [exec_bind, exec_bind, Runner.exec_hooks_eq, Runner.exec_hooks_eq, hw, hv]
  -- Without an active source both raise the same error before any hook is called.
  cases t with
  | nil =>
      dsimp only
      rw [exec_complain, exec_complain, hwv.errors, hwv.handling]
      exact ⟨(hwv.withErrors _).withHandling w.handling, rfl⟩
  | cons source rest =>
      obtain ⟨x, y, hx, hy, hV⟩ := h source.seed.toNat
      obtain ⟨w', hout, hglanced⟩ := hx w _ _ _ _ hw
      obtain ⟨v', hout', hglanced'⟩ := hy v _ _ _ _ hv
      dsimp only
      rw [hout, hout']
      exact ⟨hglanced.holds hseen hfilters hwv hglanced', hV⟩

/-- Hooks that only look do the same, whichever hooks these are. -/
theorem inStep_glancingHooks
    (h : ∀ level ∈ r.suite.levels, ∀ phase, ∀ hook ∈ level.hooks phase, hook.Glances)
    (h' : ∀ level ∈ r'.suite.levels, ∀ phase, ∀ hook ∈ level.hooks phase, hook.Glances) :
    HookOrder.InStep β r.hooks r'.hooks := by
  have hall : ∀ phase active, ∀ hook ∈ hooksFor r.suite.levels phase active, hook.Glances := by
    intro phase active hook hmem
    obtain ⟨level, hlevel, hhook⟩ := mem_hooksFor hmem
    exact h level hlevel phase hook hhook
  have hall' : ∀ phase active, ∀ hook ∈ hooksFor r'.suite.levels phase active, hook.Glances := by
    intro phase active hook hmem
    obtain ⟨level, hlevel, hhook⟩ := mem_hooksFor hmem
    exact h' level hlevel phase hook hhook
  constructor
  · intro phase arguments
    exact inStep_looked hβ hseen hfilters fun active => ⟨(), (),
      glances_callHooks (hall phase active) arguments,
      glances_callHooks (hall' phase active) arguments, rfl⟩
  · intro phase arguments
    -- Hooks that only look raise nothing, so there is nothing to be reported on either side.
    have hnone : ∀ hooks : List (Hook Procedure),
        (hooks.map fun hook => (hook, (none : Option ErrorId))).filterMap (·.2) = [] :=
      fun hooks => by rw [List.filterMap_map]; exact List.filterMap_none _
    exact inStep_looked hβ hseen hfilters fun active => ⟨_, _,
      glances_invokeAll (hall phase active) arguments,
      glances_invokeAll (hall' phase active) arguments, (hnone _).trans (hnone _).symm⟩

end Runs

/-- In a suite that holds up to its checks every hook can be called. -/
theorem Suite.exists_code {Code : Type} {suite : Suite Code} (h : suite.violations = [])
    {level : Level Code} {phase : Phase} {hook : Hook Code} (hlevel : level ∈ suite.levels)
    (hhook : hook ∈ level.hooks phase) : ∃ code, hook.code = some code := by
  cases hcode : hook.code with
  | some code => exact ⟨code, rfl⟩
  | none =>
      have hphase : phase ∈ Phase.all := by cases phase <;> decide
      have hmem : Violation.hookNotCallable phase level.owner hook.name ∈ suite.violations := by
        have hviolation : Violation.hookNotCallable phase level.owner hook.name ∈
            level.violations := by
          refine List.mem_flatMap.mpr ⟨phase, hphase, List.mem_flatMap.mpr ⟨hook, hhook, ?_⟩⟩
          rw [hcode]
          exact List.mem_singleton_self _
        have hlevels := List.mem_flatMap.mpr ⟨level, hlevel, hviolation⟩
        unfold violations
        simp [hlevels]
      rw [h] at hmem
      cases hmem

namespace Runner

variable {host origin origin' : Host} {suite suite' : Suite Script} {config : RunConfig}
  {sequence sequence' next next' : Nat} {r r' : Runner Procedure}

/-- Hooks of scripts that only look are such hooks. -/
theorem glancing_of_make
    (hmake : make (Script.suiteProcedures host suite) (some config) origin sequence =
      .ok (r, sequence'))
    (hlooks : ∀ level ∈ suite.levels, ∀ script ∈ level.codes, Script.glances script = true) :
    ∀ level ∈ r.suite.levels, ∀ phase, ∀ hook ∈ level.hooks phase, hook.Glances := by
  have hviolations : suite.violations = [] := by
    have := (make_eq_ok hmake).1
    rwa [Script.suiteProcedures_eq_map, Suite.violations_map] at this
  obtain ⟨plan, rfl, rfl, -⟩ := exists_plan hmake
  intro level hlevel phase hook hhook
  obtain ⟨level, hmem, rfl⟩ := List.mem_map.mp hlevel
  rw [Level.map_hooks] at hhook
  obtain ⟨declared, hdeclared, rfl⟩ := List.mem_map.mp hhook
  obtain ⟨script, hscript⟩ := Suite.exists_code hviolations hmem hdeclared
  have hphase : phase ∈ Phase.all := by cases phase <;> decide
  have hcodes : script ∈ level.codes :=
    List.mem_flatMap.mpr ⟨phase, hphase, List.mem_filterMap.mpr ⟨declared, hdeclared, hscript⟩⟩
  refine ⟨Script.procedure host script, ?_, fun label => ?_⟩
  · rw [Hook.map, hscript]
    rfl
  · exact Script.glances_runSteps host label (hlooks level hmem script hcodes)

variable
  (hmake : make (Script.suiteProcedures host suite) (some config) origin sequence =
    .ok (r, sequence'))
  (hmake' : make (Script.suiteProcedures host suite') (some config) origin' next = .ok (r', next'))
  (hmaster : r'.master = r.master)

include hmake hmake' hmaster

/-- Runners for suites with other hooks are pairs in all else. -/
theorem pairs_of_levels (hsuite : suite' = { suite with levels := suite'.levels }) {β : Bond}
    (hβ : β.Free) (hstates : β.states = true) : r.Pairs (Procedure.InStep β) r' := by
  have hmade := madeOf_of_make hmake
  have hmade' := madeOf_of_make hmake'
  have hprocedures : Script.suiteProcedures host suite' =
      { Script.suiteProcedures host suite with
        levels := (Script.suiteProcedures host suite').levels } := by
    rw [Script.suiteProcedures_eq_map, Script.suiteProcedures_eq_map, hsuite]
    rfl
  have hlevels : r'.suite = { r.suite with levels := r'.suite.levels } := by
    rw [hmade.suite_eq, hmade'.suite_eq]
    exact hprocedures
  have hblocks : r'.blocks = r.blocks := by
    refine hmade.blocks_eq_of_units hmade' ?_ ?_ ?_ hmaster rfl rfl
    all_goals rw [hprocedures]
  refine (pairs_self ?_ (expands_of_make hmake)).with_levels hlevels
    (hmade'.config_eq.trans hmade.config_eq.symm) hmaster hblocks
  exact codes_of_make hmake fun script _ => Script.repeats host script β hβ hstates

/-- Runs of suites with other hooks, all of which only look, show the same but for glances. -/
theorem shown_run_of_glancing (hsuite : suite' = { suite with levels := suite'.levels })
    (hlooks : ∀ level ∈ suite.levels ++ suite'.levels, ∀ script ∈ level.codes,
      Script.glances script = true)
    (declarations : List NotifierProgram.Declaration) (w : World) :
    (r'.run (r'.audienceFor host declarations)).shown Event.isGlance w =
      (r.run (r.audienceFor host declarations)).shown Event.isGlance w := by
  obtain ⟨hlooks, hlooks'⟩ := List.forall_mem_append.mp hlooks
  let τ : Terms := { Terms.same w.session.trace.toList with seen := fun event => !event.isGlance }
  let β := τ.between r.ownContext w w fun s t => t = s
  -- Hooks change the filter for later runs, so within the run the filters need not agree.
  let γ := Terms.between { τ with filters := false } r.ownContext w w fun s t => t = s
  have hβ : r.Pairs (Procedure.InStep β) r' := pairs_of_levels hmake hmake' hmaster hsuite rfl rfl
  have hγ : r.Pairs (Procedure.InStep γ) r' := pairs_of_levels hmake hmake' hmaster hsuite rfl rfl
  have haudience : (r.audienceFor host declarations).InStep γ
      (r'.audienceFor host declarations) := by
    rw [audienceFor_eq, audienceFor_eq]
    exact inStep_audienceOf hγ (NotifierProgram.Declaration.pairs_listenerBy
      fun _ _ script _ => Script.repeats host script γ rfl rfl)
  have hunseen : ∀ event : Event, event.isGlance = true → γ.seen event = false :=
    fun event h => congrArg not h
  have habreast : Abreast γ r r' _ _ r.hooks r'.hooks :=
    ⟨hγ, haudience, inStep_glancingHooks rfl hunseen rfl (glancing_of_make hmake hlooks)
      (glancing_of_make hmake' hlooks')⟩
  have hle : β.Le γ := fun _ _ h => { h with session := { h.session with predicate := nofun } }
  have hreconciles := agrees_run (R := fun s t => t = s) hβ rfl (fun s t hst => by rw [hst])
    (habreast.leads_runSurvivors rfl hβ rfl hle)
    ⟨rfl, rfl, rfl, fun _ => rfl,
      Terms.accords_self rfl (List.append_nil _).symm (List.append_nil _).symm⟩
  exact hreconciles.shown_eq rfl rfl rfl

end Runner

end SeededTesting
