import SeededTesting.Proofs.Bond.Scripts
import SeededTesting.Proofs.Run.Invisibility

/-! # The stack in a run

As long as scripts do not move the stack by themselves, every collaborator finds it as it has to be:
with the randomness of the run alone around the class, and with that of the candidate on top of it
while a candidate is run. So does everything that asks for the active source or pops it. This is
told by collaborators that look at the stack before they do anything, and may do something else
where it is not as it should be: a run with these is the run itself.
-/

namespace SeededTesting

open Act Bond

/-! ## Looking at the stack -/

/-- Whether a source is active. -/
def World.active (w : World) : Bool :=
  match w.contexts with
  | [] => false
  | context :: _ => !context.stack.isEmpty

/-- Runs an action where a source is active, and another one where none is. -/
def Act.whileActive {α : Type} (other body : Act α) : Act α := do
  if (← get).active then body else other

/-- Where something is done in a run: in which contexts, and from which seed and above which
sources. -/
structure Site where
  context : RunContext
  outer : List RunContext
  seed : Seed
  below : ContextStack RandomSource

/-- The world is at the site: the stack is a source of the seed and what is below, no more. -/
def Site.At (site : Site) (w : World) : Prop :=
  ∃ source : RandomSource, source.seed = site.seed ∧
    w.contexts = { site.context with stack := source :: site.below } :: site.outer

instance (site : Site) (w : World) : Decidable (site.At w) :=
  match hcontexts : w.contexts with
  | [] => isFalse fun ⟨_, _, h⟩ => by
      rw [hcontexts] at h
      cases h
  | context :: outer =>
    match hstack : context.stack with
    | [] => isFalse fun ⟨_, _, h⟩ => by
        rw [hcontexts] at h
        cases h
        cases hstack
    | source :: rest =>
      decidable_of_iff (source.seed = site.seed ∧
          context :: outer = { site.context with stack := source :: site.below } :: site.outer) <| by
        constructor
        · exact fun ⟨hseed, h⟩ => ⟨source, hseed, hcontexts.trans h⟩
        · rintro ⟨source', hseed, h⟩
          rw [hcontexts] at h
          cases h
          cases hstack
          exact ⟨hseed, rfl⟩

namespace Script

mutual

/-- Runs a step that looks whether a source is active before it does anything, and before a fork
pops its child. -/
def Step.watched (host : Host) (other : Act Unit) (label : String) : Step → Act Unit
  | .fork body => Act.whileActive other do
    let child ← Act.draw RandomSource.fork
    observe label (.forked child.seed)
    Act.push child
    Act.leaving (Act.andFinally (watched host other label body)
      (Act.whileActive other (discard Act.pop)))
  | .attempt body => Act.whileActive other <|
    Act.handle (watched host other label body) fun e => do
      observe label (.caught (← Act.complaint e))
  | step => Act.whileActive other (step.run host label)

/-- Runs steps that look whether a source is active. -/
def watched (host : Host) (other : Act Unit) (label : String) : List Step → Act Unit
  | [] => return
  | step :: rest => do
    step.watched host other label
    watched host other label rest

end

end Script

/-- A collaborator that looks whether it is called at a site. -/
def Site.guard (site : Site) (other procedure : Procedure) : Procedure := fun label => do
  if site.At (← get) then procedure label else other label

/-- A script that looks at every step whether a source is active. -/
def Script.watchedProcedure (host : Host) (other : Procedure) (script : Script) : Procedure :=
  fun label => watched host (other label) label script

/-! ## Scripts that do not move the stack -/

/-- The stacks are the same, and have sources of the given seeds above what is not touched. -/
def above (seeds : List Seed) (below s t : ContextStack RandomSource) : Prop :=
  t = s ∧ ∃ top : List RandomSource, top.map (·.seed) = seeds ∧ s = top ++ below

theorem above_nil (below : ContextStack RandomSource) : above [] below below below :=
  ⟨rfl, [], rfl, rfl⟩

theorem above.push {seeds : List Seed} {below s t : ContextStack RandomSource}
    (h : above seeds below s t) (source : RandomSource) :
    above (source.seed :: seeds) below (source :: s) (source :: t) := by
  obtain ⟨rfl, top, rfl, rfl⟩ := h
  exact ⟨rfl, source :: top, rfl, rfl⟩

theorem above.pop {seed : Seed} {seeds : List Seed} {below s t : ContextStack RandomSource}
    (h : above (seed :: seeds) below s t) :
    ∃ (source : RandomSource) (rest : ContextStack RandomSource), source.seed = seed ∧
      above seeds below rest rest ∧ s = source :: rest ∧ t = source :: rest := by
  obtain ⟨rfl, top, hseeds, rfl⟩ := h
  cases top with
  | nil => cases hseeds
  | cons source top =>
      obtain ⟨hseed, htop⟩ := List.cons.inj hseeds
      exact ⟨source, top ++ below, hseed, ⟨rfl, top, htop, rfl⟩, rfl, rfl⟩

theorem above.eq_of_nil {below s t : ContextStack RandomSource} (h : above [] below s t) :
    s = below ∧ t = below := by
  obtain ⟨rfl, top, hseeds, rfl⟩ := h
  obtain rfl := List.map_eq_nil_iff.mp hseeds
  exact ⟨rfl, rfl⟩

theorem above.single {seed : Seed} {below s t : ContextStack RandomSource}
    (h : above [seed] below s t) :
    ∃ source : RandomSource, source.seed = seed ∧ s = source :: below ∧ t = source :: below := by
  obtain ⟨source, rest, hseed, hrest, rfl, rfl⟩ := h.pop
  obtain ⟨rfl, -⟩ := hrest.eq_of_nil
  exact ⟨source, hseed, rfl, rfl⟩

def Bond.Over (β : Bond) (seeds : List Seed) (below : ContextStack RandomSource) : Prop :=
  β.stack = above seeds below

section Over

variable {β : Bond} {seed : Seed} {seeds : List Seed} {below : ContextStack RandomSource}
  (hβ : β.Over (seed :: seeds) below)

include hβ

theorem Bond.Over.top {s t : ContextStack RandomSource} (h : β.stack s t) :
    t = s ∧ ∃ source rest, s = source :: rest ∧ source.seed = seed ∧
      ∀ source' : RandomSource, source'.seed = seed →
        β.stack (source' :: rest) (source' :: rest) := by
  rw [hβ] at h ⊢
  obtain ⟨source, rest, hseed, hrest, rfl, rfl⟩ := h.pop
  refine ⟨rfl, source, rest, rfl, hseed, fun source' hseed' => ?_⟩
  exact hseed' ▸ hrest.push source'

theorem Bond.Over.tight : β.Tight where
  same s t h := (hβ.top h).1
  redrawn source source' rest h hseed := by
    obtain ⟨-, source₀, rest₀, heq, hseed₀, hredrawn⟩ := hβ.top h
    cases heq
    exact hredrawn source' (hseed.trans hseed₀)

theorem Bond.Over.active {w v : World} (h : β.Holds w v) : w.active = true := by
  obtain ⟨s, t, hstacks, hw, -⟩ := h.contexts
  obtain ⟨-, source, rest, rfl, -⟩ := hβ.top hstacks
  unfold World.active
  rw [hw]
  rfl

/-- Where a source is active for certain, it need not be looked for. -/
theorem Bond.Leads.whileActive {γ : Bond} {other body body' : Act Unit}
    (h : β.Leads γ body body' Eq) : β.Leads γ (Act.whileActive other body) body' Eq := by
  intro w v hwv
  rw [Act.whileActive, exec_bind_of_ok (exec_get w), if_pos (hβ.active hwv)]
  exact h w v hwv

end Over

namespace Script

/-- Watched scripts do the same, so they always find a source active. -/
theorem inStep_watched (host : Host) (other : Act Unit) {script : Script}
    (hmoves : avoids Step.moves script = true) (label : String) :
    ∀ (β : Bond) (seed : Seed) (seeds : List Seed) (below : ContextStack RandomSource),
      β.Over (seed :: seeds) below → β.states = true →
        β.InStep (watched host other label script) (runSteps host label script) Eq := by
  induction script using induction with
  | nil =>
      intro β seed seeds below _ _
      rw [watched, runSteps]
      exact .value rfl
  | cons step rest hinner ih =>
      intro β seed seeds below hβ hstates
      obtain ⟨hstep, hrest⟩ := avoids_cons hmoves
      rw [watched, runSteps]
      refine Leads.andThen ?_ fun _ => ih hrest β seed seeds below hβ hstates
      have hrepeats : ∀ script ∈ step.inner, (procedure host script).Repeats :=
        fun script _ => repeats host script
      cases step with
      | fork body =>
          rw [Step.watched, Step.run]
          refine Leads.whileActive hβ ((Leads.draw_eq hβ.tight fun _ => rfl).andThen fun child =>
            (inStep_observe _).andThen fun _ => ?_)
          -- Inside the fork the child is one more seed on top of those that the bond knows.
          have hR : (β.around (above (child.seed :: seed :: seeds) below)).Over
              (child.seed :: seed :: seeds) below := rfl
          refine Leads.scope (R := above (child.seed :: seed :: seeds) below)
            (hinner body List.mem_cons_self hstep _ _ _ _ hR hstates)
            (Leads.whileActive hR (Leads.pop (β := β.around (above _ below))
              fun s t hst => .inr ?_).discard) fun s t hst => ?_
          · obtain ⟨source, rest, -, hrest, rfl, rfl⟩ := hst.pop
            exact ⟨source, source, rest, rest, rfl, rfl, hβ ▸ hrest⟩
          · rw [hβ] at hst
            exact hst.push child
      | attempt body =>
          rw [Step.watched, Step.run]
          refine Leads.whileActive hβ ?_
          refine (hinner body List.mem_cons_self hstep β seed seeds below hβ hstates).handle
            fun e => Leads.complaint.andThen fun _ => inStep_observe _
      | push | pop | clear => cases hstep
      | fraction | bits | seed | depth | context =>
          exact Leads.whileActive hβ (inStep_asks hβ.tight rfl)
      | _ => exact Leads.whileActive hβ (inStep_still rfl (fun _ => hstates) hrepeats)

end Script

/-! ## Stages -/

/-- A procedure that does the same above whatever sources, and leaves these alone. -/
def Procedure.Keeps (procedure : Procedure) : Prop :=
  ∀ past context w seed below, procedure.InStep
    ((Terms.same past).between context w w (above [seed] below)) procedure

theorem Script.keeps (host : Host) {script : Script} (hmoves : avoids Step.moves script = true) :
    (procedure host script).Keeps := by
  intro past context w seed below label
  have hwatched := inStep_watched host (return) hmoves label
    ((Terms.same past).between context w w (above [seed] below)) seed [] below rfl rfl
  refine Leads.right (fun v u hvu => ?_) hwatched
  obtain ⟨s, t, hst, hv, hu⟩ := hvu.contexts
  exact hvu.eq_of_same (hu.trans (by rw [hv, hst.1]; rfl))

def Listener.map (f : Procedure → Procedure) : Listener → Listener
  | .scripted tag reactions => .scripted tag (reactions.map f)
  | listener => listener

def Audience.map (f : Procedure → Procedure) (audience : Audience) : Audience :=
  fun listener => (audience listener).map f

def Stage.map (f : Procedure → Procedure) : Stage → Stage
  | .candidate c => .candidate (c.map f)
  | stage => stage

/-- The audience whose reactions keep to something. -/
def Audience.All (q : Procedure → Prop) (audience : Audience) : Prop :=
  ∀ listener tag reactions, audience listener = .scripted tag reactions →
    ∀ kind, q (reactions.on kind)

namespace Runner

variable (r : Runner Procedure) (audience : Audience)

/-- Stages as long as the run goes on, each with the world in which it is begun. -/
def begunFrom : List Stage → World → List (Stage × World)
  | [], _ => []
  | stage :: rest, w =>
    (stage, w) :: match (r.perform audience stage).exec w with
      | (.ok true, v) => begunFrom rest v
      | _ => []

/-- The stages that a run begins, each with the world in which it does. -/
def begun (w : World) : List (Stage × World) :=
  r.begunFrom audience (stages (r.survivors (r.inForce w))) (r.entered w)

/-- Where collaborators are called in a stage of a run with a given randomness. -/
def siteOf (outer : List RunContext) (randomness : RandomSource) : Stage → Site
  | .candidate c =>
    { context := r.ownContext, outer, seed := c.seed, below := [randomness] }
  | _ => { context := r.ownContext, outer, seed := r.master, below := [] }

/-- A stage whose collaborators look at the stack before they do anything, and whose hooks are
called in an order that is found without looking at the stack. -/
def performGuarded (site : Site) (other : Procedure) (stage : Stage) : Act Bool :=
  let guarded := r.map (site.guard other)
  guarded.performBy (audience.map (site.guard other)) (.fixed guarded.suite.levels site.seed)
    (stage.map (site.guard other))

/-- The stack is nothing but the randomness of the run. -/
def Settled (outer : List RunContext) (randomness : RandomSource) (w : World) : Prop :=
  randomness.seed = r.master ∧
    w.contexts = { r.ownContext with stack := [randomness] } :: outer

variable {r audience} {w u : World}

section Guards

/-- A collaborator that is called at a site need not look whether it is. -/
theorem inStep_guard {past : List Event} {seed : Seed} {below : ContextStack RandomSource}
    {procedure : Procedure} (h : procedure.Keeps) (other : Procedure) :
    (Site.guard { context := r.ownContext, outer := w.contexts, seed, below } other
      procedure).InStep ((Terms.same past).between r.ownContext w w (above [seed] below))
      procedure := by
  intro label v v' hv
  have hat : Site.At { context := r.ownContext, outer := w.contexts, seed, below } v := by
    obtain ⟨s, t, hst, hcontexts, -⟩ := hv.contexts
    obtain ⟨source, hseed, rfl, -⟩ := hst.single
    exact ⟨source, hseed, hcontexts⟩
  rw [Site.guard, exec_bind_of_ok (exec_get v), if_pos hat]
  exact h past r.ownContext w seed below label v v' hv

variable (hcodes : ∀ code ∈ r.suite.codes, code.Keeps) (haudience : audience.All Procedure.Keeps)
  (hexpands : r.Expands)

include hcodes haudience hexpands

theorem abreast_guard (w : World) (past : List Event) (seed : Seed)
    (below : ContextStack RandomSource) (other : Procedure) :
    let guard := Site.guard { context := r.ownContext, outer := w.contexts, seed, below } other
    Abreast ((Terms.same past).between r.ownContext w w (above [seed] below)) (r.map guard) r
      (audience.map guard) audience (.fixed (r.map guard).suite.levels seed) r.hooks := by
  intro guard
  let β := (Terms.same past).between r.ownContext w w (above [seed] below)
  -- On its site the guard runs the code, so guarded and bare collaborators are in step.
  have hguard : ∀ code ∈ r.suite.codes, (guard code).InStep β (id code) :=
    fun code hcode => inStep_guard (hcodes code hcode) other
  have hpairs : (r.map guard).Pairs (Procedure.InStep β) (r.map id) :=
    pairs_map hguard hexpands
  have hhooks := hooksFor_pairs hguard
  rw [Runner.map_id] at hpairs hhooks
  refine ⟨hpairs, fun listener => ?_, .of_pairs fun phase v v' hv => ?_⟩
  · have hreactions := haudience listener
    have hserial : listener.later β.serials = listener := listener.later_zero
    rw [hserial]
    unfold Audience.map
    cases hlistener : audience listener with
    | recording => exact .recording
    | silent => exact .silent
    | scripted tag reactions =>
        refine .scripted tag fun kind => ?_
        rw [Reactions.map_on]
        exact inStep_guard (hreactions tag reactions hlistener kind) other
  · obtain ⟨s, t, hst, -, hcontexts⟩ := hv.contexts
    obtain ⟨source, hseed, rfl, rfl⟩ := hst.single
    rw [HookOrder.fixed, exec_pure, exec_hooks_eq, hcontexts]
    dsimp only
    rw [hseed]
    exact ⟨hv, hhooks phase _⟩

omit hcodes haudience hexpands in
/-- What does the same above sources of given seeds is the same, and leaves such sources. -/
theorem exec_of_inStep {seeds : List Seed} {below stack : ContextStack RandomSource}
    {body body' : Act Bool}
    (hstep : ((Terms.same u.session.trace.toList).between r.ownContext w w
      (above seeds below)).InStep body body' Eq)
    (hstack : above seeds below stack stack)
    (hcontexts : u.contexts = { r.ownContext with stack } :: w.contexts) :
    body.exec u = body'.exec u ∧ ∃ s, above seeds below s s ∧
      (body'.exec u).2.contexts = { r.ownContext with stack := s } :: w.contexts := by
  have hholds : ((Terms.same u.session.trace.toList).between r.ownContext w w
      (above seeds below)).Holds u u :=
    { errors := rfl, handling := rfl, sequence := rfl, journal := fun _ => rfl
      session := Terms.accords_self rfl (List.append_nil _).symm (List.append_nil _).symm
      contexts := ⟨stack, stack, hstack, hcontexts, hcontexts⟩ }
  obtain ⟨hends, halike⟩ := hstep u u hholds
  obtain ⟨s, t, hst, hleft, hright⟩ := hends.contexts
  obtain rfl := hst.1
  refine ⟨Prod.ext halike.eq.symm ?_, t, hst, hright⟩
  exact (hends.eq_of_same (hright.trans hleft.symm)).symm

omit hcodes haudience hexpands in
/-- What does the same above the randomness of the run leaves such randomness. -/
theorem settled_of_inStep {randomness : RandomSource} (hu : r.Settled w.contexts randomness u)
    {body body' : Act Bool}
    (hstep : ((Terms.same u.session.trace.toList).between r.ownContext w w
      (above [r.master] [])).InStep body body' Eq) :
    body.exec u = body'.exec u ∧
      ∃ randomness', r.Settled w.contexts randomness' (body'.exec u).2 := by
  obtain ⟨hmaster, hcontexts⟩ := hu
  obtain ⟨hexec, s, hs, hleft⟩ :=
    exec_of_inStep hstep (hmaster ▸ (above_nil []).push randomness) hcontexts
  obtain ⟨randomness', hseed, rfl, -⟩ := hs.single
  exact ⟨hexec, randomness', hseed, hleft⟩

/-- A candidate does the same with guards above whatever randomness. -/
theorem inStep_performGuarded {c : Candidate Procedure} (hunit : c.unit ∈ r.suite.units)
    (w : World) (past : List Event) (randomness : RandomSource) (other : Procedure) :
    ((Terms.same past).between r.ownContext w w (above [] [randomness])).InStep
      (r.performGuarded audience (r.siteOf w.contexts randomness (.candidate c)) other
        (.candidate c)) (r.performBy audience r.hooks (.candidate c)) Eq := by
  have habreast := abreast_guard hcodes haudience hexpands w past c.seed [randomness] other
  have hbody : ∀ code, c.unit.body = some code → Procedure.InStep
      ((Terms.same past).between r.ownContext w w (above [c.seed] [randomness]))
      ((r.siteOf w.contexts randomness (.candidate c)).guard other code) (id code) :=
    fun code hcode => inStep_guard (hcodes code (Suite.body_mem_codes hunit hcode)) other
  have hc := Candidate.pairs_map hbody
  rw [Candidate.map_id] at hc
  refine Abreast.performBy_candidate (β := (Terms.same past).between r.ownContext w w
    (above [] [randomness])) (R := above [c.seed] [randomness]) habreast hc
    (fun s t hst => above.push hst (.fresh c.seed)) fun s t hst => .inr ?_
  obtain ⟨source, rest, -, hrest, rfl, rfl⟩ := above.pop hst
  exact ⟨source, source, rest, rest, rfl, rfl, hrest⟩

/-- Above the randomness of the run, a stage finds the stack as it should be, and leaves it so. -/
theorem exec_performGuarded {randomness : RandomSource} (hu : r.Settled w.contexts randomness u)
    {stage : Stage} (hunit : ∀ c, stage = .candidate c → c.unit ∈ r.suite.units)
    (other : Procedure) :
    (r.performGuarded audience (r.siteOf w.contexts randomness stage) other stage).exec u =
        (r.perform audience stage).exec u ∧
      ∃ randomness', r.Settled w.contexts randomness' ((r.perform audience stage).exec u).2 ∧
        ∀ c, stage = .candidate c → randomness' = randomness := by
  have habreast := abreast_guard hcodes haudience hexpands w u.session.trace.toList r.master []
    other
  rw [← performBy_hooks]
  cases stage with
  | opening =>
      obtain ⟨hexec, randomness', hsettled⟩ := settled_of_inStep hu
        ((inStep_prepare habreast.pairs rfl habreast.pairs).discard.andThen fun _ => .value rfl)
      exact ⟨hexec, randomness', hsettled, fun _ => nofun⟩
  | setUp =>
      obtain ⟨hexec, randomness', hsettled⟩ := settled_of_inStep hu habreast.performBy_setUp
      exact ⟨hexec, randomness', hsettled, fun _ => nofun⟩
  | tearDown =>
      obtain ⟨hexec, randomness', hsettled⟩ := settled_of_inStep hu habreast.performBy_tearDown
      exact ⟨hexec, randomness', hsettled, fun _ => nofun⟩
  | candidate c =>
      obtain ⟨hmaster, hcontexts⟩ := hu
      obtain ⟨hexec, s, hs, hleft⟩ := exec_of_inStep
        (inStep_performGuarded hcodes haudience hexpands (hunit c rfl) w _ randomness other)
        (above_nil [randomness]) hcontexts
      obtain ⟨rfl, -⟩ := hs.eq_of_nil
      exact ⟨hexec, randomness, ⟨hmaster, hleft⟩, fun _ _ => rfl⟩

/-- Every stage that is begun finds nothing on the stack but the randomness of the run, and the last
one leaves nothing else. -/
theorem settled_begunFrom {list : List Stage}
    (hunits : ∀ c, .candidate c ∈ list → c.unit ∈ r.suite.units) {randomness : RandomSource}
    (hu : r.Settled w.contexts randomness u) :
    (∀ stage v, (stage, v) ∈ r.begunFrom audience list u →
        (∀ c, stage = .candidate c → c.unit ∈ r.suite.units) ∧
          ∃ randomness', r.Settled w.contexts randomness' v) ∧
      ∃ randomness', r.Settled w.contexts randomness' ((r.performAll audience list).exec u).2 := by
  -- Stages draw from the randomness of the run, so the next one finds another, of the same seed.
  induction list generalizing u randomness with
  | nil => exact ⟨fun stage v hmem => (List.not_mem_nil hmem).elim, randomness, hu⟩
  | cons stage rest ih =>
      have hunit : ∀ c, stage = .candidate c → c.unit ∈ r.suite.units :=
        fun c hc => hunits c (by rw [hc]; exact List.mem_cons_self)
      obtain ⟨-, randomness', hsettled, -⟩ := exec_performGuarded hcodes haudience hexpands hu hunit
        fun _ => return
      have hfirst : ∀ stage' v, (stage', v) = (stage, u) →
          (∀ c, stage' = .candidate c → c.unit ∈ r.suite.units) ∧
            ∃ randomness', r.Settled w.contexts randomness' v := by
        intro stage' v heq
        cases heq
        exact ⟨hunit, randomness, hu⟩
      unfold begunFrom performAll
      rw [exec_bind]
      rcases hout : (r.perform audience stage).exec u with ⟨e | go, v⟩
      · rw [hout] at hsettled
        exact ⟨fun stage' v' hmem => hfirst stage' v' (List.mem_singleton.mp hmem), _, hsettled⟩
      · rw [hout] at hsettled
        cases go with
        | false =>
            exact ⟨fun stage' v' hmem => hfirst stage' v' (List.mem_singleton.mp hmem), _, hsettled⟩
        | true =>
            obtain ⟨hbegun, hlast⟩ :=
              ih (fun c hc => hunits c (List.mem_cons_of_mem _ hc)) hsettled
            refine ⟨fun stage' v' hmem => ?_, hlast⟩
            rcases List.mem_cons.mp hmem with heq | hmem
            · exact hfirst stage' v' heq
            · exact hbegun stage' v' hmem

end Guards

/-- The context of a run is entered with its randomness alone. -/
theorem settled_entered (w : World) : r.Settled w.contexts (.fresh r.master) (r.entered w) :=
  ⟨rfl, rfl⟩

end Runner

/-! ## Whole runs -/

section Watched

variable {plan : Runner Script} {host : Host}
  {declarations : List NotifierProgram.Declaration}
  (hsuite : ∀ script ∈ plan.suite.codes, Script.avoids Script.Step.moves script = true)
  (hunits : ∀ c ∈ plan.candidates, c.unit ∈ plan.suite.units)
  (hdeclarations : ∀ declaration ∈ declarations, ∀ script ∈ declaration.scripts,
    Script.avoids Script.Step.moves script = true)

include hsuite hunits hdeclarations

/-- Watched scripts do the same above whatever seeds. -/
theorem Runner.abreast_watched (other : Procedure) {β : Bond} {seed : Seed} {seeds : List Seed}
    (hβ : β.Over (seed :: seeds) []) (hstates : β.states = true) :
    let watched := plan.map (Script.watchedProcedure host other)
    let r := plan.map (Script.procedure host)
    Abreast β watched r
      (watched.audienceOf
        (declarations.map (·.listenerBy (Script.watchedProcedure host other))))
      (r.audienceFor host declarations) watched.hooks r.hooks := by
  have hscript : ∀ script, Script.avoids Script.Step.moves script = true →
      (Script.watchedProcedure host other script).InStep β (Script.procedure host script) :=
    fun script hmoves label =>
      Script.inStep_watched _ _ hmoves label β seed seeds [] hβ hstates
  intro watched r
  rw [audienceFor_eq]
  exact abreast_of_scripts (Leads.sameSeed_of_tight hβ.tight)
    (fun script hmem => hscript script (hsuite script hmem)) hunits
    fun declaration hmem script hscripts =>
      hscript script (hdeclarations declaration hmem script hscripts)

/-- A run whose scripts look at every step whether a source is active is the run itself. -/
theorem Runner.exec_run_watched (other : Procedure) (w : World) :
    let watched := plan.map (Script.watchedProcedure host other)
    let r := plan.map (Script.procedure host)
    (watched.run (watched.audienceOf
        (declarations.map (·.listenerBy (Script.watchedProcedure host other))))).exec w =
      (r.run (r.audienceFor host declarations)).exec w := by
  intro watched r
  let β := (Terms.same w.session.trace.toList).between r.ownContext w w (above [r.master] [])
  have hclass : Abreast β watched r _ (r.audienceFor host declarations) watched.hooks r.hooks :=
    abreast_watched hsuite hunits hdeclarations other rfl rfl
  have hinside : ∀ seed, Abreast (β.around (above [seed, r.master] [])) watched r _
      (r.audienceFor host declarations) watched.hooks r.hooks :=
    fun seed => abreast_watched hsuite hunits hdeclarations other rfl rfl
  -- Candidates have seeds of their own, so the pairs are to be such above each of these.
  have hcandidates : watched.Pairs (fun code code' => ∀ seed,
      code.InStep (β.around (above [seed, r.master] [])) code') r :=
    pairs_map (fun script hmem seed label =>
      Script.inStep_watched _ _ (hsuite script hmem) _ _ seed [r.master] [] rfl rfl) hunits
  have hrun := agrees_run (v := w) (R := above [r.master] []) hclass.pairs
    ((above_nil []).push (.fresh r.master)) (fun s t hst => by rw [hst.1])
    (leads_runSurvivors hclass.pairs hcandidates rfl (.refl β) hclass.performBy_setUp
      (fun c c' hc => ?_) hclass.performBy_tearDown)
    ⟨rfl, rfl, rfl, fun _ => rfl,
      Terms.accords_self rfl (List.append_nil _).symm (List.append_nil _).symm⟩
  · obtain ⟨houtcome, hagrees, hleft, hright⟩ := hrun
    exact Prod.ext houtcome.symm (hagrees.eq_of_same (hright.trans hleft.symm)).symm
  · refine Abreast.performBy_candidate (R := above [c.seed, r.master] []) (hinside c.seed)
      (hc.imp fun _ _ h => h c.seed) (fun s t hst => ?_) fun s t hst => .inr ?_
    · exact above.push hst (.fresh c.seed)
    · obtain ⟨source, rest, -, hrest, rfl, rfl⟩ := above.pop hst
      exact ⟨source, source, rest, rest, rfl, rfl, hrest⟩

end Watched

/-- Where scripts do not move the stack by themselves, every stage that a run begins finds the
randomness of the run alone on the stack of the innermost context, which is that of the run, and
leaves nothing else there, however it ends; a candidate leaves that randomness untouched. Within the
stage all collaborators are called above it alone, those of a candidate with the randomness of the
candidate on top, and nothing but the seed in force is needed to put the hooks in order: with
collaborators that would do anything else instead, the stage is the same. So is the run with scripts
that would do anything else where no source is active. -/
theorem Runner.stack_kept {host origin : Host} {suite : Suite Script} {config : Option RunConfig}
    {sequence sequence' : Nat} {r : Runner Procedure}
    (hmake : make (Script.suiteProcedures host suite) config origin sequence = .ok (r, sequence'))
    (hsuite : ∀ script ∈ suite.codes, Script.avoids Script.Step.moves script = true)
    {declarations : List NotifierProgram.Declaration}
    (hdeclarations : ∀ declaration ∈ declarations, ∀ script ∈ declaration.scripts,
      Script.avoids Script.Step.moves script = true) (w : World) :
    let audience := r.audienceFor host declarations
    (∀ stage u, (stage, u) ∈ r.begun audience w →
        ∃ randomness, r.Settled w.contexts randomness u ∧
          (∀ other, (r.performGuarded audience (r.siteOf w.contexts randomness stage) other
            stage).exec u = (r.perform audience stage).exec u) ∧
          ∃ randomness', r.Settled w.contexts randomness' ((r.perform audience stage).exec u).2 ∧
            ∀ c, stage = .candidate c → randomness' = randomness) ∧
      (∃ randomness,
        r.Settled w.contexts randomness ((r.runSurvivors audience).exec (r.entered w)).2) ∧
      ∀ other, ∃ watched : Runner Procedure,
        make (suite.map (Script.watchedProcedure host other)) config origin sequence =
            .ok (watched, sequence') ∧
          (watched.run (watched.audienceOf
              (declarations.map (·.listenerBy (Script.watchedProcedure host other))))).exec w =
            (r.run audience).exec w := by
  intro audience
  have hcodes : ∀ code ∈ r.suite.codes, code.Keeps :=
    codes_of_make hmake fun script hmem => Script.keeps host (hsuite script hmem)
  have haudience : audience.All Procedure.Keeps :=
    audienceFor_of_make hmake (fun script hmem => Script.keeps host (hsuite script hmem))
      fun declaration hmem script hscript =>
        Script.keeps host (hdeclarations declaration hmem script hscript)
  have hexpands := expands_of_make hmake
  have hunits : ∀ c, .candidate c ∈ stages (r.survivors (r.inForce w)) →
      c.unit ∈ r.suite.units := fun c hc => unit_mem_of_mem_stages hexpands hc
  obtain ⟨hbegun, randomness, hlast⟩ :=
    settled_begunFrom hcodes haudience hexpands hunits (r.settled_entered w)
  refine ⟨fun stage u hmem => ?_, ⟨randomness, ?_⟩, fun other => ?_⟩
  · obtain ⟨hunit, randomness, hsettled⟩ := hbegun stage u hmem
    refine ⟨randomness, hsettled, fun other => ?_, ?_⟩
    · exact (exec_performGuarded hcodes haudience hexpands hsettled hunit other).1
    · exact (exec_performGuarded hcodes haudience hexpands hsettled hunit fun _ => return).2
  · rw [exec_runSurvivors, exec_bind]
    generalize (r.performAll audience (stages (r.survivors (r.inForce w)))).exec
      (r.entered w) = result at hlast ⊢
    obtain ⟨e | _, v⟩ := result
    · exact hlast
    · dsimp only
      split
      · exact hlast
      · exact hlast
  -- The runner is a plan of scripts with each script run; the watched one runs them otherwise.
  · obtain ⟨plan, rfl, rfl, hplanned, hmade⟩ := exists_plan hmake
    exact ⟨_, hmade _, exec_run_watched hsuite hplanned hdeclarations other w⟩

/-- A suite with a test that fails within two forks and runs another suite, and a hook that
interrupts the run after the test. -/
def forkingSuite : Suite Script where
  name := "Forking"
  factory := some { code := [.depth] }
  units := [{ name := "forks", body := some [
    .attempt [.fork [.bits 8, .fork [.fraction, .raise
      [{ error := { complaint := ⟨.named "RuntimeError", some "lost"⟩ } }]]]],
    .nested recklessSuite none none] }]
  levels := [{
    owner := "Forking"
    beforeAll := [{ name := "open", label := "open", code := some [.fork [.seed]] }]
    afterEach := [{ name := "stop", label := "stop", code := some [.depth, .raise
      [{ error := { complaint := ⟨.named "KeyboardInterrupt", none⟩ } }]] }] }]

/-- The run is opened, its class set up, and its candidate begun, which the interrupt leaves. -/
theorem Runner.stack_kept_forkingSuite :
    ∃ r sequence,
      make (Script.suiteProcedures {} forkingSuite) (some .unset) {} 0 = .ok (r, sequence) ∧
        let audience := r.audienceFor {} [.recording]
        (r.begun audience {}).length = 3 ∧
          ∀ stage u, (stage, u) ∈ r.begun audience {} →
            ∃ randomness, r.Settled [] randomness u ∧
              (∀ other, (r.performGuarded audience (r.siteOf [] randomness stage) other
                stage).exec u = (r.perform audience stage).exec u) ∧
              ∃ randomness', r.Settled [] randomness' ((r.perform audience stage).exec u).2 ∧
                ∀ c, stage = .candidate c → randomness' = randomness := by
  obtain ⟨⟨r, sequence⟩, hmake, hlength⟩ : ∃ made,
      make (Script.suiteProcedures {} forkingSuite) (some .unset) {} 0 = .ok made ∧
        (made.1.begun (made.1.audienceFor {} [.recording]) {}).length = 3 :=
    exists_ok_of_any (by decide +kernel)
  refine ⟨r, sequence, hmake, hlength, (stack_kept hmake (by decide) ?_ {}).1⟩
  decide

end SeededTesting
