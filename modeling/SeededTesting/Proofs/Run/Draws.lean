import SeededTesting.Proofs.Bond.Scripts

/-! # Draws

What is drawn from a source changes what is drawn from it afterwards, and never its seed. As long as
the sources that scripts fork do not outlive their scopes, and none is popped that the scripts did
not fork, a run does the same whatever its scripts draw: only the values differ.
-/

namespace SeededTesting

open Act Bond

/-- Whether an event tells of a draw, or of the active seed, which may have been drawn. -/
def Event.isDraw : Event → Bool
  | .observed _ (.fraction _) | .observed _ (.bits _) | .observed _ (.forked _)
  | .observed _ (.seed _) => true
  | _ => false

namespace Script

mutual

/-- What a step does apart from draws. -/
def Step.undrawn : Step → List Step
  | .fraction => []
  | .bits width => if width < 0 then [.bits width] else []
  | .fork body => match undrawn body with
    | [] => []
    | step :: rest => [.fork (step :: rest)]
  | .attempt body => [.attempt (undrawn body)]
  | step => [step]

/-- A script without its draws. -/
def undrawn : List Step → List Step
  | [] => []
  | step :: rest => step.undrawn ++ undrawn rest

end

/-- How many sources a script holds on the stack after a step. -/
def Step.holding (held : Nat) : Step → Nat
  | .push _ => held + 1
  | .pop => held - 1
  | _ => held

mutual

/-- Whether a step pops no source that is not held, and within forks moves none. -/
def Step.rooted (forks held : Nat) : Step → Bool
  | .clear => false
  | .pop => forks == 0 && 0 < held
  | .push _ => forks == 0
  | .fork body => rooted (forks + 1) 0 body
  | .attempt body => rooted forks 0 body
  | _ => true

/-- Whether a script within so many forks has such steps only. What is pushed in an attempt may not
be there after it. -/
def rooted (forks held : Nat) : List Step → Bool
  | [] => true
  | step :: rest => step.rooted forks held && rooted forks (step.holding held) rest

end

theorem runSteps_append (host : Host) (label : String) (script rest : Script) :
    runSteps host label (script ++ rest) =
      (do
        runSteps host label script
        runSteps host label rest) := by
  induction script with
  | nil =>
      rw [List.nil_append, runSteps, pure_bind]
  | cons step script ih =>
      rw [List.cons_append, runSteps, runSteps, ih, bind_assoc]

theorem runSteps_singleton (host : Host) (label : String) (step : Step) :
    runSteps host label [step] = step.run host label := by
  rw [runSteps, runSteps]
  exact bind_pure_unit

end Script

/-! ## Actions that only draw -/

/-- A world with other contexts, and with events that have been added. -/
def World.drawn (w : World) (contexts : List RunContext) (events : List Event) : World :=
  { w with contexts, session := { w.session with trace := w.session.trace ++ events } }

theorem World.drawn_nil (w : World) (contexts : List RunContext) :
    w.drawn contexts [] = w.within contexts := by
  rw [drawn, Array.appendList_nil]
  rfl

theorem World.drawn_drawn (w : World) (contexts contexts' : List RunContext)
    (events events' : List Event) :
    (w.drawn contexts events).drawn contexts' events' = w.drawn contexts' (events ++ events') := by
  have htrace : w.session.trace ++ events ++ events' = w.session.trace ++ (events ++ events') := by
    apply Array.ext'
    simp only [Array.toList_appendList, List.append_assoc]
  unfold drawn
  rw [← htrace]

/-- An action that ends well, with the active source changed in its generator only, and with events
of draws. -/
def Act.Draws {α : Type} (body : Act α) : Prop :=
  ∀ (w : World) (context : RunContext) (outer : List RunContext) (source : RandomSource)
    (rest : ContextStack RandomSource),
    w.contexts = { context with stack := source :: rest } :: outer →
      ∃ x source' events, source'.seed = source.seed ∧ (∀ event ∈ events, event.isDraw = true) ∧
        body.exec w =
          (.ok x, w.drawn ({ context with stack := source' :: rest } :: outer) events)

namespace Act.Draws

variable {α β : Type} {body : Act α}

theorem value (x : α) : Draws (pure x : Act α) := by
  intro w context outer source rest hcontexts
  refine ⟨x, source, [], rfl, List.forall_mem_nil _, ?_⟩
  rw [exec_pure, World.drawn_nil, ← hcontexts]
  rfl

theorem bind {next : α → Act β} (h : body.Draws) (hnext : ∀ x, (next x).Draws) :
    (body >>= next).Draws := by
  intro w context outer source rest hcontexts
  obtain ⟨x, source', events, hseed, hevents, hout⟩ := h w context outer source rest hcontexts
  obtain ⟨y, source'', events', hseed', hevents', hout'⟩ :=
    hnext x (w.drawn _ events) context outer source' rest rfl
  refine ⟨y, source'', events ++ events', hseed'.trans hseed,
    List.forall_mem_append.mpr ⟨hevents, hevents'⟩, ?_⟩
  rw [exec_bind_of_ok hout, hout', World.drawn_drawn]

theorem emit {event : Event} (h : event.isDraw = true) : (Act.emit event).Draws := by
  intro w context outer source rest hcontexts
  refine ⟨(), source, [event], rfl, fun e he => List.mem_singleton.mp he ▸ h, ?_⟩
  rw [exec_emit, Array.push_eq_append, World.drawn, ← hcontexts]
  rfl

theorem draw {take : RandomSource → α × RandomSource}
    (h : ∀ source, (take source).2.seed = source.seed) : (Act.draw take).Draws := by
  intro w context outer source rest hcontexts
  refine ⟨(take source).1, (take source).2, [], h source, List.forall_mem_nil _, ?_⟩
  rw [exec_draw, hcontexts, World.drawn_nil]

theorem currentSource : Act.currentSource.Draws := by
  intro w context outer source rest hcontexts
  refine ⟨source, source, [], rfl, List.forall_mem_nil _, ?_⟩
  rw [exec_currentSource, hcontexts]
  dsimp only
  rw [World.drawn_nil, ← hcontexts]
  rfl

/-- What is drawn in a scope is drawn from its source. -/
theorem inScope {source : RandomSource} {body : Act Unit} (h : body.Draws) :
    (Act.inScope source body).Draws := by
  intro w context outer around rest hcontexts
  obtain ⟨_, source', events, -, hevents, hout⟩ := h
    (w.within ({ context with stack := source :: around :: rest } :: outer)) context outer source
    (around :: rest) rfl
  refine ⟨(), around, events, rfl, hevents, ?_⟩
  rw [Act.inScope, exec_bind, exec_push, hcontexts]
  dsimp only
  rw [exec_leaving, exec_andFinally, hout]
  dsimp only
  rw [exec_discard, exec_pop]
  rfl

end Act.Draws

/-- A script that does nothing apart from draws. -/
theorem Script.draws_runSteps {host : Host} {label : String} {script : Script}
    (h : undrawn script = []) : (runSteps host label script).Draws := by
  have hobserve : ∀ {observation : Observation},
      (Event.observed label observation).isDraw = true → (observe label observation).Draws :=
    .emit
  induction script using induction with
  | nil =>
      rw [runSteps]
      exact .value ()
  | cons step rest hinner ih =>
      rw [undrawn, List.append_eq_nil_iff] at h
      obtain ⟨hstep, hrest⟩ := h
      rw [runSteps]
      refine Act.Draws.bind ?_ fun _ => ih hrest
      -- Of all other steps something is left without draws.
      cases step with
      | fraction =>
          rw [Step.run]
          exact (Act.Draws.draw fun _ => rfl).bind fun _ => hobserve rfl
      | bits width =>
          rw [Step.undrawn] at hstep
          split at hstep
          next => cases hstep
          next hwidth =>
            rw [Step.run, if_neg hwidth]
            exact (Act.Draws.currentSource.bind fun _ => .value ()).bind fun _ =>
              (Act.Draws.draw fun _ => rfl).bind fun _ => hobserve rfl
      | fork body =>
          have hbody : undrawn body = [] := by
            rw [Step.undrawn] at hstep
            split at hstep
            next hbody => exact hbody
            next => cases hstep
          rw [Step.run]
          exact (Act.Draws.draw fun _ => rfl).bind fun _ => (hobserve rfl).bind fun _ =>
            (hinner body List.mem_cons_self hbody).inScope
      | _ => cases hstep

/-! ## Stacks that compare -/

/-- Stacks of one depth with the same seeds below the topmost sources, of which nothing is known. -/
structure Loose (top below : Nat) (s t : ContextStack RandomSource) : Prop where
  length : s.length = t.length
  deep : top + below ≤ s.length
  seeds : (s.drop top).map (·.seed) = (t.drop top).map (·.seed)

namespace Loose

variable {top below : Nat} {s t : ContextStack RandomSource} {a b : RandomSource}

theorem exists_cons (h : Loose top below s t) (hbelow : 0 < below) :
    ∃ a b s' t', s = a :: s' ∧ t = b :: t' := by
  have hlength := h.length
  have hdeep := h.deep
  cases s with
  | nil =>
      rw [List.length_nil] at hdeep
      omega
  | cons a s =>
      cases t with
      | nil => cases hlength
      | cons b t => exact ⟨a, b, s, t, rfl, rfl⟩

theorem enter (h : Loose top below s t) : Loose (top + 1) below (a :: s) (b :: t) where
  length := congrArg (· + 1) h.length
  deep := by
    have := h.deep
    rw [List.length_cons]
    omega
  seeds := h.seeds

theorem leave (h : Loose (top + 1) below (a :: s) (b :: t)) : Loose top below s t where
  length := Nat.succ_inj.mp h.length
  deep := by
    have := h.deep
    rw [List.length_cons] at this
    omega
  seeds := h.seeds

theorem push (h : Loose 0 below s t) (hseed : a.seed = b.seed) :
    Loose 0 (below + 1) (a :: s) (b :: t) where
  length := congrArg (· + 1) h.length
  deep := by
    have := h.deep
    rw [List.length_cons]
    omega
  seeds := by
    have hseeds := h.seeds
    rw [List.drop_zero, List.drop_zero] at hseeds ⊢
    rw [List.map_cons, List.map_cons, hseed, hseeds]

theorem pop (h : Loose 0 (below + 1) (a :: s) (b :: t)) : Loose 0 below s t where
  length := Nat.succ_inj.mp h.length
  deep := by
    have := h.deep
    rw [List.length_cons] at this
    omega
  seeds := (List.cons_eq_cons.mp h.seeds).2

theorem lower {n : Nat} (h : Loose top (below + n) s t) : Loose top below s t :=
  { h with deep := (Nat.add_le_add_left (Nat.le_add_right _ _) _).trans h.deep }

/-- The topmost seeds are the same if those of all sources are. -/
theorem seed_eq (h : Loose 0 below (a :: s) (b :: t)) : a.seed = b.seed :=
  (List.cons_eq_cons.mp h.seeds).1

theorem redrawn {a' b' : RandomSource} (h : Loose top below (a :: s) (b :: t))
    (ha : a'.seed = a.seed) (hb : b'.seed = b.seed) : Loose top below (a' :: s) (b' :: t) where
  length := h.length
  deep := h.deep
  seeds := by
    cases top with
    | zero =>
        have hseeds := h.seeds
        rw [List.drop_zero, List.drop_zero, List.map_cons, List.map_cons] at hseeds ⊢
        rw [ha, hb]
        exact hseeds
    | succ top => exact h.seeds

end Loose

/-! ## Bonds between runs that draw differently -/

/-- Two runs with the same states and unlike draws, which are not seen. Within scopes of forks the
topmost sources are unlike as well. -/
structure Bond.Apart (β : Bond) (forks below : Nat) : Prop where
  stack : β.stack = Loose forks below
  active : 0 < below
  states : β.states = true
  unseen : ∀ event, event.isDraw = true → β.seen event = false

namespace Bond.Apart

variable {β : Bond} {forks below : Nat} (h : β.Apart forks below)

include h

theorem around_eq : β.around (Loose forks below) = β := by
  rw [← h.stack]
  rfl

theorem around (forks' : Nat) {below' : Nat} (hactive : 0 < below') :
    (β.around (Loose forks' below')).Apart forks' below' where
  stack := rfl
  active := hactive
  states := h.states
  unseen := h.unseen

theorem loose {s t : ContextStack RandomSource} (hst : β.stack s t) : Loose forks below s t := by
  rwa [h.stack] at hst

/-- In both runs there is a source on top. -/
theorem atop {w v : World} (hwv : β.Holds w v) : ∃ a b s t, Loose forks below (a :: s) (b :: t) ∧
    w.contexts = { β.context with stack := a :: s } :: β.outer ∧
      v.contexts = { β.context with stack := b :: t } :: β.outer' := by
  obtain ⟨s, t, hst, hw, hv⟩ := hwv.contexts
  replace hst := h.loose hst
  obtain ⟨a, b, s, t, rfl, rfl⟩ := hst.exists_cons h.active
  exact ⟨a, b, s, t, hst, hw, hv⟩

theorem draw {α : Type} {take : RandomSource → α × RandomSource}
    (htake : ∀ source, (take source).2.seed = source.seed) :
    β.InStep (Act.draw take) (Act.draw take) fun _ _ => True := by
  intro w v hwv
  obtain ⟨a, b, s, t, hst, hw, hv⟩ := h.atop hwv
  have hholds := hwv.withStacks (hst.redrawn (htake a) (htake b))
  rw [h.around_eq] at hholds
  rw [exec_draw, exec_draw, hw, hv]
  exact ⟨hholds, trivial⟩

theorem currentSource : β.InStep Act.currentSource Act.currentSource
    fun a b => ∃ s t, Loose forks below (a :: s) (b :: t) := by
  intro w v hwv
  obtain ⟨a, b, s, t, hst, hw, hv⟩ := h.atop hwv
  rw [exec_currentSource, exec_currentSource, hw, hv]
  exact ⟨hwv, s, t, hst⟩

theorem emit {event event' : Event} (hevent : event.isDraw = true)
    (hevent' : event'.isDraw = true) :
    β.InStep (Act.emit event) (Act.emit event') Eq := by
  refine .modifySession fun s t hst => ?_
  rw [Array.push_eq_append, Array.push_eq_append]
  have hunseen : [event'].filter β.seen = [event].filter β.seen := by
    simp only [List.filter_singleton, h.unseen _ hevent, h.unseen _ hevent', cond_false]
  exact hst.append hunseen

/-- What only draws does as good as nothing. -/
theorem nothing {body : Act Unit} (hbody : body.Draws) : β.InStep body (pure ()) Eq := by
  intro w v hwv
  obtain ⟨a, b, s, t, hst, hw, hv⟩ := h.atop hwv
  obtain ⟨_, a', events, hseed, hevents, hout⟩ := hbody w _ _ _ _ hw
  have hnothing : [].filter β.seen = events.filter β.seen :=
    (List.filter_eq_nil_iff.mpr fun event hmem => by
      rw [h.unseen event (hevents event hmem)]
      exact Bool.false_ne_true).symm
  have hsession := hwv.session.append hnothing
  rw [Array.appendList_nil] at hsession
  have hholds := (hwv.withSession hsession).withStacks (hst.redrawn hseed rfl)
  rw [h.around_eq, ← hv] at hholds
  rw [hout, exec_pure]
  exact ⟨hholds, rfl⟩

end Bond.Apart

/-- Outside forks the same seeds are popped. -/
theorem Bond.leads_pop {β : Bond} {below : Nat} :
    (β.around (Loose 0 (below + 1))).Leads (β.around (Loose 0 below)) Act.pop Act.pop
      fun a b => b.seed = a.seed := by
  intro w v hwv
  obtain ⟨s, t, hst, hw, hv⟩ := hwv.contexts
  obtain ⟨a, b, s, t, rfl, rfl⟩ := hst.exists_cons below.succ_pos
  rw [exec_pop, exec_pop, hw, hv]
  exact ⟨hwv.withStacks hst.pop, hst.seed_eq.symm⟩

/-! ## Scripts without their draws -/

namespace Script

variable {host : Host} {label : String} {β : Bond} {forks below held : Nat}

theorem undrawn_fork {body : Script} (h : (Step.fork body).undrawn ≠ []) :
    (Step.fork body).undrawn = [.fork (undrawn body)] := by
  rw [Step.undrawn] at h ⊢
  generalize undrawn body = bare at h ⊢
  cases bare with
  | nil => exact absurd rfl h
  | cons step rest => rfl

/-- A step that is no draw stays. -/
theorem undrawn_bits {width : Int} (h : (Step.bits width).undrawn ≠ []) :
    (Step.bits width).undrawn = [.bits width] := by
  rw [Step.undrawn] at h ⊢
  split at h
  next hwidth => rw [if_pos hwidth]
  next => exact absurd rfl h

/-- Steps that ask about the stack, or draw, do the same but for what they see. -/
theorem inStep_asks_of_apart (h : β.Apart forks below) {step : Step} (hstep : step.asks = true) :
    β.InStep (step.run host label) (step.run host label) Eq := by
  cases step with
  | fraction =>
      rw [Step.run]
      exact (h.draw fun _ => rfl).bind fun _ _ _ => h.emit rfl rfl
  | bits width =>
      exact inStep_bits h.currentSource ((h.draw fun _ => rfl).bind fun _ _ _ => h.emit rfl rfl)
  | seed =>
      rw [Step.run]
      exact h.currentSource.bind fun _ _ _ => h.emit rfl rfl
  | depth =>
      rw [Step.run]
      refine Leads.currentContext.bind fun c d hcd => ?_
      obtain ⟨s, t, hst, rfl, rfl⟩ := hcd
      -- The stacks have other sources but are equally deep, so the same depth is seen.
      have hdepth : ContextStack.depth t = ContextStack.depth s := (h.loose hst).length.symm
      dsimp only
      rw [hdepth]
      exact .emit _
  | context =>
      rw [Step.run]
      refine Leads.currentContext.bind fun c d hcd => ?_
      obtain ⟨s, t, -, rfl, rfl⟩ := hcd
      exact .emit _
  | _ => cases hstep

/-- A script does the same without its draws. What it holds on the stack may be gone when it has
ended. -/
def Undraws (host : Host) (script : Script) : Prop :=
  ∀ (β : Bond) (forks below held : Nat), 0 < below → β.Apart forks (below + held) →
    rooted forks held script = true → ∀ label, β.Leads (β.around (Loose forks below))
      (runSteps host label script) (runSteps host label (undrawn script)) Eq

theorem Undraws.inStep {script : Script} (h : Undraws host script) (hβ : β.Apart forks below)
    (hrooted : rooted forks 0 script = true) (label : String) :
    β.InStep (runSteps host label script) (runSteps host label (undrawn script)) Eq := by
  have hleads := h β forks below 0 hβ.active hβ hrooted label
  rwa [hβ.around_eq] at hleads

/-- A step does the same without its draws if the scripts in it do. -/
theorem leads_undrawnStep (h : β.Apart forks (below + held)) {step : Step}
    (hstep : step.rooted forks held = true) (hinner : ∀ script ∈ step.inner, Undraws host script) :
    β.Leads (β.around (Loose forks (below + step.holding held))) (step.run host label)
      (runSteps host label step.undrawn) Eq := by
  have hstays : ∀ {body body' : Act Unit}, step.holding held = held → β.InStep body body' Eq →
      β.Leads (β.around (Loose forks (below + step.holding held))) body body' Eq := by
    intro body body' hholding hbody
    rwa [hholding, h.around_eq]
  -- A step of which nothing is left has only drawn, and then the stacks stay apart as they were.
  by_cases hdraws : step.undrawn = []
  · have hholding : step.holding held = held := by
      cases step <;> first | rfl | cases hdraws
    rw [hdraws, runSteps, ← runSteps_singleton]
    refine hstays hholding (h.nothing (draws_runSteps ?_))
    rw [undrawn, hdraws, undrawn, List.nil_append]
  cases step with
  | fraction => exact absurd rfl hdraws
  | bits width =>
      rw [undrawn_bits hdraws, runSteps_singleton]
      exact hstays rfl (inStep_asks_of_apart h rfl)
  | seed | depth | context =>
      rw [Step.undrawn, runSteps_singleton]
      · exact hstays rfl (inStep_asks_of_apart h rfl)
      all_goals simp
  | fork body =>
      rw [undrawn_fork hdraws, runSteps_singleton, Step.run_fork, Step.run_fork]
      refine hstays rfl ((h.draw fun _ => rfl).bind fun child child' _ => ?_)
      refine (h.emit rfl rfl).andThen fun _ => ?_
      -- The children may differ in their seeds, so within the fork one more source is loose.
      have hbody := (hinner body List.mem_cons_self).inStep (h.around (forks + 1) h.active) hstep
        label
      refine Leads.inScope hbody (fun s t hst => (h.loose hst).enter) fun s t hst => ?_
      obtain ⟨a, b, s, t, rfl, rfl⟩ := hst.exists_cons h.active
      exact .inr ⟨a, b, s, t, rfl, rfl, h.stack ▸ hst.leave⟩
  | attempt body =>
      rw [Step.undrawn, runSteps_singleton, Step.run, Step.run]
      refine hstays rfl
        (((hinner body List.mem_cons_self).inStep h hstep label).handle fun e => ?_)
      exact Leads.complaint.andThen fun c => inStep_observe _
  | push seed =>
      obtain rfl : forks = 0 := of_decide_eq_true hstep
      rw [Step.undrawn, runSteps_singleton, Step.run]
      · exact Leads.push fun s t hst => (h.loose hst).push rfl
      all_goals simp
  | pop =>
      rw [Step.rooted, Bool.and_eq_true] at hstep
      obtain rfl : forks = 0 := of_decide_eq_true hstep.1
      -- What is popped was pushed by the script, so it has the same seed on both sides.
      obtain ⟨rest, rfl⟩ := Nat.exists_eq_succ_of_ne_zero (of_decide_eq_true hstep.2).ne'
      rw [Step.undrawn, runSteps_singleton, Step.run, ← h.around_eq]
      · refine Bond.leads_pop.bind fun a b hseed => ?_
        rw [hseed]
        exact inStep_observe _
      all_goals simp
  | clear => cases hstep
  | _ =>
      rw [Step.undrawn, runSteps_singleton]
      · exact hstays rfl
          (inStep_still rfl (fun _ => h.states) fun script _ => repeats host script)
      all_goals simp

/-- A script that pops only what it has pushed, and moves nothing on the sources of its forks, does
the same without its draws. -/
theorem undraws (host : Host) (script : Script) : Undraws host script := by
  have hlower : ∀ {β : Bond} {forks below held : Nat},
      (β.around (Loose forks (below + held))).Le (β.around (Loose forks below)) := by
    intro β forks below held w v hwv
    obtain ⟨s, t, hst, hw, hv⟩ := hwv.contexts
    exact { hwv with contexts := ⟨s, t, hst.lower, hw, hv⟩ }
  induction script using induction with
  | nil =>
      intro β forks below held _ h _ label
      rw [undrawn, runSteps]
      refine (Leads.value rfl).conseq ?_ fun _ _ h => h
      rw [← h.around_eq]
      exact hlower
  | cons step rest hinner ih =>
      intro β forks below held hbelow h hrooted label
      rw [rooted, Bool.and_eq_true] at hrooted
      rw [undrawn, runSteps_append, runSteps]
      refine (leads_undrawnStep h hrooted.1 hinner).bindLe (fun _ _ _ => ?_) hlower
      exact ih _ forks below _ hbelow (h.around _ (Nat.add_pos_left hbelow _)) hrooted.2 label

end Script

/-! ## Runs without draws -/

namespace Runner

/-- The run of scripts that are run in some way, those of declared listeners included. -/
def runBy (plan : Runner Script) (declarations : List NotifierProgram.Declaration)
    (f : Script → Procedure) : Act Unit :=
  (plan.map f).run ((plan.map f).audienceOf (declarations.map (·.listenerBy f)))

variable {host origin origin' : Host} {suite suite' : Suite Script} {config : RunConfig}
  {sequence sequence' next next' : Nat} {r r' : Runner Procedure}
  {declarations : List NotifierProgram.Declaration}

section Plan

variable {plan : Runner Script} (hunits : ∀ c ∈ plan.candidates, c.unit ∈ plan.suite.units)
  (hsuite : ∀ script ∈ plan.suite.codes, Script.rooted 0 0 script = true)
  (hdeclarations : ∀ declaration ∈ declarations, ∀ script ∈ declaration.scripts,
    Script.rooted 0 0 script = true)

include hunits hsuite hdeclarations

theorem abreast_undrawn (host : Host) {β : Bond} {below : Nat} (hβ : β.Apart 0 below) :
    let r := plan.map (Script.procedure host)
    let bare := plan.map (Script.procedure host ∘ Script.undrawn)
    Abreast β r bare (r.audienceOf (declarations.map (·.listenerBy (Script.procedure host))))
      (bare.audienceOf
        (declarations.map (·.listenerBy (Script.procedure host ∘ Script.undrawn))))
      r.hooks bare.hooks := by
  have hscript : ∀ script, Script.rooted 0 0 script = true → (Script.procedure host script).InStep β
      (Script.procedure host (Script.undrawn script)) :=
    fun script hrooted => (Script.undraws host script).inStep hβ hrooted
  have hseed : β.SameSeed := hβ.currentSource.conseq (.refl β)
    fun source source' ⟨_, _, hst⟩ => hst.seed_eq.symm
  exact abreast_of_scripts hseed (fun script hmem => hscript script (hsuite script hmem)) hunits
    fun declaration hmem script hscripts =>
      hscript script (hdeclarations declaration hmem script hscripts)

/-- A run shows the same without the draws of its scripts, but for these. -/
theorem reconciles_undrawn (host : Host) (w : World) :
    Terms.Reconciles
      { Terms.same w.session.trace.toList with seen := fun event => !event.isDraw } w w
      (plan.runBy declarations (Script.procedure host))
      (plan.runBy declarations (Script.procedure host ∘ Script.undrawn)) := by
  let τ : Terms := { Terms.same w.session.trace.toList with seen := fun event => !event.isDraw }
  let β := τ.between (plan.map (Script.procedure host)).ownContext w w (Loose 0 1)
  have hβ : β.Apart 0 1 := ⟨rfl, Nat.one_pos, rfl, fun event h => congrArg not h⟩
  have hclass := abreast_undrawn hunits hsuite hdeclarations host hβ
  have hinside := abreast_undrawn hunits hsuite hdeclarations host (hβ.around 0 Nat.two_pos)
  refine agrees_run hclass.pairs ⟨rfl, Nat.le_refl 1, rfl⟩ (fun s t hst => hst.length)
    (leads_runSurvivors hclass.pairs hinside.pairs rfl (.refl β) hclass.performBy_setUp
      (fun c c' hc => ?_) hclass.performBy_tearDown)
    ⟨rfl, rfl, rfl, fun _ => rfl,
      Terms.accords_self rfl (List.append_nil _).symm (List.append_nil _).symm⟩
  refine Abreast.performBy_candidate hinside hc (fun s t hst => hst.push rfl) fun s t hst => .inr ?_
  obtain ⟨a, b, s, t, rfl, rfl⟩ := hst.exists_cons Nat.two_pos
  exact ⟨a, b, s, t, rfl, rfl, hst.pop⟩

end Plan

variable
  (hmake : make (Script.suiteProcedures host suite) (some config) origin sequence =
    .ok (r, sequence'))
  (hmake' : make (Script.suiteProcedures host suite') (some config) origin' next = .ok (r', next'))
  (hmaster : r'.master = r.master)

include hmake hmake' hmaster

/-- Runs of suites whose scripts differ in draws only show the same but for these. -/
theorem shown_run_of_undrawn (hsuite : suite'.map Script.undrawn = suite.map Script.undrawn)
    (hrooted : ∀ script ∈ suite.codes ++ suite'.codes, Script.rooted 0 0 script = true)
    (hdeclarations : ∀ declaration ∈ declarations, ∀ script ∈ declaration.scripts,
      Script.rooted 0 0 script = true) (w : World) :
    (r'.run (r'.audienceFor host declarations)).shown Event.isDraw w =
      (r.run (r.audienceFor host declarations)).shown Event.isDraw w := by
  obtain ⟨hfirst, hsecond⟩ := List.forall_mem_append.mp hrooted
  obtain ⟨plan, rfl, rfl, hunits, hbare⟩ := exists_plan hmake
  obtain ⟨plan', rfl, rfl, hunits', hbare'⟩ := exists_plan hmake'
  -- Without draws the two suites are one, and one seed makes one runner of it.
  have hsame : plan'.map (Script.procedure host ∘ Script.undrawn) =
      plan.map (Script.procedure host ∘ Script.undrawn) := by
    have hsuites : plan'.suite.map (Script.procedure host ∘ Script.undrawn) =
        plan.suite.map (Script.procedure host ∘ Script.undrawn) := by
      rw [← Suite.map_map, ← Suite.map_map, hsuite]
    have hmade := hbare' (Script.procedure host ∘ Script.undrawn)
    rw [hsuites] at hmade
    exact (madeOf_of_make (hbare _)).eq_of_master (madeOf_of_make hmade) hmaster
  have hshown := (reconciles_undrawn hunits hfirst hdeclarations host w).shown_eq rfl rfl rfl
  have hshown' := (reconciles_undrawn hunits' hsecond hdeclarations host w).shown_eq rfl rfl rfl
  unfold runBy at hshown hshown'
  rw [hsame, hshown, ← audienceFor_eq, ← audienceFor_eq] at hshown'
  exact hshown'.symm

end Runner

end SeededTesting
