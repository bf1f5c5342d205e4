import SeededTesting.Proofs.Bond.Collaborators
import SeededTesting.Proofs.Run.Orders

/-! # Stages side by side

Runners whose collaborators compare go through the stages of a run together, as long as the hooks
that they call do the same, whichever hooks these are.
-/

namespace SeededTesting

open Bond

variable {β γ : Bond}

/-- The hooks of a phase do the same, and the same errors leave them. -/
structure HookOrder.InStep (β : Bond) (order order' : HookOrder) : Prop where
  called : ∀ phase arguments, β.InStep (do callHooks arguments (← order phase))
    (do callHooks arguments (← order' phase)) Eq
  invoked : ∀ phase arguments, β.InStep (do invokeAll arguments (← order phase))
    (do invokeAll arguments (← order' phase)) SameFailures

/-- Hooks that compare, in orders that are found alike. -/
theorem HookOrder.InStep.of_pairs {order order' : HookOrder}
    (h : ∀ phase, β.InStep (order phase) (order' phase)
      (List.Forall₂ (Hook.Pairs (Procedure.InStep β)))) :
    order.InStep β order' where
  called phase arguments := (h phase).bind fun _ _ hhooks => inStep_callHooks hhooks arguments
  invoked phase arguments := (h phase).bind fun _ _ hhooks => inStep_invokeAll hhooks arguments

namespace Runner

variable {r r' : Runner Procedure} {Q : Procedure → Procedure → Prop}

theorem Pairs.ignores (hpairs : r.Pairs Q r') {c c' : Candidate Procedure} (hc : c.Pairs Q c') :
    r'.ignores c' = r.ignores c := by
  unfold Runner.ignores
  rw [hpairs.config, hpairs.metadata, hc.unit.ignored, hc.unit.metadata]

theorem Pairs.seedChain (hpairs : r.Pairs Q r') : r'.seedChain = r.seedChain := by
  rw [Runner.seedChain, Runner.seedChain, hpairs.master]

/-! ## States and reports -/

theorem inStep_enter (hpairs : r.Pairs Q r') (state : RunState) :
    β.InStep (r.enter state) (r'.enter state) Eq := by
  refine Leads.world.bind fun w v hwv => Leads.andThen (.log fun hstates => ?_) fun _ => ?_
  · rw [hpairs.seedChain, hwv.session.state_eq hstates]
  · exact .modifySession fun s t hst => { hst with state := .inl rfl }

variable {audience audience' : Audience}

/-- Reports errors one after another, each with the given seeds. -/
def reportErrors (r : Runner Procedure) (audience : Audience) (name : String)
    (seeds : List Seed) : List ErrorId → Act Unit
  | [] => return
  | e :: rest => do
    Act.augment e seeds
    r.reportFailure audience name e
    reportErrors r audience name seeds rest

/-- Of hooks that were invoked the errors are reported. -/
theorem reportOutcomes_eq (name : String) (seeds : List Seed)
    (outcomes : List (Hook Procedure × Option ErrorId)) :
    r.reportOutcomes audience name seeds outcomes =
      r.reportErrors audience name seeds (outcomes.filterMap (·.2)) := by
  induction outcomes with
  | nil => rfl
  | cons outcome rest ih =>
      obtain ⟨hook, _ | e⟩ := outcome
      · exact ih
      · unfold reportOutcomes
        rw [ih]
        rfl

section Reports

variable (hpairs : r.Pairs Q r') (haudience : audience.InStep β audience')

include hpairs haudience

theorem inStep_reportFailure (name : String) (e : ErrorId) :
    β.InStep (r.reportFailure audience name e) (r'.reportFailure audience' name e) Eq := by
  refine Leads.world.bind fun w v hwv => Leads.andThen (.log fun _ => ?_) fun _ =>
    haudience.notify _
  rw [hpairs.seedChain, hwv.errors]

theorem inStep_reportOutcomes (name : String) (seeds : List Seed)
    {outcomes outcomes' : List (Hook Procedure × Option ErrorId)}
    (h : SameFailures outcomes outcomes') :
    β.InStep (r.reportOutcomes audience name seeds outcomes)
      (r'.reportOutcomes audience' name seeds outcomes') Eq := by
  rw [reportOutcomes_eq, reportOutcomes_eq, h]
  induction outcomes.filterMap (·.2) with
  | nil => exact .value rfl
  | cons e rest ih =>
      exact (Leads.augment e seeds).andThen fun _ =>
        (inStep_reportFailure hpairs haudience name e).andThen fun _ => ih

end Reports

/-! ## Stages -/

/-- Runners whose collaborators, listeners and hooks do the same. -/
structure Abreast (β : Bond) (r r' : Runner Procedure) (audience audience' : Audience)
    (order order' : HookOrder) : Prop where
  pairs : r.Pairs (Procedure.InStep β) r'
  audience : audience.InStep β audience'
  hooks : order.InStep β order'

namespace Abreast

variable {order order' : HookOrder} (h : Abreast β r r' audience audience' order order')

include h

theorem setUpClass :
    β.InStep (r.setUpClassBy audience order) (r'.setUpClassBy audience' order') Eq := by
  have hcalled := (h.hooks.called .beforeAll []).andThen
    fun _ => (Leads.value rfl : β.InStep (pure true) (pure true) Eq)
  rw [bind_assoc, bind_assoc] at hcalled
  refine hcalled.handle fun e => Leads.andThen ?_ fun _ => .value rfl
  unfold reportSuite
  rw [h.pairs.master, h.pairs.name]
  exact (Leads.augment e _).andThen fun _ => inStep_reportFailure h.pairs h.audience _ e

theorem reportInvoked (phase : Phase) (arguments : List Instance) (name : String)
    (seeds : List Seed) :
    β.InStep
      (do
        let outcomes ← invokeAll arguments (← order phase)
        r.reportOutcomes audience name seeds outcomes)
      (do
        let outcomes ← invokeAll arguments (← order' phase)
        r'.reportOutcomes audience' name seeds outcomes) Eq := by
  have hall := (h.hooks.invoked phase arguments).bind fun outcomes outcomes' houtcomes =>
    inStep_reportOutcomes h.pairs h.audience name seeds houtcomes
  rwa [bind_assoc, bind_assoc] at hall

theorem tearDownClass :
    β.InStep (r.tearDownClassBy audience order) (r'.tearDownClassBy audience' order') Eq := by
  unfold tearDownClassBy
  rw [h.pairs.master, h.pairs.name]
  exact h.reportInvoked .afterAll [] _ _

variable {c c' : Candidate Procedure} (hc : c.Pairs (Procedure.InStep β) c')

theorem makeInstance : β.InStep r.makeInstance r'.makeInstance Eq := by
  have hfactory := h.pairs.factory
  unfold Runner.makeInstance
  generalize r.suite.factory = factory at hfactory ⊢
  generalize r'.suite.factory = factory' at hfactory ⊢
  cases hfactory with
  | none => exact .complain _
  | some hfactory => exact Factory.inStep_call hfactory

include hc

theorem callBody (target : Instance) :
    β.InStep (r.callBody c target) (r'.callBody c' target) Eq := by
  unfold Runner.callBody
  rw [hc.unit.name]
  exact (Rule.inStep_applyAll h.pairs.rules (TestUnit.inStep_call hc.unit target) _ _).bind
    fun _ _ hstatement => hstatement

theorem reportCandidate (e : ErrorId) :
    β.InStep (r.reportCandidate audience c e) (r'.reportCandidate audience' c' e) Eq := by
  unfold Runner.reportCandidate
  rw [h.pairs.master, hc.seed, hc.name]
  refine (Leads.augment e _).andThen fun _ => Leads.complaint.andThen fun complaint => ?_
  split
  · exact h.audience.notify _
  · exact inStep_reportFailure h.pairs h.audience _ e

theorem execute :
    β.InStep (r.executeBy audience order c) (r'.executeBy audience' order' c') Eq := by
  refine h.makeInstance.observe.bind fun made made' hmade => Leads.andThen ?_ fun _ => ?_
  · refine Leads.handle (Leads.andThen (.resume hmade) fun target => ?_) (h.reportCandidate hc)
    have hcalled := (h.hooks.called .beforeEach [target]).andThen fun _ => h.callBody hc target
    rwa [bind_assoc, bind_assoc] at hcalled
  · obtain rfl : made = made' := hmade.eq.symm
    obtain _ | _ | number := made
    · exact .value rfl
    · exact .value rfl
    · rw [h.pairs.master, hc.seed, hc.name]
      exact h.reportInvoked .afterEach [some number] _ _

theorem attend :
    β.InStep (r.attendBy audience order c) (r'.attendBy audience' order' c') Eq := by
  unfold attendBy
  rw [h.pairs.ignores hc, hc.name]
  refine (h.audience.notify _).andThen fun _ => Leads.andFinally ?_ (h.audience.notify _)
  split
  · exact h.audience.notify _
  · exact h.execute hc

omit hc in
theorem performBy_setUp :
    β.InStep (r.performBy audience order .setUp) (r'.performBy audience' order' .setUp) Eq := by
  refine (inStep_enter h.pairs _).andThen fun _ => h.setUpClass.andThen fun ready => ?_
  cases ready with
  | false => exact .value rfl
  | true => exact (inStep_enter h.pairs _).andThen fun _ => .value rfl

omit hc in
theorem performBy_tearDown :
    β.InStep (r.performBy audience order .tearDown) (r'.performBy audience' order' .tearDown) Eq :=
  (inStep_enter h.pairs _).andThen fun _ => h.tearDownClass.andThen fun _ => .value rfl

end Abreast

/-- A candidate is run in a scope, within which another bond holds. -/
theorem Abreast.performBy_candidate {order order' : HookOrder}
    {R : ContextStack RandomSource → ContextStack RandomSource → Prop}
    (h : Abreast (β.around R) r r' audience audience' order order') {c c' : Candidate Procedure}
    (hc : c.Pairs (Procedure.InStep (β.around R)) c')
    (henter : ∀ s t, β.stack s t → R (.fresh c.seed :: s) (.fresh c.seed :: t))
    (hleave : ∀ s t, R s t → (s = [] ∧ t = [] ∧ β.stack [] []) ∨
      ∃ a b rest rest', s = a :: rest ∧ t = b :: rest' ∧ β.stack rest rest') :
    β.InStep (r.performBy audience order (.candidate c))
      (r'.performBy audience' order' (.candidate c')) Eq := by
  rw [performBy, performBy, hc.seed]
  exact (Leads.inScope (h.attend hc) henter hleave).andThen fun _ => .value rfl

theorem inStep_performAll {stages stages' : List Stage}
    (h : List.Forall₂ (fun stage stage' =>
      β.InStep (r.perform audience stage) (r'.perform audience' stage') Eq) stages stages') :
    β.InStep (r.performAll audience stages) (r'.performAll audience' stages') Eq := by
  induction h with
  | nil => exact .value rfl
  | cons hstage _ ih =>
      refine hstage.andThen fun go => ?_
      cases go with
      | false => exact .value rfl
      | true => exact ih

/-! ## Preparation -/

section Preparation

variable (hpairs : r.Pairs (Procedure.InStep β) r')

include hpairs

theorem inStep_makeListener {factory factory' : ListenerFactory Procedure}
    (h : factory.Pairs (Procedure.InStep β) factory') (index : Nat) :
    β.InStep (r.makeListener index factory) (r'.makeListener index factory')
      fun listener listener' => listener' = listener.later β.serials := by
  refine (ListenerFactory.inStep_call h index).handle fun cause => ?_
  have hcomplaint : r'.notInstantiable factory'.tag = r.notInstantiable factory.tag := by
    rw [notInstantiable, notInstantiable, hpairs.name, h.tag]
  rw [hcomplaint]
  exact (Leads.makeError _).andThen fun e => (Leads.setCause _).andThen fun _ => .raise

theorem inStep_subscribeFrom {factories factories' : List (ListenerFactory Procedure)}
    (h : List.Forall₂ (ListenerFactory.Pairs (Procedure.InStep β)) factories factories')
    (index : Nat) :
    β.InStep (r.subscribeFrom index factories) (r'.subscribeFrom index factories') Eq := by
  induction h generalizing index with
  | nil => exact .value rfl
  | cons hfactory _ ih =>
      refine (inStep_makeListener hpairs hfactory index).bind fun listener listener' heq => ?_
      subst heq
      refine Leads.andThen ?_ fun _ => (inStep_subscribe listener).andThen fun _ => ih _
      refine .modifySession fun s t hst => { hst with declared := ?_ }
      rw [hst.declared, List.map_append]
      rfl

/-- As long as the filters are the same, the same candidates are left. -/
theorem inStep_prepare (hfilters : β.filters = true) (hcandidates : r.Pairs Q r') :
    β.InStep r.prepare r'.prepare (List.Forall₂ (Candidate.Pairs Q)) := by
  refine (inStep_subscribeFrom hpairs hpairs.listeners 0).andThen fun _ =>
    (inStep_enter hpairs _).andThen fun _ => Leads.world.bind fun w v hwv => ?_
  rw [hwv.session.predicate hfilters]
  have hsurvivors := hcandidates.survivors w.session.predicate
  refine Leads.andThen (.log fun _ => ?_) fun _ => .value hsurvivors
  rw [hpairs.seedChain, hpairs.name, hsurvivors.length_eq]

end Preparation

/-! ## Ends of runs -/

theorem inStep_unsubscribeDeclared : β.InStep unsubscribeDeclared unsubscribeDeclared Eq := by
  have hall : ∀ listeners : List ListenerRef, β.InStep (unsubscribeAll listeners)
      (unsubscribeAll (listeners.map (·.later β.serials))) Eq := by
    intro listeners
    induction listeners with
    | nil => exact .value rfl
    | cons listener rest ih => exact (inStep_unsubscribe listener).andThen fun _ => ih
  refine Leads.world.bind fun w v hwv => ?_
  rw [hwv.session.declared]
  exact (hall _).andThen fun _ => .modifySession fun s t hst => { hst with declared := rfl }

/-- Runs that have stacks of one depth are closed alike. -/
theorem leads_close (hpairs : r.Pairs Q r')
    (hdepth : ∀ s t, β.stack s t → s.length = t.length) :
    β.Leads (β.around fun _ _ => True) r.close r'.close Eq := by
  have hpop : β.Leads (β.around fun _ _ => True) (discard Act.pop) (discard Act.pop) Eq := by
    refine (Leads.pop fun s t hstacks => ?_).discard
    have hlength := hdepth s t hstacks
    cases s with
    | nil =>
        cases t with
        | nil => exact .inl ⟨rfl, rfl, trivial⟩
        | cons b t => cases hlength
    | cons a s =>
        cases t with
        | nil => cases hlength
        | cons b t => exact .inr ⟨a, b, s, t, rfl, rfl, trivial⟩
  have hloose : β.Le (β.around fun _ _ => True) := by
    intro w v hwv
    obtain ⟨s, t, -, hw, hv⟩ := hwv.contexts
    exact { hwv with contexts := ⟨s, t, trivial, hw, hv⟩ }
  refine inStep_unsubscribeDeclared.bindLe (fun _ _ _ => hpop.bind fun _ _ _ => ?_) hloose
  refine (inStep_enter hpairs _).andThen fun _ => .log fun _ => ?_
  rw [hpairs.seedChain, hpairs.name]

end Runner
end SeededTesting
