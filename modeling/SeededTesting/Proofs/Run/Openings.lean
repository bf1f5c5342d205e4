import SeededTesting.Proofs.Run.Whole

/-! # How runs are opened

The run of a runner is a run that is opened by the runner's own means. What makers and those who are
asked keep to, the opening of a run keeps to.
-/

namespace SeededTesting

open Act

/-! ## The runner's own opening -/

/-- Actions that do the same in every world are the same. -/
theorem Act.ext_exec {α : Type} {body body' : Act α} (h : ∀ w, body.exec w = body'.exec w) :
    body = body' :=
  funext h

namespace Runner

variable (r : Runner Procedure) {audience : Audience}

theorem subscribeFrom_eq (index : Nat) (factories : List (ListenerFactory Procedure)) :
    r.subscribeFrom index factories = r.subscribeBy (makersFrom index factories) := by
  induction factories generalizing index with
  | nil => rfl
  | cons factory rest ih =>
      rw [subscribeFrom, makersFrom, subscribeBy]
      refine bind_congr fun listener => ?_
      rw [enlist, bind_assoc, ih]

/-- The test of names that is installed is asked about all candidates at once. -/
theorem exec_filterBy_own (cs : List (Candidate Procedure)) (w : World) :
    (r.filterBy r.ownOpening.ask cs).exec w =
      (.ok (cs.filter (r.keeps w.session.predicate)), w) := by
  induction cs with
  | nil => rfl
  | cons c rest ih =>
      have hkept : (r.keepsBy r.ownOpening.ask c).exec w =
          (.ok (r.keeps w.session.predicate c), w) := by
        unfold keepsBy keeps
        split
        next h =>
          rw [h, Bool.true_and]
          exact exec_bind_of_ok (exec_get w)
        next h =>
          rw [Bool.not_eq_true] at h
          rw [h, Bool.false_and]
          rfl
      rw [filterBy, exec_bind_of_ok hkept, exec_bind_of_ok ih, List.filter_cons, exec_pure]

theorem exec_survivorsBy_own (w : World) :
    (r.survivorsBy r.ownOpening.ask).exec w = (.ok (r.survivors w.session.predicate), w) := by
  unfold survivorsBy survivors
  split
  · exact r.exec_filterBy_own r.candidates w
  · rfl

theorem prepare_eq : r.prepare = r.prepareBy r.ownOpening := by
  rw [prepare, prepareBy, subscribeFrom_eq]
  refine bind_congr fun _ => bind_congr fun _ => Act.ext_exec fun w => ?_
  rw [exec_bind_of_ok (exec_get w), exec_bind_of_ok (r.exec_survivorsBy_own w)]

/-- A run is one that is opened by the factories of the suite and the filter that is installed. -/
theorem run_eq_runOpened : r.run audience = r.runOpened audience r.ownOpening := by
  rw [run, runOpened, runSurvivors, runSurvivorsBy, prepare_eq]

end Runner

/-! ## Conduct -/

/-- The makers keep to a regime, and so does whoever is asked. -/
structure Opening.Abides (ρ : Regime) (o : Opening) : Prop where
  makers : ∀ maker ∈ o.makers, Act.Abides ρ maker.make
  ask : ∀ name, Act.Abides ρ (o.ask name)

theorem Opening.Abides.under {ρ σ : Regime} {o : Opening} (h : o.Abides ρ) (hσ : ρ.Implies σ) :
    o.Abides σ :=
  ⟨fun maker hmem => (h.makers maker hmem).under hσ, fun name => (h.ask name).under hσ⟩

namespace Runner

variable (r : Runner Procedure) {audience : Audience} {ρ : Regime} {o : Opening}

theorem exists_of_mem_makersFrom {index : Nat} {factories : List (ListenerFactory Procedure)}
    {maker : Maker} (h : maker ∈ makersFrom index factories) :
    ∃ factory ∈ factories, ∃ i, maker.make = factory.call i := by
  induction factories generalizing index with
  | nil => cases h
  | cons factory rest ih =>
      rcases List.mem_cons.mp h with rfl | hrest
      · exact ⟨factory, List.mem_cons_self, index, rfl⟩
      · obtain ⟨factory, hmem, i, hmake⟩ := ih hrest
        exact ⟨factory, List.mem_cons_of_mem _ hmem, i, hmake⟩

/-- The factories of a suite keep to what their codes keep to, and a test of names does nothing. -/
theorem abides_ownOpening
    (hmade : ∀ s tag, ρ.step s { s with trace := s.trace.push (.listenerMade tag) })
    (hlisteners : ∀ s n, ρ.step s { s with listeners := n })
    (hcodes : ∀ code ∈ r.suite.codes, code.Conducts ρ anyComplaint) : r.ownOpening.Abides ρ where
  makers maker hmem := by
    obtain ⟨factory, hfactory, i, hmake⟩ := exists_of_mem_makersFrom hmem
    have hcreate := hcodes _ (Suite.listener_mem_codes hfactory List.mem_cons_self)
    rw [hmake]
    exact (factory.conduct_call hmade hlisteners hcreate i).post (fun _ _ _ => trivial)
      fun _ _ h => h
  ask _ := .bind .world fun _ => .value _

theorem abides_makeBy {maker : Maker} (h : Abides ρ maker.make) : Abides ρ (r.makeBy maker) :=
  r.conduct_makeBy h fun _ => Triple.robust_true

theorem abides_enlist (hdeclared : ∀ s declared, ρ.step s { s with declared })
    (hsubscribed : ∀ s subscribed, ρ.step s { s with subscribed }) (listener : ListenerRef) :
    Abides ρ (enlist listener) :=
  .bind (.modifySession fun s => hdeclared s _) fun _ => .modifySession fun s => hsubscribed s _

theorem abides_subscribeBy (hdeclared : ∀ s declared, ρ.step s { s with declared })
    (hsubscribed : ∀ s subscribed, ρ.step s { s with subscribed }) {makers : List Maker}
    (h : ∀ maker ∈ makers, Abides ρ maker.make) : Abides ρ (r.subscribeBy makers) := by
  induction makers with
  | nil => exact .value ()
  | cons maker rest ih =>
      rw [List.forall_mem_cons] at h
      exact .bind (r.abides_makeBy h.1) fun listener =>
        .bind (abides_enlist hdeclared hsubscribed listener) fun _ => ih h.2

section Filter

variable {ask : String → Act Bool} (hask : ∀ name, Abides ρ (ask name))

include hask

/-- Of candidates that are asked about some are kept. -/
theorem conduct_filterBy (cs : List (Candidate Procedure)) :
    Triple ρ (fun _ => True) (r.filterBy ask cs) (fun kept _ => ∀ c ∈ kept, c ∈ cs)
      (Blames anyComplaint) := by
  induction cs with
  | nil => exact Triple.value fun _ _ _ _ hc => hc
  | cons c rest ih =>
      have hkeeps : Abides ρ (r.keepsBy ask c) := by
        unfold keepsBy
        split
        · exact hask c.name
        · exact .value false
      refine Triple.bind hkeeps fun kept => Triple.bind ih fun others => ?_
      refine Triple.value fun _ _ hothers c' hc' => ?_
      cases kept with
      | false => exact List.mem_cons_of_mem c (hothers c' hc')
      | true =>
          rcases List.mem_cons.mp hc' with rfl | hmem
          · exact List.mem_cons_self
          · exact List.mem_cons_of_mem c (hothers c' hmem)

theorem conduct_survivorsBy :
    Triple ρ (fun _ => True) (r.survivorsBy ask) (fun cs _ => ∀ c ∈ cs, c ∈ r.candidates)
      (Blames anyComplaint) := by
  unfold survivorsBy
  split
  · exact r.conduct_filterBy hask r.candidates
  · exact Triple.value fun _ _ _ c hc => by cases hc

end Filter

/-- The run is prepared for candidates of its own. -/
theorem conduct_prepareBy (hρ : ρ.Performs) (hdeclared : ∀ s declared, ρ.step s { s with declared })
    (hsubscribed : ∀ s subscribed, ρ.step s { s with subscribed }) (ho : o.Abides ρ) :
    Triple ρ (fun _ => True) (r.prepareBy o) (fun cs _ => ∀ c ∈ cs, c ∈ r.candidates)
      (Blames anyComplaint) := by
  refine Triple.bind (r.abides_subscribeBy hdeclared hsubscribed ho.makers) fun _ =>
    Triple.bind (r.abides_enter hρ _) fun _ =>
      Triple.bind (r.conduct_survivorsBy ho.ask) fun cs w hw hcs => ?_
  have hlogged : Triple ρ (fun _ => True) (do
      r.log .info "Running suite" (.suiteStarted r.suite.name cs.length)
      return cs) (fun cs _ => ∀ c ∈ cs, c ∈ r.candidates) (Blames anyComplaint) :=
    Triple.bind (r.conduct_log _ _ _) fun _ => Triple.value fun _ _ _ => hcs
  exact hlogged w hw trivial

/-- What is done once the listeners are subscribed and before the run is closed. -/
def workBy (r : Runner Procedure) (audience : Audience) (ask : String → Act Bool) : Act Unit := do
  r.enter .filtering
  let survivors ← r.survivorsBy ask
  r.log .info "Running suite" (.suiteStarted r.suite.name survivors.length)
  if survivors.isEmpty then r.enter .idle else r.runClass audience survivors

theorem runSurvivorsBy_eq :
    r.runSurvivorsBy audience o =
      (do r.subscribeBy o.makers; r.workBy audience o.ask : Act Unit) := by
  rw [runSurvivorsBy, prepareBy, workBy]
  simp only [bind_assoc, pure_bind]

section Work

variable (hρ : ρ.Performs) (hcodes : ∀ code ∈ r.suite.codes, code.Conducts ρ anyComplaint)
  (haudience : audience.Conducts ρ anyComplaint) (hexpands : r.Expands)

include hρ hcodes haudience hexpands

theorem abides_workBy {ask : String → Act Bool} (hask : ∀ name, Abides ρ (ask name)) :
    Abides ρ (r.workBy audience ask) := by
  refine .bind (r.abides_enter hρ _) fun _ =>
    Triple.bind (r.conduct_survivorsBy hask) fun cs w hw hcs => ?_
  exact Conduct.bind (r.conduct_log _ _ _) (fun _ => r.abides_runFiltered hρ hcodes haudience
    fun c hc => hexpands c (hcs c hc)) w hw trivial

/-- What a run that is opened by some means keeps to up to its end. -/
theorem abides_runSurvivorsBy (hdeclared : ∀ s declared, ρ.step s { s with declared })
    (hsubscribed : ∀ s subscribed, ρ.step s { s with subscribed }) (ho : o.Abides ρ) :
    Abides ρ (r.runSurvivorsBy audience o) := by
  rw [runSurvivorsBy_eq]
  exact .bind (r.abides_subscribeBy hdeclared hsubscribed ho.makers)
    fun _ => r.abides_workBy hρ hcodes haudience hexpands ho.ask

end Work

end Runner
end SeededTesting
