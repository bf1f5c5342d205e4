import SeededTesting.Proofs.Run.Making
import SeededTesting.Proofs.Run.Stages
import SeededTesting.Run.Opening
import SeededTesting.Run.Report

/-! # Runs are sound

Whatever its collaborators do, a run leaves a lawful world behind, keeps all that was said by error
objects, and leaves the contexts exactly as they were when it started. This holds of a run within
another one as well.
-/

namespace SeededTesting

open Act

/-- A regime under which a run may take up its work. -/
structure Regime.Prepares (ρ : Regime) : Prop where
  made : ∀ s tag, ρ.step s { s with trace := s.trace.push (.listenerMade tag) }
  state : ∀ s state, ρ.step s { s with state }
  listeners : ∀ s n, ρ.step s { s with listeners := n }
  declared : ∀ s declared, ρ.step s { s with declared }
  subscribed : ∀ s index serial,
    ρ.step s { s with subscribed := s.subscribed ++ [.declared index serial] }

/-- A regime under which a run may end its work. -/
structure Regime.Closes (ρ : Regime) : Prop where
  state : ∀ s state, ρ.step s { s with state }
  declared : ∀ s declared, ρ.step s { s with declared }
  unsubscribed : ∀ s listener, ρ.step s { s with subscribed := s.subscribed.erase listener }

theorem Regime.Prepares.free : Regime.free.Prepares where
  made _ _ := trivial
  state _ _ := trivial
  listeners _ _ := trivial
  declared _ _ := trivial
  subscribed _ _ _ := trivial

theorem Regime.Closes.free : Regime.free.Closes where
  state _ _ := trivial
  declared _ _ := trivial
  unsubscribed _ _ := trivial

/-- A regime under which collaborators may be called and listeners told. -/
structure Regime.Calls (ρ : Regime) : Prop where
  traces : ρ.Traces
  record : ∀ s listener n, ρ.step s (s.record listener n)

theorem Regime.Calls.free : Regime.free.Calls where
  traces := .free
  record _ _ _ := trivial

/-- A regime under which a run may work on its class and its candidates. -/
structure Regime.Performs (ρ : Regime) : Prop extends ρ.Calls where
  state : ∀ s state, ρ.step s { s with state }

theorem Regime.Performs.free : Regime.free.Performs where
  toCalls := .free
  state _ _ := trivial

/-- A regime under which a run may do all of its work. -/
structure Regime.Works (ρ : Regime) : Prop where
  traces : ρ.Traces
  prepares : ρ.Prepares
  closes : ρ.Closes
  record : ∀ s listener n, ρ.step s (s.record listener n)

theorem Regime.Works.free : Regime.free.Works where
  traces := .free
  prepares := .free
  closes := .free
  record _ _ _ := trivial

theorem Regime.Works.performs {ρ : Regime} (h : ρ.Works) : ρ.Performs :=
  ⟨⟨h.traces, h.record⟩, h.closes.state⟩

/-- The regime that asks for stacks to be rewound and for nothing else. -/
def Regime.still : Regime where
  balanced := True
  step _ _ := True
  refl _ := trivial
  trans _ _ := trivial

theorem Regime.Implies.still {ρ : Regime} (h : ρ.balanced) : ρ.Implies .still :=
  ⟨fun _ => h, fun _ _ _ => trivial⟩

/-- The complaints that anything may make. -/
def anyComplaint (_ : Complaint) : Prop :=
  True

theorem complains_any : Complains anyComplaint where
  misuse _ := trivial
  refusal _ _ _ _ := trivial
  uncallable := trivial

/-- Keeping to a regime, whatever errors are raised. -/
abbrev Act.Abides {α : Type} (ρ : Regime) (body : Act α) : Prop :=
  Conduct ρ anyComplaint body

/-- Keeping worlds lawful and growing them, and no more. -/
abbrev Act.Sound {α : Type} (body : Act α) : Prop :=
  Abides .free body

/-- A factory makes a listener of its own. -/
theorem ListenerFactory.conduct_call {ρ : Regime} {factory : ListenerFactory Procedure}
    (hmade : ∀ s tag, ρ.step s { s with trace := s.trace.push (.listenerMade tag) })
    (hlisteners : ∀ s n, ρ.step s { s with listeners := n })
    (h : factory.create.Conducts ρ anyComplaint) (index : Nat) :
    Triple ρ (fun _ => True) (factory.call index)
      (fun listener _ => ∃ serial, listener = .declared index serial) (Blames anyComplaint) := by
  have hemit : Abides ρ (Act.emit (.listenerMade factory.tag)) :=
    .modifySession fun s => hmade s _
  refine Triple.bind hemit fun _ => Triple.bind (h _) fun _ => ?_
  split
  · exact Triple.value fun _ _ _ => ⟨none, rfl⟩
  · exact Triple.bind Conduct.world fun w => Triple.bind
      (Conduct.modifySession fun s => hlisteners s _) fun _ =>
        Triple.value fun _ _ _ => ⟨some w.session.listeners, rfl⟩

namespace Runner

variable (r : Runner Procedure) {audience : Audience}

theorem escapes_any : Escapes anyComplaint anyComplaint :=
  ⟨fun _ _ _ => trivial, fun _ _ _ _ => trivial⟩

variable {ρ : Regime}

theorem active_any : Active ρ anyComplaint fun _ => True :=
  ⟨fun _ _ _ _ _ => trivial, Conduct.currentSource complains_any.toTolerates⟩

theorem conduct_enter {B : Complaint → Prop} (hstate : ∀ s state, ρ.step s { s with state })
    (state : RunState) : Conduct ρ B (r.enter state) :=
  .bind .world fun _ => .bind (r.conduct_log _ _ _) fun _ => .modifySession fun s => hstate s state

/-! ## Declared listeners -/

/-- Where a maker fails, the error that is raised has one at hand for its cause. -/
theorem conduct_makeBy {maker : Maker} {V : ListenerRef → World → Prop}
    (h : Triple ρ (fun _ => True) maker.make V (Blames anyComplaint))
    (hV : ∀ listener, Triple.Robust (V listener)) :
    Triple ρ (fun _ => True) (r.makeBy maker) V (Blames anyComplaint) := by
  refine Triple.handle h ?_ (fun e _ h _ _ => h) (robust_blames _) hV (robust_blames _)
  intro cause
  have hmake : Triple ρ (fun w => Blames anyComplaint cause w ∧ cause < w.errors.size ∧
        (w.errors.get cause).kind.interrupt = false)
      (Act.makeError (r.notInstantiable maker.tag))
      (fun e w => cause < w.errors.size ∧ e < w.errors.size) (Blames anyComplaint) :=
    (Triple.makeError (Triple.robust_made cause)).conseq (fun _ _ h => h.2.1)
      (fun _ _ _ h => ⟨h.1, h.2.1⟩) fun _ _ _ _ h => h
  refine Triple.bind hmake fun e => Triple.bind (U := fun _ => Blames anyComplaint e) ?_
    fun _ => ?_
  · exact (Triple.setCause (Triple.robust_made e)).conseq
      (fun _ _ h => ⟨h.2, fun o ho => by cases ho; exact h.1⟩) (fun _ _ _ h => ⟨h, trivial⟩)
      fun _ _ _ _ h => h
  · exact (Triple.raise (robust_blames _ e)).pre fun _ _ h => ⟨h, h.1⟩

section Preparing

variable (hprepares : ρ.Prepares)

include hprepares

theorem conduct_makeListener {factory : ListenerFactory Procedure}
    (h : factory.create.Conducts ρ anyComplaint) (index : Nat) :
    Triple ρ (fun _ => True) (r.makeListener index factory)
      (fun listener _ => ∃ serial, listener = .declared index serial) (Blames anyComplaint) := by
  change Triple ρ _ (r.makeBy ⟨factory.tag, factory.call index⟩) _ _
  exact r.conduct_makeBy (factory.conduct_call hprepares.made hprepares.listeners h index)
    fun _ _ _ _ _ h => h

theorem conduct_subscribeFrom {factories : List (ListenerFactory Procedure)}
    (h : ∀ factory ∈ factories, factory.create.Conducts ρ anyComplaint) (index : Nat) :
    Conduct ρ anyComplaint (r.subscribeFrom index factories) := by
  induction factories generalizing index with
  | nil => exact .value ()
  | cons factory rest ih =>
      have hmake := r.conduct_makeListener hprepares (h factory List.mem_cons_self) index
      refine Triple.bind hmake fun listener w hw ⟨serial, hlistener⟩ => ?_
      subst hlistener
      have hrest : Conduct ρ anyComplaint (do
          Act.modifySession fun s => { s with declared := s.declared ++ [.declared index serial] }
          subscribe (.declared index serial)
          r.subscribeFrom (index + 1) rest) := by
        refine .bind (.modifySession fun s => hprepares.declared s _) fun _ =>
          .bind (.modifySession fun s => hprepares.subscribed s _ _) fun _ => ih ?_ _
        intro factory hmem
        exact h factory (List.mem_cons_of_mem _ hmem)
      exact hrest w hw trivial

/-- The run is prepared for candidates of its own. -/
theorem conduct_prepare (hcodes : ∀ code ∈ r.suite.codes, code.Conducts ρ anyComplaint) :
    Triple ρ (fun _ => True) r.prepare (fun cs _ => ∀ c ∈ cs, c ∈ r.candidates)
      (Blames anyComplaint) := by
  have hcreate : ∀ factory ∈ r.suite.listeners, factory.create.Conducts ρ anyComplaint :=
    fun factory hmem => hcodes _ (Suite.listener_mem_codes hmem List.mem_cons_self)
  refine Triple.bind (r.conduct_subscribeFrom hprepares hcreate 0) fun _ =>
    Triple.bind (r.conduct_enter hprepares.state _) fun _ => Triple.bind Conduct.world fun w =>
      Triple.bind (r.conduct_log _ _ _) fun _ => Triple.value fun _ _ _ c hc => ?_
  exact r.mem_candidates_of_mem_survivors hc

end Preparing

theorem conduct_unsubscribeAll {B : Complaint → Prop} (hcloses : ρ.Closes)
    (listeners : List ListenerRef) : Conduct ρ B (unsubscribeAll listeners) := by
  induction listeners with
  | nil => exact .value ()
  | cons listener rest ih =>
      exact .bind (.modifySession fun s => hcloses.unsubscribed s listener) fun _ => ih

theorem conduct_unsubscribeDeclared {B : Complaint → Prop} (hcloses : ρ.Closes) :
    Conduct ρ B unsubscribeDeclared :=
  .bind .world fun _ => .bind (conduct_unsubscribeAll hcloses _) fun _ =>
    .modifySession fun s => hcloses.declared s _

theorem conduct_close (hρ : ¬ρ.balanced) (hcloses : ρ.Closes) :
    Conduct ρ anyComplaint r.close :=
  .bind (conduct_unsubscribeDeclared hcloses) fun _ =>
    .bind (.discard (.pop hρ complains_any.toTolerates)) fun _ =>
      .bind (r.conduct_enter hcloses.state _) fun _ => r.conduct_log _ _ _

/-! ## Stages -/

section Stages

variable (hρ : ρ.Calls) (hcodes : ∀ code ∈ r.suite.codes, code.Conducts ρ anyComplaint)
  (haudience : audience.Conducts ρ anyComplaint)

include hρ haudience

theorem abides_notify (n : Notification ErrorId) : Abides ρ (audience.notify n) :=
  Audience.conduct_notify hρ.traces.heard hρ.record haudience n

include hcodes

theorem abides_setUpClass : Abides ρ (r.setUpClass audience) :=
  r.conduct_setUpClass hρ.traces complains_any hcodes escapes_any (abides_notify hρ haudience)

theorem abides_tearDownClass : Abides ρ (r.tearDownClass audience) :=
  r.conduct_tearDownClass hρ.traces complains_any hcodes escapes_any
    (abides_notify hρ haudience) active_any.source

theorem abides_runCandidate {c : Candidate Procedure} (hunit : c.unit ∈ r.suite.units) :
    Abides ρ (r.runCandidate audience c) :=
  .inScope complains_any.toTolerates (r.conduct_attend hρ.traces complains_any hcodes
    escapes_any (abides_notify hρ haudience) active_any hunit)

theorem abides_runCandidates {cs : List (Candidate Procedure)}
    (hunits : ∀ c ∈ cs, c.unit ∈ r.suite.units) : Abides ρ (r.runCandidates audience cs) := by
  induction cs with
  | nil => exact .value ()
  | cons c rest ih =>
      refine .bind (r.abides_runCandidate hρ hcodes haudience (hunits c List.mem_cons_self))
        fun _ => ih ?_
      exact fun c hmem => hunits c (List.mem_cons_of_mem _ hmem)

end Stages

section Classes

variable (hρ : ρ.Performs) (hcodes : ∀ code ∈ r.suite.codes, code.Conducts ρ anyComplaint)
  (haudience : audience.Conducts ρ anyComplaint)

include hρ

theorem abides_enter (state : RunState) : Abides ρ (r.enter state) :=
  r.conduct_enter hρ.state state

include hcodes haudience

theorem abides_runClass {cs : List (Candidate Procedure)}
    (hunits : ∀ c ∈ cs, c.unit ∈ r.suite.units) : Abides ρ (r.runClass audience cs) := by
  refine .bind (r.abides_enter hρ _) fun _ =>
    .bind (r.abides_setUpClass hρ.toCalls hcodes haudience) fun ready => ?_
  cases ready with
  | false => exact .value ()
  | true =>
      exact .bind (r.abides_enter hρ _) fun _ =>
        .bind (r.abides_runCandidates hρ.toCalls hcodes haudience hunits) fun _ =>
          .bind (r.abides_enter hρ _) fun _ => r.abides_tearDownClass hρ.toCalls hcodes haudience

/-- Candidates that come from the units of the suite are run, unless there is none. -/
theorem abides_runFiltered {cs : List (Candidate Procedure)}
    (hunits : ∀ c ∈ cs, c.unit ∈ r.suite.units) :
    Abides ρ (if cs.isEmpty then r.enter .idle else r.runClass audience cs) := by
  split
  · exact r.abides_enter hρ _
  · exact r.abides_runClass hρ hcodes haudience hunits

end Classes

theorem abides_runSurvivors (hρ : ρ.Works)
    (hcodes : ∀ code ∈ r.suite.codes, code.Conducts ρ anyComplaint)
    (haudience : audience.Conducts ρ anyComplaint) (hexpands : r.Expands) :
    Abides ρ (r.runSurvivors audience) :=
  Triple.bind (r.conduct_prepare hρ.prepares hcodes) fun _ w hw hcs =>
    r.abides_runFiltered hρ.performs hcodes haudience (fun c hc => hexpands c (hcs c hc)) w hw
      trivial

section Runs

variable (hρ : (Triple.loosen ρ).Works)
  (hcodes : ∀ code ∈ r.suite.codes, code.Conducts (Triple.loosen ρ) anyComplaint)
  (haudience : audience.Conducts (Triple.loosen ρ) anyComplaint) (hexpands : r.Expands)

include hρ hcodes haudience hexpands

/-- A run conducts itself: whatever it does to its own context, the contexts are rewound in the
end. -/
theorem abides_run (hleave : ∀ s last, ρ.step s { s with lastContext := last }) :
    Abides ρ (r.run audience) := by
  refine .activate complains_any.toTolerates ?_ hleave
  have hloose : ¬(Triple.loosen ρ).balanced := id
  refine .bind (.push hloose complains_any.toTolerates _) fun _ =>
    .andFinally ?_ (r.conduct_close hloose hρ.closes)
  exact r.abides_runSurvivors hρ hcodes haudience hexpands

end Runs

end Runner

/-! ## Runs within runs -/

theorem Runner.audienceOf_declared (r : Runner Procedure) (callers : List Listener) (index : Nat)
    (serial : Option Nat) :
    r.audienceOf callers (.declared index serial) =
      (r.suite.listeners[index]?).elim .silent fun factory =>
        .scripted factory.tag factory.reactions := by
  unfold audienceOf
  dsimp only
  cases r.suite.listeners[index]? <;> rfl

/-- A caller that is scripted is one of those that are given; any other one is silent. -/
theorem Listener.mem_of_getD {callers : List Listener} {index : Nat} {tag : String}
    {reactions : Reactions Procedure}
    (h : callers.getD index .silent = .scripted tag reactions) :
    .scripted tag reactions ∈ callers := by
  rw [List.getD_eq_getElem?_getD] at h
  cases hcaller : callers[index]? with
  | none =>
      rw [hcaller] at h
      cases h
  | some caller =>
      rw [hcaller, Option.getD_some] at h
      subst h
      exact List.mem_of_getElem? hcaller

/-- What holds of the codes of a suite and of the reactions of the callers holds of all reactions of
the audience. -/
theorem Runner.audienceOf_all {q : Procedure → Prop} {r : Runner Procedure}
    (hcodes : ∀ code ∈ r.suite.codes, q code) {callers : List Listener}
    (hcallers : ∀ tag reactions, .scripted tag reactions ∈ callers → ∀ kind, q (reactions.on kind))
    (listener : ListenerRef) (tag : String) (reactions : Reactions Procedure)
    (hlistener : r.audienceOf callers listener = .scripted tag reactions)
    (kind : NotificationKind) : q (reactions.on kind) := by
  cases listener with
  | caller index => exact hcallers tag reactions (Listener.mem_of_getD hlistener) kind
  | declared index serial =>
      rw [audienceOf_declared] at hlistener
      cases hfactory : r.suite.listeners[index]? with
      | none =>
          rw [hfactory] at hlistener
          cases hlistener
      | some factory =>
          rw [hfactory] at hlistener
          cases hlistener
          refine hcodes _ (Suite.listener_mem_codes (List.mem_of_getElem? hfactory) ?_)
          refine List.mem_cons_of_mem _ (List.mem_map_of_mem ?_)
          cases kind <;> decide

/-- A run within another one may pass on interrupts, and leaves nothing else to see but errors. -/
theorem Runner.suite_of_setUp {suite : Suite Procedure} {settings : Option Settings} {host : Host}
    {sequence sequence' : Nat} {r : Runner Procedure}
    (h : Runner.setUp suite settings host sequence = .ok (r, sequence')) :
    r.suite = suite ∧ r.Expands := by
  obtain ⟨config, hmade⟩ := Runner.madeOf_of_setUp h
  obtain rfl := hmade.suite_eq
  exact ⟨rfl, fun c hc => hmade.unit_mem hc⟩

/-- A world with a session for the run of a suite within another run. -/
def World.nested (w : World) (sequence : Nat) (predicate : Option (String → Bool)) : World :=
  { w with sequence, session := { predicate, subscribed := [.caller 0] } }

/-- What is answered about a run by how it ended, with the trace; interrupts pass. -/
def Runner.answer (r : Runner Procedure) (result : Except ErrorId Unit × World) :
    Except ErrorId (Except Complaint RunReport × List Event) :=
  match result.1 with
  | .ok () => .ok (.ok (r.report result.2.errors result.2.session), result.2.session.trace.toList)
  | .error e =>
    if (result.2.errors.get e).kind.interrupt then .error e
    else .ok (.error (result.2.errors.get e).toComplaint, result.2.session.trace.toList)

section RunSuite

variable {host : Host} {suite : Suite Procedure} {settings : Option Settings} {w : World}

theorem exec_runSuite_of_error {e : SetupError} (predicate : Option (String → Bool))
    (h : Runner.setUp suite settings host w.sequence = .error e) :
    (runSuite host suite settings predicate).exec w = (.ok (.error e.complaint, []), w) := by
  rw [runSuite, exec_bind_of_ok (exec_get w), h]
  rfl

/-- A suite is run in a session of its own, and the session of its caller is put back. -/
theorem exec_runSuite {r : Runner Procedure} {sequence : Nat} (predicate : Option (String → Bool))
    (h : Runner.setUp suite settings host w.sequence = .ok (r, sequence)) :
    (runSuite host suite settings predicate).exec w =
      (r.answer ((r.run (r.audienceOf [.recording])).exec (w.nested sequence predicate)),
        { ((r.run (r.audienceOf [.recording])).exec (w.nested sequence predicate)).2 with
          session := w.session }) := by
  rw [runSuite, exec_bind_of_ok (exec_get w), h]
  dsimp only
  rw [exec_bind_of_ok (exec_set _ w), exec_bind_of_ok (exec_observe _ _)]
  unfold World.nested
  generalize (r.run (r.audienceOf [.recording])).exec { w with
    sequence, session := { predicate, subscribed := [.caller 0] } } = result
  obtain ⟨outcome, v⟩ := result
  rw [exec_bind_of_ok (exec_get v), exec_bind_of_ok (exec_set _ v), Runner.answer]
  cases outcome with
  | ok _ => rfl
  | error e =>
      dsimp only
      split
      · exact exec_throw e _
      · exact exec_pure _ _

end RunSuite

theorem conduct_runSuite {ρ : Regime} {B : Complaint → Prop} {suite : Suite Procedure}
    (hcodes : ∀ code ∈ suite.codes, code.Conducts .free anyComplaint)
    (hinterrupt : ∀ c, c.kind.interrupt = true → B c) (host : Host) (settings : Option Settings)
    (predicate : Option (String → Bool)) :
    Conduct ρ B (runSuite host suite settings predicate) := by
  intro w hw _
  cases hsetUp : Runner.setUp suite settings host w.sequence with
  | error e =>
      rw [exec_runSuite_of_error predicate hsetUp]
      exact ⟨.refl hw, trivial⟩
  | ok made =>
      obtain ⟨r, sequence⟩ := made
      obtain ⟨rfl, hexpands⟩ := Runner.suite_of_setUp hsetUp
      have haudience : (r.audienceOf [.recording]).Conducts .free anyComplaint :=
        Runner.audienceOf_all hcodes fun tag reactions hmem => by simp at hmem
      obtain ⟨hleads, hends⟩ := r.abides_run (ρ := .still) .free hcodes haudience hexpands
        (fun _ _ => trivial) (w.nested sequence predicate) ⟨hw.errors, hw.handling⟩ trivial
      rw [exec_runSuite predicate hsetUp]
      generalize (r.run (r.audienceOf [.recording])).exec (w.nested sequence predicate) = result
        at hleads hends
      obtain ⟨outcome, v⟩ := result
      -- The session is put back, so no step of the inner run is seen in it.
      have hleft : ρ.Leads w { v with session := w.session } := by
        refine ⟨⟨hleads.lawful.errors, hleads.lawful.handling⟩, ?_, ρ.refl _, fun _ => ?_⟩
        · exact ⟨hleads.grows.errors, hleads.grows.handling, hleads.grows.depth,
            hleads.grows.outer⟩
        · exact hleads.rewound trivial
      rw [Runner.answer]
      cases outcome with
      | ok _ => exact ⟨hleft, trivial⟩
      | error e =>
          dsimp only
          split
          next hkind => exact ⟨hleft, hends.1, hends.1, hinterrupt _ hkind⟩
          next => exact ⟨hleft, trivial⟩

end SeededTesting
