import SeededTesting.Proofs.Run.Accounts
import SeededTesting.Proofs.Run.Deliveries
import SeededTesting.Proofs.Run.Executions
import SeededTesting.Proofs.Run.Subscriptions
import SeededTesting.Proofs.Run.Telling

/-! # Deliveries of a run

All notifications of a run are sent to the same listeners: those that were subscribed before, and
after them those that the suite declares. So they are delivered down one list, in order and without
gaps, and a recording listener keeps just what was delivered to it.
-/

namespace SeededTesting

open Act

/-! ## What is delivered, and what is kept of it -/

/-- The regime under which nobody is subscribed or cancelled, and nothing is kept of what is
told. -/
def Regime.unheard : Regime where
  balanced := False
  step s t := t.subscribed = s.subscribed ∧ t.recorded = s.recorded
  refl _ := ⟨rfl, rfl⟩
  trans h h' := ⟨h'.1.trans h.1, h'.2.trans h.2⟩

theorem Regime.traces_unheard : unheard.Traces :=
  ⟨fun _ _ => ⟨rfl, rfl⟩, fun _ _ => ⟨rfl, rfl⟩⟩

/-- Scripts that do not change who listens keep nothing of what is told. -/
theorem Script.permits_unheard : Permits .unheard anyComplaint Step.enlists := by
  apply permits_complaints
  case moves => exact fun _ _ _ => id
  case report => exact fun _ _ _ => ⟨rfl, rfl⟩
  case filter => exact fun _ _ _ _ => ⟨rfl, rfl⟩
  case subscribe => exact fun _ hsort => nomatch hsort
  case unsubscribe => exact fun _ hsort => nomatch hsort

/-- The regime under which nothing is kept of what is told. -/
def Regime.unkept : Regime where
  balanced := False
  step s t := t.recorded = s.recorded
  refl _ := rfl
  trans h h' := h'.trans h

theorem Regime.Implies.unkept : unheard.Implies .unkept :=
  ⟨False.elim, fun _ _ h => h.2⟩

/-- Recording listeners keep what is delivered to them, after what they kept before. -/
def Keeps (audience : Audience) (s : Session) (deliveries : List Delivery) (t : Session) : Prop :=
  ∀ listener, audience listener = .recording →
    t.recordedBy listener = s.recordedBy listener ++
      Notification.numberFrom (s.recordedBy listener).length
        ((deliveries.filter (·.listener = listener)).map (·.notification))

namespace Keeps

variable {audience : Audience} {s t u : Session} {deliveries more : List Delivery}

theorem nil (h : t.recorded = s.recorded) : Keeps audience s [] t := by
  intro listener _
  rw [Session.recordedBy, h]
  exact (List.append_nil _).symm

theorem append (h : Keeps audience s deliveries t) (hmore : Keeps audience t more u) :
    Keeps audience s (deliveries ++ more) u := by
  intro listener hlistener
  rw [hmore listener hlistener, h listener hlistener, List.filter_append, List.map_append,
    Notification.numberFrom_append, List.length_append, Notification.length_numberFrom,
    List.append_assoc]

/-- What is kept is put together as what is said is. -/
theorem composes :
    Aloud.Composes fun s said t => Keeps audience s (audience.deliveries said) t := by
  intro s t u said more h hmore
  rw [Audience.deliveries_append]
  exact h.append hmore

end Keeps

section Dispatches

variable {audience : Audience} (haudience : audience.Conducts .unheard anyComplaint)

include haudience

theorem abides_tell {listener : ListenerRef} (hlistener : audience listener ≠ .recording)
    (n : Notification ErrorId) : Abides .unheard (audience.tell n listener) := by
  unfold Audience.tell
  cases hbehind : audience listener with
  | recording => exact absurd hbehind hlistener
  | silent => exact .value ()
  | scripted tag reactions =>
      have hheard : ∀ errors, Abides .unheard (Act.emit (heardEvent errors tag n)) :=
        fun errors => .modifySession fun s => Regime.traces_unheard.heard s _ _ _ _
      exact .bind .world fun w => .bind (hheard _) fun _ =>
        haudience listener tag reactions hbehind _ _

/-- A subscriber is told, and keeps that if it is a recording one. -/
theorem keeps_tell (n : Notification ErrorId) (listener : ListenerRef) {w : World}
    (hw : w.Lawful) {ending : Except ErrorId Unit} {v : World}
    (hout : (audience.tell n listener).exec w = (ending, v)) :
    v.Lawful ∧ v.session.subscribed = w.session.subscribed ∧
      Keeps audience w.session [⟨n, listener, ending⟩] v.session := by
  have hsound : Sound (audience.tell n listener) :=
    Audience.conduct_tell Regime.Traces.free.heard (haudience.under .free) n fun _ => trivial
  have hv := (hsound w hw trivial).1.lawful
  rw [hout] at hv
  by_cases hlistener : audience listener = .recording
  · have hrecorded : (audience.tell n listener).exec w =
        (.ok (), { w with session := w.session.record listener n }) := by
      rw [Audience.tell, hlistener]
      rfl
    rw [hrecorded] at hout
    cases hout
    refine ⟨hv, rfl, fun other _ => ?_⟩
    by_cases hself : listener = other
    · subst hself
      rw [Session.recordedBy_record_self]
      simp [Notification.numberFrom]
    · rw [Session.recordedBy_record_of_ne _ hself]
      simp [hself, Notification.numberFrom]
  · have hleads := (abides_tell haudience hlistener n w hw trivial).1
    rw [hout] at hleads
    refine ⟨hv, hleads.step.1, fun other hother => ?_⟩
    -- Whoever keeps what it is told is recording, which this listener is not.
    have hself : listener ≠ other := by
      rintro rfl
      exact hlistener hother
    rw [Session.recordedBy, hleads.step.2, ← Session.recordedBy]
    simp [hself, Notification.numberFrom]

/-- Subscribers are told one after another, and recording ones keep what is delivered to them. -/
theorem keeps_tellAll (n : Notification ErrorId) (listeners : List ListenerRef) {w : World}
    (hw : w.Lawful) :
    let v := ((audience.tellAll n listeners).exec w).2
    v.session.subscribed = w.session.subscribed ∧
      Keeps audience w.session (audience.deliver n listeners w) v.session := by
  induction listeners generalizing w with
  | nil => exact ⟨rfl, .nil rfl⟩
  | cons listener rest ih =>
      rw [Audience.tellAll, Audience.deliver]
      rcases hout : (audience.tell n listener).exec w with ⟨e | _, v⟩
      · rw [exec_bind_of_error hout]
        exact (keeps_tell haudience n listener hw hout).2
      · obtain ⟨hv, hsubscribed, hkeeps⟩ := keeps_tell haudience n listener hw hout
        obtain ⟨hsubscribed', hkeeps'⟩ := ih hv
        rw [exec_bind_of_ok hout]
        exact ⟨hsubscribed'.trans hsubscribed, hkeeps.append hkeeps'⟩

end Dispatches

/-- What is said in a session is sent to those who are subscribed in it, who stay the same, and
recording listeners keep what is delivered to them. -/
structure Delivers (audience : Audience) (s : Session) (said : List Saying) (t : Session) :
    Prop where
  subscribed : t.subscribed = s.subscribed
  addressed : ∀ saying ∈ said, saying.world.session.subscribed = s.subscribed
  keeps : Keeps audience s (audience.deliveries said) t

namespace Delivers

variable {audience : Audience}

theorem composes : Aloud.Composes (Delivers audience) := by
  intro s t u said more h hmore
  refine ⟨hmore.subscribed.trans h.subscribed, fun saying hmem => ?_, ?_⟩
  · rcases List.mem_append.mp hmem with hmem | hmem
    · exact h.addressed saying hmem
    · exact (hmore.addressed saying hmem).trans h.subscribed
  · exact Keeps.composes h.keeps hmore.keeps

theorem of_unheard {s t : Session} (h : Regime.unheard.step s t) : Delivers audience s [] t :=
  ⟨h.1, fun _ hmem => absurd hmem List.not_mem_nil, .nil h.2⟩

end Delivers

/-! ## The stages of a run -/

namespace Runner.Aloud

variable (r : Runner Procedure) {audience : Audience}

theorem delivers_lift {α : Type} {body : Act α} (h : Abides .unheard body) :
    Aloud.Accounts (Delivers audience) (liftM body : Aloud α) :=
  .lift Delivers.of_unheard h

theorem delivers_log (level : LogLevel) (message : String) (detail : LogDetail) :
    (log r level message detail).Accounts (Delivers audience) where
  sound := r.conduct_log _ _ _
  said w _ _ := by
    refine ⟨rfl, fun saying hmem => ?_, .nil rfl⟩
    cases List.mem_singleton.mp hmem
    rfl

theorem delivers_enter (state : RunState) : (enter r state).Accounts (Delivers audience) :=
  .bind Delivers.composes (delivers_lift .world) fun _ =>
    .bind Delivers.composes (delivers_log r _ _ _) fun _ =>
      delivers_lift (.modifySession fun _ => ⟨rfl, rfl⟩)

section Listeners

variable (haudience : audience.Conducts .unheard anyComplaint)

include haudience

theorem delivers_notify (n : Notification ErrorId) :
    (notify audience n).Accounts (Delivers audience) where
  sound := abides_notify .free (haudience.under .free) n
  said w hw _ := by
    obtain ⟨hsubscribed, hkeeps⟩ := keeps_tellAll haudience n w.session.subscribed hw
    change Delivers audience _ [⟨.sent n, w⟩] ((audience.notify n).exec w).2.session
    rw [Audience.exec_notify]
    refine ⟨hsubscribed, fun saying hmem => ?_, ?_⟩
    · cases List.mem_singleton.mp hmem
      rfl
    · rw [Audience.deliveries, List.flatMap_singleton]
      exact hkeeps

theorem delivers_reportFailure (name : String) (e : ErrorId) :
    (reportFailure r audience name e).Accounts (Delivers audience) :=
  .bind Delivers.composes (delivers_lift .world) fun _ =>
    .bind Delivers.composes (delivers_log r _ _ _) fun _ => delivers_notify haudience _

theorem delivers_reportOutcomes (name : String) (seeds : List Seed)
    (outcomes : List (Hook Procedure × Option ErrorId)) :
    (reportOutcomes r audience name seeds outcomes).Accounts (Delivers audience) := by
  induction outcomes with
  | nil => exact delivers_lift (.value ())
  | cons outcome rest ih =>
      obtain ⟨hook, _ | e⟩ := outcome
      · exact ih
      · exact .bind Delivers.composes (delivers_lift (.augment trivial e seeds)) fun _ =>
          .bind Delivers.composes (delivers_reportFailure r haudience name e) fun _ => ih

theorem delivers_reportSuite (e : ErrorId) :
    (reportSuite r audience e).Accounts (Delivers audience) :=
  .bind Delivers.composes (delivers_lift (.augment trivial e _)) fun _ =>
    delivers_reportFailure r haudience _ e

theorem delivers_reportCandidate (c : Candidate Procedure) (e : ErrorId) :
    (reportCandidate r audience c e).Accounts (Delivers audience) := by
  refine .bind Delivers.composes (delivers_lift (.augment trivial e _)) fun _ =>
    .bind Delivers.composes (delivers_lift (.complaint e)) fun complaint => ?_
  split
  · exact delivers_notify haudience _
  · exact delivers_reportFailure r haudience _ e

end Listeners

section Stages

variable {r}
  (hcodes : ∀ code ∈ r.suite.codes, code.Conducts .unheard anyComplaint)
  (haudience : audience.Conducts .unheard anyComplaint)

include hcodes haudience

theorem delivers_invokePhase (phase : Phase) (arguments : List Instance) (name : String)
    (seeds : List Seed) : Aloud.Accounts (Delivers audience) (do
      let outcomes ← invokeAll arguments (← r.hooks phase)
      reportOutcomes r audience name seeds outcomes) := by
  -- Of the hooks only this is known, that they were resolved from the seed that was active.
  have hhooks := r.conduct_hooks (ρ := .unheard) complains_any phase
  refine .bindGiven Delivers.composes
    (.lift Delivers.of_unheard (hhooks.post (fun _ _ _ => trivial) fun _ _ h => h))
    (hhooks.under .free) fun hooks => .assuming ?_
  rintro ⟨active, rfl⟩
  have hcalls : ∀ hook ∈ hooksFor r.suite.levels phase active,
      Abides .unheard (hook.call arguments) :=
    r.conduct_hookCall Regime.traces_unheard complains_any hcodes
  have hinvoked : Abides .unheard (invokeAll arguments (hooksFor r.suite.levels phase active)) :=
    (conduct_invokeAll hcalls fun _ _ _ => trivial).post (fun _ _ _ => trivial) fun _ _ h => h
  exact .bind Delivers.composes (delivers_lift hinvoked)
    (delivers_reportOutcomes r haudience name seeds)

theorem delivers_setUpClass : (setUpClass r audience).Accounts (Delivers audience) := by
  have hcalled : Abides .unheard (do callHooks [] (← r.hooks .beforeAll); return true) := by
    have hall := Conduct.bind
      (r.conduct_callPhase Regime.traces_unheard complains_any hcodes .beforeAll [])
        fun _ => .value true
    rwa [bind_assoc] at hall
  exact .handle Delivers.composes (delivers_lift hcalled) fun e =>
    .bind Delivers.composes (delivers_reportSuite r haudience e) fun _ =>
      delivers_lift (.value false)

theorem delivers_execute {c : Candidate Procedure} (hunit : c.unit ∈ r.suite.units) :
    (execute r audience c).Accounts (Delivers audience) := by
  have hmade := (r.conduct_makeInstance Regime.traces_unheard complains_any hcodes).observe
    (Y := Blames anyComplaint)
  have hcalled := r.conduct_callCandidate Regime.traces_unheard complains_any hcodes hunit
  refine .bindGiven Delivers.composes
    (.lift Delivers.of_unheard (hmade.post (fun _ _ _ => trivial) fun _ _ h => h))
    (hmade.under .free) fun made => .bind Delivers.composes (.handle Delivers.composes
      (.lift Delivers.of_unheard (hcalled made)) (delivers_reportCandidate r haudience c))
      fun _ => ?_
  split
  · exact delivers_invokePhase hcodes haudience _ _ _ _
  · exact delivers_lift (.value ())

theorem delivers_attend {c : Candidate Procedure} (hunit : c.unit ∈ r.suite.units) :
    (attend r audience c).Accounts (Delivers audience) := by
  refine .bind Delivers.composes (delivers_notify haudience _) fun _ =>
    .andFinally Delivers.composes ?_ (delivers_notify haudience _)
  split
  · exact delivers_notify haudience _
  · exact delivers_execute hcodes haudience hunit

theorem delivers_runCandidates {cs : List (Candidate Procedure)}
    (hunits : ∀ c ∈ cs, c.unit ∈ r.suite.units) :
    (runCandidates r audience cs).Accounts (Delivers audience) := by
  induction cs with
  | nil => exact delivers_lift (.value ())
  | cons c rest ih =>
      rw [List.forall_mem_cons] at hunits
      exact .bind Delivers.composes (.inScope Delivers.composes Delivers.of_unheard id
        (delivers_attend hcodes haudience hunits.1)) fun _ => ih hunits.2

theorem delivers_runClass {cs : List (Candidate Procedure)}
    (hunits : ∀ c ∈ cs, c.unit ∈ r.suite.units) :
    (runClass r audience cs).Accounts (Delivers audience) := by
  refine .bind Delivers.composes (delivers_enter r _) fun _ =>
    .bind Delivers.composes (delivers_setUpClass hcodes haudience) fun ready => ?_
  cases ready with
  | false => exact delivers_lift (.value ())
  | true =>
      exact .bind Delivers.composes (delivers_enter r _) fun _ =>
        .bind Delivers.composes (delivers_runCandidates hcodes haudience hunits) fun _ =>
          .bind Delivers.composes (delivers_enter r _) fun _ =>
            delivers_invokePhase hcodes haudience _ _ _ _

end Stages

/-! ## Whole runs -/

/-- What a run does once its listeners are subscribed and before it is closed. -/
def work (r : Runner Procedure) (audience : Audience) : Aloud Unit := do
  enter r .filtering
  let survivors := r.survivors (← (get : Act World)).session.predicate
  log r .info "Running suite" (.suiteStarted r.suite.name survivors.length)
  if survivors.isEmpty then enter r .idle else runClass r audience survivors

theorem runSurvivors_eq : runSurvivors r audience = (do
    r.subscribeFrom 0 r.suite.listeners
    work r audience) := by
  simp only [runSurvivors, prepare, work, bind_assoc, pure_bind]

section Whole

variable {r}
  (hcodes : ∀ code ∈ r.suite.codes, code.Conducts .unheard anyComplaint)
  (haudience : audience.Conducts .unheard anyComplaint) (hexpands : r.Expands)

include hcodes haudience hexpands

theorem delivers_work : (work r audience).Accounts (Delivers audience) := by
  refine .bind Delivers.composes (delivers_enter r _) fun _ =>
    .bind Delivers.composes (delivers_lift .world) fun w =>
      .bind Delivers.composes (delivers_log r _ _ _) fun _ => ?_
  split
  · exact delivers_enter r _
  · apply delivers_runClass hcodes haudience
    exact fun c hc => hexpands c (r.mem_candidates_of_mem_survivors hc)

/-- Up to its close, a run sends its notifications to those who were subscribed before it and
those whom it has subscribed itself. -/
theorem addresses_run {w : World} (hw : w.Lawful)
    (ho : r.ownOpening.Abides .subscriptions) {n : Notification ErrorId} {v : World}
    (hmem : ⟨.sent n, v⟩ ∈ (run r audience).said w) :
    v.session.subscribed =
        w.session.subscribed ++ r.made r.ownOpening.makers (r.entered w) ∧
      ∃ u, (r.subscribeBy r.ownOpening.makers).exec (r.entered w) = (.ok (), u) := by
  have hclose : ∀ u, ⟨.sent n, v⟩ ∉ (close r).said u := fun u hsent =>
    (only_logged_close r u _ hsent).ne_sent n rfl
  have hentered := r.entered_lawful hw
  have henrolled := r.enrolled_subscribeBy ho.makers hentered
  have hsubscribe : Sound (r.subscribeBy r.ownOpening.makers) :=
    r.abides_subscribeBy (fun _ _ => trivial) (fun _ _ => trivial) (ho.under .free).makers
  rw [run, said_within, Aloud.mem_said_andFinally] at hmem
  rcases hmem with hmem | ⟨u, -, hsent⟩ | ⟨e, u, -, hsent⟩
  · rw [runSurvivors_eq, r.subscribeFrom_eq] at hmem
    rcases Aloud.mem_said_bind.mp hmem with hnone | ⟨_, u, hout, hsent⟩
    · exact absurd hnone List.not_mem_nil
    · have hu := (hsubscribe _ hentered trivial).1.lawful
      change (r.subscribeBy r.ownOpening.makers).exec (r.entered w) = (.ok (), u) at hout
      rw [hout] at hu henrolled
      have haddressed :=
        ((delivers_work hcodes haudience hexpands).said u hu trivial).addressed _ hsent
      exact ⟨haddressed.trans henrolled.1, u, hout⟩
  · exact absurd hsent (hclose u)
  · exact absurd hsent (hclose _)

/-- A run subscribes, does its work and is closed, and recording listeners keep of it what is
delivered to them. -/
theorem keeps_attended : Aloud.Accounts
    (fun s said t => Keeps audience s (audience.deliveries said) t)
    (.andFinally (runSurvivors r audience) (close r)) := by
  have hkept : ∀ {s t : Session}, Regime.unkept.step s t →
      Keeps audience s (audience.deliveries []) t := fun h => .nil h
  have hcreate : ∀ factory ∈ r.suite.listeners, factory.create.Conducts .unkept anyComplaint :=
    fun factory hmem => (hcodes _ (Suite.listener_mem_codes hmem List.mem_cons_self)).under .unkept
  have hsubscribe : Abides .unkept (r.subscribeFrom 0 r.suite.listeners) :=
    r.conduct_subscribeFrom ⟨fun _ _ => rfl, fun _ _ => rfl, fun _ _ => rfl, fun _ _ => rfl,
      fun _ _ _ => rfl⟩ hcreate 0
  refine .andFinally Keeps.composes ?_ ?_
  · rw [runSurvivors_eq]
    exact .bind Keeps.composes (.lift hkept hsubscribe) fun _ =>
      (delivers_work hcodes haudience hexpands).mono (·.keeps)
  · refine .bind Keeps.composes (.lift hkept (conduct_unsubscribeDeclared
      ⟨fun _ _ => rfl, fun _ _ => rfl, fun _ _ => rfl⟩)) fun _ =>
        .bind Keeps.composes (.lift hkept
          (Conduct.discard (.pop id complains_any.toTolerates))) fun _ =>
            .bind Keeps.composes ((delivers_enter r _).mono (·.keeps)) fun _ =>
              (delivers_log r _ _ _).mono (·.keeps)

/-- Recording listeners keep of a whole run what is delivered to them. -/
theorem keeps_run {w : World} (hw : w.Lawful) :
    Keeps audience w.session (audience.deliveries ((run r audience).said w))
      ((r.run audience).exec w).2.session := by
  have hkeeps := (keeps_attended hcodes haudience hexpands).said _ (r.entered_lawful hw) trivial
  obtain ⟨last, -, hexec⟩ := r.exec_run (fun code hmem => (hcodes code hmem).under .free)
    (haudience.under .free) hexpands hw (Prod.eta _).symm
  have hsession := congrArg (·.2.session) hexec
  dsimp only at hsession
  rw [session_leaving_resume] at hsession
  rw [Aloud.act_andFinally, act_runSurvivors] at hkeeps
  rw [run, said_within, hsession]
  exact hkeeps

end Whole

end Runner.Aloud

/-! ## Programs over a notifier -/

namespace NotifierProgram

/-- A step that sends a notification. -/
def Step.isSend : Step → Bool
  | .send .. => true
  | .add _ | .remove _ => false

/-- A step, and what is said in it. -/
def Step.aloud (audience : Audience) : Step → Aloud Unit
  | .add listener => subscribe (.caller listener)
  | .remove listener => unsubscribe (.caller listener)
  | .send kind name source seeds => do
    let error ← (source.mapM ErrorSource.make : Act (Option ErrorId))
    match error, seeds with
    | some e, some seeds => Act.augment e seeds
    | _, _ => pure ()
    Runner.Aloud.notify audience { kind, name, error }

def Step.settleAloud (audience : Audience) (step : Step) : Aloud Answer :=
  .handle
    (do
      step.aloud audience
      return .ok (← (get : Act World)).session.subscribed)
    fun e => do return .error (← Act.complaint e)

/-- The steps of a program, and what is said in them. -/
def settleAllAloud (audience : Audience) : List Step → Aloud (List Answer)
  | [] => return []
  | step :: rest => do
    let answer ← step.settleAloud audience
    return answer :: (← settleAllAloud audience rest)

variable {audience : Audience}

theorem act_aloud (step : Step) : (step.aloud audience).act = step.perform audience := by
  cases step with
  | add | remove => rfl
  | send kind name source seeds =>
      refine bind_congr fun error => ?_
      cases error with
      | none => rfl
      | some e => cases seeds <;> rfl

theorem act_settleAloud (step : Step) : (step.settleAloud audience).act = step.settle audience := by
  rw [Step.settleAloud, Step.settle, ← act_aloud]
  rfl

theorem act_settleAllAloud (steps : List Step) :
    (settleAllAloud audience steps).act = settleAll audience steps := by
  induction steps with
  | nil => rfl
  | cons step rest ih =>
      rw [settleAllAloud, settleAll, Aloud.act_bind, act_settleAloud]
      refine bind_congr fun answer => ?_
      rw [Aloud.act_bind, ih]
      rfl

section Sends

variable (haudience : audience.Conducts .unheard anyComplaint)

include haudience

theorem delivers_aloud {step : Step} (hstep : step.isSend = true) :
    (step.aloud audience).Accounts (Delivers audience) := by
  cases step with
  | add | remove => cases hstep
  | send kind name source seeds =>
      have hmake : Abides .unheard (source.mapM ErrorSource.make : Act (Option ErrorId)) := by
        cases source with
        | none => exact .value none
        | some source =>
            have hmade := Script.triple_make (ρ := .unheard) source Triple.robust_true
              (X := Blames anyComplaint)
            exact Conduct.bind (hmade.post (fun _ _ _ => trivial) fun _ _ h => h) fun e =>
              .value (some e)
      refine .bind Delivers.composes (Runner.Aloud.delivers_lift hmake) fun error => ?_
      have hsent := Runner.Aloud.delivers_notify haudience { kind, name, error }
      split
      · exact .bind Delivers.composes
          (Runner.Aloud.delivers_lift (.augment trivial _ _)) fun _ => hsent
      · exact .bind Delivers.composes (Runner.Aloud.delivers_lift (.value ())) fun _ => hsent

theorem delivers_settleAllAloud {steps : List Step} (hsteps : ∀ step ∈ steps, step.isSend = true) :
    (settleAllAloud audience steps).Accounts (Delivers audience) := by
  induction steps with
  | nil => exact Runner.Aloud.delivers_lift (.value [])
  | cons step rest ih =>
      rw [List.forall_mem_cons] at hsteps
      have hanswered : ∀ e, Abides .unheard (do
          return .error (← Act.complaint e) : Act Answer) := fun e =>
        .bind (.complaint e) fun _ => .value _
      have hsettled : (step.settleAloud audience).Accounts (Delivers audience) :=
        .handle Delivers.composes
          (.bind Delivers.composes (delivers_aloud haudience hsteps.1) fun _ =>
            Runner.Aloud.delivers_lift (.bind .world fun _ => .value _))
          fun e => Runner.Aloud.delivers_lift (hanswered e)
      exact .bind Delivers.composes hsettled fun _ =>
        .bind Delivers.composes (ih hsteps.2) fun _ => Runner.Aloud.delivers_lift (.value _)

end Sends

/-- What holds of all scripts that a program declares holds of all reactions to what it sends. -/
theorem audienceOf_all {q : Procedure → Prop} {listeners : List Listener}
    (h : ∀ tag reactions, .scripted tag reactions ∈ listeners → ∀ kind, q (reactions.on kind))
    (listener : ListenerRef) (tag : String) (reactions : Reactions Procedure)
    (hlistener : audienceOf listeners listener = .scripted tag reactions)
    (kind : NotificationKind) : q (reactions.on kind) := by
  cases listener with
  | caller index => exact h tag reactions (Listener.mem_of_getD hlistener) kind
  | declared index serial => cases hlistener

end NotifierProgram

/-! ## Delivery -/

namespace Runner

/-- Makers that all give a listener give one each. -/
theorem length_made {r : Runner Procedure} {makers : List Maker} {w v : World}
    (h : (r.subscribeBy makers).exec w = (.ok (), v)) :
    (r.made makers w).length = makers.length := by
  induction makers generalizing w with
  | nil => rfl
  | cons maker rest ih =>
      obtain ⟨listener, u, hmade, hrest⟩ := exec_bind_eq_ok_iff.mp h
      obtain ⟨_, t, henlisted, hrest⟩ := exec_bind_eq_ok_iff.mp hrest
      rw [made, hmade]
      dsimp only
      rw [henlisted, List.length_cons, List.length_cons, ih hrest]

theorem length_makersFrom (index : Nat) (factories : List (ListenerFactory Procedure)) :
    (makersFrom index factories).length = factories.length := by
  induction factories generalizing index with
  | nil => rfl
  | cons factory rest ih => rw [makersFrom, List.length_cons, List.length_cons, ih]

/-- Of collaborators that subscribe and cancel nobody, whatever they raise, all that a run sends is
delivered down one list: those who were subscribed before the run, and then those whom the suite
declares. All of these have been made when the first notification is sent. The same holds of
whatever a program sends to those who are subscribed. Recording listeners keep what is delivered to
them and nothing else. -/
theorem notifications_delivered {host origin : Host} {suite : Suite Script}
    {config : Option RunConfig} {sequence sequence' : Nat} {r : Runner Procedure}
    (hmake : make (Script.suiteProcedures host suite) config origin sequence = .ok (r, sequence'))
    (hsuite : ∀ script ∈ suite.codes, Script.avoids Script.Step.enlists script = true)
    {declarations : List NotifierProgram.Declaration}
    (hdeclarations : ∀ declaration ∈ declarations, ∀ script ∈ declaration.scripts,
      Script.avoids Script.Step.enlists script = true)
    {w : World} (hw : w.Lawful) :
    (let audience := r.audienceFor host declarations
      let declared := r.made r.ownOpening.makers (r.entered w)
      let said := (Aloud.run r audience).said w
      (Aloud.run r audience).act = r.run audience ∧
        Delivered audience (w.session.subscribed ++ declared) said ∧
        (Saying.notifications said ≠ [] → declared.length = r.suite.listeners.length) ∧
        Keeps audience w.session (audience.deliveries said) ((r.run audience).exec w).2.session) ∧
      ∀ steps : List NotifierProgram.Step, (∀ step ∈ steps, step.isSend = true) →
        let audience := NotifierProgram.audienceOf (declarations.map (·.listener host))
        let said := (NotifierProgram.settleAllAloud audience steps).said w
        (NotifierProgram.settleAllAloud audience steps).act =
            NotifierProgram.settleAll audience steps ∧
          Delivered audience w.session.subscribed said ∧
          Keeps audience w.session (audience.deliveries said)
            ((NotifierProgram.settleAll audience steps).exec w).2.session := by
  obtain ⟨hcodes, haudience⟩ :=
    conducts_of_make hmake Script.permits_unheard hsuite hdeclarations
  obtain ⟨hcodes', -⟩ :=
    conducts_of_make hmake Script.permits_subscriptions hsuite hdeclarations
  have hexpands := expands_of_make hmake
  constructor
  · intro audience declared said
    have ho : r.ownOpening.Abides .subscriptions :=
      r.abides_ownOpening (fun _ _ => ⟨rfl, rfl⟩) (fun _ _ => ⟨rfl, rfl⟩) hcodes'
    have hsent : ∀ {n v}, ⟨.sent n, v⟩ ∈ said → _ := fun hmem =>
      Aloud.addresses_run hcodes haudience hexpands hw ho hmem
    refine ⟨Aloud.act_run r audience, delivered_of_addresses ?_, fun hne => ?_,
      Aloud.keeps_run hcodes haudience hexpands hw⟩
    · rintro ⟨signal, v⟩ hmem n rfl
      exact (hsent hmem).1
    · obtain ⟨n, hn⟩ := List.exists_mem_of_ne_nil _ hne
      obtain ⟨⟨signal, v⟩, hmem, hsignal⟩ := List.mem_filterMap.mp hn
      cases signal with
      | logged record => cases hsignal
      | sent m =>
          obtain ⟨-, u, hout⟩ := hsent hmem
          exact (length_made hout).trans (length_makersFrom 0 _)
  · intro steps hsteps audience said
    have hconducts : audience.Conducts .unheard anyComplaint :=
      NotifierProgram.audienceOf_all (Script.declarations_all fun declaration hmem script h =>
        Script.conducts Script.permits_unheard (hdeclarations declaration hmem script h))
    have hsaid :=
      (NotifierProgram.delivers_settleAllAloud hconducts hsteps).said w hw trivial
    rw [NotifierProgram.act_settleAllAloud] at hsaid
    exact ⟨NotifierProgram.act_settleAllAloud steps,
      delivered_of_addresses fun saying hmem n _ => hsaid.addressed saying hmem, hsaid.keeps⟩

/-- A suite with a test that is ignored and a listener of its own. -/
def announcedSuite : Suite Script where
  name := "Announced"
  factory := some { code := [] }
  units := [{ name := "waits", ignored := true, body := some [] }]
  metadata := { seed := some "[1:2]" }
  listeners := [{ tag := "own", create := [], reactions := ⟨[], [], [], [], []⟩ }]

/-- Listeners of which the second one objects when a test is ignored. -/
def objecting : List NotifierProgram.Declaration :=
  [.recording,
    .scripted "objects" ⟨[],
      [.raise [{ error := { complaint := ⟨.named "RuntimeError", none⟩ } }]], [], [], []⟩,
    .recording]

/-- Those after the one who objects do not hear of that, but of the end that follows. -/
theorem notifications_delivered_announcedSuite :
    let w : World := { session := { subscribed := [.caller 0, .caller 1, .caller 2] } }
    ∃ r sequence,
      make (Script.suiteProcedures {} announcedSuite) (some .unset) {} 0 = .ok (r, sequence) ∧
        let audience := r.audienceFor {} objecting
        let said := (Aloud.run r audience).said w
        let kindsAt := fun place => (audience.heardAt place said).map (·.kind)
        Delivered audience
          (w.session.subscribed ++ r.made r.ownOpening.makers (r.entered w)) said ∧
        kindsAt 0 = [.started, .ignored, .finished] ∧
        kindsAt 1 = [.started, .ignored, .finished] ∧
        kindsAt 2 = [.started, .finished] ∧ kindsAt 3 = [.started, .finished] := by
  intro w
  obtain ⟨made, hmake⟩ : ∃ made,
      make (Script.suiteProcedures {} announcedSuite) (some .unset) {} 0 = .ok made := ⟨_, rfl⟩
  have hw : w.Lawful := ⟨ErrorStore.closed_empty, fun _ h => by cases h⟩
  have hobjecting : ∀ declaration ∈ objecting, ∀ script ∈ declaration.scripts,
      Script.avoids Script.Step.enlists script = true := by decide
  obtain ⟨⟨-, hdelivered, -⟩, -⟩ :=
    notifications_delivered (r := made.1) hmake (by decide) hobjecting hw
  refine ⟨made.1, made.2, hmake, hdelivered, ?_⟩
  cases hmake
  decide +kernel

end Runner

end SeededTesting
