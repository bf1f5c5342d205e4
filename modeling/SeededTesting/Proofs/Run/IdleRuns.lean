import SeededTesting.Proofs.Run.LifecycleRefinement
import SeededTesting.Proofs.Run.Telling

/-! # Runs of suites that do nothing

Where the test bodies of a suite do nothing and nothing else is around them, every run ends without
an error. What a recorder is told that alone listens to such a run is the routine of the candidates
that survive the filters, one after another.
-/

namespace SeededTesting

open Act

/-! ## Recitations -/

/-- A source is active, and the only listener is one recorder, which has been told so much. -/
structure World.Recording (told : List (Notification ErrorId)) (w : World) : Prop where
  active : ∃ seed, w.Seeded seed
  subscribed : w.session.subscribed = [.caller 0]
  recorded : w.session.recordedBy (.caller 0) = Notification.numberFrom 0 told

/-- Where a recorder alone listens, an action ends with a value of a sort, has told the recorder a
word, and leaves the contexts as they were. -/
def Act.Recites {α : Type} (body : Act α) (V : α → Prop) (word : List (Notification ErrorId)) :
    Prop :=
  ∀ told w, w.Recording told → ∃ x v, body.exec w = (.ok x, v) ∧ V x ∧
    v.Recording (told ++ word) ∧ v.contexts = w.contexts

namespace Act.Recites

variable {α β : Type} {V : α → Prop} {U : β → Prop} {word more : List (Notification ErrorId)}

/-- An action that leaves contexts, subscriptions and recordings alone tells nothing. -/
theorem silent {body : Act α} (h : ∀ w seed, w.Seeded seed → ∃ x v, body.exec w = (.ok x, v) ∧
      V x ∧ v.contexts = w.contexts ∧ v.session.subscribed = w.session.subscribed ∧
      v.session.recorded = w.session.recorded) :
    Recites body V [] := by
  intro told w ⟨⟨seed, hseeded⟩, hsubscribed, hrecorded⟩
  obtain ⟨x, v, hexec, hx, hcontexts, hsubscribed', hrecorded'⟩ := h w seed hseeded
  refine ⟨x, v, hexec, hx, ⟨⟨seed, ?_⟩, hsubscribed'.trans hsubscribed, ?_⟩, hcontexts⟩
  · unfold World.Seeded
    rwa [hcontexts]
  · unfold Session.recordedBy at hrecorded ⊢
    rwa [hrecorded', List.append_nil]

theorem value {x : α} (hx : V x) : Recites (pure x) V [] :=
  silent fun w _ _ => ⟨x, w, rfl, hx, rfl, rfl, rfl⟩

theorem bind {body : Act α} {next : α → Act β} (hbody : Recites body V word)
    (hnext : ∀ x, V x → Recites (next x) U more) : Recites (body >>= next) U (word ++ more) := by
  intro told w hw
  obtain ⟨x, v, hexec, hx, hv, hcontexts⟩ := hbody told w hw
  obtain ⟨y, u, hexec', hy, hu, hcontexts'⟩ := hnext x hx _ v hv
  rw [exec_bind_of_ok hexec]
  refine ⟨y, u, hexec', hy, ?_, hcontexts'.trans hcontexts⟩
  rwa [← List.append_assoc]

/-- What tells nothing may come first. -/
theorem after {body : Act α} {next : α → Act β} (hbody : Recites body V [])
    (hnext : ∀ x, V x → Recites (next x) U word) : Recites (body >>= next) U word :=
  hbody.bind hnext

theorem observe {body : Act α} (h : Recites body V word) :
    Recites (Act.observe body) (fun outcome => ∃ x, outcome = .ok x ∧ V x) word := by
  intro told w hw
  obtain ⟨x, v, hexec, hx, hv, hcontexts⟩ := h told w hw
  rw [exec_observe, hexec]
  exact ⟨_, v, rfl, ⟨x, rfl, hx⟩, hv, hcontexts⟩

/-- A handler that is not called makes no difference. -/
theorem handle {body : Act α} (h : Recites body V word) (handler : ErrorId → Act α) :
    Recites (Act.handle body handler) V word := by
  intro told w hw
  obtain ⟨x, v, hexec, hrest⟩ := h told w hw
  rw [exec_handle, hexec]
  exact ⟨x, v, rfl, hrest⟩

theorem andFinally {body cleanup : Act Unit} {V U : Unit → Prop} (hbody : Recites body V word)
    (hcleanup : Recites cleanup U more) :
    Recites (Act.andFinally body cleanup) U (word ++ more) := by
  intro told w hw
  obtain ⟨_, v, hexec, -, hv, hcontexts⟩ := hbody told w hw
  obtain ⟨_, u, hexec', hU, hu, hcontexts'⟩ := hcleanup _ v hv
  rw [exec_andFinally, hexec]
  refine ⟨(), u, hexec', hU, ?_, hcontexts'.trans hcontexts⟩
  rwa [← List.append_assoc]

theorem inScope {body : Act Unit} {V : Unit → Prop} (h : Recites body V word)
    (source : RandomSource) : Recites (Act.inScope source body) (fun _ => True) word := by
  intro told w ⟨⟨seed, context, outer, top, rest, hcontexts, hseed⟩, hsubscribed, hrecorded⟩
  -- Whatever becomes of the source on top, the stack below it is the same again afterwards.
  let inner : RunContext := { context with stack := source :: top :: rest }
  have hinner : (w.within (inner :: outer)).Recording told :=
    ⟨⟨source.seed, context, outer, source, top :: rest, rfl, rfl⟩, hsubscribed, hrecorded⟩
  obtain ⟨_, v, hexec, -, hv, hcontexts'⟩ := h told _ hinner
  rw [exec_inScope hcontexts hexec (hcontexts' ▸ .same _)]
  refine ⟨(), v.within w.contexts, rfl, trivial, ⟨?_, hv.subscribed, hv.recorded⟩, rfl⟩
  exact ⟨seed, context, outer, top, rest, hcontexts, hseed⟩

/-- The recorder is told every notification. -/
theorem notify {audience : Audience} (haudience : audience (.caller 0) = .recording)
    {kind : NotificationKind} {name : String} :
    Recites (audience.notify { kind, name }) (fun _ => True) [{ kind, name }] := by
  intro told w hw
  let n : Notification ErrorId := { kind, name }
  let v : World := { w with session := w.session.record (.caller 0) n }
  have hexec : (audience.notify n).exec w = (.ok (), v) := by
    rw [Audience.notify, exec_bind_of_ok (exec_get w), hw.subscribed]
    unfold Audience.tellAll Audience.tell
    rw [haudience]
    rfl
  refine ⟨(), v, hexec, trivial, ⟨hw.active, hw.subscribed, ?_⟩, rfl⟩
  rw [Session.recordedBy_record_self, hw.recorded, Notification.numberFrom_append,
    Notification.length_numberFrom, Nat.zero_add]
  rfl

end Act.Recites

/-! ## Suites -/

/-- What does nothing. -/
def Procedure.idle : Procedure :=
  fun _ => pure ()

/-- Instances are made and test bodies called, but none does anything, and there are no other
collaborators. -/
structure Suite.Idle (suite : Suite Procedure) : Prop where
  factory : ∃ yields, suite.factory = some { code := Procedure.idle, yields }
  bodies : ∀ unit ∈ suite.units, unit.body = some Procedure.idle
  levels : suite.levels = []
  rules : suite.rules = []
  listeners : suite.listeners = []

namespace Runner

variable (r : Runner Procedure)

/-- What is told about a candidate that nothing goes wrong with. -/
def routine (c : Candidate Procedure) : List (Notification ErrorId) :=
  [{ kind := .started, name := c.name }] ++
    (if r.ignores c then [{ kind := .ignored, name := c.name }] else []) ++
    [{ kind := .finished, name := c.name }]

/-! ## Stages -/

theorem recites_enter (state : RunState) : Recites (r.enter state) (fun _ => True) [] :=
  .silent fun _ _ _ => ⟨(), _, rfl, trivial, rfl, rfl, rfl⟩

/-- A run ends well if its work does and leaves the contexts as they were. -/
theorem exec_run_of_work {audience : Audience} {w v : World}
    (hwork : (r.runSurvivors audience).exec (r.entered w) = (.ok (), v))
    (hcontexts : v.contexts = (r.entered w).contexts) :
    ∃ u, (r.run audience).exec w = (.ok (), u) ∧ u.session.recorded = v.session.recorded := by
  let context : RunContext := {
    runner := r.master, target := r.suite.name, nightly := r.config.nightly }
  obtain ⟨closed, hclose, hrecorded, hclosed⟩ : ∃ closed, r.close.exec v = (.ok (), closed) ∧
      closed.session.recorded = v.session.recorded ∧
        closed.contexts = context :: w.contexts := by
    rw [close, exec_bind_of_ok (exec_unsubscribeDeclared v), exec_bind, exec_discard, exec_pop]
    dsimp only
    rw [hcontexts]
    exact ⟨_, rfl, rfl, rfl⟩
  have hbody : (do
      Act.push (.fresh r.master)
      Act.andFinally (r.runSurvivors audience) r.close : Act Unit).exec
        (w.within (context :: w.contexts)) = (.ok (), closed) := by
    rw [exec_bind, exec_push]
    change (Act.andFinally (r.runSurvivors audience) r.close).exec (r.entered w) = (.ok (), closed)
    rw [exec_andFinally, hwork]
    exact hclose
  rw [run, exec_activate_of_contexts hbody hclosed]
  exact ⟨_, rfl, hrecorded⟩

section Idle

variable {audience : Audience} (hidle : r.suite.Idle)

include hidle

/-- No hooks are called. -/
theorem recites_hooks (phase : Phase) : Recites (r.hooks phase) (· = []) [] := by
  apply Recites.silent
  intro w seed hw
  have hnone : hooksFor r.suite.levels phase seed.toNat = [] := by
    rw [List.eq_nil_iff_forall_not_mem]
    intro hook hmem
    obtain ⟨level, hlevel, -⟩ := mem_hooksFor hmem
    rw [hidle.levels] at hlevel
    cases hlevel
  exact ⟨_, w, r.exec_hooks hw phase, hnone, rfl, rfl, rfl⟩

/-- What comes after the hooks of a phase comes at once. -/
theorem recites_callHooks (phase : Phase) (arguments : List Instance) {β : Type} {next : Act β}
    {U : β → Prop} {word : List (Notification ErrorId)} (hnext : Recites next U word) :
    Recites (do callHooks arguments (← r.hooks phase); next) U word := by
  refine (r.recites_hooks hidle phase).after ?_
  rintro _ rfl
  exact hnext

/-- There is nothing to report about the hooks of a phase. -/
theorem recites_invokeAll (phase : Phase) (arguments : List Instance) (name : String)
    (seeds : List Seed) :
    Recites (do r.reportOutcomes audience name seeds (← invokeAll arguments (← r.hooks phase)))
      (fun _ => True) [] := by
  refine (r.recites_hooks hidle phase).after ?_
  rintro _ rfl
  exact .value trivial

theorem recites_makeInstance : Recites r.makeInstance (fun _ => True) [] := by
  obtain ⟨yields, hfactory⟩ := hidle.factory
  unfold makeInstance
  rw [hfactory]
  exact .silent fun w _ _ => ⟨_, _, rfl, trivial, rfl, rfl, rfl⟩

theorem recites_callBody {c : Candidate Procedure} (hunit : c.unit ∈ r.suite.units)
    (target : Instance) : Recites (r.callBody c target) (fun _ => True) [] := by
  unfold callBody TestUnit.call
  rw [hidle.rules, hidle.bodies c.unit hunit]
  exact .silent fun w _ _ => ⟨(), _, rfl, trivial, rfl, rfl, rfl⟩

theorem recites_execute {c : Candidate Procedure} (hunit : c.unit ∈ r.suite.units) :
    Recites (r.execute audience c) (fun _ => True) [] := by
  refine (r.recites_makeInstance hidle).observe.after ?_
  rintro _ ⟨target, rfl, -⟩
  have htest : Recites (do callHooks [target] (← r.hooks .beforeEach); r.callBody c target)
      (fun _ => True) [] :=
    r.recites_callHooks hidle .beforeEach [target] (r.recites_callBody hidle hunit target)
  refine (htest.handle (r.reportCandidate audience c)).after fun _ _ => ?_
  cases target with
  | none => exact .value trivial
  | some number => exact r.recites_invokeAll hidle .afterEach [some number] c.name _

variable (haudience : audience (.caller 0) = .recording)

include haudience

/-- The routine of a candidate is told. -/
theorem recites_attend {c : Candidate Procedure} (hunit : c.unit ∈ r.suite.units) :
    Recites (r.attend audience c) (fun _ => True) (r.routine c) := by
  unfold routine
  rw [List.append_assoc]
  refine (Recites.notify haudience).bind fun _ _ => ?_
  refine Recites.andFinally (V := fun _ => True) ?_ (.notify haudience)
  split
  · exact .notify haudience
  · exact r.recites_execute hidle hunit

theorem recites_runCandidates {cs : List (Candidate Procedure)}
    (hunits : ∀ c ∈ cs, c.unit ∈ r.suite.units) :
    Recites (r.runCandidates audience cs) (fun _ => True) (cs.flatMap r.routine) := by
  induction cs with
  | nil => exact .value trivial
  | cons c rest ih =>
      rw [List.forall_mem_cons] at hunits
      have hfirst := (r.recites_attend hidle haudience hunits.1).inScope (.fresh c.seed)
      exact hfirst.bind fun _ _ => ih hunits.2

theorem recites_runClass {cs : List (Candidate Procedure)}
    (hunits : ∀ c ∈ cs, c.unit ∈ r.suite.units) :
    Recites (r.runClass audience cs) (fun _ => True) (cs.flatMap r.routine) := by
  have hready : Recites (pure true : Act Bool) (· = true) [] := .value rfl
  have hsetUp : Recites (r.setUpClass audience) (· = true) [] :=
    (r.recites_callHooks hidle .beforeAll [] hready).handle _
  have htearDown : Recites (r.tearDownClass audience) (fun _ => True) [] :=
    r.recites_invokeAll hidle .afterAll [] r.suite.name _
  refine (r.recites_enter .classSetup).after fun _ _ => hsetUp.after ?_
  rintro _ rfl
  refine (r.recites_enter .runningUnits).after fun _ _ => ?_
  -- After the last candidate nothing more is told.
  have hclosing := (r.recites_enter .classTeardown).after fun _ _ => htearDown
  rw [← List.append_nil (cs.flatMap r.routine)]
  exact (r.recites_runCandidates hidle haudience hunits).bind fun _ _ => hclosing

/-! ## Runs -/

theorem recites_survivors {cs : List (Candidate Procedure)}
    (hunits : ∀ c ∈ cs, c.unit ∈ r.suite.units) :
    Recites (if cs.isEmpty then r.enter .idle else r.runClass audience cs) (fun _ => True)
      (cs.flatMap r.routine) := by
  split
  next hempty =>
    rw [List.isEmpty_iff.mp hempty]
    exact r.recites_enter .idle
  next => exact r.recites_runClass hidle haudience hunits

/-- A run of a suite that does nothing ends without an error, and a recorder that alone listens to
it is told the routine of every candidate that survives the filters, in order. -/
theorem exec_run_of_idle (hexpands : r.Expands) {w : World}
    (hsubscribed : w.session.subscribed = [.caller 0])
    (hrecorded : w.session.recordedBy (.caller 0) = []) :
    ∃ v, (r.run audience).exec w = (.ok (), v) ∧ v.session.recordedBy (.caller 0) =
      Notification.numberFrom 0 ((r.survivors w.session.predicate).flatMap r.routine) := by
  obtain ⟨u, hprepare, hu, hucontexts⟩ : ∃ u,
      r.prepare.exec (r.entered w) = (.ok (r.survivors w.session.predicate), u) ∧
        u.Recording [] ∧ u.contexts = (r.entered w).contexts := by
    rw [exec_prepare, hidle.listeners]
    exact ⟨_, rfl, ⟨⟨_, r.seeded_entered w⟩, hsubscribed, hrecorded⟩, rfl⟩
  obtain ⟨_, v, hexec, -, hv, hvcontexts⟩ := r.recites_survivors hidle haudience
    (fun c hc => hexpands c (r.mem_candidates_of_mem_survivors hc)) [] u hu
  have hwork : (r.runSurvivors audience).exec (r.entered w) = (.ok (), v) := by
    rw [runSurvivors, exec_bind_of_ok hprepare]
    exact hexec
  obtain ⟨closed, hrun, hstill⟩ := r.exec_run_of_work hwork (hvcontexts.trans hucontexts)
  refine ⟨closed, hrun, ?_⟩
  have htold := hv.recorded
  unfold Session.recordedBy at htold ⊢
  rwa [hstill]

end Idle
end Runner

/-! ## Reports -/

namespace Notification

variable {α β : Type} (kind : NotificationKind)

theorem names_cons (n : Notification α) (ns : List (Notification α)) :
    names kind (n :: ns) = (if n.kind = kind then [n.name] else []) ++ names kind ns := by
  unfold names
  by_cases h : n.kind = kind <;> simp [h]

theorem names_append (ns more : List (Notification α)) :
    names kind (ns ++ more) = names kind ns ++ names kind more := by
  unfold names
  rw [List.filter_append, List.map_append]

/-- Neither places nor what is told about errors change the names. -/
theorem names_map_mapError (tell : α → β) (place : Nat) (ns : List (Notification α)) :
    names kind ((numberFrom place ns).map (·.mapError tell)) = names kind ns := by
  induction ns generalizing place with
  | nil => rfl
  | cons n rest ih =>
      rw [numberFrom, List.map_cons, names_cons, names_cons, ih]
      rfl

end Notification

/-- Every candidate is started once in its routine. -/
theorem Runner.names_started_routine (r : Runner Procedure) (cs : List (Candidate Procedure)) :
    Notification.names .started (cs.flatMap r.routine) = cs.map (·.name) := by
  induction cs with
  | nil => rfl
  | cons c rest ih =>
      have hfirst : Notification.names .started (r.routine c) = [c.name] := by
        unfold routine
        rw [Notification.names_append, Notification.names_append]
        split <;> rfl
      rw [List.flatMap_cons, Notification.names_append, ih, hfirst]
      rfl

/-- A suite that does nothing is run at one stroke, and the report names its candidates as they were
started. -/
theorem exec_runSuite_of_idle {host : Host} {suite : Suite Procedure} (hidle : suite.Idle)
    {settings : Option Settings} {w : World} {r : Runner Procedure} {sequence : Nat}
    (h : Runner.setUp suite settings host w.sequence = .ok (r, sequence))
    (predicate : Option (String → Bool)) :
    ∃ report trace v, (runSuite host suite settings predicate).exec w =
        (.ok (.ok report, trace), v) ∧ report.seed = r.seedChain ∧
      Notification.names .started report.notifications =
        (r.survivors predicate).map (·.name) := by
  obtain ⟨rfl, hexpands⟩ := Runner.suite_of_setUp h
  have haudience : r.audienceOf [.recording] (.caller 0) = .recording := rfl
  obtain ⟨v, hrun, hrecorded⟩ :=
    r.exec_run_of_idle hidle haudience hexpands (w := w.nested sequence predicate) rfl rfl
  rw [exec_runSuite predicate h, hrun]
  refine ⟨r.report v.errors v.session, _, _, rfl, rfl, ?_⟩
  rw [Runner.report, hrecorded, Notification.names_map_mapError, r.names_started_routine]
  rfl

end SeededTesting
