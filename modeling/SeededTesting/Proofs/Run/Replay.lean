import SeededTesting.Proofs.Bond.Scripts
import SeededTesting.Proofs.Run.Invisibility
import SeededTesting.Proofs.Run.Telling
import SeededTesting.Proofs.Shift.Runs
import SeededTesting.Run.RunnerProgram

/-! # Runs of one runner

A runner can be run again. Its scripts then do the same as before, unless they change who is run, or
ask for what earlier runs have left: so every run replays the first one, up to the numbers of the
instances, however the runs before it have ended.
-/

namespace SeededTesting

open Act Bond Shift

/-! ## What runs leave to later ones -/

/-- Every recording is numbered in the order in which it was made. -/
def Session.Numbered (s : Session) : Prop :=
  ∀ listener, Notification.numberFrom 0 (s.recordedBy listener) = s.recordedBy listener

theorem Session.Numbered.record {s : Session} (h : s.Numbered) (listener : ListenerRef)
    (n : Notification ErrorId) : (s.record listener n).Numbered := by
  intro other
  by_cases hother : listener = other
  · subst hother
    rw [recordedBy_record_self, Notification.numberFrom_append, h listener, Nat.zero_add]
    rfl
  · rw [recordedBy_record_of_ne s hother]
    exact h other

/-- The regime under which candidates are filtered by one test and recordings stay numbered. -/
def Regime.orderly : Regime where
  balanced := True
  step s t := t.predicate = s.predicate ∧ (s.Numbered → t.Numbered)
  refl _ := ⟨rfl, id⟩
  trans h h' := ⟨h'.1.trans h.1, h'.2 ∘ h.2⟩

theorem Regime.works_orderly : (Triple.loosen .orderly).Works where
  traces := ⟨fun _ _ => ⟨rfl, id⟩, fun _ _ => ⟨rfl, id⟩⟩
  prepares := {
    made _ _ := ⟨rfl, id⟩
    state _ _ := ⟨rfl, id⟩
    listeners _ _ := ⟨rfl, id⟩
    declared _ _ := ⟨rfl, id⟩
    subscribed _ _ _ := ⟨rfl, id⟩ }
  closes := ⟨fun _ _ => ⟨rfl, id⟩, fun _ _ => ⟨rfl, id⟩, fun _ _ => ⟨rfl, id⟩⟩
  record _ listener n := ⟨rfl, fun h => h.record listener n⟩

/-- A procedure that does the same in every run of a runner. -/
structure Procedure.Forgetful (procedure : Procedure) : Prop where
  orderly : procedure.Conducts (Triple.loosen .orderly) anyComplaint
  oblivious : procedure.Oblivious
  repeats : ∀ β : Bond, β.Free → procedure.InStep β procedure

namespace Script

/-- Whether a step changes who is run, or what it does may hang on earlier runs: it tells the state
of the runner, runs another suite, or raises an object that may have been raised before. -/
def Step.remembers (step : Step) : Bool :=
  step.filters || step.tells || step.depends

theorem permits_orderly : Permits (Triple.loosen .orderly) anyComplaint Step.remembers := by
  apply permits_complaints
  case moves => exact fun _ _ _ => id
  case filter => exact fun _ hsort => nomatch hsort
  all_goals exact fun _ _ _ => ⟨rfl, id⟩

theorem forgetful (host : Host) {script : Script} (h : avoids Step.remembers script = true) :
    (procedure host script).Forgetful where
  orderly := conducts permits_orderly h
  oblivious := by
    refine oblivious host (avoids_mono (fun step hdepends => ?_) h)
    rw [Step.remembers, hdepends, Bool.or_true]
  repeats β hβ := by
    refine inStep_of_free host script β hβ (.inl (avoids_mono (fun step htells => ?_) h))
    rw [Step.remembers, htells, Bool.or_true, Bool.true_or]

end Script

/-- A runner whose collaborators, and those who listen, do the same in every run. -/
structure Runner.Forgetful (r : Runner Procedure) (callers : List Listener) : Prop where
  codes : ∀ code ∈ r.suite.codes, code.Forgetful
  callers : ∀ tag reactions, .scripted tag reactions ∈ callers →
    ∀ kind, Procedure.Forgetful (reactions.on kind)
  expands : r.Expands

namespace Runner.Forgetful

variable {r : Runner Procedure} {callers : List Listener} (h : r.Forgetful callers)

include h

theorem audience (listener : ListenerRef) (tag : String) (reactions : Reactions Procedure)
    (hlistener : r.audienceOf callers listener = .scripted tag reactions)
    (kind : NotificationKind) : Procedure.Forgetful (reactions.on kind) :=
  audienceOf_all h.codes h.callers listener tag reactions hlistener kind

theorem abides_run : Abides .orderly (r.run (r.audienceOf callers)) :=
  r.abides_run Regime.works_orderly (fun code hcode => (h.codes code hcode).orderly)
    (fun listener tag reactions hlistener kind =>
      (h.audience listener tag reactions hlistener kind).orderly) h.expands fun _ _ => ⟨rfl, id⟩

theorem corresponds_run {κ : Shift} (hrename : κ.rename = id)
    (hfilter : κ.far.session.predicate = κ.near.session.predicate) {n : Nat} :
    κ.Corresponds n (r.run (r.audienceOf callers)) (r.run (r.audienceOf callers)) Same :=
  Runner.corresponds_run (fun code hcode => (h.codes code hcode).oblivious)
    (fun listener tag reactions hlistener kind =>
      (h.audience listener tag reactions hlistener kind).oblivious) hrename h.expands hfilter

theorem left_by_run {w : World} (hw : w.Lawful) :
    let v := ((r.run (r.audienceOf callers)).exec w).2
    v.contexts = w.contexts ∧ v.handling = w.handling ∧ v.session.declared = [] := by
  have hsound : ∀ procedure : Procedure, procedure.Forgetful →
      procedure.Conducts .free anyComplaint :=
    fun _ hprocedure label => (hprocedure.orderly label).under .free
  obtain ⟨hcontexts, hhandling, hdeclared, -⟩ := Runner.left_by_run
    (fun code hcode => hsound code (h.codes code hcode))
    (fun listener tag reactions hlistener kind =>
      hsound _ (h.audience listener tag reactions hlistener kind)) h.expands hw
  exact ⟨hcontexts, hhandling, hdeclared⟩

theorem reconciles_run {τ : Terms} (hfilters : τ.filters = true) {w v : World}
    (hwv : τ.Agrees w v) :
    τ.Reconciles w v (r.run (r.audienceOf callers)) (r.run (r.audienceOf callers)) :=
  reconciles_self hfilters (fun code hcode β hβ _ => (h.codes code hcode).repeats β hβ) h.expands
    callers (fun tag reactions hmem kind β hβ _ => (h.callers tag reactions hmem kind).repeats β hβ)
    hwv

end Runner.Forgetful

/-! ## Recordings along a shift -/

theorem Notification.numberFrom_unplaced {α : Type} (place : Nat) (l : List (Notification α)) :
    numberFrom place (l.map unplaced) = numberFrom place l := by
  induction l generalizing place with
  | nil => rfl
  | cons n l ih =>
      rw [List.map_cons, numberFrom, numberFrom, ih]
      rfl

theorem Shift.numberFrom_notification (κ : Shift) (place : Nat) (l : List (Notification ErrorId)) :
    Notification.numberFrom place (l.map κ.notification) =
      (Notification.numberFrom place l).map κ.notification := by
  induction l generalizing place with
  | nil => rfl
  | cons n l ih =>
      rw [List.map_cons, Notification.numberFrom, Notification.numberFrom, List.map_cons, ih]
      rfl

/-- A recording is known by what the listener was told. -/
theorem Session.Numbered.recordedBy_eq {s : Session} (h : s.Numbered) (listener : ListenerRef) :
    s.recordedBy listener =
      Notification.numberFrom 0 ((s.told.filter (·.1 = listener)).map (·.2)) := by
  have htold : (s.told.filter (·.1 = listener)).map (·.2) =
      (s.recordedBy listener).map Notification.unplaced := by
    rw [told, recordedBy, List.filter_map, List.map_map, List.map_map]
    rfl
  rw [htold, Notification.numberFrom_unplaced, h listener]

/-- What a listener is told since the work was taken up is numbered alike. -/
theorem Shift.Accords.recordedBy_eq {κ : Shift} {n : Nat} {s t : Session} (h : κ.Accords n s t)
    (hnear : κ.near.session.recorded = #[]) (hfar : κ.far.session.recorded = #[])
    (hs : s.Numbered) (ht : t.Numbered) (listener : ListenerRef) :
    t.recordedBy listener = (s.recordedBy listener).map κ.notification := by
  have hnothing : ∀ u : Session, u.recorded = #[] → u.told = [] := fun u hu => by
    rw [Session.told, hu]
    rfl
  obtain ⟨new, hstold, httold, -⟩ := h.told
  rw [hnothing _ hnear, List.nil_append] at hstold
  rw [hnothing _ hfar, List.nil_append] at httold
  have hmap : (t.told.filter (·.1 = listener)).map (·.2) =
      ((s.told.filter (·.1 = listener)).map (·.2)).map κ.notification := by
    rw [hstold, httold, List.filter_map, List.map_map, List.map_map]
    rfl
  rw [hs.recordedBy_eq, ht.recordedBy_eq, hmap, κ.numberFrom_notification]

/-! ## What a run leaves behind -/

/-- A world in which a runner goes on from another state, and counts listeners from elsewhere. -/
def World.resumed (w : World) (state : RunState) (listeners : Nat) : World :=
  { w with session := { w.session with state, listeners } }

/-- The one world is left by runs that started in the other one, of which each left the runner in
the same state. -/
structure World.Rests (w : World) (final : RunState) (v : World) : Prop where
  lawful : v.Lawful
  errors : w.errors.Keeps v.errors
  handling : v.handling = w.handling
  contexts : v.contexts = w.contexts
  state : v.session.state = w.session.state ∨ v.session.state = final
  predicate : v.session.predicate = w.session.predicate
  declared : v.session.declared = []
  instances : w.session.instances ≤ v.session.instances

namespace RunnerProgram

/-- The world ahead of a run. -/
def ahead (w : World) (callers : Nat) : World :=
  { w with journal := #[], session := nextSession w.session callers }

/-- An outcome whose instances have higher numbers, and which was logged otherwise. -/
def Outcome.replayed (o : Outcome) (offset : Nat) (records : List LogRecord) : Outcome :=
  { o with trace := o.trace.map (·.moved offset id), records }

/-- What a run left behind, by how it ended. -/
def Outcome.left (callers : Nat) (result : Except ErrorId Unit × World) : Outcome where
  state := result.2.session.state
  notifications := (result.2.session.recordedBy (.caller 0)).map (·.mapError result.2.errors.info)
  trace := result.2.session.trace.toList
  listenersLeft := result.2.session.subscribed.length - callers
  contextLeft := !result.2.contexts.isEmpty
  raised := match result.1 with
    | .ok () => none
    | .error e => some (result.2.errors.get e).toComplaint
  records := result.2.journal.toList

theorem perform_eq (r : Runner Procedure) (callers : List Listener) (w : World) :
    perform r callers w =
      (.left callers.length ((r.run (r.audienceOf callers)).exec (ahead w callers.length)),
        ((r.run (r.audienceOf callers)).exec (ahead w callers.length)).2) := by
  unfold perform ahead
  dsimp only
  rw [runIn_eq]
  dsimp only
  generalize (r.run (r.audienceOf callers)).exec _ = result
  obtain ⟨_ | _, v⟩ := result <;> rfl

namespace Outcome

/-- Without any offset the trace is the same. -/
theorem replayed_replayed_zero (o : Outcome) (offset : Nat) (records records' : List LogRecord) :
    (o.replayed 0 records').replayed offset records = o.replayed offset records := by
  have hzero : o.trace.map (·.moved ((0 : Nat) : Int) id) = o.trace := by
    rw [Int.natCast_zero, funext Event.moved_zero]
    exact List.map_id _
  unfold replayed
  dsimp only
  rw [hzero]

/-- Actions side by side leave the same behind, but for states and logs. -/
theorem left_of_reconciles {τ : Terms} {w v : World} {body body' : Act Unit}
    (h : τ.Reconciles w v body body') (hseen : τ.seen = fun _ => true) (hpast : τ.past = [])
    (hpast' : τ.past' = []) (hcontexts : v.contexts = w.contexts) (callers : Nat) :
    left callers (body'.exec v) = { left callers (body.exec w) with
      state := (body'.exec v).2.session.state
      records := (body'.exec v).2.journal.toList } := by
  obtain ⟨houtcome, hagrees, hleft, hright⟩ := h
  have hcaller : (body'.exec v).2.session.recordedBy (.caller 0) =
      (body.exec w).2.session.recordedBy (.caller 0) :=
    hagrees.session.recordedBy_later (.caller 0)
  have htrace : (body'.exec v).2.session.trace.toList = (body.exec w).2.session.trace.toList := by
    obtain ⟨new, new', hw, hv, hnew⟩ := hagrees.session.trace
    rw [hseen, List.filter_true, List.filter_true] at hnew
    rw [hw, hv, hpast, hpast', hnew]
  simp only [left, mk.injEq, true_and, and_true]
  rw [hcaller, htrace, houtcome, hagrees.errors, hagrees.session.subscribed, List.length_map, hleft,
    hright, hcontexts]
  exact ⟨rfl, rfl, rfl, rfl, rfl⟩

/-- Along a shift the same is left behind, but for logs and the numbers of instances. -/
theorem left_of_relates {κ : Shift} {small large : World} {n : Nat}
    {outcome outcome' : Except ErrorId Unit} (h : κ.Relates small large)
    (hends : κ.Ends Same n outcome outcome') (hrename : κ.rename = id)
    (hnear : κ.near.session.recorded = #[]) (hnear' : κ.near.session.trace = #[])
    (hfar : κ.far.session.recorded = #[]) (hfar' : κ.far.session.trace = #[])
    (hsmall : small.session.Numbered) (hlarge : large.session.Numbered) (callers : Nat) :
    left callers (outcome', large) =
      (left callers (outcome, small)).replayed κ.ahead large.journal.toList := by
  have htold : (large.session.recordedBy (.caller 0)).map (·.mapError large.errors.info) =
      (small.session.recordedBy (.caller 0)).map (·.mapError small.errors.info) := by
    rw [h.session.recordedBy_eq hnear hfar hsmall hlarge, List.map_map]
    refine List.map_congr_left fun note _ => ?_
    simp only [Function.comp_apply, Shift.notification, Notification.mapError, hrename, id,
      Option.map_map]
    congr 2
    exact funext h.errors.info
  have htrace : large.session.trace.toList =
      small.session.trace.toList.map (·.moved κ.ahead id) := by
    obtain ⟨events, hs, ht⟩ := h.session.trace
    rw [hs, ht, hnear', hfar']
    unfold Shift.event
    rw [hrename]
    rfl
  simp only [left, replayed, mk.injEq, and_true]
  rw [htold, htrace, h.session.state, h.session.subscribed, h.contexts]
  refine ⟨rfl, rfl, rfl, rfl, rfl, ?_⟩
  obtain ⟨_, _, rfl, rfl, -⟩ | ⟨e, _, rfl, rfl, -, rfl⟩ := hends.inversion
  · rfl
  · exact congrArg some (h.errors.toComplaint e)

end Outcome

/-! ## Runs one after another -/

/-- Those who listen to a run of a program: a recording listener and the visitors. -/
def callersOf (host : Host) (visitors : List Visitor) : List Listener :=
  .recording :: visitors.map (·.listener host)

/-- How the sessions of two runs compare that take up a runner in two states, the second one after
listeners have been made. -/
def resuming (state state' : RunState) (listeners : Nat) : Terms where
  states := false
  begun := state
  begun' := state'
  serials := listeners

/-- A run as it would be if no listeners had been made before. -/
def reference (r : Runner Procedure) (callers : List Listener) (w : World) :
    Except ErrorId Unit × World :=
  (r.run (r.audienceOf callers)).exec ((ahead w callers.length).resumed w.session.state 0)

section Runs

variable {r : Runner Procedure} {callers : List Listener} {w v : World}

theorem rests_self (hw : w.Lawful) (hdeclared : w.session.declared = []) (final : RunState) :
    w.Rests final w :=
  ⟨hw, .refl _, rfl, rfl, .inl rfl, rfl, hdeclared, Nat.le_refl _⟩

variable (hdeclared : w.session.declared = [])

include hdeclared

theorem agrees_resumed (callers : Nat) (state : RunState) (listeners : Nat) :
    (resuming w.session.state state listeners).Agrees
      ((ahead w callers).resumed w.session.state 0)
      ((ahead w callers).resumed state listeners) where
  errors := rfl
  handling := rfl
  sequence := rfl
  journal := nofun
  session := {
    instances := rfl
    listeners := (Nat.zero_add listeners).symm
    subscribed := by
      change (List.range callers).map _ = ((List.range callers).map _).map _
      rw [List.map_map]
      rfl
    declared := by
      change w.session.declared = w.session.declared.map _
      rw [hdeclared]
      rfl
    recorded := rfl
    lastContext := rfl
    state := .inr ⟨rfl, rfl, rfl⟩
    predicate _ := rfl
    trace := ⟨[], [], rfl, rfl, rfl⟩ }

theorem later_ahead {final : RunState} (hv : w.Rests final v) (callers : Nat) :
    ((ahead w callers).resumed v.session.state v.session.listeners).Later (ahead v callers) where
  errors := hv.errors
  handling := hv.handling
  contexts := hv.contexts
  state := rfl
  subscribed := rfl
  declared := hv.declared.trans hdeclared.symm
  listeners := rfl
  instances := hv.instances

variable (h : r.Forgetful callers)

include h

/-- A run that takes up the runner in the state that the first one leaves, and after listeners have
been made, ends like the first one. -/
theorem exec_resumed {state : RunState}
    (hstate : state = w.session.state ∨ state = (reference r callers w).2.session.state)
    (listeners : Nat) :
    let near := (r.run (r.audienceOf callers)).exec
      ((ahead w callers.length).resumed state listeners)
    near.2.session.state = (reference r callers w).2.session.state ∧
      near.2.session.instances = (reference r callers w).2.session.instances ∧
      Outcome.left callers.length near =
        { Outcome.left callers.length (reference r callers w) with
          records := near.2.journal.toList } := by
  intro near
  have hreconciles := h.reconciles_run rfl
    (agrees_resumed hdeclared callers.length state listeners)
  have hleft := Outcome.left_of_reconciles hreconciles rfl rfl rfl rfl callers.length
  have hagrees := hreconciles.agrees.session
  rw [← reference] at hleft hagrees
  have hsame : near.2.session.state = (reference r callers w).2.session.state := by
    -- A run that ends before it enters a state leaves the one that it has found.
    rcases hagrees.state with hsame | ⟨-, hfirst, hbegun⟩
    · exact hsame
    · rcases hstate with hstart | hstart
      · exact hbegun.trans (hstart.trans hfirst.symm)
      · exact hbegun.trans hstart
  refine ⟨hsame, hagrees.instances, hleft.trans ?_⟩
  rw [hsame]
  rfl

/-- A later run of a program is the run that takes up the runner in the same state, but for the
numbers of instances, and leaves a world in which the runner can be run again. -/
theorem exec_ahead (hw : w.Lawful) {final : RunState} (hv : w.Rests final v) :
    let near := (r.run (r.audienceOf callers)).exec
      ((ahead w callers.length).resumed v.session.state v.session.listeners)
    let far := (r.run (r.audienceOf callers)).exec (ahead v callers.length)
    Outcome.left callers.length far = (Outcome.left callers.length near).replayed
        (v.session.instances - w.session.instances) far.2.journal.toList ∧
      far.2.session.instances =
        v.session.instances + (near.2.session.instances - w.session.instances) ∧
      w.Rests near.2.session.state far.2 := by
  intro near far
  have hnear : ((ahead w callers.length).resumed v.session.state v.session.listeners).Lawful :=
    ⟨hw.errors, hw.handling⟩
  have hfar : (ahead v callers.length).Lawful := ⟨hv.lawful.errors, hv.lawful.handling⟩
  have hlater := later_ahead hdeclared hv callers.length
  -- Errors and instances are numbered on from those of earlier runs: the run is a shifted one.
  obtain ⟨hrelates, -, hends⟩ := h.corresponds_run (κ := hlater.shift hnear id) rfl hv.predicate
    _ _ (hlater.relates hnear id) (Nat.zero_le _)
  have hnumbered : ∀ s : Session, s.recorded = #[] → s.Numbered := by
    intro s hs listener
    rw [Session.recordedBy, hs]
    rfl
  have hsmall := (h.abides_run _ hnear trivial).1.step.2 (hnumbered _ rfl)
  obtain ⟨hlawful, -, ⟨hpredicate, hlarge⟩, -⟩ := (h.abides_run _ hfar trivial).1
  obtain ⟨hcontexts, hhandling, hcancelled⟩ := h.left_by_run hfar
  have hreplayed := Outcome.left_of_relates hrelates hends rfl rfl rfl rfl rfl hsmall
    (hlarge (hnumbered _ rfl)) callers.length
  have hahead : (hlater.shift hnear id).ahead = v.session.instances - w.session.instances := rfl
  have hinstances : far.2.session.instances =
      near.2.session.instances + (hlater.shift hnear id).ahead := hrelates.session.instances
  have hle : w.session.instances ≤ near.2.session.instances := hrelates.session.instances_le
  have hv' := hv.instances
  rw [hahead] at hreplayed hinstances
  refine ⟨hreplayed, by omega, ?_⟩
  exact {
    lawful := hlawful
    errors := hv.errors.trans hrelates.errors.far
    handling := hhandling.trans hv.handling
    contexts := hcontexts.trans hv.contexts
    state := .inr hrelates.session.state
    predicate := hpredicate.trans hv.predicate
    declared := hcancelled
    instances := by omega }

variable (hw : w.Lawful)

include hw

/-- Every run leaves behind what the first one does, but for its log and the numbers of instances,
and its world as one in which the runner can be run again. -/
theorem perform_of_rests (hv : w.Rests (reference r callers w).2.session.state v) :
    (∃ records, (perform r callers v).1 =
        (Outcome.left callers.length (reference r callers w)).replayed
          (v.session.instances - w.session.instances) records) ∧
      (perform r callers v).2.session.instances = v.session.instances +
        ((reference r callers w).2.session.instances - w.session.instances) ∧
      w.Rests (reference r callers w).2.session.state (perform r callers v).2 := by
  obtain ⟨hstate, hinstances, hleft⟩ := exec_resumed hdeclared h hv.state v.session.listeners
  obtain ⟨hreplayed, hmade, hrests⟩ := exec_ahead hdeclared h hw hv
  rw [hleft] at hreplayed
  rw [hinstances] at hmade
  rw [hstate] at hrests
  rw [perform_eq]
  exact ⟨⟨_, hreplayed⟩, hmade, hrests⟩

/-- Runs one after another leave behind what the first one does, of which each made as many
instances. -/
theorem performAll_of_rests {host : Host} {visitors : List Visitor}
    (hcallers : callers = callersOf host visitors) (k i : Nat)
    (hv : w.Rests (reference r callers w).2.session.state v)
    (hcount : v.session.instances = w.session.instances +
      i * ((reference r callers w).2.session.instances - w.session.instances)) :
    ∃ records : Nat → List LogRecord,
      performAll host r (List.replicate k (.run visitors)) v = (List.range k).map fun j =>
        .ran ((Outcome.left callers.length (reference r callers w)).replayed
          ((i + j) * ((reference r callers w).2.session.instances - w.session.instances))
          (records j)) := by
  -- All runs are compared with the reference, not with the run before: the induction is on the
  -- runs still to come, with the number of those that have been.
  induction k generalizing i v with
  | zero => exact ⟨fun _ => [], rfl⟩
  | succ k ih =>
      obtain ⟨⟨last, houtcome⟩, hmade, hrests⟩ := perform_of_rests hdeclared h hw hv
      rw [hcount, Nat.add_assoc, ← Nat.succ_mul] at hmade
      obtain ⟨records, hrest⟩ := ih (i + 1) hrests hmade
      refine ⟨fun j => j.casesOn last records, ?_⟩
      have hstep : performAll host r (List.replicate (k + 1) (.run visitors)) v =
          .ran (perform r callers v).1 ::
            performAll host r (List.replicate k (.run visitors)) (perform r callers v).2 := by
        rw [hcallers]
        rfl
      rw [hstep, hrest, houtcome, hcount, Nat.add_sub_cancel_left, List.range_succ_eq_map,
        List.map_cons, List.map_map]
      congr 1
      refine List.map_congr_left fun j _ => ?_
      rw [Nat.add_assoc, Nat.add_comm 1 j]
      rfl

end Runs

/-- However often a runner is run, and however its runs end, each run leaves behind what the first
one does: the notifications, the trace up to the numbers of the instances, the error that left the
run, and the state of the runner. Here no script changes who is run or remembers earlier runs. -/
theorem performAll_replicate {host origin : Host} {suite : Suite Script}
    {config : Option RunConfig} {sequence sequence' : Nat} {r : Runner Procedure}
    (hmake : Runner.make (Script.suiteProcedures host suite) config origin sequence =
      .ok (r, sequence'))
    {visitors : List Visitor}
    (hsuite : ∀ script ∈ suite.codes, Script.avoids Script.Step.remembers script = true)
    (hvisitors : ∀ visitor ∈ visitors, ∀ kind,
      Script.avoids Script.Step.remembers (visitor.reactions.on kind) = true)
    {w : World} (hw : w.Lawful) (hdeclared : w.session.declared = []) (k : Nat) :
    let first := perform r (callersOf host visitors) w
    ∃ records : Nat → List LogRecord,
      performAll host r (List.replicate k (.run visitors)) w = (List.range k).map fun i =>
        .ran (first.1.replayed (i * (first.2.session.instances - w.session.instances))
          (records i)) := by
  intro first
  have h : r.Forgetful (callersOf host visitors) := by
    refine ⟨Runner.codes_of_make hmake fun script hscript =>
      Script.forgetful host (hsuite script hscript), fun tag reactions hmem kind => ?_,
      Runner.expands_of_make hmake⟩
    rcases List.mem_cons.mp hmem with heq | hmem
    · cases heq
    · obtain ⟨visitor, hvisitor, heq⟩ := List.mem_map.mp hmem
      cases heq
      rw [Script.reactionProcedures_on]
      exact Script.forgetful host (hvisitors visitor hvisitor kind)
  have hrests := rests_self hw hdeclared (reference r (callersOf host visitors) w).2.session.state
  obtain ⟨⟨last, hfirst⟩, hmade, -⟩ := perform_of_rests hdeclared h hw hrests
  obtain ⟨records, hall⟩ := performAll_of_rests hdeclared h hw rfl k 0 hrests (by omega)
  refine ⟨records, ?_⟩
  have hcount : first.2.session.instances - w.session.instances =
      (reference r (callersOf host visitors) w).2.session.instances - w.session.instances := by
    rw [hmade, Nat.add_sub_cancel_left]
  have hreplayed : ∀ offset records, first.1.replayed offset records =
      (Outcome.left (callersOf host visitors).length
        (reference r (callersOf host visitors) w)).replayed offset records := by
    intro offset records
    rw [hfirst, Nat.sub_self, Outcome.replayed_replayed_zero]
  rw [hall]
  refine List.map_congr_left fun i _ => ?_
  rw [hcount, hreplayed, Nat.zero_add]

/-- A suite that declares a listener, and whose second test empties the stack before it is
interrupted. -/
def restlessSuite : Suite Script where
  name := "Restless"
  factory := some { code := [.push 5] }
  units := [
    { name := "fails", body := some [.depth, .raise
        [{ error := { complaint := ⟨.named "RuntimeError", some "lost"⟩ } }]] },
    { name := "stops", body := some [.clear, .raise
        [{ error := { complaint := ⟨.named "KeyboardInterrupt", none⟩ } }]] }]
  levels := [{
    owner := "Restless"
    beforeAll := [{ name := "open", label := "open", code := some [.push 6] }] }]
  listeners := [{ tag := "audit", create := [], reactions := ⟨[], [], [], [], [.subscribe 1]⟩ }]

/-- Three times a run ends with the error of the pop that ends it, while units are run. -/
theorem performAll_restlessSuite :
    let watch : Visitor := { tag := "watch", reactions := ⟨[], [], [], [.unsubscribe 1], [.depth]⟩ }
    ∃ r sequence,
      Runner.make (Script.suiteProcedures {} restlessSuite) (some .unset) {} 0 =
          .ok (r, sequence) ∧
        let first := (perform r (callersOf {} [watch]) {}).1
        (first.raised = some ContextError.popOfEmpty.complaint ∧ first.state = .runningUnits ∧
            first.notifications.length = 5 ∧ first.trace.length = 17) ∧
          ∃ records : Nat → List LogRecord,
            performAll {} r (List.replicate 3 (.run [watch])) {} =
              [.ran (first.replayed 0 (records 0)), .ran (first.replayed 2 (records 1)),
                .ran (first.replayed 4 (records 2))] := by
  intro watch
  obtain ⟨⟨r, sequence⟩, hmake, hfirst, hmade⟩ : ∃ made,
      Runner.make (Script.suiteProcedures {} restlessSuite) (some .unset) {} 0 = .ok made ∧
        (let first := (perform made.1 (callersOf {} [watch]) {}).1;
          first.raised = some ContextError.popOfEmpty.complaint ∧ first.state = .runningUnits ∧
            first.notifications.length = 5 ∧ first.trace.length = 17) ∧
          (perform made.1 (callersOf {} [watch]) {}).2.session.instances = 2 :=
    exists_ok_of_any (by decide +kernel)
  refine ⟨r, sequence, hmake, hfirst, ?_⟩
  have hvisitors : ∀ visitor ∈ [watch], ∀ kind,
      Script.avoids Script.Step.remembers (visitor.reactions.on kind) = true := by
    intro visitor hvisitor kind
    rw [List.mem_singleton.mp hvisitor]
    cases kind <;> rfl
  obtain ⟨records, hall⟩ := performAll_replicate hmake (by decide) hvisitors
    (World.lawful_initial {}) rfl 3
  refine ⟨records, hall.trans ?_⟩
  rw [hmade]
  rfl

end RunnerProgram
end SeededTesting
