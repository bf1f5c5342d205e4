import SeededTesting.Proofs.Run.Whole
import SeededTesting.Proofs.Shift.Stages

/-! # Segments of runs

A run passes through stages: it is opened, its class is set up, candidates are run one after
another, and the class is torn down. The segment of a stage is what can be seen of it: its events,
and its notifications with what is told about their errors. What can be seen of a run is what can
be seen of its stages, one after another.
-/

namespace SeededTesting

open Act Shift

structure Segment where
  /-- How many instances were made before. -/
  first : Nat
  events : List Event
  notifications : List (ListenerRef × Notification ErrorInfo)

namespace Segment

/-- What can be seen of the time between two worlds. -/
def between (w v : World) : Segment where
  first := w.session.instances
  events := v.session.trace.toList.drop w.session.trace.size
  notifications := (v.session.told.drop w.session.told.length).map fun entry =>
    (entry.1, entry.2.mapError v.errors.info)

/-- A segment whose instances are counted from its beginning. -/
def counted (s : Segment) : Segment where
  first := 0
  events := s.events.map (·.moved (-s.first) id)
  notifications := s.notifications

/-- A segment about other names. -/
def renamed (rename : String → String) (s : Segment) : Segment where
  first := s.first
  events := s.events.map (·.moved 0 rename)
  notifications := s.notifications.map fun entry =>
    (entry.1, { entry.2 with name := rename entry.2.name })

/-- Segments one after another. -/
def join (first : Nat) (segments : List Segment) : Segment where
  first := first
  events := segments.flatMap (·.events)
  notifications := segments.flatMap (·.notifications)

end Segment

/-! ## Segments along a shift -/

theorem Event.moved_moved (event : Event) (a : Nat) (b : Int) (f g : String → String) :
    (event.moved a f).moved b g = event.moved (a + b) (g ∘ f) := by
  have hmap : ∀ target : Instance, (target.map (· + (a : Int))).map (· + b) =
      target.map (· + (a + b)) := by
    intro target
    rw [Option.map_map]
    congr 1
    funext n
    exact Int.add_assoc n a b
  cases event with
  | called label arguments =>
      have hcomp : Option.map (· + b) ∘ Option.map (· + (a : Int)) =
          Option.map (· + ((a : Int) + b)) := funext hmap
      rw [moved, moved, moved, List.map_map, hcomp]
  | instanceMade number =>
      have hnumber : ((((number : Int) + a).toNat : Int) + b).toNat =
          ((number : Int) + (a + b)).toNat := by
        omega
      exact congrArg Event.instanceMade hnumber
  | ruleBuilt tag unit target => exact congrArg (Event.ruleBuilt tag unit) (hmap target)
  | _ => rfl

/-- What can be seen in the second world is what can be seen in the first. -/
theorem Shift.Relates.counted_between {κ : Shift} {small large : World}
    (h : κ.Relates small large) :
    (Segment.between κ.far large).counted =
      ((Segment.between κ.near small).renamed κ.rename).counted := by
  obtain ⟨events, hsmall, hlarge⟩ := h.session.trace
  obtain ⟨new, hnew, hnew', -⟩ := h.session.told
  -- Each world counts instances from its own beginning, which takes the shift back.
  have hoffset : (κ.ahead : Int) + -(κ.far.session.instances : Int) =
      ((0 : Nat) : Int) + -(κ.near.session.instances : Int) := by
    have := κ.instances_le
    rw [ahead]
    omega
  unfold Segment.between Segment.renamed Segment.counted
  rw [hsmall, hlarge, hnew, hnew', ← Array.length_toList, ← Array.length_toList, List.drop_left,
    List.drop_left, List.drop_left, List.drop_left]
  simp only [List.map_map, Segment.mk.injEq, true_and]
  constructor
  · refine List.map_congr_left fun event _ => ?_
    change (event.moved κ.ahead κ.rename).moved _ _ = (event.moved ((0 : Nat) : Int) _).moved _ _
    rw [Event.moved_moved, Event.moved_moved, hoffset]
  · refine List.map_congr_left fun entry _ => ?_
    obtain ⟨listener, kind, name, error, seq⟩ := entry
    have hinfo : (error.map κ.place).map large.errors.info = error.map small.errors.info := by
      rw [Option.map_map]
      exact congrArg (Option.map · error) (funext h.errors.info)
    change (listener, Notification.mk kind (κ.rename name) ((error.map κ.place).map _) seq) = _
    rw [hinfo]
    rfl

theorem Event.moved_zero (event : Event) : event.moved 0 id = event := by
  have hmap : Option.map (fun n : Int => n + 0) = id := by
    funext target
    cases target with
    | none => rfl
    | some n => exact congrArg some (Int.add_zero n)
  cases event with
  | called label arguments => rw [moved, hmap, List.map_id]
  | ruleBuilt tag unit target => rw [moved, hmap, id]
  | _ => rfl

theorem Segment.renamed_id (s : Segment) : s.renamed id = s := by
  have hevents : s.events.map (·.moved 0 id) = s.events := by
    rw [funext Event.moved_zero]
    exact List.map_id _
  have hnotifications : (s.notifications.map fun entry =>
      (entry.1, { entry.2 with name := id entry.2.name })) = s.notifications :=
    List.map_id _
  rw [renamed, hevents, hnotifications]

/-! ## Going on -/

/-- What was there is kept, and what was told since refers to errors that were made. -/
structure World.Onward (w v : World) : Prop where
  lawful : v.Lawful
  errors : w.errors.Keeps v.errors
  trace : ∃ events, v.session.trace.toList = w.session.trace.toList ++ events
  told : ∃ new, v.session.told = w.session.told ++ new ∧
    ∀ entry ∈ new, ∀ e, entry.2.error = some e → e < v.errors.size

namespace World.Onward

variable {w v u : World}

theorem refl (h : w.Lawful) : w.Onward w :=
  ⟨h, .refl _, ⟨[], (List.append_nil _).symm⟩, [], (List.append_nil _).symm,
    List.forall_mem_nil _⟩

theorem trans (h : w.Onward v) (h' : v.Onward u) : w.Onward u := by
  obtain ⟨events, hevents⟩ := h.trace
  obtain ⟨events', hevents'⟩ := h'.trace
  obtain ⟨new, hnew, hmade⟩ := h.told
  obtain ⟨new', hnew', hmade'⟩ := h'.told
  refine ⟨h'.lawful, h.errors.trans h'.errors, ⟨events ++ events', ?_⟩, new ++ new', ?_, ?_⟩
  · rw [hevents', hevents, List.append_assoc]
  · rw [hnew', hnew, List.append_assoc]
  · intro entry hmem e he
    rcases List.mem_append.mp hmem with hmem | hmem
    · exact Nat.lt_of_lt_of_le (hmade entry hmem e he) h'.errors.1
    · exact hmade' entry hmem e he

/-- What can be seen first and what can be seen then. -/
theorem between_trans (h : w.Onward v) (h' : v.Onward u) :
    Segment.between w u = .join w.session.instances [.between w v, .between v u] := by
  obtain ⟨events, hevents⟩ := h.trace
  obtain ⟨events', hevents'⟩ := h'.trace
  obtain ⟨new, hnew, hmade⟩ := h.told
  obtain ⟨new', hnew', -⟩ := h'.told
  unfold Segment.between Segment.join
  simp only [List.flatMap_cons, List.flatMap_nil, List.append_nil, Segment.mk.injEq, true_and]
  constructor
  · rw [hevents', hevents, ← Array.length_toList, ← Array.length_toList, hevents,
      List.append_assoc, List.drop_left, List.drop_left, ← List.append_assoc, List.drop_left]
  · rw [hnew', hnew, List.append_assoc, List.drop_left, List.drop_left, ← List.append_assoc,
      List.drop_left, List.map_append]
    congr 1
    refine List.map_congr_left fun entry hmem => ?_
    obtain ⟨listener, kind, name, error, seq⟩ := entry
    cases error with
    | none => rfl
    | some e =>
        -- What can be told of an error that was made stays the same later on.
        have he := hmade _ hmem e rfl
        unfold Notification.mapError
        dsimp only [Option.map_some]
        rw [h'.errors.info h.lawful.errors he]

end World.Onward

/-- An action that does the same along the shift from a world to itself goes on from there. -/
theorem Shift.Corresponds.onward {α : Type} {body : Act α} {V : α → α → Nat → Prop} {w : World}
    (hw : w.Lawful) (hsound : Sound body)
    (h : ((World.Later.refl w).shift hw id).Corresponds 0 body body V) :
    w.Onward (body.exec w).2 := by
  obtain ⟨hrelates, -, -⟩ := h w w ((World.Later.refl w).relates hw id) (Nat.zero_le _)
  obtain ⟨events, hevents, -⟩ := hrelates.session.trace
  obtain ⟨new, hnew, -, hfresh⟩ := hrelates.session.told
  exact ⟨(hsound w hw trivial).1.lawful, hrelates.errors.near, ⟨events, hevents⟩, new, hnew,
    fun entry hmem e he => (hfresh entry hmem e he).2⟩

/-! ## Stages -/

inductive Stage where
  | opening
  | setUp
  | candidate (c : Candidate Procedure)
  | tearDown

namespace Runner

variable (r : Runner Procedure) (audience : Audience)

/-- The stages of a run of candidates. -/
def stages (survivors : List (Candidate Procedure)) : List Stage :=
  .opening :: if survivors.isEmpty then []
    else .setUp :: (survivors.map Stage.candidate ++ [.tearDown])

/-- Performs a stage and tells whether the run goes on. -/
def perform : Stage → Act Bool
  | .opening => do
    discard r.prepare
    return true
  | .setUp => do
    r.enter .classSetup
    if ← r.setUpClass audience then do
      r.enter .runningUnits
      return true
    else return false
  | .candidate c => do
    r.runCandidate audience c
    return true
  | .tearDown => do
    r.enter .classTeardown
    r.tearDownClass audience
    return true

/-- Performs stages one after another as long as the run goes on. -/
def performAll : List Stage → Act Unit
  | [] => return
  | stage :: rest => do
    if ← r.perform audience stage then performAll rest else return

/-- What can be seen of stages that are performed one after another. -/
def chronicle : List Stage → World → List (Stage × Segment)
  | [], _ => []
  | stage :: rest, w =>
    let v := ((r.perform audience stage).exec w).2
    (stage, .between w v) :: match ((r.perform audience stage).exec w).1 with
      | .ok true => chronicle rest v
      | _ => []

/-- What can be seen of the stages of a run. -/
def account (w : World) : List (Stage × Segment) :=
  r.chronicle audience (stages (r.survivors (r.inForce w))) (r.entered w)

/-! ## Runs by stages -/

theorem performAll_candidates (cs : List (Candidate Procedure)) (rest : List Stage) :
    r.performAll audience (cs.map Stage.candidate ++ rest) = (do
      r.runCandidates audience cs
      r.performAll audience rest) := by
  induction cs with
  | nil => rfl
  | cons c cs ih =>
      rw [List.map_cons, List.cons_append, performAll, perform, runCandidates, ih]
      simp only [bind_assoc, pure_bind, if_true]

theorem runClass_eq_performAll (cs : List (Candidate Procedure)) :
    r.runClass audience cs =
      r.performAll audience (.setUp :: (cs.map Stage.candidate ++ [.tearDown])) := by
  rw [performAll, performAll_candidates, performAll, performAll, perform, perform, runClass]
  simp only [bind_assoc, pure_bind, if_true]
  congr 1
  funext _
  congr 1
  funext ready
  cases ready <;> simp

/-- What a run does from its opening on is to perform its stages. -/
theorem exec_runSurvivors (w : World) :
    (r.runSurvivors audience).exec (r.entered w) = (do
      r.performAll audience (stages (r.survivors (r.inForce w)))
      if (r.survivors (r.inForce w)).isEmpty then r.enter .idle else return).exec
        (r.entered w) := by
  have hprepare := r.exec_prepare (r.entered w)
  rw [runSurvivors, stages, performAll, perform]
  simp only [bind_assoc, pure_bind, if_true]
  rw [exec_bind, exec_bind, exec_discard, hprepare]
  rcases hsubscribed : (r.subscribeFrom 0 r.suite.listeners).exec (r.entered w) with ⟨e | _, v⟩
  · rfl
  · have hforce : v.session.predicate = r.inForce w := by
      rw [inForce, hsubscribed]
    dsimp only [Except.map]
    rw [hforce]
    by_cases hempty : (r.survivors (r.inForce w)).isEmpty = true
    · rw [if_pos hempty, if_pos hempty, if_pos hempty]
      rfl
    · rw [if_neg hempty, if_neg hempty, if_neg hempty, bind_pure, ← runClass_eq_performAll]

/-! ## Stages go on -/

section Stages

variable {r audience}

/-- Runners that agree in what matters perform a stage alike. -/
theorem corresponds_perform {r' : Runner Procedure} (hakin : r.Akin r')
    (haudience : audience.Oblivious) (hcodes : ∀ code ∈ r.suite.codes, Procedure.Oblivious code)
    {κ : Shift} (hrename : κ.rename = id) {n : Nat} {stage : Stage}
    (hunit : ∀ c, stage = .candidate c → c.unit ∈ r.suite.units) :
    κ.Corresponds n (r.perform audience stage) (r'.perform audience stage) Same := by
  have hsame : ∀ name, κ.rename name = name := fun name => congrFun hrename name
  cases stage with
  | opening =>
      exact (corresponds_prepare hakin hcodes).discard.andThen fun _ => .value fun _ _ => rfl
  | setUp =>
      refine (corresponds_enter _).andThen fun _ =>
        (corresponds_setUpClass hakin haudience hcodes (hsame _)).andThen fun ready => ?_
      cases ready with
      | false => exact .value fun _ _ => rfl
      | true => exact (corresponds_enter _).andThen fun _ => .value fun _ _ => rfl
  | candidate c =>
      have halike : κ.Alike c c := ⟨rfl, rfl, (hsame c.name).symm⟩
      exact (corresponds_runCandidate hakin haudience halike hcodes (hunit c rfl)).andThen
        fun _ => .value fun _ _ => rfl
  | tearDown =>
      exact (corresponds_enter _).andThen fun _ =>
        (corresponds_tearDownClass hakin haudience hcodes (hsame _)).andThen fun _ =>
          .value fun _ _ => rfl

theorem Akin.refl (r : Runner Procedure) : r.Akin r :=
  ⟨rfl, rfl, rfl⟩

/-- A stage keeps to a regime that its collaborators keep to. -/
theorem abides_perform {ρ : Regime} (hρ : ρ.Works)
    (hcodes : ∀ code ∈ r.suite.codes, code.Conducts ρ anyComplaint)
    (haudience : audience.Conducts ρ anyComplaint) {stage : Stage}
    (hunit : ∀ c, stage = .candidate c → c.unit ∈ r.suite.units) :
    Abides ρ (r.perform audience stage) := by
  have hcalls := hρ.performs.toCalls
  cases stage with
  | opening =>
      exact .bind (Triple.discard (r.conduct_prepare hρ.prepares hcodes) fun _ _ _ => trivial)
        fun _ => .value true
  | setUp =>
      refine .bind (r.abides_enter hρ.performs _) fun _ =>
        .bind (r.abides_setUpClass hcalls hcodes haudience) fun ready => ?_
      cases ready with
      | false => exact .value false
      | true => exact .bind (r.abides_enter hρ.performs _) fun _ => .value true
  | candidate c =>
      exact .bind (r.abides_runCandidate hcalls hcodes haudience (hunit c rfl)) fun _ => .value true
  | tearDown =>
      exact .bind (r.abides_enter hρ.performs _) fun _ =>
        .bind (r.abides_tearDownClass hcalls hcodes haudience) fun _ => .value true

theorem abides_performAll {ρ : Regime} (hρ : ρ.Works)
    (hcodes : ∀ code ∈ r.suite.codes, code.Conducts ρ anyComplaint)
    (haudience : audience.Conducts ρ anyComplaint) {list : List Stage}
    (hunits : ∀ c, .candidate c ∈ list → c.unit ∈ r.suite.units) :
    Abides ρ (r.performAll audience list) := by
  induction list with
  | nil => exact .value ()
  | cons stage rest ih =>
      have hstage : Abides ρ (r.perform audience stage) := abides_perform hρ hcodes haudience
        fun c hc => hunits c (by rw [hc]; exact List.mem_cons_self)
      refine .bind hstage fun go => ?_
      cases go with
      | false => exact .value ()
      | true => exact ih fun c hc => hunits c (List.mem_cons_of_mem _ hc)

variable (hcodes : ∀ code ∈ r.suite.codes, Procedure.Oblivious code)
  (hsound : ∀ code ∈ r.suite.codes, code.Conducts .free anyComplaint)
  (haudience : audience.Oblivious) (haudience' : audience.Conducts .free anyComplaint)

include hcodes hsound haudience haudience'

theorem onward_perform {stage : Stage}
    (hunit : ∀ c, stage = .candidate c → c.unit ∈ r.suite.units) {w : World} (hw : w.Lawful) :
    w.Onward ((r.perform audience stage).exec w).2 :=
  Corresponds.onward hw (abides_perform .free hsound haudience' hunit)
    (corresponds_perform (.refl r) haudience hcodes rfl hunit)

/-- What can be seen of stages is what can be seen of each. -/
theorem between_performAll {list : List Stage}
    (hunits : ∀ c, .candidate c ∈ list → c.unit ∈ r.suite.units) {w : World} (hw : w.Lawful) :
    w.Onward ((r.performAll audience list).exec w).2 ∧
      Segment.between w ((r.performAll audience list).exec w).2 =
        .join w.session.instances ((r.chronicle audience list w).map (·.2)) := by
  induction list generalizing w with
  | nil =>
      refine ⟨.refl hw, ?_⟩
      unfold performAll chronicle Segment.between Segment.join
      rw [exec_pure, ← Array.length_toList, List.drop_length, List.drop_length]
      rfl
  | cons stage rest ih =>
      have hstage : w.Onward ((r.perform audience stage).exec w).2 :=
        onward_perform hcodes hsound haudience haudience'
          (fun c hc => hunits c (by rw [hc]; exact List.mem_cons_self)) hw
      have hlast : Segment.between w ((r.perform audience stage).exec w).2 =
          .join w.session.instances [.between w ((r.perform audience stage).exec w).2] := by
        unfold Segment.join
        rw [List.flatMap_singleton, List.flatMap_singleton]
        rfl
      unfold performAll chronicle
      rw [exec_bind]
      dsimp only
      rcases hout : (r.perform audience stage).exec w with ⟨e | go, v⟩
      · rw [hout] at hstage hlast
        exact ⟨hstage, hlast⟩
      · rw [hout] at hstage hlast
        cases go with
        | false => exact ⟨hstage, hlast⟩
        | true =>
            obtain ⟨hrest, hseen⟩ := ih (fun c hc => hunits c (List.mem_cons_of_mem _ hc))
              hstage.lawful
            refine ⟨hstage.trans hrest, ?_⟩
            dsimp only
            rw [if_pos rfl, hstage.between_trans hrest, hseen]
            unfold Segment.join
            simp

end Stages

end Runner

/-! ## Whole runs -/

/-- The one world goes on from the other, and nothing can be seen in between. -/
structure World.Quiet (w v : World) : Prop where
  onward : w.Onward v
  trace : v.session.trace = w.session.trace
  recorded : v.session.recorded = w.session.recorded

namespace World.Quiet

variable {w v u : World}

theorem refl (h : w.Lawful) : w.Quiet w :=
  ⟨.refl h, rfl, rfl⟩

theorem trans (h : w.Quiet v) (h' : v.Quiet u) : w.Quiet u :=
  ⟨h.onward.trans h'.onward, h'.trace.trans h.trace, h'.recorded.trans h.recorded⟩

theorem between_eq (h : v.Quiet u) (hv : w.Onward v) :
    Segment.between w u = Segment.between w v := by
  have hnothing : Segment.between v u = ⟨v.session.instances, [], []⟩ := by
    have htold : u.session.told = v.session.told := by
      rw [Session.told, Session.told, h.recorded]
    unfold Segment.between
    rw [h.trace, htold, ← Array.length_toList, List.drop_length, List.drop_length]
    rfl
  rw [hv.between_trans h.onward, hnothing]
  unfold Segment.join
  simp only [List.flatMap_cons, List.flatMap_nil, List.append_nil]
  rfl

end World.Quiet

/-- An action in which nothing can be seen. -/
def Act.Quiet {α : Type} (body : Act α) : Prop :=
  ∀ w : World, w.Lawful → w.Quiet (body.exec w).2

namespace Act.Quiet

variable {α : Type} {body : Act α}

theorem of_silent (hsilent : Conduct (Triple.loosen .silent) anyComplaint body)
    {V : α → α → Nat → Prop} (hself : ∀ κ : Shift, κ.Corresponds 0 body body V) : body.Quiet := by
  intro w hw
  obtain ⟨hleads, hends⟩ := hsilent w hw trivial
  have hsound : Sound body := by
    intro w hw _
    obtain ⟨hleads, hends⟩ := hsilent w hw trivial
    exact ⟨⟨hleads.lawful, hleads.grows, trivial, False.elim⟩, hends⟩
  exact ⟨Corresponds.onward hw hsound (hself _), hleads.step.1, hleads.step.2⟩

theorem whileHandling (h : body.Quiet) {w : World} (hw : w.Lawful) {e : ErrorId}
    (he : e < w.errors.size) : w.Quiet ((Act.whileHandling e body).exec w).2 := by
  rw [exec_whileHandling]
  have hquiet := h _ (hw.handled he)
  refine ⟨⟨⟨hquiet.onward.lawful.errors, fun i hi => ?_⟩, hquiet.onward.errors,
    hquiet.onward.trace, hquiet.onward.told⟩, hquiet.trace, hquiet.recorded⟩
  exact Nat.lt_of_lt_of_le (hw.handling i hi) hquiet.onward.errors.1

/-- A quiet clean-up shows no more than what it cleans up after. -/
theorem andFinally {body cleanup : Act Unit} (h : cleanup.Quiet) (hbody : Sound body) {w : World}
    (hw : w.Lawful) : (body.exec w).2.Quiet ((Act.andFinally body cleanup).exec w).2 := by
  obtain ⟨hleads, hout⟩ := hbody w hw trivial
  rw [exec_andFinally]
  generalize body.exec w = result at *
  obtain ⟨e | _, v⟩ := result
  · have hcleanup := h.whileHandling hleads.lawful hout.1
    dsimp only
    rw [exec_bind]
    rcases hexec : (Act.whileHandling e cleanup).exec v with ⟨i | _, u⟩
    · rw [hexec] at hcleanup
      exact hcleanup
    · rw [hexec] at hcleanup
      exact hcleanup
  · exact h v hleads.lawful

theorem complain (c : Complaint) : (Act.complain c : Act α).Quiet :=
  of_silent (.complain trivial) fun _ => .complain (V := Same) c

end Act.Quiet

namespace Runner

variable {r : Runner Procedure} {audience : Audience}

theorem quiet_enter (state : RunState) : (r.enter state).Quiet := by
  have hself : ∀ κ : Shift, κ.Corresponds 0 (r.enter state) (r.enter state) Same :=
    fun _ => corresponds_enter state
  exact .of_silent (r.conduct_enter Regime.closes_silent.state state).loose hself

theorem quiet_close : r.close.Quiet := by
  have hself : ∀ κ : Shift, κ.Corresponds 0 r.close r.close Same := fun _ => corresponds_close
  exact .of_silent (r.conduct_close id ⟨fun _ _ => ⟨rfl, rfl⟩, fun _ _ => ⟨rfl, rfl⟩,
    fun _ _ => ⟨rfl, rfl⟩⟩) hself

/-- Leaving a run shows nothing more. -/
theorem quiet_leaving {outcome : Except ErrorId Unit} {w : World} (hw : w.Lawful)
    (he : ∀ e, outcome = .error e → e < w.errors.size) :
    w.Quiet ((leaving (resume outcome)).exec w).2 := by
  rw [exec_leaving, exec_resume]
  cases outcome with
  | ok _ => exact .refl hw
  | error e =>
      dsimp only
      cases (w.errors.get e).kind.refusalToLeave with
      | none => exact .refl hw
      | some refusal => exact (Act.Quiet.complain refusal).whileHandling hw (he e rfl)

/-- The candidates of the stages of a run come from the units of its suite. -/
theorem unit_mem_of_mem_stages (hexpands : r.Expands) {predicate : Option (String → Bool)}
    {c : Candidate Procedure} (hc : .candidate c ∈ stages (r.survivors predicate)) :
    c.unit ∈ r.suite.units := by
  unfold stages at hc
  split at hc
  · simp at hc
  · simp only [List.mem_cons, reduceCtorEq, List.mem_append, List.mem_map, false_or,
      Stage.candidate.injEq, exists_eq_right, List.not_mem_nil, or_false] at hc
    exact hexpands c (r.mem_candidates_of_mem_survivors hc)

/-- After its stages a run may become idle. -/
theorem quiet_idle {w : World}
    (hlawful : ((r.performAll audience (stages (r.survivors (r.inForce w)))).exec
      (r.entered w)).2.Lawful) :
    ((r.performAll audience (stages (r.survivors (r.inForce w)))).exec (r.entered w)).2.Quiet
      ((r.runSurvivors audience).exec (r.entered w)).2 := by
  rw [exec_runSurvivors, exec_bind]
  generalize (r.performAll audience (stages (r.survivors (r.inForce w)))).exec
    (r.entered w) = result at *
  obtain ⟨e | _, v⟩ := result
  · exact .refl hlawful
  · dsimp only
    split
    · exact quiet_enter .idle v hlawful
    · exact .refl hlawful

/-- A run shows no more than its stages, after which it is closed and left in any case. -/
theorem quiet_performAll (hsound : ∀ code ∈ r.suite.codes, code.Conducts .free anyComplaint)
    (haudience : audience.Conducts .free anyComplaint) (hexpands : r.Expands) {w : World}
    (hw : w.Lawful) :
    ((r.performAll audience (stages (r.survivors (r.inForce w)))).exec (r.entered w)).2.Quiet
      ((r.run audience).exec w).2 := by
  have hperformed : Sound (r.performAll audience (stages (r.survivors (r.inForce w)))) :=
    abides_performAll .free hsound haudience fun c hc => unit_mem_of_mem_stages hexpands hc
  have hends : Sound (r.runSurvivors audience) :=
    r.abides_runSurvivors .free hsound haudience hexpands
  have hclosed : Sound (Act.andFinally (r.runSurvivors audience) r.close) :=
    .andFinally hends (r.conduct_close id .free)
  have hclose : r.close.Quiet := quiet_close
  have hall := (quiet_idle (hperformed _ (r.entered_lawful hw) trivial).1.lawful).trans
    (hclose.andFinally hends (r.entered_lawful hw))
  obtain ⟨hleads, hout⟩ := hclosed _ (r.entered_lawful hw) trivial
  obtain ⟨last, -, hexec⟩ := r.exec_run hsound haudience hexpands hw (Prod.eta _).symm
  rw [hexec]
  generalize (Act.andFinally (r.runSurvivors audience) r.close).exec (r.entered w) = result at *
  obtain ⟨outcome, v⟩ := result
  -- To leave the run puts the contexts back and shows nothing.
  have hleft : v.Quiet { v with
      contexts := w.contexts, session := { v.session with lastContext := some last } } :=
    ⟨⟨⟨hleads.lawful.errors, hleads.lawful.handling⟩, .refl _, ⟨[], (List.append_nil _).symm⟩,
      [], (List.append_nil _).symm, List.forall_mem_nil _⟩, rfl, rfl⟩
  have hmade : ∀ e, outcome = .error e → e < v.errors.size := by
    rintro e rfl
    exact hout.1
  exact hall.trans (hleft.trans (quiet_leaving hleft.onward.lawful hmade))

/-- What can be seen of a run is what can be seen of its stages. -/
theorem between_run (hcodes : ∀ code ∈ r.suite.codes, Procedure.Oblivious code)
    (hsound : ∀ code ∈ r.suite.codes, code.Conducts .free anyComplaint)
    (haudience : audience.Oblivious) (haudience' : audience.Conducts .free anyComplaint)
    (hexpands : r.Expands) {w : World} (hw : w.Lawful) :
    Segment.between w ((r.run audience).exec w).2 =
      .join w.session.instances ((r.account audience w).map (·.2)) := by
  have hunits : ∀ c, .candidate c ∈ stages (r.survivors (r.inForce w)) →
      c.unit ∈ r.suite.units := fun c hc => unit_mem_of_mem_stages hexpands hc
  obtain ⟨honward, hseen⟩ := between_performAll hcodes hsound haudience haudience' hunits
    (r.entered_lawful hw)
  have hrun := (quiet_performAll hsound haudience' hexpands hw).between_eq honward
  rw [hseen] at hrun
  exact hrun

end Runner
end SeededTesting
