import SeededTesting.Proofs.Run.Scripted
import SeededTesting.Proofs.Run.Segments

/-! # What stages leave to one another

Where scripts do not reach beyond their own scope, a candidate leaves the world as it was found,
but for what has been made and seen, and the stages after it can not tell whether it was run. What
is seen of a stage then depends on the world after the set-up only.
-/

namespace SeededTesting

open Act Shift

/-! ## Scripts that do not stray -/

/-- Whether a step reaches beyond its scope: it moves on the stack, changes who is run or who
listens, runs another suite, or raises an object that may have been raised before. -/
def Script.Step.strays (step : Step) : Bool :=
  step.moves || step.filters || step.enlists || step.depends

/-- What holds of a session until the run itself changes it. -/
def Session.standing (s : Session) :
    RunState × List ListenerRef × List ListenerRef × Nat × Option (String → Bool) :=
  (s.state, s.subscribed, s.declared, s.listeners, s.predicate)

/-- The regime under which nothing changes but what has been drawn, made and seen. -/
def Regime.settled : Regime where
  balanced := True
  step s t := t.standing = s.standing
  refl _ := rfl
  trans h h' := h'.trans h

/-- The regime under which candidates are filtered by one test. -/
def Regime.steady : Regime where
  balanced := True
  step s t := t.predicate = s.predicate
  refl _ := rfl
  trans h h' := h'.trans h

theorem Regime.traces_settled : settled.Traces :=
  ⟨fun _ _ => rfl, fun _ _ => rfl⟩

theorem Regime.traces_steady : steady.Traces :=
  ⟨fun _ _ => rfl, fun _ _ => rfl⟩

theorem Regime.prepares_steady : steady.Prepares where
  made _ _ := rfl
  state _ _ := rfl
  listeners _ _ := rfl
  declared _ _ := rfl
  subscribed _ _ _ := rfl

theorem Regime.settled_implies_steady : settled.Implies steady := by
  refine ⟨id, fun s t hstanding => ?_⟩
  simp only [settled, Session.standing, Prod.mk.injEq] at hstanding
  exact hstanding.2.2.2.2

namespace Script

theorem permits_settled : Permits .settled anyComplaint Step.strays := by
  apply permits_complaints
  case moves =>
    intro step hmoves hsort
    rw [Step.strays, hmoves] at hsort
    cases hsort
  case report => exact fun _ _ _ => rfl
  all_goals exact fun _ hsort => nomatch hsort

theorem oblivious_of_strays (host : Host) {script : Script}
    (h : avoids Step.strays script = true) : (procedure host script).Oblivious :=
  oblivious host (avoids_mono (fun step hdepends => by rw [Step.strays, hdepends, Bool.or_true]) h)

end Script

theorem Procedure.Oblivious.calmed {procedure : Procedure} (h : procedure.Oblivious) :
    procedure.calmed.Oblivious :=
  fun κ label => (h κ label).observe.discard

theorem Audience.Oblivious.calmed {audience : Audience} (h : audience.Oblivious) :
    audience.calmed.Oblivious := by
  intro listener tag reactions hlistener kind
  obtain ⟨inner, hinner, rfl⟩ := exists_of_calmed hlistener
  rw [Reactions.on_calmed]
  exact (h listener tag inner hinner kind).calmed

/-- A world in which candidates are filtered by a test of their names. -/
def World.filteredBy (w : World) (predicate : Option (String → Bool)) : World :=
  { w with session := { w.session with predicate } }

theorem World.Lawful.filteredBy {w : World} (h : w.Lawful)
    (predicate : Option (String → Bool)) : (w.filteredBy predicate).Lawful :=
  ⟨h.errors, h.handling⟩

/-- Nothing but the filter tells the two worlds apart. -/
theorem World.later_filteredBy (w : World) (predicate predicate' : Option (String → Bool)) :
    (w.filteredBy predicate).Later (w.filteredBy predicate') :=
  ⟨.refl _, rfl, rfl, rfl, rfl, rfl, rfl, Nat.le_refl _⟩

namespace Runner

/-- Collaborators and listeners do not reach beyond the calls that are made to them. -/
structure Confined (r : Runner Procedure) (audience : Audience) (B N : Complaint → Prop) :
    Prop where
  oblivious : ∀ code ∈ r.suite.codes, Procedure.Oblivious code
  settled : ∀ code ∈ r.suite.codes, code.Conducts .settled B
  audienceOblivious : audience.Oblivious
  audienceSettled : audience.Conducts .settled N

variable {r r' : Runner Procedure} {audience : Audience} {B N : Complaint → Prop}

namespace Confined

theorem any (h : r.Confined audience B N) : r.Confined audience anyComplaint anyComplaint where
  oblivious := h.oblivious
  settled code hcode label := (h.settled code hcode label).mono fun _ _ => trivial
  audienceOblivious := h.audienceOblivious
  audienceSettled listener tag reactions hlistener kind label :=
    (h.audienceSettled listener tag reactions hlistener kind label).mono fun _ _ => trivial

theorem sound (h : r.Confined audience B N) :
    ∀ code ∈ r.suite.codes, code.Conducts .free anyComplaint :=
  fun code hcode => (h.any.settled code hcode).under .free

theorem audienceSound (h : r.Confined audience B N) : audience.Conducts .free anyComplaint :=
  h.any.audienceSettled.under .free

theorem akin (h : r.Confined audience B N) (hakin : r.Akin r') : r'.Confined audience B N := by
  obtain ⟨hsuite, -, -⟩ := hakin
  exact ⟨hsuite ▸ h.oblivious, hsuite ▸ h.settled, h.audienceOblivious, h.audienceSettled⟩

end Confined

section Made

variable {host origin origin' : Host} {suite : Suite Script} {config config' : RunConfig}
  {sequence sequence' next next' : Nat}
  (hmake : make (Script.suiteProcedures host suite) (some config) origin sequence =
    .ok (r, sequence'))

include hmake

theorem confined_of_make {declarations : List NotifierProgram.Declaration}
    (hsuite : ∀ script ∈ suite.codes, Script.avoids Script.Step.strays script = true)
    (hdeclarations : ∀ declaration ∈ declarations, ∀ script ∈ declaration.scripts,
      Script.avoids Script.Step.strays script = true) :
    r.Confined (r.audienceFor host declarations) anyComplaint anyComplaint := by
  obtain ⟨hsettled, haudienceSettled⟩ :=
    conducts_of_make hmake Script.permits_settled hsuite hdeclarations
  have hoblivious : ∀ script ∈ suite.codes, (Script.procedure host script).Oblivious :=
    fun script hmem => Script.oblivious_of_strays host (hsuite script hmem)
  exact {
    oblivious := codes_of_make hmake hoblivious
    settled := hsettled
    audienceOblivious := audienceFor_of_make hmake hoblivious fun declaration hmem script h =>
      Script.oblivious_of_strays host (hdeclarations declaration hmem script h)
    audienceSettled := haudienceSettled }

theorem akin_of_make
    (hmake' : make (Script.suiteProcedures host suite) (some config') origin' next =
      .ok (r', next')) (hmaster : r'.master = r.master)
    (hnightly : config'.nightly = config.nightly) : r.Akin r' := by
  have hmade := madeOf_of_make hmake
  have hmade' := madeOf_of_make hmake'
  refine ⟨?_, hmaster, ?_⟩
  · rw [hmade.suite_eq, hmade'.suite_eq]
  · rw [hmade.config_eq, hmade'.config_eq, hnightly]

end Made

theorem Akin.audienceFor_eq (h : r.Akin r') (host : Host)
    (declarations : List NotifierProgram.Declaration) :
    r'.audienceFor host declarations = r.audienceFor host declarations := by
  unfold audienceFor audienceOf
  rw [h.suite]

/-! ## Stages in later worlds -/

/-- What can be seen of a stage that is performed in a world. -/
def segment (r : Runner Procedure) (audience : Audience) (stage : Stage) (w : World) : Segment :=
  .between w ((r.perform audience stage).exec w).2

theorem chronicle_cons (stage : Stage) (rest : List Stage) (w : World) :
    r.chronicle audience (stage :: rest) w = (stage, r.segment audience stage w) ::
      if ((r.perform audience stage).exec w).1.toOption.getD false then
        r.chronicle audience rest ((r.perform audience stage).exec w).2
      else [] := by
  rw [chronicle, segment]
  rcases (r.perform audience stage).exec w with ⟨_ | _ | _, v⟩ <;> rfl

namespace Confined

variable (hconfined : r.Confined audience B N)

include hconfined

theorem lawful_perform (stage : Stage)
    (hunit : ∀ c, stage = .candidate c → c.unit ∈ r.suite.units) {w : World} (hw : w.Lawful) :
    ((r.perform audience stage).exec w).2.Lawful :=
  (abides_perform .free hconfined.sound hconfined.audienceSound hunit w hw trivial).1.lawful

section Later

variable (hakin : r.Akin r') (stage : Stage)
  (hunit : ∀ c, stage = .candidate c → c.unit ∈ r.suite.units) {w v : World} (hw : w.Lawful)
  (hlater : w.Later v)

include hakin hunit hw hlater

theorem corresponds_later :
    (hlater.shift hw id).Corresponds 0 (r.perform audience stage) (r'.perform audience stage)
      Same :=
  corresponds_perform hakin hconfined.audienceOblivious hconfined.oblivious rfl hunit

/-- A stage looks the same in a later world. -/
theorem counted_segment_of_later :
    (r'.segment audience stage v).counted = (r.segment audience stage w).counted := by
  obtain ⟨hrelates, -⟩ := hconfined.corresponds_later hakin stage hunit hw hlater w v
    (hlater.relates hw id) (Nat.zero_le _)
  have hcounted := hrelates.counted_between
  rwa [show (hlater.shift hw id).rename = id from rfl, Segment.renamed_id] at hcounted

/-- A stage ends alike in a later world. -/
theorem toOption_perform_of_later :
    ((r'.perform audience stage).exec v).1.toOption =
      ((r.perform audience stage).exec w).1.toOption := by
  rcases (hconfined.corresponds_later hakin stage hunit hw hlater).outcome (hlater.relates hw id)
    (Nat.zero_le _) with
    ⟨x, y, w', v', hout, hout', -, -, hsame⟩ | ⟨e, e', w', v', hout, hout', -⟩
  · rw [hout, hout', hsame]
  · rw [hout, hout']
    rfl

/-- Where as many errors were made, a stage leaves a later world behind. -/
theorem later_perform (hsize : v.errors.size = w.errors.size) :
    ((r.perform audience stage).exec w).2.Later ((r'.perform audience stage).exec v).2 ∧
      ((r'.perform audience stage).exec v).2.errors.size =
        ((r.perform audience stage).exec w).2.errors.size := by
  obtain ⟨hrelates, -⟩ := hconfined.corresponds_later hakin stage hunit hw hlater w v
    (hlater.relates hw id) (Nat.zero_le _)
  have hgap : (hlater.shift hw id).gap = 0 := Nat.sub_eq_zero_of_le (Nat.le_of_eq hsize)
  refine ⟨hrelates.later hgap, ?_⟩
  rw [hrelates.errors.size, hgap]
  rfl

end Later

/-- A candidate leaves the world as it was found, but for what has been made and seen. -/
theorem later_candidate {c : Candidate Procedure} (hunit : c.unit ∈ r.suite.units) {w : World}
    (hw : w.Lawful) : w.Later ((r.perform audience (.candidate c)).exec w).2 := by
  have hattend : Conduct .settled anyComplaint (r.attend audience c) :=
    r.conduct_attend Regime.traces_settled complains_any hconfined.any.settled escapes_any
      (Audience.conduct_notify Regime.traces_settled.heard (fun _ _ _ => rfl)
        hconfined.any.audienceSettled) active_any hunit
  have hscope : Conduct .settled anyComplaint (r.runCandidate audience c) :=
    .inScope complains_any.toTolerates hattend
  have hleads := (hscope w hw trivial).1
  have hcontexts : ((r.runCandidate audience c).exec w).2.contexts = w.contexts :=
    Triple.contexts_inScope trivial hattend (Conduct.toScoped complains_any.toTolerates) hw trivial
  -- That errors and instances of old are kept is read off the candidate compared with itself.
  have halike : ((World.Later.refl w).shift hw id).Alike c c := ⟨rfl, rfl, rfl⟩
  obtain ⟨hrelates, -⟩ := corresponds_runCandidate (n := 0) (Akin.refl r)
    hconfined.audienceOblivious halike hconfined.oblivious hunit w w
    ((World.Later.refl w).relates hw id) (Nat.zero_le _)
  have hstanding := hleads.step
  simp only [Regime.settled, Session.standing, Prod.mk.injEq] at hstanding
  have hperform : ((r.perform audience (.candidate c)).exec w).2 =
      ((r.runCandidate audience c).exec w).2 := by
    rw [perform, exec_bind]
    rcases (r.runCandidate audience c).exec w with ⟨_ | _, v⟩ <;> rfl
  rw [hperform]
  exact {
    errors := hrelates.errors.near
    handling := hleads.grows.handling
    contexts := hcontexts
    state := hstanding.1
    subscribed := hstanding.2.1
    declared := hstanding.2.2.1
    listeners := hstanding.2.2.2.1
    instances := hrelates.session.instances_le }

end Confined

/-! ## Where stages begin -/

/-- The world in which a stage begins, unless candidates were run before. -/
def before (r : Runner Procedure) (audience : Audience) (w : World) : Stage → World
  | .opening => r.entered w
  | .setUp => ((r.perform audience .opening).exec (r.entered w)).2
  | _ => ((r.perform audience .setUp).exec
      ((r.perform audience .opening).exec (r.entered w)).2).2

/-- Whether a run goes on after a stage that no candidate precedes. -/
def proceeds (r : Runner Procedure) (audience : Audience) (w : World) (stage : Stage) : Bool :=
  ((r.perform audience stage).exec (r.before audience w stage)).1.toOption.getD false

namespace Confined

variable (hconfined : r.Confined audience B N) {w v : World} (hw : w.Lawful)

include hconfined hw

/-- Declared listeners do not change which candidates are run. -/
theorem inForce_eq : r.inForce w = w.session.predicate := by
  have hcreate : ∀ factory ∈ r.suite.listeners, factory.create.Conducts .steady anyComplaint :=
    fun factory hmem => (hconfined.any.settled _
      (Suite.listener_mem_codes hmem List.mem_cons_self)).under Regime.settled_implies_steady
  exact (r.conduct_subscribeFrom Regime.prepares_steady hcreate 0 _ (r.entered_lawful hw)
    trivial).1.step

theorem lawful_before (stage : Stage) : (r.before audience w stage).Lawful := by
  have hentered : (r.entered w).Lawful := r.entered_lawful hw
  have hopened := hconfined.lawful_perform .opening (fun _ => nofun) hentered
  have hready := hconfined.lawful_perform .setUp (fun _ => nofun) hopened
  cases stage with
  | opening => exact hentered
  | setUp => exact hopened
  | candidate | tearDown => exact hready

variable (hakin : r.Akin r') (hlater : w.Later v) (hsize : v.errors.size = w.errors.size)

include hakin hlater hsize

/-- Up to the first candidate runs of the same collaborators make the same errors. -/
theorem later_before (stage : Stage) :
    (r.before audience w stage).Later (r'.before audience v stage) ∧
      (r'.before audience v stage).errors.size = (r.before audience w stage).errors.size := by
  have hentered : (r.entered w).Later (r'.entered v) := by
    have hcontexts : (r'.entered v).contexts = (r.entered w).contexts := by
      unfold entered World.within
      rw [hakin.master, hakin.suite, hakin.nightly, hlater.contexts]
    exact { hlater with contexts := hcontexts }
  have hlawful := hconfined.lawful_before hw
  obtain ⟨hopened, hsize'⟩ := hconfined.later_perform hakin .opening (fun _ => nofun)
    (hlawful .opening) hentered hsize
  obtain ⟨hready, hsize''⟩ := hconfined.later_perform hakin .setUp (fun _ => nofun)
    (hlawful .setUp) hopened hsize'
  cases stage with
  | opening => exact ⟨hentered, hsize⟩
  | setUp => exact ⟨hopened, hsize'⟩
  | candidate | tearDown => exact ⟨hready, hsize''⟩

theorem proceeds_eq (stage : Stage) (hunit : ∀ c, stage = .candidate c → c.unit ∈ r.suite.units) :
    r'.proceeds audience v stage = r.proceeds audience w stage :=
  congrArg (·.getD false) (hconfined.toOption_perform_of_later hakin stage hunit
    (hconfined.lawful_before hw stage) (hconfined.later_before hw hakin hlater hsize stage).1)

end Confined
end Runner
end SeededTesting
