import SeededTesting.Proofs.Run.Siblings
import SeededTesting.Proofs.Script.Reportable

/-! # Candidates do not see their siblings

Which candidates a run filters out is seen in no stage of it: the set-up, every candidate that is
run and the tear-down look the same under all filters, whatever became of the candidates before.
-/

namespace SeededTesting

open Act Shift

namespace Runner

variable {ρ : Regime} {r r' : Runner Procedure} {audience : Audience}

/-! ## Stages that no error leaves -/

theorem escapes_reportable : Escapes Complaint.Reportable noComplaint where
  interrupt c hc hkind := by
    rw [hc.1] at hkind
    cases hkind
  value c hc _ hrefusal := hc.2 hrefusal

theorem active_seeded {N : Complaint → Prop} (hρ : ρ.balanced) (seed : Seed) :
    Active ρ N (·.Seeded seed) where
  keeps _ _ _ hleads h := hleads.seeded hρ h
  source w hw hseeded := by
    obtain ⟨context, outer, source, rest, hcontexts, -⟩ := hseeded
    rw [exec_currentSource, hcontexts]
    exact ⟨.refl hw, trivial⟩

namespace Confined

variable (hconfined : r.Confined audience Complaint.Reportable noComplaint)

include hconfined

theorem steady_notify (n : Notification ErrorId) :
    Conduct .steady noComplaint (audience.notify n) :=
  Audience.conduct_notify Regime.traces_steady.heard (fun _ _ _ => rfl)
    (hconfined.audienceSettled.under Regime.settled_implies_steady) n

theorem steady_codes : ∀ code ∈ r.suite.codes, code.Conducts .steady Complaint.Reportable :=
  fun code hcode => (hconfined.settled code hcode).under Regime.settled_implies_steady

theorem steady_opening : Conduct .steady anyComplaint (r.perform audience .opening) :=
  .bind (Triple.discard (r.conduct_prepare Regime.prepares_steady fun code hcode =>
    (hconfined.any.settled code hcode).under Regime.settled_implies_steady)
    fun _ _ _ => trivial) fun _ => .value true

theorem steady_setUp : Conduct .steady noComplaint (r.perform audience .setUp) := by
  have henter : ∀ state, Conduct .steady noComplaint (r.enter state) :=
    r.conduct_enter fun _ _ => rfl
  refine .bind (henter _) fun _ => .bind (r.conduct_setUpClass Regime.traces_steady
    complains_reportable hconfined.steady_codes escapes_reportable hconfined.steady_notify)
    fun ready => ?_
  cases ready with
  | false => exact .value false
  | true => exact .bind (henter _) fun _ => .value true

/-- Where a source is active, no error leaves a candidate. -/
theorem perform_candidate {c : Candidate Procedure} (hunit : c.unit ∈ r.suite.units) {w : World}
    (hw : w.Lawful) {seed : Seed} (hseeded : w.Seeded seed) :
    ((r.perform audience (.candidate c)).exec w).1 = .ok true := by
  obtain ⟨context, outer, source, rest, hcontexts, -⟩ := hseeded
  have hattend := r.conduct_attend Regime.traces_steady complains_reportable
    hconfined.steady_codes escapes_reportable hconfined.steady_notify
    (active_seeded trivial c.seed) hunit
  let inside := w.within
    ({ context with stack := .fresh c.seed :: source :: rest } :: outer)
  have hinside : inside.Seeded c.seed := ⟨context, outer, .fresh c.seed, _, rfl, rfl⟩
  obtain ⟨_, v, hout, hleads, -⟩ :=
    Conduct.exists_ok hattend (fun _ h => h) (w := inside) ⟨hw.errors, hw.handling⟩ hinside
  have hexec : (r.runCandidate audience c).exec w = _ :=
    exec_inScope hcontexts hout (hleads.rewound trivial)
  rw [perform, exec_bind, hexec]
  rfl

end Confined

/-! ## The course of a run -/

/-- The stages of a run of candidates: it ends at once if it can not be opened, and after the
set-up if that fails. -/
def course (opened ready : Bool) (survivors : List (Candidate Procedure)) : List Stage :=
  .opening :: if opened && !survivors.isEmpty then
    .setUp :: if ready then survivors.map Stage.candidate ++ [.tearDown] else []
  else []

namespace Confined

variable (hconfined : r.Confined audience Complaint.Reportable noComplaint)

include hconfined

theorem seeded_before {w : World} (hw : w.Lawful) (stage : Stage) :
    (r.before audience w stage).Seeded r.master := by
  have hlawful := hconfined.lawful_before hw
  have hentered : (r.entered w).Seeded r.master := r.seeded_entered w
  have hopened := (hconfined.steady_opening _ (hlawful .opening) trivial).1.seeded trivial hentered
  have hready := (hconfined.steady_setUp _ (hlawful .setUp) trivial).1.seeded trivial hopened
  cases stage with
  | opening => exact hentered
  | setUp => exact hopened
  | candidate | tearDown => exact hready

variable (hakin : r.Akin r')

include hakin

/-- However many candidates were run since, what is run next looks as it would have then. -/
theorem chronicle_candidates {u v : World} (hu : u.Lawful) (hv : v.Lawful) (hlater : u.Later v)
    {seed : Seed} (hseeded : u.Seeded seed) {cs : List (Candidate Procedure)}
    (hunits : ∀ c ∈ cs, c.unit ∈ r.suite.units) :
    (r'.chronicle audience (cs.map Stage.candidate ++ [Stage.tearDown]) v).map
        (fun entry => (entry.1, entry.2.counted)) =
      (cs.map Stage.candidate ++ [Stage.tearDown]).map
        fun stage => (stage, (r.segment audience stage u).counted) := by
  have hconfined' := hconfined.akin hakin
  -- With each candidate `v` moves on and `u` stays; what is kept is that `v` is a later world.
  induction cs generalizing v with
  | nil =>
      have hlast := hconfined.counted_segment_of_later hakin .tearDown (fun _ => nofun)
        hu hlater
      rw [List.map_nil, List.nil_append, chronicle_cons, chronicle, ite_self, List.map_cons,
        List.map_cons, hlast]
      rfl
  | cons c cs ih =>
      have hunit := hunits c List.mem_cons_self
      have hunit' : c.unit ∈ r'.suite.units := by
        rw [hakin.suite]
        exact hunit
      have hseeded' : v.Seeded seed := by
        rw [World.Seeded, hlater.contexts]
        exact hseeded
      have hfirst := hconfined.counted_segment_of_later hakin (.candidate c)
        (fun _ h => by cases h; exact hunit) hu hlater
      have hends := hconfined'.perform_candidate hunit' hv hseeded'
      have hlawful := hconfined'.lawful_perform (.candidate c)
        (fun _ h => by cases h; exact hunit') hv
      have hrest := ih hlawful (hlater.trans (hconfined'.later_candidate hunit' hv))
        fun c hmem => hunits c (List.mem_cons_of_mem _ hmem)
      rw [List.map_cons, List.cons_append, chronicle_cons, hends, List.map_cons, List.map_cons,
        hfirst, ← hrest]
      rfl

/-- What is seen of the stages of a run follows from another run of the same collaborators,
whichever candidates either of them runs. -/
theorem counted_account (hexpands : r'.Expands) {w v : World} (hw : w.Lawful) (hv : v.Lawful)
    (hlater : w.Later v) (hsize : v.errors.size = w.errors.size) :
    (r'.account audience v).map (fun entry => (entry.1, entry.2.counted)) =
      (course (r.proceeds audience w .opening) (r.proceeds audience w .setUp)
        (r'.survivors v.session.predicate)).map
        fun stage => (stage, (r.segment audience stage (r.before audience w stage)).counted) := by
  have hconfined' := hconfined.akin hakin
  have hbefore : ∀ stage, (r.before audience w stage).Later (r'.before audience v stage) :=
    fun stage => (hconfined.later_before hw hakin hlater hsize stage).1
  have hseen : ∀ stage, (∀ c, stage = .candidate c → c.unit ∈ r.suite.units) →
      (r'.segment audience stage (r'.before audience v stage)).counted =
        (r.segment audience stage (r.before audience w stage)).counted :=
    fun stage hunit => hconfined.counted_segment_of_later hakin stage hunit
      (hconfined.lawful_before hw stage) (hbefore stage)
  have hunits : ∀ c ∈ r'.survivors v.session.predicate, c.unit ∈ r.suite.units := by
    intro c hc
    rw [← hakin.suite]
    exact hexpands c (r'.mem_candidates_of_mem_survivors hc)
  have hcandidates := hconfined.chronicle_candidates hakin
    (hconfined.lawful_before hw .tearDown) (hconfined'.lawful_before hv .tearDown)
    (hbefore .tearDown) (hconfined.seeded_before hw .tearDown) hunits
  -- Which stages are begun at all depends on how the first two end, and they end alike.
  have hopening : ((r'.perform audience .opening).exec (r'.entered v)).1.toOption.getD false =
      r.proceeds audience w .opening :=
    hconfined.proceeds_eq hw hakin hlater hsize _ fun _ => nofun
  have hsetUp : ((r'.perform audience .setUp).exec
      ((r'.perform audience .opening).exec (r'.entered v)).2).1.toOption.getD false =
      r.proceeds audience w .setUp :=
    hconfined.proceeds_eq hw hakin hlater hsize _ fun _ => nofun
  rw [account, hconfined'.inForce_eq hv, stages, chronicle_cons, hopening, course, List.map_cons,
    List.map_cons]
  refine congrArg₂ List.cons
    (congrArg (Prod.mk Stage.opening) (hseen .opening fun _ => nofun)) ?_
  cases r.proceeds audience w .opening with
  | false => rfl
  | true =>
      cases hempty : (r'.survivors v.session.predicate).isEmpty with
      | true => rfl
      | false =>
          rw [if_pos rfl, if_neg Bool.false_ne_true, chronicle_cons, hsetUp, Bool.not_false,
            Bool.true_and, if_pos rfl, List.map_cons, List.map_cons]
          refine congrArg₂ List.cons
            (congrArg (Prod.mk Stage.setUp) (hseen .setUp fun _ => nofun)) ?_
          cases r.proceeds audience w .setUp with
          | false => rfl
          | true =>
              rw [if_pos rfl, if_pos rfl]
              refine hcandidates.trans (List.map_congr_left fun stage hmem => ?_)
              rcases List.mem_append.mp hmem with hmem | hmem
              · obtain ⟨c, -, rfl⟩ := List.mem_map.mp hmem
                rfl
              · rw [List.mem_singleton.mp hmem]

end Confined
end Runner

/-! ## Runs under filters -/

/-- The errors that leave a procedure make complaints of a sort. -/
def Procedure.Raises (B : Complaint → Prop) (procedure : Procedure) : Prop :=
  ∀ label (w : World), w.Lawful → ∀ e v, (procedure label).exec w = (.error e, v) →
    B (v.errors.get e).toComplaint

theorem Procedure.Conducts.raises {ρ : Regime} {B : Complaint → Prop} {procedure : Procedure}
    (h : procedure.Conducts ρ B) : procedure.Raises B := by
  intro label w hw e v hexec
  obtain ⟨-, hends⟩ := h label w hw trivial
  rw [hexec] at hends
  exact hends.2.2

theorem Procedure.Conducts.of_raises {ρ : Regime} {B : Complaint → Prop} {procedure : Procedure}
    (h : procedure.Conducts ρ anyComplaint) (hraises : procedure.Raises B) :
    procedure.Conducts ρ B := by
  intro label w hw _
  obtain ⟨hleads, hends⟩ := h label w hw trivial
  refine ⟨hleads, ?_⟩
  cases hout : ((procedure label).exec w).1 with
  | ok _ => trivial
  | error e =>
      rw [hout] at hends
      exact ⟨hends.1, hends.1, hraises label w hw e _ (Prod.ext hout rfl)⟩

theorem Runner.Confined.calmed {r : Runner Procedure} {audience : Audience} {B : Complaint → Prop}
    (h : r.Confined audience anyComplaint anyComplaint)
    (hraises : ∀ code ∈ r.suite.codes, Procedure.Raises B code) :
    r.Confined audience.calmed B noComplaint where
  oblivious := h.oblivious
  settled code hcode := (h.settled code hcode).of_raises (hraises code hcode)
  audienceOblivious := h.audienceOblivious.calmed
  audienceSettled := Audience.conducts_calmed h.audienceSettled

/-- The configuration with another filter by unit. -/
def RunConfig.targeting (config : RunConfig) (target : Option String) : RunConfig :=
  { config with targetUnit := target }

namespace Runner

variable {host origin origin' : Host} {suite : Suite Script} {config : RunConfig}
  {sequence sequence' next next' : Nat} {target : Option String} {r r' : Runner Procedure}
  (hmake : make (Script.suiteProcedures host suite) (some config) origin sequence =
    .ok (r, sequence'))
  (hmake' : make (Script.suiteProcedures host suite) (some (config.targeting target)) origin' next =
    .ok (r', next')) (hmaster : r'.master = r.master)

include hmake hmake' hmaster

/-- A filter by unit does not change the candidates. -/
theorem candidates_of_targeting : r'.candidates = r.candidates := by
  have hblocks := (madeOf_of_make hmake).blocks_eq (madeOf_of_make hmake') hmaster rfl rfl
  rw [candidates, candidates, hblocks]

/-- Whatever units and names a run filters by, what is seen of each stage is what would be seen of
it if no candidate had been run before, up to the number of instances; and what is seen of the run
are its stages in order. Here no listener raises, scripts do not stray, and what they raise can be
reported. -/
theorem account_independent {declarations : List NotifierProgram.Declaration}
    (hsuite : ∀ script ∈ suite.codes, Script.avoids Script.Step.strays script = true)
    (hraises : ∀ script ∈ suite.codes,
      (Script.procedure host script).Raises Complaint.Reportable)
    (hdeclarations : ∀ declaration ∈ declarations, ∀ script ∈ declaration.scripts,
      Script.avoids Script.Step.strays script = true)
    {w : World} (hw : w.Lawful) {predicate : Option (String → Bool)}
    (hundisturbed : r'.Undisturbed (r'.audienceFor host declarations) (w.filteredBy predicate)) :
    let audience := r'.audienceFor host declarations
    r'.candidates = r.candidates ∧
      (r'.account audience.calmed (w.filteredBy predicate)).map
          (fun entry => (entry.1, entry.2.counted)) =
        (course (r.proceeds audience.calmed w .opening) (r.proceeds audience.calmed w .setUp)
          (r'.survivors predicate)).map (fun stage => (stage,
            (r.segment audience.calmed stage (r.before audience.calmed w stage)).counted)) ∧
      Segment.between (w.filteredBy predicate)
          ((r'.run audience).exec (w.filteredBy predicate)).2 =
        .join w.session.instances
          ((r'.account audience.calmed (w.filteredBy predicate)).map (·.2)) := by
  have hconfined := (confined_of_make hmake hsuite hdeclarations).calmed
    (codes_of_make hmake hraises)
  have hakin : r.Akin r' := akin_of_make hmake hmake' hmaster rfl
  have haudience := hakin.audienceFor_eq host declarations
  have hexpands : r'.Expands := expands_of_make hmake'
  have hfiltered : (w.filteredBy predicate).Lawful := hw.filteredBy predicate
  have hlater : w.Later (w.filteredBy predicate) := w.later_filteredBy w.session.predicate predicate
  intro audience
  refine ⟨candidates_of_targeting hmake hmake' hmaster, ?_, ?_⟩
  · unfold audience
    rw [haudience]
    exact hconfined.counted_account hakin hexpands hw hfiltered hlater rfl
  · have hconfined' := hconfined.akin hakin
    unfold audience
    rw [← hundisturbed, haudience]
    exact between_run hconfined'.oblivious hconfined'.sound hconfined'.audienceOblivious
      hconfined'.audienceSound hexpands hfiltered

end Runner

/-- A suite whose first test fails, as does the tear-down. -/
def siblingSuite : Suite Script where
  name := "Siblings"
  factory := some { code := [.seed] }
  units := [
    { name := "fails", body := some [.fraction, .raise
        [{ error := { complaint := ⟨.named "RuntimeError", some "lost"⟩ } }]] },
    { name := "draws", body := some [.fork [.fraction], .state] }]
  levels := [{
    owner := "Siblings"
    beforeAll := [{ name := "connect", label := "connect", code := some [.fraction] }]
    beforeEach := [{ name := "prepare", label := "prepare", code := some [.bits 8] }]
    afterAll := [{ name := "finish", label := "finish", code := some [.assume false "done"] }] }]

/-- One test is filtered out of a run, the other one does not see it. -/
theorem Runner.account_siblingSuite :
    ∃ r r' next next',
      make (Script.suiteProcedures {} siblingSuite) (some .unset) {} 0 = .ok (r, next) ∧
        make (Script.suiteProcedures {} siblingSuite)
            (some (RunConfig.unset.targeting "draws")) {} 0 = .ok (r', next') ∧
        let w : World := { session := { subscribed := [.caller 0] } }
        let audience := r'.audienceFor {} [.recording]
        r'.candidates = r.candidates ∧
          (r'.account audience.calmed (w.filteredBy none)).map
              (fun entry => (entry.1, entry.2.counted)) =
            (course (r.proceeds audience.calmed w .opening) (r.proceeds audience.calmed w .setUp)
              (r'.survivors none)).map (fun stage => (stage,
                (r.segment audience.calmed stage (r.before audience.calmed w stage)).counted)) ∧
          Segment.between (w.filteredBy none) ((r'.run audience).exec (w.filteredBy none)).2 =
            .join w.session.instances
              ((r'.account audience.calmed (w.filteredBy none)).map (·.2)) := by
  obtain ⟨r, r', next, next', hmake, hmake', hmaster⟩ : ∃ r r' next next',
      make (Script.suiteProcedures {} siblingSuite) (some .unset) {} 0 = .ok (r, next) ∧
        make (Script.suiteProcedures {} siblingSuite)
            (some (RunConfig.unset.targeting "draws")) {} 0 = .ok (r', next') ∧
        r'.master = r.master :=
    ⟨_, _, _, _, rfl, rfl, rfl⟩
  refine ⟨r, r', next, next', hmake, hmake', ?_⟩
  have hraises : ∀ script ∈ siblingSuite.codes,
      (Script.procedure {} script).Raises Complaint.Reportable := by
    have havoids : ∀ script ∈ siblingSuite.codes,
        Script.avoids (fun step => step.strays || step.offends) script = true := by decide
    exact fun script hscript =>
      (Script.conducts Script.permits_settled.reportable (havoids script hscript)).raises
  exact account_independent hmake hmake' hmaster (by decide) hraises (by decide)
    (World.lawful_initial _) (undisturbed_of_make hmake' rfl (by decide) _)

end SeededTesting
