import Mathlib.Logic.Function.Basic
import SeededTesting.Proofs.Run.Overrides
import SeededTesting.Proofs.Run.Siblings

/-! # Reproducing a candidate

A candidate that was run among others can be run again alone: its chain and the name of its unit,
given as settings, make a runner that runs nothing else, and what is seen of it is what was seen.
-/

namespace SeededTesting

open Act Shift

namespace Runner

variable {r r' : Runner Procedure} {audience : Audience} {B N : Complaint → Prop}

/-- Of the candidates of a runner one passes the filter by unit, and it is one of another runner
with the same seeds. Only the iteration is missing in its name. -/
structure Reproduces (r : Runner Procedure) (c : Candidate Procedure) (r' : Runner Procedure)
    (c' : Candidate Procedure) : Prop where
  master : r'.master = r.master
  kept : r'.candidates.filter (r'.keeps none) = [c']
  unit : c'.unit = c.unit
  seed : c'.seed = c.seed
  named : ∃ count, c.name =
    DisplayName.format c.unit.name c.iteration count r.master c.seed r.suite.name
  renamed : c'.name = DisplayName.format c.unit.name 0 1 r.master c.seed r.suite.name

/-- All that is seen of a run is in its account. -/
def Accounted (r : Runner Procedure) (audience : Audience) (w : World) : Prop :=
  Segment.between w ((r.run audience).exec w).2 =
    .join w.session.instances ((r.account audience w).map (·.2))

/-! ## Candidates in accounts -/

namespace Confined

variable (hconfined : r.Confined audience B N)

include hconfined

theorem accounted (hexpands : r.Expands) {w : World} (hw : w.Lawful) : r.Accounted audience w :=
  between_run hconfined.oblivious hconfined.sound hconfined.audienceOblivious
    hconfined.audienceSound hexpands hw

/-- A candidate that was run began in a later world than the first one. -/
theorem mem_chronicle_candidates {u v : World} (hv : v.Lawful) (hlater : u.Later v)
    {cs : List (Candidate Procedure)} (hunits : ∀ c ∈ cs, c.unit ∈ r.suite.units)
    {c : Candidate Procedure} {s : Segment}
    (h : (.candidate c, s) ∈
      r.chronicle audience (cs.map Stage.candidate ++ [Stage.tearDown]) v) :
    c ∈ cs ∧ ∃ x : World, u.Later x ∧ s = r.segment audience (.candidate c) x := by
  induction cs generalizing v with
  | nil =>
      rw [List.map_nil, List.nil_append, chronicle_cons, chronicle, ite_self,
        List.mem_singleton] at h
      cases h
  | cons d cs ih =>
      have hunit := hunits d List.mem_cons_self
      rw [List.map_cons, List.cons_append, chronicle_cons, List.mem_cons] at h
      rcases h with heq | h
      · cases heq
        exact ⟨List.mem_cons_self, v, hlater, rfl⟩
      · split at h
        · obtain ⟨hmem, x, hx, hs⟩ := ih
            (hconfined.lawful_perform (.candidate d) (fun _ h => by cases h; exact hunit) hv)
            (hlater.trans (hconfined.later_candidate hunit hv))
            (fun c hmem => hunits c (List.mem_cons_of_mem _ hmem)) h
          exact ⟨List.mem_cons_of_mem _ hmem, x, hx, hs⟩
        · cases h

/-- Where a candidate is run, the run was opened, its class was set up, and it is a survivor. -/
theorem mem_account (hexpands : r.Expands) {w : World} (hw : w.Lawful)
    {c : Candidate Procedure} {s : Segment} (h : (.candidate c, s) ∈ r.account audience w) :
    c ∈ r.survivors w.session.predicate ∧ r.proceeds audience w .opening = true ∧
      r.proceeds audience w .setUp = true ∧
      ∃ x : World, (r.before audience w (.candidate c)).Later x ∧
        s = r.segment audience (.candidate c) x := by
  rw [account, hconfined.inForce_eq hw, stages, chronicle_cons, List.mem_cons] at h
  rcases h with heq | h
  · cases heq
  split at h
  next hopened =>
    split at h
    · cases h
    rw [chronicle_cons, List.mem_cons] at h
    rcases h with heq | h
    · cases heq
    split at h
    next hready =>
      obtain ⟨hmem, x, hx, hs⟩ := hconfined.mem_chronicle_candidates
        (hconfined.lawful_before hw .tearDown) (.refl _)
        (fun d hd => hexpands d (r.mem_candidates_of_mem_survivors hd)) h
      exact ⟨hmem, hopened, hready, x, hx, hs⟩
    next => cases h
  next => cases h

/-- The first survivor is run if the run gets so far. -/
theorem first_mem_account {w : World} (hw : w.Lawful) {c : Candidate Procedure}
    {rest : List (Candidate Procedure)} (hsurvivors : r.survivors w.session.predicate = c :: rest)
    (hopened : r.proceeds audience w .opening = true)
    (hready : r.proceeds audience w .setUp = true) :
    (.candidate c, r.segment audience (.candidate c) (r.before audience w (.candidate c))) ∈
      r.account audience w := by
  have hopened' : ((r.perform audience .opening).exec (r.entered w)).1.toOption.getD false = true :=
    hopened
  have hready' : ((r.perform audience .setUp).exec
      ((r.perform audience .opening).exec (r.entered w)).2).1.toOption.getD false = true :=
    hready
  rw [account, hconfined.inForce_eq hw, hsurvivors, stages, chronicle_cons, hopened', if_pos rfl,
    List.isEmpty_cons, if_neg Bool.false_ne_true, chronicle_cons, hready', if_pos rfl,
    List.map_cons, List.cons_append, chronicle_cons]
  exact List.mem_cons_of_mem _ (List.mem_cons_of_mem _ List.mem_cons_self)

/-- Candidates of one unit and one seed look alike, wherever the one is run that is not the
first. -/
theorem renamed_segment (hakin : r.Akin r') {c c' : Candidate Procedure}
    (hunit : c.unit ∈ r.suite.units) {u x : World} (hu : u.Lawful) (hlater : u.Later x)
    {rename : String → String} (halike : (hlater.shift hu rename).Alike c c') :
    (r'.segment audience (.candidate c') x).counted =
      ((r.segment audience (.candidate c) u).renamed rename).counted := by
  have hcorresponds : (hlater.shift hu rename).Corresponds 0
      (r.perform audience (.candidate c)) (r'.perform audience (.candidate c')) Same :=
    (corresponds_runCandidate hakin hconfined.audienceOblivious halike hconfined.oblivious
      hunit).andThen fun _ => .value fun _ _ => rfl
  exact (hcorresponds u x (hlater.relates hu rename) (Nat.zero_le _)).1.counted_between

end Confined

/-! ## Running a candidate again -/

theorem Akin.symm (h : r.Akin r') : r'.Akin r :=
  ⟨h.suite.symm, h.master.symm, h.nightly.symm⟩

/-- A test of names leaves the one candidate of a unit alone if it accepts its name. -/
theorem survivors_eq_singleton {c : Candidate Procedure}
    (hsuite : r.config.targetSuite.all (· = r.suite.name) = true)
    (hkept : r.candidates.filter (r.keeps none) = [c]) {predicate : Option (String → Bool)}
    (haccepts : predicate.all (· c.name) = true) : r.survivors predicate = [c] := by
  have hkeeps : r.keeps predicate = fun d => predicate.all (· d.name) && r.keeps none d := by
    funext d
    unfold keeps
    rw [Option.all_none, Bool.and_true, Bool.and_comm]
  rw [survivors, if_pos hsuite, hkeeps, ← List.filter_filter, hkept, List.filter_cons,
    if_pos haccepts, List.filter_nil]

theorem targetSuite_of_mem_survivors {c : Candidate Procedure}
    {predicate : Option (String → Bool)} (h : c ∈ r.survivors predicate) :
    r.config.targetSuite.all (· = r.suite.name) = true := by
  unfold survivors at h
  split at h
  next hsuite => exact hsuite
  next => cases h

/-- What is seen of a candidate that is run again, alone, is what was seen of it. -/
theorem Confined.reproduced (hconfined : r.Confined audience B N) (hakin : r.Akin r')
    (hexpands : r.Expands) (hsuite : r'.config.targetSuite = r.config.targetSuite)
    {c c' : Candidate Procedure} (hreproduces : r.Reproduces c r' c') {w : World} (hw : w.Lawful)
    {predicate predicate' : Option (String → Bool)}
    (haccepts : predicate'.all (· c'.name) = true) {s : Segment}
    (h : (.candidate c, s) ∈ r.account audience (w.filteredBy predicate)) :
    ∃ s', (.candidate c', s') ∈ r'.account audience (w.filteredBy predicate') ∧
      (s'.renamed (Function.update id c'.name c.name)).counted = s.counted := by
  have hconfined' := hconfined.akin hakin
  have hlawful := hw.filteredBy predicate
  have hlawful' := hw.filteredBy predicate'
  obtain ⟨hmem, hopened, hready, x, hx, rfl⟩ := hconfined.mem_account hexpands hlawful h
  have hlater := w.later_filteredBy predicate predicate'
  have hlater' := w.later_filteredBy predicate' predicate
  have hopened' : r'.proceeds audience (w.filteredBy predicate') .opening = true :=
    (hconfined.proceeds_eq hlawful hakin hlater rfl .opening fun _ => nofun).trans hopened
  have hready' : r'.proceeds audience (w.filteredBy predicate') .setUp = true :=
    (hconfined.proceeds_eq hlawful hakin hlater rfl .setUp fun _ => nofun).trans hready
  have htarget : r'.config.targetSuite.all (· = r'.suite.name) = true := by
    rw [hsuite, hakin.suite]
    exact targetSuite_of_mem_survivors hmem
  refine ⟨_, hconfined'.first_mem_account hlawful'
    (survivors_eq_singleton htarget hreproduces.kept haccepts) hopened' hready', ?_⟩
  -- The candidate alone is the near one: nothing was made between the set-up and its start.
  have hnear : (r'.before audience (w.filteredBy predicate') (.candidate c')).Later x :=
    (hconfined'.later_before hlawful' hakin.symm hlater' rfl (.candidate c')).1.trans hx
  have hunit : c'.unit ∈ r'.suite.units := by
    rw [hreproduces.unit, hakin.suite]
    exact hexpands c (r.mem_candidates_of_mem_survivors hmem)
  have hbefore := hconfined'.lawful_before hlawful' (.candidate c')
  have halike : (hnear.shift hbefore (Function.update id c'.name c.name)).Alike c' c := by
    refine ⟨hreproduces.unit.symm, hreproduces.seed.symm, ?_⟩
    change c.name = Function.update id c'.name c.name c'.name
    rw [Function.update_self]
  exact (hconfined'.renamed_segment hakin.symm hunit hbefore hnear halike).symm

section Made

variable {host origin : Host} {suite : Suite Script} {config : RunConfig}
  {sequence sequence' : Nat}
  (hmake : make (Script.suiteProcedures host suite) (some config) origin sequence =
    .ok (r, sequence'))
  {c : Candidate Procedure} (hc : c ∈ r.candidates)

include hmake hc

/-- The settings that run a candidate again make a runner that does. -/
theorem reproduces_of_reproducing {config' : RunConfig}
    (hsettings : config'.toSettings = config.toSettings.reproducing r.master c)
    (hchain : config'.chain = [r.master, c.seed]) (origin' : Host) (next : Nat) :
    ∃ r' c', make (Script.suiteProcedures host suite) (some config') origin' next =
      .ok (r', next) ∧ r'.config = config' ∧ r.Reproduces c r' c' := by
  obtain ⟨hviolations, checked, -, hmade⟩ := make_eq_ok hmake
  have hiterations : config'.iterations = some 1 := by
    rw [hsettings]
    rfl
  have htarget : config'.targetUnit = some c.unit.name := by
    rw [hsettings]
    rfl
  obtain ⟨r', hmake', hmaster, -, hconfig, hcandidates⟩ :=
    make_of_chain hviolations hchain hiterations origin' next
  have hkeeps : r'.keeps none = fun d => decide (c.unit.name = d.unit.name) := by
    funext d
    rw [keeps, hconfig, htarget, Option.all_none, Bool.and_true, Option.all_some]
  have hname := hmade.exists_name_eq hc
  rw [← hmade.suite_eq] at hname
  refine ⟨r', .once r.suite.name r.master c.seed c.unit, hmake', hconfig, hmaster, ?_, rfl, rfl,
    hname, rfl⟩
  rw [hcandidates, hkeeps, hmade.suite_eq]
  exact filter_candidates_once hviolations (hmade.unit_mem hc) r.master c.seed

/-- A candidate is run again alone, with the seeds that it had, where the settings name its chain
and its unit. If scripts do not stray, what is seen of it then is what was seen of it among others,
up to its name and the number of instances. -/
theorem exists_reproduction :
    ∃ config', (config.toSettings.reproducing r.master c).check = .ok config' ∧
      ∀ origin' next, ∃ r' c',
        make (Script.suiteProcedures host suite) (some config') origin' next = .ok (r', next) ∧
        r.Reproduces c r' c' ∧
        ∀ declarations,
          (∀ script ∈ suite.codes, Script.avoids Script.Step.strays script = true) →
          (∀ declaration ∈ declarations, ∀ script ∈ declaration.scripts,
            Script.avoids Script.Step.strays script = true) →
          ∀ (w : World) predicate predicate', w.Lawful →
            r.Accounted (r.audienceFor host declarations) (w.filteredBy predicate) ∧
            r'.Accounted (r'.audienceFor host declarations) (w.filteredBy predicate') ∧
            (predicate'.all (· c'.name) = true → ∀ s,
              (.candidate c, s) ∈
                r.account (r.audienceFor host declarations) (w.filteredBy predicate) →
              ∃ s', (.candidate c', s') ∈
                  r'.account (r'.audienceFor host declarations) (w.filteredBy predicate') ∧
                (s'.renamed (Function.update id c'.name c.name)).counted = s.counted) := by
  obtain ⟨-, checked, hchecked, hmade⟩ := make_eq_ok hmake
  obtain rfl := hchecked _ rfl
  obtain ⟨config', hcheck, hsettings, hchain⟩ :=
    Settings.check_reproducing checked.toSettings r.master c
  refine ⟨config', hcheck, fun origin' next => ?_⟩
  obtain ⟨r', c', hmake', hconfig, hreproduces⟩ :=
    reproduces_of_reproducing hmake hc hsettings hchain origin' next
  refine ⟨r', c', hmake', hreproduces, ?_⟩
  intro declarations hscripts hdeclarations w predicate predicate' hw
  have hconfined := confined_of_make hmake hscripts hdeclarations
  have hnightly : config'.nightly = checked.nightly := by
    rw [hsettings]
    rfl
  have hakin : r.Akin r' := akin_of_make hmake hmake' hreproduces.master hnightly
  have htarget : r'.config.targetSuite = r.config.targetSuite := by
    rw [hconfig, hmade.config_eq, hsettings]
    rfl
  rw [hakin.audienceFor_eq host declarations]
  refine ⟨hconfined.accounted (expands_of_make hmake) (hw.filteredBy predicate),
    (hconfined.akin hakin).accounted (expands_of_make hmake') (hw.filteredBy predicate'), ?_⟩
  intro haccepts s hmem
  exact hconfined.reproduced hakin (expands_of_make hmake) htarget hreproduces hw haccepts hmem

end Made
end Runner

/-- A suite with a test that is run three times, and another one. -/
def repeatedSuite : Suite Script where
  name := "Repeated"
  factory := some { code := [.seed] }
  units := [
    { name := "draws", body := some [.fraction], metadata := { repetition := some ⟨3, false⟩ } },
    { name := "fails", body := some [.raise
        [{ error := { complaint := ⟨.named "RuntimeError", some "lost"⟩ } }]] }]
  levels := [{
    owner := "Repeated"
    beforeEach := [{ name := "prepare", label := "prepare", code := some [.bits 8] }] }]

/-- The last one of three candidates of a unit is run again alone. -/
theorem Runner.exists_reproduction_repeatedSuite :
    let w : World := { session := { subscribed := [.caller 0] } }
    ∃ r sequence c s,
      make (Script.suiteProcedures {} repeatedSuite) (some .unset) {} 0 = .ok (r, sequence) ∧
        c.iteration = 2 ∧
        (.candidate c, s) ∈ r.account (r.audienceFor {} [.recording]) (w.filteredBy none) ∧
        ∃ config', (RunConfig.unset.toSettings.reproducing r.master c).check = .ok config' ∧
          ∃ r' c' s',
            make (Script.suiteProcedures {} repeatedSuite) (some config') {} 0 = .ok (r', 0) ∧
              r.Reproduces c r' c' ∧
              (.candidate c', s') ∈
                r'.account (r'.audienceFor {} [.recording]) (w.filteredBy none) ∧
              (s'.renamed (Function.update id c'.name c.name)).counted = s.counted := by
  intro w
  obtain ⟨⟨r, sequence⟩, hmake, hthird⟩ : ∃ made,
      make (Script.suiteProcedures {} repeatedSuite) (some .unset) {} 0 = .ok made ∧
        (made.1.account (made.1.audienceFor {} [.recording]) (w.filteredBy none))[4]?.any
          (fun entry =>
            match entry.1 with
            | .candidate c => c.iteration == 2
            | _ => false) = true := exists_ok_of_any (by decide +kernel)
  obtain ⟨⟨stage, s⟩, hentry, hstage⟩ := (Option.any_eq_true _ _).mp hthird
  cases stage with
  | opening | setUp | tearDown => cases hstage
  | candidate c =>
      have hconfined : r.Confined (r.audienceFor {} [.recording]) anyComplaint anyComplaint :=
        confined_of_make hmake (by decide) (by decide)
      have hmem := List.mem_of_getElem? hentry
      have hlawful : w.Lawful := World.lawful_initial _
      obtain ⟨hsurvives, -⟩ :=
        hconfined.mem_account (expands_of_make hmake) (hlawful.filteredBy none) hmem
      obtain ⟨config', hcheck, hruns⟩ :=
        exists_reproduction hmake (r.mem_candidates_of_mem_survivors hsurvives)
      obtain ⟨r', c', hmake', hreproduces, hseen⟩ := hruns {} 0
      obtain ⟨-, -, hagain⟩ := hseen [.recording] (by decide) (by decide) w none none hlawful
      obtain ⟨s', hmem', hcounted⟩ := hagain rfl s hmem
      exact ⟨r, sequence, c, s, hmake, beq_iff_eq.mp hstage, hmem, config', hcheck, r', c', s',
        hmake', hreproduces, hmem', hcounted⟩

end SeededTesting
