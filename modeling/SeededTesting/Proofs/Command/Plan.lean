import SeededTesting.Proofs.Command.Consoles
import SeededTesting.Proofs.Command.Lines
import SeededTesting.Proofs.Command.Messages
import SeededTesting.Proofs.Run.IdleRuns
import SeededTesting.Proofs.Run.PrintedSeed
import SeededTesting.Proofs.Run.Sequence
import SeededTesting.Proofs.Suite.Checks
import SeededTesting.Proofs.Suite.Map

/-! # Plans and runs

A plan is refused just if something is wrong with what is asked for. The message about it is read
for markup, so its text may keep the command from ending with its exit code. A request for more
iterations than a list can be long, all with one seed, is not answered at all. Any other plan shows
the candidates that a run of the suite starts, and the chain beside each of them asks for a plan in
which the seed of every candidate is its own.
-/

namespace SeededTesting.Command.PlanRequest

open Text.Markup

variable {Code Code' : Type}

/-! ## Requests -/

/-- What is asked for can be planned. -/
structure WellFormed (p : PlanRequest) : Prop where
  seed : ∃ chain, SeedChain.parse p.seed = .ok chain ∧ 1 ≤ chain.length ∧ chain.length ≤ 2
  iterations : ∀ n, p.iterations = some n → 1 ≤ n
  suite : p.suite ≠ ""
  units : ∀ name ∈ p.units, name ≠ ""
  distinct : p.units.Nodup

variable {p : PlanRequest}

/-- The settings hold up if the chain and the number of iterations do. -/
theorem exists_config (hseed : ∃ chain, SeedChain.parse p.seed = .ok chain ∧ 1 ≤ chain.length ∧
      chain.length ≤ 2) (hiterations : ∀ n, p.iterations = some n → 1 ≤ n) :
    ∃ config, p.settings.check = .ok config ∧ config.toSettings = p.settings ∧
      SeedChain.parse p.seed = .ok config.chain ∧ 1 ≤ config.chain.length ∧
      config.chain.length ≤ 2 := by
  obtain ⟨chain, hchain⟩ := hseed
  obtain ⟨config, hcheck, hsettings, rfl⟩ :=
    Settings.exists_check (s := p.settings) ((Settings.seeds_eq_ok_iff rfl).mpr hchain) hiterations
  exact ⟨config, hcheck, hsettings, hchain⟩

theorem exists_check_iff : (∃ config, p.settings.check = .ok config) ↔
    (∃ chain, SeedChain.parse p.seed = .ok chain ∧ 1 ≤ chain.length ∧ chain.length ≤ 2) ∧
      ∀ n, p.iterations = some n → 1 ≤ n := by
  constructor
  · rintro ⟨config, hcheck⟩
    have hsettings := Settings.toSettings_of_check hcheck
    have hseeds := config.seeds_eq
    have hiterations := config.iterations_pos
    rw [hsettings] at hseeds hiterations
    exact ⟨⟨config.chain, (Settings.seeds_eq_ok_iff rfl).mp hseeds⟩, hiterations⟩
  · rintro ⟨hseed, hiterations⟩
    obtain ⟨config, hcheck, -⟩ := exists_config hseed hiterations
    exact ⟨config, hcheck⟩

theorem violations_toSuite_iff (code : Code) : (p.toSuite code).violations = [] ↔
    p.suite ≠ "" ∧ (∀ name ∈ p.units, name ≠ "") ∧ p.units.Nodup := by
  have hnames : (p.toSuite code).units.map (·.name) = p.units := by
    simp [toSuite, Function.comp_def]
  rw [Suite.violations_eq_nil_iff]
  constructor
  · intro h
    refine ⟨h.name, ?_, hnames ▸ h.distinct⟩
    intro name hname
    rw [← hnames] at hname
    obtain ⟨unit, hunit, rfl⟩ := List.mem_map.mp hname
    exact h.unitNames unit hunit
  · rintro ⟨hsuite, hunits, hdistinct⟩
    -- All but the names is in order by the way that the suite is made.
    exact {
      name := hsuite
      factory := Option.some_ne_none _
      seed := fun chain hchain => nomatch hchain
      repetition := fun r hr => nomatch hr
      hooks := List.forall_mem_nil _
      unitNames := List.forall_mem_map.mpr hunits
      distinct := hnames.symm ▸ hdistinct
      bodies := List.forall_mem_map.mpr fun _ _ => Option.some_ne_none _
      unitSeeds := List.forall_mem_map.mpr fun _ _ chain hchain => nomatch hchain
      unitRepetitions := fun unit hunit r hr => (iterations_of_mem hunit hr).ge }

theorem WellFormed.violations_eq (hp : p.WellFormed) (code : Code) :
    (p.toSuite code).violations = [] :=
  (violations_toSuite_iff code).mpr ⟨hp.suite, hp.units, hp.distinct⟩

/-! ## Iterations -/

/-- How often every unit is run. -/
def count (p : PlanRequest) : Int :=
  p.iterations.getD 1

/-- One seed is to be repeated more often than a list can be long. All iterations of a unit share a
seed if this is asked for, and also if the chain has a seed for the units. -/
structure Overlong (p : PlanRequest) : Prop where
  units : p.units ≠ []
  shared : p.constantSeed = true ∨ ∃ master seed, SeedChain.parse p.seed = .ok [master, seed]
  count : Derivation.lengthLimit ≤ p.count.toNat

section Settings

variable {config : RunConfig} {code : Code} {unit : TestUnit Code}

theorem iterationCount_eq (hsettings : config.toSettings = p.settings)
    (hunit : unit ∈ (p.toSuite code).units) :
    iterationCount unit.metadata (p.toSuite code).metadata config = p.count := by
  have hiterations : config.iterations = p.iterations := congrArg Settings.iterations hsettings
  unfold iterationCount count
  rw [hiterations]
  cases p.iterations with
  | some n => rfl
  | none =>
      split
      next heq => cases heq
      next hr => exact iterations_of_mem hunit hr
      next hr => cases hr
      next => rfl

/-- Iterations share a seed if the units have a configured one or if this is asked for. -/
theorem constantSeed_eq (hunit : unit ∈ (p.toSuite code).units) (master : Seed)
    (override : Option Seed) :
    Derivation.constantSeed ⟨(p.toSuite code).metadata, master, override⟩ unit.metadata =
      (override.isSome || p.constantSeed) := by
  obtain ⟨name, -, rfl⟩ := List.mem_map.mp hunit
  cases override with
  | some seed => rfl
  | none => cases hconstant : p.constantSeed <;> simp [Derivation.constantSeed, toSuite]

/-- The units have a configured seed just if the chain has a second one. -/
theorem isSome_unitSeed_iff (hparse : SeedChain.parse p.seed = .ok config.chain)
    (hlength : config.chain.length ≤ 2) : config.unitSeed.isSome = true ↔
      ∃ master seed, SeedChain.parse p.seed = .ok [master, seed] := by
  rw [RunConfig.unitSeed, hparse]
  generalize config.chain = chain at hlength
  obtain _ | ⟨master, _ | ⟨seed, _ | ⟨third, rest⟩⟩⟩ := chain
  · simp
  · simp
  · simp
  · simp at hlength

theorem overlong_toSuite_iff (hsettings : config.toSettings = p.settings)
    (hparse : SeedChain.parse p.seed = .ok config.chain) (hlength : config.chain.length ≤ 2)
    (code : Code) : (p.toSuite code).Overlong config ↔ p.Overlong := by
  have hunits : (p.toSuite code).units ≠ [] ↔ p.units ≠ [] :=
    not_congr List.map_eq_nil_iff
  have hunit : ∀ unit ∈ (p.toSuite code).units,
      UnitBlock.Overlong ⟨(p.toSuite code).metadata, 0, config.unitSeed⟩ config unit ↔
        (p.constantSeed = true ∨ ∃ master seed, SeedChain.parse p.seed = .ok [master, seed]) ∧
          Derivation.lengthLimit ≤ p.count.toNat := by
    intro unit hunit
    rw [UnitBlock.Overlong, Derivation.Overlong, iterationCount_eq hsettings hunit,
      constantSeed_eq hunit, Bool.or_eq_true, isSome_unitSeed_iff hparse hlength, or_comm]
  constructor
  · rintro ⟨unit, hmem, hlong⟩
    obtain ⟨hshared, hcount⟩ := (hunit unit hmem).mp hlong
    exact ⟨hunits.mp (List.ne_nil_of_mem hmem), hshared, hcount⟩
  · intro hlong
    obtain ⟨unit, hmem⟩ := List.exists_mem_of_ne_nil _ (hunits.mpr hlong.units)
    exact ⟨unit, hmem, (hunit unit hmem).mpr ⟨hlong.shared, hlong.count⟩⟩

end Settings

/-! ## Runners -/

/-- A request has a runner, which needs neither a host nor a sequence number. -/
structure Planned (p : PlanRequest) (code : Code) (r : Runner Code) : Prop where
  sound : (p.toSuite code).violations = []
  settings : r.config.toSettings = p.settings
  chain : SeedChain.parse p.seed = .ok r.config.chain
  master : r.config.masterSeed = some r.master
  made : r.MadeOf (p.toSuite code) r.config 0 0 0
  setUp : ∀ host sequence,
    Runner.setUp (p.toSuite code) (some p.settings) host sequence = .ok (r, sequence)

theorem WellFormed.exists_planned (hp : p.WellFormed) (hshort : ¬p.Overlong) (code : Code) :
    ∃ r : Runner Code, p.Planned code r := by
  have hviolations := hp.violations_eq code
  obtain ⟨config, hcheck, hsettings, hparse, hpos, hlength⟩ := exists_config hp.seed hp.iterations
  obtain ⟨master, hmaster⟩ : ∃ master, config.masterSeed = some master :=
    ⟨config.chain[0], List.getElem?_eq_getElem hpos⟩
  have hmake : ∀ host sequence, ∃ r, Runner.make (p.toSuite code) (some config) host sequence =
      .ok (r, sequence) ∧ r.master = master ∧
        r.MadeOf (p.toSuite code) config host.clock sequence sequence := by
    intro host sequence
    obtain ⟨r, next, hmake⟩ := Runner.exists_make hviolations
      (mt (overlong_toSuite_iff hsettings hparse hlength code).mp hshort) host sequence
    have hmade := Runner.madeOf_of_make hmake
    obtain ⟨hr, rfl⟩ := hmade.started_of_masterSeed hmaster
    exact ⟨r, hmake, hr, hmade⟩
  obtain ⟨r, -, hr, hmade⟩ := hmake {} 0
  obtain rfl := hmade.config_eq
  refine ⟨r, hviolations, hsettings, hparse, hr ▸ hmaster, hmade, fun host sequence => ?_⟩
  -- Whatever the host is, the master seed is the configured one, and it determines the runner.
  obtain ⟨r', hmake', hr', hmade'⟩ := hmake host sequence
  obtain rfl := hmade.eq_of_master hmade' (hr'.trans hr.symm)
  rw [Runner.setUp, hcheck]
  exact hmake'

/-- There is no runner on any host for a request that is overlong. -/
theorem WellFormed.setUp_of_overlong (hp : p.WellFormed) (hlong : p.Overlong) (code : Code)
    (host : Host) (sequence : Nat) :
    Runner.setUp (p.toSuite code) (some p.settings) host sequence =
      .error (.derivation .tooMany) := by
  obtain ⟨config, hcheck, hsettings, hparse, -, hlength⟩ := exists_config hp.seed hp.iterations
  rw [Runner.setUp, hcheck]
  exact Runner.make_of_overlong (hp.violations_eq code)
    ((overlong_toSuite_iff hsettings hparse hlength code).mpr hlong) host sequence

theorem WellFormed.runner_of_overlong (hp : p.WellFormed) (hlong : p.Overlong) :
    p.runner = .error (.derivation .tooMany) := by
  rw [runner, hp.setUp_of_overlong hlong]
  rfl

/-- What is overlong is not answered. -/
theorem WellFormed.showPlan_of_overlong (hp : p.WellFormed) (hlong : p.Overlong) :
    showPlan p = .error DerivationError.tooMany.complaint := by
  unfold showPlan
  rw [hp.runner_of_overlong hlong]
  rfl

/-- What cannot be planned is refused for its configuration or its suite, in words without a
bracket of their own. -/
theorem exists_error_of_not_wellFormed (hp : ¬p.WellFormed) :
    ∃ e, p.runner = .error e ∧ e.complaint.kind = .configuration ∧
      e.blamesConfiguration = true ∧
      (p.Unbracketed → SeededTesting.Unbracketed e.complaint.text) := by
  cases hcheck : p.settings.check with
  | error reason =>
      refine ⟨.config reason, ?_, rfl, rfl, fun hplain => ?_⟩
      · rw [runner, Runner.setUp, hcheck]
        rfl
      · refine Settings.unbracketed_message hcheck fun text htext => ?_
        cases htext
        exact hplain.seed
  | ok config =>
      have hviolations : (p.toSuite ()).violations ≠ [] := by
        intro hnone
        obtain ⟨hseed, hiterations⟩ := exists_check_iff.mp ⟨config, hcheck⟩
        obtain ⟨hsuite, hunits, hdistinct⟩ := (violations_toSuite_iff ()).mp hnone
        exact hp ⟨hseed, hiterations, hsuite, hunits, hdistinct⟩
      refine ⟨.suite (p.toSuite ()).violations, ?_, rfl, rfl, unbracketed_report⟩
      have hmake := Suite.make_of_violations hviolations (some config) {} 0
      rw [runner, Runner.setUp, hcheck]
      exact congrArg (Except.map Prod.fst) hmake

/-! ## Rows -/

namespace Planned

variable {code : Code} {r : Runner Code} (h : p.Planned code r)

include h

/-- A unit unrolls to as many iterations as are asked for. -/
theorem unrolls {unit : TestUnit Code} (hunit : unit ∈ (p.toSuite code).units) :
    (UnitBlock.planned p.suite r.derivation r.config unit).Unrolls p.suite r.derivation r.config
        unit ∧
      (UnitBlock.planned p.suite r.derivation r.config unit).count = p.count := by
  have hunrolls : (UnitBlock.planned p.suite r.derivation r.config unit).Unrolls p.suite
      r.derivation r.config unit := Suite.unrolls_planned h.made h.sound hunit
  refine ⟨hunrolls, ?_⟩
  rw [hunrolls.count_eq, h.made.metadata_eq]
  exact iterationCount_eq h.settings hunit

/-- A candidate is one of those that its unit unrolls to. -/
theorem exists_unrolls {c : Candidate Code} (hc : c ∈ r.candidates) :
    ∃ block : UnitBlock Code, c ∈ block.candidates ∧ block.count = p.count ∧
      block.Unrolls p.suite r.derivation r.config c.unit := by
  rw [Suite.candidates_eq_planned h.made] at hc
  obtain ⟨unit, hunit, hc⟩ := List.mem_flatMap.mp hc
  obtain ⟨hunrolls, hcount⟩ := h.unrolls hunit
  exact ⟨_, hc, hcount, hunrolls.units c hc ▸ hunrolls⟩

/-- The seed of a candidate is encoded in its name. -/
theorem name_eq {c : Candidate Code} (hc : c ∈ r.candidates) :
    c.name = DisplayName.format c.unit.name c.iteration p.count r.master c.seed p.suite := by
  obtain ⟨block, hmem, hcount, hunrolls⟩ := h.exists_unrolls hc
  rw [← hcount]
  exact hunrolls.names c hmem

theorem seed_eq {seed : Seed} (hoverride : r.config.unitSeed = some seed) {c : Candidate Code}
    (hc : c ∈ r.candidates) : c.seed = seed := by
  obtain ⟨block, hmem, -, hunrolls⟩ := h.exists_unrolls hc
  refine hunrolls.seed_of_override ?_ hmem
  rw [h.made.derivation_eq]
  exact hoverride

/-- Every unit has its iterations, in order. -/
theorem places_eq : r.candidates.map (fun c => (c.unit, c.iteration)) =
    (p.toSuite code).units.flatMap fun unit =>
      (List.range p.count.toNat).map fun iteration => (unit, iteration) := by
  rw [Suite.candidates_eq_planned h.made, List.map_flatMap]
  refine List.flatMap_congr fun unit hunit => ?_
  obtain ⟨hunrolls, hcount⟩ := h.unrolls hunit
  rw [← hcount, ← hunrolls.iterations, List.map_map]
  exact List.map_congr_left fun c hc => Prod.ext (hunrolls.units c hc) rfl

end Planned

/-! ## Plans -/

/-- The runner of a plan is shown by its candidates, on every console. -/
structure Shows (p : PlanRequest) (r : Runner Unit) : Prop where
  runner : p.runner = .ok r
  answer : showPlan p = .ok (display p.json r.master r.candidates)
  shown : ∀ console, (display p.json r.master r.candidates).shown console = .ok 0

theorem Planned.shows {r : Runner Unit} (h : p.Planned () r) : p.Shows r := by
  have hrunner : p.runner = .ok r := by
    rw [runner, h.setUp]
    rfl
  refine ⟨hrunner, ?_, shown_display p.json r.master r.candidates⟩
  unfold showPlan
  rw [hrunner]

/-- Whatever the host and the world are, a run of the suite with collaborators that do nothing has
the master seed and starts the candidates of the given names, in this order. -/
def RunStarts (p : PlanRequest) (master : Seed) (names : List String) : Prop :=
  ∀ (host : Host) (w : World), ∃ report trace v,
    (runSuite host (p.toSuite Procedure.idle) (some p.settings) none).exec w =
        (.ok (.ok report, trace), v) ∧
      report.seed = SeedChain.format [master] ∧
      Notification.names .started report.notifications = names

theorem idle_toSuite (p : PlanRequest) : (p.toSuite Procedure.idle).Idle where
  factory := ⟨true, rfl⟩
  bodies := List.forall_mem_map.mpr fun _ _ => rfl
  levels := rfl
  rules := rfl
  listeners := rfl

theorem toSuite_map (p : PlanRequest) (f : Code → Code') (code : Code) :
    (p.toSuite code).map f = p.toSuite (f code) := by
  unfold toSuite Suite.map
  rw [List.map_map]
  rfl

theorem Planned.runStarts {r : Runner Unit} (h : p.Planned () r) :
    p.RunStarts r.master (r.candidates.map (·.name)) := by
  intro host w
  let idle := r.map fun _ => Procedure.idle
  have hsetUp : Runner.setUp (p.toSuite Procedure.idle) (some p.settings) host w.sequence =
      .ok (idle, w.sequence) := by
    rw [← p.toSuite_map (fun _ : Unit => Procedure.idle) (), Runner.setUp_map, h.setUp]
    rfl
  obtain ⟨report, trace, v, hrun, hseed, hnames⟩ :=
    exec_runSuite_of_idle p.idle_toSuite hsetUp none
  refine ⟨report, trace, v, hrun, hseed, ?_⟩
  have hunfiltered : idle.survivors none = idle.candidates :=
    Runner.survivors_of_unfiltered (congrArg Settings.targetSuite h.settings)
      (congrArg Settings.targetUnit h.settings)
  rw [hnames, hunfiltered, Runner.candidates_map, List.map_map]
  rfl

/-- The request with the chain of a row as its seed. -/
def reproducing (p : PlanRequest) (master : Seed) (row : Candidate Unit) : PlanRequest :=
  { p with seed := SeedChain.format [master, row.seed] }

/-- The chain of a row is the printed seed of the run, without its brackets, before the seed of the
row. -/
theorem seed_reproducing (p : PlanRequest) (master : Seed) (row : Candidate Unit) :
    (p.reproducing master row).seed =
      "[" ++ String.ofList (SeedChain.format [master]).toList.tail.dropLast ++ ":" ++
        row.seed.format ++ "]" := by
  have hmaster : (SeedChain.format [master]).toList.tail.dropLast = master.format.toList := by
    simp [SeedChain.format]
  rw [hmaster, String.ofList_toList, reproducing]
  simp [SeedChain.format, String.append_assoc]

theorem WellFormed.reproducing (hp : p.WellFormed) (master : Seed) (row : Candidate Unit) :
    (p.reproducing master row).WellFormed where
  seed := ⟨[master, row.seed], SeedChain.parse_format (List.cons_ne_nil _ _), by simp⟩
  iterations := hp.iterations
  suite := hp.suite
  units := hp.units
  distinct := hp.distinct

theorem Planned.units_ne_nil {r : Runner Unit} (h : p.Planned () r) {row : Candidate Unit}
    (hrow : row ∈ r.candidates) : p.units ≠ [] := by
  intro hunits
  have hmem := h.made.unit_mem hrow
  rw [toSuite, hunits] at hmem
  cases hmem

/-- The chain of a row has a seed for the units, so only the number of iterations matters. -/
theorem overlong_reproducing_iff (hunits : p.units ≠ []) (master : Seed) (row : Candidate Unit) :
    (p.reproducing master row).Overlong ↔ Derivation.lengthLimit ≤ p.count.toNat := by
  have hparse : SeedChain.parse (p.reproducing master row).seed = .ok [master, row.seed] :=
    SeedChain.parse_format (List.cons_ne_nil _ _)
  exact ⟨fun hlong => hlong.count, fun hcount => ⟨hunits, .inr ⟨_, _, hparse⟩, hcount⟩⟩

/-- What the chain beside a row asks for is planned under the same master seed, for the same
iterations of the same units, and every row then has the seed of that row. -/
theorem Planned.exists_replanned {r : Runner Unit} (h : p.Planned () r) (hp : p.WellFormed)
    {row : Candidate Unit} (hrow : row ∈ r.candidates)
    (hcount : p.count.toNat < Derivation.lengthLimit) :
    ∃ r', (p.reproducing r.master row).Shows r' ∧ r'.master = r.master ∧
      r'.candidates.map (fun c => (c.unit, c.iteration)) =
        r.candidates.map (fun c => (c.unit, c.iteration)) ∧
      ∀ c ∈ r'.candidates, c.seed = row.seed := by
  have hshort : ¬(p.reproducing r.master row).Overlong := by
    rw [overlong_reproducing_iff (h.units_ne_nil hrow)]
    exact Nat.not_le.mpr hcount
  obtain ⟨r', h'⟩ := (hp.reproducing r.master row).exists_planned hshort ()
  have hchain : r'.config.chain = [r.master, row.seed] :=
    Except.ok.inj (h'.chain.symm.trans (SeedChain.parse_format (List.cons_ne_nil _ _)))
  have hmaster := h'.master
  rw [RunConfig.masterSeed, hchain] at hmaster
  have hoverride : r'.config.unitSeed = some row.seed := by
    rw [RunConfig.unitSeed, hchain]
    rfl
  refine ⟨r', h'.shows, (Option.some.inj hmaster).symm, ?_, fun c hc => h'.seed_eq hoverride hc⟩
  -- Neither the suite nor the number of iterations looks at the seed of the request.
  rw [h'.places_eq, h.places_eq]
  rfl

/-- Under a master seed alone, a unit with a broken name has no seeds. -/
theorem Planned.iterationSeeds_of_broken {r : Runner Unit} (h : p.Planned () r)
    (hchain : SeedChain.parse p.seed = .ok [r.master]) {unit : TestUnit Unit}
    (hunit : unit ∈ (p.toSuite ()).units) {name : Text.CodePoints} (hbroken : name.Broken)
    (count : Nat) :
    r.derivation.iterationSeeds name unit.metadata count =
      .error (.name name.encodingError) := by
  have hreadable := Suite.readable h.sound
  have hconfigured : r.config.chain = [r.master] := Except.ok.inj (h.chain.symm.trans hchain)
  have hhashes : r.derivation.Hashes unit.metadata := by
    rw [h.made.derivation_eq]
    refine ⟨?_, ?_, fun chain seeds hdeclared => nomatch hdeclared⟩
    · rw [RunConfig.unitSeed, hconfigured]
      rfl
    · obtain ⟨_, -, rfl⟩ := List.mem_map.mp hunit
      rfl
  have hown : r.derivation.metadata.Readable := h.made.metadata_eq ▸ hreadable.own
  exact Derivation.iterationSeeds_of_error ((Derivation.unitSeed_eq_error_iff hown
    (hreadable.units unit hunit)).mpr ⟨hhashes, hbroken, rfl⟩) count

/-! ## Refusals -/

/-- A request is refused for its configuration or its suite, with a message and without a row. That
ends with code two if it is asked for as JSON. On a console the markup of the message is read first;
that goes well at least if no text of the request has a bracket. -/
structure Refused (p : PlanRequest) (message : String) : Prop where
  error : ∃ e, p.runner = .error e ∧ e.complaint.kind = .configuration ∧
    e.complaint.text = message
  answer : showPlan p = .ok (.failure message p.json)
  shown : ∀ console, (Answer.failure message p.json).shown console =
    if p.json then .ok 2
    else (console.readTags []
      ((tags message).map fun (position, tag) => (position + 18, tag))).map fun _ => 2
  unbracketed : p.Unbracketed → ∀ console,
    (Answer.failure message p.json).shown console = .ok 2

theorem exists_refused (hp : ¬p.WellFormed) : ∃ message, p.Refused message := by
  obtain ⟨e, hrunner, hkind, hblames, htext⟩ := exists_error_of_not_wellFormed hp
  have hshown := Answer.shown_failure e.complaint.text p.json
  refine ⟨e.complaint.text, ⟨e, hrunner, hkind, rfl⟩, ?_, hshown, fun hplain console => ?_⟩
  · unfold showPlan
    rw [hrunner]
    exact if_pos hblames
  · rw [hshown, tags_of_not_mem (htext hplain)]
    split <;> rfl

/-- What is refused is not well-formed: a well-formed request is shown, or not answered. -/
theorem Refused.not_wellFormed {message : String} (h : p.Refused message) : ¬p.WellFormed := by
  intro hp
  obtain ⟨e, hrunner, hkind, -⟩ := h.error
  by_cases hlong : p.Overlong
  · rw [hp.runner_of_overlong hlong] at hrunner
    obtain rfl := Except.error.inj hrunner
    exact absurd hkind (by decide)
  · obtain ⟨r, hplanned⟩ := hp.exists_planned hlong ()
    cases hplanned.shows.runner.symm.trans hrunner

/-! ## Agreement -/

/-- A plan of two units, one of which is named like markup. -/
def rehearsal : PlanRequest where
  seed := " [1f]"
  units := ["opens", "shuts[x]"]
  iterations := some 2

/-- A plan of so many iterations with one seed that no list can hold their seeds. -/
def unending : PlanRequest where
  seed := "1:2"
  units := ["a"]
  iterations := some (2 ^ 63)

/-- A plan whose seed is no chain, but a tag that closes what is open. -/
def closing : PlanRequest where
  seed := "[/]"
  units := ["a"]

end SeededTesting.Command.PlanRequest
