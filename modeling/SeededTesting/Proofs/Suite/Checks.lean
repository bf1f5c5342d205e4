import SeededTesting.Proofs.Run.Soundness
import SeededTesting.Proofs.Seed.Canonical
import SeededTesting.Proofs.Suite.Expansion

/-! # The checks of suites

A suite is checked for one thing after another. The violations that are found are those of the
checks that fail, one for each and in the same order, so there is none just if the suite is
well-formed; and then it can be run in every configuration.
-/

namespace SeededTesting

variable {Code : Type}

/-! ## Well-formed suites -/

/-- The chain that is declared, if any, is one of at most so many seeds. -/
def Metadata.SeedWithin (limit : Nat) (m : Metadata) : Prop :=
  ∀ chain, m.seed = some chain → ∃ seeds, SeedChain.parse chain = .ok seeds ∧ seeds.length ≤ limit

/-- The repetition that is declared, if any, has an iteration. -/
def Metadata.Repeats (m : Metadata) : Prop :=
  ∀ r, m.repetition = some r → 1 ≤ r.iterations

structure Suite.WellFormed (suite : Suite Code) : Prop where
  name : suite.name ≠ ""
  factory : suite.factory ≠ none
  seed : suite.metadata.SeedWithin 2
  repetition : suite.metadata.Repeats
  hooks : ∀ level ∈ suite.levels, ∀ phase, ∀ hook ∈ level.hooks phase, hook.code ≠ none
  unitNames : ∀ unit ∈ suite.units, unit.name ≠ ""
  distinct : (suite.units.map (·.name)).Nodup
  bodies : ∀ unit ∈ suite.units, unit.body ≠ none
  unitSeeds : ∀ unit ∈ suite.units, ∀ chain, unit.metadata.seed = some chain →
    ∃ seed, SeedChain.parse chain = .ok [seed]
  unitRepetitions : ∀ unit ∈ suite.units, unit.metadata.Repeats

/-! ## Checks -/

/-- What a suite is checked for; a unit is compared with those at earlier places. -/
inductive Check (Code : Type) where
  | suiteNamed
  | factoryCallable
  | seed (place : Place) (limit : Nat) (m : Metadata)
  | repetition (place : Place) (m : Metadata)
  | hookCallable (level : Level Code) (phase : Phase) (hook : Hook Code)
  | unitNamed (unit : TestUnit Code)
  | unitDistinct (unit : TestUnit Code) (index : Nat)
  | bodyCallable (unit : TestUnit Code)

namespace Check

def Fails (suite : Suite Code) : Check Code → Prop
  | .suiteNamed => suite.name = ""
  | .factoryCallable => suite.factory = none
  | .seed _ limit m => ¬m.SeedWithin limit
  | .repetition _ m => ¬m.Repeats
  | .hookCallable _ _ hook => hook.code = none
  | .unitNamed unit => unit.name = ""
  | .unitDistinct unit index => ∃ earlier ∈ suite.units.take index, earlier.name = unit.name
  | .bodyCallable unit => unit.body = none

/-- The violation that is reported where a check fails. -/
def Reports (suite : Suite Code) : Check Code → Violation → Prop
  | .suiteNamed, v => v = .emptySuiteName
  | .factoryCallable, v => v = .factoryNotCallable suite.name
  | .seed place limit m, v => ∃ chain, m.seed = some chain ∧
      ((∃ reason, SeedChain.parse chain = .error reason ∧ v = .malformedSeed place reason) ∨
        ∃ seeds, SeedChain.parse chain = .ok seeds ∧ limit < seeds.length ∧
          v = .tooManySeeds place limit chain)
  | .repetition place m, v => ∃ r, m.repetition = some r ∧ v = .tooFewIterations place r.iterations
  | .hookCallable level phase hook, v => v = .hookNotCallable phase level.owner hook.name
  | .unitNamed _, v => v = .emptyUnitName suite.name
  | .unitDistinct unit _, v => v = .duplicateUnit (.unit suite.name unit.name)
  | .bodyCallable unit, v => v = .bodyNotCallable (.unit suite.name unit.name)

end Check

/-- The hooks of a level are checked phase by phase. -/
def Level.checks (level : Level Code) : List (Check Code) :=
  Phase.all.flatMap fun phase => (level.hooks phase).map (.hookCallable level phase)

def TestUnit.checks (suite : String) (unit : TestUnit Code) (index : Nat) : List (Check Code) :=
  [.unitNamed unit, .unitDistinct unit index, .bodyCallable unit,
    .seed (.unit suite unit.name) 1 unit.metadata,
    .repetition (.unit suite unit.name) unit.metadata]

namespace Suite

/-- Everything that a suite is checked for, in order. -/
def checks (suite : Suite Code) : List (Check Code) :=
  [.suiteNamed, .factoryCallable, .seed (.suite suite.name) 2 suite.metadata,
      .repetition (.suite suite.name) suite.metadata] ++
    suite.levels.flatMap Level.checks ++
    suite.units.zipIdx.flatMap fun (unit, index) => unit.checks suite.name index

/-- The violations are those of the checks that fail, one for each and in the same order. -/
inductive Lists (suite : Suite Code) : List (Check Code) → List Violation → Prop where
  | nil : Lists suite [] []
  | failed {c : Check Code} {v : Violation} {cs : List (Check Code)} {vs : List Violation}
      (hfails : c.Fails suite) (hreports : c.Reports suite v) (h : Lists suite cs vs) :
      Lists suite (c :: cs) (v :: vs)
  | passed {c : Check Code} {cs : List (Check Code)} {vs : List Violation}
      (hpasses : ¬c.Fails suite) (h : Lists suite cs vs) : Lists suite (c :: cs) vs

namespace Lists

variable {suite : Suite Code}

theorem append {cs ds : List (Check Code)} {vs us : List Violation} (h : suite.Lists cs vs)
    (h' : suite.Lists ds us) : suite.Lists (cs ++ ds) (vs ++ us) := by
  induction h with
  | nil => exact h'
  | failed hfails hreports _ ih => exact .failed hfails hreports ih
  | passed hpasses _ ih => exact .passed hpasses ih

theorem flatMap {α : Type} {l : List α} {f : α → List (Check Code)} {g : α → List Violation}
    (h : ∀ a ∈ l, suite.Lists (f a) (g a)) : suite.Lists (l.flatMap f) (l.flatMap g) := by
  induction l with
  | nil => exact .nil
  | cons a l ih =>
      rw [List.forall_mem_cons] at h
      exact h.1.append (ih h.2)

/-- There is a violation just if a check fails. -/
theorem eq_nil_iff {cs : List (Check Code)} {vs : List Violation} (h : suite.Lists cs vs) :
    vs = [] ↔ ∀ c ∈ cs, ¬c.Fails suite := by
  induction h with
  | nil => simp
  | failed hfails _ _ _ => simp [hfails]
  | passed hpasses _ ih => simp [hpasses, ih]

/-- What is flagged on a condition is listed if the check fails on this condition. -/
theorem flag {c : Check Code} {v : Violation} {condition : Bool}
    (hfails : c.Fails suite ↔ condition = true)
    (hreports : condition = true → c.Reports suite v) :
    suite.Lists [c] (SeededTesting.flag condition v) := by
  rw [SeededTesting.flag]
  split
  next h => exact .failed (hfails.mpr h) (hreports h) .nil
  next h => exact .passed (fun hc => h (hfails.mp hc)) .nil

end Lists
end Suite

/-! ## What is listed -/

section Listing

variable {suite : Suite Code}

theorem Metadata.lists_seedViolations (place : Place) (limit : Nat) (m : Metadata) :
    suite.Lists [.seed place limit m] (m.seedViolations place limit) := by
  unfold seedViolations
  cases hchain : m.seed with
  | none => exact .passed (fun h => h fun chain h' => nomatch hchain.symm.trans h') .nil
  | some chain =>
      dsimp only
      have hwithin : m.SeedWithin limit ↔
          ∃ seeds, SeedChain.parse chain = .ok seeds ∧ seeds.length ≤ limit := by
        unfold SeedWithin
        simp only [hchain, Option.some.injEq, forall_eq']
      cases hparse : SeedChain.parse chain with
      | error reason =>
          refine .failed (fun h => ?_) ⟨chain, hchain, .inl ⟨reason, hparse, rfl⟩⟩ .nil
          obtain ⟨seeds, hseeds, -⟩ := hwithin.mp h
          rw [hparse] at hseeds
          cases hseeds
      | ok seeds =>
          refine .flag ?_ fun h => ⟨chain, hchain, .inr ⟨seeds, hparse, of_decide_eq_true h, rfl⟩⟩
          rw [Check.Fails, hwithin, decide_eq_true_eq, gt_iff_lt, ← Nat.not_le]
          simp [hparse]

theorem Metadata.lists_repetitionViolations (place : Place) (m : Metadata) :
    suite.Lists [.repetition place m] (m.repetitionViolations place) := by
  unfold repetitionViolations
  cases hr : m.repetition with
  | none => exact .passed (fun h => h fun r h' => nomatch hr.symm.trans h') .nil
  | some r =>
      refine .flag ?_ fun _ => ⟨r, hr, rfl⟩
      simp only [Check.Fails, Metadata.Repeats, hr, Option.some.injEq, forall_eq',
        decide_eq_true_eq, Int.not_le]

theorem Metadata.lists_violations (place : Place) (limit : Nat) (m : Metadata) :
    suite.Lists [.seed place limit m, .repetition place m] (m.violations place limit) :=
  (lists_seedViolations place limit m).append (lists_repetitionViolations place m)

theorem Level.lists_violations (level : Level Code) :
    suite.Lists level.checks level.violations := by
  refine Suite.Lists.flatMap fun phase _ => ?_
  rw [List.map_eq_flatMap]
  exact .flatMap fun hook _ => .flag Option.isNone_iff_eq_none.symm fun _ => rfl

/-- A unit is listed as a duplicate if it is named like one before it. -/
theorem TestUnit.lists_violations {unit : TestUnit Code} {index : Nat} {earlier : List String}
    (hearlier : ∀ name, name ∈ earlier ↔ ∃ u ∈ suite.units.take index, u.name = name) :
    suite.Lists (unit.checks suite.name index) (unit.violations suite.name earlier) := by
  have hname : suite.Lists [.unitNamed unit] (flag (unit.name == "") (.emptyUnitName suite.name)) :=
    .flag beq_iff_eq.symm fun _ => rfl
  have hdistinct : suite.Lists [.unitDistinct unit index]
      (flag (earlier.contains unit.name) (.duplicateUnit (.unit suite.name unit.name))) := by
    refine .flag ?_ fun _ => rfl
    rw [List.contains_iff_mem, hearlier]
    rfl
  have hbody : suite.Lists [.bodyCallable unit]
      (flag unit.body.isNone (.bodyNotCallable (.unit suite.name unit.name))) :=
    .flag Option.isNone_iff_eq_none.symm fun _ => rfl
  exact ((hname.append hdistinct).append hbody).append (unit.metadata.lists_violations _ 1)

theorem TestUnit.lists_listViolations {before units : List (TestUnit Code)}
    (hunits : suite.units = before ++ units) {earlier : List String}
    (hearlier : ∀ name, name ∈ earlier ↔ ∃ u ∈ before, u.name = name) :
    suite.Lists ((units.zipIdx before.length).flatMap fun (unit, index) =>
      unit.checks suite.name index) (listViolations suite.name earlier units) := by
  induction units generalizing before earlier with
  | nil => exact .nil
  | cons unit rest ih =>
      have htake : suite.units.take before.length = before := by rw [hunits, List.take_left]
      rw [List.zipIdx_cons, List.flatMap_cons, listViolations]
      refine (lists_violations fun name => by rw [htake, hearlier]).append ?_
      have hunits' : suite.units = (before ++ [unit]) ++ rest := by
        rw [hunits, List.append_assoc]
        rfl
      have hearlier' : ∀ name, name ∈ unit.name :: earlier ↔
          ∃ u ∈ before ++ [unit], u.name = name := by
        intro name
        rw [List.mem_cons, hearlier]
        simp [or_comm, eq_comm]
      have hrest := ih hunits' hearlier'
      rwa [List.length_append] at hrest

theorem Suite.lists_violations (suite : Suite Code) :
    suite.Lists suite.checks suite.violations := by
  have hname : suite.Lists [.suiteNamed] (flag (suite.name == "") .emptySuiteName) :=
    .flag beq_iff_eq.symm fun _ => rfl
  have hfactory : suite.Lists [.factoryCallable]
      (flag suite.factory.isNone (.factoryNotCallable suite.name)) :=
    .flag Option.isNone_iff_eq_none.symm fun _ => rfl
  have hlevels : suite.Lists (suite.levels.flatMap Level.checks)
      (suite.levels.flatMap Level.violations) := .flatMap fun level _ => level.lists_violations
  have hunits : suite.Lists (suite.units.zipIdx.flatMap fun (unit, index) =>
      unit.checks suite.name index) (TestUnit.listViolations suite.name [] suite.units) :=
    TestUnit.lists_listViolations (List.nil_append suite.units).symm (by simp)
  exact (((hname.append hfactory).append
    (suite.metadata.lists_violations (.suite suite.name) 2)).append hlevels).append hunits

end Listing

/-! ## Exactness -/

/-- Names are distinct if none of them is that of a unit before. -/
theorem TestUnit.nodup_names_iff {units : List (TestUnit Code)} :
    (units.map (·.name)).Nodup ↔
      ∀ unit index, (unit, index) ∈ units.zipIdx →
        ∀ earlier ∈ units.take index, earlier.name ≠ unit.name := by
  rw [List.Nodup, List.pairwise_map, List.pairwise_iff_getElem]
  simp only [List.mk_mem_zipIdx_iff_getElem?, List.getElem?_eq_some_iff, List.mem_take_iff_getElem]
  constructor
  · rintro h unit index ⟨hindex, rfl⟩ earlier ⟨i, hi, rfl⟩
    exact h i index _ hindex (by omega)
  · intro h i j hi hj hlt
    exact h _ j ⟨hj, rfl⟩ _ ⟨i, by omega, rfl⟩

/-- A chain that is read has a seed, so one of at most one seed has just one. -/
theorem Metadata.seedWithin_one_iff {m : Metadata} :
    m.SeedWithin 1 ↔
      ∀ chain, m.seed = some chain → ∃ seed, SeedChain.parse chain = .ok [seed] := by
  refine forall₂_congr fun chain _ => ⟨?_, ?_⟩
  · rintro ⟨seeds, hparse, hlength⟩
    have hpos := List.length_pos_iff.mpr (SeedChain.ne_nil_of_parse hparse)
    obtain ⟨seed, rfl⟩ := List.length_eq_one_iff.mp (by omega : seeds.length = 1)
    exact ⟨seed, hparse⟩
  · rintro ⟨seed, hparse⟩
    exact ⟨[seed], hparse, Nat.le_refl 1⟩

theorem Level.passes_iff {suite : Suite Code} {level : Level Code} :
    (∀ c ∈ level.checks, ¬c.Fails suite) ↔
      ∀ phase, ∀ hook ∈ level.hooks phase, hook.code ≠ none := by
  have hall : ∀ phase, phase ∈ Phase.all := by
    intro phase
    cases phase <;> decide
  simp only [checks, List.mem_flatMap, List.mem_map]
  constructor
  · intro h phase hook hhook
    exact h _ ⟨phase, hall phase, hook, hhook, rfl⟩
  · rintro h c ⟨phase, -, hook, hhook, rfl⟩
    exact h phase hook hhook

theorem TestUnit.passes_iff {suite : Suite Code} {unit : TestUnit Code} {index : Nat} :
    (∀ c ∈ unit.checks suite.name index, ¬c.Fails suite) ↔
      unit.name ≠ "" ∧ (∀ earlier ∈ suite.units.take index, earlier.name ≠ unit.name) ∧
        unit.body ≠ none ∧ unit.metadata.SeedWithin 1 ∧ unit.metadata.Repeats := by
  simp only [checks, List.forall_mem_cons, List.not_mem_nil, false_imp_iff, implies_true, and_true,
    Check.Fails, not_exists, not_and, not_not, ne_eq]

namespace Suite

/-- A suite passes its checks just if it is well-formed. -/
theorem passes_iff {suite : Suite Code} :
    (∀ c ∈ suite.checks, ¬c.Fails suite) ↔ suite.WellFormed := by
  have hlevels : (∀ c ∈ suite.levels.flatMap Level.checks, ¬c.Fails suite) ↔
      ∀ level ∈ suite.levels, ∀ phase, ∀ hook ∈ level.hooks phase, hook.code ≠ none := by
    rw [List.forall_mem_flatMap]
    exact forall₂_congr fun level _ => Level.passes_iff
  have hunits : (∀ c ∈ suite.units.zipIdx.flatMap fun (unit, index) =>
      unit.checks suite.name index, ¬c.Fails suite) ↔
      ∀ unit index, (unit, index) ∈ suite.units.zipIdx →
        unit.name ≠ "" ∧ (∀ earlier ∈ suite.units.take index, earlier.name ≠ unit.name) ∧
          unit.body ≠ none ∧ unit.metadata.SeedWithin 1 ∧ unit.metadata.Repeats := by
    rw [List.forall_mem_flatMap, Prod.forall]
    exact forall₃_congr fun unit index _ => TestUnit.passes_iff
  have hindex : ∀ unit ∈ suite.units, ∃ index, (unit, index) ∈ suite.units.zipIdx := by
    intro unit hunit
    rw [← List.zipIdx_map_fst 0 suite.units] at hunit
    obtain ⟨⟨_, index⟩, hmem, rfl⟩ := List.mem_map.mp hunit
    exact ⟨index, hmem⟩
  rw [checks, List.forall_mem_append, List.forall_mem_append, hlevels, hunits]
  constructor
  · rintro ⟨⟨hown, hhooks⟩, hunits⟩
    simp only [List.forall_mem_cons, Check.Fails, not_not] at hown
    have hunit : ∀ unit ∈ suite.units, unit.name ≠ "" ∧ unit.body ≠ none ∧
        unit.metadata.SeedWithin 1 ∧ unit.metadata.Repeats := by
      intro unit hunit
      obtain ⟨index, hmem⟩ := hindex unit hunit
      obtain ⟨hname, -, hrest⟩ := hunits unit index hmem
      exact ⟨hname, hrest⟩
    exact {
      name := hown.1
      factory := hown.2.1
      seed := hown.2.2.1
      repetition := hown.2.2.2.1
      hooks := hhooks
      unitNames := fun unit h => (hunit unit h).1
      distinct := TestUnit.nodup_names_iff.mpr fun unit index h => (hunits unit index h).2.1
      bodies := fun unit h => (hunit unit h).2.1
      unitSeeds := fun unit h => Metadata.seedWithin_one_iff.mp (hunit unit h).2.2.1
      unitRepetitions := fun unit h => (hunit unit h).2.2.2 }
  · intro h
    refine ⟨⟨?_, h.hooks⟩, fun unit index hmem => ?_⟩
    · simp only [List.forall_mem_cons, Check.Fails, not_not, List.not_mem_nil, false_imp_iff,
        implies_true, and_true]
      exact ⟨h.name, h.factory, h.seed, h.repetition⟩
    · have hunit := List.fst_mem_of_mem_zipIdx hmem
      exact ⟨h.unitNames unit hunit, TestUnit.nodup_names_iff.mp h.distinct unit index hmem,
        h.bodies unit hunit, Metadata.seedWithin_one_iff.mpr (h.unitSeeds unit hunit),
        h.unitRepetitions unit hunit⟩

theorem violations_eq_nil_iff {suite : Suite Code} :
    suite.violations = [] ↔ suite.WellFormed :=
  suite.lists_violations.eq_nil_iff.trans passes_iff

/-- Every unit has a candidate. -/
theorem exists_candidate {suite : Suite Code} (h : suite.violations = []) {config : RunConfig}
    {host : Host} {sequence next : Nat} {r : Runner Code}
    (hmake : Runner.make suite (some config) host sequence = .ok (r, next))
    {unit : TestUnit Code} (hunit : unit ∈ suite.units) : ∃ c ∈ r.candidates, c.unit = unit := by
  have hmade := Runner.madeOf_of_make hmake
  have hunrolls := unrolls_planned hmade h hunit
  have hlength := hunrolls.length_candidates
  have hpos := hunrolls.count_pos
  obtain ⟨c, hc⟩ := List.exists_mem_of_length_pos
    (by omega : 0 < (UnitBlock.planned suite.name r.derivation config unit).candidates.length)
  refine ⟨c, ?_, hunrolls.units c hc⟩
  rw [candidates_eq_planned hmade]
  exact List.mem_flatMap.mpr ⟨unit, hunit, hc⟩

/-- There is no runner for a suite with violations, whatever configuration is asked for, and an
attempt to run it uses up no sequence number. -/
theorem exec_runSuite_of_violations {suite : Suite Procedure} (h : suite.violations ≠ [])
    (host : Host) (settings : Option Settings) (predicate : Option (String → Bool)) (w : World) :
    ∃ e, Runner.setUp suite settings host w.sequence = .error e ∧
      (runSuite host suite settings predicate).exec w = (.ok (.error e.complaint, []), w) := by
  cases hsetUp : Runner.setUp suite settings host w.sequence with
  | error e => exact ⟨e, rfl, exec_runSuite_of_error predicate hsetUp⟩
  | ok made =>
      obtain ⟨config, hmade⟩ := Runner.make_of_setUp hsetUp
      exact absurd (Runner.make_eq_ok hmade).1 h

theorem make_of_violations {suite : Suite Code} (h : suite.violations ≠ [])
    (config : Option RunConfig) (host : Host) (sequence : Nat) :
    Runner.make suite config host sequence = .error (.suite suite.violations) := by
  cases hviolations : suite.violations with
  | nil => exact absurd hviolations h
  | cons v vs =>
      rw [Runner.make, hviolations]
      rfl

/-- The violations of a suite are those of the checks that fail, in the order of the checks, and
there is none just if the suite is well-formed. For one that is not, there is no runner, the message
has one line for each violation, and no sequence number is used up. For a well-formed one there is a
runner in every configuration, with a candidate for each unit and with seeds in range, unless a unit
is to repeat one seed more often than a list can be long: then there is none. With the name of a
unit left open, so that it may also be a broken one, there are two reasons why iterations can have
no seeds: the base seed would have to be made from a broken name, or one seed is repeated more often
than a list can be long. -/
theorem validation_exact_and_sufficient (suite : Suite Procedure) :
    suite.Lists suite.checks suite.violations ∧
      (suite.violations = [] ↔ suite.WellFormed) ∧
      (¬suite.WellFormed →
        (∀ config host sequence,
          Runner.make suite config host sequence = .error (.suite suite.violations)) ∧
        (SetupError.suite suite.violations).complaint =
          ⟨.configuration, some ("Invalid suite definition:\n  " ++
            String.intercalate "\n  " (suite.violations.map Violation.message))⟩ ∧
        ∀ host settings predicate w, ∃ e,
          Runner.setUp suite settings host w.sequence = .error e ∧
            (runSuite host suite settings predicate).exec w = (.ok (.error e.complaint, []), w)) ∧
      (suite.WellFormed → ∀ config,
        (¬suite.Overlong config → ∀ host sequence, ∃ r next,
          Runner.make suite (some config) host sequence = .ok (r, next) ∧
            (∀ unit ∈ suite.units, ∃ c ∈ r.candidates, c.unit = unit) ∧
            ∀ c ∈ r.candidates, c.seed.toNat < 2 ^ 64) ∧
        (suite.Overlong config → ∀ host sequence,
          Runner.make suite (some config) host sequence = .error (.derivation .tooMany)) ∧
        ∀ (master : Seed), ∀ unit ∈ suite.units, ∀ (name : Text.CodePoints) (count : Nat) reason,
          let d : Derivation := ⟨suite.metadata, master, config.unitSeed⟩
          d.iterationSeeds name unit.metadata count = .error reason ↔
            d.Fails name unit.metadata count reason) := by
  refine ⟨suite.lists_violations, violations_eq_nil_iff, fun h => ?_, fun h config => ?_⟩
  · have hviolations : suite.violations ≠ [] := fun hnil => h (violations_eq_nil_iff.mp hnil)
    exact ⟨make_of_violations hviolations, rfl, exec_runSuite_of_violations hviolations⟩
  · have hviolations := violations_eq_nil_iff.mpr h
    have hreadable := readable hviolations
    refine ⟨fun hshort host sequence => ?_, Runner.make_of_overlong hviolations,
      fun master unit hunit name count reason =>
        Derivation.iterationSeeds_eq_error_iff hreadable.own (hreadable.units unit hunit)⟩
    obtain ⟨r, next, hmake⟩ := Runner.exists_make hviolations hshort host sequence
    exact ⟨r, next, hmake, fun unit hunit => exists_candidate hviolations hmake hunit,
      fun c _ => c.seed.toNat_lt⟩

/-- A suite that fails checks of every part; one name is borne by three units. -/
def ragged : Suite Procedure where
  name := "Ragged"
  factory := none
  metadata := { seed := some "[1:2:3]", repetition := some { iterations := 0 } }
  levels := [{ owner := "Base", beforeAll := [⟨"open", "open", none⟩] }]
  units := [
    { name := "a", body := some fun _ => pure () },
    { name := "a", body := none },
    { name := "a", body := some fun _ => pure (), metadata := { seed := some "[1:2]" } }]

/-- The suite with its flaws mended. -/
def mended : Suite Procedure where
  name := "Mended"
  factory := some { code := fun _ => pure () }
  metadata := { seed := some "[1:2]", repetition := some { iterations := 2 } }
  levels := [{ owner := "Base", beforeAll := [⟨"open", "open", some fun _ => pure ()⟩] }]
  units := [
    { name := "a", body := some fun _ => pure () },
    { name := "b", body := some fun _ => pure (), metadata := { seed := some "2]" } }]

theorem validation_exact_and_sufficient_ragged :
    ragged.violations = [.factoryNotCallable "Ragged",
        .tooManySeeds (.suite "Ragged") 2 "[1:2:3]", .tooFewIterations (.suite "Ragged") 0,
        .hookNotCallable .beforeAll "Base" "open", .duplicateUnit (.unit "Ragged" "a"),
        .bodyNotCallable (.unit "Ragged" "a"), .duplicateUnit (.unit "Ragged" "a"),
        .tooManySeeds (.unit "Ragged" "a") 1 "[1:2]"] ∧
      ¬ragged.WellFormed ∧
      Runner.make ragged (some .unset) {} 7 = .error (.suite ragged.violations) ∧
      mended.WellFormed ∧
      ∃ r next, Runner.make mended (some .unset) {} 7 = .ok (r, next) ∧
        ∀ unit ∈ mended.units, ∃ c ∈ r.candidates, c.unit = unit := by
  have hragged : ragged.violations = [.factoryNotCallable "Ragged",
      .tooManySeeds (.suite "Ragged") 2 "[1:2:3]", .tooFewIterations (.suite "Ragged") 0,
      .hookNotCallable .beforeAll "Base" "open", .duplicateUnit (.unit "Ragged" "a"),
      .bodyNotCallable (.unit "Ragged" "a"), .duplicateUnit (.unit "Ragged" "a"),
      .tooManySeeds (.unit "Ragged" "a") 1 "[1:2]"] := by decide +kernel
  have hmended : mended.violations = [] := by decide +kernel
  obtain ⟨-, hiff, hrejected, -⟩ := validation_exact_and_sufficient ragged
  obtain ⟨-, hiff', -, haccepted⟩ := validation_exact_and_sufficient mended
  have hill : ¬ragged.WellFormed := fun h =>
    List.cons_ne_nil _ _ (hragged.symm.trans (hiff.mpr h))
  have hwell := hiff'.mp hmended
  obtain ⟨r, next, hmake, hunits, -⟩ := (haccepted hwell .unset).1 (by decide) {} 7
  exact ⟨hragged, hill, (hrejected hill).1 _ _ _, hwell, r, next, hmake, hunits⟩

/-- A suite with a unit that repeats one seed as often as no list can be long. -/
def endless : Suite Procedure where
  name := "Endless"
  factory := some { code := fun _ => pure () }
  units := [
    { name := "again", body := some fun _ => pure ()
      metadata := { repetition := some { iterations := 2 ^ 63, constantSeed := true } } }]

/-- Nothing is wrong with the suite, but there is no runner for it, nor are there seeds for a unit
of its own with a name that is broken. -/
theorem make_endless :
    endless.violations = [] ∧ endless.WellFormed ∧
      (∀ host sequence,
        Runner.make endless (some .unset) host sequence = .error (.derivation .tooMany)) ∧
      (SetupError.derivation .tooMany).complaint =
        ⟨.named "OverflowError", some "cannot fit 'int' into an index-sized integer"⟩ ∧
      Derivation.iterationSeeds ⟨endless.metadata, 1, none⟩ [.surrogate 0] {} 1 =
        .error (.name { start := 0, surrogates := [.surrogate 0] }) := by
  have hviolations : endless.violations = [] := by decide +kernel
  have hlong : endless.Overlong .unset := by decide +kernel
  exact ⟨hviolations, violations_eq_nil_iff.mp hviolations,
    Runner.make_of_overlong hviolations hlong, rfl, rfl⟩

end Suite
end SeededTesting
