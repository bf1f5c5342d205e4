import SeededTesting.Proofs.Run.Making
import SeededTesting.Proofs.Seed.RoundTrip

/-! # Settings that run one candidate again

The chain of a candidate, written into the settings together with the name of its unit and a single
iteration, makes a runner with the same master seed, of whose candidates just one passes the filter
by unit: one of the same unit with the same seed.
-/

namespace SeededTesting

variable {Code : Type}

/-! ## Settings -/

/-- Settings that run one candidate again. -/
def Settings.reproducing (s : Settings) (master : Seed) (c : Candidate Code) : Settings :=
  { s with
    seed := some (SeedChain.format [master, c.seed])
    iterations := some 1
    targetUnit := some c.unit.name }

/-- A chain that is set gives its seeds if it can be read and has one or two of them. -/
theorem Settings.seeds_eq_ok_iff {s : Settings} {text : String} (h : s.seed = some text)
    {chain : List Seed} : s.seeds = .ok chain ↔
      SeedChain.parse text = .ok chain ∧ 1 ≤ chain.length ∧ chain.length ≤ 2 := by
  unfold seeds
  rw [h]
  dsimp only
  cases hparse : SeedChain.parse text with
  | error reason => simp
  | ok seeds =>
      dsimp only
      have hcount : (seeds.isEmpty || decide (seeds.length > 2)) = true ↔
          ¬(1 ≤ seeds.length ∧ seeds.length ≤ 2) := by
        cases seeds with
        | nil => simp
        | cons seed rest =>
            simp only [List.isEmpty_cons, Bool.false_or, decide_eq_true_eq, List.length_cons]
            omega
      by_cases h : 1 ≤ seeds.length ∧ seeds.length ≤ 2
      · rw [if_neg fun hfew => hcount.mp hfew h, Except.ok.injEq, Except.ok.injEq]
        exact ⟨fun heq => ⟨heq, heq ▸ h⟩, fun heq => heq.1⟩
      · rw [if_pos (hcount.mpr h), Except.ok.injEq]
        exact ⟨fun hnone => (nomatch hnone), fun heq => absurd (heq.1 ▸ heq.2) h⟩

/-- Settings hold up if their seeds can be read and a number of iterations is positive. -/
theorem Settings.exists_check {s : Settings} {chain : List Seed} (hseeds : s.seeds = .ok chain)
    (hiterations : ∀ n, s.iterations = some n → 1 ≤ n) :
    ∃ config, s.check = .ok config ∧ config.toSettings = s ∧ config.chain = chain := by
  unfold check
  split
  next e heq =>
    rw [hseeds] at heq
    cases heq
  next chain' heq =>
    rw [hseeds] at heq
    cases heq
    split
    next => exact ⟨_, rfl, rfl, rfl⟩
    next n hn => exact ⟨_, dif_neg (Int.not_lt.mpr (hiterations n hn)), rfl, rfl⟩

/-- Settings that run a candidate again hold up. -/
theorem Settings.check_reproducing (s : Settings) (master : Seed) (c : Candidate Code) :
    ∃ config, (s.reproducing master c).check = .ok config ∧
      config.toSettings = s.reproducing master c ∧ config.chain = [master, c.seed] := by
  have hparse : SeedChain.parse (SeedChain.format [master, c.seed]) = .ok [master, c.seed] :=
    SeedChain.parse_format (List.cons_ne_nil _ _)
  refine exists_check ?_ ?_
  · unfold seeds reproducing
    dsimp only
    rw [hparse]
    rfl
  · rintro n ⟨⟩
    exact Int.le_refl 1

/-! ## Suites -/

/-- The names of units that come after others and hold up to their checks are all different. -/
theorem TestUnit.nodup_of_listViolations {suite : String} {earlier : List String}
    {units : List (TestUnit Code)} (h : listViolations suite earlier units = []) :
    (units.map (·.name)).Nodup ∧ ∀ unit ∈ units, unit.name ∉ earlier := by
  induction units generalizing earlier with
  | nil => exact ⟨List.nodup_nil, List.forall_mem_nil _⟩
  | cons unit rest ih =>
      rw [listViolations, List.append_eq_nil_iff] at h
      obtain ⟨hnodup, hlater⟩ := ih h.2
      have hname : unit.name ∉ earlier := by
        have hflag := h.1
        unfold violations flag at hflag
        simp only [List.append_eq_nil_iff] at hflag
        intro hmem
        have hcontains : earlier.contains unit.name = true := List.contains_iff_mem.mpr hmem
        have hnone := hflag.1.1.2
        rw [if_pos hcontains] at hnone
        cases hnone
      refine ⟨List.nodup_cons.mpr ⟨?_, hnodup⟩, ?_⟩
      · intro hmem
        obtain ⟨other, hother, heq⟩ := List.mem_map.mp hmem
        exact hlater other hother (heq ▸ List.mem_cons_self)
      · intro other hother
        rcases List.mem_cons.mp hother with rfl | hother
        · exact hname
        · exact fun hmem => hlater other hother (List.mem_cons_of_mem _ hmem)

theorem Suite.nodup_names {suite : Suite Code} (h : suite.violations = []) :
    (suite.units.map (·.name)).Nodup := by
  unfold violations at h
  exact (TestUnit.nodup_of_listViolations (List.append_eq_nil_iff.mp h).2).1

/-- Units with different names are told apart by them. -/
theorem TestUnit.filter_name {units : List (TestUnit Code)}
    (hnodup : (units.map (·.name)).Nodup) {unit : TestUnit Code} (h : unit ∈ units) :
    units.filter (fun other => decide (unit.name = other.name)) = [unit] := by
  induction units with
  | nil => cases h
  | cons first rest ih =>
      rw [List.map_cons, List.nodup_cons] at hnodup
      rcases List.mem_cons.mp h with rfl | hrest
      · have hnone : rest.filter (fun other => decide (unit.name = other.name)) = [] := by
          rw [List.filter_eq_nil_iff]
          intro other hother heq
          exact hnodup.1 (List.mem_map.mpr ⟨other, hother, (of_decide_eq_true heq).symm⟩)
        rw [List.filter_cons, hnone, if_pos (decide_eq_true rfl)]
      · have hne : unit.name ≠ first.name := by
          intro heq
          exact hnodup.1 (List.mem_map.mpr ⟨unit, hrest, heq⟩)
        rw [List.filter_cons_of_neg (by simpa using hne), ih hnodup.2 hrest]

/-! ## Runners -/

/-- A candidate of a unit that is run once. -/
def Candidate.once (suite : String) (master seed : Seed) (unit : TestUnit Code) :
    Candidate Code where
  unit := unit
  iteration := 0
  seed := seed
  name := DisplayName.format unit.name 0 1 master seed suite

namespace Runner

/-- Where the chain of a configuration has two seeds, a runner for one iteration is made from them
alone. -/
theorem make_of_chain {suite : Suite Code} (hviolations : suite.violations = [])
    {config : RunConfig} {master seed : Seed} (hchain : config.chain = [master, seed])
    (hiterations : config.iterations = some 1) (host : Host) (sequence : Nat) :
    ∃ r, make suite (some config) host sequence = .ok (r, sequence) ∧ r.master = master ∧
      r.suite = suite ∧ r.config = config ∧
      r.candidates = suite.units.map (Candidate.once suite.name master seed) := by
  let derivation : Derivation := ⟨suite.metadata, master, some seed⟩
  have hstart : Derivation.start suite.metadata config sequence host.clock =
      .ok (derivation, sequence) := by
    rw [Derivation.start, RunConfig.masterSeed, RunConfig.unitSeed, hchain]
    rfl
  -- With a seed for units and a number of iterations, no metadata of a unit is looked at.
  have hexpand : ∀ unit : TestUnit Code, UnitBlock.expand suite.name derivation config unit =
      .ok (.ofSeeds suite.name master unit 1 [seed]) := by
    intro unit
    rw [UnitBlock.expand, iterationCount, hiterations]
    rfl
  let r : Runner Code := {
    suite, config, derivation
    blocks := suite.units.map fun unit => .ofSeeds suite.name master unit 1 [seed] }
  have hderive : derive suite config sequence host.clock = .ok (r, sequence) := by
    rw [derive, hstart]
    change (suite.expand derivation config >>= _) = _
    rw [Suite.expand, mapM_eq_ok fun unit _ => hexpand unit]
    rfl
  refine ⟨r, ?_, rfl, rfl, rfl, ?_⟩
  · rw [make, hviolations]
    change (derive suite config sequence host.clock).mapError SetupError.derivation = _
    rw [hderive]
    rfl
  · rw [candidates, List.flatMap_map]
    exact List.map_eq_flatMap.symm

/-- Just one candidate of the runner that runs a candidate again passes the filter by unit. -/
theorem filter_candidates_once {suite : Suite Code} (hviolations : suite.violations = [])
    {unit : TestUnit Code} (hunit : unit ∈ suite.units) (master seed : Seed) :
    (suite.units.map (Candidate.once suite.name master seed)).filter
        (fun d => decide (unit.name = d.unit.name)) =
      [Candidate.once suite.name master seed unit] := by
  have hfilter := TestUnit.filter_name (Suite.nodup_names hviolations) hunit
  rw [List.filter_map]
  exact congrArg (List.map _) hfilter

end Runner
end SeededTesting
