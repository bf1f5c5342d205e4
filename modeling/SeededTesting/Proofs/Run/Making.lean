import SeededTesting.Proofs.Outcomes
import SeededTesting.Run.Runner

/-! # What a runner is made of

A runner holds the suite that it was made for, a configuration, the seeds that follow from both,
and one block of candidates for each unit.
-/

namespace SeededTesting

variable {Code : Type}

/-- The configuration of settings that fix nothing. -/
def RunConfig.unset : RunConfig where
  chain := []
  seeds_eq := rfl
  iterations_pos _ h := by cases h

/-- An expanded unit has as many candidates as it has seeds. -/
theorem UnitBlock.expand_eq_ok {suite : String} {d : Derivation} {config : RunConfig}
    {unit : TestUnit Code} {block : UnitBlock Code}
    (h : UnitBlock.expand suite d config unit = .ok block) :
    ∃ seeds, d.iterationSeeds unit.name unit.metadata
        (iterationCount unit.metadata d.metadata config).toNat = .ok seeds ∧
      block = .ofSeeds suite d.master unit (iterationCount unit.metadata d.metadata config)
        seeds := by
  obtain ⟨seeds, hseeds, hblock⟩ := exists_of_bind_eq_ok h
  cases hblock
  exact ⟨seeds, hseeds, rfl⟩

namespace Runner

/-- What a runner was made of. -/
structure MadeOf (r : Runner Code) (suite : Suite Code) (config : RunConfig) (clock : Int)
    (sequence sequence' : Nat) : Prop where
  suite_eq : r.suite = suite
  config_eq : r.config = config
  started : Derivation.start suite.metadata config sequence clock =
    .ok (r.derivation, sequence')
  expanded : List.Forall₂ (fun unit block =>
    UnitBlock.expand suite.name r.derivation config unit = .ok block) suite.units r.blocks

theorem madeOf_of_derive {suite : Suite Code} {config : RunConfig} {clock : Int}
    {sequence sequence' : Nat} {r : Runner Code}
    (h : derive suite config sequence clock = .ok (r, sequence')) :
    r.MadeOf suite config clock sequence sequence' := by
  obtain ⟨⟨derivation, next⟩, hstart, h⟩ := exists_of_bind_eq_ok h
  obtain ⟨blocks, hblocks, h⟩ := exists_of_bind_eq_ok h
  cases h
  exact ⟨rfl, rfl, mapError_eq_ok_iff.mp hstart, forall₂_of_mapM_eq_ok hblocks⟩

/-- A runner is made for a suite that holds up to its checks, from the given configuration if
there is one. -/
theorem make_eq_ok {suite : Suite Code} {config : Option RunConfig} {host : Host}
    {sequence sequence' : Nat} {r : Runner Code}
    (h : make suite config host sequence = .ok (r, sequence')) :
    suite.violations = [] ∧ ∃ checked, (∀ given, config = some given → checked = given) ∧
      r.MadeOf suite checked host.clock sequence sequence' := by
  have hderived : ∀ checked,
      (derive suite checked sequence host.clock).mapError SetupError.derivation = .ok (r, sequence') →
        r.MadeOf suite checked host.clock sequence sequence' := by
    intro checked h
    exact madeOf_of_derive (mapError_eq_ok_iff.mp h)
  unfold make at h
  cases hviolations : suite.violations with
  | cons v vs =>
      rw [hviolations] at h
      cases h
  | nil =>
      rw [hviolations] at h
      cases config with
      | some config =>
          refine ⟨rfl, config, ?_, hderived config h⟩
          intro given hgiven
          cases hgiven
          rfl
      | none =>
          obtain ⟨checked, -, h⟩ := exists_of_bind_eq_ok h
          refine ⟨rfl, checked, ?_, hderived checked h⟩
          intro given hgiven
          cases hgiven

/-- A configuration that is given is the one that the runner is made from. -/
theorem madeOf_of_make {suite : Suite Code} {config : RunConfig} {host : Host}
    {sequence sequence' : Nat} {r : Runner Code}
    (h : make suite (some config) host sequence = .ok (r, sequence')) :
    r.MadeOf suite config host.clock sequence sequence' := by
  obtain ⟨-, checked, hchecked, hmade⟩ := make_eq_ok h
  rwa [hchecked config rfl] at hmade

/-- A runner is set up from settings that hold up or from an environment. -/
theorem make_of_setUp {suite : Suite Code} {settings : Option Settings} {host : Host}
    {sequence sequence' : Nat} {r : Runner Code}
    (h : setUp suite settings host sequence = .ok (r, sequence')) :
    ∃ config, make suite config host sequence = .ok (r, sequence') := by
  unfold setUp at h
  cases settings with
  | none => exact ⟨none, h⟩
  | some settings =>
      obtain ⟨config, -, h⟩ := exists_of_bind_eq_ok h
      exact ⟨config, h⟩

/-- However a runner is set up, it is made of the suite and some configuration. -/
theorem madeOf_of_setUp {suite : Suite Code} {settings : Option Settings} {host : Host}
    {sequence sequence' : Nat} {r : Runner Code}
    (h : setUp suite settings host sequence = .ok (r, sequence')) :
    ∃ config, r.MadeOf suite config host.clock sequence sequence' := by
  obtain ⟨config, hmake⟩ := make_of_setUp h
  obtain ⟨-, checked, -, hmade⟩ := make_eq_ok hmake
  exact ⟨checked, hmade⟩

theorem mem_candidates_of_mem_survivors (r : Runner Code) {predicate : Option (String → Bool)}
    {c : Candidate Code} (h : c ∈ r.survivors predicate) : c ∈ r.candidates := by
  unfold survivors at h
  split at h
  · exact (List.mem_filter.mp h).1
  · cases h

/-- Without filters every candidate is run. -/
theorem survivors_of_unfiltered {r : Runner Code} (hsuite : r.config.targetSuite = none)
    (hunit : r.config.targetUnit = none) : r.survivors none = r.candidates := by
  unfold survivors
  rw [hsuite, Option.all_none, if_pos rfl, List.filter_eq_self]
  intro c _
  unfold keeps
  rw [hunit]
  rfl

namespace MadeOf

variable {r : Runner Code} {suite : Suite Code} {config : RunConfig} {clock : Int}
  {sequence sequence' : Nat}

/-- Every candidate is in the block of a unit of the suite. -/
theorem candidate_block (h : r.MadeOf suite config clock sequence sequence')
    {c : Candidate Code} (hc : c ∈ r.candidates) :
    ∃ unit ∈ suite.units, ∃ block ∈ r.blocks, c ∈ block.candidates ∧
      UnitBlock.expand suite.name r.derivation config unit = .ok block := by
  obtain ⟨block, hblock, hmem⟩ := List.mem_flatMap.mp hc
  have hblocks := h.expanded
  generalize r.blocks = blocks at hblock hblocks ⊢
  generalize suite.units = units at hblocks ⊢
  induction hblocks with
  | nil => cases hblock
  | cons hexpand _ ih =>
      rcases List.mem_cons.mp hblock with rfl | hrest
      · exact ⟨_, List.mem_cons_self, block, List.mem_cons_self, hmem, hexpand⟩
      · obtain ⟨unit, hunit, block', hblock', hrest⟩ := ih hrest
        exact ⟨unit, List.mem_cons_of_mem _ hunit, block', List.mem_cons_of_mem _ hblock', hrest⟩

theorem unit_mem (h : r.MadeOf suite config clock sequence sequence') {c : Candidate Code}
    (hc : c ∈ r.candidates) : c.unit ∈ suite.units := by
  obtain ⟨unit, hunit, block, -, hmem, hexpand⟩ := h.candidate_block hc
  obtain ⟨seeds, -, rfl⟩ := UnitBlock.expand_eq_ok hexpand
  obtain ⟨⟨seed, iteration⟩, -, rfl⟩ := List.mem_map.mp hmem
  exact hunit

/-- The name of a candidate tells its unit, its seeds and its suite. -/
theorem exists_name_eq (h : r.MadeOf suite config clock sequence sequence') {c : Candidate Code}
    (hc : c ∈ r.candidates) :
    ∃ count, c.name =
      DisplayName.format c.unit.name c.iteration count r.master c.seed suite.name := by
  obtain ⟨unit, -, block, -, hmem, hexpand⟩ := h.candidate_block hc
  obtain ⟨seeds, -, rfl⟩ := UnitBlock.expand_eq_ok hexpand
  obtain ⟨⟨seed, iteration⟩, -, rfl⟩ := List.mem_map.mp hmem
  exact ⟨_, rfl⟩

/-- What a derivation is made of. -/
theorem derivation_eq (h : r.MadeOf suite config clock sequence sequence') :
    r.derivation = ⟨suite.metadata, r.master, config.unitSeed⟩ := by
  have hstart := h.started
  unfold master
  unfold Derivation.start at hstart
  generalize r.derivation = derivation at hstart ⊢
  split at hstart
  · cases hstart
    rfl
  · obtain ⟨seed, -, hstart⟩ := exists_of_bind_eq_ok hstart
    cases hstart
    rfl
  · cases hstart
    rfl

theorem metadata_eq (h : r.MadeOf suite config clock sequence sequence') :
    r.derivation.metadata = suite.metadata := by
  rw [h.derivation_eq]

/-- What a suite is expanded to depends on its name, its metadata and its units only. -/
theorem blocks_eq_of_units {suite' : Suite Code} {r' : Runner Code} {config' : RunConfig}
    {clock' : Int} {next next' : Nat} (h : r.MadeOf suite config clock sequence sequence')
    (h' : r'.MadeOf suite' config' clock' next next') (hname : suite'.name = suite.name)
    (hmetadata : suite'.metadata = suite.metadata) (hunits : suite'.units = suite.units)
    (hmaster : r'.master = r.master) (hseed : config'.unitSeed = config.unitSeed)
    (hiterations : config'.iterations = config.iterations) :
    r'.blocks = r.blocks := by
  have hderivation : r'.derivation = r.derivation := by
    rw [h.derivation_eq, h'.derivation_eq, hmetadata, hmaster, hseed]
  have hexpand : ∀ unit : TestUnit Code,
      UnitBlock.expand suite'.name r'.derivation config' unit =
        UnitBlock.expand suite.name r.derivation config unit := by
    intro unit
    unfold UnitBlock.expand iterationCount
    rw [hname, hderivation, hiterations]
  have hexpanded := h'.expanded
  simp only [hexpand, hunits] at hexpanded
  refine List.right_unique_forall₂' (fun unit block block' hblock hblock' => ?_) hexpanded
    h.expanded
  rw [hblock] at hblock'
  exact Except.ok.inj hblock'

/-- Filters do not change what a suite is expanded to. -/
theorem blocks_eq {r' : Runner Code} {config' : RunConfig} {clock' : Int} {next next' : Nat}
    (h : r.MadeOf suite config clock sequence sequence')
    (h' : r'.MadeOf suite config' clock' next next') (hmaster : r'.master = r.master)
    (hseed : config'.unitSeed = config.unitSeed)
    (hiterations : config'.iterations = config.iterations) :
    r'.blocks = r.blocks :=
  h.blocks_eq_of_units h' rfl rfl rfl hmaster hseed hiterations

/-- A suite, a configuration and a master seed make one runner. -/
theorem eq_of_master {r' : Runner Code} {clock' : Int} {next next' : Nat}
    (h : r.MadeOf suite config clock sequence sequence')
    (h' : r'.MadeOf suite config clock' next next') (hmaster : r'.master = r.master) : r' = r := by
  have hsuite := h'.suite_eq.trans h.suite_eq.symm
  have hconfig := h'.config_eq.trans h.config_eq.symm
  have hderivation : r'.derivation = r.derivation := by
    rw [h.derivation_eq, h'.derivation_eq, hmaster]
  have hblocks := h.blocks_eq h' hmaster rfl rfl
  cases r
  cases r'
  simp only [mk.injEq]
  exact ⟨hsuite, hconfig, hderivation, hblocks⟩

end MadeOf
end Runner
end SeededTesting
