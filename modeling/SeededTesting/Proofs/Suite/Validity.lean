import SeededTesting.Proofs.Run.Making
import SeededTesting.Proofs.Seed.Iterations

/-! # Suites that hold up to their checks

All that a suite without violations declares can be used: its seeds are chains that can be read. So
there is a runner for it in every configuration, unless a unit is to repeat one seed more often than
a list can be long.
-/

namespace SeededTesting

variable {Code : Type}

/-! ## Declarations -/

/-- The chain that is declared, if any, can be read. -/
def Metadata.Readable (m : Metadata) : Prop :=
  ∀ chain, m.seed = some chain → ∃ seeds, SeedChain.parse chain = .ok seeds

theorem Metadata.readable_of_violations {place : Place} {limit : Nat} {m : Metadata}
    (h : m.violations place limit = []) : m.Readable := by
  intro chain hchain
  obtain ⟨hseed, -⟩ := List.append_eq_nil_iff.mp h
  unfold seedViolations at hseed
  rw [hchain] at hseed
  dsimp only at hseed
  cases hparse : SeedChain.parse chain with
  | error reason =>
      rw [hparse] at hseed
      cases hseed
  | ok seeds => exact ⟨seeds, rfl⟩

/-- What units declare holds up to its checks if they do. -/
theorem TestUnit.metadata_violations_of_mem {suite : String} {earlier : List String}
    {units : List (TestUnit Code)} (h : listViolations suite earlier units = [])
    {unit : TestUnit Code} (hunit : unit ∈ units) :
    unit.metadata.violations (.unit suite unit.name) 1 = [] := by
  induction units generalizing earlier with
  | nil => cases hunit
  | cons first rest ih =>
      rw [listViolations, List.append_eq_nil_iff] at h
      rcases List.mem_cons.mp hunit with rfl | hrest
      · have hviolations := h.1
        unfold violations at hviolations
        exact (List.append_eq_nil_iff.mp hviolations).2
      · exact ih h.2 hrest

namespace Suite

theorem own_violations {suite : Suite Code} (h : suite.violations = []) :
    suite.metadata.violations (.suite suite.name) 2 = [] := by
  unfold violations at h
  simp only [List.append_eq_nil_iff] at h
  exact h.1.1.2

theorem metadata_violations_of_mem {suite : Suite Code} (h : suite.violations = [])
    {unit : TestUnit Code} (hunit : unit ∈ suite.units) :
    unit.metadata.violations (.unit suite.name unit.name) 1 = [] := by
  unfold violations at h
  exact TestUnit.metadata_violations_of_mem (List.append_eq_nil_iff.mp h).2 hunit

end Suite

/-- The declared chains of a suite and of its units can be read. -/
structure Suite.Readable (suite : Suite Code) : Prop where
  own : suite.metadata.Readable
  units : ∀ unit ∈ suite.units, unit.metadata.Readable

theorem Suite.readable {suite : Suite Code} (h : suite.violations = []) : suite.Readable where
  own := Metadata.readable_of_violations (own_violations h)
  units _ hunit := Metadata.readable_of_violations (metadata_violations_of_mem h hunit)

/-! ## Seeds -/

namespace Derivation

/-- A chain that can be read has an outermost seed. -/
theorem exists_firstSeed {metadata : Metadata} (h : metadata.Readable) {chain : String}
    (hchain : metadata.seed = some chain) : ∃ seed, firstSeed chain = .ok seed := by
  obtain ⟨seeds, hparse⟩ := h chain hchain
  exact ⟨seeds.headD 0, bind_eq_of_eq_ok hparse _⟩

theorem exists_start {metadata : Metadata} (h : metadata.Readable) (config : RunConfig)
    (sequence : Nat) (clock : Int) :
    ∃ master next,
      start metadata config sequence clock = .ok (⟨metadata, master, config.unitSeed⟩, next) := by
  unfold start
  split
  next => exact ⟨_, _, rfl⟩
  next chain _ hchain =>
    obtain ⟨master, hmaster⟩ := exists_firstSeed h hchain
    exact ⟨_, _, bind_eq_of_eq_ok hmaster _⟩
  next => exact ⟨_, _, rfl⟩

/-- The base seed of a unit with this declaration is made from its name: neither the configuration
nor the unit nor the second seed of the suite fixes it. -/
structure Hashes (d : Derivation) (declared : Metadata) : Prop where
  override : d.override = none
  undeclared : declared.seed = none
  short : ∀ chain seeds, d.metadata.seed = some chain → SeedChain.parse chain = .ok seeds →
    seeds.length < 2

theorem Hashes.unitSeed_eq {d : Derivation} {declared : Metadata} (hhashes : d.Hashes declared)
    (h : d.metadata.Readable) (unit : Text.CodePoints) :
    d.unitSeed unit declared = d.hashedSeed unit := by
  unfold unitSeed
  rw [hhashes.override, hhashes.undeclared]
  dsimp only
  unfold inheritedSeed
  cases hchain : d.metadata.seed with
  | none => rfl
  | some chain =>
      obtain ⟨seeds, hparse⟩ := h chain hchain
      have hsecond : seeds[1]? = none :=
        List.getElem?_eq_none (Nat.le_of_lt_succ (hhashes.short chain seeds hchain hparse))
      dsimp only
      rw [bind_eq_of_eq_ok (mapError_eq_ok_iff.mpr hparse), hsecond]

/-- A unit whose base seed is fixed has it whatever its name is. -/
theorem exists_unitSeed_of_not_hashes {d : Derivation} {declared : Metadata}
    (hfixed : ¬d.Hashes declared) (h : d.metadata.Readable) (hdeclared : declared.Readable)
    (unit : Text.CodePoints) : ∃ seed, d.unitSeed unit declared = .ok seed := by
  unfold unitSeed
  split
  next seed _ => exact ⟨seed, rfl⟩
  next hchain =>
    obtain ⟨seed, hseed⟩ := exists_firstSeed hdeclared hchain
    exact ⟨seed, mapError_eq_ok_iff.mpr hseed⟩
  next hoverride hundeclared =>
    -- Only the chain of the suite is left to fix the seed, so it has a second one.
    unfold inheritedSeed
    cases hchain : d.metadata.seed with
    | none =>
        refine absurd ⟨hoverride, hundeclared, fun chain seeds h => ?_⟩ hfixed
        rw [hchain] at h
        cases h
    | some chain =>
        obtain ⟨seeds, hparse⟩ := h chain hchain
        dsimp only
        rw [bind_eq_of_eq_ok (mapError_eq_ok_iff.mpr hparse)]
        split
        next seed _ => exact ⟨seed, rfl⟩
        next hsecond =>
          refine absurd ⟨hoverride, hundeclared, fun chain' seeds' h h' => ?_⟩ hfixed
          cases hchain.symm.trans h
          cases hparse.symm.trans h'
          exact Nat.lt_succ_of_le (List.getElem?_eq_none_iff.mp hsecond)

theorem hashedSeed_eq_error_iff {d : Derivation} {unit : Text.CodePoints}
    {reason : DerivationError} :
    d.hashedSeed unit = .error reason ↔ unit.Broken ∧ reason = .name unit.encodingError := by
  unfold hashedSeed nameHash
  cases hutf8 : unit.utf8 with
  | ok bytes =>
      have hwhole : ¬unit.Broken := by
        intro hbroken
        cases hutf8.symm.trans (Text.CodePoints.utf8_eq_error_iff.mpr ⟨hbroken, rfl⟩)
      exact iff_of_false (fun h => nomatch h) fun h => hwhole h.1
  | error e =>
      obtain ⟨hbroken, rfl⟩ := Text.CodePoints.utf8_eq_error_iff.mp hutf8
      constructor
      · intro h
        cases h
        exact ⟨hbroken, rfl⟩
      · rintro ⟨-, rfl⟩
        rfl

/-- A unit that declares a chain that can be read lacks a base seed just if this is to be made from
a broken name. -/
theorem unitSeed_eq_error_iff {d : Derivation} (h : d.metadata.Readable) {declared : Metadata}
    (hdeclared : declared.Readable) {unit : Text.CodePoints} {reason : DerivationError} :
    d.unitSeed unit declared = .error reason ↔
      d.Hashes declared ∧ unit.Broken ∧ reason = .name unit.encodingError := by
  by_cases hhashes : d.Hashes declared
  · rw [hhashes.unitSeed_eq h, hashedSeed_eq_error_iff]
    exact (and_iff_right hhashes).symm
  · obtain ⟨seed, hseed⟩ := exists_unitSeed_of_not_hashes hhashes h hdeclared unit
    rw [hseed]
    exact iff_of_false (fun h => nomatch h) fun h => hhashes h.1

theorem exists_unitSeed {d : Derivation} (h : d.metadata.Readable) (unit : String)
    {declared : Metadata} (hdeclared : declared.Readable) :
    ∃ seed, d.unitSeed unit declared = .ok seed := by
  cases hunit : d.unitSeed unit declared with
  | ok seed => exact ⟨seed, rfl⟩
  | error reason =>
      obtain ⟨-, hbroken, -⟩ := (unitSeed_eq_error_iff h hdeclared).mp hunit
      exact absurd hbroken (Text.CodePoints.not_broken_ofString unit)

/-- Why the iterations of a unit have no seeds. -/
inductive Fails (d : Derivation) (unit : Text.CodePoints) (declared : Metadata) (count : Nat) :
    DerivationError → Prop
  | name (hashes : d.Hashes declared) (broken : unit.Broken) :
      Fails d unit declared count (.name unit.encodingError)
  | tooMany (named : d.Hashes declared → ¬unit.Broken) (long : d.Overlong declared count) :
      Fails d unit declared count .tooMany

/-- Where declared chains can be read, nothing else can go wrong with the seeds of iterations. -/
theorem iterationSeeds_eq_error_iff {d : Derivation} (h : d.metadata.Readable)
    {declared : Metadata} (hdeclared : declared.Readable) {unit : Text.CodePoints} {count : Nat}
    {reason : DerivationError} :
    d.iterationSeeds unit declared count = .error reason ↔ d.Fails unit declared count reason := by
  cases hunit : d.unitSeed unit declared with
  | error reason' =>
      obtain ⟨hhashes, hbroken, rfl⟩ := (unitSeed_eq_error_iff h hdeclared).mp hunit
      rw [iterationSeeds_of_error hunit]
      constructor
      · intro h
        cases h
        exact .name hhashes hbroken
      · rintro (_ | ⟨hnamed, -⟩)
        · rfl
        · exact absurd hbroken (hnamed hhashes)
  | ok base =>
      have hnamed : d.Hashes declared → ¬unit.Broken := by
        intro hhashes hbroken
        cases hunit.symm.trans ((unitSeed_eq_error_iff h hdeclared).mpr ⟨hhashes, hbroken, rfl⟩)
      by_cases hlong : d.Overlong declared count
      · rw [iterationSeeds_of_overlong hunit hlong]
        constructor
        · intro h
          cases h
          exact .tooMany hnamed hlong
        · rintro (⟨hhashes, hbroken⟩ | _)
          · exact absurd hbroken (hnamed hhashes)
          · rfl
      · rw [iterationSeeds_of_unitSeed hunit hlong]
        refine iff_of_false (fun h => nomatch h) ?_
        rintro (⟨hhashes, hbroken⟩ | ⟨-, hlong'⟩)
        · exact hnamed hhashes hbroken
        · exact hlong hlong'

end Derivation

/-- A unit is to repeat one seed more often than a list can be long. -/
def UnitBlock.Overlong (d : Derivation) (config : RunConfig) (unit : TestUnit Code) : Prop :=
  d.Overlong unit.metadata (iterationCount unit.metadata d.metadata config).toNat

/-- Whatever the master seed is, a unit of a suite is to repeat one seed more often than a list can
be long. -/
def Suite.Overlong (suite : Suite Code) (config : RunConfig) : Prop :=
  ∃ unit ∈ suite.units, UnitBlock.Overlong ⟨suite.metadata, 0, config.unitSeed⟩ config unit

instance (d : Derivation) (config : RunConfig) (unit : TestUnit Code) :
    Decidable (UnitBlock.Overlong d config unit) :=
  inferInstanceAs (Decidable (d.Overlong _ _))

instance (suite : Suite Code) (config : RunConfig) : Decidable (suite.Overlong config) :=
  inferInstanceAs (Decidable (∃ _ ∈ _, _))

/-- Only the seed for units and the number of iterations are looked at. -/
theorem Suite.overlong_congr {suite : Suite Code} {config config' : RunConfig}
    (hseed : config'.unitSeed = config.unitSeed)
    (hiterations : config'.iterations = config.iterations) :
    suite.Overlong config' ↔ suite.Overlong config := by
  unfold Suite.Overlong UnitBlock.Overlong iterationCount
  rw [hseed, hiterations]

/-- A unit is expanded where declared chains can be read, unless it has too many iterations. -/
theorem UnitBlock.exists_expand {suite : String} {d : Derivation} (hd : d.metadata.Readable)
    {unit : TestUnit Code} (hunit : unit.metadata.Readable) {config : RunConfig}
    (hshort : ¬Overlong d config unit) : ∃ block, expand suite d config unit = .ok block := by
  obtain ⟨base, hbase⟩ := Derivation.exists_unitSeed hd unit.name hunit
  exact ⟨_, bind_eq_of_eq_ok (Derivation.iterationSeeds_of_unitSeed hbase hshort) _⟩

theorem UnitBlock.expand_of_overlong {suite : String} {d : Derivation}
    (hd : d.metadata.Readable) {unit : TestUnit Code} (hunit : unit.metadata.Readable)
    {config : RunConfig} (hlong : Overlong d config unit) :
    expand suite d config unit = .error .tooMany := by
  obtain ⟨base, hbase⟩ := Derivation.exists_unitSeed hd unit.name hunit
  rw [expand, Derivation.iterationSeeds_of_overlong hbase hlong]
  rfl

/-! ## Runners -/

namespace Suite.Readable

variable {suite : Suite Code} (h : suite.Readable) {config : RunConfig} (master : Seed)

include h

theorem exists_expand (hshort : ¬suite.Overlong config) :
    ∃ blocks, suite.expand ⟨suite.metadata, master, config.unitSeed⟩ config = .ok blocks :=
  exists_mapM_eq_ok fun unit hunit =>
    UnitBlock.exists_expand h.own (h.units unit hunit) fun hlong => hshort ⟨unit, hunit, hlong⟩

theorem expand_of_overlong (hlong : suite.Overlong config) :
    suite.expand ⟨suite.metadata, master, config.unitSeed⟩ config = .error .tooMany := by
  refine mapM_eq_error (fun unit hunit => ?_) ?_
  · by_cases hunitLong : UnitBlock.Overlong ⟨suite.metadata, master, config.unitSeed⟩ config unit
    · exact .inr (UnitBlock.expand_of_overlong h.own (h.units unit hunit) hunitLong)
    · exact .inl (UnitBlock.exists_expand h.own (h.units unit hunit) hunitLong)
  · obtain ⟨unit, hunit, hunitLong⟩ := hlong
    exact ⟨unit, hunit, UnitBlock.expand_of_overlong h.own (h.units unit hunit) hunitLong⟩

end Suite.Readable

/-- Whether there is a runner for a suite that holds up to its checks depends on its expansion. -/
theorem Runner.exists_make_eq {suite : Suite Code} (h : suite.violations = []) (config : RunConfig)
    (host : Host) (sequence : Nat) :
    ∃ master next, make suite (some config) host sequence =
      ((suite.expand ⟨suite.metadata, master, config.unitSeed⟩ config).map fun blocks =>
        (⟨suite, config, ⟨suite.metadata, master, config.unitSeed⟩, blocks⟩, next)).mapError
          .derivation := by
  obtain ⟨master, next, hstart⟩ :=
    Derivation.exists_start (Suite.readable h).own config sequence host.clock
  refine ⟨master, next, ?_⟩
  rw [make, h]
  change (derive suite config sequence host.clock).mapError SetupError.derivation = _
  rw [derive, hstart]
  rfl

/-- There is a runner for every suite that holds up to its checks, unless one of its units is to
repeat one seed too often. -/
theorem Runner.exists_make {suite : Suite Code} (h : suite.violations = []) {config : RunConfig}
    (hshort : ¬suite.Overlong config) (host : Host) (sequence : Nat) :
    ∃ r next, make suite (some config) host sequence = .ok (r, next) := by
  obtain ⟨master, next, hmake⟩ := exists_make_eq h config host sequence
  obtain ⟨blocks, hblocks⟩ := (Suite.readable h).exists_expand master hshort
  rw [hblocks] at hmake
  exact ⟨_, next, hmake⟩

theorem Runner.make_of_overlong {suite : Suite Code} (h : suite.violations = [])
    {config : RunConfig} (hlong : suite.Overlong config) (host : Host) (sequence : Nat) :
    make suite (some config) host sequence = .error (.derivation .tooMany) := by
  obtain ⟨master, next, hmake⟩ := exists_make_eq h config host sequence
  rw [hmake, (Suite.readable h).expand_of_overlong master hlong]
  rfl

end SeededTesting
