import SeededTesting.Proofs.Run.Overrides
import SeededTesting.Proofs.Suite.Validity

/-! # The printed seed of a run

A runner prints its master seed as a chain. Settings with this chain make the same candidates again,
wherever the master seed came from.
-/

namespace SeededTesting

variable {Code : Type}

/-- Settings with the seed that a runner prints. -/
def Settings.repeating (s : Settings) (r : Runner Code) : Settings :=
  { s with seed := some r.seedChain }

/-- Settings that repeat a runner hold up if its own did. -/
theorem RunConfig.exists_repeating (config : RunConfig) (r : Runner Code) :
    ∃ config', (config.toSettings.repeating r).check = .ok config' ∧
      config'.toSettings = config.toSettings.repeating r ∧ config'.chain = [r.master] := by
  refine Settings.exists_check ?_ config.iterations_pos
  have hparse : SeedChain.parse r.seedChain = .ok [r.master] :=
    SeedChain.parse_format (List.cons_ne_nil _ _)
  unfold Settings.seeds Settings.repeating
  dsimp only
  rw [hparse]
  rfl

namespace Runner

/-- A configured master seed uses up no sequence number. -/
theorem MadeOf.started_of_masterSeed {r : Runner Code} {suite : Suite Code} {config : RunConfig}
    {clock : Int} {sequence sequence' : Nat} (h : r.MadeOf suite config clock sequence sequence')
    {master : Seed} (hmaster : config.masterSeed = some master) :
    r.master = master ∧ sequence' = sequence := by
  have hstart := h.started
  rw [Derivation.start, hmaster] at hstart
  unfold Runner.master
  generalize r.derivation = derivation at hstart
  cases hstart
  exact ⟨rfl, rfl⟩

/-- For every suite that holds up to its checks and every configuration without a seed for the units
there is a runner, unless a unit is to repeat one seed more often than a list can be long. The seed
that the runner prints, in place of the configured one, makes the same candidates in the same tree,
whatever the clock says then, and uses up no sequence number. -/
theorem exists_repetition {suite : Suite Code} (hviolations : suite.violations = [])
    {config : RunConfig} (hchain : config.chain.length ≤ 1) (host : Host) (sequence : Nat) :
    (suite.Overlong config →
      make suite (some config) host sequence = .error (.derivation .tooMany)) ∧
      (¬suite.Overlong config → ∃ r sequence',
        make suite (some config) host sequence = .ok (r, sequence') ∧
          ∀ (host' : Host) (next : Nat), ∃ r',
            setUp suite (some (config.toSettings.repeating r)) host' next = .ok (r', next) ∧
              r'.master = r.master ∧ r'.candidates = r.candidates ∧
              r'.description = r.description) := by
  refine ⟨fun hlong => make_of_overlong hviolations hlong host sequence, fun hshort => ?_⟩
  obtain ⟨r, sequence', hmake⟩ := exists_make hviolations hshort host sequence
  refine ⟨r, sequence', hmake, fun host' next => ?_⟩
  have hmade := madeOf_of_make hmake
  obtain ⟨config', hcheck, hsettings, hchain'⟩ := config.exists_repeating r
  -- Neither configuration has a seed for the units, so the override branch is taken for neither.
  have hunitSeed : config'.unitSeed = config.unitSeed := by
    rw [RunConfig.unitSeed, RunConfig.unitSeed, hchain', List.getElem?_eq_none hchain]
    rfl
  have hiterations : config'.iterations = config.iterations := by
    rw [hsettings]
    rfl
  have hshort' : ¬suite.Overlong config' := by
    rwa [Suite.overlong_congr hunitSeed hiterations]
  obtain ⟨r', next', hmake'⟩ := exists_make hviolations hshort' host' next
  have hmade' := madeOf_of_make hmake'
  have hmasterSeed : config'.masterSeed = some r.master := by
    rw [RunConfig.masterSeed, hchain']
    rfl
  obtain ⟨hmaster, rfl⟩ := hmade'.started_of_masterSeed hmasterSeed
  have hblocks := hmade.blocks_eq hmade' hmaster hunitSeed hiterations
  refine ⟨r', ?_, hmaster, ?_, ?_⟩
  · rw [setUp, hcheck]
    exact hmake'
  · rw [candidates, candidates, hblocks]
  · rw [description, description, hblocks, hmade.suite_eq, hmade'.suite_eq]

end Runner

/-- A suite that declares a seed for its units, which one unit replaces by its own, and repeats
them with constant and with changing seeds. -/
def mixedSuite : Suite Unit where
  name := "Mixed"
  factory := some { code := () }
  metadata := { seed := some "[C0FFEE:7]", repetition := some ⟨2, true⟩ }
  units := [
    { name := "inherits", body := some () },
    { name := "declares", body := some (), metadata := { seed := some " d2 " } },
    { name := "varies", body := some (), metadata := { repetition := some ⟨3, false⟩ } }]

/-- The candidates of a suite with declared seeds are made again from the printed seed. -/
theorem Runner.exists_repetition_mixedSuite :
    mixedSuite.violations = [] ∧ RunConfig.unset.chain.length ≤ 1 ∧
      ∃ r sequence, make mixedSuite (some .unset) {} 5 = .ok (r, sequence) ∧
        r.seedChain = "[C0FFEE]" ∧ r.candidates.length = 7 ∧
        ∃ r', setUp mixedSuite (some (RunConfig.unset.toSettings.repeating r))
            { clock := 9 } 12 = .ok (r', 12) ∧
          r'.master = r.master ∧ r'.candidates = r.candidates ∧
          r'.description = r.description := by
  have hviolations : mixedSuite.violations = [] := by decide +kernel
  have hchain : RunConfig.unset.chain.length ≤ 1 := Nat.zero_le 1
  obtain ⟨r, sequence, hmake, hagain⟩ :=
    (exists_repetition hviolations hchain {} 5).2 (by decide)
  obtain ⟨made, hmade, hprinted, hlength⟩ : ∃ made,
      make mixedSuite (some .unset) {} 5 = .ok (made, 5) ∧ made.seedChain = "[C0FFEE]" ∧
        made.candidates.length = 7 := ⟨_, rfl, by decide +kernel, by decide +kernel⟩
  rw [hmake] at hmade
  cases hmade
  exact ⟨hviolations, hchain, r, 5, hmake, hprinted, hlength, hagain _ _⟩

end SeededTesting
