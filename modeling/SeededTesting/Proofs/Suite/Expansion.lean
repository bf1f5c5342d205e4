import SeededTesting.Proofs.Seed.Iterations
import SeededTesting.Proofs.Suite.Validity

/-! # Expansion of suites

Each unit of a suite is expanded by itself: to one candidate for each of its iterations, in order,
whatever other units there are. The description tree groups the same candidates by their units, so
its leaves are the candidates again, in the same order.
-/

namespace SeededTesting

variable {Code : Type}

/-! ## Leaves -/

namespace Description

theorem leavesOfAll_eq_flatMap (descriptions : List Description) :
    leavesOfAll descriptions = descriptions.flatMap leaves := by
  induction descriptions with
  | nil => rfl
  | cons child rest ih => rw [leavesOfAll, List.flatMap_cons, ih]

/-- The leaves of a node with children are those of its children. -/
theorem leaves_node {name : String} {children : List Description} (h : children ≠ []) :
    (node name children).leaves = children.flatMap leaves := by
  cases children with
  | nil => exact absurd rfl h
  | cons child rest =>
      rw [leaves, leavesOfAll_eq_flatMap, List.flatMap_cons]

theorem flatMap_leaves_leaf (names : List String) :
    (names.map leaf).flatMap leaves = names := by
  induction names with
  | nil => rfl
  | cons name rest ih =>
      rw [List.map_cons, List.flatMap_cons, ih]
      rfl

end Description

/-! ## Iterations -/

theorem Metadata.iterations_pos_of_violations {place : Place} {limit : Nat} {m : Metadata}
    (h : m.violations place limit = []) {r : Repetition} (hr : m.repetition = some r) :
    1 ≤ r.iterations := by
  obtain ⟨-, hrepetition⟩ := List.append_eq_nil_iff.mp h
  by_contra hfew
  have hflag : decide (r.iterations < 1) = true := decide_eq_true (by omega)
  rw [repetitionViolations, hr] at hrepetition
  dsimp only at hrepetition
  rw [flag, hflag, if_pos rfl] at hrepetition
  cases hrepetition

/-- Every unit of a suite that holds up to its checks is run at least once. -/
theorem Suite.iterationCount_pos {suite : Suite Code} (h : suite.violations = [])
    {unit : TestUnit Code} (hunit : unit ∈ suite.units) (config : RunConfig) :
    1 ≤ iterationCount unit.metadata suite.metadata config := by
  have hdeclared := metadata_violations_of_mem h hunit
  unfold iterationCount
  split
  next n hn => exact config.iterations_pos n hn
  next r _ hr => exact Metadata.iterations_pos_of_violations hdeclared hr
  next r _ _ hr => exact Metadata.iterations_pos_of_violations (own_violations h) hr
  next => exact Int.le_refl 1

/-! ## Blocks -/

namespace UnitBlock

/-- A block holds one candidate of its unit for each iteration, with the seeds and the names of the
iterations. -/
structure Unrolls (block : UnitBlock Code) (suite : String) (d : Derivation) (config : RunConfig)
    (unit : TestUnit Code) : Prop where
  unit_eq : block.unit = unit
  count_eq : block.count = iterationCount unit.metadata d.metadata config
  count_pos : 1 ≤ block.count
  units : ∀ c ∈ block.candidates, c.unit = unit
  iterations : block.candidates.map (·.iteration) = List.range block.count.toNat
  seeds : d.iterationSeeds unit.name unit.metadata block.count.toNat =
    .ok (block.candidates.map (·.seed))
  names : ∀ c ∈ block.candidates,
    c.name = DisplayName.format unit.name c.iteration block.count d.master c.seed suite

theorem unrolls_of_expand {suite : String} {d : Derivation} {config : RunConfig}
    {unit : TestUnit Code} {block : UnitBlock Code}
    (hexpand : expand suite d config unit = .ok block)
    (hcount : 1 ≤ iterationCount unit.metadata d.metadata config) :
    block.Unrolls suite d config unit := by
  obtain ⟨seeds, hseeds, rfl⟩ := expand_eq_ok hexpand
  have hlength := Derivation.length_iterationSeeds hseeds
  refine ⟨rfl, rfl, hcount, ?_, ?_, ?_, ?_⟩
  · intro c hc
    obtain ⟨_, -, rfl⟩ := List.mem_map.mp hc
    rfl
  · change (seeds.zipIdx.map _).map _ = _
    rw [List.map_map]
    change seeds.zipIdx.map Prod.snd = List.range _
    rw [List.zipIdx_map_snd, hlength, List.range_eq_range']
    rfl
  · change _ = Except.ok ((seeds.zipIdx.map _).map _)
    rw [List.map_map]
    change _ = Except.ok (seeds.zipIdx.map Prod.fst)
    rw [List.zipIdx_map_fst]
    exact hseeds
  · intro c hc
    obtain ⟨_, -, rfl⟩ := List.mem_map.mp hc
    rfl

/-- A description stands for a block: that of its only candidate, or else a node that is named after
the unit and has the descriptions of the candidates as its children. -/
def Shows (child : Description) (block : UnitBlock Code) : Prop :=
  (block.count = 1 → ∃ c, block.candidates = [c] ∧ child = .leaf c.name) ∧
    (block.count ≠ 1 →
      child = .node block.unit.name (block.candidates.map fun c => .leaf c.name))

namespace Unrolls

variable {block : UnitBlock Code} {suite : String} {d : Derivation} {config : RunConfig}
  {unit : TestUnit Code}

theorem length_candidates (h : block.Unrolls suite d config unit) :
    (block.candidates.length : Int) = block.count := by
  have hlength := congrArg List.length h.iterations
  have hpos := h.count_pos
  rw [List.length_map, List.length_range] at hlength
  omega

/-- A configured seed of the units is the seed of every iteration. -/
theorem seed_of_override (h : block.Unrolls suite d config unit) {seed : Seed}
    (hoverride : d.override = some seed) {c : Candidate Code} (hc : c ∈ block.candidates) :
    c.seed = seed := by
  obtain ⟨base, hbase, -, hseeds⟩ := Derivation.exists_unitSeed_of_iterationSeeds h.seeds
  have hconstant : d.constantSeed unit.metadata = true := by rw [Derivation.constantSeed, hoverride]
  rw [Derivation.unitSeed, hoverride] at hbase
  cases hbase
  rw [if_pos hconstant] at hseeds
  have hmem : c.seed ∈ block.candidates.map (·.seed) := List.mem_map_of_mem hc
  rw [hseeds] at hmem
  exact List.eq_of_mem_replicate hmem

/-- A block has one description in the tree. -/
theorem exists_shows (h : block.Unrolls suite d config unit) :
    ∃ child, block.descriptions = [child] ∧ Shows child block := by
  have hlength := h.length_candidates
  have hpos := h.count_pos
  by_cases hcount : block.count = 1
  · obtain ⟨c, hc⟩ := List.length_eq_one_iff.mp (by omega : block.candidates.length = 1)
    refine ⟨.leaf c.name, ?_, fun _ => ⟨c, hc, rfl⟩, fun hrepeated => absurd hcount hrepeated⟩
    have hsingle : ¬ block.count > 1 := by omega
    rw [descriptions, if_neg hsingle, hc]
    rfl
  · refine ⟨_, ?_, fun hsingle => absurd hsingle hcount, fun _ => rfl⟩
    have hrepeated : block.count > 1 := by omega
    rw [descriptions, if_pos hrepeated]

/-- The leaves of a description are the candidates of its block. -/
theorem leaves_of_shows (h : block.Unrolls suite d config unit) {child : Description}
    (hshows : Shows child block) : child.leaves = block.candidates.map (·.name) := by
  by_cases hcount : block.count = 1
  · obtain ⟨c, hc, rfl⟩ := hshows.1 hcount
    rw [hc]
    rfl
  · have hne : block.candidates ≠ [] := by
      intro hempty
      have hlength := h.length_candidates
      have hpos := h.count_pos
      rw [hempty, List.length_nil] at hlength
      omega
    rw [hshows.2 hcount, Description.leaves_node (by simpa using hne),
      ← Description.flatMap_leaves_leaf (block.candidates.map (·.name)), List.map_map]
    rfl

end Unrolls

/-- What a unit is expanded to, if it can be. -/
def planned (suite : String) (d : Derivation) (config : RunConfig) (unit : TestUnit Code) :
    UnitBlock Code :=
  match expand suite d config unit with
  | .ok block => block
  | .error _ => { unit, count := 0, candidates := [] }

end UnitBlock

/-! ## Suites -/

section Children

variable {name : String} {d : Derivation} {config : RunConfig}
  {block : TestUnit Code → UnitBlock Code} {units : List (TestUnit Code)}
  (h : ∀ unit ∈ units, (block unit).Unrolls name d config unit)

include h

/-- There is one description for each unit, in order. -/
theorem UnitBlock.shows_descriptions :
    List.Forall₂ (fun child unit => Shows child (block unit))
      ((units.map block).flatMap descriptions) units := by
  induction units with
  | nil => exact .nil
  | cons unit rest ih =>
      rw [List.forall_mem_cons] at h
      obtain ⟨child, hchild, hshows⟩ := h.1.exists_shows
      rw [List.map_cons, List.flatMap_cons, hchild]
      exact .cons hshows (ih h.2)

/-- The leaves of the descriptions are the candidates, in order. -/
theorem UnitBlock.leaves_descriptions :
    ((units.map block).flatMap descriptions).flatMap Description.leaves =
      (units.flatMap fun unit => (block unit).candidates).map (·.name) := by
  induction units with
  | nil => rfl
  | cons unit rest ih =>
      rw [List.forall_mem_cons] at h
      obtain ⟨child, hchild, hshows⟩ := h.1.exists_shows
      rw [List.map_cons, List.flatMap_cons, hchild, List.singleton_append, List.flatMap_cons,
        List.flatMap_cons, List.map_append, h.1.leaves_of_shows hshows, ih h.2]

end Children

namespace Suite

variable {suite : Suite Code} {d : Derivation} {config : RunConfig}

/-- A unit of a suite that holds up to its checks is unrolled if it is expanded. -/
theorem unrolls_of_expand (h : suite.violations = []) (hd : d.metadata = suite.metadata)
    {unit : TestUnit Code} (hunit : unit ∈ suite.units) {block : UnitBlock Code}
    (hexpand : UnitBlock.expand suite.name d config unit = .ok block) :
    block.Unrolls suite.name d config unit := by
  apply UnitBlock.unrolls_of_expand hexpand
  rw [hd]
  exact iterationCount_pos h hunit config

/-- A unit of a suite that holds up to its checks is expanded as planned, unless it is to repeat one
seed too often. -/
theorem expand_unit_eq_planned (h : suite.violations = []) (hd : d.metadata = suite.metadata)
    {unit : TestUnit Code} (hunit : unit ∈ suite.units)
    (hshort : ¬UnitBlock.Overlong d config unit) :
    UnitBlock.expand suite.name d config unit =
      .ok (UnitBlock.planned suite.name d config unit) := by
  obtain ⟨block, hblock⟩ : ∃ block, UnitBlock.expand suite.name d config unit = .ok block :=
    UnitBlock.exists_expand (hd ▸ (readable h).own) ((readable h).units unit hunit) hshort
  rw [UnitBlock.planned, hblock]

section Made

variable {r : Runner Code} {clock : Int} {sequence sequence' : Nat}
  (hmade : r.MadeOf suite config clock sequence sequence')

include hmade

/-- Where there is a runner, every unit was expanded as planned. -/
theorem expand_unit_of_made {unit : TestUnit Code} (hunit : unit ∈ suite.units) :
    UnitBlock.expand suite.name r.derivation config unit =
      .ok (UnitBlock.planned suite.name r.derivation config unit) := by
  obtain ⟨block, -, hblock⟩ := exists_mem_of_forall₂ hmade.expanded hunit
  rw [UnitBlock.planned, hblock]

theorem blocks_eq_planned :
    r.blocks = suite.units.map (UnitBlock.planned suite.name r.derivation config) :=
  Except.ok.inj ((mapM_eq_ok_of_forall₂ hmade.expanded).symm.trans
    (mapM_eq_ok fun _ hunit => expand_unit_of_made hmade hunit))

theorem unrolls_planned (h : suite.violations = []) {unit : TestUnit Code}
    (hunit : unit ∈ suite.units) :
    (UnitBlock.planned suite.name r.derivation config unit).Unrolls suite.name r.derivation config
      unit :=
  unrolls_of_expand h hmade.metadata_eq hunit (expand_unit_of_made hmade hunit)

/-- A runner has the candidates that are planned for its units, one unit after another. -/
theorem candidates_eq_planned :
    r.candidates = suite.units.flatMap fun unit =>
      (UnitBlock.planned suite.name r.derivation config unit).candidates := by
  rw [Runner.candidates, blocks_eq_planned hmade, List.flatMap_map]

end Made

theorem leaves_describe {block : TestUnit Code → UnitBlock Code} (hne : suite.units ≠ [])
    (h : ∀ unit ∈ suite.units, (block unit).Unrolls suite.name d config unit) :
    (suite.describe (suite.units.map block)).leaves =
      (suite.units.flatMap fun unit => (block unit).candidates).map (·.name) := by
  rw [describe, Description.leaves_node, UnitBlock.leaves_descriptions h]
  intro hempty
  have hshows := UnitBlock.shows_descriptions h
  rw [hempty, List.forall₂_nil_left_iff] at hshows
  exact hne hshows

/-- For suites with one name and one metadata, a configuration and a master seed there is one
expansion of units: each suite that holds up to its checks is expanded to the blocks of its units in
declaration order, whatever its other units are. Each block holds as many candidates of its unit as
it has iterations, with the indices from zero on and the seeds of the iterations. The root of the
tree has one child for each unit, in order: the description of its only candidate, or else a node
named after the unit above those of its candidates. The leaves of the tree are the candidates. There
is a runner for each such suite, and one with this master seed has these candidates and this
tree. A suite with a unit that is to repeat one seed too often is not expanded at all, and has no
runner. -/
theorem expand_unit_by_unit (name : String) (metadata : Metadata) (config : RunConfig)
    (master : Seed) :
    ∃ block : TestUnit Code → UnitBlock Code, ∀ suite : Suite Code, suite.violations = [] →
      suite.units ≠ [] → suite.name = name → suite.metadata = metadata →
        (suite.Overlong config →
          suite.expand ⟨metadata, master, config.unitSeed⟩ config = .error .tooMany ∧
          ∀ (host : Host) (sequence : Nat),
            Runner.make suite (some config) host sequence = .error (.derivation .tooMany)) ∧
        (¬suite.Overlong config →
          suite.expand ⟨metadata, master, config.unitSeed⟩ config =
            .ok (suite.units.map block) ∧
          (∀ unit ∈ suite.units,
            (block unit).Unrolls name ⟨metadata, master, config.unitSeed⟩ config unit) ∧
          List.Forall₂ (fun child unit => UnitBlock.Shows child (block unit))
            (suite.describe (suite.units.map block)).children suite.units ∧
          (suite.describe (suite.units.map block)).leaves =
            (suite.units.flatMap fun unit => (block unit).candidates).map (·.name) ∧
          ∀ (host : Host) (sequence : Nat), ∃ r next,
            Runner.make suite (some config) host sequence = .ok (r, next) ∧
              (r.master = master →
                r.candidates = suite.units.flatMap (fun unit => (block unit).candidates) ∧
                  r.description = suite.describe (suite.units.map block))) := by
  -- The blocks are chosen before the suite, so they cannot depend on its other units.
  refine ⟨UnitBlock.planned name ⟨metadata, master, config.unitSeed⟩ config, ?_⟩
  rintro suite hviolations hne rfl rfl
  refine ⟨fun hlong => ⟨(readable hviolations).expand_of_overlong master hlong,
    Runner.make_of_overlong hviolations hlong⟩, fun hshort => ?_⟩
  let d : Derivation := ⟨suite.metadata, master, config.unitSeed⟩
  have hexpand : ∀ unit ∈ suite.units, UnitBlock.expand suite.name d config unit =
      .ok (UnitBlock.planned suite.name d config unit) := fun unit hunit =>
    expand_unit_eq_planned hviolations rfl hunit fun hlong => hshort ⟨unit, hunit, hlong⟩
  have hunrolls : ∀ unit ∈ suite.units,
      (UnitBlock.planned suite.name d config unit).Unrolls suite.name d config unit :=
    fun unit hunit => unrolls_of_expand hviolations rfl hunit (hexpand unit hunit)
  refine ⟨mapM_eq_ok hexpand, hunrolls, UnitBlock.shows_descriptions hunrolls,
    leaves_describe hne hunrolls, fun host sequence => ?_⟩
  obtain ⟨r, next, hmake⟩ := Runner.exists_make hviolations hshort host sequence
  refine ⟨r, next, hmake, ?_⟩
  rintro rfl
  -- The derivation of the runner is that of the plan, so it has the same blocks.
  have hmade := Runner.madeOf_of_make hmake
  have hcandidates := candidates_eq_planned hmade
  have hblocks := blocks_eq_planned hmade
  rw [hmade.derivation_eq] at hcandidates hblocks
  refine ⟨hcandidates, ?_⟩
  rw [Runner.description, hmade.suite_eq, hblocks]

/-- A suite that repeats its units, with one that is run once and one whose iterations share a
seed. -/
def grouped : Suite Unit where
  name := "Grouped"
  factory := some { code := () }
  metadata := { seed := some "[C0FFEE:7]", repetition := some { iterations := 3 } }
  units := [
    { name := "varies", body := some () },
    { name := "single", body := some (), metadata := { repetition := some {} } },
    { name := "shares", body := some (), metadata := { repetition := some ⟨2, true⟩ } }]

/-- The suite with its units in another order, one of them replaced. -/
def regrouped : Suite Unit :=
  { grouped with
    units := [
      { name := "shares", body := some (), metadata := { repetition := some ⟨2, true⟩ } },
      { name := "varies", body := some () },
      { name := "declares", body := some (), metadata := { seed := some "d2" } }] }

/-- The same units are expanded to the same blocks in both suites, and a runner of the first has
them. -/
theorem expand_unit_by_unit_grouped :
    grouped.violations = [] ∧ grouped.units ≠ [] ∧ regrouped.violations = [] ∧
      regrouped.units ≠ [] ∧ ∃ block : TestUnit Unit → UnitBlock Unit,
        grouped.expand ⟨grouped.metadata, 0xC0FFEE, none⟩ .unset =
            .ok (grouped.units.map block) ∧
          regrouped.expand ⟨grouped.metadata, 0xC0FFEE, none⟩ .unset =
            .ok (regrouped.units.map block) ∧
          (grouped.describe (grouped.units.map block)).children.length = 3 ∧
          (grouped.describe (grouped.units.map block)).leaves =
            (grouped.units.flatMap fun unit => (block unit).candidates).map (·.name) ∧
          ∃ r next, Runner.make grouped (some .unset) {} 0 = .ok (r, next) ∧
            r.master = 0xC0FFEE ∧
            r.candidates = grouped.units.flatMap (fun unit => (block unit).candidates) ∧
            r.description = grouped.describe (grouped.units.map block) := by
  have hviolations : grouped.violations = [] := by decide +kernel
  have hviolations' : regrouped.violations = [] := by decide +kernel
  have hunits : grouped.units ≠ [] := List.cons_ne_nil _ _
  have hunits' : regrouped.units ≠ [] := List.cons_ne_nil _ _
  obtain ⟨block, hblock⟩ := expand_unit_by_unit grouped.name grouped.metadata .unset 0xC0FFEE
  obtain ⟨hexpand, -, hchildren, hleaves, hrunner⟩ :=
    (hblock grouped hviolations hunits rfl rfl).2 (by decide)
  obtain ⟨hexpand', -⟩ := (hblock regrouped hviolations' hunits' rfl rfl).2 (by decide)
  obtain ⟨r, next, hmake, hsame⟩ := hrunner {} 0
  have hmaster : r.master = 0xC0FFEE := by
    have hmade := Runner.madeOf_of_make hmake
    have hstart : Derivation.start grouped.metadata .unset 0 0 =
        .ok (⟨grouped.metadata, 0xC0FFEE, none⟩, 0) := by decide +kernel
    have hderivation := hmade.started.symm.trans hstart
    rw [Runner.master, (Prod.mk.inj (Except.ok.inj hderivation)).1]
  exact ⟨hviolations, hunits, hviolations', hunits', block, hexpand, hexpand',
    hchildren.length_eq, hleaves, r, next, hmake, hmaster, hsame hmaster⟩

end Suite

end SeededTesting
