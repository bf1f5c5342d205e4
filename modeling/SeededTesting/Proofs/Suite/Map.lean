import Mathlib.Data.List.Forall2
import SeededTesting.Proofs.Hooks.Order
import SeededTesting.Proofs.Script.Codes
import SeededTesting.Proofs.Run.Making
import SeededTesting.Run.Runner

/-! # Suites with other codes

What the collaborators of a suite do can be replaced throughout. Checks, seeds, names and orders do
not look at it, so a runner that is made for the new suite is the runner of the old one with the
codes replaced. A suite of scripts is run in this way.
-/

namespace SeededTesting

variable {Code Code' : Type} (f : Code → Code')

/-! ## Suites -/

def Hook.map (hook : Hook Code) : Hook Code' where
  name := hook.name
  label := hook.label
  code := hook.code.map f

def Level.map (level : Level Code) : Level Code' where
  owner := level.owner
  beforeAll := level.beforeAll.map (Hook.map f)
  beforeEach := level.beforeEach.map (Hook.map f)
  afterEach := level.afterEach.map (Hook.map f)
  afterAll := level.afterAll.map (Hook.map f)

def TestUnit.map (unit : TestUnit Code) : TestUnit Code' where
  name := unit.name
  metadata := unit.metadata
  ignored := unit.ignored
  body := unit.body.map f

def Factory.map (factory : Factory Code) : Factory Code' where
  code := f factory.code
  yields := factory.yields

def Rule.map (rule : Rule Code) : Rule Code' where
  tag := rule.tag
  build := f rule.build
  before := f rule.before
  times := rule.times
  after := f rule.after
  swallow := rule.swallow

def Reactions.map (reactions : Reactions Code) : Reactions Code' where
  started := f reactions.started
  ignored := f reactions.ignored
  assumptionFailed := f reactions.assumptionFailed
  failed := f reactions.failed
  finished := f reactions.finished

def ListenerFactory.map (factory : ListenerFactory Code) : ListenerFactory Code' where
  tag := factory.tag
  shared := factory.shared
  create := f factory.create
  reactions := factory.reactions.map f

def Suite.map (suite : Suite Code) : Suite Code' where
  name := suite.name
  factory := suite.factory.map (Factory.map f)
  units := suite.units.map (TestUnit.map f)
  levels := suite.levels.map (Level.map f)
  metadata := suite.metadata
  listeners := suite.listeners.map (ListenerFactory.map f)
  rules := suite.rules.map (Rule.map f)

def Candidate.map (c : Candidate Code) : Candidate Code' where
  unit := c.unit.map f
  iteration := c.iteration
  seed := c.seed
  name := c.name

def UnitBlock.map (block : UnitBlock Code) : UnitBlock Code' where
  unit := block.unit.map f
  count := block.count
  candidates := block.candidates.map (Candidate.map f)

def Runner.map (r : Runner Code) : Runner Code' where
  suite := r.suite.map f
  config := r.config
  derivation := r.derivation
  blocks := r.blocks.map (UnitBlock.map f)

theorem Reactions.map_on (reactions : Reactions Code) (kind : NotificationKind) :
    (reactions.map f).on kind = f (reactions.on kind) := by
  cases kind <;> rfl

@[simp] theorem Level.map_hooks (level : Level Code) (phase : Phase) :
    (level.map f).hooks phase = (level.hooks phase).map (Hook.map f) := by
  cases phase <;> rfl

/-! ## Codes that stay -/

section Id

theorem Hook.map_id (hook : Hook Code) : hook.map id = hook := by
  rw [map, Option.map_id_apply]

theorem Level.map_id (level : Level Code) : level.map id = level := by
  have hhooks : Hook.map (id : Code → Code) = id := funext Hook.map_id
  simp only [map, hhooks, List.map_id]

theorem TestUnit.map_id (unit : TestUnit Code) : unit.map id = unit := by
  rw [map, Option.map_id_apply]

theorem Suite.map_id (suite : Suite Code) : suite.map id = suite := by
  have hfactory : Factory.map (id : Code → Code) = id := rfl
  have hunits : TestUnit.map (id : Code → Code) = id := funext TestUnit.map_id
  have hlevels : Level.map (id : Code → Code) = id := funext Level.map_id
  have hlisteners : ListenerFactory.map (id : Code → Code) = id := rfl
  have hrules : Rule.map (id : Code → Code) = id := rfl
  simp only [map, hfactory, hunits, hlevels, hlisteners, hrules, List.map_id, Option.map_id_apply]

theorem Candidate.map_id (c : Candidate Code) : c.map id = c := by
  rw [map, TestUnit.map_id]

theorem Runner.map_id (r : Runner Code) : r.map id = r := by
  have hcandidates : Candidate.map (id : Code → Code) = id := funext Candidate.map_id
  have hblocks : UnitBlock.map (id : Code → Code) = id := by
    funext block
    simp only [UnitBlock.map, TestUnit.map_id, hcandidates, List.map_id, id]
  simp only [map, Suite.map_id, hblocks, List.map_id]

end Id

/-! ## Codes that are replaced twice -/

section Comp

variable {Code'' : Type} {f : Code → Code'} (g : Code' → Code'')

theorem Level.map_map (level : Level Code) : (level.map f).map g = level.map (g ∘ f) := by
  have hhooks : Hook.map g ∘ Hook.map f = Hook.map (g ∘ f) := by
    funext hook
    simp only [Function.comp_apply, Hook.map, Option.map_map]
  simp only [map, List.map_map, hhooks]

theorem Suite.map_map (suite : Suite Code) : (suite.map f).map g = suite.map (g ∘ f) := by
  have hfactory : Factory.map g ∘ Factory.map f = Factory.map (g ∘ f) := rfl
  have hunits : TestUnit.map g ∘ TestUnit.map f = TestUnit.map (g ∘ f) := by
    funext unit
    simp only [Function.comp_apply, TestUnit.map, Option.map_map]
  have hlevels : Level.map g ∘ Level.map f = Level.map (g ∘ f) := funext fun level =>
    level.map_map g
  have hlisteners : ListenerFactory.map g ∘ ListenerFactory.map f = ListenerFactory.map (g ∘ f) :=
    rfl
  have hrules : Rule.map g ∘ Rule.map f = Rule.map (g ∘ f) := rfl
  simp only [map, List.map_map, Option.map_map, hfactory, hunits, hlevels, hlisteners, hrules]

end Comp

/-! ## Orders of hooks -/

theorem Array.map_swapIfInBounds {α β : Type} (g : α → β) (entries : Array α) (i j : Nat) :
    (entries.swapIfInBounds i j).map g = (entries.map g).swapIfInBounds i j := by
  apply Array.ext
  · simp
  · intro k h h'
    simp only [Array.swapIfInBounds_def, Array.getElem_map, Array.size_map]
    grind

theorem Twister.shuffleUpTo_map {α β : Type} (g : α → β) (last : Nat) (entries : Array α)
    (t : Twister) :
    shuffleUpTo last (entries.map g) t =
      ((shuffleUpTo last entries t).1.map g, (shuffleUpTo last entries t).2) := by
  induction last generalizing entries t with
  | zero => rfl
  | succ last ih =>
      unfold shuffleUpTo
      dsimp only
      rw [← Array.map_swapIfInBounds]
      exact ih _ _

/-- Shuffling does not look at what it shuffles. -/
theorem Twister.shuffle_map {α β : Type} (g : α → β) (t : Twister) (entries : List α) :
    t.shuffle (entries.map g) = ((t.shuffle entries).1.map g, (t.shuffle entries).2) := by
  have hmap : (entries.map g).toArray = entries.toArray.map g := List.map_toArray.symm
  unfold shuffle
  rw [hmap, List.length_map, shuffleUpTo_map]
  simp only [Array.toList_map]

theorem shuffleGroups_map {α β : Type} (g : α → β) (groups : List (List α)) (t : Twister) :
    shuffleGroups (groups.map (·.map g)) t =
      ((shuffleGroups groups t).1.map (·.map g), (shuffleGroups groups t).2) := by
  induction groups generalizing t with
  | nil => rfl
  | cons group groups ih =>
      rw [List.map_cons, shuffleGroups, shuffleGroups, t.shuffle_map]
      dsimp only
      rw [ih]
      rfl

theorem Level.sortedHooks_map (level : Level Code) (phase : Phase) :
    (level.map f).sortedHooks phase = (level.sortedHooks phase).map (Hook.map f) := by
  rw [sortedHooks, sortedHooks, map_hooks]
  have hnames : ∀ a ∈ level.hooks phase, ∀ b ∈ level.hooks phase,
      decide (a.name ≤ b.name) = decide ((a.map f).name ≤ (b.map f).name) :=
    fun _ _ _ _ => rfl
  exact (List.map_mergeSort hnames).symm

/-- The order of hooks does not depend on what they do. -/
theorem hooksFor_map (levels : List (Level Code)) (phase : Phase) (active : Int) :
    hooksFor (levels.map (Level.map f)) phase active =
      (hooksFor levels phase active).map (Hook.map f) := by
  have hgroups : hookGroups (levels.map (Level.map f)) phase =
      (hookGroups levels phase).map (·.map (Hook.map f)) := by
    have hsorted : (levels.map (Level.map f)).map (·.sortedHooks phase) =
        (levels.map (·.sortedHooks phase)).map (·.map (Hook.map f)) := by
      rw [List.map_map, List.map_map]
      exact List.map_congr_left fun level _ => level.sortedHooks_map f phase
    unfold hookGroups
    rw [hsorted]
    split
    · exact List.map_reverse.symm
    · rfl
  unfold hooksFor resolveHooks
  rw [hgroups, shuffleGroups_map]
  exact List.map_flatten.symm

/-! ## Runners -/

theorem Level.violations_map (level : Level Code) :
    (level.map f).violations = level.violations := by
  unfold violations
  refine List.flatMap_congr fun phase _ => ?_
  rw [map_hooks, List.flatMap_map]
  exact List.flatMap_congr fun hook _ => by rw [Hook.map, Option.isNone_map]; rfl

theorem TestUnit.listViolations_map (suite : String) (earlier : List String)
    (units : List (TestUnit Code)) :
    listViolations suite earlier (units.map (TestUnit.map f)) =
      listViolations suite earlier units := by
  induction units generalizing earlier with
  | nil => rfl
  | cons unit rest ih =>
      have hunit : (unit.map f).violations suite earlier = unit.violations suite earlier := by
        unfold violations map
        rw [Option.isNone_map]
      rw [List.map_cons, listViolations, listViolations, hunit]
      exact congrArg _ (ih _)

/-- Replacing codes makes a suite neither better nor worse. -/
theorem Suite.violations_map (suite : Suite Code) :
    (suite.map f).violations = suite.violations := by
  have hlevels : (suite.levels.map (Level.map f)).flatMap Level.violations =
      suite.levels.flatMap Level.violations := by
    rw [List.flatMap_map]
    exact List.flatMap_congr fun level _ => level.violations_map f
  unfold violations map
  rw [hlevels, TestUnit.listViolations_map, Option.isNone_map]

theorem UnitBlock.expand_map (suite : String) (d : Derivation) (config : RunConfig)
    (unit : TestUnit Code) :
    UnitBlock.expand suite d config (unit.map f) =
      (UnitBlock.expand suite d config unit).map (UnitBlock.map f) := by
  unfold expand TestUnit.map
  dsimp only
  generalize iterationCount unit.metadata d.metadata config = count
  cases d.iterationSeeds unit.name unit.metadata count.toNat with
  | error e => rfl
  | ok seeds =>
      have hblock : ofSeeds suite d.master (unit.map f) count seeds =
          (ofSeeds suite d.master unit count seeds).map f := by
        unfold ofSeeds map
        rw [List.map_map]
        rfl
      exact congrArg Except.ok hblock

theorem Suite.expand_map (suite : Suite Code) (d : Derivation) (config : RunConfig) :
    (suite.map f).expand d config =
      (suite.expand d config).map (List.map (UnitBlock.map f)) := by
  unfold expand
  change (suite.units.map (TestUnit.map f)).mapM _ = _
  induction suite.units with
  | nil => rfl
  | cons unit rest ih =>
      rw [List.map_cons, List.mapM_cons, List.mapM_cons, ih]
      change UnitBlock.expand suite.name d config (unit.map f) >>= _ = _
      rw [UnitBlock.expand_map]
      cases UnitBlock.expand suite.name d config unit with
      | error e => rfl
      | ok block =>
          change (Except.map _ (List.mapM _ rest) >>= _) = Except.map _ (List.mapM _ rest >>= _)
          cases List.mapM (UnitBlock.expand suite.name d config) rest <;> rfl

/-- Runners are made alike for suites that differ in what their collaborators do. -/
theorem Runner.make_map (suite : Suite Code) (config : Option RunConfig) (host : Host)
    (sequence : Nat) :
    make (suite.map f) config host sequence =
      (make suite config host sequence).map fun made => (made.1.map f, made.2) := by
  have hderive : ∀ checked, derive (suite.map f) checked sequence host.clock =
      (derive suite checked sequence host.clock).map fun made => (made.1.map f, made.2) := by
    intro checked
    unfold derive
    change ((Derivation.start suite.metadata checked sequence host.clock).mapError _ >>= _) = _
    cases Derivation.start suite.metadata checked sequence host.clock with
    | error e => rfl
    | ok started =>
        obtain ⟨derivation, next⟩ := started
        change ((suite.map f).expand derivation checked >>= _) =
          Except.map _ (suite.expand derivation checked >>= _)
        rw [Suite.expand_map]
        cases suite.expand derivation checked <;> rfl
  have hderived : ∀ checked, (derive (suite.map f) checked sequence host.clock).mapError
      SetupError.derivation =
        ((derive suite checked sequence host.clock).mapError SetupError.derivation).map
          fun made => (made.1.map f, made.2) := by
    intro checked
    rw [hderive]
    cases derive suite checked sequence host.clock <;> rfl
  -- Neither the checks nor the settings look at a code, so each branch maps as a whole.
  unfold make
  rw [suite.violations_map f]
  by_cases hviolations : suite.violations.isEmpty
  · simp only [hviolations]
    cases config with
    | some config => exact hderived config
    | none =>
        change (Except.mapError _ host.environment.config >>= _) =
          Except.map _ (Except.mapError _ host.environment.config >>= _)
        cases host.environment.config with
        | error e => rfl
        | ok config => exact hderived config
  · simp only [hviolations]
    rfl

/-- The same with settings that are checked before. -/
theorem Runner.setUp_map (suite : Suite Code) (settings : Option Settings) (host : Host)
    (sequence : Nat) :
    setUp (suite.map f) settings host sequence =
      (setUp suite settings host sequence).map fun made => (made.1.map f, made.2) := by
  cases settings with
  | none => exact make_map f suite none host sequence
  | some settings =>
      cases hcheck : settings.check with
      | error e =>
          rw [setUp, setUp, hcheck]
          rfl
      | ok config =>
          rw [setUp, setUp, hcheck]
          exact make_map f suite (some config) host sequence

/-! ## Suites of scripts -/

/-- To run a suite of scripts is to replace every script by its procedure. -/
theorem Script.suiteProcedures_eq_map (host : Host) (suite : Suite Script) :
    suiteProcedures host suite = suite.map (procedure host) := by
  obtain ⟨name, factory, units, levels, metadata, listeners, rules⟩ := suite
  have hfactory : factoryProcedure? host factory = factory.map (Factory.map (procedure host)) := by
    cases factory with
    | none => rfl
    | some factory =>
        rw [factoryProcedure?, factoryProcedure]
        rfl
  have hunit : unitProcedure host = TestUnit.map (procedure host) := by
    funext unit
    obtain ⟨name, metadata, ignored, body⟩ := unit
    rw [unitProcedure, procedure?_eq]
    rfl
  have hhook : hookProcedure host = Hook.map (procedure host) := by
    funext hook
    obtain ⟨name, label, code⟩ := hook
    rw [hookProcedure, procedure?_eq]
    rfl
  have hlevel : levelProcedure host = Level.map (procedure host) := by
    funext level
    obtain ⟨owner, beforeAll, beforeEach, afterEach, afterAll⟩ := level
    rw [levelProcedure]
    simp only [hookProcedures_eq, hhook]
    rfl
  have hlistener : listenerProcedure host = ListenerFactory.map (procedure host) := by
    funext factory
    obtain ⟨tag, shared, create, reactions⟩ := factory
    rw [listenerProcedure, reactionProcedures]
    rfl
  have hrule : ruleProcedure host = Rule.map (procedure host) := by
    funext rule
    obtain ⟨tag, build, before, times, after, swallow⟩ := rule
    rw [ruleProcedure]
    rfl
  rw [suiteProcedures, hfactory, unitProcedures_eq, levelProcedures_eq, listenerProcedures_eq,
    ruleProcedures_eq, hunit, hlevel, hlistener, hrule]
  rfl

/-- A runner of scripts is made for a suite of scripts, and runners for the suites that come of it
are made of this one. -/
theorem Runner.exists_plan {host origin : Host} {suite : Suite Script} {config : Option RunConfig}
    {sequence sequence' : Nat} {r : Runner Procedure}
    (hmake : make (Script.suiteProcedures host suite) config origin sequence =
      .ok (r, sequence')) :
    ∃ plan : Runner Script, r = plan.map (Script.procedure host) ∧ plan.suite = suite ∧
      (∀ c ∈ plan.candidates, c.unit ∈ plan.suite.units) ∧
      ∀ f : Script → Procedure,
        make (suite.map f) config origin sequence = .ok (plan.map f, sequence') := by
  rw [Script.suiteProcedures_eq_map, make_map] at hmake
  cases hplan : make suite config origin sequence with
  | error e =>
      rw [hplan] at hmake
      cases hmake
  | ok made =>
      obtain ⟨plan, next⟩ := made
      obtain ⟨-, checked, -, hmade⟩ := make_eq_ok hplan
      rw [hplan] at hmake
      cases hmake
      refine ⟨plan, rfl, hmade.suite_eq, fun c hc => ?_, fun f => ?_⟩
      · rw [hmade.suite_eq]
        exact hmade.unit_mem hc
      · rw [make_map, hplan]
        rfl

/-! ## Suites whose codes compare -/

section Pairs

variable {A B C : Type} (Q : A → B → Prop)

structure Hook.Pairs (hook : Hook A) (hook' : Hook B) : Prop where
  label : hook'.label = hook.label
  code : Option.Rel Q hook.code hook'.code

structure TestUnit.Pairs (unit : TestUnit A) (unit' : TestUnit B) : Prop where
  name : unit'.name = unit.name
  metadata : unit'.metadata = unit.metadata
  ignored : unit'.ignored = unit.ignored
  body : Option.Rel Q unit.body unit'.body

structure Factory.Pairs (factory : Factory A) (factory' : Factory B) : Prop where
  code : Q factory.code factory'.code
  yields : factory'.yields = factory.yields

structure Rule.Pairs (rule : Rule A) (rule' : Rule B) : Prop where
  tag : rule'.tag = rule.tag
  build : Q rule.build rule'.build
  before : Q rule.before rule'.before
  times : rule'.times = rule.times
  after : Q rule.after rule'.after
  swallow : rule'.swallow = rule.swallow

structure ListenerFactory.Pairs (factory : ListenerFactory A) (factory' : ListenerFactory B) :
    Prop where
  tag : factory'.tag = factory.tag
  shared : factory'.shared = factory.shared
  create : Q factory.create factory'.create
  reactions : ∀ kind, Q (factory.reactions.on kind) (factory'.reactions.on kind)

structure Candidate.Pairs (c : Candidate A) (c' : Candidate B) : Prop where
  unit : c.unit.Pairs Q c'.unit
  seed : c'.seed = c.seed
  name : c'.name = c.name

theorem Candidate.Pairs.imp {Q Q' : A → B → Prop} (himp : ∀ a b, Q a b → Q' a b)
    {c : Candidate A} {c' : Candidate B} (hc : c.Pairs Q c') : c.Pairs Q' c' := by
  refine ⟨⟨hc.unit.name, hc.unit.metadata, hc.unit.ignored, ?_⟩, hc.seed, hc.name⟩
  have hbody := hc.unit.body
  generalize c.unit.body = body at hbody ⊢
  generalize c'.unit.body = body' at hbody ⊢
  cases hbody with
  | none => exact .none
  | some hcode => exact .some (himp _ _ hcode)

/-- Runners of suites that differ in what their collaborators do, and perhaps in their hooks. -/
structure Runner.Pairs (r : Runner A) (r' : Runner B) : Prop where
  name : r'.suite.name = r.suite.name
  metadata : r'.suite.metadata = r.suite.metadata
  config : r'.config = r.config
  master : r'.master = r.master
  factory : Option.Rel (Factory.Pairs Q) r.suite.factory r'.suite.factory
  rules : List.Forall₂ (Rule.Pairs Q) r.suite.rules r'.suite.rules
  listeners : List.Forall₂ (ListenerFactory.Pairs Q) r.suite.listeners r'.suite.listeners
  candidates : List.Forall₂ (Candidate.Pairs Q) r.candidates r'.candidates

variable {Q} {g : C → A} {h : C → B}

theorem Option.rel_map {o : Option C} (hrel : ∀ code, o = some code → Q (g code) (h code)) :
    Option.Rel Q (o.map g) (o.map h) := by
  cases o with
  | none => exact .none
  | some code => exact .some (hrel code rfl)

theorem List.forall₂_map {α β γ : Type} {R : α → β → Prop} {F : γ → α} {G : γ → β} {l : List γ}
    (hrel : ∀ a ∈ l, R (F a) (G a)) : List.Forall₂ R (l.map F) (l.map G) := by
  rw [List.forall₂_map_left_iff, List.forall₂_map_right_iff, List.forall₂_same]
  exact hrel

theorem Candidate.pairs_map {c : Candidate C}
    (hcode : ∀ code, c.unit.body = some code → Q (g code) (h code)) :
    (c.map g).Pairs Q (c.map h) :=
  ⟨⟨rfl, rfl, rfl, Option.rel_map hcode⟩, rfl, rfl⟩

theorem List.rel_getElem? {α β : Type} {R : α → β → Prop} {l : List α} {l' : List β}
    (hrel : List.Forall₂ R l l') (i : Nat) : Option.Rel R l[i]? l'[i]? := by
  induction hrel generalizing i with
  | nil => exact .none
  | cons hab _ ih =>
      cases i with
      | zero => exact .some hab
      | succ i =>
          rw [List.getElem?_cons_succ, List.getElem?_cons_succ]
          exact ih i

theorem Runner.candidates_map (r : Runner C) :
    (r.map g).candidates = r.candidates.map (Candidate.map g) := by
  unfold candidates map
  rw [List.flatMap_map, List.map_flatMap]
  rfl

section Made

variable {plan : Runner C} (hcodes : ∀ code ∈ plan.suite.codes, Q (g code) (h code))

include hcodes

theorem Runner.hooksFor_pairs (phase : Phase) (active : Int) :
    List.Forall₂ (Hook.Pairs Q) (hooksFor (plan.map g).suite.levels phase active)
      (hooksFor (plan.map h).suite.levels phase active) := by
  change List.Forall₂ _ (hooksFor (plan.suite.levels.map _) phase active)
    (hooksFor (plan.suite.levels.map _) phase active)
  rw [hooksFor_map, hooksFor_map]
  refine List.forall₂_map fun hook hmem => ⟨rfl, Option.rel_map fun code hcode => ?_⟩
  obtain ⟨level, hlevel, hhook⟩ := mem_hooksFor hmem
  exact hcodes code (Suite.hook_mem_codes hlevel hhook hcode)

/-- The runners that are made of one runner by replacing codes compare as the codes do. -/
theorem Runner.pairs_map (hunits : ∀ c ∈ plan.candidates, c.unit ∈ plan.suite.units) :
    (plan.map g).Pairs Q (plan.map h) where
  name := rfl
  metadata := rfl
  config := rfl
  master := rfl
  factory := by
    change Option.Rel _ (plan.suite.factory.map _) (plan.suite.factory.map _)
    cases hfactory : plan.suite.factory with
    | none => exact .none
    | some factory => exact .some ⟨hcodes _ (Suite.factory_mem_codes hfactory), rfl⟩
  rules := by
    refine List.forall₂_map fun rule hrule => ?_
    have hcode : ∀ code ∈ rule.codes, Q (g code) (h code) :=
      fun code hmem => hcodes code (Suite.rule_mem_codes hrule hmem)
    exact ⟨rfl, hcode _ (by simp [Rule.codes]), hcode _ (by simp [Rule.codes]), rfl,
      hcode _ (by simp [Rule.codes]), rfl⟩
  listeners := by
    refine List.forall₂_map fun factory hfactory => ?_
    have hcode : ∀ code ∈ factory.codes, Q (g code) (h code) :=
      fun code hmem => hcodes code (Suite.listener_mem_codes hfactory hmem)
    refine ⟨rfl, rfl, hcode _ List.mem_cons_self, fun kind => ?_⟩
    change Q ((factory.reactions.map g).on kind) ((factory.reactions.map h).on kind)
    rw [Reactions.map_on, Reactions.map_on]
    refine hcode _ (List.mem_cons_of_mem _ (List.mem_map_of_mem ?_))
    cases kind <;> decide
  candidates := by
    rw [candidates_map, candidates_map]
    exact List.forall₂_map fun c hc => Candidate.pairs_map fun code hcode =>
      hcodes code (Suite.body_mem_codes (hunits c hc) hcode)

end Made

/-- A runner compares with itself if its codes do. -/
theorem Runner.pairs_self {Q : A → A → Prop} {r : Runner A}
    (hcodes : ∀ code ∈ r.suite.codes, Q code code)
    (hunits : ∀ c ∈ r.candidates, c.unit ∈ r.suite.units) : r.Pairs Q r := by
  have hpairs := pairs_map (g := id) (h := id) hcodes hunits
  rwa [map_id] at hpairs

/-- The hooks of runners need not compare. -/
theorem Runner.Pairs.with_levels {r : Runner A} {r₁ r' : Runner B} (hpairs : r.Pairs Q r₁)
    (hsuite : r'.suite = { r₁.suite with levels := r'.suite.levels })
    (hconfig : r'.config = r₁.config) (hmaster : r'.master = r₁.master)
    (hblocks : r'.blocks = r₁.blocks) : r.Pairs Q r' where
  name := (congrArg Suite.name hsuite).trans hpairs.name
  metadata := (congrArg Suite.metadata hsuite).trans hpairs.metadata
  config := hconfig.trans hpairs.config
  master := hmaster.trans hpairs.master
  factory := congrArg Suite.factory hsuite ▸ hpairs.factory
  rules := congrArg Suite.rules hsuite ▸ hpairs.rules
  listeners := congrArg Suite.listeners hsuite ▸ hpairs.listeners
  candidates := by
    rw [show r'.candidates = r₁.candidates by unfold Runner.candidates; rw [hblocks]]
    exact hpairs.candidates

/-- The same candidates survive the filters. -/
theorem Runner.Pairs.survivors {r : Runner A} {r' : Runner B} (hpairs : r.Pairs Q r')
    (predicate : Option (String → Bool)) :
    List.Forall₂ (Candidate.Pairs Q) (r.survivors predicate) (r'.survivors predicate) := by
  unfold Runner.survivors
  rw [hpairs.config, hpairs.name]
  split
  · refine List.rel_filter (fun c c' hc => ?_) hpairs.candidates
    dsimp only [Runner.keeps]
    rw [hpairs.config, hc.unit.name, hc.name]
  · exact .nil

end Pairs

end SeededTesting
