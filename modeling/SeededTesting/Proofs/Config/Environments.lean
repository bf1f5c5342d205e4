import SeededTesting.Proofs.Config.Flags
import SeededTesting.Proofs.Run.Sequence
import SeededTesting.Proofs.Seed.Grammar

/-! # Configurations from environments

Three variables of an environment are texts of a grammar: the chain, the flag and the number. An
environment configures a run unless one of them is at fault, and the fault that is noticed first is
the one that is raised.
-/

namespace SeededTesting

open Text

/-! ## Settings -/

namespace Settings

variable {s : Settings} {e : ConfigError}

/-- A chain that is set is refused if it cannot be read or is too long. -/
theorem seeds_eq_error_iff : s.seeds = .error e ↔ ∃ text, s.seed = some text ∧
    ((∃ reason, SeedChain.parse text = .error reason ∧ e = .malformedSeed text reason) ∨
      ∃ chain, SeedChain.parse text = .ok chain ∧ 2 < chain.length ∧ e = .seedCount text) := by
  unfold seeds
  cases s.seed with
  | none => simp
  | some text =>
      cases hparse : SeedChain.parse text with
      | error reason => simp [hparse, eq_comm]
      | ok chain =>
          have hne := SeedChain.ne_nil_of_parse hparse
          by_cases hcount : 2 < chain.length
          · simp [hparse, hcount, eq_comm]
          · simp [hparse, hne, hcount]

theorem check_eq_error_iff : s.check = .error e ↔ s.seeds = .error e ∨
    (∃ chain, s.seeds = .ok chain) ∧
      ∃ n, s.iterations = some n ∧ n < 1 ∧ e = .tooFewIterations n := by
  unfold check
  split
  next e' hseeds => simp [hseeds]
  next chain hseeds =>
    split
    next hiterations => simp [hseeds, hiterations]
    next n hiterations =>
      split
      next hfew => simp [hseeds, hiterations, hfew, eq_comm]
      next hfew => simp [hseeds, hiterations, hfew]

end Settings

/-! ## Faults -/

namespace Environment

variable {env : Environment}

/-- A variable without a value, or with an empty one. -/
def Unset (env : Environment) (name : String) : Prop :=
  env.value? name = none ∨ env.value? name = some ""

/-- What is wrong with an environment: the stage at which it is noticed, and the error it makes.
The number is read first, then the flag, then the chain; last it is seen whether the number is too
small. -/
inductive Fault (env : Environment) : Nat → ConfigError → Prop where
  | notInteger {text : String} (hset : env.value? Settings.iterationsVariable = some text)
      (hsome : ∃ c ∈ text.toList, isBlank c = false) (hread : ∀ n, ¬Integer.Literal text n) :
      Fault env 0 (.iterationsNotInteger text)
  | notBoolean {text : String} (hset : env.value? Settings.nightlyVariable = some text)
      (hread : ¬Flag.Among Flag.words text) :
      Fault env 1 (.notBoolean Settings.nightlyVariable text)
  | malformedSeed {text : String} {reason : SeedError}
      (hset : env.value? Settings.seedVariable = some text) (hne : text ≠ "")
      (hread : SeedChain.parse text = .error reason) :
      Fault env 2 (.malformedSeed text reason)
  | seedCount {text : String} {chain : List Seed}
      (hset : env.value? Settings.seedVariable = some text) (hne : text ≠ "")
      (hread : SeedChain.parse text = .ok chain) (hcount : 2 < chain.length) :
      Fault env 2 (.seedCount text)
  | tooFewIterations {text : String} {n : Int}
      (hset : env.value? Settings.iterationsVariable = some text)
      (hread : Integer.Literal text n) (hfew : n < 1) :
      Fault env 3 (.tooFewIterations n)

theorem text?_eq_some_iff {name text : String} :
    env.text? name = some text ↔ env.value? name = some text ∧ text ≠ "" := by
  rw [text?, Option.filter_eq_some_iff, decide_eq_true_eq]

theorem text?_eq_none_iff {name : String} : env.text? name = none ↔ env.Unset name := by
  rw [Unset]
  cases h : env.value? name with
  | none => simp [text?, h]
  | some text => simp [text?, h]

/-! ### The number -/

/-- A variable that is set to blanks at most. -/
def Blank (env : Environment) (name : String) : Prop :=
  ∀ text, env.value? name = some text → ∀ c ∈ text.toList, isBlank c = true

theorem iterations_of_blank (h : env.Blank Settings.iterationsVariable) :
    env.iterations = .ok none := by
  unfold iterations
  split
  next => rfl
  next text hset => rw [if_pos (isEmpty_trim_iff.mpr (h text hset))]

variable {text : String}

theorem iterations_of_unblank (hset : env.value? Settings.iterationsVariable = some text)
    (hsome : ∃ c ∈ text.toList, isBlank c = false) :
    env.iterations = match Integer.parse? .decimal text.toList with
      | some n => .ok (some n)
      | none => .error (.iterationsNotInteger text) := by
  have hunblank : ¬(trim text.toList).isEmpty = true := by
    rw [isEmpty_trim_iff]
    obtain ⟨c, hc, hsome⟩ := hsome
    exact fun hblank => absurd (hsome.symm.trans (hblank c hc)) Bool.false_ne_true
  rw [iterations, hset]
  exact if_neg hunblank

theorem iterations_of_literal (hset : env.value? Settings.iterationsVariable = some text) {n : Int}
    (hread : Integer.Literal text n) : env.iterations = .ok (some n) := by
  rw [iterations_of_unblank hset hread.exists_unblank, Integer.parse?_eq_some_iff.mpr hread]

theorem iterations_of_fault {e : ConfigError} (h : env.Fault 0 e) : env.iterations = .error e := by
  cases h with
  | @notInteger text hset hsome hread =>
      rw [iterations_of_unblank hset hsome]
      cases hparse : Integer.parse? .decimal text.toList with
      | some n => exact absurd (Integer.parse?_eq_some_iff.mp hparse) (hread n)
      | none => rfl

/-- A number is set to blanks at most or to a literal, or it is at fault. -/
theorem number_cases (env : Environment) : env.Blank Settings.iterationsVariable ∨
    (∃ text n, env.value? Settings.iterationsVariable = some text ∧ Integer.Literal text n) ∨
      ∃ e, env.Fault 0 e := by
  cases hset : env.value? Settings.iterationsVariable with
  | none => exact .inl fun text h => nomatch hset.symm.trans h
  | some text =>
      by_cases hblank : ∀ c ∈ text.toList, isBlank c = true
      · refine .inl fun text' h => ?_
        rwa [← Option.some.inj (hset.symm.trans h)]
      by_cases hread : ∃ n, Integer.Literal text n
      · obtain ⟨n, hread⟩ := hread
        exact .inr (.inl ⟨text, n, rfl, hread⟩)
      · push Not at hblank
        simp only [ne_eq, Bool.not_eq_true] at hblank
        exact .inr (.inr ⟨_, .notInteger hset hblank (not_exists.mp hread)⟩)

theorem iterations_eq_none_iff :
    env.iterations = .ok none ↔ env.Blank Settings.iterationsVariable := by
  constructor
  · intro h
    rcases env.number_cases with hblank | ⟨text, n, hset, hread⟩ | ⟨e, hfault⟩
    · exact hblank
    · cases h.symm.trans (iterations_of_literal hset hread)
    · cases h.symm.trans (iterations_of_fault hfault)
  · exact iterations_of_blank

theorem iterations_eq_some_iff {n : Int} : env.iterations = .ok (some n) ↔
    ∃ text, env.value? Settings.iterationsVariable = some text ∧ Integer.Literal text n := by
  constructor
  · intro h
    rcases env.number_cases with hblank | ⟨text, m, hset, hread⟩ | ⟨e, hfault⟩
    · cases h.symm.trans (iterations_of_blank hblank)
    · cases h.symm.trans (iterations_of_literal hset hread)
      exact ⟨text, hset, hread⟩
    · cases h.symm.trans (iterations_of_fault hfault)
  · rintro ⟨text, hset, hread⟩
    exact iterations_of_literal hset hread

theorem fault_zero_iff {e : ConfigError} : env.Fault 0 e ↔ env.iterations = .error e := by
  constructor
  · exact iterations_of_fault
  · intro h
    rcases env.number_cases with hblank | ⟨text, m, hset, hread⟩ | ⟨e', hfault⟩
    · cases h.symm.trans (iterations_of_blank hblank)
    · cases h.symm.trans (iterations_of_literal hset hread)
    · cases h.symm.trans (iterations_of_fault hfault)
      exact hfault

theorem fault_three_iff {e : ConfigError} : env.Fault 3 e ↔
    ∃ n, env.iterations = .ok (some n) ∧ n < 1 ∧ e = .tooFewIterations n := by
  simp only [iterations_eq_some_iff]
  constructor
  · intro h
    cases h with
    | tooFewIterations hset hread hfew => exact ⟨_, ⟨_, hset, hread⟩, hfew, rfl⟩
  · rintro ⟨n, ⟨text, hset, hread⟩, hfew, rfl⟩
    exact .tooFewIterations hset hread hfew

/-! ### The flag and the chain -/

theorem fault_one_iff {e : ConfigError} : env.Fault 1 e ↔
    Flag.parse Settings.nightlyVariable (env.value? Settings.nightlyVariable) false = .error e := by
  rw [Flag.parse_eq_error_iff]
  constructor
  · intro h
    cases h with
    | notBoolean hset hread => exact ⟨_, hset, hread, rfl⟩
  · rintro ⟨text, hset, hread, rfl⟩
    exact .notBoolean hset hread

theorem fault_two_iff {s : Settings} (hs : s.seed = env.text? Settings.seedVariable)
    {e : ConfigError} : env.Fault 2 e ↔ s.seeds = .error e := by
  simp only [Settings.seeds_eq_error_iff, hs, text?_eq_some_iff]
  constructor
  · intro h
    cases h with
    | malformedSeed hset hne hread => exact ⟨_, ⟨hset, hne⟩, .inl ⟨_, hread, rfl⟩⟩
    | seedCount hset hne hread hcount => exact ⟨_, ⟨hset, hne⟩, .inr ⟨_, hread, hcount, rfl⟩⟩
  · rintro ⟨text, ⟨hset, hne⟩, ⟨reason, hread, rfl⟩ | ⟨chain, hread, hcount, rfl⟩⟩
    · exact .malformedSeed hset hne hread
    · exact .seedCount hset hne hread hcount

/-! ### The whole -/

/-- What an environment asks for, once its number and its flag are read. -/
def asked (env : Environment) (iterations : Option Int) (nightly : Bool) : Settings where
  seed := env.text? Settings.seedVariable
  nightly
  iterations
  targetSuite := env.text? Settings.suiteVariable
  targetUnit := env.text? Settings.unitVariable

/-- At every stage one fault at most is noticed. -/
theorem Fault.eq {e e' : ConfigError} :
    ∀ {stage : Nat}, env.Fault stage e → env.Fault stage e' → e = e'
  | 0, h, h' => Except.error.inj ((fault_zero_iff.mp h).symm.trans (fault_zero_iff.mp h'))
  | 1, h, h' => Except.error.inj ((fault_one_iff.mp h).symm.trans (fault_one_iff.mp h'))
  | 2, h, h' =>
    have hasked : (env.asked none false).seed = env.text? Settings.seedVariable := rfl
    Except.error.inj (((fault_two_iff hasked).mp h).symm.trans ((fault_two_iff hasked).mp h'))
  | 3, h, h' => by
    obtain ⟨n, hn, -, rfl⟩ := fault_three_iff.mp h
    obtain ⟨m, hm, -, rfl⟩ := fault_three_iff.mp h'
    rw [Option.some.inj (Except.ok.inj (hn.symm.trans hm))]

/-- The fault that is noticed first. -/
def FirstFault (env : Environment) (e : ConfigError) : Prop :=
  ∃ stage, env.Fault stage e ∧ ∀ earlier < stage, ∀ e', ¬env.Fault earlier e'

theorem FirstFault.eq {e e' : ConfigError} (h : env.FirstFault e) (h' : env.FirstFault e') :
    e = e' := by
  obtain ⟨stage, hfault, hfirst⟩ := h
  obtain ⟨stage', hfault', hfirst'⟩ := h'
  rcases Nat.lt_trichotomy stage stage' with hlt | rfl | hlt
  · exact absurd hfault (hfirst' _ hlt _)
  · exact hfault.eq hfault'
  · exact absurd hfault' (hfirst _ hlt _)

theorem exists_firstFault {stage : Nat} {e : ConfigError} (h : env.Fault stage e) :
    ∃ e', env.FirstFault e' := by
  induction stage using Nat.strong_induction_on generalizing e with
  | _ stage ih =>
      by_cases hearlier : ∃ earlier < stage, ∃ e', env.Fault earlier e'
      · obtain ⟨earlier, hlt, e', h'⟩ := hearlier
        exact ih earlier hlt h'
      · exact ⟨e, stage, h, fun earlier hlt e' h' => hearlier ⟨earlier, hlt, e', h'⟩⟩

theorem settings_eq_ok_iff {s : Settings} : env.settings = .ok s ↔ ∃ number flag,
    env.iterations = .ok number ∧
      Flag.parse Settings.nightlyVariable (env.value? Settings.nightlyVariable) false = .ok flag ∧
        s = env.asked number flag := by
  constructor
  · intro h
    obtain ⟨number, hnumber, h⟩ := exists_of_bind_eq_ok h
    obtain ⟨flag, hflag, h⟩ := exists_of_bind_eq_ok h
    cases h
    exact ⟨number, flag, hnumber, hflag, rfl⟩
  · rintro ⟨number, flag, hnumber, hflag, rfl⟩
    rw [settings, hnumber, hflag]
    rfl

/-- Settings that are read and hold up to their check, which the configuration says of itself. -/
theorem exists_asked_of_config {c : RunConfig} (h : env.config = .ok c) : ∃ number flag,
    env.iterations = .ok number ∧
      Flag.parse Settings.nightlyVariable (env.value? Settings.nightlyVariable) false = .ok flag ∧
        c.toSettings = env.asked number flag ∧ (env.asked number flag).seeds = .ok c.chain ∧
          ∀ n, number = some n → 1 ≤ n := by
  obtain ⟨s, hs, hcheck⟩ := exists_of_bind_eq_ok h
  obtain ⟨number, flag, hnumber, hflag, rfl⟩ := settings_eq_ok_iff.mp hs
  have hsettings := Settings.toSettings_of_check hcheck
  have hseeds := c.seeds_eq
  have hpos := c.iterations_pos
  rw [hsettings] at hseeds hpos
  exact ⟨number, flag, hnumber, hflag, hsettings, hseeds, hpos⟩

/-- No fault is noticed where what is read at a stage is read well. -/
theorem not_fault_of_ok {α : Type} {x : Except ConfigError α} {a : α} {stage : Nat}
    (hiff : ∀ {e : ConfigError}, env.Fault stage e ↔ x = .error e) (hx : x = .ok a) :
    ∀ e, ¬env.Fault stage e :=
  fun _ hfault => nomatch hx.symm.trans (hiff.mp hfault)

/-- Nothing is wrong with an environment that configures a run. -/
theorem not_fault_of_config {c : RunConfig} (h : env.config = .ok c) :
    ∀ stage e, ¬env.Fault stage e := by
  obtain ⟨number, flag, hnumber, hflag, -, hseeds, hpos⟩ := exists_asked_of_config h
  intro stage e hfault
  match stage with
  | 0 => exact not_fault_of_ok fault_zero_iff hnumber e hfault
  | 1 => exact not_fault_of_ok fault_one_iff hflag e hfault
  | 2 => exact not_fault_of_ok (fault_two_iff rfl) hseeds e hfault
  | 3 =>
      obtain ⟨n, hn, hfew, rfl⟩ := fault_three_iff.mp hfault
      cases hn.symm.trans hnumber
      exact absurd (hpos n rfl) (Int.not_le.mpr hfew)

/-- What is raised is the fault that is noticed first. -/
theorem firstFault_of_config {e : ConfigError} (h : env.config = .error e) : env.FirstFault e := by
  -- Each part is read once those before it were read well, so nothing was wrong with those.
  rcases eq_error_of_bind h with hsettings | ⟨s, hsettings, hcheck⟩
  · rcases eq_error_of_bind hsettings with hnumber | ⟨number, hnumber, hrest⟩
    · exact ⟨0, fault_zero_iff.mpr hnumber, fun _ hlt => absurd hlt (Nat.not_lt_zero _)⟩
    · have hzero := not_fault_of_ok fault_zero_iff hnumber
      rcases eq_error_of_bind hrest with hflag | ⟨flag, -, hasked⟩
      · exact ⟨1, fault_one_iff.mpr hflag, fun | 0, _ => hzero⟩
      · cases hasked
  · obtain ⟨number, flag, hnumber, hflag, rfl⟩ := settings_eq_ok_iff.mp hsettings
    have hzero := not_fault_of_ok fault_zero_iff hnumber
    have hone := not_fault_of_ok fault_one_iff hflag
    rcases Settings.check_eq_error_iff.mp hcheck with hseeds | ⟨⟨chain, hchain⟩, n, hn, hfew, rfl⟩
    · exact ⟨2, (fault_two_iff rfl).mpr hseeds, fun | 0, _ => hzero | 1, _ => hone⟩
    · have htwo := not_fault_of_ok (fault_two_iff rfl) hchain
      cases hn
      exact ⟨3, fault_three_iff.mpr ⟨n, hnumber, hfew, rfl⟩,
        fun | 0, _ => hzero | 1, _ => hone | 2, _ => htwo⟩

/-- An environment is refused for the fault that is noticed first, if there is one. -/
theorem config_eq_error_iff {e : ConfigError} : env.config = .error e ↔ env.FirstFault e := by
  constructor
  · exact firstFault_of_config
  · intro h
    cases hconfig : env.config with
    | ok c =>
        obtain ⟨stage, hfault, -⟩ := h
        exact absurd hfault (not_fault_of_config hconfig stage e)
    | error e' => rw [(firstFault_of_config hconfig).eq h]

/-- The flag is read before the chain, and the number is only then found to be too small. -/
example : Environment.config [("SEEDRUNNER_SEED", "zz"), ("SEEDRUNNER_ITERS", "0"),
    ("SEEDRUNNER_NIGHTLY", "maybe")] = .error (.notBoolean "SEEDRUNNER_NIGHTLY" "maybe") := by
  decide +kernel

theorem exists_config_eq_error_iff :
    (∃ e, env.config = .error e) ↔ ∃ stage e, env.Fault stage e := by
  simp only [config_eq_error_iff]
  constructor
  · rintro ⟨e, stage, hfault, -⟩
    exact ⟨stage, e, hfault⟩
  · rintro ⟨stage, e, hfault⟩
    exact exists_firstFault hfault

/-! ## Malformed variables -/

/-- The chain is set, and not to one or two seeds between its brackets; a line break may stand
before the closing one. -/
def MalformedSeed (env : Environment) : Prop :=
  ∃ text, env.value? Settings.seedVariable = some text ∧ text ≠ "" ∧
    ¬∃ seeds, SeedChain.Written ["", "]", "\n]"] text seeds ∧
      (seeds.length = 1 ∨ seeds.length = 2)

/-- The flag is set to something else than a word. -/
def MalformedFlag (env : Environment) : Prop :=
  ∃ text, env.value? Settings.nightlyVariable = some text ∧
    ¬Flag.Among Flag.words text

/-- The number is set to more than blanks, but it is no literal of at most 4300 digits, or not
positive. -/
def MalformedNumber (env : Environment) : Prop :=
  ∃ text, env.value? Settings.iterationsVariable = some text ∧
    (∃ c ∈ text.toList, isBlank c = false) ∧
      ((¬∃ n, Integer.Literal text n) ∨ ∃ n, Integer.Literal text n ∧ n < 1)

theorem exists_fault_iff : (∃ stage e, env.Fault stage e) ↔
    env.MalformedSeed ∨ env.MalformedFlag ∨ env.MalformedNumber := by
  constructor
  · rintro ⟨stage, e, hfault⟩
    cases hfault with
    | notInteger hset hsome hread =>
        exact .inr (.inr ⟨_, hset, hsome, .inl (not_exists.mpr hread)⟩)
    | notBoolean hset hread => exact .inr (.inl ⟨_, hset, hread⟩)
    -- A text that is written as a chain is read as that chain, so what was read decides both cases.
    | malformedSeed hset hne hread =>
        refine .inl ⟨_, hset, hne, ?_⟩
        rintro ⟨seeds, hwritten, -⟩
        cases hread.symm.trans (SeedChain.parse_eq_ok_iff.mpr hwritten)
    | seedCount hset hne hread hcount =>
        refine .inl ⟨_, hset, hne, ?_⟩
        rintro ⟨seeds, hwritten, hlength⟩
        cases hread.symm.trans (SeedChain.parse_eq_ok_iff.mpr hwritten)
        omega
    | tooFewIterations hset hread hfew =>
        exact .inr (.inr ⟨_, hset, hread.exists_unblank, .inr ⟨_, hread, hfew⟩⟩)
  · rintro (⟨text, hset, hne, hwritten⟩ | ⟨text, hset, hread⟩ | ⟨text, hset, hsome, hnumber⟩)
    · cases hread : SeedChain.parse text with
      | error reason => exact ⟨2, _, .malformedSeed hset hne hread⟩
      | ok seeds =>
          have hpos := List.length_pos_iff.mpr (SeedChain.ne_nil_of_parse hread)
          have hcount : ¬(seeds.length = 1 ∨ seeds.length = 2) :=
            fun hlength => hwritten ⟨seeds, SeedChain.parse_eq_ok_iff.mp hread, hlength⟩
          exact ⟨2, _, .seedCount hset hne hread (by omega)⟩
    · exact ⟨1, _, .notBoolean hset hread⟩
    · rcases hnumber with hnone | ⟨n, hread, hfew⟩
      · exact ⟨0, _, .notInteger hset hsome (not_exists.mp hnone)⟩
      · exact ⟨3, _, .tooFewIterations hset hread hfew⟩

/-! ## Configurations -/

/-- A filter is what a variable is set to; there is none just if it is not set. -/
def Filters (env : Environment) (name : String) (filter : Option String) : Prop :=
  (filter = none ↔ env.Unset name) ∧ ∀ text, filter = some text → env.value? name = some text

theorem filters_text? (name : String) : env.Filters name (env.text? name) :=
  ⟨text?_eq_none_iff, fun _ h => (text?_eq_some_iff.mp h).1⟩

/-- A configuration says what an environment says. -/
structure Configures (env : Environment) (c : RunConfig) : Prop where
  seeds : c.toSettings.seeds = .ok c.chain
  count : c.chain.length ≤ 2
  unset : c.chain = [] ↔ env.Unset Settings.seedVariable
  written : ∀ text, env.value? Settings.seedVariable = some text → text ≠ "" →
    SeedChain.Written ["", "]", "\n]"] text c.chain
  nightly : c.nightly = true ↔ ∃ text, env.value? Settings.nightlyVariable = some text ∧
    Flag.Among Flag.trueWords text
  iterations : (c.iterations = none ∧ env.Blank Settings.iterationsVariable) ∨
    ∃ text n, env.value? Settings.iterationsVariable = some text ∧ Integer.Literal text n ∧
      1 ≤ n ∧ c.iterations = some n
  suite : env.Filters Settings.suiteVariable c.targetSuite
  unit : env.Filters Settings.unitVariable c.targetUnit

/-- The chain of a configuration: none if the variable is not set, or else that of its text. -/
theorem chain_cases {number : Option Int} {flag : Bool} {chain : List Seed}
    (h : (env.asked number flag).seeds = .ok chain) :
    env.Unset Settings.seedVariable ∧ chain = [] ∨
      ∃ text, env.value? Settings.seedVariable = some text ∧ text ≠ "" ∧
        SeedChain.Written ["", "]", "\n]"] text chain ∧ 1 ≤ chain.length ∧ chain.length ≤ 2 := by
  cases hseed : env.text? Settings.seedVariable with
  | none =>
      have hnone : (env.asked number flag).seed = none := hseed
      rw [Settings.seeds, hnone] at h
      exact .inl ⟨text?_eq_none_iff.mp hseed, (Except.ok.inj h).symm⟩
  | some text =>
      have hsome : (env.asked number flag).seed = some text := hseed
      obtain ⟨hset, hne⟩ := text?_eq_some_iff.mp hseed
      obtain ⟨hread, hlength⟩ := (Settings.seeds_eq_ok_iff hsome).mp h
      exact .inr ⟨text, hset, hne, SeedChain.parse_eq_ok_iff.mp hread, hlength⟩

theorem not_unset {name text : String} (hset : env.value? name = some text) (hne : text ≠ "") :
    ¬env.Unset name := by
  rintro (h | h)
  · cases hset.symm.trans h
  · exact hne (Option.some.inj (hset.symm.trans h))

theorem configures_of_config {c : RunConfig} (h : env.config = .ok c) : env.Configures c := by
  obtain ⟨number, flag, hnumber, hflag, hsettings, hseeds, hpos⟩ := exists_asked_of_config h
  have hchain := chain_cases hseeds
  refine ⟨c.seeds_eq, ?_, ?_, ?_, ?_, ?_, ?_, ?_⟩
  · rcases hchain with ⟨-, hnil⟩ | ⟨-, -, -, -, -, hcount⟩
    · rw [hnil]
      exact Nat.zero_le 2
    · exact hcount
  · rcases hchain with ⟨hunset, hnil⟩ | ⟨text, hset, hne, -, hlength, -⟩
    · exact iff_of_true hnil hunset
    · exact iff_of_false (List.ne_nil_of_length_pos hlength) (not_unset hset hne)
  · intro text hset hne
    rcases hchain with ⟨hunset, -⟩ | ⟨text', hset', -, hwritten, -⟩
    · exact absurd hunset (not_unset hset hne)
    · cases hset.symm.trans hset'
      exact hwritten
  · rw [hsettings]
    exact Flag.eq_true_of_parse_iff hflag
  · rw [hsettings]
    cases number with
    | none => exact .inl ⟨rfl, iterations_eq_none_iff.mp hnumber⟩
    | some n =>
        obtain ⟨text, hset, hread⟩ := iterations_eq_some_iff.mp hnumber
        exact .inr ⟨text, n, hset, hread, hpos n rfl, rfl⟩
  · rw [hsettings]
    exact filters_text? _
  · rw [hsettings]
    exact filters_text? _

end Environment

/-! ## Messages -/

namespace ConfigError

/-- The variable that an error is about. -/
def source : ConfigError → String
  | .malformedSeed _ _ | .seedCount _ => Settings.seedVariable
  | .tooFewIterations _ | .iterationsNotInteger _ => Settings.iterationsVariable
  | .notBoolean name _ => name

/-- Every error names the variable that it is about. -/
theorem exists_message_eq (e : ConfigError) :
    ∃ before after, e.message = before ++ e.source ++ after := by
  cases e with
  | malformedSeed text reason =>
      refine ⟨"Invalid ", " specification: " ++ text ++ " (" ++ reason.message ++ ")", ?_⟩
      simp only [message, source, String.append_assoc]
  | seedCount text =>
      refine ⟨"Invalid ", " specification: " ++ text, ?_⟩
      simp only [message, source, String.append_assoc]
  | tooFewIterations n =>
      refine ⟨"", " must be >= 1: " ++ toString n, ?_⟩
      simp only [message, source, String.append_assoc, String.empty_append]
  | iterationsNotInteger text =>
      refine ⟨"", " must be an integer: " ++ quote text, ?_⟩
      simp only [message, source, String.append_assoc, String.empty_append]
  | notBoolean name value =>
      refine ⟨"", " must be a boolean, got " ++ quote value, ?_⟩
      simp only [message, source, String.append_assoc, String.empty_append]

end ConfigError

/-! ## Refusals -/

namespace Environment

/-- A configuration is refused just if the chain, the flag or the number is malformed. What is
raised is the fault that is noticed first, as a configuration error that names the variable, and a
number that is too small is not too long to be written. Otherwise the configuration says what the
environment says. -/
theorem refused_iff_malformed (env : Environment) :
    ((∃ e, env.config = .error e) ↔
      env.MalformedSeed ∨ env.MalformedFlag ∨ env.MalformedNumber) ∧
      (∀ e, env.config = .error e →
        env.FirstFault e ∧ (SetupError.config e).complaint.kind = .named "ConfigurationError" ∧
          (∃ before after, e.message = before ++ e.source ++ after) ∧
            ∀ n, e = .tooFewIterations n → (Nat.toDigits 10 n.natAbs).length ≤ 4300) ∧
      ∀ c, env.config = .ok c → env.Configures c := by
  refine ⟨exists_config_eq_error_iff.trans exists_fault_iff, ?_, fun c => configures_of_config⟩
  intro e h
  have hfirst := firstFault_of_config h
  refine ⟨hfirst, rfl, e.exists_message_eq, ?_⟩
  rintro n rfl
  obtain ⟨stage, hfault, -⟩ := hfirst
  cases hfault with
  | tooFewIterations hset hread hfew => exact hread.length_toDigits_le

/-- Texts with blanks around them, a line break before the closing bracket, and digits of another
script. -/
def padded : Environment :=
  [("SEEDRUNNER_SEED", "\t[1f:0A3\n]"), ("SEEDRUNNER_NIGHTLY", "YES\u2003"),
    ("SEEDRUNNER_ITERS", "\u3000+٣_0 "), ("SEEDRUNNER_CLASS", ""), ("SEEDRUNNER_METHOD", "reads")]

/-- A number below zero, in digits of another script. -/
def negative : Environment :=
  [("SEEDRUNNER_ITERS", "-٣_0\n")]

/-- Padded texts that configure a run, and a number that does not. -/
theorem refused_iff_malformed_padded :
    padded.config.map (·.toSettings) = .ok {
        seed := some "\t[1f:0A3\n]", nightly := true, iterations := some 30,
        targetUnit := some "reads" } ∧
      (∃ c, padded.config = .ok c ∧ padded.Configures c) ∧
      negative.config = .error (.tooFewIterations (-30)) ∧
      (negative.MalformedSeed ∨ negative.MalformedFlag ∨ negative.MalformedNumber) ∧
      negative.FirstFault (.tooFewIterations (-30)) ∧
      (Nat.toDigits 10 (-30 : Int).natAbs).length ≤ 4300 := by
  have hpadded : padded.config.map (·.toSettings) = .ok {
      seed := some "\t[1f:0A3\n]", nightly := true, iterations := some 30,
      targetUnit := some "reads" } := by decide +kernel
  have hnegative : negative.config = .error (.tooFewIterations (-30)) := by decide +kernel
  obtain ⟨-, -, hconfigures⟩ := refused_iff_malformed padded
  obtain ⟨hmalformed, herrors, -⟩ := refused_iff_malformed negative
  obtain ⟨hfirst, -, -, hshort⟩ := herrors _ hnegative
  refine ⟨hpadded, ?_, hnegative, hmalformed.mp ⟨_, hnegative⟩, hfirst, hshort _ rfl⟩
  cases hconfig : padded.config with
  | error e =>
      rw [hconfig] at hpadded
      cases hpadded
  | ok c => exact ⟨c, rfl, hconfigures c hconfig⟩

end Environment

end SeededTesting
