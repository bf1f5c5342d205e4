import SeededTesting.Command.Answer
import SeededTesting.Proofs.Text.Numerals

/-! # Command lines read back

Arguments are read back from a command line on which every option has its value attached. So there
is a command line for every plan with a unit that can be asked for, whatever its texts look like.
-/

namespace SeededTesting.Command

/-! ## Arguments -/

/-- An option with its value attached. -/
def attachedOption (option value : String) : String :=
  "--" ++ option ++ "=" ++ value

/-- An option without a value. -/
def flagOption (option : String) : String :=
  "--" ++ option

/-- Options with their values, and after them those without. -/
def Arguments.written (a : Arguments) : List String :=
  a.options.map (fun entry => attachedOption entry.1 entry.2) ++ a.flags.map flagOption

/-- An option is found by its long name and takes a value or not. -/
structure Offers (specs : List OptionSpec) (option : String) (takesValue : Bool) : Prop where
  ne_empty : option.toList ≠ []
  unmarked : '=' ∉ option.toList
  found : (specs.find? (·.long.toList = option.toList)).map
    (fun spec => (spec.long, spec.takesValue)) = some (option, takesValue)

namespace ArgumentKind

theorem splitValue_of_not_mem {name : List Char} (h : '=' ∉ name) :
    splitValue name = (name, none) := by
  induction name with
  | nil => rfl
  | cons c rest ih =>
      rw [List.mem_cons, not_or] at h
      rw [splitValue, if_neg (Ne.symm h.1), ih h.2]

/-- The first mark ends the name, so the value may hold any character. -/
theorem splitValue_append {name : List Char} (h : '=' ∉ name) (value : List Char) :
    splitValue (name ++ '=' :: value) = (name, some value) := by
  induction name with
  | nil => rfl
  | cons c rest ih =>
      rw [List.mem_cons, not_or] at h
      rw [List.cons_append, splitValue, if_neg (Ne.symm h.1), ih h.2]

/-- Two dashes and something after them start a long option. -/
theorem of_eq_ofLong {specs : List OptionSpec} {argument : String} {body : List Char}
    (h : argument.toList = '-' :: '-' :: body) (hne : body ≠ []) :
    of specs argument = ofLong specs body := by
  rw [of, h]
  cases body with
  | nil => exact absurd rfl hne
  | cons c rest => rfl

variable {specs : List OptionSpec} {option : String}

theorem of_attachedOption (h : Offers specs option true) (value : String) :
    of specs (attachedOption option value) = .option option (some value) := by
  obtain ⟨spec, hspec, hpair⟩ := Option.map_eq_some_iff.mp h.found
  obtain ⟨hlong, hvalue⟩ := Prod.mk.inj hpair
  have hlist : (attachedOption option value).toList =
      '-' :: '-' :: (option.toList ++ '=' :: value.toList) := by
    simp [attachedOption]
  rw [of_eq_ofLong hlist (by simp), ofLong, splitValue_append h.unmarked]
  dsimp only
  rw [hspec]
  simp [hvalue, hlong]

theorem of_flagOption (h : Offers specs option false) :
    of specs (flagOption option) = .flag option := by
  obtain ⟨spec, hspec, hpair⟩ := Option.map_eq_some_iff.mp h.found
  obtain ⟨hlong, hvalue⟩ := Prod.mk.inj hpair
  have hlist : (flagOption option).toList = '-' :: '-' :: option.toList := by
    simp [flagOption]
  rw [of_eq_ofLong hlist h.ne_empty, ofLong, splitValue_of_not_mem h.unmarked]
  dsimp only
  rw [hspec]
  simp [hvalue, hlong]

end ArgumentKind

namespace Arguments

variable {specs : List OptionSpec}

theorem parse?_flags {flags : List String} (h : ∀ option ∈ flags, Offers specs option false)
    (mixed : Bool) : parse? specs mixed (flags.map flagOption) = some { flags } := by
  induction flags with
  | nil => rfl
  | cons option rest ih =>
      rw [List.forall_mem_cons] at h
      rw [List.map_cons, parse?, ArgumentKind.of_flagOption h.1, ih h.2]
      rfl

/-- Written arguments are read back, whatever the values of the options are. -/
theorem parse?_written {flags : List String} {options : List (String × String)}
    (hflags : ∀ option ∈ flags, Offers specs option false)
    (hoptions : ∀ entry ∈ options, Offers specs entry.1 true) (mixed : Bool) :
    parse? specs mixed (written { flags, options }) = some { flags, options } := by
  induction options with
  | nil => exact parse?_flags hflags mixed
  | cons entry rest ih =>
      -- No value is an argument of its own, so none can be taken for an option.
      rw [List.forall_mem_cons] at hoptions
      have hrest : parse? specs mixed (written { flags, options := rest }) = _ := ih hoptions.2
      unfold written at hrest ⊢
      rw [List.map_cons, List.cons_append, parse?, ArgumentKind.of_attachedOption hoptions.1,
        hrest]
      rfl

end Arguments

/-! ## Plans -/

namespace PlanRequest

variable (p : PlanRequest)

/-- The arguments that ask for a plan. -/
def arguments : Arguments where
  flags := (if p.constantSeed then ["constant"] else []) ++ if p.json then ["json"] else []
  options := [("seed", p.seed)] ++ p.units.map (("unit", ·)) ++
    (p.iterations.map fun n => ("iters", toString n)).toList ++ [("suite", p.suite)]

/-- A command line that asks for a plan. -/
def commandLine : List String :=
  "seed" :: "plan" :: p.arguments.written

/-- A number of iterations has no more digits than are read. -/
def Legible : Prop :=
  ∀ n ∈ p.iterations, (Nat.toDigits 10 n.natAbs).length ≤ Text.Integer.decimalLimit

instance : Decidable p.Legible :=
  inferInstanceAs (Decidable (∀ n ∈ p.iterations, _))

theorem values_arguments (option : String) :
    p.arguments.values option = (if "seed" = option then [p.seed] else []) ++
      (if "unit" = option then p.units else []) ++
      (if "iters" = option then (p.iterations.map toString).toList else []) ++
      if "suite" = option then [p.suite] else [] := by
  have hunits : ((p.units.map (("unit", ·))).filter (·.1 = option)).map Prod.snd =
      if "unit" = option then p.units else [] := by
    by_cases h : "unit" = option <;> simp [h, List.filter_map, Function.comp_def]
  have hiterations : (((p.iterations.map fun n => ("iters", toString n)).toList).filter
      (·.1 = option)).map Prod.snd =
        if "iters" = option then (p.iterations.map toString).toList else [] := by
    cases p.iterations <;> by_cases h : "iters" = option <;> simp [h]
  have hsingle : ∀ name value : String, (([(name, value)] : List (String × String)).filter
      (·.1 = option)).map Prod.snd = if name = option then [value] else [] := by
    intro name value
    by_cases h : name = option <;> simp [h]
  unfold Arguments.values arguments
  simp only [List.filter_append, List.map_append, hunits, hiterations, hsingle]

theorem hasFlag_arguments (option : String) :
    p.arguments.hasFlag option = (p.constantSeed && decide (option = "constant") ||
      p.json && decide (option = "json")) := by
  unfold Arguments.hasFlag arguments
  cases p.constantSeed <;> cases p.json <;> simp

/-- The command takes the arguments as they are written. -/
theorem read_written : Request.read planCommand p.arguments.written = .ok p.arguments := by
  have hflags : ∀ option ∈ p.arguments.flags, Offers planCommand.options option false := by
    have hconstant : Offers planCommand.options "constant" false :=
      ⟨by decide, by decide, by decide⟩
    have hjson : Offers planCommand.options "json" false := ⟨by decide, by decide, by decide⟩
    unfold arguments
    cases p.constantSeed <;> cases p.json <;> simp [hconstant, hjson]
  have hoptions : ∀ entry ∈ p.arguments.options, Offers planCommand.options entry.1 true := by
    have hseed : Offers planCommand.options "seed" true := ⟨by decide, by decide, by decide⟩
    have hunit : Offers planCommand.options "unit" true := ⟨by decide, by decide, by decide⟩
    have hiters : Offers planCommand.options "iters" true := ⟨by decide, by decide, by decide⟩
    have hsuite : Offers planCommand.options "suite" true := ⟨by decide, by decide, by decide⟩
    intro entry hentry
    simp only [arguments, List.mem_append, List.mem_singleton, List.mem_map, Option.mem_toList,
      Option.map_eq_some_iff] at hentry
    rcases hentry with ((rfl | ⟨name, -, rfl⟩) | ⟨n, -, rfl⟩) | rfl
    · exact hseed
    · exact hunit
    · exact hiters
    · exact hsuite
  -- Neither flag asks for help, so the arguments are taken as they were parsed.
  have hhelp : p.arguments.hasFlag helpOption.long = false := by
    rw [hasFlag_arguments]
    cases p.constantSeed <;> cases p.json <;> decide
  have hparse : Arguments.parse? planCommand.options (!planCommand.isGroup)
      p.arguments.written = some p.arguments := Arguments.parse?_written hflags hoptions _
  rw [Request.read, hparse]
  simp [hhelp]

theorem iterations_arguments : Request.iterations p.arguments =
    if p.Legible then .ok p.iterations else .error .usage := by
  have hvalue : p.arguments.value? "iters" = p.iterations.map toString := by
    rw [Arguments.value?, values_arguments]
    cases p.iterations <;> simp
  rw [Request.iterations, hvalue]
  cases hiterations : p.iterations with
  | none =>
      have hlegible : p.Legible := fun n hn => nomatch hiterations.symm.trans hn
      rw [if_pos hlegible]
      rfl
  | some n =>
      have hlegible : p.Legible ↔
          (Nat.toDigits 10 n.natAbs).length ≤ Text.Integer.decimalLimit := by
        simp [Legible, hiterations]
      have hread := Text.Integer.parse?_toString n
      -- The reader refuses just the numbers that are too long to be legible.
      by_cases h : (Nat.toDigits 10 n.natAbs).length ≤ Text.Integer.decimalLimit
      · rw [if_pos h] at hread
        rw [if_pos (hlegible.mpr h), Option.map_some]
        dsimp only
        rw [hread]
      · rw [if_neg h] at hread
        rw [if_neg (mt hlegible.mp h), Option.map_some]
        dsimp only
        rw [hread]

/-- The request is read back from its command line, unless it has no unit or a number that is too
long to be read. -/
theorem ofPlan_written : Request.ofPlan p.arguments.written =
    if p.units = [] ∨ ¬p.Legible then .error .usage else .ok (.plan p) := by
  have hseed : p.arguments.value? "seed" = some p.seed := by
    rw [Arguments.value?, values_arguments]
    simp
  have hunits : p.arguments.values "unit" = p.units := by
    rw [values_arguments]
    simp
  have hsuite : p.arguments.value? "suite" = some p.suite := by
    rw [Arguments.value?, values_arguments]
    simp
  have hconstant : p.arguments.hasFlag "constant" = p.constantSeed := by
    rw [hasFlag_arguments]
    simp
  have hjson : p.arguments.hasFlag "json" = p.json := by
    rw [hasFlag_arguments]
    simp
  have hpositionals : Request.noPositionals p.arguments = .ok () := rfl
  -- All options are found; only the number of iterations and the list of units can be refused.
  unfold Request.ofPlan
  rw [read_written]
  change (Request.noPositionals p.arguments >>= fun _ => _) = _
  rw [hpositionals]
  change (Request.iterations p.arguments >>= fun _ => _) = _
  rw [iterations_arguments, hseed, hunits, hsuite, hconstant, hjson]
  by_cases hlegible : p.Legible
  · rw [if_pos hlegible]
    cases hnames : p.units with
    | nil =>
        rw [if_pos (.inl rfl)]
        rfl
    | cons unit rest =>
        rw [if_neg (by simp [hlegible])]
        change Except.ok (Request.plan { p with units := unit :: rest }) = _
        rw [← hnames]
  · rw [if_neg hlegible, if_pos (.inr hlegible)]
    rfl

theorem ofArguments_commandLine :
    Request.ofArguments p.commandLine = Request.ofPlan p.arguments.written :=
  rfl

/-- The plan that a command line asks for is shown; without a unit, or with a number that is too
long to be read, it asks for none. -/
theorem answer_commandLine : answer p.commandLine =
    if p.units = [] ∨ ¬p.Legible then .ok { exit := 2 } else showPlan p := by
  rw [answer, ofArguments_commandLine, ofPlan_written]
  by_cases h : p.units = [] ∨ ¬p.Legible
  · rw [if_pos h, if_pos h]
  · rw [if_neg h, if_neg h]
    rfl

end PlanRequest

end SeededTesting.Command
