import Mathlib.Data.List.Basic
import SeededTesting.Run.Script

/-! # The codes of a suite

The codes of a suite are what its collaborators do, whoever they are. A suite of scripts can be run
as a suite of procedures, whose codes are the runs of the scripts.
-/

namespace SeededTesting

variable {Code : Type}

/-- What the listener of a declared factory does, and what making it does. -/
def ListenerFactory.codes (factory : ListenerFactory Code) : List Code :=
  factory.create :: NotificationKind.all.map factory.reactions.on

def Rule.codes (rule : Rule Code) : List Code :=
  [rule.build, rule.before, rule.after]

def Level.codes (level : Level Code) : List Code :=
  Phase.all.flatMap fun phase => (level.hooks phase).filterMap (·.code)

/-- What the collaborators of a suite do. -/
def Suite.codes (suite : Suite Code) : List Code :=
  (suite.factory.map (·.code)).toList ++ suite.units.filterMap (·.body) ++
    suite.levels.flatMap Level.codes ++ suite.rules.flatMap Rule.codes ++
    suite.listeners.flatMap ListenerFactory.codes

namespace Suite

variable {suite : Suite Code} {code : Code}

theorem factory_mem_codes {factory : Factory Code} (h : suite.factory = some factory) :
    factory.code ∈ suite.codes := by
  simp [codes, h]

theorem body_mem_codes {unit : TestUnit Code} (hunit : unit ∈ suite.units)
    (hbody : unit.body = some code) : code ∈ suite.codes := by
  have : code ∈ suite.units.filterMap (·.body) := List.mem_filterMap.mpr ⟨unit, hunit, hbody⟩
  simp [codes, this]

theorem hook_mem_codes {level : Level Code} {phase : Phase} {hook : Hook Code}
    (hlevel : level ∈ suite.levels) (hhook : hook ∈ level.hooks phase)
    (hcode : hook.code = some code) : code ∈ suite.codes := by
  have hphase : phase ∈ Phase.all := by cases phase <;> decide
  have : code ∈ suite.levels.flatMap Level.codes :=
    List.mem_flatMap.mpr ⟨level, hlevel, List.mem_flatMap.mpr
      ⟨phase, hphase, List.mem_filterMap.mpr ⟨hook, hhook, hcode⟩⟩⟩
  simp [codes, this]

theorem rule_mem_codes {rule : Rule Code} (hrule : rule ∈ suite.rules) (hcode : code ∈ rule.codes) :
    code ∈ suite.codes := by
  have : code ∈ suite.rules.flatMap Rule.codes := List.mem_flatMap.mpr ⟨rule, hrule, hcode⟩
  simp [codes, this]

theorem listener_mem_codes {factory : ListenerFactory Code} (hfactory : factory ∈ suite.listeners)
    (hcode : code ∈ factory.codes) : code ∈ suite.codes := by
  have : code ∈ suite.listeners.flatMap ListenerFactory.codes :=
    List.mem_flatMap.mpr ⟨factory, hfactory, hcode⟩
  simp [codes, this]

end Suite

/-! ## Suites of scripts -/

namespace Script

variable (host : Host)

/-- A script as a procedure. -/
def procedure (script : Script) : Procedure :=
  fun label => runSteps host label script

theorem factoryProcedure?_code (factory : Option (Factory Script)) :
    (factoryProcedure? host factory).map (·.code) =
      (factory.map (·.code)).map (procedure host) := by
  cases factory with
  | none => rfl
  | some factory =>
      rw [factoryProcedure?, factoryProcedure]
      rfl

theorem procedure?_eq (script : Option Script) :
    procedure? host script = script.map (procedure host) := by
  cases script <;> rfl

theorem unitProcedures_eq (units : List (TestUnit Script)) :
    unitProcedures host units = units.map (unitProcedure host) := by
  induction units with
  | nil => rfl
  | cons unit rest ih => rw [unitProcedures, ih, List.map_cons]

theorem levelProcedures_eq (levels : List (Level Script)) :
    levelProcedures host levels = levels.map (levelProcedure host) := by
  induction levels with
  | nil => rfl
  | cons level rest ih => rw [levelProcedures, ih, List.map_cons]

theorem hookProcedures_eq (hooks : List (Hook Script)) :
    hookProcedures host hooks = hooks.map (hookProcedure host) := by
  induction hooks with
  | nil => rfl
  | cons hook rest ih => rw [hookProcedures, ih, List.map_cons]

theorem ruleProcedures_eq (rules : List (Rule Script)) :
    ruleProcedures host rules = rules.map (ruleProcedure host) := by
  induction rules with
  | nil => rfl
  | cons rule rest ih => rw [ruleProcedures, ih, List.map_cons]

theorem listenerProcedures_eq (factories : List (ListenerFactory Script)) :
    listenerProcedures host factories = factories.map (listenerProcedure host) := by
  induction factories with
  | nil => rfl
  | cons factory rest ih => rw [listenerProcedures, ih, List.map_cons]

theorem unitProcedure_body (unit : TestUnit Script) :
    (unitProcedure host unit).body = unit.body.map (procedure host) := by
  rw [unitProcedure, procedure?_eq]

theorem hookProcedure_code (hook : Hook Script) :
    (hookProcedure host hook).code = hook.code.map (procedure host) := by
  rw [hookProcedure, procedure?_eq]

theorem levelProcedure_hooks (level : Level Script) (phase : Phase) :
    (levelProcedure host level).hooks phase = (level.hooks phase).map (hookProcedure host) := by
  rw [levelProcedure]
  cases phase <;> exact hookProcedures_eq host _

theorem levelProcedure_codes (level : Level Script) :
    (levelProcedure host level).codes = level.codes.map (procedure host) := by
  rw [Level.codes, Level.codes, List.map_flatMap]
  refine List.flatMap_congr fun phase _ => ?_
  rw [levelProcedure_hooks, List.filterMap_map, List.map_filterMap]
  exact List.filterMap_congr fun hook _ => hookProcedure_code host hook

theorem listenerProcedure_codes (factory : ListenerFactory Script) :
    (listenerProcedure host factory).codes = factory.codes.map (procedure host) := by
  rw [listenerProcedure, reactionProcedures]
  rfl

theorem ruleProcedure_codes (rule : Rule Script) :
    (ruleProcedure host rule).codes = rule.codes.map (procedure host) := by
  rw [ruleProcedure]
  rfl

/-- The codes of a suite that is run are the runs of its scripts. -/
theorem codes_suiteProcedures (suite : Suite Script) :
    (suiteProcedures host suite).codes = suite.codes.map (procedure host) := by
  obtain ⟨name, factory, units, levels, metadata, listeners, rules⟩ := suite
  have hfactory : ((factoryProcedure? host factory).map (·.code)).toList =
      (factory.map (·.code)).toList.map (procedure host) := by
    rw [factoryProcedure?_code]
    cases factory <;> rfl
  have hunits : (unitProcedures host units).filterMap (·.body) =
      (units.filterMap (·.body)).map (procedure host) := by
    rw [unitProcedures_eq, List.filterMap_map, List.map_filterMap]
    exact List.filterMap_congr fun unit _ => unitProcedure_body host unit
  have hlevels : (levelProcedures host levels).flatMap Level.codes =
      (levels.flatMap Level.codes).map (procedure host) := by
    rw [levelProcedures_eq, List.flatMap_map, List.map_flatMap]
    exact List.flatMap_congr fun level _ => levelProcedure_codes host level
  have hrules : (ruleProcedures host rules).flatMap Rule.codes =
      (rules.flatMap Rule.codes).map (procedure host) := by
    rw [ruleProcedures_eq, List.flatMap_map, List.map_flatMap]
    exact List.flatMap_congr fun rule _ => ruleProcedure_codes host rule
  have hlisteners : (listenerProcedures host listeners).flatMap ListenerFactory.codes =
      (listeners.flatMap ListenerFactory.codes).map (procedure host) := by
    rw [listenerProcedures_eq, List.flatMap_map, List.map_flatMap]
    exact List.flatMap_congr fun factory _ => listenerProcedure_codes host factory
  rw [suiteProcedures]
  simp only [Suite.codes, hfactory, hunits, hlevels, hrules, hlisteners, List.map_append]

/-- What holds of the run of every script holds of every code of the suite that is run. -/
theorem codes_suiteProcedures_all {suite : Suite Script} {p : Script → Prop}
    {q : Procedure → Prop} (hsuite : ∀ script ∈ suite.codes, p script)
    (h : ∀ script, p script → q (procedure host script)) :
    ∀ code ∈ (suiteProcedures host suite).codes, q code := by
  rw [codes_suiteProcedures]
  intro code hcode
  obtain ⟨script, hscript, rfl⟩ := List.mem_map.mp hcode
  exact h script (hsuite script hscript)

end Script
end SeededTesting
