import SeededTesting.Proofs.Script.Codes

/-! # Induction over scripts

Scripts are lists of steps, and steps contain scripts: the bodies of forks and attempts, and the
scripts of the suites that are run within. What a step does depends on these only.
-/

namespace SeededTesting

section Sizes

variable {Code : Type} [SizeOf Code]

theorem ListenerFactory.sizeOf_lt_of_mem_codes {factory : ListenerFactory Code} {code : Code}
    (h : code ∈ factory.codes) : sizeOf code < sizeOf factory := by
  obtain ⟨tag, shared, create, started, ignored, assumptionFailed, failed, finished⟩ := factory
  simp only [codes, NotificationKind.all, List.map_cons, List.map_nil, List.mem_cons,
    List.not_mem_nil, or_false, Reactions.on] at h
  rcases h with rfl | rfl | rfl | rfl | rfl | rfl
  all_goals
    simp only [ListenerFactory.mk.sizeOf_spec, Reactions.mk.sizeOf_spec]
    omega

theorem Rule.sizeOf_lt_of_mem_codes {rule : Rule Code} {code : Code} (h : code ∈ rule.codes) :
    sizeOf code < sizeOf rule := by
  obtain ⟨tag, build, before, times, after, swallow⟩ := rule
  simp only [codes, List.mem_cons, List.not_mem_nil, or_false] at h
  rcases h with rfl | rfl | rfl
  all_goals
    simp only [Rule.mk.sizeOf_spec]
    omega

theorem sizeOf_lt_of_some {α : Type} [SizeOf α] {o : Option α} {a : α} (h : o = some a) :
    sizeOf a < sizeOf o := by
  rw [h, Option.some.sizeOf_spec]
  omega

theorem Level.sizeOf_lt_of_mem_codes {level : Level Code} {code : Code} (h : code ∈ level.codes) :
    sizeOf code < sizeOf level := by
  obtain ⟨phase, -, h⟩ := List.mem_flatMap.mp h
  obtain ⟨hook, hhook, hcode⟩ := List.mem_filterMap.mp h
  have hinner : sizeOf code < sizeOf hook := by
    obtain ⟨name, label, inner⟩ := hook
    have : sizeOf code < sizeOf inner := sizeOf_lt_of_some hcode
    simp only [Hook.mk.sizeOf_spec]
    omega
  have hhooks := List.sizeOf_lt_of_mem hhook
  obtain ⟨owner, beforeAll, beforeEach, afterEach, afterAll⟩ := level
  simp only [Level.mk.sizeOf_spec]
  cases phase <;> simp only [Level.hooks] at hhooks <;> omega

/-- What a collaborator does is smaller than the suite. -/
theorem Suite.sizeOf_lt_of_mem_codes {suite : Suite Code} {code : Code} (h : code ∈ suite.codes) :
    sizeOf code < sizeOf suite := by
  obtain ⟨name, factory, units, levels, metadata, listeners, rules⟩ := suite
  simp only [codes, List.mem_append] at h
  rw [Suite.mk.sizeOf_spec]
  -- In the order of the codes: the factory, bodies, hooks, rules and listeners.
  rcases h with (((h | h) | h) | h) | h
  · cases factory with
    | none => cases h
    | some factory =>
        obtain ⟨inner, yields⟩ := factory
        rw [Option.map_some, Option.toList_some, List.mem_singleton] at h
        subst h
        simp only [Option.some.sizeOf_spec, Factory.mk.sizeOf_spec]
        omega
  · obtain ⟨unit, hunit, hbody⟩ := List.mem_filterMap.mp h
    have hunits := List.sizeOf_lt_of_mem hunit
    have hinner : sizeOf code < sizeOf unit := by
      obtain ⟨name, metadata, ignored, body⟩ := unit
      have : sizeOf code < sizeOf body := sizeOf_lt_of_some hbody
      simp only [TestUnit.mk.sizeOf_spec]
      omega
    omega
  · obtain ⟨level, hlevel, hcode⟩ := List.mem_flatMap.mp h
    have hlevels := List.sizeOf_lt_of_mem hlevel
    have hinner := Level.sizeOf_lt_of_mem_codes hcode
    omega
  · obtain ⟨rule, hrule, hcode⟩ := List.mem_flatMap.mp h
    have hrules := List.sizeOf_lt_of_mem hrule
    have hinner := Rule.sizeOf_lt_of_mem_codes hcode
    omega
  · obtain ⟨factory, hfactory, hcode⟩ := List.mem_flatMap.mp h
    have hlisteners := List.sizeOf_lt_of_mem hfactory
    have hinner := ListenerFactory.sizeOf_lt_of_mem_codes hcode
    omega

end Sizes

namespace Script

/-- The scripts that a step contains. -/
def Step.inner : Step → List Script
  | .fork body | .attempt body => [body]
  | .nested suite _ _ => suite.codes
  | _ => []

theorem Step.sizeOf_lt_of_mem_inner {step : Step} {script : Script} (h : script ∈ step.inner) :
    sizeOf script < sizeOf step := by
  cases step with
  | fork body | attempt body =>
      cases List.mem_singleton.mp h
      simp
  | nested suite settings test =>
      have := Suite.sizeOf_lt_of_mem_codes h
      simp only [Step.nested.sizeOf_spec]
      omega
  | _ => cases h

/-- What holds of the empty script, and of every script whose first step contains only scripts of
which it holds, holds of all scripts. -/
theorem induction {motive : Script → Prop} (nil : motive [])
    (cons : ∀ step rest, (∀ script ∈ step.inner, motive script) → motive rest →
      motive (step :: rest)) : ∀ script, motive script
  | [] => nil
  | step :: rest =>
      cons step rest (fun script h => by
        have := Step.sizeOf_lt_of_mem_inner h
        exact induction nil cons script) (induction nil cons rest)
  termination_by script => sizeOf script
  decreasing_by
    · simp only [List.cons.sizeOf_spec]
      omega
    · simp only [List.cons.sizeOf_spec]
      omega

/-! ## Scripts that avoid steps -/

mutual

/-- Whether a step is not of a sort and contains none of it. The scripts of other suites are not
looked into. -/
def Step.avoids (sort : Step → Bool) : Step → Bool
  | .fork body => avoids sort body
  | .attempt body => avoids sort body
  | step => !sort step

/-- Whether a script contains no step of a sort. -/
def avoids (sort : Step → Bool) : List Step → Bool
  | [] => true
  | step :: rest => step.avoids sort && avoids sort rest

end

/-- Whether a step changes the stack by itself. -/
def Step.moves : Step → Bool
  | .push _ | .pop | .clear => true
  | _ => false

/-- Whether a step changes who is run. -/
def Step.filters : Step → Bool
  | .filter _ => true
  | _ => false

/-- Whether a step runs another suite. -/
def Step.nests : Step → Bool
  | .nested .. => true
  | _ => false

/-- Whether a step changes who listens. -/
def Step.enlists : Step → Bool
  | .subscribe _ | .unsubscribe _ => true
  | _ => false

/-- Whether a step changes the subscriptions of one listener. -/
def Step.enlistsOne (listener : Nat) : Step → Bool
  | .subscribe other | .unsubscribe other => other == listener
  | _ => false

/-- Whether a step raises an object that may have been raised before. -/
def Step.shares : Step → Bool
  | .raise raisings => raisings.any fun raising =>
    raising.error.key.isSome || raising.cause.any fun cause => cause.any (·.key.isSome)
  | _ => false

theorem avoids_cons {sort : Step → Bool} {step : Step} {rest : Script}
    (h : avoids sort (step :: rest) = true) :
    step.avoids sort = true ∧ avoids sort rest = true := by
  rw [avoids, Bool.and_eq_true] at h
  exact h

end Script
end SeededTesting
