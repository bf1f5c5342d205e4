import SeededTesting.Proofs.Script.Induction
import SeededTesting.Proofs.Shift.Actions

/-! # Scripts along a shift

A script that runs no other suite and shares no error objects does the same in related worlds: what
it draws and sees, and which errors it raises, depends on nothing else.
-/

namespace SeededTesting

open Shift

/-- A procedure that does the same along every shift, under whatever label it is run. -/
def Procedure.Oblivious (procedure : Procedure) : Prop :=
  ∀ (κ : Shift) label, κ.Corresponds 0 (procedure label) (procedure label) Same

theorem Procedure.Oblivious.corresponds {procedure : Procedure} (h : procedure.Oblivious)
    {κ : Shift} {n : Nat} (label : String) :
    κ.Corresponds n (procedure label) (procedure label) Same :=
  (h κ label).mono (Nat.zero_le n)

namespace Script

/-- Steps of one sort are avoided if those of a wider sort are. -/
theorem avoids_mono {sort sort' : Step → Bool}
    (h : ∀ step, sort' step = true → sort step = true) {script : Script}
    (hsort : avoids sort script = true) : avoids sort' script = true := by
  induction script using induction with
  | nil => rfl
  | cons step rest hinner ih =>
      obtain ⟨hstep, hrest⟩ := avoids_cons hsort
      have hleaf : sort step = false → sort' step = false := by
        intro hfalse
        rw [Bool.eq_false_iff] at hfalse ⊢
        exact fun htrue => hfalse (h step htrue)
      rw [avoids, ih hrest, Bool.and_true]
      cases step with
      | fork body | attempt body => exact hinner body List.mem_cons_self hstep
      | _ =>
          change (!sort _) = true at hstep
          change (!sort' _) = true
          rw [Bool.not_eq_true'] at hstep ⊢
          exact hleaf hstep

/-- Whether what a step does hangs on what other scripts did. -/
def Step.depends (step : Step) : Bool :=
  step.nests || step.shares

variable {κ : Shift} {n : Nat} {host : Host} {label : String}

/-! ## Errors that scripts raise -/

theorem corresponds_make {source : ErrorSource} (h : source.key = none) :
    κ.Corresponds n source.make source.make κ.Named := by
  have hmake : source.make = Act.makeError source.complaint := by
    unfold ErrorSource.make
    rw [h]
    rfl
  rw [hmake]
  exact .makeError _

theorem corresponds_raise {raising : Raising} (herror : raising.error.key = none)
    (hcause : ∀ source, raising.cause = some (some source) → source.key = none) :
    κ.Corresponds n raising.raise raising.raise Same := by
  refine (corresponds_make herror).bind fun e e' m _ he => ?_
  cases hdeclared : raising.cause with
  | none => exact .raise he
  | some source =>
      have hmade : κ.Corresponds m (source.mapM ErrorSource.make) (source.mapM ErrorSource.make)
          fun cause cause' _ => cause' = cause.map κ.place := by
        cases source with
        | none => exact .value fun _ _ => rfl
        | some source =>
            refine (corresponds_make (hcause source hdeclared)).bind fun _ _ _ _ h =>
              .value fun _ _ => ?_
            exact congrArg some h.2
      refine hmade.bind fun cause cause' _ hm heq => ?_
      exact (Corresponds.setCause (he.mono hm) heq).bind fun _ _ _ hm' _ =>
        .raise (he.mono (Nat.le_trans hm hm'))

theorem corresponds_raiseInTurn {raisings : List Raising}
    (h : Step.shares (.raise raisings) = false) :
    κ.Corresponds n (raiseInTurn raisings) (raiseInTurn raisings) Same := by
  have hall := List.any_eq_false.mp h
  clear h
  induction raisings generalizing n with
  | nil => exact .value fun _ _ => rfl
  | cons raising rest ih =>
      have hraising := hall raising List.mem_cons_self
      simp only [Bool.or_eq_true, not_or, Bool.not_eq_true, Option.isSome_eq_false_iff,
        Option.isNone_iff_eq_none] at hraising
      have hraise : κ.Corresponds n raising.raise raising.raise Same := by
        refine corresponds_raise hraising.1 fun source hsource => ?_
        rw [hsource] at hraising
        simpa using hraising.2
      cases rest with
      | nil => exact hraise
      | cons next rest =>
          have hrest : ∀ m, κ.Corresponds m (raiseInTurn (next :: rest))
              (raiseInTurn (next :: rest)) Same :=
            fun m => ih fun raising hmem => hall raising (List.mem_cons_of_mem _ hmem)
          -- Whatever comes after an error is raised while that is handled.
          refine hraise.observe.bind fun outcome outcome' m _ hends => ?_
          obtain ⟨_, _, rfl, rfl, -⟩ | ⟨e, e', rfl, rfl, he⟩ := hends.inversion
          · exact hrest m
          · exact .whileHandling he (hrest m)

/-! ## Steps -/

theorem corresponds_observe (observation : Observation) :
    κ.Corresponds n (observe label observation) (observe label observation) Same :=
  .emit (.observed label observation)

/-- A step does the same if the scripts within it do. -/
theorem corresponds_step {step : Step} (hsort : step.avoids Step.depends = true)
    (hbody : ∀ body, step = .fork body ∨ step = .attempt body →
      avoids Step.depends body = true →
        κ.Corresponds n (runSteps host label body) (runSteps host label body) Same) :
    κ.Corresponds n (step.run host label) (step.run host label) Same := by
  cases step with
  | fraction =>
      rw [Step.run]
      exact (Corresponds.draw _).andThen fun _ => corresponds_observe _
  | bits width =>
      rw [Step.run]
      refine Corresponds.currentSource.discard.andThen fun _ => ?_
      have hdraw : κ.Corresponds n (do
          observe label (.bits (← Act.draw (·.bits width.toNat)))) (do
          observe label (.bits (← Act.draw (·.bits width.toNat)))) Same :=
        (Corresponds.draw _).andThen fun _ => corresponds_observe _
      split
      · exact (Corresponds.complain (V := Same) _).andThen fun _ => hdraw
      · exact hdraw
  | seed =>
      rw [Step.run]
      exact Corresponds.currentSource.andThen fun _ => corresponds_observe _
  | depth | context =>
      rw [Step.run]
      exact Corresponds.currentContext.andThen fun _ => corresponds_observe _
  | state =>
      rw [Step.run]
      refine Corresponds.world.bind fun small large _ _ h => ?_
      rw [h.1.session.state]
      exact corresponds_observe _
  | fork body =>
      rw [Step.run]
      exact (Corresponds.draw _).andThen fun _ => (corresponds_observe _).andThen fun _ =>
        .inScope (hbody body (.inl rfl) hsort)
  | push seed =>
      rw [Step.run]
      exact .push _
  | pop =>
      rw [Step.run]
      exact Corresponds.pop.andThen fun _ => corresponds_observe _
  | clear =>
      rw [Step.run]
      exact Corresponds.currentContext.discard.andThen fun _ => .setStack _
  | assume condition message =>
      rw [Step.run]
      cases condition with
      | true => exact .value fun _ _ => rfl
      | false => exact .complain _
  | raise raisings =>
      rw [Step.run]
      change (!Step.depends (.raise raisings)) = true at hsort
      rw [Bool.not_eq_true'] at hsort
      exact corresponds_raiseInTurn (Bool.or_eq_false_iff.mp hsort).2
  | attempt body =>
      rw [Step.run]
      refine .handle (hbody body (.inr rfl) hsort) fun e e' m _ he => ?_
      exact (Corresponds.complaint he).andThen fun _ => corresponds_observe _
  | filter test =>
      rw [Step.run]
      exact .modifySession fun _ _ _ _ h => { h with predicate := fun _ => rfl }
  | nested suite settings test => cases hsort
  | subscribe listener =>
      rw [Step.run]
      refine .modifySession fun _ _ _ _ h => { h with subscribed := ?_ }
      rw [h.subscribed]
  | unsubscribe listener =>
      rw [Step.run]
      refine .modifySession fun _ _ _ _ h => { h with subscribed := ?_ }
      rw [h.subscribed]

theorem oblivious (host : Host) {script : Script} (h : avoids Step.depends script = true) :
    (procedure host script).Oblivious := by
  intro κ label
  unfold procedure
  induction script using induction with
  | nil =>
      rw [runSteps]
      exact .value fun _ _ => rfl
  | cons step rest hinner ih =>
      obtain ⟨hstep, hrest⟩ := avoids_cons h
      rw [runSteps]
      refine (corresponds_step hstep ?_).andThen fun _ => ih hrest
      rintro body (rfl | rfl) hbody
      · exact hinner body List.mem_cons_self hbody
      · exact hinner body List.mem_cons_self hbody

end Script
end SeededTesting
