import Mathlib.Algebra.BigOperators.Group.List.Basic
import Mathlib.Data.List.Induction
import SeededTesting.Proofs.Act.Execution
import SeededTesting.Proofs.Act.Moments
import SeededTesting.Run.Lifecycle

/-! # Rules with their moments

The rules of a suite are applied one after another, and only then is the statement run that they
make: the body in the first rule, this in the second one, and so on. This module takes down what
such a statement goes through, and shows what it goes through if nothing raises.
-/

namespace SeededTesting

/-- What happens while rules are applied and the statement that they make is run. Rules are told
apart by their places. An error is raised at the level of the first wrapper that is around: the body
is at level 0, and what a wrapper does itself before and after its inner statement is at the level
above its place. -/
inductive RuleMoment where
  | applied (place : Nat)
  | entered (place : Nat)
  | called
  | raised (level : Nat) (e : ErrorId) (interrupt : Bool)
  | caught (place : Nat) (e : ErrorId)
  | left (place : Nat)
deriving DecidableEq, Repr

/-- An action together with what happens to rules in it. -/
abbrev TracedRules := Traced ErrorId World RuleMoment

namespace TracedRules

/-- An action that is a moment. -/
def told (m : RuleMoment) (body : Act Unit) : TracedRules Unit where
  act := body
  moments _ := [m]

/-- An action at a level, of which only an error that leaves it is told. -/
def raising (level : Nat) (body : Act Unit) : TracedRules Unit where
  act := body
  moments w := match body.exec w with
    | (.ok _, _) => []
    | (.error e, v) => [.raised level e (v.errors.get e).kind.interrupt]

/-- Runs an action with a handler of its errors; interrupts pass. -/
def handle (body : TracedRules Unit) (handler : ErrorId → TracedRules Unit) :
    TracedRules Unit where
  act := Act.handle body.act fun e => (handler e).act
  moments w := body.moments w ++ match body.exec w with
    | (.ok _, _) => []
    | (.error e, v) =>
      if (v.errors.get e).kind.interrupt then []
      else (handler e).moments { v with handling := some e }

section Handle

variable {body : TracedRules Unit} {handler : ErrorId → TracedRules Unit} {w v : World}
  {e : ErrorId}

theorem exec_handle : (handle body handler).exec w = match body.exec w with
    | (.ok value, v) => (.ok value, v)
    | (.error e, v) =>
      if (v.errors.get e).kind.interrupt then (.error e, v)
      else (Act.whileHandling e (handler e).act).exec v := by
  have hbody : Act.exec body.act w = body.exec w := rfl
  refine (Act.exec_handle body.act (fun e => (handler e).act) w).trans ?_
  rw [hbody]
  rcases body.exec w with ⟨e | _, v⟩ <;> rfl

theorem moments_handle_of_ok (h : body.exec w = (.ok (), v)) :
    (handle body handler).moments w = body.moments w := by
  simp [handle, h]

theorem moments_handle_of_interrupt (h : body.exec w = (.error e, v))
    (hkind : (v.errors.get e).kind.interrupt = true) :
    (handle body handler).moments w = body.moments w := by
  simp [handle, h, hkind]

theorem moments_handle_of_error (h : body.exec w = (.error e, v))
    (hkind : (v.errors.get e).kind.interrupt = false) :
    (handle body handler).moments w =
      body.moments w ++ (handler e).moments { v with handling := some e } := by
  simp [handle, h, hkind]

end Handle
end TracedRules

/-! ## Applying rules, and the nest that they make -/

namespace Rule

/-- Applies rules one after another, up to the first error. -/
def applyEach (unit : String) (target : Instance) : List (Rule Procedure) → Act Unit
  | [] => return
  | rule :: rest => do
    rule.apply unit target
    applyEach unit target rest

/-- The last rule around ... around the first rule around a statement. -/
def nest (rules : List (Rule Procedure)) (statement : Act Unit) : Act Unit :=
  rules.foldl (fun inner rule => rule.around inner) statement

theorem applyAll_eq (unit : String) (target : Instance) (rules : List (Rule Procedure))
    (statement : Act Unit) :
    applyAll unit target rules statement = do
      applyEach unit target rules
      return nest rules statement := by
  induction rules generalizing statement with
  | nil => rfl
  | cons rule rest ih => simp only [applyAll, applyEach, ih, bind_assoc, nest, List.foldl_cons]

def tracedApplyEach (unit : String) (target : Instance) :
    (place : Nat) → List (Rule Procedure) → TracedRules Unit
  | _, [] => return
  | place, rule :: rest => do
    .told (.applied place) (rule.apply unit target)
    tracedApplyEach unit target (place + 1) rest

def tracedRepeated (statement : TracedRules Unit) : Nat → TracedRules Unit
  | 0 => return
  | times + 1 => do
    statement
    tracedRepeated statement times

/-- An inner statement as it is run by the wrapper at a place. -/
def tracedInner (rule : Rule Procedure) (place : Nat) (statement : TracedRules Unit) :
    TracedRules Unit :=
  .handle (tracedRepeated statement rule.times) fun e =>
    .told (.caught place e) do
      Act.emit (.ruleCaught rule.tag (← Act.complaint e))
      unless rule.swallow do throw e

def tracedAround (rule : Rule Procedure) (place : Nat) (statement : TracedRules Unit) :
    TracedRules Unit := do
  .told (.entered place) (Act.emit (.ruleEntered rule.tag))
  .raising (place + 1) (rule.before rule.label)
  rule.tracedInner place statement
  .raising (place + 1) (rule.after rule.label)
  .told (.left place) (Act.emit (.ruleLeft rule.tag))

def tracedNest (rules : List (Rule Procedure)) (statement : TracedRules Unit) :
    TracedRules Unit :=
  rules.zipIdx.foldl (fun inner (rule, place) => rule.tracedAround place inner) statement

theorem tracedNest_snoc (rules : List (Rule Procedure)) (rule : Rule Procedure)
    (statement : TracedRules Unit) :
    tracedNest (rules ++ [rule]) statement =
      rule.tracedAround rules.length (tracedNest rules statement) := by
  simp [tracedNest, List.zipIdx_append]

end Rule

/-- The body of a unit, which is called at level 0. -/
def TestUnit.tracedCall (unit : TestUnit Procedure) (target : Instance) : TracedRules Unit := do
  .told .called (return)
  .raising 0 (unit.call target)

/-- The test body with the rules around it, and what happens to them. -/
def Runner.tracedBody (r : Runner Procedure) (c : Candidate Procedure) (target : Instance) :
    TracedRules Unit := do
  Rule.tracedApplyEach c.unit.name target 0 r.suite.rules
  Rule.tracedNest r.suite.rules (c.unit.tracedCall target)

namespace Rule

/-! ## What is told does not change what is done -/

theorem act_tracedApplyEach (unit : String) (target : Instance) (place : Nat)
    (rules : List (Rule Procedure)) :
    (tracedApplyEach unit target place rules).act = applyEach unit target rules := by
  induction rules generalizing place with
  | nil => rfl
  | cons rule rest ih => exact bind_congr fun _ => ih (place + 1)

theorem act_tracedRepeated (statement : TracedRules Unit) (times : Nat) :
    (tracedRepeated statement times).act = repeated statement.act times := by
  induction times with
  | zero => rfl
  | succ times ih => exact bind_congr fun _ => ih

theorem act_tracedAround (rule : Rule Procedure) (place : Nat) (statement : TracedRules Unit) :
    (rule.tracedAround place statement).act = rule.around statement.act := by
  rw [around, ← act_tracedRepeated]
  rfl

theorem act_tracedNest (rules : List (Rule Procedure)) (statement : TracedRules Unit) :
    (tracedNest rules statement).act = nest rules statement.act := by
  induction rules using List.reverseRecOn with
  | nil => rfl
  | append_singleton rules rule ih =>
      rw [tracedNest_snoc, act_tracedAround, ih, nest, nest, List.foldl_append]
      rfl

end Rule

theorem TestUnit.act_tracedCall (unit : TestUnit Procedure) (target : Instance) :
    (unit.tracedCall target).act = unit.call target :=
  pure_bind () _

theorem Runner.callBody_eq (r : Runner Procedure) (c : Candidate Procedure) (target : Instance) :
    r.callBody c target = (do
      Rule.applyEach c.unit.name target r.suite.rules
      Rule.nest r.suite.rules (c.unit.call target)) := by
  simp only [Runner.callBody, Rule.applyAll_eq, bind_assoc, pure_bind]

theorem Runner.act_tracedBody (r : Runner Procedure) (c : Candidate Procedure)
    (target : Instance) : (r.tracedBody c target).act = r.callBody c target := by
  rw [callBody_eq, tracedBody, Traced.act_bind, Rule.act_tracedApplyEach]
  simp only [Rule.act_tracedNest, TestUnit.act_tracedCall]

/-! ## The course of a nest -/

namespace Rule

variable {Code : Type}

/-- What a nest goes through if nothing raises: each wrapper is entered, runs its inner statement
as often as it says, and is left. -/
def course (rules : List (Rule Code)) : List RuleMoment :=
  rules.zipIdx.foldl (fun inner (rule, place) =>
    .entered place :: (List.replicate rule.times inner).flatten ++ [.left place]) [.called]

theorem course_snoc (rules : List (Rule Code)) (rule : Rule Code) :
    course (rules ++ [rule]) = .entered rules.length ::
      (List.replicate rule.times (course rules)).flatten ++ [.left rules.length] := by
  simp [course, List.zipIdx_append]

/-- The body is called as often as the wrappers multiply it. -/
theorem count_called_course (rules : List (Rule Code)) :
    (course rules).count .called = (rules.map (·.times)).prod := by
  induction rules using List.reverseRecOn with
  | nil => rfl
  | append_singleton rules rule ih =>
      have hinner : ((List.replicate rule.times (course rules)).flatten).count .called =
          rule.times * (rules.map (·.times)).prod := by
        rw [List.count_flatten, List.map_replicate, List.sum_replicate_nat, ih]
      rw [course_snoc, List.count_append, List.count_cons, hinner]
      simp [mul_comm]

/-- Wrappers that run their inner statement once are entered from the last one to the first one
and left the other way round. -/
theorem course_of_once {rules : List (Rule Code)} (honce : ∀ rule ∈ rules, rule.times = 1) :
    course rules = (List.range rules.length).reverse.map .entered ++
      .called :: (List.range rules.length).map .left := by
  induction rules using List.reverseRecOn with
  | nil => rfl
  | append_singleton rules rule ih =>
      have hinner := ih fun rule hrule => honce rule (List.mem_append_left _ hrule)
      have htimes : rule.times = 1 := honce rule (by simp)
      rw [course_snoc, htimes, hinner]
      simp [List.range_succ]

example (tick : Code) : course
    [⟨"twice", tick, tick, 2, tick, false⟩, ⟨"once", tick, tick, 1, tick, false⟩] =
      [.entered 1, .entered 0, .called, .called, .left 0, .left 1] := rfl

end Rule

namespace TracedRules

/-- Unless something raises, an action goes through these moments and succeeds. -/
def RunsAs (ms : List RuleMoment) (body : TracedRules Unit) : Prop :=
  ∀ w, (∀ level e interrupt, .raised level e interrupt ∉ body.moments w) →
    body.moments w = ms ∧ (body.exec w).1 = .ok ()

namespace RunsAs

variable {body next : TracedRules Unit} {ms ns : List RuleMoment}

theorem value : RunsAs [] (pure () : TracedRules Unit) :=
  fun _ _ => ⟨rfl, rfl⟩

theorem told {m : RuleMoment} {action : Act Unit} (haction : ∀ w, (action.exec w).1 = .ok ()) :
    RunsAs [m] (.told m action) :=
  fun w _ => ⟨rfl, haction w⟩

theorem raising (level : Nat) (action : Act Unit) : RunsAs [] (.raising level action) := by
  intro w hquiet
  rcases hout : action.exec w with ⟨e | _, v⟩
  · have hraised : (TracedRules.raising level action).moments w =
        [.raised level e (v.errors.get e).kind.interrupt] := by
      simp only [TracedRules.raising, hout]
    exact absurd (by simp [hraised]) (hquiet level e (v.errors.get e).kind.interrupt)
  · exact ⟨by simp only [TracedRules.raising, hout], congrArg Prod.fst hout⟩

theorem bind (hbody : RunsAs ms body) (hnext : RunsAs ns next) :
    RunsAs (ms ++ ns) (body >>= fun _ => next) := by
  intro w hquiet
  rcases hout : body.exec w with ⟨e | _, v⟩
  · rw [Traced.moments_bind_of_error hout] at hquiet
    have hok := (hbody w hquiet).2
    rw [hout] at hok
    cases hok
  · rw [Traced.moments_bind_of_ok hout] at hquiet ⊢
    obtain ⟨hms, -⟩ := hbody w fun level e interrupt hmem =>
      hquiet level e interrupt (List.mem_append_left _ hmem)
    obtain ⟨hns, hok⟩ := hnext v fun level e interrupt hmem =>
      hquiet level e interrupt (List.mem_append_right _ hmem)
    rw [hms, hns, Traced.exec_bind, hout]
    exact ⟨rfl, hok⟩

theorem handle (hbody : RunsAs ms body) (handler : ErrorId → TracedRules Unit) :
    RunsAs ms (.handle body handler) := by
  intro w hquiet
  obtain ⟨hms, hok⟩ := hbody w fun level e interrupt hmem =>
    hquiet level e interrupt (List.mem_append_left _ hmem)
  rcases hout : body.exec w with ⟨e | _, v⟩
  · rw [hout] at hok
    cases hok
  · rw [moments_handle_of_ok hout, exec_handle, hout]
    exact ⟨hms, rfl⟩

end RunsAs
end TracedRules

namespace Rule

open TracedRules

theorem runsAs_repeated {statement : TracedRules Unit} {ms : List RuleMoment}
    (h : RunsAs ms statement) (times : Nat) :
    RunsAs (List.replicate times ms).flatten (tracedRepeated statement times) := by
  induction times with
  | zero => exact .value
  | succ times ih => exact h.bind ih

theorem runsAs_around (rule : Rule Procedure) (place : Nat) {statement : TracedRules Unit}
    {ms : List RuleMoment} (h : RunsAs ms statement) :
    RunsAs (.entered place :: (List.replicate rule.times ms).flatten ++ [.left place])
      (rule.tracedAround place statement) := by
  have hinner := (runsAs_repeated h rule.times).handle fun e =>
    .told (.caught place e) do
      Act.emit (.ruleCaught rule.tag (← Act.complaint e))
      unless rule.swallow do throw e
  have hleft : RunsAs [.left place] (.told (.left place) (Act.emit (.ruleLeft rule.tag))) :=
    .told fun _ => rfl
  have hentered : RunsAs [.entered place]
      (.told (.entered place) (Act.emit (.ruleEntered rule.tag))) :=
    .told fun _ => rfl
  exact hentered.bind <| (RunsAs.raising _ _).bind <| hinner.bind <|
    (RunsAs.raising _ _).bind hleft

theorem runsAs_nest {statement : TracedRules Unit} (h : RunsAs [.called] statement)
    (rules : List (Rule Procedure)) : RunsAs (course rules) (tracedNest rules statement) := by
  -- A later rule goes around the earlier ones, so the list is taken apart from its end.
  induction rules using List.reverseRecOn with
  | nil => exact h
  | append_singleton rules rule ih =>
      rw [course_snoc, tracedNest_snoc]
      exact rule.runsAs_around rules.length ih

end Rule

/-! ## Events -/

/-- The event of a moment: that of the rule at its place, or the call of the body, if there is one.
What a rule hears of an error is looked up in a store; an error that is raised leaves no event by
itself. -/
def RuleMoment.event? (rules : List (Rule Procedure)) (unit : TestUnit Procedure)
    (target : Instance) (errors : ErrorStore) : RuleMoment → Option Event
  | .applied place => rules[place]?.map fun rule => .ruleBuilt rule.tag unit.name target
  | .entered place => rules[place]?.map fun rule => .ruleEntered rule.tag
  | .called => unit.body.map fun _ => .called ("body:" ++ unit.name) [target]
  | .raised .. => none
  | .caught place e =>
    rules[place]?.map fun rule => .ruleCaught rule.tag (errors.get e).toComplaint
  | .left place => rules[place]?.map fun rule => .ruleLeft rule.tag

/-- The events of all moments that the body with its rules goes through from a world on. -/
def Runner.bodyEvents (r : Runner Procedure) (c : Candidate Procedure) (target : Instance)
    (w : World) : List Event :=
  ((r.tracedBody c target).moments w).filterMap
    (RuleMoment.event? r.suite.rules c.unit target ((r.tracedBody c target).exec w).2.errors)

end SeededTesting
