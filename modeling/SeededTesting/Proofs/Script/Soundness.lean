import SeededTesting.Proofs.Run.Soundness
import SeededTesting.Proofs.Script.Induction

/-! # Scripts are sound

Every script leaves a lawful world behind, by induction over the script and over those within it.
What a script keeps to besides depends on the steps that it avoids: one that does not move on the
stack rewinds it, and one that does not change who listens leaves the subscriptions alone.
-/

namespace SeededTesting

open Act

/-- Events that scripts leave by themselves. -/
def Event.isReport : Event → Bool
  | .observed .. | .nested .. => true
  | _ => false

namespace Script

/-- What a script without steps of a sort may do is within a conduct. -/
structure Permits (ρ : Regime) (B : Complaint → Prop) (sort : Step → Bool) : Prop
    extends Tolerates B where
  negativeWidth : B negativeWidth
  assumption : ∀ message, B ⟨.assumptionViolated, message⟩
  raised : ∀ raisings, sort (.raise raisings) = false → ∀ raising ∈ raisings,
    raising.error.key = none ∧ B raising.error.complaint ∨ ∀ c, B c
  interrupts : ∀ suite settings test, sort (.nested suite settings test) = false →
    ∀ c, c.kind.interrupt = true → B c
  moves : ∀ step : Step, step.moves = true → sort step = false → ¬ρ.balanced
  report : ∀ s event, event.isReport = true → ρ.step s { s with trace := s.trace.push event }
  filter : ∀ test, sort (.filter test) = false → ∀ s predicate, ρ.step s { s with predicate }
  subscribe : ∀ listener, sort (.subscribe listener) = false → ∀ s,
    ρ.step s { s with subscribed := s.subscribed ++ [.caller listener] }
  unsubscribe : ∀ listener, sort (.unsubscribe listener) = false → ∀ s,
    ρ.step s { s with subscribed := s.subscribed.erase (.caller listener) }

/-- Where all complaints are allowed, only what steps do to stacks and sessions matters. -/
theorem permits_complaints {ρ : Regime} {sort : Step → Bool}
    (moves : ∀ step : Step, step.moves = true → sort step = false → ¬ρ.balanced)
    (report : ∀ s event, event.isReport = true → ρ.step s { s with trace := s.trace.push event })
    (filter : ∀ test, sort (.filter test) = false → ∀ s predicate, ρ.step s { s with predicate })
    (subscribe : ∀ listener, sort (.subscribe listener) = false → ∀ s,
      ρ.step s { s with subscribed := s.subscribed ++ [.caller listener] })
    (unsubscribe : ∀ listener, sort (.unsubscribe listener) = false → ∀ s,
      ρ.step s { s with subscribed := s.subscribed.erase (.caller listener) }) :
    Permits ρ anyComplaint sort where
  toTolerates := complains_any.toTolerates
  negativeWidth := trivial
  assumption _ := trivial
  raised _ _ _ _ := .inr fun _ => trivial
  interrupts _ _ _ _ _ _ := trivial
  moves
  report
  filter
  subscribe
  unsubscribe

/-- Nothing is asked of scripts that may contain any step. -/
theorem permits_any : Permits .free anyComplaint fun _ => false := by
  apply permits_complaints
  case moves => exact fun _ _ _ => id
  all_goals
    intros
    trivial

variable {ρ : Regime} {B : Complaint → Prop} {sort : Step → Bool} {host : Host} {label : String}

/-! ## Errors that scripts raise -/

/-- An error object is at hand, and unless it is a shared one it says what it was made for. -/
theorem triple_make (source : ErrorSource) {P : World → Prop} (hP : Triple.Robust P)
    {X : ErrorId → World → Prop} :
    Triple ρ P source.make (fun e w => P w ∧ e < w.errors.size ∧
      (source.key = none → (w.errors.get e).toComplaint = source.complaint)) X := by
  intro w hw hPw
  unfold ErrorSource.make
  rw [exec_modifyGet]
  cases hkey : source.key with
  | none =>
      have hmade : Triple ρ P (Act.makeError source.complaint) _ X := Triple.makeError hP
      obtain ⟨hleads, hends⟩ := hmade w hw hPw
      exact ⟨hleads, hends.1, hends.2.1, fun _ => hends.2.2⟩
  | some key =>
      have hgrows := w.errors.grows_addShared key source.complaint
      obtain ⟨hclosed, hmade⟩ := hw.errors.addShared key source.complaint
      refine ⟨hw.leads_errors hclosed hgrows, hP w _ hgrows rfl hPw, hmade, ?_⟩
      intro hnone
      cases hnone

theorem conduct_raise {raising : Raising}
    (h : raising.error.key = none ∧ B raising.error.complaint ∨ ∀ c, B c) :
    Conduct ρ B raising.raise := by
  have hmake : Triple ρ (fun _ => True) raising.error.make (fun e => Blames B e) (Blames B) := by
    refine (triple_make raising.error Triple.robust_true).post ?_ fun _ _ h => h
    intro e w ⟨_, he, hcomplaint⟩
    refine ⟨he, ?_⟩
    rcases h with ⟨hkey, hB⟩ | hall
    · rw [hcomplaint hkey]
      exact hB
    · exact hall _
  have hlast : ∀ e, Triple ρ (Blames B e) (Act.raise e : Act Unit) (fun _ _ => True) (Blames B) :=
    fun e => (Triple.raise (robust_blames B e)).pre fun _ _ h => ⟨h, h.1⟩
  refine Triple.bind hmake fun e => ?_
  -- An error may be raised with a cause, with none on purpose, or without a word about it.
  cases raising.cause with
  | none => exact hlast e
  | some source =>
      have hcause : Triple ρ (Blames B e) (source.mapM ErrorSource.make)
          (fun cause w => Blames B e w ∧ ∀ o, cause = some o → o < w.errors.size)
          (Blames B) := by
        cases source with
        | none =>
            refine Triple.value fun w _ h => ⟨h, fun o ho => ?_⟩
            cases ho
        | some source =>
            refine Triple.bind (triple_make source (robust_blames B e)) fun o =>
              Triple.value fun w _ h => ⟨h.1, fun i hi => ?_⟩
            cases hi
            exact h.2.1
      exact Triple.bind hcause fun cause =>
        Triple.bind (Triple.setCause (robust_blames B e)) fun _ => hlast e

theorem conduct_raiseInTurn {raisings : List Raising}
    (h : ∀ raising ∈ raisings,
      raising.error.key = none ∧ B raising.error.complaint ∨ ∀ c, B c) :
    Conduct ρ B (raiseInTurn raisings) := by
  induction raisings with
  | nil => exact .value ()
  | cons raising rest ih =>
      have hraise : Conduct ρ B raising.raise := conduct_raise (h raising List.mem_cons_self)
      cases rest with
      | nil => exact hraise
      | cons next rest =>
          have hrest := ih fun raising hmem => h raising (List.mem_cons_of_mem _ hmem)
          refine Triple.bind (hraise.observe (Y := Blames B)) fun outcome => ?_
          cases outcome with
          | ok _ => exact Conduct.given hrest
          | error e =>
              refine (Triple.whileHandling (e := e) hrest Triple.robust_true
                (fun _ => Triple.robust_true) (robust_blames B)).pre ?_
              exact fun _ _ h => ⟨trivial, h.1⟩

/-! ## Steps -/

theorem conduct_observe (h : Permits ρ B sort) (observation : Observation) :
    Conduct ρ B (observe label observation) :=
  .modifySession fun s => h.report s _ rfl

theorem conduct_assume (h : Permits ρ B sort) (condition : Bool) (message : String) :
    Conduct ρ B (Step.run host label (.assume condition message)) := by
  rw [Step.run]
  cases condition with
  | true => exact .value ()
  | false => exact .complain (h.assumption _)

theorem conduct_fork (h : Permits ρ B sort) {body : Script}
    (hbody : Conduct ρ B (runSteps host label body)) :
    Conduct ρ B (Step.run host label (.fork body)) := by
  rw [Step.run_fork]
  exact .bind (.draw h.toTolerates fun _ => rfl) fun child =>
    .bind (conduct_observe h _) fun _ => .inScope h.toTolerates hbody

theorem conduct_attempt (h : Permits ρ B sort) {body : Script}
    (hbody : Conduct ρ B (runSteps host label body)) :
    Conduct ρ B (Step.run host label (.attempt body)) := by
  rw [Step.run]
  refine .handle hbody (fun e => Conduct.given ?_) fun c hc _ => hc
  exact .bind (.complaint e) fun c => conduct_observe h _

theorem conduct_bits (h : Permits ρ B sort) (width : Int) :
    Conduct ρ B (Step.run host label (.bits width)) := by
  rw [Step.run]
  refine .bind (.discard (.currentSource h.toTolerates)) fun _ => ?_
  have hdraw : Conduct ρ B (do
      observe label (.bits (← Act.draw (·.bits width.toNat)))) :=
    .bind (.draw h.toTolerates fun _ => rfl) fun _ => conduct_observe h _
  split
  · exact .bind (.complain h.negativeWidth) fun _ => hdraw
  · exact hdraw

theorem conduct_pop (h : Permits ρ B sort) (hsort : sort .pop = false) :
    Conduct ρ B (Step.run host label .pop) := by
  rw [Step.run]
  exact .bind (.pop (h.moves .pop rfl hsort) h.toTolerates) fun _ => conduct_observe h _

theorem conduct_clear (h : Permits ρ B sort) (hsort : sort .clear = false) :
    Conduct ρ B (Step.run host label .clear) := by
  rw [Step.run]
  exact .bind (.discard (.currentContext h.toTolerates)) fun _ =>
    .setStack (h.moves .clear rfl hsort) _

theorem conduct_nested (h : Permits ρ B sort) {suite : Suite Script}
    {settings : Option Settings} {test : Option NameTest}
    (hsort : sort (.nested suite settings test) = false)
    (hsuite : ∀ script ∈ suite.codes, (procedure host script).Conducts .free anyComplaint) :
    Conduct ρ B (Step.run host label (.nested suite settings test)) := by
  rw [Step.run]
  have hcodes : ∀ code ∈ (suiteProcedures host suite).codes,
      code.Conducts .free anyComplaint :=
    codes_suiteProcedures_all host hsuite fun _ h => h
  exact .bind (conduct_runSuite hcodes (h.interrupts _ _ _ hsort) host _ _) fun _ =>
    .modifySession fun s => h.report s _ rfl

/-- A step conducts itself if those within it do. -/
theorem conduct_step (h : Permits ρ B sort) {step : Step} (hsort : step.avoids sort = true)
    (hbody : ∀ body, step = .fork body ∨ step = .attempt body → avoids sort body = true →
      Conduct ρ B (runSteps host label body))
    (hinner : ∀ script ∈ step.inner, (procedure host script).Conducts .free anyComplaint) :
    Conduct ρ B (Step.run host label step) := by
  -- Steps with a body are judged by what is in it, and only the others by their own sort.
  have hleaf : (∀ body, step ≠ .fork body) → (∀ body, step ≠ .attempt body) →
      sort step = false := by
    intro hfork hattempt
    unfold Step.avoids at hsort
    split at hsort
    · exact absurd rfl (hfork _)
    · exact absurd rfl (hattempt _)
    · simpa using hsort
  cases step with
  | fraction =>
      rw [Step.run]
      exact .bind (.draw h.toTolerates fun _ => rfl) fun _ =>
        conduct_observe h _
  | bits width => exact conduct_bits h width
  | seed =>
      rw [Step.run]
      exact .bind (.currentSource h.toTolerates) fun _ => conduct_observe h _
  | depth | context =>
      rw [Step.run]
      exact .bind (.currentContext h.toTolerates) fun _ => conduct_observe h _
  | state =>
      rw [Step.run]
      exact .bind .world fun _ => conduct_observe h _
  | fork body => exact conduct_fork h (hbody body (.inl rfl) hsort)
  | push seed =>
      rw [Step.run]
      exact .push (h.moves (.push seed) rfl (hleaf (by simp) (by simp))) h.toTolerates _
  | pop => exact conduct_pop h (hleaf (by simp) (by simp))
  | clear => exact conduct_clear h (hleaf (by simp) (by simp))
  | assume condition message => exact conduct_assume h condition message
  | raise raisings =>
      rw [Step.run]
      exact conduct_raiseInTurn (h.raised raisings (hleaf (by simp) (by simp)))
  | attempt body => exact conduct_attempt h (hbody body (.inr rfl) hsort)
  | filter test =>
      rw [Step.run]
      exact .modifySession fun s => h.filter test (hleaf (by simp) (by simp)) s _
  | nested suite settings test => exact conduct_nested h (hleaf (by simp) (by simp)) hinner
  | subscribe listener =>
      rw [Step.run]
      exact .modifySession fun s => h.subscribe listener (hleaf (by simp) (by simp)) s
  | unsubscribe listener =>
      rw [Step.run]
      exact .modifySession fun s => h.unsubscribe listener (hleaf (by simp) (by simp)) s

/-! ## Scripts -/

theorem conduct_cons {step : Step} {rest : Script} (hstep : Conduct ρ B (step.run host label))
    (hrest : Conduct ρ B (runSteps host label rest)) :
    Conduct ρ B (runSteps host label (step :: rest)) := by
  rw [runSteps]
  exact .bind hstep fun _ => hrest

theorem avoids_none (script : Script) : avoids (fun _ => false) script = true := by
  induction script using induction with
  | nil => rfl
  | cons step rest hinner ih =>
      rw [avoids, ih, Bool.and_true]
      cases step with
      | fork body | attempt body => exact hinner body List.mem_cons_self
      | _ => rfl

/-- Every script is sound. -/
theorem sound (host : Host) (script : Script) :
    (procedure host script).Conducts .free anyComplaint := by
  induction script using induction with
  | nil =>
      intro label
      unfold procedure
      rw [runSteps]
      exact .value ()
  | cons step rest hinner ih =>
      intro label
      refine conduct_cons (conduct_step permits_any ?_ ?_ hinner) (ih label)
      · exact (avoids_cons (avoids_none (step :: rest))).1
      · rintro body (rfl | rfl) -
        · exact hinner body List.mem_cons_self label
        · exact hinner body List.mem_cons_self label

/-- A script without steps of a sort keeps to every conduct that permits its other steps. -/
theorem conducts (h : Permits ρ B sort) {script : Script} (hsort : avoids sort script = true) :
    (procedure host script).Conducts ρ B := by
  induction script using induction with
  | nil =>
      intro label
      unfold procedure
      rw [runSteps]
      exact .value ()
  | cons step rest hinner ih =>
      intro label
      obtain ⟨hstep, hrest⟩ := avoids_cons hsort
      refine conduct_cons (conduct_step h hstep ?_ fun script _ => sound host script)
        (ih hrest label)
      rintro body (rfl | rfl) hbody
      · exact hinner body List.mem_cons_self hbody label
      · exact hinner body List.mem_cons_self hbody label

end Script
end SeededTesting
