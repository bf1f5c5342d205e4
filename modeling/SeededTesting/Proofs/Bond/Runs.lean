import SeededTesting.Proofs.Bond.Stages

/-! # Runs side by side

Runs that are taken up in two worlds work in contexts of their own, whatever the contexts around
these are. If their stages keep to a bond, the runs end alike, and what was around them is as it
was.
-/

namespace SeededTesting

open Act Bond

/-- The bond of runs that work in like contexts, taken up in two worlds. -/
def Terms.between (τ : Terms) (context : RunContext) (w v : World)
    (stack : ContextStack RandomSource → ContextStack RandomSource → Prop) : Bond :=
  { τ with context, stack, outer := w.contexts, outer' := v.contexts }

/-- Two actions end alike in worlds that agree, and leave the contexts as they were. -/
structure Terms.Reconciles (τ : Terms) (w v : World) (body body' : Act Unit) : Prop where
  outcome : (body'.exec v).1 = (body.exec w).1
  agrees : τ.Agrees (body.exec w).2 (body'.exec v).2
  left : (body.exec w).2.contexts = w.contexts
  right : (body'.exec v).2.contexts = v.contexts

/-- How an action ends, and what is to be seen then but for hidden events. -/
def Act.shown (hidden : Event → Bool) (body : Act Unit) (w : World) :
    Except Complaint Unit × List Event :=
  ((body.runIn w).1, (body.runIn w).2.session.trace.toList.filter fun event => !hidden event)

variable {τ τ' : Terms} {w v : World}

/-- What runs have in common is shown of both. -/
theorem Terms.Reconciles.shown_eq {hidden : Event → Bool} {past : List Event}
    {body body' : Act Unit} (h : τ.Reconciles w v body body')
    (hseen : τ.seen = fun event => !hidden event) (hpast : τ.past = past)
    (hpast' : τ.past' = past) :
    body'.shown hidden v = body.shown hidden w := by
  obtain ⟨new, new', hw, hv, htrace⟩ := h.agrees.session.trace
  have houtcome : (body'.runIn v).1 = (body.runIn w).1 := by
    change (body'.exec v).1.mapError (fun e => ((body'.exec v).2.errors.get e).toComplaint) =
      (body.exec w).1.mapError fun e => ((body.exec w).2.errors.get e).toComplaint
    rw [h.outcome, h.agrees.errors]
  refine Prod.ext houtcome ?_
  change (body'.exec v).2.session.trace.toList.filter _ =
    (body.exec w).2.session.trace.toList.filter _
  rw [hw, hv, hpast, hpast', List.filter_append, List.filter_append, ← hseen, htrace]

/-- Contexts are entered and left alike, whatever was done in them. -/
theorem Terms.Agrees.activate {context : RunContext} {body body' : Act Unit}
    {R : ContextStack RandomSource → ContextStack RandomSource → Prop}
    (hbody : (τ.between context w v fun s t => s = context.stack ∧ t = context.stack).Leads
      (τ'.between context w v R) body body' Eq) (h : τ.Agrees w v) :
    τ'.Reconciles w v (Act.activate context body) (Act.activate context body') := by
  have hin : (τ.between context w v fun s t => s = context.stack ∧ t = context.stack).Holds
      (w.within (context :: w.contexts)) (v.within (context :: v.contexts)) :=
    { h with contexts := ⟨context.stack, context.stack, ⟨rfl, rfl⟩, rfl, rfl⟩ }
  obtain ⟨hholds, houtcome⟩ := hbody _ _ hin
  generalize hleft : body.exec (w.within (context :: w.contexts)) = left at hholds houtcome
  generalize hright : body'.exec (v.within (context :: v.contexts)) = right at hholds houtcome
  obtain ⟨outcome, w'⟩ := left
  obtain ⟨outcome', v'⟩ := right
  -- What leaves, the error or the refusal in its place, is the same on both sides.
  have hends := Leads.leaving (Leads.resume houtcome) _ _ hholds
  obtain ⟨s, t, -, hw', hv'⟩ := hholds.contexts
  have hleft' := exec_activate_of_contexts hleft hw'
  have hright' := exec_activate_of_contexts hright hv'
  rw [exec_leaving_resume] at hleft' hright'
  obtain ⟨hlast, halike⟩ := hends
  refine ⟨?_, ?_, ?_, ?_⟩
  · rw [hleft', hright']
    exact halike.eq
  · rw [hleft', hright']
    exact { hlast with session := { hholds.session with lastContext := rfl } }
  · rw [hleft']
  · rw [hright']

namespace Runner

variable {r r' : Runner Procedure} {audience audience' : Audience}
  {Q : Procedure → Procedure → Prop} {β γ : Bond}

/-- The context of a run, before anything is active in it. -/
def ownContext (r : Runner Procedure) : RunContext :=
  { runner := r.master, target := r.suite.name, nightly := r.config.nightly }

/-- Runs whose stages keep to a bond go through them together. -/
theorem leads_runSurvivors (hpairs : r.Pairs (Procedure.InStep β) r') (hcandidates : r.Pairs Q r')
    (hfilters : β.filters = true) (hle : β.Le γ)
    (hsetUp : γ.InStep (r.perform audience .setUp) (r'.perform audience' .setUp) Eq)
    (hcandidate : ∀ c c' : Candidate Procedure, c.Pairs Q c' →
      γ.InStep (r.perform audience (.candidate c)) (r'.perform audience' (.candidate c')) Eq)
    (htearDown : γ.InStep (r.perform audience .tearDown) (r'.perform audience' .tearDown) Eq) :
    β.Leads γ (r.runSurvivors audience) (r'.runSurvivors audience') Eq := by
  refine (inStep_prepare hpairs hfilters hcandidates).bindLe (fun cs cs' hcs => ?_) hle
  refine Leads.pre hle ?_
  have hempty : cs'.isEmpty = cs.isEmpty := by
    cases hcs <;> rfl
  rw [hempty]
  split
  · exact inStep_enter hpairs _
  · rw [runClass_eq_performAll, runClass_eq_performAll]
    refine inStep_performAll (.cons hsetUp (List.rel_append ?_ (.cons htearDown .nil)))
    rw [List.forall₂_map_left_iff, List.forall₂_map_right_iff]
    exact hcs.imp fun c c' hc => hcandidate c c' hc

/-- A whole run leaves worlds that agree if its work does. -/
theorem agrees_run (hpairs : r.Pairs Q r') {R : ContextStack RandomSource →
      ContextStack RandomSource → Prop}
    (hstart : R [.fresh r.master] [.fresh r.master])
    (hdepth : ∀ s t, R s t → s.length = t.length)
    (hwork : (τ.between r.ownContext w v R).Leads (τ'.between r.ownContext w v R)
      (r.runSurvivors audience) (r'.runSurvivors audience') Eq) (h : τ.Agrees w v) :
    τ'.Reconciles w v (r.run audience) (r'.run audience') := by
  have hcontext : r'.ownContext = r.ownContext := by
    rw [ownContext, ownContext, hpairs.master, hpairs.name, hpairs.config]
  change τ'.Reconciles w v (Act.activate r.ownContext _) (Act.activate r'.ownContext _)
  rw [hcontext, hpairs.master]
  refine Terms.Agrees.activate (R := fun _ _ => True) (fun u u' hu => ?_) h
  obtain ⟨s, t, ⟨rfl, rfl⟩, hcontexts, hcontexts'⟩ := hu.contexts
  rw [exec_bind, exec_bind, exec_push, exec_push, hcontexts, hcontexts']
  exact (hwork.andFinally (leads_close hpairs hdepth)) _ _ (hu.withStacks hstart)

/-! ## Runs of runners that are made of one -/

/-- Hooks that compare are called in the same order where the active sources have the same seed. -/
theorem inStep_hooks (hβ : β.SameSeed)
    (h : ∀ phase active, List.Forall₂ (Hook.Pairs (Procedure.InStep β))
      (hooksFor r.suite.levels phase active) (hooksFor r'.suite.levels phase active)) :
    HookOrder.InStep β r.hooks r'.hooks :=
  .of_pairs fun phase => hβ.bind fun source source' hseed => by
    rw [hseed]
    exact .value (h phase _)

/-- Runners that are made of one runner by replacing codes, where these do the same. -/
theorem abreast_map {Code : Type} {plan : Runner Code} {g h : Code → Procedure} (hβ : β.SameSeed)
    (hcodes : ∀ code ∈ plan.suite.codes, (g code).InStep β (h code))
    (hunits : ∀ c ∈ plan.candidates, c.unit ∈ plan.suite.units)
    (haudience : audience.InStep β audience') :
    Abreast β (plan.map g) (plan.map h) audience audience' (plan.map g).hooks
      (plan.map h).hooks where
  pairs := pairs_map hcodes hunits
  audience := haudience
  hooks := inStep_hooks hβ (hooksFor_pairs hcodes)

/-- The declared listeners together with those of callers do the same. -/
theorem inStep_audienceOf (hpairs : r.Pairs (Procedure.InStep β) r')
    {callers callers' : List Listener}
    (hcallers : List.Forall₂ (Listener.Pairs (Procedure.InStep β)) callers callers') :
    (r.audienceOf callers).InStep β (r'.audienceOf callers') := by
  have hdeclared : ∀ (index : Nat) (serial serial' : Option Nat),
      (r.audienceOf callers (.declared index serial)).Pairs (Procedure.InStep β)
        (r'.audienceOf callers' (.declared index serial')) := by
    intro index serial serial'
    have hindex := List.rel_getElem? hpairs.listeners index
    rw [audienceOf_declared, audienceOf_declared]
    generalize r.suite.listeners[index]? = factory at hindex ⊢
    generalize r'.suite.listeners[index]? = factory' at hindex ⊢
    cases hindex with
    | none => exact .silent
    | some h =>
        rw [Option.elim_some, Option.elim_some, h.tag]
        exact .scripted _ h.reactions
  intro listener
  cases listener with
  | caller index =>
      have hindex := List.rel_getElem? hcallers index
      change Listener.Pairs _ (callers.getD index .silent) (callers'.getD index .silent)
      rw [List.getD_eq_getElem?_getD, List.getD_eq_getElem?_getD]
      generalize callers[index]? = caller at hindex ⊢
      generalize callers'[index]? = caller' at hindex ⊢
      cases hindex with
      | none => exact .silent
      | some h => exact h
  | declared index serial =>
      -- Shared or made anew, a declared listener reacts as its factory says.
      cases serial <;> exact hdeclared index _ _

section Free

variable (hγ : γ.Free) (h : Abreast γ r r' audience audience' r.hooks r'.hooks)

include hγ h

theorem Abreast.perform_candidate {c c' : Candidate Procedure}
    (hc : c.Pairs (Procedure.InStep γ) c') :
    γ.InStep (r.perform audience (.candidate c)) (r'.perform audience' (.candidate c')) Eq := by
  have hstack : ∀ s t, γ.stack s t ↔ t = s := fun s t => by rw [hγ]
  refine Abreast.performBy_candidate (R := γ.stack) h hc (fun s t hst => ?_) fun s t hst => ?_
  · rw [hstack] at hst ⊢
    rw [hst]
  · obtain rfl := (hstack s t).mp hst
    cases t with
    | nil => exact .inl ⟨rfl, rfl, hst⟩
    | cons a rest => exact .inr ⟨a, a, rest, rest, rfl, rfl, (hstack rest rest).mpr rfl⟩

theorem Abreast.leads_runSurvivors (hpairs : r.Pairs (Procedure.InStep β) r')
    (hfilters : β.filters = true) (hle : β.Le γ) :
    β.Leads γ (r.runSurvivors audience) (r'.runSurvivors audience') Eq :=
  Runner.leads_runSurvivors hpairs h.pairs hfilters hle h.performBy_setUp
    (fun _ _ hc => h.perform_candidate hγ hc) h.performBy_tearDown

end Free
end Runner

end SeededTesting
