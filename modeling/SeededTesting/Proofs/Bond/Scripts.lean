import SeededTesting.Proofs.Bond.Runs
import SeededTesting.Proofs.Run.Scripted

/-! # Scripts side by side

A script does the same in two runs whose stacks are the same. As far as it leaves the stack alone it
does so however the stacks compare, even where it runs another suite, which has contexts of its own.
-/

namespace SeededTesting

open Act Bond

variable {β : Bond}

/-! ## Errors that scripts raise -/

theorem inStep_make (source : ErrorSource) : β.InStep source.make source.make Eq := by
  intro w v hwv
  unfold ErrorSource.make
  rw [exec_modifyGet, exec_modifyGet, hwv.errors]
  exact ⟨hwv.withErrors _, rfl⟩

theorem inStep_raise (raising : Raising) : β.InStep raising.raise raising.raise Eq := by
  refine (inStep_make raising.error).andThen fun e => ?_
  cases raising.cause with
  | none => exact .raise
  | some source =>
      have hmade : β.InStep (source.mapM ErrorSource.make) (source.mapM ErrorSource.make) Eq := by
        cases source with
        | none => exact .value rfl
        | some source => exact (inStep_make source).andThen fun _ => .value rfl
      exact hmade.andThen fun cause => (Leads.setCause cause).andThen fun _ => .raise

theorem inStep_raiseInTurn (raisings : List Raising) :
    β.InStep (raiseInTurn raisings) (raiseInTurn raisings) Eq := by
  induction raisings with
  | nil => exact .value rfl
  | cons raising rest ih =>
      cases rest with
      | nil => exact inStep_raise raising
      | cons next rest =>
          refine (inStep_raise raising).observe.bind fun outcome outcome' houtcome => ?_
          obtain rfl := houtcome.eq
          cases outcome' with
          | ok _ => exact ih
          | error e => exact ih.whileHandling

/-! ## Suites that are run within -/

/-- A procedure that does the same wherever the stacks, and the states of the runners, are. -/
def Procedure.Repeats (procedure : Procedure) : Prop :=
  ∀ β : Bond, β.Free → β.states = true → procedure.InStep β procedure

/-- A procedure that does the same wherever the stacks are and sessions compare on given terms. -/
def Procedure.RepeatsOn (τ : Terms) (procedure : Procedure) : Prop :=
  ∀ β : Bond, β.Free → β.toTerms = τ → procedure.InStep β procedure

/-- A run whose collaborators repeat themselves does the same in worlds that agree. -/
theorem Runner.reconciles_self {r : Runner Procedure} {τ : Terms} (hfilters : τ.filters = true)
    (hcodes : ∀ code ∈ r.suite.codes, code.RepeatsOn τ) (hunits : r.Expands)
    (callers : List Listener) (hcallers : ∀ tag reactions, .scripted tag reactions ∈ callers →
      ∀ kind, Procedure.RepeatsOn τ (reactions.on kind)) {w v : World} (h : τ.Agrees w v) :
    τ.Reconciles w v (r.run (r.audienceOf callers)) (r.run (r.audienceOf callers)) := by
  let β := τ.between r.ownContext w v fun s t => t = s
  have hβ : β.Free := rfl
  have hself : ∀ code ∈ r.suite.codes, code.InStep β code :=
    fun code hcode => hcodes code hcode β hβ rfl
  have hpairs : r.Pairs (Procedure.InStep β) r := pairs_self hself hunits
  have hlisteners : List.Forall₂ (Listener.Pairs (Procedure.InStep β)) callers callers := by
    refine List.forall₂_same.mpr fun listener hmem => ?_
    cases listener with
    | recording => exact .recording
    | silent => exact .silent
    | scripted tag reactions =>
        exact .scripted tag fun kind => hcallers tag reactions hmem kind β hβ rfl
  have habreast := abreast_map (Leads.sameSeed_of_tight hβ.tight) (g := id) (h := id) hself hunits
    (inStep_audienceOf hpairs hlisteners)
  rw [Runner.map_id] at habreast
  exact agrees_run (R := fun s t => t = s) hpairs rfl (fun s t hst => by rw [hst])
    (habreast.leads_runSurvivors hβ hpairs hfilters (.refl β)) h

/-- What is run within a run has a session of its own. -/
theorem reconciles_nested {r : Runner Procedure} (hcodes : ∀ code ∈ r.suite.codes, code.Repeats)
    (hexpands : r.Expands) (hstates : β.states = true) {w v : World} (sequence : Nat)
    (predicate : Option (String → Bool)) (hwv : β.Holds w v) :
    (Terms.same []).Reconciles (w.nested sequence predicate) (v.nested sequence predicate)
      (r.run (r.audienceOf [.recording])) (r.run (r.audienceOf [.recording])) := by
  have hrepeats : ∀ code ∈ r.suite.codes, code.RepeatsOn (Terms.same []) :=
    fun code hcode β hβ hterms => hcodes code hcode β hβ (by rw [hterms]; rfl)
  exact Runner.reconciles_self rfl hrepeats hexpands [.recording] (fun _ _ hmem => by simp at hmem)
    ⟨hwv.errors, hwv.handling, rfl, fun _ => hwv.journal hstates, Terms.accords_self rfl rfl rfl⟩

/-- A suite that is run within a run has a session of its own, so it does the same. -/
theorem inStep_runSuite {suite : Suite Procedure} (hcodes : ∀ code ∈ suite.codes, code.Repeats)
    (hstates : β.states = true) (host : Host) (settings : Option Settings)
    (predicate : Option (String → Bool)) :
    β.InStep (runSuite host suite settings predicate) (runSuite host suite settings predicate)
      Eq := by
  intro w v hwv
  cases hsetUp : Runner.setUp suite settings host w.sequence with
  | error e =>
      rw [exec_runSuite_of_error predicate hsetUp,
        exec_runSuite_of_error predicate (hwv.sequence ▸ hsetUp)]
      exact ⟨hwv, rfl⟩
  | ok made =>
      obtain ⟨r, sequence⟩ := made
      obtain ⟨rfl, hexpands⟩ := Runner.suite_of_setUp hsetUp
      obtain ⟨houtcome, hagrees, hleft, hright⟩ :=
        reconciles_nested hcodes hexpands hstates sequence predicate hwv
      rw [exec_runSuite predicate hsetUp, exec_runSuite predicate (hwv.sequence ▸ hsetUp)]
      generalize (r.run (r.audienceOf [.recording])).exec (w.nested sequence predicate) = left at *
      generalize (r.run (r.audienceOf [.recording])).exec (v.nested sequence predicate) = right at *
      -- The session of the inner run is dropped; its errors and its log stay.
      have hholds : β.Holds { left.2 with session := w.session }
          { right.2 with session := v.session } :=
        { hagrees with
          journal := fun _ => hagrees.journal rfl
          session := hwv.session
          contexts := by
            rw [hleft, hright]
            exact hwv.contexts }
      have hanswer : r.answer right = r.answer left := by
        rw [Runner.answer, Runner.answer, houtcome, hagrees.errors, hagrees.session.eq_of_same]
      rw [hanswer]
      cases r.answer left with
      | ok answer => exact ⟨hholds, rfl⟩
      | error e => exact ⟨hholds, rfl⟩

/-! ## Steps -/

namespace Script

variable {host : Host} {label : String}

/-- Whether a step neither changes the stack nor asks about it. -/
def Step.still : Step → Bool
  | .state | .assume .. | .raise _ | .filter _ | .nested .. | .subscribe _ | .unsubscribe _ => true
  | _ => false

/-- Whether a step asks about the stack, or draws from its top. -/
def Step.asks : Step → Bool
  | .fraction | .bits _ | .seed | .depth | .context => true
  | _ => false

/-- Whether a step tells the state of the runner, or goes on with its log. -/
def Step.tells : Step → Bool
  | .state | .nested .. => true
  | _ => false

theorem inStep_observe (observation : Observation) :
    β.InStep (observe label observation) (observe label observation) Eq :=
  .emit _

theorem inStep_still {step : Step} (hstep : step.still = true)
    (hstates : step.tells = true → β.states = true)
    (hinner : ∀ script ∈ step.inner, (procedure host script).Repeats) :
    β.InStep (step.run host label) (step.run host label) Eq := by
  cases step with
  | fraction | bits | seed | depth | context | fork | push | pop | clear | attempt => cases hstep
  | state =>
      rw [Step.run]
      refine Leads.world.bind fun w v hwv => ?_
      rw [hwv.session.state_eq (hstates rfl)]
      exact inStep_observe _
  | assume condition message =>
      rw [Step.run]
      cases condition with
      | true => exact .value rfl
      | false => exact .complain _
  | raise raisings =>
      rw [Step.run]
      exact inStep_raiseInTurn raisings
  | filter test =>
      rw [Step.run]
      exact .modifySession fun s t hst => { hst with predicate := fun _ => rfl }
  | nested suite settings test =>
      rw [Step.run]
      exact (inStep_runSuite (codes_suiteProcedures_all host hinner fun _ h => h) (hstates rfl) _ _
        _).andThen fun _ => .emit _
  | subscribe listener =>
      rw [Step.run]
      exact inStep_subscribe (.caller listener)
  | unsubscribe listener =>
      rw [Step.run]
      exact inStep_unsubscribe (.caller listener)

/-- A negative width is refused once a source was found; otherwise bits are drawn. -/
theorem inStep_bits {width : Int} {V : RandomSource → RandomSource → Prop}
    (hsource : β.InStep Act.currentSource Act.currentSource V)
    (hdraw : β.InStep (do observe label (.bits (← Act.draw (·.bits width.toNat))))
      (do observe label (.bits (← Act.draw (·.bits width.toNat)))) Eq) :
    β.InStep (Step.run host label (.bits width)) (Step.run host label (.bits width)) Eq := by
  rw [Step.run]
  refine hsource.discard.andThen fun _ => ?_
  split
  · exact (Leads.complain (V := Eq) _).andThen fun _ => hdraw
  · exact hdraw

theorem inStep_asks (hβ : β.Tight) {step : Step} (hstep : step.asks = true) :
    β.InStep (step.run host label) (step.run host label) Eq := by
  cases step with
  | fraction =>
      rw [Step.run]
      exact (Leads.draw_eq hβ fun _ => rfl).andThen fun _ => inStep_observe _
  | bits width =>
      exact inStep_bits (Leads.currentSource_eq hβ)
        ((Leads.draw_eq hβ fun _ => rfl).andThen fun _ => inStep_observe _)
  | seed =>
      rw [Step.run]
      exact (Leads.currentSource_eq hβ).andThen fun _ => inStep_observe _
  | depth | context =>
      rw [Step.run]
      exact (Leads.currentContext_eq hβ).andThen fun _ => inStep_observe _
  | _ => cases hstep

/-- A script does the same where the stacks are, and repeats what it shows of the runner where this
is the same. -/
theorem inStep_of_free (host : Host) (script : Script) :
    ∀ β : Bond, β.Free → (avoids Step.tells script = true ∨ β.states = true) →
      (procedure host script).InStep β (procedure host script) := by
  induction script using induction with
  | nil =>
      intro β _ _ label
      unfold procedure
      rw [runSteps]
      exact .value rfl
  | cons step rest hinner ih =>
      intro β hβ htells label
      have hrest : avoids Step.tells rest = true ∨ β.states = true :=
        htells.imp_left fun h => (avoids_cons h).2
      have hhead : step.avoids Step.tells = true ∨ β.states = true :=
        htells.imp_left fun h => (avoids_cons h).1
      -- Steps with a body tell what their body tells, all others what they tell by themselves.
      have hleaf : step.avoids Step.tells = !step.tells → step.tells = true → β.states = true := by
        intro hstep htold
        rw [hstep, htold] at hhead
        exact hhead.resolve_left Bool.false_ne_true
      have hrepeats : ∀ script ∈ step.inner, (procedure host script).Repeats :=
        fun script hscript β' hfree hstates => hinner script hscript β' hfree (.inr hstates)
      unfold procedure
      rw [runSteps]
      refine Leads.andThen ?_ fun _ => ih β hβ hrest label
      cases step with
      | fork body =>
          rw [Step.run]
          exact (Leads.draw_eq hβ.tight fun _ => rfl).andThen fun _ =>
            (inStep_observe _).andThen fun _ =>
              Leads.inScope_eq hβ (hinner body List.mem_cons_self β hβ hhead label)
      | attempt body =>
          rw [Step.run]
          refine (hinner body List.mem_cons_self β hβ hhead label).handle fun e => ?_
          exact Leads.complaint.andThen fun _ => inStep_observe _
      | push seed =>
          rw [Step.run]
          exact Leads.push_eq hβ _
      | pop =>
          rw [Step.run]
          exact (Leads.pop_eq hβ).andThen fun _ => inStep_observe _
      | clear =>
          rw [Step.run]
          exact (Leads.currentContext_eq hβ.tight).discard.andThen fun _ => Leads.setStack_eq hβ _
      | fraction | bits | seed | depth | context => exact inStep_asks hβ.tight rfl
      | _ => exact inStep_still rfl (hleaf rfl) hrepeats

theorem repeats (host : Host) (script : Script) : (procedure host script).Repeats :=
  fun β hβ hstates => inStep_of_free host script β hβ (.inr hstates)

end Script

/-! ## Listeners that act by scripts -/

namespace NotifierProgram

/-- A declared listener whose scripts are run in some way. -/
def Declaration.listenerBy (f : Script → Procedure) : Declaration → Listener
  | .recording => .recording
  | .silent => .silent
  | .scripted tag reactions => .scripted tag (reactions.map f)

theorem Declaration.listenerBy_procedure (host : Host) (declaration : Declaration) :
    declaration.listenerBy (Script.procedure host) = declaration.listener host := by
  cases declaration with
  | recording | silent => rfl
  | scripted tag reactions =>
      rw [listener, Script.reactionProcedures]
      rfl

theorem Declaration.pairs_listenerBy {Q : Procedure → Procedure → Prop} {g h : Script → Procedure}
    {declarations : List Declaration} (hscripts : ∀ declaration ∈ declarations,
      ∀ script ∈ declaration.scripts, Q (g script) (h script)) :
    List.Forall₂ (Listener.Pairs Q) (declarations.map (·.listenerBy g))
      (declarations.map (·.listenerBy h)) := by
  refine List.forall₂_map fun declaration hdeclaration => ?_
  have hscript := hscripts declaration hdeclaration
  cases declaration with
  | recording => exact .recording
  | silent => exact .silent
  | scripted tag reactions =>
      refine .scripted tag fun kind => ?_
      rw [Reactions.map_on, Reactions.map_on]
      refine hscript _ (List.mem_map_of_mem ?_)
      cases kind <;> decide

end NotifierProgram

namespace Runner

theorem audienceFor_eq (r : Runner Procedure) (host : Host)
    (declarations : List NotifierProgram.Declaration) :
    r.audienceFor host declarations =
      r.audienceOf (declarations.map (·.listenerBy (Script.procedure host))) := by
  unfold audienceFor
  exact congrArg r.audienceOf (List.map_congr_left fun declaration _ =>
    (declaration.listenerBy_procedure host).symm)

/-- Runs of one suite of scripts, which are run in two ways that come to the same. -/
theorem abreast_of_scripts {plan : Runner Script} {g h : Script → Procedure} (hβ : β.SameSeed)
    (hsuite : ∀ script ∈ plan.suite.codes, (g script).InStep β (h script))
    (hunits : ∀ c ∈ plan.candidates, c.unit ∈ plan.suite.units)
    {declarations : List NotifierProgram.Declaration}
    (hdeclarations : ∀ declaration ∈ declarations, ∀ script ∈ declaration.scripts,
      (g script).InStep β (h script)) :
    Abreast β (plan.map g) (plan.map h)
      ((plan.map g).audienceOf (declarations.map (·.listenerBy g)))
      ((plan.map h).audienceOf (declarations.map (·.listenerBy h)))
      (plan.map g).hooks (plan.map h).hooks :=
  abreast_map hβ hsuite hunits (inStep_audienceOf (pairs_map hsuite hunits)
    (NotifierProgram.Declaration.pairs_listenerBy hdeclarations))

end Runner
end SeededTesting
