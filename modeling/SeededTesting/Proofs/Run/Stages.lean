import SeededTesting.Proofs.Run.Collaborators

/-! # The conduct of the stages of a run

What the collaborators of a suite and the listeners keep to, every stage of a run keeps to. Errors
of collaborators stay within the stage, but for interrupts and for objects that do not let a chain
be recorded.
-/

namespace SeededTesting.Runner

open Act

variable {ρ : Regime} {B N : Complaint → Prop}

/-- The complaints that leave a stage whose collaborators make complaints of a sort. -/
structure Escapes (B N : Complaint → Prop) : Prop where
  interrupt : ∀ c, B c → c.kind.interrupt = true → N c
  value : ∀ c, B c → c.kind.interrupt = false → c.kind.refusal = some .value →
    N ⟨.value, some chainsAttribute⟩

/-- Where a chain can not be recorded, a complaint about the value may be made. -/
def AdmitsValue (B N : Complaint → Prop) : Prop :=
  ∀ c, B c → c.kind.refusal = some .value → N ⟨.value, some chainsAttribute⟩

theorem Escapes.caught (h : Escapes B N) : AdmitsValue (Caught B) N :=
  fun c hc => h.value c hc.1 hc.2

/-- Candidates come from the units of the suite. -/
def Expands (r : Runner Procedure) : Prop :=
  ∀ c ∈ r.candidates, c.unit ∈ r.suite.units

variable (r : Runner Procedure) {audience : Audience}

theorem conduct_log (level : LogLevel) (message : String) (detail : LogDetail) :
    Conduct ρ N (r.log level message detail) :=
  .log _

/-! ## Reports -/

theorem conduct_reportFailure (hnotify : ∀ n, Conduct ρ N (audience.notify n)) (name : String)
    (e : ErrorId) : Conduct ρ N (r.reportFailure audience name e) :=
  .bind .world fun _ => .bind (r.conduct_log _ _ _) fun _ => hnotify _

/-- Recording seeds on an error fails only if the object complains about the value. -/
theorem conduct_augment (hvalue : AdmitsValue B N) (e : ErrorId) (seeds : List Seed) :
    Triple ρ (Blames B e) (Act.augment e seeds) (fun _ => Blames B e)
      (Blames N) := by
  refine (Triple.augment (robust_blames B e)).post (fun _ _ h => h) ?_
  intro i w ⟨⟨hblames, hrefusal⟩, hi, hcomplaint⟩
  refine ⟨hi, ?_⟩
  rw [hcomplaint]
  exact hvalue _ hblames.2 hrefusal

theorem conduct_reportOutcomes (hvalue : AdmitsValue B N)
    (hnotify : ∀ n, Conduct ρ N (audience.notify n)) (name : String) (seeds : List Seed)
    (outcomes : List (Hook Procedure × Option ErrorId)) :
    Triple ρ (OutcomesBlame B outcomes) (r.reportOutcomes audience name seeds outcomes)
      (fun _ _ => True) (Blames N) := by
  induction outcomes with
  | nil => exact Triple.value fun _ _ _ => trivial
  | cons outcome rest ih =>
      have htail : ∀ w, OutcomesBlame B (outcome :: rest) w →
          OutcomesBlame B rest w :=
        fun w h outcome hmem => h outcome (List.mem_cons_of_mem _ hmem)
      obtain ⟨hook, _ | e⟩ := outcome
      · exact ih.pre fun w _ h => htail w h
      · have hkeeps : ∀ w v, w.Lawful → ρ.Leads w v → OutcomesBlame B rest w →
            OutcomesBlame B rest v :=
          fun w v _ hleads h outcome hmem i hi => hleads.blames (h outcome hmem i hi)
        have haugment := (conduct_augment hvalue e seeds).frame hkeeps
        have hreport := Triple.frame (r.conduct_reportFailure hnotify name e) hkeeps
        refine Triple.bind (haugment.conseq ?_ (fun _ _ _ h => h) fun _ _ _ _ h => h.1)
          fun _ => Triple.bind (hreport.conseq ?_ (fun _ _ _ h => h.2) fun _ _ _ _ h => h.1)
            fun _ => ih
        · exact fun w _ h => ⟨h (hook, some e) List.mem_cons_self e rfl, htail w h⟩
        · exact fun _ _ h => ⟨trivial, h.2⟩

theorem conduct_reportCandidate (hvalue : AdmitsValue B N)
    (hnotify : ∀ n, Conduct ρ N (audience.notify n)) (c : Candidate Procedure) (e : ErrorId) :
    Triple ρ (Blames B e) (r.reportCandidate audience c e) (fun _ _ => True)
      (Blames N) := by
  refine Triple.bind (conduct_augment hvalue e _) fun _ => ?_
  refine Triple.bind (U := fun _ _ => True) ?_ fun complaint => ?_
  · exact (Conduct.complaint e).given
  · split
    · exact hnotify _
    · exact r.conduct_reportFailure hnotify c.name e

theorem conduct_reportSuite (hvalue : AdmitsValue B N)
    (hnotify : ∀ n, Conduct ρ N (audience.notify n)) (e : ErrorId) :
    Triple ρ (Blames B e) (r.reportSuite audience e) (fun _ _ => True) (Blames N) :=
  Triple.bind (conduct_augment hvalue e _) fun _ =>
    (r.conduct_reportFailure hnotify r.suite.name e).given

/-! ## Hooks, factories and bodies -/

section Calls

variable (hρ : ρ.Traces) (hB : Complains B)
  (hcodes : ∀ code ∈ r.suite.codes, code.Conducts ρ B)

include hρ hB hcodes

theorem conduct_hookCall {phase : Phase} {active : Int} {arguments : List Instance} :
    ∀ hook ∈ hooksFor r.suite.levels phase active, Conduct ρ B (hook.call arguments) := by
  intro hook hmem
  obtain ⟨level, hlevel, hhook⟩ := mem_hooksFor hmem
  exact Hook.conduct_call hρ hB
    (fun procedure hcode => hcodes procedure (Suite.hook_mem_codes hlevel hhook hcode)) _

omit hρ hcodes in
/-- The hooks of a phase are resolved from some active seed. -/
theorem conduct_hooks (phase : Phase) :
    Triple ρ (fun _ => True) (r.hooks phase)
      (fun hooks _ => ∃ active, hooks = hooksFor r.suite.levels phase active) (Blames B) :=
  Triple.bind (Conduct.currentSource hB.toTolerates) fun source =>
    Triple.value fun _ _ _ => ⟨source.seed.toNat, rfl⟩

theorem conduct_callPhase (phase : Phase) (arguments : List Instance) :
    Conduct ρ B (do callHooks arguments (← r.hooks phase)) := by
  refine Triple.bind (r.conduct_hooks hB phase) fun hooks w hw ⟨active, hhooks⟩ => ?_
  subst hhooks
  exact conduct_callHooks (r.conduct_hookCall hρ hB hcodes) w hw trivial

/-- Hooks are invoked where the active seed can be looked up. -/
theorem conduct_invokePhase (hpass : ∀ c, B c → c.kind.interrupt = true → N c)
    {P : World → Prop}
    (hsource : Triple ρ P Act.currentSource (fun _ _ => True) (Blames N)) (phase : Phase)
    (arguments : List Instance) :
    Triple ρ P (do invokeAll arguments (← r.hooks phase)) (OutcomesBlame (Caught B))
      (Blames N) := by
  have hhooks : Triple ρ P (r.hooks phase)
      (fun hooks _ => ∃ active, hooks = hooksFor r.suite.levels phase active) (Blames N) :=
    Triple.bind hsource fun source => Triple.value fun _ _ _ => ⟨source.seed.toNat, rfl⟩
  refine Triple.bind hhooks fun hooks w hw ⟨active, heq⟩ => ?_
  subst heq
  exact conduct_invokeAll (r.conduct_hookCall hρ hB hcodes) hpass w hw trivial

theorem conduct_makeInstance : Conduct ρ B r.makeInstance := by
  unfold makeInstance
  cases hfactory : r.suite.factory with
  | none => exact .complain hB.uncallable
  | some factory => exact Factory.conduct_call hρ (hcodes _ (Suite.factory_mem_codes hfactory))

theorem conduct_callBody {c : Candidate Procedure} (hunit : c.unit ∈ r.suite.units)
    (target : Instance) : Conduct ρ B (r.callBody c target) := by
  have hbody : Conduct ρ B (c.unit.call target) := TestUnit.conduct_call hρ hB
    (fun procedure hcode => hcodes procedure (Suite.body_mem_codes hunit hcode)) target
  have hrules : ∀ rule ∈ r.suite.rules, ∀ code ∈ rule.codes, code.Conducts ρ B :=
    fun rule hrule code hcode => hcodes code (Suite.rule_mem_codes hrule hcode)
  exact Triple.bind (Rule.conduct_applyAll hρ hrules hbody _ _) fun statement w hw hstatement =>
    hstatement w hw trivial

/-- The before-each hooks and the body of a candidate are called with its instance, if one was
made. -/
theorem conduct_callCandidate {c : Candidate Procedure} (hunit : c.unit ∈ r.suite.units)
    (made : Except ErrorId Instance) :
    Triple ρ (Ends (fun _ _ => True) (Blames B) made)
      (do
        let target ← Act.resume made
        callHooks [target] (← r.hooks .beforeEach)
        r.callBody c target) (fun _ _ => True) (Blames B) := by
  refine Triple.bind Triple.resume fun target => ?_
  have hbefore := r.conduct_callPhase hρ hB hcodes .beforeEach [target]
  have hbody := r.conduct_callBody hρ hB hcodes hunit target
  have hall := Conduct.bind hbefore fun _ => hbody
  rwa [bind_assoc] at hall

end Calls

/-! ## Candidates -/

section Candidates

/-- Where a candidate is run, the active seed can be looked up, whatever was done before. -/
structure Active (ρ : Regime) (N : Complaint → Prop) (P : World → Prop) : Prop where
  keeps : ∀ w v, w.Lawful → ρ.Leads w v → P w → P v
  source : Triple ρ P Act.currentSource (fun _ _ => True) (Blames N)

variable (hρ : ρ.Traces) (hB : Complains B)
  (hcodes : ∀ code ∈ r.suite.codes, code.Conducts ρ B) (hescape : Escapes B N)
  (hnotify : ∀ n, Conduct ρ N (audience.notify n)) {P : World → Prop} (hP : Active ρ N P)

include hρ hB hcodes hescape hnotify

/-- Whatever becomes of the instance, the hooks and the body of a candidate, an error is
reported. -/
theorem conduct_attempt {c : Candidate Procedure} (hunit : c.unit ∈ r.suite.units)
    (made : Except ErrorId Instance) :
    Triple ρ (Ends (fun _ _ => True) (Blames B) made)
      (Act.handle
        (do
          let target ← Act.resume made
          callHooks [target] (← r.hooks .beforeEach)
          r.callBody c target)
        (r.reportCandidate audience c)) (fun _ _ => True) (Blames N) := by
  refine Triple.handle (Y := Blames B) (r.conduct_callCandidate hρ hB hcodes hunit made) ?_ ?_
    (robust_blames B) (fun _ => Triple.robust_true) (robust_blames N)
  · intro e
    refine (r.conduct_reportCandidate hescape.caught hnotify c e).pre ?_
    exact fun w _ ⟨hblames, _, hcaught⟩ => ⟨hblames.1, hblames.2, hcaught⟩
  · exact fun e w hblames he hkind => ⟨he, hescape.interrupt _ hblames.2 hkind⟩

include hP

theorem conduct_execute {c : Candidate Procedure} (hunit : c.unit ∈ r.suite.units) :
    Triple ρ P (r.execute audience c) (fun _ _ => True) (Blames N) := by
  have hmade := (r.conduct_makeInstance hρ hB hcodes).observe (Y := Blames N)
  have hmade' := (hmade.frame hP.keeps).conseq (Q := P) (fun _ _ h => ⟨trivial, h⟩)
    (fun _ _ _ h => h) fun _ _ _ _ h => h.1
  refine Triple.bind hmade' fun made => Triple.bind (U := fun _ => P) ?_ fun _ => ?_
  · have hcandidate := r.conduct_attempt hρ hB hcodes hescape hnotify hunit made
    exact (hcandidate.frame hP.keeps).conseq (fun _ _ h => h) (fun _ _ _ h => h.2)
      fun _ _ _ _ h => h.1
  · have hafter : ∀ target, Triple ρ P (do
        let outcomes ← invokeAll [target] (← r.hooks .afterEach)
        r.reportOutcomes audience c.name [r.master, c.seed] outcomes) (fun _ _ => True)
        (Blames N) := by
      intro target
      have hinvoked :=
        r.conduct_invokePhase hρ hB hcodes hescape.interrupt hP.source .afterEach [target]
      have hall := Triple.bind hinvoked fun outcomes =>
        r.conduct_reportOutcomes hescape.caught hnotify c.name [r.master, c.seed] outcomes
      rwa [bind_assoc] at hall
    split
    · exact hafter _
    · exact Triple.value fun _ _ _ => trivial

theorem conduct_attend {c : Candidate Procedure} (hunit : c.unit ∈ r.suite.units) :
    Triple ρ P (r.attend audience c) (fun _ _ => True) (Blames N) := by
  have hstarted := (Triple.frame (hnotify { kind := .started, name := c.name }) hP.keeps).conseq
    (Q := P) (fun _ _ h => ⟨trivial, h⟩) (fun _ _ _ h => h.2) fun _ _ _ _ h => h.1
  refine Triple.bind hstarted fun _ => Conduct.andFinally ?_ (hnotify _)
  split
  · exact (hnotify _).given
  · exact r.conduct_execute hρ hB hcodes hescape hnotify hP hunit

end Candidates

/-! ## Class set-up and tear-down -/

section Classes

variable (hρ : ρ.Traces) (hB : Complains B)
  (hcodes : ∀ code ∈ r.suite.codes, code.Conducts ρ B) (hescape : Escapes B N)
  (hnotify : ∀ n, Conduct ρ N (audience.notify n))

include hρ hB hcodes hescape hnotify

theorem conduct_setUpClass : Conduct ρ N (r.setUpClass audience) := by
  refine .handle (B := B) ?_ (fun e => ?_) hescape.interrupt
  · have hcalled := Conduct.bind (r.conduct_callPhase hρ hB hcodes .beforeAll [])
      fun _ => .value true
    rwa [bind_assoc] at hcalled
  · exact Triple.bind (r.conduct_reportSuite hescape.caught hnotify e) fun _ =>
      Conduct.value false

theorem conduct_tearDownClass {P : World → Prop}
    (hsource : Triple ρ P Act.currentSource (fun _ _ => True) (Blames N)) :
    Triple ρ P (r.tearDownClass audience) (fun _ _ => True) (Blames N) := by
  have hinvoked := r.conduct_invokePhase hρ hB hcodes hescape.interrupt hsource .afterAll []
  have hall := Triple.bind hinvoked fun outcomes =>
    r.conduct_reportOutcomes hescape.caught hnotify r.suite.name [r.master] outcomes
  rwa [bind_assoc] at hall

end Classes

end SeededTesting.Runner
