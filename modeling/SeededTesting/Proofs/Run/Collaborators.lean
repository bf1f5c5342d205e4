import SeededTesting.Proofs.Act.Conduct
import SeededTesting.Proofs.Hooks.Order
import SeededTesting.Proofs.Script.Codes
import SeededTesting.Run.Lifecycle

/-! # How collaborators are called

Whatever the collaborators of a suite keep to, the calls that a runner makes to them keep to as
well: hooks, factories, rules, test bodies and listeners, one by one and one after another.
-/

namespace SeededTesting

open Act

variable {ρ : Regime} {B N : Complaint → Prop}

/-- A regime under which events may be added and instances made. -/
structure Regime.Traces (ρ : Regime) : Prop where
  emit : ∀ s event, ρ.step s { s with trace := s.trace.push event }
  instances : ∀ s n, ρ.step s { s with instances := n }

/-- A regime under which listeners may hear. -/
def Regime.Heard (ρ : Regime) : Prop :=
  ∀ s tag kind name failure,
    ρ.step s { s with trace := s.trace.push (.heard tag kind name failure) }

theorem Regime.Traces.heard (h : ρ.Traces) : ρ.Heard :=
  fun s _ _ _ _ => h.emit s _

theorem Regime.Traces.free : Regime.free.Traces :=
  ⟨fun _ _ => trivial, fun _ _ => trivial⟩

/-- The conduct of a procedure, under whatever label it is run. -/
def Procedure.Conducts (ρ : Regime) (B : Complaint → Prop) (procedure : Procedure) : Prop :=
  ∀ label, Conduct ρ B (procedure label)

theorem Procedure.Conducts.under {σ : Regime} {procedure : Procedure}
    (h : procedure.Conducts ρ B) (hσ : ρ.Implies σ) : procedure.Conducts σ B :=
  fun label => (h label).under hσ

/-- The complaints of collaborators, of whom some may be missing. -/
structure Complains (B : Complaint → Prop) : Prop extends Tolerates B where
  uncallable : B notCallable

theorem Act.Conduct.emit (h : ρ.Traces) (event : Event) : Conduct ρ B (Act.emit event) :=
  .modifySession fun s => h.emit s event

/-! ## Hooks and bodies -/

section Calls

variable (hρ : ρ.Traces) (hB : Complains B)

include hρ hB

theorem conduct_callProcedure {code : Option Procedure}
    (h : ∀ procedure, code = some procedure → procedure.Conducts ρ B) (label : String)
    (arguments : List Instance) : Conduct ρ B (callProcedure label arguments code) := by
  cases code with
  | none => exact .complain hB.uncallable
  | some procedure => exact .bind (.emit hρ _) fun _ => h procedure rfl label

theorem Hook.conduct_call {hook : Hook Procedure}
    (h : ∀ procedure, hook.code = some procedure → procedure.Conducts ρ B)
    (arguments : List Instance) : Conduct ρ B (hook.call arguments) :=
  conduct_callProcedure hρ hB h _ _

theorem TestUnit.conduct_call {unit : TestUnit Procedure}
    (h : ∀ procedure, unit.body = some procedure → procedure.Conducts ρ B) (target : Instance) :
    Conduct ρ B (unit.call target) :=
  conduct_callProcedure hρ hB h _ _

omit hB in
theorem Factory.conduct_call {factory : Factory Procedure} (h : factory.code.Conducts ρ B) :
    Conduct ρ B factory.call := by
  refine .bind .world fun w => .bind (.modifySession fun s => hρ.instances s _) fun _ => ?_
  exact .bind (.emit hρ _) fun _ => .bind (h _) fun _ => .value _

end Calls

theorem conduct_callHooks {arguments : List Instance} {hooks : List (Hook Procedure)}
    (h : ∀ hook ∈ hooks, Conduct ρ B (hook.call arguments)) :
    Conduct ρ B (callHooks arguments hooks) := by
  induction hooks with
  | nil => exact .value ()
  | cons hook rest ih =>
      refine .bind (h hook List.mem_cons_self) fun _ => ih ?_
      intro hook hmem
      exact h hook (List.mem_cons_of_mem _ hmem)

/-- The errors of hooks that failed are at hand. -/
def OutcomesBlame (B : Complaint → Prop) (outcomes : List (Hook Procedure × Option ErrorId))
    (w : World) : Prop :=
  ∀ outcome ∈ outcomes, ∀ e, outcome.2 = some e → Blames B e w

/-- Invoking hooks catches all errors but interrupts. -/
theorem conduct_invokeAll {arguments : List Instance} {hooks : List (Hook Procedure)}
    (h : ∀ hook ∈ hooks, Conduct ρ B (hook.call arguments))
    (hpass : ∀ c, B c → c.kind.interrupt = true → N c) :
    Triple ρ (fun _ => True) (invokeAll arguments hooks) (OutcomesBlame (Caught B))
      (Blames N) := by
  induction hooks with
  | nil =>
      refine Triple.value fun _ _ _ outcome hmem => ?_
      cases hmem
  | cons hook rest ih =>
      have hcall : Triple ρ (fun _ => True)
          (Act.handle (do hook.call arguments; return none) (return some ·))
          (fun error w => ∀ e, error = some e → Blames (Caught B) e w) (Blames N) := by
        refine Triple.handle (Y := Blames B) ?_ ?_ ?_ (robust_blames B) ?_ (robust_blames N)
        · refine Triple.bind (h hook List.mem_cons_self) fun _ => Triple.value ?_
          intro w _ _ e he
          cases he
        · intro e
          refine Triple.value fun w _ ⟨hblames, _, hcaught⟩ i hi => ?_
          cases hi
          exact ⟨hblames.1, hblames.2, hcaught⟩
        · exact fun e w hblames he hkind => ⟨he, hpass _ hblames.2 hkind⟩
        · exact fun error w v hgrows hsession h e he =>
            robust_blames _ e w v hgrows hsession (h e he)
      refine Triple.bind hcall fun error => ?_
      have hrest := ih fun hook hmem => h hook (List.mem_cons_of_mem _ hmem)
      -- What is said of the error of one hook still holds once the others have been called.
      have hkept := Triple.frame hrest (F := fun w => ∀ e, error = some e →
        Blames (Caught B) e w) fun w v _ hleads h e he => hleads.blames (h e he)
      refine Triple.bind (hkept.conseq (fun _ _ h => ⟨trivial, h⟩) (fun _ _ _ h => h)
        fun _ _ _ _ h => h.1) fun outcomes => ?_
      refine Triple.value fun w _ ⟨houtcomes, herror⟩ outcome hmem e he => ?_
      rcases List.mem_cons.mp hmem with rfl | hmem
      · exact herror e he
      · exact houtcomes outcome hmem e he

/-- There is one outcome for each of the hooks that are invoked, in their order. -/
theorem map_fst_of_invokeAll {arguments : List Instance} {hooks : List (Hook Procedure)}
    {w v : World} {outcomes : List (Hook Procedure × Option ErrorId)}
    (h : (invokeAll arguments hooks).exec w = (.ok outcomes, v)) :
    outcomes.map Prod.fst = hooks := by
  induction hooks generalizing w outcomes with
  | nil =>
      cases h
      rfl
  | cons hook rest ih =>
      rw [invokeAll] at h
      obtain ⟨error, t, -, h⟩ := exec_bind_eq_ok_iff.mp h
      obtain ⟨tail, u, htail, h⟩ := exec_bind_eq_ok_iff.mp h
      cases h
      rw [List.map_cons, ih htail]

/-! ## Rules -/

section Rules

variable {rule : Rule Procedure} {statement : Act Unit}

theorem Rule.conduct_repeated (h : Conduct ρ B statement) (times : Nat) :
    Conduct ρ B (Rule.repeated statement times) := by
  induction times with
  | zero => exact .value ()
  | succ times ih => exact .bind h fun _ => ih

theorem Rule.conduct_around (hρ : ρ.Traces) (hrule : ∀ code ∈ rule.codes, code.Conducts ρ B)
    (h : Conduct ρ B statement) : Conduct ρ B (rule.around statement) := by
  have hbefore : rule.before.Conducts ρ B := hrule _ (by simp [codes])
  have hafter : rule.after.Conducts ρ B := hrule _ (by simp [codes])
  refine .bind (.emit hρ _) fun _ => .bind (hbefore _) fun _ => .bind ?_ fun _ =>
    .bind (hafter _) fun _ => .emit hρ _
  refine .handle (conduct_repeated h rule.times) ?_ fun c hc _ => hc
  intro e
  have hheard : ∀ c, Conduct ρ B (Act.emit (.ruleCaught rule.tag c)) := fun c => .emit hρ _
  refine Triple.bind (U := fun _ => Blames (Caught B) e) ?_ fun c => ?_
  · exact Triple.complaint.post (fun _ _ h => h.2) fun _ _ h => h
  · refine Triple.bind (U := fun _ => Blames B e) ?_ fun _ => ?_
    · refine (Triple.frame (hheard c) (F := Blames B e) fun _ _ _ hleads h =>
        hleads.blames h).conseq ?_ (fun _ _ _ h => h.2) fun _ _ _ _ h => h.1
      exact fun _ _ h => ⟨trivial, h.mono fun _ hc => hc.1⟩
    · split
      · exact Triple.value fun _ _ _ => trivial
      · exact Conduct.failure e

theorem Rule.conduct_apply (hρ : ρ.Traces) (hrule : ∀ code ∈ rule.codes, code.Conducts ρ B)
    (unit : String) (target : Instance) : Conduct ρ B (rule.apply unit target) :=
  .bind (.emit hρ _) fun _ => hrule rule.build (by simp [codes]) _

/-- The statement that rules make of one keeps to what they and the latter keep to. -/
theorem Rule.conduct_applyAll (hρ : ρ.Traces) {rules : List (Rule Procedure)}
    (hrules : ∀ rule ∈ rules, ∀ code ∈ rule.codes, code.Conducts ρ B)
    (h : Conduct ρ B statement) (unit : String) (target : Instance) :
    Triple ρ (fun _ => True) (Rule.applyAll unit target rules statement)
      (fun made _ => Conduct ρ B made) (Blames B) := by
  induction rules generalizing statement with
  | nil => exact Triple.value fun _ _ _ => h
  | cons rule rest ih =>
      have hrule := hrules rule List.mem_cons_self
      refine Triple.bind (conduct_apply hρ hrule unit target) fun _ => ih ?_ ?_
      · intro rule hmem
        exact hrules rule (List.mem_cons_of_mem _ hmem)
      · exact conduct_around hρ hrule h

end Rules

/-! ## Listeners -/

section Listeners

variable {audience : Audience}

/-- An audience whose listeners react as their procedures do. -/
def Audience.Conducts (ρ : Regime) (N : Complaint → Prop) (audience : Audience) : Prop :=
  ∀ listener tag reactions, audience listener = .scripted tag reactions →
    ∀ kind, (reactions.on kind).Conducts ρ N

theorem Audience.Conducts.under {σ : Regime} (h : audience.Conducts ρ N) (hσ : ρ.Implies σ) :
    audience.Conducts σ N :=
  fun listener tag reactions hlistener kind => (h listener tag reactions hlistener kind).under hσ

theorem Audience.conduct_tell (hρ : ρ.Heard) (h : audience.Conducts ρ N)
    (n : Notification ErrorId) {listener : ListenerRef}
    (hrecord : ∀ s, ρ.step s (Session.record s listener n)) :
    Conduct ρ N (audience.tell n listener) := by
  unfold Audience.tell
  cases hlistener : audience listener with
  | recording => exact .modifySession hrecord
  | silent => exact .value ()
  | scripted tag reactions =>
      have hheard : ∀ errors, Conduct ρ N (Act.emit (heardEvent errors tag n)) :=
        fun errors => .modifySession fun s => hρ s _ _ _ _
      exact .bind .world fun w => .bind (hheard _) fun _ => h listener tag reactions hlistener _ _

theorem Audience.conduct_tellAll (hρ : ρ.Heard)
    (hrecord : ∀ s listener n, ρ.step s (Session.record s listener n))
    (h : audience.Conducts ρ N) (n : Notification ErrorId) (listeners : List ListenerRef) :
    Conduct ρ N (audience.tellAll n listeners) := by
  induction listeners with
  | nil => exact .value ()
  | cons listener rest ih =>
      exact .bind (conduct_tell hρ h n fun s => hrecord s listener n) fun _ => ih

theorem Audience.conduct_notify (hρ : ρ.Heard)
    (hrecord : ∀ s listener n, ρ.step s (Session.record s listener n))
    (h : audience.Conducts ρ N) (n : Notification ErrorId) : Conduct ρ N (audience.notify n) :=
  .bind .world fun _ => conduct_tellAll hρ hrecord h n _

end Listeners

end SeededTesting
