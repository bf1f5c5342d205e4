import SeededTesting.Proofs.Bond.Actions
import SeededTesting.Proofs.Suite.Map

/-! # Collaborators side by side

Two runs make the same calls if their collaborators compare: whatever procedures keep to a bond, the
calls to them keep to as well, one by one and one after another.
-/

namespace SeededTesting

open Bond

/-- Procedures that do the same under every label. -/
def Procedure.InStep (β : Bond) (procedure procedure' : Procedure) : Prop :=
  ∀ label, β.InStep (procedure label) (procedure' label) Eq

variable {β : Bond}

/-! ## Hooks, factories and bodies -/

theorem inStep_callProcedure {code code' : Option Procedure}
    (h : Option.Rel (Procedure.InStep β) code code') (label : String)
    (arguments : List Instance) :
    β.InStep (callProcedure label arguments code) (callProcedure label arguments code') Eq := by
  cases h with
  | none => exact .complain _
  | some h => exact (Leads.emit _).andThen fun _ => h label

theorem Hook.inStep_call {hook hook' : Hook Procedure} (h : hook.Pairs (Procedure.InStep β) hook')
    (arguments : List Instance) : β.InStep (hook.call arguments) (hook'.call arguments) Eq := by
  unfold Hook.call
  rw [h.label]
  exact inStep_callProcedure h.code _ _

theorem inStep_callHooks {hooks hooks' : List (Hook Procedure)}
    (h : List.Forall₂ (Hook.Pairs (Procedure.InStep β)) hooks hooks')
    (arguments : List Instance) :
    β.InStep (callHooks arguments hooks) (callHooks arguments hooks') Eq := by
  induction h with
  | nil => exact .value rfl
  | cons hhook _ ih => exact (Hook.inStep_call hhook arguments).andThen fun _ => ih

/-- The same errors left the hooks, whichever hooks these were. -/
def SameFailures (outcomes outcomes' : List (Hook Procedure × Option ErrorId)) : Prop :=
  outcomes'.filterMap (·.2) = outcomes.filterMap (·.2)

theorem inStep_invokeAll {hooks hooks' : List (Hook Procedure)}
    (h : List.Forall₂ (Hook.Pairs (Procedure.InStep β)) hooks hooks')
    (arguments : List Instance) :
    β.InStep (invokeAll arguments hooks) (invokeAll arguments hooks') SameFailures := by
  induction h with
  | nil => exact .value rfl
  | cons hhook _ ih =>
      have hcall := (Hook.inStep_call hhook arguments).andThen
        fun _ => (Leads.value rfl : β.InStep (pure (none : Option ErrorId)) (pure none) Eq)
      refine (hcall.handle fun e => .value rfl).andThen fun error =>
        ih.bind fun outcomes outcomes' houtcomes => .value ?_
      cases error with
      | none => exact houtcomes
      | some e => exact congrArg (e :: ·) houtcomes

theorem TestUnit.inStep_call {unit unit' : TestUnit Procedure}
    (h : unit.Pairs (Procedure.InStep β) unit') (target : Instance) :
    β.InStep (unit.call target) (unit'.call target) Eq := by
  unfold TestUnit.call
  rw [h.name]
  exact inStep_callProcedure h.body _ _

theorem Factory.inStep_call {factory factory' : Factory Procedure}
    (h : factory.Pairs (Procedure.InStep β) factory') :
    β.InStep factory.call factory'.call Eq := by
  refine Leads.world.bind fun w v hwv => ?_
  rw [hwv.session.instances, h.yields]
  have hcount : β.InStep
      (Act.modifySession fun s => { s with instances := w.session.instances + 1 })
      (Act.modifySession fun s => { s with instances := w.session.instances + 1 }) Eq :=
    .modifySession fun s t hst => { hst with instances := rfl }
  exact hcount.andThen fun _ => (Leads.emit _).andThen fun _ => (h.code _).andThen fun _ =>
    .value rfl

/-! ## Rules -/

section Rules

variable {rule rule' : Rule Procedure} {statement statement' : Act Unit}

theorem Rule.inStep_repeated (h : β.InStep statement statement' Eq) (times : Nat) :
    β.InStep (Rule.repeated statement times) (Rule.repeated statement' times) Eq := by
  induction times with
  | zero => exact .value rfl
  | succ times ih => exact h.andThen fun _ => ih

theorem Rule.inStep_around (hrule : rule.Pairs (Procedure.InStep β) rule')
    (h : β.InStep statement statement' Eq) :
    β.InStep (rule.around statement) (rule'.around statement') Eq := by
  unfold Rule.around Rule.label
  rw [hrule.tag, hrule.times, hrule.swallow]
  refine (Leads.emit _).andThen fun _ => (hrule.before _).andThen fun _ => Leads.andThen ?_
    fun _ => (hrule.after _).andThen fun _ => .emit _
  refine (inStep_repeated h rule.times).handle fun e => Leads.complaint.andThen fun c =>
    (Leads.emit _).andThen fun _ => ?_
  cases rule.swallow with
  | true => exact .value rfl
  | false => exact .failure

theorem Rule.inStep_applyAll {rules rules' : List (Rule Procedure)}
    (hrules : List.Forall₂ (Rule.Pairs (Procedure.InStep β)) rules rules')
    (h : β.InStep statement statement' Eq) (unit : String) (target : Instance) :
    β.InStep (Rule.applyAll unit target rules statement)
      (Rule.applyAll unit target rules' statement') fun made made' => β.InStep made made' Eq := by
  induction hrules generalizing statement statement' with
  | nil => exact .value h
  | cons hrule _ ih =>
      refine Leads.andThen ?_ fun _ => ih (inStep_around hrule h)
      unfold Rule.apply Rule.label
      rw [hrule.tag]
      exact (Leads.emit _).andThen fun _ => hrule.build _

end Rules

/-! ## Listeners -/

/-- Listeners that do the same about a notification. -/
inductive Listener.Pairs (Q : Procedure → Procedure → Prop) : Listener → Listener → Prop where
  | recording : Pairs Q .recording .recording
  | silent : Pairs Q .silent .silent
  | scripted (tag : String) {reactions reactions' : Reactions Procedure}
      (h : ∀ kind, Q (reactions.on kind) (reactions'.on kind)) :
      Pairs Q (.scripted tag reactions) (.scripted tag reactions')

/-- Audiences that do the same, the second one by later serial numbers. -/
def Audience.InStep (β : Bond) (audience audience' : Audience) : Prop :=
  ∀ listener, (audience listener).Pairs (Procedure.InStep β)
    (audience' (listener.later β.serials))

namespace Audience.InStep

variable {audience audience' : Audience} (h : audience.InStep β audience')

include h

theorem tell (n : Notification ErrorId) (listener : ListenerRef) :
    β.InStep (audience.tell n listener) (audience'.tell n (listener.later β.serials)) Eq := by
  have hlistener := h listener
  unfold Audience.tell
  generalize audience listener = behind at hlistener ⊢
  generalize audience' (listener.later β.serials) = behind' at hlistener ⊢
  cases hlistener with
  | recording => exact .modifySession fun s t hst => hst.record listener n
  | silent => exact .value rfl
  | scripted tag hreactions =>
      refine Leads.world.bind fun w v hwv => ?_
      rw [hwv.errors]
      exact (Leads.emit _).andThen fun _ => hreactions _ _

theorem tellAll (n : Notification ErrorId) (listeners : List ListenerRef) :
    β.InStep (audience.tellAll n listeners)
      (audience'.tellAll n (listeners.map (·.later β.serials))) Eq := by
  induction listeners with
  | nil => exact .value rfl
  | cons listener rest ih => exact (h.tell n listener).andThen fun _ => ih

theorem notify (n : Notification ErrorId) :
    β.InStep (audience.notify n) (audience'.notify n) Eq := by
  refine Leads.world.bind fun w v hwv => ?_
  rw [hwv.session.subscribed]
  exact h.tellAll n _

end Audience.InStep

/-! ## Subscriptions -/

theorem inStep_subscribe (listener : ListenerRef) :
    β.InStep (subscribe listener) (subscribe (listener.later β.serials)) Eq := by
  refine .modifySession fun s t hst => { hst with subscribed := ?_ }
  rw [hst.subscribed, List.map_append]
  rfl

theorem inStep_unsubscribe (listener : ListenerRef) :
    β.InStep (unsubscribe listener) (unsubscribe (listener.later β.serials)) Eq := by
  refine .modifySession fun s t hst => { hst with subscribed := ?_ }
  rw [hst.subscribed, List.map_erase (ListenerRef.later_injective β.serials)]

theorem ListenerFactory.inStep_call {factory factory' : ListenerFactory Procedure}
    (h : factory.Pairs (Procedure.InStep β) factory') (index : Nat) :
    β.InStep (factory.call index) (factory'.call index)
      fun listener listener' => listener' = listener.later β.serials := by
  unfold ListenerFactory.call
  rw [h.tag, h.shared]
  refine (Leads.emit _).andThen fun _ => (h.create _).andThen fun _ => ?_
  cases factory.shared with
  | true => exact .value rfl
  | false =>
      refine Leads.world.bind fun w v hwv => ?_
      rw [hwv.session.listeners]
      generalize w.session.listeners = serial
      have hcount : β.InStep
          (Act.modifySession fun s => { s with listeners := serial + 1 })
          (Act.modifySession fun s => { s with listeners := serial + β.serials + 1 }) Eq :=
        .modifySession fun s t hst => { hst with listeners := Nat.add_right_comm _ _ _ }
      exact hcount.andThen fun _ => .value rfl

end SeededTesting
