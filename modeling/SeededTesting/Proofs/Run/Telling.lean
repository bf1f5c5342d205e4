import Mathlib.Computability.Language
import Mathlib.Order.CompletePartialOrder
import SeededTesting.Proofs.Run.Calm

/-! # What a recording listener is told

The notifications that an action sends to one recording listener form a word. An action tells two
languages, one when it ends with a value and one when it ends with an error, and the languages of
actions that are put together follow from those of their parts.
-/

namespace SeededTesting

open Act Computability

/-- Notifications with their places in a recording, the first of which is given. -/
def Notification.numberFrom {α : Type} : Nat → List (Notification α) → List (Notification α)
  | _, [] => []
  | place, n :: rest => { n with seq := some place } :: numberFrom (place + 1) rest

theorem Notification.numberFrom_append {α : Type} (place : Nat) (l m : List (Notification α)) :
    numberFrom place (l ++ m) = numberFrom place l ++ numberFrom (place + l.length) m := by
  induction l generalizing place with
  | nil => rfl
  | cons n l ih =>
      rw [List.cons_append, numberFrom, numberFrom, ih, List.length_cons, List.cons_append]
      congr 3
      omega

@[simp] theorem Notification.length_numberFrom {α : Type} (place : Nat)
    (l : List (Notification α)) : (numberFrom place l).length = l.length := by
  induction l generalizing place with
  | nil => rfl
  | cons n l ih => rw [numberFrom, List.length_cons, List.length_cons, ih]

theorem Session.recordedBy_record_self (s : Session) (listener : ListenerRef)
    (n : Notification ErrorId) :
    (s.record listener n).recordedBy listener =
      s.recordedBy listener ++ [{ n with seq := some (s.recordedBy listener).length }] := by
  simp [record, recordedBy]

theorem Session.recordedBy_record_of_ne (s : Session) {listener other : ListenerRef}
    (h : other ≠ listener) (n : Notification ErrorId) :
    (s.record other n).recordedBy listener = s.recordedBy listener := by
  simp [record, recordedBy, h]

/-! ## Regimes -/

/-- A listener is told nothing. -/
def Regime.mute (listener : ListenerRef) : Regime where
  balanced := False
  step s t := t.recordedBy listener = s.recordedBy listener
  refl _ := rfl
  trans h h' := h'.trans h

/-- A listener is told nothing, and stays subscribed as it is. -/
def Regime.quiet (listener : ListenerRef) : Regime where
  balanced := False
  step s t := t.subscribed.count listener = s.subscribed.count listener ∧
    t.recordedBy listener = s.recordedBy listener
  refl _ := ⟨rfl, rfl⟩
  trans h h' := ⟨h'.1.trans h.1, h'.2.trans h.2⟩

theorem Regime.traces_quiet (listener : ListenerRef) : (quiet listener).Traces :=
  ⟨fun _ _ => ⟨rfl, rfl⟩, fun _ _ => ⟨rfl, rfl⟩⟩

theorem Regime.prepares_quiet (index : Nat) : (quiet (.caller index)).Prepares where
  made _ _ := ⟨rfl, rfl⟩
  state _ _ := ⟨rfl, rfl⟩
  listeners _ _ := ⟨rfl, rfl⟩
  declared _ _ := ⟨rfl, rfl⟩
  subscribed s index' serial := by
    refine ⟨?_, rfl⟩
    rw [List.count_append, List.count_singleton]
    simp

theorem Regime.closes_mute (listener : ListenerRef) : (mute listener).Closes :=
  ⟨fun _ _ => rfl, fun _ _ => rfl, fun _ _ => rfl⟩

/-! ## Words -/

/-- A listener, subscribed once, has been told so much after what it was told before. -/
structure Hears (listener : ListenerRef) (before told : List (Notification ErrorId))
    (w : World) : Prop where
  once : w.session.subscribed.count listener = 1
  recorded : w.session.recordedBy listener =
    before ++ Notification.numberFrom before.length told

/-- An action tells a listener a word of one language if it ends with a value, and a word of
another one if it ends with an error. -/
def Tells {α : Type} (listener : ListenerRef) (body : Act α)
    (V : α → Language (Notification ErrorId)) (X : Language (Notification ErrorId)) : Prop :=
  ∀ before told, Triple .free (Hears listener before told) body
    (fun x w => ∃ word ∈ V x, Hears listener before (told ++ word) w)
    (fun _ w => ∃ word ∈ X, Hears listener before (told ++ word) w)

theorem robust_hears (listener : ListenerRef) (before told : List (Notification ErrorId)) :
    Triple.Robust (Hears listener before told) := by
  intro w v _ hsession h
  exact ⟨by rw [hsession]; exact h.once, by rw [hsession]; exact h.recorded⟩

theorem robust_exists_hears (listener : ListenerRef) (before told : List (Notification ErrorId))
    (L : Language (Notification ErrorId)) :
    Triple.Robust fun w => ∃ word ∈ L, Hears listener before (told ++ word) w := by
  intro w v hgrows hsession ⟨word, hword, h⟩
  exact ⟨word, hword, robust_hears listener before _ w v hgrows hsession h⟩

namespace Tells

variable {α β : Type} {listener : ListenerRef} {U V : α → Language (Notification ErrorId)}
  {W : β → Language (Notification ErrorId)} {L M X Y : Language (Notification ErrorId)}

theorem mono {body : Act α} (h : Tells listener body U X) (hV : ∀ x, U x ≤ V x) (hX : X ≤ Y) :
    Tells listener body V Y := by
  intro before told
  refine (h before told).post ?_ ?_
  · exact fun x w ⟨word, hword, hhears⟩ => ⟨word, hV x hword, hhears⟩
  · exact fun e w ⟨word, hword, hhears⟩ => ⟨word, hX hword, hhears⟩

theorem value (x : α) (h : 1 ≤ V x) : Tells listener (pure x) V X := by
  intro before told
  refine Triple.value fun w _ hhears => ⟨[], h rfl, ?_⟩
  rwa [List.append_nil]

/-- What is told after a word follows it. -/
theorem after {body : Act α} (h : Tells listener body V X)
    (before told : List (Notification ErrorId)) (L : Language (Notification ErrorId)) :
    Triple .free (fun w => ∃ word ∈ L, Hears listener before (told ++ word) w) body
      (fun x w => ∃ word ∈ L * V x, Hears listener before (told ++ word) w)
      (fun _ w => ∃ word ∈ L * X, Hears listener before (told ++ word) w) := by
  intro w hw ⟨word, hword, hhears⟩
  refine (h before (told ++ word)).post ?_ ?_ w hw hhears
  · intro x v ⟨next, hnext, hhears⟩
    refine ⟨word ++ next, Language.append_mem_mul hword hnext, ?_⟩
    rwa [← List.append_assoc]
  · intro e v ⟨next, hnext, hhears⟩
    refine ⟨word ++ next, Language.append_mem_mul hword hnext, ?_⟩
    rwa [← List.append_assoc]

theorem bind {body : Act α} {next : α → Act β} {Z : α → β → Language (Notification ErrorId)}
    {Y : α → Language (Notification ErrorId)} (hbody : Tells listener body U X)
    (hnext : ∀ x, Tells listener (next x) (Z x) (Y x)) (hW : ∀ x y, U x * Z x y ≤ W y)
    (hX : X ≤ M) (hY : ∀ x, U x * Y x ≤ M) : Tells listener (body >>= next) W M := by
  intro before told
  refine Triple.bind ((hbody before told).post (fun _ _ h => h) ?_) fun x => ?_
  · exact fun e w ⟨word, hword, hhears⟩ => ⟨word, hX hword, hhears⟩
  · refine ((hnext x).after before told (U x)).post ?_ ?_
    · exact fun y w ⟨word, hword, hhears⟩ => ⟨word, hW x y hword, hhears⟩
    · exact fun e w ⟨word, hword, hhears⟩ => ⟨word, hY x hword, hhears⟩

/-- A value may be given in the end. -/
theorem returning {body : Act α} (hbody : Tells listener body (fun _ => L) X) (y : β)
    (h : L ≤ W y) : Tells listener (do let _ ← body; return y) W X := by
  intro before told
  refine Triple.bind (hbody before told) fun _ => Triple.value ?_
  exact fun w _ ⟨word, hword, hhears⟩ => ⟨word, h hword, hhears⟩

/-- An action that tells nothing when it ends with a value may come first. -/
theorem afterSilence {body : Act α} {next : α → Act β}
    (hbody : Tells listener body (fun _ => 1) X) (hnext : ∀ x, Tells listener (next x) W M)
    (h : X ≤ M) : Tells listener (body >>= next) W M :=
  hbody.bind hnext (fun _ _ => (one_mul _).le) h fun _ => (one_mul _).le

/-- A quiet action leaves what was told as it is. -/
theorem keep {P : World → Prop} {body : Act α} {A : α → World → Prop}
    {E : ErrorId → World → Prop} (h : Triple (.quiet listener) P body A E)
    (before told : List (Notification ErrorId)) :
    Triple .free (fun w => P w ∧ Hears listener before told w) body
      (fun x w => A x w ∧ Hears listener before told w)
      (fun e w => E e w ∧ Hears listener before told w) := by
  intro w hw ⟨hPw, hhears⟩
  obtain ⟨hleads, hends⟩ := h w hw hPw
  have hstill : Hears listener before told (body.exec w).2 :=
    ⟨hleads.step.1.trans hhears.once, hleads.step.2.trans hhears.recorded⟩
  refine ⟨⟨hleads.lawful, hleads.grows, trivial, False.elim⟩, ?_⟩
  cases hout : (body.exec w).1 with
  | ok x =>
      rw [hout] at hends
      exact ⟨hends, hstill⟩
  | error e =>
      rw [hout] at hends
      exact ⟨hends.1, hends.2, hstill⟩

/-- An action that is quiet tells nothing. -/
theorem silent {body : Act α} {B : Complaint → Prop} (h : Conduct (.quiet listener) B body) :
    Tells listener body (fun _ => 1) 1 := by
  intro before told
  refine (keep h before told).conseq (fun _ _ h => ⟨trivial, h⟩) ?_ ?_
  · exact fun x w _ h => ⟨[], rfl, by rw [List.append_nil]; exact h.2⟩
  · exact fun e w _ _ h => ⟨[], rfl, by rw [List.append_nil]; exact h.2⟩

/-- One that never raises tells nothing that ends with an error. -/
theorem calm {body : Act α} (h : Conduct (.quiet listener) noComplaint body) :
    Tells listener body (fun _ => 1) 0 := by
  intro before told
  refine (keep h before told).conseq (fun _ _ h => ⟨trivial, h⟩) ?_ ?_
  · exact fun x w _ h => ⟨[], rfl, by rw [List.append_nil]; exact h.2⟩
  · exact fun e w _ _ h => h.1.2.elim

/-! ## Errors and scopes -/

theorem handle {body : Act α} {handler : ErrorId → Act α} (hbody : Tells listener body U Y)
    (hhandler : ∀ e, Tells listener (handler e) V X) (hU : ∀ x, U x ≤ V x)
    (hV : ∀ x, Y * V x ≤ V x) (hY : Y ≤ M) (hX : Y * X ≤ M) :
    Tells listener (Act.handle body handler) V M := by
  intro before told
  refine Triple.handle ((hbody before told).post ?_ fun _ _ h => h) ?_ ?_
    (fun _ => robust_exists_hears _ _ _ _) (fun _ => robust_exists_hears _ _ _ _)
    (fun _ => robust_exists_hears _ _ _ _)
  · exact fun x w ⟨word, hword, hhears⟩ => ⟨word, hU x hword, hhears⟩
  · intro e
    refine ((hhandler e).after before told Y).conseq ?_ ?_ ?_
    · exact fun _ _ h => h.1
    · exact fun x w _ ⟨word, hword, hhears⟩ => ⟨word, hV x hword, hhears⟩
    · exact fun i w _ _ ⟨word, hword, hhears⟩ => ⟨word, hX hword, hhears⟩
  · exact fun e w ⟨word, hword, hhears⟩ _ _ => ⟨word, hY hword, hhears⟩

theorem andFinally {body cleanup : Act Unit} (hbody : Tells listener body (fun _ => L) Y)
    (hcleanup : Tells listener cleanup (fun _ => M) X) (hraised : Y * M ≤ L * M)
    (hX : L * X ≤ L * M) (hY : Y * X ≤ L * M) :
    Tells listener (Act.andFinally body cleanup) (fun _ => L * M) (L * M) := by
  intro before told
  refine Triple.andFinally (hbody before told) ?_ ?_ (fun _ => robust_exists_hears _ _ _ _)
    fun _ => robust_exists_hears _ _ _ _
  · refine (hcleanup.after before told L).post (fun _ _ h => h) ?_
    exact fun e w ⟨word, hword, hhears⟩ => ⟨word, hX hword, hhears⟩
  · intro e
    refine (hcleanup.after before told Y).conseq ?_ ?_ ?_
    · exact fun _ _ h => h.1
    · exact fun _ w _ ⟨word, hword, hhears⟩ => ⟨word, hraised hword, hhears⟩
    · exact fun i w _ _ ⟨word, hword, hhears⟩ => ⟨word, hY hword, hhears⟩

/-- A scope may fail to be entered, and fail to be left when all was told. -/
theorem inScope {source : RandomSource} {body : Act Unit}
    (hbody : Tells listener body (fun _ => L) X) (h : 1 ≤ X) (hL : L ≤ X) :
    Tells listener (Act.inScope source body) (fun _ => L) X := by
  intro before told
  refine Triple.inScope (hbody before told) ?_
  constructor
  · exact robust_hears listener before told
  · exact robust_exists_hears _ _ _ _
  · exact fun _ => robust_exists_hears _ _ _ _
  · intro c e w hhears _ _
    exact ⟨[], h rfl, by rwa [List.append_nil]⟩
  · exact fun c e w ⟨word, hword, hhears⟩ _ _ => ⟨word, hL hword, hhears⟩
  · exact fun i c e w hhears _ _ => hhears
  · exact fun e i w c hhears _ _ _ _ => hhears

/-! ## Listeners -/

section Listeners

variable {audience : Audience} {index : Nat}

/-- A recording listener that is subscribed is told every notification, and told it once. -/
theorem tellAll (haudience : audience.Conducts (.quiet (.caller index)) noComplaint)
    (hlistener : audience (.caller index) = .recording) (n : Notification ErrorId)
    (listeners : List ListenerRef) :
    Tells (.caller index) (audience.tellAll n listeners)
      (fun _ => {List.replicate (listeners.count (.caller index)) n}) 0 := by
  induction listeners with
  | nil => exact value () le_rfl
  | cons listener rest ih =>
      by_cases hself : listener = .caller index
      · subst hself
        have htell :
            Tells (.caller index) (audience.tell n (.caller index)) (fun _ => {[n]}) 0 := by
          intro before told
          unfold Audience.tell
          rw [hlistener]
          refine Triple.modifySession fun w _ hhears => ⟨trivial, [n], rfl, hhears.once, ?_⟩
          change (w.session.record (.caller index) n).recordedBy _ = _
          rw [Session.recordedBy_record_self, hhears.recorded, List.append_assoc,
            Notification.numberFrom_append]
          simp [Notification.numberFrom]
        refine htell.bind (fun _ => ih) (fun _ _ => ?_) le_rfl fun _ => (mul_zero _).le
        rintro word ⟨a, rfl, b, rfl, rfl⟩
        rw [List.count_cons_self]
        rfl
      · have htell : Tells (.caller index) (audience.tell n listener) (fun _ => 1) 0 :=
          calm (Audience.conduct_tell (Regime.traces_quiet _).heard haudience n fun s =>
            ⟨rfl, s.recordedBy_record_of_ne hself n⟩)
        rw [List.count_cons_of_ne hself]
        exact htell.bind (fun _ => ih) (fun _ _ => (one_mul _).le) le_rfl fun _ =>
          (mul_zero _).le

theorem notify (haudience : audience.Conducts (.quiet (.caller index)) noComplaint)
    (hlistener : audience (.caller index) = .recording) (n : Notification ErrorId) :
    Tells (.caller index) (audience.notify n) (fun _ => {[n]}) 0 := by
  intro before told
  refine Triple.bind Triple.world fun v w hw ⟨hv, hhears⟩ => ?_
  subst hv
  have htold := tellAll haudience hlistener n v.session.subscribed
  rw [hhears.once] at htold
  exact htold before told v hw hhears

end Listeners

end Tells
end SeededTesting
