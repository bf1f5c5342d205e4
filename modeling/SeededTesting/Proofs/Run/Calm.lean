import SeededTesting.Proofs.Run.Soundness

/-! # Listeners that do not raise

A listener is calmed by keeping to itself whatever errors its reactions raise. In a run that calming
its listeners does not change no listener raises; in particular, listeners that never raise do not
disturb any run.
-/

namespace SeededTesting

open Act

/-- The complaints that nothing makes. -/
def noComplaint (_ : Complaint) : Prop :=
  False

/-- A procedure that keeps its errors to itself. -/
def Procedure.calmed (procedure : Procedure) : Procedure :=
  fun label => discard (observe (procedure label))

def Reactions.calmed (r : Reactions Procedure) : Reactions Procedure where
  started := Procedure.calmed r.started
  ignored := Procedure.calmed r.ignored
  assumptionFailed := Procedure.calmed r.assumptionFailed
  failed := Procedure.calmed r.failed
  finished := Procedure.calmed r.finished

def Listener.calmed : Listener → Listener
  | .scripted tag reactions => .scripted tag reactions.calmed
  | listener => listener

/-- An audience whose listeners never raise. -/
def Audience.calmed (audience : Audience) : Audience :=
  fun listener => (audience listener).calmed

/-- No listener raises in a run: calming the listeners makes no difference to it. -/
def Runner.Undisturbed (r : Runner Procedure) (audience : Audience) (w : World) : Prop :=
  (r.run audience.calmed).exec w = (r.run audience).exec w

variable {ρ : Regime}

theorem Procedure.conducts_calmed {procedure : Procedure}
    (h : procedure.Conducts ρ anyComplaint) : procedure.calmed.Conducts ρ noComplaint := by
  intro label
  refine Triple.discard ((h label).observe (Y := Blames noComplaint)) ?_
  exact fun _ _ _ => trivial

theorem Reactions.on_calmed (r : Reactions Procedure) (kind : NotificationKind) :
    r.calmed.on kind = Procedure.calmed (r.on kind) := by
  cases kind <;> rfl

/-- A listener that is calmed reacts as it did. -/
theorem Audience.exists_of_calmed {audience : Audience} {listener : ListenerRef} {tag : String}
    {reactions : Reactions Procedure} (h : audience.calmed listener = .scripted tag reactions) :
    ∃ inner, audience listener = .scripted tag inner ∧ reactions = inner.calmed := by
  unfold calmed at h
  cases hlistener : audience listener with
  | recording | silent =>
      rw [hlistener] at h
      cases h
  | scripted tag inner =>
      rw [hlistener] at h
      cases h
      exact ⟨inner, rfl, rfl⟩

theorem Audience.conducts_calmed {audience : Audience} (h : audience.Conducts ρ anyComplaint) :
    audience.calmed.Conducts ρ noComplaint := by
  intro listener tag reactions hlistener kind
  obtain ⟨inner, hinner, rfl⟩ := exists_of_calmed hlistener
  rw [Reactions.on_calmed]
  exact Procedure.conducts_calmed (h listener tag inner hinner kind)

/-- Calming does not change what recording listeners do. -/
theorem Audience.calmed_recording {audience : Audience} {listener : ListenerRef}
    (h : audience listener = .recording) : audience.calmed listener = .recording := by
  rw [calmed, h]
  rfl

/-! ## Listeners that never raise -/

/-- A procedure that ends without an error, wherever it starts. -/
def Procedure.NeverRaises (procedure : Procedure) : Prop :=
  ∀ label w, ((procedure label).exec w).1 = .ok ()

theorem Procedure.calmed_eq {procedure : Procedure} (h : procedure.NeverRaises) :
    procedure.calmed = procedure := by
  have hexec : ∀ label w, (procedure.calmed label).exec w = (procedure label).exec w := by
    intro label w
    rw [calmed, exec_discard, exec_observe]
    exact Prod.ext (h label w).symm rfl
  exact funext fun label => funext fun w => hexec label w

theorem Reactions.calmed_eq {r : Reactions Procedure}
    (h : ∀ kind, Procedure.NeverRaises (r.on kind)) : r.calmed = r := by
  obtain ⟨started, ignored, assumptionFailed, failed, finished⟩ := r
  have hstarted : Procedure.calmed started = started := Procedure.calmed_eq (h .started)
  have hignored : Procedure.calmed ignored = ignored := Procedure.calmed_eq (h .ignored)
  have hassumption : Procedure.calmed assumptionFailed = assumptionFailed :=
    Procedure.calmed_eq (h .assumptionFailed)
  have hfailed : Procedure.calmed failed = failed := Procedure.calmed_eq (h .failed)
  have hfinished : Procedure.calmed finished = finished := Procedure.calmed_eq (h .finished)
  rw [calmed, hstarted, hignored, hassumption, hfailed, hfinished]

/-- Listeners that never raise do not disturb a run. -/
theorem Runner.undisturbed_of_neverRaises {r : Runner Procedure} {audience : Audience}
    (h : ∀ listener tag reactions, audience listener = .scripted tag reactions →
      ∀ kind, Procedure.NeverRaises (reactions.on kind)) (w : World) :
    r.Undisturbed audience w := by
  have hcalmed : audience.calmed = audience := by
    funext listener
    unfold Audience.calmed Listener.calmed
    cases hlistener : audience listener with
    | recording | silent => rfl
    | scripted tag reactions =>
        exact congrArg (Listener.scripted tag)
          (Reactions.calmed_eq (h listener tag reactions hlistener))
  rw [Undisturbed, hcalmed]

end SeededTesting
