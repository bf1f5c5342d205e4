import SeededTesting.Proofs.Script.Soundness

/-! # Errors that can be reported

An error can be reported if it is no interrupt and if its object lets a seed chain be recorded, or
refuses to as one of its type does. Scripts that raise only such errors, from objects of their own,
leave no others.
-/

namespace SeededTesting

/-- An error that can be reported: no interrupt, and an object that lets a chain be recorded, or
refuses it as one of its type does. -/
def Complaint.Reportable (c : Complaint) : Prop :=
  c.kind.interrupt = false ∧ c.kind.refusal ≠ some .value

instance (c : Complaint) : Decidable c.Reportable :=
  inferInstanceAs (Decidable (_ ∧ _))

theorem complains_reportable : Complains Complaint.Reportable where
  misuse c := by cases c <;> decide
  refusal c d _ h := by
    unfold ErrorKind.refusalToLeave ErrorKind.refusalOf at h
    cases hrefusal : c.kind.refusal with
    | none =>
        rw [hrefusal] at h
        cases h
    | some refusal =>
        rw [hrefusal] at h
        cases refusal
        all_goals
          cases h
          exact ⟨rfl, nofun⟩
  uncallable := by decide

namespace Script

/-- Whether a step may raise an error that can not be reported. -/
def Step.offends : Step → Bool
  | .raise raisings => raisings.any fun raising =>
    raising.error.key.isSome || !decide raising.error.complaint.Reportable
  | .nested .. => true
  | _ => false

/-- Scripts that do not offend raise only what can be reported, whatever else they keep to. -/
theorem Permits.reportable {ρ : Regime} {B : Complaint → Prop} {sort : Step → Bool}
    (h : Permits ρ B sort) :
    Permits ρ Complaint.Reportable fun step => sort step || step.offends where
  toTolerates := complains_reportable.toTolerates
  negativeWidth := ⟨rfl, nofun⟩
  assumption _ := ⟨rfl, nofun⟩
  raised raisings hsort raising hmem := by
    have hoffends : Step.offends (.raise raisings) = false := (Bool.or_eq_false_iff.mp hsort).2
    have hraising := List.any_eq_false.mp hoffends raising hmem
    simp only [Bool.or_eq_true, not_or, Bool.not_eq_true, Option.isSome_eq_false_iff,
      Option.isNone_iff_eq_none, Bool.not_eq_false', decide_eq_true_eq] at hraising
    exact .inl hraising
  interrupts suite settings test hsort := by cases (Bool.or_eq_false_iff.mp hsort).2
  moves step hmoves hsort := h.moves step hmoves (Bool.or_eq_false_iff.mp hsort).1
  report := h.report
  filter test hsort := h.filter test (Bool.or_eq_false_iff.mp hsort).1
  subscribe listener hsort := h.subscribe listener (Bool.or_eq_false_iff.mp hsort).1
  unsubscribe listener hsort := h.unsubscribe listener (Bool.or_eq_false_iff.mp hsort).1

end Script
end SeededTesting
