import SeededTesting.Proofs.Act.Scopes
import SeededTesting.Proofs.Failure.Objects

/-! # What recording leaves

A chain and its note are written one after the other, and an object may refuse either. Whatever it
refuses, the object stays what it was, with the chain on it as soon as it accepts that, and no other
object is touched. A refusal is passed over, save a complaint about the value: that one leaves.
-/

namespace SeededTesting

/-- Recording on an object of a temper ends in a complaint about the value: about the chain, or
about the note once the chain is there. -/
inductive Temper.Escapes (temper : Temper) : Complaint → Prop
  | chain {text : String} (h : temper.toChain = .refuses .value text) :
      temper.Escapes ⟨.value, some text⟩
  | note {text : String} (haccepts : temper.toChain = .accepts)
      (h : temper.toNote = .refuses .value text) : temper.Escapes ⟨.value, some text⟩

theorem Temper.escapes_iff {temper : Temper} {c : Complaint} :
    temper.Escapes c ↔ ∃ text, (temper.toChain = .refuses .value text ∨
      temper.toChain = .accepts ∧ temper.toNote = .refuses .value text) ∧
        c = ⟨.value, some text⟩ := by
  constructor
  · rintro (h | ⟨haccepts, h⟩)
    · exact ⟨_, .inl h, rfl⟩
    · exact ⟨_, .inr ⟨haccepts, h⟩, rfl⟩
  · rintro ⟨text, h | ⟨haccepts, h⟩, rfl⟩
    · exact .chain h
    · exact .note haccepts h

theorem Refusal.recording_eq_failed_iff {text : String} {refusal : Refusal} {c : Complaint} :
    refusal.recording text = .failed c ↔ refusal = .value ∧ c = ⟨.value, some text⟩ := by
  cases refusal <;> simp [recording, eq_comm]

namespace ErrorObject

variable (o : ErrorObject) (temper : Temper) (chain : String)

theorem recordAs_eq_failed_iff {c : Complaint} :
    (o.recordAs temper chain).1 = .failed c ↔ temper.Escapes c := by
  rw [Temper.escapes_iff, recordAs]
  cases temper.toChain with
  | refuses refusal text => simp [Refusal.recording_eq_failed_iff, and_assoc]
  | accepts =>
      cases temper.toNote with
      | refuses refusal text => simp [Refusal.recording_eq_failed_iff, and_assoc]
      | accepts => simp

/-- By itself, an object lets a complaint escape only about the chain. -/
theorem temper_escapes_iff {c : Complaint} : o.temper.Escapes c ↔
    o.kind.refusal = some .value ∧ c = ⟨.value, some chainsAttribute⟩ := by
  constructor
  · intro h
    exact record_failed ((recordAs_eq_failed_iff o o.temper "").mpr h)
  · rintro ⟨hrefusal, rfl⟩
    refine .chain ?_
    rw [temper, hrefusal]

/-- A note is added exactly when both the chain and the note are accepted. -/
theorem recordAs_notes :
    (o.recordAs temper chain).2.notes =
      if temper.toChain = .accepts ∧ temper.toNote = .accepts then o.notes.add (seedNote chain)
      else o.notes := by
  unfold recordAs
  cases temper.toChain with
  | refuses refusal text => rw [if_neg (by simp)]
  | accepts => cases temper.toNote <;> simp

end ErrorObject

namespace ErrorStore

/-- One store comes from another by recording a chain on an error of a temper, as far as the error
lets that happen. -/
structure Recorded (s : ErrorStore) (temper : Temper) (e : ErrorId) (chain : String)
    (t : ErrorStore) : Prop where
  size : t.size = s.size
  shared : t.shared = s.shared
  other : ∀ i ≠ e, t.get i = s.get i
  /-- Nothing but chains and notes changes on the object itself. -/
  same : ∃ chains notes, t.get e = { s.get e with chains, notes }
  chains : (t.get e).chains =
    if temper.toChain = .accepts then chain :: (s.get e).chains else (s.get e).chains
  notes : (t.get e).notes =
    if temper.toChain = .accepts ∧ temper.toNote = .accepts then
      (s.get e).notes.add (seedNote chain)
    else (s.get e).notes

theorem recorded_augmentAs (s : ErrorStore) (temper : Temper) {e : ErrorId} (he : e < s.size)
    (seeds : List Seed) :
    s.Recorded temper e (SeedChain.format seeds) (s.augmentAs temper e seeds).2 := by
  have hself : (s.augmentAs temper e seeds).2.get e =
      ((s.get e).recordAs temper (SeedChain.format seeds)).2 := get_update_self he _
  refine ⟨size_update _ _ _, rfl, fun i hi => get_update_of_ne s hi _, ?_, ?_, ?_⟩
  · rw [hself]
    exact ⟨_, _, ErrorObject.recordAs_snd _ _ _⟩
  · rw [hself, ErrorObject.recordAs_chains]
  · rw [hself, ErrorObject.recordAs_notes]

end ErrorStore

namespace Act

/-- Recording seeds goes on, or raises what the temper of the error lets escape. -/
theorem exec_augment_of_temper (e : ErrorId) (seeds : List Seed) (w : World) :
    (∃ journal, (augment e seeds).exec w =
        (.ok (), { w with errors := (w.errors.augment e seeds).2, journal }) ∧
      ∀ c, ¬ (w.errors.get e).temper.Escapes c) ∨
    ∃ c, (w.errors.get e).temper.Escapes c ∧ (augment e seeds).exec w =
      (complain c : Act Unit).exec { w with errors := (w.errors.augment e seeds).2 } := by
  have hescapes : ∀ c, (w.errors.augment e seeds).1 = .failed c ↔
      (w.errors.get e).temper.Escapes c :=
    fun _ => ErrorObject.recordAs_eq_failed_iff _ _ _
  rw [exec_augment]
  generalize w.errors.augment e seeds = result at hescapes ⊢
  obtain ⟨recording, errors⟩ := result
  cases recording with
  | done => exact .inl ⟨w.journal, rfl, fun c h => nomatch (hescapes c).mpr h⟩
  | refused text => exact .inl ⟨_, rfl, fun c h => nomatch (hescapes c).mpr h⟩
  | failed c => exact .inr ⟨c, (hescapes c).mp rfl, rfl⟩

/-- Whatever an error object carries, however it takes a chain and its note, and whatever seeds are
recorded: recording complains exactly when the object's complaint about the value escapes, and in
any case it leaves the object as it was but for the chain and the note that it accepts, and every
other object as it was. The action that a run performs does this with the temper that the object
has by itself, and ends without an error unless a complaint escapes. -/
theorem augment_ends_unless_escapes (w : World) {e : ErrorId} (he : e < w.errors.size)
    (seeds : List Seed) :
    (∀ temper,
      (∀ c, (w.errors.augmentAs temper e seeds).1 = .failed c ↔ temper.Escapes c) ∧
      w.errors.Recorded temper e (SeedChain.format seeds)
        (w.errors.augmentAs temper e seeds).2) ∧
    ((∃ v, (augment e seeds).exec w = (.ok (), v)) ↔
      ∀ c, ¬ (w.errors.get e).temper.Escapes c) ∧
    ∀ v, (augment e seeds).exec w = (.ok (), v) → ∃ journal, v = { w with
      errors := (w.errors.augmentAs (w.errors.get e).temper e seeds).2, journal } := by
  refine ⟨fun temper => ⟨fun c => ErrorObject.recordAs_eq_failed_iff _ _ _,
    w.errors.recorded_augmentAs temper he seeds⟩, ?_⟩
  rcases exec_augment_of_temper e seeds w with ⟨journal, hexec, hnone⟩ | ⟨c, hescapes, hexec⟩
  · refine ⟨⟨fun _ => hnone, fun _ => ⟨_, hexec⟩⟩, fun v hv => ?_⟩
    rw [hexec] at hv
    cases hv
    exact ⟨journal, rfl⟩
  · rw [hexec, exec_complain]
    refine ⟨⟨?_, fun hnone => absurd hescapes (hnone c)⟩, ?_⟩
    · rintro ⟨v, hv⟩
      cases hv
    · intro v hv
      cases hv

/-- A world with one error object, of a named kind. -/
def raisedAlone (kind : String) : World where
  errors := (({} : ErrorStore).add ⟨.named kind, some "no"⟩).2

theorem augment_ends_badNotes :
    0 < (raisedAlone "BadNotes").errors.size ∧
      (∃ v, (augment 0 [1, 2]).exec (raisedAlone "BadNotes") = (.ok (), v)) ∧
      (((raisedAlone "BadNotes").errors.augmentAs
        ((raisedAlone "BadNotes").errors.get 0).temper 0 [1, 2]).2.get 0).chains =
          [SeedChain.format [1, 2]] := by
  have hspec := augment_ends_unless_escapes (raisedAlone "BadNotes") (e := 0) (by decide) [1, 2]
  refine ⟨by decide, hspec.2.1.mpr ?_, ?_⟩
  · rintro c (h | ⟨-, h⟩)
    · cases h
    · cases h
  · rw [(hspec.1 _).2.chains]
    rfl

/-- An object that complains about the value of an attribute lets recording fail. -/
theorem augment_fails_sealedValue :
    ¬ ∃ v, (augment 0 [1]).exec (raisedAlone "SealedValue") = (.ok (), v) := by
  rintro ⟨v, h⟩
  cases h

end Act

end SeededTesting
