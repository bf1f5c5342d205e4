import SeededTesting.Proofs.DisplayName.Clashes
import SeededTesting.Proofs.Failure.Recording
import SeededTesting.Proofs.Run.Executions

/-! # Assumptions that are not met

Wherever an assumption is not met before a candidate is cleaned up, in its factory, in a hook before
it, in a rule or in its body, the run tells of a violated assumption. A failure with such an error
is told of only if a hook after the candidate raised it: what these raise is told of as a failure,
whatever it is.
-/

namespace SeededTesting

open Act

/-- An assumption was not met: the error is none that leaves the candidate, and lets itself be
reported. -/
def ErrorKind.Unmet (kind : ErrorKind) : Prop :=
  kind.assumption = true ∧ kind.interrupt = false ∧ kind.refusal ≠ some .value

/-- The error of a notification is one that hooks raised. -/
def Saying.RaisedIn (outcomes : List (Hook Procedure × Option ErrorId)) (saying : Saying) : Prop :=
  ∀ n, saying.signal = .sent n → ∃ hook e, (hook, some e) ∈ outcomes ∧ n.error = some e

theorem Saying.Logged.raisedIn {saying : Saying} (h : saying.Logged)
    (outcomes : List (Hook Procedure × Option ErrorId)) : saying.RaisedIn outcomes :=
  fun n hsent => absurd hsent (h.ne_sent n)

/-- What is observed and resumed is done. -/
theorem Act.observe_resume {α β : Type} (body : Act α) (next : α → Act β) :
    (do
      let made ← observe body
      let x ← resume made
      next x) = body >>= next := by
  have hexec : ∀ w, (do
      let made ← observe body
      let x ← resume made
      next x).exec w = (body >>= next).exec w := by
    intro w
    rw [exec_bind, exec_observe, exec_bind]
    rcases body.exec w with ⟨_ | _, v⟩ <;> rfl
  exact funext hexec

namespace Runner

variable (r : Runner Procedure) (audience : Audience) (c : Candidate Procedure)

/-- What is tried with a candidate: its factory, the hooks before it, and its body with the rules
around it. -/
def trial : Act Unit := do
  let target ← r.makeInstance
  callHooks [target] (← r.hooks .beforeEach)
  r.callBody c target

/-- The hooks after a candidate, once its trial has been reported, with what they raise. -/
def cleanUp : Act (List (Hook Procedure × Option ErrorId)) := do
  let made ← Act.observe r.makeInstance
  Act.handle
    (do
      let target ← Act.resume made
      callHooks [target] (← r.hooks .beforeEach)
      r.callBody c target)
    (r.reportCandidate audience c)
  match made with
  | .ok (some number) => invokeAll [some number] (← r.hooks .afterEach)
  | _ => return []

/-- A candidate is executed by cleaning up after its trial, and reporting what that raised. -/
theorem execute_eq : r.execute audience c = (do
    let outcomes ← r.cleanUp audience c
    r.reportOutcomes audience c.name [r.master, c.seed] outcomes) := by
  unfold execute cleanUp
  simp only [bind_assoc]
  refine bind_congr fun made => bind_congr fun _ => ?_
  obtain _ | _ | number := made
  · rfl
  · rfl
  · simp only [bind_assoc]

variable {w u v x : World} {e : ErrorId}

namespace Aloud

/-- An assumption that is not met is told of as such. -/
theorem sent_reportCandidate (hunmet : (w.errors.get e).kind.Unmet) :
    ∃ x, ⟨.sent { kind := .assumptionFailed, name := c.name, error := some e }, x⟩ ∈
      (reportCandidate r audience c e).said w := by
  obtain ⟨hassumption, -, hrefusal⟩ := hunmet
  rcases exec_augment_of_temper e [r.master, c.seed] w with
    ⟨journal, haugment, -⟩ | ⟨complaint, hescapes, -⟩
  · let v : World := { w with errors := (w.errors.augment e [r.master, c.seed]).2, journal }
    obtain ⟨chains, notes, hget⟩ := w.errors.get_augment e [r.master, c.seed] e
    have hkind : (v.errors.get e).kind.assumption = true := by
      change ((w.errors.augment e [r.master, c.seed]).2.get e).kind.assumption = true
      rw [hget]
      exact hassumption
    refine ⟨v, Aloud.mem_said_bind.mpr (.inr ⟨(), v, haugment, ?_⟩)⟩
    refine Aloud.mem_said_bind.mpr (.inr ⟨_, v, exec_complaint e v, ?_⟩)
    rw [if_pos hkind]
    exact List.mem_singleton.mpr rfl
  · exact absurd (ErrorObject.temper_escapes_iff _ |>.mp hescapes).1 hrefusal

variable {r audience c}

/-- A failure that is told of while the error of a trial is reported is no violated assumption. -/
theorem failed_reportCandidate {n : Notification ErrorId}
    (hmem : ⟨.sent n, x⟩ ∈ (reportCandidate r audience c e).said w) (hkind : n.kind = .failed) :
    n.error = some e ∧ (x.errors.get e).kind.assumption = false := by
  obtain ⟨_, v, -, hmem⟩ := (Aloud.mem_said_bind.mp hmem).resolve_left List.not_mem_nil
  obtain ⟨complaint, v', hcomplaint, hmem⟩ :=
    (Aloud.mem_said_bind.mp hmem).resolve_left List.not_mem_nil
  cases (exec_complaint e v).symm.trans hcomplaint
  cases hassumption : (v.errors.get e).kind.assumption with
  | true =>
      rw [if_pos hassumption] at hmem
      cases List.mem_singleton.mp hmem
      cases hkind
  | false =>
      rw [if_neg (Bool.eq_false_iff.mp hassumption)] at hmem
      obtain ⟨_, v', hget, hmem⟩ := (Aloud.mem_said_bind.mp hmem).resolve_left List.not_mem_nil
      cases hget
      rcases Aloud.mem_said_bind.mp hmem with hlogged | ⟨_, v', hlog, hsent⟩
      · cases List.mem_singleton.mp hlogged
      · cases hlog
        cases List.mem_singleton.mp hsent
        exact ⟨rfl, hassumption⟩

/-- What is reported of hooks are the errors that they raised. -/
theorem only_raised_reportOutcomes {name : String} {seeds : List Seed}
    (outcomes : List (Hook Procedure × Option ErrorId)) :
    (reportOutcomes r audience name seeds outcomes).Only (Saying.RaisedIn outcomes) := by
  induction outcomes with
  | nil => exact .lift _
  | cons outcome rest ih =>
      have hrest : (reportOutcomes r audience name seeds rest).Only
          (Saying.RaisedIn (outcome :: rest)) := by
        refine ih.mono fun saying h n hsent => ?_
        obtain ⟨hook, i, hmem, herror⟩ := h n hsent
        exact ⟨hook, i, List.mem_cons_of_mem outcome hmem, herror⟩
      obtain ⟨hook, _ | i⟩ := outcome
      · exact hrest
      · refine .bind (.lift _) fun _ => .bind (.bind (.lift _) fun _ =>
          .bind ((only_logged_log r _ _ _).mono fun _ h => h.raisedIn _)
            fun _ => .say fun _ n hsent => ?_) fun _ => hrest
        cases hsent
        exact ⟨hook, i, List.mem_cons_self, rfl⟩

variable (audience) in
/-- An assumption that a trial raises is told of while the candidate is executed. -/
theorem sent_execute (htrial : (r.trial c).exec u = (.error e, v))
    (hunmet : (v.errors.get e).kind.Unmet) :
    ∃ x, ⟨.sent { kind := .assumptionFailed, name := c.name, error := some e }, x⟩ ∈
      (execute r audience c).said u := by
  rw [trial, ← Act.observe_resume] at htrial
  obtain ⟨made, t, hmade⟩ : ∃ made t, (observe r.makeInstance).exec u = (.ok made, t) :=
    ⟨_, _, exec_observe _ _⟩
  rw [exec_bind_of_ok hmade] at htrial
  have hhandled : ({ v with handling := some e }.errors.get e).kind.Unmet := hunmet
  obtain ⟨x, hsent⟩ := sent_reportCandidate r audience c hhandled
  refine ⟨x, Aloud.mem_said_bind.mpr (.inr ⟨made, t, hmade, ?_⟩)⟩
  refine Aloud.mem_said_bind.mpr (.inl (Aloud.mem_said_handle.mpr (.inr ?_)))
  exact ⟨e, v, htrial, hunmet.2.1, hsent⟩

/-- A failure that is told of while a candidate is executed is no violated assumption, unless it is
the error of a hook after it. -/
theorem failed_execute {n : Notification ErrorId}
    (hmem : ⟨.sent n, x⟩ ∈ (execute r audience c).said u) (hkind : n.kind = .failed)
    (herror : n.error = some e) (hassumption : (x.errors.get e).kind.assumption = true) :
    ∃ outcomes v hook, (r.cleanUp audience c).exec u = (.ok outcomes, v) ∧
      (hook, some e) ∈ outcomes := by
  obtain ⟨made, t, hmade, hmem⟩ := (Aloud.mem_said_bind.mp hmem).resolve_left List.not_mem_nil
  -- Up to the body a violated assumption is told of as such, and not as a failure.
  rcases Aloud.mem_said_bind.mp hmem with hmem | ⟨_, s, hreported, hmem⟩
  · obtain ⟨i, v, -, -, hreport⟩ :=
      (Aloud.mem_said_handle.mp hmem).resolve_left List.not_mem_nil
    obtain ⟨hi, hnone⟩ := failed_reportCandidate hreport hkind
    rw [herror] at hi
    cases hi
    rw [hassumption] at hnone
    cases hnone
  rw [Aloud.act_lift] at hmade
  rw [Aloud.act_handle, funext (act_reportCandidate r audience c)] at hreported
  -- Without an instance there is no hook to be called and nothing to be said.
  obtain _ | _ | number := made
  · exact absurd hmem List.not_mem_nil
  · exact absurd hmem List.not_mem_nil
  obtain ⟨outcomes, v, hinvoked, hmem⟩ : ∃ outcomes v,
      (do invokeAll [some number] (← r.hooks .afterEach)).exec s = (.ok outcomes, v) ∧
        ⟨.sent n, x⟩ ∈ (reportOutcomes r audience c.name [r.master, c.seed] outcomes).said v := by
    obtain ⟨hooks, s', hhooks, hmem⟩ :=
      (Aloud.mem_said_bind.mp hmem).resolve_left List.not_mem_nil
    obtain ⟨outcomes, v, hinvoked, hmem⟩ :=
      (Aloud.mem_said_bind.mp hmem).resolve_left List.not_mem_nil
    exact ⟨outcomes, v, (exec_bind_of_ok hhooks).trans hinvoked, hmem⟩
  obtain ⟨hook, i, hraised, hi⟩ := only_raised_reportOutcomes outcomes v _ hmem n rfl
  rw [herror] at hi
  cases hi
  refine ⟨outcomes, v, hook, ?_, hraised⟩
  exact (exec_bind_of_ok hmade).trans ((exec_bind_of_ok hreported).trans hinvoked)

end Aloud

/-- In every run, whatever its collaborators and its listeners do, an assumption that is not met in
the trial of a candidate, be it by its factory, a hook before it, a rule or its body, is told of by
a notification about a violated assumption that bears the name of the candidate. And a failure that
is told of a candidate has no violated assumption as its error, unless a hook that was invoked after
an executed candidate of this name raised it. -/
theorem assumptions_reported {suite : Suite Procedure} {config : Option RunConfig} {origin : Host}
    {sequence sequence' : Nat} {r : Runner Procedure}
    (hmake : make suite config origin sequence = .ok (r, sequence')) (audience : Audience)
    (w : World) :
    (Aloud.run r audience).act = r.run audience ∧
      (∀ c u e v, (c, u) ∈ r.executed audience w → (r.trial c).exec u = (.error e, v) →
        (v.errors.get e).kind.Unmet →
          ∃ x, ⟨.sent { kind := .assumptionFailed, name := c.name, error := some e }, x⟩ ∈
            (Aloud.run r audience).said w) ∧
      ∀ c ∈ r.candidates, ∀ n x e, ⟨.sent n, x⟩ ∈ (Aloud.run r audience).said w →
        n.kind = .failed → n.name = c.name → n.error = some e →
          (x.errors.get e).kind.assumption = true →
            ∃ d u outcomes v hook, (d, u) ∈ r.executed audience w ∧ d.name = c.name ∧
              (r.cleanUp audience d).exec u = (.ok outcomes, v) ∧ (hook, some e) ∈ outcomes := by
  refine ⟨Aloud.act_run r audience, fun c u e v hexecuted htrial hunmet => ?_,
    fun c hc n x e hmem hkind hname herror hassumption => ?_⟩
  · obtain ⟨x, hsent⟩ := Aloud.sent_execute audience htrial hunmet
    exact ⟨x, Aloud.sent_run_of_executed hexecuted hsent⟩
  · obtain ⟨-, checked, -, hmade⟩ := make_eq_ok hmake
    rcases Aloud.failed_run hmem hkind with hsuite | ⟨d, u, hexecuted, hd, hsaid⟩
    · exact absurd (hname.symm.trans hsuite) (hmade.name_ne_suite hc)
    · obtain ⟨outcomes, v, hook, hcleanUp, hraised⟩ :=
        Aloud.failed_execute hsaid hkind herror hassumption
      exact ⟨d, u, outcomes, v, hook, hexecuted, hd.symm.trans hname, hcleanUp, hraised⟩

end Runner

/-- Who is told to have failed or to rest on an assumption, and the kind of the error. -/
def Saying.verdict? (saying : Saying) : Option (NotificationKind × String × ErrorKind) :=
  match saying.signal with
  | .logged _ => none
  | .sent n => n.error.map fun e => (n.kind, n.name, (saying.world.errors.get e).kind)

/-- A suite whose test rests on an assumption, as does the hook after it. -/
def warySuite : Suite Script where
  name := "Wary"
  factory := some { code := [] }
  units := [{ name := "skips", body := some [.assume false "not today"] }]
  levels := [{
    owner := "Wary"
    afterEach := [{ name := "check", label := "check", code := some [
      .assume false "left dirty"] }] }]

theorem Runner.assumptions_reported_warySuite : ∃ r sequence,
    make (Script.suiteProcedures {} warySuite) (some .pinned) {} 0 = .ok (r, sequence) ∧
      let audience := r.audienceFor {} [.recording]
      (r.executed audience {}).length = 1 ∧
        ((Aloud.run r audience).said {}).filterMap Saying.verdict? = [
          (.assumptionFailed, "skips [1:2](Wary)", .assumptionViolated),
          (.failed, "skips [1:2](Wary)", .assumptionViolated)] ∧
        ∀ c u e v, (c, u) ∈ r.executed audience {} → (r.trial c).exec u = (.error e, v) →
          (v.errors.get e).kind.Unmet →
            ∃ x, ⟨.sent { kind := .assumptionFailed, name := c.name, error := some e }, x⟩ ∈
              (Aloud.run r audience).said {} := by
  obtain ⟨made, hmake⟩ : ∃ made,
      make (Script.suiteProcedures {} warySuite) (some .pinned) {} 0 = .ok made := ⟨_, rfl⟩
  refine ⟨made.1, made.2, hmake, ?_, ?_, (assumptions_reported hmake _ {}).2.1⟩
  · cases hmake
    decide +kernel
  · cases hmake
    decide +kernel

/-- An assumption of a hook after a candidate is told of as a failure of the candidate. -/
theorem Runner.failed_warySuite : ∃ r sequence,
    make (Script.suiteProcedures {} warySuite) (some .pinned) {} 0 = .ok (r, sequence) ∧
      ∃ c ∈ r.candidates, ∃ n x e,
        ⟨.sent n, x⟩ ∈ (Aloud.run r (r.audienceFor {} [.recording])).said {} ∧
          n.kind = .failed ∧ n.name = c.name ∧ n.error = some e ∧
            (x.errors.get e).kind.assumption = true := by
  obtain ⟨made, hmake⟩ : ∃ made,
      make (Script.suiteProcedures {} warySuite) (some .pinned) {} 0 = .ok made := ⟨_, rfl⟩
  have hnames : "skips [1:2](Wary)" ∈ made.1.candidates.map (·.name) := by
    cases hmake
    decide +kernel
  have hverdict : (.failed, "skips [1:2](Wary)", .assumptionViolated) ∈ ((Aloud.run made.1
      (made.1.audienceFor {} [.recording])).said {}).filterMap Saying.verdict? := by
    cases hmake
    decide +kernel
  obtain ⟨c, hc, hname⟩ := List.mem_map.mp hnames
  obtain ⟨⟨signal, x⟩, hsaid, hverdict⟩ := List.mem_filterMap.mp hverdict
  refine ⟨made.1, made.2, hmake, c, hc, ?_⟩
  cases signal with
  | logged record => cases hverdict
  | sent n =>
      obtain ⟨e, herror, hverdict⟩ := Option.map_eq_some_iff.mp hverdict
      simp only [Prod.mk.injEq] at hverdict
      obtain ⟨hkind, hname', herrorKind⟩ := hverdict
      refine ⟨n, x, e, hsaid, hkind, hname'.trans hname.symm, herror, ?_⟩
      rw [herrorKind]
      decide

end SeededTesting
