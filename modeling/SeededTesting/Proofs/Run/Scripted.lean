import SeededTesting.Proofs.Run.Calm
import SeededTesting.Proofs.Run.Whole
import SeededTesting.Proofs.Script.Soundness
import SeededTesting.Run.NotifierProgram

/-! # Runs of scripted suites

A runner that was made for a suite of scripts calls the scripts of the suite, and its listeners are
scripts as well. What these scripts keep to the collaborators of the run keep to.
-/

namespace SeededTesting

open Act

/-- The scripts of a listener of the caller. -/
def NotifierProgram.Declaration.scripts : Declaration → List Script
  | .scripted _ reactions => NotificationKind.all.map reactions.on
  | _ => []

namespace Script

theorem reactionProcedures_on (host : Host) (reactions : Reactions Script)
    (kind : NotificationKind) :
    (reactionProcedures host reactions).on kind = procedure host (reactions.on kind) := by
  rw [reactionProcedures]
  cases kind <;> rfl

/-- What holds of the scripts that a caller declares holds of the reactions of the listeners. -/
theorem declarations_all {q : Procedure → Prop} {host : Host}
    {declarations : List NotifierProgram.Declaration}
    (h : ∀ declaration ∈ declarations, ∀ script ∈ declaration.scripts, q (procedure host script)) :
    ∀ tag reactions, .scripted tag reactions ∈ declarations.map (·.listener host) →
      ∀ kind, q (reactions.on kind) := by
  intro tag reactions hmem kind
  obtain ⟨declaration, hdeclaration, heq⟩ := List.mem_map.mp hmem
  cases declaration with
  | recording | silent => cases heq
  | scripted tag' scripts =>
      cases heq
      rw [reactionProcedures_on]
      refine h _ hdeclaration _ (List.mem_map_of_mem ?_)
      cases kind <;> decide

end Script

namespace Runner

/-- The declared listeners together with those that a caller declares by scripts. -/
def audienceFor (r : Runner Procedure) (host : Host)
    (declarations : List NotifierProgram.Declaration) : Audience :=
  r.audienceOf (declarations.map (·.listener host))

variable {host origin : Host} {suite : Suite Script} {config : Option RunConfig}
  {sequence sequence' : Nat} {r : Runner Procedure}

theorem expands_of_make {suite : Suite Procedure}
    (h : make suite config origin sequence = .ok (r, sequence')) : r.Expands := by
  obtain ⟨-, checked, -, hmade⟩ := make_eq_ok h
  intro c hc
  rw [hmade.suite_eq]
  exact hmade.unit_mem hc

/-- What holds of the scripts of a suite holds of the codes of its runners. -/
theorem codes_of_make {q : Procedure → Prop}
    (h : make (Script.suiteProcedures host suite) config origin sequence = .ok (r, sequence'))
    (hscripts : ∀ script ∈ suite.codes, q (Script.procedure host script)) :
    ∀ code ∈ r.suite.codes, q code := by
  obtain ⟨-, checked, -, hmade⟩ := make_eq_ok h
  rw [hmade.suite_eq]
  exact Script.codes_suiteProcedures_all host hscripts fun _ h => h

/-- The collaborators of every runner are sound. -/
theorem sound_codes_of_make
    (h : make (Script.suiteProcedures host suite) config origin sequence = .ok (r, sequence')) :
    ∀ code ∈ r.suite.codes, code.Conducts .free anyComplaint :=
  codes_of_make h fun script _ => Script.sound host script

/-- What holds of all scripts holds of all reactions of the audience that they make up. -/
theorem audienceFor_of_make {q : Procedure → Prop}
    (h : make (Script.suiteProcedures host suite) config origin sequence = .ok (r, sequence'))
    (hscripts : ∀ script ∈ suite.codes, q (Script.procedure host script))
    {declarations : List NotifierProgram.Declaration}
    (hdeclarations : ∀ declaration ∈ declarations, ∀ script ∈ declaration.scripts,
      q (Script.procedure host script)) :
    ∀ listener tag reactions, r.audienceFor host declarations listener = .scripted tag reactions →
      ∀ kind, q (reactions.on kind) :=
  audienceOf_all (codes_of_make h hscripts) (Script.declarations_all hdeclarations)

/-- If the scripts avoid what a regime does not permit, all collaborators keep to the regime. -/
theorem conducts_of_make {ρ : Regime} {B : Complaint → Prop} {sort : Script.Step → Bool}
    (h : make (Script.suiteProcedures host suite) config origin sequence = .ok (r, sequence'))
    (hpermits : Script.Permits ρ B sort)
    (hsuite : ∀ script ∈ suite.codes, Script.avoids sort script = true)
    {declarations : List NotifierProgram.Declaration}
    (hdeclarations : ∀ declaration ∈ declarations, ∀ script ∈ declaration.scripts,
      Script.avoids sort script = true) :
    (∀ code ∈ r.suite.codes, code.Conducts ρ B) ∧
      (r.audienceFor host declarations).Conducts ρ B := by
  have hscripts : ∀ script ∈ suite.codes, (Script.procedure host script).Conducts ρ B :=
    fun script hmem => Script.conducts hpermits (hsuite script hmem)
  exact ⟨codes_of_make h hscripts, audienceFor_of_make h hscripts fun declaration hmem script h =>
    Script.conducts hpermits (hdeclarations declaration hmem script h)⟩

/-- The listeners of every run are sound, and remain so when they are calmed. -/
theorem sound_calmed_of_make
    (h : make (Script.suiteProcedures host suite) config origin sequence = .ok (r, sequence'))
    (declarations : List NotifierProgram.Declaration) :
    (r.audienceFor host declarations).calmed.Conducts .free anyComplaint := by
  have haudience : (r.audienceFor host declarations).Conducts .free anyComplaint :=
    audienceFor_of_make h (fun script _ => Script.sound host script)
      fun _ _ script _ => Script.sound host script
  intro listener tag reactions hlistener kind label
  exact (Audience.conducts_calmed haudience listener tag reactions hlistener kind label).mono
    fun _ _ => trivial

/-- Where no listener is scripted, none raises. -/
theorem undisturbed_of_make
    (h : make (Script.suiteProcedures host suite) config origin sequence = .ok (r, sequence'))
    {declarations : List NotifierProgram.Declaration} (hsuite : suite.listeners = [])
    (hdeclarations : ∀ declaration ∈ declarations, declaration.scripts = []) (w : World) :
    r.Undisturbed (r.audienceFor host declarations) w := by
  have hcodes : (Script.suiteProcedures host suite).listeners = [] := by
    obtain ⟨name, factory, units, levels, metadata, listeners, rules⟩ := suite
    cases hsuite
    rfl
  refine undisturbed_of_neverRaises (fun listener tag reactions hlistener kind => ?_) w
  obtain ⟨-, checked, -, hmade⟩ := make_eq_ok h
  cases listener with
  | caller index =>
      obtain ⟨declaration, hmem, heq⟩ := List.mem_map.mp (Listener.mem_of_getD hlistener)
      have hscripts := hdeclarations declaration hmem
      cases declaration with
      | recording | silent => cases heq
      | scripted tag scripts => cases hscripts
  | declared index serial =>
      unfold audienceFor audienceOf at hlistener
      rw [hmade.suite_eq, hcodes] at hlistener
      cases hlistener

end Runner
end SeededTesting
