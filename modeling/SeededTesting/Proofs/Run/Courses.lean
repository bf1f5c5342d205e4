import SeededTesting.Proofs.Run.Executions
import SeededTesting.Proofs.Run.Scripted
import SeededTesting.Proofs.Run.States

/-! # The course of a run

However a run ends, it passes through an initial part of one of three courses, and then it is done:
no candidate is left, or the class can not be set up, or its candidates are run. It stops on the way
only where an error leaves it, and on the way everybody is called at home.
-/

namespace SeededTesting

open Act

namespace RunState

/-- If no candidate is left. -/
def idling : List RunState := [.filtering, .idle, .done]

/-- If the class can not be set up. -/
def failing : List RunState := [.filtering, .classSetup, .done]

/-- If the candidates are run. -/
def running : List RunState :=
  [.filtering, .classSetup, .runningUnits, .classTeardown, .done]

/-- What a run may pass through. -/
def courses : List (List RunState) := [idling, failing, running]

end RunState

/-! ## How far a run gets -/

namespace Runner

variable (r : Runner Procedure) (audience : Audience) (o : Opening)

/-- No candidate is left by the filters. -/
def NoneLeft (w : World) : Prop :=
  ((r.prepareBy o).exec (r.entered w)).1 = .ok []

/-- Candidates are left, and the set-up of their class is begun in a world. -/
def Opens (w : World) (cs : List (Candidate Procedure)) (u : World) : Prop :=
  cs ≠ [] ∧ ∃ v, (r.prepareBy o).exec (r.entered w) = (.ok cs, v) ∧
    u = ((r.enter .classSetup).exec v).2

/-- A before-all hook raises an error that is no interrupt. -/
def SetUpFails (w : World) : Prop :=
  ∃ cs u e v, r.Opens o w cs u ∧
    (do callHooks [] (← r.hooks .beforeAll) : Act Unit).exec u = (.error e, v) ∧
      (v.errors.get e).kind.interrupt = false

/-- The class is set up, and every candidate that is left is processed. -/
def Processes (w : World) : Prop :=
  ∃ cs u v, r.Opens o w cs u ∧ (r.setUpClass audience).exec u = (.ok true, v) ∧
    ((r.runCandidates audience cs).exec ((r.enter .runningUnits).exec v).2).1 = .ok ()

variable {r audience o}

/-- Where a before-all hook fails, the class is not set up, or reporting the error fails as well. -/
theorem setUpClass_of_error {u v : World} {e : ErrorId}
    (h : (do callHooks [] (← r.hooks .beforeAll) : Act Unit).exec u = (.error e, v))
    (hkind : (v.errors.get e).kind.interrupt = false) {ready : Bool} {v' : World}
    (hout : (r.setUpClass audience).exec u = (.ok ready, v')) : ready = false := by
  have hbody : (do callHooks [] (← r.hooks .beforeAll); return true : Act Bool).exec u =
      (.error e, v) := by
    have hall : ((do callHooks [] (← r.hooks .beforeAll) : Act Unit) >>=
        fun _ => (pure true : Act Bool)).exec u = (.error e, v) := exec_bind_of_error h
    rwa [bind_assoc] at hall
  rw [setUpClass, exec_handle, hbody] at hout
  dsimp only at hout
  rw [hkind, if_neg Bool.false_ne_true, exec_whileHandling, exec_bind] at hout
  rcases hreport : (r.reportSuite audience e).exec { v with handling := some e } with ⟨_ | _, t⟩
  · rw [hreport] at hout
    cases hout
  · rw [hreport] at hout
    cases hout
    rfl

theorem exists_error_of_setUpClass {u v' : World}
    (hout : (r.setUpClass audience).exec u = (.ok false, v')) :
    ∃ e v, (do callHooks [] (← r.hooks .beforeAll) : Act Unit).exec u = (.error e, v) ∧
      (v.errors.get e).kind.interrupt = false := by
  have hassoc : (do callHooks [] (← r.hooks .beforeAll); return true : Act Bool) =
      (do callHooks [] (← r.hooks .beforeAll) : Act Unit) >>= fun _ => pure true :=
    (bind_assoc _ _ _).symm
  rw [setUpClass, exec_handle, hassoc, exec_bind] at hout
  rcases hcalled : (do callHooks [] (← r.hooks .beforeAll) : Act Unit).exec u with ⟨e | _, v⟩
  · rw [hcalled] at hout
    dsimp only at hout
    split at hout
    · cases hout
    next hkind => exact ⟨e, v, rfl, Bool.eq_false_iff.mpr hkind⟩
  · rw [hcalled] at hout
    cases hout

namespace Aloud

section Resting

variable (hcodes : ∀ code ∈ r.suite.codes, code.Conducts .resting anyComplaint)
  (haudience : audience.Conducts .resting anyComplaint)

include hcodes haudience

theorem passes_setUpClass {u : World} (hu : u.Lawful) : (setUpClass r audience).Passes u [] :=
  .rest discreet_setUpClass (r.abides_setUpClass Regime.calls_resting hcodes haudience) hu

/-- Where the class is not set up, no other state is entered. -/
theorem passes_of_not_ready (cs : List (Candidate Procedure)) {u : World} (hu : u.Lawful)
    (h : ∀ v, (r.setUpClass audience).exec u ≠ (.ok true, v)) :
    (runFromSetUp r audience cs).Passes u [] := by
  have hsetUp := passes_setUpClass hcodes haudience hu
  rcases hout : (r.setUpClass audience).exec u with ⟨e | ready, v⟩
  · exact hsetUp.bind_of_error hout
  · cases ready with
    | false => exact hsetUp.bind_of_ok hout (.lift rfl)
    | true => exact (h v hout).elim

section Ready

variable {cs : List (Candidate Procedure)} (hunits : ∀ c ∈ cs, c.unit ∈ r.suite.units)
  {u v t : World} (hu : u.Lawful) (hready : (r.setUpClass audience).exec u = (.ok true, v))

include hunits hu hready

theorem passes_candidates :
    (runCandidates r audience cs).Passes ((r.enter .runningUnits).exec v).2 [] ∧
      ((r.runCandidates audience cs).exec ((r.enter .runningUnits).exec v).2).2.Lawful := by
  have hleads := (r.abides_setUpClass Regime.calls_resting hcodes haudience u hu trivial).1
  rw [hready] at hleads
  have hentered : ((r.enter .runningUnits).exec v).2.Lawful :=
    ⟨hleads.lawful.errors, hleads.lawful.handling⟩
  have hkeeps := r.abides_runCandidates Regime.calls_resting hcodes haudience hunits
  refine ⟨.rest (discreet_runCandidates cs) ?_ hentered, (hkeeps _ hentered trivial).1.lawful⟩
  rwa [act_runCandidates]

/-- If all candidates are processed, the class is torn down, with whatever success. -/
theorem passes_of_processed
    (hout : (r.runCandidates audience cs).exec ((r.enter .runningUnits).exec v).2 = (.ok (), t)) :
    (runFromSetUp r audience cs).Passes u [.runningUnits, .classTeardown] := by
  obtain ⟨hcandidates, ht⟩ := passes_candidates hcodes haudience hunits hu hready
  rw [hout] at ht
  rw [← act_runCandidates] at hout
  have hentered : ((r.enter .classTeardown).exec t).2.Lawful := ⟨ht.errors, ht.handling⟩
  have htornDown : (tearDownClass r audience).Passes ((r.enter .classTeardown).exec t).2 [] := by
    refine .rest discreet_tearDownClass ?_ hentered
    rw [act_tearDownClass]
    exact r.abides_tearDownClass Regime.calls_resting hcodes haudience
  refine (passes_setUpClass hcodes haudience hu).bind_of_ok hready ?_
  rw [if_pos rfl]
  exact (passes_enter .runningUnits v).bind_of_ok rfl
    (hcandidates.bind_of_ok hout ((passes_enter .classTeardown t).bind_of_ok rfl htornDown))

/-- An error that leaves the candidates leaves the run. -/
theorem passes_of_raised {e : ErrorId}
    (hout : (r.runCandidates audience cs).exec ((r.enter .runningUnits).exec v).2 =
      (.error e, t)) :
    (runFromSetUp r audience cs).Passes u [.runningUnits] ∧
      (runFromSetUp r audience cs).act.exec u = (.error e, t) := by
  obtain ⟨hcandidates, -⟩ := passes_candidates hcodes haudience hunits hu hready
  rw [← act_runCandidates] at hout
  constructor
  · refine (passes_setUpClass hcodes haudience hu).bind_of_ok hready ?_
    rw [if_pos rfl]
    exact (passes_enter .runningUnits v).bind_of_ok rfl (hcandidates.bind_of_error hout)
  · have hsetUp : (setUpClass r audience).act.exec u = (.ok true, v) := hready
    have hentered : (enter r .runningUnits).act.exec v =
        (.ok (), ((r.enter .runningUnits).exec v).2) := rfl
    rw [runFromSetUp, Aloud.act_bind, exec_bind_of_ok hsetUp, if_pos rfl, Aloud.act_bind,
      exec_bind_of_ok hentered]
    exact exec_bind_of_error hout

end Ready

end Resting

/-! ### Up to the set-up -/

section Openings

variable (ho : o.Abides .resting) {w : World} (hw : w.Lawful)

include ho hw

theorem lawful_of_prepared {cs : List (Candidate Procedure)} {v : World}
    (hout : (r.prepareBy o).exec (r.entered w) = (.ok cs, v)) :
    v.Lawful ∧ ∀ c ∈ cs, c ∈ r.candidates := by
  have hprepare := r.conduct_prepareBy .free (fun _ _ => trivial) (fun _ _ => trivial)
    (ho.under .free)
  obtain ⟨hleads, hends⟩ := hprepare _ (r.entered_lawful hw) trivial
  rw [hout] at hleads hends
  exact ⟨hleads.lawful, hends⟩

/-- The candidates are filtered, unless a listener can not be made. -/
theorem passes_prepareBy :
    (prepareBy r o).Passes (r.entered w) [.filtering] ∨
      (prepareBy r o).Passes (r.entered w) [] ∧
        ∃ e v, (r.prepareBy o).exec (r.entered w) = (.error e, v) := by
  have hsubscribe : Abides .resting (r.subscribeBy o.makers) :=
    r.abides_subscribeBy (fun _ _ => rfl) (fun _ _ => rfl) ho.makers
  have hfilter : Abides .resting (r.survivorsBy o.ask) :=
    (r.conduct_survivorsBy ho.ask).post (fun _ _ _ => trivial) fun _ _ h => h
  have hsubscribed : (liftM (r.subscribeBy o.makers) : Aloud Unit).Passes (r.entered w) [] :=
    .rest (.lift _) hsubscribe (r.entered_lawful hw)
  rcases hsubscribe.outcome (r.entered_lawful hw) trivial with
    ⟨_, v, hout, hleads, -⟩ | ⟨e, v, hout, -⟩
  · refine .inl (hsubscribed.bind_of_ok hout ?_)
    refine (passes_enter .filtering v).bind_of_ok rfl (.rest ?_ ?_ ?_)
    · exact .bind (.lift _) fun _ => .bind (discreet_log (by decide) _ _) fun _ => .lift _
    · exact .bind hfilter fun _ => .bind (r.conduct_log _ _ _) fun _ => .value _
    · exact ⟨hleads.lawful.errors, hleads.lawful.handling⟩
  · exact .inr ⟨hsubscribed.bind_of_error hout, e, v, exec_bind_of_error hout⟩

theorem passes_prepared {cs : List (Candidate Procedure)} {v : World}
    (hout : (r.prepareBy o).exec (r.entered w) = (.ok cs, v)) :
    (prepareBy r o).Passes (r.entered w) [.filtering] := by
  rcases passes_prepareBy ho hw with hprepared | ⟨-, e, u, herror⟩
  · exact hprepared
  · rw [hout] at herror
    cases herror

theorem passes_of_noneLeft (h : r.NoneLeft o w) :
    (runSurvivorsBy r audience o).Passes (r.entered w) [.filtering, .idle] := by
  have hout : (r.prepareBy o).exec (r.entered w) =
      (.ok [], ((r.prepareBy o).exec (r.entered w)).2) := Prod.ext h rfl
  refine (passes_prepared ho hw hout).bind_of_ok hout ?_
  rw [if_pos List.isEmpty_nil]
  exact passes_enter .idle _

/-- What is done from the set-up of the class on is the rest of the run. -/
theorem passes_of_opens {cs : List (Candidate Procedure)} {u : World} (h : r.Opens o w cs u)
    {states : List RunState} (hrest : (runFromSetUp r audience cs).Passes u states) :
    (runSurvivorsBy r audience o).Passes (r.entered w) (.filtering :: .classSetup :: states) := by
  obtain ⟨hcs, v, hout, rfl⟩ := h
  refine (passes_prepared ho hw hout).bind_of_ok hout ?_
  rw [if_neg (mt List.isEmpty_iff.mp hcs)]
  exact (passes_enter .classSetup v).bind_of_ok rfl hrest

omit ho hw in
theorem exec_of_opens {cs : List (Candidate Procedure)} {u : World} (h : r.Opens o w cs u) :
    (r.runSurvivorsBy audience o).exec (r.entered w) = (runFromSetUp r audience cs).act.exec u := by
  obtain ⟨hcs, v, hout, rfl⟩ := h
  rw [Runner.runSurvivorsBy, exec_bind_of_ok hout, if_neg (mt List.isEmpty_iff.mp hcs),
    ← act_runClass]
  rfl

theorem lawful_of_opens (hexpands : r.Expands) {cs : List (Candidate Procedure)} {u : World}
    (h : r.Opens o w cs u) : u.Lawful ∧ ∀ c ∈ cs, c.unit ∈ r.suite.units := by
  obtain ⟨-, v, hout, rfl⟩ := h
  obtain ⟨hv, hcs⟩ := lawful_of_prepared ho hw hout
  exact ⟨⟨hv.errors, hv.handling⟩, fun c hc => hexpands c (hcs c hc)⟩

end Openings

section Courses

variable (hcodes : ∀ code ∈ r.suite.codes, code.Conducts .resting anyComplaint)
  (haudience : audience.Conducts .resting anyComplaint) (hexpands : r.Expands)
  (ho : o.Abides .resting) {w : World} (hw : w.Lawful)

include hcodes haudience hexpands ho hw

theorem passes_of_setUpFails (h : r.SetUpFails o w) :
    (runSurvivorsBy r audience o).Passes (r.entered w) [.filtering, .classSetup] := by
  obtain ⟨cs, u, e, v, hopens, hcalled, hkind⟩ := h
  refine passes_of_opens ho hw hopens (passes_of_not_ready hcodes haudience cs
    (lawful_of_opens ho hw hexpands hopens).1 fun v' hready => ?_)
  cases setUpClass_of_error hcalled hkind hready

theorem passes_of_processes (h : r.Processes audience o w) :
    (runSurvivorsBy r audience o).Passes (r.entered w)
      [.filtering, .classSetup, .runningUnits, .classTeardown] := by
  obtain ⟨cs, u, v, hopens, hready, hprocessed⟩ := h
  obtain ⟨hu, hunits⟩ := lawful_of_opens ho hw hexpands hopens
  exact passes_of_opens ho hw hopens
    (passes_of_processed hcodes haudience hunits hu hready (Prod.ext hprocessed rfl))

/-- A run that ends neither way raises, on the way through its course. -/
theorem raises_otherwise (hnone : ¬r.NoneLeft o w) (hfails : ¬r.SetUpFails o w)
    (hprocesses : ¬r.Processes audience o w) :
    ∃ e v states, (r.runSurvivorsBy audience o).exec (r.entered w) = (.error e, v) ∧
      (runSurvivorsBy r audience o).Passes (r.entered w) states ∧
        states <+: RunState.running ∧ states ≠ RunState.running := by
  -- A run raises while it is prepared, while its class is set up, or among its candidates; all
  -- other ways to end are excluded.
  rcases hout : (r.prepareBy o).exec (r.entered w) with ⟨e | cs, v⟩
  · have hraised : (r.runSurvivorsBy audience o).exec (r.entered w) = (.error e, v) :=
      exec_bind_of_error hout
    rcases passes_prepareBy ho hw with hprepared | ⟨hprepared, -⟩
    · exact ⟨e, v, _, hraised, hprepared.bind_of_error hout, by decide, by decide⟩
    · exact ⟨e, v, _, hraised, hprepared.bind_of_error hout, by decide, by decide⟩
  · have hcs : cs ≠ [] := by
      rintro rfl
      exact hnone (congrArg Prod.fst hout)
    have hopens : r.Opens o w cs ((r.enter .classSetup).exec v).2 := ⟨hcs, v, hout, rfl⟩
    obtain ⟨hu, hunits⟩ := lawful_of_opens ho hw hexpands hopens
    rw [exec_of_opens hopens]
    generalize ((r.enter .classSetup).exec v).2 = u at hopens hu
    rcases hready : (r.setUpClass audience).exec u with ⟨e | ready, t⟩
    · have hopened := passes_of_opens ho hw hopens (passes_of_not_ready hcodes haudience
        cs hu fun v' h => by rw [hready] at h; cases h)
      exact ⟨e, t, _, exec_bind_of_error hready, hopened, by decide, by decide⟩
    cases ready with
    | false =>
        obtain ⟨e, v', hcalled, hkind⟩ := exists_error_of_setUpClass hready
        exact (hfails ⟨cs, u, e, v', hopens, hcalled, hkind⟩).elim
    | true =>
        rcases hrun : (r.runCandidates audience cs).exec ((r.enter .runningUnits).exec t).2 with
          ⟨e | _, t'⟩
        · obtain ⟨hpasses, hraised⟩ := passes_of_raised hcodes haudience hunits hu hready hrun
          exact ⟨e, t', _, hraised, passes_of_opens ho hw hopens hpasses, by decide, by decide⟩
        · exact (hprocesses ⟨cs, u, t, hopens, hready, congrArg Prod.fst hrun⟩).elim

/-- While a run is at work, its stack is rewound to its own randomness. -/
theorem seeded_runSurvivorsBy :
    let v := ((r.runSurvivorsBy audience o).exec (r.entered w)).2
    v.Lawful ∧ v.Seeded r.master := by
  have hstill : Abides .still (r.runSurvivorsBy audience o) :=
    r.abides_runSurvivorsBy Regime.performs_still
      (fun code hmem => (hcodes code hmem).under (.still trivial))
      (haudience.under (.still trivial)) hexpands (fun _ _ => trivial) (fun _ _ => trivial)
      (ho.under (.still trivial))
  have hleads := (hstill _ (r.entered_lawful hw) trivial).1
  exact ⟨hleads.lawful, hleads.seeded trivial (r.seeded_entered w)⟩

end Courses

/-! ### The end -/

/-- Where a source is active, a run is closed and done. -/
theorem passes_close {w : World} {seed : Seed} (hseeded : w.Seeded seed) :
    (close r).Passes w [.done] := by
  obtain ⟨context, outer, source, rest, hcontexts, -⟩ := hseeded
  have hcancel := exec_unsubscribeDeclared w
  have hpop : ∀ session, (discard Act.pop).exec { w with session } =
      (.ok (), { w with session, contexts := { context with stack := rest } :: outer }) := by
    intro session
    rw [exec_discard, exec_pop]
    dsimp only
    rw [hcontexts]
    rfl
  have hlog : ∀ v, (log r .info "Suite finished" (.suiteFinished r.suite.name)).Passes v [] :=
    fun v => ⟨List.filterMap_eq_nil_iff.mpr (discreet_log (by decide) _ _ v), rfl⟩
  refine (Aloud.Passes.lift (congrArg (·.2.session.state) hcancel)).bind_of_ok hcancel ?_
  refine (Aloud.Passes.lift (congrArg (·.2.session.state) (hpop _))).bind_of_ok (hpop _) ?_
  exact (passes_enter .done _).bind_of_ok rfl (hlog _)

theorem said_runOpened (w : World) :
    (runOpened r audience o).said w =
      (Aloud.andFinally (runSurvivorsBy r audience o) (close r)).said (r.entered w) :=
  said_within r _ w

section Ends

variable (hcodes : ∀ code ∈ r.suite.codes, code.Conducts .resting anyComplaint)
  (haudience : audience.Conducts .resting anyComplaint) (hexpands : r.Expands)
  (ho : o.Abides .resting)

include hcodes haudience hexpands ho

theorem sound_finally : Sound (Act.andFinally (r.runSurvivorsBy audience o) r.close) :=
  .andFinally (r.abides_runSurvivorsBy .free (fun code hmem => (hcodes code hmem).under .free)
    (haudience.under .free) hexpands (fun _ _ => trivial) (fun _ _ => trivial) (ho.under .free))
    (r.conduct_close id .free)

variable {w : World} (hw : w.Lawful)

include hw

/-- However a run ends, it is done after all that it has passed through. -/
theorem passes_runOpened {states : List RunState}
    (h : (runSurvivorsBy r audience o).Passes (r.entered w) states) :
    (runOpened r audience o).Passes w (states ++ [.done]) := by
  obtain ⟨-, hseeded⟩ := seeded_runSurvivorsBy hcodes haudience hexpands ho hw
  have hfinally : (Aloud.andFinally (runSurvivorsBy r audience o) (close r)).Passes (r.entered w)
      (states ++ [.done]) := by
    rcases hout : (r.runSurvivorsBy audience o).exec (r.entered w) with ⟨e | _, v⟩
    all_goals
      rw [hout] at hseeded
      rw [← act_runSurvivorsBy] at hout
    · have hhandled : World.Seeded { v with handling := some e } r.master := hseeded
      exact h.andFinally_of_error hout (passes_close hhandled)
    · exact h.andFinally_of_ok hout (passes_close hseeded)
  obtain ⟨last, -, hexec⟩ := r.exec_within (sound_finally hcodes haudience hexpands ho) hw
    (Prod.eta _).symm
  constructor
  · rw [said_runOpened, hfinally.told]
    rfl
  · rw [act_runOpened, Runner.runOpened, hexec, session_leaving_resume]
    have hleft := hfinally.left
    rwa [Aloud.act_andFinally, act_runSurvivorsBy] at hleft

/-- An error that leaves the work of a run leaves the run. -/
theorem raises_runOpened {e : ErrorId} {v : World}
    (hout : (r.runSurvivorsBy audience o).exec (r.entered w) = (.error e, v)) :
    ∃ i, ((r.runOpened audience o).exec w).1 = .error i := by
  obtain ⟨-, hseeded⟩ := seeded_runSurvivorsBy hcodes haudience hexpands ho hw
  rw [hout] at hseeded
  obtain ⟨u, hclose, -⟩ := r.exec_close (w := { v with handling := some e }) hseeded
  have hfinally : (Act.andFinally (r.runSurvivorsBy audience o) r.close).exec (r.entered w) =
      (.error e, { u with handling := v.handling }) := by
    rw [exec_andFinally, hout]
    dsimp only
    rw [exec_bind, exec_whileHandling, hclose]
    rfl
  obtain ⟨last, -, hexec⟩ :=
    r.exec_within (sound_finally hcodes haudience hexpands ho) hw hfinally
  rw [Runner.runOpened, hexec]
  exact exists_error_leaving e _

/-- A run passes through some states before it is done. -/
theorem exists_passes :
    ∃ states, (runSurvivorsBy r audience o).Passes (r.entered w) states := by
  by_cases hnone : r.NoneLeft o w
  · exact ⟨_, passes_of_noneLeft ho hw hnone⟩
  by_cases hfails : r.SetUpFails o w
  · exact ⟨_, passes_of_setUpFails hcodes haudience hexpands ho hw hfails⟩
  by_cases hprocesses : r.Processes audience o w
  · exact ⟨_, passes_of_processes hcodes haudience hexpands ho hw hprocesses⟩
  obtain ⟨-, -, states, -, hpasses, -⟩ :=
    raises_otherwise hcodes haudience hexpands ho hw hnone hfails hprocesses
  exact ⟨states, hpasses⟩

theorem done_runOpened :
    ((r.runOpened audience o).exec w).2.session.state = .done := by
  obtain ⟨states, hpasses⟩ := exists_passes hcodes haudience hexpands ho hw
  have hleft := (passes_runOpened hcodes haudience hexpands ho hw hpasses).left
  rw [act_runOpened] at hleft
  rw [hleft, List.getLastD_eq_getLast?, List.getLast?_concat, Option.getD_some]

end Ends

end Aloud

end Runner

/-- The run of a runner is opened by its own means, which leave the stack and the state alone like
all other collaborators that do not move on the stack. Whatever state it is in before, and whatever
is raised, a run that is opened by such means is done in the end. It passes through the course of a
run without candidates, of one whose class can not be set up, or of one whose candidates are all
processed; if it ends none of these ways it raises, after a part of one course. Factories, hooks and
test bodies are called in the state in which they are at home, and in no other. -/
theorem Runner.passes_course {host origin : Host} {suite : Suite Script}
    {config : Option RunConfig} {sequence sequence' : Nat} {r : Runner Procedure}
    (hmake : make (Script.suiteProcedures host suite) config origin sequence = .ok (r, sequence'))
    (hsuite : ∀ script ∈ suite.codes, Script.avoids Script.Step.moves script = true)
    {declarations : List NotifierProgram.Declaration}
    (hdeclarations : ∀ declaration ∈ declarations, ∀ script ∈ declaration.scripts,
      Script.avoids Script.Step.moves script = true) {w : World} (hw : w.Lawful) :
    let audience := r.audienceFor host declarations
    (r.run audience = r.runOpened audience r.ownOpening ∧ r.ownOpening.Abides .resting) ∧
      ∀ o : Opening, o.Abides .resting →
        let run := Aloud.runOpened r audience o
        (run.act = r.runOpened audience o ∧ (run.act.exec w).2.session.state = .done) ∧
          (r.NoneLeft o w → run.Passes w RunState.idling) ∧
          (r.SetUpFails o w → run.Passes w RunState.failing) ∧
          (r.Processes audience o w → run.Passes w RunState.running) ∧
          (¬r.NoneLeft o w → ¬r.SetUpFails o w → ¬r.Processes audience o w →
            (∃ e, (run.act.exec w).1 = .error e) ∧
              ∃ course ∈ RunState.courses, ∃ passed, passed <+: course ∧ passed ≠ course ∧
                run.Passes w (passed ++ [.done])) ∧
          ∀ other, ((r.guarded other).runOpened audience o).exec w =
            (r.runOpened audience o).exec w := by
  intro audience
  obtain ⟨hcodes, haudience⟩ :=
    conducts_of_make hmake Script.permits_resting hsuite hdeclarations
  have hexpands := expands_of_make hmake
  refine ⟨⟨r.run_eq_runOpened, ?_⟩, fun o ho => ?_⟩
  · exact r.abides_ownOpening (fun _ _ => rfl) (fun _ _ => rfl) hcodes
  intro run
  have hact : run.act = r.runOpened audience o := Aloud.act_runOpened r audience o
  have hends : ∀ states, (Aloud.runSurvivorsBy r audience o).Passes (r.entered w) states →
      run.Passes w (states ++ [.done]) :=
    fun states => Aloud.passes_runOpened hcodes haudience hexpands ho hw
  refine ⟨⟨hact, ?_⟩, fun h => ?_, fun h => ?_, fun h => ?_, fun hnone hfails hprocesses => ?_,
    fun other => r.exec_runOpened_guarded other hcodes haudience hexpands ho hw⟩
  · rw [hact]
    exact Aloud.done_runOpened hcodes haudience hexpands ho hw
  · exact hends _ (Aloud.passes_of_noneLeft ho hw h)
  · exact hends _ (Aloud.passes_of_setUpFails hcodes haudience hexpands ho hw h)
  · exact hends _ (Aloud.passes_of_processes hcodes haudience hexpands ho hw h)
  · obtain ⟨e, v, passed, hraised, hpasses, hprefix, hproper⟩ :=
      Aloud.raises_otherwise hcodes haudience hexpands ho hw hnone hfails hprocesses
    rw [hact]
    exact ⟨Aloud.raises_runOpened hcodes haudience hexpands ho hw hraised, RunState.running,
      by decide, passed, hprefix, hproper, hends _ hpasses⟩

/-- A suite whose first test is interrupted. -/
def brokenOffSuite : Suite Script where
  name := "BrokenOff"
  factory := some { code := [.state] }
  units := [
    { name := "stops", body := some [.state, .raise
        [{ error := { complaint := ⟨.named "KeyboardInterrupt", none⟩ } }]] },
    { name := "waits", body := some [.fraction] }]
  levels := [{
    owner := "BrokenOff"
    beforeAll := [{ name := "open", label := "open", code := some [.state] }]
    afterAll := [{ name := "close", label := "close", code := some [.state] }] }]

/-- A run that is done is run again, and the interrupt leaves it before its class is torn down. -/
theorem Runner.passes_course_brokenOffSuite :
    ∃ r sequence,
      make (Script.suiteProcedures {} brokenOffSuite) (some .unset) {} 0 = .ok (r, sequence) ∧
        let w : World := { session := { state := .done } }
        let audience := r.audienceFor {} []
        let run := Aloud.runOpened r audience r.ownOpening
        w.Lawful ∧ run.act = r.run audience ∧
          run.Passes w [.filtering, .classSetup, .runningUnits, .done] ∧
          ((r.run audience).runIn w).1 = .error ⟨.named "KeyboardInterrupt", none⟩ ∧
          ∀ other, ((r.guarded other).runOpened audience r.ownOpening).exec w =
            (r.run audience).exec w := by
  obtain ⟨made, hmake⟩ : ∃ made,
      make (Script.suiteProcedures {} brokenOffSuite) (some .unset) {} 0 = .ok made := ⟨_, rfl⟩
  have hw : World.Lawful { session := { state := .done } } :=
    ⟨ErrorStore.closed_empty, fun _ h => by cases h⟩
  obtain ⟨⟨hown, habides⟩, hcourse⟩ :=
    passes_course hmake (by decide) (List.forall_mem_nil _) hw
  obtain ⟨⟨hact, -⟩, -, -, -, -, hguarded⟩ := hcourse _ habides
  rw [← hown] at hact hguarded
  refine ⟨made.1, made.2, hmake, hw, hact, ⟨?_, ?_⟩, ?_, hguarded⟩
  · cases hmake
    decide +kernel
  · cases hmake
    decide +kernel
  · cases hmake
    decide +kernel

end SeededTesting
