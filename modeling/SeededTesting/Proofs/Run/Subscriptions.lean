import Mathlib.Data.List.Perm.Subperm
import SeededTesting.Proofs.Run.Openings
import SeededTesting.Proofs.Run.StackDiscipline

/-! # Subscriptions of a run

A run subscribes the listeners that are made for it and cancels these subscriptions when it is
closed, one for each listener that was made. What is left are the subscriptions from before, however
the run went; they are in the same order unless a listener was made that was subscribed before.
-/

namespace SeededTesting

open Act

/-! ## Cancelling in a list -/

section Lists

variable {α : Type} [DecidableEq α]

/-- Taking away what was added leaves what was there. -/
theorem append_diff_perm (base added : List α) : ((base ++ added).diff added).Perm base := by
  induction added generalizing base with
  | nil => rw [List.diff_nil, List.append_nil]
  | cons a added ih =>
      have herased : ((base ++ a :: added).erase a).Perm (base ++ added) := by
        have hmoved : (base ++ a :: added).Perm (a :: (base ++ added)) := List.perm_middle
        simpa using hmoved.erase a
      rw [List.diff_cons]
      exact (herased.diff_right added).trans (ih base)

/-- What was not there before is taken away from behind. -/
theorem append_diff_of_disjoint {base added : List α} (h : ∀ a ∈ added, a ∉ base) :
    (base ++ added).diff added = base := by
  induction added with
  | nil => rw [List.diff_nil, List.append_nil]
  | cons a added ih =>
      rw [List.forall_mem_cons] at h
      rw [List.diff_cons, List.erase_append_right _ h.1, List.erase_cons_head, ih h.2]

end Lists

/-! ## Who changes subscriptions -/

/-- The regime under which the subscriptions stay as they are, and the run takes over none. -/
def Regime.subscriptions : Regime where
  balanced := False
  step s t := t.subscribed = s.subscribed ∧ t.declared = s.declared
  refl _ := ⟨rfl, rfl⟩
  trans h h' := ⟨h'.1.trans h.1, h'.2.trans h.2⟩

theorem Regime.performs_subscriptions : subscriptions.Performs where
  traces := ⟨fun _ _ => ⟨rfl, rfl⟩, fun _ _ => ⟨rfl, rfl⟩⟩
  state _ _ := ⟨rfl, rfl⟩
  record _ _ _ := ⟨rfl, rfl⟩

/-- Scripts that do not change who listens leave the subscriptions alone. -/
theorem Script.permits_subscriptions : Permits .subscriptions anyComplaint Step.enlists := by
  apply permits_complaints
  case moves => exact fun _ _ _ => id
  case report => exact fun _ _ _ => ⟨rfl, rfl⟩
  case filter => exact fun _ _ _ _ => ⟨rfl, rfl⟩
  case subscribe => exact fun _ hsort => nomatch hsort
  case unsubscribe => exact fun _ hsort => nomatch hsort

namespace Runner

variable (r : Runner Procedure) {audience : Audience} {o : Opening}

/-- The listeners that makers give one after another, up to the first of them that fails. -/
def made : List Maker → World → List ListenerRef
  | [], _ => []
  | maker :: rest, w =>
    match (r.makeBy maker).exec w with
    | (.ok listener, v) => listener :: made rest ((enlist listener).exec v).2
    | (.error _, _) => []

/-- The listeners that are made are subscribed in order, also if a maker fails. -/
theorem enrolled_subscribeBy {makers : List Maker}
    (h : ∀ maker ∈ makers, Abides .subscriptions maker.make) {w : World} (hw : w.Lawful) :
    let v := ((r.subscribeBy makers).exec w).2
    v.session.subscribed = w.session.subscribed ++ r.made makers w ∧
      v.session.declared = w.session.declared ++ r.made makers w := by
  induction makers generalizing w with
  | nil => exact ⟨(List.append_nil _).symm, (List.append_nil _).symm⟩
  | cons maker rest ih =>
      rw [List.forall_mem_cons] at h
      have hmake : Abides .subscriptions (r.makeBy maker) := r.abides_makeBy h.1
      rw [subscribeBy, made]
      rcases hmake.outcome hw trivial with
        ⟨listener, v, hout, ⟨hv, -, ⟨hsubscribed, hdeclared⟩, -⟩, -⟩ |
          ⟨e, v, hout, ⟨-, -, ⟨hsubscribed, hdeclared⟩, -⟩, -, -⟩
      · have henlist : (enlist listener).exec v = (.ok (), ((enlist listener).exec v).2) := rfl
        obtain ⟨hleft, hleft'⟩ := ih h.2 (w := ((enlist listener).exec v).2)
          ⟨hv.errors, hv.handling⟩
        rw [exec_bind_of_ok hout, exec_bind_of_ok henlist, hout]
        dsimp only at hleft hleft' ⊢
        rw [hleft, hleft']
        change (v.session.subscribed ++ [listener]) ++ _ = _ ∧
          (v.session.declared ++ [listener]) ++ _ = _
        rw [hsubscribed, hdeclared, List.append_assoc, List.append_assoc]
        exact ⟨rfl, rfl⟩
      · rw [exec_bind_of_error hout, hout, List.append_nil, List.append_nil]
        exact ⟨hsubscribed, hdeclared⟩

/-! ## The end of a run -/

/-- The subscriptions are cancelled before anything that may fail. -/
theorem left_by_close {w : World} (hw : w.Lawful) :
    let v := (r.close.exec w).2
    v.session.subscribed = w.session.subscribed.diff w.session.declared ∧
      v.session.declared = [] := by
  have hrest : Abides .subscriptions (do
      discard Act.pop
      r.enter .done
      r.log .info "Suite finished" (.suiteFinished r.suite.name)) :=
    .bind (.discard (.pop id complains_any.toTolerates)) fun _ =>
      .bind (r.abides_enter Regime.performs_subscriptions _) fun _ => r.conduct_log _ _ _
  have hcancelled : World.Lawful { w with session := { w.session with
      subscribed := w.session.subscribed.diff w.session.declared
      declared := [] } } := ⟨hw.errors, hw.handling⟩
  rw [close, exec_bind_of_ok (exec_unsubscribeDeclared w)]
  exact (hrest _ hcancelled trivial).1.step

/-- However an action ended, the run is closed in the world that it left. -/
theorem left_by_closing {body : Act Unit} (hbody : Sound body) {w : World} (hw : w.Lawful) :
    let v := (body.exec w).2
    let u := ((Act.andFinally body r.close).exec w).2
    u.session.subscribed = v.session.subscribed.diff v.session.declared ∧
      u.session.declared = [] := by
  rw [exec_andFinally]
  rcases hbody.outcome hw trivial with ⟨_, v, hout, hleads, -⟩ | ⟨e, v, hout, hleads, he, -⟩
  · rw [hout]
    exact r.left_by_close hleads.lawful
  · rw [hout]
    dsimp only
    rw [exec_bind, exec_whileHandling]
    have hclosed := r.left_by_close (hleads.lawful.handled he)
    generalize r.close.exec { v with handling := some e } = result at hclosed ⊢
    obtain ⟨i | _, u⟩ := result
    · exact hclosed
    · exact hclosed

section Runs

variable (hcodes : ∀ code ∈ r.suite.codes, code.Conducts .subscriptions anyComplaint)
  (haudience : audience.Conducts .subscriptions anyComplaint) (hexpands : r.Expands)
  (ho : o.Abides .subscriptions)

include hcodes haudience hexpands ho

theorem sound_of_subscriptions : Sound (r.runSurvivorsBy audience o) :=
  r.abides_runSurvivorsBy .free (fun code hmem => (hcodes code hmem).under .free)
    (haudience.under .free) hexpands (fun _ _ => trivial) (fun _ _ => trivial) (ho.under .free)

/-- While a run is at work, its own listeners are subscribed after those from before. -/
theorem enrolled_runSurvivorsBy {w : World} (hw : w.Lawful) :
    let v := ((r.runSurvivorsBy audience o).exec w).2
    v.session.subscribed = w.session.subscribed ++ r.made o.makers w ∧
      v.session.declared = w.session.declared ++ r.made o.makers w := by
  have hsubscribe : Sound (r.subscribeBy o.makers) :=
    r.abides_subscribeBy (fun _ _ => trivial) (fun _ _ => trivial) (ho.under .free).makers
  have hwork : Abides .subscriptions (r.workBy audience o.ask) :=
    r.abides_workBy Regime.performs_subscriptions hcodes haudience hexpands ho.ask
  have henrolled := r.enrolled_subscribeBy ho.makers hw
  rw [runSurvivorsBy_eq]
  rcases hsubscribe.outcome hw trivial with ⟨_, v, hout, hleads, -⟩ | ⟨e, v, hout, -, -, -⟩
  · rw [hout] at henrolled
    rw [exec_bind_of_ok hout]
    obtain ⟨hsubscribed, hdeclared⟩ := (hwork v hleads.lawful trivial).1.step
    exact ⟨hsubscribed.trans henrolled.1, hdeclared.trans henrolled.2⟩
  · rw [hout] at henrolled
    rw [exec_bind_of_error hout]
    exact henrolled

/-- A run leaves the subscriptions from before, from which each of its own is taken away once. -/
theorem subscribed_runOpened {w : World} (hw : w.Lawful) (hdeclared : w.session.declared = []) :
    let v := ((r.runOpened audience o).exec w).2
    let made := r.made o.makers (r.entered w)
    v.session.subscribed = (w.session.subscribed ++ made).diff made ∧ v.session.declared = [] := by
  have hsound := r.sound_of_subscriptions hcodes haudience hexpands ho
  obtain ⟨last, -, hexec⟩ := r.exec_within (.andFinally hsound (r.conduct_close id .free)) hw
    (Prod.eta _).symm
  obtain ⟨hsubscribed, hcancelled⟩ := r.left_by_closing hsound (r.entered_lawful hw)
  obtain ⟨hmade, hmade'⟩ :=
    r.enrolled_runSurvivorsBy hcodes haudience hexpands ho (r.entered_lawful hw)
  have hempty : (r.entered w).session.declared = [] := hdeclared
  rw [hempty, List.nil_append] at hmade'
  rw [hmade, hmade'] at hsubscribed
  have hsession := congrArg (·.2.session) hexec
  dsimp only at hsession
  rw [session_leaving_resume] at hsession
  intro v made
  exact ⟨(congrArg Session.subscribed hsession).trans hsubscribed,
    (congrArg Session.declared hsession).trans hcancelled⟩

end Runs

/-! ## Makers that fail -/

/-- One of the makers raises an error and leaves the world `u`; those before it gave listeners. -/
def FailsAt (o : Opening) (w : World) (maker : Maker) (e : ErrorId) (u : World) : Prop :=
  ∃ before after v, o.makers = before ++ maker :: after ∧
    (r.subscribeBy before).exec (r.entered w) = (.ok (), v) ∧ maker.make.exec v = (.error e, u)

theorem subscribeBy_append (before after : List Maker) :
    r.subscribeBy (before ++ after) =
      (do r.subscribeBy before; r.subscribeBy after : Act Unit) := by
  induction before with
  | nil => rfl
  | cons maker rest ih =>
      rw [List.cons_append, subscribeBy, subscribeBy, ih, bind_assoc]
      simp only [bind_assoc]

/-- An error of a maker is replaced by one about the maker; nothing else changes. -/
theorem exec_makeBy_of_error {maker : Maker} {v u : World} {e : ErrorId}
    (hmake : maker.make.exec v = (.error e, u)) (hkind : (u.errors.get e).kind.interrupt = false) :
    ∃ errors i, (r.makeBy maker).exec v = (.error i, { u with errors }) ∧ i < errors.size ∧
      (errors.get i).toComplaint = r.notInstantiable maker.tag := by
  let c := r.notInstantiable maker.tag
  let i := u.errors.size
  let made := (u.errors.add c).2
  let linked := made.setCause i (some e)
  have hadded : i < made.size := by
    change u.errors.size < (u.errors.add c).2.size
    simp
  have hlinked := made.grows_setCause i (some e)
  have hraised := linked.grows_linkRaised (some e) i
  have hsize : i < linked.size := Nat.lt_of_lt_of_le hadded hlinked.size_le
  refine ⟨linked.linkRaised (some e) i, i, ?_, Nat.lt_of_lt_of_le hsize hraised.size_le, ?_⟩
  · rw [makeBy, exec_handle, hmake]
    dsimp only
    rw [hkind, if_neg Bool.false_ne_true, exec_whileHandling]
    rfl
  · rw [hraised.complaint i hsize, hlinked.complaint i hadded, ErrorStore.get_add_self]
    rfl

/-- Makers are asked in order up to the one that fails. -/
theorem exec_subscribeBy_of_failsAt {w u : World} {maker : Maker} {e : ErrorId}
    (h : r.FailsAt o w maker e u) (hkind : (u.errors.get e).kind.interrupt = false) :
    ∃ errors i, (r.subscribeBy o.makers).exec (r.entered w) = (.error i, { u with errors }) ∧
      i < errors.size ∧ (errors.get i).toComplaint = r.notInstantiable maker.tag := by
  obtain ⟨before, after, v, hmakers, hbefore, hmake⟩ := h
  obtain ⟨errors, i, hout, hi, hcomplaint⟩ := r.exec_makeBy_of_error hmake hkind
  refine ⟨errors, i, ?_, hi, hcomplaint⟩
  rw [hmakers, subscribeBy_append, exec_bind_of_ok hbefore, subscribeBy, exec_bind_of_error hout]

/-- A run that makes listeners and is closed at once. -/
def openAndClose (makers : List Maker) : Act Unit :=
  Act.activate { runner := r.master, target := r.suite.name, nightly := r.config.nightly } do
    Act.push (.fresh r.master)
    Act.andFinally (r.subscribeBy makers) r.close

/-- A run whose listeners cannot be made does nothing else. -/
theorem exec_runOpened_of_error {w u : World} {i : ErrorId}
    (h : (r.subscribeBy o.makers).exec (r.entered w) = (.error i, u)) :
    (r.runOpened audience o).exec w = (r.openAndClose o.makers).exec w := by
  have hwork : (Act.andFinally (r.runSurvivorsBy audience o) r.close).exec (r.entered w) =
      (Act.andFinally (r.subscribeBy o.makers) r.close).exec (r.entered w) := by
    rw [exec_andFinally, exec_andFinally, runSurvivorsBy_eq, exec_bind_of_error h, h]
  rw [runOpened, openAndClose]
  exact r.exec_within_congr hwork

theorem subscribeBy_congr {r r' : Runner Procedure} (hname : r'.suite.name = r.suite.name)
    (makers : List Maker) : r'.subscribeBy makers = r.subscribeBy makers := by
  have hmake : r'.makeBy = r.makeBy := by
    unfold makeBy notInstantiable
    rw [hname]
  induction makers with
  | nil => rfl
  | cons maker rest ih => rw [subscribeBy, subscribeBy, hmake, ih]

/-- What is closed at once depends on the name of the suite, the mode and the master seed alone. -/
theorem openAndClose_congr {r r' : Runner Procedure} (hname : r'.suite.name = r.suite.name)
    (hnightly : r'.config.nightly = r.config.nightly) (hmaster : r'.master = r.master)
    (makers : List Maker) : r'.openAndClose makers = r.openAndClose makers := by
  have hclose : r'.close = r.close := by
    unfold close enter log seedChain
    rw [hmaster, hname]
  rw [openAndClose, openAndClose, hname, hnightly, hmaster, subscribeBy_congr hname, hclose]

/-- Closing a run fails only if the stack is empty. -/
theorem runIn_close {w : World} {context : RunContext} {outer : List RunContext}
    (hcontexts : w.contexts = context :: outer) :
    (r.close.runIn w).1 =
      if w.active then .ok () else .error ContextError.popOfEmpty.complaint := by
  have hactive : w.active = !context.stack.isEmpty := by
    rw [World.active, hcontexts]
  rw [close, runIn_eq, exec_bind_of_ok (exec_unsubscribeDeclared w), exec_bind, exec_discard,
    exec_pop]
  dsimp only
  rw [hcontexts, hactive]
  dsimp only
  cases context.stack with
  | nil => exact runIn_complain _ _
  | cons source rest => rfl

/-- After an error a run is closed with that error at hand and ends with it unless closing fails. -/
theorem exec_closing_of_error {body : Act Unit} {w u : World} {i : ErrorId}
    (hbody : body.exec w = (.error i, u)) (hu : u.Lawful) (hi : i < u.errors.size)
    {context : RunContext} {outer : List RunContext} (hcontexts : u.contexts = context :: outer) :
    ∃ k v, (Act.andFinally body r.close).exec w = (.error k, v) ∧
      (v.errors.get k).toComplaint = (if u.active then (u.errors.get i).toComplaint
        else ContextError.popOfEmpty.complaint) ∧
      v.session.trace = u.session.trace ∧ v.session.recorded = u.session.recorded := by
  rcases hclosed : r.close.exec { u with handling := some i } with ⟨outcome, v⟩
  have hclose : (r.close.runIn { u with handling := some i }).1 =
      if u.active then .ok () else .error ContextError.popOfEmpty.complaint :=
    r.runIn_close hcontexts
  have hsilent : Abides (Triple.loosen .silent) r.close :=
    r.conduct_close id ⟨fun _ _ => ⟨rfl, rfl⟩, fun _ _ => ⟨rfl, rfl⟩, fun _ _ => ⟨rfl, rfl⟩⟩
  have hleft := (hsilent _ (hu.handled hi) trivial).1
  rw [runIn_eq, hclosed] at hclose
  rw [hclosed] at hleft
  rw [exec_andFinally, hbody]
  dsimp only
  rw [exec_bind, exec_whileHandling, hclosed]
  -- Closing pops the randomness of the run, and that is all that can fail.
  cases outcome with
  | ok _ =>
      refine ⟨i, _, rfl, ?_, hleft.step⟩
      split at hclose
      next hactive => rw [if_pos hactive, hleft.grows.errors.complaint i hi]
      next => cases hclose
  | error k =>
      refine ⟨k, _, rfl, ?_, hleft.step⟩
      split at hclose
      next => cases hclose
      next hactive =>
        rw [if_neg hactive]
        exact Except.error.inj hclose

/-- What is closed at once because a maker fails ends with the error of the maker, or else with that
of the pop that closes it, and shows nothing more. -/
theorem runIn_openAndClose {makers : List Maker} (hmakers : ∀ maker ∈ makers, Sound maker.make)
    {w u : World} (hw : w.Lawful) {i : ErrorId}
    (hsubscribe : (r.subscribeBy makers).exec (r.entered w) = (.error i, u))
    (hkind : (u.errors.get i).kind.refusalToLeave = none) :
    ((r.openAndClose makers).runIn w).1 = .error (if u.active then (u.errors.get i).toComplaint
        else ContextError.popOfEmpty.complaint) ∧
      ((r.openAndClose makers).exec w).2.session.trace = u.session.trace ∧
      ((r.openAndClose makers).exec w).2.session.recorded = u.session.recorded := by
  have hsound : Sound (r.subscribeBy makers) :=
    r.abides_subscribeBy (fun _ _ => trivial) (fun _ _ => trivial) hmakers
  have hsubscribed := hsound (r.entered w) (r.entered_lawful hw) trivial
  rw [hsubscribe] at hsubscribed
  obtain ⟨hleads, hi, -⟩ := hsubscribed
  obtain ⟨context, outer, hcontexts⟩ : ∃ context outer, u.contexts = context :: outer :=
    List.exists_cons_of_length_eq_add_one (hleads.grows.depth.trans rfl)
  obtain ⟨k, v, hclosing, hsaid, htrace, hrecorded⟩ :=
    r.exec_closing_of_error hsubscribe hleads.lawful hi hcontexts
  -- Neither error refuses to leave, so none is replaced on the way out.
  have hrefusal : (v.errors.get k).toComplaint.kind.refusalToLeave = none := by
    rw [hsaid]
    split
    · exact hkind
    · rfl
  obtain ⟨last, -, hexec⟩ :=
    r.exec_within (.andFinally hsound (r.conduct_close id .free)) hw hclosing
  have hrun : (r.openAndClose makers).exec w = (.error k, { v with
      contexts := w.contexts
      session := { v.session with lastContext := some last } }) := by
    rw [openAndClose, hexec, exec_leaving, exec_resume]
    dsimp only
    rw [hrefusal]
  rw [runIn_eq, hrun]
  exact ⟨congrArg Except.error hsaid, htrace, hrecorded⟩

/-- Where a maker fails, nobody else is called, and only the error of the maker tells how. -/
theorem runOpened_of_failsAt (hmakers : ∀ maker ∈ o.makers, Sound maker.make) {w u : World}
    (hw : w.Lawful) {maker : Maker} {e : ErrorId} (h : r.FailsAt o w maker e u)
    (hkind : (u.errors.get e).kind.interrupt = false) :
    ((r.runOpened audience o).runIn w).1 = .error (if u.active then r.notInstantiable maker.tag
        else ContextError.popOfEmpty.complaint) ∧
      ((r.runOpened audience o).exec w).2.session.trace = u.session.trace ∧
      ((r.runOpened audience o).exec w).2.session.recorded = u.session.recorded ∧
      ∀ (r' : Runner Procedure) (audience' : Audience) ask, r'.suite.name = r.suite.name →
        r'.config.nightly = r.config.nightly → r'.master = r.master →
          (r'.runOpened audience' { o with ask }).exec w = (r.runOpened audience o).exec w := by
  obtain ⟨errors, i, hsubscribe, -, hcomplaint⟩ := r.exec_subscribeBy_of_failsAt h hkind
  have hrefusal : (errors.get i).toComplaint.kind.refusalToLeave = none := by
    rw [hcomplaint]
    rfl
  obtain ⟨hraised, htrace, hrecorded⟩ := r.runIn_openAndClose hmakers hw hsubscribe hrefusal
  have hrun : (r.runOpened audience o).exec w = (r.openAndClose o.makers).exec w :=
    r.exec_runOpened_of_error hsubscribe
  rw [hcomplaint] at hraised
  refine ⟨?_, ?_, ?_, ?_⟩
  · rw [runIn_eq, hrun, ← runIn_eq]
    exact hraised
  · rw [hrun, htrace]
  · rw [hrun, hrecorded]
  -- The makers alone have decided how the run ends, so nobody else is looked at.
  · intro r' audience' ask hname hnightly hmaster
    have hentered : r'.entered w = r.entered w := by
      rw [entered, entered, hname, hnightly, hmaster]
    have hsubscribe' : (r'.subscribeBy o.makers).exec (r'.entered w) =
        (.error i, { u with errors }) := by
      rw [hentered, subscribeBy_congr hname, hsubscribe]
    rw [hrun, r'.exec_runOpened_of_error (o := { o with ask }) hsubscribe',
      openAndClose_congr hname hnightly hmaster]

end Runner

/-! ## Whole runs -/

/-- The run of a runner is opened by its own makers, who leave the subscriptions alone like all
other collaborators. However a run ends that is opened by such makers, those are subscribed
afterwards who were subscribed before, and the run has cancelled what it subscribed; they are in the
same order if none of those that were made was subscribed before. If a maker raises an error that is
no interrupt, nobody is called or told anything more, so that other collaborators do not change the
run: it ends with an error about the maker, or with that of the pop that closes the run if the maker
has left the stack empty. -/
theorem Runner.subscriptions_restored {host origin : Host} {suite : Suite Script}
    {config : Option RunConfig} {sequence sequence' : Nat} {r : Runner Procedure}
    (hmake : make (Script.suiteProcedures host suite) config origin sequence = .ok (r, sequence'))
    (hsuite : ∀ script ∈ suite.codes, Script.avoids Script.Step.enlists script = true)
    {declarations : List NotifierProgram.Declaration}
    (hdeclarations : ∀ declaration ∈ declarations, ∀ script ∈ declaration.scripts,
      Script.avoids Script.Step.enlists script = true)
    {w : World} (hw : w.Lawful) (hdeclared : w.session.declared = []) :
    let audience := r.audienceFor host declarations
    (r.run audience = r.runOpened audience r.ownOpening ∧ r.ownOpening.Abides .subscriptions) ∧
      ∀ o : Opening, o.Abides .subscriptions →
        let v := ((r.runOpened audience o).exec w).2
        (v.session.subscribed.Perm w.session.subscribed ∧ v.session.declared = [] ∧
          ((∀ listener ∈ r.made o.makers (r.entered w), listener ∉ w.session.subscribed) →
            v.session.subscribed = w.session.subscribed)) ∧
        ∀ maker e u, r.FailsAt o w maker e u → (u.errors.get e).kind.interrupt = false →
          ((r.runOpened audience o).runIn w).1 = .error
            (if u.active then r.notInstantiable maker.tag
              else ContextError.popOfEmpty.complaint) ∧
          v.session.trace = u.session.trace ∧ v.session.recorded = u.session.recorded ∧
          ∀ (r' : Runner Procedure) (audience' : Audience) ask, r'.suite.name = r.suite.name →
            r'.config.nightly = r.config.nightly → r'.master = r.master →
              (r'.runOpened audience' { o with ask }).exec w = (r.runOpened audience o).exec w := by
  intro audience
  obtain ⟨hcodes, haudience⟩ :=
    conducts_of_make hmake Script.permits_subscriptions hsuite hdeclarations
  refine ⟨⟨r.run_eq_runOpened, ?_⟩, fun o ho => ?_⟩
  · exact r.abides_ownOpening (fun _ _ => ⟨rfl, rfl⟩) (fun _ _ => ⟨rfl, rfl⟩) hcodes
  · obtain ⟨hsubscribed, hcancelled⟩ :=
      r.subscribed_runOpened hcodes haudience (expands_of_make hmake) ho hw hdeclared
    intro v
    refine ⟨⟨?_, hcancelled, fun hfresh => ?_⟩, fun maker e u hfails hkind =>
      r.runOpened_of_failsAt (ho.under .free).makers hw hfails hkind⟩
    · rw [hsubscribed]
      exact append_diff_perm _ _
    · rw [hsubscribed]
      exact append_diff_of_disjoint hfresh

/-- A suite with two factories of listeners, one of which always gives the same listener. -/
def attendedSuite : Suite Script where
  name := "Attended"
  factory := some { code := [] }
  units := [{ name := "draws", body := some [.fraction] }]
  metadata := { seed := some "[1:2]" }
  listeners := [
    { tag := "same", shared := true, create := [], reactions := ⟨[], [], [], [], [.fraction]⟩ },
    { tag := "new", create := [.push 5], reactions := ⟨[], [], [], [], []⟩ }]

/-- Makers of which the first gives a listener that was subscribed before, two give the same one,
and the last one fails. -/
def Opening.failing : Opening where
  makers := [
    ⟨"old", return .caller 1⟩, ⟨"same", return .declared 0 none⟩,
    ⟨"same", return .declared 0 none⟩,
    ⟨"none", Act.complain ⟨.named "RuntimeError", some "no listener"⟩⟩]
  ask _ := return true

/-- The subscription of a listener that was made again is cancelled in the first place where it is
found, so it has moved. The run of the runner itself leaves everything in order. -/
theorem Runner.subscriptions_restored_attendedSuite :
    let w : World := { session := { subscribed := [.caller 0, .caller 1, .caller 0] } }
    ∃ r sequence,
      make (Script.suiteProcedures {} attendedSuite) (some .unset) {} 0 = .ok (r, sequence) ∧
        w.Lawful ∧ Opening.failing.Abides .subscriptions ∧
        let audience := r.audienceFor {} [.recording, .silent]
        let v := ((r.runOpened audience .failing).exec w).2
        v.session.subscribed = [.caller 0, .caller 0, .caller 1] ∧
          v.session.subscribed.Perm w.session.subscribed ∧
          ((r.runOpened audience .failing).runIn w).1 = .error (r.notInstantiable "none") ∧
          ((r.run audience).exec w).2.session.subscribed = w.session.subscribed := by
  intro w
  obtain ⟨made, hmake⟩ : ∃ made,
      make (Script.suiteProcedures {} attendedSuite) (some .unset) {} 0 = .ok made := ⟨_, rfl⟩
  have hw : w.Lawful := ⟨ErrorStore.closed_empty, fun _ h => by cases h⟩
  have hfailing : Opening.failing.Abides .subscriptions := by
    refine ⟨fun maker hmem => ?_, fun _ => .value true⟩
    simp only [Opening.failing, List.mem_cons, List.not_mem_nil, or_false] at hmem
    rcases hmem with rfl | rfl | rfl | rfl
    · exact .value _
    · exact .value _
    · exact .value _
    · exact .complain trivial
  have hdeclarations : ∀ declaration ∈ [NotifierProgram.Declaration.recording, .silent],
      ∀ script ∈ declaration.scripts, Script.avoids Script.Step.enlists script = true := by
    decide
  obtain ⟨⟨hrun, hown⟩, hall⟩ :=
    subscriptions_restored (r := made.1) hmake (by decide) hdeclarations hw rfl
  obtain ⟨⟨hperm, -⟩, hfails⟩ := hall .failing hfailing
  obtain ⟨⟨-, -, horder⟩, -⟩ := hall made.1.ownOpening hown
  have hfresh : ∀ listener ∈ made.1.made made.1.ownOpening.makers (made.1.entered w),
      listener ∉ w.session.subscribed := by
    cases hmake
    decide +kernel
  let c : Complaint := ⟨.named "RuntimeError", some "no listener"⟩
  obtain ⟨v, hmakers, hactive⟩ : ∃ v,
      (made.1.subscribeBy Opening.failing.makers.dropLast).exec (made.1.entered w) = (.ok (), v) ∧
        v.active = true := ⟨_, rfl, rfl⟩
  have hsaid := runIn_complain (α := ListenerRef) c v
  rw [runIn_eq, exec_complain] at hsaid
  obtain ⟨hraised, -⟩ := hfails ⟨"none", Act.complain c⟩ _ _
    ⟨Opening.failing.makers.dropLast, [], v, rfl, hmakers, exec_complain c v⟩
    (congrArg (·.kind.interrupt) (Except.error.inj hsaid))
  have hmaker := hraised.trans (congrArg Except.error (if_pos hactive))
  refine ⟨made.1, made.2, hmake, hw, hfailing, ?_, hperm, hmaker, ?_⟩
  · cases hmake
    decide +kernel
  · rw [hrun]
    exact horder hfresh

/-- A suite with a factory of listeners that empties the stack before it fails. -/
def spoilingSuite : Suite Script where
  name := "Spoiling"
  factory := some { code := [] }
  units := [{ name := "waits", body := some [] }]
  metadata := { seed := some "[1:2]" }
  listeners := [{
    tag := "L"
    create := [.clear, .raise [{ error := { complaint := ⟨.named "RuntimeError", some "lost"⟩ } }]]
    reactions := ⟨[], [], [], [], []⟩ }]

/-- The error that leaves the run does not tell of the factory. -/
theorem Runner.raised_spoilingSuite :
    ∃ r sequence,
      make (Script.suiteProcedures {} spoilingSuite) (some .unset) {} 0 = .ok (r, sequence) ∧
        (∃ maker e u, r.FailsAt r.ownOpening {} maker e u ∧
          (u.errors.get e).kind.interrupt = false) ∧
        ((r.run (r.audienceFor {} [])).runIn {}).1 = .error ContextError.popOfEmpty.complaint ∧
        ContextError.popOfEmpty.complaint.kind ≠ .configuration := by
  obtain ⟨made, hmake⟩ : ∃ made,
      make (Script.suiteProcedures {} spoilingSuite) (some .unset) {} 0 = .ok made := ⟨_, rfl⟩
  refine ⟨made.1, made.2, hmake, ?_, ?_, by decide⟩
  · let v := made.1.entered {}
    obtain ⟨maker, hmaker⟩ : ∃ maker, made.1.ownOpening.makers = [maker] := by
      cases hmake
      exact ⟨_, rfl⟩
    refine ⟨maker, 0, (maker.make.exec v).2, ⟨[], [], v, hmaker, rfl, Prod.ext ?_ rfl⟩, ?_⟩
    · cases hmake
      cases hmaker
      rfl
    · cases hmake
      cases hmaker
      decide +kernel
  · cases hmake
    decide +kernel

end SeededTesting
